import Mathlib.Data.List.Induction
import MoonlightPsp.Lib.EventLog
import MoonlightPsp.Power.Model

/-!
# Events of the power switch

`power_thread` clears `g_power_event` when the handler it ran is done, whatever was put
there in the meantime.  So an event is lost if it is delivered while a handler runs, and
no other event is.
-/

namespace MoonlightPsp.Power

open EventLog GuardedRun

variable {s t : PowerStatics} {e : PowerEvent} {env : ThreadEnv} {log : List LogEntry}

/-! ## What is to hold -/

/-- The handler for an event. -/
def PowerEvent.handler : PowerEvent → Handler
  | .suspending => .suspend
  | .standby => .suspend
  | .resumeComplete => .resume

/-- The handler for the last event that was delivered was started after it. -/
def Handled (log : List LogEntry) : Prop :=
  ∀ before e after, log = before ++ .delivered e :: after →
    (∀ d, .delivered d ∉ after) → .started e.handler ∈ after

/-- The handler that runs. -/
def Place.handler : Place → Option Handler
  | .suspend => some .suspend
  | .cacheToken => some .suspend
  | .suspendWait => some .suspend
  | .resume => some .resume
  | .reconnect => some .resume
  | _ => none

/-- Between two handlers, with no event pending, the last event is handled. -/
def NoneLost (s : PowerStatics) : Prop :=
  s.place.handler = none → s.powerEvent = 0 → Handled s.log

/-- The thread has found an event and has not cleared it yet. -/
def Place.busy (p : Place) : Bool := p.handler.isSome || p = .clear

/-- No event is lost in the run, nor when the thread goes on alone after it. -/
def NeverLost (s : PowerStatics) (inputs : List PowerInput) : Prop :=
  ∀ turns : List ThreadEnv,
    Throughout PowerStatics.step NoneLost s (inputs ++ turns.map .thread)

/-- No event is delivered between the test that finds an event and the end of its
handler, when it is cleared. -/
def Undisturbed (s : PowerStatics) : PowerInput → Prop
  | .callback powerFlags => flaggedEvent powerFlags ≠ none → s.place.busy = false
  | .thread _ => True

/-! ## The event to be handled -/

/-- A step in which everything succeeds. -/
def wakeful : ThreadEnv := ⟨0, true, true, true, true, true⟩

/-- The event to be handled after an entry of the log. -/
def LogEntry.settle (u : Option PowerEvent) : LogEntry → Option PowerEvent
  | .delivered e => some e
  | .started h => u.filter fun e => e.handler ≠ h

/-- The last event of the log, unless its handler was started. -/
def unhandled (log : List LogEntry) : Option PowerEvent := log.foldl LogEntry.settle none

@[simp] theorem unhandled_snoc (log : List LogEntry) (entry : LogEntry) :
    unhandled (log ++ [entry]) = entry.settle (unhandled log) :=
  List.foldl_append

theorem unhandled_eq_some : unhandled log = some e ↔
    ∃ before after, log = before ++ .delivered e :: after ∧
      (∀ d, .delivered d ∉ after) ∧ .started e.handler ∉ after := by
  induction log using List.reverseRecOn with
  | nil =>
      constructor
      · intro h
        cases h
      · rintro ⟨before, after, h, -⟩
        simp at h
  | append_singleton log entry ih =>
      rw [unhandled_snoc]
      cases entry with
      | delivered d =>
          constructor
          · intro h
            obtain rfl := Option.some.inj h
            exact ⟨log, [], rfl, by simp, by simp⟩
          · rintro ⟨before, after, h, hlast, -⟩
            rcases snoc_eq_append_cons h with ⟨-, -, hd⟩ | ⟨rest, rfl, -⟩
            · rw [LogEntry.settle, LogEntry.delivered.inj hd]
            · exact absurd (List.mem_append_right rest List.mem_cons_self) (hlast d)
      | started h =>
          rw [LogEntry.settle, Option.filter_eq_some_iff, ih, decide_eq_true_eq]
          constructor
          · rintro ⟨⟨before, after, rfl, hlast, hnot⟩, hne⟩
            refine ⟨before, after ++ [.started h], by simp, ?_, ?_⟩
            · simpa using hlast
            · simpa using ⟨hnot, hne⟩
          · rintro ⟨before, after, hlog, hlast, hnot⟩
            rcases snoc_eq_append_cons hlog with ⟨-, -, hd⟩ | ⟨rest, rfl, rfl⟩
            · cases hd
            · simp only [List.mem_append, not_or] at hlast hnot
              refine ⟨⟨before, rest, rfl, fun d => (hlast d).1, hnot.1⟩, ?_⟩
              intro heq
              exact hnot.2 (by rw [heq]; exact List.mem_cons_self)

/-- The last event is handled if there is none to be handled. -/
theorem handled_iff_unhandled : Handled log ↔ unhandled log = none := by
  constructor
  · intro h
    cases hu : unhandled log with
    | none => rfl
    | some e =>
        obtain ⟨before, after, hlog, hlast, hnot⟩ := unhandled_eq_some.mp hu
        exact absurd (h before e after hlog hlast) hnot
  · intro hu before e after hlog hlast
    by_contra hnot
    have hsome := unhandled_eq_some.mpr ⟨before, after, hlog, hlast, hnot⟩
    rw [hu] at hsome
    cases hsome

/-! ## Steps of the thread -/

theorem value_pos (e : PowerEvent) : e.value ≠ 0 := by
  cases e <;> exact Nat.succ_ne_zero _

/-- The events with the value of a handler's event are the ones that it is for. -/
theorem settle_started {h : Handler} (hvalue : e.handler = h) :
    (LogEntry.started h).settle (some e) = none := by
  rw [LogEntry.settle, Option.filter_some, decide_eq_false (not_not_intro hvalue)]
  rfl

theorem handler_of_value_one (h : e.value = 1) : e.handler = .suspend := by
  cases e with
  | resumeComplete => cases h
  | _ => rfl

theorem handler_of_value_two (h : e.value = 2) : e.handler = .resume := by
  cases e with
  | resumeComplete => rfl
  | _ => cases h

/-- How many steps of the thread it takes until an event is cleared. -/
def Place.turnsToClear : Place → ℕ
  | .suspend => 4
  | .cacheToken => 3
  | .suspendWait => 2
  | .resume => 3
  | .reconnect => 2
  | .clear => 1
  | _ => 0

theorem finishResume_keeps (s : PowerStatics) (env : ThreadEnv) :
    (finishResume s env).log = s.log ∧ (finishResume s env).powerEvent = s.powerEvent := by
  rw [finishResume, powerHandlerQuickReconnect]
  split <;> rename_i heq <;> split at heq <;> cases heq <;> exact ⟨rfl, rfl⟩

theorem saveSessionToken_keeps (s : PowerStatics) (env : ThreadEnv) :
    (saveSessionToken s env).log = s.log ∧
      (saveSessionToken s env).powerEvent = s.powerEvent := by
  rw [saveSessionToken]
  split <;> exact ⟨rfl, rfl⟩

/-- A step that clears the event, or one in its handler. -/
theorem powerThread_busy (hbusy : s.place.busy = true) (env : ThreadEnv) :
    (s.place = .clear ∧ powerThread s env = { s with powerEvent := 0, place := .delay }) ∨
      (s.place ≠ .clear ∧ (powerThread s env).place.busy = true ∧
        (powerThread s env).place.turnsToClear + 1 = s.place.turnsToClear ∧
        (powerThread s env).log = s.log ∧ (powerThread s env).powerEvent = s.powerEvent) := by
  rw [powerThread]
  cases hplace : s.place with
  | clear => exact .inl ⟨rfl, rfl⟩
  | suspend => exact .inr ⟨Place.noConfusion, rfl, rfl, rfl, rfl⟩
  | cacheToken =>
      obtain ⟨hlog, hevent⟩ := saveSessionToken_keeps s env
      exact .inr ⟨Place.noConfusion, rfl, rfl, hlog, hevent⟩
  | suspendWait => exact .inr ⟨Place.noConfusion, rfl, rfl, rfl, rfl⟩
  | resume => exact .inr ⟨Place.noConfusion, rfl, rfl, rfl, rfl⟩
  | reconnect =>
      obtain ⟨hlog, hevent⟩ := finishResume_keeps s env
      exact .inr ⟨Place.noConfusion, rfl, rfl, hlog, hevent⟩
  | testSuspend =>
      rw [hplace] at hbusy
      cases hbusy
  | testResume =>
      rw [hplace] at hbusy
      cases hbusy
  | delay =>
      rw [hplace] at hbusy
      cases hbusy

/-- A step that starts the handler of the event that is pending, or one that finds
nothing to do. -/
theorem powerThread_idle (hidle : s.place.busy = false) (env : ThreadEnv) :
    (∃ h, (∀ e : PowerEvent, e.value = s.powerEvent → e.handler = h) ∧
        s.powerEvent ≠ 0 ∧ (powerThread s env).place.handler = some h ∧
        (powerThread s env).powerEvent = s.powerEvent ∧
        (powerThread s env).log = s.log ++ [.started h]) ∨
      ∃ place : Place, place.busy = false ∧ powerThread s env = s.goTo place := by
  rw [powerThread]
  cases hplace : s.place with
  | testSuspend =>
      simp only
      split
      · rename_i hevent
        refine .inl ⟨.suspend, fun e he => handler_of_value_one (he.trans hevent), ?_, rfl,
          rfl, rfl⟩
        omega
      · exact .inr ⟨.testResume, rfl, rfl⟩
  | testResume =>
      simp only
      split
      · rename_i hevent
        refine .inl ⟨.resume, fun e he => handler_of_value_two (he.trans hevent), ?_, rfl,
          rfl, rfl⟩
        omega
      · exact .inr ⟨.delay, rfl, rfl⟩
  | delay => exact .inr ⟨.testSuspend, rfl, rfl⟩
  | _ =>
      rw [hplace] at hidle
      cases hidle

@[simp] theorem place_powerCallback (s : PowerStatics) (powerFlags : UInt32) :
    (powerCallback s powerFlags).place = s.place := by
  rw [powerCallback]
  split <;> rfl

theorem unhandled_powerCallback (s : PowerStatics) (powerFlags : UInt32) :
    unhandled (powerCallback s powerFlags).log =
      (flaggedEvent powerFlags).or (unhandled s.log) := by
  rw [powerCallback]
  split
  · rename_i e hflags
    rw [unhandled_snoc, hflags]
    rfl
  · rename_i hflags
    rw [hflags]
    rfl

/-! ## Runs without a delivery in between -/

/-- What `g_power_event` holds of an event to be handled. -/
def pendingValue : Option PowerEvent → ℕ
  | some e => e.value
  | none => 0

/-- The event to be handled is pending, and there is none while a handler runs. -/
structure Kept (s : PowerStatics) : Prop where
  idle : s.place.busy = false → s.powerEvent = pendingValue (unhandled s.log)
  busy : s.place.busy = true → s.powerEvent ≠ 0 ∧ unhandled s.log = none

theorem kept_initial (tokenFile : Option SessionToken) (meRunning isPaired : Bool) :
    Kept (.initial tokenFile meRunning isPaired) where
  idle _ := rfl
  busy hbusy := by cases hbusy

theorem Kept.noneLost (h : Kept s) : NoneLost s := by
  intro _ hevent
  rw [handled_iff_unhandled]
  cases hbusy : s.place.busy with
  | true => exact (h.busy hbusy).2
  | false =>
      have hpending := h.idle hbusy
      cases hu : unhandled s.log with
      | none => rfl
      | some e =>
          rw [hu, hevent] at hpending
          exact absurd hpending.symm (value_pos e)

theorem Kept.callback (h : Kept s) {powerFlags : UInt32}
    (hok : flaggedEvent powerFlags ≠ none → s.place.busy = false) :
    Kept (powerCallback s powerFlags) := by
  rw [powerCallback]
  split
  · rename_i e hflags
    have hidle : s.place.busy = false := by
      apply hok
      rw [hflags]
      exact Option.some_ne_none e
    constructor
    · intro _
      simp only [unhandled_snoc]
      rfl
    · intro hbusy
      rw [hidle] at hbusy
      cases hbusy
  · exact h

theorem Kept.thread (h : Kept s) (env : ThreadEnv) : Kept (powerThread s env) := by
  cases hbusy : s.place.busy with
  | true =>
      obtain ⟨hevent, hnone⟩ := h.busy hbusy
      rcases powerThread_busy hbusy env with ⟨-, hclear⟩ | ⟨-, hstill, -, hlog, hsame⟩
      · rw [hclear]
        constructor
        · intro _
          simp only [hnone]
          rfl
        · intro hdelay
          cases hdelay
      · constructor
        · intro hidle
          rw [hstill] at hidle
          cases hidle
        · intro _
          rw [hlog, hsame]
          exact ⟨hevent, hnone⟩
  | false =>
      have hpending := h.idle hbusy
      rcases powerThread_idle hbusy env with
        ⟨handler, hfor, hevent, hstarted, hsame, hlog⟩ | ⟨place, hidle, hgoes⟩
      · constructor
        · intro hidle
          rw [Place.busy, hstarted] at hidle
          cases hidle
        · intro _
          rw [hlog, hsame, unhandled_snoc]
          refine ⟨hevent, ?_⟩
          cases hu : unhandled s.log with
          | none =>
              rw [hu] at hpending
              exact absurd hpending hevent
          | some e =>
              rw [hu] at hpending
              exact settle_started (hfor e hpending.symm)
      · rw [hgoes]
        constructor
        · intro _
          exact hpending
        · intro hwork
          rw [PowerStatics.goTo, hidle] at hwork
          cases hwork

theorem Kept.step (h : Kept s) {i : PowerInput} (hok : Undisturbed s i) :
    Kept (s.step i) := by
  cases i with
  | callback powerFlags => exact h.callback hok
  | thread env => exact h.thread env

/-! ## A delivery in between -/

/-- An event that is to be handled when another one is cleared is lost. -/
theorem not_noneLost_cleared (hlost : unhandled s.log ≠ none) :
    ¬NoneLost { s with powerEvent := 0, place := .delay } := by
  intro h
  exact hlost (handled_iff_unhandled.mp (h rfl rfl))

/-- A handler that runs ends, and then the event is lost. -/
theorem lost_at_end {n : ℕ} (hbusy : s.place.busy = true)
    (hturns : s.place.turnsToClear ≤ n) (hlost : unhandled s.log ≠ none)
    (env : ThreadEnv) :
    ∃ turns : List ThreadEnv,
      ¬NoneLost (run PowerStatics.step s (turns.map .thread)) := by
  induction n generalizing s with
  | zero =>
      rcases powerThread_busy hbusy env with ⟨hplace, -⟩ | ⟨-, -, hless, -⟩
      · rw [hplace] at hturns
        cases hturns
      · omega
  | succ n ih =>
      rcases powerThread_busy hbusy env with ⟨-, hclear⟩ | ⟨-, hstill, hless, hlog, -⟩
      · refine ⟨[env], ?_⟩
        have hend : run PowerStatics.step s ([env].map .thread) = powerThread s env := rfl
        rw [hend, hclear]
        exact not_noneLost_cleared hlost
      · rw [← hlog] at hlost
        obtain ⟨turns, hno⟩ := ih hstill (by omega) hlost
        exact ⟨env :: turns, hno⟩

theorem NeverLost.after {i : PowerInput} {inputs : List PowerInput}
    (h : NeverLost s (i :: inputs)) : NeverLost (s.step i) inputs := by
  intro turns
  exact (h turns).after

/-- An event that came while a handler runs is lost, whatever comes after it: at the
latest when the handler ends. -/
theorem not_neverLost (hbusy : s.place.busy = true) (hlost : unhandled s.log ≠ none)
    (env : ThreadEnv) (inputs : List PowerInput) : ¬NeverLost s inputs := by
  intro h
  induction inputs generalizing s with
  | nil =>
      obtain ⟨turns, hno⟩ := lost_at_end hbusy (Nat.le_refl _) hlost env
      exact hno (h turns _ List.prefix_rfl)
  | cons i inputs ih =>
      cases i with
      | callback powerFlags =>
          apply ih ?_ ?_ h.after
          · rwa [PowerStatics.step, place_powerCallback]
          · rw [PowerStatics.step, unhandled_powerCallback]
            intro hnone
            exact hlost (Option.or_eq_none_iff.mp hnone).2
      | thread env =>
          rcases powerThread_busy hbusy env with ⟨-, hclear⟩ | ⟨-, hstill, -, hlog, -⟩
          · have hstate := (h.after []).start
            rw [PowerStatics.step, hclear] at hstate
            exact not_noneLost_cleared hlost hstate
          · rw [← hlog] at hlost
            exact ih hstill hlost h.after

/-- If no event is lost, none is delivered while another one is handled. -/
theorem NeverLost.meets {inputs : List PowerInput} (h : NeverLost s inputs) :
    Meets PowerStatics.step Undisturbed s inputs := by
  induction inputs generalizing s with
  | nil => trivial
  | cons i inputs ih =>
      refine ⟨?_, ih h.after⟩
      cases i with
      | thread env => trivial
      | callback powerFlags =>
          intro hflags
          by_contra hbusy
          rw [Bool.not_eq_false] at hbusy
          apply not_neverLost ?_ ?_ wakeful inputs h.after
          · rwa [PowerStatics.step, place_powerCallback]
          · rw [PowerStatics.step, unhandled_powerCallback]
            intro hnone
            exact hflags (Option.or_eq_none_iff.mp hnone).1

theorem meets_thread (turns : List ThreadEnv) :
    Meets PowerStatics.step Undisturbed s (turns.map .thread) := by
  induction turns generalizing s with
  | nil => trivial
  | cons env turns ih => exact ⟨trivial, ih⟩

/-- No event is lost in a run, and as the thread goes on after it, if and only if none
is delivered between the test that finds an event and the end of its handler. -/
theorem neverLost_iff (tokenFile : Option SessionToken) (meRunning isPaired : Bool)
    (inputs : List PowerInput) :
    NeverLost (.initial tokenFile meRunning isPaired) inputs ↔
      Meets PowerStatics.step Undisturbed (.initial tokenFile meRunning isPaired) inputs := by
  constructor
  · exact NeverLost.meets
  · intro h turns
    have hall := meets_append.mpr ⟨h, meets_thread turns⟩
    have hstep : ∀ s i, Kept s → Undisturbed s i → Kept (s.step i) :=
      fun _ _ hs hok => hs.step hok
    exact hall.throughout (kept_initial tokenFile meRunning isPaired) hstep
      fun _ hs => hs.noneLost

/-- The switch is used, and released before the handler is done. -/
def shortSuspend : List PowerInput :=
  [.callback 0x00010000, .thread wakeful, .callback 0x00040000, .thread wakeful,
    .thread wakeful, .thread wakeful, .thread wakeful]

theorem not_noneLost_shortSuspend :
    ¬∀ tokenFile meRunning isPaired inputs, Throughout PowerStatics.step NoneLost
      (.initial tokenFile meRunning isPaired) inputs := by
  intro hall
  have hend := hall none true true shortSuspend shortSuspend List.prefix_rfl
  have hhandled := handled_iff_unhandled.mp (hend rfl rfl)
  cases hhandled

/-! ## What becomes of the stream -/

/-- The event of an entry that tells one. -/
def LogEntry.event : LogEntry → Option PowerEvent
  | .delivered e => some e
  | .started _ => none

/-- The last event that was delivered. -/
def lastDelivered (log : List LogEntry) : Option PowerEvent :=
  (log.filterMap LogEntry.event).getLast?

@[simp] theorem lastDelivered_delivered (log : List LogEntry) (e : PowerEvent) :
    lastDelivered (log ++ [.delivered e]) = some e := by
  simp [lastDelivered, LogEntry.event]

@[simp] theorem lastDelivered_started (log : List LogEntry) (h : Handler) :
    lastDelivered (log ++ [.started h]) = lastDelivered log := by
  simp [lastDelivered, LogEntry.event]

theorem lastDelivered_of_unhandled (h : unhandled log = some e) :
    lastDelivered log = some e := by
  induction log using List.reverseRecOn with
  | nil => cases h
  | append_singleton log entry ih =>
      rw [unhandled_snoc] at h
      cases entry with
      | delivered d => rw [lastDelivered_delivered, ← h, LogEntry.settle]
      | started handler =>
          rw [lastDelivered_started]
          exact ih (Option.filter_eq_some_iff.mp h).1

/-- The state of the stream that a handler leaves. -/
def Settled : Option Handler → PowerState → Prop
  | none, state => state = .awake
  | some .suspend, state => state = .suspended
  | some .resume, state => state = .awake ∨ state = .resumeFailed

/-- The handler of the last event runs, or has run. -/
structure Follows (s : PowerStatics) : Prop where
  running : ∀ h, s.place.handler = some h →
    (lastDelivered s.log).map PowerEvent.handler = some h
  settled : s.place.handler = none → unhandled s.log = none →
    Settled ((lastDelivered s.log).map PowerEvent.handler) s.powerState

theorem handler_of_idle (hidle : s.place.busy = false) : s.place.handler = none := by
  rw [Place.busy, Bool.or_eq_false_iff, Option.isSome_eq_false_iff,
    Option.isNone_iff_eq_none] at hidle
  exact hidle.1

theorem follows_running {h : Handler} (hplace : s.place.handler = some h)
    (hlast : (lastDelivered s.log).map PowerEvent.handler = some h) : Follows s where
  running := by
    intro other hruns
    rw [hlast, ← hruns, hplace]
  settled := by
    intro hnone
    rw [hplace] at hnone
    cases hnone

theorem follows_between (hplace : s.place.handler = none)
    (hsettled : unhandled s.log = none →
      Settled ((lastDelivered s.log).map PowerEvent.handler) s.powerState) : Follows s where
  running := by
    intro other hruns
    rw [hplace] at hruns
    cases hruns
  settled _ := hsettled

theorem Follows.callback (h : Follows s) {powerFlags : UInt32}
    (hok : flaggedEvent powerFlags ≠ none → s.place.busy = false) :
    Follows (powerCallback s powerFlags) := by
  cases hflags : flaggedEvent powerFlags with
  | none =>
      have hsame : powerCallback s powerFlags = s := by
        rw [powerCallback, hflags]
      rw [hsame]
      exact h
  | some e =>
      have hidle : s.place.busy = false := by
        apply hok
        rw [hflags]
        exact Option.some_ne_none e
      refine follows_between ?_ fun hnone => ?_
      · rw [place_powerCallback]
        exact handler_of_idle hidle
      · rw [unhandled_powerCallback, hflags] at hnone
        cases hnone

theorem finishResume_settled (s : PowerStatics) (env : ThreadEnv) :
    Settled (some .resume) (finishResume s env).powerState := by
  rw [finishResume]
  split
  · exact .inl rfl
  · exact .inr rfl

theorem Follows.thread (h : Follows s) (hkept : Kept s) (env : ThreadEnv) :
    Follows (powerThread s env) := by
  cases hbusy : s.place.busy with
  | false =>
      have hplace := handler_of_idle hbusy
      rcases powerThread_idle hbusy env with
        ⟨handler, hfor, hevent, hstarted, -, hlog⟩ | ⟨place, hidle, hgoes⟩
      · -- The handler is for the event that is pending, which is the last one.
        have hlast : (lastDelivered s.log).map PowerEvent.handler = some handler := by
          have hpending := hkept.idle hbusy
          cases hu : unhandled s.log with
          | none =>
              rw [hu] at hpending
              exact absurd hpending hevent
          | some e =>
              rw [hu] at hpending
              rw [lastDelivered_of_unhandled hu, Option.map_some, hfor e hpending.symm]
        apply follows_running hstarted
        rw [hlog, lastDelivered_started, hlast]
      · rw [hgoes]
        exact follows_between (handler_of_idle (s := s.goTo place) hidle) (h.settled hplace)
  | true =>
      rw [powerThread]
      cases hplace : s.place with
      | suspend => exact follows_running rfl (h.running .suspend (by rw [hplace]; rfl))
      | cacheToken =>
          refine follows_running rfl ?_
          simp only [(saveSessionToken_keeps s env).1]
          exact h.running .suspend (by rw [hplace]; rfl)
      | suspendWait =>
          refine follows_between rfl fun _ => ?_
          rw [h.running .suspend (by rw [hplace]; rfl)]
          rfl
      | resume => exact follows_running rfl (h.running .resume (by rw [hplace]; rfl))
      | reconnect =>
          refine follows_between rfl fun _ => ?_
          have hlog : ((finishResume s env).goTo .clear).log = s.log :=
            (finishResume_keeps s env).1
          rw [hlog, h.running .resume (by rw [hplace]; rfl)]
          exact finishResume_settled s env
      | clear => exact follows_between rfl (h.settled (by rw [hplace]; rfl))
      | _ =>
          rw [hplace] at hbusy
          cases hbusy

/-- In a run in which no event is delivered while another one is handled, the stream
follows the switch: between two handlers, with no event pending, it is in the state that
the handler of the last event leaves. -/
theorem stream_follows (tokenFile : Option SessionToken) (meRunning isPaired : Bool)
    {inputs : List PowerInput}
    (hok : Meets PowerStatics.step Undisturbed (.initial tokenFile meRunning isPaired)
      inputs) :
    let s := run PowerStatics.step (.initial tokenFile meRunning isPaired) inputs
    s.place.handler = none → s.powerEvent = 0 →
      Settled ((lastDelivered s.log).map PowerEvent.handler) s.powerState := by
  have hstart : Kept (.initial tokenFile meRunning isPaired) ∧
      Follows (.initial tokenFile meRunning isPaired) :=
    ⟨kept_initial tokenFile meRunning isPaired, follows_between rfl fun _ => rfl⟩
  have hstep : ∀ s i, Kept s ∧ Follows s → Undisturbed s i →
      Kept (s.step i) ∧ Follows (s.step i) := by
    rintro s i ⟨hkept, hfollows⟩ hi
    refine ⟨hkept.step hi, ?_⟩
    cases i with
    | callback powerFlags => exact hfollows.callback hi
    | thread env => exact hfollows.thread hkept env
  obtain ⟨hkept, hfollows⟩ := hok.invariant (P := fun s => Kept s ∧ Follows s) hstart hstep
  intro s hplace hevent
  exact hfollows.settled hplace (handled_iff_unhandled.mp (hkept.noneLost hplace hevent))

/-- With no event pending the thread alone changes nothing. -/
theorem quiet_run (turns : List ThreadEnv) (hidle : s.place.busy = false)
    (hevent : s.powerEvent = 0) :
    ∃ place, run PowerStatics.step s (turns.map .thread) = s.goTo place := by
  induction turns generalizing s with
  | nil => exact ⟨s.place, rfl⟩
  | cons env turns ih =>
      rcases powerThread_idle hidle env with ⟨h, -, hpending, -⟩ | ⟨place, hplace, hgoes⟩
      · exact absurd hevent hpending
      · obtain ⟨last, hlast⟩ := ih (s := s.goTo place) hplace hevent
        refine ⟨last, ?_⟩
        have hrun : run PowerStatics.step s ((env :: turns).map .thread) =
            run PowerStatics.step (powerThread s env) (turns.map .thread) := rfl
        rw [hrun, hgoes, hlast]
        rfl

/-- `handle_suspend` runs, or has just ended. -/
structure InSuspend (s : PowerStatics) : Prop where
  busy : s.place.busy = true
  notResume : s.place ≠ .resume ∧ s.place ≠ .reconnect
  ended : s.place = .clear → s.powerState = .suspended

theorem InSuspend.thread (h : InSuspend s) (hplace : s.place ≠ .clear) (env : ThreadEnv) :
    InSuspend (powerThread s env) := by
  obtain ⟨hbusy, ⟨hresume, hreconnect⟩, -⟩ := h
  rw [powerThread]
  cases hat : s.place with
  | suspend => exact ⟨rfl, ⟨Place.noConfusion, Place.noConfusion⟩, Place.noConfusion⟩
  | cacheToken => exact ⟨rfl, ⟨Place.noConfusion, Place.noConfusion⟩, Place.noConfusion⟩
  | suspendWait => exact ⟨rfl, ⟨Place.noConfusion, Place.noConfusion⟩, fun _ => rfl⟩
  | clear => exact absurd hat hplace
  | resume => exact absurd hat hresume
  | reconnect => exact absurd hat hreconnect
  | _ =>
      rw [hat] at hbusy
      cases hbusy

/-- The stream stays suspended when `handle_suspend` is done, as long as nothing else
is delivered. -/
theorem InSuspend.run (h : InSuspend s) {turns : List ThreadEnv}
    (hturns : s.place.turnsToClear ≤ turns.length) :
    (GuardedRun.run PowerStatics.step s (turns.map .thread)).powerState = .suspended ∧
      (GuardedRun.run PowerStatics.step s (turns.map .thread)).log = s.log := by
  induction turns generalizing s with
  | nil =>
      rcases powerThread_busy h.busy wakeful with ⟨hplace, -⟩ | ⟨-, -, hless, -⟩
      · rw [hplace] at hturns
        cases hturns
      · rw [List.length_nil] at hturns
        omega
  | cons env turns ih =>
      have hrun : GuardedRun.run PowerStatics.step s ((env :: turns).map .thread) =
          GuardedRun.run PowerStatics.step (powerThread s env) (turns.map .thread) := rfl
      rw [hrun]
      rcases powerThread_busy h.busy env with ⟨hplace, hclear⟩ | ⟨hplace, -, hless, hlog, -⟩
      · obtain ⟨last, hlast⟩ := quiet_run turns (s := powerThread s env)
          (by rw [hclear]; rfl) (by rw [hclear])
        rw [hlast, hclear]
        exact ⟨h.ended hplace, rfl⟩
      · rw [← hlog]
        apply ih (h.thread hplace env)
        rw [List.length_cons] at hturns
        omega

/-- A resume that is delivered while `handle_suspend` runs: the stream is suspended, and
no handler is started however long the thread goes on. -/
theorem resume_lost (h : InSuspend s) {powerFlags : UInt32}
    (hflags : flaggedEvent powerFlags = some .resumeComplete) {turns : List ThreadEnv}
    (hturns : s.place.turnsToClear ≤ turns.length) :
    let t := run PowerStatics.step (powerCallback s powerFlags) (turns.map .thread)
    t.powerState = .suspended ∧ t.log = s.log ++ [.delivered .resumeComplete] := by
  have hcallback : powerCallback s powerFlags =
      { s with powerEvent := 2, log := s.log ++ [.delivered .resumeComplete] } := by
    rw [powerCallback, hflags]
    rfl
  rw [hcallback]
  have hstill : InSuspend
      { s with powerEvent := 2, log := s.log ++ [.delivered .resumeComplete] } :=
    ⟨h.busy, h.notResume, h.ended⟩
  exact hstill.run hturns

end MoonlightPsp.Power
