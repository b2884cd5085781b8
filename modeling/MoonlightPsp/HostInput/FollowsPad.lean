import MoonlightPsp.HostInput.Outcome
import Mathlib.Data.List.Induction

/-!
# The host follows the pad

Over sessions, a sample that stays is shown to the host, and the clicks of a mouse
button alternate and end with the level of its trigger.  Both fail on what a session
starts with: the sample that `input_init` peeks at counts as sent, and the memories of
the mouse buttons are those of the session before.
-/

namespace MoonlightPsp.HostInput

open EdgeEvents (Alternates Recorded edge recorded_nil)

/-! ## Sessions -/

/-- The calls of the input. -/
inductive InputEvent where
  | init (setup : Setup)
  | poll (p : Poll)
  | shutdown

/-- The sample of the last poll, and the start of the polls in a row that had it. -/
structure Steady where
  pad : Pad
  since : UInt32
  deriving DecidableEq

/-- The input, with what is known of the session: the state in front of it, what was
sent, whether no sample has come through yet, and the clock. -/
structure Watched where
  input : InputState
  before : InputState
  sent : List Sent
  fresh : Bool
  steady : Option Steady
  clock : UInt32

/-- The static variables at the start of the program. -/
def InputState.static : InputState where
  initialized := false
  browser := false
  mapping := ⟨0, 0, 0, 0, 0, 0, 0, 0, 0, 0⟩
  prev := ⟨0, 0, 0⟩
  prevValid := false
  mouseLDown := false
  mouseRDown := false
  oskTriggerPrev := false
  lastSendTick := 0
  lastBatteryReportUs := 0
  lastBatteryPercent := 100
  lastBatteryState := 0x05

namespace Watched

def start : Watched where
  input := InputState.static
  before := InputState.static
  sent := []
  fresh := true
  steady := none
  clock := 0

/-- Since when the sample of a poll is polled. -/
def since (w : Watched) (p : Poll) : UInt32 :=
  match w.steady with
  | none => p.startUs
  | some st => if st.pad = p.sample then st.since else p.startUs

/-- After a poll in a session. -/
def polled (w : Watched) (p : Poll) : Watched where
  input := (w.input.poll p).1
  before := w.before
  sent := w.sent ++ (w.input.poll p).2
  fresh := w.fresh && !w.input.comesThrough p
  steady := some ⟨p.sample, w.since p⟩
  clock := p.nowUs

def step (w : Watched) : InputEvent → Watched
  | .init setup => {
      input := (w.input.init setup).1
      before := w.input
      sent := (w.input.init setup).2
      fresh := true
      steady := none
      clock := setup.nowUs }
  | .poll p => if w.input.initialized then w.polled p else w
  | .shutdown => { w with input := w.input.shutdown }

def run (es : List InputEvent) : Watched := es.foldl step start

/-- The clock does not go back, and no combination of the application is held. -/
def Allows (w : Watched) : InputEvent → Prop
  | .init setup => w.clock ≤ setup.nowUs
  | .poll p => w.clock ≤ p.startUs ∧ p.startUs ≤ p.nowUs ∧ InputState.Quiet p
  | .shutdown => True

instance (w : Watched) : (e : InputEvent) → Decidable (w.Allows e)
  | .init _ => inferInstanceAs (Decidable (_ ≤ _))
  | .poll _ => inferInstanceAs (Decidable (_ ∧ _ ∧ _))
  | .shutdown => inferInstanceAs (Decidable True)

end Watched

/-- Each event of the run is allowed. -/
def Admissible (es : List InputEvent) : Prop :=
  ∀ es' e, es' ++ [e] <+: es → (Watched.run es').Allows e

/-! ## The law and its condition -/

/-- The same buttons, and each axis of the stick within three units. -/
def Near (a b : Pad) : Prop :=
  a.buttons = b.buttons ∧ InputState.axisDistance b.lx a.lx ≤ 3 ∧
    InputState.axisDistance b.ly a.ly ≤ 3

section

variable {s : InputState} {p : Poll}

/-- Without a change the sample is near the last one that was sent. -/
theorem near_iff_not_stateChanged (hvalid : s.prevValid = true)
    (cur : Pad) : Near s.prev cur ↔ s.stateChanged cur = false := by
  rw [InputState.stateChanged, hvalid, Near]
  by_cases hbuttons : cur.buttons = s.prev.buttons
  · simp [hbuttons]
  · simp [hbuttons, Ne.symm hbuttons]

theorem near_refl (pad : Pad) : Near pad pad := by
  simp [Near, InputState.axisDistance]

/-- What does not come through has the buttons of the last sample, and is near it or
within the rate limit. -/
theorem of_not_comesThrough (hvalid : s.prevValid = true)
    (h : s.comesThrough p = false) : s.prev.buttons = p.sample.buttons ∧
      (Near s.prev p.sample ∨ p.nowUs - s.lastSendTick < 33333) := by
  rcases Bool.and_eq_false_iff.mp h with hchanged | hthrottled
  · have hsame := (Bool.or_eq_false_iff.mp hchanged).1
    have hnear := (near_iff_not_stateChanged hvalid _).mpr hsame
    exact ⟨hnear.1, Or.inl hnear⟩
  · rw [Bool.not_eq_false', InputState.throttled, decide_eq_true_eq] at hthrottled
    exact ⟨hthrottled.1.symm, Or.inr hthrottled.2.2⟩

end

namespace Watched

/-- The last gamepad packet of the session was built from a sample near this one. -/
def Shown (w : Watched) (pad : Pad) : Prop :=
  ∃ last, (samples w.sent).getLast? = some last ∧ Near last pad

/-- The clicks of a button alternate from down on, and end with the level. -/
def Clicked (w : Watched) (b : MouseButton) (pad : Pad) : Prop :=
  Alternates true (clicks b w.sent) ∧
    ((clicks b w.sent).getLast? = some true ↔ b.pressed pad.buttons = true)

/-- The host follows the pad. -/
def Follows (w : Watched) : Prop :=
  w.input.initialized = true → ∀ st, w.steady = some st →
    if w.input.browser then ∀ b, w.Clicked b st.pad
    else 33400 ≤ w.clock.toNat - st.since.toNat → w.Shown st.pad

/-- The poll does not rest on what the session started with.  For the gamepad: when
nothing has come through yet, the sample that stays is a change to the peeked one.  For
the mouse: as long as nothing has come through, the trigger is not held, and from then
on the memory with which the session started was up. -/
def Meets (w : Watched) (p : Poll) : Prop :=
  w.input.initialized = true →
    if w.input.browser then
      ∀ b : MouseButton, if w.fresh && !w.input.comesThrough p then
        b.pressed p.sample.buttons = false
      else b.down w.before = false
    else 33400 ≤ p.nowUs.toNat - (w.since p).toNat → w.fresh = true →
      w.input.stateChanged p.sample = true

/-! ## The invariant -/

structure Inv (w : Watched) : Prop where
  valid : w.input.initialized = true → w.input.prevValid = true
  recorded : ∀ b : MouseButton,
    Recorded (b.down w.before) (clicks b w.sent) (b.down w.input)
  fresh : w.fresh = true → Plain w.sent
  latest : w.fresh = false → w.input.browser = false →
    (samples w.sent).getLast? = some w.input.prev
  pressed : w.fresh = false → w.input.browser = true → ∀ b : MouseButton,
    b.down w.input = b.pressed w.input.prev.buttons
  tick : w.input.lastSendTick ≤ w.clock
  near : ∀ st, w.steady = some st → Near w.input.prev st.pad ∨
    w.input.lastSendTick ≤ st.since ∧ w.clock - w.input.lastSendTick < 33333
  idle : w.fresh = true → ∀ st, w.steady = some st → w.input.lastSendTick ≤ st.since

theorem inv_start : start.Inv where
  valid := fun h => nomatch h
  recorded := fun b => by cases b <;> exact recorded_nil false
  fresh := fun _ => plain_nil
  latest := fun h => nomatch h
  pressed := fun h => nomatch h
  tick := UInt32.le_refl _
  near := fun _ h => nomatch h
  idle := fun _ _ h => nomatch h

variable {w : Watched} {p : Poll}

theorem Inv.init (h : w.Inv) {setup : Setup} (hclock : w.clock ≤ setup.nowUs) :
    (w.step (.init setup)).Inv := by
  obtain ⟨⟨us, percent, state, hstate⟩, hplain⟩ := InputState.init_spec setup w.input
  have hinput : (w.step (.init setup)).input = (w.input.init setup).1 := rfl
  have hdown : ∀ b : MouseButton,
      b.down (w.step (.init setup)).input = b.down w.input := by
    intro b
    rw [hinput, hstate]
    cases b <;> rfl
  refine ⟨fun _ => ?_, fun b => ?_, fun _ => hplain, fun h => (nomatch h),
    fun h => (nomatch h), ?_, fun _ h => (nomatch h), fun _ _ h => (nomatch h)⟩
  · rw [hinput, hstate]
  · rw [hdown]
    have hnil : clicks b (w.step (.init setup)).sent = [] := hplain.clicks b
    rw [hnil]
    exact recorded_nil _
  · rw [hinput, hstate]
    exact UInt32.le_trans h.tick hclock

theorem Inv.shutdown (h : w.Inv) : (w.step .shutdown).Inv where
  valid := fun h => nomatch h
  recorded := fun b => by
    have hdown : b.down (w.step .shutdown).input = b.down w.input := by cases b <;> rfl
    rw [hdown]
    exact h.recorded b
  fresh := h.fresh
  latest := h.latest
  pressed := fun hfresh hbrowser b => by
    have hdown : b.down (w.step .shutdown).input = b.down w.input := by cases b <;> rfl
    rw [hdown]
    exact h.pressed hfresh hbrowser b
  tick := h.tick
  near := h.near
  idle := h.idle

/-- The start of the polls in a row is the one of this poll, or one that was kept. -/
theorem since_of {q : UInt32 → Prop} (hstart : q p.startUs)
    (hkept : ∀ st, w.steady = some st → st.pad = p.sample → q st.since) :
    q (w.since p) := by
  rw [since]
  split
  · exact hstart
  · rename_i st hst
    split
    · rename_i hsame
      exact hkept st hst hsame
    · exact hstart

/-- A poll in a session whose sample comes through. -/
theorem Inv.poll_through (h : w.Inv) (hinit : w.input.initialized = true)
    (hallows : w.Allows (.poll p)) (hthrough : w.input.comesThrough p = true) :
    (w.polled p).Inv := by
  obtain ⟨_, hbrowser, hvalid, hprev, htick, hdown, hsamples, hclicks⟩ :=
    InputState.poll_outcome hinit hallows.2.2
  simp only [hthrough, Bool.true_and, if_true] at hprev htick hdown hsamples hclicks
  have hstale : (w.polled p).fresh ≠ true := by
    rw [polled, hthrough, Bool.not_true, Bool.and_false]
    exact Bool.false_ne_true
  constructor
  case valid =>
    intro _
    exact hvalid.trans (h.valid hinit)
  case recorded =>
    intro b
    dsimp only [polled]
    rw [clicks_append, hdown, hclicks]
    cases w.input.browser with
    | true => exact (h.recorded b).edge _
    | false =>
        rw [if_neg Bool.false_ne_true, if_neg Bool.false_ne_true, List.append_nil]
        exact h.recorded b
  case fresh =>
    intro hfresh
    exact (hstale hfresh).elim
  case latest =>
    intro _ hxbox
    dsimp only [polled] at hxbox ⊢
    rw [samples_append, hsamples, hprev, ← hbrowser, hxbox]
    exact List.getLast?_concat
  case pressed =>
    intro _ hmouse b
    dsimp only [polled] at hmouse ⊢
    rw [hdown, hprev, ← hbrowser, hmouse]
    rfl
  case tick =>
    dsimp only [polled]
    rw [htick]
    exact UInt32.le_refl _
  case near =>
    rintro st ⟨⟩
    left
    dsimp only [polled]
    rw [hprev]
    exact near_refl _
  case idle =>
    intro hfresh
    exact (hstale hfresh).elim

/-- A poll in a session whose sample does not come through. -/
theorem Inv.poll_blocked (h : w.Inv) (hinit : w.input.initialized = true)
    (hallows : w.Allows (.poll p)) (hthrough : w.input.comesThrough p = false) :
    (w.polled p).Inv := by
  obtain ⟨hclock, hnow, hquiet⟩ := hallows
  obtain ⟨_, hbrowser, hvalid, hprev, htick, hdown, hsamples, hclicks⟩ :=
    InputState.poll_outcome hinit hquiet
  simp only [hthrough, Bool.false_and, Bool.false_eq_true, if_false]
    at hprev htick hdown hsamples hclicks
  have hlast := UInt32.le_trans h.tick hclock
  have hkept : (w.polled p).fresh = w.fresh := by
    rw [polled, hthrough, Bool.not_false, Bool.and_true]
  constructor
  case valid =>
    intro _
    exact hvalid.trans (h.valid hinit)
  case recorded =>
    intro b
    dsimp only [polled]
    rw [clicks_append, hdown, hclicks, List.append_nil]
    exact h.recorded b
  case fresh =>
    intro hfresh
    rw [hkept] at hfresh
    exact (h.fresh hfresh).append ⟨hsamples, hclicks⟩
  case latest =>
    intro hfresh hxbox
    rw [hkept] at hfresh
    dsimp only [polled] at hxbox ⊢
    rw [hbrowser] at hxbox
    rw [samples_append, hsamples, hprev, List.append_nil]
    exact h.latest hfresh hxbox
  case pressed =>
    intro hfresh hmouse b
    rw [hkept] at hfresh
    dsimp only [polled] at hmouse ⊢
    rw [hbrowser] at hmouse
    rw [hdown, hprev]
    exact h.pressed hfresh hmouse b
  case tick =>
    dsimp only [polled]
    rw [htick]
    exact UInt32.le_trans hlast hnow
  case near =>
    rintro st ⟨⟩
    dsimp only [polled]
    rw [hprev, htick]
    obtain ⟨_, hnear | hlimit⟩ := of_not_comesThrough (h.valid hinit) hthrough
    · exact Or.inl hnear
    · -- The same sample may have been near already when the limit began.
      apply since_of (q := fun u => Near w.input.prev p.sample ∨
        w.input.lastSendTick ≤ u ∧ p.nowUs - w.input.lastSendTick < 33333)
      · exact Or.inr ⟨hlast, hlimit⟩
      · intro st hst hsame
        rcases h.near st hst with hnear | ⟨hle, _⟩
        · rw [hsame] at hnear
          exact Or.inl hnear
        · exact Or.inr ⟨hle, hlimit⟩
  case idle =>
    intro hfresh
    rw [hkept] at hfresh
    rintro st ⟨⟩
    dsimp only [polled]
    rw [htick]
    apply since_of hlast
    intro st hst _
    exact h.idle hfresh st hst

/-- Each event keeps the invariant. -/
theorem Inv.step (h : w.Inv) {e : InputEvent} (hallows : w.Allows e) : (w.step e).Inv := by
  cases e with
  | init setup => exact h.init hallows
  | shutdown => exact h.shutdown
  | poll p =>
      cases hinit : w.input.initialized with
      | false =>
          rw [Watched.step, hinit, if_neg Bool.false_ne_true]
          exact h
      | true =>
          rw [Watched.step, if_pos hinit]
          cases hthrough : w.input.comesThrough p with
          | true => exact h.poll_through hinit hallows hthrough
          | false => exact h.poll_blocked hinit hallows hthrough

/-! ## The law at a poll -/

/-- Behind a long stay the rate limit is over. -/
theorem not_limited {tick since now : UInt32} (hle : tick ≤ since) (hnow : tick ≤ now)
    (hspan : 33400 ≤ now.toNat - since.toNat) : ¬now - tick < 33333 := by
  intro hlimit
  rw [UInt32.lt_iff_toNat_lt, UInt32.toNat_sub_of_le _ _ hnow] at hlimit
  rw [UInt32.le_iff_toNat_le] at hle
  have hlimit : now.toNat - tick.toNat < 33333 := hlimit
  omega

theorem Inv.shown_iff (h : w.Inv) (hxbox : w.input.browser = false) {st : Steady}
    (hst : w.steady = some st) (hspan : 33400 ≤ w.clock.toNat - st.since.toNat) :
    w.Shown st.pad ↔ w.fresh = false := by
  constructor
  · rintro ⟨last, hlast, _⟩
    cases hfresh : w.fresh with
    | false => rfl
    | true =>
        rw [(h.fresh hfresh).samples] at hlast
        exact nomatch hlast
  · intro hfresh
    refine ⟨w.input.prev, h.latest hfresh hxbox, ?_⟩
    rcases h.near st hst with hnear | ⟨hle, hlimit⟩
    · exact hnear
    · exact (not_limited hle h.tick hspan hlimit).elim

theorem Inv.clicked_iff (h : w.Inv) (hmouse : w.input.browser = true) {pad : Pad}
    (hbuttons : w.input.prev.buttons = pad.buttons) (b : MouseButton) :
    w.Clicked b pad ↔ if w.fresh then b.pressed pad.buttons = false
      else b.down w.before = false := by
  have hrecorded := h.recorded b
  cases hfresh : w.fresh with
  | true =>
      rw [Clicked, (h.fresh hfresh).clicks b, if_pos rfl]
      constructor
      · rintro ⟨_, hlast⟩
        rw [← Bool.not_eq_true]
        intro hpressed
        exact nomatch hlast.mpr hpressed
      · intro hpressed
        refine ⟨trivial, fun hlast => (nomatch hlast), fun hdown => ?_⟩
        rw [hpressed] at hdown
        exact nomatch hdown
  | false =>
      have hdown := h.pressed hfresh hmouse b
      rw [hbuttons] at hdown
      rw [Clicked, if_neg Bool.false_ne_true, ← hdown]
      cases hbefore : b.down w.before with
      | false =>
          rw [hbefore] at hrecorded
          exact iff_of_true hrecorded.of_up rfl
      | true =>
          rw [hbefore] at hrecorded
          refine iff_of_false ?_ (fun hfalse => nomatch hfalse)
          rintro ⟨halternates, hlast⟩
          -- No event at all leaves the memory down, and then a down was due.
          have hnil := hrecorded.of_down.mp halternates
          have hmemory := hrecorded.memory
          rw [hnil] at hmemory hlast
          exact nomatch hlast.mpr hmemory

theorem follows_iff {st : Steady} (hinit : w.input.initialized = true)
    (hst : w.steady = some st) : w.Follows ↔
      if w.input.browser then ∀ b, w.Clicked b st.pad
      else 33400 ≤ w.clock.toNat - st.since.toNat → w.Shown st.pad := by
  constructor
  · intro hfollows
    exact hfollows hinit st hst
  · intro hlaw _ st' hst'
    obtain rfl := Option.some_inj.mp (hst.symm.trans hst')
    exact hlaw

theorem prev_buttons_poll (h : w.Inv) (hinit : w.input.initialized = true)
    (hquiet : InputState.Quiet p) :
    (w.input.poll p).1.prev.buttons = p.sample.buttons := by
  rw [(InputState.poll_outcome hinit hquiet).prev]
  split
  · rfl
  · rename_i hthrough
    exact (of_not_comesThrough (h.valid hinit) (Bool.not_eq_true _ ▸ hthrough)).1

/-- After a long stay the poll comes through exactly when its sample is a change. -/
theorem Inv.comesThrough_eq (h : w.Inv) (hxbox : w.input.browser = false)
    (hallows : w.Allows (.poll p)) (hfresh : w.fresh = true)
    (hspan : 33400 ≤ p.nowUs.toNat - (w.since p).toNat) :
    w.input.comesThrough p = w.input.stateChanged p.sample := by
  obtain ⟨hclock, hnow, _⟩ := hallows
  have hlast := UInt32.le_trans h.tick hclock
  have hsince : w.input.lastSendTick ≤ w.since p :=
    since_of hlast fun st hst _ => h.idle hfresh st hst
  have hlimit := not_limited hsince (UInt32.le_trans hlast hnow) hspan
  have hthrottled : w.input.throttled p = false := by
    rw [InputState.throttled, decide_eq_false_iff_not]
    exact fun hall => hlimit hall.2.2
  rw [InputState.comesThrough, InputState.mouseMoves, hxbox, hthrottled, Bool.false_and,
    Bool.or_false, Bool.not_false, Bool.and_true]

/-- The host follows the pad after a poll exactly when the poll meets the condition. -/
theorem Inv.follows_poll_iff (h : w.Inv) (hallows : w.Allows (.poll p)) :
    (w.step (.poll p)).Follows ↔ w.Meets p := by
  have h' : (w.step (.poll p)).Inv := h.step hallows
  cases hinit : w.input.initialized with
  | false =>
      rw [Watched.step, hinit, if_neg Bool.false_ne_true]
      refine iff_of_true ?_ ?_
      · intro htrue
        exact nomatch hinit.symm.trans htrue
      · intro htrue
        exact nomatch hinit.symm.trans htrue
  | true =>
      have hout := InputState.poll_outcome hinit hallows.2.2
      have hbuttons : (w.polled p).input.prev.buttons = p.sample.buttons :=
        prev_buttons_poll h hinit hallows.2.2
      rw [Watched.step, if_pos hinit] at h' ⊢
      rw [follows_iff (hout.initialized.trans hinit) rfl, Meets]
      have hmode : (w.polled p).input.browser = w.input.browser := hout.browser
      rw [hmode, hinit]
      refine Iff.trans ?_ ⟨fun hmeets _ => hmeets, fun hmeets => hmeets rfl⟩
      cases hbrowser : w.input.browser with
      | true =>
          rw [if_pos rfl, if_pos rfl]
          refine forall_congr' fun b => ?_
          exact h'.clicked_iff (hmode.trans hbrowser) hbuttons b
      | false =>
          rw [if_neg Bool.false_ne_true, if_neg Bool.false_ne_true]
          refine imp_congr_right fun hspan => ?_
          rw [h'.shown_iff (hmode.trans hbrowser) rfl hspan]
          rw [polled]
          cases hfresh : w.fresh with
          | false => exact iff_of_true rfl fun hfalse => nomatch hfalse
          | true =>
              rw [h.comesThrough_eq hbrowser hallows hfresh hspan]
              simp

/-! ## Over a run -/

variable {es es' : List InputEvent} {e : InputEvent}

theorem run_concat (es : List InputEvent) (e : InputEvent) :
    run (es ++ [e]) = (run es).step e := by
  rw [run, List.foldl_append]
  rfl

end Watched

open Watched (run run_concat inv_start)

variable {es es' : List InputEvent} {e : InputEvent}

theorem admissible_nil : Admissible [] := by
  intro es' e hfront
  exact (List.append_ne_nil_of_right_ne_nil es' (List.cons_ne_nil e [])
    (List.prefix_nil.mp hfront)).elim

theorem Admissible.mono (h : Admissible es) (hfront : es' <+: es) :
    Admissible es' :=
  fun es'' e hpoll => h es'' e (hpoll.trans hfront)

theorem Admissible.concat (h : Admissible es) (he : (run es).Allows e) :
    Admissible (es ++ [e]) := by
  intro es' e' hfront
  rcases List.prefix_concat_iff.mp hfront with heq | hshort
  · obtain ⟨rfl, hlast⟩ := List.append_inj' heq rfl
    obtain rfl := List.singleton_inj.mp hlast
    exact he
  · exact h es' e' hshort

/-- The invariant holds along each run. -/
theorem Admissible.inv (h : Admissible es) : (run es).Inv := by
  induction es using List.reverseRecOn with
  | nil => exact inv_start
  | append_singleton es e ih =>
      rw [run_concat]
      have hfront := h.mono (List.prefix_append es [e])
      exact (ih hfront).step (h es e List.prefix_rfl)

/-- Along a run the host follows the pad exactly when each poll meets the condition. -/
theorem run_follows_iff (es : List InputEvent) (h : Admissible es) :
    (∀ es', es' <+: es → (run es').Follows) ↔
      ∀ es' p, es' ++ [.poll p] <+: es → (run es').Meets p := by
  constructor
  · intro hfollows es' p hfront
    have hinv := (h.mono ((List.prefix_append es' _).trans hfront)).inv
    have hpoll := hfollows _ hfront
    rw [run_concat] at hpoll
    exact (hinv.follows_poll_iff (h es' _ hfront)).mp hpoll
  · intro hmeets es' hfront
    rcases es'.eq_nil_or_concat' with rfl | ⟨es'', e, rfl⟩
    · intro hinit
      exact nomatch hinit
    · have hinv := (h.mono ((List.prefix_append es'' _).trans hfront)).inv
      rw [run_concat]
      cases e with
      | init setup =>
          intro _ st hst
          exact nomatch hst
      | shutdown =>
          intro hinit
          exact nomatch hinit
      | poll p =>
          exact (hinv.follows_poll_iff (h es'' _ hfront)).mpr (hmeets es'' p hfront)

/-! ## Sample runs -/

/-- Each poll of the run meets the condition. -/
def PollsMeet (es : List InputEvent) : Prop :=
  ∀ es' p, es' ++ [.poll p] <+: es → (run es').Meets p

theorem pollsMeet_nil : PollsMeet [] := by
  intro es' p hfront
  exact (List.append_ne_nil_of_right_ne_nil es' (List.cons_ne_nil _ [])
    (List.prefix_nil.mp hfront)).elim

theorem PollsMeet.concat (h : PollsMeet es) (he : ∀ p, e = .poll p → (run es).Meets p) :
    PollsMeet (es ++ [e]) := by
  intro es' p hfront
  rcases List.prefix_concat_iff.mp hfront with heq | hshort
  · obtain ⟨rfl, hlast⟩ := List.append_inj' heq rfl
    exact he p (List.singleton_inj.mp hlast).symm
  · exact h es' p hshort

theorem PollsMeet.gamepad {p : Poll} (h : PollsMeet es)
    (hbrowser : (run es).input.browser = false)
    (hsample : (run es).fresh = true → (run es).input.stateChanged p.sample = true) :
    PollsMeet (es ++ [.poll p]) := by
  refine h.concat fun p' hp _ => ?_
  obtain rfl := InputEvent.poll.inj hp
  rw [hbrowser, if_neg Bool.false_ne_true]
  exact fun _ => hsample

theorem PollsMeet.mouse {p : Poll} (h : PollsMeet es)
    (hbrowser : (run es).input.browser = true)
    (hthrough : (run es).fresh = true → (run es).input.comesThrough p = true)
    (hup : (run es).before.mouseLDown = false ∧ (run es).before.mouseRDown = false) :
    PollsMeet (es ++ [.poll p]) := by
  refine h.concat fun p' hp _ => ?_
  obtain rfl := InputEvent.poll.inj hp
  rw [hbrowser, if_pos rfl]
  intro b
  have hpassed : ¬((run es).fresh && !(run es).input.comesThrough p) = true := by
    rw [Bool.and_eq_true, not_and, Bool.not_eq_true', Bool.not_eq_false]
    exact hthrough
  rw [if_neg hpassed]
  cases b with
  | left => exact hup.1
  | right => exact hup.2

/-- A pad at rest. -/
def restingPad : Pad := ⟨0, 128, 128⟩

/-- A pad on which L is held. -/
def heldPad : Pad := ⟨ctrlLTrigger, 128, 128⟩

/-- A pad on which Cross is held and the stick is pushed. -/
def pushedPad : Pad := ⟨ctrlCross, 128, 20⟩

def sampleSetup (browser : Bool) (pad : Pad) (nowUs : UInt32) : InputEvent :=
  .init {
    browser := browser
    mapping := defaultMapping
    peeked := pad
    power := ⟨0, 1, 80⟩
    nowUs := nowUs }

def samplePoll (pad : Pad) (nowUs : UInt32) : InputEvent :=
  .poll {
    startUs := nowUs
    power := ⟨0, 1, 80⟩
    pad := pad
    remoteButtons := 0
    remoteAnalog := none
    nowUs := nowUs }

/-- A session in which the pad rests. -/
def restingSession : List InputEvent :=
  [] ++ [sampleSetup false restingPad 1000] ++ [samplePoll restingPad 20000] ++
    [samplePoll restingPad 60000]

theorem admissible_restingSession : Admissible restingSession :=
  ((admissible_nil.concat (by decide)).concat (by decide)).concat (by decide)

/-- A session of the gamepad in which the pad is pushed and let go, and one of the
mouse in which L is. -/
def pushedSessions : List InputEvent :=
  [] ++ [sampleSetup false restingPad 1000] ++ [samplePoll pushedPad 40000] ++
    [samplePoll pushedPad 80000] ++ [samplePoll restingPad 120000] ++
    [samplePoll restingPad 160000] ++ [.shutdown] ++ [sampleSetup true restingPad 200000] ++
    [samplePoll heldPad 240000] ++ [samplePoll restingPad 280000]

theorem admissible_pushedSessions : Admissible pushedSessions :=
  ((((((((admissible_nil.concat (by decide)).concat (by decide)).concat (by decide)).concat
    (by decide)).concat (by decide)).concat (by decide)).concat (by decide)).concat
    (by decide)).concat (by decide)

theorem pollsMeet_pushedSessions : PollsMeet pushedSessions :=
  ((((((((pollsMeet_nil.concat fun _ hp => InputEvent.noConfusion hp).gamepad
    (by decide) (by decide)).gamepad (by decide) (by decide)).gamepad (by decide)
    (by decide)).gamepad (by decide) (by decide)).concat
    fun _ hp => InputEvent.noConfusion hp).concat
    fun _ hp => InputEvent.noConfusion hp).mouse (by decide) (by decide) (by decide)).mouse
    (by decide) (by decide) (by decide)

/-- In them the host follows the pad. -/
theorem pushedSessions_follow :
    Admissible pushedSessions ∧ ∀ es', es' <+: pushedSessions → (run es').Follows :=
  ⟨admissible_pushedSessions,
    (run_follows_iff pushedSessions admissible_pushedSessions).mpr pollsMeet_pushedSessions⟩

/-- A session that ends while L is held, and one in which it is let go. -/
def heldSessions : List InputEvent :=
  [] ++ [sampleSetup true restingPad 1000] ++ [samplePoll heldPad 20000] ++ [.shutdown] ++
    [sampleSetup true heldPad 40000] ++ [samplePoll restingPad 60000]

theorem admissible_heldSessions : Admissible heldSessions :=
  ((((admissible_nil.concat (by decide)).concat (by decide)).concat (by decide)).concat
    (by decide)).concat (by decide)

/-- The host is not shown the pad at rest, and is told that a button goes up which did
not go down in the session. -/
theorem sessions_not_follow :
    (∃ es, Admissible es ∧ (run es).input.browser = false ∧ ¬(run es).Follows) ∧
      ∃ es, Admissible es ∧ (run es).input.browser = true ∧ ¬(run es).Follows := by
  refine ⟨⟨restingSession, admissible_restingSession, rfl, ?_⟩,
    ⟨heldSessions, admissible_heldSessions, rfl, ?_⟩⟩
  · intro hfollows
    obtain ⟨last, hlast, _⟩ := hfollows rfl ⟨restingPad, 20000⟩ (by decide) (by decide)
    exact nomatch hlast
  · intro hfollows
    obtain ⟨halternates, _⟩ := hfollows rfl ⟨restingPad, 60000⟩ (by decide) .left
    exact nomatch halternates.1

end MoonlightPsp.HostInput
