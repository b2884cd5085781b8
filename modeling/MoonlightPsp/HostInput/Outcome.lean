import MoonlightPsp.HostInput.Poll
import MoonlightPsp.Lib.EdgeEvents

/-!
# What a poll sends

The samples and the clicks among the events of a poll, and what the poll leaves in the
memories.  A sample comes through when the change detection and the rate limit let it.
-/

namespace MoonlightPsp.HostInput

open EdgeEvents (edge)

/-! ## Samples and clicks -/

/-- The buttons of the mouse. -/
inductive MouseButton where
  | left
  | right

namespace MouseButton

def number : MouseButton → UInt8
  | left => 1
  | right => 3

/-- The trigger of the button is held, outside its combinations. -/
def pressed : MouseButton → UInt32 → Bool
  | left => leftHeld
  | right => rightHeld

/-- The memory of the button. -/
def down : MouseButton → InputState → Bool
  | left => InputState.mouseLDown
  | right => InputState.mouseRDown

end MouseButton

/-- The sample that a gamepad packet was built from. -/
def Sent.sample : Sent → Option Pad
  | .gamepad _ pad => some pad
  | _ => none

/-- The event of a mouse button: down or up. -/
def Sent.click (b : MouseButton) : Sent → Option Bool
  | .mouseButton isDown button => if button = b.number then some isDown else none
  | _ => none

/-- The samples among the events. -/
def samples (es : List Sent) : List Pad := es.filterMap Sent.sample

/-- The clicks of a button among the events. -/
def clicks (b : MouseButton) (es : List Sent) : List Bool := es.filterMap (Sent.click b)

variable {b : MouseButton} {es es' : List Sent}

@[simp]
theorem samples_append : samples (es ++ es') = samples es ++ samples es' :=
  List.filterMap_append

@[simp]
theorem clicks_append : clicks b (es ++ es') = clicks b es ++ clicks b es' :=
  List.filterMap_append

/-- The events move no button: they are no samples and no clicks. -/
structure Plain (es : List Sent) : Prop where
  samples : samples es = []
  clicks : ∀ b, clicks b es = []

theorem plain_nil : Plain [] := ⟨rfl, fun _ => rfl⟩

theorem Plain.append (h : Plain es) (h' : Plain es') : Plain (es ++ es') := by
  refine ⟨?_, fun b => ?_⟩
  · rw [samples_append, h.samples, h'.samples]
    rfl
  · rw [clicks_append, h.clicks, h'.clicks]
    rfl

theorem Plain.ite {c : Prop} [Decidable c] (h : Plain es) :
    Plain (if c then es else []) := by
  split
  · exact h
  · exact plain_nil

theorem plain_keyTap (vkCode : UInt16) : Plain (sendKeyTap vkCode) :=
  ⟨rfl, fun _ => rfl⟩

theorem plain_browserScroll (buttons prev : UInt32) :
    Plain (browserScroll buttons prev) := by
  rw [browserScroll]
  apply Plain.ite
  apply Plain.append
  · exact Plain.ite ⟨rfl, fun _ => rfl⟩
  · exact Plain.ite ⟨rfl, fun _ => rfl⟩

theorem plain_browserKeys (buttons prev : UInt32) :
    Plain (browserKeys buttons prev) := by
  have htap : ∀ mask vkCode, Plain
      (if held (buttons &&& ~~~prev) mask then sendKeyTap vkCode else []) :=
    fun mask vkCode => (plain_keyTap vkCode).ite
  rw [browserKeys]
  repeat' apply Plain.append
  all_goals first
    | exact htap _ _
    | exact Plain.ite (htap _ _)

theorem samples_sendMouseButton (n : UInt8) (now down : Bool) :
    samples (sendMouseButton n now down) = [] := by
  rw [sendMouseButton]
  split
  · rfl
  · split <;> rfl

/-- A button is sent at its edges, and it is no click of the other one. -/
theorem clicks_sendMouseButton (b b' : MouseButton) (now down : Bool) :
    clicks b (sendMouseButton b'.number now down) =
      if b'.number = b.number then edge down now else [] := by
  cases now <;> cases down <;> cases b <;> cases b' <;> rfl

/-! ## What comes through -/

namespace InputState

variable {p : Poll} {s : InputState}

/-- The change detection and the rate limit let the sample through. -/
def comesThrough (p : Poll) (s : InputState) : Bool :=
  (s.stateChanged p.sample || s.mouseMoves p) && !s.throttled p

/-- The state, but for what is known of the battery. -/
def WithBattery (s s' : InputState) : Prop :=
  ∃ us percent state, s' = { s with
    lastBatteryReportUs := us
    lastBatteryPercent := percent
    lastBatteryState := state }

theorem withBattery_ite {c : Prop} [Decidable c] (state : UInt8) (percent : ℤ) :
    WithBattery s (if c then
      { s with lastBatteryState := state, lastBatteryPercent := percent } else s) := by
  split
  · exact ⟨_, _, _, rfl⟩
  · exact ⟨_, _, _, rfl⟩

theorem sendControllerBattery_spec (pw : Power) (s : InputState) :
    WithBattery s (s.sendControllerBattery pw).1 ∧
      Plain [(s.sendControllerBattery pw).2] :=
  ⟨withBattery_ite _ _, rfl, fun _ => rfl⟩

theorem batteryReport_spec (p : Poll) (s : InputState) :
    WithBattery s (s.batteryReport p).1 ∧ Plain (s.batteryReport p).2 := by
  rw [batteryReport]
  split
  · obtain ⟨⟨us, percent, state, hstate⟩, hplain⟩ :=
      sendControllerBattery_spec p.power s
    refine ⟨⟨p.startUs, percent, state, ?_⟩, hplain⟩
    dsimp only
    rw [hstate]
  · exact ⟨⟨_, _, _, rfl⟩, plain_nil⟩

/-- The combinations that belong to the application are not held. -/
def Quiet (p : Poll) : Prop :=
  exitCombo p.sample.buttons = false ∧ hudCombo p.sample.buttons = false

instance : Decidable (Quiet p) :=
  inferInstanceAs (Decidable (_ ∧ _))

/-- What a poll in a session leaves and sends. -/
structure Outcome (p : Poll) (s : InputState) (r : InputState × List Sent) : Prop where
  initialized : r.1.initialized = s.initialized
  browser : r.1.browser = s.browser
  prevValid : r.1.prevValid = s.prevValid
  prev : r.1.prev = if s.comesThrough p then p.sample else s.prev
  lastSendTick : r.1.lastSendTick = if s.comesThrough p then p.nowUs else s.lastSendTick
  down : ∀ b : MouseButton, b.down r.1 =
    if s.comesThrough p && s.browser then b.pressed p.sample.buttons else b.down s
  samples : samples r.2 = if s.comesThrough p && !s.browser then [p.sample] else []
  clicks : ∀ b : MouseButton, clicks b r.2 =
    if s.comesThrough p && s.browser then
      edge (b.down s) (b.pressed p.sample.buttons)
    else []

theorem transmitBrowser_plain (pad : Pad) (s : InputState) :
    samples (s.transmitBrowser pad).2 = [] ∧ ∀ b : MouseButton,
      clicks b (s.transmitBrowser pad).2 = edge (b.down s) (b.pressed pad.buttons) := by
  have hscroll := plain_browserScroll pad.buttons s.prev.buttons
  have hosk : Plain (s.oskKey pad).2 := (plain_keyTap _).ite
  have hmove : Plain (if (mouseDelta pad).1 ≠ 0 ∨ (mouseDelta pad).2 ≠ 0 then
      [Sent.mouseMove (Int16.ofInt (mouseDelta pad).1) (Int16.ofInt (mouseDelta pad).2)]
      else []) := Plain.ite ⟨rfl, fun _ => rfl⟩
  have hkeys : Plain (if pad.buttons ≠ s.prev.buttons then
      browserKeys pad.buttons s.prev.buttons else []) :=
    (plain_browserKeys _ _).ite
  refine ⟨?_, fun b => ?_⟩
  · simp only [transmitBrowser, samples_append, hscroll.samples, hosk.samples,
      hmove.samples, hkeys.samples, samples_sendMouseButton, List.append_nil]
  · have hleft := clicks_sendMouseButton b .left (leftHeld pad.buttons) s.mouseLDown
    have hright := clicks_sendMouseButton b .right (rightHeld pad.buttons) s.mouseRDown
    simp only [MouseButton.number] at hleft hright
    simp only [transmitBrowser, clicks_append, hscroll.clicks, hosk.clicks,
      hmove.clicks, hkeys.clicks, hleft, hright, List.append_nil, List.nil_append]
    cases b with
    | left => exact List.append_nil _
    | right => exact List.nil_append _

/-- The state in which a sample that comes through is sent. -/
def ticked (p : Poll) (s : InputState) : InputState := { s with lastSendTick := p.nowUs }

/-- A sample that comes through is sent, and is the last one from then on. -/
theorem send_of_comesThrough (h : s.comesThrough p = true) : s.send p =
    ({ (if s.browser then (s.ticked p).transmitBrowser p.sample
        else (s.ticked p).transmitXbox p.sample).1 with prev := p.sample },
      (if s.browser then (s.ticked p).transmitBrowser p.sample
        else (s.ticked p).transmitXbox p.sample).2) := by
  obtain ⟨hchanged, hthrottled⟩ := Bool.and_eq_true_iff.mp h
  rw [send, if_neg, if_neg]
  · rfl
  · rwa [Bool.not_eq_true, ← Bool.not_eq_true']
  · rw [← Bool.not_or, hchanged]
    exact Bool.false_ne_true

theorem send_of_not_comesThrough (h : s.comesThrough p = false) :
    s.send p = (s, []) := by
  rw [send]
  split
  · rfl
  · rename_i hchanged
    rw [if_pos]
    rw [← Bool.not_or, Bool.not_eq_true', Bool.not_eq_false] at hchanged
    rw [comesThrough, hchanged, Bool.true_and, Bool.not_eq_false'] at h
    exact h

theorem send_outcome (p : Poll) (s : InputState) : Outcome p s (s.send p) := by
  cases hthrough : s.comesThrough p with
  | false =>
      rw [send_of_not_comesThrough hthrough]
      constructor <;> simp [hthrough, plain_nil.samples, plain_nil.clicks]
  | true =>
      rw [send_of_comesThrough hthrough]
      cases hbrowser : s.browser with
      | true =>
          obtain ⟨hsamples, hclicks⟩ := transmitBrowser_plain p.sample (s.ticked p)
          rw [if_pos rfl]
          refine ⟨rfl, rfl, rfl, ?_, ?_, fun b => ?_, ?_, fun b => ?_⟩
          all_goals rw [hthrough]
          · rfl
          · rfl
          · rw [hbrowser]
            cases b <;> rfl
          · rw [hbrowser]
            exact hsamples
          · rw [hbrowser]
            refine (hclicks b).trans ?_
            cases b <;> rfl
      | false =>
          have hosk : Plain ((s.ticked p).oskKey p.sample).2 := (plain_keyTap _).ite
          rw [if_neg Bool.false_ne_true]
          refine ⟨rfl, rfl, rfl, ?_, ?_, fun b => ?_, ?_, fun b => ?_⟩
          all_goals rw [hthrough]
          · rfl
          · rfl
          · rw [hbrowser]
            cases b <;> rfl
          · rw [hbrowser, transmitXbox, samples_append, hosk.samples]
            rfl
          · rw [hbrowser, transmitXbox, clicks_append, hosk.clicks]
            rfl

/-- The report of the battery changes nothing that the rest of the poll sees. -/
theorem Outcome.of_withBattery {s' : InputState} {r : InputState × List Sent}
    (h : Outcome p s' r) (hbattery : WithBattery s s') {es : List Sent}
    (hes : Plain es) : Outcome p s (r.1, es ++ r.2) := by
  obtain ⟨us, percent, state, rfl⟩ := hbattery
  refine ⟨h.initialized, h.browser, h.prevValid, h.prev, h.lastSendTick, ?_, ?_, ?_⟩
  · intro b
    refine (h.down b).trans ?_
    cases b <;> rfl
  · rw [samples_append, hes.samples]
    exact h.samples
  · intro b
    rw [clicks_append, hes.clicks]
    refine (h.clicks b).trans ?_
    cases b <;> rfl

/-- What a poll does in a session. -/
theorem poll_outcome (hinit : s.initialized = true) (hquiet : Quiet p) :
    Outcome p s (s.poll p) := by
  obtain ⟨hbattery, hplain⟩ := batteryReport_spec p s
  rw [poll, if_neg, if_neg]
  · exact (send_outcome p _).of_withBattery hbattery hplain
  · rw [hquiet.1, hquiet.2]
    exact Bool.false_ne_true
  · rw [hinit]
    exact Bool.false_ne_true

/-- What the start of a session leaves and sends. -/
theorem init_spec (setup : Setup) (s : InputState) :
    WithBattery { s with
      initialized := true
      browser := setup.browser
      mapping := setup.mapping
      prev := setup.peeked
      prevValid := true } (s.init setup).1 ∧ Plain (s.init setup).2 := by
  obtain ⟨⟨us, percent, state, hstate⟩, hplain⟩ := sendControllerBattery_spec setup.power
    { s with
      initialized := true
      browser := setup.browser
      mapping := setup.mapping
      prev := setup.peeked
      prevValid := true }
  refine ⟨⟨setup.nowUs, percent, state, ?_⟩, ?_⟩
  · rw [init]
    dsimp only
    rw [hstate]
  · have harrival : Plain [Sent.controllerArrival] := ⟨rfl, fun _ => rfl⟩
    exact harrival.append hplain

end InputState

end MoonlightPsp.HostInput
