import MoonlightPsp.Main.Invariants

/-!
# What a session starts with

The watchdog of the start and the rule for a silent stream depend on two flags.  One
is cleared for each session; the other one is not, and outlives the session that has
set it.  So the rules are in force in each session up to the first one that displays
a frame, and in none behind it.
-/

namespace MoonlightPsp.Main

open EarlyExit

namespace Process

/-- The session has displayed a frame. -/
def Displayed (m : Process) : Prop := m.shownBefore < m.loop.dispCount

/-- The flags tell about this session, and the two rules are in force. -/
structure StartState (m : Process) : Prop where
  started : m.loop.videoStarted = true → m.Displayed
  ready : m.Displayed → m.loop.streamReadyFlag = true
  idle : ∀ i, m.Displayed → m.running = true → m.session.meRunning = true →
    i.videoIdleMs ≥ 10000 → (m.iterate i).place = .hostSelect
  waiting : ∀ i, ¬m.Displayed → m.running = true → m.session.meRunning = true →
    i.presented = false → i.modeDMs - m.loop.streamWaitStart > 20000 →
    (m.iterate i).place ≠ .streaming

/-- What the flags are in truth: whether a frame was displayed in any session, and
whether the first one was in this session. -/
structure Flags (m : Process) : Prop where
  started : m.loop.videoStarted = true ↔ 0 < m.loop.dispCount
  before : m.shownBefore ≤ m.loop.dispCount
  ready : m.loop.streamReadyFlag = true ↔ m.shownBefore = 0 ∧ 0 < m.loop.dispCount
  phase : m.loop.modeDPhase < 3

theorem flags_init : init.Flags where
  started := by decide
  before := by decide
  ready := by decide
  phase := by decide

variable {m m' : Process} {i : Iteration}

/-! ## The truth about the flags -/

theorem Flags.keep (h : m.Flags) (hl : SameFlags m.loop m'.loop)
    (hbefore : m'.shownBefore = m.shownBefore) : m'.Flags := by
  obtain ⟨hstarted, hcount, hready, hphase⟩ := hl
  refine ⟨?_, ?_, ?_, ?_⟩
  · rw [hstarted, hcount]
    exact h.started
  · rw [hbefore, hcount]
    exact h.before
  · rw [hready, hbefore, hcount]
    exact h.ready
  · rw [hphase]
    exact h.phase

/-- The first frame of all sets the flags of its session; no other frame does. -/
theorem Flags.display (h : m.Flags) (fec : ℕ) :
    Flags { m with loop := m.loop.display fec } := by
  have hbefore := h.before
  rw [LoopState.display]
  refine Flags.keep (m := { m with loop := _ }) ?_ (credit_same fec _) rfl
  cases hstarted : m.loop.videoStarted with
  | false =>
      have hnone : m.loop.dispCount = 0 := by
        have hpos := h.started.not.mp (by rw [hstarted]; decide)
        exact Nat.eq_zero_of_not_pos hpos
      refine ⟨?_, ?_, ?_, h.phase⟩
      · exact iff_of_true rfl (Nat.succ_pos _)
      · exact Nat.le_succ_of_le hbefore
      · refine iff_of_true rfl ⟨?_, Nat.succ_pos _⟩
        exact Nat.eq_zero_of_le_zero (hnone ▸ hbefore)
  | true =>
      have hpos := h.started.mp hstarted
      refine ⟨?_, ?_, ?_, h.phase⟩
      · exact iff_of_true rfl (Nat.succ_pos _)
      · exact Nat.le_succ_of_le hbefore
      · refine h.ready.trans ?_
        exact and_congr_right fun _ => iff_of_true hpos (Nat.succ_pos _)

theorem Flags.chooseHost (h : m.Flags) : m.chooseHost.Flags := by
  refine ⟨h.started, Nat.le_refl _, ?_, h.phase⟩
  refine iff_of_false Bool.false_ne_true ?_
  rintro ⟨hnone, hsome⟩
  exact absurd hnone (Nat.ne_of_gt hsome)

theorem flags_keeps : Keeps Flags where
  write := fun _ _ _ h => h.keep ⟨rfl, rfl, rfl, rfl⟩ rfl
  abort := fun _ h => h.keep ⟨rfl, rfl, rfl, rfl⟩ rfl
  exit := fun _ _ h => h.keep ⟨rfl, rfl, rfl, rfl⟩ rfl
  place := fun _ _ h => h.keep ⟨rfl, rfl, rfl, rfl⟩ rfl
  loop := fun _ _ hl h => h.keep hl rfl
  display := fun _ fec h => h.display fec
  phase := fun _ _ hphase _ h => ⟨h.started, h.before, h.ready, hphase⟩
  choose := fun _ h => h.chooseHost
  start := fun _ _ h => h.keep ⟨rfl, rfl, rfl, rfl⟩ rfl
  stopAll := fun _ _ h => h.keep ⟨rfl, rfl, rfl, rfl⟩ rfl
  running := fun _ _ h => h.keep ⟨rfl, rfl, rfl, rfl⟩ rfl
  exitNow := by
    intro m o h
    rw [exitProcessNow]
    split
    · exact h
    · dsimp only
      split
      · exact h.keep ⟨rfl, rfl, rfl, rfl⟩ rfl
      · exact h.keep ⟨rfl, rfl, rfl, rfl⟩ rfl

theorem flags_run (events : List Event) : (init.run events).Flags :=
  flags_keeps.run flags_init events

/-! ## The rules -/

/-- A silent stream is left. -/
theorem iterate_idle (hready : m.loop.streamReadyFlag = true) (hon : m.running = true)
    (hrunning : m.session.meRunning = true) (hidle : i.videoIdleMs ≥ 10000) :
    (m.iterate i).place = .hostSelect := by
  have hturn : m.turn i = .error (toHostSelect { m with
      session := { m.session with streamStatus := 1, meRunning := false } }) := by
    rw [turn, idleRule, if_pos ⟨hrunning, hready, hidle⟩]
    rfl
  rw [iterate, if_pos hon, hturn]
  rfl

/-- The turn leaves the loop before its frame, or comes to it with the flags as they
are. -/
theorem earlyExits_leaves (i : Iteration) (m : Process) :
    Ends (fun m' => m'.place ≠ .streaming) (fun m' => m' = m) (m.earlyExits i) := by
  rw [earlyExits]
  split
  · refine ends_error ?_
    rintro ⟨⟩
  · split
    · refine ends_error ?_
      rintro ⟨⟩
    · split
      · refine ends_error ?_
        rintro ⟨⟩
      · exact ends_ok rfl

theorem takeFrame_same (i : Iteration) (m : Process) :
    SameFlags m.loop (takeFrame i (profileChange i m)).loop ∧
      (takeFrame i (profileChange i m)).loop.streamWaitStart =
        m.loop.streamWaitStart := by
  have hprofile : SameFlags m.loop (profileChange i m).loop ∧
      (profileChange i m).loop.streamWaitStart = m.loop.streamWaitStart := by
    rw [profileChange]
    split
    · exact ⟨⟨rfl, rfl, rfl, rfl⟩, rfl⟩
    · split
      · exact ⟨⟨rfl, rfl, rfl, rfl⟩, rfl⟩
      · exact ⟨⟨rfl, rfl, rfl, rfl⟩, rfl⟩
  rw [takeFrame]
  split
  · exact hprofile
  · exact hprofile

/-- A stream without a frame for twenty seconds is left. -/
theorem iterate_waiting (hstarted : m.loop.videoStarted = false)
    (hready : m.loop.streamReadyFlag = false) (hphase : m.loop.modeDPhase < 3)
    (hon : m.running = true) (hrunning : m.session.meRunning = true)
    (hframe : i.presented = false)
    (hlong : i.modeDMs - m.loop.streamWaitStart > 20000) :
    (m.iterate i).place ≠ .streaming := by
  have hturn : Ends (fun m' => m'.place ≠ .streaming) (fun _ => False)
      (m.turn i) := by
    have hidle : m.idleRule i = m := by
      rw [idleRule, if_neg]
      rintro ⟨-, htrue, -⟩
      rw [hready] at htrue
      exact Bool.false_ne_true htrue
    have hended : m.hostEnded = .ok m := by
      rw [hostEnded, hrunning]
      rfl
    have hscreen : m.stoppedScreen i = .ok m := by
      rw [stoppedScreen, if_pos hrunning]
    rw [turn, hidle, hended]
    show Ends _ _ (m.stoppedScreen i >>= _)
    rw [hscreen]
    refine (earlyExits_leaves i m).bind ?_
    intro m' hm'
    obtain ⟨⟨hsame, -, -, hphase'⟩, hstart⟩ := takeFrame_same i m
    subst hm'
    rw [← hsame] at hstarted
    rw [← hphase'] at hphase
    rw [← hstart] at hlong
    rw [present, if_neg (by rw [hframe]; decide), if_neg (by rw [hstarted]; decide),
      watchdogD]
    dsimp only
    rw [if_pos ⟨hlong, hphase⟩]
    rintro ⟨⟩
  rw [iterate, if_pos hon]
  split
  · rename_i hok
    rw [hok] at hturn
    exact hturn.elim
  · rename_i herror
    rwa [herror] at hturn

/-- In every state that a run reaches, the flags tell about the session and the rules
are in force if and only if no frame was displayed in an earlier session. -/
theorem startState_iff (events : List Event) :
    (init.run events).StartState ↔ (init.run events).shownBefore = 0 := by
  have hflags := flags_run events
  generalize init.run events = m at hflags
  constructor
  · intro h
    by_contra hshown
    have hpos : 0 < m.loop.dispCount :=
      Nat.lt_of_lt_of_le (Nat.pos_of_ne_zero hshown) hflags.before
    have hready := h.ready (h.started (hflags.started.mpr hpos))
    exact hshown (hflags.ready.mp hready).1
  · intro hshown
    have hdisplayed : m.Displayed ↔ 0 < m.loop.dispCount := by
      rw [Displayed, hshown]
    refine ⟨?_, ?_, ?_, ?_⟩
    · intro hstarted
      exact hdisplayed.mpr (hflags.started.mp hstarted)
    · intro h
      exact hflags.ready.mpr ⟨hshown, hdisplayed.mp h⟩
    · intro i h hon hrunning hidle
      exact iterate_idle (hflags.ready.mpr ⟨hshown, hdisplayed.mp h⟩) hon hrunning
        hidle
    · intro i h hon hrunning hframe hlong
      have hnone := hdisplayed.not.mp h
      have hstarted : m.loop.videoStarted = false :=
        Bool.eq_false_iff.mpr (hflags.started.not.mpr hnone)
      have hready : m.loop.streamReadyFlag = false :=
        Bool.eq_false_iff.mpr (hflags.ready.not.mpr fun h => hnone h.2)
      exact iterate_waiting hstarted hready hflags.phase hon hrunning hframe hlong

/-- A session that the overlay ends behind its first frame, and a second one. -/
def twoSessions : List Event :=
  sessionStart ++
    [.iterated { Iteration.quiet with
      taken := true, presented := true, hudReturn := 1 }] ++
    sessionStart

/-- The second session starts as if it had displayed a frame. -/
theorem twoSessions_not_startState :
    (init.run twoSessions).place = .streaming ∧
      ¬(init.run twoSessions).StartState := by
  refine ⟨by decide, fun h => ?_⟩
  have hnone : ¬(init.run twoSessions).shownBefore <
      (init.run twoSessions).loop.dispCount := by decide
  exact hnone (h.started (by decide))

end Process

end MoonlightPsp.Main
