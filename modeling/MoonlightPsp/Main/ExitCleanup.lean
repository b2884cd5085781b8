import MoonlightPsp.Main.Invariants

/-!
# What an exit leaves behind

`moonlight_prepare_process_exit` takes the stream for torn down when the last
teardown was complete and nothing seems to be active.  The flag of that teardown
outlives the start of the next session, and `module_stop` clears the flags of the
activity before it asks; then the parts of that session go on.
-/

namespace MoonlightPsp.Main

open StreamSession (ExitOutcome)

namespace StreamSession

variable {s : StreamSession} {o : ExitOutcome}

/-- No call is under way. -/
structure Quiet (s : StreamSession) : Prop where
  cleanup : s.processExitCleanupInProgress = false
  teardown : s.streamTeardownInProgress = false

/-- The cleanup takes the stream for torn down. -/
def TakenForDone (s : StreamSession) : Prop :=
  s.processExitCleanupDone = true ∨ s.streamTeardownComplete = true ∧ ¬s.active

/-- Whenever the stream is taken for torn down, nothing of it is running. -/
def Accounted (s : StreamSession) : Prop := s.TakenForDone → s.Stopped

/-- What a part of the cleanup may do to the flags. -/
structure Handled (s : StreamSession) (r : Bool × StreamSession) : Prop where
  cleanup : r.2.processExitCleanupInProgress = false
  teardown : r.2.streamTeardownInProgress = s.streamTeardownInProgress
  xmb : r.2.xmbExitInProgress = s.xmbExitInProgress
  finished : r.1 = true → r.2.processExitCleanupDone = true
  failed : r.1 = false → r.2.processExitCleanupDone = s.processExitCleanupDone

theorem Handled.of_eq {s s' : StreamSession} {r : Bool × StreamSession}
    (h : Handled s' r) (hteardown : s'.streamTeardownInProgress =
      s.streamTeardownInProgress) (hxmb : s'.xmbExitInProgress = s.xmbExitInProgress)
    (hdone : s'.processExitCleanupDone = s.processExitCleanupDone) : Handled s r :=
  { cleanup := h.cleanup
    teardown := h.teardown.trans hteardown
    xmb := h.xmb.trans hxmb
    finished := h.finished
    failed := fun hfailed => (h.failed hfailed).trans hdone }

theorem blocked_handled (s : StreamSession) : Handled s s.blocked :=
  ⟨rfl, rfl, rfl, (fun h => nomatch h), fun _ => rfl⟩

theorem handOff_handled (o : ExitOutcome) (s : StreamSession) :
    Handled s (s.handOff o) ∧ (s.handOff o).2.running = s.running := by
  rw [handOff]
  split
  · exact ⟨blocked_handled s, rfl⟩
  · split
    · exact ⟨blocked_handled s, rfl⟩
    · exact ⟨⟨rfl, rfl, rfl, fun _ => rfl, fun h => nomatch h⟩, rfl⟩

theorem written_eq (w : Option (Bool × ℕ)) (s : StreamSession) :
    ∃ meRunning streamStatus, s.written w = { s with meRunning, streamStatus } := by
  cases w with
  | none => exact ⟨s.meRunning, s.streamStatus, rfl⟩
  | some w => exact ⟨w.1, w.2, rfl⟩

/-- The cleanup gets through with all parts stopped, unless the last teardown was
complete; then they are as they were. -/
theorem cleanUp_handled (o : ExitOutcome) (s : StreamSession) :
    Handled s (s.cleanUp o) ∧ ((s.cleanUp o).1 = true → (s.cleanUp o).2.Stopped ∨
      s.streamTeardownComplete = true ∧ (s.cleanUp o).2.running = s.running) := by
  obtain ⟨meRunning, streamStatus, hwritten⟩ := written_eq o.meanwhile s
  rw [cleanUp, hwritten]
  dsimp only
  split
  · rename_i hcomplete
    obtain ⟨hhandled, hrunning⟩ := handOff_handled o
      { s with meRunning, streamStatus }
    exact ⟨hhandled.of_eq rfl rfl rfl, fun _ => .inr ⟨hcomplete.1, hrunning⟩⟩
  · split
    · exact ⟨(blocked_handled _).of_eq rfl rfl rfl, fun h => nomatch h⟩
    · have hstopped := stopped_of_all exitOrder (fun p => by cases p <;> decide)
        { s with meRunning, streamStatus }
      obtain ⟨hhandled, hrunning⟩ := handOff_handled o
        ({ s with meRunning, streamStatus }.stopAll exitOrder)
      refine ⟨hhandled.of_eq rfl rfl rfl, fun _ => .inl fun p => ?_⟩
      rw [hrunning]
      exact hstopped p

/-- What one call does between the others. -/
theorem prepareProcessExit_handled (hs : s.Quiet) (o : ExitOutcome) :
    Handled s (s.prepareProcessExit o) ∧ ((s.prepareProcessExit o).1 = true →
      (s.prepareProcessExit o).2.Stopped ∨
        s.TakenForDone ∧ (s.prepareProcessExit o).2.running = s.running) := by
  rw [prepareProcessExit]
  split
  · rename_i hdone
    exact ⟨⟨hs.cleanup, rfl, rfl, fun _ => hdone, fun h => nomatch h⟩,
      fun _ => .inr ⟨.inl hdone, rfl⟩⟩
  · rw [if_neg (by rw [hs.cleanup]; decide)]
    dsimp only
    split
    · rw [if_neg (by rw [hs.teardown]; decide)]
      -- the stream is aborted first, so that all parts are stopped either way
      obtain ⟨hstopped, -, -, -, hteardown, hxmb, -, hdone⟩ :=
        abortStreamToMenu_spec (s := { s with processExitCleanupInProgress := true })
          hs.teardown
      obtain ⟨hhandled, hended⟩ := cleanUp_handled o
        { s with processExitCleanupInProgress := true }.abortStreamToMenu
      refine ⟨hhandled.of_eq (hteardown.trans hs.teardown.symm) hxmb hdone, ?_⟩
      intro hfinished
      rcases hended hfinished with h | ⟨-, hrunning⟩
      · exact .inl h
      · refine .inl fun p => ?_
        rw [hrunning]
        exact hstopped p
    · rename_i hinactive
      obtain ⟨hhandled, hended⟩ := cleanUp_handled o
        { s with processExitCleanupInProgress := true }
      refine ⟨hhandled.of_eq rfl rfl rfl, ?_⟩
      intro hfinished
      rcases hended hfinished with h | ⟨hcomplete, hrunning⟩
      · exact .inl h
      · exact .inr ⟨.inr ⟨hcomplete, hinactive⟩, hrunning⟩

/-- Taken for torn down, the stream is left as it is. -/
theorem prepareProcessExit_running (hs : s.TakenForDone) (o : ExitOutcome) :
    (s.prepareProcessExit o).2.running = s.running := by
  rw [prepareProcessExit]
  split
  · rfl
  · split
    · rfl
    · rename_i hdone _
      rcases hs with hs | ⟨hcomplete, hinactive⟩
      · exact absurd hs hdone
      · obtain ⟨meRunning, streamStatus, hwritten⟩ := written_eq o.meanwhile
          { s with processExitCleanupInProgress := true }
        have hstill : ¬{ s with processExitCleanupInProgress := true }.active :=
          hinactive
        dsimp only
        rw [if_neg hstill, cleanUp, hwritten]
        dsimp only
        split
        · exact (handOff_handled o _).2
        · rename_i hactive
          rw [if_pos (by_contra fun h => hactive ⟨hcomplete, h⟩)]
          rfl

theorem handOff_good (s : StreamSession) : (s.handOff .good).1 = true := rfl

theorem cleanUp_good (hs : ¬s.active) : (s.cleanUp .good).1 = true := by
  rw [cleanUp]
  show Prod.fst (if s.streamTeardownComplete ∧ ¬s.active then s.handOff .good
    else if s.active then s.blocked else (s.stopAll exitOrder).handOff .good) = true
  rw [if_neg hs]
  split
  · exact handOff_good s
  · exact handOff_good _

/-- Between the calls, one whose steps go well gets through. -/
theorem prepareProcessExit_good (hs : s.Quiet) :
    (s.prepareProcessExit .good).1 = true := by
  rw [prepareProcessExit]
  split
  · rfl
  · rw [if_neg (by rw [hs.cleanup]; decide)]
    dsimp only
    split
    · rw [if_neg (by rw [hs.teardown]; decide)]
      obtain ⟨-, hrunning, hstatus, -⟩ :=
        abortStreamToMenu_spec (s := { s with processExitCleanupInProgress := true })
          hs.teardown
      refine cleanUp_good ?_
      rintro (h | h)
      · rw [hrunning] at h
        exact nomatch h
      · exact h hstatus
    · exact cleanUp_good ‹_›

end StreamSession

/-- A call that returns 1 has left no part of the stream, and behind one that returns
0 the next call cleans up again. -/
def ExitCall.Complete (c : ExitCall) : Prop :=
  (c.prepared = true → c.after.Stopped) ∧
    (c.prepared = false → c.after.processExitCleanupDone = false ∧
      c.after.processExitCleanupInProgress = false ∧
      (c.after.prepareProcessExit .good).1 = true)

namespace Process

/-- All exits were complete, and a blocked one can be asked for again. -/
def CleanExits (m : Process) : Prop :=
  (∀ c ∈ m.calls, c.Complete) ∧
    (m.session.xmbExitInProgress = true → m.session.processExitCleanupDone = true)

/-- What holds between the events: no call is under way, and the history has calls
that were made so. -/
structure Settled (m : Process) : Prop where
  quiet : m.session.Quiet
  calls : ∀ c ∈ m.calls, c.before.Quiet ∧
    ∃ o, c.before.prepareProcessExit o = (c.prepared, c.after)

variable {m : Process}

theorem Settled.prepareExit (h : m.Settled) (o : ExitOutcome) :
    (m.prepareExit o).2.Settled := by
  obtain ⟨hhandled, -⟩ := StreamSession.prepareProcessExit_handled h.quiet o
  refine ⟨⟨hhandled.cleanup, hhandled.teardown.trans h.quiet.teardown⟩, ?_⟩
  intro c hc
  rcases List.mem_append.mp hc with hold | hnew
  · exact h.calls c hold
  · rw [List.mem_singleton.mp hnew]
    exact ⟨h.quiet, o, rfl⟩

/-- The invariant: also, an exit that was asked for and did not get through may be
asked for again. -/
def Between (m : Process) : Prop :=
  m.Settled ∧ (m.session.xmbExitInProgress = true →
    m.session.processExitCleanupDone = true)

theorem prepareExit_done (hs : m.session.Quiet) (o : ExitOutcome)
    (hdone : m.session.processExitCleanupDone = true) :
    (m.prepareExit o).2.session.processExitCleanupDone = true := by
  obtain ⟨hhandled, -⟩ := StreamSession.prepareProcessExit_handled hs o
  cases hret : (m.session.prepareProcessExit o).1 with
  | true => exact hhandled.finished hret
  | false => exact (hhandled.failed hret).trans hdone

theorem Between.exitProcessNow (h : m.Between) (o : ExitOutcome) :
    (m.exitProcessNow o).Between := by
  have hsettled := h.1
  rw [Process.exitProcessNow]
  split
  · exact h
  · have hasked : Settled { m with
        session := { m.session with xmbExitInProgress := true } } :=
      ⟨⟨hsettled.quiet.cleanup, hsettled.quiet.teardown⟩, hsettled.calls⟩
    obtain ⟨hhandled, -⟩ := StreamSession.prepareProcessExit_handled hasked.quiet o
    have hnext := hasked.prepareExit o
    dsimp only
    split
    · exact ⟨hnext, fun _ => hhandled.finished ‹_›⟩
    · exact ⟨⟨⟨hnext.quiet.cleanup, hnext.quiet.teardown⟩, hnext.calls⟩,
        fun h => nomatch h⟩

theorem between_keeps : Keeps Between where
  write := fun _ _ _ h => ⟨⟨⟨h.1.quiet.cleanup, h.1.quiet.teardown⟩, h.1.calls⟩, h.2⟩
  abort := by
    intro m h
    obtain ⟨-, -, -, -, hteardown, hxmb, hcleanup, hdone⟩ :=
      StreamSession.abortStreamToMenu_spec h.1.quiet.teardown
    refine ⟨⟨⟨hcleanup.trans h.1.quiet.cleanup, hteardown⟩, h.1.calls⟩, ?_⟩
    intro hasked
    exact hdone.trans (h.2 (hxmb.symm.trans hasked))
  exit := by
    intro m o h
    obtain ⟨hhandled, -⟩ := StreamSession.prepareProcessExit_handled h.1.quiet o
    refine ⟨h.1.prepareExit o, fun hasked => ?_⟩
    exact prepareExit_done h.1.quiet o (h.2 (hhandled.xmb.symm.trans hasked))
  place := fun _ _ h => ⟨⟨h.1.quiet, h.1.calls⟩, h.2⟩
  loop := fun _ _ _ h => ⟨⟨h.1.quiet, h.1.calls⟩, h.2⟩
  display := fun _ _ h => ⟨⟨h.1.quiet, h.1.calls⟩, h.2⟩
  phase := fun _ _ _ _ h => ⟨⟨h.1.quiet, h.1.calls⟩, h.2⟩
  choose := fun _ h => ⟨⟨h.1.quiet, h.1.calls⟩, h.2⟩
  start := fun _ _ h => ⟨⟨⟨h.1.quiet.cleanup, h.1.quiet.teardown⟩, h.1.calls⟩, h.2⟩
  stopAll := by
    intro m ps h
    obtain ⟨running, hstop⟩ := StreamSession.stopAll_flags ps m.session
    rw [hstop]
    exact ⟨⟨⟨h.1.quiet.cleanup, h.1.quiet.teardown⟩, h.1.calls⟩, h.2⟩
  running := fun _ _ h => ⟨⟨h.1.quiet, h.1.calls⟩, h.2⟩
  exitNow := fun _ o h => h.exitProcessNow o

theorem between_init : init.Between :=
  ⟨⟨⟨rfl, rfl⟩, fun _ h => nomatch h⟩, fun h => nomatch h⟩

/-- One call of the history is complete if and only if it is blocked, or takes the
stream for torn down only when it is. -/
theorem Settled.complete_iff (h : m.Settled) {c : ExitCall} (hc : c ∈ m.calls) :
    c.Complete ↔ (c.prepared = true → c.before.Accounted) := by
  obtain ⟨hquiet, o, hcall⟩ := h.calls c hc
  obtain ⟨hhandled, hended⟩ := StreamSession.prepareProcessExit_handled hquiet o
  rw [hcall] at hhandled hended
  have hafter : c.after.Quiet :=
    ⟨hhandled.cleanup, hhandled.teardown.trans hquiet.teardown⟩
  constructor
  · intro hcomplete hprepared htaken p
    -- taken for torn down, the call leaves the parts alone
    have hrunning : c.after.running = c.before.running := by
      have hsame : (c.before.prepareProcessExit o).2.running = c.before.running :=
        StreamSession.prepareProcessExit_running htaken o
      rwa [hcall] at hsame
    rw [← hrunning]
    exact hcomplete.1 hprepared p
  · intro haccounted
    refine ⟨?_, ?_⟩
    · intro hprepared
      rcases hended hprepared with hstopped | ⟨htaken, hrunning⟩
      · exact hstopped
      · intro p
        show c.after.running p = false
        rw [hrunning]
        exact haccounted hprepared htaken p
    · intro hfailed
      have hdone : c.before.processExitCleanupDone = false := by
        by_contra htrue
        rw [Bool.not_eq_false] at htrue
        rw [StreamSession.prepareProcessExit, if_pos htrue] at hcall
        have hret : true = c.prepared := congrArg Prod.fst hcall
        exact nomatch hret.trans hfailed
      exact ⟨(hhandled.failed hfailed).trans hdone, hafter.cleanup,
        StreamSession.prepareProcessExit_good hafter⟩

/-- The exits of a run are complete if and only if each one that gets through takes
the stream for torn down only when it is. -/
theorem cleanExits_iff (events : List Event) :
    (init.run events).CleanExits ↔
      ∀ c ∈ (init.run events).calls, c.prepared = true → c.before.Accounted := by
  obtain ⟨hsettled, hxmb⟩ := between_keeps.run between_init events
  constructor
  · intro h c hc
    exact (hsettled.complete_iff hc).mp (h.1 c hc)
  · intro h
    exact ⟨fun c hc => (hsettled.complete_iff hc).mpr (h c hc), hxmb⟩

/-- A session that is left, and a second one in which the module is stopped. -/
def stoppedInSecond : List Event :=
  sessionStart ++ [.poked 0 true false, .iterated .quiet] ++ sessionStart ++
    [.moduleStopped .good]

/-- The parts of the second session go on. -/
theorem stoppedInSecond_not_clean : ¬(init.run stoppedInSecond).CleanExits := by
  intro h
  have hcall := h.1 ((init.run stoppedInSecond).calls.head (by decide))
    (List.head_mem _)
  have hnetwork := hcall.1 (by decide) .networkMe
  exact absurd hnetwork (by decide)

end Process

end MoonlightPsp.Main
