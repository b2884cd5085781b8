import MoonlightPsp.Lib.EarlyExit
import MoonlightPsp.Main.Sessions

/-!
# Invariants of a process

A turn of the loop has many ways out, but does only a few things: it writes to the
flags, ends the stream or the process, and changes the variables of the loop.  What
each of these things keeps is kept by every run.
-/

namespace MoonlightPsp.Main

open EarlyExit

/-- The variables that tell whether the video has started are as they were. -/
def SameFlags (l l' : LoopState) : Prop :=
  l'.videoStarted = l.videoStarted ∧ l'.dispCount = l.dispCount ∧
    l'.streamReadyFlag = l.streamReadyFlag ∧ l'.modeDPhase = l.modeDPhase

theorem SameFlags.trans {l l' l'' : LoopState} (h : SameFlags l l')
    (h' : SameFlags l' l'') : SameFlags l l'' :=
  ⟨h'.1.trans h.1, h'.2.1.trans h.2.1, h'.2.2.1.trans h.2.2.1,
    h'.2.2.2.trans h.2.2.2⟩

theorem credit_same (fec : ℕ) (l : LoopState) : SameFlags l (l.credit fec) := by
  rw [LoopState.credit]
  generalize (if fec > 90 then 600 else if fec < 70 then 1200 else 900) = threshold
  split
  · exact ⟨rfl, rfl, rfl, rfl⟩
  · exact ⟨rfl, rfl, rfl, rfl⟩

theorem watchdogA_same (i : Iteration) (l : LoopState) :
    SameFlags l (l.watchdogA i) := by
  rw [LoopState.watchdogA]
  generalize (if 0 < i.bitrate ∧ i.bitrate < 300 then 5000000 else 3000000 : UInt32) =
    timeout
  split
  · exact ⟨rfl, rfl, rfl, rfl⟩
  · exact ⟨rfl, rfl, rfl, rfl⟩

theorem softRecovery_same (i : Iteration) (l : LoopState) :
    SameFlags l (l.softRecovery i) := by
  rw [LoopState.softRecovery]
  split
  · exact ⟨rfl, rfl, rfl, rfl⟩
  · split
    · exact ⟨rfl, rfl, rfl, rfl⟩
    · exact ⟨rfl, rfl, rfl, rfl⟩

theorem watchdogB_same (i : Iteration) (l : LoopState) :
    SameFlags l (l.watchdogB i) := by
  rw [LoopState.watchdogB]
  generalize (if l.forceRestartNoProgress > 0 then 900 else 600) = backoff
  split
  · have hsame := softRecovery_same i l
    dsimp only
    split
    · exact hsame
    · exact hsame
  · exact ⟨rfl, rfl, rfl, rfl⟩

theorem watchdogC_same (i : Iteration) (l : LoopState) :
    SameFlags l (l.watchdogC i) := by
  rw [LoopState.watchdogC]
  split
  · exact ⟨rfl, rfl, rfl, rfl⟩
  · exact ⟨rfl, rfl, rfl, rfl⟩

theorem stall_same (i : Iteration) (l : LoopState) : SameFlags l (l.stall i) := by
  have hcounted : SameFlags l { l with idleCount := l.idleCount + 1 } :=
    ⟨rfl, rfl, rfl, rfl⟩
  exact hcounted.trans ((watchdogA_same i _).trans
    ((watchdogB_same i _).trans (watchdogC_same i _)))

namespace Process

/-- What keeps a property in the loop: whatever a turn does. -/
structure TurnKeeps (I : Process → Prop) : Prop where
  write : ∀ m meRunning streamStatus, I m →
    I { m with session := { m.session with meRunning, streamStatus } }
  abort : ∀ m, I m → I { m with session := m.session.abortStreamToMenu }
  exit : ∀ m o, I m → I (m.prepareExit o).2
  place : ∀ m place, I m → I { m with place }
  loop : ∀ m loop, SameFlags m.loop loop → I m → I { m with loop }
  display : ∀ m fec, I m → I { m with loop := m.loop.display fec }
  phase : ∀ m modeDPhase, modeDPhase < 3 → m.loop.videoStarted = false → I m →
    I { m with loop := { m.loop with modeDPhase } }

variable {I : Process → Prop} {m : Process}

namespace TurnKeeps

theorem toHostSelect (hI : TurnKeeps I) (h : I m) : I m.toHostSelect :=
  hI.place _ .hostSelect (hI.abort m h)

theorem exitToPsplink (hI : TurnKeeps I) (o : StreamSession.ExitOutcome) (h : I m) :
    I (m.exitToPsplink o) :=
  hI.place _ .ended (hI.exit m o h)

theorem idleRule (hI : TurnKeeps I) (i : Iteration) (h : I m) : I (m.idleRule i) := by
  rw [Process.idleRule]
  split
  · exact hI.write m false 1 h
  · exact h

theorem hostEnded (hI : TurnKeeps I) (h : I m) : Ends I I m.hostEnded := by
  rw [Process.hostEnded]
  split
  · exact ends_error (hI.toHostSelect h)
  · exact ends_ok h

theorem stoppedScreen (hI : TurnKeeps I) (i : Iteration) (h : I m) :
    Ends I I (m.stoppedScreen i) := by
  have hread := hI.loop m { m.loop with remoteButtons := 0 } ⟨rfl, rfl, rfl, rfl⟩ h
  rw [Process.stoppedScreen]
  split
  · exact ends_ok h
  · dsimp only
    split
    · exact ends_error (hI.toHostSelect (hI.write _ m.session.meRunning 0 hread))
    · exact ends_error hread

theorem earlyExits (hI : TurnKeeps I) (i : Iteration) (h : I m) :
    Ends I I (m.earlyExits i) := by
  rw [Process.earlyExits]
  split
  · refine ends_error (hI.exitToPsplink i.exit ?_)
    exact hI.loop m _ ⟨rfl, rfl, rfl, rfl⟩ h
  · split
    · exact ends_error (hI.toHostSelect (hI.loop m _ ⟨rfl, rfl, rfl, rfl⟩ h))
    · split
      · exact ends_error (hI.toHostSelect (hI.loop m _ ⟨rfl, rfl, rfl, rfl⟩ h))
      · exact ends_ok h

theorem takeFrame (hI : TurnKeeps I) (i : Iteration) (h : I m) :
    I ((m.profileChange i).takeFrame i) := by
  have hprofile : I (m.profileChange i) := by
    rw [Process.profileChange]
    split
    · exact h
    · split
      · exact hI.loop m _ ⟨rfl, rfl, rfl, rfl⟩ h
      · exact h
  rw [Process.takeFrame]
  split
  · exact hI.loop _ _ ⟨rfl, rfl, rfl, rfl⟩ hprofile
  · exact hprofile

theorem watchdogD (hI : TurnKeeps I) (i : Iteration)
    (hwaiting : m.loop.videoStarted = false) (h : I m) :
    Ends I I (m.watchdogD i) := by
  have hloop : { m.loop with videoStarted := false, modeDPhase := 0 } =
      { m.loop with modeDPhase := 0 } := by
    rw [← hwaiting]
  rw [Process.watchdogD]
  dsimp only
  split
  · rw [hloop]
    exact ends_error (hI.phase m.toHostSelect 0 (by decide) hwaiting
      (hI.toHostSelect h))
  · split
    · exact ends_ok (hI.phase m 2 (by decide) hwaiting h)
    · split
      · exact ends_ok (hI.phase m 1 (by decide) hwaiting h)
      · exact ends_ok h

theorem present (hI : TurnKeeps I) (i : Iteration) (h : I m) :
    Ends I I (m.present i) := by
  rw [Process.present]
  split
  · exact ends_ok (hI.display m i.fecRecoveryPct h)
  · split
    · exact ends_ok (hI.loop m _ (stall_same i m.loop) h)
    · exact hI.watchdogD i (Bool.not_eq_true _ ▸ ‹_›) h

theorem heldCombo (hI : TurnKeeps I) (i : Iteration) (buttons : UInt32) (h : I m) :
    Ends I I (m.heldCombo i buttons) := by
  rw [Process.heldCombo]
  split
  · split
    · exact ends_ok (hI.loop m _ ⟨rfl, rfl, rfl, rfl⟩ h)
    · split
      · exact ends_error (hI.toHostSelect (hI.loop m _ ⟨rfl, rfl, rfl, rfl⟩ h))
      · exact ends_ok h
  · exact ends_ok (hI.loop m _ ⟨rfl, rfl, rfl, rfl⟩ h)

theorem hud (hI : TurnKeeps I) (i : Iteration) (h : I m) : Ends I I (m.hud i) := by
  rw [Process.hud]
  split
  · exact ends_error (hI.write m false 2 h)
  · split
    · exact ends_error (hI.toHostSelect h)
    · exact ends_ok h

theorem lateExits (hI : TurnKeeps I) (i : Iteration) (snapshot : UInt32) (h : I m) :
    Ends I I (m.lateExits i snapshot) := by
  have hpoked := hI.loop m { m.loop with
    remoteButtons := i.pokedButtons.getD m.loop.remoteButtons
    remoteExitRequest := m.loop.remoteExitRequest || i.pokedExit }
    ⟨rfl, rfl, rfl, rfl⟩ h
  have hcleared := hI.loop _ { m.loop with
    remoteButtons := i.pokedButtons.getD m.loop.remoteButtons
    remoteExitRequest := false } ⟨rfl, rfl, rfl, rfl⟩ h
  rw [Process.lateExits]
  dsimp only
  split
  · exact ends_error (hI.toHostSelect hcleared)
  · split
    · exact ends_error (hI.toHostSelect hpoked)
    · refine (hI.heldCombo i _ hpoked).bind ?_
      intro m hm
      refine (hI.hud i hm).bind ?_
      intro m hm
      split
      · exact ends_ok hm
      · exact ends_ok (hI.loop m _ ⟨rfl, rfl, rfl, rfl⟩ hm)

theorem turn (hI : TurnKeeps I) (i : Iteration) (h : I m) : Ends I I (m.turn i) := by
  rw [Process.turn]
  refine (hI.hostEnded (hI.idleRule i h)).bind ?_
  intro m hm
  refine (hI.stoppedScreen i hm).bind ?_
  intro m hm
  refine (hI.earlyExits i hm).bind ?_
  intro m' hm'
  refine (hI.present i (hI.takeFrame i hm')).bind ?_
  intro m'' hm''
  exact hI.lateExits i _ hm''

theorem iterate (hI : TurnKeeps I) (i : Iteration) (h : I m) : I (m.iterate i) := by
  have hturn := hI.turn i h
  rw [Process.iterate]
  split
  · split
    · rename_i hok
      rwa [hok] at hturn
    · rename_i herror
      rwa [herror] at hturn
  · exact hI.exitToPsplink i.exit h

end TurnKeeps

/-- What keeps a property in the whole process. -/
structure Keeps (I : Process → Prop) : Prop extends TurnKeeps I where
  choose : ∀ m, I m → I m.chooseHost
  start : ∀ m p, I m → I { m with session := m.session.start p }
  stopAll : ∀ m ps, I m → I { m with session := m.session.stopAll ps }
  running : ∀ m running, I m → I { m with running }
  exitNow : ∀ m o, I m → I (m.exitProcessNow o)

namespace Keeps

theorem enterLoop (hI : Keeps I) (inputSocket : ℤ) (nowMs : UInt32) (h : I m) :
    I (m.enterLoop inputSocket nowMs) := by
  have hbuffer := hI.start m .safetyBuffer h
  have hreset {m : Process} (h : I m) := hI.loop m { m.loop with
    videoSeenThisSession := false
    modeBSoftCount := 0
    forceRestartNoProgress := 0
    streamWaitStart := nowMs } ⟨rfl, rfl, rfl, rfl⟩ h
  rw [Process.enterLoop]
  dsimp only
  split
  · exact hI.place _ .streaming (hreset (hI.start _ .input hbuffer))
  · exact hI.place _ .streaming (hreset hbuffer)

theorem callback (hI : Keeps I) (h : I m) : I m.callback := by
  have hreset := hI.loop m { m.loop with
    remoteButtons := 0
    remoteExitRequest := false
    remoteAppExitRequest := false } ⟨rfl, rfl, rfl, rfl⟩ h
  exact hI.running _ false hreset

theorem moduleStop (hI : Keeps I) (o : StreamSession.ExitOutcome) (h : I m) :
    I (m.moduleStop o) :=
  hI.write _ false 0 (hI.exit _ o (hI.write _ false 0 (hI.callback h)))

theorem step (hI : Keeps I) (h : I m) (e : Event) : I (m.step e) := by
  cases e with
  | hostChosen => exact atPlace_invariant h (hI.choose m h)
  | audioStarted => exact atPlace_invariant h (hI.start m .audio h)
  | connectFailed again =>
      exact atPlace_invariant h
        (hI.place _ _ (hI.write _ false m.session.streamStatus (hI.stopAll m _ h)))
  | connected =>
      exact atPlace_invariant (f := fun m => { m with place := .decoder }) h
        (hI.place m .decoder h)
  | decoderStarted ret o =>
      refine atPlace_invariant (f := startDecoder ret o) h ?_
      rw [startDecoder]
      split
      · exact hI.exitToPsplink o h
      · exact hI.place _ .network (hI.write m true m.session.streamStatus h)
  | networkStarted =>
      exact atPlace_invariant h (hI.place _ .control
        (hI.write _ true m.session.streamStatus (hI.start m .networkMe h)))
  | networkFailed meRunning =>
      exact atPlace_invariant h (hI.place _ .control
        (hI.write m meRunning m.session.streamStatus h))
  | controlStarted ret =>
      refine atPlace_invariant (f := startControl ret) h ?_
      rw [startControl]
      split
      · exact hI.toHostSelect h
      · exact hI.place _ .entering (hI.start m .controlStream h)
  | loopEntered inputSocket nowMs =>
      exact atPlace_invariant h (hI.enterLoop inputSocket nowMs h)
  | iterated i => exact atPlace_invariant h (hI.iterate i h)
  | quit o => exact atPlace_invariant h (hI.exitToPsplink o h)
  | aborted => exact hI.abort m h
  | exitedProcessNow o => exact hI.exitNow m o h
  | moduleStopped o => exact hI.moduleStop o h
  | exitCallback => exact hI.callback h
  | written meRunning streamStatus => exact hI.write m meRunning streamStatus h
  | poked buttons exitRequest appExitRequest =>
      exact hI.loop m _ ⟨rfl, rfl, rfl, rfl⟩ h

theorem run (hI : Keeps I) (h : I m) (events : List Event) : I (m.run events) := by
  induction events generalizing m with
  | nil => exact h
  | cons e es ih => exact ih (hI.step h e)

end Keeps

end Process

end MoonlightPsp.Main
