import Mathlib.Data.Nat.Notation
import Mathlib.Data.Int.Notation
import Mathlib.Logic.Function.Basic

/-!
# Ending a stream and the process

The end of a stream and the end of the process share their flags, two of which
belong to the streaming loop.  By them `moonlight_prepare_process_exit` decides
whether there is a stream to abort, whether that is done already, or whether the
parts are to be stopped one by one.
-/

namespace MoonlightPsp.Main

/-- The parts of a stream that `main` starts. -/
inductive Subsystem where
  | controlStream
  | networkMe
  | audio
  | input
  | safetyBuffer
  deriving DecidableEq

/-- The flags of `stream_session.c`, with `me_running` and `g_stream_status`, and the
parts that are running. -/
structure StreamSession where
  meRunning : Bool
  streamStatus : ℕ
  xmbExitInProgress : Bool
  processExitCleanupInProgress : Bool
  processExitCleanupDone : Bool
  streamTeardownInProgress : Bool
  streamTeardownComplete : Bool
  running : Subsystem → Bool

/-- What the process starts with. -/
def StreamSession.init : StreamSession where
  meRunning := false
  streamStatus := 0
  xmbExitInProgress := false
  processExitCleanupInProgress := false
  processExitCleanupDone := false
  streamTeardownInProgress := false
  streamTeardownComplete := false
  running := fun _ => false

namespace StreamSession

def start (p : Subsystem) (s : StreamSession) : StreamSession :=
  { s with running := Function.update s.running p true }

def stop (p : Subsystem) (s : StreamSession) : StreamSession :=
  { s with running := Function.update s.running p false }

/-- The parts are stopped one after the other. -/
def stopAll (ps : List Subsystem) (s : StreamSession) : StreamSession :=
  ps.foldl (fun s p => s.stop p) s

/-- `abort_stream_to_menu`.  If the host was not told of the end, a thread is
started that cancels the session there; nothing here depends on it. -/
def abortStreamToMenu (s : StreamSession) : StreamSession :=
  if s.streamTeardownInProgress then s
  else
    let s := { s with
      streamTeardownInProgress := true
      streamTeardownComplete := false
      meRunning := false }
    -- `network_me_abort` closes the sockets, `network_me_shutdown` ends the threads
    let s := s.stopAll [.audio, .controlStream, .networkMe, .input, .networkMe, .audio,
      .safetyBuffer]
    { s with
      streamStatus := 0
      meRunning := false
      streamTeardownComplete := true
      streamTeardownInProgress := false }

/-- How the steps of an exit end: what other threads write to `me_running` and
`g_stream_status` while the stream is torn down, whether the thread that cancels
the session is over, and whether the player is open, what its destruction returns
and whether it is open even then. -/
structure ExitOutcome where
  meanwhile : Option (Bool × ℕ)
  cancelFinished : Bool
  playerOpen : Bool
  destroyResult : ℤ
  playerStays : Bool

/-- Every step goes well, and nothing else happens. -/
def ExitOutcome.good : ExitOutcome where
  meanwhile := none
  cancelFinished := true
  playerOpen := false
  destroyResult := 0
  playerStays := false

/-- Other threads write to the two flags of the loop. -/
def written (w : Option (Bool × ℕ)) (s : StreamSession) : StreamSession :=
  match w with
  | none => s
  | some (meRunning, streamStatus) => { s with meRunning, streamStatus }

/-- A step failed: the next call may try again. -/
def blocked (s : StreamSession) : Bool × StreamSession :=
  (false, { s with processExitCleanupInProgress := false })

/-- What comes behind the teardown: waiting for the cancellation, the player, and the
network. -/
def handOff (o : ExitOutcome) (s : StreamSession) : Bool × StreamSession :=
  if !o.cancelFinished then s.blocked
  else if o.playerOpen ∧ (o.destroyResult ≠ 0 ∨ o.playerStays) then s.blocked
  else (true, { s with
    streamStatus := 0
    meRunning := false
    processExitCleanupDone := true
    processExitCleanupInProgress := false })

/-- A stream is active. -/
def active (s : StreamSession) : Prop := s.meRunning = true ∨ s.streamStatus ≠ 0

instance (s : StreamSession) : Decidable s.active :=
  inferInstanceAs (Decidable (_ ∨ _))

/-- The parts that `moonlight_prepare_process_exit` stops itself, in order. -/
def exitOrder : List Subsystem :=
  [.input, .audio, .networkMe, .controlStream, .audio, .safetyBuffer]

/-- `moonlight_prepare_process_exit` behind its first `abort_stream_to_menu`. -/
def cleanUp (o : ExitOutcome) (s : StreamSession) : Bool × StreamSession :=
  let s := s.written o.meanwhile
  if s.streamTeardownComplete ∧ ¬s.active then s.handOff o
  else if s.active then s.blocked
  else (s.stopAll exitOrder).handOff o

/-- `moonlight_prepare_process_exit`. -/
def prepareProcessExit (o : ExitOutcome) (s : StreamSession) : Bool × StreamSession :=
  if s.processExitCleanupDone then (true, s)
  else if s.processExitCleanupInProgress then (false, s)
  else
    let s := { s with processExitCleanupInProgress := true }
    if s.active then
      if s.streamTeardownInProgress then s.blocked
      else s.abortStreamToMenu.cleanUp o
    else s.cleanUp o

/-! ## Stopping -/

variable {s : StreamSession} {o : ExitOutcome}

theorem stopAll_running (ps : List Subsystem) (s : StreamSession) (p : Subsystem) :
    (s.stopAll ps).running p = (s.running p && !decide (p ∈ ps)) := by
  induction ps generalizing s with
  | nil => simp [stopAll]
  | cons q ps ih =>
      have htail : s.stopAll (q :: ps) = (s.stop q).stopAll ps := rfl
      rw [htail, ih, stop]
      by_cases hq : p = q
      · subst hq
        simp
      · simp [hq]

/-- Only what runs changes. -/
theorem stopAll_flags (ps : List Subsystem) (s : StreamSession) :
    ∃ running, s.stopAll ps = { s with running } := by
  induction ps generalizing s with
  | nil => exact ⟨s.running, rfl⟩
  | cons q ps ih =>
      obtain ⟨running, h⟩ := ih (s.stop q)
      exact ⟨running, h⟩

/-- Nothing of a stream is left. -/
def Stopped (s : StreamSession) : Prop := ∀ p, s.running p = false

theorem stopped_of_all (ps : List Subsystem) (hall : ∀ p, p ∈ ps)
    (s : StreamSession) : (s.stopAll ps).Stopped := by
  intro p
  rw [stopAll_running, decide_eq_true (hall p)]
  exact Bool.and_false _

/-- A teardown that is not a second one is complete. -/
theorem abortStreamToMenu_spec (hfirst : s.streamTeardownInProgress = false) :
    s.abortStreamToMenu.Stopped ∧ s.abortStreamToMenu.meRunning = false ∧
      s.abortStreamToMenu.streamStatus = 0 ∧
      s.abortStreamToMenu.streamTeardownComplete = true ∧
      s.abortStreamToMenu.streamTeardownInProgress = false ∧
      s.abortStreamToMenu.xmbExitInProgress = s.xmbExitInProgress ∧
      s.abortStreamToMenu.processExitCleanupInProgress =
        s.processExitCleanupInProgress ∧
      s.abortStreamToMenu.processExitCleanupDone = s.processExitCleanupDone := by
  rw [abortStreamToMenu, if_neg (by rw [hfirst]; decide)]
  refine ⟨?_, rfl, rfl, rfl, rfl, rfl, rfl, rfl⟩
  exact stopped_of_all [.audio, .controlStream, .networkMe, .input, .networkMe, .audio,
    .safetyBuffer] (fun p => by cases p <;> decide) _

end StreamSession

end MoonlightPsp.Main
