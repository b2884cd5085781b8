import Mathlib.Data.Int.Notation
import Mathlib.Logic.Function.Basic
import MoonlightPsp.Lib.EarlyExit
import MoonlightPsp.Lib.EventLog

/-!
# The firmware session

`psp_avc_session_open` loads Sony's modules, boots the Media Engine into the mode
of the profile and creates an MPEG context; `psp_avc_session_close` gives
everything back in the opposite order.  Every call of the firmware or the kernel
may fail, and a failure on the way is rolled back by a close.

The model is that of a build with `PSP_HARDWARE_AVC`, neither with a preloaded
stack nor with a borrowed DDR reservation.  What a call of the firmware returns
is an argument, one record for each function.
-/

namespace MoonlightPsp.Avc

open EarlyExit EventLog

/-! ## The session and what is outside of it -/

/-- What a session acquires, under the name of the flag or pointer that notes
it. -/
inductive Resource where
  | avcodec
  | vshLoaded
  | vshStarted
  | helperLoaded
  | helperStarted
  | initialized
  | ddr
  | context
  | created
deriving DecidableEq

/-- `PspAvcSession`; `owns` are the flags and pointers of what it holds. -/
structure PspAvcSession where
  owns : Resource → Bool
  contextUid : ℤ
  ready : Bool
  baselineBooted : Bool
  mainProfile : Bool

/-- A session that is all zero. -/
def PspAvcSession.zero : PspAvcSession where
  owns := fun _ => false
  contextUid := 0
  ready := false
  baselineBooted := false
  mainProfile := false

/-- What happens outside of the session. -/
inductive FirmwareEvent where
  | acquired (r : Resource)
  | released (r : Resource)

/-- The session and the firmware: the mode that the Media Engine was booted into
last, and what was acquired and released so far. -/
structure Firmware where
  session : PspAvcSession
  bootedMode : Option ℕ
  log : List FirmwareEvent

/-- Before the first open. -/
def Firmware.start : Firmware where
  session := .zero
  bootedMode := none
  log := []

def Firmware.acquire (w : Firmware) (r : Resource) : Firmware :=
  { w with
    session.owns := Function.update w.session.owns r true
    log := w.log ++ [.acquired r] }

/-- Give the resource back if the session has it. -/
def Firmware.release (w : Firmware) (r : Resource) : Firmware :=
  if w.session.owns r then
    { w with
      session.owns := Function.update w.session.owns r false
      log := w.log ++ [.released r] }
  else w

/-- `AVC_BOOT_MODE_SWITCH(mode)` with this result. -/
def Firmware.boot (w : Firmware) (mode : ℕ) (r : ℤ) : Firmware :=
  if r < 0 then w else { w with bootedMode := some mode }

/-! ## `psp_avc_session_close` -/

/-- What the calls in `psp_avc_session_close_internal` return. -/
structure CloseAnswers where
  boot : ℤ
  stopHelper : ℤ
  helperStatus : ℤ
  unloadHelper : ℤ
  stopVsh : ℤ
  vshStatus : ℤ
  unloadVsh : ℤ
  unloadAv : ℤ
  freeContext : ℤ

/-- A step of a function: it goes on, or returns a result. -/
abbrev Stage := Firmware → Except (ℤ × Firmware) Firmware

/-- Give a resource back with a call that returns `r`. -/
def Firmware.giveBack (resource : Resource) (r : ℤ) : Stage := fun w =>
  if w.session.owns resource ∧ r < 0 then .error (r, w)
  else .ok (w.release resource)

/-- What a stop of a module comes to: it may fail, or the module may refuse. -/
def stopResult (r status : ℤ) : ℤ :=
  if r < 0 then r else if status < 0 then status else 0

/-- Stop a module. -/
def Firmware.stopModule (resource : Resource) (r status : ℤ) : Stage :=
  Firmware.giveBack resource (stopResult r status)

/-- `AVC_BOOT_MODE_SWITCH(3)` in `psp_avc_session_close_internal`. -/
def Firmware.restoreMode (restoreMode : Bool) (r : ℤ) : Stage := fun w =>
  if restoreMode ∧ w.session.baselineBooted then
    if r < 0 then .error (r, w)
    else .ok { w.boot 3 r with session.baselineBooted := false }
  else .ok w

/-- `psp_avc_release_aligned`; only a block of the partition can fail. -/
def pspAvcReleaseAligned (allocationUid r : ℤ) : ℤ :=
  if allocationUid ≥ 0 then r else 0

/-- Free the context. -/
def Firmware.freeContext (r : ℤ) : Stage := fun w =>
  Firmware.giveBack .context (pspAvcReleaseAligned w.session.contextUid r) w

/-- The stages of `psp_avc_session_close_internal`. -/
def closeStages (restoreMode : Bool) (a : CloseAnswers) : Stage := fun w => do
  let w := { w with session.ready := false }
  let w := (w.release .created).release .initialized
  let w ← Firmware.restoreMode restoreMode a.boot w
  let w ← Firmware.stopModule .helperStarted a.stopHelper a.helperStatus w
  let w ← Firmware.giveBack .helperLoaded a.unloadHelper w
  let w ← Firmware.stopModule .vshStarted a.stopVsh a.vshStatus w
  let w ← Firmware.giveBack .vshLoaded a.unloadVsh w
  let w ← Firmware.giveBack .avcodec a.unloadAv w
  let w ← Firmware.freeContext a.freeContext w
  pure (w.release .ddr)

/-- `psp_avc_session_close_internal`. -/
def pspAvcSessionCloseInternal (w : Firmware) (restoreMode : Bool)
    (a : CloseAnswers) : ℤ × Firmware :=
  match closeStages restoreMode a w with
  | .error r => r
  | .ok w => (0, { w with session := .zero })

/-- `psp_avc_session_close`. -/
def pspAvcSessionClose (w : Firmware) (a : CloseAnswers) : ℤ × Firmware :=
  pspAvcSessionCloseInternal w true a

/-! ## `psp_avc_session_open` -/

/-- What the calls in `psp_avc_allocate_aligned` return: whether `memalign` finds
memory, else the block of the partition and whether it has an address. -/
structure AllocateAnswers where
  memalign : Bool
  uid : ℤ
  head : Bool

/-- `psp_avc_allocate_aligned`: the value for `allocation_uid`, if memory was
found. -/
def pspAvcAllocateAligned (a : AllocateAnswers) : Option ℤ :=
  if a.memalign then some (-1)
  else if a.uid < 0 then none
  else if !a.head then none
  else some a.uid

/-- What the calls in `psp_avc_session_open` return. -/
structure OpenAnswers where
  version : UInt32
  loadAv : ℤ
  loadVsh : ℤ
  startVsh : ℤ
  startStatus : ℤ
  fixup : ℤ
  callerPriority : ℤ
  lowerPriority : ℤ
  boot : ℤ
  restorePriority : ℤ
  mpegInit : ℤ
  memalignDdr : Bool
  querySize : ℤ
  context : AllocateAnswers
  create : ℤ
  decodeMode : ℤ
  initAu : ℤ
  rollback : CloseAnswers

/-- Go on unless the call returned a negative result. -/
def Firmware.check (r : ℤ) : Stage := fun w =>
  if r < 0 then .error (r, w) else .ok w

/-- The mode of a profile. -/
def bootModeOf (mainProfile : Bool) : ℕ := if mainProfile then 3 else 4

/-- Whether the priority of the caller was changed for the boot. -/
def OpenAnswers.changed (a : OpenAnswers) : Bool :=
  a.callerPriority ≥ 0 ∧ a.callerPriority < 33 ∧ a.lowerPriority ≥ 0

/-- The result of the mode switch, with that of giving the priority back. -/
def OpenAnswers.bootResult (a : OpenAnswers) : ℤ :=
  if a.changed ∧ a.restorePriority < 0 ∧ a.boot ≥ 0 then a.restorePriority
  else a.boot

/-- The mode switch at priority 33. -/
def Firmware.bootProfile (mainProfile : Bool) (a : OpenAnswers) : Stage :=
  fun w =>
    let w := w.boot (bootModeOf mainProfile) a.boot
    if a.bootResult < 0 then .error (a.bootResult, w)
    else .ok { w with
      session.baselineBooted := !mainProfile
      session.mainProfile := mainProfile }

/-- The stages of `psp_avc_session_open` before the mode switch. -/
def loadStages (a : OpenAnswers) : Stage := fun w => do
  let w ← Firmware.check a.loadVsh w
  let w := w.acquire .vshLoaded
  let w ← Firmware.check a.startVsh w
  let w := w.acquire .vshStarted
  let w ← Firmware.check a.startStatus w
  Firmware.check (if a.fixup = 0 then -1 else a.fixup) w

/-- The stages of `psp_avc_session_open` after the mode switch. -/
def createStages (a : OpenAnswers) : Stage := fun w => do
  let w ← Firmware.check a.mpegInit w
  let w := w.acquire .initialized
  let w ← Firmware.check (if a.memalignDdr then 0 else -1) w
  let w := w.acquire .ddr
  let w ← Firmware.check (if a.querySize = 0 then -1 else a.querySize) w
  let uid := pspAvcAllocateAligned a.context
  let w := { w with session.contextUid := uid.getD (-1) }
  let w ← Firmware.check (if uid.isSome then 0 else -1) w
  let w := w.acquire .context
  let w ← Firmware.check a.create w
  let w := w.acquire .created
  let w ← Firmware.check a.decodeMode w
  let w ← Firmware.check a.initAu w
  pure { w with session.ready := true }

/-- The checks at the start of `psp_avc_session_open`. -/
def opens (s : PspAvcSession) (helperPath mainProfile : Bool)
    (version : UInt32) : Bool :=
  !(mainProfile && helperPath) && !s.owns .context && !s.owns .ddr &&
    !s.owns .avcodec && !s.owns .vshLoaded && !s.owns .helperLoaded &&
    !s.owns .initialized && !s.owns .created && !s.ready &&
    !s.baselineBooted && !s.mainProfile &&
    (version == 0x06060010 || version == 0x06060110)

/-- `psp_avc_session_open`, for a session that is there and a profile that is 0
or 1. -/
def pspAvcSessionOpen (w : Firmware) (helperPath mainProfile : Bool)
    (a : OpenAnswers) : ℤ × Firmware :=
  if !opens w.session helperPath mainProfile a.version then (-1, w)
  else
    let w := { w with session.contextUid := -1 }
    if a.loadAv < 0 then (a.loadAv, w)
    else
      let stages : Except (ℤ × Firmware) Firmware := do
        let w ← loadStages a (w.acquire .avcodec)
        let w ← Firmware.bootProfile mainProfile a w
        createStages a w
      match stages with
      | .ok w => (0, w)
      | .error (r, w) =>
          let cleanup := pspAvcSessionClose w a.rollback
          (if cleanup.1 < 0 then cleanup.1 else r, cleanup.2)

/-! ## `psp_avc_session_switch_profile` -/

/-- `psp_avc_session_switch_profile`. -/
def pspAvcSessionSwitchProfile (w : Firmware) (helperPath mainProfile : Bool)
    (c : CloseAnswers) (a : OpenAnswers) : ℤ × Firmware :=
  if mainProfile && helperPath then (-1, w)
  else
    let closed := pspAvcSessionCloseInternal w false c
    if closed.1 < 0 then closed
    else pspAvcSessionOpen closed.2 helperPath mainProfile a

end MoonlightPsp.Avc
