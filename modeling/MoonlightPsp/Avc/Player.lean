import MoonlightPsp.Avc.Backend
import MoonlightPsp.Avc.FrameSlots

/-!
# The player of the hardware decoder

`psp_avc_player.c` gives slots of one pool of pictures to the decoder and hands
the newest decoded one to the presenter.  Decode and reset run on one worker;
take and release run on the presenter, also while the worker decodes.  A wait on
the semaphore may fail at any time.
-/

namespace MoonlightPsp.Avc

/-! ## The state -/

/-- The statics of the player.  `psp_avc_player_open_profile` and
`psp_avc_player_close` also note the size of the picture, which nothing reads. -/
structure Player where
  hardware : Hardware
  slots : AvcFrameSlots
  pixels : Option UInt32
  pixelsUid : ℤ
  sema : ℤ
  outputSequence : UInt32
  profileChangePending : Bool
  profileChangeTarget : Bool
  profileDecodeActive : Bool

/-- The statics before the first call. -/
def Player.start : Player where
  hardware := .start
  slots := { AvcFrameSlots.init with queued := some 0 }
  pixels := none
  pixelsUid := -1
  sema := -1
  outputSequence := 0
  profileChangePending := false
  profileChangeTarget := false
  profileDecodeActive := false

/-- `SLOT_BYTES`. -/
def slotBytes : ℕ := 512 * 272 * 4

/-- `pixels+i*SLOT_BYTES`. -/
def Player.slotAddress (s : Player) (i : ℕ) : UInt32 :=
  s.pixels.getD 0 + UInt32.ofNat (i * slotBytes)

/-- Output buffers that are given to the firmware: the indices into
`PspAvcPictures.rgba` that are written, each with its slot, and the slot table at
that point. -/
structure Giving where
  rgba : List (ℕ × ℕ)
  table : AvcFrameSlots

/-- What a call returns and leaves. -/
structure PlayerReturn where
  result : ℤ
  player : Player
  given : Option Giving

/-! ## Opening -/

/-- `backend_has_resources`. -/
def backendHasResources (h : Hardware) : Bool :=
  h.backend.avcc.isSome || sessionHasResources h.firmware.session

/-- The slots of the table that are in one of some states. -/
def AvcFrameSlots.anyIn (s : AvcFrameSlots) (states : List SlotState) : Bool :=
  (List.range avcFrameSlots).any fun i => states.contains (s.state i)

/-- `frames_idle`. -/
def framesIdle (s : Player) (lock : ℤ) : Bool :=
  if s.sema < 0 then true
  else if lock < 0 then false
  else !s.slots.anyIn [.writing, .queued, .held]

/-- `close_backend_for_reopen`. -/
def closeBackendForReopen (s : Player) (a : CloseAnswers) (free : ℤ) :
    ℤ × Player :=
  let r := pspAvcBackendClose s.hardware a free
  (r.1, { s with
    hardware := r.2
    profileChangePending := false
    profileDecodeActive := false })

/-- What the calls in `psp_avc_player_open_profile` return; `sameHelper` says
whether two helper paths are one pointer. -/
structure PlayerOpenAnswers where
  sameHelper : Bool
  lock : ℤ
  stale : CloseAnswers
  staleFree : ℤ
  backend : BackendOpenAnswers
  pool : AllocateAnswers
  poolAddress : UInt32
  createSema : ℤ
  freePool : ℤ
  cleanup : CloseAnswers
  cleanupFree : ℤ

/-- The checks of the arguments in `psp_avc_player_open_profile`. -/
def playerOpens (width height : ℕ) (helper : Bool) (mainProfile : ℤ) : Bool :=
  decide (0 < width ∧ width ≤ 480 ∧ width % 2 = 0 ∧
    0 < height ∧ height ≤ 272 ∧ height % 2 = 0) &&
    (profileOf mainProfile).isSome && !(mainProfile == 1 && helper)

/-- The session that is open fits the request. -/
def Player.reusable (s : Player) (helper : Bool) (mainProfile : ℤ)
    (sameHelper : Bool) : Bool :=
  let b := s.hardware.backend
  b.avcc.isSome && !b.failed && s.hardware.firmware.session.ready &&
    some b.mainProfile == profileOf mainProfile &&
    (b.baselineHelper == helper && (!helper || sameHelper))

/-- The frame pool and the semaphore. -/
def allocatePool (s : Player) (a : PlayerOpenAnswers) : ℤ × Player :=
  match pspAvcAllocateAligned a.pool with
  | none =>
      (-1, (closeBackendForReopen { s with pixels := none, pixelsUid := -1 }
        a.cleanup a.cleanupFree).2)
  | some uid =>
      let s := { s with pixels := some a.poolAddress, pixelsUid := uid }
      if a.createSema < 0 then
        let s := { s with sema := a.createSema }
        if pspAvcReleaseAligned uid a.freePool < 0 then
          (pspAvcReleaseAligned uid a.freePool, s)
        else
          (-1, (closeBackendForReopen { s with pixels := none, pixelsUid := -1 }
            a.cleanup a.cleanupFree).2)
      else
        (0, { s with sema := a.createSema, slots := .init, outputSequence := 0 })

/-- The part of `psp_avc_player_open_profile` behind the stale session. -/
def openFresh (s : Player) (reuseBuffers : Bool) (width height : ℕ)
    (helper : Bool) (mainProfile : ℤ) (a : PlayerOpenAnswers) : ℤ × Player :=
  let opened := pspAvcBackendOpen s.hardware width height helper mainProfile
    a.backend
  let s := { s with hardware := opened.2 }
  if opened.1 ≠ 0 then
    (opened.1, (closeBackendForReopen s a.cleanup a.cleanupFree).2)
  else
    let s := { s with
      profileChangePending := false
      profileChangeTarget := mainProfile == 1 }
    if reuseBuffers then (0, { s with slots := .init, outputSequence := 0 })
    else allocatePool s a

/-- `psp_avc_player_open_profile`. -/
def pspAvcPlayerOpenProfile (s : Player) (width height : ℕ) (helper : Bool)
    (mainProfile : ℤ) (a : PlayerOpenAnswers) : ℤ × Player :=
  if !playerOpens width height helper mainProfile then (-1, s)
  else if decide (0 ≤ s.sema) != s.pixels.isSome then (-1, s)
  else if 0 ≤ s.sema then
    if s.reusable helper mainProfile a.sameHelper then
      (0, { s with
        hardware.backend.expectedWidth := width
        hardware.backend.expectedHeight := height })
    else if !framesIdle s a.lock then (-1, s)
    else
      let closed := closeBackendForReopen s a.stale a.staleFree
      if closed.1 ≠ 0 then closed
      else openFresh closed.2 true width height helper mainProfile a
  else if backendHasResources s.hardware then
    let closed := closeBackendForReopen s a.stale a.staleFree
    if closed.1 ≠ 0 then closed
    else openFresh closed.2 false width height helper mainProfile a
  else openFresh s false width height helper mainProfile a

/-! ## The presenter -/

/-- `psp_avc_player_take`; `given` says that no pointer is null. -/
def pspAvcPlayerTake (s : Player) (given : Bool) (lock : ℤ) :
    Option (UInt32 × TakenFrame) × Player :=
  if s.sema < 0 ∨ !given ∨ lock < 0 then (none, s)
  else
    let r := avcFrameSlotsTake s.slots true
    (r.1.map fun frame => (s.slotAddress frame.slot, frame),
      { s with slots := r.2 })

/-- `psp_avc_player_release`. -/
def pspAvcPlayerRelease (s : Player) (frame : UInt32) (lock : ℤ) : ℤ × Player :=
  if s.sema < 0 ∨ frame = 0 ∨ lock < 0 then (-1, s)
  else
    match (List.range avcFrameSlots).find? fun i => frame = s.slotAddress i with
    | none => (-1, s)
    | some i =>
        let r := avcFrameSlotsRelease s.slots true i
        (if r.1 then 0 else -1, { s with slots := r.2 })

/-- A call of the presenter. -/
inductive PresenterCall where
  | take (given : Bool) (lock : ℤ)
  | release (frame : UInt32) (lock : ℤ)

def Player.present (s : Player) : PresenterCall → Player
  | .take given lock => (pspAvcPlayerTake s given lock).2
  | .release frame lock => (pspAvcPlayerRelease s frame lock).2

/-! ## `psp_avc_player_decode` -/

/-- What the calls in `psp_avc_player_decode` return, and what the presenter does
between the two critical sections. -/
structure PlayerDecodeAnswers where
  lock : ℤ
  submit : SubmitAnswers
  presenter : List PresenterCall
  secondLock : ℤ
  decodedAtUs : ℕ → UInt32

/-- The result of the backend is noted. -/
def Player.noteResult (s : Player) (r : ℤ) : Player :=
  if r = profileChangeRequired then
    { s with
      profileChangeTarget := s.hardware.backend.requestedMainProfile
      profileChangePending := true }
  else s

/-- The second critical section of `psp_avc_player_decode`. -/
def publishPictures (s : Player) (reserved : List ℕ) (r count : ℤ)
    (a : PlayerDecodeAnswers) : ℤ × Player :=
  let ids := fun i => s.outputSequence + UInt32.ofNat (i + 1)
  let s := { s with
    outputSequence := s.outputSequence + UInt32.ofNat count.toNat
    profileDecodeActive := false }
  if a.secondLock < 0 then (-1, s)
  else
    let published := avcFrameSlotsPublish s.slots true
      (fun i => reserved.getD i 0) count (some ⟨ids, a.decodedAtUs⟩)
    let s := { s with slots := published.2 }
    if !published.1 then (-1, s)
    else (if r ≠ 0 then r else if count ≠ 0 then 0 else 3, s)

/-- The part of `psp_avc_player_decode` behind the reservation. -/
def decodeInto (s : Player) (reserved : List ℕ) (src : Option (List UInt8))
    (a : PlayerDecodeAnswers) : Option PlayerReturn := do
  let given : Giving :=
    ⟨(List.range 3).map fun i => (i, reserved.getD i 0), s.slots⟩
  let r ← pspAvcBackendDecode s.hardware src
    ⟨fun i => s.slotAddress (reserved.getD i 0), 0⟩ a.submit
  let s := { s with hardware := r.1.2, profileDecodeActive := true }
  let s := a.presenter.foldl Player.present (s.noteResult r.1.1)
  let count := if r.1.1 ≠ 0 then 0 else r.2.count
  let done := publishPictures s reserved r.1.1 count a
  some ⟨done.1, done.2, some given⟩

/-- `psp_avc_player_decode`. -/
def pspAvcPlayerDecode (s : Player) (src : Option (List UInt8))
    (a : PlayerDecodeAnswers) : Option PlayerReturn :=
  if s.profileChangePending then some ⟨profileChangeRequired, s, none⟩
  else if s.sema < 0 ∨ a.lock < 0 then some ⟨-1, s, none⟩
  else
    match avcFrameSlotsReserve s.slots true with
    | (none, _) => some ⟨-3, s, none⟩
    | (some reserved, slots) => decodeInto { s with slots } reserved src a

/-! ## `psp_avc_player_apply_profile_change` and `psp_avc_player_reset` -/

/-- `psp_avc_player_apply_profile_change`. -/
def pspAvcPlayerApplyProfileChange (s : Player) (lock : ℤ) (c : CloseAnswers)
    (a : OpenAnswers) : ℤ × Player :=
  if !s.profileChangePending ∨ s.profileDecodeActive ∨ !framesIdle s lock then
    (-1, s)
  else
    let switched := pspAvcBackendSwitchProfile s.hardware
      (if s.profileChangeTarget then 1 else 0) c a
    let s := { s with hardware := switched.2 }
    if switched.1 ≠ 0 then (switched.1, s)
    else (0, { s with profileChangePending := false })

/-- The queued picture is dropped. -/
def AvcFrameSlots.dropQueued (s : AvcFrameSlots) : AvcFrameSlots :=
  match s.queued with
  | none => s
  | some slot => { s.mark slot .free with queued := none }

/-- `psp_avc_player_reset`. -/
def pspAvcPlayerReset (s : Player) (lock : ℤ) (c : CloseAnswers)
    (a : OpenAnswers) : ℤ × Player :=
  if s.sema < 0 then (-1, s)
  else
    let r := pspAvcBackendReset s.hardware c a
    let s := { s with hardware := r.2 }
    if lock < 0 then (-1, s)
    else (r.1, { s with slots := s.slots.dropQueued })

/-! ## `psp_avc_player_close` -/

/-- What the calls in `psp_avc_player_close` return. -/
structure PlayerCloseAnswers where
  lock : ℤ
  drain : DrainAnswers
  flush : ℤ
  backend : CloseAnswers
  freeArena : ℤ
  secondLock : ℤ
  freePool : ℤ

/-- The session may still hold a picture. -/
def Player.undrained (s : Player) : Bool :=
  s.hardware.firmware.session.ready &&
    s.hardware.backend.format.codedWidth != 0 &&
    s.hardware.backend.format.codedHeight != 0

/-- The drain in `psp_avc_player_close`: the loop writes a buffer for each slot
of the table. -/
def drainPlayer (s : Player) (a : DrainAnswers) : PlayerReturn :=
  let given : Giving := ⟨(List.range avcFrameSlots).map fun i => (i, i), s.slots⟩
  let r := pspAvcDrain s.hardware.firmware.session s.hardware.backend.format
    ⟨s.slotAddress, 0⟩ a
  ⟨r.1, { s with hardware.firmware.session := r.2.1 }, some given⟩

/-- The part of `psp_avc_player_close` behind the drain. -/
def closeDrained (s : Player) (a : PlayerCloseAnswers) : ℤ × Player :=
  if s.hardware.firmware.session.owns .created ∧ a.flush ≠ 0 then (a.flush, s)
  else
    let closed := pspAvcBackendClose s.hardware a.backend a.freeArena
    let s := { s with hardware := closed.2 }
    if closed.1 ≠ 0 then (closed.1, s)
    else if a.secondLock < 0 then (-1, s)
    else (0, { s with slots := .init, outputSequence := 0 })

/-- `psp_avc_player_close` without a semaphore. -/
def closeWithoutSema (s : Player) (a : PlayerCloseAnswers) : ℤ × Player :=
  let closed := closeBackendForReopen s a.backend a.freeArena
  let s := closed.2
  if closed.1 ≠ 0 then closed
  else if s.pixels.isSome ∧ pspAvcReleaseAligned s.pixelsUid a.freePool < 0 then
    (pspAvcReleaseAligned s.pixelsUid a.freePool, s)
  else (0, { s with pixels := none, pixelsUid := -1 })

/-- The checks at the start of `psp_avc_player_close`. -/
def Player.closes (s : Player) (lock : ℤ) : Bool :=
  s.pixels.isSome && decide (0 ≤ lock) && !s.slots.anyIn [.held, .writing]

/-- A call that only returns a result and leaves a state. -/
def PlayerReturn.plain (r : ℤ × Player) : PlayerReturn := ⟨r.1, r.2, none⟩

/-- `psp_avc_player_close`. -/
def pspAvcPlayerClose (s : Player) (a : PlayerCloseAnswers) : PlayerReturn :=
  if s.sema < 0 then .plain (closeWithoutSema s a)
  else if !s.closes a.lock then .plain (-1, s)
  else if s.undrained then
    let drained := drainPlayer s a.drain
    if drained.result ≠ 0 then drained
    else
      let r := closeDrained drained.player a
      ⟨r.1, r.2, drained.given⟩
  else .plain (closeDrained s a)

/-! ## Runs -/

/-- A call, with what the firmware and the kernel return in it. -/
inductive PlayerCall where
  | openProfile (width height : ℕ) (helper : Bool) (mainProfile : ℤ)
      (a : PlayerOpenAnswers)
  | decode (src : Option (List UInt8)) (a : PlayerDecodeAnswers)
  | present (c : PresenterCall)
  | applyProfileChange (lock : ℤ) (c : CloseAnswers) (a : OpenAnswers)
  | reset (lock : ℤ) (c : CloseAnswers) (a : OpenAnswers)
  | close (a : PlayerCloseAnswers)

/-- One call; `none` is an access outside of a buffer of the backend. -/
def Player.call (s : Player) : PlayerCall → Option PlayerReturn
  | .openProfile width height helper mainProfile a =>
      some (.plain (pspAvcPlayerOpenProfile s width height helper mainProfile a))
  | .decode src a => pspAvcPlayerDecode s src a
  | .present c => some (.plain (0, s.present c))
  | .applyProfileChange lock c a =>
      some (.plain (pspAvcPlayerApplyProfileChange s lock c a))
  | .reset lock c a => some (.plain (pspAvcPlayerReset s lock c a))
  | .close a => some (pspAvcPlayerClose s a)

end MoonlightPsp.Avc
