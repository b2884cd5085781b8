import Mathlib.Data.Int.Notation
import Mathlib.Data.UInt
import MoonlightPsp.Lib.RingWindow

/-!
# The safety buffer

`safety_buffer.c` caches the last two seconds of NAL units in a ring of slots.
Their bytes are in a pool of RAM that is handed out from front to back and taken
back as a whole when the ring is empty.  Once the pool was full, units go to a
file by way of a queue, and their slots have no bytes.

The model is that of an initialised buffer.  Whether the mutex is got and what
`sceIoOpen` returns are arguments of the calls.
-/

namespace MoonlightPsp.SafetyBuffer

open RingWindow

/-! ## The state -/

/-- `SAFETY_BUFFER_SLOTS`. -/
def safetyBufferSlots : ℕ := 128

/-- `SAFETY_BUFFER_SIZE_BYTES`. -/
def safetyBufferSizeBytes : ℕ := 500 * 1024

/-- `SAFETY_BUFFER_MAX_NAL_SIZE`. -/
def safetyBufferMaxNalSize : ℕ := 256 * 1024

/-- `WRITE_QUEUE_SLOTS`. -/
def writeQueueSlots : ℕ := 12

/-- `WRITE_QUEUE_BUF_SZ`. -/
def writeQueueBufSz : ℕ := 64 * 1024

/-- `SAFETY_BUFFER_DURATION_MS * 1000`. -/
def durationUs : UInt64 := 2000000

/-- `SafetyBufferState`. -/
inductive BufferState where
  | idle
  | buffering
  | rewind
  | paused
deriving DecidableEq

/-- `SafetyBufferSlot`, with the data as an offset in the pool; `nal` is what was
stored, which only the statements look at. -/
structure Slot where
  data : Option ℕ
  length : ℕ
  timestamp : UInt64
  isKeyframe : Bool
  nal : List UInt8

/-- `SafetyBuffer` and the statics of the write queue, without the threads and
what the writer thread writes. -/
structure Buffer where
  slots : ℕ → Slot
  ramPool : ℕ → UInt8
  ramPoolUsed : ℕ
  writeHead : ℕ
  readTail : ℕ
  rewindPoint : ℕ
  state : BufferState
  fallbackFd : ℤ
  usingFallback : Bool
  totalNalsBuffered : UInt32
  totalBytesBuffered : UInt32
  rewindCount : UInt32
  fallbackWrites : UInt32
  fallbackDrops : UInt32
  oldestTimestamp : UInt64
  newestTimestamp : UInt64
  wqHead : ℕ
  wqTail : ℕ
  queueFullConsec : UInt32
  storageFault : Bool

/-- After `safety_buffer_init`. -/
def Buffer.init : Buffer where
  slots := fun _ => ⟨none, 0, 0, false, []⟩
  ramPool := fun _ => 0
  ramPoolUsed := 0
  writeHead := 0
  readTail := 0
  rewindPoint := 0
  state := .buffering
  fallbackFd := -1
  usingFallback := false
  totalNalsBuffered := 0
  totalBytesBuffered := 0
  rewindCount := 0
  fallbackWrites := 0
  fallbackDrops := 0
  oldestTimestamp := 0
  newestTimestamp := 0
  wqHead := 0
  wqTail := 0
  queueFullConsec := 0
  storageFault := false

/-- The next slot. -/
def nextSlot (i : ℕ) : ℕ := (i + 1) % safetyBufferSlots

/-! ## The pool -/

/-- The size that `allocate_from_pool` takes for a unit. -/
def alignedSize (size : ℕ) : ℕ := (size + 63) / 64 * 64

/-- `allocate_from_pool`: where the bytes go, and what is used then. -/
def allocateFromPool (s : Buffer) (size : ℕ) : Option (ℕ × ℕ) :=
  if s.ramPoolUsed + alignedSize size > safetyBufferSizeBytes then none
  else some (s.ramPoolUsed, s.ramPoolUsed + alignedSize size)

/-- `memcpy` into the pool. -/
def putPool (pool : ℕ → UInt8) (offset : ℕ) (nal : List UInt8) : ℕ → UInt8 :=
  fun k => if offset ≤ k then (nal[k - offset]?).getD (pool k) else pool k

/-- The bytes at a place in the pool. -/
def Buffer.bytesAt (s : Buffer) (offset length : ℕ) : List UInt8 :=
  (List.range length).map fun i => s.ramPool (offset + i)

/-! ## The file -/

/-- `write_to_fallback`: whether the unit is in the queue. -/
def writeToFallback (s : Buffer) (nalLen : ℕ) : Bool × Buffer :=
  if s.fallbackFd < 0 then (false, s)
  else if nalLen > writeQueueBufSz then
    (false, { s with fallbackDrops := s.fallbackDrops + 1 })
  else
    let nextHead := (s.wqHead + 1) % writeQueueSlots
    if nextHead = s.wqTail then
      (false, { s with
        queueFullConsec := s.queueFullConsec + 1
        fallbackDrops := s.fallbackDrops + 1
        storageFault := s.storageFault ||
          decide (s.queueFullConsec + 1 ≥ UInt32.ofNat writeQueueSlots) })
    else
      (true, { s with
        wqHead := nextHead
        queueFullConsec := 0
        fallbackWrites := s.fallbackWrites + 1 })

/-- `writer_thread` takes one unit out of the queue; `fails` says whether a write
fails. -/
def Buffer.writerStep (s : Buffer) (fails : Bool) : Buffer :=
  if s.wqTail = s.wqHead then s
  else
    let s := if s.fallbackFd ≥ 0 ∧ !s.storageFault ∧ fails then
        { s with storageFault := true, fallbackFd := -1 }
      else s
    { s with wqTail := (s.wqTail + 1) % writeQueueSlots }

/-! ## Eviction -/

/-- The loop of `evict_old_entries`. -/
def evictLoop (cutoffTime : UInt64) : ℕ → Buffer → Buffer
  | 0, s => s
  | rounds + 1, s =>
      if s.readTail = s.writeHead then s
      else if (s.slots s.readTail).timestamp ≥ cutoffTime then s
      else evictLoop cutoffTime rounds { s with
        readTail := nextSlot s.readTail
        oldestTimestamp := (s.slots s.readTail).timestamp }

/-- `evict_old_entries`.  The ring has fewer entries than the loop has rounds. -/
def evictOldEntries (s : Buffer) : Buffer :=
  if s.newestTimestamp = 0 then s
  else
    let s := evictLoop (s.newestTimestamp - durationUs) safetyBufferSlots s
    if s.readTail = s.writeHead then { s with ramPoolUsed := 0 } else s

/-! ## `safety_buffer_store_nal` -/

/-- A full ring gives up its oldest entry. -/
def Buffer.makeRoom (s : Buffer) : Buffer :=
  if nextSlot s.writeHead = s.readTail then
    { s with readTail := nextSlot s.readTail }
  else s

/-- The slot is filled and the head moves on. -/
def Buffer.fillSlot (s : Buffer) (slot : Slot) : Buffer :=
  let nextHead := nextSlot s.writeHead
  { s with
    slots := Function.update s.slots s.writeHead slot
    oldestTimestamp := if s.oldestTimestamp = 0 then slot.timestamp
      else s.oldestTimestamp
    newestTimestamp := slot.timestamp
    totalNalsBuffered := s.totalNalsBuffered + 1
    totalBytesBuffered := s.totalBytesBuffered + UInt32.ofNat slot.length
    writeHead := nextHead
    rewindPoint := if slot.isKeyframe then nextHead else s.rewindPoint }

/-- The change from BUFFERING to IDLE. -/
def Buffer.settle (s : Buffer) : Buffer :=
  if s.state = .buffering ∧ s.newestTimestamp - s.oldestTimestamp ≥ 500000 then
    { s with state := .idle }
  else s

/-- The part of `safety_buffer_store_nal` behind the copy of the bytes. -/
def Buffer.commit (s : Buffer) (slot : Slot) : Buffer :=
  (evictOldEntries (s.fillSlot slot)).settle

/-- The pool is full: the file is opened and the unit goes there, but gets no
slot. -/
def switchToFallback (s : Buffer) (nalLen : ℕ) (openFd : ℤ) : Buffer :=
  let s := { s with fallbackFd := openFd }
  if openFd ≥ 0 then (writeToFallback { s with usingFallback := true } nalLen).2
  else s

/-- `safety_buffer_store_nal` with the mutex: whether the unit got a slot. -/
def storeLocked (s : Buffer) (nal : List UInt8) (pts : UInt64)
    (isKeyframe : Bool) (openFd : ℤ) : Bool × Buffer :=
  let s := s.makeRoom
  if !s.usingFallback then
    match allocateFromPool s nal.length with
    | none => (false, switchToFallback s nal.length openFd)
    | some (offset, used) =>
        let s := { s with
          ramPool := putPool s.ramPool offset nal
          ramPoolUsed := used }
        (true, s.commit ⟨some offset, nal.length, pts, isKeyframe, nal⟩)
  else
    let written := writeToFallback s nal.length
    if !written.1 then (false, written.2)
    else (true, written.2.commit ⟨none, nal.length, pts, isKeyframe, nal⟩)

/-- `safety_buffer_store_nal`; there is no unit where the pointer is null. -/
def safetyBufferStoreNal (s : Buffer) (nal : Option (List UInt8)) (pts : UInt64)
    (isKeyframe locked : Bool) (openFd : ℤ) : Bool × Buffer :=
  match nal with
  | none => (false, s)
  | some nal =>
      if nal.length = 0 ∨ nal.length > safetyBufferMaxNalSize ∨ !locked then
        (false, s)
      else storeLocked s nal pts isKeyframe openFd

/-! ## `safety_buffer_rewind` and the other calls -/

/-- A keyframe whose bytes are in RAM. -/
def Slot.ramKeyframe (e : Slot) : Bool := e.data.isSome && e.isKeyframe

/-- The slot before. -/
def previousSlot (i : ℕ) : ℕ :=
  (i + safetyBufferSlots - 1) % safetyBufferSlots

/-- The loop of `find_last_keyframe`. -/
def findLoop (s : Buffer) : ℕ → ℕ → Option ℕ
  | 0, _ => none
  | rounds + 1, idx =>
      if idx = s.readTail then none
      else if (s.slots idx).ramKeyframe then some idx
      else findLoop s rounds (previousSlot idx)

/-- `find_last_keyframe`.  The loop meets the tail in one turn of the ring. -/
def findLastKeyframe (s : Buffer) : Option ℕ :=
  findLoop s safetyBufferSlots (previousSlot s.writeHead)

/-- `safety_buffer_can_rewind`. -/
def safetyBufferCanRewind (s : Buffer) (locked : Bool) : ℕ :=
  if !locked then 0
  else if s.writeHead ≠ s.readTail ∧ (findLastKeyframe s).isSome then 1
  else 0

/-- What `safety_buffer_rewind` gives its caller: the pointer, as an offset in
the pool, and what it writes to `*out_len` and `*out_pts`. -/
structure Rewound where
  data : Option ℕ
  length : ℕ
  pts : UInt64

/-- `safety_buffer_rewind`; `given` says that no pointer is null. -/
def safetyBufferRewind (s : Buffer) (given locked : Bool) :
    Option Rewound × Buffer :=
  if !given ∨ !locked then (none, s)
  else
    match findLastKeyframe s with
    | none => (none, s)
    | some idx =>
        let slot := s.slots idx
        (some ⟨slot.data, slot.length, slot.timestamp⟩, { s with
          writeHead := nextSlot idx
          rewindPoint := nextSlot idx
          state := .buffering })

/-- `safety_buffer_handle_packet_loss`. -/
def safetyBufferHandlePacketLoss (s : Buffer) (locked : Bool) : Buffer :=
  if !locked then s
  else { s with state := .rewind, rewindCount := s.rewindCount + 1 }

/-- `safety_buffer_clear`. -/
def safetyBufferClear (s : Buffer) (locked : Bool) (openFd : ℤ) : Buffer :=
  if !locked then s
  else
    { s with
      writeHead := 0
      readTail := 0
      rewindPoint := 0
      ramPoolUsed := 0
      slots := fun i => { s.slots i with data := none, length := 0 }
      state := .buffering
      totalNalsBuffered := 0
      totalBytesBuffered := 0
      fallbackDrops := 0
      fallbackFd := if s.usingFallback ∧ s.fallbackFd ≥ 0 then openFd
        else s.fallbackFd }

/-! ## Runs -/

/-- A call, or a step of the writer thread. -/
inductive BufferCall where
  | storeNal (nal : Option (List UInt8)) (pts : UInt64) (isKeyframe : Bool)
      (locked : Bool) (openFd : ℤ)
  | canRewind (locked : Bool)
  | rewind (given locked : Bool)
  | handlePacketLoss (locked : Bool)
  | clear (locked : Bool) (openFd : ℤ)
  | writer (fails : Bool)

/-- The state after a call. -/
def Buffer.call (s : Buffer) : BufferCall → Buffer
  | .storeNal nal pts isKeyframe locked openFd =>
      (safetyBufferStoreNal s nal pts isKeyframe locked openFd).2
  | .canRewind _ => s
  | .rewind given locked => (safetyBufferRewind s given locked).2
  | .handlePacketLoss locked => safetyBufferHandlePacketLoss s locked
  | .clear locked openFd => safetyBufferClear s locked openFd
  | .writer fails => s.writerStep fails

/-- The live entries, oldest first. -/
def Buffer.live (s : Buffer) : List Slot :=
  contents safetyBufferSlots s.slots s.writeHead s.readTail

/-- A property of every call of a run. -/
def AtEachCall (P : Buffer → BufferCall → Prop) :
    Buffer → List BufferCall → Prop
  | _, [] => True
  | s, c :: calls => P s c ∧ AtEachCall P (s.call c) calls

end MoonlightPsp.SafetyBuffer
