import Mathlib.Data.Int.Notation
import Mathlib.Data.UInt
import Mathlib.Logic.Function.Basic

/-!
# From decoded samples to the playback thread

The receive thread of `audio_thread.c` stages decoded samples and pushes them, in
chunks of a fixed size, to a ring that the playback thread pops from.  The two
counters of the ring run freely and wrap at 2^32; a slot is a counter modulo the
number of slots.

The playback thread runs whenever the receive thread waits.  What it pops meanwhile is
an argument of a call: a list with the number of pops before each push.
-/

namespace MoonlightPsp.Audio

/-! ## The state -/

/-- `AUDIO_CHUNK_SAMPLES * AUDIO_CHANNELS`. -/
def audioChunkSamples : ℕ := 512

/-- `AUDIO_STAGE_CAPACITY`, four frames of `AUDIO_MAX_FRAME_SAMPLES`. -/
def audioStageCapacity : ℕ := 2880 * 4

/-- `AUDIO_RING_SLOTS`. -/
def audioRingSlots : ℕ := 96

/-- The samples of a slot. -/
structure Chunk where
  samples : List Int16
  length_eq : samples.length = audioChunkSamples

/-- `AudioRingBuffer`. -/
structure AudioRingBuffer where
  pcm : ℕ → Chunk
  head : UInt32
  tail : UInt32

/-- A push, as `ring_push_pcm` finds the ring: both counters, what is in the
slot, and what goes there. -/
structure Push where
  head : UInt32
  tail : UInt32
  old : Chunk
  new : Chunk

/-- `s_ring`, the staged samples and `s_effective_ring_depth`; then the samples
that were popped and the pushes since the last reset. -/
structure Pcm where
  ring : AudioRingBuffer
  stage : List Int16
  depth : UInt32
  popped : List Int16
  pushes : List Push

/-- A slot full of zeros. -/
def Chunk.silence : Chunk where
  samples := List.replicate audioChunkSamples 0
  length_eq := List.length_replicate

/-- The statics before the first call. -/
def Pcm.init : Pcm where
  ring := ⟨fun _ => .silence, 0, 0⟩
  stage := []
  depth := UInt32.ofNat audioRingSlots
  popped := []
  pushes := []

/-- The slot of a counter. -/
def ringSlot (counter : UInt32) : ℕ :=
  (counter % UInt32.ofNat audioRingSlots).toNat

/-! ## The ring -/

/-- `ring_full`. -/
def ringFull (s : Pcm) : Bool :=
  decide (s.ring.head - s.ring.tail ≥ s.depth)

/-- `ring_empty`. -/
def ringEmpty (s : Pcm) : Bool := s.ring.head == s.ring.tail

/-- `ring_push_pcm`: whether there was room. -/
def ringPushPcm (s : Pcm) (src : Chunk) : Bool × Pcm :=
  if ringFull s then (false, s)
  else
    let slot := ringSlot s.ring.head
    (true, { s with
      ring := { s.ring with
        pcm := Function.update s.ring.pcm slot src
        head := s.ring.head + 1 }
      pushes := s.pushes ++
        [⟨s.ring.head, s.ring.tail, s.ring.pcm slot, src⟩] })

/-- `ring_pop_pcm`: what it copies to `dst`. -/
def ringPopPcm (s : Pcm) : Option Chunk × Pcm :=
  if ringEmpty s then (none, s)
  else
    let chunk := s.ring.pcm (ringSlot s.ring.tail)
    (some chunk, { s with
      ring := { s.ring with tail := s.ring.tail + 1 }
      popped := s.popped ++ chunk.samples })

/-- The playback thread pops a number of times. -/
def Pcm.popMany (s : Pcm) : ℕ → Pcm
  | 0 => s
  | n + 1 => ((ringPopPcm s).2).popMany n

/-! ## The stage -/

/-- The chunk at the front of the stage. -/
def stageChunk (stage : List Int16) (h : audioChunkSamples ≤ stage.length) :
    Chunk where
  samples := stage.take audioChunkSamples
  length_eq := by rw [List.length_take, Nat.min_eq_left h]

/-- The loop of `audio_flush_stage_to_ring`: whether no push failed, and the pops
that are left. -/
def flushLoop : ℕ → Pcm → List ℕ → Bool × Pcm × List ℕ
  | 0, s, pops => (true, s, pops)
  | rounds + 1, s, pops =>
      if h : audioChunkSamples ≤ s.stage.length then
        let pushed := ringPushPcm (s.popMany (pops.headD 0))
          (stageChunk s.stage h)
        if !pushed.1 then (false, pushed.2, pops.tail)
        else flushLoop rounds { pushed.2 with
          stage := s.stage.drop audioChunkSamples } pops.tail
      else (true, s, pops)

/-- `audio_flush_stage_to_ring`.  Every round takes samples from the stage. -/
def audioFlushStageToRing (s : Pcm) (pops : List ℕ) : Bool × Pcm × List ℕ :=
  flushLoop s.stage.length s pops

/-- The `while` of `audio_stage_append_and_flush`, with the waits that are left:
whether the samples fit the stage now. -/
def makeStageRoom (samples waitsLeft : ℕ) (s : Pcm) (pops : List ℕ) :
    Bool × Pcm × List ℕ :=
  if s.stage.length + samples ≤ audioStageCapacity then (true, s, pops)
  else
    let flushed := audioFlushStageToRing s pops
    if flushed.1 ∧ flushed.2.1.stage.length + samples ≤ audioStageCapacity then
      (true, flushed.2)
    else
      match waitsLeft with
      | 0 => (false, flushed.2)
      | waitsLeft + 1 =>
          makeStageRoom samples waitsLeft flushed.2.1 flushed.2.2

/-- The samples that a caller hands over. -/
def given (src : ℕ → Int16) (samples : ℤ) : List Int16 :=
  (List.range samples.toNat).map src

/-- `audio_stage_append_and_flush`. -/
def audioStageAppendAndFlush (s : Pcm) (src : ℕ → Int16) (samples : ℤ)
    (pops : List ℕ) : ℤ × Pcm :=
  if samples ≤ 0 ∨ samples > audioStageCapacity then (-1, s)
  else
    let room := makeStageRoom samples.toNat 24 s pops
    if !room.1 then (-2, room.2.1)
    else
      let s := { room.2.1 with stage := room.2.1.stage ++ given src samples }
      let flushed := audioFlushStageToRing s room.2.2
      (if flushed.1 then 0 else 1, flushed.2.1)

/-! ## Runs -/

/-- The part of `audio_thread_init` that clears the ring and the stage. -/
def Pcm.reset (s : Pcm) : Pcm where
  ring := ⟨fun _ => .silence, 0, 0⟩
  stage := []
  depth := s.depth
  popped := []
  pushes := []

/-- A call of either thread; `flush` is the one at the top of the receive loop,
and `adjustDepth` sets the depth there. -/
inductive PcmCall where
  | append (src : ℕ → Int16) (samples : ℤ) (pops : List ℕ)
  | flush (pops : List ℕ)
  | pop
  | adjustDepth
  | reset

/-- The state after a call. -/
def Pcm.call (s : Pcm) : PcmCall → Pcm
  | .append src samples pops =>
      (audioStageAppendAndFlush s src samples pops).2
  | .flush pops => (audioFlushStageToRing s pops).2.1
  | .pop => (ringPopPcm s).2
  | .adjustDepth => { s with depth := UInt32.ofNat audioRingSlots }
  | .reset => s.reset

/-- The samples that were accepted since the last reset, behind a call: an append
that returns a negative value adds nothing. -/
def acceptedBy (s : Pcm) (accepted : List Int16) : PcmCall → List Int16
  | .append src samples pops =>
      if (audioStageAppendAndFlush s src samples pops).1 < 0 then accepted
      else accepted ++ given src samples
  | .reset => []
  | _ => accepted

/-- A run of calls, with the samples that were accepted. -/
def playRun (s : Pcm) (accepted : List Int16) :
    List PcmCall → Pcm × List Int16
  | [] => (s, accepted)
  | c :: calls => playRun (s.call c) (acceptedBy s accepted c) calls

end MoonlightPsp.Audio
