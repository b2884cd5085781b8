import MoonlightPsp.PacketRing.Spsc
import MoonlightPsp.Lib.SerialNumber
import Mathlib.Data.Set.Basic

/-!
# What a trimmed queue loses

`decoder_trim_live_queue` drops the packets in front of the latest one that opens a frame,
and reports the frames that are lost with them.
-/

namespace MoonlightPsp.PacketRing

open SerialNumber

/-! ## The model -/

/-- The calls that the function makes. -/
inductive TrimCall where
  | rtpReassemblyReset
  | rtpFecReset
  | noteFrameLoss (lossStart lossEnd : UInt32)
  | requestRfi (lossStart lossEnd : UInt32)
  deriving DecidableEq

/-- What it returns, the tail if it moves it, and its calls. -/
structure LiveTrim where
  returned : Bool
  tail : Option ℕ
  calls : List TrimCall
  deriving DecidableEq

/-- The slot that is looked at in a turn of the loop. -/
def scanIdx (head scan : ℕ) : ℕ := (head + ringBufferSlots - scan) % ringBufferSlots

/-- The packet of a turn, if it opens a frame ahead of the last good one. -/
def scanSlot (lastGoodFrame : UInt32) (slots : ℕ → Packet) (head scan : ℕ) :
    Option (ℕ × UInt32) := do
  let sofFrameId ← decoderPacketSofFrameId (slots (scanIdx head scan))
  if frameAhead lastGoodFrame sofFrameId then some (scanIdx head scan, sofFrameId) else none

/-- `decoder_trim_live_queue` with the calls it makes. -/
def trimLiveQueue (env : DrainEnv) (slots : ℕ → Packet) (head queued trimThreshold : ℕ) :
    LiveTrim :=
  if queued ≤ trimThreshold then ⟨true, none, []⟩
  else if !env.sawFirstIdr ∨ env.lastGoodFrame = 0 then ⟨false, none, []⟩
  else
    match (List.range' 1 (min queued (ringBufferSlots - 1))).findSome?
        (scanSlot env.lastGoodFrame slots head) with
    | none => ⟨false, none, []⟩
    | some (sofIdx, sofFrameId) =>
        let keep := (head + ringBufferSlots - sofIdx) % ringBufferSlots
        if keep = 0 ∨ keep ≥ queued then ⟨true, none, []⟩
        else
          let lossStart := env.lastGoodFrame + 1
          let lossEnd := sofFrameId - 1
          ⟨true, some sofIdx, [.rtpReassemblyReset, .rtpFecReset] ++
            if delta sofFrameId env.lastGoodFrame > 1 then
              [.noteFrameLoss lossStart lossEnd, .requestRfi lossStart lossEnd]
            else []⟩

/-! ## The tail -/

variable {env : DrainEnv} {slots : ℕ → Packet} {head tail queued trimThreshold scan : ℕ}
  {lgf f : UInt32}

theorem frameAhead_iff :
    frameAhead lgf f = true ↔ 0 < delta f lgf ∧ delta f lgf ≤ liveTrimFrameSpanMax := by
  have hspan : liveTrimFrameSpanMax = 120 := rfl
  have hlt := (f - lgf).toNat_lt
  simp only [frameAhead, decide_eq_true_eq, delta, hspan]
  split
  · omega
  · omega

theorem scanSlot_eq_some {idx : ℕ} (h : scanSlot lgf slots head scan = some (idx, f)) :
    idx = scanIdx head scan ∧ decoderPacketSofFrameId (slots idx) = some f ∧
      0 < delta f lgf ∧ delta f lgf ≤ liveTrimFrameSpanMax := by
  obtain ⟨f', hf', hahead⟩ := Option.bind_eq_some_iff.mp h
  split at hahead
  · rename_i hframe
    cases hahead
    exact ⟨rfl, hf', frameAhead_iff.mp hframe⟩
  · cases hahead

theorem findSome?_eq_bind_find? {α β : Type*} (g : α → Option β) (l : List α) :
    l.findSome? g = (l.find? fun x => (g x).isSome).bind g := by
  induction l with
  | nil => rfl
  | cons x l ih =>
      cases hx : g x with
      | none => simp [hx, ih]
      | some y => simp [hx]

/-- The model without the calls, which the run of the ring uses, is the same function. -/
theorem trimLiveQueue_tail (env : DrainEnv) (slots : ℕ → Packet)
    (head queued trimThreshold : ℕ) :
    ((trimLiveQueue env slots head queued trimThreshold).returned,
      (trimLiveQueue env slots head queued trimThreshold).tail) =
        decoderTrimLiveQueue env slots head queued trimThreshold := by
  rw [trimLiveQueue, decoderTrimLiveQueue]
  split
  · rfl
  split
  · rfl
  dsimp only
  generalize hsof : List.find? _ _ = sof
  have hscan : (List.range' 1 (min queued (ringBufferSlots - 1))).find?
      (fun scan => (scanSlot env.lastGoodFrame slots head scan).isSome) = sof := by
    rw [← hsof]
    congr 1
    funext scan
    rw [scanSlot, scanIdx]
    cases decoderPacketSofFrameId (slots ((head + ringBufferSlots - scan) % ringBufferSlots)) with
    | none => rfl
    | some sofFrameId =>
        cases hahead : frameAhead env.lastGoodFrame sofFrameId with
        | false => simp [hahead]
        | true => simp [hahead]
  rw [findSome?_eq_bind_find?, hscan]
  cases sof with
  | none => rfl
  | some scan =>
      have hopens := List.find?_some hscan
      rw [Option.isSome_iff_exists] at hopens
      obtain ⟨⟨sofIdx, f⟩, hslot⟩ := hopens
      obtain ⟨rfl, -⟩ := scanSlot_eq_some hslot
      rw [Option.bind_some, hslot]
      simp only [scanIdx]
      split
      · rename_i hkeep
        simp only [hkeep, if_true]
      · rename_i hkeep
        simp only [hkeep, if_false]

/-- Going back less than the packets that are queued leads to one of them. -/
theorem scanIdx_forward (hhead : head < ringBufferSlots) (hpos : 0 < scan)
    (hscan : scan < RingWindow.queued ringBufferSlots head tail) :
    ∃ dropped, 0 < dropped ∧ dropped < RingWindow.queued ringBufferSlots head tail ∧
      scanIdx head scan = (tail + dropped) % ringBufferSlots ∧
      RingWindow.queued ringBufferSlots head (scanIdx head scan) =
        RingWindow.queued ringBufferSlots head tail - dropped := by
  have hslots : ringBufferSlots = 512 := rfl
  refine ⟨RingWindow.queued ringBufferSlots head tail - scan, by omega, by omega, ?_, ?_⟩
  · simp only [scanIdx, RingWindow.queued, hslots] at *
    omega
  · simp only [scanIdx, RingWindow.queued, hslots] at *
    omega

/-! ## The loss -/

/-- The frames between the last good one and the one that is kept. -/
def LostBetween (lastGoodFrame sofFrameId : UInt32) : Set UInt32 :=
  {g | 0 < delta g lastGoodFrame ∧ delta g lastGoodFrame < delta sofFrameId lastGoodFrame}

theorem delta_succ (a : UInt32) : delta (a + 1) a = 1 := by
  have hsub : a + 1 - a = 1 := by rw [UInt32.add_comm, UInt32.add_sub_cancel]
  rw [delta, hsub]
  rfl

theorem lostBetween_nonempty : (LostBetween lgf f).Nonempty ↔ delta f lgf > 1 := by
  constructor
  · rintro ⟨g, hpos, hlt⟩
    omega
  · intro h
    refine ⟨lgf + 1, ?_, ?_⟩
    · rw [delta_succ]
      decide
    · rw [delta_succ]
      exact h

/-- The tail is moved forward to a packet that is still queued and opens a frame at most 120
ahead of the last good one, and the frames in between are reported exactly if there are any.
The callers pass what was queued when they last looked; since then the head may have
advanced. -/
theorem trimLiveQueue_correct (env : DrainEnv) (slots : ℕ → Packet) (trimThreshold : ℕ)
    (hhead : head < ringBufferSlots)
    (hqueued : queued ≤ RingWindow.queued ringBufferSlots head tail) :
    ((trimLiveQueue env slots head queued trimThreshold).tail = none →
      (trimLiveQueue env slots head queued trimThreshold).calls = []) ∧
    ∀ t, (trimLiveQueue env slots head queued trimThreshold).tail = some t →
      (∃ dropped, 0 < dropped ∧ dropped < RingWindow.queued ringBufferSlots head tail ∧
        t = (tail + dropped) % ringBufferSlots ∧
        RingWindow.queued ringBufferSlots head t =
          RingWindow.queued ringBufferSlots head tail - dropped) ∧
      ∃ f, decoderPacketSofFrameId (slots t) = some f ∧ 0 < delta f env.lastGoodFrame ∧
        delta f env.lastGoodFrame ≤ 120 ∧
        ((LostBetween env.lastGoodFrame f).Nonempty ∧
            (trimLiveQueue env slots head queued trimThreshold).calls =
              [.rtpReassemblyReset, .rtpFecReset,
                .noteFrameLoss (env.lastGoodFrame + 1) (f - 1),
                .requestRfi (env.lastGoodFrame + 1) (f - 1)] ∨
          LostBetween env.lastGoodFrame f = ∅ ∧
            (trimLiveQueue env slots head queued trimThreshold).calls =
              [.rtpReassemblyReset, .rtpFecReset]) := by
  rw [trimLiveQueue]
  split
  · exact ⟨fun _ => rfl, fun t ht => nomatch ht⟩
  split
  · exact ⟨fun _ => rfl, fun t ht => nomatch ht⟩
  cases hloop : (List.range' 1 (min queued (ringBufferSlots - 1))).findSome?
      (scanSlot env.lastGoodFrame slots head) with
  | none => exact ⟨fun _ => rfl, fun t ht => nomatch ht⟩
  | some found =>
      obtain ⟨sofIdx, f⟩ := found
      obtain ⟨scan, hscan, hslot⟩ := List.exists_of_findSome?_eq_some hloop
      obtain ⟨rfl, hsof, hpos, hspan⟩ := scanSlot_eq_some hslot
      rw [List.mem_range'_1] at hscan
      dsimp only
      split
      · exact ⟨fun _ => rfl, fun t ht => nomatch ht⟩
      · rename_i hkeep
        have hslots : ringBufferSlots = 512 := rfl
        have hlt : scan < queued := by
          simp only [scanIdx, hslots] at *
          omega
        refine ⟨fun hnone => (nomatch hnone), fun t ht => ?_⟩
        cases ht
        refine ⟨scanIdx_forward hhead (by omega) (by omega), f, hsof, hpos, hspan, ?_⟩
        by_cases hgap : delta f env.lastGoodFrame > 1
        · rw [if_pos hgap]
          exact .inl ⟨lostBetween_nonempty.mpr hgap, rfl⟩
        · rw [if_neg hgap]
          exact .inr ⟨Set.not_nonempty_iff_eq_empty.mp fun h => hgap (lostBetween_nonempty.mp h),
            rfl⟩

/-- A packet that opens the frame 8, in a queue of 30 packets. -/
def trimSlots (i : ℕ) : Packet :=
  if i = 25 then
    [0x80, 0, 0, 0, 0, 0, 0, 0, 0, 0, 0, 0, 0, 0, 0, 0, 8, 0, 0, 0, 5, 0, 0, 0, 0, 0, 0, 0]
  else []

theorem trimLiveQueue_correct_trimSlots :
    (trimLiveQueue ⟨true, false, true, 5⟩ trimSlots 30 30 20 = ⟨true, some 25,
      [.rtpReassemblyReset, .rtpFecReset, .noteFrameLoss 6 7, .requestRfi 6 7]⟩) ∧
    ∃ dropped, 0 < dropped ∧ dropped < RingWindow.queued ringBufferSlots 30 0 ∧
      25 = (0 + dropped) % ringBufferSlots ∧
      RingWindow.queued ringBufferSlots 30 25 =
        RingWindow.queued ringBufferSlots 30 0 - dropped :=
  ⟨by decide +kernel, ((trimLiveQueue_correct ⟨true, false, true, 5⟩ trimSlots 20
    (show 30 < ringBufferSlots by decide)
    (show 30 ≤ RingWindow.queued ringBufferSlots 30 0 by decide)).2 25 (by decide +kernel)).1⟩

end MoonlightPsp.PacketRing
