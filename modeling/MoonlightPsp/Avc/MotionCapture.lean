import MoonlightPsp.Avc.Accepted
import Mathlib.Algebra.Group.Nat.Defs

/-!
# The motion capture

`motion_capture_append_au` of `psp_avc_backend.c` writes an access unit back to Annex B
form, at the end of a buffer of fixed size.  What it appends is packetized to the same
slices again.
-/

namespace MoonlightPsp.Avc

open CheckedMemory

/-! ## The model -/

/-- `MOTION_CAPTURE_CAPACITY`. -/
def motionCaptureCapacity : ℕ := 262144

/-- `MOTION_CAPTURE_FRAMES`. -/
def motionCaptureFrames : ℕ := 64

/-- `MotionCaptureFrame`. -/
structure MotionCaptureFrame where
  timeUs : ℕ
  offset : ℕ
  bytes : ℕ
  idr : Bool

/-- What `malloc(MOTION_CAPTURE_CAPACITY)` returns. -/
structure CaptureBuffer where
  bytes : List UInt8
  length_bytes : bytes.length = motionCaptureCapacity

/-- `s_motion_capture`, `s_motion_capture_size`, and the frames in front of
`s_motion_capture_count`. -/
structure MotionCapture where
  buffer : Option CaptureBuffer
  size : ℕ
  frames : List MotionCaptureFrame

/-- The length of a slice, from its four bytes. -/
def sliceLen (b₀ b₁ b₂ b₃ : UInt8) : ℕ :=
  (b₀.toNat <<< 24) ||| (b₁.toNat <<< 16) ||| (b₂.toNat <<< 8) ||| b₃.toNat

/-- Read the length of a slice. -/
def sliceLenAt (avcc : List UInt8) (pos : ℕ) : Option ℕ := do
  let b₀ ← avcc[pos]?
  let b₁ ← avcc[pos + 1]?
  let b₂ ← avcc[pos + 2]?
  let b₃ ← avcc[pos + 3]?
  return sliceLen b₀ b₁ b₂ b₃

/-- The first loop: how many bytes are needed, if the slices fit. -/
def neededLoop (avcc : List UInt8) (avccSize : ℕ) : ℕ → ℕ → ℕ → Option (Option ℕ)
  | 0, _, _ => none
  | fuel + 1, pos, needed =>
      if pos < avccSize then
        if avccSize - pos < 4 then some none
        else do
          let n ← sliceLenAt avcc pos
          if n = 0 ∨ n > avccSize - (pos + 4) ∨ n > motionCaptureCapacity - 4 ∨
              needed > motionCaptureCapacity - 4 - n then
            some none
          else neededLoop avcc avccSize fuel (pos + 4 + n) (needed + (4 + n))
      else some (some needed)

/-- Copy a unit behind a start code of four bytes. -/
def putUnit (src : List UInt8) (start len : ℕ) (buffer : List UInt8) (pos : ℕ) :
    Option (List UInt8) := do
  let buffer ← copy [0, 0, 0, 1] buffer 0 pos 4
  copy src buffer start (pos + 4) len

/-- The second loop: the buffer with the slices, and where they end. -/
def copyLoop (avcc : List UInt8) (avccSize : ℕ) :
    ℕ → ℕ → List UInt8 → ℕ → Option (List UInt8 × ℕ)
  | 0, _, _, _ => none
  | fuel + 1, pos, buffer, start =>
      if pos < avccSize then do
        let n ← sliceLenAt avcc pos
        let buffer ← putUnit avcc (pos + 4) n buffer start
        copyLoop avcc avccSize fuel (pos + 4 + n) buffer (start + (4 + n))
      else some (buffer, start)

/-- What the first frame must have. -/
def StartsCapture (au : PacketizedAu) : Prop :=
  au.hasIdr = true ∧ au.sps ≠ .null ∧ au.pps ≠ .null ∧ au.spsSize ≠ 0 ∧ au.ppsSize ≠ 0 ∧
    au.spsSize ≤ 1024 ∧ au.ppsSize ≤ 1024

instance (au : PacketizedAu) : Decidable (StartsCapture au) :=
  inferInstanceAs (Decidable (_ ∧ _))

/-- In front of the first frame the parameter sets are copied. -/
def putParameterSets (memory : Pointer → List UInt8) (au : PacketizedAu)
    (buffer : List UInt8) (start : ℕ) : Option (List UInt8 × ℕ) := do
  let buffer ← putUnit (memory au.sps) 0 au.spsSize buffer start
  let start := start + (4 + au.spsSize)
  let buffer ← putUnit (memory au.pps) 0 au.ppsSize buffer start
  return (buffer, start + (4 + au.ppsSize))

/-- The bytes behind the checks: the buffer, and where what is appended ends. -/
def putFrame (memory : Pointer → List UInt8) (au : PacketizedAu) (avcc : List UInt8)
    (isFirst : Bool) (buffer : List UInt8) (start : ℕ) : Option (List UInt8 × ℕ) := do
  let (buffer, start) ←
    if isFirst then putParameterSets memory au buffer start else some (buffer, start)
  copyLoop avcc au.avccSize (au.avccSize + 1) 0 buffer start

/-- `motion_capture_append_au` with a captured buffer.  `memory` gives the bytes behind a
pointer, and `timeUs` is what `sceKernelGetSystemTimeLow` returns. -/
def motionCaptureAppendAu (memory : Pointer → List UInt8) (timeUs : ℕ) (au : PacketizedAu)
    (avcc : List UInt8) (s : MotionCapture) : Option (ℤ × MotionCapture) :=
  match s.buffer with
  | none => some (-1, s)
  | some buffer =>
      let isFirst := s.frames.length = 0
      if s.frames.length ≥ motionCaptureFrames then some (-1, s)
      else if isFirst ∧ ¬ StartsCapture au then some (-1, s)
      else do
        let needed := if isFirst then 8 + au.spsSize + au.ppsSize else 0
        match ← neededLoop avcc au.avccSize (au.avccSize + 1) 0 needed with
        | none => some (-1, s)
        | some needed =>
            if au.avccSize = 0 ∨ s.size > motionCaptureCapacity ∨
                needed > motionCaptureCapacity - s.size then
              some (-1, s)
            else do
              let (bytes, size) ← putFrame memory au avcc isFirst buffer.bytes s.size
              if h : bytes.length = motionCaptureCapacity then
                some (0, ⟨some ⟨bytes, h⟩, size,
                  s.frames ++ [⟨timeUs, s.size, needed, au.hasIdr⟩]⟩)
              else none

/-! ## Slices behind their lengths -/

theorem sliceLen_be32 {len : ℕ} (h : len < 2 ^ 32) :
    sliceLen (UInt8.ofNat (len >>> 24)) (UInt8.ofNat (len >>> 16)) (UInt8.ofNat (len >>> 8))
      (UInt8.ofNat len) = len := by
  have hhigh : len >>> 24 < 2 ^ 8 := by
    rw [Nat.shiftRight_eq_div_pow]
    omega
  simp only [sliceLen, UInt8.toNat_ofNat']
  rw [Nat.mod_eq_of_lt hhigh]
  refine Nat.eq_of_testBit_eq fun i => ?_
  simp only [Nat.testBit_or, Nat.testBit_shiftLeft, Nat.testBit_mod_two_pow,
    Nat.testBit_shiftRight]
  -- One byte of the length after the other.
  by_cases h₃ : 24 ≤ i
  · simp [h₃, show ¬ i - 16 < 8 by omega, show ¬ i - 8 < 8 by omega, show ¬ i < 8 by omega]
  by_cases h₂ : 16 ≤ i
  · simp [h₃, h₂, show i - 16 < 8 by omega, show ¬ i - 8 < 8 by omega,
      show ¬ i < 8 by omega]
  by_cases h₁ : 8 ≤ i
  · simp [h₃, h₂, h₁, show i - 8 < 8 by omega, show ¬ i < 8 by omega]
  · simp [h₃, h₂, h₁, show i < 8 by omega]

/-- Slices behind their lengths, in the order of the access unit. -/
def framed (slices : List (List UInt8)) : List UInt8 :=
  slices.flatMap fun b => be32 b.length ++ b

/-- Units behind start codes of four bytes. -/
def coded (units : List (List UInt8)) : List UInt8 :=
  units.flatMap fun b => [0, 0, 0, 1] ++ b

variable {data rest buffer src : List UInt8} {slices : List (List UInt8)}
  {pos avccSize needed fuel start len : ℕ}

theorem length_framed_cons (b : List UInt8) (slices : List (List UInt8)) :
    (framed (b :: slices)).length = 4 + b.length + (framed slices).length := by
  simp [framed, be32]
  omega

theorem length_coded (slices : List (List UInt8)) :
    (coded slices).length = (framed slices).length := by
  induction slices with
  | nil => rfl
  | cons b slices ih =>
      rw [length_framed_cons, ← ih]
      simp [coded]
      omega

/-- Slices that the packetizer wrote. -/
def Writable (slices : List (List UInt8)) : Prop :=
  ∀ b ∈ slices, b ≠ [] ∧ b.length ≤ 0xffffffff

theorem sliceLenAt_framed {b : List UInt8} (hlen : b.length ≤ 0xffffffff)
    (hdrop : data.drop pos = framed (b :: slices) ++ rest) :
    sliceLenAt data pos = some b.length := by
  have hget : ∀ i, data[pos + i]? = (framed (b :: slices) ++ rest)[i]? := fun i => by
    rw [← hdrop, List.getElem?_drop]
  have hzero := hget 0
  rw [Nat.add_zero] at hzero
  rw [sliceLenAt, hzero, hget 1, hget 2, hget 3]
  exact congrArg some (sliceLen_be32 (by omega))

/-- Behind the first slice the others follow. -/
theorem drop_framed {b : List UInt8} (hdrop : data.drop pos = framed (b :: slices) ++ rest) :
    data.drop (pos + 4) = b ++ (framed slices ++ rest) ∧
      data.drop (pos + 4 + b.length) = framed slices ++ rest := by
  have hhead : data.drop (pos + 4) = b ++ (framed slices ++ rest) := by
    rw [← List.drop_drop, hdrop]
    simp [framed, be32]
  exact ⟨hhead, by rw [← List.drop_drop, hhead, List.drop_left]⟩

/-- The first loop gives up, or counts the bytes that the slices take. -/
theorem neededLoop_framed (hslices : Writable slices)
    (hdrop : data.drop pos = framed slices ++ rest)
    (hend : avccSize = pos + (framed slices).length) (hfuel : avccSize - pos < fuel) :
    neededLoop data avccSize fuel pos needed = some none ∨
      neededLoop data avccSize fuel pos needed =
        some (some (needed + (framed slices).length)) := by
  induction slices generalizing pos needed fuel with
  | nil =>
      obtain ⟨fuel, rfl⟩ : ∃ n, fuel = n + 1 := ⟨fuel - 1, by omega⟩
      have hzero : (framed []).length = 0 := rfl
      rw [neededLoop, if_neg (by omega)]
      exact .inr rfl
  | cons b slices ih =>
      obtain ⟨fuel, rfl⟩ : ∃ n, fuel = n + 1 := ⟨fuel - 1, by omega⟩
      obtain ⟨⟨hne, hlen⟩, hslices⟩ := List.forall_mem_cons.mp hslices
      have hpos := List.length_pos_iff.mpr hne
      rw [length_framed_cons] at hend
      rw [neededLoop, if_pos (by omega), if_neg (by omega), sliceLenAt_framed hlen hdrop]
      simp only [Option.bind_eq_bind, Option.bind_some]
      split
      · exact .inl rfl
      · rw [length_framed_cons, ← Nat.add_assoc needed (4 + b.length)]
        exact ih hslices (drop_framed hdrop).2 (by omega) (by omega)

theorem putUnit_eq (hsrc : start + len ≤ src.length) (hroom : pos + (4 + len) ≤ buffer.length) :
    putUnit src start len buffer pos =
      some (overlay buffer pos ([0, 0, 0, 1] ++ (src.drop start).take len)) := by
  have hcode : pos + [(0 : UInt8), 0, 0, 1].length ≤ buffer.length := by
    simp only [List.length_cons, List.length_nil]
    omega
  rw [putUnit, copy_eq_overlay (by decide) (by omega)]
  simp only [Option.bind_eq_bind, Option.bind_some]
  show copy src (overlay buffer pos [0, 0, 0, 1]) start (pos + [(0 : UInt8), 0, 0, 1].length)
    len = _
  rw [copy_eq_overlay hsrc (by
      rw [length_overlay hcode]
      simp only [List.length_cons, List.length_nil]
      omega), overlay_overlay hcode]

/-- The second loop lays the slices over the buffer. -/
theorem copyLoop_framed (hslices : Writable slices)
    (hdrop : data.drop pos = framed slices ++ rest)
    (hend : avccSize = pos + (framed slices).length) (hfuel : avccSize - pos < fuel)
    (hroom : start + (coded slices).length ≤ buffer.length) :
    copyLoop data avccSize fuel pos buffer start =
      some (overlay buffer start (coded slices), start + (coded slices).length) := by
  induction slices generalizing pos fuel buffer start with
  | nil =>
      obtain ⟨fuel, rfl⟩ : ∃ n, fuel = n + 1 := ⟨fuel - 1, by omega⟩
      have hzero : (framed []).length = 0 := rfl
      rw [copyLoop, if_neg (by omega)]
      simp [coded]
  | cons b slices ih =>
      obtain ⟨fuel, rfl⟩ : ∃ n, fuel = n + 1 := ⟨fuel - 1, by omega⟩
      obtain ⟨⟨hne, hlen⟩, hslices⟩ := List.forall_mem_cons.mp hslices
      obtain ⟨hunit, hnext⟩ := drop_framed hdrop
      have hin := congrArg List.length hunit
      rw [List.length_drop, List.length_append] at hin
      have hpos := List.length_pos_iff.mpr hne
      have hfirst : ([0, 0, 0, 1] ++ b).length = 4 + b.length := by
        simp only [List.length_append, List.length_cons, List.length_nil]
      have hcoded : coded (b :: slices) = ([0, 0, 0, 1] ++ b) ++ coded slices := rfl
      rw [hcoded, List.length_append, hfirst] at hroom
      rw [length_framed_cons] at hend
      have hfits : start + ([0, 0, 0, 1] ++ b).length ≤ buffer.length := by
        rw [hfirst]
        omega
      rw [copyLoop, if_pos (by omega), sliceLenAt_framed hlen hdrop]
      simp only [Option.bind_eq_bind, Option.bind_some]
      rw [putUnit_eq (by omega) (by omega), hunit, List.take_left, Option.bind_some,
        ih hslices hnext (by omega) (by omega) (by rw [length_overlay hfits]; omega), hcoded,
        ← hfirst, overlay_overlay hfits]
      simp only [List.length_append, Nat.add_assoc]

/-! ## The bytes of an access unit -/

/-- The bytes of the slices. -/
def slicesOf (us : List NalUnit) : List (List UInt8) :=
  (us.filter (·.IsSlice)).map NalUnit.bytes

theorem avcc_eq_framed (us : List NalUnit) : avcc us = framed (slicesOf us) := by
  rw [avcc, framed, slicesOf, List.flatMap_map]

theorem writable_slicesOf (us : List NalUnit) : Writable (slicesOf us) := by
  intro b hb
  obtain ⟨u, -, rfl⟩ := List.mem_map.mp hb
  exact ⟨u.nonempty, u.length_le⟩

/-- The bytes behind a pointer into the input. -/
def inputMemory (src : List UInt8) : Pointer → List UInt8
  | .input offset => src.drop offset
  | _ => []

theorem pointed_eq (src : List UInt8) (ptr : Pointer) (size : ℕ) :
    pointed src ptr size = (inputMemory src ptr).take size := by
  cases ptr <;> simp [pointed, inputMemory]

/-- The units that are appended for an access unit. -/
def capturedUnits (isFirst : Bool) (us : List NalUnit) : List (List UInt8) :=
  (if isFirst then [lastOfType 7 us, lastOfType 8 us] else []) ++ slicesOf us

variable {us : List NalUnit} {dst dst' : List UInt8} {au au' : PacketizedAu}

theorem IsPacketizedStream.drop_eq (h : IsPacketizedStream us src dst dst' au) :
    dst'.drop 0 = framed (slicesOf us) ++ dst'.drop au.avccSize := by
  rw [← avcc_eq_framed, ← h.avcc, List.take_append_drop, List.drop_zero]

theorem putSet_eq {ptr : Pointer} {size : ℕ} {bytes : List UInt8}
    (h : pointed src ptr size = bytes) (hsize : size = bytes.length)
    (hroom : pos + (4 + size) ≤ buffer.length) :
    putUnit (inputMemory src ptr) 0 size buffer pos =
      some (overlay buffer pos ([0, 0, 0, 1] ++ bytes)) := by
  have hlen := congrArg List.length h
  rw [pointed_eq, List.length_take] at hlen
  rw [putUnit_eq (by omega) hroom, List.drop_zero, ← pointed_eq, h]

theorem putParameterSets_eq (h : IsPacketizedStream us src dst dst' au)
    (hroom : start + (coded [lastOfType 7 us, lastOfType 8 us]).length ≤ buffer.length) :
    putParameterSets (inputMemory src) au buffer start =
      some (overlay buffer start (coded [lastOfType 7 us, lastOfType 8 us]),
        start + (coded [lastOfType 7 us, lastOfType 8 us]).length) := by
  have hcoded : coded [lastOfType 7 us, lastOfType 8 us] =
      ([0, 0, 0, 1] ++ lastOfType 7 us) ++ ([0, 0, 0, 1] ++ lastOfType 8 us) := by
    simp [coded]
  have hlen : ∀ b : List UInt8, ([0, 0, 0, 1] ++ b).length = 4 + b.length := fun b => by
    simp only [List.length_append, List.length_cons, List.length_nil]
  rw [hcoded, List.length_append, hlen, hlen, ← h.spsSize, ← h.ppsSize] at hroom
  have hfits : start + ([0, 0, 0, 1] ++ lastOfType 7 us).length ≤ buffer.length := by
    rw [hlen, ← h.spsSize]
    omega
  rw [putParameterSets, putSet_eq h.sps h.spsSize (by omega)]
  simp only [Option.bind_eq_bind, Option.bind_some]
  rw [putSet_eq h.pps h.ppsSize (by rw [length_overlay hfits]; omega), hcoded,
    show start + (4 + au.spsSize) = start + ([0, 0, 0, 1] ++ lastOfType 7 us).length by
      rw [hlen, h.spsSize], overlay_overlay hfits, h.ppsSize, ← hlen]
  simp only [Option.bind_some, List.length_append, Nat.add_assoc]
  rfl

/-- What is appended is laid over the buffer. -/
theorem putFrame_eq (h : IsPacketizedStream us src dst dst' au) (isFirst : Bool)
    (hroom : start + (coded (capturedUnits isFirst us)).length ≤ buffer.length) :
    putFrame (inputMemory src) au dst' isFirst buffer start =
      some (overlay buffer start (coded (capturedUnits isFirst us)),
        start + (coded (capturedUnits isFirst us)).length) := by
  have hend : au.avccSize = 0 + (framed (slicesOf us)).length := by
    rw [h.avccSize, avcc_eq_framed, Nat.zero_add]
  have hloop : ∀ {buffer : List UInt8} {start : ℕ},
      start + (coded (slicesOf us)).length ≤ buffer.length →
      copyLoop dst' au.avccSize (au.avccSize + 1) 0 buffer start =
        some (overlay buffer start (coded (slicesOf us)),
          start + (coded (slicesOf us)).length) := fun hfits =>
    copyLoop_framed (writable_slicesOf us) h.drop_eq hend (by omega) hfits
  cases isFirst with
  | false => exact hloop hroom
  | true =>
      have hcoded : coded (capturedUnits true us) =
          coded [lastOfType 7 us, lastOfType 8 us] ++ coded (slicesOf us) := List.flatMap_append
      rw [hcoded, List.length_append] at hroom
      have hsets : start + (coded [lastOfType 7 us, lastOfType 8 us]).length ≤ buffer.length := by
        omega
      rw [putFrame, if_pos rfl, putParameterSets_eq h hsets]
      simp only [Option.bind_eq_bind, Option.bind_some]
      rw [hloop (by rw [length_overlay hsets]; omega), overlay_overlay hsets, hcoded,
        List.length_append, Nat.add_assoc]

/-! ## What is appended -/

/-- Bytes are appended as one frame, inside the capacity. -/
structure Appends (timeUs : ℕ) (au : PacketizedAu) (bytes : List UInt8)
    (s s' : MotionCapture) : Prop where
  buffer : ∃ b b', s.buffer = some b ∧ s'.buffer = some b' ∧
    b'.bytes = overlay b.bytes s.size bytes
  size : s'.size = s.size + bytes.length
  size_le : s'.size ≤ motionCaptureCapacity
  frames : s'.frames = s.frames ++ [⟨timeUs, s.size, bytes.length, au.hasIdr⟩]

/-- The call fails and changes nothing, or it appends the slices, for the first frame behind
the parameter sets. -/
theorem motionCaptureAppendAu_cases (h : IsPacketizedStream us src dst dst' au) (timeUs : ℕ)
    (s : MotionCapture) :
    motionCaptureAppendAu (inputMemory src) timeUs au dst' s = some (-1, s) ∨
      ∃ s', motionCaptureAppendAu (inputMemory src) timeUs au dst' s = some (0, s') ∧
        (s.frames = [] → StartsCapture au) ∧ au.avccSize ≠ 0 ∧
        Appends timeUs au (coded (capturedUnits (s.frames = []) us)) s s' := by
  rw [motionCaptureAppendAu]
  split
  · exact .inl rfl
  rename_i buffer hbuffer
  dsimp only
  split
  · exact .inl rfl
  split
  · exact .inl rfl
  rename_i hstarts
  have hfirst : s.frames.length = 0 ↔ s.frames = [] := List.length_eq_zero_iff
  have hend : au.avccSize = 0 + (framed (slicesOf us)).length := by
    rw [h.avccSize, avcc_eq_framed, Nat.zero_add]
  have hneeded : (if s.frames.length = 0 then 8 + au.spsSize + au.ppsSize else 0) +
      (framed (slicesOf us)).length =
        (coded (capturedUnits (s.frames = []) us)).length := by
    rw [length_coded, capturedUnits]
    by_cases hnil : s.frames = []
    · rw [if_pos (hfirst.mpr hnil), if_pos (by simpa using hnil), List.cons_append,
        List.cons_append, List.nil_append, length_framed_cons, length_framed_cons,
        ← h.spsSize, ← h.ppsSize]
      omega
    · rw [if_neg (fun h => hnil (hfirst.mp h)), if_neg (by simpa using hnil), Nat.zero_add,
        List.nil_append]
  rcases neededLoop_framed (writable_slicesOf us) h.drop_eq hend
    (show au.avccSize - 0 < au.avccSize + 1 by omega) with hloop | hloop
  · rw [hloop]
    exact .inl rfl
  · rw [hloop, hneeded]
    simp only [Option.bind_eq_bind, Option.bind_some]
    split
    · exact .inl rfl
    rename_i hroom
    have hcapacity := buffer.length_bytes
    have hfits : s.size + (coded (capturedUnits (s.frames = []) us)).length ≤
        buffer.bytes.length := by omega
    have hput := putFrame_eq h (s.frames = []) hfits
    have hsame : decide (s.frames.length = 0) = decide (s.frames = []) :=
      decide_eq_decide.mpr hfirst
    rw [hsame, hput]
    simp only [Option.bind_some]
    rw [dif_pos ((length_overlay hfits).trans hcapacity)]
    refine .inr ⟨_, rfl, fun hnil => ?_, fun hzero => hroom (.inl hzero),
      ⟨buffer, _, hbuffer, rfl, rfl⟩, rfl, ?_, rfl⟩
    · by_contra hnot
      exact hstarts ⟨hfirst.mpr hnil, hnot⟩
    · show s.size + _ ≤ motionCaptureCapacity
      omega

/-! ## Packetizing what was appended -/

theorem exists_lastOfType {type : UInt8} (h : lastOfType type us ≠ []) :
    ∃ u ∈ us, u.type = type ∧ u.bytes = lastOfType type us := by
  cases hlast : (us.filter (·.type = type)).getLast? with
  | none =>
      rw [lastOfType, hlast] at h
      exact absurd rfl h
  | some u =>
      have hmem := List.mem_of_getLast? hlast
      simp only [List.mem_filter, decide_eq_true_eq] at hmem
      exact ⟨u, hmem.1, hmem.2, by rw [lastOfType, hlast]; rfl⟩

/-- The units that are appended are well-formed, and give the same slices, and for the first
frame the same parameter sets. -/
structure SameUnits (isFirst : Bool) (us ws : List NalUnit) : Prop where
  bytes : ws.map NalUnit.bytes = capturedUnits isFirst us
  slices : ws.filter (·.IsSlice) = us.filter (·.IsSlice)
  sps : isFirst = true → lastOfType 7 ws = lastOfType 7 us
  pps : isFirst = true → lastOfType 8 ws = lastOfType 8 us

theorem not_isSlice {u : NalUnit} (h : u.type = 7 ∨ u.type = 8) : ¬ u.IsSlice := by
  rcases h with h | h
  · simp [NalUnit.IsSlice, h]
  · simp [NalUnit.IsSlice, h]

/-- Among the slices there is no parameter set. -/
theorem filter_slices {type : UInt8} (h : type = 7 ∨ type = 8) (us : List NalUnit) :
    (us.filter (·.IsSlice)).filter (·.type = type) = [] := by
  rw [List.filter_eq_nil_iff]
  intro u hu htype
  simp only [List.mem_filter, decide_eq_true_eq] at hu htype
  exact not_isSlice (htype ▸ h) hu.2

theorem sameUnits_first (hsps : lastOfType 7 us ≠ []) (hpps : lastOfType 8 us ≠ []) :
    ∃ ws, SameUnits true us ws := by
  obtain ⟨v, -, hv, hvbytes⟩ := exists_lastOfType hsps
  obtain ⟨w, -, hw, hwbytes⟩ := exists_lastOfType hpps
  refine ⟨v :: w :: us.filter (·.IsSlice), ?_, ?_, fun _ => ?_, fun _ => ?_⟩
  · simp [capturedUnits, slicesOf, hvbytes, hwbytes]
  · simp [not_isSlice (.inl hv), not_isSlice (.inr hw)]
  · have hslices := filter_slices (.inl rfl) us
    rw [lastOfType, List.filter_cons_of_pos (by simpa using hv),
      List.filter_cons_of_neg (by simp [hw]), hslices, ← hvbytes]
    rfl
  · have hslices := filter_slices (.inr rfl) us
    rw [lastOfType, List.filter_cons_of_neg (by simp [hv]),
      List.filter_cons_of_pos (by simpa using hw), hslices, ← hwbytes]
    rfl

theorem sameUnits_later (us : List NalUnit) :
    SameUnits false us (us.filter (·.IsSlice)) where
  bytes := rfl
  slices := List.filter_filter.trans (by simp)
  sps := fun h => nomatch h
  pps := fun h => nomatch h

theorem coded_eq_annexB (ws : List NalUnit) :
    coded (ws.map NalUnit.bytes) = annexB (ws.map fun u => ⟨0, true, u⟩) 0 := by
  simp [coded, annexB, CodedUnit.encode, List.flatMap_map]

/-- The same units are sliced into the same output. -/
theorem SameUnits.avcc_eq {isFirst : Bool} {ws : List NalUnit} (h : SameUnits isFirst us ws) :
    avcc ws = avcc us := by
  rw [avcc, h.slices]
  rfl

/-- A slice of a type is a slice of the access unit. -/
theorem SameUnits.exists_type {isFirst : Bool} {ws : List NalUnit}
    (h : SameUnits isFirst us ws) {type : UInt8} (htype : type = 1 ∨ type = 5) :
    (∃ u ∈ ws, u.type = type) ↔ ∃ u ∈ us, u.type = type := by
  have hslices : ∀ vs : List NalUnit, (∃ u ∈ vs, u.type = type) ↔
      ∃ u ∈ vs.filter (·.IsSlice), u.type = type := fun vs => by
    constructor
    · rintro ⟨u, hu, hut⟩
      have hslice : u.IsSlice := by
        rw [NalUnit.IsSlice, hut]
        exact htype
      exact ⟨u, List.mem_filter.mpr ⟨hu, decide_eq_true hslice⟩, hut⟩
    · rintro ⟨u, hu, hut⟩
      exact ⟨u, (List.mem_filter.mp hu).1, hut⟩
  rw [hslices ws, h.slices, ← hslices us]

/-- An access unit that is packetized to the same payload, and for the first frame to the
same parameter sets. -/
structure SamePayload (isFirst : Prop) (src dst : List UInt8) (au : PacketizedAu)
    (src' dst' : List UInt8) (au' : PacketizedAu) : Prop where
  avccSize : au'.avccSize = au.avccSize
  avcc : dst'.take au'.avccSize = dst.take au.avccSize
  hasIdr : au'.hasIdr = au.hasIdr
  hasPredictive : au'.hasPredictive = au.hasPredictive
  sps : isFirst → pointed src' au'.sps au'.spsSize = pointed src au.sps au.spsSize
  spsSize : isFirst → au'.spsSize = au.spsSize
  pps : isFirst → pointed src' au'.pps au'.ppsSize = pointed src au.pps au.ppsSize
  ppsSize : isFirst → au'.ppsSize = au.ppsSize

theorem SameUnits.packetized {isFirst : Bool} {ws : List NalUnit}
    (h : SameUnits isFirst us ws) (hstream : IsPacketizedStream us src dst dst' au)
    (hkinds : ¬ ((∃ u ∈ us, u.type = 1) ∧ ∃ u ∈ us, u.type = 5)) (hsize : au.avccSize ≠ 0)
    {out : List UInt8} (hroom : au.avccSize ≤ out.length) (au₀ : PacketizedAu) :
    ∃ out' au', avcPacketize ⟨some (coded (capturedUnits isFirst us)), some out, some au₀⟩ =
        some (0, some out', some au') ∧
      SamePayload (isFirst = true) src dst' au (coded (capturedUnits isFirst us)) out' au' := by
  have hne : ws ≠ [] := by
    rintro rfl
    apply hsize
    rw [hstream.avccSize, ← h.avcc_eq]
    rfl
  have hunits : (ws.map fun u => (⟨0, true, u⟩ : CodedUnit)).map CodedUnit.unit = ws := by
    simp [Function.comp_def]
  have hkinds' : ¬ ((∃ c ∈ ws.map fun u => (⟨0, true, u⟩ : CodedUnit), c.unit.type = 1) ∧
      ∃ c ∈ ws.map fun u => (⟨0, true, u⟩ : CodedUnit), c.unit.type = 5) := by
    simpa [h.exists_type (.inl rfl), h.exists_type (.inr rfl)] using hkinds
  rw [← h.bytes, coded_eq_annexB]
  have hroom' : (avcc ((ws.map fun u => (⟨0, true, u⟩ : CodedUnit)).map
      CodedUnit.unit)).length ≤ out.length := by
    rw [hunits, h.avcc_eq, ← hstream.avccSize]
    exact hroom
  obtain ⟨r, hr, hcode, hstream'⟩ := packetizeUnits_annexB (by simpa using hne) hkinds' 0
    hroom' au₀
  rw [hunits] at hstream'
  have hsize' : r.au.avccSize = au.avccSize := by
    rw [hstream'.avccSize, hstream.avccSize, h.avcc_eq]
  refine ⟨r.dst, r.au, ?_, hsize', ?_, ?_, ?_, fun hfirst => ?_, fun hfirst => ?_,
    fun hfirst => ?_, fun hfirst => ?_⟩
  · rw [avcPacketize, hr, ← hcode]
    rfl
  · rw [hstream'.avcc, hstream.avcc, h.avcc_eq]
  · rw [Bool.eq_iff_iff, hstream'.hasIdr, hstream.hasIdr, h.exists_type (.inr rfl)]
  · rw [Bool.eq_iff_iff, hstream'.hasPredictive, hstream.hasPredictive,
      h.exists_type (.inl rfl)]
  · rw [hstream'.sps, hstream.sps, h.sps hfirst]
  · rw [hstream'.spsSize, hstream.spsSize, h.sps hfirst]
  · rw [hstream'.pps, hstream.pps, h.pps hfirst]
  · rw [hstream'.ppsSize, hstream.ppsSize, h.pps hfirst]

/-- For an access unit that the packetizer accepts the call fails and changes nothing, or it
appends one frame inside the capacity, whose bytes are packetized to the same payload, and
for the first frame to the same parameter sets.  A `size_t` of the target has 32 bits. -/
theorem motionCaptureAppendAu_correct (hlen : src.length ≤ 0xffffffff)
    (hok : avcPacketize ⟨some src, some dst, some au⟩ = some (0, some dst', some au'))
    (timeUs : ℕ) (s : MotionCapture) :
    motionCaptureAppendAu (inputMemory src) timeUs au' dst' s = some (-1, s) ∨
      ∃ s' bytes, motionCaptureAppendAu (inputMemory src) timeUs au' dst' s = some (0, s') ∧
        Appends timeUs au' bytes s s' ∧
        ∀ (out : List UInt8) (au₀ : PacketizedAu), au'.avccSize ≤ out.length →
          ∃ out' au'', avcPacketize ⟨some bytes, some out, some au₀⟩ =
              some (0, some out', some au'') ∧
            SamePayload (s.frames = []) src dst' au' bytes out' au'' := by
  obtain ⟨cs, trailing, -, -, hkinds, hstream⟩ := avcPacketize_ok hlen hok
  have hkinds' : ¬ ((∃ u ∈ cs.map CodedUnit.unit, u.type = 1) ∧
      ∃ u ∈ cs.map CodedUnit.unit, u.type = 5) := by simpa using hkinds
  rcases motionCaptureAppendAu_cases hstream timeUs s with
    hfailed | ⟨s', happend, hstarts, hsize, hbytes⟩
  · exact .inl hfailed
  · refine .inr ⟨s', _, happend, hbytes, fun out au₀ hroom => ?_⟩
    have hsame : ∃ ws, SameUnits (s.frames = []) (cs.map CodedUnit.unit) ws := by
      by_cases hnil : s.frames = []
      · obtain ⟨-, -, -, hsps, hpps, -, -⟩ := hstarts hnil
        rw [hstream.spsSize] at hsps
        rw [hstream.ppsSize] at hpps
        rw [decide_eq_true hnil]
        exact sameUnits_first (List.length_pos_iff.mp (by omega))
          (List.length_pos_iff.mp (by omega))
      · rw [decide_eq_false hnil]
        exact ⟨_, sameUnits_later _⟩
    obtain ⟨ws, hws⟩ := hsame
    obtain ⟨out', au'', hpacketized, hpayload⟩ := hws.packetized hstream hkinds' hsize hroom au₀
    simp only [decide_eq_true_eq] at hpayload
    exact ⟨out', au'', hpacketized, hpayload⟩

/-- Nothing captured yet. -/
def emptyCapture : MotionCapture :=
  ⟨some ⟨List.replicate motionCaptureCapacity 0, List.length_replicate⟩, 0, []⟩

theorem motionCaptureAppendAu_correct_twoSets :
    motionCaptureAppendAu (inputMemory [0, 0, 1, 0x67, 0x42, 0, 0, 1, 0x68, 0xce, 0, 0, 1, 0x65])
        0 ⟨.input 3, .input 8, 2, 2, 5, true, false⟩ [0, 0, 0, 1, 0x65] emptyCapture =
          some (-1, emptyCapture) ∨
      ∃ s' bytes, motionCaptureAppendAu
          (inputMemory [0, 0, 1, 0x67, 0x42, 0, 0, 1, 0x68, 0xce, 0, 0, 1, 0x65])
          0 ⟨.input 3, .input 8, 2, 2, 5, true, false⟩ [0, 0, 0, 1, 0x65] emptyCapture =
            some (0, s') ∧
        Appends 0 ⟨.input 3, .input 8, 2, 2, 5, true, false⟩ bytes emptyCapture s' ∧
        ∀ (out : List UInt8) (au₀ : PacketizedAu), 5 ≤ out.length →
          ∃ out' au'', avcPacketize ⟨some bytes, some out, some au₀⟩ =
              some (0, some out', some au'') ∧
            SamePayload (emptyCapture.frames = [])
              [0, 0, 1, 0x67, 0x42, 0, 0, 1, 0x68, 0xce, 0, 0, 1, 0x65]
              [0, 0, 0, 1, 0x65] ⟨.input 3, .input 8, 2, 2, 5, true, false⟩ bytes out' au'' := by
  have hok : avcPacketize
      ⟨some [0, 0, 1, 0x67, 0x42, 0, 0, 1, 0x68, 0xce, 0, 0, 1, 0x65],
        some (List.replicate 5 0), some .zero⟩ = some (0, some [0, 0, 0, 1, 0x65],
          some ⟨.input 3, .input 8, 2, 2, 5, true, false⟩) := by decide +kernel
  exact motionCaptureAppendAu_correct (by decide) hok 0 emptyCapture

end MoonlightPsp.Avc
