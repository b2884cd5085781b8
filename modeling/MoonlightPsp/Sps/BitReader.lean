import MoonlightPsp.Lib.BitString
import MoonlightPsp.Lib.EmulationPrevention
import MoonlightPsp.Lib.StickyParser
import Mathlib.Data.Int.Notation

/-!
# Reading the bits of a parameter set

The bit readers of `avc_stream_format.c` and `avc_sps_fixup.c`, which are the
same, and the loops that take the emulation prevention out of a NAL unit.
-/

namespace MoonlightPsp.Sps

open BitString EmulationPrevention StickyParser

/-! ## The model -/

/-- `SpsBits`, and `Bits` of the format parser.  The buffer is zero behind the
bytes that are filled in, and the position stays within the bits. -/
structure Bits where
  bytes : List UInt8
  bits : ℕ
  pos : ℕ
  bad : Bool
  pos_le : pos ≤ bits
  deriving DecidableEq

/-- A reader at the start of some bits. -/
def Bits.start (bytes : List UInt8) (bits : ℕ) : Bits :=
  ⟨bytes, bits, 0, false, Nat.zero_le bits⟩

/-- Note a read beyond the end. -/
def Bits.setBad (b : Bits) : Bits := { b with bad := true }

/-- A parser that can return from its function with a code. -/
abbrev Parser := StateT Bits (Except ℤ)

/-- The bit at a position. -/
def bitAt (bytes : List UInt8) (pos : ℕ) : ℕ :=
  ((bytes.getD (pos / 8) 0).toNat >>> (7 - pos % 8)) &&& 1

/-- The loop of `read_bits`. -/
def readLoop (bytes : List UInt8) : ℕ → ℕ → ℕ → ℕ
  | 0, value, _ => value
  | n + 1, value, pos =>
      readLoop bytes n ((value <<< 1) ||| bitAt bytes pos) (pos + 1)

/-- `read_bits`. -/
def readBits (n : ℕ) : Parser ℕ := fun b =>
  if h : n > 32 ∨ n > b.bits - b.pos then .ok (0, b.setBad)
  else
    .ok (readLoop b.bytes n 0 b.pos,
      { b with
        pos := b.pos + n
        pos_le := by
          have := b.pos_le
          omega })

/-- A parser reads from the bits that are left. -/
instance : Source Bits Bool where
  rest b := (List.range' b.pos (b.bits - b.pos)).map fun i => bitAt b.bytes i = 1
  failed b := b.bad
  skip n b := { b with pos := min (b.pos + n) b.bits, pos_le := Nat.min_le_right .. }
  rest_skip n b := by
    have hlen : b.bits - min (b.pos + n) b.bits = b.bits - b.pos - n := by omega
    simp only [← List.map_drop, List.drop_range', Nat.mul_one, hlen]
    by_cases hn : b.pos + n ≤ b.bits
    · simp only [Nat.min_eq_left hn]
    · simp only [show b.bits - b.pos - n = 0 by omega, List.range'_zero]
  skip_zero b := by
    simp only [Nat.add_zero, Nat.min_eq_left b.pos_le]
  skip_skip m n b := by
    simp only [Bits.mk.injEq, true_and, and_true]
    omega

/-- The loop of `ue`: the number of zero bits up to a one, of which `left` are
still allowed. -/
def countZeros : ℕ → ℕ → Parser ℕ
  | 0, zeros => fun b => .ok (zeros, b.setBad)
  | left + 1, zeros => unlessFailed zeros do
      let bit ← readBits 1
      if bit ≠ 0 then pure zeros else countZeros left (zeros + 1)

/-- `ue` and `read_ue`. -/
def ue : Parser ℕ := do
  let zeros ← countZeros 31 0
  unlessFailed 0 do
    let rest ← readBits zeros
    pure (2 ^ zeros - 1 + rest)

/-- The loops over the bytes behind the header.  `full` says when the function
refuses one more byte. -/
def rbspLoop (full : List UInt8 → Bool) :
    ℕ → List UInt8 → List UInt8 → Option (List UInt8)
  | _, out, [] => some out
  | zeros, out, byte :: rest =>
      if zeros = 2 ∧ byte = 3 then
        if rest = [] ∨ rest.headD 0 > 3 then none else rbspLoop full 0 out rest
      else if zeros = 2 ∧ byte < 3 then none
      else if full out then none
      else rbspLoop full (if byte = 0 then zeros + 1 else 0) (out ++ [byte]) rest

/-- `load_rbsp`. -/
def loadRbsp (nal : List UInt8) (nalType : UInt8) : Option Bits :=
  if nal.length < 2 ∨ nal.length > 1024 ∨ nal.headD 0 &&& 0x9f ≠ nalType then none
  else
    match rbspLoop (fun out => out.length ≥ 1024) 0 [] nal.tail with
    | none => none
    | some [] => none
    | some out => some (.start out (out.length * 8))

/-- The loop of `rbsp_stop_bit`. -/
def stopLoop (bytes : List UInt8) : ℕ → Option ℕ
  | 0 => none
  | bit + 1 => if bitAt bytes bit ≠ 0 then some bit else stopLoop bytes bit

/-- `rbsp_stop_bit`. -/
def rbspStopBit (b : Bits) : Option ℕ := stopLoop b.bytes b.bits

/-! ## Reading bits -/

variable {b : Bits} {n : ℕ}

theorem bitAt_le (bytes : List UInt8) (pos : ℕ) : bitAt bytes pos ≤ 1 :=
  Nat.and_le_right

@[simp] theorem length_rest (b : Bits) : (Source.rest b).length = b.bits - b.pos := by
  simp [Source.rest]

theorem shiftLeft_or_bitAt (value : ℕ) (bytes : List UInt8) (pos : ℕ) :
    (value <<< 1) ||| bitAt bytes pos =
      2 * value + (decide (bitAt bytes pos = 1)).toNat := by
  have hle := bitAt_le bytes pos
  rw [← Nat.shiftLeft_add_eq_or_of_lt (i := 1) (by omega), Nat.shiftLeft_eq,
    Nat.mul_comm]
  by_cases h : bitAt bytes pos = 1
  · simp [h]
  · have hzero : bitAt bytes pos = 0 := by omega
    simp [hzero]

/-- The loop reads the bits that come next. -/
theorem readLoop_eq (bytes : List UInt8) (n value pos : ℕ) :
    readLoop bytes n value pos =
      ((List.range' pos n).map fun i => decide (bitAt bytes i = 1)).foldl
        (fun v (c : Bool) => 2 * v + c.toNat) value := by
  induction n generalizing value pos with
  | zero => rfl
  | succ n ih =>
      rw [readLoop, shiftLeft_or_bitAt, ih, List.range'_succ, List.map_cons,
        List.foldl_cons]

/-- The bits that a read takes. -/
theorem take_rest (h : n ≤ b.bits - b.pos) :
    (Source.rest b).take n =
      (List.range' b.pos n).map fun i => decide (bitAt b.bytes i = 1) := by
  simp only [Source.rest, ← List.map_take, List.take_range'_of_length_ge h]

theorem readBits_eq (hn : n ≤ 32) (h : n ≤ b.bits - b.pos) :
    readBits n b = .ok (valueOf ((Source.rest b).take n), Source.skip n b) := by
  have hle : b.pos + n ≤ b.bits := by
    have := b.pos_le
    omega
  rw [readBits, dif_neg (by omega), readLoop_eq, take_rest h, valueOf]
  simp only [Source.skip, Nat.min_eq_left hle]

theorem parses_readBits (n : ℕ) :
    Parses (readBits n) fun v cs => n ≤ 32 ∧ v < 2 ^ n ∧ cs = bitsOf n v := by
  intro b v b'
  constructor
  · rintro ⟨hok, hbad⟩
    by_cases hfits : n > 32 ∨ n > b.bits - b.pos
    · rw [readBits, dif_pos hfits] at hok
      cases hok
      cases hbad
    · rw [readBits_eq (by omega) (by omega)] at hok
      cases hok
      have htake : ((Source.rest b).take n).length = n := by
        rw [List.length_take, length_rest]
        omega
      have hlt := valueOf_lt ((Source.rest b).take n)
      have hbits := bitsOf_valueOf ((Source.rest b).take n)
      rw [htake] at hlt hbits
      refine ⟨hbad, (Source.rest b).take n, ⟨by omega, hlt, hbits.symm⟩,
        List.take_prefix .., ?_⟩
      rw [htake]
  · rintro ⟨hbad, cs, ⟨hn, hv, rfl⟩, hcs, rfl⟩
    have hlen := hcs.length_le
    have htake := List.prefix_iff_eq_take.mp hcs
    rw [length_rest, length_bitsOf] at hlen
    rw [length_bitsOf] at htake
    rw [readBits_eq hn hlen, ← htake, length_bitsOf, valueOf_bitsOf,
      Nat.mod_eq_of_lt hv]
    exact ⟨rfl, hbad⟩

theorem parses_setBad {α : Type} (a : α) :
    Parses (fun b : Bits => (.ok (a, b.setBad) : Except ℤ _))
      fun _ _ => False := by
  intro b a' b'
  constructor
  · rintro ⟨hok, hfailed⟩
    cases hok
    cases hfailed
  · rintro ⟨-, cs, hfalse, -⟩
    exact hfalse.elim

theorem parses_countZeros (left zeros : ℕ) :
    Parses (countZeros left zeros) fun z cs =>
      ∃ k < left, z = zeros + k ∧ cs = List.replicate k false ++ [true] := by
  induction left generalizing zeros with
  | zero => exact (parses_setBad zeros).congr fun _ _ => by simp
  | succ left ih =>
      refine ((parses_readBits 1).bind fun bit =>
        (Parses.pure zeros).ite (ih (zeros + 1))).unlessFailed zeros
        |>.congr fun z cs => ?_
      constructor
      · rintro ⟨bit, -, bs, ⟨-, hbit, rfl⟩, hrest, rfl⟩
        by_cases hone : bit ≠ 0
        · rw [if_pos hone] at hrest
          obtain ⟨rfl, rfl⟩ := hrest
          obtain rfl : bit = 1 := by omega
          exact ⟨0, by omega, rfl, rfl⟩
        · rw [if_neg hone] at hrest
          obtain ⟨k, hk, rfl, rfl⟩ := hrest
          obtain rfl : bit = 0 := by omega
          exact ⟨k + 1, by omega, by omega, rfl⟩
      · rintro ⟨k, hk, rfl, rfl⟩
        cases k with
        | zero => exact ⟨1, [true], [], ⟨by omega, by decide, rfl⟩, ⟨rfl, rfl⟩, rfl⟩
        | succ k =>
            exact ⟨0, [false], _, ⟨by omega, by decide, rfl⟩,
              ⟨k, by omega, by omega, rfl⟩, rfl⟩

/-- The codes that `ue` reads have at most thirty zeros. -/
theorem log2_le_iff (v : ℕ) : Nat.log2 (v + 1) ≤ 30 ↔ v < 2 ^ 31 - 1 := by
  have hlog : Nat.log2 (v + 1) < 31 ↔ v + 1 < 2 ^ 31 :=
    Nat.log2_lt (by omega)
  omega

theorem parses_ue : Parses ue fun v cs => v < 2 ^ 31 - 1 ∧ cs = ueCode v := by
  refine ((parses_countZeros 31 0).bind fun zeros =>
    ((parses_readBits zeros).bind fun rest =>
      Parses.pure (2 ^ zeros - 1 + rest)).unlessFailed 0).congr
    fun v cs => ?_
  constructor
  · rintro ⟨z, -, -, ⟨k, hk, rfl, rfl⟩, ⟨x, -, -, ⟨-, hx, rfl⟩, ⟨rfl, rfl⟩, rfl⟩, rfl⟩
    rw [Nat.zero_add] at hx ⊢
    refine ⟨?_, ?_⟩
    · have hpow : 2 ^ k ≤ 2 ^ 30 := Nat.pow_le_pow_right (by decide) (by omega)
      omega
    · rw [ueCode_of_parts hx]
      simp
  · rintro ⟨hv, rfl⟩
    have hlog := (log2_le_iff v).mpr hv
    have hle := two_pow_log2_le v
    have hpos := Nat.two_pow_pos (Nat.log2 (v + 1))
    refine ⟨Nat.log2 (v + 1), _, _, ⟨Nat.log2 (v + 1), by omega, by omega, rfl⟩,
      ⟨v + 1 - 2 ^ Nat.log2 (v + 1), _, [], ⟨by omega, ueRest_lt v, rfl⟩,
        ⟨by omega, rfl⟩, rfl⟩, ?_⟩
    simp [ueCode]

/-- Reading throws nothing. -/
theorem onlyThrows_readBits (P : ℤ → Prop) (n : ℕ) : OnlyThrows P (readBits n) := by
  intro b e h
  unfold readBits at h
  split at h
  · cases h
  · cases h

theorem onlyThrows_countZeros (P : ℤ → Prop) (left zeros : ℕ) :
    OnlyThrows P (countZeros left zeros) := by
  induction left generalizing zeros with
  | zero =>
      intro b e h
      cases h
  | succ left ih =>
      refine ((onlyThrows_readBits P 1).bind fun bit => ?_).unlessFailed zeros
      split
      · exact onlyThrows_pure _
      · exact ih _

theorem onlyThrows_ue (P : ℤ → Prop) : OnlyThrows P ue :=
  (onlyThrows_countZeros P 31 0).bind fun zeros =>
    ((onlyThrows_readBits P zeros).bind fun _ => onlyThrows_pure _).unlessFailed 0

/-! ## Loading -/

theorem rbspLoop_eq (room : ℕ) {full : List UInt8 → Bool} {zeros : ℕ}
    {out rest : List UInt8} (hfull : ∀ xs : List UInt8, xs.length < room → full xs = false)
    (hroom : out.length + rest.length ≤ room) :
    rbspLoop full zeros out rest = (unescapeFrom zeros rest).map (out ++ ·) := by
  induction rest generalizing zeros out with
  | nil => simp [rbspLoop, unescapeFrom]
  | cons byte rest ih =>
      rw [List.length_cons] at hroom
      rw [rbspLoop, unescapeFrom]
      by_cases hthree : zeros = 2 ∧ byte = 3
      · rw [if_pos hthree, if_pos hthree, ih (by omega)]
        cases rest with
        | nil => rfl
        | cons next rest =>
            by_cases hnext : next > 3
            · simp [hnext, UInt8.not_le.mpr hnext]
            · simp [hnext, UInt8.not_lt.mp hnext]
      · rw [if_neg hthree, if_neg hthree]
        by_cases hsmall : zeros = 2 ∧ byte < 3
        · rw [if_pos hsmall, if_pos hsmall]
          rfl
        · rw [if_neg hsmall, if_neg hsmall, hfull out (by omega), if_neg (by simp),
            ih (by simp only [List.length_append, List.length_singleton]; omega)]
          simp [Option.map_map, Function.comp_def, zerosAfter]

/-- What `load_rbsp` accepts. -/
theorem loadRbsp_eq_some {nal : List UInt8} {nalType : UInt8} :
    loadRbsp nal nalType = some b ↔
      (2 ≤ nal.length ∧ nal.length ≤ 1024 ∧ nal.headD 0 &&& 0x9f = nalType) ∧
        ∃ out, unescape nal.tail = some out ∧ out ≠ [] ∧
          b = .start out (out.length * 8) := by
  unfold loadRbsp
  split
  · rename_i hbad
    simp only [reduceCtorEq, false_iff]
    rintro ⟨⟨hmin, hmax, htype⟩, -⟩
    rcases hbad with h | h | h
    · omega
    · omega
    · exact h htype
  · rename_i hgood
    simp only [not_or, Nat.not_lt, ne_eq, not_not] at hgood
    have hlen : nal.tail.length = nal.length - 1 := List.length_tail
    rw [rbspLoop_eq 1024 (fun xs hxs => by simpa using hxs)
      (by rw [hlen, List.length_nil]; omega), ← unescape]
    cases hout : unescape nal.tail with
    | none => simp
    | some out =>
        cases out with
        | nil => simp
        | cons x out =>
            constructor
            · intro h
              cases h
              exact ⟨hgood, x :: out, rfl, by simp, rfl⟩
            · rintro ⟨-, out', hout', -, rfl⟩
              cases hout'
              rfl

theorem getElem?_toBits_eq {bytes : List UInt8} {p : ℕ} (h : p < 8 * bytes.length) :
    (toBits bytes)[p]? = some (decide (bitAt bytes p = 1)) := by
  have hlt : p / 8 < bytes.length := by omega
  have hbyte : bytes.getD (p / 8) 0 = bytes[p / 8] := by
    rw [List.getD, List.getElem?_eq_getElem hlt, Option.getD_some]
  have hbit : bitAt bytes p = 1 &&& bytes[p / 8].toNat >>> (7 - p % 8) := by
    rw [bitAt, hbyte, Nat.and_comm]
  have hle := bitAt_le bytes p
  rw [getElem?_toBits, List.getElem?_eq_getElem hlt, Option.map_some, Nat.testBit,
    ← hbit]
  by_cases hone : bitAt bytes p = 1
  · simp [hone]
  · simp [show bitAt bytes p = 0 by omega]

/-- What is left in front of a limit. -/
theorem rest_eq (h : b.bits ≤ 8 * b.bytes.length) :
    Source.rest b = ((toBits b.bytes).take b.bits).drop b.pos := by
  apply List.ext_getElem?
  intro i
  have hpos := b.pos_le
  simp only [Source.rest, List.getElem?_map, List.getElem?_drop, List.getElem?_take]
  by_cases hi : b.pos + i < b.bits
  · rw [List.getElem?_range' (by omega), if_pos hi, getElem?_toBits_eq (by omega),
      Nat.one_mul]
    rfl
  · rw [if_neg hi, List.getElem?_eq_none (by rw [List.length_range']; omega)]
    rfl

/-- At the start all the bits are left. -/
theorem rest_start {bytes : List UInt8} {bits : ℕ} (h : bits ≤ 8 * bytes.length) :
    Source.rest (Bits.start bytes bits) = (toBits bytes).take bits :=
  rest_eq h

theorem take_succ_toBits {bytes : List UInt8} {n : ℕ} (h : n < 8 * bytes.length) :
    (toBits bytes).take (n + 1) =
      (toBits bytes).take n ++ [decide (bitAt bytes n = 1)] := by
  rw [List.take_add_one, getElem?_toBits_eq h]
  rfl

theorem stopLoop_some {bytes : List UInt8} {stop : ℕ} (hn : n ≤ 8 * bytes.length)
    (h : stopLoop bytes n = some stop) :
    stop < n ∧ IsPayload ((toBits bytes).take n) ((toBits bytes).take stop) := by
  induction n with
  | zero => cases h
  | succ n ih =>
      have hle := bitAt_le bytes n
      rw [stopLoop] at h
      rw [take_succ_toBits hn]
      split at h
      · rename_i hbit
        have hone : bitAt bytes n = 1 := by omega
        cases h
        exact ⟨by omega, 0, by simp [hone]⟩
      · rename_i hbit
        obtain ⟨hlt, k, hk⟩ := ih (by omega) h
        refine ⟨by omega, k + 1, ?_⟩
        rw [hk, List.append_assoc, List.cons_append, List.replicate_succ']
        simp [show bitAt bytes n = 0 by omega]

theorem stopLoop_none {bytes : List UInt8} (hn : n ≤ 8 * bytes.length)
    (h : stopLoop bytes n = none) :
    (toBits bytes).take n = List.replicate n false := by
  induction n with
  | zero => rfl
  | succ n ih =>
      rw [stopLoop] at h
      split at h
      · cases h
      · rename_i hbit
        rw [take_succ_toBits hn, ih (by omega) h, List.replicate_succ']
        simp [show bitAt bytes n = 0 by omega]

/-- The stop bit closes the payload. -/
theorem stopLoop_of_isPayload {bytes : List UInt8} {p : List Bool}
    (h : IsPayload (toBits bytes) p) :
    stopLoop bytes (bytes.length * 8) = some p.length ∧
      (toBits bytes).take p.length = p := by
  have hbits : bytes.length * 8 = (toBits bytes).length := by
    rw [length_toBits, Nat.mul_comm]
  cases hstop : stopLoop bytes (bytes.length * 8) with
  | none =>
      have hzero := stopLoop_none (by omega) hstop
      rw [hbits, List.take_length] at hzero
      obtain ⟨k, hk⟩ := h
      have hmem : true ∈ toBits bytes := by simp [hk]
      rw [hzero, List.mem_replicate] at hmem
      cases hmem.2
  | some stop =>
      obtain ⟨hlt, hpayload⟩ := stopLoop_some (by omega) hstop
      rw [hbits, List.take_length] at hpayload
      have heq := h.unique hpayload
      have hlen : p.length = stop := by
        rw [heq, List.length_take, length_toBits]
        omega
      exact ⟨by rw [hlen], by rw [hlen, ← heq]⟩

/-- The stop bit of whole bytes stands behind the payload. -/
theorem rbspStopBit_start {rbsp : List UInt8} {stop : ℕ} :
    rbspStopBit (.start rbsp (rbsp.length * 8)) = some stop ↔
      ∃ p, IsPayload (toBits rbsp) p ∧ p.length = stop := by
  have hbits : rbsp.length * 8 = (toBits rbsp).length := by
    rw [length_toBits, Nat.mul_comm]
  constructor
  · intro h
    change stopLoop rbsp (rbsp.length * 8) = some stop at h
    obtain ⟨hlt, hpayload⟩ := stopLoop_some (by omega) h
    rw [hbits, List.take_length] at hpayload
    refine ⟨_, hpayload, ?_⟩
    rw [List.length_take]
    omega
  · rintro ⟨p, hp, rfl⟩
    exact (stopLoop_of_isPayload hp).1

end MoonlightPsp.Sps
