import MoonlightPsp.Lib.CheckedMemory
import MoonlightPsp.Sps.BitReader

/-!
# Writing the bits of a parameter set

`put_bit`, `put_bits`, `copy_bits` and `write_nal` of `avc_sps_fixup.c`.  Bits
are put into a buffer of zeros, and its bytes are then written to the output
buffer behind a header, with emulation prevention.
-/

namespace MoonlightPsp.Sps

open BitString EmulationPrevention CheckedMemory

/-! ## The model -/

/-- The buffer of `put_bit` and the position in it.  The capacity is the size of
the buffer. -/
structure BitBuffer where
  bytes : List UInt8
  pos : ℕ

/-- `unsigned char rewritten[1024]`, all zeros. -/
def BitBuffer.rewritten : BitBuffer := ⟨List.replicate 1024 0, 0⟩

/-- `put_bit`. -/
def putBit (bit : ℕ) (w : BitBuffer) : Option BitBuffer :=
  if w.pos ≥ w.bytes.length * 8 then none
  else
    some
      { bytes :=
          if bit ≠ 0 then
            w.bytes.modify (w.pos / 8) (· ||| UInt8.ofNat (0x80 >>> (w.pos % 8)))
          else w.bytes
        pos := w.pos + 1 }

/-- The loop of `copy_bits`, over `n` bits from `first` on. -/
def copyLoop (src : List UInt8) : ℕ → ℕ → BitBuffer → Option BitBuffer
  | _, 0, w => some w
  | first, n + 1, w => do
      let w ← putBit (bitAt src first) w
      copyLoop src (first + 1) n w

/-- `copy_bits`. -/
def copyBits (src : List UInt8) (first stop : ℕ) (w : BitBuffer) : Option BitBuffer :=
  copyLoop src first (stop - first) w

/-- The loop of `put_bits`. -/
def putLoop (value : ℕ) : ℕ → BitBuffer → Option BitBuffer
  | 0, w => some w
  | bit + 1, w => do
      let w ← putBit ((value >>> bit) &&& 1) w
      putLoop value bit w

/-- `put_bits`. -/
def putBits (value count : ℕ) (w : BitBuffer) : Option BitBuffer :=
  if count > 32 then none else putLoop value count w

/-- The loop that fills up a byte with zeros.  It makes at most seven turns. -/
def alignLoop : ℕ → BitBuffer → Option BitBuffer
  | 0, _ => none
  | fuel + 1, w =>
      if w.pos % 8 ≠ 0 then do
        let w ← putBit 0 w
        alignLoop fuel w
      else some w

/-- Close the bits with a stop bit and zeros up to the byte border. -/
def closeBits (w : BitBuffer) : Option BitBuffer := do
  let w ← putBit 1 w
  alignLoop 8 w

/-- The bytes of `rewritten` with some bits put into it and closed. -/
def closedBytes (put : BitBuffer → Option BitBuffer) : Option (List UInt8) := do
  let w ← put .rewritten
  let w ← closeBits w
  some (w.bytes.take (w.pos / 8))

/-- The output buffer and how much of it is used. -/
structure Output where
  dst : List UInt8
  used : ℕ

/-- Writing that can fail with what the buffer then holds.  A store outside the
buffer gives `none`. -/
abbrev Write := ExceptT (List UInt8) Option

/-- Append a byte within the capacity. -/
def emit (cap : ℕ) (x : UInt8) (o : Output) : Write Output :=
  if o.used ≥ cap then throw o.dst
  else do
    let dst ← (store o.dst o.used x : Option (List UInt8))
    pure ⟨dst, o.used + 1⟩

/-- The loop of `write_nal`. -/
def writeLoop (cap : ℕ) : ℕ → List UInt8 → Output → Write Output
  | _, [], o => pure o
  | zeros, byte :: rest, o =>
      if zeros = 2 ∧ byte ≤ 3 then do
        let o ← emit cap 3 o
        let o ← emit cap byte o
        writeLoop cap (if byte = 0 then 0 + 1 else 0) rest o
      else do
        let o ← emit cap byte o
        writeLoop cap (if byte = 0 then zeros + 1 else 0) rest o

/-- A header byte and the loop behind it. -/
def writeUnit (header : UInt8) (rbsp dst : List UInt8) (cap : ℕ) : Write Output := do
  let dst ← (store dst 0 header : Option (List UInt8))
  writeLoop cap 0 rbsp ⟨dst, 1⟩

/-- `write_nal`. -/
def writeNal (header : UInt8) (rbsp dst : List UInt8) (cap : ℕ) : Write Output :=
  if cap = 0 then throw dst else writeUnit header rbsp dst cap

/-- The memory of a call: two buffers, or one that is input and output.  A null
pointer is `none`. -/
inductive Buffers where
  | apart (src dst : Option (List UInt8))
  | same (buffer : Option (List UInt8))

/-- What `src` points at. -/
def Buffers.src : Buffers → Option (List UInt8)
  | apart src _ => src
  | same buffer => buffer

/-- What `dst` points at. -/
def Buffers.dst : Buffers → Option (List UInt8)
  | apart _ dst => dst
  | same buffer => buffer

/-- Whether `dst` is `src`. -/
def Buffers.shared : Buffers → Bool
  | apart _ _ => false
  | same _ => true

/-- New contents of the output buffer. -/
def Buffers.setDst (dst : List UInt8) : Buffers → Buffers
  | apart src _ => apart src (some dst)
  | same _ => same (some dst)

/-- Copy the NAL unit to the output buffer, unless that is where it lies. -/
def copyNal (shared : Bool) (nal dst : List UInt8) : Option (List UInt8) :=
  if shared then some dst else copy nal dst 0 0 nal.length

/-- The buffers are as large as the caller says. -/
structure Buffers.Fit (b : Buffers) (srcSize cap : ℕ) : Prop where
  src : ∀ src ∈ b.src, srcSize ≤ src.length
  dst : ∀ dst ∈ b.dst, cap ≤ dst.length

/-- The bytes of the NAL unit. -/
def Buffers.nal (b : Buffers) (srcSize : ℕ) : Option (List UInt8) :=
  b.src.map (·.take srcSize)

/-! ## Bits -/

variable {w : BitBuffer} {as bs cs : List Bool}

/-- The bits that have been put into a buffer; behind them it is zero. -/
structure Holds (w : BitBuffer) (bs : List Bool) : Prop where
  pos : w.pos = bs.length
  fits : bs.length ≤ w.bytes.length * 8
  bits : toBits w.bytes =
    bs ++ List.replicate (w.bytes.length * 8 - bs.length) false

/-- A function puts bits into any buffer with enough room. -/
def Puts (f : BitBuffer → Option BitBuffer) (bs : List Bool) : Prop :=
  ∀ w as, Holds w as → as.length + bs.length ≤ w.bytes.length * 8 →
    ∃ w', f w = some w' ∧ Holds w' (as ++ bs) ∧ w'.bytes.length = w.bytes.length

theorem length_rewritten : BitBuffer.rewritten.bytes.length = 1024 :=
  List.length_replicate

theorem holds_rewritten : Holds BitBuffer.rewritten [] where
  pos := rfl
  fits := by simp
  bits := by
    rw [BitBuffer.rewritten, toBits_replicate_zero, List.length_replicate]
    rfl

theorem puts_nil : Puts some [] := fun w as h _ => by
  rw [List.append_nil]
  exact ⟨w, rfl, h, rfl⟩

theorem Puts.comp {f g : BitBuffer → Option BitBuffer} (hf : Puts f bs)
    (hg : Puts g cs) : Puts (fun w => f w >>= g) (bs ++ cs) := by
  intro w as h hfits
  rw [List.length_append] at hfits
  obtain ⟨w₁, hf₁, h₁, hlen₁⟩ := hf w as h (by omega)
  obtain ⟨w₂, hg₂, h₂, hlen₂⟩ := hg w₁ (as ++ bs) h₁
    (by rw [List.length_append, hlen₁]; omega)
  refine ⟨w₂, ?_, ?_, by rw [hlen₂, hlen₁]⟩
  · show f w >>= g = some w₂
    rw [hf₁]
    exact hg₂
  · rw [← List.append_assoc]
    exact h₂

theorem puts_putBit (bit : ℕ) : Puts (putBit bit) [decide (bit ≠ 0)] := by
  intro w as h hfits
  rw [List.length_singleton] at hfits
  have hpos := h.pos
  have hzero : as ++ List.replicate (w.bytes.length * 8 - as.length) false =
      as ++ false :: List.replicate (w.bytes.length * 8 - (as.length + 1)) false := by
    rw [← List.replicate_succ]
    congr 2
    omega
  refine ⟨_, if_neg (by omega), ⟨by simp [hpos], ?_, ?_⟩, ?_⟩
  · split <;> simp <;> omega
  · by_cases hbit : bit ≠ 0
    · simp only [if_pos hbit, List.length_modify]
      rw [toBits_setBit (by omega), h.bits, hzero, hpos, List.set_append_right _ _ (Nat.le_refl _)]
      simp [hbit]
    · simp only [if_neg hbit]
      rw [h.bits, hzero]
      simp [hbit]
  · split <;> simp

theorem puts_copyLoop {src : List UInt8} {first n : ℕ}
    (h : first + n ≤ 8 * src.length) :
    Puts (copyLoop src first n) (((toBits src).drop first).take n) := by
  induction n generalizing first with
  | zero => exact puts_nil
  | succ n ih =>
      have hle := bitAt_le src first
      have hbit : ((toBits src).drop first).take (n + 1) =
          [decide (bitAt src first ≠ 0)] ++ ((toBits src).drop (first + 1)).take n := by
        have hget : (toBits src)[first]? = some (decide (bitAt src first ≠ 0)) := by
          rw [getElem?_toBits_eq (by omega)]
          simp only [Option.some.injEq, decide_eq_decide]
          omega
        obtain ⟨hlt, heq⟩ := List.getElem?_eq_some_iff.mp hget
        rw [List.drop_eq_getElem_cons hlt, heq]
        rfl
      rw [hbit]
      exact (puts_putBit _).comp (ih (by omega))

theorem puts_copyBits (src : List UInt8) {first stop : ℕ} (hle : first ≤ stop)
    (hstop : stop ≤ 8 * src.length) :
    Puts (copyBits src first stop) (((toBits src).take stop).drop first) := by
  rw [List.drop_take]
  exact puts_copyLoop (by omega)

theorem puts_putLoop (value count : ℕ) :
    Puts (putLoop value count) (bitsOf count value) := by
  induction count with
  | zero => exact puts_nil
  | succ bit ih =>
      have hbit : decide ((value >>> bit) &&& 1 ≠ 0) = value.testBit bit := by
        rw [Nat.testBit, Nat.and_comm]
        rcases Nat.mod_two_eq_zero_or_one (value >>> bit) with hmod | hmod
        · simp [hmod]
        · simp [hmod]
      have h := (puts_putBit ((value >>> bit) &&& 1)).comp ih
      rw [hbit] at h
      exact h

theorem puts_putBits (value : ℕ) {count : ℕ} (h : count ≤ 32) :
    Puts (putBits value count) (bitsOf count value) := by
  intro w as hw hfits
  rw [putBits, if_neg (by omega)]
  exact puts_putLoop value count w as hw hfits

/-- Filling up a byte puts in zeros. -/
theorem alignLoop_eq (fuel : ℕ) (h : Holds w as)
    (hfuel : (8 - as.length % 8) % 8 < fuel) :
    ∃ w' k, alignLoop fuel w = some w' ∧ k < 8 ∧ (as.length + k) % 8 = 0 ∧
      Holds w' (as ++ List.replicate k false) := by
  induction fuel generalizing w as with
  | zero => omega
  | succ fuel ih =>
      rw [alignLoop, h.pos]
      by_cases halign : as.length % 8 = 0
      · rw [if_neg (not_not.mpr halign)]
        refine ⟨w, 0, rfl, by omega, by omega, ?_⟩
        simpa using h
      · have hfits := h.fits
        obtain ⟨w₁, hput, h₁, -⟩ := puts_putBit 0 w as h
          (by rw [List.length_singleton]; omega)
        obtain ⟨w₂, k, hloop, hk, hmod, h₂⟩ := ih h₁
          (by rw [List.length_append, List.length_singleton]; omega)
        rw [List.length_append, List.length_singleton] at hmod
        rw [if_pos halign, hput]
        refine ⟨w₂, k + 1, hloop, by omega, by omega, ?_⟩
        rw [List.append_assoc] at h₂
        exact h₂

/-- Closing bits gives the bytes that store them. -/
theorem closeBits_eq (h : Holds w as) (hfits : as.length < w.bytes.length * 8) :
    ∃ w', closeBits w = some w' ∧ Closes (w'.bytes.take (w'.pos / 8)) as := by
  obtain ⟨w₁, hput, h₁, -⟩ := puts_putBit 1 w as h
    (by rw [List.length_singleton]; omega)
  obtain ⟨w₂, k, hloop, hk, hmod, h₂⟩ := alignLoop_eq 8 h₁ (by omega)
  refine ⟨w₂, ?_, k, hk, ?_⟩
  · rw [closeBits, hput]
    exact hloop
  · have hone : decide (1 ≠ 0) = true := rfl
    rw [hone] at h₂ hmod
    have hall : 8 * (w₂.pos / 8) = (as ++ [true] ++ List.replicate k false).length := by
      rw [h₂.pos]
      simp only [List.length_append, List.length_singleton, List.length_replicate]
        at hmod ⊢
      omega
    rw [toBits_take, h₂.bits, hall, List.take_left]
    simp

/-- The bytes that come out store the bits that were put in. -/
theorem closedBytes_eq {put : BitBuffer → Option BitBuffer} (hput : Puts put bs)
    (hfits : bs.length < 1024 * 8) :
    ∃ out, closedBytes put = some out ∧ Closes out bs := by
  obtain ⟨w₁, hw₁, h₁, hlen⟩ := hput .rewritten [] holds_rewritten
    (by rw [length_rewritten, List.length_nil]; omega)
  rw [length_rewritten] at hlen
  rw [List.nil_append] at h₁
  obtain ⟨w₂, hw₂, hcloses⟩ := closeBits_eq h₁ (by omega)
  refine ⟨_, ?_, hcloses⟩
  rw [closedBytes, hw₁]
  show (closeBits w₁ >>= _) = _
  rw [hw₂]
  rfl

/-! ## Bytes -/

/-- The output buffer holds the bytes `xs`, from its start on. -/
def written (dst xs : List UInt8) : Output := ⟨overlay dst 0 xs, xs.length⟩

variable {dst xs ys : List UInt8} {cap : ℕ}

theorem emit_of_lt (hxs : xs.length < cap) (hcap : cap ≤ dst.length) (x : UInt8) :
    emit cap x (written dst xs) = pure (written dst (xs ++ [x])) := by
  rw [emit, written, if_neg (by simpa using hxs), store_overlay _ _ (by omega), written,
    List.length_append]
  rfl

theorem emit_of_full (hxs : xs.length = cap) (x : UInt8) :
    emit cap x (written dst xs) = throw (overlay dst 0 xs) := by
  rw [emit, written, if_pos (by simp [hxs])]

/-- Bytes appended one by one. -/
def emitAll (cap : ℕ) : List UInt8 → Output → Write Output
  | [], o => pure o
  | x :: xs, o => do
      let o ← emit cap x o
      emitAll cap xs o

/-- The loop appends the escaped bytes. -/
theorem writeLoop_eq (cap zeros : ℕ) (rbsp : List UInt8) (o : Output) :
    writeLoop cap zeros rbsp o = emitAll cap (escapeFrom zeros rbsp) o := by
  induction rbsp generalizing zeros o with
  | nil => rfl
  | cons byte rest ih =>
      rw [writeLoop, escapeFrom]
      split
      · rw [emitAll]
        simp only [emitAll, ih, zerosAfter]
      · rw [emitAll]
        simp only [ih, zerosAfter]

/-- What fits is appended. -/
theorem emitAll_of_le (hcap : cap ≤ dst.length) (hfits : xs.length + ys.length ≤ cap) :
    emitAll cap ys (written dst xs) = pure (written dst (xs ++ ys)) := by
  induction ys generalizing xs with
  | nil => rw [List.append_nil]; rfl
  | cons y ys ih =>
      rw [List.length_cons] at hfits
      rw [emitAll, emit_of_lt (by omega) hcap, pure_bind,
        ih (by rw [List.length_append, List.length_singleton]; omega),
        List.append_assoc]
      rfl

/-- What does not fit fills the capacity. -/
theorem emitAll_of_lt (hcap : cap ≤ dst.length) (hxs : xs.length ≤ cap)
    (hfull : cap < xs.length + ys.length) :
    emitAll cap ys (written dst xs) = throw (overlay dst 0 ((xs ++ ys).take cap)) := by
  induction ys generalizing xs with
  | nil =>
      rw [List.length_nil] at hfull
      omega
  | cons y ys ih =>
      rw [List.length_cons] at hfull
      rw [emitAll]
      by_cases hlt : xs.length < cap
      · rw [emit_of_lt hlt hcap, pure_bind,
          ih (by rw [List.length_append, List.length_singleton]; omega)
            (by rw [List.length_append, List.length_singleton]; omega),
          List.append_assoc]
        rfl
      · rw [emit_of_full (by omega), ← show xs.length = cap by omega, List.take_left]
        rfl

/-- A NAL unit made from its header and its raw bytes. -/
def nalOf (header : UInt8) (rbsp : List UInt8) : List UInt8 := header :: escape rbsp

theorem writeUnit_eq {header : UInt8} {rbsp : List UInt8} (hcap : cap ≤ dst.length)
    (hpos : 0 < cap) : writeUnit header rbsp dst cap =
      emitAll cap (escape rbsp) (written dst [header]) := by
  have hstore := store_overlay dst [] (by rw [List.length_nil]; omega) header
  rw [overlay_nil, List.length_nil] at hstore
  rw [writeUnit, hstore, escape, ← writeLoop_eq]
  rfl

theorem writeUnit_of_le {header : UInt8} {rbsp : List UInt8} (hcap : cap ≤ dst.length)
    (hfits : (nalOf header rbsp).length ≤ cap) :
    writeUnit header rbsp dst cap = pure (written dst (nalOf header rbsp)) := by
  rw [nalOf, List.length_cons] at hfits
  rw [writeUnit_eq hcap (by omega), emitAll_of_le hcap
    (by rw [List.length_singleton]; omega)]
  rfl

theorem writeUnit_of_lt {header : UInt8} {rbsp : List UInt8} (hcap : cap ≤ dst.length)
    (hpos : 0 < cap) (hfull : cap < (nalOf header rbsp).length) :
    writeUnit header rbsp dst cap =
      throw (overlay dst 0 ((nalOf header rbsp).take cap)) := by
  rw [nalOf, List.length_cons] at hfull
  rw [writeUnit_eq hcap hpos, emitAll_of_lt hcap (by rw [List.length_singleton]; omega)
    (by rw [List.length_singleton]; omega)]
  rfl

/-! ## What a call leaves -/

/-- A call leaves its output in the output buffer and its size, and does not touch
what is behind the capacity.  Without an output the size is zero. -/
structure Leaves (output : Option (List UInt8)) (dst : List UInt8) (cap : ℕ)
    (dst' : List UInt8) (size : ℕ) : Prop where
  size : size = (output.map List.length).getD 0
  output : ∀ out ∈ output, dst'.take out.length = out
  length : dst'.length = dst.length
  kept : dst'.drop cap = dst.drop cap

theorem length_overlay_zero (hxs : xs.length ≤ dst.length) :
    (overlay dst 0 xs).length = dst.length :=
  length_overlay (by omega)

theorem take_overlay_zero (hxs : xs.length ≤ dst.length) :
    (overlay dst 0 xs).take xs.length = xs := by
  have htake := @take_overlay _ dst xs 0 (by omega)
  rwa [Nat.zero_add, List.take_zero, List.nil_append] at htake

theorem drop_overlay_of_le (hxs : xs.length ≤ cap) (hcap : cap ≤ dst.length) :
    (overlay dst 0 xs).drop cap = dst.drop cap := by
  have hdrop := @drop_overlay _ dst xs 0 (by omega)
  rw [Nat.zero_add] at hdrop
  rw [show cap = xs.length + (cap - xs.length) by omega, ← List.drop_drop, hdrop,
    List.drop_drop]

theorem leaves_untouched (dst : List UInt8) (cap : ℕ) : Leaves none dst cap dst 0 :=
  ⟨rfl, by simp, rfl, rfl⟩

/-- A failure with the output buffer filled in part. -/
theorem leaves_failed_overlay (hxs : xs.length ≤ cap) (hcap : cap ≤ dst.length) :
    Leaves none dst cap (overlay dst 0 xs) 0 :=
  ⟨rfl, by simp, length_overlay_zero (by omega), drop_overlay_of_le hxs hcap⟩

/-- A success with the output laid over the output buffer. -/
theorem leaves_overlay (hxs : xs.length ≤ cap) (hcap : cap ≤ dst.length) :
    Leaves (some xs) dst cap (overlay dst 0 xs) xs.length := by
  refine ⟨rfl, ?_, length_overlay_zero (by omega), drop_overlay_of_le hxs hcap⟩
  intro out hout
  cases hout
  exact take_overlay_zero (by omega)

theorem copyNal_leaves (shared : Bool) {nal : List UInt8} (hnal : nal.length ≤ cap)
    (hcap : cap ≤ dst.length) (hshared : shared = true → dst.take nal.length = nal) :
    ∃ dst', copyNal shared nal dst = some dst' ∧
      Leaves (some nal) dst cap dst' nal.length := by
  cases hsame : shared with
  | true =>
      refine ⟨dst, rfl, rfl, ?_, rfl, rfl⟩
      intro out hout
      cases hout
      exact hshared hsame
  | false =>
      have hcopy := @copy_eq_overlay _ dst nal 0 0 nal.length (by omega) (by omega)
      rw [List.drop_zero, List.take_length] at hcopy
      exact ⟨_, hcopy, leaves_overlay hnal hcap⟩

/-- What has been written is read back. -/
theorem slice_overlay (hxs : xs.length ≤ dst.length) :
    slice (overlay dst 0 xs) 0 xs.length = some xs := by
  rw [slice_eq (by rw [length_overlay_zero hxs]; omega), List.drop_zero,
    take_overlay_zero hxs]

@[simp] theorem Buffers.dst_setDst (b : Buffers) (dst : List UInt8) :
    (b.setDst dst).dst = some dst := by
  cases b with
  | apart src dst => rfl
  | same buffer => rfl

end MoonlightPsp.Sps
