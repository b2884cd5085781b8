import MoonlightPsp.Sps.BitWriter
import MoonlightPsp.Sps.StreamFormat

/-!
# High parameter sets spelled as Main ones

`avc_sps_normalize_main` takes the High extension out of a parameter set that
does not use its tools.  Baseline and Main parameter sets are passed through.
-/

namespace MoonlightPsp.Sps

open BitString EmulationPrevention StickyParser CheckedMemory

/-! ## The model -/

/-- The fields at the start of a parameter set. -/
structure SpsStart where
  profile : ℕ
  constraints : ℕ
  level : ℕ
  spsId : ℕ

/-- The fields up to `seq_parameter_set_id`. -/
def startFields : Parser SpsStart := do
  let profile ← readBits 8
  let constraints ← readBits 8
  let level ← readBits 8
  let spsId ← ue
  pure ⟨profile, constraints, level, spsId⟩

/-- The fields of the High extension behind `chroma_format_idc`. -/
structure HighFields where
  depthLuma : ℕ
  depthChroma : ℕ
  transformBypass : ℕ
  scalingMatrix : ℕ

/-- The High extension, which is read on only for 4:2:0. -/
def highFields : Parser HighFields := do
  let chroma ← ue
  rejectIf (chroma ≠ 1) (-3)
  let depthLuma ← ue
  let depthChroma ← ue
  let transformBypass ← readBits 1
  let scalingMatrix ← readBits 1
  pure ⟨depthLuma, depthChroma, transformBypass, scalingMatrix⟩

/-- What is put into `rewritten` in front of the stop bit. -/
def putMain (rbsp : List UInt8) (level idEnd extensionEnd stop : ℕ) (w : BitBuffer) :
    Option BitBuffer := do
  let w ← putBits 77 8 w
  let w ← putBits 0 8 w
  let w ← putBits level 8 w
  let w ← copyBits rbsp 24 idEnd w
  copyBits rbsp extensionEnd stop w

/-- What the function returns, and what it leaves in the output buffer, in
`*dst_size` and in `*converted`. -/
structure Normalized where
  code : ℤ
  dst : List UInt8
  dstSize : ℕ
  converted : ℕ

/-- Return with a code below zero. -/
def Normalized.failed (code : ℤ) (dst : List UInt8) : Normalized := ⟨code, dst, 0, 0⟩

/-- The check of what has been written. -/
def isMainFormat (start : SpsStart) (f : StreamFormat) : Bool :=
  f.profile = 77 && f.spsId = start.spsId && f.level = start.level

/-- Write the bytes of `rewritten` and read back what has been written. -/
def writeMain (header : UInt8) (rbsp dst : List UInt8) (cap : ℕ) (start : SpsStart) :
    Option Normalized := do
  match ← (writeNal header rbsp dst cap).run with
  | .error dst => some (.failed (-1) dst)
  | .ok o => do
      let out ← slice o.dst 0 o.used
      match avcStreamFormat out with
      | .error _ => some (.failed (-1) o.dst)
      | .ok format =>
          if isMainFormat start format then some ⟨0, o.dst, o.used, 1⟩
          else some (.failed (-1) o.dst)

/-- What is to be written: the NAL unit as it is, or the bytes of `rewritten`. -/
inductive Plan where
  | copy
  | rewrite (out : List UInt8) (start : SpsStart)

/-- The checks of the High extension, and the bytes of `rewritten`. -/
def planHigh (rbsp : List UInt8) (stop : ℕ) (start : SpsStart) (b : Bits) :
    Except ℤ Plan :=
  match highFields b with
  | .error code => .error code
  | .ok (high, b') =>
      if b'.bad ∨ start.constraints &&& 3 ≠ 0 ∨ high.depthLuma ≠ 0 ∨
          high.depthChroma ≠ 0 ∨ high.transformBypass ≠ 0 ∨ high.scalingMatrix ≠ 0 ∨
          b'.pos ≥ stop then
        .error (-3)
      else
        match closedBytes (putMain rbsp start.level b.pos b'.pos stop) with
        | none => .error (-1)
        | some out => .ok (.rewrite out start)

/-- The reading of the payload. -/
def planPayload (rbsp : List UInt8) (stop : ℕ) : Except ℤ Plan :=
  match startFields (.start rbsp stop) with
  | .error code => .error code
  | .ok (start, b) =>
      if b.bad ∨ start.spsId > 31 then .error (-1)
      else if start.profile = 66 ∨ start.profile = 77 then .ok .copy
      else if start.profile ≠ 100 then .error (-2)
      else planHigh rbsp stop start b

/-- Everything in front of the first write to the output buffer. -/
def planMain (nal : List UInt8) : Except ℤ Plan :=
  match loadRbsp nal 7 with
  | none => .error (-1)
  | some b =>
      match rbspStopBit b with
      | none => .error (-1)
      | some stop => planPayload b.bytes stop

/-- `avc_sps_normalize_main` with no null pointer among its arguments. -/
def normalizeMain (shared : Bool) (src dst : List UInt8) (srcSize cap : ℕ) :
    Option Normalized := do
  let nal ← slice src 0 srcSize
  if cap < 5 then some (.failed (-1) dst)
  else
    match planMain nal with
    | .error code => some (.failed code dst)
    | .ok .copy =>
        if nal.length > cap then some (.failed (-1) dst)
        else do
          let dst ← copyNal shared nal dst
          some ⟨0, dst, nal.length, 0⟩
    | .ok (.rewrite out start) => writeMain (nal.headD 0) out dst cap start

/-- What a call returns, and what it leaves in memory. -/
structure NormalizeCall where
  code : ℤ
  buffers : Buffers
  dstSize : Option ℕ
  converted : Option ℕ

/-- `avc_sps_normalize_main`. -/
def avcSpsNormalizeMain (b : Buffers) (srcSize cap : ℕ) (dstSize converted : Option ℕ) :
    Option NormalizeCall :=
  match b.src, b.dst, dstSize, converted with
  | some src, some dst, some _, some _ => do
      let r ← normalizeMain b.shared src dst srcSize cap
      some ⟨r.code, b.setDst r.dst, some r.dstSize, some r.converted⟩
  | _, _, _, _ =>
      some ⟨-1, b, dstSize.map fun _ => 0, converted.map fun _ => 0⟩

/-- The bytes of the output. -/
def NormalizeCall.output (r : NormalizeCall) : Option (List UInt8) :=
  r.buffers.dst.map (·.take (r.dstSize.getD 0))

/-! ## The syntax -/

def SpsStart.encode (s : SpsStart) : List Bool :=
  bitsOf 8 s.profile ++ (bitsOf 8 s.constraints ++ (bitsOf 8 s.level ++
    ueCode s.spsId))

/-- The fields have values that their codes can have. -/
structure SpsStart.Readable (s : SpsStart) : Prop where
  profile : s.profile < 256
  constraints : s.constraints < 256
  level : s.level < 256
  spsId : IsUe s.spsId

/-- The High extension with 4:2:0, eight bits and no other tool. -/
def plainExtension : List Bool :=
  ueCode 1 ++ (ueCode 0 ++ (ueCode 0 ++ [false, false]))

/-- A NAL unit of the type of parameter sets whose payload is `p`. -/
def HasPayload (nal : List UInt8) (p : List Bool) : Prop :=
  ∃ rbsp, IsRbsp nal 7 rbsp ∧ IsPayload (toBits rbsp) p

theorem parses_startFields :
    Parses startFields fun s cs => s.Readable ∧ cs = s.encode := by
  refine (parses_byte.bind fun profile => parses_byte.bind fun constraints =>
    parses_byte.bind fun level => parses_ue.bind fun spsId =>
    Parses.pure (SpsStart.mk profile constraints level spsId)).congr fun s cs => ?_
  constructor
  · rintro ⟨profile, -, -, ⟨hprofile, rfl⟩, ⟨constraints, -, -, ⟨hconstraints, rfl⟩,
      ⟨level, -, -, ⟨hlevel, rfl⟩, ⟨spsId, -, -, ⟨hspsId, rfl⟩, ⟨rfl, rfl⟩, rfl⟩, rfl⟩,
      rfl⟩, rfl⟩
    exact ⟨⟨hprofile, hconstraints, hlevel, hspsId⟩, by simp [SpsStart.encode]⟩
  · rintro ⟨hs, rfl⟩
    exact ⟨s.profile, _, _, ⟨hs.profile, rfl⟩, ⟨s.constraints, _, _,
      ⟨hs.constraints, rfl⟩, ⟨s.level, _, _, ⟨hs.level, rfl⟩,
      ⟨s.spsId, _, [], ⟨hs.spsId, rfl⟩, ⟨rfl, rfl⟩, rfl⟩, rfl⟩, rfl⟩,
      by simp [SpsStart.encode]⟩

/-- The codes of the High extension. -/
def HighFields.encode (f : HighFields) : List Bool :=
  ueCode 1 ++ (ueCode f.depthLuma ++ (ueCode f.depthChroma ++
    [decide (f.transformBypass = 1), decide (f.scalingMatrix = 1)]))

structure HighFields.Readable (f : HighFields) : Prop where
  depthLuma : IsUe f.depthLuma
  depthChroma : IsUe f.depthChroma
  transformBypass : f.transformBypass < 2
  scalingMatrix : f.scalingMatrix < 2

theorem parses_highFields :
    Parses highFields fun f cs => f.Readable ∧ cs = f.encode := by
  refine (parses_ue.bind fun chroma => (parses_rejectIf (chroma ≠ 1) (-3)).bind fun _ =>
    parses_ue.bind fun depthLuma => parses_ue.bind fun depthChroma =>
    parses_readFlag.bind fun transformBypass => parses_readFlag.bind fun scalingMatrix =>
    Parses.pure (HighFields.mk depthLuma depthChroma transformBypass
      scalingMatrix)).congr fun f cs => ?_
  constructor
  · rintro ⟨chroma, -, -, ⟨-, rfl⟩, ⟨-, -, -, ⟨hchroma, rfl⟩,
      ⟨depthLuma, -, -, ⟨hluma, rfl⟩, ⟨depthChroma, -, -, ⟨hdepth, rfl⟩,
      ⟨-, -, -, ⟨bypass, rfl, rfl⟩, ⟨-, -, -, ⟨matrix, rfl, rfl⟩, ⟨rfl, rfl⟩, rfl⟩,
      rfl⟩, rfl⟩, rfl⟩, rfl⟩, rfl⟩
    obtain rfl := not_not.mp hchroma
    refine ⟨⟨hluma, hdepth, Bool.toNat_lt bypass, Bool.toNat_lt matrix⟩, ?_⟩
    cases bypass <;> cases matrix <;> simp [HighFields.encode]
  · rintro ⟨hf, rfl⟩
    have hbypass := hf.transformBypass
    have hmatrix := hf.scalingMatrix
    refine ⟨1, _, _, ⟨by decide, rfl⟩, ⟨(), [], _, ⟨by simp, rfl⟩,
      ⟨f.depthLuma, _, _, ⟨hf.depthLuma, rfl⟩, ⟨f.depthChroma, _, _,
      ⟨hf.depthChroma, rfl⟩, ⟨f.transformBypass, [decide (f.transformBypass = 1)], _,
      ⟨decide (f.transformBypass = 1), ?_, rfl⟩, ⟨f.scalingMatrix,
      [decide (f.scalingMatrix = 1)], [], ⟨decide (f.scalingMatrix = 1), ?_, rfl⟩,
      ⟨rfl, rfl⟩, rfl⟩, rfl⟩, rfl⟩, rfl⟩, rfl⟩, by simp [HighFields.encode]⟩
    · obtain h | h : f.transformBypass = 0 ∨ f.transformBypass = 1 := by omega
      · simp [h]
      · simp [h]
    · obtain h | h : f.scalingMatrix = 0 ∨ f.scalingMatrix = 1 := by omega
      · simp [h]
      · simp [h]

/-! ## The plan -/

theorem IsRbsp.length_pos {nal rbsp : List UInt8} {t : UInt8} {p : List Bool}
    (h : IsRbsp nal t rbsp) (hp : IsPayload (toBits rbsp) p) :
    p.length < 8 * rbsp.length ∧ rbsp ≠ [] ∧ rbsp.length + 1 ≤ nal.length := by
  obtain ⟨k, hk⟩ := hp
  have hbits := congrArg List.length hk
  rw [length_toBits, List.length_append, List.length_cons] at hbits
  have hlen := length_le_of_unescape h.2
  rw [List.length_tail] at hlen
  have hpos : 0 < rbsp.length := by omega
  exact ⟨by omega, List.ne_nil_of_length_pos hpos, by omega⟩

/-- A plan is made for the units that `load_rbsp` takes and that have a stop bit. -/
theorem planMain_eq_ok {nal : List UInt8} {plan : Plan} :
    planMain nal = .ok plan ↔ nal.length ≤ 1024 ∧ ∃ rbsp p, IsRbsp nal 7 rbsp ∧
      IsPayload (toBits rbsp) p ∧ planPayload rbsp p.length = .ok plan := by
  unfold planMain
  constructor
  · intro h
    split at h
    · cases h
    · rename_i b hload
      obtain ⟨⟨hmin, hmax, htype⟩, rbsp, hrbsp, -, rfl⟩ := loadRbsp_eq_some.mp hload
      split at h
      · cases h
      · rename_i stop hstop
        obtain ⟨hlt, hpayload⟩ := stopLoop_some
          (show rbsp.length * 8 ≤ 8 * rbsp.length by omega) hstop
        rw [List.take_of_length_le (by rw [length_toBits]; omega)] at hpayload
        have hlen : ((toBits rbsp).take stop).length = stop := by
          rw [List.length_take, length_toBits]
          omega
        exact ⟨hmax, rbsp, _, ⟨htype, hrbsp⟩, hpayload, by rw [hlen]; exact h⟩
  · rintro ⟨hmax, rbsp, p, hrbsp, hpayload, hplan⟩
    obtain ⟨-, hne, hlen⟩ := hrbsp.length_pos hpayload
    have hpos := List.length_pos_iff.mpr hne
    have hload : loadRbsp nal 7 = some (.start rbsp (rbsp.length * 8)) :=
      loadRbsp_eq_some.mpr ⟨⟨by omega, hmax, hrbsp.1⟩, rbsp, hrbsp.2, hne, rfl⟩
    have hstop : rbspStopBit (.start rbsp (rbsp.length * 8)) = some p.length :=
      (stopLoop_of_isPayload hpayload).1
    rw [hload]
    simp only [hstop]
    exact hplan

variable {nal rbsp out : List UInt8} {p rest : List Bool} {start : SpsStart}

/-- The reader of the payload reads the payload. -/
theorem rest_of_isPayload (h : IsPayload (toBits rbsp) p) :
    Source.rest (Bits.start rbsp p.length) = p := by
  have hlt : p.length ≤ 8 * rbsp.length := by
    obtain ⟨k, hk⟩ := h
    have hbits := congrArg List.length hk
    rw [length_toBits, List.length_append] at hbits
    omega
  rw [rest_start hlt, (stopLoop_of_isPayload h).2]

/-- The start of a parameter set is read, if it is there. -/
theorem startFields_eq (h : IsPayload (toBits rbsp) (start.encode ++ rest))
    (hstart : start.Readable) :
    ∃ b, startFields (.start rbsp (start.encode ++ rest).length) = .ok (start, b) ∧
      b.bad = false ∧ b.pos = start.encode.length ∧ Source.rest b = rest := by
  have hrest := rest_of_isPayload h
  obtain ⟨hok, hgood⟩ := (parses_startFields _ start _).mpr
    ⟨rfl, _, ⟨hstart, rfl⟩, hrest ▸ List.prefix_append _ rest, rfl⟩
  refine ⟨_, hok, hgood, ?_, ?_⟩
  · simp only [Source.skip, Bits.start, List.length_append, Nat.zero_add]
    omega
  · rw [Source.rest_skip, hrest, List.drop_left]

/-- What has been read is the start of the payload. -/
theorem startFields_ok {b : Bits} (h : IsPayload (toBits rbsp) p)
    (hok : startFields (.start rbsp p.length) = .ok (start, b)) (hgood : b.bad = false) :
    start.Readable ∧ ∃ rest, p = start.encode ++ rest := by
  obtain ⟨-, cs, ⟨hstart, rfl⟩, ⟨rest, hrest⟩, -⟩ :=
    (parses_startFields _ start b).mp ⟨hok, hgood⟩
  rw [rest_of_isPayload h] at hrest
  exact ⟨hstart, rest, hrest.symm⟩

/-- The start of the Main parameter set for a High one. -/
def SpsStart.main (s : SpsStart) : SpsStart := ⟨77, 0, s.level, s.spsId⟩

theorem SpsStart.length_encode (s : SpsStart) :
    s.encode.length = 24 + (ueCode s.spsId).length := by
  simp only [SpsStart.encode, List.length_append, length_bitsOf]
  omega

theorem SpsStart.drop_encode (s : SpsStart) : s.encode.drop 24 = ueCode s.spsId := by
  have hfront : (bitsOf 8 s.profile ++ bitsOf 8 s.constraints ++
      bitsOf 8 s.level).length = 24 := by
    simp only [List.length_append, length_bitsOf]
  rw [SpsStart.encode, ← List.append_assoc, ← List.append_assoc, ← hfront,
    List.drop_left]

theorem puts_putMain {ext : List Bool}
    (h : start.encode ++ (ext ++ rest) <+: toBits rbsp) :
    Puts (putMain rbsp start.level start.encode.length
      (start.encode.length + ext.length) (start.encode ++ (ext ++ rest)).length)
      (start.main.encode ++ rest) := by
  have hlen := h.length_le
  rw [length_toBits] at hlen
  simp only [List.length_append] at hlen
  have hstart := start.length_encode
  have hid : ((toBits rbsp).take start.encode.length).drop 24 = ueCode start.spsId := by
    rw [← List.prefix_iff_eq_take.mp ((List.prefix_append _ _).trans h),
      start.drop_encode]
  have hrest : ((toBits rbsp).take (start.encode ++ (ext ++ rest)).length).drop
      (start.encode.length + ext.length) = rest := by
    rw [← List.prefix_iff_eq_take.mp h, ← List.drop_drop, List.drop_left,
      List.drop_left]
  have hwidth : 8 ≤ 32 := by decide
  have hbefore : 24 ≤ start.encode.length := by omega
  have hfirst : start.encode.length ≤ 8 * rbsp.length := by omega
  have hbetween : start.encode.length + ext.length ≤
      (start.encode ++ (ext ++ rest)).length := by
    simp only [List.length_append]
    omega
  have hinside : (start.encode ++ (ext ++ rest)).length ≤ 8 * rbsp.length := by
    simp only [List.length_append]
    omega
  have hputs := (puts_putBits 77 hwidth).comp
    ((puts_putBits 0 hwidth).comp
      ((puts_putBits start.level hwidth).comp
        ((puts_copyBits rbsp hbefore hfirst).comp
          (puts_copyBits rbsp hbetween hinside))))
  rw [hid, hrest] at hputs
  have heq : start.main.encode ++ rest = bitsOf 8 77 ++ (bitsOf 8 0 ++
      (bitsOf 8 start.level ++ (ueCode start.spsId ++ rest))) := by
    simp only [SpsStart.encode, SpsStart.main, List.append_assoc]
  rw [heq]
  exact hputs

/-- The High extension that is accepted. -/
theorem HighFields.encode_eq {f : HighFields} (h : f.depthLuma = 0 ∧ f.depthChroma = 0 ∧
    f.transformBypass = 0 ∧ f.scalingMatrix = 0) : f.encode = plainExtension := by
  obtain ⟨hluma, hchroma, hbypass, hmatrix⟩ := h
  simp [HighFields.encode, plainExtension, hluma, hchroma, hbypass, hmatrix]

theorem length_plainExtension : plainExtension.length = 7 := by decide

variable {b : Bits} {plan : Plan}

/-- The Main parameter set is at most as long as the High one, so it fits. -/
theorem closedBytes_putMain (hlen : rbsp.length ≤ 1024)
    (h : start.encode ++ (plainExtension ++ rest) <+: toBits rbsp) :
    ∃ out, closedBytes (putMain rbsp start.level start.encode.length
        (start.encode.length + 7)
        (start.encode ++ (plainExtension ++ rest)).length) = some out ∧
      Closes out (start.main.encode ++ rest) := by
  have hfits := h.length_le
  rw [length_toBits, List.length_append] at hfits
  have hputs := puts_putMain h
  rw [length_plainExtension] at hputs
  refine closedBytes_eq hputs ?_
  have hshort : (start.main.encode ++ rest).length + 7 =
      start.encode.length + (plainExtension ++ rest).length := by
    rw [List.length_append, List.length_append, start.length_encode,
      start.main.length_encode, length_plainExtension]
    show _ + (ueCode start.spsId).length + _ + 7 = _
    omega
  omega

/-- The reader behind the High extension. -/
theorem pos_skip_plainExtension (hpos : b.pos = start.encode.length)
    (hrest : Source.rest b = plainExtension ++ rest) :
    (Source.skip plainExtension.length b).pos = start.encode.length + 7 := by
  have hbits := length_rest b
  rw [hrest, List.length_append, length_plainExtension] at hbits
  simp only [Source.skip, length_plainExtension, hpos]
  omega

/-- What is planned for a parameter set of profile 100, read up to `b`. -/
theorem planHigh_eq_ok (hlen : rbsp.length ≤ 1024)
    (hpayload : IsPayload (toBits rbsp) (start.encode ++ p)) (hgood : b.bad = false)
    (hpos : b.pos = start.encode.length) (hrest : Source.rest b = p) :
    planHigh rbsp (start.encode ++ p).length start b = .ok plan ↔
      start.constraints &&& 3 = 0 ∧ ∃ rest out, rest ≠ [] ∧ p = plainExtension ++ rest ∧
        plan = .rewrite out start ∧ Closes out (start.main.encode ++ rest) := by
  have hprefix : start.encode ++ p <+: toBits rbsp := by
    obtain ⟨k, hk⟩ := hpayload
    rw [hk]
    exact List.prefix_append _ _
  unfold planHigh
  constructor
  · intro h
    split at h
    · cases h
    · rename_i high b' hok
      split at h
      · cases h
      · rename_i hall
        simp only [not_or, not_not, Bool.not_eq_true, ge_iff_le, Nat.not_le] at hall
        obtain ⟨hgood', hconstraints, hluma, hchroma, hbypass, hmatrix, hstop⟩ := hall
        obtain ⟨-, cs, ⟨-, rfl⟩, hcs, rfl⟩ :=
          (parses_highFields b high b').mp ⟨hok, hgood'⟩
        rw [high.encode_eq ⟨hluma, hchroma, hbypass, hmatrix⟩] at hcs hstop h
        rw [hrest] at hcs
        obtain ⟨rest, rfl⟩ := hcs
        obtain ⟨out, hclosed, hcloses⟩ := closedBytes_putMain hlen hprefix
        have hend := pos_skip_plainExtension hpos hrest
        rw [hend, hpos, hclosed] at h
        rw [hend, List.length_append, List.length_append,
          length_plainExtension] at hstop
        cases h
        refine ⟨hconstraints, rest, out, ?_, rfl, rfl, hcloses⟩
        rintro rfl
        rw [List.length_nil] at hstop
        omega
  · rintro ⟨hconstraints, rest, out, hne, rfl, rfl, hcloses⟩
    have hread : (⟨0, 0, 0, 0⟩ : HighFields).encode = plainExtension :=
      HighFields.encode_eq ⟨rfl, rfl, rfl, rfl⟩
    obtain ⟨hok, hgood'⟩ := (parses_highFields b ⟨0, 0, 0, 0⟩ _).mpr
      ⟨hgood, _, ⟨⟨isUe_zero, isUe_zero, by decide, by decide⟩, rfl⟩,
        hrest ▸ hread ▸ List.prefix_append _ rest, rfl⟩
    rw [hread] at hok hgood'
    have hone := List.length_pos_iff.mpr hne
    obtain ⟨out', hclosed, hcloses'⟩ := closedBytes_putMain hlen hprefix
    rw [hok]
    simp only [pos_skip_plainExtension hpos hrest]
    rw [if_neg, hpos, hclosed, hcloses'.unique hcloses]
    simp only [not_or, not_not, Bool.not_eq_true, ge_iff_le, Nat.not_le,
      List.length_append, length_plainExtension]
    exact ⟨hgood', hconstraints, trivial, trivial, trivial, trivial, by omega⟩

/-- A plan is made by the fields at the start. -/
theorem planPayload_eq (hpayload : IsPayload (toBits rbsp) (start.encode ++ rest))
    (hstart : start.Readable) (hspsId : start.spsId ≤ 31) :
    ∃ b, b.bad = false ∧ b.pos = start.encode.length ∧ Source.rest b = rest ∧
      planPayload rbsp (start.encode ++ rest).length =
        if start.profile = 66 ∨ start.profile = 77 then .ok .copy
        else if start.profile ≠ 100 then .error (-2)
        else planHigh rbsp (start.encode ++ rest).length start b := by
  obtain ⟨b, hok, hgood, hpos, hrest⟩ := startFields_eq hpayload hstart
  refine ⟨b, hgood, hpos, hrest, ?_⟩
  rw [planPayload, hok]
  simp only [hgood]
  rw [if_neg (by simpa using hspsId)]

theorem planPayload_ok (hpayload : IsPayload (toBits rbsp) p)
    (h : planPayload rbsp p.length = .ok plan) :
    ∃ start rest, SpsStart.Readable start ∧ start.spsId ≤ 31 ∧
      p = start.encode ++ rest := by
  unfold planPayload at h
  split at h
  · cases h
  · rename_i start b hok
    split at h
    · cases h
    · rename_i hgood
      simp only [not_or, Bool.not_eq_true, Nat.not_lt] at hgood
      obtain ⟨hstart, rest, hrest⟩ := startFields_ok hpayload hok hgood.1
      exact ⟨start, rest, hstart, hgood.2, hrest⟩

/-- Baseline and Main parameter sets. -/
def IsMainSps (nal : List UInt8) : Prop :=
  ∃ (start : SpsStart) (rest : List Bool), start.Readable ∧ start.spsId ≤ 31 ∧
    (start.profile = 66 ∨ start.profile = 77) ∧ HasPayload nal (start.encode ++ rest)

/-- The fields of a High parameter set that uses none of the High tools: reserved
bits zero, 4:2:0, eight bits, no transform bypass, no scaling matrix. -/
structure PlainHigh (nal : List UInt8) (start : SpsStart) (rest : List Bool) :
    Prop where
  readable : start.Readable
  spsId : start.spsId ≤ 31
  profile : start.profile = 100
  constraints : start.constraints &&& 3 = 0
  payload : HasPayload nal (start.encode ++ (plainExtension ++ rest))

theorem IsRbsp.length_le {t : UInt8} (h : IsRbsp nal t rbsp) :
    rbsp.length ≤ nal.length := by
  have hlen := length_le_of_unescape h.2
  rw [List.length_tail] at hlen
  omega

theorem planMain_copy_iff : planMain nal = .ok .copy ↔
    nal.length ≤ 1024 ∧ IsMainSps nal := by
  rw [planMain_eq_ok]
  refine and_congr_right fun hmax => ?_
  constructor
  · rintro ⟨rbsp, p, hrbsp, hpayload, hplan⟩
    obtain ⟨start, rest, hstart, hspsId, rfl⟩ := planPayload_ok hpayload hplan
    obtain ⟨b, hgood, hpos, hrest, heq⟩ := planPayload_eq hpayload hstart hspsId
    rw [heq] at hplan
    split at hplan
    · rename_i hprofile
      exact ⟨start, rest, hstart, hspsId, hprofile, rbsp, hrbsp, hpayload⟩
    · split at hplan
      · cases hplan
      · have hlen := hrbsp.length_le
        obtain ⟨-, rest', out, -, -, hcopy, -⟩ :=
          (planHigh_eq_ok (by omega) hpayload hgood hpos hrest).mp hplan
        cases hcopy
  · rintro ⟨start, rest, hstart, hspsId, hprofile, rbsp, hrbsp, hpayload⟩
    obtain ⟨b, -, -, -, heq⟩ := planPayload_eq hpayload hstart hspsId
    rw [if_pos hprofile] at heq
    exact ⟨rbsp, _, hrbsp, hpayload, heq⟩

theorem planMain_rewrite_iff : planMain nal = .ok (.rewrite out start) ↔
    nal.length ≤ 1024 ∧ ∃ rest, rest ≠ [] ∧ PlainHigh nal start rest ∧
      Closes out (start.main.encode ++ rest) := by
  rw [planMain_eq_ok]
  refine and_congr_right fun hmax => ?_
  constructor
  · rintro ⟨rbsp, p, hrbsp, hpayload, hplan⟩
    obtain ⟨start', rest, hstart, hspsId, rfl⟩ := planPayload_ok hpayload hplan
    obtain ⟨b, hgood, hpos, hrest, heq⟩ := planPayload_eq hpayload hstart hspsId
    rw [heq] at hplan
    split at hplan
    · cases hplan
    · split at hplan
      · cases hplan
      · rename_i hprofile
        have hlen := hrbsp.length_le
        obtain ⟨hconstraints, rest', out', hne, rfl, hplan', hcloses⟩ :=
          (planHigh_eq_ok (by omega) hpayload hgood hpos hrest).mp hplan
        cases hplan'
        exact ⟨rest', hne, ⟨hstart, hspsId, not_not.mp hprofile, hconstraints,
          rbsp, hrbsp, hpayload⟩, hcloses⟩
  · rintro ⟨rest, hne, h, hcloses⟩
    obtain ⟨rbsp, hrbsp, hpayload⟩ := h.payload
    have hlen := hrbsp.length_le
    have hprofile := h.profile
    obtain ⟨b, hgood, hpos, hrest, heq⟩ := planPayload_eq hpayload h.readable h.spsId
    rw [if_neg (by omega), if_neg (by omega)] at heq
    refine ⟨rbsp, _, hrbsp, hpayload, heq.trans ?_⟩
    exact (planHigh_eq_ok (by omega) hpayload hgood hpos hrest).mpr
      ⟨h.constraints, rest, out, hne, rfl, rfl, hcloses⟩

theorem startFields_onlyThrows : OnlyThrows (· < 0) startFields :=
  (onlyThrows_readBits _ 8).bind fun _ => (onlyThrows_readBits _ 8).bind fun _ =>
    (onlyThrows_readBits _ 8).bind fun _ => (onlyThrows_ue _).bind fun _ =>
      onlyThrows_pure _

theorem highFields_onlyThrows : OnlyThrows (· < 0) highFields :=
  (onlyThrows_ue _).bind fun _ => (onlyThrows_rejectIf (by decide)).bind fun _ =>
    (onlyThrows_ue _).bind fun _ => (onlyThrows_ue _).bind fun _ =>
      (onlyThrows_readBits _ 1).bind fun _ => (onlyThrows_readBits _ 1).bind fun _ =>
        onlyThrows_pure _

variable {code : ℤ}

theorem planHigh_error {stop : ℕ} (h : planHigh rbsp stop start b = .error code) :
    code < 0 := by
  unfold planHigh at h
  split at h
  · rename_i hthrown
    cases h
    exact highFields_onlyThrows _ _ hthrown
  · split at h
    · cases h
      decide
    · split at h
      · cases h
        decide
      · cases h

theorem planPayload_error {stop : ℕ} (h : planPayload rbsp stop = .error code) :
    code < 0 := by
  unfold planPayload at h
  split at h
  · rename_i hthrown
    cases h
    exact startFields_onlyThrows _ _ hthrown
  · split at h
    · cases h
      decide
    · split at h
      · cases h
      · split at h
        · cases h
          decide
        · exact planHigh_error h

/-- Every failure has a code below zero. -/
theorem planMain_error (h : planMain nal = .error code) : code < 0 := by
  unfold planMain at h
  split at h
  · cases h
    decide
  · split at h
    · cases h
      decide
    · exact planPayload_error h

/-! ## Memory -/

/-- What a call gives: its code, the bytes of the output if it succeeds, and the
value for `*converted`. -/
structure NormalizeOutcome where
  code : ℤ
  output : Option (List UInt8)
  converted : ℕ

/-- The output is kept if it fits and reads back as it should. -/
def keepMain (start : SpsStart) (cap : ℕ) (out : List UInt8) : NormalizeOutcome :=
  if out.length > cap then ⟨-1, none, 0⟩
  else
    match avcStreamFormat out with
    | .error _ => ⟨-1, none, 0⟩
    | .ok format => if isMainFormat start format then ⟨0, some out, 1⟩ else ⟨-1, none, 0⟩

/-- What `avc_sps_normalize_main` gives on a NAL unit, wherever it lies and
whatever the output buffer held. -/
def normalizeOutcome (nal : List UInt8) (cap : ℕ) : NormalizeOutcome :=
  if cap < 5 then ⟨-1, none, 0⟩
  else
    match planMain nal with
    | .error code => ⟨code, none, 0⟩
    | .ok .copy => if nal.length > cap then ⟨-1, none, 0⟩ else ⟨0, some nal, 0⟩
    | .ok (.rewrite out start) => keepMain start cap (nalOf (nal.headD 0) out)

/-- A call gives an outcome. -/
structure Normalized.Shows (r : Normalized) (o : NormalizeOutcome) (dst : List UInt8)
    (cap : ℕ) : Prop where
  code : r.code = o.code
  converted : r.converted = o.converted
  leaves : Leaves o.output dst cap r.dst r.dstSize

variable {src dst xs : List UInt8} {cap srcSize : ℕ} {shared : Bool}

theorem writeMain_shows {header : UInt8} (hpos : 0 < cap) (hcap : cap ≤ dst.length) :
    ∃ r, writeMain header out dst cap start = some r ∧
      r.Shows (keepMain start cap (nalOf header out)) dst cap := by
  unfold writeMain keepMain
  rw [writeNal, if_neg (by omega)]
  by_cases hfits : (nalOf header out).length ≤ cap
  · rw [writeUnit_of_le hcap hfits, if_neg (by omega)]
    show ∃ r, (slice (overlay dst 0 (nalOf header out)) 0
      (nalOf header out).length >>= _) = some r ∧ _
    rw [slice_overlay (by omega)]
    simp only [Option.bind_eq_bind, Option.bind_some]
    cases avcStreamFormat (nalOf header out) with
    | error code => exact ⟨_, rfl, rfl, rfl, leaves_failed_overlay hfits hcap⟩
    | ok format =>
        cases hmain : isMainFormat start format with
        | true =>
            simp only [hmain, if_true]
            exact ⟨_, rfl, rfl, rfl, leaves_overlay hfits hcap⟩
        | false =>
            simp only [hmain]
            exact ⟨_, rfl, rfl, rfl, leaves_failed_overlay hfits hcap⟩
  · rw [writeUnit_of_lt hcap hpos (by omega), if_pos (by omega)]
    have htake : ((nalOf header out).take cap).length ≤ cap := by
      rw [List.length_take]
      omega
    exact ⟨_, rfl, rfl, rfl, leaves_failed_overlay htake hcap⟩

theorem normalizeMain_shows (shared : Bool) (hsrc : srcSize ≤ src.length) (hcap : cap ≤ dst.length)
    (hshared : shared = true → dst = src) :
    ∃ r, normalizeMain shared src dst srcSize cap = some r ∧
      r.Shows (normalizeOutcome (src.take srcSize) cap) dst cap := by
  have hlen : (src.take srcSize).length = srcSize := by
    rw [List.length_take]
    omega
  unfold normalizeMain normalizeOutcome
  rw [slice_eq (by omega), List.drop_zero]
  simp only [Option.bind_eq_bind, Option.bind_some]
  by_cases hsmall : cap < 5
  · rw [if_pos hsmall, if_pos hsmall]
    exact ⟨_, rfl, rfl, rfl, leaves_untouched dst cap⟩
  · rw [if_neg hsmall, if_neg hsmall]
    cases planMain (src.take srcSize) with
    | error code => exact ⟨_, rfl, rfl, rfl, leaves_untouched dst cap⟩
    | ok plan =>
        cases plan with
        | copy =>
            simp only
            by_cases hlong : (src.take srcSize).length > cap
            · rw [if_pos hlong, if_pos hlong]
              exact ⟨_, rfl, rfl, rfl, leaves_untouched dst cap⟩
            · rw [if_neg hlong, if_neg hlong]
              obtain ⟨dst', hcopy, hleaves⟩ := copyNal_leaves shared
                (Nat.not_lt.mp hlong) hcap fun hsame => by rw [hlen, hshared hsame]
              rw [hcopy]
              exact ⟨_, rfl, rfl, rfl, hleaves⟩
        | rewrite out start => exact writeMain_shows (by omega) hcap

/-! ## The outcome -/

/-- The Main unit for a High one: the fields at its start, without the High
extension, and the bits behind it, closed anew. -/
def Rewrites (nal out : List UInt8) (start : SpsStart) (rest : List Bool) : Prop :=
  ∃ rbsp, Closes rbsp (start.main.encode ++ rest) ∧ out = nalOf (nal.headD 0) rbsp

/-- The capacity suffices for the unit and for what it is rewritten to. -/
structure Sufficient (nal : List UInt8) (cap : ℕ) : Prop where
  copied : nal.length ≤ cap
  rewritten : ∀ start rest out, PlainHigh nal start rest →
    Rewrites nal out start rest → out.length ≤ cap

/-- `avc_stream_format` accepts a unit. -/
def Accepted (nal : List UInt8) : Prop := ∃ f, avcStreamFormat nal = .ok f

theorem true_mem_ueCode (v : ℕ) : true ∈ ueCode v := by
  simp [ueCode]

theorem PocSyntax.true_mem_encode (p : PocSyntax) : true ∈ p.encode := by
  have hfront : ∃ t bs, p.encode = ueCode t ++ bs := by
    cases p with
    | type0 log2MaxLsb => exact ⟨0, _, rfl⟩
    | type1 flag first second vs => exact ⟨1, _, rfl⟩
    | type2 => exact ⟨2, [], (List.append_nil _).symm⟩
  obtain ⟨t, bs, hp⟩ := hfront
  rw [hp]
  exact List.mem_append_left _ (true_mem_ueCode t)

/-- Two ones do not fit into a stop bit and zeros. -/
theorem not_ones_eq_stop {as bs cs : List Bool} {k : ℕ} (ha : true ∈ as)
    (hb : true ∈ bs) : as ++ (bs ++ cs) ≠ true :: List.replicate k false := by
  intro h
  have hcount := congrArg (List.count true) h
  rw [List.count_append, List.count_append, List.count_cons_self,
    List.count_replicate] at hcount
  have hone := List.count_pos_iff.mpr ha
  have htwo := List.count_pos_iff.mpr hb
  simp at hcount
  omega

/-- What `avc_stream_format` reads in a rewritten unit. -/
theorem Rewrites.format {f : StreamFormat} (h : Rewrites nal out start rest)
    (hstart : start.Readable) (hok : avcStreamFormat out = .ok f) :
    isMainFormat start f = true ∧ rest ≠ [] := by
  obtain ⟨rbsp, ⟨k, -, hbits⟩, rfl⟩ := h
  obtain ⟨-, -, rbsp', head, refs, tail, ⟨-, hrbsp⟩, hhead, -, -, ⟨ts, hts⟩, rfl⟩ :=
    avcStreamFormat_eq_ok.mp hok
  have heq : rbsp' = rbsp :=
    Option.some.inj (hrbsp.symm.trans (unescape_escape rbsp))
  rw [heq, hbits] at hts
  simp only [SpsHead.encode, SpsStart.encode, SpsStart.main, List.append_assoc] at hts
  obtain ⟨hprofile, hts⟩ := List.append_inj hts (by simp)
  obtain ⟨-, hts⟩ := List.append_inj hts (by simp)
  obtain ⟨hlevel, hts⟩ := List.append_inj hts (by simp)
  obtain ⟨hspsId, hts⟩ := ueCode_append_inj hts
  have hbyte : head.profile < 256 := by
    have := hhead.profile
    omega
  refine ⟨?_, ?_⟩
  · simp [isMainFormat, SpsHead.format, formatOf,
      bitsOf_inj hbyte (show 77 < 2 ^ 8 by decide) hprofile,
      bitsOf_inj hhead.level hstart.level hlevel, hspsId]
  · rintro rfl
    rw [List.nil_append] at hts
    exact not_ones_eq_stop (true_mem_ueCode _) head.poc.true_mem_encode hts

theorem PlainHigh.header (h : PlainHigh nal start rest) : nal.headD 0 &&& 0x9f = 7 := by
  obtain ⟨rbsp, hrbsp, -⟩ := h.payload
  exact hrbsp.1

/-- A rewritten unit is a Main one. -/
theorem Rewrites.isMainSps (h : Rewrites nal out start rest)
    (hhigh : PlainHigh nal start rest) : IsMainSps out := by
  obtain ⟨rbsp, hcloses, rfl⟩ := h
  have hreadable := hhigh.readable
  exact ⟨start.main, rest, ⟨show 77 < 256 by decide, show 0 < 256 by decide,
    hreadable.level, hreadable.spsId⟩, hhigh.spsId, .inr rfl, rbsp, ⟨hhigh.header, unescape_escape rbsp⟩,
    hcloses.isPayload⟩

theorem IsMainSps.length_ge (h : IsMainSps nal) : 5 ≤ nal.length := by
  obtain ⟨start, rest, -, -, -, rbsp, hrbsp, hpayload⟩ := h
  obtain ⟨hlt, -, hlen⟩ := hrbsp.length_pos hpayload
  rw [List.length_append, start.length_encode, length_ueCode] at hlt
  omega

theorem normalizeOutcome_of_isMainSps (h : IsMainSps nal) (hmax : nal.length ≤ 1024)
    (hcap : nal.length ≤ cap) : normalizeOutcome nal cap = ⟨0, some nal, 0⟩ := by
  have hmin := h.length_ge
  rw [normalizeOutcome, if_neg (by omega), planMain_copy_iff.mpr ⟨hmax, h⟩]
  simp only
  rw [if_neg (by omega)]

theorem normalizeOutcome_of_plainHigh (h : PlainHigh nal start rest)
    (hmax : nal.length ≤ 1024) (hout : Rewrites nal out start rest)
    (haccepted : Accepted out) (hcap : out.length ≤ cap) :
    normalizeOutcome nal cap = ⟨0, some out, 1⟩ := by
  obtain ⟨f, hf⟩ := haccepted
  obtain ⟨hmain, hne⟩ := hout.format h.readable hf
  have hmin := (avcStreamFormat_eq_ok.mp hf).1
  obtain ⟨rbsp, hcloses, rfl⟩ := hout
  rw [normalizeOutcome, if_neg (by omega),
    planMain_rewrite_iff.mpr ⟨hmax, rest, hne, h, hcloses⟩]
  simp only
  rw [keepMain, if_neg (by omega), hf]
  simp only [hmain, if_true]

/-- The three ways a call ends. -/
theorem normalizeOutcome_cases (nal : List UInt8) (cap : ℕ) :
    (∃ code < 0, normalizeOutcome nal cap = ⟨code, none, 0⟩) ∨
    (normalizeOutcome nal cap = ⟨0, some nal, 0⟩ ∧ nal.length ≤ 1024 ∧ IsMainSps nal) ∨
    ∃ start rest out, normalizeOutcome nal cap = ⟨0, some out, 1⟩ ∧
      nal.length ≤ 1024 ∧ PlainHigh nal start rest ∧ Rewrites nal out start rest ∧
      Accepted out := by
  unfold normalizeOutcome
  by_cases hsmall : cap < 5
  · rw [if_pos hsmall]
    exact .inl ⟨-1, by decide, rfl⟩
  · rw [if_neg hsmall]
    cases hplan : planMain nal with
    | error code => exact .inl ⟨code, planMain_error hplan, rfl⟩
    | ok plan =>
        cases plan with
        | copy =>
            simp only
            split
            · exact .inl ⟨-1, by decide, rfl⟩
            · exact .inr (.inl ⟨rfl, planMain_copy_iff.mp hplan⟩)
        | rewrite bytes start =>
            obtain ⟨hmax, rest, -, hhigh, hcloses⟩ := planMain_rewrite_iff.mp hplan
            simp only [keepMain]
            split
            · exact .inl ⟨-1, by decide, rfl⟩
            · split
              · exact .inl ⟨-1, by decide, rfl⟩
              · rename_i f hf
                split
                · exact .inr (.inr ⟨start, rest, _, rfl, hmax, hhigh,
                    ⟨bytes, hcloses, rfl⟩, f, hf⟩)
                · exact .inl ⟨-1, by decide, rfl⟩

theorem IsRbsp.unique {t : UInt8} {rbsp' : List UInt8} (h : IsRbsp nal t rbsp)
    (h' : IsRbsp nal t rbsp') : rbsp = rbsp' :=
  Option.some.inj (h.2.symm.trans h'.2)

/-- A unit is a High parameter set in one way. -/
theorem PlainHigh.unique {start' : SpsStart} {rest' : List Bool}
    (h : PlainHigh nal start rest) (h' : PlainHigh nal start' rest') :
    start = start' ∧ rest = rest' := by
  obtain ⟨rbsp, hrbsp, hpayload⟩ := h.payload
  obtain ⟨rbsp', hrbsp', hpayload'⟩ := h'.payload
  rw [hrbsp'.unique hrbsp] at hpayload'
  have hbits := hpayload.unique hpayload'
  simp only [SpsStart.encode, List.append_assoc] at hbits
  obtain ⟨hprofile, hbits⟩ := List.append_inj hbits (by simp)
  obtain ⟨hconstraints, hbits⟩ := List.append_inj hbits (by simp)
  obtain ⟨hlevel, hbits⟩ := List.append_inj hbits (by simp)
  obtain ⟨hspsId, hbits⟩ := ueCode_append_inj hbits
  refine ⟨?_, List.append_cancel_left hbits⟩
  have hp := bitsOf_inj h.readable.profile h'.readable.profile hprofile
  have hc := bitsOf_inj h.readable.constraints h'.readable.constraints hconstraints
  have hl := bitsOf_inj h.readable.level h'.readable.level hlevel
  cases start
  cases start'
  simp_all

theorem Rewrites.unique {out' : List UInt8} (h : Rewrites nal out start rest)
    (h' : Rewrites nal out' start rest) : out = out' := by
  obtain ⟨rbsp, hcloses, rfl⟩ := h
  obtain ⟨rbsp', hcloses', rfl⟩ := h'
  rw [hcloses.unique hcloses']

/-! ## Every call -/

variable {b : Buffers} {dstSize converted : Option ℕ}

/-- What a call gives for a NAL unit of at most 1024 bytes. -/
structure NormalizeCall.Normalizes (r : NormalizeCall) (nal : List UInt8) (cap : ℕ) :
    Prop where
  main : Sufficient nal cap → nal.length ≤ 1024 → IsMainSps nal →
    r.code = 0 ∧ r.output = some nal ∧ r.converted = some 0
  high : Sufficient nal cap → nal.length ≤ 1024 →
    (r.code = 0 ∧ r.converted = some 1 ↔ ∃ start rest out,
      PlainHigh nal start rest ∧ Rewrites nal out start rest ∧ Accepted out)
  payload : r.code = 0 → r.converted = some 1 → ∃ start rest out,
    PlainHigh nal start rest ∧ r.output = some out ∧
      HasPayload out (start.main.encode ++ rest)
  again : r.code = 0 → ∃ out, r.output = some out ∧ ∀ (b' : Buffers) (cap' : ℕ),
    b'.Fit out.length cap' → b'.nal out.length = some out → b'.dst.isSome →
      out.length ≤ cap' → ∃ r',
        avcSpsNormalizeMain b' out.length cap' (some 0) (some 0) = some r' ∧
          r'.code = 0 ∧ r'.output = some out ∧ r'.converted = some 0

/-- A call gives the outcome of its NAL unit. -/
structure NormalizeCall.Gives (r : NormalizeCall) (o : NormalizeOutcome) : Prop where
  code : r.code = o.code
  converted : r.converted = some o.converted
  dstSize : r.dstSize = some ((o.output.map List.length).getD 0)
  output : ∀ out, o.output = some out → r.output = some out

/-- A call without a null pointer. -/
theorem avcSpsNormalizeMain_gives {nal : List UInt8} (hfit : b.Fit srcSize cap)
    (hnal : b.nal srcSize = some nal) (hdst : b.dst.isSome) (size flag : ℕ) :
    ∃ r, avcSpsNormalizeMain b srcSize cap (some size) (some flag) = some r ∧
      r.Gives (normalizeOutcome nal cap) := by
  obtain ⟨src, hsrc, rfl⟩ := Option.map_eq_some_iff.mp hnal
  obtain ⟨dst, hdst⟩ := Option.isSome_iff_exists.mp hdst
  obtain ⟨r, hr, hshows⟩ := normalizeMain_shows b.shared (hfit.src src hsrc)
    (hfit.dst dst hdst) fun hsame => by
      cases b with
      | apart src dst => cases hsame
      | same buffer => exact Option.some.inj (hdst.symm.trans hsrc)
  refine ⟨⟨r.code, b.setDst r.dst, some r.dstSize, some r.converted⟩, ?_,
    hshows.code, by rw [hshows.converted], by rw [hshows.leaves.size], ?_⟩
  · simp only [avcSpsNormalizeMain, hsrc, hdst, hr, Option.bind_eq_bind, Option.bind_some]
  · intro out hout
    have hsize := hshows.leaves.size
    rw [hout, Option.map_some, Option.getD_some] at hsize
    simp only [NormalizeCall.output, Buffers.dst_setDst, Option.map_some,
      Option.getD_some, hsize, hshows.leaves.output out hout]

/-- The output of a success is passed through. -/
theorem NormalizeCall.again_of_isMainSps {out : List UInt8} (h : IsMainSps out)
    (hmax : out.length ≤ 1024) {b' : Buffers} {cap' : ℕ} (hfit : b'.Fit out.length cap')
    (hnal : b'.nal out.length = some out) (hdst : b'.dst.isSome)
    (hcap : out.length ≤ cap') :
    ∃ r', avcSpsNormalizeMain b' out.length cap' (some 0) (some 0) = some r' ∧
      r'.code = 0 ∧ r'.output = some out ∧ r'.converted = some 0 := by
  obtain ⟨r, hr, hgives⟩ := avcSpsNormalizeMain_gives hfit hnal hdst 0 0
  rw [normalizeOutcome_of_isMainSps h hmax hcap] at hgives
  exact ⟨r, hr, hgives.code, hgives.output out rfl, hgives.converted⟩

theorem NormalizeCall.Gives.normalizes {r : NormalizeCall} {nal : List UInt8}
    (h : r.Gives (normalizeOutcome nal cap)) : r.Normalizes nal cap := by
  refine ⟨?_, ?_, ?_, ?_⟩
  · intro hcap hmax hmain
    rw [normalizeOutcome_of_isMainSps hmain hmax hcap.copied] at h
    exact ⟨h.code, h.output nal rfl, h.converted⟩
  · intro hcap hmax
    constructor
    · rintro ⟨hcode, hconverted⟩
      rcases normalizeOutcome_cases nal cap with ⟨code, hneg, heq⟩ | ⟨heq, -⟩ |
        ⟨start, rest, out, heq, -, hhigh, hout, haccepted⟩
      · rw [heq] at h
        rw [h.code] at hcode
        exact absurd hcode (Int.ne_of_lt hneg)
      · rw [heq] at h
        rw [h.converted] at hconverted
        cases hconverted
      · exact ⟨start, rest, out, hhigh, hout, haccepted⟩
    · rintro ⟨start, rest, out, hhigh, hout, haccepted⟩
      rw [normalizeOutcome_of_plainHigh hhigh hmax hout haccepted
        (hcap.rewritten start rest out hhigh hout)] at h
      exact ⟨h.code, h.converted⟩
  · intro hcode hconverted
    rcases normalizeOutcome_cases nal cap with ⟨code, hneg, heq⟩ | ⟨heq, -⟩ |
      ⟨start, rest, out, heq, -, hhigh, ⟨rbsp, hcloses, rfl⟩, haccepted⟩
    · rw [heq] at h
      rw [h.code] at hcode
      exact absurd hcode (Int.ne_of_lt hneg)
    · rw [heq] at h
      rw [h.converted] at hconverted
      cases hconverted
    · rw [heq] at h
      exact ⟨start, rest, _, hhigh, h.output _ rfl, rbsp,
        ⟨hhigh.header, unescape_escape rbsp⟩, hcloses.isPayload⟩
  · intro hcode
    rcases normalizeOutcome_cases nal cap with ⟨code, hneg, heq⟩ | ⟨heq, hmax, hmain⟩ |
      ⟨start, rest, out, heq, -, hhigh, hout, f, hf⟩
    · rw [heq] at h
      rw [h.code] at hcode
      exact absurd hcode (Int.ne_of_lt hneg)
    · rw [heq] at h
      exact ⟨nal, h.output nal rfl, fun b' cap' hfit hnal hdst hcap =>
        NormalizeCall.again_of_isMainSps hmain hmax hfit hnal hdst hcap⟩
    · rw [heq] at h
      have hmax := (avcStreamFormat_eq_ok.mp hf).2.1
      exact ⟨out, h.output out rfl, fun b' cap' hfit hnal hdst hcap =>
        NormalizeCall.again_of_isMainSps (hout.isMainSps hhigh) hmax hfit hnal hdst hcap⟩

theorem avcSpsNormalizeMain_null (h : ¬ (b.src.isSome ∧ b.dst.isSome ∧ dstSize.isSome ∧
    converted.isSome)) : avcSpsNormalizeMain b srcSize cap dstSize converted =
      some ⟨-1, b, dstSize.map fun _ => 0, converted.map fun _ => 0⟩ := by
  unfold avcSpsNormalizeMain
  split
  · rename_i hsrc hdst
    exact absurd ⟨by rw [hsrc]; rfl, by rw [hdst]; rfl, rfl, rfl⟩ h
  · rfl

/-- `avc_sps_normalize_main` passes Baseline and Main parameter sets through, spells
those High ones as Main that can be, and leaves zeros when it fails. -/
theorem avcSpsNormalizeMain_normalizes (hfit : b.Fit srcSize cap) :
    ∃ r, avcSpsNormalizeMain b srcSize cap dstSize converted = some r ∧
      (r.code ≠ 0 → r.dstSize = dstSize.map (fun _ => 0) ∧
        r.converted = converted.map fun _ => 0) ∧
      ∀ nal, b.nal srcSize = some nal → b.dst.isSome → dstSize.isSome →
        converted.isSome → r.Normalizes nal cap := by
  by_cases hnull : b.src.isSome ∧ b.dst.isSome ∧ dstSize.isSome ∧ converted.isSome
  · obtain ⟨hsrc, hdst, hsize, hflag⟩ := hnull
    obtain ⟨src, hsrc⟩ := Option.isSome_iff_exists.mp hsrc
    obtain ⟨size, rfl⟩ := Option.isSome_iff_exists.mp hsize
    obtain ⟨flag, rfl⟩ := Option.isSome_iff_exists.mp hflag
    have hnal : b.nal srcSize = some (src.take srcSize) := by rw [Buffers.nal, hsrc]; rfl
    obtain ⟨r, hr, hgives⟩ := avcSpsNormalizeMain_gives hfit hnal hdst size flag
    refine ⟨r, hr, ?_, ?_⟩
    · intro hfail
      rcases normalizeOutcome_cases (src.take srcSize) cap with ⟨code, -, heq⟩ |
        ⟨heq, -⟩ | ⟨start, rest, out, heq, -⟩
      · rw [heq] at hgives
        exact ⟨hgives.dstSize, hgives.converted⟩
      · rw [heq] at hgives
        exact absurd hgives.code hfail
      · rw [heq] at hgives
        exact absurd hgives.code hfail
    · intro nal hnal' _ _ _
      cases hnal.symm.trans hnal'
      exact hgives.normalizes
  · refine ⟨_, avcSpsNormalizeMain_null hnull, fun _ => ⟨rfl, rfl⟩, ?_⟩
    intro nal hnal hdst hsize hflag
    obtain ⟨src, hsrc, -⟩ := Option.map_eq_some_iff.mp hnal
    exact absurd ⟨by rw [hsrc]; rfl, hdst, hsize, hflag⟩ hnull

/-! ## Parameter sets of more than 1024 bytes -/

/-- A plain High parameter set of 160 by 144, with `n` more bytes of ones behind
the fields that are read. -/
def longHigh (n : ℕ) : List UInt8 :=
  [0x67, 100, 0, 30, 0xac, 0xb8, 0x50, 0x9d] ++ List.replicate n 0xff ++ [0xfe]

/-- The Main parameter set for it. -/
def longMain (n : ℕ) : List UInt8 :=
  [0x67, 77, 0, 30, 0xdc, 0x28, 0x4e, 0xff] ++ List.replicate n 0xff

theorem length_longHigh (n : ℕ) : (longHigh n).length = n + 9 := by
  simp [longHigh]

theorem length_longMain (n : ℕ) : (longMain n).length = n + 8 := by
  simp [longMain]

/-- The fields at its start, and the bits behind the High extension. -/
def longStart : SpsStart := ⟨100, 0, 30, 0⟩

def longRest (n : ℕ) : List Bool :=
  toBits [0xb8, 0x50, 0x9d] ++ List.replicate (8 * n) true ++ List.replicate 6 true

theorem toBits_replicate_ff (n : ℕ) :
    toBits (List.replicate n 0xff) = List.replicate (8 * n) true := by
  induction n with
  | zero => rfl
  | succ n ih =>
      rw [List.replicate_succ, toBits_cons, ih, Nat.mul_succ, Nat.add_comm,
        List.replicate_add]
      rfl

theorem longHigh_plainHigh (n : ℕ) : PlainHigh (longHigh n) longStart (longRest n) where
  readable := ⟨by decide, by decide, by decide, isUe_zero⟩
  spsId := by decide
  profile := rfl
  constraints := rfl
  payload := by
    refine ⟨(longHigh n).tail, ⟨show (0x67 : UInt8) &&& 0x9f = 7 by decide, ?_⟩, 1, ?_⟩
    · have hnonzero : 0 ∉ [(30 : UInt8), 0xac, 0xb8, 0x50, 0x9d] ++
          List.replicate n 0xff ++ [0xfe] := by
        simp [List.mem_replicate]
      have hescape : escape (longHigh n).tail = (longHigh n).tail := by
        have hback := escapeFrom_of_nonzero hnonzero (show 1 < 2 by decide)
        show 100 :: 0 :: escapeFrom 1 ([(30 : UInt8), 0xac, 0xb8, 0x50, 0x9d] ++
          List.replicate n 0xff ++ [0xfe]) = _
        rw [hback]
        rfl
      have hback := unescape_escape (longHigh n).tail
      rwa [hescape] at hback
    · have hbits : toBits (longHigh n).tail = toBits [100, 0, 30, 0xac] ++
          (toBits [0xb8, 0x50, 0x9d] ++ (toBits (List.replicate n 0xff) ++
            toBits [0xfe])) := by
        rw [← toBits_append, ← toBits_append, ← toBits_append]
        simp [longHigh]
      have hfront : toBits [100, 0, 30, 0xac] =
          longStart.encode ++ plainExtension := by decide
      have hback : toBits [0xfe] = List.replicate 6 true ++ [true, false] := by decide
      rw [hbits, toBits_replicate_ff, hfront, hback, longRest]
      simp only [List.append_assoc]
      rfl

theorem longMain_rewrites (n : ℕ) :
    Rewrites (longHigh n) (longMain n) longStart (longRest n) := by
  refine ⟨(longMain n).tail, ⟨0, by decide, ?_⟩, ?_⟩
  · have hbits : toBits (longMain n).tail = toBits [77, 0, 30, 0xdc, 0x28, 0x4e, 0xff] ++
        toBits (List.replicate n 0xff) := by
      rw [← toBits_append]
      rfl
    have hfront : toBits [77, 0, 30, 0xdc, 0x28, 0x4e, 0xff] =
        longStart.main.encode ++ (toBits [0xb8, 0x50, 0x9d] ++
          List.replicate 7 true) := by decide
    have hones : List.replicate 7 true ++ List.replicate (8 * n) true =
        List.replicate (8 * n) true ++ List.replicate 7 true := by
      rw [← List.replicate_add, ← List.replicate_add, Nat.add_comm]
    rw [hbits, toBits_replicate_ff, hfront, longRest]
    simp only [List.append_assoc, hones]
    rfl
  · have hnonzero : 0 ∉ [(30 : UInt8), 0xdc, 0x28, 0x4e, 0xff] ++
        List.replicate n 0xff := by
      simp [List.mem_replicate]
    have hback := escapeFrom_of_nonzero hnonzero (show 1 < 2 by decide)
    show longMain n = 0x67 :: 77 :: 0 :: escapeFrom 1
      ([(30 : UInt8), 0xdc, 0x28, 0x4e, 0xff] ++ List.replicate n 0xff)
    rw [hback]
    rfl

theorem longMain_accepted {n : ℕ} (h : n ≤ 1016) : Accepted (longMain n) := by
  obtain ⟨rbsp, hcloses, heq⟩ := longMain_rewrites n
  have hhead : (SpsHead.mk 77 0 30 0 0 .type2).Supported :=
    ⟨.inr rfl, by decide, by decide, by decide, by decide, trivial⟩
  have htail : (SpsTail.mk false 9 8 true none true).Supported :=
    ⟨by decide, by decide, by decide⟩
  have hlen := length_longMain n
  refine ⟨_, avcStreamFormat_eq_ok.mpr ⟨by omega, by omega, rbsp, _, 0, _,
    ⟨show (0x67 : UInt8) &&& 0x9f = 7 by decide, ?_⟩, hhead, by omega, htail, ?_, rfl⟩⟩
  · rw [heq]
    exact unescape_escape rbsp
  · obtain ⟨k, -, hbits⟩ := hcloses
    have hfields : (SpsHead.mk 77 0 30 0 0 .type2).encode ++
        (ueCode 0 ++ (SpsTail.mk false 9 8 true none true).encode) =
        longStart.main.encode ++ toBits [0xb8, 0x50, 0x9d] := by decide
    rw [hbits, hfields, longRest]
    simp only [List.append_assoc]
    rw [← List.append_assoc]
    exact List.prefix_append _ _

/-- A plain High parameter set of 1025 bytes is refused, although the Main one for it
is accepted. -/
theorem avcSpsNormalizeMain_refuses_long :
    ¬ ∀ (b : Buffers) (srcSize cap : ℕ) (nal : List UInt8) (r : NormalizeCall),
      b.Fit srcSize cap → b.nal srcSize = some nal → b.dst.isSome →
      Sufficient nal cap → avcSpsNormalizeMain b srcSize cap (some 0) (some 0) = some r →
      (r.code = 0 ∧ r.converted = some 1 ↔ ∃ start rest out,
        PlainHigh nal start rest ∧ Rewrites nal out start rest ∧ Accepted out) := by
  intro hclaim
  have hhigh := length_longHigh 1016
  have hmain := length_longMain 1016
  have hfit : (Buffers.same (some (longHigh 1016))).Fit 1025 1025 :=
    ⟨fun src hsrc => by cases hsrc; omega, fun dst hdst => by cases hdst; omega⟩
  have hnal : (Buffers.same (some (longHigh 1016))).nal 1025 = some (longHigh 1016) := by
    rw [Buffers.nal, Buffers.src, Option.map_some, List.take_of_length_le (by omega)]
  have hcap : Sufficient (longHigh 1016) 1025 := by
    refine ⟨by omega, fun start rest out h hout => ?_⟩
    obtain ⟨rfl, rfl⟩ := h.unique (longHigh_plainHigh 1016)
    rw [hout.unique (longMain_rewrites 1016)]
    omega
  obtain ⟨r, hr, hgives⟩ := avcSpsNormalizeMain_gives hfit hnal rfl 0 0
  have hone := ((hclaim _ _ _ _ r hfit hnal rfl hcap hr).mpr
    ⟨longStart, _, _, longHigh_plainHigh 1016, longMain_rewrites 1016,
      longMain_accepted (by omega)⟩).2
  rcases normalizeOutcome_cases (longHigh 1016) 1025 with ⟨code, -, heq⟩ |
    ⟨heq, -⟩ | ⟨start, rest, out, -, hmax, -⟩
  · rw [heq] at hgives
    rw [hgives.converted] at hone
    cases hone
  · rw [heq] at hgives
    rw [hgives.converted] at hone
    cases hone
  · omega

/-- In place, in a buffer of the size of the unit. -/
theorem avcSpsNormalizeMain_normalizes_longHigh :
    ∃ r, avcSpsNormalizeMain (.same (some (longHigh 0))) 9 9 (some 0) (some 0) = some r ∧
      r.code = 0 ∧ r.converted = some 1 ∧ r.Normalizes (longHigh 0) 9 := by
  have hfit : (Buffers.same (some (longHigh 0))).Fit 9 9 :=
    ⟨fun src hsrc => by cases hsrc; decide, fun dst hdst => by cases hdst; decide⟩
  obtain ⟨r, hr, -, h⟩ := @avcSpsNormalizeMain_normalizes 9 9 _ (some 0) (some 0) hfit
  have hnormalizes := h (longHigh 0) (by decide) rfl rfl rfl
  have hcap : Sufficient (longHigh 0) 9 := by
    refine ⟨by decide, fun start rest out h hout => ?_⟩
    obtain ⟨rfl, rfl⟩ := h.unique (longHigh_plainHigh 0)
    rw [hout.unique (longMain_rewrites 0)]
    decide
  obtain ⟨hcode, hconverted⟩ := (hnormalizes.high hcap (by decide)).mpr
    ⟨longStart, _, _, longHigh_plainHigh 0, longMain_rewrites 0,
      longMain_accepted (by omega)⟩
  exact ⟨r, hr, hcode, hconverted, hnormalizes⟩

end MoonlightPsp.Sps
