import MoonlightPsp.Sps.BitWriter
import MoonlightPsp.Sps.StreamFormat
import Mathlib.Data.Nat.Bitwise

/-!
# Limiting the reference frames

`avc_sps_limit_refs` writes a one for `max_num_ref_frames` where it is two to
four.  The code becomes shorter, and all the bits behind it move.
-/

namespace MoonlightPsp.Sps

open BitString EmulationPrevention StickyParser CheckedMemory

/-! ## The model -/

/-- The size of the least significant bits, which is only passed over. -/
def anyLsb : Parser Unit := do
  let _ ← ue
  pure ()

/-- The fields in front of `max_num_ref_frames`. -/
def refsPrefix : Parser Unit := do
  let profile ← readBits 8
  let _ ← readBits 8
  let _ ← readBits 8
  let _ ← ue
  rejectIf (profile ≠ 66 ∧ profile ≠ 77) (-1)
  let _ ← ue
  pocSyntax anyLsb
  rejectFailed (-1)

/-- `max_num_ref_frames`, and where its code starts and ends. -/
structure RefsField where
  start : ℕ
  stop : ℕ
  refs : ℕ

/-- Read up to `max_num_ref_frames`. -/
def findRefs (rbsp : List UInt8) : Option RefsField :=
  match refsPrefix (.start rbsp (rbsp.length * 8)) with
  | .error _ => none
  | .ok (_, b) =>
      match ue b with
      | .error _ => none
      | .ok (refs, b') =>
          if b'.bad ∨ refs > 4 then none else some ⟨b.pos, b'.pos, refs⟩

/-- The loop that takes the alignment zeros off. -/
def payloadLoop (bytes : List UInt8) : ℕ → ℕ
  | 0 => 0
  | n + 1 =>
      if (bytes.getD (n / 8) 0).toNat &&& (0x80 >>> (n % 8)) ≠ 0 then n + 1
      else payloadLoop bytes n

/-- What is put into `rewritten` in front of the stop bit. -/
def putLimited (rbsp : List UInt8) (f : RefsField) (payloadBits : ℕ)
    (w : BitBuffer) : Option BitBuffer := do
  let w ← copyBits rbsp 0 f.start w
  let w ← putBit 0 w
  let w ← putBit 1 w
  let w ← putBit 0 w
  copyBits rbsp f.stop payloadBits w

/-- The bytes of `rewritten`. -/
def limitedRbsp (rbsp : List UInt8) (f : RefsField) : Option (List UInt8) :=
  if payloadLoop rbsp (rbsp.length * 8) ≤ f.stop then none
  else closedBytes (putLimited rbsp f (payloadLoop rbsp (rbsp.length * 8) - 1))

/-- The comparison of the formats before and after. -/
def onlyRefsChanged (before after : StreamFormat) : Bool :=
  after.refs = 1 && before.profile = after.profile && before.level = after.level &&
    before.spsId = after.spsId && before.width = after.width &&
    before.height = after.height && before.codedWidth = after.codedWidth &&
    before.codedHeight = after.codedHeight && before.cropLeft = after.cropLeft &&
    before.cropTop = after.cropTop

/-- What the function returns, and what it leaves in the output buffer, in
`*dst_size` and in `*original_refs`. -/
structure Limited where
  code : ℤ
  dst : List UInt8
  dstSize : ℕ
  originalRefs : ℕ

/-- `return -1`. -/
def Limited.failed (dst : List UInt8) (refs : ℕ) : Limited := ⟨-1, dst, 0, refs⟩

/-- Write the bytes of `rewritten` and read back what has been written. -/
def writeLimited (header : UInt8) (rbsp dst : List UInt8) (cap refs : ℕ)
    (before : StreamFormat) : Option Limited := do
  match ← (writeUnit header rbsp dst cap).run with
  | .error dst => some (.failed dst refs)
  | .ok o => do
      let out ← slice o.dst 0 o.used
      match avcStreamFormat out with
      | .error _ => some (.failed o.dst refs)
      | .ok after =>
          if onlyRefsChanged before after then some ⟨0, o.dst, o.used, refs⟩
          else some (.failed o.dst refs)

/-- `avc_sps_limit_refs` behind the check of its arguments.  `shared` says that
`dst` is `src`. -/
def limitNal (shared : Bool) (nal dst : List UInt8) (cap : ℕ) : Option Limited :=
  match avcStreamFormat nal with
  | .error _ => some (.failed dst 0)
  | .ok before =>
      match rbspLoop (fun _ => false) 0 [] nal.tail with
      | none => some (.failed dst 0)
      | some rbsp =>
          match findRefs rbsp with
          | none => some (.failed dst 0)
          | some f =>
              if f.refs ≤ 1 then
                if nal.length > cap then some (.failed dst f.refs)
                else do
                  let dst ← copyNal shared nal dst
                  some ⟨0, dst, nal.length, f.refs⟩
              else
                match limitedRbsp rbsp f with
                | none => some (.failed dst f.refs)
                | some out => writeLimited (nal.headD 0) out dst cap f.refs before

/-- `avc_sps_limit_refs` with no null pointer among its arguments. -/
def limitRefs (shared : Bool) (src dst : List UInt8) (srcSize cap : ℕ) :
    Option Limited :=
  if srcSize < 5 ∨ srcSize > 1024 ∨ cap < 5 then some (.failed dst 0)
  else do
    let nal ← slice src 0 srcSize
    if nal.headD 0 &&& 0x9f ≠ 7 then some (.failed dst 0)
    else limitNal shared nal dst cap

/-- What a call returns, and what it leaves in memory. -/
structure LimitCall where
  code : ℤ
  buffers : Buffers
  dstSize : Option ℕ
  originalRefs : Option ℕ

/-- `avc_sps_limit_refs`. -/
def avcSpsLimitRefs (b : Buffers) (srcSize cap : ℕ) (dstSize originalRefs : Option ℕ) :
    Option LimitCall :=
  match b.src, b.dst, dstSize, originalRefs with
  | some src, some dst, some _, some _ => do
      let r ← limitRefs b.shared src dst srcSize cap
      some ⟨r.code, b.setDst r.dst, some r.dstSize, some r.originalRefs⟩
  | _, _, _, _ =>
      some ⟨-1, b, dstSize.map fun _ => 0, originalRefs.map fun _ => 0⟩

/-- The bytes of the output. -/
def LimitCall.output (r : LimitCall) : Option (List UInt8) :=
  r.buffers.dst.map (·.take (r.dstSize.getD 0))

/-! ## Finding the field -/

theorem parses_anyLsb : Parses anyLsb fun _ cs => ∃ v, IsUe v ∧ cs = ueCode v := by
  refine (parses_ue.bind fun _ => Parses.pure ()).congr fun _ cs => ?_
  constructor
  · rintro ⟨v, -, -, ⟨hv, rfl⟩, ⟨-, rfl⟩, rfl⟩
    exact ⟨v, hv, List.append_nil _⟩
  · rintro ⟨v, hv, rfl⟩
    exact ⟨v, _, [], ⟨hv, rfl⟩, ⟨rfl, rfl⟩, (List.append_nil _).symm⟩

/-- The fields in front of `max_num_ref_frames` can be read. -/
structure SpsHead.Readable (s : SpsHead) : Prop where
  profile : s.profile = 66 ∨ s.profile = 77
  constraints : s.constraints < 256
  level : s.level < 256
  spsId : IsUe s.spsId
  log2MaxFrameNum : IsUe s.log2MaxFrameNum
  poc : s.poc.Within IsUe

theorem isUe_of_lt {v : ℕ} (h : v < 256) : IsUe v := by
  unfold IsUe
  omega

theorem SpsHead.Supported.readable {s : SpsHead} (h : s.Supported) : s.Readable where
  profile := h.profile
  constraints := h.constraints.1
  level := h.level
  spsId := isUe_of_lt (Nat.lt_of_le_of_lt h.spsId (by decide))
  log2MaxFrameNum := isUe_of_lt (Nat.lt_of_le_of_lt h.log2MaxFrameNum (by decide))
  poc := by
    have hpoc := h.poc
    cases hs : s.poc with
    | type0 log2MaxLsb =>
        rw [hs] at hpoc
        have hle : log2MaxLsb ≤ 12 := hpoc
        exact isUe_of_lt (by omega)
    | type1 flag first second vs =>
        rw [hs] at hpoc
        exact hpoc
    | type2 => trivial

theorem parses_refsPrefix :
    Parses refsPrefix fun _ cs => ∃ s : SpsHead, s.Readable ∧ cs = s.encode := by
  refine (parses_byte.bind fun profile => parses_byte.bind fun _ =>
    parses_byte.bind fun _ => parses_ue.bind fun _ =>
    (parses_rejectIf (profile ≠ 66 ∧ profile ≠ 77) (-1)).bind fun _ =>
    parses_ue.bind fun _ => (parses_pocSyntax parses_anyLsb).bind fun _ =>
    parses_rejectFailed (-1)).congr fun _ cs => ?_
  constructor
  · rintro ⟨profile, -, -, ⟨-, rfl⟩, ⟨constraints, -, -, ⟨hconstraints, rfl⟩,
      ⟨level, -, -, ⟨hlevel, rfl⟩, ⟨spsId, -, -, ⟨hspsId, rfl⟩,
      ⟨-, -, -, ⟨hprofile, rfl⟩, ⟨log2MaxFrameNum, -, -, ⟨hlog, rfl⟩,
      ⟨-, -, -, ⟨poc, hpoc, rfl⟩, rfl, rfl⟩, rfl⟩, rfl⟩, rfl⟩, rfl⟩, rfl⟩, rfl⟩
    refine ⟨⟨profile, constraints, level, spsId, log2MaxFrameNum, poc⟩,
      ⟨?_, hconstraints, hlevel, hspsId, hlog, hpoc⟩, by simp [SpsHead.encode]⟩
    show profile = 66 ∨ profile = 77
    omega
  · rintro ⟨s, hs, rfl⟩
    have hprofile := hs.profile
    exact ⟨s.profile, _, _, ⟨by omega, rfl⟩, ⟨s.constraints, _, _,
      ⟨hs.constraints, rfl⟩, ⟨s.level, _, _, ⟨hs.level, rfl⟩,
      ⟨s.spsId, _, _, ⟨hs.spsId, rfl⟩, ⟨(), [], _, ⟨by omega, rfl⟩,
      ⟨s.log2MaxFrameNum, _, _, ⟨hs.log2MaxFrameNum, rfl⟩,
      ⟨(), _, [], ⟨s.poc, hs.poc, rfl⟩, rfl, rfl⟩, rfl⟩, rfl⟩, rfl⟩, rfl⟩, rfl⟩,
      by simp [SpsHead.encode]⟩

/-- The field is found where the syntax has it. -/
theorem findRefs_eq {rbsp : List UInt8} {head : SpsHead} {refs : ℕ}
    (hhead : head.Readable) (hrefs : refs ≤ 4)
    (h : head.encode ++ ueCode refs <+: toBits rbsp) :
    findRefs rbsp = some ⟨head.encode.length, (head.encode ++ ueCode refs).length,
      refs⟩ := by
  have hrest : Source.rest (Bits.start rbsp (rbsp.length * 8)) = toBits rbsp := by
    rw [rest_start (by omega), List.take_of_length_le (by simp; omega)]
  have hlen := h.length_le
  rw [length_toBits, List.length_append] at hlen
  have hprefix : head.encode <+: toBits rbsp := (List.prefix_append _ _).trans h
  obtain ⟨hparse, hgood⟩ := (parses_refsPrefix _ () _).mpr
    ⟨rfl, _, ⟨head, hhead, rfl⟩, hrest ▸ hprefix, rfl⟩
  have hcode : ueCode refs <+: Source.rest
      (Source.skip head.encode.length (Bits.start rbsp (rbsp.length * 8))) := by
    obtain ⟨ts, hts⟩ := h
    rw [Source.rest_skip, hrest, ← hts, List.append_assoc, List.drop_left]
    exact List.prefix_append _ _
  obtain ⟨hue, hgood'⟩ := (parses_ue _ refs _).mpr
    ⟨hgood, _, ⟨by omega, rfl⟩, hcode, rfl⟩
  have hbad : ¬ ((Source.skip (ueCode refs).length (Source.skip head.encode.length
      (Bits.start rbsp (rbsp.length * 8)))).bad = true ∨ refs > 4) := by
    rintro (hbad | hbig)
    · exact absurd hbad (by simpa [Source.failed] using hgood')
    · omega
  rw [findRefs, hparse]
  simp only [hue]
  rw [if_neg hbad]
  simp only [Source.skip, Bits.start, List.length_append, Nat.zero_add]
  rw [Nat.min_eq_left (by omega), Nat.min_eq_left (by omega)]

/-! ## The new bits -/

/-- The mask of the loop picks the same bit. -/
theorem and_mask_ne_zero (bytes : List UInt8) (n : ℕ) :
    (bytes.getD (n / 8) 0).toNat &&& (0x80 >>> (n % 8)) ≠ 0 ↔ bitAt bytes n ≠ 0 := by
  have hmask : 0x80 >>> (n % 8) = 2 ^ (7 - n % 8) := by
    have hall : ∀ i < 8, 0x80 >>> i = 2 ^ (7 - i) := by decide
    exact hall _ (Nat.mod_lt n (by decide))
  have hbit : bitAt bytes n ≠ 0 ↔
      (bytes.getD (n / 8) 0).toNat.testBit (7 - n % 8) = true := by
    rw [Nat.testBit, bitAt, Nat.and_comm]
    simp
  rw [hmask, Nat.and_two_pow, hbit]
  cases (bytes.getD (n / 8) 0).toNat.testBit (7 - n % 8) with
  | false => simp
  | true => simp

theorem payloadLoop_eq (bytes : List UInt8) (n : ℕ) :
    payloadLoop bytes n = ((stopLoop bytes n).map (· + 1)).getD 0 := by
  induction n with
  | zero => rfl
  | succ n ih =>
      rw [payloadLoop, stopLoop]
      by_cases hbit : bitAt bytes n ≠ 0
      · rw [if_pos hbit, if_pos ((and_mask_ne_zero bytes n).mpr hbit)]
        rfl
      · rw [if_neg hbit, if_neg fun h => hbit ((and_mask_ne_zero bytes n).mp h), ih]

theorem two_lt_length_ueCode {refs : ℕ} (h : 2 ≤ refs) : 3 ≤ (ueCode refs).length := by
  have hlog : 1 ≤ Nat.log2 (refs + 1) := by
    rw [Nat.le_log2 (by omega)]
    omega
  rw [length_ueCode]
  omega

/-- What is put in: the payload with one reference frame. -/
theorem puts_putLimited {rbsp : List UInt8} {pre post code : List Bool} (refs : ℕ)
    (h : pre ++ code ++ post <+: toBits rbsp) :
    Puts (putLimited rbsp ⟨pre.length, (pre ++ code).length, refs⟩
      (pre ++ code ++ post).length) (pre ++ (ueCode 1 ++ post)) := by
  have hlen := h.length_le
  have htake := List.prefix_iff_eq_take.mp h
  have hfirst : ((toBits rbsp).take pre.length).drop 0 = pre := by
    rw [List.drop_zero]
    rw [List.append_assoc] at h
    exact (List.prefix_iff_eq_take.mp ((List.prefix_append _ _).trans h)).symm
  have hsecond : ((toBits rbsp).take (pre ++ code ++ post).length).drop
      (pre ++ code).length = post := by
    rw [← htake, List.drop_left]
  rw [length_toBits] at hlen
  simp only [List.length_append] at hlen
  have hbetween : (pre ++ code).length ≤ (pre ++ code ++ post).length := by
    simp only [List.length_append]
    omega
  have hinside : (pre ++ code ++ post).length ≤ 8 * rbsp.length := by
    simp only [List.length_append]
    omega
  have hcopies := (puts_copyBits rbsp (Nat.zero_le pre.length) (by omega)).comp
    ((puts_putBit 0).comp ((puts_putBit 1).comp ((puts_putBit 0).comp
      (puts_copyBits rbsp hbetween hinside))))
  rw [hfirst, hsecond] at hcopies
  exact hcopies

/-- The payload with one reference frame, closed again. -/
theorem limitedRbsp_eq_some {rbsp out : List UInt8} {pre : List Bool} {refs : ℕ}
    (hlen : rbsp.length ≤ 1024) (hrefs : 2 ≤ refs)
    (hpre : pre ++ ueCode refs <+: toBits rbsp)
    (h : limitedRbsp rbsp ⟨pre.length, (pre ++ ueCode refs).length, refs⟩ = some out) :
    ∃ post, IsPayload (toBits rbsp) (pre ++ ueCode refs ++ post) ∧
      Closes out (pre ++ (ueCode 1 ++ post)) := by
  unfold limitedRbsp at h
  rw [payloadLoop_eq] at h
  cases hstop : stopLoop rbsp (rbsp.length * 8) with
  | none =>
      rw [hstop] at h
      simp at h
  | some stop =>
      rw [hstop, Option.map_some, Option.getD_some] at h
      split at h
      · cases h
      · rename_i hlt
        have hbehind : (pre ++ ueCode refs).length ≤ stop :=
          Nat.le_of_lt_succ (Nat.not_le.mp hlt)
        obtain ⟨hstop_lt, hpayload⟩ := stopLoop_some (by omega) hstop
        rw [List.take_of_length_le (by rw [length_toBits]; omega)] at hpayload
        have hfront : pre ++ ueCode refs <+: (toBits rbsp).take stop :=
          List.prefix_of_prefix_length_le hpre (List.take_prefix ..)
            (by rw [List.length_take, length_toBits]; omega)
        obtain ⟨post, hpost⟩ := hfront
        have hpieces := congrArg List.length hpost
        rw [List.length_take, length_toBits, Nat.min_eq_left (by omega)] at hpieces
        have hprefix : pre ++ ueCode refs ++ post <+: toBits rbsp := by
          rw [hpost]
          exact List.take_prefix ..
        have hputs := puts_putLimited refs hprefix
        rw [hpieces] at hputs
        have hcode := two_lt_length_ueCode hrefs
        have hshort : (pre ++ (ueCode 1 ++ post)).length < 1024 * 8 := by
          have hthree : (ueCode 1).length = 3 := by decide
          simp only [List.length_append] at hpieces ⊢
          omega
        obtain ⟨out', hout, hcloses⟩ := closedBytes_eq hputs hshort
        rw [Nat.add_sub_cancel, hout] at h
        cases h
        rw [← hpost] at hpayload
        exact ⟨post, hpayload, hcloses⟩

/-! ## Memory -/

/-- What a call gives: the bytes of the output if it succeeds, and the value for
`*original_refs`. -/
structure LimitOutcome where
  output : Option (List UInt8)
  refs : ℕ

/-- The output is kept if it fits and reads back as it should. -/
def keepLimited (before : StreamFormat) (cap : ℕ) (out : List UInt8) :
    Option (List UInt8) :=
  if out.length > cap then none
  else
    match avcStreamFormat out with
    | .error _ => none
    | .ok after => if onlyRefsChanged before after then some out else none

/-- What `avc_sps_limit_refs` gives on a NAL unit, wherever it lies and whatever
the output buffer held. -/
def limitOutcome (nal : List UInt8) (cap : ℕ) : LimitOutcome :=
  match avcStreamFormat nal with
  | .error _ => ⟨none, 0⟩
  | .ok before =>
      match rbspLoop (fun _ => false) 0 [] nal.tail with
      | none => ⟨none, 0⟩
      | some rbsp =>
          match findRefs rbsp with
          | none => ⟨none, 0⟩
          | some f =>
              if f.refs ≤ 1 then ⟨if nal.length > cap then none else some nal, f.refs⟩
              else
                ⟨(limitedRbsp rbsp f).bind fun out =>
                  keepLimited before cap (nalOf (nal.headD 0) out), f.refs⟩

/-- A call gives an outcome. -/
structure Limited.Shows (r : Limited) (o : LimitOutcome) (dst : List UInt8)
    (cap : ℕ) : Prop where
  code : r.code = if o.output.isSome then 0 else -1
  originalRefs : r.originalRefs = o.refs
  leaves : Leaves o.output dst cap r.dst r.dstSize

variable {nal src dst xs : List UInt8} {cap srcSize refs : ℕ} {shared : Bool}

theorem Limited.failed_shows (dst : List UInt8) (cap refs : ℕ) :
    (Limited.failed dst refs).Shows ⟨none, refs⟩ dst cap :=
  ⟨rfl, rfl, leaves_untouched dst cap⟩

theorem Limited.failed_overlay_shows (hxs : xs.length ≤ cap) (hcap : cap ≤ dst.length)
    (refs : ℕ) : (Limited.failed (overlay dst 0 xs) refs).Shows ⟨none, refs⟩ dst cap :=
  ⟨rfl, rfl, leaves_failed_overlay hxs hcap⟩

theorem writeLimited_shows {header : UInt8} {out : List UInt8} {before : StreamFormat}
    (hpos : 0 < cap) (hcap : cap ≤ dst.length) :
    ∃ r, writeLimited header out dst cap refs before = some r ∧
      r.Shows ⟨keepLimited before cap (nalOf header out), refs⟩ dst cap := by
  unfold writeLimited keepLimited
  by_cases hfits : (nalOf header out).length ≤ cap
  · rw [writeUnit_of_le hcap hfits, if_neg (by omega)]
    show ∃ r, (slice (overlay dst 0 (nalOf header out)) 0
      (nalOf header out).length >>= _) = some r ∧ _
    rw [slice_overlay (by omega)]
    simp only [Option.bind_eq_bind, Option.bind_some]
    cases avcStreamFormat (nalOf header out) with
    | error code => exact ⟨_, rfl, Limited.failed_overlay_shows hfits hcap refs⟩
    | ok after =>
        cases honly : onlyRefsChanged before after with
        | true =>
            simp only [honly, if_true]
            exact ⟨_, rfl, rfl, rfl, leaves_overlay hfits hcap⟩
        | false =>
            simp only [honly]
            exact ⟨_, rfl, Limited.failed_overlay_shows hfits hcap refs⟩
  · rw [writeUnit_of_lt hcap hpos (by omega), if_pos (by omega)]
    have htake : ((nalOf header out).take cap).length ≤ cap := by
      rw [List.length_take]
      omega
    exact ⟨_, rfl, Limited.failed_overlay_shows htake hcap refs⟩

theorem limitNal_shows (hpos : 0 < cap) (hcap : cap ≤ dst.length)
    (hshared : shared = true → dst.take nal.length = nal) :
    ∃ r, limitNal shared nal dst cap = some r ∧
      r.Shows (limitOutcome nal cap) dst cap := by
  unfold limitNal limitOutcome
  cases avcStreamFormat nal with
  | error code => exact ⟨_, rfl, Limited.failed_shows dst cap 0⟩
  | ok before =>
      cases rbspLoop (fun _ => false) 0 [] nal.tail with
      | none => exact ⟨_, rfl, Limited.failed_shows dst cap 0⟩
      | some rbsp =>
          simp only
          cases findRefs rbsp with
          | none => exact ⟨_, rfl, Limited.failed_shows dst cap 0⟩
          | some f =>
              simp only
              by_cases hrefs : f.refs ≤ 1
              · rw [if_pos hrefs, if_pos hrefs]
                by_cases hlong : nal.length > cap
                · rw [if_pos hlong, if_pos hlong]
                  exact ⟨_, rfl, Limited.failed_shows dst cap f.refs⟩
                · rw [if_neg hlong, if_neg hlong]
                  obtain ⟨dst', hcopy, hleaves⟩ :=
                    copyNal_leaves shared (Nat.not_lt.mp hlong) hcap hshared
                  rw [hcopy]
                  exact ⟨_, rfl, rfl, rfl, hleaves⟩
              · rw [if_neg hrefs, if_neg hrefs]
                cases limitedRbsp rbsp f with
                | none => exact ⟨_, rfl, Limited.failed_shows dst cap f.refs⟩
                | some out => exact writeLimited_shows hpos hcap

/-! ## The outcome -/

/-- In the payload of `out` the code of `max_num_ref_frames` is that of one, and
else the payload is that of `nal`.  It is closed with a stop bit and zeros up to
the byte border. -/
structure RefsReplaced (nal out : List UInt8) (refs : ℕ) (head : SpsHead)
    (post : List Bool) : Prop where
  header : out.headD 0 = nal.headD 0
  before : ∃ rbsp, IsRbsp nal 7 rbsp ∧
    IsPayload (toBits rbsp) (head.encode ++ ueCode refs ++ post)
  after : ∃ rbsp, IsRbsp out 7 rbsp ∧
    Closes rbsp (head.encode ++ (ueCode 1 ++ post))

/-- The output of a success. -/
structure IsLimited (nal out : List UInt8) (refs : ℕ) (before : StreamFormat) :
    Prop where
  accepted : avcStreamFormat nal = .ok before
  profile : before.profile = 66 ∨ before.profile = 77
  original : before.refs = refs ∧ refs ≤ 4
  copied : refs ≤ 1 → out = nal
  format : 2 ≤ refs → avcStreamFormat out = .ok { before with refs := 1 }
  replaced : 2 ≤ refs → ∃ head post, head.Supported ∧
    RefsReplaced nal out refs head post

variable {out : List UInt8} {before after : StreamFormat}

theorem eq_of_onlyRefsChanged (h : onlyRefsChanged before after = true) :
    after = { before with refs := 1 } := by
  simp only [onlyRefsChanged, Bool.and_eq_true, decide_eq_true_eq] at h
  obtain ⟨⟨⟨⟨⟨⟨⟨⟨⟨hrefs, hprofile⟩, hlevel⟩, hid⟩, hwidth⟩, hheight⟩, hcwidth⟩, hcheight⟩,
    hleft⟩, htop⟩ := h
  cases after
  simp_all

theorem keepLimited_eq_some (h : keepLimited before cap xs = some out) :
    out = xs ∧ avcStreamFormat xs = .ok { before with refs := 1 } := by
  unfold keepLimited at h
  split at h
  · cases h
  · split at h
    · cases h
    · rename_i after hafter
      split at h
      · rename_i honly
        cases h
        rw [eq_of_onlyRefsChanged honly] at hafter
        exact ⟨rfl, hafter⟩
      · cases h

theorem isRbsp_nalOf {header nalType : UInt8} (h : header &&& 0x9f = nalType)
    (rbsp : List UInt8) : IsRbsp (nalOf header rbsp) nalType rbsp :=
  ⟨h, unescape_escape rbsp⟩

/-- What is found in a unit that `avc_stream_format` accepts. -/
theorem findRefs_of_accepted (h : avcStreamFormat nal = .ok before) :
    ∃ (rbsp : List UInt8) (head : SpsHead), IsRbsp nal 7 rbsp ∧ rbsp.length ≤ 1024 ∧ head.Supported ∧
      (before.profile = 66 ∨ before.profile = 77) ∧ before.refs ≤ 4 ∧
      head.encode ++ ueCode before.refs <+: toBits rbsp ∧
      rbspLoop (fun _ => false) 0 [] nal.tail = some rbsp ∧
      findRefs rbsp = some ⟨head.encode.length,
        (head.encode ++ ueCode before.refs).length, before.refs⟩ := by
  obtain ⟨-, hmax, rbsp, head, refs, tail, hrbsp, hhead, hrefs, -, hprefix, rfl⟩ :=
    avcStreamFormat_eq_ok.mp h
  have hfront : head.encode ++ ueCode refs <+: toBits rbsp := by
    rw [← List.append_assoc] at hprefix
    exact (List.prefix_append _ _).trans hprefix
  have hlen := length_le_of_unescape hrbsp.2
  rw [List.length_tail] at hlen
  have hloop : rbspLoop (fun _ => false) 0 [] nal.tail = some rbsp := by
    rw [rbspLoop_eq nal.tail.length (fun _ _ => rfl) (by simp), ← unescape,
      hrbsp.2]
    simp
  exact ⟨rbsp, head, hrbsp, by omega, hhead, hhead.profile, hrefs, hfront, hloop,
    findRefs_eq hhead.readable hrefs hfront⟩

theorem limitOutcome_eq_some (h : (limitOutcome nal cap).output = some out) :
    ∃ before, IsLimited nal out (limitOutcome nal cap).refs before := by
  cases haccept : avcStreamFormat nal with
  | error code =>
      rw [limitOutcome, haccept] at h
      cases h
  | ok before =>
      obtain ⟨rbsp, head, hrbsp, hlen, hhead, hprofile, hrefs, hfront, hloop, hfind⟩ :=
        findRefs_of_accepted haccept
      simp only [limitOutcome, haccept, hloop, hfind] at h ⊢
      by_cases hone : before.refs ≤ 1
      · rw [if_pos hone] at h ⊢
        simp only at h ⊢
        split at h
        · cases h
        · cases h
          exact ⟨before, haccept, hprofile, ⟨rfl, hrefs⟩, fun _ => rfl, by omega,
            by omega⟩
      · rw [if_neg hone] at h ⊢
        simp only at h ⊢
        obtain ⟨bytes, hbytes, hkeep⟩ := Option.bind_eq_some_iff.mp h
        obtain ⟨rfl, hafter⟩ := keepLimited_eq_some hkeep
        obtain ⟨post, hpayload, hcloses⟩ :=
          limitedRbsp_eq_some hlen (by omega) hfront hbytes
        refine ⟨before, haccept, hprofile, ⟨rfl, hrefs⟩, by omega, fun _ => hafter,
          fun _ => ⟨head, post, hhead, rfl, ⟨rbsp, hrbsp, hpayload⟩,
            ⟨bytes, isRbsp_nalOf hrbsp.1 bytes, hcloses⟩⟩⟩

/-! ## Every call -/

/-- What a call gives on a NAL unit, with the checks of the sizes and the header. -/
def checkedOutcome (nal : List UInt8) (cap : ℕ) : LimitOutcome :=
  if nal.length < 5 ∨ nal.length > 1024 ∨ cap < 5 ∨ nal.headD 0 &&& 0x9f ≠ 7 then
    ⟨none, 0⟩
  else limitOutcome nal cap

theorem checkedOutcome_eq_some (h : (checkedOutcome nal cap).output = some out) :
    ∃ before, IsLimited nal out (checkedOutcome nal cap).refs before := by
  unfold checkedOutcome at h ⊢
  split at h
  · cases h
  · rename_i hgood
    rw [if_neg hgood]
    exact limitOutcome_eq_some h

theorem limitRefs_shows (shared : Bool) (hsrc : srcSize ≤ src.length) (hcap : cap ≤ dst.length)
    (hshared : shared = true → dst = src) :
    ∃ r, limitRefs shared src dst srcSize cap = some r ∧
      r.Shows (checkedOutcome (src.take srcSize) cap) dst cap := by
  have hlen : (src.take srcSize).length = srcSize := by
    rw [List.length_take]
    omega
  unfold limitRefs checkedOutcome
  rw [hlen]
  by_cases hbad : srcSize < 5 ∨ srcSize > 1024 ∨ cap < 5
  · rw [if_pos hbad, if_pos (by omega)]
    exact ⟨_, rfl, Limited.failed_shows dst cap 0⟩
  · rw [if_neg hbad, slice_eq (by omega), List.drop_zero]
    simp only [Option.bind_eq_bind, Option.bind_some]
    by_cases hheader : (src.take srcSize).headD 0 &&& 0x9f ≠ 7
    · rw [if_pos hheader, if_pos (by tauto)]
      exact ⟨_, rfl, Limited.failed_shows dst cap 0⟩
    · rw [if_neg hheader, if_neg (by tauto)]
      refine limitNal_shows (by omega) hcap fun hsame => ?_
      rw [hlen, hshared hsame]

variable {b : Buffers} {dstSize originalRefs : Option ℕ}

/-- No pointer is null. -/
def NonNull (b : Buffers) (dstSize originalRefs : Option ℕ) : Prop :=
  b.src.isSome ∧ b.dst.isSome ∧ dstSize.isSome ∧ originalRefs.isSome

/-- A call with a null pointer fails at once. -/
theorem avcSpsLimitRefs_null (h : ¬ NonNull b dstSize originalRefs) :
    avcSpsLimitRefs b srcSize cap dstSize originalRefs =
      some ⟨-1, b, dstSize.map fun _ => 0, originalRefs.map fun _ => 0⟩ := by
  unfold avcSpsLimitRefs
  split
  · rename_i hsrc hdst
    exact absurd ⟨by rw [hsrc]; rfl, by rw [hdst]; rfl, rfl, rfl⟩ h
  · rfl

/-- Any other call gives the outcome of its NAL unit. -/
theorem avcSpsLimitRefs_shows (hfit : b.Fit srcSize cap)
    (h : NonNull b dstSize originalRefs) :
    ∃ (src dst : List UInt8) (r : Limited), b.src = some src ∧ b.dst = some dst ∧
      avcSpsLimitRefs b srcSize cap dstSize originalRefs =
        some ⟨r.code, b.setDst r.dst, some r.dstSize, some r.originalRefs⟩ ∧
      r.Shows (checkedOutcome (src.take srcSize) cap) dst cap := by
  obtain ⟨hsrc, hdst, hsize, hrefs⟩ := h
  obtain ⟨src, hsrc⟩ := Option.isSome_iff_exists.mp hsrc
  obtain ⟨dst, hdst⟩ := Option.isSome_iff_exists.mp hdst
  obtain ⟨size, rfl⟩ := Option.isSome_iff_exists.mp hsize
  obtain ⟨refs, rfl⟩ := Option.isSome_iff_exists.mp hrefs
  obtain ⟨r, hr, hshows⟩ := limitRefs_shows b.shared (hfit.src src hsrc)
    (hfit.dst dst hdst) fun hsame => by
      cases b with
      | apart src dst => cases hsame
      | same buffer => exact Option.some.inj (hdst.symm.trans hsrc)
  refine ⟨src, dst, r, hsrc, hdst, ?_, hshows⟩
  simp only [avcSpsLimitRefs, hsrc, hdst, hr, Option.bind_eq_bind, Option.bind_some]

/-- Two calls give the same result: the same codes and values, and on success the
same bytes. -/
structure LimitCall.SameResult (r r' : LimitCall) : Prop where
  code : r.code = r'.code
  dstSize : r.dstSize = r'.dstSize
  originalRefs : r.originalRefs = r'.originalRefs
  output : r.code = 0 → r.output = r'.output

/-- What holds of a call. -/
structure LimitCall.Correct (r : LimitCall) (b : Buffers) (srcSize cap : ℕ)
    (dstSize : Option ℕ) : Prop where
  kept : r.buffers.dst.map (·.drop cap) = b.dst.map (·.drop cap)
  source : b.shared = false → r.buffers.src = b.src
  failed : r.code ≠ 0 → r.dstSize = dstSize.map fun _ => 0
  limited : r.code = 0 → ∃ nal out refs before, b.nal srcSize = some nal ∧
    r.output = some out ∧ r.originalRefs = some refs ∧
    IsLimited nal out refs before

theorem LimitCall.correct_of_shows {r : Limited} (hsrc : b.src = some src)
    (hdst : b.dst = some dst) (hsize : dstSize.isSome)
    (h : r.Shows (checkedOutcome (src.take srcSize) cap) dst cap) :
    (LimitCall.mk r.code (b.setDst r.dst) (some r.dstSize)
      (some r.originalRefs)).Correct b srcSize cap dstSize := by
  obtain ⟨size, rfl⟩ := Option.isSome_iff_exists.mp hsize
  have hcode := h.code
  refine ⟨?_, ?_, ?_, ?_⟩
  · simp only [Buffers.dst_setDst, hdst, Option.map_some, h.leaves.kept]
  · intro hshared
    cases b with
    | apart src dst => rfl
    | same buffer => cases hshared
  · intro hfail
    have hnone : (checkedOutcome (src.take srcSize) cap).output = none := by
      rw [← Option.not_isSome_iff_eq_none]
      intro hsome
      rw [hcode, if_pos hsome] at hfail
      exact hfail rfl
    rw [h.leaves.size, hnone]
    rfl
  · intro hok
    have hsome : (checkedOutcome (src.take srcSize) cap).output.isSome := by
      by_contra hnone
      rw [hcode, if_neg hnone] at hok
      cases hok
    obtain ⟨out, hout⟩ := Option.isSome_iff_exists.mp hsome
    obtain ⟨before, hlimited⟩ := checkedOutcome_eq_some hout
    have hsize := h.leaves.size
    rw [hout, Option.map_some, Option.getD_some] at hsize
    refine ⟨src.take srcSize, out, _, before, by rw [Buffers.nal, hsrc]; rfl, ?_, rfl,
      h.originalRefs ▸ hlimited⟩
    rw [LimitCall.output, Buffers.dst_setDst, Option.map_some, Option.getD_some, hsize,
      h.leaves.output out hout]

/-- Calls on the same NAL unit give the same result. -/
theorem LimitCall.sameResult_of_shows {b' : Buffers} {dst' : List UInt8} {r r' : Limited}
    {o : LimitOutcome} (h : r.Shows o dst cap) (h' : r'.Shows o dst' cap) :
    (LimitCall.mk r.code (b.setDst r.dst) (some r.dstSize)
      (some r.originalRefs)).SameResult
    ⟨r'.code, b'.setDst r'.dst, some r'.dstSize, some r'.originalRefs⟩ := by
  refine ⟨by rw [h.code, h'.code], by rw [h.leaves.size, h'.leaves.size],
    by rw [h.originalRefs, h'.originalRefs], ?_⟩
  intro hok
  have hsome : o.output.isSome := by
    by_contra hnone
    have hcode := h.code
    rw [if_neg hnone] at hcode
    rw [hcode] at hok
    cases hok
  obtain ⟨out, hout⟩ := Option.isSome_iff_exists.mp hsome
  have hsize := h.leaves.size
  have hsize' := h'.leaves.size
  rw [hout, Option.map_some, Option.getD_some] at hsize hsize'
  simp only [LimitCall.output, Buffers.dst_setDst, Option.map_some, Option.getD_some,
    hsize, hsize', h.leaves.output out hout, h'.leaves.output out hout]

/-- `avc_sps_limit_refs` changes `max_num_ref_frames` and nothing else, writes
nothing behind the capacity, and gives the same wherever its output lies. -/
theorem avcSpsLimitRefs_limits (hfit : b.Fit srcSize cap) :
    ∃ r, avcSpsLimitRefs b srcSize cap dstSize originalRefs = some r ∧
      r.Correct b srcSize cap dstSize ∧
      ∀ b' : Buffers, b'.Fit srcSize cap → b'.nal srcSize = b.nal srcSize →
        b'.dst.isSome = b.dst.isSome →
        ∃ r', avcSpsLimitRefs b' srcSize cap dstSize originalRefs = some r' ∧
          r.SameResult r' := by
  by_cases hnull : NonNull b dstSize originalRefs
  · obtain ⟨src, dst, r, hsrc, hdst, hcall, hshows⟩ := avcSpsLimitRefs_shows hfit hnull
    refine ⟨_, hcall, LimitCall.correct_of_shows hsrc hdst hnull.2.2.1 hshows, ?_⟩
    intro b' hfit' hnal hdst'
    have hsrc' : b'.src.isSome := by
      have := congrArg Option.isSome hnal
      simp only [Buffers.nal, Option.isSome_map] at this
      rw [this]
      exact hnull.1
    obtain ⟨src', dst', r', hsrc', -, hcall', hshows'⟩ := avcSpsLimitRefs_shows hfit'
      ⟨hsrc', by rw [hdst']; exact hnull.2.1, hnull.2.2⟩
    have htake : src'.take srcSize = src.take srcSize := by
      rw [Buffers.nal, Buffers.nal, hsrc, hsrc'] at hnal
      exact Option.some.inj hnal
    rw [htake] at hshows'
    exact ⟨_, hcall', LimitCall.sameResult_of_shows hshows hshows'⟩
  · refine ⟨_, avcSpsLimitRefs_null hnull, ⟨rfl, fun _ => rfl, fun _ => rfl, ?_⟩, ?_⟩
    · intro hok
      cases hok
    · intro b' _ hnal hdst'
      have hnull' : ¬ NonNull b' dstSize originalRefs := by
        have hsome := congrArg Option.isSome hnal
        simp only [Buffers.nal, Option.isSome_map] at hsome
        unfold NonNull at hnull ⊢
        rwa [hsome, hdst']
      exact ⟨_, avcSpsLimitRefs_null hnull', rfl, rfl, rfl, fun hok => by cases hok⟩

/-- A Baseline parameter set of 160 by 144 with four reference frames. -/
def fourRefs : List UInt8 := [0x67, 66, 0, 30, 217, 66, 132, 228]

/-- In place, in a buffer that the unit fills. -/
theorem avcSpsLimitRefs_limits_fourRefs :
    ∃ r, avcSpsLimitRefs (.same (some fourRefs)) 8 8 (some 0) (some 0) = some r ∧
      r.code = 0 ∧ r.Correct (.same (some fourRefs)) 8 8 (some 0) := by
  have hfit : (Buffers.same (some fourRefs)).Fit 8 8 :=
    ⟨by simp [Buffers.src, fourRefs], by simp [Buffers.dst, fourRefs]⟩
  obtain ⟨r, hr, hcorrect, -⟩ := @avcSpsLimitRefs_limits 8 8 _ (some 0) (some 0) hfit
  have hcode : (avcSpsLimitRefs (.same (some fourRefs)) 8 8 (some 0) (some 0)).map
      LimitCall.code = some 0 := by decide +kernel
  rw [hr] at hcode
  exact ⟨r, hr, Option.some.inj hcode, hcorrect⟩

end MoonlightPsp.Sps
