import MoonlightPsp.Detector.VuiFields

/-!
# The contract check of the sequence parameter set

On the first sequence parameter set that `avc_stream_format` accepts, the contract check
takes the references that are reported, unless too many or too long offsets of the picture
order count lead the second parser to another number.
-/

namespace MoonlightPsp.Detector

open BitString StickyParser
open Sps (PocSyntax SpsHead SpsTail IsRbsp StreamFormat avcStreamFormat)

/-! ## The bytes that are looked at -/

/-- The payload is unescaped up to the end of the buffer. -/
theorem nalPayloadToRbsp_eq (cap : ℕ) (out l : List UInt8) :
    nalPayloadToRbsp cap out l = out ++ (rawRbsp l).take (cap - out.length) := by
  have hfull : ∀ {out : List UInt8}, out.length ≥ cap → ∀ l : List UInt8,
      out = out ++ l.take (cap - out.length) := fun h l => by
    rw [Nat.sub_eq_zero_of_le h, List.take_zero, List.append_nil]
  have hone : ∀ {out : List UInt8}, ¬ out.length ≥ cap → ∀ (a : UInt8) (l : List UInt8),
      (out ++ [a]) ++ l.take (cap - (out ++ [a]).length) =
        out ++ (a :: l).take (cap - out.length) := fun {out} h a l => by
    rw [List.length_append, List.length_singleton,
      show cap - out.length = cap - (out.length + 1) + 1 by omega, List.take_succ_cons,
      List.append_assoc, List.singleton_append]
  induction l using rawRbsp.induct generalizing out with
  | case1 a b c l hescape ih =>
      obtain ⟨rfl, rfl, rfl⟩ := hescape
      rw [nalPayloadToRbsp, rawRbsp_escape]
      split
      · exact hfull ‹_› _
      · rename_i hroom
        rw [if_pos ⟨rfl, rfl, rfl⟩, ← hone hroom]
        split
        · exact hfull (by simpa using ‹_›) _
        · rename_i hroom'
          rw [ih, ← hone (by simpa using hroom')]
          simp only [List.append_assoc, List.cons_append, List.nil_append]
  | case2 a b c l hescape ih =>
      rw [nalPayloadToRbsp, rawRbsp, if_neg hescape, if_neg hescape]
      split
      · exact hfull ‹_› _
      · rename_i hroom
        rw [ih, hone hroom]
  | case3 l hshort =>
      rw [rawRbsp.eq_2 l hshort]
      induction l generalizing out with
      | nil => simp [nalPayloadToRbsp]
      | cons a l ih =>
          have hrec : nalPayloadToRbsp cap out (a :: l) =
              if out.length ≥ cap then out else nalPayloadToRbsp cap (out ++ [a]) l := by
            rcases l with - | ⟨b, - | ⟨c, l⟩⟩
            · rfl
            · rfl
            · exact absurd rfl (hshort a b c l)
          rw [hrec]
          split
          · exact hfull ‹_› _
          · rename_i hroom
            rw [ih fun x y z rest h => hshort a x y (z :: rest) (by rw [h]), hone hroom]

variable {rbsp : List UInt8}

/-- The meaningful bits reach to every one. -/
theorem lt_rbspMeaningfulBits {i : ℕ} (h : (toBits rbsp)[i]? = some true) :
    i < rbspMeaningfulBits rbsp := by
  have hbits : rbsp.length * 8 = (toBits rbsp).length := by
    rw [length_toBits, Nat.mul_comm]
  rw [rbspMeaningfulBits]
  cases hstop : Sps.stopLoop rbsp (rbsp.length * 8) with
  | none =>
      have hzero := Sps.stopLoop_none (by omega) hstop
      rw [hbits, List.take_length] at hzero
      have hmem := List.mem_of_getElem? h
      rw [hzero, List.mem_replicate] at hmem
      cases hmem.2
  | some stop =>
      obtain ⟨hlt, zeros, hpayload⟩ := Sps.stopLoop_some (by omega) hstop
      rw [hbits, List.take_length] at hpayload
      rw [hpayload] at h
      show i < stop + 1
      by_contra hge
      have hlen : ((toBits rbsp).take stop).length = stop := by
        rw [List.length_take]
        omega
      rw [List.getElem?_append_right (by omega), hlen,
        show i - stop = i - stop - 1 + 1 by omega, List.getElem?_cons_succ] at h
      have hmem := List.mem_of_getElem? h
      rw [List.mem_replicate] at hmem
      cases hmem.2

theorem rbspMeaningfulBits_le (rbsp : List UInt8) :
    rbspMeaningfulBits rbsp ≤ 8 * rbsp.length := by
  rw [rbspMeaningfulBits]
  cases hstop : Sps.stopLoop rbsp (rbsp.length * 8) with
  | none => exact Nat.zero_le _
  | some stop =>
      have hlt := (Sps.stopLoop_some (by omega) hstop).1
      show stop + 1 ≤ _
      omega

/-- A word that ends with a one lies in the meaningful bits. -/
theorem isPrefix_meaningful {cs : List Bool} (h : cs ++ [true] <+: toBits rbsp) :
    cs ++ [true] <+: (toBits rbsp).take (rbspMeaningfulBits rbsp) := by
  refine List.prefix_take_iff.mpr ⟨h, ?_⟩
  obtain ⟨ts, hts⟩ := h
  have hone : (toBits rbsp)[cs.length]? = some true := by
    rw [← hts, List.append_assoc, List.getElem?_append_right (Nat.le_refl _), Nat.sub_self]
    rfl
  have hlt := lt_rbspMeaningfulBits hone
  rw [List.length_append, List.length_singleton]
  omega

/-- The first byte is the number that the bits begin with. -/
theorem getD_of_isPrefix {v : ℕ} (hv : v < 256) (h : bitsOf 8 v <+: toBits rbsp) :
    (rbsp.getD 0 0).toNat = v := by
  obtain ⟨ts, hts⟩ := h
  match rbsp with
  | [] =>
      have hlen := congrArg List.length hts
      rw [List.length_append, length_bitsOf, toBits_nil, List.length_nil] at hlen
      omega
  | x :: rbsp =>
      rw [toBits_cons] at hts
      obtain ⟨hbyte, -⟩ := List.append_inj hts (by rw [length_bitsOf, length_byteBits])
      exact (bitsOf_inj hv x.toNat_lt hbyte).symm

/-! ## The beginning of an accepted payload -/

/-- A parameter set that is accepted. -/
structure Accepted (nal rbsp : List UInt8) (head : SpsHead) (refs : ℕ) (tail : SpsTail) :
    Prop where
  isRbsp : IsRbsp nal 7 rbsp
  headSupported : head.Supported
  refs_le : refs ≤ 4
  tailSupported : tail.Supported
  word : head.encode ++ (ueCode refs ++ tail.encode) <+: toBits rbsp

/-- What the check has of a payload with zeros behind it. -/
def spsBuffer (rbsp : List UInt8) (zeros : ℕ) : List UInt8 :=
  (rbsp ++ List.replicate zeros 0).take 256

variable {nal : List UInt8} {head : SpsHead} {refs zeros : ℕ} {tail : SpsTail}
  {cs : List Bool}

theorem spsBuffer_isPrefix (rbsp : List UInt8) (zeros : ℕ) :
    toBits (spsBuffer rbsp zeros) <+: toBits (rbsp ++ List.replicate zeros 0) := by
  rw [spsBuffer, toBits_take]
  exact List.take_prefix _ _

theorem isPrefix_zeros (h : cs <+: toBits rbsp) :
    cs <+: toBits (rbsp ++ List.replicate zeros 0) := by
  rw [toBits_append]
  exact h.trans (List.prefix_append _ _)

theorem isPrefix_spsBuffer (h : cs <+: toBits rbsp) (hlen : cs.length ≤ 2048) :
    cs <+: toBits (spsBuffer rbsp zeros) := by
  rw [spsBuffer, toBits_take]
  exact List.prefix_take_iff.mpr ⟨isPrefix_zeros h, hlen⟩

theorem length_headBits_le (hhead : head.Supported) : (headBits head).length ≤ 57 := by
  have hid := length_ueCode_le (isShortUe_of_le hhead.spsId (by decide))
  simp only [headBits, List.length_append, length_bitsOf]
  omega

theorem length_poc_le {poc : PocSyntax} (hpoc : poc.Within (· ≤ 12)) (hfew : FewOffsets poc) :
    poc.encode.length ≤ 1159 := by
  cases poc with
  | type0 lsb =>
      have hlsb := length_ueCode_le (isShortUe_of_le hpoc (by decide))
      have hzero : (ueCode 0).length = 1 := rfl
      rw [PocSyntax.encode, List.length_append]
      omega
  | type1 flag first second offsets =>
      obtain ⟨hfirst, hsecond, hlen, hoffsets⟩ := hfew
      have hone : (ueCode 1).length = 3 := rfl
      have hfirst := length_ueCode_le hfirst
      have hsecond := length_ueCode_le hsecond
      have hcycle := length_ueCode_le (isShortUe_of_le hlen (by decide))
      have hoffsets := length_ues_le hoffsets
      simp only [PocSyntax.encode, List.length_append, List.length_cons]
      omega
  | type2 => exact (by decide : (ueCode 2).length ≤ 1159)

/-- The head and the references lie in the meaningful bits, if the offsets are few. -/
theorem Accepted.refs_isPrefix (h : Accepted nal rbsp head refs tail)
    (hfew : FewOffsets head.poc) : head.encode ++ ueCode refs <+:
      (toBits (spsBuffer rbsp zeros)).take (rbspMeaningfulBits (spsBuffer rbsp zeros)) := by
  have hhead := length_headBits_le h.headSupported
  have hlog := length_ueCode_le (isShortUe_of_le h.headSupported.log2MaxFrameNum (by decide))
  have hpoc := length_poc_le h.headSupported.poc hfew
  have hrefs := length_ueCode_le (isShortUe_of_le h.refs_le (by decide))
  have hw : Nat.log2 (tail.w + 1) < 17 :=
    (isShortUe_iff _).mp (isShortUe_of_le (Nat.le_of_lt h.tailSupported.w) (by decide))
  have hword : (head.encode ++ ueCode refs ++
      (tail.gapsAllowed :: List.replicate (Nat.log2 (tail.w + 1)) false)) ++ [true] <+:
        toBits rbsp := by
    refine List.IsPrefix.trans ?_ h.word
    rw [SpsTail.encode, ueCode.eq_1 tail.w]
    simp only [List.append_assoc, List.cons_append, List.prefix_append_right_inj,
      List.prefix_cons_inj, List.nil_prefix]
  refine List.IsPrefix.trans ?_ (isPrefix_meaningful (isPrefix_spsBuffer hword ?_))
  · simp only [List.append_assoc, List.prefix_append_right_inj]
    exact List.prefix_append _ _
  · rw [encode_head]
    simp only [List.length_append, List.length_cons, List.length_replicate, List.length_nil]
    omega

/-! ## The first parser -/

/-- A reader that leaves the references as they are. -/
def KeepsRefs (refs : ℕ) (p : Reader SpsLowLatencyInfo) : Prop :=
  ∀ b info b', p b = .ok (info, b') → info.oldRefs = refs

theorem KeepsRefs.pure {info : SpsLowLatencyInfo} (h : info.oldRefs = refs) :
    KeepsRefs refs (Pure.pure info) := by
  rintro b info' b' ⟨⟩
  exact h

theorem KeepsRefs.bind {α : Type} {p : Reader α} {f : α → Reader SpsLowLatencyInfo}
    (hf : ∀ a, KeepsRefs refs (f a)) : KeepsRefs refs (p >>= f) := by
  intro b info b'' hok
  obtain ⟨a, b', -, hfb⟩ := bind_ok.mp hok
  exact hf a b' info b'' hfb

theorem KeepsRefs.orReturn {p : Reader SpsLowLatencyInfo} {info : SpsLowLatencyInfo}
    (hp : KeepsRefs refs p) (h : info.oldRefs = refs) :
    KeepsRefs refs (orReturn p info) := by
  intro b info' b' hok
  rw [Detector.orReturn] at hok
  cases hread : p b with
  | ok r =>
      rw [hread] at hok
      cases hok
      exact hp b _ _ hread
  | error e =>
      rw [hread] at hok
      cases hok
      exact h

theorem orReturn_returns {α : Type} (p : Reader α) (a : α) (b : NalBits) :
    ∃ r, orReturn p a b = .ok r := by
  rw [orReturn]
  cases p b with
  | ok r => exact ⟨r, rfl⟩
  | error e => exact ⟨_, rfl⟩

variable {info : SpsLowLatencyInfo}

theorem keepsRefs_restrictionFields (h : info.oldRefs = refs) :
    KeepsRefs refs (restrictionFields info) :=
  .orReturn (.bind fun _ => .bind fun _ => .bind fun _ =>
    .orReturn (.bind fun _ => .pure h) h) h

theorem keepsRefs_vuiFields (h : info.oldRefs = refs) :
    KeepsRefs refs (spsParseVuiLowLatencyFields info) := by
  refine .orReturn (.bind fun _ => .bind fun present => ?_) h
  split
  · exact keepsRefs_restrictionFields h
  · exact .pure h

theorem keepsRefs_sizeAndVui (h : info.oldRefs = refs) :
    KeepsRefs refs (sizeAndVui info) := by
  refine .orReturn (.bind fun _ => .bind fun _ => .bind fun _ => .bind fun frameMbsOnly => ?_) h
  have hrest : ∀ vui, KeepsRefs refs
      (if vui ≠ 0 then spsParseVuiLowLatencyFields { info with vuiPresent := vui ≠ 0 }
        else Pure.pure { info with vuiPresent := vui ≠ 0 }) := fun vui => by
    split
    · exact keepsRefs_vuiFields h
    · exact .pure h
  split
  · exact .bind fun _ => .bind fun _ => .bind fun _ => .bind fun _ => .bind hrest
  · exact .bind fun _ => .bind fun _ => .bind fun _ => .bind hrest

/-- What is known before the size and the VUI are read. -/
def SpsLowLatencyInfo.withRefs (refs : ℕ) : SpsLowLatencyInfo :=
  { SpsLowLatencyInfo.initial with oldRefs := refs }

theorem comesFrom_withRefs (refs : ℕ) (restriction : Option Restriction) :
    (SpsLowLatencyInfo.withRefs refs).ComesFrom restriction := ⟨.inl rfl, .inl rfl⟩

/-- Few short offsets are read by the first parser, which takes the references that are
reported, and the numbers of pictures from the VUI. -/
theorem Accepted.contractReport_of_few (h : Accepted nal rbsp head refs tail)
    (hfew : FewOffsets head.poc) (zeros : ℕ) :
    ∃ info : SpsLowLatencyInfo, info.oldRefs = refs ∧
      contractReport (spsBuffer rbsp zeros) = some (info.report (spsBuffer rbsp zeros)) ∧
      ∀ vui : Option Vui, (∀ v, vui = some v → v.Valid) → tail.vui = vui.isSome →
        head.encode ++ (ueCode refs ++ (tail.encode ++ vui.elim [] Vui.encode)) <+:
          toBits rbsp → info.ComesFrom (vui.bind Vui.restriction) := by
  have hfits := rbspMeaningfulBits_le (spsBuffer rbsp zeros)
  have hprefix : head.encode ++ ueCode refs <+:
      (toBits (spsBuffer rbsp zeros)).take _ := h.refs_isPrefix hfew
  have hpos : 0 < rbspMeaningfulBits (spsBuffer rbsp zeros) := by
    have hle := hprefix.length_le
    have hcode := length_ueCode refs
    rw [List.length_append, List.length_take] at hle
    omega
  let b : NalBits := .start (spsBuffer rbsp zeros) _ hfits
  obtain ⟨⟨info, b'⟩, hsize⟩ := orReturn_returns _ (SpsLowLatencyInfo.withRefs refs)
    (Source.skip (head.encode ++ ueCode refs).length b)
  have hread : spsParseLowLatencyFields b = .ok (info, b') :=
    bind_ok.mpr ⟨refs, _, reads_spsRefs h.headSupported hfew h.refs_le b rfl hprefix, hsize⟩
  refine ⟨info, keepsRefs_sizeAndVui rfl _ _ _ hsize, ?_, fun vui hvui hflag hword => ?_⟩
  · rw [contractReport, dif_pos ⟨hpos, hfits⟩, hread]
  · have hmeets : Meets b ((head.encode ++ ueCode refs) ++
        (tail.encode ++ vui.elim [] Vui.encode)) := by
      rw [List.append_assoc]
      exact Meets.of_isPrefix ((List.take_prefix _ _).trans (spsBuffer_isPrefix rbsp zeros))
        (isPrefix_zeros hword)
    exact ensures_sizeAndVui hvui hflag (comesFrom_withRefs refs) _ _ _ rfl
      (hmeets.right hprefix) hsize

/-! ## The second parser -/

theorem Accepted.fallbackReport_of_many (h : Accepted nal rbsp head refs tail)
    (hfew : ¬ FewOffsets head.poc) (zeros : ℕ) :
    fallbackReport (spsBuffer rbsp zeros) = some
      { profile := head.profile, level := head.level, refs := takenInstead head.poc,
        reorder := -1, buffering := -1,
        ok := ¬ (takenInstead head.poc > 4 ∨ head.profile ≠ 66) } := by
  have hword : headBits head ++ (ueCode head.log2MaxFrameNum ++ head.poc.encode) <+:
      toBits rbsp := by
    rw [← encode_head]
    exact (List.prefix_append _ _).trans h.word
  have hheadLen := length_headBits_le h.headSupported
  have hhead : headBits head <+: toBits (spsBuffer rbsp zeros) :=
    isPrefix_spsBuffer ((List.prefix_append _ _).trans hword) (by omega)
  have hlen : 4 ≤ (spsBuffer rbsp zeros).length := by
    have hle := hhead.length_le
    have hcode := length_ueCode head.spsId
    simp only [headBits, List.length_append, length_bitsOf, length_toBits] at hle
    omega
  let b : NalBits := .start (spsBuffer rbsp zeros) _ (Nat.le_refl _)
  have hrest : Source.rest b = toBits (spsBuffer rbsp zeros) := by
    show ((toBits _).take _).drop 0 = _
    exact List.take_of_length_le (Nat.le_of_eq (length_toBits _))
  have hmeets : Meets b (headBits head ++ (ueCode head.log2MaxFrameNum ++ head.poc.encode)) :=
    Meets.of_isPrefix (hrest ▸ spsBuffer_isPrefix rbsp zeros) (isPrefix_zeros hword)
  obtain ⟨b', htaken⟩ := fallbackRefs_taken h.headSupported hfew
    (hmeets.right (hrest ▸ hhead)) fun w hw hwlen => by
      have hfront : headBits head ++ w <+: toBits (spsBuffer rbsp zeros) :=
        isPrefix_spsBuffer (((List.prefix_append_right_inj _).mpr hw).trans hword) (by
          rw [List.length_append]
          omega)
      obtain ⟨ts, hts⟩ := hfront
      exact ⟨ts, by rw [Source.rest_skip, hrest, ← hts, List.append_assoc, List.drop_left]⟩
  have hheader := reads_fallbackHeader h.headSupported b rfl (hrest ▸ hhead)
  have hfields : fallbackFields b = .ok (⟨head.profile, head.level, takenInstead head.poc, -1,
      -1, decide (true ∧ ¬ (takenInstead head.poc > 4 ∨ head.profile ≠ 66))⟩, b') :=
    bind_ok.mpr ⟨_, _, hheader, bind_ok.mpr ⟨_, _, htaken, rfl⟩⟩
  rw [fallbackReport, if_neg (by omega), hfields]
  simp

/-- Where the first parser fails, the second one takes another number for the
references. -/
theorem Accepted.contractReport_of_many (h : Accepted nal rbsp head refs tail)
    (hfew : ¬ FewOffsets head.poc) (zeros : ℕ) :
    contractReport (spsBuffer rbsp zeros) = some
      { profile := head.profile, level := head.level, refs := takenInstead head.poc,
        reorder := -1, buffering := -1,
        ok := ¬ (takenInstead head.poc > 4 ∨ head.profile ≠ 66) } := by
  have hword : head.encode <+: toBits rbsp := (List.prefix_append _ _).trans h.word
  rw [← h.fallbackReport_of_many hfew zeros, contractReport]
  split
  · rename_i hfits
    have hrefuses : Refuses spsParseLowLatencyFields head.encode :=
      (refuses_spsRefs h.headSupported hfew).bind
    have hmeets : Meets (NalBits.start (spsBuffer rbsp zeros) _ hfits.2) head.encode :=
      Meets.of_isPrefix ((List.take_prefix _ _).trans (spsBuffer_isPrefix rbsp zeros))
        (isPrefix_zeros hword)
    cases hread : spsParseLowLatencyFields (.start (spsBuffer rbsp zeros) _ hfits.2) with
    | ok r => exact absurd hread (hrefuses _ r.1 r.2 rfl hmeets)
    | error e => rfl
  · rfl

/-! ## The result -/

theorem Accepted.of_ok {f : StreamFormat} (h : avcStreamFormat nal = .ok f) :
    5 ≤ nal.length ∧ ∃ rbsp head tail, Accepted nal rbsp head f.refs tail ∧
      f.profile = head.profile := by
  obtain ⟨hmin, -, rbsp, head, refs, tail, hrbsp, hhead, hrefs, htail, hword, rfl⟩ :=
    Sps.avcStreamFormat_eq_ok.mp h
  exact ⟨hmin, rbsp, head, tail, ⟨hrbsp, hhead, hrefs, htail, hword⟩, rfl⟩

/-- The check reports on the payload of the first parameter set. -/
theorem Accepted.checkNal {us : List StreamUnit} {u : StreamUnit}
    (h : Accepted u.bytes rbsp head refs tail) (hmin : 5 ≤ u.bytes.length)
    (hfirst : firstOfType 7 us = some u) (trailing : ℕ) {s : SpsState}
    (hs : s.spsChecked = false) :
    ∃ zeros, checkNalForSpsContract (accessUnit us trailing) s =
      some (s.judged (contractReport (spsBuffer rbsp zeros)),
        contractReport (spsBuffer rbsp zeros)) := by
  obtain ⟨k, ps, hpayloads⟩ := payloads_accessUnit hfirst (by omega) trailing
  obtain ⟨at', hfound, hbytes⟩ := nalFindPayload_eq hpayloads fun hnil => by
    have hzero := congrArg List.length hnil
    rw [List.length_append, List.length_tail, List.length_nil] at hzero
    omega
  have hraw : rawRbsp (u.bytes.tail ++ List.replicate k 0) = rbsp ++ List.replicate k 0 := by
    rw [rawRbsp_append, rawRbsp_of_unescape h.isRbsp.2, rawRbsp_zeros]
    intro hthree
    exact absurd (List.eq_of_mem_replicate (List.mem_of_mem_take hthree)) (by decide)
  refine ⟨k, ?_⟩
  rw [checkNalForSpsContract, if_neg (by rw [hs]; decide), hfound]
  simp only [Option.bind_eq_bind, Option.bind_some, hbytes, nalPayloadToRbsp_eq, hraw]
  rfl

/-- The check takes the references for corrupt, and forces a key frame. -/
def SpsState.Marks (s s' : SpsState) : Prop :=
  s'.refsCorrupted = true ∧ s'.idrFullyDecoded = false ∧ s'.idrForced = s.idrForced + 1

theorem marks_judged (s : SpsState) (report : ContractReport) :
    s.Marks (s.judged (some report)) ↔ report.ok = false := by
  rw [SpsState.judged]
  cases hok : report.ok with
  | false => simp [SpsState.Marks]
  | true => simp [SpsState.Marks]

/-- What stands behind the flag of the VUI is the syntax of a VUI, or there is none. -/
structure HasVui (rbsp : List UInt8) (head : SpsHead) (refs : ℕ) (tail : SpsTail)
    (vui : Option Vui) : Prop where
  valid : ∀ v, vui = some v → v.Valid
  flag : tail.vui = vui.isSome
  word : head.encode ++ (ueCode refs ++ (tail.encode ++ vui.elim [] Vui.encode)) <+:
    toBits rbsp

/-- The check takes the references that are reported, and finds the contract broken
exactly if what it has read breaks it, and on a Baseline parameter set only if its VUI
does. -/
structure JudgesRightly (rbsp : List UInt8) (head : SpsHead) (tail : SpsTail)
    (f : StreamFormat) (s s' : SpsState) (report : ContractReport) : Prop where
  profile : report.profile = f.profile
  refs : report.refs = f.refs
  marks : s.Marks s' ↔ report.profile ≠ 66 ∨ report.refs > 4 ∨ report.reorder > 0 ∨
    report.buffering > 4
  baseline : ∀ vui, HasVui rbsp head f.refs tail vui → f.profile = 66 →
    (∀ v, vui = some v → v.KeepsContract) → ¬ s.Marks s'

theorem report_ok (info : SpsLowLatencyInfo) (rbsp : List UInt8) :
    (info.report rbsp).ok = false ↔ (info.report rbsp).profile ≠ 66 ∨
      (info.report rbsp).refs > 4 ∨ (info.report rbsp).reorder > 0 ∨
        (info.report rbsp).buffering > 4 := by
  show decide _ = false ↔ _
  rw [decide_eq_false_iff_not, not_not]
  exact or_left_comm

theorem toInt_le {v n : ℕ} (h : v ≤ n) (hn : n < 2 ^ 31) : toInt v ≤ n := by
  rw [toInt, if_pos (by omega)]
  omega

/-- Numbers of pictures from a VUI that keeps the contract do not break it. -/
theorem report_keeps {info : SpsLowLatencyInfo} {vui : Option Vui}
    (hinfo : info.ComesFrom (vui.bind Vui.restriction))
    (hkeeps : ∀ v, vui = some v → v.KeepsContract) (rbsp : List UInt8) :
    (info.report rbsp).reorder ≤ 0 ∧ (info.report rbsp).buffering ≤ 4 := by
  have hrestriction : ∀ r, vui.bind Vui.restriction = some r →
      r.numReorderFrames = 0 ∧ r.maxDecFrameBuffering ≤ 4 := fun r hr => by
    obtain ⟨v, hv, hvr⟩ := Option.bind_eq_some_iff.mp hr
    exact hkeeps v hv r hvr
  constructor
  · show (if _ then toInt info.oldNumReorderFrames else -1) ≤ 0
    split
    · rcases hinfo.1 with hunread | ⟨r, hr, hread⟩
      · rw [hunread]
        decide
      · rw [hread, (hrestriction r hr).1]
        decide
    · decide
  · show (if _ then toInt info.oldMaxDecFrameBuffering else -1) ≤ 4
    split
    · rcases hinfo.2 with hunread | ⟨r, hr, hread⟩
      · rw [hunread]
        decide
      · rw [hread]
        exact toInt_le (hrestriction r hr).2 (by decide)
    · decide

theorem Accepted.judgesRightly_of_few {f : StreamFormat} {s : SpsState}
    (h : Accepted nal rbsp head f.refs tail) (hprofile : f.profile = head.profile)
    (hfew : FewOffsets head.poc) (zeros : ℕ) :
    ∃ report, contractReport (spsBuffer rbsp zeros) = some report ∧
      JudgesRightly rbsp head tail f s (s.judged (some report)) report := by
  obtain ⟨info, hrefs, hreport, hvui⟩ := h.contractReport_of_few hfew zeros
  have hread : (info.report (spsBuffer rbsp zeros)).profile = f.profile := by
    have hcases := h.headSupported.profile
    have hword : bitsOf 8 head.profile <+: toBits rbsp :=
      ((List.prefix_append _ _).trans (List.prefix_append _ _)).trans h.word
    rw [hprofile]
    exact getD_of_isPrefix (by omega) (isPrefix_spsBuffer hword (by simp))
  refine ⟨_, hreport, hread, hrefs, ?_, fun vui hvui' hbaseline hkeeps => ?_⟩
  · rw [marks_judged]
    exact report_ok info _
  · have hfrom := hvui vui hvui'.valid hvui'.flag hvui'.word
    obtain ⟨hreorder, hbuffering⟩ := report_keeps hfrom hkeeps (spsBuffer rbsp zeros)
    have hle : (info.report (spsBuffer rbsp zeros)).refs ≤ 4 := by
      have hle := h.refs_le
      rwa [← hrefs] at hle
    rw [marks_judged, report_ok]
    omega

/-- The check on an access unit whose first parameter set is accepted takes the references
that are reported and judges them by the contract exactly if the offsets of the picture
order count are few and short enough for the first parser, or what the second parser takes
in their place happens to be the references. -/
theorem checkNalForSpsContract_correct {us : List StreamUnit} {u : StreamUnit}
    {f : StreamFormat} {s : SpsState} (hs : s.spsChecked = false)
    (hfirst : firstOfType 7 us = some u) (hok : avcStreamFormat u.bytes = .ok f)
    (trailing : ℕ) :
    ∃ rbsp head tail, Accepted u.bytes rbsp head f.refs tail ∧
      ((∃ s' report, checkNalForSpsContract (accessUnit us trailing) s = some (s', some report) ∧
        JudgesRightly rbsp head tail f s s' report) ↔
        FewOffsets head.poc ∨ takenInstead head.poc = f.refs) := by
  obtain ⟨hmin, rbsp, head, tail, h, hprofile⟩ := Accepted.of_ok hok
  obtain ⟨zeros, hcheck⟩ := h.checkNal hmin hfirst trailing hs
  refine ⟨rbsp, head, tail, h, ?_⟩
  rw [hcheck]
  constructor
  · rintro ⟨s', report, heq, hjudges⟩
    by_contra hnot
    rw [not_or] at hnot
    rw [h.contractReport_of_many hnot.1] at heq
    cases heq
    exact hnot.2 hjudges.refs
  · intro hcond
    by_cases hfew : FewOffsets head.poc
    · obtain ⟨report, hreport, hjudges⟩ := h.judgesRightly_of_few hprofile hfew zeros
      rw [hreport]
      exact ⟨_, _, rfl, hjudges⟩
    · have htaken := hcond.resolve_left hfew
      rw [h.contractReport_of_many hfew]
      have hle := h.refs_le
      refine ⟨_, _, rfl, hprofile.symm, htaken, ?_, fun vui _ hbaseline _ => ?_⟩
      · rw [marks_judged]
        simp [imp_iff_not_or, or_comm]
      · have htaken' : ¬ takenInstead head.poc > 4 := by omega
        rw [marks_judged, ← hprofile, hbaseline]
        simp [htaken']

/-- The unit of a Baseline parameter set with one reference. -/
def baselineUnit : StreamUnit where
  zeros := 0
  long := true
  bytes := [0x67, 0x42, 0xc0, 0x1e, 0xda, 0x07, 0x82, 0x39]
  nonempty := by simp
  noStartCode := by decide
  lastNonzero := by decide

/-- A check that has not looked at anything. -/
def unchecked : SpsState := ⟨false, false, false, 0⟩

theorem checkNalForSpsContract_correct_baselineUnit :
    ∃ rbsp head tail, Accepted baselineUnit.bytes rbsp head 1 tail ∧
      ((∃ s' report, checkNalForSpsContract (accessUnit [baselineUnit] 0) unchecked =
          some (s', some report) ∧
        JudgesRightly rbsp head tail ⟨66, 30, 1, 0, 480, 272, 480, 272, 0, 0⟩ unchecked s'
          report) ↔
        FewOffsets head.poc ∨ takenInstead head.poc = 1) :=
  checkNalForSpsContract_correct rfl rfl (f := ⟨66, 30, 1, 0, 480, 272, 480, 272, 0, 0⟩)
    (by decide +kernel) 0

/-- A Baseline parameter set with one reference and 33 offsets of the picture order count
is taken for one with five references. -/
theorem checkNalForSpsContract_misreads :
    avcStreamFormat [0x67, 0x42, 0xc0, 0x1e, 0xd3, 0x04, 0x5f, 0xff, 0xff, 0xff, 0xe6, 0x40,
        0xf0, 0x47, 0x20] = .ok ⟨66, 30, 1, 0, 480, 272, 480, 272, 0, 0⟩ ∧
      ∃ s' report, checkNalForSpsContract [0, 0, 0, 1, 0x67, 0x42, 0xc0, 0x1e, 0xd3, 0x04,
          0x5f, 0xff, 0xff, 0xff, 0xe6, 0x40, 0xf0, 0x47, 0x20] unchecked =
            some (s', some report) ∧
        report.profile = 66 ∧ report.refs = 5 ∧ unchecked.Marks s' :=
  ⟨by decide +kernel, ⟨true, true, false, 1⟩, ⟨66, 30, 5, -1, -1, false⟩, by decide +kernel,
    rfl, rfl, rfl, rfl, rfl⟩

end MoonlightPsp.Detector
