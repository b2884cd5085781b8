import MoonlightPsp.Avc.AnnexB

/-!
# What the packetizer accepts

An input that the packetizer accepts is a stream of well-formed units, and what it
returns is what it makes of them.
-/

namespace MoonlightPsp.Avc

open CheckedMemory

variable {src dst l : List UInt8} {s s' : Progress} {p fuel cap start : ℕ}

/-! ## What the scans pass over -/

theorem isPrefix_of_codeAt (h : codeAt l ≠ 0) :
    ∃ long : Bool, l = (if long then [0, 0, 0, 1] else [0, 0, 1]) ++ l.drop (codeAt l) := by
  match l with
  | [] | [_] | [_, _] => exact absurd rfl h
  | a :: b :: c :: l =>
      rw [codeAt] at h ⊢
      by_cases hshort : a = 0 ∧ b = 0 ∧ c = 1
      · obtain ⟨rfl, rfl, rfl⟩ := hshort
        exact ⟨false, rfl⟩
      · rw [if_neg hshort] at h ⊢
        by_cases hlong : a = 0 ∧ b = 0 ∧ c = 0 ∧ l.head? = some 1
        · obtain ⟨rfl, rfl, rfl, hhead⟩ := hlong
          obtain ⟨rest, rfl⟩ := List.head?_eq_some_iff.mp hhead
          exact ⟨true, rfl⟩
        · exact absurd (if_neg hlong) h

theorem noStartCode_take_scanLen (l : List UInt8) :
    ¬ [0, 0, 1] <:+: l.take (scanLen l) := by
  induction l with
  | nil => decide
  | cons b l ih =>
      rw [scanLen]
      split
      · simp
      · rename_i hcode
        rw [List.take_succ_cons, List.infix_cons_iff, not_or]
        refine ⟨fun hfront => hcode ?_, ih⟩
        obtain ⟨more, hmore⟩ := hfront.trans (List.prefix_cons_inj b |>.mpr (List.take_prefix _ l))
        rw [← hmore]
        exact Nat.succ_ne_zero 2

/-- Behind what is left of a byte string its zeros were taken off. -/
theorem trimmed_append_zeros (l : List UInt8) :
    ∃ k, l = trimmed l ++ List.replicate k 0 := by
  induction l using List.reverseRecOn with
  | nil => exact ⟨0, rfl⟩
  | append_singleton l b ih =>
      obtain ⟨k, hk⟩ := ih
      by_cases hb : b = 0
      · refine ⟨k + 1, ?_⟩
        rw [trimmed, List.rdropWhile_concat_pos _ _ _ (by simpa using hb),
          List.replicate_succ', ← List.append_assoc, hb]
        exact congrArg (· ++ [0]) hk
      · refine ⟨0, ?_⟩
        rw [trimmed, List.rdropWhile_concat_neg _ _ _ (by simpa using hb)]
        simp

theorem getLast_trimmed (h : trimmed l ≠ []) : (trimmed l).getLast h ≠ 0 :=
  fun hzero => List.rdropWhile_last_not _ l h (decide_eq_true hzero)

/-! ## Units that are added -/

/-- A unit that is added is well-formed. -/
theorem nalUnit_of_addUnit {bytes : List UInt8} (hbytes : (src.drop start).take bytes.length = bytes)
    (hcode : ¬ [0, 0, 1] <:+: bytes) (hlast : ∀ h : bytes ≠ [], bytes.getLast h ≠ 0)
    (hlen : bytes.length ≤ 0xffffffff)
    (hadd : addUnit src cap s start bytes.length = some (0, s')) :
    ∃ u : NalUnit, u.bytes = bytes := by
  have hne : bytes ≠ [] := by
    rintro rfl
    rw [addUnit, if_pos List.length_nil] at hadd
    cases hadd
  have hpos : bytes.length ≠ 0 := fun h => hne (List.length_eq_zero_iff.mp h)
  rw [addUnit, if_neg hpos, getElem?_of_take hbytes hne] at hadd
  simp only [Option.bind_eq_bind, Option.bind_some] at hadd
  split at hadd
  · cases hadd
  · rename_i hbit
    refine ⟨⟨bytes, hne, by simpa using hbit, ?_, hcode, hlast hne, hlen⟩, rfl⟩
    simp only [List.mem_cons, List.not_mem_nil, or_false]
    by_contra hnot
    simp only [not_or] at hnot
    rw [addTyped, if_neg hnot.2.2.2.1, if_neg hnot.2.2.2.2.1, if_neg (by tauto),
      if_pos (by tauto)] at hadd
    cases hadd

/-- Where a unit is added there was room for it. -/
theorem Collected.addUnit_of_ok {us : List NalUnit} (h : Collected src dst us s)
    {u : NalUnit} (hin : start + u.bytes.length ≤ src.length)
    (hbytes : (src.drop start).take u.bytes.length = u.bytes)
    (hadd : Avc.addUnit src dst.length s start u.bytes.length = some (0, s')) :
    Collected src dst (us ++ [u]) s' := by
  by_cases hroom : (avcc (us ++ [u])).length ≤ dst.length
  · obtain ⟨s'', hadd', h'⟩ := h.addUnit hin hbytes hroom
    rw [hadd] at hadd'
    cases hadd'
    exact h'
  · have hfits := h.writes.fits
    have hslice : u.IsSlice := by
      by_contra hno
      rw [avcc_append_singleton, if_neg hno, List.append_nil] at hroom
      exact hroom hfits
    have hkinds : u.type ≠ 7 ∧ u.type ≠ 8 := by
      rcases hslice with htype | htype
      · simp [htype]
      · simp [htype]
    have hfull : u.bytes.length > 0xffffffff ∨ s.used > dst.length ∨
        dst.length - s.used < 4 ∨ u.bytes.length > dst.length - s.used - 4 := by
      have hlen : (be32 u.bytes.length).length = 4 := rfl
      rw [avcc_append_singleton, if_pos hslice, List.length_append, List.length_append,
        hlen] at hroom
      rw [h.writes.used]
      omega
    rw [addUnit_eq_addTyped hbytes, Avc.addTyped, if_neg hkinds.1, if_neg hkinds.2,
      if_pos (show u.type = 1 ∨ u.type = 5 from hslice), if_pos hfull] at hadd
    cases hadd

/-! ## The whole input -/

/-- Zero bytes in front of a stream belong to it. -/
theorem annexB_zeros (k : ℕ) (cs : List CodedUnit) (trailing : ℕ) :
    ∃ cs' trailing', List.replicate k 0 ++ annexB cs trailing = annexB cs' trailing' ∧
      cs'.map CodedUnit.unit = cs.map CodedUnit.unit := by
  cases cs with
  | nil =>
      exact ⟨[], k + trailing, by simp [annexB], rfl⟩
  | cons c cs =>
      refine ⟨⟨k + c.zeros, c.long, c.unit⟩ :: cs, trailing, ?_, rfl⟩
      rw [annexB, annexB, List.flatMap_cons, List.flatMap_cons, CodedUnit.encode,
        CodedUnit.encode, List.replicate_add]
      simp only [List.append_assoc]

/-- What the loop over the units accepts is a stream, whose units it collects. -/
theorem splitUnits_ok (hlen : src.length ≤ 0xffffffff) {us : List NalUnit}
    (h : Collected src dst us s) (hp : p ≤ src.length)
    (hok : splitUnits src dst.length fuel p s = some (0, s')) :
    ∃ cs trailing, src.drop p = annexB cs trailing ∧
      Collected src dst (us ++ cs.map CodedUnit.unit) s' := by
  induction fuel generalizing p s us with
  | zero => cases hok
  | succ fuel ih =>
      by_cases hlt : p < src.length
      · by_cases hk : codeAt (src.drop p) = 0
        · rw [splitUnits, if_pos hlt, startCode_eq] at hok
          simp only [Option.bind_eq_bind, Option.bind_some, if_pos hk] at hok
          cases hok
        · have hcode := codeAt_le_length (src.drop p)
          rw [List.length_drop] at hcode
          obtain ⟨long, hlong⟩ := isPrefix_of_codeAt hk
          obtain ⟨q, hq⟩ : ∃ q, p + codeAt (src.drop p) = q := ⟨_, rfl⟩
          rw [List.drop_drop, hq] at hlong
          have hscan := scanLen_le_length (src.drop q)
          have hunit := length_unitOf_le (src.drop q)
          rw [List.length_drop] at hscan hunit
          have hbytes : (src.drop q).take (unitOf (src.drop q)).length = unitOf (src.drop q) :=
            (List.prefix_iff_eq_take.mp (unitOf_isPrefix _)).symm
          rw [splitUnits_succ hlt hk hq (by omega)] at hok
          obtain ⟨⟨code, s₁⟩, hadd, hrest⟩ := Option.bind_eq_some_iff.mp hok
          by_cases hzero : code = 0
          · subst hzero
            rw [if_neg (by simp)] at hrest
            obtain ⟨u, hu⟩ := nalUnit_of_addUnit hbytes
              (fun hin => noStartCode_take_scanLen _ (hin.trans (trimmed_isPrefix _).isInfix))
              getLast_trimmed (by omega) hadd
            rw [← hu] at hadd hbytes hunit
            obtain ⟨cs, trailing, hdrop, h'⟩ :=
              ih (h.addUnit_of_ok (by omega) hbytes hadd) (by omega) hrest
            obtain ⟨k, hzeros⟩ := trimmed_append_zeros
              ((src.drop q).take (scanLen (src.drop q)))
            obtain ⟨cs', trailing', hmerged, hunits⟩ := annexB_zeros k cs trailing
            refine ⟨⟨0, long, u⟩ :: cs', trailing', ?_, ?_⟩
            · have hsplit : src.drop q = u.bytes ++ annexB cs' trailing' := by
                rw [← hmerged, ← hdrop, ← List.drop_drop, hu, ← List.append_assoc]
                exact (List.take_append_drop (scanLen (src.drop q)) (src.drop q)).symm.trans
                  (congrArg (· ++ _) hzeros)
              rw [hlong, hsplit]
              simp [annexB, CodedUnit.encode]
            · rw [List.map_cons, hunits, List.append_cons]
              exact h'
          · rw [if_pos hzero] at hrest
            cases hrest
            exact absurd rfl hzero
      · rw [splitUnits, if_neg hlt] at hok
        cases hok
        refine ⟨[], 0, ?_, by simpa using h⟩
        rw [List.drop_eq_nil_of_le (by omega)]
        rfl

/-- Only zero bytes are passed over in front of the first start code. -/
theorem skipLeading_ok {q : ℕ} (hok : skipLeading src fuel p = some (.inl q)) :
    ∃ k, src.drop p = List.replicate k 0 ++ src.drop q := by
  induction fuel generalizing p with
  | zero => cases hok
  | succ fuel ih =>
      rw [skipLeading] at hok
      split at hok
      · rename_i hlt
        have hcons := List.drop_eq_getElem_cons hlt
        simp only [startCode_eq, List.getElem?_eq_getElem hlt, Option.bind_eq_bind,
          Option.bind_some] at hok
        split at hok
        · cases hok
          exact ⟨0, rfl⟩
        · split at hok
          · cases hok
          · rename_i hzero
            obtain ⟨k, hk⟩ := ih hok
            refine ⟨k + 1, ?_⟩
            rw [hcons, not_not.mp hzero, hk]
            rfl
      · cases hok
        exact ⟨0, rfl⟩

theorem finish_ok {code : ℤ} (h : (finish code s).code = 0) :
    code = 0 ∧ s.seen = true ∧ ¬ (s.result.hasIdr = true ∧ s.result.hasPredictive = true) ∧
      finish code s = ⟨0, s.dst, { s.result with avccSize := s.used }⟩ := by
  rw [finish] at h ⊢
  split_ifs at h ⊢ with hcode hbad
  · exact absurd h hcode
  · exact absurd h (show (-6 : ℤ) ≠ 0 by decide)
  · simp only [not_or, Bool.not_eq_true, Bool.not_eq_false'] at hbad
    exact ⟨not_not.mp hcode, by simpa using hbad.1, hbad.2, rfl⟩

/-- What the packetizer accepts is a stream of units, not both of type 1 and of type 5.
A `size_t` of the target has 32 bits. -/
theorem packetizeUnits_ok {au : PacketizedAu} {r : Packetized}
    (hlen : src.length ≤ 0xffffffff) (h : packetizeUnits src dst au = some r)
    (hcode : r.code = 0) :
    ∃ cs trailing, src = annexB cs trailing ∧ cs ≠ [] ∧
      ¬ ((∃ c ∈ cs, c.unit.type = 1) ∧ ∃ c ∈ cs, c.unit.type = 5) ∧
      IsPacketizedStream (cs.map CodedUnit.unit) src dst r.dst r.au := by
  have hempty : Collected src dst [] ⟨dst, 0, .zero, false⟩ :=
    ⟨⟨by simp [avcc], rfl, Nat.zero_le _⟩, rfl, rfl, rfl, rfl, rfl, rfl, rfl⟩
  rw [packetizeUnits] at h
  split at h
  · cases h
    exact absurd hcode (show (-1 : ℤ) ≠ 0 by decide)
  · rcases skipLeading_inside (Nat.zero_le src.length) (Nat.lt_succ_self src.length) with
      ⟨q, hq, hskip⟩ | hskip
    · obtain ⟨k, hzeros⟩ := skipLeading_ok hskip
      rw [hskip] at h
      simp only [Option.bind_eq_bind, Option.bind_some] at h
      obtain ⟨⟨code, s'⟩, hsplit, hfinish⟩ := Option.bind_eq_some_iff.mp h
      cases hfinish
      obtain ⟨rfl, hseen, hkinds, heq⟩ := finish_ok hcode
      obtain ⟨cs, trailing, hdrop, h'⟩ := splitUnits_ok hlen hempty hq hsplit
      obtain ⟨cs', trailing', hmerged, hunits⟩ := annexB_zeros k cs trailing
      rw [List.nil_append, ← hunits] at h'
      refine ⟨cs', trailing', ?_, ?_, ?_, ?_⟩
      · rw [← hmerged, ← hdrop, ← hzeros, List.drop_zero]
      · rintro rfl
        rw [h'.seen] at hseen
        cases hseen
      · rintro ⟨hone, hfive⟩
        refine hkinds ⟨?_, ?_⟩
        · rw [h'.hasIdr]
          simpa using hfive
        · rw [h'.hasPredictive]
          simpa using hone
      · rw [heq]
        exact isPacketizedStream_of_collected h'
    · rw [hskip] at h
      cases h
      exact absurd hcode (show (-2 : ℤ) ≠ 0 by decide)

theorem avcPacketize_ok {dst' : List UInt8} {au au' : PacketizedAu}
    (hlen : src.length ≤ 0xffffffff)
    (hok : avcPacketize ⟨some src, some dst, some au⟩ = some (0, some dst', some au')) :
    ∃ cs trailing, src = annexB cs trailing ∧ cs ≠ [] ∧
      ¬ ((∃ c ∈ cs, c.unit.type = 1) ∧ ∃ c ∈ cs, c.unit.type = 5) ∧
      IsPacketizedStream (cs.map CodedUnit.unit) src dst dst' au' := by
  rw [avcPacketize] at hok
  obtain ⟨r, hr, hfields⟩ := Option.bind_eq_some_iff.mp hok
  obtain ⟨hcode, hout⟩ := Prod.mk.inj (Option.some.inj hfields)
  obtain ⟨hdst, hau⟩ := Prod.mk.inj hout
  cases hdst
  cases hau
  exact packetizeUnits_ok hlen hr hcode

end MoonlightPsp.Avc
