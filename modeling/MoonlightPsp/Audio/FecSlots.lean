import Mathlib.Data.List.MinMax
import Mathlib.Tactic.Common
import MoonlightPsp.Audio.FecCache
import MoonlightPsp.Lib.SerialNumber

/-!
# Which slot a recovery block gets

`audio_rtp_fec_get_block` finds the block of a sequence number, or makes it in a
slot of its choice.  With distinct sequence numbers in the cache there are only
these two outcomes, and afterwards the numbers are distinct again.

If no slot is free the scan compares time stamps of 32 bits.  It finds the
smallest one as long as the readings they were taken from lie within half of the
range.
-/

namespace MoonlightPsp.Audio

open ReedSolomon

variable {blocks : ℕ → FecBlock} {now : UInt32} {x : FecShard}

/-- The valid blocks have distinct sequence numbers. -/
def DistinctBases (blocks : ℕ → FecBlock) : Prop :=
  ∀ i < audioRtpFecCacheBlocks, ∀ j < audioRtpFecCacheBlocks,
    (blocks i).valid = true → (blocks j).valid = true →
      (blocks i).baseSeq = (blocks j).baseSeq → i = j

theorem FecBlock.hasBase_iff {b : FecBlock} {baseSeq : UInt16} :
    b.hasBase baseSeq = true ↔ b.valid = true ∧ b.baseSeq = baseSeq := by
  simp [FecBlock.hasBase]

/-! ## The search by sequence number -/

theorem findBlock_eq_some {baseSeq : UInt16} {i : ℕ}
    (h : findBlock blocks baseSeq = some i) :
    i < audioRtpFecCacheBlocks ∧ (blocks i).hasBase baseSeq = true := by
  have hbase := List.find?_some (p := fun i => (blocks i).hasBase baseSeq) h
  exact ⟨List.mem_range.mp (List.mem_of_find?_eq_some h), hbase⟩

theorem findBlock_eq_none {baseSeq : UInt16}
    (h : findBlock blocks baseSeq = none) :
    ∀ i < audioRtpFecCacheBlocks, (blocks i).hasBase baseSeq = false := by
  intro i hi
  have hnone := List.find?_eq_none.mp h i (List.mem_range.mpr hi)
  simpa using hnone

theorem findBlock_of_hasBase {baseSeq : UInt16} (hdistinct : DistinctBases blocks)
    {i : ℕ} (hi : i < audioRtpFecCacheBlocks)
    (h : (blocks i).hasBase baseSeq = true) :
    findBlock blocks baseSeq = some i := by
  cases hfind : findBlock blocks baseSeq with
  | none =>
      rw [findBlock_eq_none hfind i hi] at h
      cases h
  | some j =>
      obtain ⟨hj, hbase⟩ := findBlock_eq_some hfind
      obtain ⟨hvalid, heq⟩ := FecBlock.hasBase_iff.mp h
      obtain ⟨hvalid', heq'⟩ := FecBlock.hasBase_iff.mp hbase
      rw [hdistinct j hj i hi hvalid' hvalid (heq'.trans heq.symm)]

/-! ## The scan for a slot -/

/-- The scan ends with a slot that it looked at, or with the one it had. -/
theorem pickLoop_mem (blocks : ℕ → FecBlock) (is : List ℕ) (pick : Option ℕ)
    (oldest : UInt32) (h : is ≠ [] ∨ pick.isSome) :
    ∃ i, pickLoop blocks is pick oldest = some i ∧
      (i ∈ is ∨ pick = some i) := by
  induction is generalizing pick oldest with
  | nil =>
      obtain ⟨i, hi⟩ := Option.isSome_iff_exists.mp (h.resolve_left (by simp))
      exact ⟨i, hi, Or.inr hi⟩
  | cons j is ih =>
      rw [pickLoop]
      split_ifs with hfree holder
      · exact ⟨j, rfl, Or.inl List.mem_cons_self⟩
      · obtain ⟨i, hpick, hmem⟩ := ih (some j) (blocks j).lastUseUs (Or.inr rfl)
        refine ⟨i, hpick, Or.inl ?_⟩
        rcases hmem with hmem | heq
        · exact List.mem_cons_of_mem _ hmem
        · cases heq
          exact List.mem_cons_self
      · have hsome : pick.isSome :=
          Option.isSome_iff_ne_none.mpr fun hnone => holder (Or.inl hnone)
        obtain ⟨i, hpick, hmem⟩ := ih pick oldest (Or.inr hsome)
        exact ⟨i, hpick, hmem.imp_left (List.mem_cons_of_mem _)⟩

/-- The readings of the blocks' last uses, which the stamps are taken from, lie
within half the range of the clock. -/
def Recent (blocks : ℕ → FecBlock) (usedAt : ℕ → ℕ) : Prop :=
  (∀ i < audioRtpFecCacheBlocks,
    (blocks i).lastUseUs = UInt32.ofNat (usedAt i)) ∧
  ∀ i < audioRtpFecCacheBlocks, ∀ j < audioRtpFecCacheBlocks,
    usedAt i < usedAt j + 0x80000000

/-- Without a free slot the scan is the search for the first smallest reading. -/
theorem pickLoop_eq_argmin {usedAt : ℕ → ℕ}
    (hrecent : Recent blocks usedAt) (is : List ℕ)
    (his : ∀ i ∈ is, i < audioRtpFecCacheBlocks ∧ (blocks i).valid = true)
    (pick : Option ℕ) (oldest : UInt32)
    (hpick : ∀ p, pick = some p →
      p < audioRtpFecCacheBlocks ∧ oldest = UInt32.ofNat (usedAt p)) :
    pickLoop blocks is pick oldest =
      is.foldl (List.argAux fun b c => usedAt b < usedAt c) pick := by
  induction is generalizing pick oldest with
  | nil => rfl
  | cons i is ih =>
      obtain ⟨hi, hvalid⟩ := his i List.mem_cons_self
      have hrest := fun j hj => his j (List.mem_cons_of_mem _ hj)
      have hstamp := hrecent.1 i hi
      rw [pickLoop, List.foldl_cons, hvalid]
      simp only [Bool.not_true, Bool.false_eq_true, if_false]
      cases pick with
      | none =>
          rw [if_pos (Or.inl rfl)]
          refine ih hrest (some i) _ fun p hp => ?_
          cases hp
          exact ⟨hi, hstamp⟩
      | some p =>
          obtain ⟨hp, rfl⟩ := hpick p rfl
          have holder : ((some p = none) ∨ (blocks i).lastUseUs -
              UInt32.ofNat (usedAt p) > 0x80000000) ↔ usedAt i < usedAt p := by
            rw [hstamp, SerialNumber.half_lt_sub_iff
              (hrecent.2 i hi p hp) (hrecent.2 p hp i hi)]
            simp
          by_cases hlt : usedAt i < usedAt p
          · have hkeep : List.argAux (fun b c => usedAt b < usedAt c)
                (some p) i = some i := if_pos hlt
            rw [if_pos (holder.mpr hlt), hkeep]
            refine ih hrest (some i) _ fun q hq => ?_
            cases hq
            exact ⟨hi, hstamp⟩
          · have hkeep : List.argAux (fun b c => usedAt b < usedAt c)
                (some p) i = some p := if_neg hlt
            rw [if_neg (fun h => hlt (holder.mp h)), hkeep]
            refine ih hrest (some p) _ fun q hq => ?_
            cases hq
            exact ⟨hp, rfl⟩

theorem placeBlock_eq (blocks : ℕ → FecBlock) (now : UInt32) (x : FecShard) :
    ∃ i < audioRtpFecCacheBlocks, placeBlock blocks now x =
      (some i, Function.update blocks i ((blocks i).renew now x)) := by
  obtain ⟨i, hpick, hmem⟩ := pickLoop_mem blocks
    (List.range audioRtpFecCacheBlocks) none 0 (Or.inl (by decide))
  refine ⟨i, List.mem_range.mp (hmem.resolve_right (by simp)), ?_⟩
  rw [placeBlock, hpick]

/-- With every slot taken the block of the smallest reading goes. -/
theorem placeBlock_least_recent {usedAt : ℕ → ℕ}
    (hfull : ∀ i < audioRtpFecCacheBlocks, (blocks i).valid = true)
    (hrecent : Recent blocks usedAt) {i : ℕ}
    (h : (placeBlock blocks now x).1 = some i) :
    ∀ j < audioRtpFecCacheBlocks, usedAt i ≤ usedAt j := by
  intro j hj
  have hpick : pickLoop blocks (List.range audioRtpFecCacheBlocks) none 0 =
      some i := by
    obtain ⟨k, -, heq⟩ := placeBlock_eq blocks now x
    rw [heq] at h
    rw [placeBlock] at heq
    cases hloop : pickLoop blocks (List.range audioRtpFecCacheBlocks) none 0 with
    | none =>
        rw [hloop] at heq
        cases congrArg Prod.fst heq
    | some p =>
        rw [hloop] at heq
        exact (congrArg Prod.fst heq).trans h
  rw [pickLoop_eq_argmin hrecent _
    (fun k hk => ⟨List.mem_range.mp hk, hfull k (List.mem_range.mp hk)⟩) none 0
    (fun p hp => by cases hp)] at hpick
  exact List.le_of_mem_argmin (List.mem_range.mpr hj) hpick

/-! ## Finding or making a block -/

/-- The slot holds the block that the shard belongs to. -/
def FecBlock.isFor (b : FecBlock) (x : FecShard) : Prop :=
  b.hasBase x.baseSeq = true ∧ b.fits x = true

/-- The block was there: it is used now. -/
def Found (blocks : ℕ → FecBlock) (now : UInt32) (x : FecShard) (i : ℕ)
    (after : ℕ → FecBlock) : Prop :=
  (blocks i).isFor x ∧
    after = Function.update blocks i { blocks i with lastUseUs := now }

/-- The block is a new one.  Of the others those that are still valid are as
before, and have other numbers. -/
structure Made (blocks : ℕ → FecBlock) (now : UInt32) (x : FecShard) (i : ℕ)
    (after : ℕ → FecBlock) : Prop where
  not_isFor : ¬ (blocks i).isFor x
  made : ∃ b : FecBlock, after i = b.renew now x
  others : ∀ j < audioRtpFecCacheBlocks, j ≠ i → (after j).valid = true →
    after j = blocks j ∧ (blocks j).baseSeq ≠ x.baseSeq

theorem made_of_placeBlock (now : UInt32) {kept : ℕ → FecBlock}
    (hkept : ∀ j < audioRtpFecCacheBlocks, (kept j).valid = true →
      kept j = blocks j ∧ (blocks j).baseSeq ≠ x.baseSeq)
    (hfor : ∀ j < audioRtpFecCacheBlocks, ¬ (blocks j).isFor x) :
    ∃ i < audioRtpFecCacheBlocks, ∃ after,
      placeBlock kept now x = (some i, after) ∧ Made blocks now x i after := by
  obtain ⟨i, hi, hplace⟩ := placeBlock_eq kept now x
  refine ⟨i, hi, _, hplace, hfor i hi, ⟨kept i, Function.update_self ..⟩, ?_⟩
  intro j hj hji hvalid
  rw [Function.update_of_ne hji] at hvalid ⊢
  exact hkept j hj hvalid

/-- `audio_rtp_fec_get_block` on an accepted size finds the block or makes it. -/
theorem audioRtpFecGetBlock_cases (now : UInt32)
    (hdistinct : DistinctBases blocks)
    (hsize : ¬ (x.blockSize = 0 ∨ x.blockSize > audioRtpFecPayloadMax)) :
    ∃ i < audioRtpFecCacheBlocks, ∃ after,
      audioRtpFecGetBlock blocks now x = (some i, after) ∧
        (Found blocks now x i after ∨ Made blocks now x i after) := by
  rw [audioRtpFecGetBlock, if_neg hsize]
  cases hfind : findBlock blocks x.baseSeq with
  | none =>
      have habsent := findBlock_eq_none hfind
      have hkept : ∀ j < audioRtpFecCacheBlocks, (blocks j).valid = true →
          blocks j = blocks j ∧ (blocks j).baseSeq ≠ x.baseSeq := by
        intro j hj hvalid
        refine ⟨rfl, fun heq => ?_⟩
        have hbase := FecBlock.hasBase_iff.mpr ⟨hvalid, heq⟩
        rw [habsent j hj] at hbase
        cases hbase
      obtain ⟨i, hi, after, hplace, hmade⟩ := made_of_placeBlock now
        hkept fun j hj hfor => by
          have hbase := hfor.1
          rw [habsent j hj] at hbase
          cases hbase
      exact ⟨i, hi, after, hplace, Or.inr hmade⟩
  | some p =>
      obtain ⟨hp, hbase⟩ := findBlock_eq_some hfind
      obtain ⟨hpvalid, hpbase⟩ := FecBlock.hasBase_iff.mp hbase
      by_cases hfits : (blocks p).fits x = true
      · exact ⟨p, hp, _, if_pos hfits, Or.inl ⟨⟨hbase, hfits⟩, rfl⟩⟩
      · -- the block of another shape is no longer valid
        have hkept : ∀ j < audioRtpFecCacheBlocks,
            (Function.update blocks p { blocks p with valid := false }
              j).valid = true →
            Function.update blocks p { blocks p with valid := false } j =
              blocks j ∧ (blocks j).baseSeq ≠ x.baseSeq := by
          intro j hj hvalid
          by_cases hjp : j = p
          · subst j
            rw [Function.update_self] at hvalid
            cases hvalid
          · rw [Function.update_of_ne hjp] at hvalid ⊢
            refine ⟨rfl, fun heq => hjp ?_⟩
            exact hdistinct j hj p hp hvalid hpvalid (heq.trans hpbase.symm)
        obtain ⟨i, hi, after, hplace, hmade⟩ := made_of_placeBlock now
          hkept fun j hj hfor => by
            obtain ⟨hvalid, hjbase⟩ := FecBlock.hasBase_iff.mp hfor.1
            have hjp := hdistinct j hj p hp hvalid hpvalid
              (hjbase.trans hpbase.symm)
            subst j
            exact hfits hfor.2
        exact ⟨i, hi, after, (if_neg hfits).trans hplace, Or.inr hmade⟩

/-- Only validity and number of a block matter. -/
theorem DistinctBases.update (h : DistinctBases blocks) {i : ℕ} {b : FecBlock}
    (hvalid : b.valid = (blocks i).valid)
    (hbase : b.baseSeq = (blocks i).baseSeq) :
    DistinctBases (Function.update blocks i b) := by
  have hsame : ∀ j, (Function.update blocks i b j).valid = (blocks j).valid ∧
      (Function.update blocks i b j).baseSeq = (blocks j).baseSeq := by
    intro j
    by_cases hji : j = i
    · subst j
      rw [Function.update_self]
      exact ⟨hvalid, hbase⟩
    · rw [Function.update_of_ne hji]
      exact ⟨rfl, rfl⟩
  intro j hj k hk hjvalid hkvalid heq
  rw [(hsame j).1] at hjvalid
  rw [(hsame k).1] at hkvalid
  rw [(hsame j).2, (hsame k).2] at heq
  exact h j hj k hk hjvalid hkvalid heq

theorem Found.distinct {i : ℕ} {after : ℕ → FecBlock}
    (h : Found blocks now x i after) (hdistinct : DistinctBases blocks) :
    DistinctBases after := by
  rw [h.2]
  exact hdistinct.update rfl rfl

theorem Made.distinct {i : ℕ} {after : ℕ → FecBlock}
    (h : Made blocks now x i after) (hdistinct : DistinctBases blocks) :
    DistinctBases after := by
  obtain ⟨b, hb⟩ := h.made
  have hbase : (after i).baseSeq = x.baseSeq := by
    rw [hb]
    rfl
  intro j hj k hk hvalid hvalid' heq
  by_cases hji : j = i
  · by_cases hki : k = i
    · rw [hji, hki]
    · obtain ⟨hkeep, hne⟩ := h.others k hk hki hvalid'
      rw [hji, hbase, hkeep] at heq
      exact absurd heq.symm hne
  · obtain ⟨hkeep, hne⟩ := h.others j hj hji hvalid
    by_cases hki : k = i
    · rw [hki, hbase, hkeep] at heq
      exact absurd heq hne
    · obtain ⟨hkeep', -⟩ := h.others k hk hki hvalid'
      rw [hkeep] at hvalid heq
      rw [hkeep'] at hvalid' heq
      exact hdistinct j hj k hk hvalid hvalid' heq

end MoonlightPsp.Audio
