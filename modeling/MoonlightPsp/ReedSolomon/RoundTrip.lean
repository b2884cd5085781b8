import MoonlightPsp.ReedSolomon.Elimination
import Mathlib.Algebra.BigOperators.Fin
import Mathlib.Data.List.GetD
import Mathlib.Data.List.Perm.Basic

/-!
# Encoding followed by reconstruction

The context that `reedSolomonNew` configures holds a Cauchy matrix, so any
choice of as many parity rows as there are missing data columns can be
eliminated.  The main lemma `reedSolomonReconstruct_spec` is stated for one byte
column at a time: a column in which the received shards agree with some data is
restored to those data, whatever the other columns hold.
-/

namespace MoonlightPsp.ReedSolomon

open CauchyElimination

/-! ## Choosing shards -/

/-- The unmarked shards from `j` on, below `limit`. -/
def unmarkedFrom (marks : ℕ → Bool) (limit j : ℕ) : List ℕ :=
  (List.range' j (limit - j)).filter fun k => !marks k

theorem filter_range'_of_find? {p : ℕ → Bool} {j n k : ℕ}
    (h : (List.range' j n).find? p = some k) :
    (List.range' j n).filter p =
      k :: (List.range' (k + 1) (j + n - (k + 1))).filter p := by
  induction n generalizing j with
  | zero => simp at h
  | succ n ih =>
      rw [List.range'_succ] at h ⊢
      by_cases hp : p j = true
      · rw [List.find?_cons_of_pos hp] at h
        obtain rfl : j = k := Option.some.inj h
        rw [List.filter_cons_of_pos hp]
        congr 3
        omega
      · rw [List.find?_cons_of_neg hp] at h
        rw [List.filter_cons_of_neg hp, ih h]
        congr 4
        omega

theorem unmarkedFrom_of_nextUnmarked {marks : ℕ → Bool} {limit j k : ℕ}
    (h : nextUnmarked marks limit j = some k) :
    unmarkedFrom marks limit j = k :: unmarkedFrom marks limit (k + 1) := by
  have hmem := List.mem_of_find?_eq_some h
  rw [List.mem_range'_1] at hmem
  rw [unmarkedFrom, filter_range'_of_find? h, unmarkedFrom]
  congr 4
  omega

/-- Collecting as many shards as there are takes the first unmarked ones. -/
theorem collectUnmarked_eq (marks : ℕ → Bool) (limit : ℕ) :
    ∀ n j, n ≤ (unmarkedFrom marks limit j).length →
      collectUnmarked marks limit n j =
        ((unmarkedFrom marks limit j).take n, true) := by
  intro n
  induction n with
  | zero => intro j _; simp [collectUnmarked]
  | succ n ih =>
      intro j hn
      cases hnext : nextUnmarked marks limit j with
      | none =>
          have hempty : unmarkedFrom marks limit j = [] := by
            rw [unmarkedFrom, List.filter_eq_nil_iff]
            exact List.find?_eq_none.mp hnext
          rw [hempty] at hn
          simp at hn
      | some k =>
          have hsplit := unmarkedFrom_of_nextUnmarked hnext
          rw [hsplit] at hn ⊢
          simp only [collectUnmarked, hnext,
            ih (k + 1) (by simpa using hn), List.take_succ_cons]

/-! ## The matrix of a configured context -/

/-- The context as `reedSolomonNew` leaves it after a success. -/
structure Configured (rs : RsContext) (ds ps : ℕ) : Prop where
  dataShards : rs.dataShards = ds
  parityShards : rs.parityShards = ps
  shards : rs.shards = ds + ps
  parityBuf : rs.parityBuf = cauchyParity ds ps
  data_pos : 0 < ds
  parity_pos : 0 < ps
  le_max : ds + ps ≤ dataShardsMax

theorem reedSolomonNew_configured (rs : RsContext) {ds ps : ℕ}
    (hds : 1 ≤ ds) (hps : 1 ≤ ps) (hmax : ds + ps ≤ dataShardsMax) :
    (reedSolomonNew rs ds ps).1 = true ∧
      Configured (reedSolomonNew rs ds ps).2 ds ps := by
  have hcond : ¬ (ds + ps > dataShardsMax ∨ ds = 0 ∨ ps = 0) := by omega
  simp only [reedSolomonNew, if_neg hcond]
  exact ⟨trivial, rfl, rfl, rfl, rfl, hds, hps, hmax⟩

theorem gfOfNat_xor (a b : ℕ) :
    gfOfNat (a ^^^ b) = gfOfNat a + gfOfNat b :=
  Gf.ext (UInt8.ofNat_xor a b)

theorem gfOfNat_inj {a b : ℕ} (ha : a < 256) (hb : b < 256)
    (h : gfOfNat a = gfOfNat b) : a = b := by
  have hbyte := congrArg (fun x : Gf => x.byte.toNat) h
  simpa [gfOfNat, Nat.mod_eq_of_lt ha, Nat.mod_eq_of_lt hb] using hbyte

theorem cauchyParity_entry {ds ps r i : ℕ} (hr : r < ps) (hi : i < ds) :
    cauchyParity ds ps (r * ds + i) =
      (gfOfNat r + gfOfNat (ps + i))⁻¹ := by
  have hflat : r * ds + i < ps * ds := flat_lt hi hr
  have hdiv : (r * ds + i) / ds = r := by
    rw [mul_comm, Nat.mul_add_div (by omega), Nat.div_eq_of_lt hi, add_zero]
  have hmod : (r * ds + i) % ds = i := by
    rw [mul_comm, Nat.mul_add_mod, Nat.mod_eq_of_lt hi]
  rw [cauchyParity, if_pos hflat, hdiv, hmod, gfOfNat_xor, add_comm]

/-- Any choice of distinct parity rows and data columns is a Cauchy matrix. -/
theorem nodes_of_configured {rs : RsContext} {ds ps : ℕ}
    (h : Configured rs ds ps) {W : ℕ} {d q : ℕ → ℕ}
    (hd : ∀ i < W, d i < ps) (hq : ∀ i < W, q i < ds)
    (hdinj : ∀ i < W, ∀ j < W, d i = d j → i = j)
    (hqinj : ∀ i < W, ∀ j < W, q i = q j → i = j) :
    Nodes (fun i => gfOfNat (d i)) (fun j => gfOfNat (ps + q j)) W := by
  have hmax : ds + ps ≤ 128 := h.le_max
  refine ⟨fun i hi j hj hij heq => ?_, fun i hi j hj hij heq => ?_,
    fun i hi j hj hzero => ?_⟩
  · have hdi := hd i hi
    have hdj := hd j hj
    exact hij (hdinj i hi j hj (gfOfNat_inj (by omega) (by omega) heq))
  · have hqi := hq i hi
    have hqj := hq j hj
    have := gfOfNat_inj (by omega) (by omega) heq
    exact hij (hqinj i hi j hj (by omega))
  · have hdi := hd i hi
    have hqj := hq j hj
    have heq : gfOfNat (d i) = gfOfNat (ps + q j) := by
      rw [← Gf.sub_eq_add] at hzero
      exact sub_eq_zero.mp hzero
    have := gfOfNat_inj (by omega) (by omega) heq
    omega

/-- A context that can decode: whichever parity rows and data columns are chosen,
eliminating the columns one after the other finds no vanishing pivot. -/
structure Decodes (rs : RsContext) (ds ps : ℕ) : Prop where
  dataShards : rs.dataShards = ds
  parityShards : rs.parityShards = ps
  shards : rs.shards = ds + ps
  data_pos : 0 < ds
  le_max : ds + ps ≤ dataShardsMax
  pivots : ∀ {W : ℕ} {d q : ℕ → ℕ}, (∀ i < W, d i < ps) →
    (∀ i < W, q i < ds) → (∀ i < W, ∀ j < W, d i = d j → i = j) →
    (∀ i < W, ∀ j < W, q i = q j → i = j) →
    Pivots (fun i j => rs.parityBuf (d i * ds + q j)) W

theorem Configured.decodes {rs : RsContext} {ds ps : ℕ}
    (h : Configured rs ds ps) : Decodes rs ds ps := by
  refine ⟨h.dataShards, h.parityShards, h.shards, h.data_pos, h.le_max,
    fun hd hq hdinj hqinj => ?_⟩
  refine (nodes_of_configured h hd hq hdinj hqinj).pivots fun i hi j hj => ?_
  rw [h.parityBuf, cauchyParity_entry (hd i hi) (hq j hj)]

/-! ## Sums over chosen columns -/

theorem sum_range_getD (l : List ℕ) (f : ℕ → Gf) :
    ∑ i ∈ Finset.range l.length, f (l.getD i 0) = (l.map f).sum := by
  induction l with
  | nil => simp
  | cons x l ih =>
      rw [List.length_cons, Finset.sum_range_succ', List.map_cons,
        List.sum_cons, ← ih]
      simp [add_comm]

/-- A sum over all data shards, split into the present and the missing ones. -/
theorem sum_present_add_missing (marks : ℕ → Bool) (ds : ℕ) (f : ℕ → Gf) :
    ∑ i ∈ Finset.range ds, f i =
      (((List.range ds).filter fun i => !marks i).map f).sum +
        (((List.range ds).filter marks).map f).sum := by
  have hperm := List.filter_append_perm (fun i => !marks i) (List.range ds)
  have hsum := (hperm.map f).sum_eq
  simp only [Bool.not_not] at hsum
  rw [List.map_append, List.sum_append] at hsum
  have hrange := sum_range_getD (List.range ds) f
  rw [List.length_range] at hrange
  rw [hsum, ← hrange]
  refine Finset.sum_congr rfl fun i hi => ?_
  rw [List.getD_eq_getElem _ _ (by simpa using hi), List.getElem_range]

/-- The same split, by position in the two lists. -/
theorem sum_range_split (marks : ℕ → Bool) (ds : ℕ) {V E : List ℕ}
    (hV : V = (List.range ds).filter fun i => !marks i)
    (hE : E = (List.range ds).filter marks) (f : ℕ → Gf) :
    ∑ i ∈ Finset.range ds, f i =
      (∑ i ∈ Finset.range V.length, f (V.getD i 0)) +
        ∑ i ∈ Finset.range E.length, f (E.getD i 0) := by
  rw [sum_range_getD, sum_range_getD, hV, hE]
  exact sum_present_add_missing marks ds f

/-! ## Loops that write shards -/

theorem getD_mem {l : List ℕ} {i : ℕ} (hi : i < l.length) :
    l.getD i 0 ∈ l := by
  rw [List.getD_eq_getElem _ _ hi]
  exact List.getElem_mem hi


theorem getD_inj_of_nodup {l : List ℕ} (h : l.Nodup) {i j : ℕ}
    (hi : i < l.length) (hj : j < l.length) (heq : l.getD i 0 = l.getD j 0) :
    i = j := by
  rw [List.getD_eq_getElem _ _ hi, List.getD_eq_getElem _ _ hj] at heq
  exact (List.Nodup.getElem_inj_iff h).mp heq

/-- Copying one shard after the other over the shards of a list. -/
theorem foldl_memcpy_apply {E rows : List ℕ} (hlen : E.length = rows.length)
    (hnodup : E.Nodup) (hdisj : ∀ r ∈ rows, r ∉ E) (data : ℕ → Buf)
    (n : ℕ) :
    (∀ k, k ∉ E → (E.zip rows).foldl (fun data (e, j) =>
      Function.update data e ((data e).memcpy (data j) n)) data k = data k) ∧
    ∀ i < E.length, (E.zip rows).foldl (fun data (e, j) =>
      Function.update data e ((data e).memcpy (data j) n)) data (E.getD i 0) =
        (data (E.getD i 0)).memcpy (data (rows.getD i 0)) n := by
  induction E generalizing rows data with
  | nil => simp
  | cons e E ih =>
      cases rows with
      | nil => simp at hlen
      | cons r rows =>
          have hlen' : E.length = rows.length := by simpa using hlen
          have hdisj' : ∀ r ∈ rows, r ∉ E := fun r hr h =>
            hdisj r (List.mem_cons_of_mem _ hr) (List.mem_cons_of_mem _ h)
          obtain ⟨heE, hE⟩ := List.nodup_cons.mp hnodup
          obtain ⟨hkeep, hcopy⟩ := ih hlen' hE hdisj'
            (Function.update data e ((data e).memcpy (data r) n))
          simp only [List.zip_cons_cons, List.foldl_cons]
          refine ⟨fun k hk => ?_, fun i hi => ?_⟩
          · simp only [List.mem_cons, not_or] at hk
            rw [hkeep k hk.2, Function.update_of_ne hk.1]
          · cases i with
            | zero =>
                simp only [List.getD_cons_zero]
                rw [hkeep e heE, Function.update_self]
            | succ i =>
                have hi' : i < E.length := by simpa using hi
                simp only [List.getD_cons_succ]
                rw [hcopy i hi']
                have hmem : E.getD i 0 ∈ E := getD_mem hi'
                have hrmem : rows.getD i 0 ∈ rows := getD_mem (hlen' ▸ hi')
                have hne : E.getD i 0 ≠ e := fun h => heE (h ▸ hmem)
                have hrne : rows.getD i 0 ≠ e := fun h =>
                  hdisj _ (List.mem_cons_of_mem _ hrmem)
                    (h ▸ List.mem_cons_self)
                rw [Function.update_of_ne hne, Function.update_of_ne hrne]

/-! ## The permutation of one block -/

/-- The data shards marked as missing. -/
def missingData (marks : ℕ → Bool) (ds : ℕ) : List ℕ :=
  (List.range ds).filter marks

/-- The data shards that are present. -/
def presentData (marks : ℕ → Bool) (ds : ℕ) : List ℕ :=
  (List.range ds).filter fun i => !marks i

/-- The parity shards that are present, by number. -/
def presentParity (marks : ℕ → Bool) (ds ps : ℕ) : List ℕ :=
  (List.range ps).filter fun i => !marks (ds + i)

/-- The parity shards taken for the missing data shards. -/
def takenRows (marks : ℕ → Bool) (ds ps : ℕ) : List ℕ :=
  (unmarkedFrom marks (ds + ps) ds).take (missingData marks ds).length

/-- `s_nano_colperm`: the present data shards first. -/
def colPerm (marks : ℕ → Bool) (ds i : ℕ) : ℕ :=
  (presentData marks ds ++ missingData marks ds).getD i 0

/-- `s_nano_rowperm`: the parity shards taken, by number. -/
def rowPerm (marks : ℕ → Bool) (ds ps i : ℕ) : ℕ :=
  (takenRows marks ds ps).getD i 0 - ds

section Permutation

variable {marks : ℕ → Bool} {ds ps : ℕ}

theorem mem_missingData {k : ℕ} :
    k ∈ missingData marks ds ↔ k < ds ∧ marks k = true := by
  simp [missingData]

theorem mem_presentData {k : ℕ} :
    k ∈ presentData marks ds ↔ k < ds ∧ marks k = false := by
  simp [presentData]

theorem nodup_missingData : (missingData marks ds).Nodup :=
  List.nodup_range.filter _

theorem length_present_add_missing (marks : ℕ → Bool) (ds : ℕ) :
    (presentData marks ds).length + (missingData marks ds).length = ds := by
  have hperm := List.filter_append_perm (fun i => !marks i) (List.range ds)
  have hlen := hperm.length_eq
  simpa [presentData, missingData] using hlen

theorem nodup_present_append_missing :
    (presentData marks ds ++ missingData marks ds).Nodup := by
  refine (List.nodup_range.filter _).append nodup_missingData
    fun k hpresent hmissing => ?_
  have hfalse := (mem_presentData.mp hpresent).2
  rw [(mem_missingData.mp hmissing).2] at hfalse
  cases hfalse

theorem colPerm_present {i : ℕ} (hi : i < (presentData marks ds).length) :
    colPerm marks ds i = (presentData marks ds).getD i 0 :=
  List.getD_append _ _ _ _ hi

theorem colPerm_missing (i : ℕ) :
    colPerm marks ds ((presentData marks ds).length + i) =
      (missingData marks ds).getD i 0 := by
  rw [colPerm, List.getD_append_right _ _ _ _ (by omega),
    Nat.add_sub_cancel_left]

theorem colPerm_inj : ∀ i < ds, ∀ j < ds,
    colPerm marks ds i = colPerm marks ds j → i = j := by
  intro i hi j hj heq
  have hlen : (presentData marks ds ++ missingData marks ds).length = ds := by
    rw [List.length_append, length_present_add_missing]
  exact getD_inj_of_nodup nodup_present_append_missing (by omega) (by omega) heq

theorem mem_takenRows {k : ℕ} (hk : k ∈ takenRows marks ds ps) :
    ds ≤ k ∧ k < ds + ps ∧ marks k = false := by
  have hk' := List.mem_of_mem_take hk
  simp only [unmarkedFrom, List.mem_filter, List.mem_range'_1,
    Bool.not_eq_true'] at hk'
  exact ⟨hk'.1.1, by omega, hk'.2⟩

variable (hrows : (missingData marks ds).length ≤
  (unmarkedFrom marks (ds + ps) ds).length)

include hrows

theorem length_takenRows :
    (takenRows marks ds ps).length = (missingData marks ds).length := by
  rw [takenRows, List.length_take, Nat.min_eq_left hrows]

theorem takenRow {i : ℕ} (hi : i < (missingData marks ds).length) :
    ds ≤ (takenRows marks ds ps).getD i 0 ∧
      (takenRows marks ds ps).getD i 0 < ds + ps ∧
      marks ((takenRows marks ds ps).getD i 0) = false :=
  mem_takenRows (getD_mem (by rw [length_takenRows hrows]; exact hi))

theorem rowPerm_lt {i : ℕ} (hi : i < (missingData marks ds).length) :
    rowPerm marks ds ps i < ps := by
  have := takenRow hrows hi
  rw [rowPerm]
  omega

theorem rowPerm_inj : ∀ i < (missingData marks ds).length,
    ∀ j < (missingData marks ds).length,
      rowPerm marks ds ps i = rowPerm marks ds ps j → i = j := by
  intro i hi j hj heq
  have hi' := takenRow hrows hi
  have hj' := takenRow hrows hj
  have hlen := length_takenRows hrows
  have hnodup : (takenRows marks ds ps).Nodup :=
    (List.take_sublist _ _).nodup ((List.nodup_range').filter _)
  simp only [rowPerm] at heq
  exact getD_inj_of_nodup hnodup (by omega) (by omega) (by omega)

/-- The rows taken and the columns missing can be eliminated. -/
theorem pivots_of_perm {rs : RsContext} (h : Decodes rs ds ps) :
    Pivots (fun i j => rs.parityBuf (rowPerm marks ds ps i * ds +
      colPerm marks ds ((presentData marks ds).length + j)))
      (missingData marks ds).length := by
  refine h.pivots (fun i hi => rowPerm_lt hrows hi)
    (fun i hi => ?_) (rowPerm_inj hrows) (fun i hi j hj heq => ?_)
  · rw [colPerm_missing]
    exact (mem_missingData.mp (getD_mem hi)).1
  · rw [colPerm_missing, colPerm_missing] at heq
    exact getD_inj_of_nodup nodup_missingData hi hj heq

end Permutation

/-! ## Decoding one block -/

/-- The shards after each missing one was overwritten by its parity shard. -/
def seededShards (marks : ℕ → Bool) (ds ps : ℕ) (data : ℕ → Buf) (bs : ℕ) :
    ℕ → Buf :=
  ((missingData marks ds).zip (takenRows marks ds ps)).foldl
    (fun data (e, j) => Function.update data e ((data e).memcpy (data j) bs))
    data

section Decode

variable {rs : RsContext} {marks : ℕ → Bool} {ds ps : ℕ}
  (h : Decodes rs ds ps)
  (hrows : (missingData marks ds).length ≤
    (unmarkedFrom marks (ds + ps) ds).length)

include hrows

theorem seededShards_apply (data : ℕ → Buf) (bs : ℕ) :
    (∀ k, k ∉ missingData marks ds →
      seededShards marks ds ps data bs k = data k) ∧
    ∀ i < (missingData marks ds).length,
      seededShards marks ds ps data bs ((missingData marks ds).getD i 0) =
        (data ((missingData marks ds).getD i 0)).memcpy
          (data ((takenRows marks ds ps).getD i 0)) bs := by
  refine foldl_memcpy_apply (length_takenRows hrows).symm nodup_missingData
    (fun r hr hmissing => ?_) data bs
  have := (mem_takenRows hr).1
  have := (mem_missingData.mp hmissing).1
  omega

include h

theorem nanorsDecodeShards_eq (data : ℕ → Buf) (bs : ℕ) :
    nanorsDecodeShards rs data marks (ds + ps) bs =
      if (missingData marks ds).length = 0 then (0, data)
      else nanorsInvertMat rs.parityBuf (fun _ => 0)
        (seededShards marks ds ps data bs) (presentData marks ds).length ds bs
        (colPerm marks ds) (rowPerm marks ds ps) := by
  have hlen := length_present_add_missing marks ds
  have hunmarked : unmarkedFrom marks ds 0 = presentData marks ds := by
    rw [unmarkedFrom, Nat.sub_zero, presentData, List.range_eq_range']
  have hV0 : ds - (missingData marks ds).length =
      (presentData marks ds).length := by omega
  have hkept : collectUnmarked marks ds
      (ds - (missingData marks ds).length) 0 = (presentData marks ds, true) := by
    rw [collectUnmarked_eq marks ds _ _ (by rw [hunmarked]; omega), hunmarked,
      List.take_of_length_le (by omega)]
  have htaken : collectUnmarked marks (ds + ps) (missingData marks ds).length
      ds = (takenRows marks ds ps, true) :=
    collectUnmarked_eq marks (ds + ps) _ _ hrows
  rw [hV0] at hkept
  simp only [nanorsDecodeShards, h.dataShards, h.shards,
    ← missingData.eq_def, lt_irrefl, if_false, hV0, hkept, htaken,
    Bool.not_true, Bool.false_eq_true]
  rfl

/-- With enough parity shards, `nanorsDecodeShards` succeeds, changes only
missing shards, and restores every byte column in which the present shards agree
with some data. -/
theorem nanorsDecodeShards_spec (data : ℕ → Buf) (bs : ℕ) :
    (nanorsDecodeShards rs data marks (ds + ps) bs).1 = 0 ∧
    (∀ k, k ∉ missingData marks ds →
      (nanorsDecodeShards rs data marks (ds + ps) bs).2 k = data k) ∧
    (∀ k t, bs ≤ t →
      (nanorsDecodeShards rs data marks (ds + ps) bs).2 k t = data k t) ∧
    ∀ t < bs, ∀ D : ℕ → Gf,
      (∀ i < ds, marks i = false → data i t = D i) →
      (∀ r, r < ps → marks (ds + r) = false → data (ds + r) t =
        ∑ i ∈ Finset.range ds, rs.parityBuf (r * ds + i) * D i) →
      ∀ i < ds,
        (nanorsDecodeShards rs data marks (ds + ps) bs).2 i t = D i := by
  have hpresent : ∀ k < ds, k ∉ missingData marks ds → marks k = false :=
    fun k hk hmissing => by
      by_contra hmarked
      exact hmissing (mem_missingData.mpr ⟨hk, by simpa using hmarked⟩)
  rw [nanorsDecodeShards_eq h hrows]
  split_ifs with hgaps
  · refine ⟨rfl, fun _ _ => rfl, fun _ _ _ => rfl, fun t _ D hD _ i hi => ?_⟩
    refine hD i hi (hpresent i hi ?_)
    rw [List.length_eq_zero_iff.mp hgaps]
    simp
  · set E := missingData marks ds with hE
    set V := presentData marks ds with hV
    set c := colPerm marks ds with hc
    set d := rowPerm marks ds ps with hd
    have hlen : V.length + E.length = ds := length_present_add_missing marks ds
    have hW : ds - V.length = E.length := by omega
    have hcE : ∀ i, c (V.length + i) = E.getD i 0 := colPerm_missing
    obtain ⟨hkeep, hcopy⟩ := seededShards_apply hrows data bs
    obtain ⟨hret, hframe, hsolve⟩ := @nanorsInvertMat_spec
      rs.parityBuf (fun _ => 0) (seededShards marks ds ps data bs)
      V.length ds bs c d (by omega) colPerm_inj
      (by rw [hW]; exact pivots_of_perm hrows h)
    refine ⟨hret, fun k hk => ?_, fun k t ht => ?_,
      fun t ht D hD hP i hi => ?_⟩
    · rw [hframe.1 k fun i hi heq => hk ?_, hkeep k hk]
      rw [heq, hcE]
      exact getD_mem (by omega)
    · rw [hframe.2 k t ht]
      by_cases hkE : k ∈ E
      · obtain ⟨i, hi, rfl⟩ := List.getElem_of_mem hkE
        rw [← List.getD_eq_getElem _ 0 hi, hcopy i hi, Buf.memcpy,
          if_neg (by omega)]
      · rw [hkeep k hkE]
    · have hdata : ∀ k < ds, k ∉ E →
          seededShards marks ds ps data bs k t = D k := by
        intro k hk hkE
        rw [hkeep k hkE]
        exact hD k hk (hpresent k hk hkE)
      have hsystem := hsolve t ht (fun j => D (E.getD j 0)) ?_
      · by_cases hiE : i ∈ E
        · obtain ⟨j, hj, rfl⟩ := List.getElem_of_mem hiE
          have hsolved := hsystem j (by omega)
          rw [column, hcE, List.getD_eq_getElem _ 0 hj] at hsolved
          exact hsolved
        · rw [hframe.1 i fun j hj heq => hiE ?_]
          · exact hdata i hi hiE
          · rw [heq, hcE]
            exact getD_mem (by omega)
      · intro i hi
        rw [hW] at hi ⊢
        obtain ⟨hr₁, hr₂, hr₃⟩ := takenRow hrows hi
        have hback : ds + d i = (takenRows marks ds ps).getD i 0 := by
          rw [hd, rowPerm]
          omega
        have hparity := hP (d i) (rowPerm_lt hrows hi) (by rw [hback, hr₃])
        rw [column, hcE, hcopy i hi, Buf.memcpy, if_pos ht, ← hback, hparity,
          sum_range_split marks ds hV hE]
        refine congrArg₂ _ (Finset.sum_congr rfl fun j hj => ?_)
          (Finset.sum_congr rfl fun j hj => ?_)
        · have hj' := Finset.mem_range.mp hj
          have hmem := mem_presentData.mp (getD_mem hj')
          rw [hc, colPerm_present hj', hdata _ hmem.1 fun hkE => ?_]
          have hmarked := (mem_missingData.mp hkE).2
          rw [hmem.2] at hmarked
          cases hmarked
        · rw [hcE]

end Decode

/-! ## Reconstructing one block -/

theorem offset_mem_cons {ds k i : ℕ} {F : List ℕ} (hk : k ≠ ds + i) :
    (ds ≤ k ∧ k - ds ∈ i :: F) ↔ (ds ≤ k ∧ k - ds ∈ F) := by
  rw [List.mem_cons]
  constructor
  · rintro ⟨hle, heq | hmem⟩
    · omega
    · exact ⟨hle, hmem⟩
  · exact fun ⟨hle, hmem⟩ => ⟨hle, Or.inr hmem⟩

/-- The shards `reedSolomonDecode` works on: the data and the parity taken. -/
theorem foldl_subShards_apply (ds ps : ℕ) (shards : ℕ → Buf) {F : List ℕ}
    (hF : ∀ i ∈ F, i < ps) (base : ℕ → Buf) (k : ℕ) :
    (F.map fun i => (i, shards (ds + i))).foldl (fun sub (no, blk) =>
      if no < ps then Function.update sub (ds + no) blk else sub) base k =
        if ds ≤ k ∧ k - ds ∈ F then shards k else base k := by
  induction F generalizing base with
  | nil => simp
  | cons i F ih =>
      have hi : i < ps := hF i List.mem_cons_self
      simp only [List.map_cons, List.foldl_cons, if_pos hi]
      rw [ih fun j hj => hF j (List.mem_cons_of_mem _ hj)]
      by_cases hk : k = ds + i
      · subst k
        simp
      · rw [Function.update_of_ne hk]
        simp only [offset_mem_cons hk]

/-- The marks `reedSolomonDecode` sets: the missing data, and every parity shard
that was not taken. -/
theorem foldl_marks_apply (ds ps : ℕ) (blk : ℕ → Buf) {E F : List ℕ}
    (hlen : E.length = F.length) (hE : ∀ e ∈ E, e < ds) (hF : ∀ i ∈ F, i < ps)
    (base : ℕ → Bool) (k : ℕ) :
    (E.zip (F.map fun i => (i, blk i))).foldl (fun marks (e, no, _) =>
      let marks := if e < ds then Function.update marks e true else marks
      if no < ps then Function.update marks (ds + no) false else marks)
      base k =
        if k ∈ E then true
        else if ds ≤ k ∧ k - ds ∈ F then false else base k := by
  induction E generalizing F base with
  | nil =>
      obtain rfl : F = [] := List.length_eq_zero_iff.mp hlen.symm
      simp
  | cons e E ih =>
      cases F with
      | nil => simp at hlen
      | cons i F =>
          have he : e < ds := hE e List.mem_cons_self
          have hi : i < ps := hF i List.mem_cons_self
          simp only [List.map_cons, List.zip_cons_cons, List.foldl_cons,
            if_pos he, if_pos hi]
          rw [ih (by simpa using hlen)
            (fun j hj => hE j (List.mem_cons_of_mem _ hj))
            (fun j hj => hF j (List.mem_cons_of_mem _ hj))]
          by_cases hkE : k ∈ E
          · simp [hkE]
          · by_cases hki : k = ds + i
            · subst k
              have hne : ds + i ≠ e := by omega
              simp [hkE, hne]
            · by_cases hke : k = e
              · subst k
                have hnot : ¬ ds ≤ e := by omega
                simp [hkE, hnot, Function.update_of_ne hki]
              · have hkeE : k ∉ e :: E := by simp [hke, hkE]
                rw [if_neg hkE, if_neg hkeE, Function.update_of_ne hki,
                  Function.update_of_ne hke]
                simp only [offset_mem_cons hki]

/-- What reconstruction with the matrix `parity` did to a block it could
recover. -/
structure Recovered (parity : Buf) (ds ps : ℕ) (marks : ℕ → Bool) (bs : ℕ)
    (shards shards' : ℕ → Buf) : Prop where
  frame : ∀ k, ¬ (k < ds ∧ marks k = true) → shards' k = shards k
  beyond : ∀ k t, bs ≤ t → shards' k t = shards k t
  column : ∀ t < bs, ∀ D : ℕ → Gf,
    (∀ i < ds, marks i = false → shards i t = D i) →
    (∀ r < ps, marks (ds + r) = false → shards (ds + r) t =
      ∑ i ∈ Finset.range ds, parity (r * ds + i) * D i) →
    ∀ i < ds, shards' i t = D i

/-- Of what a decoder leaves only the data shards are taken. -/
theorem recovered_dataShards {parity : Buf} {ds ps bs : ℕ} {marks : ℕ → Bool}
    {shards data : ℕ → Buf}
    (hframe : ∀ k < ds, marks k = false → data k = shards k)
    (hbeyond : ∀ k < ds, ∀ t, bs ≤ t → data k t = shards k t)
    (hcolumn : ∀ t < bs, ∀ D : ℕ → Gf,
      (∀ i < ds, marks i = false → shards i t = D i) →
      (∀ r < ps, marks (ds + r) = false → shards (ds + r) t =
        ∑ i ∈ Finset.range ds, parity (r * ds + i) * D i) →
      ∀ i < ds, data i t = D i) :
    Recovered parity ds ps marks bs shards
      (fun i => if i < ds then data i else shards i) := by
  refine ⟨fun k hk => ?_, fun k t ht => ?_, fun t ht D hD hP i hi => ?_⟩
  · by_cases hkds : k < ds
    · simp only [if_pos hkds]
      exact hframe k hkds (Bool.eq_false_iff.mpr fun hmarked => hk ⟨hkds, hmarked⟩)
    · simp only [if_neg hkds]
  · by_cases hkds : k < ds
    · simp only [if_pos hkds]
      exact hbeyond k hkds t ht
    · simp only [if_neg hkds]
  · simp only [if_pos hi]
    exact hcolumn t ht D hD hP i hi

/-! ## The marks of the decoder -/

section DecodeMarks

variable {marks : ℕ → Bool} {ds ps k r : ℕ} {F : List ℕ}

/-- What `reedSolomonDecode` marks when it is given the parity shards `F`. -/
def decodeMarks (marks : ℕ → Bool) (ds : ℕ) (F : List ℕ) (k : ℕ) : Bool :=
  if k ∈ missingData marks ds then true
  else if ds ≤ k ∧ k - ds ∈ F then false
  else decide (ds ≤ k)

theorem decodeMarks_data (hk : k < ds) : decodeMarks marks ds F k = marks k := by
  have hnot : ¬ (ds ≤ k ∧ k - ds ∈ F) := by omega
  rw [decodeMarks, if_neg hnot]
  by_cases hmarked : marks k = true
  · rw [if_pos (mem_missingData.mpr ⟨hk, hmarked⟩), hmarked]
  · rw [if_neg fun hmem => hmarked (mem_missingData.mp hmem).2,
      Bool.eq_false_iff.mpr hmarked]
    exact decide_eq_false (by omega)

theorem decodeMarks_parity : decodeMarks marks ds F (ds + r) = false ↔ r ∈ F := by
  have hnot : ds + r ∉ missingData marks ds := fun hmem => by
    have := (mem_missingData.mp hmem).1
    omega
  rw [decodeMarks, if_neg hnot]
  by_cases hr : r ∈ F <;> simp [hr]

theorem missingData_decodeMarks :
    missingData (decodeMarks marks ds F) ds = missingData marks ds := by
  rw [missingData, missingData]
  exact List.filter_congr fun k hk => decodeMarks_data (List.mem_range.mp hk)

/-- The decoder finds every parity shard it is given. -/
theorem length_le_unmarkedFrom (hF : F.Nodup) (hlt : ∀ r ∈ F, r < ps) :
    F.length ≤ (unmarkedFrom (decodeMarks marks ds F) (ds + ps) ds).length := by
  have hnodup : (F.map (ds + ·)).Nodup :=
    hF.map fun a b hab => by simpa using hab
  have hsubset : F.map (ds + ·) ⊆ unmarkedFrom (decodeMarks marks ds F) (ds + ps) ds := by
    intro k hk
    obtain ⟨r, hr, rfl⟩ := List.mem_map.mp hk
    have hlt := hlt r hr
    simp only [unmarkedFrom, List.mem_filter, List.mem_range'_1,
      decodeMarks_parity.mpr hr, Bool.not_false, and_true]
    omega
  have hle := (hnodup.subperm hsubset).length_le
  rwa [List.length_map] at hle

end DecodeMarks

theorem reedSolomonDecode_spec {rs : RsContext} {ds ps : ℕ}
    (h : Decodes rs ds ps) (shards : ℕ → Buf) (marks : ℕ → Bool) (bs : ℕ)
    {F : List ℕ} (hF : F.Nodup)
    (hFmem : ∀ i ∈ F, i < ps ∧ marks (ds + i) = false)
    (hlen : F.length = (missingData marks ds).length) :
    ∃ data, reedSolomonDecode rs shards bs
        (F.map fun i => (i, shards (ds + i))) (missingData marks ds) =
          (0, data) ∧
      Recovered rs.parityBuf ds ps marks bs shards data := by
  set sub : ℕ → Buf := (F.map fun i => (i, shards (ds + i))).foldl
    (fun sub (no, blk) =>
      if no < ps then Function.update sub (ds + no) blk else sub)
    (fun i => if i < ds then shards i else fun _ => 0) with hsub
  have hsubEq : ∀ k, sub k = if ds ≤ k ∧ k - ds ∈ F then shards k
      else if k < ds then shards k else fun _ => 0 := fun k =>
    foldl_subShards_apply ds ps shards (fun i hi => (hFmem i hi).1) _ k
  have hsubData : ∀ k < ds, sub k = shards k := by
    intro k hk
    have hnot : ¬ (ds ≤ k ∧ k - ds ∈ F) := by omega
    rw [hsubEq, if_neg hnot, if_pos hk]
  have hmarks : ((missingData marks ds).zip (F.map fun i => (i, shards (ds + i)))).foldl
      (fun marks (e, no, _) =>
        let marks := if e < ds then Function.update marks e true else marks
        if no < ps then Function.update marks (ds + no) false else marks)
      (fun i => decide (ds ≤ i)) = decodeMarks marks ds F :=
    funext fun k => foldl_marks_apply ds ps _ hlen.symm
      (fun e he => (mem_missingData.mp he).1) (fun i hi => (hFmem i hi).1) _ k
  have hrows : (missingData (decodeMarks marks ds F) ds).length ≤
      (unmarkedFrom (decodeMarks marks ds F) (ds + ps) ds).length := by
    rw [missingData_decodeMarks, ← hlen]
    exact length_le_unmarkedFrom hF fun i hi => (hFmem i hi).1
  obtain ⟨hret, hkeep, hbeyond, hcolumn⟩ := nanorsDecodeShards_spec h hrows sub bs
  set result := nanorsDecodeShards rs sub (decodeMarks marks ds F) (ds + ps) bs with hresult
  refine ⟨fun i => if i < ds then result.2 i else shards i, ?_,
    recovered_dataShards (fun k hk hpresent => ?_) (fun k hk t ht => ?_)
      (fun t ht D hD hP => hcolumn t ht D (fun k hk hmarked => ?_)
        (fun r hr hmarked => ?_))⟩
  · have hmax : ¬ ds + ps > dataShardsMax := by
      have := h.le_max
      omega
    simp only [reedSolomonDecode, h.shards, h.dataShards, h.parityShards,
      if_neg hmax, ← hsub, hmarks, ← hresult, hret]
  · rw [hkeep k, hsubData k hk]
    rw [missingData_decodeMarks, mem_missingData, hpresent]
    exact fun hmissing => Bool.false_ne_true hmissing.2
  · rw [hbeyond k t ht, hsubData k hk]
  · rw [hsubData k hk]
    exact hD k hk (by rw [← hmarked, decodeMarks_data hk])
  · have hrF := decodeMarks_parity.mp hmarked
    have htaken : ds ≤ ds + r ∧ ds + r - ds ∈ F := by
      rw [Nat.add_sub_cancel_left]
      exact ⟨by omega, hrF⟩
    rw [hsubEq, if_pos htaken]
    exact hP r hr (hFmem r hrF).2

/-- `reedSolomonReconstruct` on one block, by the number of missing data and of
present parity shards. -/
theorem reedSolomonReconstruct_spec {rs : RsContext} {ds ps : ℕ}
    (h : Decodes rs ds ps) (shards : ℕ → Buf) (marks : ℕ → Bool) (bs : ℕ) :
    if (missingData marks ds).length ≤ (presentParity marks ds ps).length then
      ∃ shards', reedSolomonReconstruct rs shards marks (ds + ps) bs =
          (0, shards') ∧
        Recovered rs.parityBuf ds ps marks bs shards shards'
    else reedSolomonReconstruct rs shards marks (ds + ps) bs = (-1, shards) := by
  have hds := h.data_pos
  have hblocks : (ds + ps) / rs.shards = 1 := by
    rw [h.shards, Nat.div_self (by omega)]
  set F := (presentParity marks ds ps).take (missingData marks ds).length
    with hF
  set decoded := reedSolomonDecode rs shards bs
    (F.map fun i => (i, shards (ds + i))) (missingData marks ds) with hdecoded
  have hresult : reedSolomonReconstruct rs shards marks (ds + ps) bs =
      if (missingData marks ds).length = 0 then (0, shards)
      else if (missingData marks ds).length = F.length then
        (if decoded.1 ≠ 0 then decoded.1 else 0,
          fun i => if i < ds then decoded.2 i else shards i)
      else (-1, shards) := by
    simp only [reedSolomonReconstruct]
    rw [Loops.fold_one hblocks]
    simp [h.dataShards, h.parityShards, hblocks, missingData, presentParity, hF,
      hdecoded]
  split_ifs with hle
  · rw [hresult]
    by_cases hnone : (missingData marks ds).length = 0
    · refine ⟨shards, by rw [if_pos hnone], fun _ _ => rfl, fun _ _ _ => rfl,
        fun t _ D hD _ i hi => ?_⟩
      refine hD i hi (Bool.eq_false_iff.mpr fun hmarked => ?_)
      have hmem : i ∈ missingData marks ds :=
        mem_missingData.mpr ⟨hi, hmarked⟩
      rw [List.length_eq_zero_iff.mp hnone] at hmem
      simp at hmem
    · have hlen : F.length = (missingData marks ds).length := by
        rw [hF, List.length_take, Nat.min_eq_left hle]
      have hFnodup : F.Nodup :=
        (List.take_sublist _ _).nodup (List.nodup_range.filter _)
      have hFmem : ∀ i ∈ F, i < ps ∧ marks (ds + i) = false := by
        intro i hi
        have hi' := List.mem_of_mem_take hi
        simpa [presentParity] using hi'
      obtain ⟨data, hdecode, hrec⟩ :=
        reedSolomonDecode_spec h shards marks bs hFnodup hFmem hlen
      refine ⟨fun i => if i < ds then data i else shards i, ?_,
        recovered_dataShards (fun k _ hpresent => ?_) (fun k _ => hrec.beyond k)
          hrec.column⟩
      · rw [if_neg hnone, if_pos hlen.symm, hdecoded, hdecode]
        simp
      · apply hrec.frame k
        rw [hpresent]
        exact fun hmissing => Bool.false_ne_true hmissing.2
  · have hne : (missingData marks ds).length ≠ F.length := by
      rw [hF, List.length_take]
      omega
    rw [hresult, if_neg (by omega), if_neg hne]

/-! ## Encoding -/

/-- `codeSomeShards` writes the product of the matrix and the inputs. -/
theorem codeSomeShards_apply (matrixRows : Buf) (inputs outputs : ℕ → Buf)
    {ds ps bs : ℕ} (hds : 0 < ds) {j t : ℕ} (hj : j < ps) (ht : t < bs) :
    codeSomeShards matrixRows inputs outputs ds ps bs j t =
      ∑ i ∈ Finset.range ds, matrixRows (j * ds + i) * inputs i t := by
  have hloop := Loops.fold_invariant
    (fun m (out : ℕ → Buf) => 0 < m → ∀ j < ps,
      out j t = ∑ i ∈ Finset.range m, matrixRows (j * ds + i) * inputs i t)
    (n := ds) (s := outputs)
    (f := fun c _ outputs => Nat.fold ps (fun iRow _ outputs =>
      let u := matrixRows (iRow * ds + c)
      Function.update outputs iRow
        (if c = 0 then mul (outputs iRow) (inputs c) u bs
        else addmul (outputs iRow) (inputs c) u bs)) outputs)
    (fun h => absurd h (lt_irrefl 0)) ?_
  · exact hloop hds j hj
  · intro c hc out hout _
    have hrows := Loops.fold_invariant
      (fun r (out' : ℕ → Buf) => ∀ j < ps, out' j t =
        if j < r then
          if c = 0 then matrixRows (j * ds + c) * inputs c t
          else out j t + matrixRows (j * ds + c) * inputs c t
        else out j t)
      (n := ps) (s := out)
      (f := fun iRow _ outputs =>
        let u := matrixRows (iRow * ds + c)
        Function.update outputs iRow
          (if c = 0 then mul (outputs iRow) (inputs c) u bs
          else addmul (outputs iRow) (inputs c) u bs))
      (fun j _ => by simp) ?_
    · intro j hj
      rw [hrows j hj, if_pos hj, Finset.sum_range_succ]
      rcases Nat.eq_zero_or_pos c with rfl | hcpos
      · simp
      · rw [if_neg hcpos.ne', hout hcpos j hj]
    · intro row hrow out' hout' j hj
      by_cases hjr : j = row
      · subst j
        have hself := hout' row hrow
        rw [if_neg (lt_irrefl row)] at hself
        by_cases hc0 : c = 0 <;> simp [hc0, ht, hself]
      · have hiff : j < row + 1 ↔ j < row := by omega
        simp only [Function.update_of_ne hjr, hiff]
        exact hout' j hj

/-- `reedSolomonEncode` keeps the data and writes the parity after them. -/
theorem reedSolomonEncode_spec {rs : RsContext} {ds ps : ℕ}
    (h : Configured rs ds ps) (shards : ℕ → Buf) (bs : ℕ) :
    (∀ i < ds, reedSolomonEncode rs shards (ds + ps) bs i = shards i) ∧
    ∀ r < ps, ∀ t < bs,
      reedSolomonEncode rs shards (ds + ps) bs (ds + r) t =
        ∑ i ∈ Finset.range ds, cauchyParity ds ps (r * ds + i) * shards i t := by
  have hds := h.data_pos
  have hblocks : (ds + ps) / rs.shards = 1 := by
    rw [h.shards, Nat.div_self (by omega)]
  have hresult : reedSolomonEncode rs shards (ds + ps) bs = fun i =>
      if ds ≤ i ∧ i < ds + ps then
        codeSomeShards (cauchyParity ds ps) shards (fun j => shards (ds + j))
          ds ps bs (i - ds)
      else shards i := by
    simp only [reedSolomonEncode]
    rw [Loops.fold_one hblocks]
    simp [h.dataShards, h.parityShards, h.parityBuf, hblocks]
  rw [hresult]
  refine ⟨fun i hi => if_neg (by omega), fun r hr t ht => ?_⟩
  have hrange : ds ≤ ds + r ∧ ds + r < ds + ps := by omega
  simp only [if_pos hrange, Nat.add_sub_cancel_left]
  exact codeSomeShards_apply _ _ _ hds hr ht

/-! ## The round trip -/

/-- Encode, lose or damage the marked shards, reconstruct: with at least as many
parity shards left as data shards were lost every data shard is back and no
received shard has changed, otherwise the failure is reported and nothing has
changed. -/
theorem reedSolomon_round_trip (rs : RsContext) {ds ps : ℕ} (hds : 1 ≤ ds)
    (hps : 1 ≤ ps) (hmax : ds + ps ≤ dataShardsMax) (blockSize : ℕ)
    (blocks received : ℕ → Buf) (marks : ℕ → Bool)
    (hreceived : ∀ k < ds + ps, marks k = false → ∀ t < blockSize,
      received k t = reedSolomonEncode (reedSolomonNew rs ds ps).2 blocks
        (ds + ps) blockSize k t) :
    (reedSolomonNew rs ds ps).1 = true ∧
    if (missingData marks ds).length ≤ (presentParity marks ds ps).length then
      ∃ shards, reedSolomonReconstruct (reedSolomonNew rs ds ps).2 received
          marks (ds + ps) blockSize = (0, shards) ∧
        (∀ i < ds, ∀ t < blockSize, shards i t = blocks i t) ∧
        ∀ k, marks k = false → shards k = received k
    else
      (reedSolomonReconstruct (reedSolomonNew rs ds ps).2 received marks
        (ds + ps) blockSize).1 ≠ 0 ∧
      (reedSolomonReconstruct (reedSolomonNew rs ds ps).2 received marks
        (ds + ps) blockSize).2 = received := by
  obtain ⟨hnew, hconf⟩ := reedSolomonNew_configured rs hds hps hmax
  obtain ⟨hkeep, hparity⟩ := reedSolomonEncode_spec hconf blocks blockSize
  have hspec := reedSolomonReconstruct_spec hconf.decodes received marks blockSize
  refine ⟨hnew, ?_⟩
  split_ifs with hle
  · rw [if_pos hle] at hspec
    obtain ⟨shards, hresult, hrec⟩ := hspec
    refine ⟨shards, hresult, fun i hi t ht => ?_, fun k hk => ?_⟩
    · refine hrec.column t ht (fun i => blocks i t) (fun k hk hmarked => ?_)
        (fun r hr hmarked => ?_) i hi
      · rw [hreceived k (by omega) hmarked t ht, hkeep k hk]
      · rw [hreceived (ds + r) (by omega) hmarked t ht, hparity r hr t ht,
          hconf.parityBuf]
    · exact hrec.frame k fun hmissing => by simp [hk] at hmissing
  · rw [if_neg hle] at hspec
    rw [hspec]
    exact ⟨by simp, rfl⟩

/-- Three received shards of which the first, a data shard, holds garbage. -/
def firstLost : ℕ → Buf := fun k =>
  if k = 0 then fun _ => 0
  else reedSolomonEncode (reedSolomonNew RsContext.cleared 2 1).2
    (fun i _ => gfOfNat (5 + i)) (2 + 1) 1 k

theorem reedSolomon_round_trip_firstLost :
    ∃ shards, reedSolomonReconstruct (reedSolomonNew RsContext.cleared 2 1).2
        firstLost (fun k => decide (k = 0)) (2 + 1) 1 = (0, shards) ∧
      (∀ i < 2, ∀ t < 1, shards i t = gfOfNat (5 + i)) ∧
      ∀ k, decide (k = 0) = false → shards k = firstLost k :=
  (@reedSolomon_round_trip RsContext.cleared 2 1 (by decide) (by decide)
    (by decide) 1 (fun i _ => gfOfNat (5 + i)) firstLost
    (fun k => decide (k = 0))
    (fun k _ hk t _ => by
      have hne : k ≠ 0 := by simpa using hk
      simp only [firstLost, if_neg hne])).2

end MoonlightPsp.ReedSolomon
