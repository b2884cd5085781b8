import Mathlib.Algebra.Field.Basic
import Mathlib.Data.Finset.Card
import Mathlib.Data.List.Nodup
import Mathlib.Order.Interval.Finset.Nat

/-!
# The byte field of the Reed-Solomon codec

`rs.c` computes with bytes as elements of the field of 256 elements.
`generate_gf` fills an exponential table, a logarithm table and a table of
inverses from the generator polynomial `GF_PP`, and `init_mul_table` derives the
product table from them.  Addition is exclusive or.

The tables are rebuilt here by the same loops.  The field laws are then derived
from two facts about the tables, that exponential and logarithm invert each
other and that multiplying by the generator is linear.
-/

namespace MoonlightPsp

/-- `typedef unsigned char gf`: a byte taken as a field element. -/
@[ext] structure Gf where
  byte : UInt8
  deriving DecidableEq, Repr

namespace Gf

/-! ## The tables of `generate_gf` -/

/-- `GF_PP`, the coefficients of the generator polynomial, lowest first. -/
def gfPp : List Bool :=
  [true, false, true, true, true, false, false, false, true]

/-- `GF_SIZE`. -/
def gfSize : ℕ := 255

/-- `mask` at turn `i` of the first loop, which is also `gf_exp[i]`. -/
def gfMask (i : ℕ) : UInt8 := 1 <<< UInt8.ofNat i

/-- `gf_exp[GF_BITS]`: the mask of every turn whose coefficient is set. -/
def gfExpBits : UInt8 :=
  (List.range 8).foldl
    (fun acc i => if gfPp.getD i false then acc ^^^ gfMask i else acc) 0

/-- One turn of the loop from `GF_BITS + 1` on: shift, and reduce if a bit
falls out. -/
def gfExpNext (prev : UInt8) : UInt8 :=
  if prev ≥ 0x80 then gfExpBits ^^^ ((prev ^^^ 0x80) <<< 1) else prev <<< 1

/-- The entries that follow `prev` in `gf_exp`. -/
def gfExpFrom : ℕ → UInt8 → List UInt8
  | 0, _ => []
  | n + 1, prev => gfExpNext prev :: gfExpFrom n (gfExpNext prev)

/-- `gf_exp[0 .. GF_SIZE)`. -/
def gfExpTable : List UInt8 :=
  (List.range 8).map gfMask ++ gfExpBits :: gfExpFrom 246 gfExpBits

/-- `gf_exp`, whose second half repeats the first. -/
def gfExp (i : ℕ) : UInt8 :=
  if i < gfSize then gfExpTable.getD i 0 else gfExpTable.getD (i - gfSize) 0

/-- `gf_log`, with `GF_SIZE` standing for the missing logarithm of zero. -/
def gfLog (x : UInt8) : ℕ :=
  if x = 0 then gfSize else gfExpTable.idxOf x

/-- The loop of `modnn`; `fuel` bounds its turns. -/
def modnnLoop : ℕ → ℕ → ℕ
  | 0, x => x
  | fuel + 1, x =>
      if x ≥ gfSize then
        modnnLoop fuel (((x - gfSize) >>> 8) + ((x - gfSize) &&& gfSize))
      else x

/-- `modnn`: the argument modulo `GF_SIZE`. -/
def modnn (x : ℕ) : ℕ := modnnLoop x x

/-- `gf_mul_table`: row and column zero are cleared after the products of
logarithms are filled in. -/
def gfMulTable (x y : UInt8) : UInt8 :=
  if x = 0 ∨ y = 0 then 0 else gfExp (modnn (gfLog x + gfLog y))

/-- `inverse`. -/
def inverseTable (x : UInt8) : UInt8 :=
  if x = 0 then 0
  else if x = 1 then 1
  else gfExp (gfSize - gfLog x)

/-! ## Arithmetic on field elements -/

instance : Zero Gf := ⟨⟨0⟩⟩
instance : One Gf := ⟨⟨1⟩⟩
instance : Inhabited Gf := ⟨0⟩
instance : Add Gf := ⟨fun x y => ⟨x.byte ^^^ y.byte⟩⟩
instance : Mul Gf := ⟨fun x y => ⟨gfMulTable x.byte y.byte⟩⟩
instance : Neg Gf := ⟨fun x => x⟩
instance : Inv Gf := ⟨fun x => ⟨inverseTable x.byte⟩⟩

@[simp] theorem byte_zero : (0 : Gf).byte = 0 := rfl
@[simp] theorem byte_one : (1 : Gf).byte = 1 := rfl
@[simp] theorem byte_add (x y : Gf) : (x + y).byte = x.byte ^^^ y.byte := rfl
@[simp] theorem byte_mul (x y : Gf) :
    (x * y).byte = gfMulTable x.byte y.byte := rfl
@[simp] theorem neg_eq (x : Gf) : -x = x := rfl
@[simp] theorem byte_inv (x : Gf) : x⁻¹.byte = inverseTable x.byte := rfl

/-- A property of all bytes, checked number by number. -/
theorem forall_byte {P : UInt8 → Prop} (h : ∀ n < 256, P (UInt8.ofNat n))
    (x : UInt8) : P x := by
  have hx := h x.toNat x.toNat_lt
  rwa [UInt8.ofNat_toNat] at hx

theorem byte_eq_zero_iff (x : Gf) : x.byte = 0 ↔ x = 0 := by
  rw [Gf.ext_iff, byte_zero]

/-! ## Exponential and logarithm invert each other -/

/-- Each number of the list is absent from the bit set `seen` and from the rest
of the list. -/
def distinctFrom : ℕ → List ℕ → Bool
  | _, [] => true
  | seen, x :: xs =>
      !seen.testBit x && distinctFrom (seen ||| 1 <<< x) xs

theorem distinctFrom_sound {seen : ℕ} {xs : List ℕ}
    (h : distinctFrom seen xs = true) :
    xs.Nodup ∧ ∀ x ∈ xs, seen.testBit x = false := by
  induction xs generalizing seen with
  | nil => simp
  | cons x xs ih =>
      simp only [distinctFrom, Bool.and_eq_true, Bool.not_eq_true'] at h
      obtain ⟨hnodup, hseen⟩ := ih h.2
      have hx : x ∉ xs := by
        intro hmem
        have := hseen x hmem
        simp [Nat.testBit_or, Nat.shiftLeft_eq] at this
      refine ⟨List.nodup_cons.mpr ⟨hx, hnodup⟩, fun y hy => ?_⟩
      rcases List.mem_cons.mp hy with rfl | hy
      · exact h.1
      · have := hseen y hy
        simp only [Nat.testBit_or, Bool.or_eq_false_iff] at this
        exact this.1

theorem length_gfExpFrom (n : ℕ) (prev : UInt8) : (gfExpFrom n prev).length = n := by
  induction n generalizing prev with
  | zero => rfl
  | succ n ih => rw [gfExpFrom, List.length_cons, ih]

theorem gfExpTable_length : gfExpTable.length = gfSize := by
  rw [gfExpTable, List.length_append, List.length_map, List.length_range, List.length_cons,
    length_gfExpFrom, gfSize]

theorem gfExpTable_distinct :
    (gfExpTable.map UInt8.toNat).Nodup ∧
      ∀ n ∈ gfExpTable.map UInt8.toNat, n ≠ 0 := by
  have h : distinctFrom 1 (gfExpTable.map UInt8.toNat) = true := by
    decide +kernel
  refine ⟨(distinctFrom_sound h).1, fun n hn hzero => ?_⟩
  have := (distinctFrom_sound h).2 n hn
  simp [hzero] at this

theorem gfExpTable_nodup : gfExpTable.Nodup :=
  gfExpTable_distinct.1.of_map _

theorem zero_notMem_gfExpTable : (0 : UInt8) ∉ gfExpTable := fun h =>
  gfExpTable_distinct.2 0 (List.mem_map.mpr ⟨0, h, rfl⟩) rfl

/-- The table has `GF_SIZE` distinct nonzero bytes, hence all of them. -/
theorem mem_gfExpTable {x : UInt8} (hx : x ≠ 0) : x ∈ gfExpTable := by
  have hsub : (gfExpTable.map UInt8.toNat).toFinset ⊆ Finset.Ioo 0 256 := by
    intro n hn
    have hmem := List.mem_toFinset.mp hn
    have hpos := gfExpTable_distinct.2 n hmem
    obtain ⟨y, -, rfl⟩ := List.mem_map.mp hmem
    exact Finset.mem_Ioo.mpr ⟨Nat.pos_of_ne_zero hpos, y.toNat_lt⟩
  have hcard : (Finset.Ioo 0 256).card ≤
      (gfExpTable.map UInt8.toNat).toFinset.card := by
    rw [List.toFinset_card_of_nodup gfExpTable_distinct.1, List.length_map,
      gfExpTable_length, Nat.card_Ioo]
    exact le_rfl
  have hmem : x.toNat ∈ Finset.Ioo 0 256 :=
    Finset.mem_Ioo.mpr
      ⟨Nat.pos_of_ne_zero fun h => hx (UInt8.toNat_inj.mp h), x.toNat_lt⟩
  rw [← Finset.eq_of_subset_of_card_le hsub hcard, List.mem_toFinset,
    List.mem_map] at hmem
  obtain ⟨y, hy, hyx⟩ := hmem
  exact UInt8.toNat_inj.mp hyx ▸ hy

theorem gfExp_of_lt {n : ℕ} (hn : n < gfSize) :
    gfExp n = gfExpTable.get ⟨n, by rw [gfExpTable_length]; exact hn⟩ := by
  rw [gfExp, if_pos hn, List.getD_eq_getElem?_getD,
    List.getElem?_eq_getElem, Option.getD_some, List.get_eq_getElem]

theorem gfExp_ne_zero {n : ℕ} (hn : n < gfSize) : gfExp n ≠ 0 := by
  intro h
  rw [gfExp_of_lt hn] at h
  exact zero_notMem_gfExpTable (h ▸ List.getElem_mem _)

theorem gfLog_gfExp {n : ℕ} (hn : n < gfSize) : gfLog (gfExp n) = n := by
  rw [gfLog, if_neg (gfExp_ne_zero hn), gfExp_of_lt hn]
  exact gfExpTable_nodup.idxOf_getElem n _

theorem gfLog_lt {x : UInt8} (hx : x ≠ 0) : gfLog x < gfSize := by
  rw [gfLog, if_neg hx, ← gfExpTable_length]
  exact List.idxOf_lt_length_of_mem (mem_gfExpTable hx)

theorem gfExp_gfLog {x : UInt8} (hx : x ≠ 0) : gfExp (gfLog x) = x := by
  rw [gfExp_of_lt (gfLog_lt hx)]
  simp only [gfLog, if_neg hx]
  exact List.getElem_idxOf _

theorem gfLog_one : gfLog 1 = 0 := by
  rfl

/-! ## The products -/

theorem modnn_eq {n : ℕ} (hn : n < 2 * gfSize) : modnn n = n % gfSize := by
  have h : ∀ n < 2 * gfSize, modnn n = n % gfSize := by decide +kernel
  exact h n hn

theorem gfMulTable_eq {x y : UInt8} (hx : x ≠ 0) (hy : y ≠ 0) :
    gfMulTable x y = gfExp ((gfLog x + gfLog y) % gfSize) := by
  have hlx := gfLog_lt hx
  have hly := gfLog_lt hy
  rw [gfMulTable, if_neg (by simp [hx, hy]), modnn_eq (by omega)]

theorem gfMulTable_ne_zero {x y : UInt8} (hx : x ≠ 0) (hy : y ≠ 0) :
    gfMulTable x y ≠ 0 := by
  rw [gfMulTable_eq hx hy]
  exact gfExp_ne_zero (Nat.mod_lt _ (by decide))

theorem gfLog_gfMulTable {x y : UInt8} (hx : x ≠ 0) (hy : y ≠ 0) :
    gfLog (gfMulTable x y) = (gfLog x + gfLog y) % gfSize := by
  rw [gfMulTable_eq hx hy, gfLog_gfExp (Nat.mod_lt _ (by decide))]

@[simp] theorem gfMulTable_zero_left (x : UInt8) : gfMulTable 0 x = 0 := by
  simp [gfMulTable]

@[simp] theorem gfMulTable_zero_right (x : UInt8) : gfMulTable x 0 = 0 := by
  simp [gfMulTable]

theorem gfMulTable_comm (x y : UInt8) : gfMulTable x y = gfMulTable y x := by
  simp only [gfMulTable, or_comm, add_comm]

theorem gfMulTable_assoc (x y z : UInt8) :
    gfMulTable (gfMulTable x y) z = gfMulTable x (gfMulTable y z) := by
  by_cases hx : x = 0
  · simp [hx]
  by_cases hy : y = 0
  · simp [hy]
  by_cases hz : z = 0
  · simp [hz]
  rw [gfMulTable_eq (gfMulTable_ne_zero hx hy) hz,
    gfMulTable_eq hx (gfMulTable_ne_zero hy hz),
    gfLog_gfMulTable hx hy, gfLog_gfMulTable hy hz, Nat.mod_add_mod,
    Nat.add_mod_mod, add_assoc]

theorem gfMulTable_one (x : UInt8) : gfMulTable 1 x = x := by
  by_cases hx : x = 0
  · simp [hx]
  rw [gfMulTable_eq (by decide) hx, gfLog_one, Nat.zero_add,
    Nat.mod_eq_of_lt (gfLog_lt hx), gfExp_gfLog hx]

theorem gfMulTable_inverse {x : UInt8} (hx : x ≠ 0) :
    gfMulTable x (inverseTable x) = 1 := by
  by_cases hone : x = 1
  · subst x
    exact gfMulTable_one 1
  have hlog : gfLog x ≠ 0 := by
    intro h
    apply hone
    rw [← gfExp_gfLog hx, h]
    rfl
  have hlt := gfLog_lt hx
  have hidx : gfSize - gfLog x < gfSize := by omega
  rw [inverseTable, if_neg hx, if_neg hone,
    gfMulTable_eq hx (gfExp_ne_zero hidx), gfLog_gfExp hidx,
    Nat.add_sub_of_le hlt.le, Nat.mod_self]
  rfl

/-! ## Products distribute over exclusive or -/

/-- Multiplying by the generator: shift, and reduce if a bit falls out. -/
def double (x : UInt8) : UInt8 :=
  (x <<< 1) ^^^ (if x >>> 7 = 1 then gfExpBits else 0)

theorem shiftRight_seven (x : UInt8) : x >>> 7 = 0 ∨ x >>> 7 = 1 := by
  revert x
  exact forall_byte (by decide +kernel)

theorem double_xor (x y : UInt8) :
    double (x ^^^ y) = double x ^^^ double y := by
  have hleft : (x ^^^ y) <<< 1 = (x <<< 1) ^^^ (y <<< 1) :=
    UInt8.shiftLeft_xor
  have hright : (x ^^^ y) >>> 7 = (x >>> 7) ^^^ (y >>> 7) :=
    UInt8.shiftRight_xor
  simp only [double, hleft, hright]
  generalize x <<< 1 = a
  generalize y <<< 1 = b
  rcases shiftRight_seven x with hx | hx <;>
    rcases shiftRight_seven y with hy | hy
  · simp [hx, hy]
  · simp [hx, hy, UInt8.xor_assoc]
  · simp [hx, hy, UInt8.xor_assoc, UInt8.xor_comm b gfExpBits]
  · have hcancel : a ^^^ gfExpBits ^^^ (b ^^^ gfExpBits) =
        a ^^^ b ^^^ (gfExpBits ^^^ gfExpBits) := by
      ac_rfl
    simp [hx, hy, hcancel]

/-- Consecutive exponentials differ by a factor of the generator. -/
theorem gfExp_succ {n : ℕ} (hn : n + 1 < gfSize) :
    gfExp (n + 1) = double (gfExp n) := by
  have hchain : gfExpTable.IsChain (fun x y => y = double x) := by
    decide +kernel
  rw [gfExp_of_lt hn, gfExp_of_lt (by omega)]
  exact hchain.getElem n _

theorem gfMulTable_two (x : UInt8) : gfMulTable 2 x = double x := by
  by_cases hx : x = 0
  · subst x
    rfl
  have htwo : gfLog 2 = 1 := rfl
  have hlt := gfLog_lt hx
  rw [gfMulTable_eq (by decide) hx, htwo]
  by_cases hlast : gfLog x + 1 < gfSize
  · rw [add_comm, Nat.mod_eq_of_lt hlast, gfExp_succ hlast, gfExp_gfLog hx]
  · have hlog : gfLog x = 254 := by
      simp only [gfSize] at hlast hlt
      omega
    rw [← gfExp_gfLog hx, hlog]
    decide +kernel

/-- Distributivity for powers of the generator, one factor at a time. -/
theorem gfMulTable_gfExp_xor (x y : UInt8) :
    ∀ n < gfSize, gfMulTable (gfExp n) (x ^^^ y) =
      gfMulTable (gfExp n) x ^^^ gfMulTable (gfExp n) y := by
  intro n
  induction n with
  | zero =>
      intro _
      have h : gfExp 0 = 1 := rfl
      simp only [h, gfMulTable_one]
  | succ n ih =>
      intro hn
      have hstep : gfExp (n + 1) = gfMulTable 2 (gfExp n) := by
        rw [gfMulTable_two, gfExp_succ hn]
      simp only [hstep, gfMulTable_assoc]
      rw [ih (by omega)]
      simp only [gfMulTable_two, double_xor]

theorem gfMulTable_xor (x y z : UInt8) :
    gfMulTable x (y ^^^ z) = gfMulTable x y ^^^ gfMulTable x z := by
  by_cases hx : x = 0
  · simp [hx]
  rw [← gfExp_gfLog hx]
  exact gfMulTable_gfExp_xor y z _ (gfLog_lt hx)

/-! ## The field -/

instance : Field Gf where
  add_assoc x y z := Gf.ext (UInt8.xor_assoc _ _ _)
  zero_add x := Gf.ext UInt8.zero_xor
  add_zero x := Gf.ext UInt8.xor_zero
  add_comm x y := Gf.ext (UInt8.xor_comm _ _)
  neg_add_cancel x := Gf.ext UInt8.xor_self
  mul_assoc x y z := Gf.ext (gfMulTable_assoc _ _ _)
  mul_comm x y := Gf.ext (gfMulTable_comm _ _)
  one_mul x := Gf.ext (gfMulTable_one _)
  mul_one x := Gf.ext <| by
    rw [byte_mul, gfMulTable_comm, byte_one, gfMulTable_one x.byte]
  zero_mul x := Gf.ext (gfMulTable_zero_left x.byte)
  mul_zero x := Gf.ext (gfMulTable_zero_right x.byte)
  left_distrib x y z := Gf.ext (gfMulTable_xor _ _ _)
  right_distrib x y z := Gf.ext <| by
    simp only [byte_mul, byte_add, gfMulTable_comm _ z.byte, gfMulTable_xor]
  exists_pair_ne := ⟨0, 1, by decide⟩
  mul_inv_cancel x hx := Gf.ext <|
    gfMulTable_inverse fun h => hx ((byte_eq_zero_iff x).mp h)
  inv_zero := rfl
  nsmul := nsmulRec
  zsmul := zsmulRec
  nnqsmul := _
  qsmul := _

/-- Every element is its own negative. -/
theorem add_self (x : Gf) : x + x = 0 := Gf.ext UInt8.xor_self

theorem sub_eq_add (x y : Gf) : x - y = x + y :=
  sub_eq_add_neg x y

end Gf
end MoonlightPsp
