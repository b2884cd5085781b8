import MoonlightPsp.Avc.Packetizer
import Mathlib.Data.List.DropRight

/-!
# What the scans of the packetizer find

Every scan is described by a function of the rest of the input from its position
on.  In particular no scan reads outside the input.
-/

namespace MoonlightPsp.Avc

open CheckedMemory

variable {src : List UInt8} {p e fuel : ℕ}

/-! ## Start codes -/

/-- The length of the start code that a byte string begins with. -/
def codeAt : List UInt8 → ℕ
  | a :: b :: c :: l =>
      if a = 0 ∧ b = 0 ∧ c = 1 then 3
      else if a = 0 ∧ b = 0 ∧ c = 0 ∧ l.head? = some 1 then 4
      else 0
  | _ => 0

theorem codeAt_le_length (l : List UInt8) : codeAt l ≤ l.length := by
  match l with
  | [] | [_] | [_, _] => exact Nat.zero_le _
  | [a, b, c] =>
      simp only [codeAt, List.head?_nil, reduceCtorEq, and_false, if_false]
      split
      · exact Nat.le_refl _
      · exact Nat.zero_le _
  | a :: b :: c :: d :: l =>
      simp only [codeAt, List.length_cons]
      split_ifs <;> omega

theorem getElem?_add (src : List UInt8) (p i : ℕ) :
    src[p + i]? = (src.drop p)[i]? := List.getElem?_drop.symm

theorem startCode_eq (src : List UInt8) (p : ℕ) :
    startCode src p = some (codeAt (src.drop p)) := by
  have hlen : (src.drop p).length = src.length - p := List.length_drop
  have hzero : src[p]? = (src.drop p)[0]? := getElem?_add src p 0
  rw [startCode, hzero, getElem?_add, getElem?_add, getElem?_add, ← hlen]
  have hshort : p ≥ src.length ∨ (src.drop p).length < 3 ↔
      (src.drop p).length < 3 := by
    rw [hlen]
    omega
  rw [if_congr hshort rfl rfl]
  generalize src.drop p = l
  match l with
  | [] | [_] | [_, _] => rw [if_pos (by simp)]; rfl
  | [a, b, c] =>
      rw [if_neg (by simp)]
      by_cases ha : a = 0 <;> by_cases hb : b = 0 <;> by_cases hc : c = 1 <;>
        simp [codeAt, ha, hb, hc]
  | a :: b :: c :: d :: l =>
      rw [if_neg (by simp)]
      by_cases ha : a = 0 <;> by_cases hb : b = 0 <;> by_cases hc : c = 1 <;>
        by_cases hz : c = 0 <;> by_cases hd : d = 1 <;>
        simp [codeAt, ha, hb, hc, hz, hd]

/-- How far a byte string goes before a start code. -/
def scanLen : List UInt8 → ℕ
  | [] => 0
  | b :: l => if codeAt (b :: l) ≠ 0 then 0 else scanLen l + 1

theorem scanLen_le_length (l : List UInt8) : scanLen l ≤ l.length := by
  induction l with
  | nil => exact Nat.le_refl _
  | cons b l ih =>
      rw [scanLen]
      split
      · exact Nat.zero_le _
      · exact Nat.succ_le_succ ih

theorem findEnd_eq (he : e ≤ src.length) (hfuel : src.length - e < fuel) :
    findEnd src fuel e = some (e + scanLen (src.drop e)) := by
  induction fuel generalizing e with
  | zero => omega
  | succ fuel ih =>
      rw [findEnd]
      split
      · rename_i hlt
        have hnext := ih (e := e + 1) (by omega) (by omega)
        have hcons := List.drop_eq_getElem_cons hlt
        simp only [startCode_eq, Option.bind_eq_bind, Option.bind_some, hnext]
        rw [hcons, scanLen, ← hcons]
        split
        · rfl
        · rw [Nat.add_assoc, Nat.add_comm 1]
      · rename_i hend
        rw [List.drop_eq_nil_of_le (by omega)]
        rfl

/-! ## Units -/

/-- A byte string without its trailing zeros. -/
def trimmed (l : List UInt8) : List UInt8 := l.rdropWhile (· = 0)

theorem trimmed_isPrefix (l : List UInt8) : trimmed l <+: l :=
  List.rdropWhile_prefix _ _

theorem trimZeros_eq {start : ℕ} (hstart : start ≤ e) (he : e ≤ src.length) :
    trimZeros src start e =
      some (start + (trimmed ((src.drop start).take (e - start))).length) := by
  induction e with
  | zero =>
      obtain rfl : start = 0 := by omega
      rfl
  | succ e ih =>
      rw [trimZeros]
      split
      · rename_i hlt
        have hget : src[e]? = some src[e] := List.getElem?_eq_getElem he
        have htake : (src.drop start).take (e + 1 - start) =
            (src.drop start).take (e - start) ++ [src[e]] := by
          have hin : e - start < (src.drop start).length := by
            rw [List.length_drop]
            omega
          rw [show e + 1 - start = e - start + 1 by omega,
            List.take_succ_eq_append_getElem hin, List.getElem_drop]
          simp only [show start + (e - start) = e by omega]
        simp only [hget, Option.bind_eq_bind, Option.bind_some]
        rw [htake, trimmed, List.rdropWhile_concat]
        split
        · rename_i hzero
          rw [if_pos (by simpa using hzero), ih (by omega) (by omega)]
          rfl
        · rename_i hzero
          rw [if_neg (by simpa using hzero), List.length_append,
            List.length_take, List.length_drop, List.length_singleton]
          congr 1
          omega
      · obtain rfl : start = e + 1 := by omega
        simp [trimmed]

/-- The unit that a byte string behind a start code begins with. -/
def unitOf (l : List UInt8) : List UInt8 := trimmed (l.take (scanLen l))

theorem unitOf_isPrefix (l : List UInt8) : unitOf l <+: l :=
  (trimmed_isPrefix _).trans (List.take_prefix _ _)

theorem length_unitOf_le (l : List UInt8) : (unitOf l).length ≤ l.length :=
  (unitOf_isPrefix l).length_le

end MoonlightPsp.Avc
