import MoonlightPsp.Avc.AnnexB

/-!
# The search for NAL units in the detectors

`check_nal_for_cabac` and `nal_find_payload` of `decoder_thread.c` look for start codes
with the same loops.  What they find is described by the payloads of the units that
they come to.
-/

namespace MoonlightPsp.Detector

open Avc (codeAt)

/-! ## The model -/

/-- `sc_len`: the length of the start code at a position, zero if there is none. -/
def scLen (nal : List UInt8) (i : ℕ) : Option ℕ := do
  let b₀ ← nal[i]?
  if b₀ ≠ 0 then some 0
  else do
    let b₁ ← nal[i + 1]?
    if b₁ ≠ 0 then some 0
    else do
      let b₂ ← nal[i + 2]?
      if b₂ = 1 then some 3
      else if b₂ = 0 ∧ i + 3 < nal.length then do
        let b₃ ← nal[i + 3]?
        if b₃ = 1 then some 4 else some 0
      else some 0

/-- The loop that looks for the end of a unit, with the number of turns that are
left. -/
def endLoop (nal : List UInt8) : ℕ → ℕ → Option ℕ
  | 0, _ => some nal.length
  | turns + 1, j => do
      let sc ← scLen nal j
      if sc ≠ 0 then some j else endLoop nal turns (j + 1)

/-- `nal_end`: where the unit that starts at a position ends. -/
def nalEnd (nal : List UInt8) (nalStart : ℕ) : Option ℕ :=
  endLoop nal (nal.length - 3 - (nalStart + 1)) (nalStart + 1)

/-- The loop of `nal_find_payload`: where the payload of the first unit of a type
starts, and its length. -/
def findLoop (nal : List UInt8) (wanted : UInt8) : ℕ → ℕ → Option (Option (ℕ × ℕ))
  | 0, _ => some none
  | turns + 1, i => do
      let sc ← scLen nal i
      if sc = 0 then findLoop nal wanted turns (i + 1)
      else if i + sc ≥ nal.length then some none
      else do
        let header ← nal[i + sc]?
        if header &&& 0x1f ≠ wanted then findLoop nal wanted turns (i + 1)
        else do
          let stop ← nalEnd nal (i + sc)
          let len := stop - (i + sc + 1)
          some (if len > 0 then some (i + sc + 1, len) else none)

/-- `nal_find_payload`. -/
def nalFindPayload (nal : List UInt8) (wanted : UInt8) : Option (Option (ℕ × ℕ)) :=
  findLoop nal wanted (nal.length - 5) 0

/-! ## Payloads -/

/-- A payload up to the next start code that has a byte behind it. -/
def untilCode : List UInt8 → List UInt8
  | [] => []
  | b :: l => if 3 ≤ l.length ∧ codeAt (b :: l) ≠ 0 then [] else b :: untilCode l

/-- The payload of a unit of a type behind a start code. -/
def payloadAt (wanted : UInt8) (l : List UInt8) : Option (List UInt8) :=
  match l.drop (codeAt l) with
  | [] => none
  | header :: rest =>
      if codeAt l ≠ 0 ∧ header &&& 0x1f = wanted then some (untilCode rest) else none

/-- The payloads of the units of a type, in order.  Behind a start code of four bytes
a unit is found twice. -/
def payloads (wanted : UInt8) : List UInt8 → List (List UInt8)
  | [] => []
  | b :: l =>
      if l.length < 5 then []
      else (payloadAt wanted (b :: l)).toList ++ payloads wanted l

variable {nal l : List UInt8} {wanted : UInt8} {i j n : ℕ}

theorem scLen_eq (h : i + 3 ≤ nal.length) : scLen nal i = some (codeAt (nal.drop i)) := by
  have hzero : nal[i]? = (nal.drop i)[0]? := Avc.getElem?_add nal i 0
  have hfour : i + 3 < nal.length ↔ 3 < (nal.drop i).length := by
    rw [List.length_drop]
    omega
  have hlen : 3 ≤ (nal.drop i).length := by
    rw [List.length_drop]
    omega
  rw [scLen, hzero, Avc.getElem?_add, Avc.getElem?_add, Avc.getElem?_add]
  simp only [hfour]
  generalize nal.drop i = l at hlen
  match l with
  | [] | [_] | [_, _] => simp at hlen
  | [a, b, c] =>
      by_cases ha : a = 0 <;> by_cases hb : b = 0 <;> by_cases hc : c = 1 <;>
        simp [codeAt, ha, hb, hc]
  | a :: b :: c :: d :: l =>
      by_cases ha : a = 0 <;> by_cases hb : b = 0 <;> by_cases hc : c = 1 <;>
        by_cases hz : c = 0 <;> by_cases hd : d = 1 <;>
        simp [codeAt, ha, hb, hc, hz, hd]

theorem untilCode_short (h : l.length ≤ 3) : untilCode l = l := by
  induction l with
  | nil => rfl
  | cons b l ih =>
      rw [List.length_cons] at h
      rw [untilCode, if_neg (by omega), ih (by omega)]

theorem untilCode_isPrefix (l : List UInt8) : untilCode l <+: l := by
  induction l with
  | nil => exact List.prefix_refl []
  | cons b l ih =>
      rw [untilCode]
      split
      · exact List.nil_prefix
      · exact (List.prefix_cons_inj b).mpr ih

theorem endLoop_eq (h : j + n + 3 = nal.length) :
    endLoop nal n j = some (j + (untilCode (nal.drop j)).length) := by
  induction n generalizing j with
  | zero =>
      rw [endLoop, untilCode_short (by rw [List.length_drop]; omega), List.length_drop]
      congr 1
      omega
  | succ n ih =>
      have hlt : j < nal.length := by omega
      rw [endLoop, scLen_eq (by omega), List.drop_eq_getElem_cons hlt, untilCode,
        ← List.drop_eq_getElem_cons hlt]
      simp only [Option.bind_eq_bind, Option.bind_some]
      by_cases hcode : codeAt (nal.drop j) ≠ 0
      · rw [if_pos hcode, if_pos ⟨by rw [List.length_drop]; omega, hcode⟩]
        rfl
      · rw [if_neg hcode, if_neg (fun h => hcode h.2), ih (by omega), List.length_cons]
        congr 1
        omega

/-- The end of a unit is where its payload ends. -/
theorem nalEnd_eq (h : i < nal.length) :
    nalEnd nal i = some (i + 1 + (untilCode (nal.drop (i + 1))).length) := by
  rw [nalEnd]
  by_cases hlong : i + 1 + 3 ≤ nal.length
  · exact endLoop_eq (by omega)
  · rw [show nal.length - 3 - (i + 1) = 0 by omega, endLoop,
      untilCode_short (by rw [List.length_drop]; omega), List.length_drop]
    congr 1
    omega

/-- Behind a start code there is a unit with its payload. -/
theorem payloadAt_drop (wanted : UInt8) {sc : ℕ} (h : i + 6 ≤ nal.length)
    (hsc : codeAt (nal.drop i) = sc) (hne : sc ≠ 0) :
    ∃ header, i + sc < nal.length ∧ nal[i + sc]? = some header ∧
      payloadAt wanted (nal.drop i) =
        if header &&& 0x1f = wanted then some (untilCode (nal.drop (i + sc + 1)))
        else none := by
  have hle : sc ≤ 4 := by
    rw [← hsc]
    unfold codeAt
    split
    · split
      · decide
      · split
        · decide
        · decide
    · decide
  have hlt : i + sc < nal.length := by omega
  refine ⟨nal[i + sc], hlt, List.getElem?_eq_getElem hlt, ?_⟩
  rw [payloadAt, hsc, List.drop_drop, List.drop_eq_getElem_cons hlt]
  simp only [hne, ne_eq, not_false_eq_true, true_and]

theorem three_le_codeAt (h : codeAt l ≠ 0) : 3 ≤ codeAt l := by
  match l with
  | [] | [_] | [_, _] => exact absurd rfl h
  | a :: b :: c :: l =>
      rw [codeAt] at h ⊢
      split_ifs at h ⊢
      · exact Nat.le_refl 3
      · decide
      · exact absurd rfl h

/-- A payload has its start code and its header in front of it. -/
theorem length_of_mem_payloads {p : List UInt8} (h : p ∈ payloads wanted l) :
    p.length + 4 ≤ l.length := by
  induction l with
  | nil => cases h
  | cons b l ih =>
      rw [payloads] at h
      split at h
      · cases h
      · rcases List.mem_append.mp h with hhead | hrest
        · rw [Option.mem_toList, payloadAt] at hhead
          split at hhead
          · cases hhead
          · rename_i header rest hdrop
            split at hhead
            · rename_i hcode
              cases hhead
              have hle := (untilCode_isPrefix rest).length_le
              have hthree := three_le_codeAt hcode.1
              have hlen := congrArg List.length hdrop
              rw [List.length_drop, List.length_cons, List.length_cons] at hlen
              rw [List.length_cons]
              omega
            · cases hhead
        · have hle := ih hrest
          rw [List.length_cons]
          omega

/-- The loop finds the first payload, unless it is empty. -/
theorem findLoop_eq (h : i + n + 5 = nal.length) :
    ∃ r, findLoop nal wanted n i = some r ∧
      (∀ p ps, payloads wanted (nal.drop i) = p :: ps → p ≠ [] →
        ∃ at', r = some (at', p.length) ∧ (nal.drop at').take p.length = p) := by
  induction n generalizing i with
  | zero =>
      refine ⟨none, rfl, fun p ps hp _ => ?_⟩
      have hlen : (nal.drop i).length = 5 := by
        rw [List.length_drop]
        omega
      cases hl : nal.drop i with
      | nil =>
          rw [hl] at hp
          cases hp
      | cons b l =>
          rw [hl, List.length_cons] at hlen
          rw [hl, payloads, if_pos (by omega)] at hp
          cases hp
  | succ n ih =>
      obtain ⟨r, hr, hfound⟩ := ih (i := i + 1) (by omega)
      have hlt : i < nal.length := by omega
      have hcons : nal.drop i = nal[i] :: nal.drop (i + 1) := List.drop_eq_getElem_cons hlt
      have hpayloads : payloads wanted (nal.drop i) =
          (payloadAt wanted (nal.drop i)).toList ++ payloads wanted (nal.drop (i + 1)) := by
        rw [hcons, payloads, if_neg (by rw [List.length_drop]; omega), ← hcons]
      rw [findLoop, scLen_eq (by omega), hpayloads]
      simp only [Option.bind_eq_bind, Option.bind_some]
      by_cases hcode : codeAt (nal.drop i) = 0
      · have hnone : payloadAt wanted (nal.drop i) = none := by
          rw [payloadAt, hcode]
          split
          · rfl
          · simp
        rw [if_pos hcode, hnone]
        exact ⟨r, hr, hfound⟩
      · obtain ⟨header, hin, hget, hpayload⟩ := payloadAt_drop wanted
          (by omega) rfl hcode
        rw [if_neg hcode, if_neg (by omega), hget, hpayload]
        simp only [Option.bind_some]
        by_cases htype : header &&& 0x1f = wanted
        · rw [if_neg (not_not.mpr htype), if_pos htype, nalEnd_eq hin]
          refine ⟨_, rfl, fun p ps hp hne => ?_⟩
          obtain ⟨rfl, -⟩ := List.cons.inj hp
          have hpos := List.length_pos_iff.mpr hne
          rw [Nat.add_sub_cancel_left, if_pos hpos]
          exact ⟨_, rfl, (List.prefix_iff_eq_take.mp (untilCode_isPrefix _)).symm⟩
        · rw [if_pos htype, if_neg htype]
          exact ⟨r, hr, hfound⟩

theorem nalFindPayload_eq {p : List UInt8} {ps : List (List UInt8)}
    (h : payloads wanted nal = p :: ps) (hne : p ≠ []) :
    ∃ at', nalFindPayload nal wanted = some (some (at', p.length)) ∧
      (nal.drop at').take p.length = p := by
  have hmem : p ∈ payloads wanted nal := by
    rw [h]
    exact List.mem_cons_self
  have hlen := length_of_mem_payloads hmem
  have hpos := List.length_pos_iff.mpr hne
  obtain ⟨r, hr, hfound⟩ := findLoop_eq (show 0 + (nal.length - 5) + 5 = nal.length by omega)
  obtain ⟨at', rfl, hbytes⟩ := hfound p ps h hne
  exact ⟨at', hr, hbytes⟩

/-! ## Streams of units -/

/-- A unit in an Annex B stream: extra zero bytes, a start code of three or four bytes,
and bytes without a start code and without zeros at the end. -/
structure StreamUnit where
  zeros : ℕ
  long : Bool
  bytes : List UInt8
  nonempty : bytes ≠ []
  noStartCode : ¬ [0, 0, 1] <:+: bytes
  lastNonzero : bytes.getLast nonempty ≠ 0

namespace StreamUnit

/-- `nal_unit_type`. -/
def type (u : StreamUnit) : UInt8 := u.bytes.head u.nonempty &&& 0x1f

def encode (u : StreamUnit) : List UInt8 :=
  List.replicate u.zeros 0 ++ (if u.long then [0, 0, 0, 1] else [0, 0, 1]) ++ u.bytes

/-- The zero bytes in front of the one that ends the start code, less two. -/
def run (u : StreamUnit) : ℕ := u.zeros + u.long.toNat

theorem encode_eq (u : StreamUnit) :
    u.encode = List.replicate (u.run + 2) 0 ++ 1 :: u.bytes := by
  rw [encode, run]
  cases u.long
  · simp [List.replicate_add]
  · simp [List.replicate_add]

end StreamUnit

/-- An access unit: units, with zero bytes behind the last one. -/
def accessUnit (us : List StreamUnit) (trailing : ℕ) : List UInt8 :=
  us.flatMap StreamUnit.encode ++ List.replicate trailing 0

/-- The first unit of a type. -/
def firstOfType (wanted : UInt8) (us : List StreamUnit) : Option StreamUnit :=
  us.find? (·.type = wanted)

theorem accessUnit_cons (u : StreamUnit) (us : List StreamUnit) (trailing : ℕ) :
    accessUnit (u :: us) trailing =
      List.replicate (u.run + 2) 0 ++ 1 :: (u.bytes ++ accessUnit us trailing) := by
  rw [accessUnit, List.flatMap_cons, u.encode_eq]
  simp [accessUnit]

theorem payloads_short (h : l.length ≤ 5) : payloads wanted l = [] := by
  cases l with
  | nil => rfl
  | cons b l =>
      rw [List.length_cons] at h
      rw [payloads, if_pos (by omega)]

/-- Where no unit of the type starts, the search goes on behind the byte. -/
theorem payloads_cons_none {b : UInt8} (h : payloadAt wanted (b :: l) = none) :
    payloads wanted (b :: l) = payloads wanted l := by
  rw [payloads, h]
  split
  · rw [payloads_short (by omega)]
  · rfl

theorem payloadAt_eq_none (wanted : UInt8) (h : codeAt l = 0) : payloadAt wanted l = none := by
  rw [payloadAt, h]
  split
  · rfl
  · simp

/-- No unit starts inside the bytes of a unit. -/
theorem payloads_append_of_last {bytes : List UInt8} (hne : bytes ≠ [])
    (hcode : ¬ [0, 0, 1] <:+: bytes) (hlast : bytes.getLast hne ≠ 0) (l : List UInt8) :
    payloads wanted (bytes ++ l) = payloads wanted l := by
  induction bytes with
  | nil => exact absurd rfl hne
  | cons b bytes ih =>
      have hzero := Avc.codeAt_append_of_last hne hcode hlast l
      rw [List.cons_append] at hzero ⊢
      rw [payloads_cons_none (payloadAt_eq_none wanted hzero)]
      by_cases hbytes : bytes = []
      · rw [hbytes, List.nil_append]
      · exact ih hbytes (fun h => hcode (h.trans ⟨[b], [], by simp⟩))
          (by rwa [List.getLast_cons hbytes] at hlast)

theorem untilCode_append_of_last {bytes : List UInt8} (hne : bytes ≠ [])
    (hcode : ¬ [0, 0, 1] <:+: bytes) (hlast : bytes.getLast hne ≠ 0) (l : List UInt8) :
    untilCode (bytes ++ l) = bytes ++ untilCode l := by
  induction bytes with
  | nil => exact absurd rfl hne
  | cons b bytes ih =>
      have hzero := Avc.codeAt_append_of_last hne hcode hlast l
      rw [List.cons_append] at hzero ⊢
      rw [untilCode, if_neg (fun h => h.2 hzero)]
      by_cases hbytes : bytes = []
      · rw [hbytes, List.nil_append, List.cons_append, List.nil_append]
      · rw [ih hbytes (fun h => hcode (h.trans ⟨[b], [], by simp⟩))
          (by rwa [List.getLast_cons hbytes] at hlast), List.cons_append]

/-- The payload of the unit that a byte string begins with. -/
def payloadOf (wanted : UInt8) : List UInt8 → Option (List UInt8)
  | [] => none
  | header :: rest => if header &&& 0x1f = wanted then some (untilCode rest) else none

theorem payloadAt_three (l : List UInt8) :
    payloadAt wanted (0 :: 0 :: 1 :: l) = payloadOf wanted l := by
  cases l with
  | nil => rfl
  | cons header l => simp [payloadAt, codeAt, payloadOf]

theorem payloadAt_four (l : List UInt8) :
    payloadAt wanted (0 :: 0 :: 0 :: 1 :: l) = payloadOf wanted l := by
  cases l with
  | nil => rfl
  | cons header l => simp [payloadAt, codeAt, payloadOf]

theorem payloads_one (l : List UInt8) : payloads wanted (1 :: l) = payloads wanted l := by
  refine payloads_cons_none (payloadAt_eq_none wanted ?_)
  match l with
  | [] | [_] => rfl
  | b :: c :: l => simp [codeAt]

theorem payloads_zero_one (l : List UInt8) :
    payloads wanted (0 :: 1 :: l) = payloads wanted l := by
  rw [payloads_cons_none (payloadAt_eq_none wanted ?_), payloads_one]
  match l with
  | [] => rfl
  | c :: l => simp [codeAt]

/-- In a longer run of zeros no start code begins. -/
theorem payloads_run_succ (k : ℕ) (l : List UInt8) :
    payloads wanted (List.replicate (k + 4) 0 ++ 1 :: l) =
      payloads wanted (List.replicate (k + 3) 0 ++ 1 :: l) :=
  payloads_cons_none (payloadAt_eq_none wanted (Avc.codeAt_zeros k (1 :: l)))

/-- A unit of another type is passed over. -/
theorem payloads_run_other (h : payloadOf wanted l = none) (k : ℕ) :
    payloads wanted (List.replicate (k + 2) 0 ++ 1 :: l) = payloads wanted l := by
  have hthree : payloads wanted (0 :: 0 :: 1 :: l) = payloads wanted l := by
    rw [payloads_cons_none (by rw [payloadAt_three, h]), payloads_zero_one]
  induction k with
  | zero => exact hthree
  | succ k ih =>
      cases k with
      | zero =>
          show payloads wanted (0 :: 0 :: 0 :: 1 :: l) = payloads wanted l
          rw [payloads_cons_none (by rw [payloadAt_four, h]), hthree]
      | succ k => rw [payloads_run_succ, ih]

/-- A unit of the type is found first. -/
theorem payloads_run_first (wanted : UInt8) {l p : List UInt8} (h : payloadOf wanted l = some p)
    (hlen : 3 ≤ l.length) (k : ℕ) :
    ∃ ps, payloads wanted (List.replicate (k + 2) 0 ++ 1 :: l) = p :: ps := by
  induction k with
  | zero =>
      refine ⟨payloads wanted (0 :: 1 :: l), ?_⟩
      show payloads wanted (0 :: 0 :: 1 :: l) = _
      rw [payloads, if_neg (by simp only [List.length_cons]; omega), payloadAt_three, h]
      rfl
  | succ k ih =>
      cases k with
      | zero =>
          refine ⟨payloads wanted (0 :: 0 :: 1 :: l), ?_⟩
          show payloads wanted (0 :: 0 :: 0 :: 1 :: l) = _
          rw [payloads, if_neg (by simp only [List.length_cons]; omega), payloadAt_four, h]
          rfl
      | succ k =>
          rw [payloads_run_succ]
          exact ih

/-- Behind the last byte of a unit the payload has only zeros. -/
theorem untilCode_accessUnit (us : List StreamUnit) (trailing : ℕ) :
    ∃ k, untilCode (accessUnit us trailing) = List.replicate k 0 := by
  have hzeros : ∀ n, untilCode (List.replicate n 0) = List.replicate n 0 := fun n => by
    induction n with
    | zero => rfl
    | succ n ih =>
        have hcode : 3 ≤ n → codeAt (List.replicate (n + 1) 0) = 0 := fun hn => by
          obtain ⟨k, rfl⟩ := Nat.exists_eq_add_of_le hn
          have hzero := Avc.codeAt_zeros k []
          rwa [List.append_nil, show k + 4 = 3 + k + 1 by omega] at hzero
        rw [List.replicate_succ] at hcode ⊢
        rw [untilCode, if_neg, ih]
        rintro ⟨hlen, hne⟩
        rw [List.length_replicate] at hlen
        exact hne (hcode hlen)
  cases us with
  | nil => exact ⟨trailing, hzeros trailing⟩
  | cons u us =>
      have hlen := List.length_pos_iff.mpr u.nonempty
      have hstop : untilCode (0 :: 0 :: 1 :: (u.bytes ++ accessUnit us trailing)) = [] := by
        rw [untilCode, if_pos ⟨by simp only [List.length_cons, List.length_append]; omega,
          by simp [codeAt]⟩]
      have hlong : untilCode (0 :: 0 :: 0 :: 1 :: (u.bytes ++ accessUnit us trailing)) =
          [] := by
        rw [untilCode, if_pos ⟨by simp only [List.length_cons, List.length_append]; omega,
          by simp [codeAt]⟩]
      have hrun : ∀ k, ∃ n, untilCode (List.replicate (k + 2) 0 ++
          1 :: (u.bytes ++ accessUnit us trailing)) = List.replicate n 0 := fun k => by
        induction k with
        | zero => exact ⟨0, hstop⟩
        | succ k ih =>
            cases k with
            | zero => exact ⟨0, hlong⟩
            | succ k =>
                obtain ⟨n, hn⟩ := ih
                have hzero := Avc.codeAt_zeros k (1 :: (u.bytes ++ accessUnit us trailing))
                refine ⟨n + 1, ?_⟩
                rw [List.replicate_succ, List.cons_append] at hzero ⊢
                rw [untilCode, if_neg (fun h => h.2 hzero), List.replicate_succ]
                exact congrArg _ hn
      rw [accessUnit_cons]
      exact hrun u.run

/-- The first payload of a type is that of the first unit of the type, with zero bytes
behind it. -/
theorem payloads_accessUnit {us : List StreamUnit} {u : StreamUnit}
    (h : firstOfType wanted us = some u) (hlen : 3 ≤ u.bytes.length) (trailing : ℕ) :
    ∃ k ps, payloads wanted (accessUnit us trailing) =
      (u.bytes.tail ++ List.replicate k 0) :: ps := by
  induction us with
  | nil => cases h
  | cons v us ih =>
      rw [accessUnit_cons]
      cases hbytes : v.bytes with
      | nil => exact absurd hbytes v.nonempty
      | cons header rest =>
          by_cases htype : v.type = wanted
          · rw [firstOfType, List.find?_cons_of_pos (by simpa using htype)] at h
            cases h
            have hrest : rest ≠ [] := by
              rintro rfl
              rw [hbytes] at hlen
              simp at hlen
            have hcode := u.noStartCode
            have hlast := u.lastNonzero
            simp only [hbytes] at hcode hlast
            rw [List.getLast_cons hrest] at hlast
            obtain ⟨k, hk⟩ := untilCode_accessUnit us trailing
            have huntil := untilCode_append_of_last hrest
              (fun h => hcode (h.trans ⟨[header], [], by simp⟩)) hlast
              (accessUnit us trailing)
            rw [hk] at huntil
            have hheader : header &&& 0x1f = wanted := by
              simpa [StreamUnit.type, hbytes] using htype
            rw [hbytes] at hlen
            obtain ⟨ps, hps⟩ := payloads_run_first wanted
              (show payloadOf wanted (header :: (rest ++ accessUnit us trailing)) = _ by
                rw [payloadOf, if_pos hheader, huntil])
              (by simp only [List.length_cons, List.length_append] at hlen ⊢; omega) u.run
            exact ⟨k, ps, by rw [hbytes, List.cons_append]; exact hps⟩
          · rw [firstOfType, List.find?_cons_of_neg (by simpa using htype)] at h
            have hheader : header &&& 0x1f ≠ wanted := by
              simpa [StreamUnit.type, hbytes] using htype
            obtain ⟨k, ps, hps⟩ := ih h
            refine ⟨k, ps, ?_⟩
            rw [← hbytes, payloads_run_other, payloads_append_of_last v.nonempty
              v.noStartCode v.lastNonzero, hps]
            rw [hbytes]
            exact if_neg hheader

end MoonlightPsp.Detector
