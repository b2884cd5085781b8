import MoonlightPsp.Detector.NalReader
import MoonlightPsp.Detector.NalSearch
import MoonlightPsp.Detector.Rbsp
import MoonlightPsp.Sps.PpsLanguage

/-!
# The detector of entropy coding

`check_nal_for_cabac` looks for a picture parameter set in an access unit and notes its
entropy coding mode.  It takes the emulation prevention out into a buffer of 256 bytes,
two bytes at a time for an escape.  Reads and writes outside the buffers give `none`.
-/

namespace MoonlightPsp.Detector

open BitString CheckedMemory StickyParser
open Sps (IsUe IsRbsp avcPpsValidateMainEx)

/-! ## The model -/

/-- `s_pps_checked`, `g_cabac_detected` and `g_avc_entropy_mode`. -/
structure PpsState where
  ppsChecked : Bool
  cabacDetected : ℤ
  entropyMode : ℤ
  deriving DecidableEq

/-- Whether the bytes 0, 0, 3 stand at a position, of which `left` are in the
payload. -/
def escapeAt (nal : List UInt8) (pos left : ℕ) : Option Bool :=
  if left > 2 then do
    let b₀ ← nal[pos]?
    if b₀ ≠ 0 then some false
    else do
      let b₁ ← nal[pos + 1]?
      if b₁ ≠ 0 then some false
      else do
        let b₂ ← nal[pos + 2]?
        some (b₂ = 3)
  else some false

/-- The loop that fills `rbsp`, with the number of its bytes that are used. -/
def unescapeLoop (nal : List UInt8) (dataStart len : ℕ) :
    ℕ → ℕ → List UInt8 → ℕ → Option (List UInt8 × ℕ)
  | 0, _, _, _ => none
  | fuel + 1, k, rbsp, used =>
      if k < len ∧ used < 256 then do
        if ← escapeAt nal (dataStart + k) (len - k) then do
          let rbsp ← store rbsp used 0
          let rbsp ← store rbsp (used + 1) 0
          unescapeLoop nal dataStart len fuel (k + 3) rbsp (used + 2)
        else do
          let b ← nal[dataStart + k]?
          let rbsp ← store rbsp used b
          unescapeLoop nal dataStart len fuel (k + 1) rbsp (used + 1)
      else some (rbsp, used)

/-- The entropy coding mode and the flag behind it, if both are there. -/
def twoFlags : Reader ℕ := fun b =>
  if b.pos + 1 ≥ b.bits then .error ()
  else
    (do
      let entropy ← nextBit
      let _ ← nextBit
      pure entropy : Reader ℕ) b

/-- The fields of a picture parameter set that are read: its number, that of the
sequence parameter set, and the entropy coding mode. -/
def ppsHeader : Reader ℕ := do
  let _ ← nalReadUe
  let _ ← nalReadUe
  twoFlags

/-- What is done with the unit between two positions: the state in which the function
returns, or `none` if the scan goes on. -/
def examinePps (nal : List UInt8) (nalStart nalEnd : ℕ) (s : PpsState) :
    Option (Option PpsState) :=
  if nalEnd - (nalStart + 1) = 0 then some (some { s with ppsChecked := true })
  else do
    let (rbsp, used) ← unescapeLoop nal (nalStart + 1) (nalEnd - (nalStart + 1))
      (nalEnd - nalStart) 0 (List.replicate 256 0) 0
    if used * 8 < 10 then some (some { s with ppsChecked := true })
    else if h : used * 8 ≤ 8 * rbsp.length then
      match ppsHeader (.start rbsp (used * 8) h) with
      | .error _ => some none
      | .ok (entropy, _) => some (some ⟨true, entropy, entropy⟩)
    else none

/-- The scan for units of the type, with the number of turns that are left. -/
def ppsLoop (nal : List UInt8) (s : PpsState) : ℕ → ℕ → Option PpsState
  | 0, _ => some s
  | turns + 1, i => do
      let sc ← scLen nal i
      if sc = 0 then ppsLoop nal s turns (i + 1)
      else if i + sc ≥ nal.length then some s
      else do
        let header ← nal[i + sc]?
        if header &&& 0x1f ≠ 8 then ppsLoop nal s turns (i + 1)
        else do
          let stop ← nalEnd nal (i + sc)
          match ← examinePps nal (i + sc) stop s with
          | some s' => some s'
          | none => ppsLoop nal s turns (i + 1)

/-- `check_nal_for_cabac` with an access unit that is not null. -/
def checkNalForCabac (nal : List UInt8) (s : PpsState) : Option PpsState :=
  if s.ppsChecked ∨ s.cabacDetected ≠ 0 then some s
  else if nal.length ≤ 6 then some s
  else ppsLoop nal s (nal.length - 5) 0

/-! ## Escapes -/

/-- An escape whose zeros go to the last byte of the buffer and the one behind it, if
some bytes are used before. -/
def SpillsFrom (used : ℕ) (payload : List UInt8) : Prop :=
  ∃ front back, payload = front ++ 0 :: 0 :: 3 :: back ∧
    used + (rawRbsp front).length = 255

/-- The payload has an escape at the last byte of the buffer. -/
def Spills (payload : List UInt8) : Prop := SpillsFrom 0 payload

variable {nal l : List UInt8} {used : ℕ}

theorem spillsFrom_nil (used : ℕ) : ¬ SpillsFrom used [] := by
  rintro ⟨front, back, h, -⟩
  simp at h

theorem spillsFrom_escape :
    SpillsFrom used (0 :: 0 :: 3 :: l) ↔ used = 255 ∨ SpillsFrom (used + 2) l := by
  constructor
  · rintro ⟨front, back, h, hlen⟩
    match front with
    | [] => exact .inl hlen
    | [_] => simp at h
    | [_, _] => simp at h
    | a :: b :: c :: front =>
        simp only [List.cons_append, List.cons.injEq] at h
        obtain ⟨rfl, rfl, rfl, rfl⟩ := h
        rw [rawRbsp_escape, List.length_cons, List.length_cons] at hlen
        exact .inr ⟨front, back, rfl, by omega⟩
  · rintro (rfl | ⟨front, back, rfl, hlen⟩)
    · exact ⟨[], l, rfl, rfl⟩
    · refine ⟨0 :: 0 :: 3 :: front, back, rfl, ?_⟩
      rw [rawRbsp_escape, List.length_cons, List.length_cons]
      omega

theorem spillsFrom_cons {b : UInt8} (hb : ¬ [0, 0, 3] <+: b :: l) :
    SpillsFrom used (b :: l) ↔ SpillsFrom (used + 1) l := by
  have hfront : ∀ {front back}, l = front ++ 0 :: 0 :: 3 :: back →
      rawRbsp (b :: front) = b :: rawRbsp front := fun {front back} h => by
    refine rawRbsp_cons fun hescape => hb (hescape.trans ?_)
    rw [h]
    exact ⟨0 :: 0 :: 3 :: back, rfl⟩
  constructor
  · rintro ⟨front, back, h, hlen⟩
    cases front with
    | nil => exact absurd ⟨back, h.symm⟩ hb
    | cons c front =>
        obtain ⟨rfl, htail⟩ := List.cons.inj h
        rw [hfront htail, List.length_cons] at hlen
        exact ⟨front, back, htail, by omega⟩
  · rintro ⟨front, back, h, hlen⟩
    refine ⟨b :: front, back, by rw [h]; rfl, ?_⟩
    rw [hfront h, List.length_cons]
    omega

/-- A full buffer takes no escape. -/
theorem not_spillsFrom_full (h : 256 ≤ used) (l : List UInt8) : ¬ SpillsFrom used l := by
  rintro ⟨front, back, -, hlen⟩
  omega

theorem escapeAt_eq {pos left : ℕ} (h : pos + left ≤ nal.length)
    (hl : (nal.drop pos).take left = l) :
    escapeAt nal pos left = some (decide ([0, 0, 3] <+: l)) := by
  have hlen : l.length = left := by
    rw [← hl, List.length_take, List.length_drop]
    omega
  have hget : ∀ i, i < left → nal[pos + i]? = l[i]? := fun i hi => by
    rw [← hl, List.getElem?_take_of_lt hi, List.getElem?_drop]
  rw [escapeAt]
  split
  · rename_i hlong
    rw [← Nat.add_zero pos, hget 0 (by omega), Nat.add_zero, hget 1 (by omega),
      hget 2 (by omega)]
    match l with
    | [] | [_] | [_, _] => simp at hlen; omega
    | a :: b :: c :: l =>
        by_cases ha : a = 0 <;> by_cases hb : b = 0 <;> by_cases hc : c = 3 <;>
          simp [ha, hb, hc]
        all_goals grind
  · rename_i hshort
    rw [decide_eq_false]
    intro hescape
    have hle := hescape.length_le
    simp at hle
    omega

/-- The loop fills the buffer with the payload up to the size of the buffer, unless an
escape spills over. -/
theorem unescapeLoop_eq {dataStart len fuel k : ℕ} {cells w : List UInt8}
    (hcells : cells.length = 256) (hin : dataStart + len ≤ nal.length) (hk : k ≤ len)
    (hfuel : len < k + fuel) (hw : w.length ≤ 256)
    (hl : (nal.drop (dataStart + k)).take (len - k) = l) :
    (SpillsFrom w.length l → unescapeLoop nal dataStart len fuel k
      (overlay cells 0 w) w.length = none) ∧
    (¬ SpillsFrom w.length l → ∃ v, v = (w ++ rawRbsp l).take 256 ∧
      unescapeLoop nal dataStart len fuel k (overlay cells 0 w) w.length =
        some (overlay cells 0 v, v.length)) := by
  induction fuel generalizing k w l with
  | zero => omega
  | succ fuel ih =>
      rw [unescapeLoop]
      by_cases hrun : k < len ∧ w.length < 256
      · have hstore := fun x => store_overlay cells w (by omega) x
        have hget : nal[dataStart + k]? = some nal[dataStart + k] :=
          List.getElem?_eq_getElem (by omega)
        have hcons : l = nal[dataStart + k] ::
            (nal.drop (dataStart + (k + 1))).take (len - (k + 1)) := by
          rw [← hl, List.drop_eq_getElem_cons (by omega),
            show len - k = len - (k + 1) + 1 by omega, List.take_succ_cons]
          rfl
        rw [if_pos hrun, escapeAt_eq (by omega) hl]
        simp only [Option.bind_eq_bind, Option.bind_some, decide_eq_true_eq]
        by_cases hescape : [0, 0, 3] <+: l
        · obtain ⟨m, rfl⟩ := hescape
          have hm : (nal.drop (dataStart + (k + 3))).take (len - (k + 3)) = m := by
            have hdrop := congrArg (List.drop 3) hl
            rw [List.drop_take, List.drop_drop] at hdrop
            rw [show dataStart + (k + 3) = dataStart + k + 3 by omega,
              show len - (k + 3) = len - k - 3 by omega, hdrop]
            rfl
          have hlong : k + 3 ≤ len := by
            have hlen := congrArg List.length hl
            simp only [List.length_take, List.length_drop, List.cons_append,
              List.length_cons] at hlen
            omega
          rw [if_pos (List.prefix_append _ _), hstore, Option.bind_some]
          have hspill : SpillsFrom w.length (0 :: 0 :: 3 :: m) ↔ _ := spillsFrom_escape
          simp only [List.cons_append, List.nil_append] at hspill ⊢
          rw [hspill, rawRbsp_escape]
          by_cases hlast : w.length = 255
          · have hout : store (overlay cells 0 (w ++ [0])) (w.length + 1)
                (0 : UInt8) = none := by
              rw [store, if_neg]
              rw [length_overlay (by rw [List.length_append, List.length_singleton]; omega)]
              omega
            rw [hout]
            exact ⟨fun _ => rfl, fun h => absurd (.inl hlast) h⟩
          · have hnext := store_overlay cells (w ++ [0])
              (by rw [List.length_append, List.length_singleton]; omega) (0 : UInt8)
            rw [List.length_append, List.length_singleton] at hnext
            have hrest := ih (k := k + 3) (w := w ++ [0, 0]) hlong (by omega)
              (by simp only [List.length_append, List.length_cons, List.length_nil]; omega) hm
            rw [List.length_append, List.length_cons, List.length_singleton] at hrest
            rw [hnext, Option.bind_some, List.append_assoc, List.singleton_append,
              or_iff_right hlast]
            simpa using hrest
        · rw [if_neg hescape, hget, Option.bind_some, hstore, Option.bind_some]
          rw [hcons] at hescape ⊢
          rw [spillsFrom_cons hescape, rawRbsp_cons hescape]
          have hrest := ih (k := k + 1) (w := w ++ [nal[dataStart + k]]) (by omega)
            (by omega) (by rw [List.length_append, List.length_singleton]; omega) rfl
          rw [List.length_append, List.length_singleton] at hrest
          simpa using hrest
      · rw [if_neg hrun]
        by_cases hend : k < len
        · have hfull : w.length = 256 := by omega
          refine ⟨fun h => absurd h (not_spillsFrom_full (by omega) l), fun _ => ⟨w, ?_, rfl⟩⟩
          rw [← hfull, List.take_left]
        · have hnil : l = [] := by
            rw [← hl, show len - k = 0 by omega, List.take_zero]
          subst hnil
          refine ⟨fun h => absurd h (spillsFrom_nil _), fun _ => ⟨w, ?_, rfl⟩⟩
          rw [rawRbsp, List.append_nil, List.take_of_length_le hw]
          simp

/-! ## What a unit says -/

/-- The unescaped payload, as far as the buffer goes. -/
def buffered (payload : List UInt8) : List UInt8 := (rawRbsp payload).take 256

/-- The payload is too short to be looked at. -/
def TooShort (payload : List UInt8) : Prop := (rawRbsp payload).length < 2

/-- The payload begins with two numbers that can be read, a mode and one more flag. -/
def HeaderSays (payload : List UInt8) (entropy : Bool) : Prop :=
  ∃ (ppsId spsId : ℕ) (bottomFieldPicOrder : Bool), IsShortUe ppsId ∧ IsShortUe spsId ∧
    ueCode ppsId ++ (ueCode spsId ++ [entropy, bottomFieldPicOrder]) <+:
      toBits (buffered payload)

/-- The scan goes on behind the unit. -/
structure Unreadable (payload : List UInt8) : Prop where
  inside : ¬ Spills payload
  long : ¬ TooShort payload
  header : ∀ entropy, ¬ HeaderSays payload entropy

theorem parses_twoFlags :
    Parses twoFlags fun v cs => ∃ entropy order : Bool, v = entropy.toNat ∧
      cs = [entropy, order] := by
  have hboth : Parses (do
      let entropy ← nextBit
      let _ ← nextBit
      pure entropy : Reader ℕ) fun v cs => ∃ entropy order : Bool, v = entropy.toNat ∧
        cs = [entropy, order] := by
    refine (parses_nextBit.bind fun entropy => parses_nextBit.bind fun _ =>
      Parses.pure entropy).congr fun v cs => ?_
    constructor
    · rintro ⟨-, -, -, ⟨entropy, rfl, rfl⟩, ⟨-, -, -, ⟨order, -, rfl⟩, ⟨rfl, rfl⟩, rfl⟩, rfl⟩
      exact ⟨entropy, order, rfl, rfl⟩
    · rintro ⟨entropy, order, rfl, rfl⟩
      exact ⟨_, [entropy], [order], ⟨entropy, rfl, rfl⟩,
        ⟨_, [order], [], ⟨order, rfl, rfl⟩, ⟨rfl, rfl⟩, rfl⟩, rfl⟩
  intro b v b'
  unfold twoFlags
  split
  · rename_i hshort
    constructor
    · rintro ⟨hok, -⟩
      cases hok
    · rintro ⟨-, -, ⟨entropy, order, -, rfl⟩, hcs, -⟩
      have hlen := hcs.length_le
      rw [length_rest, List.length_cons, List.length_singleton] at hlen
      omega
  · exact hboth b v b'

theorem parses_ppsHeader :
    Parses ppsHeader fun v cs => ∃ (ppsId spsId : ℕ) (entropy order : Bool),
      IsShortUe ppsId ∧ IsShortUe spsId ∧ v = entropy.toNat ∧
        cs = ueCode ppsId ++ (ueCode spsId ++ [entropy, order]) := by
  refine (parses_nalReadUe.bind fun _ => parses_nalReadUe.bind fun _ =>
    parses_twoFlags).congr fun v cs => ?_
  constructor
  · rintro ⟨ppsId, -, -, ⟨hppsId, rfl⟩, ⟨spsId, -, -, ⟨hspsId, rfl⟩,
      ⟨entropy, order, rfl, rfl⟩, rfl⟩, rfl⟩
    exact ⟨ppsId, spsId, entropy, order, hppsId, hspsId, rfl, rfl⟩
  · rintro ⟨ppsId, spsId, entropy, order, hppsId, hspsId, rfl, rfl⟩
    exact ⟨ppsId, _, _, ⟨hppsId, rfl⟩, ⟨spsId, _, _, ⟨hspsId, rfl⟩,
      ⟨entropy, order, rfl, rfl⟩, rfl⟩, rfl⟩

/-- At the start the first bits are left. -/
theorem rest_start {bytes : List UInt8} {bits : ℕ} (h : bits ≤ 8 * bytes.length) :
    Source.rest (NalBits.start bytes bits h) = (toBits bytes).take bits := rfl

/-- The header is read from a buffer exactly when the payload says so. -/
theorem ppsHeader_buffer {payload rbsp : List UInt8}
    (hrbsp : rbsp.take (buffered payload).length = buffered payload)
    (h : (buffered payload).length * 8 ≤ 8 * rbsp.length) (entropy : Bool) :
    (∃ b, ppsHeader (.start rbsp ((buffered payload).length * 8) h) =
      .ok (entropy.toNat, b)) ↔ HeaderSays payload entropy := by
  have hrest : Source.rest (NalBits.start rbsp ((buffered payload).length * 8) h) =
      toBits (buffered payload) := by
    rw [rest_start, Nat.mul_comm, ← toBits_take, hrbsp]
  constructor
  · rintro ⟨b, hok⟩
    obtain ⟨-, -, ⟨ppsId, spsId, mode, order, hppsId, hspsId, hmode, rfl⟩, hcs, -⟩ :=
      (parses_ppsHeader _ _ _).mp ⟨hok, rfl⟩
    obtain rfl : entropy = mode := by
      cases entropy <;> cases mode <;> simp at hmode ⊢
    rw [hrest] at hcs
    exact ⟨ppsId, spsId, order, hppsId, hspsId, hcs⟩
  · rintro ⟨ppsId, spsId, order, hppsId, hspsId, hcs⟩
    rw [← hrest] at hcs
    exact ⟨_, ((parses_ppsHeader _ _ _).mpr ⟨rfl, _,
      ⟨ppsId, spsId, entropy, order, hppsId, hspsId, rfl, rfl⟩, hcs, rfl⟩).1⟩

/-- What comes of the units of the type that follow. -/
inductive Outcome (s : PpsState) : List (List UInt8) → Option PpsState → Prop
  | ended : Outcome s [] (some s)
  | spills {payload units} (h : Spills payload) : Outcome s (payload :: units) none
  | short {payload units} (hin : ¬ Spills payload) (h : TooShort payload) :
      Outcome s (payload :: units) (some { s with ppsChecked := true })
  | read {payload units entropy} (hin : ¬ Spills payload) (hlong : ¬ TooShort payload)
      (h : HeaderSays payload entropy) :
      Outcome s (payload :: units) (some ⟨true, entropy.toNat, entropy.toNat⟩)
  | later {payload units r} (h : Unreadable payload) (hr : Outcome s units r) :
      Outcome s (payload :: units) r

/-- One unit is examined as its payload says. -/
theorem examinePps_outcome {payload : List UInt8} {nalStart stop : ℕ} (s : PpsState)
    (hstop : stop ≤ nal.length) (hstart : nalStart < nal.length)
    (hpayload : (nal.drop (nalStart + 1)).take (stop - (nalStart + 1)) = payload) :
    (examinePps nal nalStart stop s = none ∧ Spills payload) ∨
      (examinePps nal nalStart stop s = some none ∧ Unreadable payload) ∨
      ∃ s', examinePps nal nalStart stop s = some (some s') ∧
        ∀ units, Outcome s (payload :: units) (some s') := by
  have hlen : payload.length = stop - (nalStart + 1) := by
    rw [← hpayload, List.length_take, List.length_drop]
    omega
  unfold examinePps
  split
  · rename_i hempty
    obtain rfl : payload = [] := List.length_eq_zero_iff.mp (by omega)
    refine .inr (.inr ⟨_, rfl, fun units => .short (spillsFrom_nil 0) ?_⟩)
    show (rawRbsp []).length < 2
    decide
  · have hcells : (List.replicate 256 (0 : UInt8)).length = 256 := List.length_replicate
    have hin : nalStart + 1 + (stop - (nalStart + 1)) ≤ nal.length := by omega
    have hfuel : stop - (nalStart + 1) < 0 + (stop - nalStart) := by omega
    have hloop := unescapeLoop_eq (w := []) hcells hin (Nat.zero_le _) hfuel (Nat.zero_le _)
      hpayload
    rw [overlay_nil, List.length_nil] at hloop
    by_cases hspills : Spills payload
    · rw [hloop.1 hspills]
      exact .inl ⟨rfl, hspills⟩
    · obtain ⟨v, hv, hfill⟩ := hloop.2 hspills
      rw [List.nil_append] at hv
      change v = buffered payload at hv
      subst hv
      have hbuffer : (buffered payload).length ≤ 256 := List.length_take_le ..
      have hroom : 0 + (buffered payload).length ≤ (List.replicate 256 (0 : UInt8)).length := by
        omega
      have hlayed := take_overlay hroom
      have hsize := length_overlay hroom
      rw [Nat.zero_add, List.take_zero, List.nil_append] at hlayed
      rw [hcells] at hsize
      rw [hfill]
      simp only [Option.bind_eq_bind, Option.bind_some]
      have hshort : (buffered payload).length * 8 < 10 ↔ TooShort payload := by
        rw [buffered, List.length_take, TooShort]
        omega
      generalize overlay (List.replicate 256 0) 0 (buffered payload) = rbsp at hlayed hsize
      split
      · rename_i hten
        exact .inr (.inr ⟨_, rfl, fun units => .short hspills (hshort.mp hten)⟩)
      · rename_i hten
        have hlong := fun h => hten (hshort.mpr h)
        have hfits : (buffered payload).length * 8 ≤ 8 * rbsp.length := by omega
        have hheader := ppsHeader_buffer hlayed hfits
        rw [dif_pos hfits]
        split
        · rename_i herror
          refine .inr (.inl ⟨rfl, hspills, hlong, fun entropy hsaid => ?_⟩)
          obtain ⟨b, hok⟩ := (hheader entropy).mpr hsaid
          rw [herror] at hok
          cases hok
        · rename_i entropy b hok
          obtain ⟨-, -, ⟨-, -, mode, -, -, -, rfl, -⟩, -⟩ :=
            (parses_ppsHeader _ _ _).mp ⟨hok, rfl⟩
          exact .inr (.inr ⟨_, rfl, fun units =>
            .read hspills hlong ((hheader mode).mp ⟨b, hok⟩)⟩)

/-- The scan does what the units of the type say. -/
theorem ppsLoop_outcome (s : PpsState) {n i : ℕ} (h : i + n + 5 = nal.length) :
    Outcome s (payloads 8 (nal.drop i)) (ppsLoop nal s n i) := by
  induction n generalizing i with
  | zero =>
      rw [payloads_short (by rw [List.length_drop]; omega)]
      exact .ended
  | succ n ih =>
      have hnext := ih (i := i + 1) (by omega)
      have hlt : i < nal.length := by omega
      have hcons : nal.drop i = nal[i] :: nal.drop (i + 1) := List.drop_eq_getElem_cons hlt
      rw [ppsLoop, scLen_eq (by omega)]
      simp only [Option.bind_eq_bind, Option.bind_some]
      by_cases hcode : Avc.codeAt (nal.drop i) = 0
      · have hnone := payloadAt_eq_none 8 hcode
        rw [if_pos hcode]
        rw [hcons] at hnone ⊢
        rw [payloads_cons_none hnone]
        exact hnext
      · obtain ⟨header, hin, hget, hpayload⟩ := payloadAt_drop 8 (by omega) rfl hcode
        rw [if_neg hcode, if_neg (by omega), hget]
        simp only [Option.bind_some]
        by_cases htype : header &&& 0x1f = 8
        · rw [if_pos htype] at hpayload
          have hpayloads : payloads 8 (nal.drop i) =
              untilCode (nal.drop (i + Avc.codeAt (nal.drop i) + 1)) ::
                payloads 8 (nal.drop (i + 1)) := by
            rw [hcons, payloads, if_neg (by rw [List.length_drop]; omega), ← hcons, hpayload]
            rfl
          have hunit := untilCode_isPrefix (nal.drop (i + Avc.codeAt (nal.drop i) + 1))
          have hstop := hunit.length_le
          rw [List.length_drop] at hstop
          rw [if_neg (not_not.mpr htype), nalEnd_eq hin, hpayloads, Option.bind_some]
          obtain ⟨hfault, hspills⟩ | ⟨hskip, hunreadable⟩ | ⟨s', hdone, houtcome⟩ :=
            examinePps_outcome s (show i + Avc.codeAt (nal.drop i) + 1 +
              (untilCode (nal.drop (i + Avc.codeAt (nal.drop i) + 1))).length ≤ nal.length by
                omega) hin
              (by rw [Nat.add_sub_cancel_left, ← List.prefix_iff_eq_take.mp hunit])
          · rw [hfault]
            exact .spills hspills
          · rw [hskip]
            exact .later hunreadable hnext
          · rw [hdone]
            exact houtcome _
        · rw [if_neg htype] at hpayload
          rw [if_pos htype]
          rw [hcons] at hpayload ⊢
          rw [payloads_cons_none hpayload]
          exact hnext

/-! ## The units that count -/

/-- The detector has not looked at a picture parameter set yet. -/
def PpsState.Undecided (s : PpsState) : Prop := s.ppsChecked = false ∧ s.cabacDetected = 0

/-- The units that the scan comes to: up to and with the first one that it can read or
that is too short. -/
inductive ComesTo : List (List UInt8) → List UInt8 → Prop
  | here (payload : List UInt8) (units : List (List UInt8)) :
      ComesTo (payload :: units) payload
  | later {first : List UInt8} {units : List (List UInt8)} {payload : List UInt8}
      (h : Unreadable first) (hlater : ComesTo units payload) :
      ComesTo (first :: units) payload

/-- The scan comes to a unit from which it reads a mode. -/
def ReadsMode (units : List (List UInt8)) (mode : ℕ) : Prop :=
  ∃ payload entropy, ComesTo units payload ∧ ¬ Spills payload ∧ ¬ TooShort payload ∧
    HeaderSays payload entropy ∧ mode = entropy.toNat

theorem HeaderSays.unique {payload : List UInt8} {a b : Bool} (ha : HeaderSays payload a)
    (hb : HeaderSays payload b) : a = b := by
  obtain ⟨ppsId, spsId, order, -, -, more, hmore⟩ := ha
  obtain ⟨ppsId', spsId', order', -, -, more', hmore'⟩ := hb
  rw [← hmore'] at hmore
  simp only [List.append_assoc] at hmore
  obtain ⟨-, h⟩ := ueCode_append_inj hmore
  obtain ⟨-, h⟩ := ueCode_append_inj h
  exact (List.cons.inj h).1

variable {s s' : PpsState} {units : List (List UInt8)} {r : Option PpsState}

theorem Outcome.eq_none_iff (h : Outcome s units r) :
    r = none ↔ ∃ payload, ComesTo units payload ∧ Spills payload := by
  induction h with
  | ended =>
      constructor
      · rintro ⟨⟩
      · rintro ⟨payload, ⟨⟩, -⟩
  | spills h => exact ⟨fun _ => ⟨_, .here _ _, h⟩, fun _ => rfl⟩
  | short hin h =>
      constructor
      · rintro ⟨⟩
      · rintro ⟨payload, hcomes, hspills⟩
        cases hcomes with
        | here => exact absurd hspills hin
        | later hfirst => exact absurd h hfirst.long
  | read hin hlong h =>
      constructor
      · rintro ⟨⟩
      · rintro ⟨payload, hcomes, hspills⟩
        cases hcomes with
        | here => exact absurd hspills hin
        | later hfirst => exact absurd h (hfirst.header _)
  | later hfirst hr ih =>
      rw [ih]
      constructor
      · rintro ⟨payload, hcomes, hspills⟩
        exact ⟨payload, .later hfirst hcomes, hspills⟩
      · rintro ⟨payload, hcomes, hspills⟩
        cases hcomes with
        | here => exact absurd hspills hfirst.inside
        | later hfirst' hcomes => exact ⟨payload, hcomes, hspills⟩

/-- A mode that is read is noted. -/
theorem Outcome.of_readsMode {mode : ℕ} (h : Outcome s units r) (hreads : ReadsMode units mode) :
    r = some ⟨true, mode, mode⟩ := by
  obtain ⟨payload, entropy, hcomes, hin, hlong, hsaid, rfl⟩ := hreads
  induction h with
  | ended => cases hcomes
  | spills h =>
      cases hcomes with
      | here => exact absurd h hin
      | later hfirst => exact absurd h hfirst.inside
  | short hin' h =>
      cases hcomes with
      | here => exact absurd h hlong
      | later hfirst => exact absurd h hfirst.long
  | read hin' hlong' h =>
      cases hcomes with
      | here => rw [hsaid.unique h]
      | later hfirst => exact absurd h (hfirst.header _)
  | later hfirst hr ih =>
      cases hcomes with
      | here => exact absurd hsaid (hfirst.header _)
      | later hfirst' hcomes => exact ih hcomes

/-- Without a mode the old one stays. -/
theorem Outcome.readsMode_or_same (h : Outcome s units (some s')) :
    (∃ mode, ReadsMode units mode ∧ s'.entropyMode = mode) ∨
      s'.entropyMode = s.entropyMode := by
  generalize hr : some s' = r at h
  induction h with
  | ended =>
      cases hr
      exact .inr rfl
  | spills => cases hr
  | short =>
      cases hr
      exact .inr rfl
  | read hin hlong h =>
      cases hr
      exact .inl ⟨_, ⟨_, _, .here _ _, hin, hlong, h, rfl⟩, rfl⟩
  | later hfirst hr' ih =>
      obtain ⟨mode, ⟨payload, entropy, hcomes, hrest⟩, hmode⟩ | hsame := ih hr
      · exact .inl ⟨mode, ⟨payload, entropy, .later hfirst hcomes, hrest⟩, hmode⟩
      · exact .inr hsame

/-! ## The first picture parameter set -/

/-- An access unit with a unit that is accepted is long enough to be looked at. -/
theorem checkNalForCabac_outcome (hs : s.Undecided) (hlen : 6 < nal.length) :
    Outcome s (payloads 8 nal) (checkNalForCabac nal s) := by
  rw [checkNalForCabac, if_neg (by simp [hs.1, hs.2]), if_neg (by omega)]
  exact ppsLoop_outcome s (show 0 + (nal.length - 5) + 5 = nal.length by omega)

/-- A parameter set has at least sixteen bits. -/
theorem sixteen_le_length (set : Sps.PictureParameterSet) : 16 ≤ set.encode.length := by
  have hzero : (ueCode 0).length = 1 := rfl
  have hpos : ∀ v, 1 ≤ (ueCode v).length := fun v => by
    rw [length_ueCode]
    omega
  have hppsId := hpos set.head.ppsId
  have hspsId := hpos set.head.spsId
  have hl0 := hpos set.tail.refIdxL0
  have hl1 := hpos set.tail.refIdxL1
  have hqp := hpos (Sps.seNumber set.tail.qp)
  have hqs := hpos (Sps.seNumber set.tail.qs)
  have hchroma := hpos (Sps.seNumber set.tail.chromaQpOffset)
  simp only [Sps.PictureParameterSet.encode, Sps.PpsHead.encode, Sps.PpsTail.encode,
    List.length_append, List.length_cons, List.length_nil, length_bitsOf]
  omega

/-- A unit that is accepted has few bytes, its last one not zero. -/
theorem length_rbsp_of_accepted {rbsp : List UInt8} {set : Sps.PictureParameterSet}
    {spsId : ℕ} (u : StreamUnit) (hrbsp : IsRbsp u.bytes 8 rbsp)
    (hset : set.Supported spsId) (hpayload : IsPayload (toBits rbsp) set.encode) :
    3 ≤ rbsp.length ∧ rbsp.length ≤ 63 := by
  have hmin := sixteen_le_length set
  have hmax := hset.length_encode
  have htail : u.bytes.tail ≠ [] := by
    intro h
    have hnil := hrbsp.2
    rw [h] at hnil
    cases hnil
    obtain ⟨k, hk⟩ := hpayload
    simp at hk
  have hlast : rbsp.getLast? ≠ some 0 := by
    rw [EmulationPrevention.getLast?_of_unescapeFrom hrbsp.2 htail]
    have hnonzero := u.lastNonzero
    cases hbytes : u.bytes with
    | nil => exact absurd hbytes u.nonempty
    | cons b rest =>
        simp only [hbytes, List.tail_cons] at hnonzero htail
        rw [List.getLast_cons htail] at hnonzero
        rw [List.tail_cons, List.getLast?_eq_some_getLast htail]
        simpa using hnonzero
  obtain ⟨k, hk, hbits⟩ := hpayload.closes hlast
  have hlen := congrArg List.length hbits
  simp only [length_toBits, List.length_append, List.length_cons, List.length_replicate] at hlen
  omega

/-- Zero bytes behind a payload spill no more. -/
theorem not_spills_append_zeros {payload : List UInt8}
    (h : (rawRbsp payload).length < 255) (k : ℕ) :
    ¬ Spills (payload ++ List.replicate k 0) := by
  rintro ⟨front, back, heq, hlen⟩
  have hthree : (3 : UInt8) ∉ List.replicate k 0 := by simp
  obtain ⟨c, -, hc⟩ | ⟨c, rfl, hc⟩ := List.append_eq_append_iff.mp heq
  · rw [hc] at hthree
    exact hthree (by simp)
  · by_cases hshort : c.length ≤ 2
    · have hget := congrArg (·[2]?) hc
      simp only [List.getElem?_append_right hshort] at hget
      exact hthree (List.mem_of_getElem? hget.symm)
    · match c with
      | [] | [_] | [_, _] => simp at hshort
      | a :: b :: d :: c =>
          simp only [List.cons_append, List.cons.injEq] at hc
          obtain ⟨rfl, rfl, rfl, -⟩ := hc
          rw [rawRbsp_append (by simp), List.length_append] at h
          omega

/-- What the first picture parameter set says, if it is accepted. -/
theorem says_of_accepted {r : Sps.PpsReport} {spsId : ℕ} (u : StreamUnit) (k : ℕ)
    (h : avcPpsValidateMainEx u.bytes spsId = .ok r) :
    ¬ Spills (u.bytes.tail ++ List.replicate k 0) ∧
      ¬ TooShort (u.bytes.tail ++ List.replicate k 0) ∧
      ∃ mode : Bool, r.entropyCodingMode = mode.toNat ∧
        ∀ entropy, HeaderSays (u.bytes.tail ++ List.replicate k 0) entropy ↔
          IsShortUe spsId ∧ entropy = mode := by
  obtain ⟨-, rbsp, set, hrbsp, hset, hpayload, rfl⟩ := Sps.avcPpsValidateMainEx_eq_ok.mp h
  have hlen := length_rbsp_of_accepted u hrbsp hset hpayload
  have hraw : rawRbsp u.bytes.tail = rbsp := rawRbsp_of_unescape hrbsp.2
  have hzeros : rawRbsp (u.bytes.tail ++ List.replicate k 0) =
      rbsp ++ List.replicate k 0 := by
    rw [rawRbsp_append, hraw, rawRbsp_zeros]
    intro hthree
    exact absurd (List.eq_of_mem_replicate (List.mem_of_mem_take hthree)) (by decide)
  have hfront : set.head.encode <+:
      toBits (buffered (u.bytes.tail ++ List.replicate k 0)) := by
    have hbytes : rbsp <+: buffered (u.bytes.tail ++ List.replicate k 0) := by
      rw [buffered, hzeros]
      exact List.prefix_take_iff.mpr ⟨List.prefix_append _ _, by omega⟩
    obtain ⟨more, hmore⟩ := hbytes
    obtain ⟨zeros, hbits⟩ := hpayload
    rw [← hmore, toBits_append, hbits, Sps.PictureParameterSet.encode]
    simp only [List.append_assoc]
    exact List.prefix_append _ _
  refine ⟨not_spills_append_zeros (by rw [hraw]; omega) k, ?_, set.head.entropy, rfl,
    fun entropy => ⟨?_, ?_⟩⟩
  · rw [TooShort, hzeros, List.length_append]
    omega
  · rintro ⟨ppsId, spsId', order, hppsId, hspsId, more, hmore⟩
    obtain ⟨more', hmore'⟩ := hfront
    rw [← hmore'] at hmore
    have hheads := (Sps.PpsHead.encode_inj (s := ⟨ppsId, spsId', entropy, order⟩) hmore).1
    rw [← hset.spsId, ← hheads]
    exact ⟨hspsId, rfl⟩
  · rintro ⟨hspsId, rfl⟩
    refine ⟨set.head.ppsId, set.head.spsId, set.head.bottomFieldPicOrder, ?_,
      by rwa [hset.spsId], hfront⟩
    have hppsId := hset.ppsId
    unfold IsShortUe
    omega

/-! ## The result -/

/-- Where the first unit is accepted, the mode that is read is its own, or that of a
later unit if the number of its sequence parameter set is too long. -/
theorem readsMode_cons_iff {payload : List UInt8} {mode : Bool} {spsId : ℕ}
    (hin : ¬ Spills payload) (hlong : ¬ TooShort payload)
    (hsaid : ∀ entropy, HeaderSays payload entropy ↔ IsShortUe spsId ∧ entropy = mode) :
    ReadsMode (payload :: units) mode.toNat ↔ IsShortUe spsId ∨ ReadsMode units mode.toNat := by
  constructor
  · rintro ⟨found, entropy, hcomes, hin', hlong', hfound, hmode⟩
    cases hcomes with
    | here => exact .inl ((hsaid entropy).mp hfound).1
    | later hfirst hcomes =>
        exact .inr ⟨found, entropy, hcomes, hin', hlong', hfound, hmode⟩
  · intro h
    by_cases hshort : IsShortUe spsId
    · exact ⟨payload, mode, .here _ _, hin, hlong, (hsaid mode).mpr ⟨hshort, rfl⟩, rfl⟩
    · obtain ⟨found, entropy, hcomes, hrest⟩ := h.resolve_left hshort
      have hfirst : Unreadable payload :=
        ⟨hin, hlong, fun entropy h => hshort ((hsaid entropy).mp h).1⟩
      exact ⟨found, entropy, .later hfirst hcomes, hrest⟩

theorem ComesTo.mem {payload : List UInt8} (h : ComesTo units payload) : payload ∈ units := by
  induction h with
  | here => exact List.mem_cons_self
  | later hfirst hcomes ih => exact List.mem_cons_of_mem _ ih

theorem length_of_spills {payload : List UInt8} (h : Spills payload) :
    258 ≤ payload.length := by
  obtain ⟨front, back, rfl, hlen⟩ := h
  have hle := length_rawRbsp_le front
  simp only [List.length_append, List.length_cons]
  omega

/-- A detector that has not looked at anything. -/
def fresh : PpsState := ⟨false, 0, -1⟩

theorem fresh_undecided : fresh.Undecided := ⟨rfl, rfl⟩

/-- The detector stays inside its buffers exactly if no unit that it comes to has an
escape at the last byte of its buffer.  If the first picture parameter set is accepted, it
notes the mode that is reported exactly if the number of the sequence parameter set has no
more than sixteen zeros in its code, or if a later unit that is read in its place has the
same mode. -/
theorem checkNalForCabac_correct (nal : List UInt8) :
    ((∀ s, ∃ s', checkNalForCabac nal s = some s') ↔
      ¬ ∃ payload, ComesTo (payloads 8 nal) payload ∧ Spills payload) ∧
    ∀ (us : List StreamUnit) (trailing : ℕ) (u : StreamUnit) (spsId : ℕ)
      (r : Sps.PpsReport), nal = accessUnit us trailing → firstOfType 8 us = some u →
        avcPpsValidateMainEx u.bytes spsId = .ok r →
          ((∀ s : PpsState, s.Undecided → ∃ s', checkNalForCabac nal s = some s' ∧
              s'.entropyMode = r.entropyCodingMode) ↔
            IsShortUe spsId ∨ ReadsMode (payloads 8 nal).tail r.entropyCodingMode) := by
  constructor
  · constructor
    · rintro hall ⟨payload, hcomes, hspills⟩
      have hlen := length_of_spills hspills
      have hle := length_of_mem_payloads hcomes.mem
      obtain ⟨s', hs'⟩ := hall fresh
      have hlong : 6 < nal.length := by omega
      have houtcome := checkNalForCabac_outcome fresh_undecided hlong
      rw [houtcome.eq_none_iff.mpr ⟨payload, hcomes, hspills⟩] at hs'
      cases hs'
    · intro hnone s
      by_cases hs : s.Undecided
      · by_cases hlen : 6 < nal.length
        · have houtcome := checkNalForCabac_outcome hs hlen
          exact Option.ne_none_iff_exists'.mp fun h => hnone (houtcome.eq_none_iff.mp h)
        · rw [checkNalForCabac, if_pos (show nal.length ≤ 6 by omega)]
          exact ⟨s, ite_self _⟩
      · rw [PpsState.Undecided, Decidable.not_and_iff_or_not, Bool.not_eq_false] at hs
        exact ⟨s, if_pos hs⟩
  · rintro us trailing u spsId r rfl hfirst hr
    have hbytes : 4 ≤ u.bytes.length := by
      obtain ⟨-, rbsp, set, hrbsp, hset, hpayload, -⟩ := Sps.avcPpsValidateMainEx_eq_ok.mp hr
      have hlen := length_rbsp_of_accepted u hrbsp hset hpayload
      have hle := EmulationPrevention.length_le_of_unescape hrbsp.2
      rw [List.length_tail] at hle
      omega
    obtain ⟨k, ps, hpayloads⟩ := payloads_accessUnit hfirst (by omega) trailing
    obtain ⟨hin, hlong, mode, hmode, hsaid⟩ := says_of_accepted u k hr
    have hle := length_of_mem_payloads (by rw [hpayloads]; exact List.mem_cons_self)
    rw [List.length_append, List.length_tail] at hle
    have hlen : 6 < (accessUnit us trailing).length := by omega
    rw [hpayloads, List.tail_cons, hmode, ← readsMode_cons_iff hin hlong hsaid]
    constructor
    · intro hall
      obtain ⟨s', hs', hmode'⟩ := hall fresh fresh_undecided
      have houtcome := checkNalForCabac_outcome fresh_undecided hlen
      rw [hs', hpayloads] at houtcome
      obtain ⟨found, hreads, hfound⟩ | hsame := houtcome.readsMode_or_same
      · obtain rfl : found = mode.toNat := by omega
        exact hreads
      · rw [hsame] at hmode'
        exact absurd hmode' (by simp only [fresh]; omega)
    · intro hreads s hs
      have houtcome := checkNalForCabac_outcome hs hlen
      rw [hpayloads] at houtcome
      exact ⟨_, houtcome.of_readsMode hreads, rfl⟩

/-- The unit of a parameter set for CABAC. -/
def cabacUnit : StreamUnit where
  zeros := 0
  long := true
  bytes := [0x68, 0xee, 0x06, 0xf2]
  nonempty := by simp
  noStartCode := by decide
  lastNonzero := by decide

theorem checkNalForCabac_correct_cabacUnit :
    (∀ s : PpsState, s.Undecided →
      ∃ s', checkNalForCabac (accessUnit [cabacUnit] 0) s = some s' ∧ s'.entropyMode = 1) := by
  have hnal : Sps.cabacSet.nal 3 = cabacUnit.bytes := by decide +kernel
  have hok : avcPpsValidateMainEx cabacUnit.bytes 0 = .ok ⟨1, 0⟩ := by
    rw [← hnal]
    exact Sps.PictureParameterSet.avcPpsValidateMainEx_nal
      (Sps.PictureParameterSet.Valid.supported ⟨by decide, by decide, by decide, by decide,
        by decide, by decide, by decide, by decide⟩) (by decide)
  exact ((checkNalForCabac_correct (accessUnit [cabacUnit] 0)).2 [cabacUnit] 0 cabacUnit 0
    ⟨1, 0⟩ rfl rfl hok).mpr (.inl (by decide))

/-- A parameter set for CABAC that belongs to the sequence parameter set 131071. -/
def longIdSet : Sps.PictureParameterSet where
  head := ⟨0, 2 ^ 17 - 1, true, false⟩
  tail := ⟨0, 0, false, 0, 0, 0, 0, false, false, false⟩

/-- With an escape behind 255 bytes the buffer is left, and a parameter set that is
accepted is not read. -/
theorem checkNalForCabac_fails :
    checkNalForCabac ([0, 0, 1, 0x68] ++ List.replicate 255 0xff ++ [0, 0, 3, 1]) fresh = none ∧
      avcPpsValidateMainEx [0x68, 0x80, 0, 0x20, 0, 0x0b, 0x8e, 0x20] 131071 = .ok ⟨1, 0⟩ ∧
      checkNalForCabac [0, 0, 1, 0x68, 0x80, 0, 0x20, 0, 0x0b, 0x8e, 0x20] fresh =
        some fresh := by
  have hnal : longIdSet.nal 3 = [0x68, 0x80, 0, 0x20, 0, 0x0b, 0x8e, 0x20] := by
    decide +kernel
  have hok := Sps.PictureParameterSet.avcPpsValidateMainEx_nal
    (Sps.PictureParameterSet.Valid.supported (s := longIdSet) ⟨by decide, by decide, by decide,
      by decide, by decide, by decide, by decide, by decide⟩) (show 3 < 4 by decide)
  rw [hnal] at hok
  have hpayloads : payloads 8 ([0, 0, 1, 0x68] ++ List.replicate 255 0xff ++ [0, 0, 3, 1]) =
      [List.replicate 255 0xff ++ [0, 0, 3, 1]] := by
    decide +kernel
  have hraw : (rawRbsp (List.replicate 255 0xff)).length = 255 := by decide +kernel
  have hlen : 6 < ([0, 0, 1, 0x68] ++ List.replicate 255 (0xff : UInt8) ++
      [0, 0, 3, 1]).length := by
    decide +kernel
  have houtcome := checkNalForCabac_outcome fresh_undecided hlen
  rw [hpayloads] at houtcome
  refine ⟨houtcome.eq_none_iff.mpr ⟨_, .here _ _, ?_⟩, hok, by decide +kernel⟩
  exact ⟨List.replicate 255 0xff, [1], rfl, by rw [hraw]⟩

end MoonlightPsp.Detector
