import MoonlightPsp.Avc.Accepted
import Mathlib.Algebra.Group.Nat.Defs

/-!
# The scan of the headers

`nal_scan_headers` of `decoder_thread.c` looks at the units of an access unit up to its
first slice.  On what the packetizer accepts it finds the same key frames, and the
parameter sets in front of the slices.
-/

namespace MoonlightPsp.Detector

open Avc (NalUnit CodedUnit annexB codeAt codeAt_append_of_last PacketizedAu
  IsPacketizedStream avcPacketize keyFrame)

/-! ## The model -/

/-- `sc_len`: the length of the start code at a position, zero if there is none. -/
def headerScLen (nal : List UInt8) (p : ℕ) : Option ℕ := do
  let b₀ ← nal[p]?
  if b₀ ≠ 0 then some 0
  else do
    let b₁ ← nal[p + 1]?
    if b₁ ≠ 0 then some 0
    else do
      let b₂ ← nal[p + 2]?
      if b₂ = 1 then some 3
      else if p + 4 < nal.length ∧ b₂ = 0 then do
        let b₃ ← nal[p + 3]?
        if b₃ = 1 then some 4 else some 0
      else some 0

/-- The loop of `nal_scan_headers`: what is left in `has_idr` and `has_sync_nal`. -/
def headerLoop (nal : List UInt8) : ℕ → ℕ → Bool → Option (Bool × Bool)
  | 0, _, _ => none
  | fuel + 1, p, hasSync =>
      if p + 4 < nal.length then do
        let sc ← headerScLen nal p
        if sc > 0 ∧ p + sc < nal.length then do
          let header ← nal[p + sc]?
          let nalType := header &&& 0x1f
          if nalType = 5 then some (true, true)
          else
            let hasSync := hasSync || nalType = 7 || nalType = 8
            if nalType ≥ 1 ∧ nalType ≤ 5 then some (false, hasSync)
            else headerLoop nal fuel (p + sc + 1) hasSync
        else headerLoop nal fuel (p + 1) hasSync
      else some (false, hasSync)

/-- `nal_scan_headers` of an access unit that is not null. -/
def nalScanHeaders (nal : List UInt8) : Option (Bool × Bool) :=
  if nal.length ≤ 4 then some (false, false)
  else headerLoop nal (nal.length + 1) 0 false

/-! ## The scan along an access unit -/

variable {nal l : List UInt8} {p : ℕ} {sync : Bool} {r : Bool × Bool}

theorem headerScLen_eq (h : p + 4 < nal.length) :
    headerScLen nal p = some (codeAt (nal.drop p)) := by
  have hget : ∀ i ≤ 3, nal[p + i]? = (nal.drop p)[i]? := fun i _ => List.getElem?_drop.symm
  have hlen : 4 < (nal.drop p).length := by
    rw [List.length_drop]
    omega
  have hzero := hget 0 (by omega)
  rw [Nat.add_zero] at hzero
  rw [headerScLen, hzero, hget 1 (by omega), hget 2 (by omega), hget 3 (by omega)]
  revert hlen
  generalize nal.drop p = l
  intro hlen
  match l with
  | a :: b :: c :: d :: l =>
      by_cases ha : a = 0 <;> by_cases hb : b = 0 <;> by_cases hc : c = 1 <;>
        by_cases hz : c = 0 <;> by_cases hd : d = 1 <;>
        simp [codeAt, h, ha, hb, hc, hz, hd]

/-- What the loop finds in the rest of an access unit. -/
def Scans (l : List UInt8) (sync : Bool) (r : Bool × Bool) : Prop :=
  ∀ nal p fuel, nal.drop p = l → l.length < fuel → headerLoop nal fuel p sync = some r

theorem Scans.short (h : l.length ≤ 4) (sync : Bool) : Scans l sync (false, sync) := by
  rintro nal p (_ | fuel) rfl hfuel
  · omega
  · rw [List.length_drop] at h
    rw [headerLoop, if_neg (by omega)]

theorem Scans.unique {r' : Bool × Bool} (h : Scans l sync r) (h' : Scans l sync r') :
    r = r' :=
  Option.some.inj ((h l 0 _ rfl (Nat.lt_succ_self _)).symm.trans
    (h' l 0 _ rfl (Nat.lt_succ_self _)))

/-- Where no start code begins the loop goes on. -/
theorem Scans.cons {b : UInt8} (hcode : codeAt (b :: l) = 0) (h : Scans l sync r) :
    Scans (b :: l) sync r := by
  by_cases hshort : (b :: l).length ≤ 4
  · have hle : l.length ≤ 4 := by
      rw [List.length_cons] at hshort
      omega
    obtain rfl := h.unique (.short hle sync)
    exact .short hshort sync
  · rintro nal p (_ | fuel) hdrop hfuel
    · omega
    · have hlen := congrArg List.length hdrop
      rw [List.length_drop] at hlen
      have hnext : nal.drop (p + 1) = l := by
        rw [← List.tail_drop, hdrop, List.tail_cons]
      rw [List.length_cons] at hfuel hshort hlen
      rw [headerLoop, if_pos (by omega), headerScLen_eq (by omega), hdrop, hcode]
      exact h nal (p + 1) fuel hnext (by omega)

/-- The bytes of a unit are passed over. -/
theorem Scans.append {bytes : List UInt8} (hcode : ¬ [0, 0, 1] <:+: bytes)
    (hlast : ∀ h : bytes ≠ [], bytes.getLast h ≠ 0) (h : Scans l sync r) :
    Scans (bytes ++ l) sync r := by
  induction bytes with
  | nil => exact h
  | cons b bytes ih =>
      have hne : b :: bytes ≠ [] := List.cons_ne_nil b bytes
      refine .cons (codeAt_append_of_last hne hcode (hlast hne) l)
        (ih (fun hin => hcode (hin.trans ⟨[b], [], by simp⟩)) fun h => ?_)
      have hlast' := hlast hne
      rwa [List.getLast_cons h] at hlast'

/-- A unit behind its start code. -/
theorem Scans.unit {sc : ℕ} {header : UInt8} (hsc : codeAt l = sc) (hpos : 0 < sc)
    (hlen : 4 < l.length) (hheader : l[sc]? = some header)
    (hidr : header &&& 0x1f = 5 → r = (true, true))
    (hslice : header &&& 0x1f = 1 → r = (false, sync))
    (hknown : header &&& 0x1f ∈ ([1, 5, 6, 7, 8, 9, 10, 11, 12] : List UInt8))
    (hrest : header &&& 0x1f ≠ 5 → header &&& 0x1f ≠ 1 →
      Scans (l.drop (sc + 1)) (sync || header &&& 0x1f = 7 || header &&& 0x1f = 8) r) :
    Scans l sync r := by
  rintro nal p (_ | fuel) rfl hfuel
  · omega
  · rw [List.length_drop] at hlen hfuel
    rw [List.getElem?_drop] at hheader
    have hin : p + sc < nal.length := (List.getElem?_eq_some_iff.mp hheader).1
    rw [headerLoop, if_pos (by omega), headerScLen_eq (by omega), hsc]
    simp only [Option.bind_eq_bind, Option.bind_some]
    rw [if_pos ⟨hpos, hin⟩, hheader]
    simp only [Option.bind_some]
    by_cases hfive : header &&& 0x1f = 5
    · rw [if_pos hfive, hidr hfive]
    · rw [if_neg hfive]
      by_cases hone : header &&& 0x1f = 1
      · rw [hslice hone, hone]
        simp
      · have hother : ¬ (header &&& 0x1f ≥ 1 ∧ header &&& 0x1f ≤ 5) := by
          revert hknown hfive hone
          generalize header &&& 0x1f = t
          simp only [List.mem_cons, List.not_mem_nil, or_false]
          rintro (rfl | rfl | rfl | rfl | rfl | rfl | rfl | rfl | rfl) <;> decide
        rw [if_neg hother]
        exact hrest hfive hone nal _ fuel (by rw [List.drop_drop, Nat.add_assoc]) (by
          rw [List.length_drop, List.length_drop]
          omega)

/-! ## What is found in a stream -/

/-- What is found among the units up to the first slice. -/
def headersOf : List CodedUnit → Bool → Bool × Bool
  | [], sync => (false, sync)
  | c :: cs, sync =>
      if c.unit.type = 5 then (true, true)
      else if c.unit.type = 1 then (false, sync)
      else headersOf cs (sync || c.unit.type = 7 || c.unit.type = 8)

/-- A unit of one byte behind a start code of three bytes. -/
def Short (c : CodedUnit) : Prop := c.run = 2 ∧ c.unit.bytes.length = 1

instance (c : CodedUnit) : Decidable (Short c) := inferInstanceAs (Decidable (_ ∧ _))

/-- The units that the scan comes to: all but a short one at the very end. -/
def reached (trailing : ℕ) : List CodedUnit → List CodedUnit
  | [] => []
  | [c] => if trailing = 0 ∧ Short c then [] else [c]
  | c :: c' :: cs => c :: reached trailing (c' :: cs)

/-- In front of a one, zeros are passed over up to a start code of four bytes. -/
theorem Scans.zeros (k : ℕ) (h : Scans (0 :: 0 :: 0 :: 1 :: l) sync r) :
    Scans (List.replicate (k + 3) 0 ++ 1 :: l) sync r := by
  induction k with
  | zero => exact h
  | succ k ih => exact ih.cons (Avc.codeAt_zeros k (1 :: l))

/-- A unit that does not end the input four bytes behind its start code is found. -/
theorem Scans.codedUnit {c : CodedUnit} {cs cs' : List CodedUnit} {trailing : ℕ}
    (hlong : ¬ (Short c ∧ annexB cs trailing = []))
    (hrest : ∀ sync, Scans (annexB cs trailing) sync (headersOf cs' sync)) (sync : Bool) :
    Scans (annexB (c :: cs) trailing) sync (headersOf (c :: cs') sync) := by
  obtain ⟨header, tail, hbytes⟩ := List.exists_cons_of_ne_nil c.unit.nonempty
  have htype : c.unit.type = header &&& 0x1f := by
    simp only [NalUnit.type, hbytes, List.head_cons]
  have hknown : c.unit.type ∈ ([1, 5, 6, 7, 8, 9, 10, 11, 12] : List UInt8) := c.unit.knownType
  have hcode : ¬ [0, 0, 1] <:+: tail := fun hin =>
    c.unit.noStartCode (hin.trans ⟨[header], [], by simp [hbytes]⟩)
  have hlast : ∀ h : tail ≠ [], tail.getLast h ≠ 0 := fun h => by
    have hlast := c.unit.lastNonzero
    simpa only [hbytes, List.getLast_cons h] using hlast
  have hbehind : ∀ sc l, codeAt l = sc → 0 < sc → 4 < l.length → l[sc]? = some header →
      l.drop (sc + 1) = tail ++ annexB cs trailing →
      Scans l sync (headersOf (c :: cs') sync) := fun sc l hsc hpos hlen hheader hdrop => by
    rw [htype] at hknown
    refine .unit hsc hpos hlen hheader (fun hidr => ?_) (fun hslice => ?_) hknown
      fun hidr hslice => ?_
    · rw [headersOf, if_pos (htype.trans hidr)]
    · rw [headersOf, htype, hslice]
      rfl
    · rw [headersOf, htype, if_neg hidr, if_neg hslice, hdrop]
      exact (hrest _).append hcode hlast
  rw [Avc.annexB_cons, hbytes]
  obtain ⟨k, hk⟩ : ∃ k, c.run = k + 2 := ⟨c.run - 2, by have := c.two_le_run; omega⟩
  cases k with
  | zero =>
      have hmore : tail ++ annexB cs trailing ≠ [] := by
        intro hnil
        obtain ⟨rfl, hend⟩ := List.append_eq_nil_iff.mp hnil
        exact hlong ⟨⟨hk, by rw [hbytes, List.length_singleton]⟩, hend⟩
      have hpos := List.length_pos_iff.mpr hmore
      rw [hk]
      exact hbehind 3 _ rfl (by omega) (by simp at hpos ⊢; omega) rfl rfl
  | succ k =>
      rw [hk]
      exact .zeros k (hbehind 4 _ rfl (by omega) (by simp) rfl rfl)

theorem scans_annexB (cs : List CodedUnit) (trailing : ℕ) (sync : Bool) :
    Scans (annexB cs trailing) sync (headersOf (reached trailing cs) sync) := by
  have hend : ∀ sync, Scans (annexB [] trailing) sync (headersOf [] sync) := fun sync => by
    show Scans (List.replicate trailing 0) sync (false, sync)
    induction trailing with
    | zero => exact Scans.short (l := []) (by simp) sync
    | succ n ih =>
        by_cases hshort : n + 1 ≤ 4
        · exact .short (by simpa using hshort) sync
        · obtain ⟨k, rfl⟩ : ∃ k, n = k + 3 := ⟨n - 3, by omega⟩
          have hcode := Avc.codeAt_zeros k []
          rw [List.append_nil] at hcode
          exact ih.cons hcode
  induction cs generalizing sync with
  | nil => exact hend sync
  | cons c cs ih =>
      cases cs with
      | nil =>
          rw [reached]
          split
          · rename_i hshort
            refine .short ?_ sync
            obtain ⟨rfl, hrun, hlen⟩ := hshort
            rw [Avc.annexB_cons, hrun]
            simp [hlen, annexB]
          · rename_i hlong
            refine .codedUnit (fun h => hlong ⟨?_, h.1⟩) hend sync
            simpa [annexB] using h.2
      | cons c' cs =>
          refine .codedUnit (fun h => ?_) ih sync
          have hcons := h.2
          rw [Avc.annexB_cons] at hcons
          simp at hcons

/-! ## Key frames and parameter sets -/

/-- A key frame is found if the first slice belongs to one. -/
theorem headersOf_idr {cs : List CodedUnit}
    (h : ¬ ((∃ c ∈ cs, c.unit.type = 1) ∧ ∃ c ∈ cs, c.unit.type = 5)) (sync : Bool) :
    (headersOf cs sync).1 = true ↔ ∃ c ∈ cs, c.unit.type = 5 := by
  induction cs generalizing sync with
  | nil => simp [headersOf]
  | cons c cs ih =>
      rw [headersOf]
      split
      · rename_i hfive
        simp [hfive]
      · rename_i hfive
        split
        · rename_i hone
          refine ⟨fun hfalse => (nomatch hfalse), fun hidr => ?_⟩
          exact absurd ⟨⟨c, List.mem_cons_self, hone⟩, hidr⟩ h
        · rw [ih fun hboth => h ?_]
          · simp [hfive]
          · obtain ⟨⟨d, hd, hone⟩, e, he, hidr⟩ := hboth
            exact ⟨⟨d, List.mem_cons_of_mem c hd, hone⟩, e, List.mem_cons_of_mem c he, hidr⟩

/-- The units in front of the first slice. -/
def leading (cs : List CodedUnit) : List CodedUnit := cs.takeWhile (¬ ·.unit.IsSlice)

/-- A key frame or a parameter set in front of the first slice counts. -/
theorem headersOf_sync (cs : List CodedUnit) (sync : Bool) :
    (headersOf cs sync).2 = true ↔ sync = true ∨ (headersOf cs sync).1 = true ∨
      ∃ c ∈ leading cs, c.unit.type = 7 ∨ c.unit.type = 8 := by
  induction cs generalizing sync with
  | nil => simp [headersOf, leading]
  | cons c cs ih =>
      rw [headersOf, leading, List.takeWhile_cons]
      split
      · simp
      · rename_i hfive
        split
        · rename_i hone
          have hslice : c.unit.IsSlice := .inl hone
          simp [hslice]
        · rename_i hone
          have hslice : ¬ c.unit.IsSlice := fun h => h.elim hone hfive
          rw [ih]
          simp only [leading, hslice, not_false_eq_true, decide_true, if_true, Bool.or_eq_true,
            decide_eq_true_eq, List.mem_cons, exists_eq_or_imp, or_assoc, or_left_comm]

/-- The last unit adds nothing if it is no key frame, or no parameter set either. -/
theorem headersOf_concat (cs : List CodedUnit) {c : CodedUnit} (hfive : c.unit.type ≠ 5)
    (sync : Bool) :
    (headersOf (cs ++ [c]) sync).1 = (headersOf cs sync).1 ∧
      (c.unit.type ≠ 7 → c.unit.type ≠ 8 →
        (headersOf (cs ++ [c]) sync).2 = (headersOf cs sync).2) := by
  induction cs generalizing sync with
  | nil =>
      simp only [List.nil_append, headersOf, if_neg hfive]
      split
      · exact ⟨rfl, fun _ _ => rfl⟩
      · refine ⟨rfl, fun hsps hpps => ?_⟩
        simp [hsps, hpps]
  | cons d cs ih =>
      rw [List.cons_append, headersOf, headersOf]
      split
      · exact ⟨rfl, fun _ _ => rfl⟩
      · split
        · exact ⟨rfl, fun _ _ => rfl⟩
        · exact ih _

/-- An input that ends in a unit of one byte of some types, behind a start code of three
bytes. -/
def EndsShort (types : List UInt8) (src : List UInt8) : Prop :=
  ∃ front header, src = front ++ [0, 0, 1, header] ∧ front.getLast? ≠ some 0 ∧
    header &&& 0x1f ∈ types

theorem annexB_concat (cs : List CodedUnit) (c : CodedUnit) :
    annexB (cs ++ [c]) 0 = annexB cs 0 ++ (List.replicate c.run 0 ++ 1 :: c.unit.bytes) := by
  rw [annexB, annexB, List.flatMap_append, List.flatMap_singleton, c.encode_eq]
  simp

/-- A unit does not end in a zero byte. -/
theorem getLast?_annexB (cs : List CodedUnit) : (annexB cs 0).getLast? ≠ some 0 := by
  rcases List.eq_nil_or_concat cs with rfl | ⟨cs, c, rfl⟩
  · simp [annexB]
  · have hne := c.unit.nonempty
    rw [List.concat_eq_append, annexB_concat, List.append_cons, ← List.append_assoc,
      List.getLast?_append_of_ne_nil _ hne, List.getLast?_eq_some_getLast hne]
    exact fun h => c.unit.lastNonzero (Option.some.inj h)

theorem reached_eq (cs : List CodedUnit) (trailing : ℕ) :
    reached trailing cs = cs ∨
      ∃ c, cs = reached trailing cs ++ [c] ∧ trailing = 0 ∧ Short c := by
  induction cs with
  | nil => exact .inl rfl
  | cons c cs ih =>
      cases cs with
      | nil =>
          rw [reached]
          split
          · rename_i hshort
            exact .inr ⟨c, rfl, hshort⟩
          · exact .inl rfl
      | cons c' cs =>
          rw [reached]
          refine ih.imp (congrArg (c :: ·)) ?_
          rintro ⟨d, hcons, hshort⟩
          exact ⟨d, congrArg (c :: ·) hcons, hshort⟩

/-- A short unit at the end is seen on the bytes. -/
theorem endsShort_concat (cs : List CodedUnit) {c : CodedUnit} (h : Short c)
    {types : List UInt8} (htype : c.unit.type ∈ types) :
    EndsShort types (annexB (cs ++ [c]) 0) := by
  obtain ⟨header, hheader⟩ := List.length_eq_one_iff.mp h.2
  refine ⟨annexB cs 0, header, ?_, getLast?_annexB cs, ?_⟩
  · rw [annexB_concat, h.1, hheader]
    rfl
  · simpa only [NalUnit.type, hheader, List.head_cons] using htype

/-! ## The result -/

/-- On an access unit that the packetizer accepts the scan finds a key frame exactly if
the packetizer does, and reports a unit to synchronize on exactly if there is a key frame or
a parameter set in front of the first slice; apart from a unit of one byte at the very end,
which the scan does not come to. -/
theorem nalScanHeaders_correct {src dst dst' : List UInt8} {au au' : PacketizedAu}
    (hlen : src.length < 2 ^ 31)
    (hok : avcPacketize ⟨some src, some dst, some au⟩ = some (0, some dst', some au')) :
    ∃ cs trailing idr sync, src = annexB cs trailing ∧
      IsPacketizedStream (cs.map CodedUnit.unit) src dst dst' au' ∧
      nalScanHeaders src = some (idr, sync) ∧
      (¬ EndsShort [5] src → (idr = true ↔ au'.hasIdr = true)) ∧
      (¬ EndsShort [5, 7, 8] src → (sync = true ↔ au'.hasIdr = true ∨
        ∃ c ∈ leading cs, c.unit.type = 7 ∨ c.unit.type = 8)) := by
  obtain ⟨cs, trailing, rfl, -, hkinds, hstream⟩ := Avc.avcPacketize_ok (by omega) hok
  have hscan : nalScanHeaders (annexB cs trailing) =
      some (headersOf (reached trailing cs) false) := by
    rw [nalScanHeaders]
    split
    · rename_i hshort
      exact congrArg some ((Scans.short hshort false).unique (scans_annexB cs trailing false))
    · exact scans_annexB cs trailing false _ 0 _ rfl (Nat.lt_succ_self _)
  have hidr : au'.hasIdr = true ↔ (headersOf cs false).1 = true := by
    rw [hstream.hasIdr, headersOf_idr hkinds]
    simp
  refine ⟨cs, trailing, _, _, rfl, hstream, hscan, fun hshort => ?_, fun hshort => ?_⟩
  · rw [hidr]
    rcases reached_eq cs trailing with heq | ⟨c, heq, rfl, hc⟩
    · rw [heq]
    · have hfive : c.unit.type ≠ 5 := fun hfive => by
        rw [heq] at hshort
        exact hshort (endsShort_concat _ hc (by simp [hfive]))
      conv_rhs => rw [heq, (headersOf_concat _ hfive false).1]
  · rw [hidr]
    have hsync := headersOf_sync cs false
    rw [show (false = true ↔ False) by simp, false_or] at hsync
    rw [← hsync]
    rcases reached_eq cs trailing with heq | ⟨c, heq, rfl, hc⟩
    · rw [heq]
    · have hnone : ∀ t ∈ ([5, 7, 8] : List UInt8), c.unit.type ≠ t := fun t ht heq' => by
        rw [heq] at hshort
        exact hshort (endsShort_concat _ hc (heq' ▸ ht))
      conv_rhs => rw [heq, (headersOf_concat _ (hnone 5 (by decide)) false).2
        (hnone 7 (by decide)) (hnone 8 (by decide))]

/-- What becomes of the key frame. -/
def packetizedKeyFrame : List UInt8 × PacketizedAu :=
  ([0, 0, 0, 3, 0x65, 0x88, 0x84, 0, 0, 0, 2, 0x65, 0x40],
    ⟨.input 5, .input 10, 2, 2, 13, true, false⟩)

theorem nalScanHeaders_correct_keyFrame :
    ∃ cs trailing idr sync, annexB keyFrame 2 = annexB cs trailing ∧
      IsPacketizedStream (cs.map CodedUnit.unit) (annexB keyFrame 2) (List.replicate 13 0)
        packetizedKeyFrame.1 packetizedKeyFrame.2 ∧
      nalScanHeaders (annexB keyFrame 2) = some (idr, sync) ∧
      (¬ EndsShort [5] (annexB keyFrame 2) →
        (idr = true ↔ packetizedKeyFrame.2.hasIdr = true)) ∧
      (¬ EndsShort [5, 7, 8] (annexB keyFrame 2) →
        (sync = true ↔ packetizedKeyFrame.2.hasIdr = true ∨
          ∃ c ∈ leading cs, c.unit.type = 7 ∨ c.unit.type = 8)) := by
  have hok : avcPacketize ⟨some (annexB keyFrame 2), some (List.replicate 13 0),
      some .zero⟩ = some (0, some packetizedKeyFrame.1, some packetizedKeyFrame.2) := by
    decide +kernel
  exact nalScanHeaders_correct (by decide) hok

/-- A key frame is reported as a unit to synchronize on without any parameter set, and a
parameter set behind a slice is not reported. -/
theorem nalScanHeaders_not_parameterSets :
    avcPacketize ⟨some [0, 0, 0, 1, 0x65, 0x88], some (List.replicate 6 0), some .zero⟩ =
        some (0, some [0, 0, 0, 2, 0x65, 0x88],
          some ⟨.null, .null, 0, 0, 6, true, false⟩) ∧
      nalScanHeaders [0, 0, 0, 1, 0x65, 0x88] = some (true, true) ∧
      avcPacketize ⟨some [0, 0, 0, 1, 0x41, 0x88, 0, 0, 0, 1, 0x67, 0x42],
        some (List.replicate 6 0), some .zero⟩ =
        some (0, some [0, 0, 0, 2, 0x41, 0x88],
          some ⟨.input 10, .null, 2, 0, 6, false, true⟩) ∧
      nalScanHeaders [0, 0, 0, 1, 0x41, 0x88, 0, 0, 0, 1, 0x67, 0x42] =
        some (false, false) :=
  ⟨by decide +kernel, by decide +kernel, by decide +kernel, by decide +kernel⟩

end MoonlightPsp.Detector
