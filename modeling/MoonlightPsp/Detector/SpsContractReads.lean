import MoonlightPsp.Detector.SpsContract
import MoonlightPsp.Sps.FieldsInPayload

/-!
# The references that the contract check takes

Along the syntax of a parameter set that `avc_stream_format` accepts, the parser of the
contract check reads the same references, as long as the offsets of the picture order
count are few and short.  Otherwise the second parser takes another number for them.
-/

namespace MoonlightPsp.Detector

open BitString StickyParser
open Sps (PocSyntax SpsHead SpsTail bitAt)

/-! ## Readers along a word -/

theorem skip_failed (n : ℕ) (b : NalBits) :
    Source.failed (Source.skip n b) = Source.failed b := rfl

variable {α β : Type} {p : Reader α} {f : α → Reader β} {a : α} {c : β} {cs ds : List Bool}

theorem reads_bind (hp : Reads p a cs) (hf : Reads (f a) c ds) :
    Reads (p >>= f) c (cs ++ ds) := hp.bind skip_failed hf

theorem follows_bind (hp : Follows p a cs) (hf : Follows (f a) c ds) :
    Follows (p >>= f) c (cs ++ ds) := hp.bind skip_failed hf

theorem follows_refuses (hp : Follows p a cs) (hf : Refuses (f a) ds) :
    Refuses (p >>= f) (cs ++ ds) := hp.refuses skip_failed hf

theorem reads_ue {v : ℕ} (hv : IsShortUe v) : Reads nalReadUe v (ueCode v) :=
  parses_nalReadUe.reads ⟨hv, rfl⟩

theorem follows_ue (v : ℕ) : Follows nalReadUe v (ueCode v) :=
  parses_nalReadUe.follows failed_eq (fun h => (ueCode_append_inj h).1) v

theorem refuses_ue {v : ℕ} (hv : ¬ IsShortUe v) : Refuses nalReadUe (ueCode v) := by
  intro b a b' hb hcs hok
  obtain ⟨rfl, -, -⟩ := follows_ue v b a b' hb hcs hok
  obtain ⟨-, -, ⟨hshort, -⟩, -⟩ := (parses_nalReadUe b a b').mp ⟨hok, rfl⟩
  exact hv hshort

theorem reads_bits {n v : ℕ} (hn : n ≤ 32) (hv : v < 2 ^ n) :
    Reads (nalReadBits n) v (bitsOf n v) :=
  (parses_nalReadBits hn).reads ⟨hv, rfl⟩

theorem follows_bits {n v : ℕ} (hn : n ≤ 32) (hv : v < 2 ^ n) :
    Follows (nalReadBits n) v (bitsOf n v) := by
  intro b a b' hb hcs hok
  obtain ⟨-, -, ⟨ha, rfl⟩, hword, rfl⟩ := (parses_nalReadBits hn b a b').mp ⟨hok, rfl⟩
  have heq : bitsOf n a = bitsOf n v := by
    rcases hcs with h | h
    · rcases List.prefix_or_prefix_of_prefix hword h with hle | hle
      · exact hle.eq_of_length (by simp)
      · exact (hle.eq_of_length (by simp)).symm
    · exact (hword.trans h).eq_of_length (by simp)
  obtain rfl := bitsOf_inj ha hv heq
  exact ⟨rfl, hword, rfl⟩

theorem reads_flag (flag : Bool) : Reads (nalReadBits 1) flag.toNat [flag] :=
  parses_nalReadFlag.reads ⟨flag, rfl, rfl⟩

theorem follows_flag (flag : Bool) : Follows (nalReadBits 1) flag.toNat [flag] := by
  have hflag : [flag] = bitsOf 1 flag.toNat := by cases flag <;> rfl
  rw [hflag]
  exact follows_bits (by decide) (by cases flag <;> decide)

theorem reads_ues {vs : List ℕ} (hvs : ∀ v ∈ vs, IsShortUe v) :
    Reads (skipMany nalReadUe vs.length) () (vs.flatMap ueCode) := by
  induction vs with
  | nil => exact Reads.pure ()
  | cons v vs ih =>
      obtain ⟨hv, hvs⟩ := List.forall_mem_cons.mp hvs
      exact reads_bind (reads_ue hv) (ih hvs)

theorem follows_ues (vs : List ℕ) :
    Follows (skipMany nalReadUe vs.length) () (vs.flatMap ueCode) := by
  induction vs with
  | nil => exact Follows.pure ()
  | cons v vs ih => exact follows_bind (follows_ue v) ih

theorem refuses_ues {vs : List ℕ} (hvs : ¬ ∀ v ∈ vs, IsShortUe v) :
    Refuses (skipMany nalReadUe vs.length) (vs.flatMap ueCode) := by
  induction vs with
  | nil => exact absurd (fun _ h => nomatch h) hvs
  | cons v vs ih =>
      rw [List.flatMap_cons]
      by_cases hv : IsShortUe v
      · exact follows_refuses (follows_ue v)
          (ih fun h => hvs (List.forall_mem_cons.mpr ⟨hv, h⟩))
      · exact ((refuses_ue hv).bind).append _

/-! ## Lengths -/

theorem length_ueCode_le {v : ℕ} (hv : IsShortUe v) : (ueCode v).length ≤ 33 := by
  have hlog := (isShortUe_iff v).mp hv
  rw [length_ueCode]
  omega

theorem length_ues_le {vs : List ℕ} (hvs : ∀ v ∈ vs, IsShortUe v) :
    (vs.flatMap ueCode).length ≤ 33 * vs.length := by
  induction vs with
  | nil => exact Nat.zero_le _
  | cons v vs ih =>
      obtain ⟨hv, hvs⟩ := List.forall_mem_cons.mp hvs
      have hhead := length_ueCode_le hv
      have htail := ih hvs
      rw [List.flatMap_cons, List.length_append, List.length_cons]
      omega

/-! ## The header -/

/-- The syntax in front of `pic_order_cnt_type`, with the number of the set. -/
def headBits (head : SpsHead) : List Bool :=
  bitsOf 8 head.profile ++ (bitsOf 8 head.constraints ++ (bitsOf 8 head.level ++
    ueCode head.spsId))

theorem encode_head (head : SpsHead) :
    head.encode = headBits head ++ (ueCode head.log2MaxFrameNum ++ head.poc.encode) := by
  simp [SpsHead.encode, headBits]

variable {head : SpsHead}

theorem isShortUe_of_le {v n : ℕ} (h : v ≤ n) (hn : n < 2 ^ 17 - 1) : IsShortUe v := by
  unfold IsShortUe
  omega

/-- Both parsers begin with the same fields. -/
theorem reads_headBits (hhead : head.Supported) (f : ℕ → ℕ → α) :
    Reads (nalReadBits 8 >>= fun profile => nalReadBits 8 >>= fun _ =>
      nalReadBits 8 >>= fun level => nalReadUe >>= fun _ => pure (f profile level))
      (f head.profile head.level) (headBits head) := by
  have hprofile := hhead.profile
  refine reads_bind (reads_bits (by decide) (by omega)) (reads_bind
    (reads_bits (by decide) hhead.constraints.1) (reads_bind
    (reads_bits (by decide) hhead.level) ?_))
  rw [← List.append_nil (ueCode head.spsId)]
  exact reads_bind (reads_ue (isShortUe_of_le hhead.spsId (by decide))) (Reads.pure _)

theorem reads_spsHeader (hhead : head.Supported) :
    Reads spsHeader head.profile (headBits head) :=
  reads_headBits hhead fun profile _ => profile

theorem follows_spsHeader (hhead : head.Supported) :
    Follows spsHeader head.profile (headBits head) := by
  have hprofile := hhead.profile
  refine follows_bind (follows_bits (by decide) (by omega)) (follows_bind
    (follows_bits (by decide) hhead.constraints.1) (follows_bind
    (follows_bits (by decide) hhead.level) ?_))
  rw [← List.append_nil (ueCode head.spsId)]
  exact follows_bind (follows_ue _) (Follows.pure _)

theorem reads_fallbackHeader (hhead : head.Supported) :
    Reads fallbackHeader (head.profile, head.level) (headBits head) :=
  reads_headBits hhead fun profile level => (profile, level)

/-- The profiles of the format parser have no chroma format. -/
theorem highFields_eq (hhead : head.Supported) : highFields head.profile = pure 0 := by
  rw [highFields, if_neg]
  rcases hhead.profile with h | h
  · rw [h]
    decide
  · rw [h]
    decide

/-! ## The picture order count -/

/-- The offsets of the picture order count are few and short enough for the first
parser. -/
def FewOffsets : PocSyntax → Prop
  | .type1 _ offsetNonRef offsetTopToBottom offsets =>
      IsShortUe offsetNonRef ∧ IsShortUe offsetTopToBottom ∧ offsets.length ≤ 32 ∧
        ∀ v ∈ offsets, IsShortUe v
  | _ => True

instance (poc : PocSyntax) : Decidable (FewOffsets poc) := by
  cases poc <;> unfold FewOffsets <;> infer_instance

/-- What the second parser takes for the references behind too many or too long offsets:
the offset behind the first 32, or zero if it does not get there. -/
def takenInstead : PocSyntax → ℕ
  | .type1 _ offsetNonRef offsetTopToBottom offsets =>
      if IsShortUe offsetNonRef ∧ IsShortUe offsetTopToBottom ∧
          (∀ v ∈ offsets.take 32, IsShortUe v) ∧ IsShortUe (offsets.getD 32 0) then
        offsets.getD 32 0
      else 0
  | _ => 0

variable {poc : PocSyntax} {offsets : List ℕ}

/-- The fields in front of the offsets of a cycle. -/
def cycleBits (deltaAlwaysZero : Bool) (first second cycle : ℕ) : List Bool :=
  ueCode 1 ++ ([deltaAlwaysZero] ++ (ueCode first ++ (ueCode second ++ ueCode cycle)))

theorem encode_type1 (flag : Bool) (first second : ℕ) (offsets : List ℕ) :
    (PocSyntax.type1 flag first second offsets).encode =
      cycleBits flag first second offsets.length ++ offsets.flatMap ueCode := by
  simp [PocSyntax.encode, cycleBits]

/-- The reads in front of the offsets of a cycle, with those of the offsets. -/
theorem pocFields_bind (offsetReads : ℕ → Reader Unit) :
    pocFields offsetReads = nalReadUe >>= fun poc =>
      if poc = 0 then nalReadUe >>= fun _ => pure ()
      else if poc = 1 then
        nalReadBits 1 >>= fun _ => nalReadUe >>= fun _ => nalReadUe >>= fun _ =>
          nalReadUe >>= offsetReads
      else pure () := rfl

theorem reads_cycle {offsetReads : ℕ → Reader Unit} {flag : Bool} {first second cycle : ℕ}
    (hfirst : IsShortUe first) (hsecond : IsShortUe second) (hcycle : IsShortUe cycle)
    (hoffsets : Reads (offsetReads cycle) () cs) :
    Reads (pocFields offsetReads) () (cycleBits flag first second cycle ++ cs) := by
  rw [cycleBits, pocFields_bind]
  simp only [List.append_assoc]
  refine reads_bind (reads_ue (by decide)) ?_
  rw [if_neg (by decide), if_pos rfl]
  exact reads_bind (reads_flag flag) (reads_bind (reads_ue hfirst)
    (reads_bind (reads_ue hsecond) (reads_bind (reads_ue hcycle) hoffsets)))

theorem follows_cycle {offsetReads : ℕ → Reader Unit} {flag : Bool} {first second cycle : ℕ}
    (hoffsets : Follows (offsetReads cycle) () cs) :
    Follows (pocFields offsetReads) () (cycleBits flag first second cycle ++ cs) := by
  rw [cycleBits, pocFields_bind]
  simp only [List.append_assoc]
  refine follows_bind (follows_ue 1) ?_
  rw [if_neg (by decide), if_pos rfl]
  exact follows_bind (follows_flag flag) (follows_bind (follows_ue first)
    (follows_bind (follows_ue second) (follows_bind (follows_ue cycle) hoffsets)))

theorem reads_pocFields (hpoc : poc.Within (· ≤ 12)) (hfew : FewOffsets poc) :
    Reads (pocFields boundedOffsets) () poc.encode := by
  cases poc with
  | type0 lsb =>
      refine reads_bind (reads_ue (by decide)) ?_
      rw [if_pos rfl, ← List.append_nil (ueCode lsb)]
      exact reads_bind (reads_ue (isShortUe_of_le hpoc (by decide))) (Reads.pure ())
  | type1 flag first second offsets =>
      obtain ⟨hfirst, hsecond, hlen, hoffsets⟩ := hfew
      rw [encode_type1]
      refine reads_cycle hfirst hsecond (isShortUe_of_le hlen (by decide)) ?_
      rw [boundedOffsets, if_neg (by omega)]
      exact reads_ues hoffsets
  | type2 =>
      show Reads _ _ (ueCode 2)
      rw [← List.append_nil (ueCode 2)]
      refine reads_bind (reads_ue (by decide)) ?_
      rw [if_neg (by decide), if_neg (by decide)]
      exact Reads.pure ()

/-- A cycle is refused if its offsets are, or one of the numbers in front of them is too
long. -/
theorem refuses_cycle {offsetReads : ℕ → Reader Unit} {flag : Bool} {first second cycle : ℕ}
    (h : IsShortUe first → IsShortUe second → Refuses (offsetReads cycle) cs) :
    Refuses (pocFields offsetReads) (cycleBits flag first second cycle ++ cs) := by
  rw [cycleBits, pocFields_bind]
  simp only [List.append_assoc]
  refine follows_refuses (follows_ue 1) ?_
  rw [if_neg (by decide), if_pos rfl]
  refine follows_refuses (follows_flag flag) ?_
  by_cases hfirst : IsShortUe first
  · refine follows_refuses (follows_ue first) ?_
    by_cases hsecond : IsShortUe second
    · exact follows_refuses (follows_ue second) (follows_refuses (follows_ue cycle)
        (h hfirst hsecond))
    · exact ((refuses_ue hsecond).bind).append _
  · exact ((refuses_ue hfirst).bind).append _

theorem refuses_throw (cs : List Bool) : Refuses (throw () : Reader α) cs := by
  rintro b a b' - - ⟨⟩

theorem refuses_pocFields (hfew : ¬ FewOffsets poc) :
    Refuses (pocFields boundedOffsets) poc.encode := by
  cases poc with
  | type0 lsb => exact absurd trivial hfew
  | type1 flag first second offsets =>
      rw [encode_type1]
      refine refuses_cycle fun hfirst hsecond => ?_
      by_cases hlen : offsets.length ≤ 32
      · rw [boundedOffsets, if_neg (by omega)]
        exact refuses_ues fun h => hfew ⟨hfirst, hsecond, hlen, h⟩
      · rw [boundedOffsets, if_pos (by omega)]
        exact refuses_throw _
  | type2 => exact absurd trivial hfew

/-! ## The references -/

/-- Without a scaling matrix the first parser goes on. -/
theorem rejectIf_zero : (rejectIf (0 ≠ 0) () : Reader Unit) = pure () := rfl

/-- Few short offsets are read, and the references behind them. -/
theorem reads_spsRefs (hhead : head.Supported) (hfew : FewOffsets head.poc) {refs : ℕ}
    (hrefs : refs ≤ 4) : Reads spsRefs refs (head.encode ++ ueCode refs) := by
  rw [encode_head]
  simp only [List.append_assoc]
  refine reads_bind (reads_spsHeader hhead) ?_
  rw [highFields_eq hhead, pure_bind, rejectIf_zero, pure_bind]
  exact reads_bind (reads_ue (isShortUe_of_le hhead.log2MaxFrameNum (by decide)))
    (reads_bind (reads_pocFields hhead.poc hfew)
      (reads_ue (isShortUe_of_le hrefs (by decide))))

theorem refuses_spsRefs (hhead : head.Supported) (hfew : ¬ FewOffsets head.poc) :
    Refuses spsRefs head.encode := by
  rw [encode_head]
  refine follows_refuses (follows_spsHeader hhead) ?_
  rw [highFields_eq hhead, pure_bind, rejectIf_zero, pure_bind]
  exact follows_refuses (follows_ue _) (refuses_pocFields hfew).bind

/-- The second parser behind its header, before it gives up. -/
def fallbackBody (profile : ℕ) : Reader (Bool × ℕ) := do
  let scalingMatrix ← highFields profile
  if scalingMatrix ≠ 0 then pure (false, 0)
  else do
    let _ ← nalReadUe
    pocFields fun cycle => skipMany nalReadUe (min cycle 32)
    let refs ← nalReadUe
    pure (true, refs)

theorem fallbackRefs_eq (profile : ℕ) :
    fallbackRefs profile = orReturn (fallbackBody profile) (true, 0) := rfl

theorem fallbackBody_eq (hhead : head.Supported) :
    fallbackBody head.profile = nalReadUe >>= fun _ =>
      (pocFields fun cycle => skipMany nalReadUe (min cycle 32)) >>= fun _ =>
        nalReadUe >>= fun refs => pure (true, refs) := by
  rw [fallbackBody, highFields_eq hhead, pure_bind, if_neg (by decide)]

/-- The bits up to the offset behind the first 32. -/
def misreadBits (log2MaxFrameNum : ℕ) (flag : Bool) (first second : ℕ) (offsets : List ℕ) :
    List Bool :=
  ueCode log2MaxFrameNum ++ ((cycleBits flag first second offsets.length ++
    (offsets.take 32).flatMap ueCode) ++ ueCode (offsets.getD 32 0))

theorem misreadBits_isPrefix {flag : Bool} {first second : ℕ} (h : 32 < offsets.length)
    (log2MaxFrameNum : ℕ) :
    misreadBits log2MaxFrameNum flag first second offsets <+:
      ueCode log2MaxFrameNum ++ (PocSyntax.type1 flag first second offsets).encode := by
  have hsplit : offsets = offsets.take 32 ++ offsets.getD 32 0 :: offsets.drop 33 := by
    rw [List.getD, List.getElem?_eq_getElem h, Option.getD_some,
      ← List.drop_eq_getElem_cons h, List.take_append_drop]
  have hbits : offsets.flatMap ueCode = (offsets.take 32).flatMap ueCode ++
      (ueCode (offsets.getD 32 0) ++ (offsets.drop 33).flatMap ueCode) := by
    conv_lhs => rw [hsplit]
    rw [List.flatMap_append, List.flatMap_cons]
  refine ⟨(offsets.drop 33).flatMap ueCode, ?_⟩
  rw [encode_type1, hbits, misreadBits]
  simp only [List.append_assoc]

/-- Behind 32 short offsets the next one is taken for the references. -/
theorem reads_misread (hhead : head.Supported) {flag : Bool} {first second : ℕ}
    (hlen : 32 < offsets.length) (hcycle : IsShortUe offsets.length)
    (hfirst : IsShortUe first) (hsecond : IsShortUe second)
    (hoffsets : ∀ v ∈ offsets.take 32, IsShortUe v) (hnext : IsShortUe (offsets.getD 32 0)) :
    Reads (fallbackBody head.profile) (true, offsets.getD 32 0)
      (misreadBits head.log2MaxFrameNum flag first second offsets) := by
  have htake : (offsets.take 32).length = min offsets.length 32 := by
    rw [List.length_take]
    omega
  rw [fallbackBody_eq hhead, misreadBits]
  refine reads_bind (reads_ue (isShortUe_of_le hhead.log2MaxFrameNum (by decide)))
    (reads_bind (reads_cycle hfirst hsecond hcycle ?_) ?_)
  · rw [← htake]
    exact reads_ues hoffsets
  · rw [← List.append_nil (ueCode _)]
    exact reads_bind (reads_ue hnext) (Reads.pure _)

/-- Among the first 32 offsets, or in front of them, a number is too long. -/
theorem refuses_early (hhead : head.Supported) {flag : Bool} {first second : ℕ}
    (h : ¬ (IsShortUe first ∧ IsShortUe second ∧ ∀ v ∈ offsets.take 32, IsShortUe v)) :
    Refuses (fallbackBody head.profile) (ueCode head.log2MaxFrameNum ++
      (cycleBits flag first second offsets.length ++ (offsets.take 32).flatMap ueCode)) := by
  have htake : (offsets.take 32).length = min offsets.length 32 := by
    rw [List.length_take]
    omega
  rw [fallbackBody_eq hhead]
  refine follows_refuses (follows_ue _)
    (Refuses.bind (refuses_cycle fun hfirst hsecond => ?_))
  rw [← htake]
  exact refuses_ues fun hoffsets => h ⟨hfirst, hsecond, hoffsets⟩

/-- The offset behind the first 32 is too long. -/
theorem refuses_next (hhead : head.Supported) {flag : Bool} {first second : ℕ}
    (h : ¬ IsShortUe (offsets.getD 32 0)) :
    Refuses (fallbackBody head.profile)
      (misreadBits head.log2MaxFrameNum flag first second offsets) := by
  have htake : (offsets.take 32).length = min offsets.length 32 := by
    rw [List.length_take]
    omega
  rw [fallbackBody_eq hhead, misreadBits]
  refine follows_refuses (follows_ue _) (follows_refuses (follows_cycle ?_)
    ((refuses_ue h).bind))
  rw [← htake]
  exact follows_ues _

theorem orReturn_of_refuses {b : NalBits} (h : Refuses p cs) (hcs : Meets b cs) (a : α) :
    orReturn p a b = .ok (a, b) := by
  rw [orReturn]
  cases hp : p b with
  | ok r => exact absurd hp (h b r.1 r.2 rfl hcs)
  | error e => rfl

theorem orReturn_of_reads {b : NalBits} {v : α} (h : Reads p v cs)
    (hcs : cs <+: Source.rest b) (a : α) :
    orReturn p a b = .ok (v, Source.skip cs.length b) := by
  rw [orReturn, h b rfl hcs]

theorem length_misreadBits_le {flag : Bool} {first second log2MaxFrameNum : ℕ}
    (hlog : IsShortUe log2MaxFrameNum) (hfirst : IsShortUe first)
    (hsecond : IsShortUe second) (hcycle : IsShortUe offsets.length)
    (hoffsets : ∀ v ∈ offsets.take 32, IsShortUe v) (hnext : IsShortUe (offsets.getD 32 0)) :
    (misreadBits log2MaxFrameNum flag first second offsets).length ≤ 1300 := by
  have hone : (ueCode 1).length = 3 := rfl
  have hlog := length_ueCode_le hlog
  have hfirst := length_ueCode_le hfirst
  have hsecond := length_ueCode_le hsecond
  have hcycle := length_ueCode_le hcycle
  have hnext := length_ueCode_le hnext
  have hoffsets := length_ues_le hoffsets
  have htake := List.length_take_le 32 offsets
  simp only [misreadBits, cycleBits, List.length_append, List.length_cons, List.length_nil]
  omega

/-- Where the first parser fails, the second one takes another number. -/
theorem fallbackRefs_taken (hhead : head.Supported) (hfew : ¬ FewOffsets head.poc)
    {b : NalBits}
    (hmeets : Meets b (ueCode head.log2MaxFrameNum ++ head.poc.encode))
    (hroom : ∀ w, w <+: ueCode head.log2MaxFrameNum ++ head.poc.encode →
      w.length ≤ 1300 → w <+: Source.rest b) :
    ∃ b', fallbackRefs head.profile b = .ok ((true, takenInstead head.poc), b') := by
  have hpoc := hhead.poc
  have hlog := isShortUe_of_le hhead.log2MaxFrameNum (by decide)
  cases hcase : head.poc with
  | type0 lsb =>
      rw [hcase] at hfew
      exact absurd trivial hfew
  | type2 =>
      rw [hcase] at hfew
      exact absurd trivial hfew
  | type1 flag first second offsets =>
      rw [hcase] at hfew hmeets hroom hpoc
      obtain ⟨-, -, hcount, -⟩ := hpoc
      have hcycle : IsShortUe offsets.length := isShortUe_of_le hcount (by decide)
      rw [fallbackRefs_eq, takenInstead]
      by_cases hearly : IsShortUe first ∧ IsShortUe second ∧
          ∀ v ∈ offsets.take 32, IsShortUe v
      · obtain ⟨hfirst, hsecond, hoffsets⟩ := hearly
        have hlen : 32 < offsets.length := by
          by_contra hle
          rw [List.take_of_length_le (by omega)] at hoffsets
          exact hfew ⟨hfirst, hsecond, by omega, hoffsets⟩
        have hword : misreadBits head.log2MaxFrameNum flag first second offsets <+: _ :=
          misreadBits_isPrefix hlen head.log2MaxFrameNum
        by_cases hnext : IsShortUe (offsets.getD 32 0)
        · rw [if_pos ⟨hfirst, hsecond, hoffsets, hnext⟩]
          exact ⟨_, orReturn_of_reads
            (reads_misread hhead hlen hcycle hfirst hsecond hoffsets hnext)
            (hroom _ hword (length_misreadBits_le hlog hfirst hsecond hcycle hoffsets hnext))
            _⟩
        · rw [if_neg fun h => hnext h.2.2.2]
          obtain ⟨more, hmore⟩ := hword
          rw [← hmore] at hmeets
          exact ⟨b, orReturn_of_refuses (refuses_next hhead hnext) hmeets.left _⟩
      · rw [if_neg fun h => hearly ⟨h.1, h.2.1, h.2.2.1⟩]
        have hbits : offsets.flatMap ueCode =
            (offsets.take 32).flatMap ueCode ++ (offsets.drop 32).flatMap ueCode := by
          rw [← List.flatMap_append, List.take_append_drop]
        have hrefuses : Refuses (fallbackBody head.profile) (ueCode head.log2MaxFrameNum ++
            (cycleBits flag first second offsets.length ++
              (offsets.take 32).flatMap ueCode)) := refuses_early hhead hearly
        rw [encode_type1, hbits, ← List.append_assoc (cycleBits _ _ _ _),
          ← List.append_assoc] at hmeets
        exact ⟨b, orReturn_of_refuses hrefuses hmeets.left _⟩

end MoonlightPsp.Detector
