import MoonlightPsp.Lib.CheckedMemory
import MoonlightPsp.Sps.StreamFormat

/-!
# The format parser in its buffers

`avc_stream_format` once more, now with the array of `Bits` and with numbers of
32 bits.  It gets stuck at a read or a store outside of its buffers, at a number
that wraps, and in a loop that does not end; that does not happen, whatever the
input is.
-/

namespace MoonlightPsp.Sps

open BitString EmulationPrevention StickyParser CheckedMemory

/-! ## The model -/

/-- An unsigned number, which must not wrap. -/
def uint (n : ℕ) : Option ℕ := if n < 2 ^ 32 then some n else none

/-- A difference of unsigned numbers, which must not wrap. -/
def uintSub (m n : ℕ) : Option ℕ := if n ≤ m then some (m - n) else none

/-- `Bits`, with the array as it lies in memory. -/
structure Reader where
  data : List UInt8
  bits : ℕ
  pos : ℕ
  bad : Bool

/-- A parser that can also get stuck. -/
abbrev CheckedParser := StateT Reader (ExceptT ℤ Option)

/-- Give a value after a failed read. -/
def giveUp {α : Type} (a : α) : CheckedParser α := fun b =>
  some (.ok (a, { b with bad := true }))

/-- The loop of `read_bits`. -/
def readLoopIn : ℕ → ℕ → CheckedParser ℕ
  | 0, value => pure value
  | n + 1, value => do
      let b ← get
      let byte ← b.data[b.pos / 8]?
      let shift ← uintSub 7 (b.pos % 8)
      let doubled ← uint (value <<< 1)
      let pos ← uint (b.pos + 1)
      set { b with pos }
      readLoopIn n (doubled ||| ((byte.toNat >>> shift) &&& 1))

/-- `read_bits`. -/
def readBitsIn (n : ℕ) : CheckedParser ℕ := do
  let b ← get
  if n > 32 ∨ b.pos > b.bits then giveUp 0
  else do
    let left ← uintSub b.bits b.pos
    if n > left then giveUp 0 else readLoopIn n 0

/-- The loop of `ue`. -/
def countZerosIn : ℕ → ℕ → CheckedParser ℕ
  | 0, _ => fun _ => none
  | fuel + 1, zeros => do
      let b ← get
      if b.bad then pure zeros
      else do
        let bit ← readBitsIn 1
        if bit ≠ 0 then pure zeros
        else do
          let zeros ← uint (zeros + 1)
          if zeros > 30 then giveUp zeros else countZerosIn fuel zeros

/-- `ue`. -/
def ueIn : CheckedParser ℕ := do
  let zeros ← countZerosIn 31 0
  let b ← get
  if b.bad then pure 0
  else do
    let power ← uint (1 <<< zeros)
    let base ← uintSub power 1
    let rest ← readBitsIn zeros
    uint (base + rest)

/-- The loop over the bytes behind the header, and how many bytes it stores. -/
def rbspLoopIn (nal : List UInt8) :
    ℕ → ℕ → ℕ → List UInt8 → ℕ → ExceptT ℤ Option (List UInt8 × ℕ)
  | 0, _, _, _, _ => none
  | fuel + 1, i, zeros, data, n =>
      if i < nal.length then do
        let byte ← (nal[i]? : Option UInt8)
        let next ← uint (i + 1)
        if zeros = 2 ∧ byte = 3 then
          if next ≥ nal.length then throw (-1)
          else do
            let after ← (nal[next]? : Option UInt8)
            if after > 3 then throw (-1) else rbspLoopIn nal fuel next 0 data n
        else if zeros = 2 ∧ byte < 3 then throw (-1)
        else do
          let data ← store data n byte
          let stored ← uint (n + 1)
          let more ← uint (zeros + 1)
          rbspLoopIn nal fuel next (if byte = 0 then more else 0) data stored
      else pure (data, n)

/-- Return from the function if a condition holds. -/
def rejectIfIn (c : Prop) [Decidable c] (e : ℤ) : CheckedParser Unit :=
  if c then throw e else pure ()

/-- Return from the function if a read has failed. -/
def rejectFailedIn (e : ℤ) : CheckedParser Unit := do
  let b ← get
  rejectIfIn (b.bad = true) e

/-- The loop over the offsets, whose values are not used. -/
def skipUesIn : ℕ → CheckedParser Unit
  | 0 => pure ()
  | n + 1 => do
      let _ ← ueIn
      skipUesIn n

/-- The type of the picture order count and the fields that depend on it. -/
def pocFieldsIn : CheckedParser Unit := do
  let poc ← ueIn
  if poc = 0 then do
    let log2MaxLsb ← ueIn
    rejectIfIn (log2MaxLsb > 12) (-1)
  else if poc = 1 then do
    let _ ← readBitsIn 1
    let _ ← ueIn
    let _ ← ueIn
    let cycle ← ueIn
    rejectIfIn (cycle > 255) (-1)
    skipUesIn cycle
  else rejectIfIn (poc ≠ 2) (-1)

/-- The fields in front of `max_num_ref_frames`. -/
def headFieldsIn : CheckedParser HeadFields := do
  let profile ← readBitsIn 8
  let constraints ← readBitsIn 8
  rejectIfIn (constraints &&& 3 ≠ 0) (-1)
  let level ← readBitsIn 8
  let spsId ← ueIn
  rejectIfIn (profile ≠ 66 ∧ profile ≠ 77) (-2)
  rejectIfIn (spsId > 31) (-1)
  let log2MaxFrameNum ← ueIn
  rejectIfIn (log2MaxFrameNum > 12) (-1)
  pocFieldsIn
  pure ⟨profile, level, spsId⟩

/-- The fields from `max_num_ref_frames` to the size. -/
def sizeFieldsIn : CheckedParser SizeFields := do
  let refs ← ueIn
  let _ ← readBitsIn 1
  let w ← ueIn
  let h ← ueIn
  rejectFailedIn (-1)
  rejectIfIn (w ≥ 30 ∨ h ≥ 17 ∨ refs > 4) (-2)
  pure ⟨refs, w, h⟩

/-- Return from the function if frames are not progressive. -/
def rejectInterlacedIn (frameMbsOnly : ℕ) : CheckedParser Unit := do
  let b ← get
  rejectIfIn (frameMbsOnly = 0) (if b.bad then -1 else -2)

/-- The four numbers of the cropping rectangle, if there is one. -/
def cropRectangleIn (cropping : ℕ) : CheckedParser Crop :=
  if cropping ≠ 0 then do
    let left ← ueIn
    let right ← ueIn
    let top ← ueIn
    let bottom ← ueIn
    pure ⟨left, right, top, bottom⟩
  else pure ⟨0, 0, 0, 0⟩

/-- The fields behind the size. -/
def cropFieldsIn : CheckedParser Crop := do
  let frameMbsOnly ← readBitsIn 1
  rejectInterlacedIn frameMbsOnly
  let _ ← readBitsIn 1
  let cropping ← readBitsIn 1
  let crop ← cropRectangleIn cropping
  let _ ← readBitsIn 1
  rejectFailedIn (-1)
  pure crop

/-- `(w + 1) * 16`. -/
def codedSizeIn (w : ℕ) : Option ℕ := do
  let mbs ← uint (w + 1)
  uint (mbs * 16)

/-- `2 * (c + d)`. -/
def croppedIn (c d : ℕ) : Option ℕ := do
  let sum ← uint (c + d)
  uint (2 * sum)

/-- The checks of the cropping rectangle, and what is reported. -/
def reportIn (head : HeadFields) (size : SizeFields) (crop : Crop) :
    CheckedParser StreamFormat := do
  let codedWidth ← codedSizeIn size.w
  let codedHeight ← codedSizeIn size.h
  rejectIfIn (crop.left > 240 ∨ crop.right > 240 ∨ crop.top > 240 ∨
    crop.bottom > 240) (-1)
  let croppedWidth ← croppedIn crop.left crop.right
  let croppedHeight ← croppedIn crop.top crop.bottom
  rejectIfIn (croppedWidth ≥ codedWidth ∨ croppedHeight ≥ codedHeight) (-1)
  let cropLeft ← uint (2 * crop.left)
  let cropTop ← uint (2 * crop.top)
  let width ← uintSub codedWidth croppedWidth
  let height ← uintSub codedHeight croppedHeight
  pure {
    profile := head.profile
    level := head.level
    refs := size.refs
    spsId := head.spsId
    codedWidth
    codedHeight
    width
    height
    cropLeft
    cropTop }

/-- What `avc_stream_format` makes of the RBSP. -/
def formatFieldsIn : CheckedParser StreamFormat := do
  let head ← headFieldsIn
  let size ← sizeFieldsIn
  let crop ← cropFieldsIn
  reportIn head size crop

/-- `avc_stream_format` with no null pointer among its arguments. -/
def avcStreamFormatIn (nal : List UInt8) : Option (Except ℤ StreamFormat) :=
  if nal.length < 5 ∨ nal.length > 1024 then some (.error (-1))
  else do
    let header ← nal[0]?
    if header &&& 0x9f ≠ 7 then some (.error (-1))
    else
      match ← rbspLoopIn nal nal.length 1 0 (List.replicate 1024 0) 0 with
      | .error e => some (.error e)
      | .ok (data, n) => do
          let bits ← uint (n * 8)
          let r ← formatFieldsIn ⟨data, bits, 0, false⟩
          some (r.map Prod.fst)

/-! ## Parsers in lockstep -/

/-- The reader as it lies in memory. -/
def Bits.inMemory (b : Bits) : Reader where
  data := overlay (List.replicate 1024 0) 0 b.bytes
  bits := b.bits
  pos := b.pos
  bad := b.bad

/-- All the bits are in bytes that were stored. -/
def Bits.Stored (b : Bits) : Prop :=
  b.bytes.length ≤ 1024 ∧ b.bits ≤ 8 * b.bytes.length

/-- From one reader on, a parser does not get stuck, and gives what the other one
gives. -/
structure FollowsAt {α : Type} (p : CheckedParser α) (q : Parser α) (b : Bits) :
    Prop where
  result : p b.inMemory = some ((q b).map fun r => (r.1, r.2.inMemory))
  stored : ∀ a b', q b = .ok (a, b') → b'.Stored

/-- A parser does not get stuck, and gives what the other one gives. -/
def Follows {α : Type} (p : CheckedParser α) (q : Parser α) : Prop :=
  ∀ b : Bits, b.Stored → FollowsAt p q b

section Rules

variable {α γ : Type} {p : CheckedParser α} {q : Parser α}
  {f : α → CheckedParser γ} {g : α → Parser γ} {b : Bits}

theorem checked_bind_ok {c c' : Reader} {a : α} (h : p c = some (.ok (a, c'))) :
    (p >>= f) c = f a c' := by
  simp only [bind, StateT.bind, ExceptT.bind, ExceptT.mk, ExceptT.bindCont, h,
    Option.bind_some]

theorem checked_bind_error {c : Reader} {e : ℤ} (h : p c = some (.error e)) :
    (p >>= f) c = some (.error e) := by
  simp only [bind, StateT.bind, ExceptT.bind, ExceptT.mk, ExceptT.bindCont, h,
    Option.bind_some]
  rfl

theorem parser_bind_error {e : ℤ} (h : q b = .error e) :
    (q >>= g) b = .error e := by
  simp only [bind, StateT.bind, Except.bind, h]

theorem parser_bind_ok {b' : Bits} {a : α} (h : q b = .ok (a, b')) :
    (q >>= g) b = g a b' := by
  simp only [bind, StateT.bind, Except.bind, h]

/-- One parser behind another; the second one only has to cope with what the first
one leaves. -/
theorem FollowsAt.bind (hp : FollowsAt p q b)
    (hf : ∀ a b', q b = .ok (a, b') → b'.Stored → FollowsAt (f a) (g a) b') :
    FollowsAt (p >>= f) (q >>= g) b where
  result := by
    have hresult := hp.result
    cases hq : q b with
    | error e =>
        rw [hq] at hresult
        rw [checked_bind_error hresult, parser_bind_error hq]
        rfl
    | ok r =>
        rw [hq] at hresult
        rw [checked_bind_ok hresult, parser_bind_ok hq]
        exact (hf r.1 r.2 hq (hp.stored r.1 r.2 hq)).result
  stored := by
    intro c b'' hok
    obtain ⟨a, b', hqa, hga⟩ := bind_ok.mp hok
    exact (hf a b' hqa (hp.stored a b' hqa)).stored c b'' hga

theorem Follows.bind (hp : Follows p q)
    (hf : ∀ a, (∃ b b', q b = .ok (a, b')) → Follows (f a) (g a)) :
    Follows (p >>= f) (q >>= g) := fun b hb =>
  (hp b hb).bind fun a b' hq hb' => hf a ⟨b, b', hq⟩ b' hb'

theorem follows_pure (a : α) : Follows (pure a) (pure a) := by
  refine fun b hb => ⟨rfl, fun a' b' hok => ?_⟩
  cases hok
  exact hb

/-- A step that is only there in memory. -/
theorem FollowsAt.lift {β : Type} {x : Option β} {v : β}
    {f : β → CheckedParser α} (hx : x = some v) (hp : FollowsAt (f v) q b) :
    FollowsAt ((monadLift x : CheckedParser β) >>= f) q b := by
  subst hx
  exact ⟨hp.result, hp.stored⟩

theorem Follows.lift {β : Type} {x : Option β} {v : β} {f : β → CheckedParser α}
    (hx : x = some v) (hp : Follows (f v) q) :
    Follows ((monadLift x : CheckedParser β) >>= f) q := fun b hb =>
  (hp b hb).lift hx

theorem Follows.ite {c : Prop} [Decidable c] {p' : CheckedParser α} {q' : Parser α}
    (hp : c → Follows p q) (hp' : ¬c → Follows p' q') :
    Follows (if c then p else p') (if c then q else q') := by
  split
  · exact hp ‹_›
  · exact hp' ‹_›

theorem follows_throw (e : ℤ) : Follows (throw e : CheckedParser α) (throw e) :=
  fun _ _ => ⟨rfl, fun _ _ hok => nomatch hok⟩

theorem follows_rejectIf (c : Prop) [Decidable c] (e : ℤ) :
    Follows (rejectIfIn c e) (rejectIf c e) :=
  .ite (fun _ => follows_throw e) fun _ => follows_pure ()

theorem follows_rejectFailed (e : ℤ) :
    Follows (rejectFailedIn e) (rejectFailed e) := by
  intro b hb
  have hif := follows_rejectIf (b.bad = true) e b hb
  have hsame : rejectFailed e b = rejectIf (b.bad = true) e b := by
    rw [rejectFailed, rejectIf]
    show (if b.bad = true then _ else _) = _
    split <;> rfl
  exact ⟨by rw [hsame]; exact hif.result, by rw [hsame]; exact hif.stored⟩

/-- What is left out after a failed read. -/
theorem FollowsAt.unlessFailed (hb : b.Stored) (a : α)
    (hp : b.bad = false → FollowsAt p q b) :
    FollowsAt (get >>= fun b => if b.bad then pure a else p) (unlessFailed a q)
      b := by
  have hleft : (get >>= fun b => if b.bad then pure a else p :
      CheckedParser α) b.inMemory =
        (if b.bad = true then pure a else p : CheckedParser α) b.inMemory := rfl
  have hright : StickyParser.unlessFailed a q b =
      (if b.bad = true then pure a else q : Parser α) b := by
    rw [StickyParser.unlessFailed]
    show (if b.bad = true then _ else _) = _
    split <;> rfl
  have hboth : FollowsAt (if b.bad = true then pure a else p)
      (if b.bad = true then pure a else q) b := by
    split
    · exact follows_pure a b hb
    · exact hp (by simpa using ‹¬b.bad = true›)
  exact ⟨by rw [hleft, hright]; exact hboth.result,
    by rw [hright]; exact hboth.stored⟩

theorem Follows.unlessFailed (hp : Follows p q) (a : α) :
    Follows (get >>= fun b => if b.bad then pure a else p) (unlessFailed a q) :=
  fun b hb => .unlessFailed hb a fun _ => hp b hb

end Rules

/-! ## Reading -/

variable {b : Bits}

theorem Bits.Stored.byteAt (hb : b.Stored) {pos : ℕ} (hpos : pos < b.bits) :
    b.inMemory.data[pos / 8]? = some (b.bytes.getD (pos / 8) 0) := by
  obtain ⟨hlen, hbits⟩ := hb
  have hlt : pos / 8 < b.bytes.length := by omega
  rw [Bits.inMemory, overlay, List.take_zero, List.nil_append,
    List.getElem?_append_left hlt, List.getD,
    List.getElem?_eq_getElem hlt, Option.getD_some]

theorem uint_of_lt {n : ℕ} (h : n < 2 ^ 32) : uint n = some n := if_pos h

theorem uintSub_of_le {m n : ℕ} (h : n ≤ m) : uintSub m n = some (m - n) :=
  if_pos h

/-- One round of the loop of `read_bits` adds a bit to the value. -/
theorem nextValue_lt {value k : ℕ} (h : value < 2 ^ k) (bytes : List UInt8)
    (pos : ℕ) :
    value <<< 1 < 2 ^ (k + 1) ∧
      value <<< 1 ||| bitAt bytes pos < 2 ^ (k + 1) := by
  have hdouble : value <<< 1 < 2 ^ (k + 1) := by
    rw [Nat.shiftLeft_eq, pow_succ]
    omega
  have hbit : bitAt bytes pos < 2 ^ (k + 1) :=
    Nat.lt_of_le_of_lt (bitAt_le bytes pos)
      (Nat.one_lt_two_pow (Nat.succ_ne_zero k))
  exact ⟨hdouble, Nat.or_lt_two_pow hdouble hbit⟩

theorem readLoop_lt (bytes : List UInt8) (n k value pos : ℕ) (h : value < 2 ^ k) :
    readLoop bytes n value pos < 2 ^ (k + n) := by
  induction n generalizing k value pos with
  | zero => exact h
  | succ n ih =>
      have := ih (k + 1) _ (pos + 1) (nextValue_lt h bytes pos).2
      rwa [Nat.add_assoc, Nat.add_comm 1 n] at this

theorem readBits_lt {b' : Bits} {n v : ℕ} (h : readBits n b = .ok (v, b')) :
    v < 2 ^ n := by
  rw [readBits] at h
  split at h
  · cases h
    exact Nat.two_pow_pos n
  · cases h
    have := readLoop_lt b.bytes n 0 0 b.pos (by decide)
    rwa [Nat.zero_add] at this

/-- The loop stays inside the array. -/
theorem readLoopIn_eq (hb : b.Stored) (n k value pos : ℕ) (bad : Bool)
    (hvalue : value < 2 ^ k) (hk : k + n ≤ 32) (hpos : pos + n ≤ b.bits) :
    readLoopIn n value { b.inMemory with pos, bad } =
      some (.ok (readLoop b.bytes n value pos,
        { b.inMemory with pos := pos + n, bad })) := by
  induction n generalizing k value pos with
  | zero => rfl
  | succ n ih =>
      obtain ⟨hdouble, hnext⟩ := nextValue_lt hvalue b.bytes pos
      have hfits : (2 : ℕ) ^ (k + 1) ≤ 2 ^ 32 :=
        Nat.pow_le_pow_right (by decide) (by omega)
      have hmem : b.bits ≤ 8192 := by
        obtain ⟨hlen, hbits⟩ := hb
        omega
      have hstep : readLoopIn (n + 1) value { b.inMemory with pos, bad } =
          readLoopIn n (value <<< 1 ||| bitAt b.bytes pos)
            { b.inMemory with pos := pos + 1, bad } := by
        rw [readLoopIn]
        simp only [bind, StateT.bind, ExceptT.bind, ExceptT.mk, get, getThe,
          MonadStateOf.get, StateT.get, pure, ExceptT.pure, ExceptT.bindCont,
          Option.bind_some]
        rw [hb.byteAt (by omega), uintSub_of_le (by omega),
          uint_of_lt (by omega), uint_of_lt (by omega)]
        rfl
      rw [hstep, ih (k + 1) _ (pos + 1) hnext (by omega) (by omega), readLoop,
        Nat.add_assoc, Nat.add_comm 1 n]

theorem follows_readBits (n : ℕ) : Follows (readBitsIn n) (readBits n) := by
  intro b hb
  have hle := b.pos_le
  have hbegin : readBitsIn n b.inMemory =
      (if n > 32 ∨ n > b.bits - b.pos then giveUp 0 else readLoopIn n 0)
        b.inMemory := by
    show (if n > 32 ∨ b.pos > b.bits then giveUp 0
      else monadLift (uintSub b.bits b.pos) >>= fun left =>
        if n > left then giveUp 0 else readLoopIn n 0 : CheckedParser ℕ)
        b.inMemory = _
    rw [uintSub_of_le hle]
    by_cases hlong : n > 32
    · rw [if_pos (.inl hlong), if_pos (.inl hlong)]
    · rw [if_neg (by omega)]
      show (if n > b.bits - b.pos then giveUp 0 else readLoopIn n 0)
        b.inMemory = _
      simp only [hlong, false_or]
  constructor
  · rw [hbegin, readBits]
    split
    · rfl
    · rename_i hfits
      exact readLoopIn_eq hb n 0 0 b.pos b.bad (by decide) (by omega) (by omega)
  · intro a b' hok
    rw [readBits] at hok
    split at hok
    · cases hok
      exact hb
    · cases hok
      exact hb

theorem follows_giveUp (zeros : ℕ) :
    Follows (giveUp zeros) (countZeros 0 zeros) := by
  refine fun b hb => ⟨rfl, fun a b' hok => ?_⟩
  cases hok
  exact hb

theorem follows_countZeros {fuel zeros : ℕ} (hfuel : 0 < fuel)
    (hzeros : zeros + fuel = 31) :
    Follows (countZerosIn fuel zeros) (countZeros fuel zeros) := by
  induction fuel generalizing zeros with
  | zero => omega
  | succ fuel ih =>
      rw [countZerosIn, countZeros]
      refine ((follows_readBits 1).bind fun bit _ => ?_).unlessFailed zeros
      refine .ite (fun _ => follows_pure zeros) fun _ => ?_
      refine .lift (uint_of_lt (by omega)) ?_
      cases fuel with
      | zero =>
          rw [if_pos (by omega)]
          exact follows_giveUp (zeros + 1)
      | succ fuel =>
          rw [if_neg (by omega)]
          exact ih (by omega) (by omega)

/-- A code that was read has at most thirty zeros. -/
theorem countZeros_le {b' : Bits} {zeros : ℕ}
    (h : countZeros 31 0 b = .ok (zeros, b')) (hgood : b'.bad = false) :
    zeros ≤ 30 := by
  obtain ⟨-, cs, ⟨k, hk, rfl, -⟩, -⟩ :=
    (parses_countZeros 31 0 b zeros b').mp ⟨h, hgood⟩
  omega

/-- The number behind the zeros does not wrap. -/
theorem follows_ueRest {zeros : ℕ} (hzeros : zeros ≤ 30) :
    Follows
      (monadLift (uint (1 <<< zeros)) >>= fun power =>
        monadLift (uintSub power 1) >>= fun base =>
          readBitsIn zeros >>= fun rest => monadLift (uint (base + rest)))
      (readBits zeros >>= fun rest => pure (2 ^ zeros - 1 + rest)) := by
  have hpow : (2 : ℕ) ^ zeros ≤ 2 ^ 30 := Nat.pow_le_pow_right (by decide) hzeros
  have hpos := Nat.two_pow_pos zeros
  have hshift : 1 <<< zeros = 2 ^ zeros := Nat.one_shiftLeft zeros
  refine .lift (uint_of_lt (by omega)) ?_
  refine .lift (uintSub_of_le (by omega)) ?_
  refine (follows_readBits zeros).bind fun rest hrest => ?_
  obtain ⟨b, b', hread⟩ := hrest
  have hlt := readBits_lt hread
  rw [hshift, uint_of_lt (by omega)]
  exact follows_pure _

theorem follows_ue : Follows ueIn ue := by
  have hcount : Follows (countZerosIn 31 0) (countZeros 31 0) :=
    follows_countZeros (by decide) rfl
  intro b hb
  refine (hcount b hb).bind fun zeros b' hq hb' => ?_
  refine .unlessFailed hb' 0 fun hgood => ?_
  exact follows_ueRest (countZeros_le hq hgood) b' hb'

/-! ## The fields -/

theorem follows_skipUes (n : ℕ) : Follows (skipUesIn n) (skipMany ue n) := by
  induction n with
  | zero => exact follows_pure ()
  | succ n ih => exact follows_ue.bind fun _ _ => ih

theorem follows_pocFields : Follows pocFieldsIn (pocSyntax boundedLsb) := by
  refine follows_ue.bind fun poc _ => .ite (fun _ => ?_) fun _ =>
    .ite (fun _ => ?_) fun _ => follows_rejectIf _ _
  · exact follows_ue.bind fun _ _ => follows_rejectIf _ _
  · refine (follows_readBits 1).bind fun _ _ => ?_
    refine follows_ue.bind fun _ _ => follows_ue.bind fun _ _ => ?_
    refine follows_ue.bind fun cycle _ => ?_
    exact (follows_rejectIf _ _).bind fun _ _ => follows_skipUes cycle

theorem follows_headFields : Follows headFieldsIn headFields := by
  refine (follows_readBits 8).bind fun profile _ => ?_
  refine (follows_readBits 8).bind fun constraints _ => ?_
  refine (follows_rejectIf _ _).bind fun _ _ => ?_
  refine (follows_readBits 8).bind fun level _ => ?_
  refine follows_ue.bind fun spsId _ => ?_
  refine (follows_rejectIf _ _).bind fun _ _ => ?_
  refine (follows_rejectIf _ _).bind fun _ _ => ?_
  refine follows_ue.bind fun log2MaxFrameNum _ => ?_
  refine (follows_rejectIf _ _).bind fun _ _ => ?_
  exact follows_pocFields.bind fun _ _ => follows_pure _

theorem follows_sizeFields : Follows sizeFieldsIn sizeFields := by
  refine follows_ue.bind fun refs _ => (follows_readBits 1).bind fun _ _ => ?_
  refine follows_ue.bind fun w _ => follows_ue.bind fun h _ => ?_
  refine (follows_rejectFailed _).bind fun _ _ => ?_
  exact (follows_rejectIf _ _).bind fun _ _ => follows_pure _

theorem follows_cropRectangle (cropping : ℕ) :
    Follows (cropRectangleIn cropping) (cropRectangle cropping) := by
  refine .ite (fun _ => ?_) fun _ => follows_pure _
  refine follows_ue.bind fun left _ => follows_ue.bind fun right _ => ?_
  refine follows_ue.bind fun top _ => follows_ue.bind fun bottom _ => ?_
  exact follows_pure _

theorem follows_rejectInterlaced (frameMbsOnly : ℕ) :
    Follows (rejectInterlacedIn frameMbsOnly) (rejectInterlaced frameMbsOnly) := by
  intro b hb
  have hif := follows_rejectIf (frameMbsOnly = 0) (if b.bad then -1 else -2) b hb
  have hsame : rejectInterlaced frameMbsOnly b =
      rejectIf (frameMbsOnly = 0) (if b.bad then -1 else -2) b := by
    rw [rejectInterlaced, rejectIf]
    split <;> rfl
  exact ⟨by rw [hsame]; exact hif.result, by rw [hsame]; exact hif.stored⟩

theorem follows_cropFields : Follows cropFieldsIn cropFields := by
  refine (follows_readBits 1).bind fun frameMbsOnly _ => ?_
  refine (follows_rejectInterlaced frameMbsOnly).bind fun _ _ => ?_
  refine (follows_readBits 1).bind fun _ _ => ?_
  refine (follows_readBits 1).bind fun cropping _ => ?_
  refine (follows_cropRectangle cropping).bind fun crop _ => ?_
  refine (follows_readBits 1).bind fun _ _ => ?_
  exact (follows_rejectFailed _).bind fun _ _ => follows_pure _

theorem sizeFields_within {b b' : Bits} {size : SizeFields}
    (h : sizeFields b = .ok (size, b')) : size.w < 30 ∧ size.h < 17 := by
  have hchecked : Checked sizeFields :=
    Checked.bind fun _ => Checked.bind fun _ => Checked.bind fun _ =>
      Checked.bind fun _ => (checked_rejectFailed _).bind_still fun _ =>
        (still_rejectIf _ _).bind fun _ => still_pure _
  obtain ⟨-, cs, ⟨-, hw, hh, -⟩, -⟩ :=
    (parses_sizeFields b size b').mp ⟨h, hchecked b size b' h⟩
  exact ⟨hw, hh⟩

theorem rejectIf_eq_ok {c : Prop} [Decidable c] {e : ℤ} {b b' : Bits}
    (h : rejectIf c e b = .ok ((), b')) : ¬c := by
  rw [rejectIf] at h
  split at h
  · exact nomatch h
  · assumption

theorem rejectIf_congr {c d : Prop} [Decidable c] [Decidable d] (h : c ↔ d)
    (e : ℤ) : (rejectIf c e : Parser Unit) = rejectIf d e := by
  rw [rejectIf, rejectIf]
  exact if_congr h rfl rfl

theorem codedSizeIn_eq {w : ℕ} (h : w < 30) :
    codedSizeIn w = some ((w + 1) * 16) := by
  rw [codedSizeIn, uint_of_lt (by omega)]
  exact uint_of_lt (by omega)

theorem croppedIn_eq {c d : ℕ} (hc : c ≤ 240) (hd : d ≤ 240) :
    croppedIn c d = some (2 * (c + d)) := by
  rw [croppedIn, uint_of_lt (by omega)]
  exact uint_of_lt (by omega)

/-- The sums of the cropping rectangle do not wrap, since they are only made of
numbers that were checked. -/
theorem follows_report (head : HeadFields) {size : SizeFields} (crop : Crop)
    (hw : size.w < 30) (hh : size.h < 17) :
    Follows (reportIn head size crop)
      (rejectIf (¬crop.Fits ((size.w + 1) * 16) ((size.h + 1) * 16)) (-1) >>=
        fun _ => pure (formatOf head size crop)) := by
  refine .lift (codedSizeIn_eq hw) (.lift (codedSizeIn_eq (by omega)) ?_)
  by_cases hlarge : crop.left > 240 ∨ crop.right > 240 ∨ crop.top > 240 ∨
      crop.bottom > 240
  · have hfits : ¬crop.Fits ((size.w + 1) * 16) ((size.h + 1) * 16) := by
      rintro ⟨hsmall, -⟩
      omega
    rw [rejectIf, if_pos hfits, rejectIfIn, if_pos hlarge]
    exact (follows_throw (-1)).bind fun _ ⟨_, _, hok⟩ => nomatch hok
  · simp only [not_or, Nat.not_lt] at hlarge
    obtain ⟨hleft, hright, htop, hbottom⟩ := hlarge
    have hfits : ¬crop.Fits ((size.w + 1) * 16) ((size.h + 1) * 16) ↔
        2 * (crop.left + crop.right) ≥ (size.w + 1) * 16 ∨
          2 * (crop.top + crop.bottom) ≥ (size.h + 1) * 16 := by
      rw [Crop.Fits]
      omega
    rw [rejectIfIn, if_neg (by omega), pure_bind, rejectIf_congr hfits]
    refine .lift (croppedIn_eq hleft hright) ?_
    refine .lift (croppedIn_eq htop hbottom) ?_
    refine (follows_rejectIf _ _).bind fun _ hok => ?_
    obtain ⟨b, b', hb⟩ := hok
    have hroom := rejectIf_eq_ok hb
    refine .lift (uint_of_lt (by omega)) (.lift (uint_of_lt (by omega)) ?_)
    refine .lift (uintSub_of_le (by omega)) ?_
    refine .lift (uintSub_of_le (by omega)) ?_
    exact follows_pure _

theorem follows_formatFields : Follows formatFieldsIn formatFields := by
  refine follows_headFields.bind fun head _ => ?_
  refine follows_sizeFields.bind fun size hsize => ?_
  obtain ⟨b, b', hb⟩ := hsize
  obtain ⟨hw, hh⟩ := sizeFields_within hb
  exact follows_cropFields.bind fun crop _ => follows_report head crop hw hh

/-! ## The whole function -/

theorem lift_bind {α β : Type} {x : Option β} {v : β} (hx : x = some v)
    (f : β → ExceptT ℤ Option α) :
    ((monadLift x : ExceptT ℤ Option β) >>= f) = f v := by
  subst hx
  rfl

/-- The loop reads inside the unit and stores inside the array. -/
theorem rbspLoopIn_eq {nal rest out : List UInt8} {fuel i zeros : ℕ}
    (hsize : nal.length ≤ 1024) (hrest : nal.drop i = rest)
    (hi : i + rest.length = nal.length) (hfuel : rest.length < fuel)
    (hout : out.length < i) (hzeros : zeros ≤ 2) :
    rbspLoopIn nal fuel i zeros (overlay (List.replicate 1024 0) 0 out)
        out.length =
      some (match rbspLoop (fun _ => false) zeros out rest with
        | none => .error (-1)
        | some xs => .ok (overlay (List.replicate 1024 0) 0 xs, xs.length)) := by
  induction rest generalizing fuel i zeros out with
  | nil =>
      obtain ⟨fuel, rfl⟩ := Nat.exists_eq_add_of_lt hfuel
      rw [List.length_nil] at hi
      rw [List.length_nil, Nat.zero_add, rbspLoopIn, if_neg (by omega), rbspLoop]
      rfl
  | cons byte rest ih =>
      obtain ⟨fuel, rfl⟩ : ∃ f, fuel = f + 1 := ⟨fuel - 1, by omega⟩
      rw [List.length_cons] at hi hfuel
      have hlt : i < nal.length := by omega
      have hcons := hrest
      rw [List.drop_eq_getElem_cons hlt, List.cons.injEq] at hcons
      obtain ⟨hbyte, hdrop⟩ := hcons
      have hget : nal[i]? = some byte := by
        rw [List.getElem?_eq_getElem hlt, hbyte]
      rw [rbspLoopIn, if_pos hlt, lift_bind hget, lift_bind (uint_of_lt (by omega)),
        rbspLoop]
      by_cases hthree : zeros = 2 ∧ byte = 3
      · rw [if_pos hthree, if_pos hthree]
        cases rest with
        | nil =>
            rw [List.length_nil] at hi
            rw [if_pos (by omega), if_pos (.inl rfl)]
            rfl
        | cons after rest =>
            have hnext : nal[i + 1]? = some after := by
              have hhead := congrArg List.head? hdrop
              rwa [List.head?_drop, List.head?_cons] at hhead
            rw [List.length_cons] at hi
            rw [if_neg (by omega), lift_bind hnext]
            by_cases hafter : after > 3
            · rw [if_pos hafter, if_pos (.inr hafter)]
              rfl
            · rw [if_neg hafter, if_neg (by simpa using hafter)]
              exact ih hdrop (by rw [List.length_cons]; omega) (by omega)
                (by omega) (by omega)
      · rw [if_neg hthree, if_neg hthree]
        by_cases hsmall : zeros = 2 ∧ byte < 3
        · rw [if_pos hsmall, if_pos hsmall]
          rfl
        · have hroom : out.length < (List.replicate 1024 (0 : UInt8)).length := by
            rw [List.length_replicate]
            omega
          have hnew : (if byte = 0 then zeros + 1 else 0) ≤ 2 := by
            split
            · rename_i hzero
              have hne : zeros ≠ 2 := fun htwo =>
                hsmall ⟨htwo, by rw [hzero]; decide⟩
              omega
            · omega
          rw [if_neg hsmall, if_neg hsmall, lift_bind (store_overlay _ _ hroom _),
            lift_bind (uint_of_lt (by omega)), lift_bind (uint_of_lt (by omega)),
            if_neg Bool.false_ne_true]
          have hout' : (out ++ [byte]).length < i + 1 := by
            rw [List.length_append, List.length_singleton]
            omega
          have hleft : rest.length < fuel := by omega
          have hstep := ih hdrop (by omega) hleft hout' hnew
          rwa [List.length_append, List.length_singleton] at hstep

/-- Nothing goes wrong in memory, and the result is that of `avcStreamFormat`. -/
theorem avcStreamFormatIn_eq (nal : List UInt8) :
    avcStreamFormatIn nal = some (avcStreamFormat nal) := by
  rw [avcStreamFormatIn, avcStreamFormat]
  by_cases hsize : nal.length < 5 ∨ nal.length > 1024
  · rw [if_pos hsize, if_pos (by tauto)]
  rw [if_neg hsize]
  obtain ⟨hmin, hmax⟩ := not_or.mp hsize
  cases nal with
  | nil => exact absurd (Nat.zero_lt_succ 4) hmin
  | cons header rest =>
      show (if header &&& 0x9f ≠ 7 then _ else _) = _
      by_cases htype : header &&& 0x9f ≠ 7
      · rw [if_pos htype, if_pos (.inr (.inr htype))]
      rw [if_neg htype, if_neg (by simp only [List.headD_cons]; tauto)]
      have hloop := @rbspLoopIn_eq (header :: rest) rest [] (header :: rest).length 1 0
        (by omega) rfl (Nat.add_comm ..) (Nat.lt_succ_self _) (by decide)
        (by decide)
      rw [overlay_nil, List.length_nil] at hloop
      rw [hloop, List.tail_cons]
      cases hout : rbspLoop (fun _ => false) 0 [] rest with
      | none => rfl
      | some out =>
          have hlen : out.length ≤ rest.length := by
            rw [rbspLoop_eq rest.length (fun _ _ => rfl) (by simp), ← unescape]
              at hout
            obtain ⟨xs, hxs, hcat⟩ := Option.map_eq_some_iff.mp hout
            rw [← hcat, List.nil_append]
            exact length_le_of_unescape hxs
          rw [List.length_cons] at hmax
          have hfields := (follows_formatFields (.start out (out.length * 8))
            ⟨by show out.length ≤ 1024; omega,
              Nat.le_of_eq (Nat.mul_comm ..)⟩).result
          show (uint (out.length * 8)).bind (fun bits => Option.bind (formatFieldsIn
            ⟨overlay (List.replicate 1024 0) 0 out, bits, 0, false⟩)
              fun r => some (r.map Prod.fst)) = _
          rw [uint_of_lt (by omega)]
          show Option.bind (formatFieldsIn
            (Bits.start out (out.length * 8)).inMemory)
              (fun r => some (r.map Prod.fst)) =
            some ((formatFields (.start out (out.length * 8))).map Prod.fst)
          rw [hfields]
          cases formatFields (.start out (out.length * 8)) <;> rfl

end MoonlightPsp.Sps
