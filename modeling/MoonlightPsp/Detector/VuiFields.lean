import MoonlightPsp.Detector.SpsContractReads
import Mathlib.Algebra.Ring.Nat

/-!
# What the contract check takes from the VUI

Along the syntax of the VUI the first parser of the contract check comes to its own
numbers of reordered and buffered pictures, or gives up in front of them.
-/

namespace MoonlightPsp.Detector

open BitString StickyParser
open Sps (Crop SpsTail encodeCrop)

/-! ## The syntax -/

/-- A flag, and what it announces. -/
def encodeOption {α : Type} (encode : α → List Bool) : Option α → List Bool
  | none => [false]
  | some a => true :: encode a

/-- The shape of a sample. -/
inductive AspectRatio where
  | indicated (idc : ℕ)
  | extended (width height : ℕ)

def AspectRatio.encode : AspectRatio → List Bool
  | indicated idc => bitsOf 8 idc
  | extended width height => bitsOf 8 255 ++ (bitsOf 16 width ++ bitsOf 16 height)

def AspectRatio.Valid : AspectRatio → Prop
  | indicated idc => idc < 255
  | extended _ _ => True

/-- The type of the video signal, with primaries, transfer and matrix of the colours. -/
structure SignalType where
  videoFormat : ℕ
  fullRange : Bool
  colour : Option (ℕ × ℕ × ℕ)

def SignalType.encode (s : SignalType) : List Bool :=
  bitsOf 3 s.videoFormat ++ ([s.fullRange] ++ encodeOption (fun (primaries, transfer, matrix) =>
    bitsOf 8 primaries ++ (bitsOf 8 transfer ++ bitsOf 8 matrix)) s.colour)

/-- One buffer of the hypothetical decoder. -/
structure Cpb where
  bitRate : ℕ
  size : ℕ
  constantRate : Bool

def Cpb.encode (s : Cpb) : List Bool :=
  ueCode s.bitRate ++ (ueCode s.size ++ [s.constantRate])

/-- The parameters of the hypothetical decoder. -/
structure Hrd where
  bitRateScale : ℕ
  sizeScale : ℕ
  cpbs : List Cpb
  initialDelay : ℕ
  removalDelay : ℕ
  outputDelay : ℕ
  timeOffset : ℕ

def Hrd.encode (s : Hrd) : List Bool :=
  ueCode (s.cpbs.length - 1) ++ (bitsOf 4 s.bitRateScale ++ bitsOf 4 s.sizeScale ++
    (s.cpbs.flatMap Cpb.encode ++ (bitsOf 5 s.initialDelay ++ (bitsOf 5 s.removalDelay ++
      (bitsOf 5 s.outputDelay ++ bitsOf 5 s.timeOffset)))))

def Hrd.Valid (s : Hrd) : Prop := 1 ≤ s.cpbs.length ∧ s.cpbs.length ≤ 32

/-- The restrictions of the bit stream. -/
structure Restriction where
  overBoundaries : Bool
  maxBytesDenom : ℕ
  maxBitsDenom : ℕ
  log2MaxMvHorizontal : ℕ
  log2MaxMvVertical : ℕ
  numReorderFrames : ℕ
  maxDecFrameBuffering : ℕ

def Restriction.encode (s : Restriction) : List Bool :=
  [s.overBoundaries] ++ ([s.maxBytesDenom, s.maxBitsDenom, s.log2MaxMvHorizontal,
    s.log2MaxMvVertical].flatMap ueCode ++
      (ueCode s.numReorderFrames ++ ueCode s.maxDecFrameBuffering))

/-- The VUI. -/
structure Vui where
  aspectRatio : Option AspectRatio
  overscan : Option Bool
  signal : Option SignalType
  chromaLocation : Option (ℕ × ℕ)
  timing : Option (ℕ × ℕ × Bool)
  nalHrd : Option Hrd
  vclHrd : Option Hrd
  lowDelay : Bool
  picStruct : Bool
  restriction : Option Restriction

/-- The syntax in front of the restrictions. -/
def Vui.encodeFront (s : Vui) : List Bool :=
  encodeOption AspectRatio.encode s.aspectRatio ++
    (encodeOption (fun flag => [flag]) s.overscan ++
    (encodeOption SignalType.encode s.signal ++
    (encodeOption (fun (top, bottom) => [top, bottom].flatMap ueCode) s.chromaLocation ++
    (encodeOption (fun (tick, scale, fixedRate) =>
      bitsOf 32 tick ++ (bitsOf 32 scale ++ [fixedRate])) s.timing ++
    (encodeOption Hrd.encode s.nalHrd ++
    (encodeOption Hrd.encode s.vclHrd ++
    ((if s.nalHrd.isSome ∨ s.vclHrd.isSome then [s.lowDelay] else []) ++
    [s.picStruct])))))))

def Vui.encode (s : Vui) : List Bool :=
  s.encodeFront ++ encodeOption Restriction.encode s.restriction

/-- The aspect ratio has one code, and there are as many buffers as can be announced. -/
structure Vui.Valid (s : Vui) : Prop where
  aspectRatio : ∀ a, s.aspectRatio = some a → a.Valid
  nalHrd : ∀ a, s.nalHrd = some a → a.Valid
  vclHrd : ∀ a, s.vclHrd = some a → a.Valid

/-- The VUI asks for no reordering and at most four buffered pictures. -/
def Vui.KeepsContract (s : Vui) : Prop :=
  ∀ r, s.restriction = some r → r.numReorderFrames = 0 ∧ r.maxDecFrameBuffering ≤ 4

/-! ## Readers along the syntax -/

variable {α β γ : Type} {p : Reader Unit} {c : γ} {cs ds : List Bool}

theorem follows_word {n : ℕ} (hn : n ≤ 32) (hcs : cs.length = n) :
    Follows (nalReadBits n) (valueOf cs) cs := by
  subst hcs
  have hword := follows_bits hn (valueOf_lt cs)
  rwa [bitsOf_valueOf] at hword

theorem follows_skipBits {widths : List ℕ} (hwidths : ∀ n ∈ widths, n ≤ 32)
    (hcs : cs.length = widths.sum) : Follows (skipBits widths) () cs := by
  induction widths generalizing cs with
  | nil =>
      obtain rfl := List.length_eq_zero_iff.mp hcs
      exact Follows.pure ()
  | cons n widths ih =>
      obtain ⟨hn, hwidths⟩ := List.forall_mem_cons.mp hwidths
      rw [List.sum_cons] at hcs
      rw [← List.take_append_drop n cs]
      refine follows_bind (follows_word hn ?_) (ih hwidths ?_)
      · rw [List.length_take]
        omega
      · rw [List.length_drop]
        omega

theorem follows_skipFlag (flag : Bool) : Follows (skipBits [1]) () [flag] :=
  follows_skipBits (by decide) rfl

theorem follows_ifFlag {a : Option α} {encode : α → List Bool}
    (hp : ∀ x, a = some x → Follows p () (encode x)) :
    Follows (nalReadBits 1 >>= fun flag => ifFlag flag p) () (encodeOption encode a) := by
  cases a with
  | none => exact follows_bind (follows_flag false) (Follows.pure ())
  | some x => exact follows_bind (follows_flag true) (hp x rfl)

/-- A flag, what it announces, and the fields behind it. -/
theorem follows_option {a : Option α} {encode : α → List Bool} {f : ℕ → Reader γ}
    (hp : ∀ x, a = some x → Follows p () (encode x))
    (hf : Follows (f a.isSome.toNat) c ds) :
    Follows (nalReadBits 1 >>= fun flag => ifFlag flag p >>= fun _ => f flag) c
      (encodeOption encode a ++ ds) := by
  cases a with
  | none => exact follows_bind (follows_flag false) hf
  | some x =>
      show Follows _ c ([true] ++ (encode x ++ ds))
      exact follows_bind (follows_flag true) (follows_bind (a := ()) (hp x rfl) hf)

theorem follows_aspectFields {a : AspectRatio} (ha : a.Valid) :
    Follows aspectFields () a.encode := by
  cases a with
  | indicated idc =>
      have hidc : idc < 255 := ha
      rw [AspectRatio.encode, ← List.append_nil (bitsOf 8 idc)]
      refine follows_bind (follows_bits (by decide) (by omega)) ?_
      rw [if_neg (by omega)]
      exact Follows.pure ()
  | extended width height =>
      refine follows_bind (follows_bits (by decide) (by decide)) ?_
      rw [if_pos rfl]
      exact follows_skipBits (by decide) (by simp)

theorem follows_signalFields (a : SignalType) : Follows signalFields () a.encode := by
  rw [SignalType.encode, ← List.append_assoc]
  exact follows_bind (follows_skipBits (by decide) (by simp))
    (follows_ifFlag fun x _ => follows_skipBits (by decide) (by simp))

theorem follows_cpbs (cpbs : List Cpb) :
    Follows (skipMany (do
      let _ ← nalReadUe
      let _ ← nalReadUe
      nalReadBits 1) cpbs.length) () (cpbs.flatMap Cpb.encode) := by
  induction cpbs with
  | nil => exact Follows.pure ()
  | cons x cpbs ih =>
      exact follows_bind (follows_bind (follows_ue _) (follows_bind (follows_ue _)
        (follows_flag _))) ih

theorem follows_hrd {a : Hrd} (ha : a.Valid) :
    Follows nalSkipHrdParameters () a.encode := by
  obtain ⟨hone, hmany⟩ := ha
  have hcount : min (a.cpbs.length - 1 + 1) 32 = a.cpbs.length := by omega
  refine follows_bind (follows_ue _)
    (follows_bind (follows_skipBits (by decide) (by simp)) (follows_bind (a := ()) ?_ ?_))
  · rw [hcount]
    exact follows_cpbs a.cpbs
  · exact follows_skipBits (by decide) (by simp)

theorem follows_vuiFront {vui : Vui} (hvui : vui.Valid) :
    Follows vuiFront () vui.encodeFront := by
  refine follows_option (fun a ha => follows_aspectFields (hvui.aspectRatio a ha)) ?_
  refine follows_option (fun flag _ => follows_skipFlag flag) ?_
  refine follows_option (fun a _ => follows_signalFields a) ?_
  refine follows_option (fun a _ => follows_ues [a.1, a.2]) ?_
  refine follows_option (fun a _ => follows_skipBits (by decide) (by simp)) ?_
  refine follows_option (fun a ha => follows_hrd (hvui.nalHrd a ha)) ?_
  refine follows_option (fun a ha => follows_hrd (hvui.vclHrd a ha)) ?_
  simp only [ne_eq, Bool.toNat_eq_zero, Bool.not_eq_false]
  split
  · exact follows_bind (follows_skipFlag _) (follows_skipFlag _)
  · exact follows_skipFlag _

/-! ## What is noted -/

theorem ensures_orReturn {p : Reader α} {Q : α → Prop} {a : α} (hp : Ensures p Q cs)
    (ha : Q a) : Ensures (orReturn p a) Q cs := by
  intro b v b' hb hcs hok
  rw [orReturn] at hok
  cases hread : p b with
  | ok r =>
      rw [hread] at hok
      cases hok
      exact hp b _ _ hb hcs hread
  | error e =>
      rw [hread] at hok
      cases hok
      exact ha

theorem ensures_bind {p : Reader α} {f : α → Reader β} {a : α} {Q : β → Prop}
    (hp : Follows p a cs) (hf : Ensures (f a) Q ds) : Ensures (p >>= f) Q (cs ++ ds) :=
  hp.ensures skip_failed hf

theorem ensures_option {a : Option α} {encode : α → List Bool} {f : ℕ → Reader β}
    {Q : β → Prop} (hp : ∀ x, a = some x → Follows p () (encode x))
    (hf : Ensures (f a.isSome.toNat) Q ds) :
    Ensures (nalReadBits 1 >>= fun flag => ifFlag flag p >>= fun _ => f flag) Q
      (encodeOption encode a ++ ds) := by
  cases a with
  | none => exact ensures_bind (follows_flag false) hf
  | some x =>
      show Ensures _ Q ([true] ++ (encode x ++ ds))
      exact ensures_bind (follows_flag true) (ensures_bind (a := ()) (hp x rfl) hf)

/-- The numbers of pictures are those of the restrictions, or were not read. -/
def SpsLowLatencyInfo.ComesFrom (restriction : Option Restriction)
    (info : SpsLowLatencyInfo) : Prop :=
  (info.oldNumReorderFrames = 0xffffffff ∨
      ∃ r, restriction = some r ∧ info.oldNumReorderFrames = r.numReorderFrames) ∧
    (info.oldMaxDecFrameBuffering = 0xffffffff ∨
      ∃ r, restriction = some r ∧ info.oldMaxDecFrameBuffering = r.maxDecFrameBuffering)

variable {info : SpsLowLatencyInfo}

theorem ensures_restrictionFields {r : Restriction} (hinfo : info.ComesFrom (some r)) :
    Ensures (restrictionFields info) (·.ComesFrom (some r)) r.encode := by
  refine ensures_orReturn ?_ hinfo
  refine ensures_bind (follows_skipFlag _) (ensures_bind (follows_ues [_, _, _, _])
    (ensures_bind (follows_ue _) (ensures_orReturn ?_ ?_)))
  · rw [← List.append_nil (ueCode r.maxDecFrameBuffering)]
    exact ensures_bind (follows_ue _) (Ensures.pure ⟨.inr ⟨r, rfl, rfl⟩, .inr ⟨r, rfl, rfl⟩⟩)
  · exact ⟨.inr ⟨r, rfl, rfl⟩, hinfo.2⟩

theorem ensures_vuiFields {vui : Vui} (hvui : vui.Valid)
    (hinfo : info.ComesFrom vui.restriction) :
    Ensures (spsParseVuiLowLatencyFields info) (·.ComesFrom vui.restriction) vui.encode := by
  refine ensures_orReturn (ensures_bind (follows_vuiFront hvui) ?_) hinfo
  cases hrestriction : vui.restriction with
  | none =>
      rw [hrestriction] at hinfo
      show Ensures _ _ ([false] ++ [])
      exact ensures_bind (follows_flag false) (Ensures.pure hinfo)
  | some r =>
      rw [hrestriction] at hinfo
      exact ensures_bind (follows_flag true) (ensures_restrictionFields hinfo)

theorem encodeCrop_eq (crop : Option Crop) :
    encodeCrop crop = encodeOption (fun c =>
      [c.left, c.right, c.top, c.bottom].flatMap ueCode) crop := by
  cases crop with
  | none => rfl
  | some c => simp [encodeCrop, encodeOption]

/-- The numbers of pictures are noted from the VUI, if there is one. -/
theorem ensures_sizeAndVui {tail : SpsTail} {vui : Option Vui}
    (hvui : ∀ v, vui = some v → v.Valid) (hflag : tail.vui = vui.isSome)
    (hinfo : ∀ r, info.ComesFrom r) :
    Ensures (sizeAndVui info) (·.ComesFrom (vui.bind Vui.restriction))
      (tail.encode ++ vui.elim [] Vui.encode) := by
  rw [SpsTail.encode, encodeCrop_eq, hflag]
  refine ensures_orReturn ?_ (hinfo _)
  show Ensures _ _ (([tail.gapsAllowed] ++ (ueCode tail.w ++ (ueCode tail.h ++ ([true] ++
    ([tail.direct8x8] ++ (encodeOption _ tail.crop ++ [vui.isSome])))))) ++ _)
  simp only [List.append_assoc]
  refine ensures_bind (follows_flag _) (ensures_bind (follows_ue _)
    (ensures_bind (follows_ue _) (ensures_bind (follows_flag true) ?_)))
  rw [if_neg (by decide)]
  refine ensures_bind (follows_flag _) ?_
  refine ensures_option (fun c _ => follows_ues [_, _, _, _]) (ensures_bind (follows_flag _) ?_)
  cases vui with
  | none => exact Ensures.pure (hinfo none)
  | some vui => exact ensures_vuiFields (hvui vui rfl) (hinfo _)

end MoonlightPsp.Detector
