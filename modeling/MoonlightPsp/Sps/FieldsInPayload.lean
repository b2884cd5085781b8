import MoonlightPsp.Sps.StreamFormat

/-!
# Where the fields of a sequence parameter set end

`avc_stream_format` reads whole bytes, where `avc_sps_normalize_main` and the check
of picture parameter sets stop reading at the stop bit.  So it takes the stop bit of
a unit that is cut short for a field, and the alignment zeros behind it for others.
-/

namespace MoonlightPsp.Sps

open BitString EmulationPrevention StickyParser

/-! ## The claims -/

/-- The fields that are reported end in front of the stop bit.  The last bit that is
read is the flag of the VUI, which is not reported. -/
def ReportedInPayload (nal : List UInt8) : Prop :=
  ∀ rbsp f b stop, rbspLoop (fun _ => false) 0 [] nal.tail = some rbsp →
    formatFields (.start rbsp (rbsp.length * 8)) = .ok (f, b) →
    rbspStopBit (.start rbsp (rbsp.length * 8)) = some stop → b.pos - 1 ≤ stop

/-- The fields that are read end in front of the stop bit. -/
def ReadInPayload (nal : List UInt8) : Prop :=
  ∀ rbsp f b stop, rbspLoop (fun _ => false) 0 [] nal.tail = some rbsp →
    formatFields (.start rbsp (rbsp.length * 8)) = .ok (f, b) →
    rbspStopBit (.start rbsp (rbsp.length * 8)) = some stop → b.pos ≤ stop

/-- The syntax up to `pic_height_in_map_units_minus1`. -/
structure SpsFront where
  head : SpsHead
  refs : ℕ
  gapsAllowed : Bool
  w : ℕ
  h : ℕ

namespace SpsFront

def encode (s : SpsFront) : List Bool :=
  s.head.encode ++ (ueCode s.refs ++ s.gapsAllowed :: (ueCode s.w ++ ueCode s.h))

structure Supported (s : SpsFront) : Prop where
  head : s.head.Supported
  refs : s.refs ≤ 4
  w : s.w < 30
  h : s.h < 17

/-- The cropping rectangle leaves something of the picture. -/
def Shows (s : SpsFront) (crop : Option Crop) : Prop :=
  (crop.getD ⟨0, 0, 0, 0⟩).Fits ((s.w + 1) * 16) ((s.h + 1) * 16)

/-- The payload breaks off behind the size, with the stop bit where a field should
stand and zeros for the fields behind it. -/
inductive BreaksOff (s : SpsFront) (payload : List Bool) (zeros : ℕ) : Prop
  /-- The stop bit stands for `frame_mbs_only_flag`. -/
  | atFrameMbsOnly (h : payload = s.encode) (hzeros : 3 ≤ zeros)
  /-- The stop bit stands for `direct_8x8_inference_flag`. -/
  | atDirect8x8 (h : payload = s.encode ++ [true]) (hzeros : 2 ≤ zeros)
  /-- The stop bit and zeros stand for the rest of the last number of the cropping
  rectangle. -/
  | inCrop (direct8x8 : Bool) (c : Crop) (taken : ℕ) (hc : s.Shows (some c))
      (h : payload ++ true :: List.replicate taken false =
        s.encode ++ true :: direct8x8 :: encodeCrop (some c)) (hzeros : taken < zeros)

/-- The payload ends in front of the flag of the VUI. -/
def EndsAtVui (s : SpsFront) (payload : List Bool) : Prop :=
  ∃ (direct8x8 : Bool) (crop : Option Crop), s.Shows crop ∧
    payload = s.encode ++ true :: direct8x8 :: encodeCrop crop

end SpsFront

/-- A NAL unit whose payload breaks off in the fields that are reported. -/
def CutShort (nal : List UInt8) : Prop :=
  5 ≤ nal.length ∧ nal.length ≤ 1024 ∧
    ∃ (rbsp : List UInt8) (s : SpsFront) (payload : List Bool) (zeros : ℕ),
      IsRbsp nal 7 rbsp ∧ s.Supported ∧
        toBits rbsp = payload ++ true :: List.replicate zeros false ∧
        s.BreaksOff payload zeros

/-- A NAL unit whose payload ends in front of the flag of the VUI. -/
def CutAtVui (nal : List UInt8) : Prop :=
  5 ≤ nal.length ∧ nal.length ≤ 1024 ∧
    ∃ (rbsp : List UInt8) (s : SpsFront) (payload : List Bool),
      IsRbsp nal 7 rbsp ∧ s.Supported ∧ IsPayload (toBits rbsp) payload ∧
        s.EndsAtVui payload

/-! ## Where the payload breaks off -/

variable {nal rbsp : List UInt8} {s : SpsFront} {payload : List Bool} {zeros : ℕ}
  {direct8x8 : Bool} {crop : Option Crop}

theorem SpsFront.shows_none (s : SpsFront) : s.Shows none := by
  unfold Shows Crop.Fits
  simp

/-- The payload breaks off where the fields in front of the flag of the VUI have
taken the stop bit and leave a zero for the flag. -/
theorem SpsFront.breaksOff_iff : s.BreaksOff payload zeros ↔
    ∃ (direct8x8 : Bool) (crop : Option Crop) (taken : ℕ), taken < zeros ∧
      s.Shows crop ∧ s.encode ++ true :: direct8x8 :: encodeCrop crop =
        payload ++ true :: List.replicate taken false := by
  constructor
  · intro h
    cases h with
    | atFrameMbsOnly h hzeros =>
        exact ⟨false, none, 2, by omega, s.shows_none, by rw [h]; rfl⟩
    | atDirect8x8 h hzeros =>
        exact ⟨true, none, 1, by omega, s.shows_none, by rw [h]; simp [encodeCrop]⟩
    | inCrop direct8x8 c taken hc h hzeros =>
        exact ⟨direct8x8, some c, taken, hzeros, hc, h.symm⟩
  · rintro ⟨direct8x8, crop, taken, hzeros, hcrop, h⟩
    have hpayload : IsPayload (s.encode ++ true :: direct8x8 :: encodeCrop crop)
        payload := ⟨taken, h⟩
    cases crop with
    | some c => exact .inCrop direct8x8 c taken hcrop h.symm hzeros
    | none =>
        have hlen := congrArg List.length h
        simp only [encodeCrop, List.length_append, List.length_cons, List.length_nil,
          List.length_replicate] at hlen
        cases direct8x8 with
        | false =>
            obtain rfl := hpayload.unique (q := s.encode) ⟨2, rfl⟩
            exact .atFrameMbsOnly rfl (by omega)
        | true =>
            obtain rfl := hpayload.unique (q := s.encode ++ [true])
              ⟨1, by simp [encodeCrop]⟩
            rw [List.length_append, List.length_singleton] at hlen
            exact .atDirect8x8 rfl (by omega)

/-! ## Where the reads end -/

/-- The reads of a parameter set, up to and with the flag of the VUI. -/
def SpsFront.word (s : SpsFront) (direct8x8 : Bool) (crop : Option Crop) (vui : Bool) :
    List Bool :=
  s.encode ++ true :: direct8x8 :: (encodeCrop crop ++ [vui])

theorem SpsFront.word_eq (s : SpsFront) (direct8x8 : Bool) (crop : Option Crop)
    (vui : Bool) :
    s.word direct8x8 crop vui = (s.encode ++ true :: direct8x8 :: encodeCrop crop) ++ [vui] := by
  simp [word]

/-- The words that are read are those of the syntax. -/
theorem parses_formatFields_word :
    Parses formatFields fun f cs => ∃ (s : SpsFront) (direct8x8 : Bool)
      (crop : Option Crop) (vui : Bool), s.Supported ∧ s.Shows crop ∧
        cs = s.word direct8x8 crop vui ∧
        f = s.head.format s.refs ⟨s.gapsAllowed, s.w, s.h, direct8x8, crop, vui⟩ := by
  refine parses_formatFields.congr fun f cs => ?_
  constructor
  · rintro ⟨head, refs, ⟨gaps, w, h, direct8x8, crop, vui⟩, hhead, hrefs,
      ⟨hw, hh, hcrop⟩, rfl, rfl⟩
    exact ⟨⟨head, refs, gaps, w, h⟩, direct8x8, crop, vui, ⟨hhead, hrefs, hw, hh⟩, hcrop,
      by simp [SpsFront.word, SpsFront.encode, SpsTail.encode], rfl⟩
  · rintro ⟨s, direct8x8, crop, vui, hs, hcrop, rfl, rfl⟩
    exact ⟨s.head, s.refs, ⟨s.gapsAllowed, s.w, s.h, direct8x8, crop, vui⟩, hs.head,
      hs.refs, ⟨hs.w, hs.h, hcrop⟩,
      by simp [SpsFront.word, SpsFront.encode, SpsTail.encode], rfl⟩

/-- A NAL unit of whole words is accepted. -/
theorem avcStreamFormat_of_word {vui : Bool} (hmin : 5 ≤ nal.length)
    (hmax : nal.length ≤ 1024) (hrbsp : IsRbsp nal 7 rbsp) (hs : s.Supported)
    (hcrop : s.Shows crop) (hword : s.word direct8x8 crop vui <+: toBits rbsp) :
    ∃ f, avcStreamFormat nal = .ok f := by
  refine ⟨_, avcStreamFormat_eq_ok.mpr ⟨hmin, hmax, rbsp, s.head, s.refs,
    ⟨s.gapsAllowed, s.w, s.h, direct8x8, crop, vui⟩, hrbsp, hs.head, hs.refs,
    ⟨hs.w, hs.h, hcrop⟩, ?_, rfl⟩⟩
  simpa [SpsFront.word, SpsFront.encode, SpsTail.encode] using hword

/-- Where the reads of a word end. -/
theorem reads_of_word {vui : Bool} (hs : s.Supported) (hcrop : s.Shows crop)
    (hword : s.word direct8x8 crop vui <+: toBits rbsp) :
    ∃ f b, formatFields (.start rbsp (rbsp.length * 8)) = .ok (f, b) ∧
      b.pos = (s.word direct8x8 crop vui).length := by
  have hle := hword.length_le
  rw [← rest_bytes] at hword
  obtain ⟨hfields, -⟩ := (parses_formatFields_word _ _ _).mpr
    ⟨rfl, _, ⟨s, direct8x8, crop, vui, hs, hcrop, rfl, rfl⟩, hword, rfl⟩
  refine ⟨_, _, hfields, ?_⟩
  show min (0 + _) (rbsp.length * 8) = _
  rw [length_toBits] at hle
  omega

/-- What was read is a word, and the reads end behind it. -/
theorem word_of_reads {f : StreamFormat} {b : Bits}
    (h : formatFields (.start rbsp (rbsp.length * 8)) = .ok (f, b)) :
    ∃ (s : SpsFront) (direct8x8 : Bool) (crop : Option Crop) (vui : Bool),
      s.Supported ∧ s.Shows crop ∧ s.word direct8x8 crop vui <+: toBits rbsp ∧
        b.pos = (s.word direct8x8 crop vui).length := by
  obtain ⟨-, cs, ⟨s, direct8x8, crop, vui, hs, hcrop, rfl, -⟩, hcs, rfl⟩ :=
    (parses_formatFields_word _ _ _).mp ⟨h, checked_formatFields _ _ _ h⟩
  rw [rest_bytes] at hcs
  obtain ⟨f', b', hfields, hpos⟩ := reads_of_word hs hcrop hcs
  rw [h] at hfields
  cases hfields
  exact ⟨s, direct8x8, crop, vui, hs, hcrop, hcs, hpos⟩

/-! ## Where the stop bit is read -/

/-- A payload that breaks off is read beyond the stop bit. -/
theorem CutShort.not_reported (h : CutShort nal) :
    (∃ f, avcStreamFormat nal = .ok f) ∧ ¬ ReportedInPayload nal := by
  obtain ⟨hmin, hmax, rbsp, s, payload, zeros, hrbsp, hs, hbits, hbreak⟩ := h
  obtain ⟨direct8x8, crop, taken, htaken, hcrop, hfields⟩ := SpsFront.breaksOff_iff.mp hbreak
  have hword : s.word direct8x8 crop false <+: toBits rbsp := by
    refine ⟨List.replicate (zeros - taken - 1) false, ?_⟩
    rw [s.word_eq, hfields, hbits]
    simp only [List.append_assoc, List.cons_append, List.nil_append, List.cons.injEq,
      List.append_cancel_left_eq, true_and]
    rw [← List.replicate_succ, ← List.replicate_add]
    congr 1
    omega
  refine ⟨avcStreamFormat_of_word hmin hmax hrbsp hs hcrop hword, fun hreported => ?_⟩
  obtain ⟨f, b, hok, hpos⟩ := reads_of_word hs hcrop hword
  have hstop := rbspStopBit_start.mpr ⟨payload, ⟨zeros, hbits⟩, rfl⟩
  have hle := hreported rbsp f b _ ((rbspLoop_unbounded _).trans hrbsp.2) hok hstop
  rw [hpos, s.word_eq, List.length_append, hfields] at hle
  simp only [List.length_append, List.length_cons, List.length_nil] at hle
  omega

/-- At the flag of the VUI the stop bit is read. -/
theorem CutAtVui.not_read (h : CutAtVui nal) :
    (∃ f, avcStreamFormat nal = .ok f) ∧ ¬ ReadInPayload nal := by
  obtain ⟨hmin, hmax, rbsp, s, payload, hrbsp, hs, hbits, direct8x8, crop, hcrop, rfl⟩ := h
  have hword : s.word direct8x8 crop true <+: toBits rbsp := by
    obtain ⟨zeros, hbits⟩ := hbits
    rw [hbits, s.word_eq]
    exact ⟨List.replicate zeros false, by simp⟩
  refine ⟨avcStreamFormat_of_word hmin hmax hrbsp hs hcrop hword, fun hread => ?_⟩
  obtain ⟨f, b, hok, hpos⟩ := reads_of_word hs hcrop hword
  have hstop := rbspStopBit_start.mpr ⟨_, hbits, rfl⟩
  have hle := hread rbsp f b _ ((rbspLoop_unbounded _).trans hrbsp.2) hok hstop
  rw [hpos, s.word_eq, List.length_append, List.length_singleton] at hle
  omega

/-- Where reported fields reach beyond the stop bit, the payload breaks off. -/
theorem cutShort_of_word {vui : Bool} (hmin : 5 ≤ nal.length) (hmax : nal.length ≤ 1024)
    (hrbsp : IsRbsp nal 7 rbsp) (hs : s.Supported) (hcrop : s.Shows crop)
    (hword : s.word direct8x8 crop vui <+: toBits rbsp)
    (hpayload : IsPayload (toBits rbsp) payload)
    (hlt : payload.length + 1 < (s.word direct8x8 crop vui).length) : CutShort nal := by
  obtain ⟨zeros, hbits⟩ := hpayload
  rw [hbits, s.word_eq] at hword
  rw [s.word_eq, List.length_append, List.length_singleton] at hlt
  obtain ⟨taken, htaken, hfields⟩ := prefix_closed hword (by omega)
  exact ⟨hmin, hmax, rbsp, s, payload, zeros, hrbsp, hs, hbits,
    SpsFront.breaksOff_iff.mpr ⟨direct8x8, crop, taken, htaken, hcrop, hfields⟩⟩

/-- A word that ends with the stop bit has read it for the flag of the VUI. -/
theorem cutAtVui_of_word {vui : Bool} (hmin : 5 ≤ nal.length) (hmax : nal.length ≤ 1024)
    (hrbsp : IsRbsp nal 7 rbsp) (hs : s.Supported) (hcrop : s.Shows crop)
    (hword : s.word direct8x8 crop vui <+: toBits rbsp)
    (hpayload : IsPayload (toBits rbsp) payload)
    (hlen : payload.length + 1 = (s.word direct8x8 crop vui).length) : CutAtVui nal := by
  have hfront : payload <+: toBits rbsp := by
    obtain ⟨zeros, hbits⟩ := hpayload
    rw [hbits]
    exact List.prefix_append _ _
  rw [s.word_eq] at hword
  rw [s.word_eq, List.length_append, List.length_singleton] at hlen
  have heq : payload = s.encode ++ true :: direct8x8 :: encodeCrop crop :=
    List.IsPrefix.eq_of_length
      (List.prefix_of_prefix_length_le hfront ((List.prefix_append _ _).trans hword)
        (by omega)) (by omega)
  exact ⟨hmin, hmax, rbsp, s, payload, hrbsp, hs, hpayload, direct8x8, crop, hcrop, heq⟩

/-- What `avc_stream_format` accepts was read in front of the stop bit, apart from the
units that break off: where the stop bit and zeros stand for `frame_mbs_only_flag` and
the flags behind it, for `direct_8x8_inference_flag` and the flags behind it, or for the
rest of the cropping rectangle and the flag behind it.  That flag, which is read but not
reported, is the stop bit where the payload ends in front of it. -/
theorem avcStreamFormat_inPayload (nal : List UInt8) :
    (((∃ f, avcStreamFormat nal = .ok f) → ReportedInPayload nal) ↔ ¬ CutShort nal) ∧
      (((∃ f, avcStreamFormat nal = .ok f) → ReadInPayload nal) ↔
        ¬ (CutShort nal ∨ CutAtVui nal)) := by
  have hshort : ∀ hok : ∃ f, avcStreamFormat nal = .ok f, ∀ {rbsp f b stop},
      rbspLoop (fun _ => false) 0 [] nal.tail = some rbsp →
      formatFields (.start rbsp (rbsp.length * 8)) = .ok (f, b) →
      rbspStopBit (.start rbsp (rbsp.length * 8)) = some stop →
      (stop + 1 < b.pos → CutShort nal) ∧ (stop + 1 = b.pos → CutAtVui nal) := by
    rintro ⟨f', hok⟩ rbsp f b stop hloop hfields hstop
    obtain ⟨hmin, hmax, -, -, -, -, ⟨htype, -⟩, -⟩ := avcStreamFormat_eq_ok.mp hok
    obtain ⟨payload, hpayload, rfl⟩ := rbspStopBit_start.mp hstop
    obtain ⟨s, direct8x8, crop, vui, hs, hcrop, hword, hpos⟩ := word_of_reads hfields
    have hrbsp : IsRbsp nal 7 rbsp := ⟨htype, (rbspLoop_unbounded _).symm.trans hloop⟩
    rw [hpos]
    exact ⟨cutShort_of_word hmin hmax hrbsp hs hcrop hword hpayload,
      cutAtVui_of_word hmin hmax hrbsp hs hcrop hword hpayload⟩
  constructor
  · constructor
    · intro h hcut
      exact hcut.not_reported.2 (h hcut.not_reported.1)
    · intro hcut hok rbsp f b stop hloop hfields hstop
      by_contra hgt
      exact hcut ((hshort hok hloop hfields hstop).1 (by omega))
  · constructor
    · rintro h (hcut | hcut)
      · refine hcut.not_reported.2 fun rbsp f b stop hloop hfields hstop => ?_
        have hle := h hcut.not_reported.1 rbsp f b stop hloop hfields hstop
        omega
      · exact hcut.not_read.2 (h hcut.not_read.1)
    · intro hcut hok rbsp f b stop hloop hfields hstop
      have hends := hshort hok hloop hfields hstop
      rw [not_or] at hcut
      by_contra hgt
      by_cases heq : stop + 1 = b.pos
      · exact hcut.2 (hends.2 heq)
      · exact hcut.1 (hends.1 (by omega))

/-- A Baseline parameter set for 480×272 pixels that breaks off behind the size. -/
theorem avcStreamFormat_breaksOff :
    ¬ ∀ nal : List UInt8, (∃ f, avcStreamFormat nal = .ok f) → ReportedInPayload nal := by
  intro hall
  have hreported := hall [0x67, 0x42, 0xc0, 0x1e, 0xda, 0x07, 0x82, 0x30]
    ⟨⟨66, 30, 1, 0, 480, 272, 480, 272, 0, 0⟩, by decide +kernel⟩
  have hle := hreported [0x42, 0xc0, 0x1e, 0xda, 0x07, 0x82, 0x30]
    ⟨66, 30, 1, 0, 480, 272, 480, 272, 0, 0⟩
    ⟨[0x42, 0xc0, 0x1e, 0xda, 0x07, 0x82, 0x30], 56, 55, false, by decide⟩ 51
    (by decide +kernel) (by decide +kernel) (by decide +kernel)
  exact absurd hle (by decide)

end MoonlightPsp.Sps
