import MoonlightPsp.Reassembly.Run
import Mathlib.Data.List.Induction

/-!
# The windows of the two waits

Loss reports widen the window of the wait that is on.  A report is forgotten
where a long loss replaces the window of an RFI wait by its own range, and where
an RFI wait is started beside an IDR wait, so that a report reaches only one of
the two windows.

The ghost part of the ledger keeps the ranges reported since each wait began; an
IDR wait that takes over from an RFI wait begins with it.
-/

namespace MoonlightPsp.Reassembly

open SerialNumber

variable {s s' : Depacketizer} {base : UInt32}

/-! ## Reports -/

/-- By which function a loss is reported. -/
inductive ReportKind where
  /-- `rtp_reassembly_note_frame_loss`. -/
  | note
  /-- `rtp_mark_waiting_for_ref_inval`. -/
  | mark
  /-- `rtp_start_idr_wait`. -/
  | start
  deriving DecidableEq

/-- A report, and the shared flags as it finds them. -/
structure LossReport where
  kind : ReportKind
  flags : DecodeFlags
  env : Env
  startFrame : UInt32
  endFrame : UInt32

namespace LossReport

/-- The state in which the report runs. -/
def found (c : LossReport) (s : Depacketizer) : Depacketizer :=
  { s with flags := c.flags }

def run (c : LossReport) (s : Depacketizer) : Depacketizer :=
  match c.kind with
  | .note => rtpReassemblyNoteFrameLoss c.env (c.found s) c.startFrame c.endFrame
  | .mark => rtpMarkWaitingForRefInval c.env (c.found s) c.startFrame c.endFrame
  | .start => rtpStartIdrWait c.env (c.found s) c.startFrame c.endFrame

/-- The reported range; a start of 0 stands for an unknown one. -/
def range (c : LossReport) : Window :=
  ⟨lossStart c.startFrame c.endFrame, c.endFrame⟩

/-- The range is too long for an RFI wait. -/
def TooLong (c : LossReport) (w : Window) : Prop :=
  rtpRfiSpanExceedsWindow c.env.config w.first w.last = true ∧
    c.flags.lastGoodFrame ≠ 0

end LossReport

/-! ## What a report does -/

/-- The window of the RFI wait. -/
def Depacketizer.rfiWindow (s : Depacketizer) : Window :=
  ⟨s.waits.refInvalStart, s.waits.refInvalEnd⟩

/-- The window of the IDR wait. -/
def Depacketizer.idrWindow (s : Depacketizer) : Window :=
  ⟨s.waits.idrWaitLossStart, s.waits.idrWaitLossEnd⟩

abbrev RfiOn (s : Depacketizer) : Prop := s.waits.waitingForRefInvalFrame = true

abbrev IdrOn (s : Depacketizer) : Prop := s.waits.waitingForIdrFrame = true

/-- An IDR wait is started or widened with a range; it ends an RFI wait. -/
structure IntoIdr (s s' : Depacketizer) (w : Window) : Prop where
  rfi : ¬RfiOn s'
  idr : IdrOn s'
  started : ¬IdrOn s → s'.idrWindow = w
  widened : IdrOn s → s'.idrWindow = s.idrWindow.widen w

/-- An RFI wait is started or widened with a range. -/
structure IntoRfi (s s' : Depacketizer) (w : Window) : Prop where
  rfi : RfiOn s'
  started : ¬RfiOn s → s'.rfiWindow = w
  widened : RfiOn s → s'.rfiWindow = s.rfiWindow.widen w
  idr : IdrOn s' ↔ IdrOn s
  idrWindow : s'.idrWindow = s.idrWindow

/-- Only the IDR wait is widened. -/
structure IntoIdrOnly (s s' : Depacketizer) (w : Window) : Prop where
  waiting : IdrOn s
  idr : IdrOn s'
  idrWindow : s'.idrWindow = s.idrWindow.widen w
  rfi : RfiOn s' ↔ RfiOn s
  rfiWindow : s'.rfiWindow = s.rfiWindow

theorem lossStart_of_exceeds {c : StreamConfig} {a b : UInt32}
    (h : rtpRfiSpanExceedsWindow c a b = true) : lossStart a b = a := by
  rw [rtpRfiSpanExceedsWindow] at h
  split at h
  · exact Bool.noConfusion h
  · rw [rtpFrameSpan] at h
    split at h
    · have hone : rtpRfiWaitRefSpanMax c < 1 := by simpa using h
      rw [rtpRfiWaitRefSpanMax] at hone
      split_ifs at hone <;> omega
    · rename_i hknown
      rw [lossStart, if_neg hknown]

theorem lossStart_lossStart (a b : UInt32) :
    lossStart (lossStart a b) b = lossStart a b := by
  by_cases h : a = 0 ∨ delta b a < 0
  · rw [show lossStart a b = b from if_pos h, lossStart]
    split <;> rfl
  · rw [show lossStart a b = a from if_neg h, lossStart, if_neg h]

theorem startIdrWait_intoIdr (env : Env) (s : Depacketizer) (a b : UInt32) :
    IntoIdr s (rtpStartIdrWait env s a b) ⟨lossStart a b, b⟩ := by
  have hforce : ∀ s : Depacketizer,
      (rtpRequestIdrForceForMode env.config s).waits = s.waits := by
    intro s
    rw [rtpRequestIdrForceForMode]
    split <;> rfl
  rw [rtpStartIdrWait]
  by_cases hidr : s.waits.waitingForIdrFrame = true
  · simp only [hidr]
    constructor
    · exact Bool.false_ne_true
    · rfl
    · exact fun hoff => absurd hidr hoff
    · exact fun _ => rfl
  · have hoff : s.waits.waitingForIdrFrame = false := by simpa using hidr
    simp only [hoff]
    constructor
    · simp [RfiOn, hforce, rtpClearRefInvalWait]
    · simp [IdrOn, hforce, rtpClearRefInvalWait]
    · exact fun _ => by
        simp [Depacketizer.idrWindow, hforce, rtpClearRefInvalWait]
    · exact fun hon => absurd hon hidr

/-- What a report by `rtp_mark_waiting_for_ref_inval` does. -/
theorem markWaiting_cases (c : LossReport) (s : Depacketizer) :
    (c.TooLong c.range ∧ IntoIdr s (rtpMarkWaitingForRefInval c.env (c.found s)
        c.startFrame c.endFrame) c.range) ∨
      (¬c.TooLong c.range ∧ RfiOn s ∧ c.TooLong (s.rfiWindow.widen c.range) ∧
        IntoIdr s (rtpMarkWaitingForRefInval c.env (c.found s)
          c.startFrame c.endFrame) (s.rfiWindow.widen c.range)) ∨
      (¬c.TooLong c.range ∧
        (RfiOn s → ¬c.TooLong (s.rfiWindow.widen c.range)) ∧
        IntoRfi s (rtpMarkWaitingForRefInval c.env (c.found s)
          c.startFrame c.endFrame) c.range) := by
  rw [rtpMarkWaitingForRefInval]
  simp only
  split_ifs with hlong hrfi hwide
  · have h := startIdrWait_intoIdr c.env (c.found s)
      (lossStart c.startFrame c.endFrame) c.endFrame
    rw [lossStart_lossStart] at h
    exact Or.inl ⟨hlong, h.rfi, h.idr, h.started, h.widened⟩
  · have hoff : ¬RfiOn s := by simpa [LossReport.found] using hrfi
    refine Or.inr (Or.inr ⟨hlong, fun hon => absurd hon hoff, rfl, ?_, ?_,
      Iff.rfl, rfl⟩)
    · exact fun _ => rfl
    · exact fun hon => absurd hon hoff
  · have hon : RfiOn s := by simpa [LossReport.found] using hrfi
    have h := startIdrWait_intoIdr c.env { c.found s with
      waits.refInvalStart := earlier (lossStart c.startFrame c.endFrame)
        (c.found s).waits.refInvalStart
      waits.refInvalEnd := later c.endFrame (c.found s).waits.refInvalEnd }
      (earlier (lossStart c.startFrame c.endFrame)
        (c.found s).waits.refInvalStart)
      (later c.endFrame (c.found s).waits.refInvalEnd)
    rw [lossStart_of_exceeds hwide.1] at h
    exact Or.inr (Or.inl ⟨hlong, hon, hwide, h.rfi, h.idr, h.started,
      h.widened⟩)
  · have hon : RfiOn s := by simpa [LossReport.found] using hrfi
    refine Or.inr (Or.inr ⟨hlong, fun _ => hwide, hon, ?_, ?_, Iff.rfl, rfl⟩)
    · exact fun hoff => absurd hon hoff
    · exact fun _ => rfl

/-- The report starts an IDR wait, or widens it, with its own range alone. -/
def LossReport.StartsIdrAlone (c : LossReport) : Prop :=
  match c.kind with
  | .start => True
  | .note =>
      ((c.flags.refsCorrupted = true ∨ c.flags.idrFullyDecoded = false) ∧
        c.flags.lastGoodFrame = 0) ∨ c.TooLong c.range
  | .mark => c.TooLong c.range

/-- The four things that a report can do. -/
inductive ReportCase (c : LossReport) (s s' : Depacketizer) : Prop where
  | alone (into : IntoIdr s s' c.range) (starts : c.StartsIdrAlone)
      (free : c.kind = .note → ¬IdrOn s)
  | escalated (into : IntoIdr s s' (s.rfiWindow.widen c.range))
      (waiting : RfiOn s) (short : ¬c.StartsIdrAlone)
      (long : c.TooLong (s.rfiWindow.widen c.range))
      (free : c.kind = .note → ¬IdrOn s)
  | marked (into : IntoRfi s s' c.range) (short : ¬c.StartsIdrAlone)
      (fits : RfiOn s → ¬c.TooLong (s.rfiWindow.widen c.range))
      (free : c.kind = .note → ¬IdrOn s)
  | noted (into : IntoIdrOnly s s' c.range) (kind : c.kind = .note)

theorem reportCase_of_marking (c : LossReport) (s : Depacketizer)
    (hmark : c.StartsIdrAlone ↔ c.TooLong c.range)
    (hfree : c.kind = .note → ¬IdrOn s) :
    ReportCase c s (rtpMarkWaitingForRefInval c.env (c.found s) c.startFrame
      c.endFrame) := by
  obtain ⟨hlong, hinto⟩ | ⟨hshort, hrfi, hwide, hinto⟩ | ⟨hshort, hfits, hinto⟩
    := markWaiting_cases c s
  · exact .alone hinto (hmark.mpr hlong) hfree
  · exact .escalated hinto hrfi (hmark.not.mpr hshort) hwide hfree
  · exact .marked hinto (hmark.not.mpr hshort) hfits hfree

/-- In a note the start is normalised once more. -/
theorem markWaiting_lossStart (env : Env) (s : Depacketizer) (a b : UInt32) :
    rtpMarkWaitingForRefInval env s (lossStart a b) b =
      rtpMarkWaitingForRefInval env s a b := by
  rw [rtpMarkWaitingForRefInval, rtpMarkWaitingForRefInval, lossStart_lossStart]

theorem reportCase (c : LossReport) (s : Depacketizer) :
    ReportCase c s (c.run s) := by
  rcases c with ⟨kind, flags, env, a, b⟩
  cases kind with
  | start =>
      have h := startIdrWait_intoIdr env
        (LossReport.found ⟨.start, flags, env, a, b⟩ s) a b
      exact .alone ⟨h.rfi, h.idr, h.started, h.widened⟩ trivial
        fun hnote => nomatch hnote
  | mark => exact reportCase_of_marking _ s Iff.rfl fun hnote => nomatch hnote
  | note =>
      let c : LossReport := ⟨.note, flags, env, a, b⟩
      change ReportCase c s
        (rtpReassemblyNoteFrameLoss env (c.found s) a b)
      rw [rtpReassemblyNoteFrameLoss]
      split_ifs with hidr hbroken
      · exact .noted ⟨hidr, hidr, rfl, Iff.rfl, rfl⟩ rfl
      · have h := startIdrWait_intoIdr env (c.found s) (lossStart a b) b
        rw [lossStart_lossStart] at h
        refine .alone ⟨h.rfi, h.idr, h.started, h.widened⟩ ?_ fun _ => hidr
        exact Or.inl ⟨by simpa [LossReport.found] using hbroken.1, hbroken.2⟩
      · rw [markWaiting_lossStart]
        refine reportCase_of_marking c s ⟨?_, Or.inr⟩ fun _ => hidr
        rintro (⟨hrefs, hgood⟩ | hlong)
        · exact absurd ⟨by simpa [LossReport.found] using hrefs, hgood⟩ hbroken
        · exact hlong

/-! ## The ledger -/

/-- The state, and the ranges reported since each wait began. -/
structure LossLedger where
  state : Depacketizer
  sinceRfi : List Window
  sinceIdr : List Window

namespace LossLedger

def start (s : Depacketizer) : LossLedger := ⟨s, [], []⟩

def report (l : LossLedger) (c : LossReport) : LossLedger where
  state := c.run l.state
  sinceRfi :=
    (if l.state.waits.waitingForRefInvalFrame then l.sinceRfi else []) ++
      [c.range]
  sinceIdr :=
    (if l.state.waits.waitingForIdrFrame then l.sinceIdr
      else if l.state.waits.waitingForRefInvalFrame then l.sinceRfi
      else []) ++ [c.range]

def run (l : LossLedger) (cs : List LossReport) : LossLedger :=
  cs.foldl report l

theorem run_append_singleton (l : LossLedger) (cs : List LossReport)
    (c : LossReport) : l.run (cs ++ [c]) = (l.run cs).report c := by
  simp [run]

end LossLedger

/-- The window of each wait that is on covers all ranges reported since the wait
began. -/
structure WindowsCover (base : UInt32) (l : LossLedger) : Prop where
  rfi : RfiOn l.state → ∀ r ∈ l.sinceRfi, l.state.rfiWindow.Covers base r
  idr : IdrOn l.state → ∀ r ∈ l.sinceIdr, l.state.idrWindow.Covers base r

/-- What keeps the windows: an IDR wait that takes over from an RFI wait with the
range of the report alone has the RFI window in it, and while both waits are on
or will be, a report that reaches one of them is in the window of the other. -/
structure KeepsWindows (base : UInt32) (s : Depacketizer) (c : LossReport) :
    Prop where
  takesOver : ¬IdrOn s → RfiOn s → c.StartsIdrAlone →
    c.range.Covers base s.rfiWindow
  beside : IdrOn s → c.kind = .mark → ¬c.TooLong c.range →
    (RfiOn s → ¬c.TooLong (s.rfiWindow.widen c.range)) →
    s.idrWindow.Covers base c.range
  noted : IdrOn s → RfiOn s → c.kind = .note →
    s.rfiWindow.Covers base c.range

/-- The RFI window is the hull of what was reported since; the IDR window covers
it. -/
structure LedgerInv (base : UInt32) (l : LossLedger) : Prop where
  rfi : RfiOn l.state → l.state.rfiWindow.IsHull base l.sinceRfi
  idrWithin : IdrOn l.state → l.state.idrWindow.Within base
  idr : IdrOn l.state → ∀ r ∈ l.sinceIdr, l.state.idrWindow.Covers base r

theorem LedgerInv.windowsCover {l : LossLedger} (h : LedgerInv base l) :
    WindowsCover base l :=
  ⟨fun hrfi => (h.rfi hrfi).covers, h.idr⟩

/-! ## One report -/

theorem covers_snoc {w r : Window} {rs : List Window}
    (h : ∀ v ∈ rs, w.Covers base v) (hr : w.Covers base r) :
    ∀ v ∈ rs ++ [r], w.Covers base v := by
  intro v hv
  rcases List.mem_append.mp hv with hold | hnew
  · exact h v hold
  · rw [List.mem_singleton.mp hnew]
    exact hr

theorem covers_widen_snoc {w r : Window} {rs : List Window}
    (h : ∀ v ∈ rs, w.Covers base v) (hw : w.Within base)
    (hr : r.Within base) : ∀ v ∈ rs ++ [r], (w.widen r).Covers base v :=
  covers_snoc (fun v hv => (Window.widen_covers_window hw hr).trans (h v hv))
    (Window.widen_covers_range hw hr)

/-- An IDR wait that is started or widened with a range `q` covers everything
reported if `q` covers the report, and the RFI window where there was one. -/
theorem ledgerInv_of_intoIdr {l : LossLedger} (h : LedgerInv base l)
    {c : LossReport} {q : Window} (hq : q.Within base)
    (hinto : IntoIdr l.state (c.run l.state) q)
    (hrange : q.Covers base c.range)
    (hwindow : ¬IdrOn l.state → RfiOn l.state →
      q.Covers base l.state.rfiWindow) :
    LedgerInv base (l.report c) := by
  constructor
  · exact fun hrfi => absurd hrfi hinto.rfi
  · intro _
    by_cases hidr : IdrOn l.state
    · rw [LossLedger.report, hinto.widened hidr]
      exact (h.idrWithin hidr).widen hq
    · rw [LossLedger.report, hinto.started hidr]
      exact hq
  · intro _
    by_cases hidr : IdrOn l.state
    · rw [LossLedger.report, hinto.widened hidr, if_pos hidr]
      have hw := h.idrWithin hidr
      refine covers_snoc (fun v hv => ?_)
        ((Window.widen_covers_range hw hq).trans hrange)
      exact (Window.widen_covers_window hw hq).trans (h.idr hidr v hv)
    · rw [LossLedger.report, hinto.started hidr, if_neg hidr]
      refine covers_snoc ?_ hrange
      split
      · rename_i hrfi
        exact (h.rfi hrfi).forall_covers_iff.mpr (hwindow hidr hrfi)
      · exact fun v hv => absurd hv (by simp)

/-- A report that keeps the windows keeps the invariant. -/
theorem ledgerInv_report {l : LossLedger} (h : LedgerInv base l)
    {c : LossReport} (hc : c.range.Within base)
    (hkeeps : KeepsWindows base l.state c) : LedgerInv base (l.report c) := by
  cases reportCase c l.state with
  | alone hinto hstarts hfree =>
      exact ledgerInv_of_intoIdr h hc hinto (Window.Covers.refl base _)
        fun hidr hrfi => hkeeps.takesOver hidr hrfi hstarts
  | escalated hinto hrfi hshort hlong hfree =>
      have hhull := (h.rfi hrfi).within
      exact ledgerInv_of_intoIdr h (hhull.widen hc) hinto
        (Window.widen_covers_range hhull hc)
        fun _ _ => Window.widen_covers_window hhull hc
  | marked hinto hshort hfits hfree =>
      constructor
      · intro _
        by_cases hrfi : RfiOn l.state
        · rw [LossLedger.report, hinto.widened hrfi, if_pos hrfi]
          exact (h.rfi hrfi).widen hc
        · rw [LossLedger.report, hinto.started hrfi, if_neg hrfi]
          exact Window.IsHull.single hc
      · intro hidr
        rw [LossLedger.report, hinto.idrWindow]
        exact h.idrWithin (hinto.idr.mp hidr)
      · intro hidr
        have hidr := hinto.idr.mp hidr
        rw [LossLedger.report, hinto.idrWindow, if_pos hidr]
        refine covers_snoc (h.idr hidr) ?_
        have hkind : c.kind = .mark := by
          cases hkind : c.kind with
          | note => exact absurd hidr (hfree hkind)
          | mark => rfl
          | start => exact absurd (by simp [LossReport.StartsIdrAlone, hkind]) hshort
        refine hkeeps.beside hidr hkind ?_ hfits
        simpa [LossReport.StartsIdrAlone, hkind] using hshort
  | noted hinto hkind =>
      constructor
      · intro hrfi
        have hrfi := hinto.rfi.mp hrfi
        rw [LossLedger.report, hinto.rfiWindow, if_pos hrfi]
        have hhull := h.rfi hrfi
        exact hhull.snoc (hkeeps.noted hinto.waiting hrfi hkind)
      · intro _
        rw [LossLedger.report, hinto.idrWindow]
        exact (h.idrWithin hinto.waiting).widen hc
      · intro _
        rw [LossLedger.report, hinto.idrWindow, if_pos hinto.waiting]
        exact covers_widen_snoc (h.idr hinto.waiting)
          (h.idrWithin hinto.waiting) hc

/-- If the windows cover everything after a report, it kept them. -/
theorem keepsWindows_of_windowsCover {l : LossLedger} (h : LedgerInv base l)
    {c : LossReport} (hcover : WindowsCover base (l.report c)) :
    KeepsWindows base l.state c := by
  have hlast : ∀ {w : Window} {rs : List Window},
      (∀ v ∈ rs ++ [c.range], w.Covers base v) → w.Covers base c.range :=
    fun h => h c.range (by simp)
  cases reportCase c l.state with
  | alone hinto hstarts hfree =>
      constructor
      · intro hidr hrfi _
        have hafter := hcover.idr hinto.idr
        rw [LossLedger.report, hinto.started hidr, if_neg hidr, if_pos hrfi]
          at hafter
        exact (h.rfi hrfi).forall_covers_iff.mp
          fun v hv => hafter v (List.mem_append_left _ hv)
      · intro _ hkind hshort
        exact absurd (by simpa [LossReport.StartsIdrAlone, hkind] using hstarts)
          hshort
      · exact fun hidr _ hkind => absurd hidr (hfree hkind)
  | escalated hinto hrfi hshort hlong hfree =>
      constructor
      · exact fun _ _ hstarts => absurd hstarts hshort
      · exact fun _ _ _ hfits => absurd hlong (hfits hrfi)
      · exact fun hidr _ hkind => absurd hidr (hfree hkind)
  | marked hinto hshort hfits hfree =>
      constructor
      · exact fun _ _ hstarts => absurd hstarts hshort
      · intro hidr _ _ _
        have hafter := hcover.idr (hinto.idr.mpr hidr)
        rw [LossLedger.report, hinto.idrWindow] at hafter
        exact hlast hafter
      · exact fun hidr _ hkind => absurd hidr (hfree hkind)
  | noted hinto hkind =>
      constructor
      · exact fun hidr => absurd hinto.waiting hidr
      · intro _ hmark
        rw [hkind] at hmark
        exact ReportKind.noConfusion hmark
      · intro _ hrfi _
        have hafter := hcover.rfi (hinto.rfi.mpr hrfi)
        rw [LossLedger.report, hinto.rfiWindow] at hafter
        exact hlast hafter

/-! ## Runs -/

theorem ledgerInv_start (hrfi : ¬RfiOn s) (hidr : ¬IdrOn s) :
    LedgerInv base (LossLedger.start s) :=
  ⟨fun h => absurd h hrfi, fun h => absurd h hidr, fun h => absurd h hidr⟩

theorem ledgerInv_run (hrfi : ¬RfiOn s) (hidr : ¬IdrOn s)
    {cs : List LossReport} (hspan : ∀ c ∈ cs, c.range.Within base)
    (hkeeps : ∀ before c after, cs = before ++ c :: after →
      LedgerInv base ((LossLedger.start s).run before) →
      KeepsWindows base ((LossLedger.start s).run before).state c)
    (before after : List LossReport) (hcs : cs = before ++ after) :
    LedgerInv base ((LossLedger.start s).run before) := by
  induction before using List.reverseRecOn generalizing after with
  | nil => exact ledgerInv_start hrfi hidr
  | append_singleton before c ih =>
      have hcs : cs = before ++ c :: after := by simpa using hcs
      have hbefore := ih (c :: after) hcs
      rw [LossLedger.run_append_singleton]
      exact ledgerInv_report hbefore (hspan c (by simp [hcs]))
        (hkeeps before c after hcs hbefore)

/-- In a run of reports from a state without waits, all frame numbers of which
are less than `0x80000000` after some base, the windows always cover what was
reported if and only if every report keeps them. -/
theorem windows_cover_iff (hrfi : ¬RfiOn s) (hidr : ¬IdrOn s)
    (cs : List LossReport) (hspan : ∀ c ∈ cs, c.range.Within base) :
    (∀ before after, cs = before ++ after →
      WindowsCover base ((LossLedger.start s).run before)) ↔
    ∀ before c after, cs = before ++ c :: after →
      KeepsWindows base ((LossLedger.start s).run before).state c := by
  constructor
  · intro h
    have hkeeps : ∀ before c after, cs = before ++ c :: after →
        LedgerInv base ((LossLedger.start s).run before) →
        KeepsWindows base ((LossLedger.start s).run before).state c := by
      intro before c after hcs hbefore
      have hafter := h (before ++ [c]) after (by simp [hcs])
      rw [LossLedger.run_append_singleton] at hafter
      exact keepsWindows_of_windowsCover hbefore hafter
    exact fun before c after hcs => hkeeps before c after hcs
      (ledgerInv_run hrfi hidr hspan hkeeps before (c :: after) hcs)
  · exact fun h before after hcs => (ledgerInv_run hrfi hidr hspan
      (fun before c after hcs _ => h before c after hcs) before after
      hcs).windowsCover

/-- Frame 5 is decoded, with an RFI window of six frames. -/
def lossOf (startFrame endFrame : UInt32) : LossReport :=
  ⟨.note, ⟨false, true, false, true, false, 5⟩,
    ⟨⟨0, false, false, 30, 480, 272⟩, 1, false, true, true⟩,
    startFrame, endFrame⟩

theorem windows_cover_iff_lossOf :
    (∀ before after, [lossOf 10 12, lossOf 13 13] = before ++ after →
      WindowsCover 0 ((LossLedger.start .initial).run before)) ↔
    ∀ before c after, [lossOf 10 12, lossOf 13 13] = before ++ c :: after →
      KeepsWindows 0 ((LossLedger.start .initial).run before).state c :=
  windows_cover_iff (by decide) (by decide) _ (by
    intro c hc
    obtain rfl | rfl : c = lossOf 10 12 ∨ c = _ := by simpa using hc
    · exact ⟨by decide, by decide⟩
    · exact ⟨by decide, by decide⟩)

/-- The loss of frames 20 to 40 starts an IDR wait that has forgotten the loss of
frames 10 to 12. -/
theorem windows_forget_short_loss :
    ¬∀ (base : UInt32) (cs : List LossReport),
      (∀ c ∈ cs, c.range.Within base) →
        WindowsCover base ((LossLedger.start .initial).run cs) := by
  intro h
  have hcover := h 0 [lossOf 10 12, lossOf 20 40] (by
    intro c hc
    obtain rfl | rfl : c = lossOf 10 12 ∨ c = _ := by simpa using hc
    · exact ⟨by decide, by decide⟩
    · exact ⟨by decide, by decide⟩)
  have hfirst := (hcover.idr (by decide) ⟨10, 12⟩ (by decide)).first
  exact absurd hfirst (by decide)

end MoonlightPsp.Reassembly
