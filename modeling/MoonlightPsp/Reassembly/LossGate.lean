import MoonlightPsp.Reassembly.Gate
import Mathlib.Data.List.Induction

/-!
# The waits after a loss

The depacketizer ends its wait when the first packet of a repairing frame comes
in.  What keeps the gate closed from then on is the frame itself while it is
being assembled, and the restored wait or the corrupt references if it is lost.
-/

namespace MoonlightPsp.Reassembly

variable {past : List Effect} {s s' : Depacketizer}

/-! ## The start of a packet -/

theorem switchFrame_calm (s : Depacketizer) (p : VideoPacket) :
    Calm s (switchFrame s p) := by
  unfold switchFrame
  split
  · have hreport : ∀ s, Calm s (s.emit .reportFrameDrop) :=
      fun s => Calm.emit s (by trivial)
    split_ifs
    · have h := (Calm.emit s (e := .requestIdr) trivial).trans (hreport _)
      exact ⟨h.1, h.2, h.3, h.4, h.5, h.6⟩
    · have h := (Calm.emit s (e := .requestRfi s.asm.currentFrameId
        s.asm.currentFrameId) trivial).trans (hreport _)
      exact ⟨h.1, h.2, h.3, h.4, h.5, h.6⟩
    · have h := Calm.refl s
      exact ⟨h.1, h.2, h.3, h.4, h.5, h.6⟩
  · exact Calm.refl s

theorem trackSeq_calm (s : Depacketizer) (p : VideoPacket) :
    Calm s (trackSeq s p) := by
  unfold trackSeq
  split
  · have h := Calm.emit s (e := .packetLoss) trivial
    exact ⟨h.1, h.2, h.3, h.4, h.5, h.6⟩
  · have h := Calm.refl s
    exact ⟨h.1, h.2, h.3, h.4, h.5, h.6⟩

theorem noteTransport_tightens (env : Env) (s : Depacketizer)
    (t : Transport) (p : VideoPacket) :
    Tightens s (noteTransport env s t p) := by
  unfold noteTransport
  extract_lets start s₁
  have h₁ : Tightens s s₁ := by
    unfold s₁
    split
    · exact (Tightens.markWaitingForRefInval env s _ _).1.emit (by trivial)
    · exact Tightens.refl s
  split
  · exact ⟨h₁.1, h₁.2, h₁.3, h₁.4, h₁.5⟩
  · exact h₁

/-- A packet of the current frame starts no wait on account of the transport. -/
theorem noteTransport_calm (env : Env) (s : Depacketizer) (p : VideoPacket)
    (hsame : p.frameId = s.asm.currentFrameId) :
    Calm s (noteTransport env s (transportOf s.asm p) p) := by
  unfold noteTransport
  have hno : (transportOf s.asm p).seqGapAtFrameBoundary = false := by
    simp [transportOf, hsame]
  simp only [hno, Bool.false_eq_true, false_and, and_false, if_false]
  have h := Calm.refl s
  split
  · exact ⟨h.1, h.2, h.3, h.4, h.5, h.6⟩
  · exact h

/-- The state once a packet is attributed to its frame. -/
def tracked (env : Env) (s : Depacketizer) (p : VideoPacket) : Depacketizer :=
  trackSeq (switchFrame (noteTransport env s (transportOf s.asm p) p) p) p

theorem tracked_only (env : Env) (s : Depacketizer) (p : VideoPacket) :
    OnlyAssembly (s.asm.track p) s (tracked env s p) :=
  track_spec env s (transportOf s.asm p) p

theorem tracked_tightens (env : Env) (s : Depacketizer) (p : VideoPacket) :
    Tightens s (tracked env s p) :=
  (noteTransport_tightens env s _ p).trans
    ((switchFrame_calm _ p).trans (trackSeq_calm _ p)).tightens

theorem tracked_calm (env : Env) (s : Depacketizer) (p : VideoPacket)
    (hsame : p.frameId = s.asm.currentFrameId) :
    Calm s (tracked env s p) :=
  (noteTransport_calm env s p hsame).trans
    ((switchFrame_calm _ p).trans (trackSeq_calm _ p))

/-- An accepted repairing frame is being assembled, and the references are taken
as intact. -/
def Exposed (tr : List Effect) (s : Depacketizer) : Prop :=
  s.asm.reassembling = true ∧ s.flags.refsCorrupted = false ∧
    OpenedAsRecovery tr

theorem GateInv.tracked (env : Env) {p : VideoPacket}
    (h : GateInv (soFar past s) s)
    (hkeep : Exposed (soFar past s) s → p.frameId = s.asm.currentFrameId) :
    GateInv (soFar past (tracked env s p)) (Reassembly.tracked env s p) := by
  have hasm := (tracked_only env s p).asm
  by_cases hsame : p.frameId = s.asm.currentFrameId
  · have htrack := s.asm.track_of_same p hsame
    apply h.calm (tracked_calm env s p hsame)
    · rw [hasm, htrack.reassembling]
    · rw [hasm, htrack.sawFirstSof]
    · rw [hasm, Assembly.track_currentFrameId, hsame]
  · have hidle : (Reassembly.tracked env s p).asm.reassembling = false := by
      rw [hasm]
      exact (s.asm.track_of_other p hsame).1
    have htight := tracked_tightens env s p
    apply gateInv_of_barred ((htight.soFar past).2.2 h.gated) hidle
    have hbarred : Barred (soFar past s) s := by
      intro w hw
      cases h.guarded w hw with
      | waiting on _ => exact Or.inl on
      | corrupt refs _ => exact Or.inr refs
      | recovering ongoing rests =>
          -- the frame would be exposed, and is given up for another one
          apply Or.inr
          by_contra hrefs
          exact hsame (hkeep ⟨ongoing, by simpa using hrefs, rests.accepted⟩)
    exact hbarred.tighten htight

/-! ## The first packet -/

/-- A frame has passed the waits: it repairs whatever is pending, or an RFI wait
has timed out. -/
theorem gateInv_opened {p : VideoPacket} {kind : FrameKind}
    {passage : Passage} (hgated : Gated (soFar past s))
    (hopen : s.asm.reassembling = true) (hsaw : s.asm.sawFirstSof = true)
    (hcurrent : s.asm.currentFrameId = p.frameId)
    (hpass : ∀ w, gateAfter w (soFar past s) ≠ .clear →
      passage = .rfiTimeout ∨
      ((passage = .idrRecovery ∨ passage = .rfiRecovery) ∧
        kind.repairs w = true ∧
        (w = .idr → s.waits.currentFrameIdrRecovery = true))) :
    GateInv (soFar past (s.emit (.opened p.frameId kind passage)))
      (s.emit (.opened p.frameId kind passage)) := by
  have hsplit : soFar past (s.emit (.opened p.frameId kind passage)) =
      soFar past s ++ [.opened p.frameId kind passage] := by
    simp [soFar, Depacketizer.emit]
  have hlast : lastOpened (soFar past s ++ [.opened p.frameId kind passage]) =
      some (p.frameId, kind, passage) := lastOpened_append _ _
  rw [hsplit]
  refine ⟨hgated.append (by simp), ?_, ?_⟩
  · intro _
    refine ⟨hsaw, kind, passage, ?_⟩
    rw [hlast]
    exact congrArg (fun f => some (f, kind, passage)) hcurrent.symm
  · intro w hw
    have hgate : gateAfter w
        (soFar past s ++ [.opened p.frameId kind passage]) =
        (gateAfter w (soFar past s)).open w p.frameId kind passage :=
      gateAfter_append _ _ _
    have hbefore : gateAfter w (soFar past s) ≠ .clear := by
      intro hclear
      rw [hgate, hclear] at hw
      exact hw rfl
    rcases hpass w hbefore with rfl | ⟨haccepted, hrepairs, hsync⟩
    · rw [hgate] at hw
      cases hg : gateAfter w (soFar past s) <;>
        simp [hg, Gate.open] at hw
    · refine Guarded.recovering (s := s.emit _) hopen ?_
      refine ⟨?_, ⟨_, _, _, hlast, hrepairs⟩, ⟨_, _, _, hlast, haccepted⟩,
        hsync⟩
      rw [hgate, show (s.emit _).asm.currentFrameId = p.frameId from hcurrent]
      cases hg : gateAfter w (soFar past s) with
      | clear => exact (hbefore hg).elim
      | pending =>
          rcases haccepted with rfl | rfl <;> simp [Gate.open, hrepairs]
      | recovering f =>
          rcases haccepted with rfl | rfl <;> simp [Gate.open, hrepairs]

/-- What is left of the state behind the gate besides the gates themselves. -/
structure Keeps (s s' : Depacketizer) : Prop where
  lastGood : s'.flags.lastGoodFrame = s.flags.lastGoodFrame
  refs : s.flags.refsCorrupted = true → s'.flags.refsCorrupted = true

/-- A frame start behind the waits, for `s'` the state after them. -/
structure PassedGate (past : List Effect) (s : Depacketizer)
    (kind : FrameKind) (passage : Passage) (s' : Depacketizer) : Prop where
  keeps : Keeps s s'
  gated : Gated (soFar past s')
  pass : ∀ w, gateAfter w (soFar past s') ≠ .clear →
    passage = .rfiTimeout ∨
    ((passage = .idrRecovery ∨ passage = .rfiRecovery) ∧
      kind.repairs w = true ∧
      (w = .idr → s'.waits.currentFrameIdrRecovery = true))

/-- What is known at a frame start before the waits are looked at. -/
structure AtGate (past : List Effect) (s : Depacketizer) : Prop where
  gated : Gated (soFar past s)
  waiting : ∀ w, gateAfter w (soFar past s) ≠ .clear → Waiting w s
  refs : s.flags.refsCorrupted = true → s.waits.waitingForIdrFrame = true

theorem repeatIdrRequests_calm (env : Env) (s : Depacketizer) :
    Calm s (repeatIdrRequests env s) := by
  unfold repeatIdrRequests
  extract_lets drops elapsed maxDrops s₁
  have h₁ : Calm s s₁ := by
    unfold s₁
    split
    · exact Calm.emit s (by trivial)
    · exact Calm.refl s
  split_ifs
  · exact h₁.trans (Calm.emit s₁ (by trivial))
  · exact h₁
  · exact h₁.trans (Calm.emit s₁ (by trivial))
  · exact h₁.trans (Calm.emit s₁ (by trivial))
  · exact h₁

theorem Tightens.holdFrame (h : Tightens s s') :
    Tightens s (holdFrame s') :=
  ⟨h.1, h.2, h.3, h.4, h.5⟩

/-- The outcome of the waits at a frame start. -/
inductive GateVerdict (past : List Effect) (s : Depacketizer)
    (kind : FrameKind) : Option Passage × Depacketizer → Prop where
  | passed {passage : Passage} {s' : Depacketizer}
      (h : PassedGate past s kind passage s') :
      GateVerdict past s kind (some passage, s')
  | held {s' : Depacketizer} (h : Tightens s s') :
      GateVerdict past s kind (none, s')

theorem gateIdr_verdict (env : Env) {kind : FrameKind}
    (h : AtGate past s)
    (hsync : kind.isSync = true → kind.isRefRecovery = true) :
    GateVerdict past s kind (gateIdr env s kind) := by
  unfold gateIdr
  split
  · rename_i hkind
    apply GateVerdict.passed
    refine ⟨⟨rfl, id⟩, h.gated, ?_⟩
    intro w _
    refine Or.inr ⟨Or.inl rfl, ?_, fun _ => rfl⟩
    cases w with
    | rfi => exact hsync hkind
    | idr => exact hkind
  · apply GateVerdict.held
    apply Tightens.holdFrame
    have hcount : Calm s { s with
        waits.idrWaitDropCount := s.waits.idrWaitDropCount + 1 } :=
      ⟨rfl, rfl, rfl, rfl, rfl, (Calm.refl s).out⟩
    exact (hcount.trans (repeatIdrRequests_calm env _)).tightens

theorem holdForRfi_verdict (env : Env) (past : List Effect)
    (kind : FrameKind) (hgated : Gated (soFar past s))
    (hrefs : s.flags.refsCorrupted = false) :
    GateVerdict past s kind (holdForRfi env s) := by
  have hcalm : ∀ a b, Calm s (s.emit (.requestRfi a b)) :=
    fun a b => Calm.emit s (by trivial)
  unfold holdForRfi
  extract_lets refStart refEnd reqEnd
  split_ifs
  · exact .held (Tightens.startIdrWait env s _ _).1.holdFrame
  · exact .held (Tightens.startIdrWait env s _ _).1.holdFrame
  · apply GateVerdict.passed
    refine ⟨⟨rfl, by simp [hrefs]⟩, ?_, fun w _ => Or.inl rfl⟩
    exact ((hcalm refStart reqEnd).tightens.soFar past).2.2 hgated
  · exact .held (hcalm refStart reqEnd).tightens.holdFrame
  · exact .held (Tightens.refl s).holdFrame

theorem gateRfi_verdict (env : Env) {p : VideoPacket} {kind : FrameKind}
    (h : AtGate past s) (hidr : s.waits.waitingForIdrFrame = false) :
    GateVerdict past s kind (gateRfi env s p kind) := by
  have hrefs : s.flags.refsCorrupted = false := by
    by_contra hrefs
    rw [h.refs (by simpa using hrefs)] at hidr
    cases hidr
  unfold gateRfi
  split
  · rename_i hkind
    apply GateVerdict.passed
    refine ⟨⟨rfl, by simp [hrefs]⟩, h.gated, ?_⟩
    intro w hw
    -- an IDR gate would be waiting for an IDR frame
    rcases h.waiting w hw with hon | ⟨rfl, -⟩
    · rw [hidr] at hon
      cases hon
    · exact Or.inr ⟨Or.inr rfl, hkind, fun hw => by cases hw⟩
  · have hcount : Calm s (countRfiDrop s p) :=
      ⟨rfl, rfl, rfl, rfl, rfl, (Calm.refl s).out⟩
    have hverdict := holdForRfi_verdict (s := countRfiDrop s p) env past kind
      h.gated hrefs
    generalize holdForRfi env (countRfiDrop s p) = outcome at hverdict ⊢
    cases hverdict with
    | passed hpassed =>
        exact .passed ⟨⟨hpassed.keeps.lastGood, hpassed.keeps.refs⟩,
          hpassed.gated, hpassed.pass⟩
    | held ht => exact .held (hcount.tightens.trans ht)

theorem gateFrame_verdict (env : Env) {p : VideoPacket} {kind : FrameKind}
    (h : AtGate past s)
    (hsync : kind.isSync = true → kind.isRefRecovery = true) :
    GateVerdict past s kind (gateFrame env s p kind) := by
  unfold gateFrame
  split
  · exact gateIdr_verdict env h hsync
  rename_i hidr
  split
  · exact gateRfi_verdict env h (by simpa using hidr)
  · rename_i hrfi
    apply GateVerdict.passed
    refine ⟨⟨rfl, id⟩, h.gated, ?_⟩
    intro w hw
    rcases h.waiting w hw with hon | ⟨-, hon⟩
    · exact (hidr hon).elim
    · exact (hrfi hon).elim

theorem startFrame_calm (env : Env) (s : Depacketizer)
    (payload : List UInt8) :
    Keeps s (startFrame env s payload) ∧
      Tightens (rtpClearCurrentIdrRecovery s) (startFrame env s payload) := by
  unfold startFrame
  simp only
  split
  · exact ⟨⟨rfl, id⟩, fun _ => id, id, rfl, rfl, (Tightens.refl s).out⟩
  · exact ⟨⟨rfl, id⟩, fun _ => id, id, rfl, rfl, (Tightens.refl s).out⟩

theorem frameKind_sync (payload : List UInt8)
    (h : (frameKind payload).isSync = true) :
    (frameKind payload).isRefRecovery = true := by
  simp only [frameKind, decide_eq_true_eq] at h ⊢
  exact Or.inl h

/-- The first packet of a frame while no frame is being assembled. -/
theorem firstPacket_gate (env : Env) {t : Transport} {p : VideoPacket}
    (h : GateInv (soFar past s) s) (hidle : s.asm.reassembling = false)
    (hcurrent : s.asm.currentFrameId = p.frameId) :
    GateInv (soFar past (firstPacket env s t p).2) (firstPacket env s t p).2 ∧
      ((firstPacket env s t p).1.isSome →
        Keeps s (firstPacket env s t p).2) := by
  unfold firstPacket
  extract_lets kind s₁ s₂ s₃
  have h₁ := startFrame_calm env s p.payload
  have hbarred : Barred (soFar past s₁) s₁ :=
    Barred.tighten (s := rtpClearCurrentIdrRecovery s) (h.barred hidle) h₁.2
  have h₂ : Tightens s₁ s₂ := Tightens.noteFrameGap env s₁ t p kind
  obtain ⟨h₃, hrefs⟩ := Tightens.noteCorruptRefs env s₂ p
  have hgated : Gated (soFar past s₃) := by
    have hstart := (h₁.2.soFar past).2.2 h.gated
    exact ((h₂.trans h₃).soFar past).2.2 hstart
  have hgate : AtGate past s₃ := by
    refine ⟨hgated, fun w hw => ?_, hrefs⟩
    rcases hbarred.tighten (h₂.trans h₃) w hw with hon | hcorrupt
    · exact hon
    · exact Or.inl (hrefs hcorrupt)
  have hverdict := gateFrame_verdict (p := p) env hgate
    (frameKind_sync p.payload)
  have hspec := gateFrame_spec env s₃ p kind
  have hasm : s₃.asm = s.asm.start :=
    ((startFrame_spec env s p.payload).same
      (((SameAssembly.refl s₁).noteFrameGap env t p kind).noteCorruptRefs
        env p)).asm
  rw [show frameKind p.payload = kind from rfl] at hverdict
  generalize gateFrame env s₃ p kind = outcome at hverdict hspec ⊢
  cases hverdict with
  | held htight =>
      rename_i s₄
      cases hspec with
      | held hheld _ =>
          refine ⟨?_, fun hsome => by simp at hsome⟩
          have hidle' : s₄.asm.reassembling = false := by
            rw [hheld]
            rfl
          apply gateInv_of_barred ((htight.soFar past).2.2 hgated) hidle'
          exact (hbarred.tighten (h₂.trans h₃)).tighten htight
  | passed hpassed =>
      cases hspec with
      | passed passage same =>
          have hkeeps : Keeps s _ :=
            ⟨hpassed.keeps.lastGood.trans
              (((h₂.trans h₃).lastGood).trans h₁.1.lastGood),
              fun hs => hpassed.keeps.refs
                ((h₂.trans h₃).refs (h₁.1.refs hs))⟩
          refine ⟨gateInv_opened hpassed.gated ?_ ?_ ?_ hpassed.pass,
            fun _ => ⟨hkeeps.lastGood, hkeeps.refs⟩⟩
          · rw [same.asm, hasm]
            rfl
          · rw [same.asm, hasm]
            rfl
          · rw [same.asm, hasm]
            exact hcurrent

/-! ## The end of a frame -/

/-- A frame that ends gapped leaves the wait on, or the references corrupt. -/
theorem recoverGap_restores (env : Env) (s : Depacketizer)
    (frameId : UInt32) :
    Tightens s (recoverGap env s frameId) ∧
      ∀ w, (w = .idr → s.waits.currentFrameIdrRecovery = true) →
        (s.flags.lastGoodFrame = 0 → s.flags.refsCorrupted = true) →
        Waiting w (recoverGap env s frameId) ∨
          (recoverGap env s frameId).flags.refsCorrupted = true := by
  unfold recoverGap
  split
  · rename_i hgood
    refine ⟨?_, fun w _ hrefs => Or.inr (hrefs hgood)⟩
    have h := (Calm.emit s (e := .requestIdrForce) trivial).tightens
    exact ⟨h.1, h.2, h.3, h.4, h.5⟩
  split
  · obtain ⟨h, hidr⟩ := Tightens.startIdrWait env s
      (if s.waits.currentIdrLossStart ≠ 0 then s.waits.currentIdrLossStart
        else s.flags.lastGoodFrame + 1) frameId
    exact ⟨h, fun w _ _ => Or.inl (Or.inl hidr)⟩
  · rename_i hrecovery
    obtain ⟨h, hrfi⟩ := Tightens.markWaitingForRefInval env s
      (s.flags.lastGoodFrame + 1) frameId
    have hemit := h.emit (e := .requestRfi (s.flags.lastGoodFrame + 1)
      frameId) trivial
    have hwaits : ∀ s, Tightens s (escalateGaps s) := by
      intro s
      unfold escalateGaps
      split
      · exact ⟨fun _ => id, fun _ => rfl, rfl, rfl, (Tightens.refl s).out⟩
      · exact Tightens.refl s
    refine ⟨hemit.trans (hwaits _), fun w hsync _ => ?_⟩
    cases w with
    | idr => exact (hrecovery (hsync rfl)).elim
    | rfi => exact Or.inl ((hwaits _).waiting .rfi hrfi)

/-- The frame that is being assembled may end with a gap that nothing vouches
for, before anything was decoded, only if the references are corrupt anyway. -/
def EndsSafely (tr : List Effect) (s : Depacketizer) : Prop :=
  OpenedAsRecovery tr → s.asm.frameHadGaps = true →
    s.flags.fecRecoveryClean = false → s.flags.lastGoodFrame = 0 →
    s.flags.refsCorrupted = true

/-- A frame that ends with a gap is not handed over. -/
theorem finishGapped_gate (env : Env) {frameId : UInt32}
    (h : GateInv (soFar past s) s) (hsafe : EndsSafely (soFar past s) s)
    (hgaps : s.asm.frameHadGaps = true) (hclean : s.flags.fecRecoveryClean = false) :
    Gated (soFar past (forgetFrame (noteGappedFrame env s frameId))) ∧
      Barred (soFar past (forgetFrame (noteGappedFrame env s frameId)))
        (forgetFrame (noteGappedFrame env s frameId)) := by
  have hcount : Calm s (countGap s) :=
    ⟨rfl, rfl, rfl, rfl, rfl, (Calm.refl s).out⟩
  obtain ⟨hrecover, hrestores⟩ := recoverGap_restores env (countGap s)
    frameId
  have htight : Tightens s (noteGappedFrame env s frameId) :=
    (hcount.tightens.trans hrecover).emit (by trivial)
  have hgated := (htight.soFar past).2.2 h.gated
  refine ⟨hgated, fun w hw => ?_⟩
  rcases (htight.soFar past).1 w with hgate | hon
  · have hbefore : gateAfter w (soFar past s) ≠ .clear := by
      rw [← hgate]
      exact hw
    cases h.guarded w hbefore with
    | waiting on _ => exact Or.inl (htight.waiting w on)
    | corrupt refs _ => exact Or.inr (htight.refs refs)
    | recovering _ rests =>
        exact hrestores w rests.sync (hsafe rests.accepted hgaps hclean)
  · exact Or.inl hon

/-- What is handed over repairs the loss that keeps a gate closed. -/
theorem GateInv.openedRepairs (h : GateInv (soFar past s) s)
    (hopen : s.asm.reassembling = true) {w : WaitKind}
    (hw : gateAfter w (soFar past s) ≠ .clear) : OpenedRepairs w (soFar past s) := by
  cases h.guarded w hw with
  | waiting _ frame => exact frame hopen
  | corrupt _ idle => simp [hopen] at idle
  | recovering _ rests => exact rests.repairs

/-- A frame without a gap is handed over, and the waits stay as they are. -/
theorem deliverIntact_spec (env : Env) (s : Depacketizer) (frameId : UInt32) :
    ∃ buffer, soFar past (deliverFrame env (forgetFrame (noteIntactFrame s)) frameId) =
        soFar past s ++ [.deliver frameId buffer] ∧
      ∀ w, Waiting w s → Waiting w
        (deliverFrame env (forgetFrame (noteIntactFrame s)) frameId) := by
  have hintact : Calm s (noteIntactFrame s) := by
    unfold noteIntactFrame
    split
    · exact ⟨rfl, rfl, rfl, rfl, rfl, (Calm.refl s).out⟩
    · exact ⟨rfl, rfl, rfl, rfl, rfl, (Calm.refl s).out⟩
  refine ⟨(noteIntactFrame s).asm.buffer, ?_, fun w hw => ?_⟩
  · have hout : (deliverFrame env (forgetFrame (noteIntactFrame s)) frameId).out =
        s.out ++ [.deliver frameId (noteIntactFrame s).asm.buffer] := by
      unfold deliverFrame rtpAdvanceDecodedFrame noteIntactFrame
      split_ifs <;> rfl
    rw [soFar, hout, ← List.append_assoc]
    rfl
  · have hw' := (hintact.waiting_iff w).mpr hw
    unfold deliverFrame rtpAdvanceDecodedFrame
    split <;> exact hw'

/-- A frame without a gap opens the gates that it repairs. -/
theorem finishIntact_gate (env : Env) {frameId : UInt32}
    (h : GateInv (soFar past s) s) (hopen : s.asm.reassembling = true)
    (hcurrent : s.asm.currentFrameId = frameId) :
    Gated (soFar past (deliverFrame env (forgetFrame (noteIntactFrame s)) frameId)) ∧
      Barred (soFar past (deliverFrame env (forgetFrame (noteIntactFrame s)) frameId))
        (deliverFrame env (forgetFrame (noteIntactFrame s)) frameId) := by
  obtain ⟨buffer, hsplit, hwaits⟩ := @deliverIntact_spec past env s frameId
  obtain ⟨kind, passage, hlast⟩ := (h.started hopen).2
  rw [hcurrent] at hlast
  rw [hsplit]
  constructor
  · apply h.gated.deliver
    intro w hw
    obtain ⟨f, kind', passage', hlast', hkind⟩ := h.openedRepairs hopen hw
    rw [hlast] at hlast'
    obtain ⟨rfl, rfl, rfl⟩ : frameId = f ∧ kind = kind' ∧
        passage = passage' := by simpa using hlast'
    exact ⟨kind, passage, hlast, hkind⟩
  · intro w hw
    have hgate : gateAfter w (soFar past s ++ [.deliver frameId buffer]) =
        if gateAfter w (soFar past s) = .recovering frameId then .clear
        else gateAfter w (soFar past s) := gateAfter_append _ _ _
    rw [hgate] at hw
    split at hw
    · exact (hw rfl).elim
    · rename_i hother
      cases h.guarded w hw with
      | waiting on _ => exact Or.inl (hwaits w on)
      | corrupt _ idle => simp [hopen] at idle
      | recovering _ rests =>
          rw [rests.gate, hcurrent] at hother
          exact (hother rfl).elim

theorem finishFrame_gate (env : Env) {frameId : UInt32}
    (h : GateInv (soFar past s) s) (hopen : s.asm.reassembling = true)
    (hcurrent : s.asm.currentFrameId = frameId)
    (hsafe : EndsSafely (soFar past s) s) :
    Gated (soFar past (finishFrame env s frameId)) ∧
      Barred (soFar past (finishFrame env s frameId))
        (finishFrame env s frameId) := by
  unfold finishFrame
  split
  · rename_i hgapped
    rw [Bool.and_eq_true, Bool.not_eq_true'] at hgapped
    exact finishGapped_gate env h hsafe hgapped.1 hgapped.2
  · exact finishIntact_gate env h hopen hcurrent

theorem completeFrame_gate (env : Env) {frameId : UInt32}
    (h : GateInv (soFar past s) s) (hopen : s.asm.reassembling = true)
    (hbuffer : s.asm.buffer ≠ []) (hcurrent : s.asm.currentFrameId = frameId)
    (hsafe : EndsSafely (soFar past s) s) :
    GateInv (soFar past (completeFrame env s frameId))
      (completeFrame env s frameId) := by
  unfold completeFrame
  rw [if_pos ⟨List.length_pos_iff.mpr hbuffer, hopen⟩]
  by_cases hover : s.asm.frameOverflow = true
  · rw [if_pos hover]
    have hcalm : Calm s (s.emit .requestIdr) := Calm.emit s (by trivial)
    have hgated := (hcalm.tightens.soFar past).2.2 h.gated
    exact gateInv_of_barred hgated rfl fun w _ => Or.inr rfl
  · rw [if_neg hover]
    obtain ⟨hgated, hbarred⟩ := finishFrame_gate env h hopen hcurrent hsafe
    exact gateInv_of_barred hgated rfl hbarred

theorem add_buffer_ne_nil (a : Assembly) (p : VideoPacket)
    {payload : List UInt8} (hne : payload ≠ [])
    (hsize : payload.length + 4 ≤ maxAssemblySize) :
    (a.add p payload).buffer ≠ [] := by
  have happend : ∀ (a : Assembly) (data : List UInt8), data ≠ [] →
      a.buffer.length ≤ 4 → data.length + 4 ≤ maxAssemblySize →
      (a.append data).buffer ≠ [] := by
    intro a data hdata hshort hfits
    have hlen := List.length_pos_iff.mpr hdata
    unfold Assembly.append
    rw [if_neg (by omega), if_neg (by omega)]
    simp [hdata]
  have hkeeps : ∀ (a : Assembly) (data : List UInt8), a.buffer ≠ [] →
      (a.append data).buffer ≠ [] := by
    intro a data hbuffer
    unfold Assembly.append
    split_ifs <;> simp [hbuffer]
  unfold Assembly.add
  by_cases hempty : a.buffer = []
  · split
    · exact hkeeps _ _ (happend a _ (by simp) (by simp [hempty]) (by decide))
    · exact happend a payload hne (by simp [hempty]) hsize
  · split
    · exact hkeeps _ _ (hkeeps a _ hempty)
    · exact hkeeps a _ hempty

theorem appendToFrame_calm (s : Depacketizer) (data : List UInt8) :
    Calm s (appendToFrame s data) := by
  unfold appendToFrame
  split_ifs
  · exact Calm.refl s
  · exact ⟨rfl, rfl, rfl, rfl, rfl, (Calm.refl s).out⟩
  · exact ⟨rfl, rfl, rfl, rfl, rfl, (Calm.refl s).out⟩

/-- A payload added to the current frame. -/
theorem addPayload_gate (env : Env) {p : VideoPacket} {payload : List UInt8}
    (h : GateInv (soFar past s) s)
    (hcurrent : s.asm.currentFrameId = p.frameId)
    (hsize : payload.length + 4 ≤ maxAssemblySize)
    (hsafe : s.asm.reassembling = true →
      p.lastPacket = true ∨ p.marker = true → EndsSafely (soFar past s) s) :
    GateInv (soFar past (addPayload env s p payload))
      (addPayload env s p payload) := by
  unfold addPayload
  by_cases hskip : !s.asm.reassembling ∨ payload.length = 0
  · rw [if_pos hskip]
    exact h
  · rw [if_neg hskip]
    extract_lets s₁ s₂
    have hopen : s.asm.reassembling = true := by
      by_contra hcontra
      exact hskip (Or.inl (by simpa using hcontra))
    have hne : payload ≠ [] := fun hnil => hskip (Or.inr (by rw [hnil]; rfl))
    have h₁ : Calm s s₁ := by
      unfold s₁
      split
      · exact appendToFrame_calm s _
      · exact Calm.refl s
    have hemit : Calm s₁ (s₁.emit (.usable payload.length)) :=
      Calm.emit s₁ (by trivial)
    have h₂ : Calm s s₂ :=
      h₁.trans (hemit.trans (appendToFrame_calm _ payload))
    have hadded := addPayload_added s p payload
    have hsame := Assembly.add_sameTracking s.asm p payload
    have hasm : s₂.asm = s.asm.add p payload := hadded.asm
    have hinv : GateInv (soFar past s₂) s₂ := by
      apply h.calm h₂
      · rw [hasm, hsame.reassembling]
      · rw [hasm, hsame.sawFirstSof]
      · rw [hasm, hsame.currentFrameId]
    split
    · rename_i hends
      apply completeFrame_gate env hinv
      · rw [hasm, hsame.reassembling, hopen]
      · rw [hasm]
        exact add_buffer_ne_nil s.asm p hne hsize
      · rw [hasm, hsame.currentFrameId, hcurrent]
      · intro haccepted hgaps hclean hgood
        rw [OpenedAsRecovery, (h₂.tightens.soFar past).2.1] at haccepted
        rw [hasm, hsame.frameHadGaps] at hgaps
        rw [h₂.lastGood] at hgood
        rw [h₂.refs]
        exact hsafe hopen hends haccepted hgaps
          (hadded.clean.symm.trans hclean) hgood
    · exact hinv

/-! ## Runs -/

/-- No datagram is longer. -/
def maxDatagram : ℕ := 65535

/-- The event `e` does not lose the repairing frame that keeps a gate closed, for
`tr` the effects of the run before.  While such a frame is being assembled and
the references are taken as intact, no packet of another frame comes in, FEC
does not start the frame over, and, if nothing is decoded yet, the frame does
not end with a gap.  A loss is not reported while a frame that does not repair
it is being assembled. -/
structure KeepsRecovery (tr : List Effect) (s : Depacketizer) (e : Event) :
    Prop where
  datagram : ∀ env raw, e = .packet env raw → raw.length ≤ maxDatagram
  sameFrame : ∀ p, e.admitted s = some p → Exposed tr s →
    p.frameId = s.asm.currentFrameId
  gapless : ∀ p, e.admitted s = some p →
    Exposed tr s ∨ p.firstPacket = true →
    s.flags.refsCorrupted = false → s.flags.lastGoodFrame = 0 →
    p.lastPacket = true ∨ p.marker = true →
    (s.asm.track p).frameHadGaps = true → s.flags.fecRecoveryClean = true
  prepare : ∀ frameId, e = .fecPrepare frameId → Exposed tr s →
    s.asm.currentFrameId ≠ frameId
  loss : ∀ env a b, e = .frameLoss env a b → s.asm.reassembling = true →
    s.waits.waitingForIdrFrame = true ∨ ∀ w, OpenedRepairs w tr
  noReset : e ≠ .reset

theorem processAdmitted_gate (env : Env) {p : VideoPacket}
    (h : GateInv (soFar past s) s)
    (hsize : p.payload.length + 4 ≤ maxAssemblySize)
    (hsame : Exposed (soFar past s) s → p.frameId = s.asm.currentFrameId)
    (hgapless : Exposed (soFar past s) s ∨ p.firstPacket = true →
      s.flags.refsCorrupted = false → s.flags.lastGoodFrame = 0 →
      p.lastPacket = true ∨ p.marker = true →
      (s.asm.track p).frameHadGaps = true →
      s.flags.fecRecoveryClean = true) :
    GateInv (soFar past (processAdmitted env s p)) (processAdmitted env s p) := by
  set s₃ := tracked env s p with hs₃
  have h₃ : GateInv (soFar past s₃) s₃ := h.tracked env hsame
  have hasm : s₃.asm = s.asm.track p := (tracked_only env s p).asm
  have hclean₃ : s₃.flags.fecRecoveryClean = s.flags.fecRecoveryClean :=
    (tracked_only env s p).clean
  have htight : Tightens s s₃ := tracked_tightens env s p
  have hcurrent : s₃.asm.currentFrameId = p.frameId := by
    rw [hasm]
    exact Assembly.track_currentFrameId _ p
  -- the last packet of a frame that is exposed or just opened is covered
  have hcovered : ∀ s₄, (Exposed (soFar past s) s ∨ p.firstPacket = true) →
      (s₃.flags.refsCorrupted = true → s₄.flags.refsCorrupted = true) →
      s₄.flags.lastGoodFrame = s₃.flags.lastGoodFrame →
      s₄.asm.frameHadGaps = (s.asm.track p).frameHadGaps →
      s₄.flags.fecRecoveryClean = s.flags.fecRecoveryClean →
      p.lastPacket = true ∨ p.marker = true → EndsSafely (soFar past s₄) s₄ := by
    intro s₄ hwhen hrefs hgood hgaps hclean hends _ hgaps₄ hclean₄ hgood₄
    by_contra hcorrupt
    have hintact : s.flags.refsCorrupted = false := by
      by_contra hs
      exact hcorrupt (hrefs (htight.refs (by simpa using hs)))
    have hvouched := hgapless hwhen hintact
      (htight.lastGood.symm.trans (hgood.symm.trans hgood₄)) hends
      (hgaps.symm.trans hgaps₄)
    rw [hclean, hvouched] at hclean₄
    cases hclean₄
  unfold processAdmitted
  simp only
  rw [show trackSeq (switchFrame (noteTransport env s (transportOf s.asm p) p)
    p) p = s₃ from rfl]
  split
  · rename_i hfirst
    split
    · exact h₃
    · rename_i hsaw
      have hidle : s₃.asm.reassembling = false := by
        by_contra hopen
        exact hsaw (h₃.started (by simpa using hopen)).1
      obtain ⟨h₄, hkeeps⟩ := firstPacket_gate (t := transportOf s.asm p) env h₃
        hidle hcurrent
      have hout := firstPacket_spec env s₃ (transportOf s.asm p) p
      generalize firstPacket env s₃ (transportOf s.asm p) p = o at h₄ hkeeps hout ⊢
      cases hout with
      | held => exact h₄
      | started only =>
          rename_i s₄
          have hstart : s₄.asm = (s.asm.track p).start := by
            rw [only.asm, hasm]
          have hlen : (sofPayload p).length ≤ p.payload.length := by
            rw [sofPayload, List.length_drop]
            exact Nat.sub_le _ _
          apply addPayload_gate env h₄
          · rw [hstart]
            exact Assembly.track_currentFrameId _ p
          · omega
          · intro _ hends
            have hk := hkeeps rfl
            apply hcovered s₄ (Or.inr hfirst) hk.refs hk.lastGood
            · rw [hstart]
              rfl
            · exact only.clean.trans hclean₃
            · exact hends
  · apply addPayload_gate env h₃ hcurrent hsize
    intro hopen hends haccepted hgaps hclean hgood
    by_contra hcorrupt
    have hopen' : (s.asm.track p).reassembling = true := by
      rw [← hasm]
      exact hopen
    have hframe := s.asm.same_frame_of_reassembling p hopen'
    have hexposed : Exposed (soFar past s) s := by
      refine ⟨?_, ?_, ?_⟩
      · rw [← (s.asm.track_of_same p hframe).reassembling]
        exact hopen'
      · by_contra hs
        exact hcorrupt (htight.refs (by simpa using hs))
      · rw [OpenedAsRecovery, (htight.soFar past).2.1] at haccepted
        exact haccepted
    exact hcorrupt (hcovered s₃ (Or.inl hexposed) id rfl (by rw [hasm])
      hclean₃ hends haccepted hgaps hclean hgood)

/-- The effects of the last event do not matter to the invariant. -/
theorem GateInv.clearOut {tr : List Effect} (h : GateInv tr s) :
    GateInv tr { s with out := [] } := by
  refine ⟨h.gated, h.started, fun w hw => ?_⟩
  cases h.guarded w hw with
  | waiting on frame => exact .waiting on frame
  | corrupt refs idle => exact .corrupt refs idle
  | recovering ongoing rests =>
      exact .recovering ongoing ⟨rests.1, rests.2, rests.3, rests.4⟩

theorem gateInv_initial : GateInv [] .initial := by
  refine ⟨?_, ?_, ?_⟩
  · intro pre frameId buffer post hsplit
    simp at hsplit
  · intro hopen
    cases hopen
  · intro w hw
    exact (hw rfl).elim

/-- A loss reported while a frame is being assembled. -/
theorem GateInv.tighten_ongoing (h : GateInv (soFar past s) s)
    (ht : Tightens s s') (hasm : s'.asm = s.asm)
    (hframe : ∀ w, gateAfter w (soFar past s') ≠ gateAfter w (soFar past s) →
      s.asm.reassembling = true → OpenedRepairs w (soFar past s)) :
    GateInv (soFar past s') s' := by
  obtain ⟨hgate, hlast, hgated⟩ := ht.soFar past
  refine ⟨hgated h.gated, ?_, fun w hw => ?_⟩
  · rw [hasm, hlast]
    exact h.started
  · by_cases hsame : gateAfter w (soFar past s') = gateAfter w (soFar past s)
    · rw [hsame] at hw
      cases h.guarded w hw with
      | waiting on frame =>
          apply Guarded.waiting (ht.waiting w on)
          rw [hasm, OpenedRepairs, hlast]
          exact frame
      | corrupt refs idle =>
          apply Guarded.corrupt (ht.refs refs)
          rw [hasm]
          exact idle
      | recovering ongoing rests =>
          refine Guarded.recovering (by rw [hasm]; exact ongoing) ⟨?_, ?_, ?_, ?_⟩
          · rw [hsame, hasm]
            exact rests.gate
          · rw [OpenedRepairs, hlast]
            exact rests.repairs
          · rw [OpenedAsRecovery, hlast]
            exact rests.accepted
          · intro hw
            exact ht.recovery.trans (rests.sync hw)
    · have hon : Waiting w s' := (hgate w).resolve_left hsame
      apply Guarded.waiting hon
      rw [hasm, OpenedRepairs, hlast]
      exact hframe w hsame

/-- While an IDR wait is on, a reported loss only widens it. -/
theorem noteFrameLoss_calm (env : Env) (s : Depacketizer) (a b : UInt32)
    (hidr : s.waits.waitingForIdrFrame = true) :
    Calm s (rtpReassemblyNoteFrameLoss env s a b) := by
  unfold rtpReassemblyNoteFrameLoss
  simp only
  rw [if_pos hidr]
  exact ⟨rfl, rfl, rfl, rfl, rfl, (Calm.refl s).out⟩

/-- A payload is not longer than the packet it comes in. -/
theorem passFilters_payload_length {flags : DecodeFlags} {raw : Packet} {p : VideoPacket}
    (hpass : passFilters flags raw = some p) : p.payload.length ≤ raw.length := by
  unfold passFilters at hpass
  split at hpass
  · cases hpass
  · rename_i q hparse
    split at hpass
    · cases hpass
    · cases hpass
      exact parsePacket_payload_length hparse

theorem processPacket_gate (env : Env) {raw : Packet} (h : GateInv (soFar past s) s)
    (hkeeps : KeepsRecovery (soFar past s) s (.packet env raw)) :
    GateInv (soFar past (rtpReassemblyProcessPacket env s raw))
      (rtpReassemblyProcessPacket env s raw) := by
  cases hpass : passFilters s.flags raw with
  | none =>
      have hstep : rtpReassemblyProcessPacket env s raw = s := by
        rw [rtpReassemblyProcessPacket, hpass]
      rw [hstep]
      exact h
  | some p =>
      have hstep : rtpReassemblyProcessPacket env s raw = processAdmitted env s p := by
        rw [rtpReassemblyProcessPacket, hpass]
      have hlen := passFilters_payload_length hpass
      have hdatagram := hkeeps.datagram env raw rfl
      rw [hstep]
      apply processAdmitted_gate env h
      · simp only [maxDatagram] at hdatagram
        simp only [maxAssemblySize]
        omega
      · exact hkeeps.sameFrame p hpass
      · exact hkeeps.gapless p hpass

theorem prepareFecFrame_gate {frameId : UInt32} (h : GateInv (soFar past s) s)
    (hkeeps : KeepsRecovery (soFar past s) s (.fecPrepare frameId)) :
    GateInv (soFar past (rtpReassemblyPrepareFecFrame s frameId))
      (rtpReassemblyPrepareFecFrame s frameId) := by
  unfold rtpReassemblyPrepareFecFrame
  split
  · exact h
  · rename_i hcurrent
    apply gateInv_of_barred h.gated rfl
    intro w hw
    cases h.guarded w hw with
    | waiting on _ => exact Or.inl on
    | corrupt refs _ => exact Or.inr refs
    | recovering ongoing rests =>
        apply Or.inr
        by_contra hrefs
        exact hcurrent (hkeeps.prepare frameId rfl
          ⟨ongoing, by simpa using hrefs, rests.accepted⟩)

theorem noteFrameLoss_gate (env : Env) {a b : UInt32} (h : GateInv (soFar past s) s)
    (hkeeps : KeepsRecovery (soFar past s) s (.frameLoss env a b)) :
    GateInv (soFar past (rtpReassemblyNoteFrameLoss env s a b))
      (rtpReassemblyNoteFrameLoss env s a b) := by
  have hasm := ((SameAssembly.refl s).noteFrameLoss env a b).asm
  apply h.tighten_ongoing (Tightens.noteFrameLoss env s a b) hasm
  intro w hne hopen
  rcases hkeeps.loss env a b rfl hopen with hidr | hrepairs
  · exact (hne ((noteFrameLoss_calm env s a b hidr).gateAfter_eq past w)).elim
  · exact hrepairs w

theorem gateInv_step {tr : List Effect} {e : Event} (h : GateInv tr s)
    (hkeeps : KeepsRecovery tr s e) :
    GateInv (tr ++ (step s e).out) (step s e) := by
  have hclear := h.clearOut
  set s₀ : Depacketizer := { s with out := [] } with hs₀
  have hsoFar : soFar tr s₀ = tr := List.append_nil tr
  have hkeeps₀ : KeepsRecovery (soFar tr s₀) s₀ e := by
    rw [hsoFar]
    exact ⟨hkeeps.1, hkeeps.2, hkeeps.3, hkeeps.4, hkeeps.5, hkeeps.6⟩
  rw [← hsoFar] at hclear
  have hcalm : Calm s₀ s₀ := Calm.refl s₀
  cases e with
  | packet env raw => exact processPacket_gate env hclear hkeeps₀
  | fecVouch frameId =>
      have hvouch : Calm s₀ { s₀ with flags.fecRecoveryClean := true } :=
        ⟨rfl, rfl, rfl, rfl, rfl, hcalm.out⟩
      exact hclear.calm hvouch rfl rfl rfl
  | fecPrepare frameId => exact prepareFecFrame_gate hclear hkeeps₀
  | fecComplete seq =>
      have hcomplete : Calm s₀ { s₀ with asm.expectedSeq := seq } :=
        ⟨rfl, rfl, rfl, rfl, rfl, hcalm.out⟩
      exact hclear.calm hcomplete rfl rfl rfl
  | fecDrop clean refs frame idr =>
      have htight : Tightens s₀
          { s₀ with flags := fecDropFlags s₀.flags clean refs frame idr } := by
        refine ⟨fun _ => id, fun hrefs => ?_, rfl, rfl, (Tightens.refl s₀).out⟩
        show (s₀.flags.refsCorrupted || refs) = true
        rw [hrefs]
        rfl
      exact hclear.tighten_ongoing htight rfl fun w hne => (hne rfl).elim
  | frameLoss env a b => exact noteFrameLoss_gate env hclear hkeeps₀
  | reset => exact (hkeeps.noReset rfl).elim

/-- In a run that does not lose the repairing frame that keeps a gate closed,
only frames that repair the loss are handed over while a gate is not clear. -/
theorem gated_of_run_keeping_recovery (es : List Event)
    (hkeeps : ∀ es₁ e es₂, es = es₁ ++ e :: es₂ →
      KeepsRecovery (trace .initial es₁) (run .initial es₁) e) :
    Gated (trace .initial es) := by
  have hinv : GateInv (trace .initial es) (run .initial es) := by
    induction es using List.reverseRecOn with
    | nil => exact gateInv_initial
    | append_singleton es e ih =>
        rw [trace_append_singleton, run_append_singleton]
        apply gateInv_step
        · apply ih
          intro es₁ e₁ es₂ hsplit
          apply hkeeps es₁ e₁ (es₂ ++ [e])
          rw [hsplit]
          simp
        · exact hkeeps es e [] rfl
  exact hinv.gated

/-- A packet behind the short Sunshine header, with this frame type. -/
def mkFrame (seq frameId flags frameType : UInt8) : Event :=
  .packet quietEnv (mkPacket seq frameId flags
    [0x01, 0, 0, frameType, 0, 0, 0, 0, 0, 0, 1, 0x41])

/-- An IDR frame, a frame after a loss, and one that repairs it. -/
def repairedRun : List Event :=
  [mkFrame 0 1 7 2, mkFrame 5 3 7 1, mkFrame 6 4 7 5]

/-- A packet that comes in while no frame is being assembled, and after a frame
was decoded or without a gap, loses nothing. -/
theorem keepsRecovery_of_idle {tr : List Effect} {s : Depacketizer}
    {seq frameId flags frameType : UInt8}
    (hidle : s.asm.reassembling = false)
    (hgaps : s.flags.lastGoodFrame ≠ 0 ∨
      ((mkFrame seq frameId flags frameType).admitted s).all
        (fun p => !(s.asm.track p).frameHadGaps) = true) :
    KeepsRecovery tr s (mkFrame seq frameId flags frameType) where
  datagram := by
    rintro env raw ⟨⟩
    simp [mkPacket, maxDatagram]
  sameFrame := by
    intro p _ hexposed
    have hopen := hexposed.1
    rw [hidle] at hopen
    cases hopen
  gapless := by
    intro p hpass _ _ hgood _ hgap
    rcases hgaps with hgood' | hnone
    · exact (hgood' hgood).elim
    · rw [hpass] at hnone
      simp [hgap] at hnone
  prepare := by
    rintro f ⟨⟩
  loss := by
    rintro env a b ⟨⟩
  noReset := by
    rintro ⟨⟩

theorem gated_of_run_keeping_recovery_repaired :
    Gated (trace .initial repairedRun) := by
  apply gated_of_run_keeping_recovery repairedRun
  intro es₁ e es₂ hsplit
  rcases es₁ with _ | ⟨a, _ | ⟨b, _ | ⟨c, rest⟩⟩⟩
  · obtain ⟨rfl, -⟩ : mkFrame 0 1 7 2 = e ∧ _ := by
      simpa [repairedRun] using hsplit
    exact keepsRecovery_of_idle (by decide) (Or.inr (by decide))
  · obtain ⟨rfl, rfl, -⟩ : mkFrame 0 1 7 2 = a ∧ mkFrame 5 3 7 1 = e ∧ _ := by
      simpa [repairedRun] using hsplit
    exact keepsRecovery_of_idle (by decide) (Or.inl (by decide))
  · obtain ⟨rfl, rfl, rfl, -⟩ : mkFrame 0 1 7 2 = a ∧ mkFrame 5 3 7 1 = b ∧
        mkFrame 6 4 7 5 = e ∧ _ := by
      simpa [repairedRun] using hsplit
    exact keepsRecovery_of_idle (by decide) (Or.inl (by decide))
  · simp [repairedRun] at hsplit

/-- An IDR frame, a frame after a loss, the first packet of one that repairs it,
and the frame after that: the tail of the repairing frame is lost. -/
def lostTailRun : List Event :=
  [mkFrame 0 1 7 2, mkFrame 5 3 7 1, mkFrame 6 4 5 5, mkFrame 8 5 7 1]

/-- A repairing frame whose tail is lost reopens the gate: the frame after it,
which repairs nothing, is handed over. -/
theorem not_gated_of_lost_tail :
    ¬ ∀ es : List Event, Gated (trace .initial es) := by
  intro hclaim
  set pre := (trace .initial lostTailRun).dropLast with hpre
  have hsplit : trace .initial lostTailRun =
      pre ++ .deliver 5 [0, 0, 1, 0x41] :: [] := by decide
  obtain ⟨kind, passage, hlast, hrepairs⟩ := hclaim lostTailRun pre 5 _ []
    hsplit .rfi (by decide)
  have hplain : (lastOpened pre).map (fun o => o.2.1.repairs .rfi) =
      some false := by decide
  rw [hlast] at hplain
  simp [hrepairs] at hplain

end MoonlightPsp.Reassembly
