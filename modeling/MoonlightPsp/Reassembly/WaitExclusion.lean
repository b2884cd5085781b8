import MoonlightPsp.Reassembly.LossGate

/-!
# The two waits exclude each other

An IDR wait ends an RFI wait, and an RFI wait is only started where no IDR wait
is on, with one exception.  A frame that ends with a gap starts an RFI wait even
if an IDR wait was started while the frame was being assembled.

Other threads write the shared flags too, so every call finds them in any state.
-/

namespace MoonlightPsp.Reassembly

variable {s s' : Depacketizer}

/-! ## Calls -/

/-- A call, and the shared flags as it finds them. -/
structure SharedCall where
  flags : DecodeFlags
  event : Event

/-- The state in which a call runs. -/
def SharedCall.found (s : Depacketizer) (c : SharedCall) : Depacketizer :=
  { s with flags := c.flags }

def callStep (s : Depacketizer) (c : SharedCall) : Depacketizer :=
  step (c.found s) c.event

def callRun (s : Depacketizer) (cs : List SharedCall) : Depacketizer :=
  cs.foldl callStep s

theorem callRun_append_singleton (s : Depacketizer) (cs : List SharedCall)
    (c : SharedCall) : callRun s (cs ++ [c]) = callStep (callRun s cs) c := by
  simp [callRun]

/-! ## Both waits -/

/-- `s_waiting_for_idr_frame` and `s_waiting_for_ref_inval_frame` are set. -/
def BothWaiting (s : Depacketizer) : Prop :=
  s.waits.waitingForIdrFrame = true ∧ s.waits.waitingForRefInvalFrame = true

theorem Calm.bothWaiting_iff (h : Calm s s') :
    BothWaiting s' ↔ BothWaiting s := by
  rw [BothWaiting, BothWaiting, h.idr, h.rfi]

theorem not_bothWaiting_of_idr (h : s.waits.waitingForIdrFrame = false) :
    ¬BothWaiting s := by
  rintro ⟨hidr, -⟩
  rw [h] at hidr
  exact Bool.noConfusion hidr

theorem startIdrWait_not_both (env : Env) (s : Depacketizer) (a b : UInt32) :
    ¬BothWaiting (rtpStartIdrWait env s a b) := by
  have hrfi : (rtpStartIdrWait env s a b).waits.waitingForRefInvalFrame =
      false := by
    rw [rtpStartIdrWait]
    simp only
    split
    · rfl
    · rw [rtpRequestIdrForceForMode]
      split <;> rfl
  rintro ⟨-, hboth⟩
  rw [hrfi] at hboth
  exact Bool.noConfusion hboth

/-- An RFI wait is started during an IDR wait, unless the loss is too long for
an RFI. -/
theorem markWaitingForRefInval_both_iff (env : Env) (h : ¬BothWaiting s)
    (a b : UInt32) :
    BothWaiting (rtpMarkWaitingForRefInval env s a b) ↔
      s.waits.waitingForIdrFrame = true ∧
        ¬(rtpRfiSpanExceedsWindow env.config (lossStart a b) b = true ∧
          s.flags.lastGoodFrame ≠ 0) := by
  rw [rtpMarkWaitingForRefInval]
  simp only
  split_ifs with hspan hrfi hwide
  · exact iff_of_false (startIdrWait_not_both env s _ _) fun h => h.2 hspan
  · exact ⟨fun hboth => ⟨hboth.1, hspan⟩, fun hidr => ⟨hidr.1, rfl⟩⟩
  · have hidr : s.waits.waitingForIdrFrame ≠ true := fun hidr =>
      h ⟨hidr, by simpa using hrfi⟩
    exact iff_of_false (startIdrWait_not_both env _ _ _) fun h => hidr h.1
  · have hidr : s.waits.waitingForIdrFrame ≠ true := fun hidr =>
      h ⟨hidr, by simpa using hrfi⟩
    exact iff_of_false (fun hboth => hidr hboth.1) fun h => hidr h.1

theorem markWaitingForRefInval_not_both (env : Env)
    (h : s.waits.waitingForIdrFrame = false) (a b : UInt32) :
    ¬BothWaiting (rtpMarkWaitingForRefInval env s a b) := by
  rw [markWaitingForRefInval_both_iff env (not_bothWaiting_of_idr h), h]
  exact fun hidr => Bool.noConfusion hidr.1

theorem noteFrameLoss_not_both (env : Env) (h : ¬BothWaiting s)
    (a b : UInt32) : ¬BothWaiting (rtpReassemblyNoteFrameLoss env s a b) := by
  rw [rtpReassemblyNoteFrameLoss]
  split_ifs with hidr
  · exact h
  · exact startIdrWait_not_both env s _ _
  · exact markWaitingForRefInval_not_both env (by simpa using hidr) _ _

/-! ## The start of a frame -/

theorem noteTransport_not_both (env : Env) (h : ¬BothWaiting s)
    (t : Transport) (p : VideoPacket) :
    ¬BothWaiting (noteTransport env s t p) := by
  have hloss : ∀ s' : Depacketizer, ¬BothWaiting s' →
      ¬BothWaiting (if s'.asm.lastSeenFrameId = noFrame ∨
          SerialNumber.delta p.frameId s'.asm.lastSeenFrameId > 0 then
        { s' with asm.lastSeenFrameId := p.frameId } else s') := by
    intro s' hs'
    split <;> exact hs'
  rw [noteTransport]
  split
  · rename_i hguard
    exact hloss _ (markWaitingForRefInval_not_both env
      (by simpa using hguard.2.2.1) _ _)
  · exact hloss s h

theorem tracked_not_both (env : Env) (h : ¬BothWaiting s)
    (p : VideoPacket) : ¬BothWaiting (tracked env s p) := by
  rw [tracked, ((switchFrame_calm _ p).trans (trackSeq_calm _ p)).bothWaiting_iff]
  exact noteTransport_not_both env h _ p

theorem noteFrameGap_not_both (env : Env) (h : ¬BothWaiting s)
    (t : Transport) (p : VideoPacket) (kind : FrameKind) :
    ¬BothWaiting (noteFrameGap env s t p kind) := by
  rw [noteFrameGap]
  split
  · rename_i hguard
    have hidr : s.waits.waitingForIdrFrame = false := by
      simpa using hguard.2.1
    have hmark := markWaitingForRefInval_not_both env hidr
      (t.prevSeenFrameId + 1) (p.frameId - 1)
    simp only
    split_ifs
    · exact h
    · exact hmark
    · exact h
    · exact h
    · exact hmark
    · exact hmark
  · exact h

theorem noteCorruptRefs_not_both (env : Env) (h : ¬BothWaiting s)
    (p : VideoPacket) : ¬BothWaiting (noteCorruptRefs env s p) := by
  rw [noteCorruptRefs]
  split
  · exact startIdrWait_not_both env s _ _
  · exact h

theorem holdForRfi_not_both (env : Env)
    (hidr : s.waits.waitingForIdrFrame = false) :
    ¬BothWaiting (holdForRfi env s).2 ∧ ((holdForRfi env s).1.isSome →
      (holdForRfi env s).2.waits.waitingForIdrFrame = false) := by
  unfold holdForRfi
  extract_lets refStart refEnd reqEnd
  split_ifs
  · exact ⟨startIdrWait_not_both env _ _ _, fun hsome => nomatch hsome⟩
  · exact ⟨startIdrWait_not_both env _ _ _, fun hsome => nomatch hsome⟩
  · exact ⟨not_bothWaiting_of_idr hidr, fun _ => hidr⟩
  · exact ⟨not_bothWaiting_of_idr hidr, fun hsome => nomatch hsome⟩
  · exact ⟨not_bothWaiting_of_idr hidr, fun hsome => nomatch hsome⟩

/-- After the gate the waits exclude each other, and a frame passes it with no
IDR wait on. -/
theorem gateFrame_not_both (env : Env) (h : ¬BothWaiting s)
    (p : VideoPacket) (kind : FrameKind) :
    ¬BothWaiting (gateFrame env s p kind).2 ∧
      ((gateFrame env s p kind).1.isSome →
        (gateFrame env s p kind).2.waits.waitingForIdrFrame = false) := by
  rw [gateFrame]
  split
  · rename_i hidr
    rw [gateIdr]
    split
    · exact ⟨not_bothWaiting_of_idr rfl, fun _ => rfl⟩
    · refine ⟨?_, fun hsome => Bool.noConfusion hsome⟩
      have hcalm := repeatIdrRequests_calm env
        { s with waits.idrWaitDropCount := s.waits.idrWaitDropCount + 1 }
      exact hcalm.bothWaiting_iff.not.mpr h
  · rename_i hidr
    have hidr : s.waits.waitingForIdrFrame = false := by simpa using hidr
    split
    · rw [gateRfi]
      split
      · exact ⟨not_bothWaiting_of_idr hidr, fun _ => hidr⟩
      · exact holdForRfi_not_both env (s := countRfiDrop s p) hidr
    · exact ⟨h, fun _ => hidr⟩

theorem firstPacket_not_both (env : Env) (h : ¬BothWaiting s)
    (t : Transport) (p : VideoPacket) :
    ¬BothWaiting (firstPacket env s t p).2 ∧
      ((firstPacket env s t p).1.isSome →
        (firstPacket env s t p).2.waits.waitingForIdrFrame = false) := by
  have hstart : ¬BothWaiting (startFrame env s p.payload) := by
    rw [startFrame]
    split <;> exact h
  have hgap := noteFrameGap_not_both env hstart t p (frameKind p.payload)
  obtain ⟨hboth, hidr⟩ := gateFrame_not_both env
    (noteCorruptRefs_not_both env hgap p) p (frameKind p.payload)
  rw [firstPacket]
  split
  · rename_i passage s' hgate
    rw [hgate] at hboth hidr
    exact ⟨hboth, fun _ => hidr rfl⟩
  · rename_i s' hgate
    rw [hgate] at hboth hidr
    exact ⟨hboth, fun hsome => Bool.noConfusion hsome⟩

/-! ## The end of a frame -/

/-- What the end of a gapped frame looks at before it starts an RFI wait, with an
IDR wait on: a frame was decoded, the gapped one is no sync frame that was
waited for, and the loss is short enough for an RFI. -/
structure RfiOverIdr (env : Env) (s : Depacketizer) (frameId : UInt32) :
    Prop where
  waiting : s.waits.waitingForIdrFrame = true
  decoded : s.flags.lastGoodFrame ≠ 0
  noRecovery : s.waits.currentFrameIdrRecovery = false
  short : rtpRfiSpanExceedsWindow env.config
    (lossStart (s.flags.lastGoodFrame + 1) frameId) frameId = false

theorem escalateGaps_both_iff (s : Depacketizer) :
    BothWaiting (escalateGaps s) ↔ BothWaiting s := by
  rw [escalateGaps]
  split <;> rfl

theorem recoverGap_both_iff (env : Env) (h : ¬BothWaiting s)
    (frameId : UInt32) :
    BothWaiting (recoverGap env s frameId) ↔ RfiOverIdr env s frameId := by
  rw [recoverGap]
  split
  · rename_i hzero
    exact iff_of_false h fun hrfi => hrfi.decoded hzero
  rename_i hzero
  split
  · rename_i hrecovery
    refine iff_of_false (startIdrWait_not_both env s _ _) fun hrfi => ?_
    rw [hrfi.noRecovery] at hrecovery
    exact Bool.noConfusion hrecovery
  · rename_i hrecovery
    rw [escalateGaps_both_iff]
    refine (markWaitingForRefInval_both_iff env h _ _).trans ⟨?_, ?_⟩
    · rintro ⟨hidr, hshort⟩
      refine ⟨hidr, hzero, by simpa using hrecovery, ?_⟩
      by_contra hlong
      exact hshort ⟨by simpa using hlong, hzero⟩
    · rintro ⟨hidr, -, -, hshort⟩
      refine ⟨hidr, fun hlong => ?_⟩
      rw [hshort] at hlong
      exact Bool.noConfusion hlong.1

theorem finishFrame_both_iff (env : Env) (h : ¬BothWaiting s)
    (frameId : UInt32) :
    BothWaiting (finishFrame env s frameId) ↔
      s.asm.frameHadGaps = true ∧ s.flags.fecRecoveryClean = false ∧
        RfiOverIdr env s frameId := by
  rw [finishFrame]
  split
  · rename_i hgaps
    have hgaps : s.asm.frameHadGaps = true ∧
        s.flags.fecRecoveryClean = false := by simpa using hgaps
    have hrecover := recoverGap_both_iff env (s := countGap s) h frameId
    refine Iff.trans (show _ ↔ BothWaiting (recoverGap env (countGap s)
      frameId) from Iff.rfl) (hrecover.trans ⟨?_, ?_⟩)
    · rintro ⟨hidr, hgood, hno, hshort⟩
      exact ⟨hgaps.1, hgaps.2, hidr, hgood, hno, hshort⟩
    · rintro ⟨-, -, hidr, hgood, hno, hshort⟩
      exact ⟨hidr, hgood, hno, hshort⟩
  · rename_i hgaps
    have hintact : ∀ s, BothWaiting (noteIntactFrame s) ↔ BothWaiting s := by
      intro s
      rw [noteIntactFrame]
      split <;> rfl
    have hdeliver : BothWaiting (deliverFrame env
        (forgetFrame (noteIntactFrame s)) frameId) ↔ BothWaiting s := by
      rw [deliverFrame, rtpAdvanceDecodedFrame]
      split <;> exact hintact s
    rw [hdeliver]
    exact iff_of_false h fun hend => hgaps (by simp [hend.1, hend.2.1])

theorem completeFrame_both_iff (env : Env) (h : ¬BothWaiting s)
    (frameId : UInt32) :
    BothWaiting (completeFrame env s frameId) ↔
      (s.asm.buffer.length > 0 ∧ s.asm.reassembling = true ∧
        s.asm.frameOverflow = false) ∧ s.asm.frameHadGaps = true ∧
        s.flags.fecRecoveryClean = false ∧ RfiOverIdr env s frameId := by
  rw [completeFrame]
  split
  · rename_i hopen
    split
    · rename_i hoverflow
      refine iff_of_false h fun hend => ?_
      rw [hend.1.2.2] at hoverflow
      exact Bool.noConfusion hoverflow
    · rename_i hoverflow
      have hno : s.asm.frameOverflow = false := by simpa using hoverflow
      refine (finishFrame_both_iff env h frameId).trans ⟨?_, ?_⟩
      · exact fun hend => ⟨⟨hopen.1, hopen.2, hno⟩, hend⟩
      · exact fun hend => hend.2
  · rename_i hopen
    exact iff_of_false h fun hend => hopen ⟨hend.1.1, hend.1.2.1⟩

/-! ## A packet -/

theorem Calm.rfiOverIdr_iff (h : Calm s s') (env : Env) (frameId : UInt32) :
    RfiOverIdr env s' frameId ↔ RfiOverIdr env s frameId := by
  constructor
  · rintro ⟨hidr, hgood, hno, hshort⟩
    rw [h.lastGood] at hgood hshort
    exact ⟨h.idr ▸ hidr, hgood, h.recovery ▸ hno, hshort⟩
  · rintro ⟨hidr, hgood, hno, hshort⟩
    rw [← h.lastGood] at hgood hshort
    exact ⟨h.idr ▸ hidr, hgood, h.recovery ▸ hno, hshort⟩

theorem appendStartCode_calm (s : Depacketizer) : Calm s (appendStartCode s) :=
  appendToFrame_calm s _

/-- A payload starts an RFI wait during an IDR wait when it ends a gapped
frame. -/
theorem addPayload_both_iff (env : Env) (h : ¬BothWaiting s)
    (p : VideoPacket) (payload : List UInt8) :
    BothWaiting (addPayload env s p payload) ↔
      (s.asm.reassembling = true ∧ payload ≠ [] ∧
        (p.lastPacket = true ∨ p.marker = true)) ∧
      ((s.asm.add p payload).buffer.length > 0 ∧
        (s.asm.add p payload).frameOverflow = false) ∧
      s.asm.frameHadGaps = true ∧ s.flags.fecRecoveryClean = false ∧
        RfiOverIdr env s p.frameId := by
  unfold addPayload
  by_cases hskip : !s.asm.reassembling ∨ payload.length = 0
  · rw [if_pos hskip]
    refine iff_of_false h fun hend => ?_
    rcases hskip with hidle | hempty
    · rw [hend.1.1] at hidle
      exact Bool.noConfusion hidle
    · exact hend.1.2.1 (List.length_eq_zero_iff.mp hempty)
  · rw [if_neg hskip]
    extract_lets s₁ s₂
    obtain ⟨hopen, hne⟩ : s.asm.reassembling = true ∧ payload ≠ [] := by
      simpa using hskip
    have h₁ : Calm s s₁ := by
      unfold s₁
      split
      · exact appendStartCode_calm s
      · exact Calm.refl s
    have h₂ : Calm s s₂ :=
      (h₁.trans (Calm.emit s₁ (e := .usable payload.length) trivial)).trans
        (appendToFrame_calm _ payload)
    have hadded : OnlyAssembly (s.asm.add p payload) s s₂ :=
      addPayload_added s p payload
    have hsame := Assembly.add_sameTracking s.asm p payload
    have hboth := h₂.bothWaiting_iff.not.mpr h
    split
    · rename_i hends
      rw [completeFrame_both_iff env hboth, hadded.asm, hadded.clean,
        hsame.reassembling, hsame.frameHadGaps, h₂.rfiOverIdr_iff]
      constructor
      · rintro ⟨⟨hbuffer, -, hroom⟩, hrest⟩
        exact ⟨⟨hopen, hne, hends⟩, ⟨hbuffer, hroom⟩, hrest⟩
      · rintro ⟨-, ⟨hbuffer, hroom⟩, hrest⟩
        exact ⟨⟨hbuffer, hopen, hroom⟩, hrest⟩
    · rename_i hends
      exact iff_of_false hboth fun hend => hends hend.1.2.2

/-- A packet that ends the frame being assembled, which has gaps that FEC does
not vouch for, during an IDR wait. -/
structure EndsGappedDuringIdr (env : Env) (s : Depacketizer)
    (p : VideoPacket) : Prop where
  continues : p.firstPacket = false ∧ p.frameId = s.asm.currentFrameId ∧
    s.asm.reassembling = true
  payload : p.payload ≠ []
  ends : p.lastPacket = true ∨ p.marker = true
  fits : s.asm.frameOverflow = false ∧
    s.asm.buffer.length + p.payload.length ≤ maxAssemblySize
  gaps : s.asm.frameHadGaps = true ∨ p.seq ≠ s.asm.expectedSeq
  unvouched : s.flags.fecRecoveryClean = false
  overIdr : RfiOverIdr env s p.frameId

/-- Adding a later payload leaves the frame nonempty and without overflow
exactly when it fits. -/
theorem add_fits_iff (a : Assembly) {p : VideoPacket}
    (hnext : p.firstPacket = false) {payload : List UInt8}
    (hne : payload ≠ []) :
    ((a.add p payload).buffer.length > 0 ∧
        (a.add p payload).frameOverflow = false) ↔
      a.frameOverflow = false ∧
        a.buffer.length + payload.length ≤ maxAssemblySize := by
  have hlen : payload.length ≠ 0 := fun h =>
    hne (List.length_eq_zero_iff.mp h)
  rw [Assembly.add, if_neg (by simp [hnext]), Assembly.append, if_neg hlen]
  split
  · rename_i hlong
    exact iff_of_false (fun h => Bool.noConfusion h.2) fun h => by omega
  · rename_i hshort
    constructor
    · exact fun h => ⟨h.2, by omega⟩
    · refine fun h => ⟨?_, h.1⟩
      rw [List.length_append]
      omega

theorem processAdmitted_both_iff (env : Env) (h : ¬BothWaiting s)
    (p : VideoPacket) :
    BothWaiting (processAdmitted env s p) ↔ EndsGappedDuringIdr env s p := by
  have h₃ := tracked_not_both env h p
  unfold processAdmitted
  simp only
  rw [show trackSeq (switchFrame (noteTransport env s (transportOf s.asm p) p)
    p) p = tracked env s p from rfl]
  split
  · rename_i hfirst
    have hno : ¬EndsGappedDuringIdr env s p := by
      rintro ⟨⟨hnext, -⟩, -⟩
      rw [hfirst] at hnext
      exact Bool.noConfusion hnext
    refine iff_of_false ?_ hno
    split
    · exact h₃
    · obtain ⟨hboth, hidr⟩ := firstPacket_not_both env h₃
        (transportOf s.asm p) p
      split
      · rename_i s₄ hheld
        rw [hheld] at hboth
        exact hboth
      · rename_i payload s₄ hpassed
        rw [hpassed] at hboth hidr
        rw [addPayload_both_iff env hboth]
        rintro ⟨-, -, -, -, hover⟩
        have hwaiting := hover.waiting
        rw [hidr rfl] at hwaiting
        exact Bool.noConfusion hwaiting
  · rename_i hnext
    have hnext : p.firstPacket = false := by simpa using hnext
    have honly := tracked_only env s p
    rw [addPayload_both_iff env h₃]
    by_cases hsame : p.frameId = s.asm.currentFrameId
    · have htrack := s.asm.track_of_same p hsame
      have hcalm := tracked_calm env s p hsame
      rw [hcalm.rfiOverIdr_iff, honly.clean, honly.asm, htrack.reassembling,
        htrack.gaps]
      constructor
      · rintro ⟨⟨hopen, hne, hends⟩, hadd, hgaps, hclean, hover⟩
        rw [add_fits_iff _ hnext hne, htrack.frameOverflow, htrack.buffer] at hadd
        exact ⟨⟨hnext, hsame, hopen⟩, hne, hends, hadd, by simpa using hgaps,
          hclean, hover⟩
      · rintro ⟨⟨-, -, hopen⟩, hne, hends, hfits, hgaps, hclean, hover⟩
        rw [add_fits_iff _ hnext hne, htrack.frameOverflow, htrack.buffer]
        exact ⟨⟨hopen, hne, hends⟩, hfits, by simpa using hgaps, hclean, hover⟩
    · have hidle : (tracked env s p).asm.reassembling = false := by
        rw [honly.asm]
        exact (s.asm.track_of_other p hsame).1
      rw [hidle]
      exact iff_of_false (fun hend => Bool.noConfusion hend.1.1)
        fun hend => hsame hend.continues.2.1

/-! ## Runs -/

/-- The call is the packet that ends a gapped frame during an IDR wait. -/
def StartsSecondWait (s : Depacketizer) (c : SharedCall) : Prop :=
  ∃ env raw p, c.event = .packet env raw ∧ passFilters c.flags raw = some p ∧
    EndsGappedDuringIdr env (c.found s) p

theorem callStep_both_iff (h : ¬BothWaiting s) (c : SharedCall) :
    BothWaiting (callStep s c) ↔ StartsSecondWait s c := by
  rcases c with ⟨flags, e⟩
  have hother : (∀ env raw, e ≠ .packet env raw) →
      ¬StartsSecondWait s ⟨flags, e⟩ := by
    rintro hne ⟨env, raw, p, he, -⟩
    exact hne env raw he
  cases e with
  | packet env raw =>
      have hfound : ¬BothWaiting { SharedCall.found s ⟨flags, .packet env raw⟩
        with out := [] } := h
      constructor
      · intro hboth
        simp only [callStep, step, Event.run, rtpReassemblyProcessPacket]
          at hboth
        split at hboth
        · exact absurd hboth h
        · rename_i p hp
          have hend := (processAdmitted_both_iff env hfound p).mp hboth
          exact ⟨env, raw, p, rfl, hp, hend.continues, hend.payload, hend.ends,
            hend.fits, hend.gaps, hend.unvouched, hend.overIdr.waiting,
            hend.overIdr.decoded, hend.overIdr.noRecovery, hend.overIdr.short⟩
      · rintro ⟨env', raw', p, he, hp, hend⟩
        cases he
        have hp' : passFilters (SharedCall.found s
            ⟨flags, .packet env raw⟩).flags raw = some p := hp
        simp only [callStep, step, Event.run, rtpReassemblyProcessPacket, hp']
        exact (processAdmitted_both_iff env hfound p).mpr ⟨hend.continues,
          hend.payload, hend.ends, hend.fits, hend.gaps, hend.unvouched,
          hend.overIdr.waiting, hend.overIdr.decoded, hend.overIdr.noRecovery,
          hend.overIdr.short⟩
  | fecVouch frameId => exact iff_of_false h (hother (by simp))
  | fecPrepare frameId =>
      refine iff_of_false ?_ (hother (by simp))
      simp only [callStep, step, Event.run, rtpReassemblyPrepareFecFrame]
      split <;> exact h
  | fecComplete seq => exact iff_of_false h (hother (by simp))
  | fecDrop clean refs frame idr => exact iff_of_false h (hother (by simp))
  | frameLoss env a b =>
      have hfound : ¬BothWaiting { SharedCall.found s ⟨flags, .frameLoss env a b⟩
        with out := [] } := h
      exact iff_of_false (noteFrameLoss_not_both env hfound a b)
        (hother (by simp))
  | reset =>
      exact iff_of_false (not_bothWaiting_of_idr rfl) (hother (by simp))

/-- In a run the two waits are never both on if and only if no packet ends a
gapped frame during an IDR wait. -/
theorem waits_exclusive_iff (cs : List SharedCall) :
    (∀ before after, cs = before ++ after →
      ¬BothWaiting (callRun .initial before)) ↔
    ∀ before c after, cs = before ++ c :: after →
      ¬StartsSecondWait (callRun .initial before) c := by
  constructor
  · intro h before c after hcs hstarts
    have hbefore := h before (c :: after) hcs
    have hstep := (callStep_both_iff hbefore c).mpr hstarts
    rw [← callRun_append_singleton] at hstep
    exact h (before ++ [c]) after (by simp [hcs]) hstep
  · intro h before
    induction before using List.reverseRecOn with
    | nil => exact fun _ _ => not_bothWaiting_of_idr rfl
    | append_singleton before c ih =>
        intro after hcs
        have hcs : cs = before ++ c :: after := by simpa using hcs
        rw [callRun_append_singleton, callStep_both_iff (ih (c :: after) hcs)]
        exact h before c after hcs

/-- Settings with an RFI window of six frames. -/
def shortWindowEnv : Env :=
  ⟨⟨0, false, false, 30, 480, 272⟩, 1, false, true, true⟩

/-- Frame 6 starts behind the decoded frame 5, the FEC layer reports that frames
7 to 13 are lost, and frame 6 ends one packet after a gap. -/
def gappedDuringIdr : List SharedCall :=
  [⟨⟨false, true, false, true, false, 5⟩,
      .packet shortWindowEnv (mkPacket 0 6 5 [0, 0, 1, 0x41])⟩,
    ⟨⟨false, true, false, true, false, 5⟩, .frameLoss shortWindowEnv 7 13⟩,
    ⟨⟨true, false, false, true, false, 5⟩,
      .packet shortWindowEnv (mkPacket 2 6 3 [0x88])⟩]

theorem both_waits_on_gap_during_idr :
    ¬∀ cs : List SharedCall, ¬BothWaiting (callRun .initial cs) := by
  intro h
  exact h gappedDuringIdr ⟨by decide, by decide⟩

end MoonlightPsp.Reassembly
