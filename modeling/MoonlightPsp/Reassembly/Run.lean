import MoonlightPsp.Reassembly.Model
import Mathlib.Tactic.Common

/-!
# Runs of the depacketizer

A run is a list of events: packets, and what the FEC layer and the drain loop do
in between.  The first part says what each helper of a call leaves alone; the
second condenses a call to its effect on the assembly buffer.
-/

namespace MoonlightPsp.Reassembly

open SerialNumber

/-! ## Events -/

/-- One call into the depacketizer, or a change of the shared flags by the FEC
layer. -/
inductive Event where
  | packet (env : Env) (raw : Packet)
  /-- The FEC layer sets `g_fec_recovery_clean` for a frame it submits. -/
  | fecVouch (frameId : UInt32)
  | fecPrepare (frameId : UInt32)
  | fecComplete (nextSeqAfterFec : UInt16)
  /-- The FEC layer gives a frame up. -/
  | fecDrop (clearsClean corruptsRefs corruptsFrame losesIdr : Bool)
  | frameLoss (env : Env) (startFrame endFrame : UInt32)
  | reset

def fecDropFlags (flags : DecodeFlags)
    (clearsClean corruptsRefs corruptsFrame losesIdr : Bool) : DecodeFlags :=
  { flags with
    fecRecoveryClean := flags.fecRecoveryClean && !clearsClean
    refsCorrupted := flags.refsCorrupted || corruptsRefs
    currentFrameIsCorrupt := flags.currentFrameIsCorrupt || corruptsFrame
    idrFullyDecoded := flags.idrFullyDecoded && !losesIdr }

def Event.run (s : Depacketizer) : Event → Depacketizer
  | .packet env raw => rtpReassemblyProcessPacket env s raw
  | .fecVouch _ => { s with flags.fecRecoveryClean := true }
  | .fecPrepare frameId => rtpReassemblyPrepareFecFrame s frameId
  | .fecComplete seq => rtpReassemblyNoteFecFrameComplete s seq
  | .fecDrop clean refs frame idr =>
      { s with flags := fecDropFlags s.flags clean refs frame idr }
  | .frameLoss env startFrame endFrame =>
      rtpReassemblyNoteFrameLoss env s startFrame endFrame
  | .reset => rtpReassemblyReset s

/-- One event, with its own effects only. -/
def step (s : Depacketizer) (e : Event) : Depacketizer :=
  e.run { s with out := [] }

def run (s : Depacketizer) (es : List Event) : Depacketizer :=
  es.foldl step s

@[simp] theorem run_nil (s : Depacketizer) : run s [] = s := rfl

@[simp] theorem run_append_singleton (s : Depacketizer) (es : List Event)
    (e : Event) : run s (es ++ [e]) = step (run s es) e := by
  simp [run]

/-- The packet of an event that gets past the filters. -/
def Event.admitted (s : Depacketizer) : Event → Option VideoPacket
  | .packet _ raw => passFilters s.flags raw
  | _ => none

/-- The packets of a run that get past the filters. -/
def admittedRun (s : Depacketizer) : List Event → List VideoPacket
  | [] => []
  | e :: es => (e.admitted s).toList ++ admittedRun (step s e) es

theorem admittedRun_append (s : Depacketizer) (x y : List Event) :
    admittedRun s (x ++ y) = admittedRun s x ++ admittedRun (run s x) y := by
  induction x generalizing s with
  | nil => rfl
  | cons e x ih => simp [admittedRun, ih, run]

theorem parsePacket_payload_length {raw : Packet} {p : VideoPacket}
    (h : parsePacket raw = some p) : p.payload.length ≤ raw.length := by
  unfold parsePacket at h
  simp only at h
  split_ifs at h
  all_goals
    cases h
    simp

/-- The circumstances of a call in a stream whose frames all decode. -/
def quietEnv : Env :=
  ⟨⟨0, false, false, 30, 320, 180⟩, 1, false, true, true⟩

/-- A packet with a plain RTP header. -/
def mkPacket (seq frameId flags : UInt8) (payload : List UInt8) : Packet :=
  [0x80, 0, 0, seq, 0, 0, 0, 0, 0, 0, 0, 0] ++
    [0, 0, 0, 0, frameId, 0, 0, 0, flags, 0, 0, 0, 0, 0, 0, 0] ++ payload

/-! ## Deliveries -/

/-- The frames and buffers handed to the decoder callback. -/
def deliveries (out : List Effect) : List (UInt32 × List UInt8) :=
  out.filterMap fun
    | .deliver frameId buffer => some (frameId, buffer)
    | _ => none

/-- The effects that are not deliveries. -/
def Effect.IsQuiet : Effect → Prop
  | .deliver _ _ => False
  | _ => True

@[simp] theorem deliveries_nil : deliveries [] = [] := rfl

@[simp] theorem deliveries_append (a b : List Effect) :
    deliveries (a ++ b) = deliveries a ++ deliveries b :=
  List.filterMap_append

@[simp] theorem deliveries_emit_deliver (s : Depacketizer) (frameId : UInt32)
    (buffer : List UInt8) : deliveries (s.emit (.deliver frameId buffer)).out =
      deliveries s.out ++ [(frameId, buffer)] :=
  deliveries_append _ _

theorem deliveries_singleton {e : Effect} (h : e.IsQuiet) :
    deliveries [e] = [] := by
  cases e <;> first | rfl | exact h.elim

/-! ## What the waits leave alone -/

/-- The second state differs from the first in waits, flags other than the clean
flag, and effects other than deliveries. -/
structure SameAssembly (s s' : Depacketizer) : Prop where
  asm : s'.asm = s.asm
  clean : s'.flags.fecRecoveryClean = s.flags.fecRecoveryClean
  deliveries : deliveries s'.out = deliveries s.out

namespace SameAssembly

variable {s s' s'' : Depacketizer}

theorem refl (s : Depacketizer) : SameAssembly s s := ⟨rfl, rfl, rfl⟩

theorem trans (h : SameAssembly s s') (h' : SameAssembly s' s'') :
    SameAssembly s s'' :=
  ⟨h'.asm.trans h.asm, h'.clean.trans h.clean,
    h'.deliveries.trans h.deliveries⟩

theorem emit (h : SameAssembly s s') {e : Effect} (he : e.IsQuiet) :
    SameAssembly s (s'.emit e) := by
  refine ⟨h.asm, h.clean, ?_⟩
  rw [Depacketizer.emit, deliveries_append, deliveries_singleton he,
    List.append_nil, h.deliveries]

theorem widenIdrLoss (h : SameAssembly s s') (a b : UInt32) :
    SameAssembly s (widenIdrLoss s' a b) :=
  ⟨h.asm, h.clean, h.deliveries⟩

theorem startIdrWait (env : Env) (h : SameAssembly s s') (a b : UInt32) :
    SameAssembly s (rtpStartIdrWait env s' a b) := by
  unfold rtpStartIdrWait
  cases hw : s'.waits.waitingForIdrFrame with
  | true =>
      simp only [Bool.not_true, Bool.false_eq_true, if_false, if_true]
      refine emit ?_ (by trivial)
      exact ⟨h.asm, h.clean, h.deliveries⟩
  | false =>
      simp only [Bool.not_false, if_true, Bool.false_eq_true, if_false]
      unfold rtpRequestIdrForceForMode
      have hbase : SameAssembly s (s'.emit
          (.idrWaitStarted (lossStart a b) b)) := h.emit (by trivial)
      split_ifs
      all_goals
        refine emit ?_ (by trivial)
        exact ⟨hbase.asm, hbase.clean, hbase.deliveries⟩

theorem markWaitingForRefInval (env : Env) (h : SameAssembly s s')
    (a b : UInt32) : SameAssembly s (rtpMarkWaitingForRefInval env s' a b) := by
  unfold rtpMarkWaitingForRefInval
  simp only
  split_ifs
  · exact h.startIdrWait env _ _
  · have hbase := h.emit (e := .rfiWaitStarted (lossStart a b) b) trivial
    exact ⟨hbase.asm, hbase.clean, hbase.deliveries⟩
  · refine startIdrWait env ?_ _ _
    exact ⟨h.asm, h.clean, h.deliveries⟩
  · exact ⟨h.asm, h.clean, h.deliveries⟩

theorem noteFrameLoss (env : Env) (h : SameAssembly s s') (a b : UInt32) :
    SameAssembly s (rtpReassemblyNoteFrameLoss env s' a b) := by
  unfold rtpReassemblyNoteFrameLoss
  simp only
  split_ifs
  · exact h.widenIdrLoss _ _
  · exact h.startIdrWait env _ _
  · exact h.markWaitingForRefInval env _ _

theorem noteFrameGap (env : Env) (h : SameAssembly s s') (t : Transport)
    (p : VideoPacket) (kind : FrameKind) :
    SameAssembly s (noteFrameGap env s' t p kind) := by
  unfold Reassembly.noteFrameGap
  simp only
  split_ifs
  · exact h
  · exact ((h.markWaitingForRefInval env _ _).emit (by trivial)).emit (by trivial)
  · exact h
  · exact h
  · exact ((h.markWaitingForRefInval env _ _).emit (by trivial)).emit (by trivial)
  · exact (h.markWaitingForRefInval env _ _).emit (by trivial)
  · exact h

theorem noteCorruptRefs (env : Env) (h : SameAssembly s s')
    (p : VideoPacket) : SameAssembly s (noteCorruptRefs env s' p) := by
  unfold Reassembly.noteCorruptRefs
  split
  · exact h.startIdrWait env _ _
  · exact h

theorem repeatIdrRequests (env : Env) (h : SameAssembly s s') :
    SameAssembly s (repeatIdrRequests env s') := by
  unfold Reassembly.repeatIdrRequests
  simp only
  have hfirst : ∀ c : Prop, [Decidable c] →
      SameAssembly s (if c then s'.emit .requestIdr else s') := by
    intro c _
    split
    · exact h.emit (by trivial)
    · exact h
  split_ifs
  all_goals first
    | exact hfirst _
    | exact (h.emit (by trivial)).emit (by trivial)
    | exact h.emit (by trivial)
    | exact h

end SameAssembly

/-! ## A call, condensed to the assembly buffer -/

namespace Assembly

/-- The newest frame seen, with this one. -/
def noteSeen (a : Assembly) (frameId : UInt32) : Assembly :=
  if a.lastSeenFrameId = noFrame ∨ delta frameId a.lastSeenFrameId > 0 then
    { a with lastSeenFrameId := frameId }
  else a

/-- An empty buffer for the frame of the packet, unless it is the current one. -/
def switchTo (a : Assembly) (p : VideoPacket) : Assembly :=
  if p.frameId ≠ a.currentFrameId then
    { a with
      buffer := []
      currentFrameId := p.frameId
      reassembling := false
      frameHadGaps := false
      frameOverflow := false
      sawFirstSof := false
      expectedSeq := p.seq }
  else a

/-- The sequence tracking after a packet. -/
def trackSeq (a : Assembly) (p : VideoPacket) : Assembly :=
  if p.seq ≠ a.expectedSeq then
    { a with frameHadGaps := true, expectedSeq := p.seq + 1 }
  else { a with expectedSeq := p.seq + 1 }

/-- The buffer and the sequence tracking once a packet is attributed to its
frame. -/
def track (a : Assembly) (p : VideoPacket) : Assembly :=
  ((a.noteSeen p.frameId).switchTo p).trackSeq p

/-- The empty buffer of a frame that has just started. -/
def start (a : Assembly) : Assembly :=
  { a with
    reassembling := true
    buffer := []
    sawFirstSof := true
    frameOverflow := false }

/-- The buffer after a frame start was held. -/
def hold (a : Assembly) : Assembly :=
  { a with reassembling := false, buffer := [], sawFirstSof := false }

/-- The buffer with `data` added, or the overflow noted. -/
def append (a : Assembly) (data : List UInt8) : Assembly :=
  if data.length = 0 then a
  else if a.buffer.length + data.length > maxAssemblySize then
    { a with frameOverflow := true }
  else { a with buffer := a.buffer ++ data }

/-- The buffer with a payload added, behind a start code if need be. -/
def add (a : Assembly) (p : VideoPacket) (payload : List UInt8) : Assembly :=
  (if p.firstPacket ∧ isAnnexbStart payload = 0 then a.append [0, 0, 0, 1]
    else a).append payload

/-- The buffer after the frame is completed. -/
def close (a : Assembly) : Assembly :=
  { a with reassembling := false, buffer := [], frameOverflow := false }

end Assembly

/-! ## From the stages of a call to the buffer -/

/-- The second state is the first one with the assembly `a`, up to waits, other
flags and effects that are not deliveries. -/
structure OnlyAssembly (a : Assembly) (s s' : Depacketizer) : Prop where
  asm : s'.asm = a
  clean : s'.flags.fecRecoveryClean = s.flags.fecRecoveryClean
  deliveries : deliveries s'.out = deliveries s.out

theorem OnlyAssembly.trans {a b : Assembly} {s s' s'' : Depacketizer}
    (h : OnlyAssembly a s s') (h' : OnlyAssembly b s' s'') :
    OnlyAssembly b s s'' :=
  ⟨h'.asm, h'.clean.trans h.clean, h'.deliveries.trans h.deliveries⟩

theorem OnlyAssembly.same {a : Assembly} {s s' s'' : Depacketizer}
    (h : OnlyAssembly a s s') (h' : SameAssembly s' s'') :
    OnlyAssembly a s s'' :=
  ⟨h'.asm.trans h.asm, h'.clean.trans h.clean,
    h'.deliveries.trans h.deliveries⟩

theorem noteTransport_spec (env : Env) (s : Depacketizer) (t : Transport)
    (p : VideoPacket) :
    OnlyAssembly (s.asm.noteSeen p.frameId) s (noteTransport env s t p) := by
  unfold noteTransport
  extract_lets start s₁
  have h₁ : SameAssembly s s₁ := by
    unfold s₁
    split
    · exact ((SameAssembly.refl s).markWaitingForRefInval env _ _).emit
        (by trivial)
    · exact SameAssembly.refl s
  rw [Assembly.noteSeen, ← h₁.asm]
  split
  · exact ⟨rfl, h₁.clean, h₁.deliveries⟩
  · exact ⟨rfl, h₁.clean, h₁.deliveries⟩

theorem switchFrame_spec (s : Depacketizer) (p : VideoPacket) :
    OnlyAssembly (s.asm.switchTo p) s (switchFrame s p) := by
  unfold switchFrame Assembly.switchTo
  by_cases hother : p.frameId ≠ s.asm.currentFrameId
  · rw [if_pos hother, if_pos hother]
    extract_lets s₁ s₂
    have h₂ : SameAssembly s s₂ := by
      unfold s₂ s₁
      split_ifs
      · exact ((SameAssembly.refl s).emit (by trivial)).emit (by trivial)
      · exact ((SameAssembly.refl s).emit (by trivial)).emit (by trivial)
      · exact SameAssembly.refl s
    exact ⟨by rw [← h₂.asm], h₂.clean, h₂.deliveries⟩
  · rw [if_neg hother, if_neg hother]
    exact ⟨rfl, rfl, rfl⟩

theorem trackSeq_spec (s : Depacketizer) (p : VideoPacket) :
    OnlyAssembly (s.asm.trackSeq p) s (trackSeq s p) := by
  unfold trackSeq Assembly.trackSeq
  split
  · exact ⟨rfl, rfl, ((SameAssembly.refl s).emit (e := .packetLoss)
      trivial).deliveries⟩
  · exact ⟨rfl, rfl, rfl⟩

theorem track_spec (env : Env) (s : Depacketizer) (t : Transport)
    (p : VideoPacket) :
    OnlyAssembly (s.asm.track p) s
      (trackSeq (switchFrame (noteTransport env s t p) p) p) := by
  have h₁ := noteTransport_spec env s t p
  have h₂ := switchFrame_spec (noteTransport env s t p) p
  have h₃ := trackSeq_spec (switchFrame (noteTransport env s t p) p) p
  rw [h₁.asm] at h₂
  rw [h₂.asm] at h₃
  exact (h₁.trans h₂).trans h₃

theorem startFrame_spec (env : Env) (s : Depacketizer)
    (payload : List UInt8) :
    OnlyAssembly s.asm.start s (startFrame env s payload) := by
  unfold startFrame
  simp only
  split
  · exact ⟨rfl, rfl, rfl⟩
  · exact ⟨rfl, rfl, rfl⟩

/-- A frame start at the waits: it leaves the assembly as it is, or it is
held. -/
inductive GateOutcome (s : Depacketizer) :
    Option Passage × Depacketizer → Prop where
  | passed {s' : Depacketizer} (passage : Passage) (same : SameAssembly s s') :
      GateOutcome s (some passage, s')
  | held {s' : Depacketizer} (asm : s'.asm = s.asm.hold)
      (deliveries : deliveries s'.out = deliveries s.out) :
      GateOutcome s (none, s')

theorem GateOutcome.of_held {s s' : Depacketizer} (h : SameAssembly s s') :
    GateOutcome s (none, holdFrame s') := by
  apply GateOutcome.held
  · rw [← h.asm]
    rfl
  · exact h.deliveries

theorem gateIdr_spec (env : Env) (s : Depacketizer) (kind : FrameKind) :
    GateOutcome s (gateIdr env s kind) := by
  unfold gateIdr
  split
  · exact .passed _ ⟨rfl, rfl, rfl⟩
  · apply GateOutcome.of_held
    apply SameAssembly.repeatIdrRequests
    exact ⟨rfl, rfl, rfl⟩

theorem endRfiWait_same (s : Depacketizer) : SameAssembly s (endRfiWait s) :=
  ⟨rfl, rfl, rfl⟩

theorem holdForRfi_spec (env : Env) (s : Depacketizer) :
    GateOutcome s (holdForRfi env s) := by
  have h := SameAssembly.refl s
  unfold holdForRfi
  extract_lets refStart refEnd reqEnd
  split_ifs
  · exact .of_held (h.startIdrWait env _ _)
  · exact .of_held (h.startIdrWait env _ _)
  · exact .passed _ ((endRfiWait_same s).emit (by trivial))
  · exact .of_held (h.emit (by trivial))
  · exact .of_held h

theorem gateRfi_spec (env : Env) (s : Depacketizer) (p : VideoPacket)
    (kind : FrameKind) : GateOutcome s (gateRfi env s p kind) := by
  unfold gateRfi
  split
  · exact .passed _ (endRfiWait_same s)
  · have h := holdForRfi_spec env (countRfiDrop s p)
    generalize holdForRfi env (countRfiDrop s p) = outcome at h
    cases h with
    | passed passage same => exact .passed passage ⟨same.1, same.2, same.3⟩
    | held asm deliveries => exact .held asm deliveries

theorem gateFrame_spec (env : Env) (s : Depacketizer) (p : VideoPacket)
    (kind : FrameKind) : GateOutcome s (gateFrame env s p kind) := by
  unfold gateFrame
  split_ifs
  · exact gateIdr_spec env s kind
  · exact gateRfi_spec env s p kind
  · exact .passed _ (SameAssembly.refl s)

/-- The payload of a frame's first packet behind the Sunshine header. -/
def sofPayload (p : VideoPacket) : List UInt8 :=
  p.payload.drop (sunshineHeader p.payload).1

/-- The first packet of a frame: the frame has started, or it is held. -/
inductive FirstPacketOutcome (s : Depacketizer) (p : VideoPacket) :
    Option (List UInt8) × Depacketizer → Prop where
  | started {s' : Depacketizer} (only : OnlyAssembly s.asm.start s s') :
      FirstPacketOutcome s p (some (sofPayload p), s')
  | held {s' : Depacketizer} (asm : s'.asm = s.asm.start.hold)
      (deliveries : deliveries s'.out = deliveries s.out) :
      FirstPacketOutcome s p (none, s')

theorem firstPacket_spec (env : Env) (s : Depacketizer) (t : Transport)
    (p : VideoPacket) : FirstPacketOutcome s p (firstPacket env s t p) := by
  unfold firstPacket
  extract_lets kind s₁ s₂ s₃
  have h₁ : OnlyAssembly s.asm.start s s₁ := startFrame_spec env s p.payload
  have h₃ : OnlyAssembly s.asm.start s s₃ :=
    h₁.same (((SameAssembly.refl s₁).noteFrameGap env t p kind).noteCorruptRefs
      env p)
  generalize hg : gateFrame env s₃ p kind = g
  have hgate := gateFrame_spec env s₃ p kind
  rw [hg] at hgate
  cases hgate with
  | passed passage same =>
      apply FirstPacketOutcome.started
      exact h₃.same (same.emit (by trivial))
  | held asm deliveries =>
      apply FirstPacketOutcome.held
      · rw [asm, h₃.asm]
      · rw [deliveries, h₃.deliveries]

/-! ## Appending and completing -/

theorem appendToFrame_spec (s : Depacketizer) (data : List UInt8) :
    OnlyAssembly (s.asm.append data) s (appendToFrame s data) := by
  unfold appendToFrame Assembly.append
  split_ifs
  · exact ⟨rfl, rfl, rfl⟩
  · exact ⟨rfl, rfl, rfl⟩
  · exact ⟨rfl, rfl, rfl⟩

theorem SameAssembly.escalateGaps {s s' : Depacketizer}
    (h : SameAssembly s s') : SameAssembly s (escalateGaps s') := by
  unfold Reassembly.escalateGaps
  split
  · exact ⟨h.asm, h.clean, h.deliveries⟩
  · exact h

theorem recoverGap_same (env : Env) (s : Depacketizer) (frameId : UInt32) :
    SameAssembly s (recoverGap env s frameId) := by
  have h := SameAssembly.refl s
  unfold recoverGap
  split
  · have hrequest := h.emit (e := .requestIdrForce) trivial
    exact ⟨hrequest.asm, hrequest.clean, hrequest.deliveries⟩
  split
  · exact h.startIdrWait env _ _
  · apply SameAssembly.escalateGaps
    exact (h.markWaitingForRefInval env _ _).emit (by trivial)

theorem noteGappedFrame_same (env : Env) (s : Depacketizer)
    (frameId : UInt32) : SameAssembly s (noteGappedFrame env s frameId) := by
  have hcount : SameAssembly s (countGap s) := ⟨rfl, rfl, rfl⟩
  have hrecover := recoverGap_same env (countGap s) frameId
  exact (hcount.trans hrecover).emit (by trivial)

theorem noteIntactFrame_same (s : Depacketizer) :
    SameAssembly s (noteIntactFrame s) := by
  unfold noteIntactFrame
  split
  · exact ⟨rfl, rfl, rfl⟩
  · exact ⟨rfl, rfl, rfl⟩

theorem advanceDecodedFrame_same (s : Depacketizer) (frameId : UInt32) :
    SameAssembly s (rtpAdvanceDecodedFrame s frameId) := by
  unfold rtpAdvanceDecodedFrame
  split
  · exact ⟨rfl, rfl, rfl⟩
  · exact SameAssembly.refl s

theorem deliverFrame_spec (env : Env) (s : Depacketizer) (frameId : UInt32) :
    (deliverFrame env s frameId).asm = s.asm ∧
      deliveries (deliverFrame env s frameId).out =
        deliveries s.out ++ [(frameId, s.asm.buffer)] := by
  have h := advanceDecodedFrame_same
    (rtpFrameCompleteCallback env s frameId) frameId
  constructor
  · exact h.asm
  · rw [deliverFrame, h.deliveries]
    exact deliveries_append _ _

/-- The frame is handed over at its end: it did not overflow, and its gaps, if
any, are vouched for. -/
def Assembly.IsIntact (a : Assembly) (clean : Bool) : Prop :=
  a.buffer ≠ [] ∧ a.frameOverflow = false ∧
    (a.frameHadGaps = false ∨ clean = true)

instance (a : Assembly) (clean : Bool) : Decidable (a.IsIntact clean) :=
  inferInstanceAs (Decidable (_ ∧ _ ∧ _))

/-- A frame at its end: delivered, unless it has gaps that FEC did not vouch
for. -/
theorem finishFrame_spec (env : Env) (s : Depacketizer) (frameId : UInt32) :
    (finishFrame env s frameId).asm = s.asm ∧
      deliveries (finishFrame env s frameId).out = deliveries s.out ++
        if s.asm.frameHadGaps && !s.flags.fecRecoveryClean then []
        else [(frameId, s.asm.buffer)] := by
  unfold finishFrame
  split
  · have h := noteGappedFrame_same env s frameId
    exact ⟨h.asm, h.deliveries.trans (List.append_nil _).symm⟩
  · have hintact := noteIntactFrame_same s
    have hdeliver := deliverFrame_spec env (forgetFrame (noteIntactFrame s))
      frameId
    constructor
    · exact hdeliver.1.trans hintact.asm
    · refine hdeliver.2.trans ?_
      rw [← hintact.deliveries, ← hintact.asm]
      rfl

theorem completeFrame_spec (env : Env) (s : Depacketizer) (frameId : UInt32)
    (hopen : s.asm.reassembling = true) :
    (completeFrame env s frameId).asm = s.asm.close ∧
      deliveries (completeFrame env s frameId).out = deliveries s.out ++
        if s.asm.IsIntact s.flags.fecRecoveryClean then
          [(frameId, s.asm.buffer)] else [] := by
  unfold completeFrame
  by_cases hbuf : s.asm.buffer = []
  · have hlen : ¬(s.asm.buffer.length > 0 ∧ s.asm.reassembling = true) := by
      simp [hbuf]
    rw [if_neg hlen, if_neg (fun h => h.1 hbuf)]
    exact ⟨rfl, (List.append_nil _).symm⟩
  · have hlen : s.asm.buffer.length > 0 ∧ s.asm.reassembling = true :=
      ⟨List.length_pos_iff.mpr hbuf, hopen⟩
    rw [if_pos hlen]
    by_cases hover : s.asm.frameOverflow = true
    · rw [if_pos hover, if_neg (by simp [Assembly.IsIntact, hover])]
      constructor
      · rfl
      · rw [List.append_nil]
        exact ((SameAssembly.refl s).emit (e := .requestIdr)
          trivial).deliveries
    · have hfinish := finishFrame_spec env s frameId
      rw [if_neg hover]
      constructor
      · rw [Assembly.close, ← hfinish.1]
      · refine hfinish.2.trans ?_
        cases hgaps : s.asm.frameHadGaps <;>
          cases hclean : s.flags.fecRecoveryClean <;>
          simp [Assembly.IsIntact, hbuf, hover, hgaps]

/-! ## What a packet does -/

/-- A payload for the frame `a`: the assembly afterwards, and what is handed
over. -/
inductive Added (a : Assembly) (clean : Bool) (p : VideoPacket)
    (payload : List UInt8) : Assembly → List (UInt32 × List UInt8) → Prop where
  | ignored (h : a.reassembling = false ∨ payload = []) :
      Added a clean p payload a []
  | grew (hopen : a.reassembling = true) (hne : payload ≠ [])
      (hends : p.lastPacket = false ∧ p.marker = false) :
      Added a clean p payload (a.add p payload) []
  | dropped (hopen : a.reassembling = true) (hne : payload ≠ [])
      (hends : p.lastPacket = true ∨ p.marker = true)
      (hintact : ¬(a.add p payload).IsIntact clean) :
      Added a clean p payload (a.add p payload).close []
  | delivered (hopen : a.reassembling = true) (hne : payload ≠ [])
      (hends : p.lastPacket = true ∨ p.marker = true)
      (hintact : (a.add p payload).IsIntact clean) :
      Added a clean p payload (a.add p payload).close
        [(p.frameId, (a.add p payload).buffer)]

/-- A packet behind the filters, where `a` has taken account of its frame and
its sequence number. -/
inductive Handled (a : Assembly) (clean : Bool) (p : VideoPacket) :
    Assembly → List (UInt32 × List UInt8) → Prop where
  | repeated (hfirst : p.firstPacket = true) (hsaw : a.sawFirstSof = true) :
      Handled a clean p a []
  | held (hfirst : p.firstPacket = true) (hsaw : a.sawFirstSof = false) :
      Handled a clean p a.start.hold []
  | started {a' : Assembly} {ds : List (UInt32 × List UInt8)}
      (hfirst : p.firstPacket = true) (hsaw : a.sawFirstSof = false)
      (hadd : Added a.start clean p (sofPayload p) a' ds) :
      Handled a clean p a' ds
  | continued {a' : Assembly} {ds : List (UInt32 × List UInt8)}
      (hfirst : p.firstPacket = false)
      (hadd : Added a clean p p.payload a' ds) : Handled a clean p a' ds

@[simp] theorem Assembly.append_reassembling (a : Assembly)
    (data : List UInt8) : (a.append data).reassembling = a.reassembling := by
  unfold Assembly.append
  split_ifs <;> rfl

@[simp] theorem Assembly.add_reassembling (a : Assembly) (p : VideoPacket)
    (payload : List UInt8) :
    (a.add p payload).reassembling = a.reassembling := by
  unfold Assembly.add
  split <;> simp

/-- The payload is added, before the end of the frame is looked at. -/
theorem addPayload_added (s : Depacketizer) (p : VideoPacket)
    (payload : List UInt8) :
    OnlyAssembly (s.asm.add p payload) s
      (appendToFrame
        ((if p.firstPacket ∧ isAnnexbStart payload = 0 then appendStartCode s
          else s).emit (.usable payload.length)) payload) := by
  set s₁ := if p.firstPacket ∧ isAnnexbStart payload = 0 then
    appendStartCode s else s with hs₁
  have h₁ : OnlyAssembly (if p.firstPacket ∧ isAnnexbStart payload = 0 then
      s.asm.append [0, 0, 0, 1] else s.asm) s s₁ := by
    rw [hs₁]
    split
    · exact appendToFrame_spec s _
    · exact ⟨rfl, rfl, rfl⟩
  have hadd := appendToFrame_spec (s₁.emit (.usable payload.length)) payload
  rw [show (s₁.emit (.usable payload.length)).asm = _ from h₁.asm] at hadd
  have hemit : SameAssembly s₁ (s₁.emit (.usable payload.length)) :=
    (SameAssembly.refl s₁).emit (by trivial)
  exact (h₁.same hemit).trans hadd

theorem addPayload_spec (env : Env) (s : Depacketizer) (p : VideoPacket)
    (payload : List UInt8) :
    ∃ ds, deliveries (addPayload env s p payload).out =
        deliveries s.out ++ ds ∧
      Added s.asm s.flags.fecRecoveryClean p payload
        (addPayload env s p payload).asm ds := by
  unfold addPayload
  by_cases hskip : !s.asm.reassembling ∨ payload.length = 0
  · rw [if_pos hskip]
    refine ⟨[], (List.append_nil _).symm, .ignored ?_⟩
    simpa using hskip
  · rw [if_neg hskip]
    extract_lets s₁ s₂
    have hopen : s.asm.reassembling = true := by
      by_contra h
      exact hskip (Or.inl (by simpa using h))
    have hne : payload ≠ [] := fun h => hskip (Or.inr (by rw [h]; rfl))
    have h₂ : OnlyAssembly (s.asm.add p payload) s s₂ :=
      addPayload_added s p payload
    have hopen₂ : s₂.asm.reassembling = true := by
      rw [h₂.asm, Assembly.add_reassembling, hopen]
    split
    · rename_i hends
      obtain ⟨hasm, hdel⟩ := completeFrame_spec env s₂ p.frameId hopen₂
      rw [h₂.asm] at hasm
      rw [h₂.asm, h₂.clean, h₂.deliveries] at hdel
      refine ⟨_, hdel, ?_⟩
      rw [hasm]
      split
      · exact .delivered hopen hne hends ‹_›
      · exact .dropped hopen hne hends ‹_›
    · rename_i hends
      refine ⟨[], h₂.deliveries.trans (List.append_nil _).symm, ?_⟩
      rw [h₂.asm]
      exact .grew hopen hne (by simpa using hends)

theorem processAdmitted_spec (env : Env) (s : Depacketizer)
    (p : VideoPacket) :
    ∃ ds, deliveries (processAdmitted env s p).out =
        deliveries s.out ++ ds ∧
      Handled (s.asm.track p) s.flags.fecRecoveryClean p
        (processAdmitted env s p).asm ds := by
  unfold processAdmitted
  extract_lets t s₁ s₂ s₃
  have h₃ : OnlyAssembly (s.asm.track p) s s₃ := track_spec env s t p
  rw [← h₃.asm, ← h₃.clean, ← h₃.deliveries]
  split
  · rename_i hfirst
    split
    · exact ⟨[], (List.append_nil _).symm, .repeated hfirst ‹_›⟩
    · rename_i hsaw
      have hsaw : s₃.asm.sawFirstSof = false := by simpa using hsaw
      have hout := firstPacket_spec env s₃ t p
      generalize firstPacket env s₃ t p = outcome at hout
      cases hout with
      | started only =>
          rename_i s₄
          obtain ⟨ds, hdel, hadd⟩ := addPayload_spec env s₄ p (sofPayload p)
          rw [only.asm, only.clean] at hadd
          refine ⟨ds, ?_, .started hfirst hsaw hadd⟩
          rw [hdel, only.deliveries]
      | held asm deliveries =>
          refine ⟨[], deliveries.trans (List.append_nil _).symm, ?_⟩
          rw [asm]
          exact .held hfirst hsaw
  · rename_i hfirst
    obtain ⟨ds, hdel, hadd⟩ := addPayload_spec env s₃ p p.payload
    exact ⟨ds, hdel, .continued (by simpa using hfirst) hadd⟩

/-! ## Facts about the tracking -/

namespace Assembly

variable (a : Assembly) (p : VideoPacket)

@[simp] theorem noteSeen_currentFrameId (frameId : UInt32) :
    (a.noteSeen frameId).currentFrameId = a.currentFrameId := by
  unfold noteSeen
  split <;> rfl

@[simp] theorem trackSeq_currentFrameId :
    (a.trackSeq p).currentFrameId = a.currentFrameId := by
  unfold trackSeq
  split <;> rfl

@[simp] theorem track_currentFrameId :
    (a.track p).currentFrameId = p.frameId := by
  rw [track, trackSeq_currentFrameId]
  unfold switchTo
  split
  · rfl
  · rename_i h
    exact (not_not.mp h).symm

@[simp] theorem track_expectedSeq : (a.track p).expectedSeq = p.seq + 1 := by
  unfold track trackSeq
  split <;> rfl

/-- A packet of the current frame only moves the sequence tracking on. -/
structure Continues (a a' : Assembly) (p : VideoPacket) : Prop where
  buffer : a'.buffer = a.buffer
  reassembling : a'.reassembling = a.reassembling
  sawFirstSof : a'.sawFirstSof = a.sawFirstSof
  frameOverflow : a'.frameOverflow = a.frameOverflow
  gaps : a'.frameHadGaps = (a.frameHadGaps || p.seq ≠ a.expectedSeq)

theorem track_of_same (h : p.frameId = a.currentFrameId) :
    Continues a (a.track p) p := by
  have hseen : Continues a ((a.noteSeen p.frameId).trackSeq p) p := by
    unfold noteSeen trackSeq
    split_ifs <;> constructor <;> simp_all
  rwa [track, switchTo, if_neg (by simpa using h)]

theorem track_of_other (h : p.frameId ≠ a.currentFrameId) :
    (a.track p).reassembling = false ∧ (a.track p).sawFirstSof = false := by
  rw [track, switchTo, if_pos (by simpa using h)]
  unfold trackSeq
  split <;> exact ⟨rfl, rfl⟩

theorem same_frame_of_reassembling (h : (a.track p).reassembling = true) :
    p.frameId = a.currentFrameId := by
  by_contra hother
  rw [(a.track_of_other p hother).1] at h
  exact Bool.false_ne_true h

theorem same_frame_of_sawFirstSof (h : (a.track p).sawFirstSof = true) :
    p.frameId = a.currentFrameId := by
  by_contra hother
  rw [(a.track_of_other p hother).2] at h
  exact Bool.false_ne_true h

/-- What adding a payload leaves alone. -/
structure SameTracking (a a' : Assembly) : Prop where
  currentFrameId : a'.currentFrameId = a.currentFrameId
  expectedSeq : a'.expectedSeq = a.expectedSeq
  reassembling : a'.reassembling = a.reassembling
  sawFirstSof : a'.sawFirstSof = a.sawFirstSof
  frameHadGaps : a'.frameHadGaps = a.frameHadGaps
  overflow : a'.frameOverflow = false → a.frameOverflow = false

theorem append_sameTracking (data : List UInt8) :
    SameTracking a (a.append data) := by
  unfold append
  split_ifs <;> constructor <;> simp

theorem SameTracking.trans {a b c : Assembly} (h : SameTracking a b)
    (h' : SameTracking b c) : SameTracking a c :=
  ⟨h'.currentFrameId.trans h.currentFrameId,
    h'.expectedSeq.trans h.expectedSeq,
    h'.reassembling.trans h.reassembling,
    h'.sawFirstSof.trans h.sawFirstSof,
    h'.frameHadGaps.trans h.frameHadGaps,
    fun hc => h.overflow (h'.overflow hc)⟩

theorem add_sameTracking (payload : List UInt8) :
    SameTracking a (a.add p payload) := by
  unfold add
  split
  · exact (a.append_sameTracking _).trans (append_sameTracking _ _)
  · exact a.append_sameTracking _

end Assembly

/-! ## What an event does -/

/-- The assembly after an event without an admitted packet. -/
def Event.silentAsm (a : Assembly) : Event → Assembly
  | .fecPrepare frameId =>
      if a.currentFrameId ≠ frameId then a
      else
        { a with
          buffer := []
          reassembling := false
          frameHadGaps := false
          frameOverflow := false
          sawFirstSof := false
          expectedSeq := 0 }
  | .fecComplete seq => { a with expectedSeq := seq }
  | .reset => Assembly.empty
  | _ => a

theorem step_of_silent (s : Depacketizer) (e : Event)
    (h : e.admitted s = none) :
    (step s e).asm = e.silentAsm s.asm ∧ deliveries (step s e).out = [] := by
  cases e with
  | packet env raw =>
      have hpass : passFilters s.flags raw = none := h
      simp [step, Event.run, rtpReassemblyProcessPacket, hpass,
        Event.silentAsm]
  | fecVouch frameId => exact ⟨rfl, rfl⟩
  | fecPrepare frameId =>
      simp only [step, Event.run, rtpReassemblyPrepareFecFrame,
        Event.silentAsm]
      split <;> exact ⟨rfl, rfl⟩
  | fecComplete seq => exact ⟨rfl, rfl⟩
  | fecDrop clean refs frame idr => exact ⟨rfl, rfl⟩
  | frameLoss env a b =>
      have h := (SameAssembly.refl { s with out := [] }).noteFrameLoss env a b
      exact ⟨h.asm, h.deliveries⟩
  | reset => exact ⟨rfl, rfl⟩

theorem step_of_admitted (s : Depacketizer) (e : Event) (p : VideoPacket)
    (h : e.admitted s = some p) :
    Handled (s.asm.track p) s.flags.fecRecoveryClean p (step s e).asm
      (deliveries (step s e).out) := by
  cases e with
  | packet env raw =>
      have hpass : passFilters s.flags raw = some p := h
      have hstep : step s (.packet env raw) =
          processAdmitted env { s with out := [] } p := by
        simp [step, Event.run, rtpReassemblyProcessPacket, hpass]
      obtain ⟨ds, hdel, hhandled⟩ :=
        processAdmitted_spec env { s with out := [] } p
      rw [hstep, hdel]
      exact hhandled
  | _ => cases h

end MoonlightPsp.Reassembly
