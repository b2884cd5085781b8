import MoonlightPsp.Reassembly.Run

/-!
# The gate behind a loss

After a loss no frame should be decoded until one that repairs it has been.  The
gate watches the effects of a run for that: a wait that starts closes it, and it
opens again when a repairing frame that was accepted afterwards is handed over.

Most of what the depacketizer does only adds to its waits, or does not concern
them at all.  Such steps are told apart here, with what they mean for the gate.
-/

namespace MoonlightPsp.Reassembly

/-! ## The gate -/

/-- The two waits. -/
inductive WaitKind where
  | rfi
  | idr
  deriving DecidableEq

/-- The frames that repair what a wait is for. -/
def FrameKind.repairs (kind : FrameKind) : WaitKind → Bool
  | .rfi => kind.isRefRecovery
  | .idr => kind.isSync

/-- The gate of a wait: clear, pending, or with a repairing frame accepted that
has not been handed over. -/
inductive Gate where
  | clear
  | pending
  | recovering (frameId : UInt32)
  deriving DecidableEq

/-- The gate once a frame passed the waits. -/
def Gate.open (w : WaitKind) (frameId : UInt32) (kind : FrameKind)
    (passage : Passage) (g : Gate) : Gate :=
  match g, passage with
  | .clear, _ => .clear
  | _, .rfiTimeout => .clear
  | g, .unhindered => g
  | g, _ => if kind.repairs w then .recovering frameId else g

/-- The gate after an effect. -/
def Gate.step (w : WaitKind) (g : Gate) : Effect → Gate
  | .rfiWaitStarted _ _ => if w = .rfi then .pending else g
  | .idrWaitStarted _ _ => if w = .idr then .pending else g
  | .opened frameId kind passage => g.open w frameId kind passage
  | .deliver frameId _ => if g = .recovering frameId then .clear else g
  | _ => g

/-- The gate after the effects of a run. -/
def gateAfter (w : WaitKind) (tr : List Effect) : Gate :=
  tr.foldl (Gate.step w) .clear

/-- The last frame that passed the waits. -/
def lastOpened (tr : List Effect) : Option (UInt32 × FrameKind × Passage) :=
  tr.foldl (fun last e => match e with
    | .opened frameId kind passage => some (frameId, kind, passage)
    | _ => last) none

/-- While a gate is not clear, only frames that repair its loss are handed
over. -/
def Gated (tr : List Effect) : Prop :=
  ∀ (pre : List Effect) (frameId : UInt32) (buffer : List UInt8)
    (post : List Effect), tr = pre ++ .deliver frameId buffer :: post →
    ∀ w, gateAfter w pre ≠ .clear →
      ∃ kind passage, lastOpened pre = some (frameId, kind, passage) ∧
        kind.repairs w = true

/-- The effects of a run. -/
def trace (s : Depacketizer) : List Event → List Effect
  | [] => []
  | e :: es => (step s e).out ++ trace (step s e) es

theorem trace_append_singleton (s : Depacketizer) (es : List Event)
    (e : Event) :
    trace s (es ++ [e]) = trace s es ++ (step (run s es) e).out := by
  induction es generalizing s with
  | nil => simp [trace]
  | cons a es ih => simp [trace, ih, run]

@[simp] theorem gateAfter_append (w : WaitKind) (tr new : List Effect) :
    gateAfter w (tr ++ new) = new.foldl (Gate.step w) (gateAfter w tr) :=
  List.foldl_append

theorem lastOpened_append (tr new : List Effect) :
    lastOpened (tr ++ new) = new.foldl (fun last e => match e with
      | .opened frameId kind passage => some (frameId, kind, passage)
      | _ => last) (lastOpened tr) :=
  List.foldl_append

/-! ## Steps that hand nothing over -/

/-- The wait `w` is on, or a stricter one. -/
def Waiting (w : WaitKind) (s : Depacketizer) : Prop :=
  s.waits.waitingForIdrFrame = true ∨
    (w = .rfi ∧ s.waits.waitingForRefInvalFrame = true)

/-- What a step may emit that only adds to the waits. -/
def Effect.Tight (s : Depacketizer) : Effect → Prop
  | .deliver _ _ => False
  | .opened _ _ _ => False
  | .rfiWaitStarted _ _ => Waiting .rfi s
  | .idrWaitStarted _ _ => Waiting .idr s
  | _ => True

/-- A step that only adds to the waits. -/
structure Tightens (s s' : Depacketizer) : Prop where
  waiting : ∀ w, Waiting w s → Waiting w s'
  refs : s.flags.refsCorrupted = true → s'.flags.refsCorrupted = true
  recovery :
    s'.waits.currentFrameIdrRecovery = s.waits.currentFrameIdrRecovery
  lastGood : s'.flags.lastGoodFrame = s.flags.lastGoodFrame
  out : ∃ new, s'.out = s.out ++ new ∧ ∀ e ∈ new, e.Tight s'

/-- An effect that concerns neither the waits nor the frames. -/
def Effect.IsNeutral : Effect → Prop
  | .deliver _ _ | .opened _ _ _ | .rfiWaitStarted _ _
  | .idrWaitStarted _ _ => False
  | _ => True

/-- A step that concerns neither the waits nor the frames. -/
structure Calm (s s' : Depacketizer) : Prop where
  idr : s'.waits.waitingForIdrFrame = s.waits.waitingForIdrFrame
  rfi : s'.waits.waitingForRefInvalFrame = s.waits.waitingForRefInvalFrame
  refs : s'.flags.refsCorrupted = s.flags.refsCorrupted
  recovery :
    s'.waits.currentFrameIdrRecovery = s.waits.currentFrameIdrRecovery
  lastGood : s'.flags.lastGoodFrame = s.flags.lastGoodFrame
  out : ∃ new, s'.out = s.out ++ new ∧ ∀ e ∈ new, e.IsNeutral

theorem Effect.IsNeutral.tight {e : Effect} (h : e.IsNeutral)
    (s : Depacketizer) : e.Tight s := by
  cases e <;> trivial

theorem Effect.Tight.mono {s s' : Depacketizer} {e : Effect}
    (h : e.Tight s) (hw : ∀ w, Waiting w s → Waiting w s') : e.Tight s' := by
  cases e <;> first | trivial | exact h.elim | exact hw _ h

namespace Calm

variable {s s' s'' : Depacketizer}

theorem refl (s : Depacketizer) : Calm s s :=
  ⟨rfl, rfl, rfl, rfl, rfl, [], (List.append_nil _).symm, by simp⟩

theorem trans (h : Calm s s') (h' : Calm s' s'') : Calm s s'' := by
  obtain ⟨new, hout, hnew⟩ := h.out
  obtain ⟨new', hout', hnew'⟩ := h'.out
  refine ⟨h'.idr.trans h.idr, h'.rfi.trans h.rfi, h'.refs.trans h.refs,
    h'.recovery.trans h.recovery, h'.lastGood.trans h.lastGood,
    new ++ new', by rw [hout', hout, List.append_assoc], ?_⟩
  intro e he
  rcases List.mem_append.mp he with he | he
  · exact hnew e he
  · exact hnew' e he

theorem emit (s : Depacketizer) {e : Effect} (h : e.IsNeutral) :
    Calm s (s.emit e) :=
  ⟨rfl, rfl, rfl, rfl, rfl, [e], rfl, by simpa using h⟩

theorem waiting_iff (h : Calm s s') (w : WaitKind) :
    Waiting w s' ↔ Waiting w s := by
  rw [Waiting, Waiting, h.idr, h.rfi]

theorem tightens (h : Calm s s') : Tightens s s' := by
  obtain ⟨new, hout, hnew⟩ := h.out
  exact ⟨fun w => (h.waiting_iff w).mpr, fun hs => h.refs.trans hs,
    h.recovery, h.lastGood, new, hout, fun e he => (hnew e he).tight s'⟩

end Calm

namespace Tightens

variable {s s' s'' : Depacketizer}

theorem refl (s : Depacketizer) : Tightens s s := (Calm.refl s).tightens

theorem trans (h : Tightens s s') (h' : Tightens s' s'') : Tightens s s'' := by
  obtain ⟨new, hout, hnew⟩ := h.out
  obtain ⟨new', hout', hnew'⟩ := h'.out
  refine ⟨fun w hw => h'.waiting w (h.waiting w hw),
    fun hs => h'.refs (h.refs hs), h'.recovery.trans h.recovery,
    h'.lastGood.trans h.lastGood, new ++ new',
    by rw [hout', hout, List.append_assoc], ?_⟩
  intro e he
  rcases List.mem_append.mp he with he | he
  · exact (hnew e he).mono h'.waiting
  · exact hnew' e he

theorem emit (h : Tightens s s') {e : Effect} (he : e.IsNeutral) :
    Tightens s (s'.emit e) :=
  h.trans (Calm.emit s' he).tightens

theorem startIdrWait (env : Env) (s : Depacketizer) (a b : UInt32) :
    Tightens s (rtpStartIdrWait env s a b) ∧
      (rtpStartIdrWait env s a b).waits.waitingForIdrFrame = true := by
  have hforce : ∀ s, Calm s (rtpRequestIdrForceForMode env.config s) := by
    intro s
    unfold rtpRequestIdrForceForMode
    split
    · exact Calm.emit s (by trivial)
    · exact Calm.emit s (by trivial)
  unfold rtpStartIdrWait
  cases hw : s.waits.waitingForIdrFrame with
  | true =>
      simp only [Bool.not_true, Bool.false_eq_true, if_false, if_true]
      refine ⟨emit ?_ (by trivial), rfl⟩
      exact ⟨fun _ _ => Or.inl rfl, fun _ => rfl, rfl, rfl, [],
        (List.append_nil _).symm, by simp⟩
  | false =>
      simp only [Bool.not_false, if_true, Bool.false_eq_true, if_false]
      constructor
      · refine trans ?_ (hforce _).tightens
        refine ⟨fun _ _ => Or.inl rfl, fun _ => rfl, rfl, rfl,
          [.idrWaitStarted (lossStart a b) b], rfl, ?_⟩
        intro e he
        rw [List.mem_singleton] at he
        subst he
        exact Or.inl rfl
      · rw [(hforce _).idr]
        rfl

theorem markWaitingForRefInval (env : Env) (s : Depacketizer)
    (a b : UInt32) :
    Tightens s (rtpMarkWaitingForRefInval env s a b) ∧
      Waiting .rfi (rtpMarkWaitingForRefInval env s a b) := by
  unfold rtpMarkWaitingForRefInval
  simp only
  split_ifs with hspan hnot hspan'
  · obtain ⟨h, hidr⟩ := startIdrWait env s (lossStart a b) b
    exact ⟨h, Or.inl hidr⟩
  · have hrfi : Waiting .rfi { s with
        waits.refInvalStart := lossStart a b
        waits.refInvalEnd := b
        waits.waitingForRefInvalFrame := true
        waits.rfiWaitDropCount := 0
        waits.refInvalWaitStartUs := env.now
        out := s.out ++ [.rfiWaitStarted (lossStart a b) b] } :=
      Or.inr ⟨rfl, rfl⟩
    refine ⟨⟨?_, id, rfl, rfl, [.rfiWaitStarted (lossStart a b) b], rfl, ?_⟩,
      hrfi⟩
    · rintro w (hidr | ⟨rfl, -⟩)
      · exact Or.inl hidr
      · exact hrfi
    · intro e he
      rw [List.mem_singleton] at he
      subst he
      exact hrfi
  · obtain ⟨h, hidr⟩ := startIdrWait env { s with
        waits.refInvalStart :=
          SerialNumber.earlier (lossStart a b) s.waits.refInvalStart
        waits.refInvalEnd := SerialNumber.later b s.waits.refInvalEnd }
      (SerialNumber.earlier (lossStart a b) s.waits.refInvalStart)
      (SerialNumber.later b s.waits.refInvalEnd)
    exact ⟨⟨h.waiting, h.refs, h.recovery, h.lastGood, h.out⟩, Or.inl hidr⟩
  · refine ⟨⟨fun _ => id, id, rfl, rfl, [], (List.append_nil _).symm,
      by simp⟩, Or.inr ⟨rfl, ?_⟩⟩
    simpa using hnot

theorem noteFrameLoss (env : Env) (s : Depacketizer) (a b : UInt32) :
    Tightens s (rtpReassemblyNoteFrameLoss env s a b) := by
  unfold rtpReassemblyNoteFrameLoss
  simp only
  split_ifs
  · exact ⟨fun _ => id, id, rfl, rfl, [], (List.append_nil _).symm, by simp⟩
  · exact (startIdrWait env s _ _).1
  · exact (markWaitingForRefInval env s _ _).1

theorem noteFrameGap (env : Env) (s : Depacketizer) (t : Transport)
    (p : VideoPacket) (kind : FrameKind) :
    Tightens s (noteFrameGap env s t p kind) := by
  unfold Reassembly.noteFrameGap
  simp only
  split_ifs
  · exact refl s
  · exact (emit (markWaitingForRefInval env s _ _).1 (by trivial)).emit
      (by trivial)
  · exact refl s
  · exact refl s
  · exact (emit (markWaitingForRefInval env s _ _).1 (by trivial)).emit
      (by trivial)
  · exact emit (markWaitingForRefInval env s _ _).1 (by trivial)
  · exact refl s

/-- After `noteCorruptRefs` corrupt references imply an IDR wait. -/
theorem noteCorruptRefs (env : Env) (s : Depacketizer) (p : VideoPacket) :
    Tightens s (noteCorruptRefs env s p) ∧
      ((noteCorruptRefs env s p).flags.refsCorrupted = true →
        (noteCorruptRefs env s p).waits.waitingForIdrFrame = true) := by
  unfold Reassembly.noteCorruptRefs
  split
  · obtain ⟨h, hidr⟩ := startIdrWait env s
      (if s.flags.lastGoodFrame ≠ 0 then s.flags.lastGoodFrame + 1
        else p.frameId) p.frameId
    exact ⟨h, fun _ => hidr⟩
  · rename_i h
    refine ⟨refl s, fun hrefs => ?_⟩
    by_contra hidr
    exact h ⟨hrefs, by simpa using hidr⟩

end Tightens

/-! ## The gate under such steps -/

/-- The effects since the start of the run. -/
def soFar (past : List Effect) (s : Depacketizer) : List Effect :=
  past ++ s.out

variable {past : List Effect} {s s' : Depacketizer}

theorem foldl_tight {w : WaitKind} {new : List Effect}
    (hnew : ∀ e ∈ new, e.Tight s) (g : Gate) :
    new.foldl (Gate.step w) g = g ∨ Waiting w s := by
  induction new generalizing g with
  | nil => exact Or.inl rfl
  | cons e new ih =>
      have he := hnew e List.mem_cons_self
      have hrest : ∀ e ∈ new, e.Tight s :=
        fun e' he' => hnew e' (List.mem_cons_of_mem _ he')
      have hstep : Gate.step w g e = g ∨ Waiting w s := by
        cases e with
        | rfiWaitStarted a b =>
            by_cases hw : w = .rfi
            · subst hw
              exact Or.inr he
            · exact Or.inl (if_neg hw)
        | idrWaitStarted a b =>
            by_cases hw : w = .idr
            · subst hw
              exact Or.inr he
            · exact Or.inl (if_neg hw)
        | deliver => exact he.elim
        | opened => exact he.elim
        | _ => exact Or.inl rfl
      rw [List.foldl_cons]
      rcases hstep with hstep | hw
      · rw [hstep]
        exact ih hrest g
      · exact Or.inr hw

theorem foldl_neutral {w : WaitKind} {new : List Effect}
    (hnew : ∀ e ∈ new, e.IsNeutral) (g : Gate) :
    new.foldl (Gate.step w) g = g := by
  induction new generalizing g with
  | nil => rfl
  | cons e new ih =>
      have he := hnew e List.mem_cons_self
      have hstep : Gate.step w g e = g := by
        cases e <;> first | rfl | exact he.elim
      rw [List.foldl_cons, hstep]
      exact ih (fun e' he' => hnew e' (List.mem_cons_of_mem _ he')) g

theorem foldl_lastOpened_tight {new : List Effect}
    (hnew : ∀ e ∈ new, e.Tight s)
    (last : Option (UInt32 × FrameKind × Passage)) :
    new.foldl (fun last e => match e with
      | .opened frameId kind passage => some (frameId, kind, passage)
      | _ => last) last = last := by
  induction new generalizing last with
  | nil => rfl
  | cons e new ih =>
      have he := hnew e List.mem_cons_self
      rw [List.foldl_cons]
      cases e with
      | opened => exact he.elim
      | _ => exact ih (fun e' he' => hnew e' (List.mem_cons_of_mem _ he')) last

/-- Effects that are no deliveries keep a trace gated. -/
theorem Gated.append {tr new : List Effect} (h : Gated tr)
    (hnew : ∀ e ∈ new, ∀ f b, e ≠ .deliver f b) : Gated (tr ++ new) := by
  intro pre frameId buffer post hsplit w hw
  rcases List.append_eq_append_iff.mp hsplit with
    ⟨z, hx, hz⟩ | ⟨z, hx, hz⟩
  · -- the delivery would be one of the new effects
    refine (hnew (.deliver frameId buffer) ?_ frameId buffer rfl).elim
    rw [hz]
    simp
  · cases z with
    | nil =>
        refine (hnew (.deliver frameId buffer) ?_ frameId buffer rfl).elim
        rw [List.nil_append] at hz
        rw [← hz]
        exact List.mem_cons_self
    | cons e z =>
        rw [List.cons_append, List.cons.injEq] at hz
        obtain ⟨rfl, -⟩ := hz
        exact h pre frameId buffer z hx w hw

/-- A delivery keeps a trace gated if the frame repairs what is pending. -/
theorem Gated.deliver {tr : List Effect} (h : Gated tr) {frameId : UInt32}
    {buffer : List UInt8}
    (hrepairs : ∀ w, gateAfter w tr ≠ .clear →
      ∃ kind passage, lastOpened tr = some (frameId, kind, passage) ∧
        kind.repairs w = true) :
    Gated (tr ++ [.deliver frameId buffer]) := by
  intro pre frameId' buffer' post hsplit w hw
  rcases List.append_eq_append_iff.mp hsplit with
    ⟨z, hx, hz⟩ | ⟨z, hx, hz⟩
  · cases z with
    | nil =>
        rw [List.nil_append, List.cons.injEq, Effect.deliver.injEq] at hz
        obtain ⟨⟨rfl, rfl⟩, -⟩ := hz
        rw [List.append_nil] at hx
        subst hx
        exact hrepairs w hw
    | cons e z => simp at hz
  · cases z with
    | nil =>
        rw [List.nil_append, List.cons.injEq, Effect.deliver.injEq] at hz
        obtain ⟨⟨rfl, rfl⟩, -⟩ := hz
        rw [List.append_nil] at hx
        subst hx
        exact hrepairs w hw
    | cons e z =>
        rw [List.cons_append, List.cons.injEq] at hz
        obtain ⟨rfl, -⟩ := hz
        exact h pre frameId' buffer' z hx w hw

theorem Effect.Tight.ne_deliver {e : Effect} (h : e.Tight s) (f : UInt32)
    (b : List UInt8) : e ≠ .deliver f b := by
  rintro rfl
  exact h

theorem Tightens.soFar (h : Tightens s s') (past : List Effect) :
    (∀ w, gateAfter w (soFar past s') = gateAfter w (soFar past s) ∨
      Waiting w s') ∧
    lastOpened (Reassembly.soFar past s') =
      lastOpened (Reassembly.soFar past s) ∧
    (Gated (Reassembly.soFar past s) →
      Gated (Reassembly.soFar past s')) := by
  obtain ⟨new, hout, hnew⟩ := h.out
  have hsplit : Reassembly.soFar past s' = Reassembly.soFar past s ++ new := by
    rw [Reassembly.soFar, Reassembly.soFar, hout, List.append_assoc]
  rw [hsplit]
  refine ⟨fun w => ?_, ?_, fun hgated => ?_⟩
  · rw [gateAfter_append]
    exact foldl_tight hnew _
  · rw [lastOpened_append]
    exact foldl_lastOpened_tight hnew _
  · exact hgated.append fun e he => (hnew e he).ne_deliver

theorem Calm.gateAfter_eq (h : Calm s s') (past : List Effect)
    (w : WaitKind) :
    gateAfter w (soFar past s') = gateAfter w (soFar past s) := by
  obtain ⟨new, hout, hnew⟩ := h.out
  rw [soFar, soFar, hout, ← List.append_assoc, gateAfter_append,
    foldl_neutral hnew]

/-! ## The invariant -/

/-- The frame that passed the waits last repairs what `w` is for. -/
def OpenedRepairs (w : WaitKind) (tr : List Effect) : Prop :=
  ∃ frameId kind passage,
    lastOpened tr = some (frameId, kind, passage) ∧ kind.repairs w = true

/-- The frame that passed the waits last was accepted for repairing. -/
def OpenedAsRecovery (tr : List Effect) : Prop :=
  ∃ frameId kind passage,
    lastOpened tr = some (frameId, kind, passage) ∧
      (passage = .idrRecovery ∨ passage = .rfiRecovery)

/-- The gate of `w` rests on the repairing frame that is being assembled. -/
structure Recovering (w : WaitKind) (tr : List Effect) (s : Depacketizer) :
    Prop where
  gate : gateAfter w tr = .recovering s.asm.currentFrameId
  repairs : OpenedRepairs w tr
  accepted : OpenedAsRecovery tr
  sync : w = .idr → s.waits.currentFrameIdrRecovery = true

/-- What keeps the gate of `w` closed. -/
inductive Guarded (w : WaitKind) (tr : List Effect) (s : Depacketizer) :
    Prop where
  | waiting (on : Waiting w s)
      (frame : s.asm.reassembling = true → OpenedRepairs w tr)
  | corrupt (refs : s.flags.refsCorrupted = true)
      (idle : s.asm.reassembling = false)
  | recovering (ongoing : s.asm.reassembling = true)
      (rests : Recovering w tr s)

/-- The invariant of a run with the effects `tr`. -/
structure GateInv (tr : List Effect) (s : Depacketizer) : Prop where
  gated : Gated tr
  started : s.asm.reassembling = true → s.asm.sawFirstSof = true ∧
    ∃ kind passage, lastOpened tr =
      some (s.asm.currentFrameId, kind, passage)
  guarded : ∀ w, gateAfter w tr ≠ .clear → Guarded w tr s

/-- Gates that are not clear are held by a wait or the corrupt references. -/
def Barred (tr : List Effect) (s : Depacketizer) : Prop :=
  ∀ w, gateAfter w tr ≠ .clear →
    Waiting w s ∨ s.flags.refsCorrupted = true

theorem Barred.tighten (h : Barred (soFar past s) s) (ht : Tightens s s') :
    Barred (soFar past s') s' := by
  intro w hw
  rcases (ht.soFar past).1 w with hgate | hwaiting
  · rw [hgate] at hw
    exact (h w hw).imp (ht.waiting w) ht.refs
  · exact Or.inl hwaiting

/-- With no frame being assembled the gates are barred, and conversely. -/
theorem GateInv.barred {tr : List Effect} (h : GateInv tr s)
    (hidle : s.asm.reassembling = false) : Barred tr s := by
  intro w hw
  cases h.guarded w hw with
  | waiting on _ => exact Or.inl on
  | corrupt refs _ => exact Or.inr refs
  | recovering ongoing _ => simp [hidle] at ongoing

theorem gateInv_of_barred {tr : List Effect} (hgated : Gated tr)
    (hidle : s.asm.reassembling = false) (hbarred : Barred tr s) :
    GateInv tr s where
  gated := hgated
  started := by simp [hidle]
  guarded := by
    intro w hw
    rcases hbarred w hw with hwaiting | hrefs
    · exact .waiting hwaiting (by simp [hidle])
    · exact .corrupt hrefs hidle

/-- A calm step that keeps the frame keeps the invariant. -/
theorem GateInv.calm (h : GateInv (soFar past s) s) (hc : Calm s s')
    (hopen : s'.asm.reassembling = s.asm.reassembling)
    (hsaw : s'.asm.sawFirstSof = s.asm.sawFirstSof)
    (hcurrent : s'.asm.currentFrameId = s.asm.currentFrameId) :
    GateInv (soFar past s') s' := by
  obtain ⟨-, hlast, hgated⟩ := hc.tightens.soFar past
  refine ⟨hgated h.gated, ?_, ?_⟩
  · intro ho
    rw [hsaw, hcurrent, hlast]
    exact h.started (hopen.symm.trans ho)
  · intro w hw
    rw [hc.gateAfter_eq past] at hw
    cases h.guarded w hw with
    | waiting on frame =>
        apply Guarded.waiting ((hc.waiting_iff w).mpr on)
        intro ho
        rw [OpenedRepairs, hlast]
        exact frame (hopen.symm.trans ho)
    | corrupt refs idle =>
        exact .corrupt (hc.refs.trans refs) (hopen.trans idle)
    | recovering ongoing rests =>
        apply Guarded.recovering (hopen.trans ongoing)
        constructor
        · rw [hc.gateAfter_eq past, hcurrent]
          exact rests.gate
        · rw [OpenedRepairs, hlast]
          exact rests.repairs
        · rw [OpenedAsRecovery, hlast]
          exact rests.accepted
        · intro hw
          exact hc.recovery.trans (rests.sync hw)

end MoonlightPsp.Reassembly
