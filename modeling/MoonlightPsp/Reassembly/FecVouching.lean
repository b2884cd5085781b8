import MoonlightPsp.Reassembly.Assembly

/-!
# Gapped access units

A frame with a gap in its sequence numbers is handed to the decoder only if
`g_fec_recovery_clean` is set.  The flag does not say for which frame it was
set, and not every exit of the depacketizer clears it; nor does
`rtp_reassembly_note_fec_frame_complete` say which frame it is about.
-/

namespace MoonlightPsp.Reassembly

open Collection

/-- After the run `es`, the event `e` keeps what FEC said to the frame that it
was said about: a packet that meets the clean flag is of a frame the flag was
set for, the expected sequence number is set while no other frame is being
assembled, and a packet that claims to open its frame again is not at the
expected number. -/
structure FecSpeaksOfOwnFrame (es : List Event) (e : Event) : Prop where
  clean : ∀ p, e.admitted (run .initial es) = some p →
    (run .initial es).flags.fecRecoveryClean = true →
    .fecVouch p.frameId ∈ es
  complete : ∀ seq, e = .fecComplete seq →
    (run .initial es).asm.reassembling = true →
    .fecVouch (run .initial es).asm.currentFrameId ∈ es
  repeated : ∀ p, e.admitted (run .initial es) = some p →
    p.firstPacket = true →
    (run .initial es).asm.reassembling = true →
    p.frameId = (run .initial es).asm.currentFrameId →
    p.seq ≠ (run .initial es).asm.expectedSeq

/-- The packet of an event after the opening one is among the later packets. -/
theorem Collection.mem_later {c : Collection} {x y : List Event} {e : Event}
    {p : VideoPacket} (hsplit : c.after = x ++ e :: y)
    (hpass : e.admitted (c.stateAfter x) = some p) : p ∈ c.later := by
  have hstate : run (c.stateAfter []) x = c.stateAfter x := by
    simp [stateAfter, run]
  rw [later, hsplit, admittedRun_append, hstate, List.mem_append]
  apply Or.inr
  simp [admittedRun, hpass]

/-- What FEC said about other frames does not disturb the tracking of a frame it
did not vouch for. -/
theorem Collection.tracked_of_unvouched {c : Collection} {a : Assembly}
    {es : List Event} {e : Event} (hevents : c.events = es ++ [e])
    (hholds : c.Holds a)
    (hown : ∀ es₁ e₁ es₂, es ++ [e] = es₁ ++ e₁ :: es₂ →
      FecSpeaksOfOwnFrame es₁ e₁)
    (hunvouched : .fecVouch c.sof.frameId ∉ es) : c.Tracked := by
  intro x e' y hsplit
  set es₁ := c.before ++ c.opening :: x with hes₁
  have hrun : es ++ [e] = es₁ ++ e' :: y := by
    rw [← hevents, Collection.events, hsplit]
    simp [hes₁]
  have hprefix : ∀ e'' ∈ es₁, e'' ∈ es := by
    intro e'' hmem
    have hlen : es₁.length ≤ es.length := by
      have hlen := congrArg List.length hrun
      simp only [List.length_append, List.length_cons, List.length_nil] at hlen
      omega
    have hpre : es₁ <+: es :=
      List.prefix_of_prefix_length_le ⟨_, hrun.symm⟩ ⟨[e], rfl⟩ hlen
    exact hpre.subset hmem
  have hfec := hown es₁ e' y hrun
  have hongoing := (hholds.ongoing x e' y hsplit).1
  constructor
  · intro seq heq
    apply hunvouched
    rw [← hongoing.currentFrameId]
    exact hprefix _ (hfec.complete seq heq hongoing.reassembling)
  · intro p hpass hfirst
    apply hfec.repeated p hpass hfirst hongoing.reassembling
    rw [hholds.sameFrame p (mem_later hsplit hpass)]
    exact hongoing.currentFrameId.symm

/-- In a run where what FEC says is kept to the frame that it is about, every
buffer handed to the decoder is made of packets of one frame with consecutive
sequence numbers, or FEC vouched for the frame. -/
theorem delivered_gapless_or_vouched (es : List Event) (e : Event)
    (frameId : UInt32) (buffer : List UInt8)
    (hown : ∀ es₁ e₁ es₂, es ++ [e] = es₁ ++ e₁ :: es₂ →
      FecSpeaksOfOwnFrame es₁ e₁)
    (h : (frameId, buffer) ∈ deliveries (step (run .initial es) e).out) :
    ∃ c : Collection, c.events = es ++ [e] ∧ c.sof.frameId = frameId ∧
      (∀ p ∈ c.later, p.frameId = frameId) ∧ c.EndsOnce ∧
      buffer = accessUnit c.pieces ∧
      (ConsecutiveSeq c.pieces ∨ .fecVouch frameId ∈ es) := by
  obtain ⟨c, a, hc⟩ := completes_of_delivered h
  have hunit := (hc.holds.buffer hc.intact.2.1).1
  have hhanded := hc.handedOver
  rw [Prod.mk.injEq] at hhanded
  obtain ⟨rfl, rfl⟩ := hhanded
  refine ⟨c, hc.events, rfl, hc.holds.sameFrame, hc.endsOnce, hunit, ?_⟩
  by_cases hvouched : .fecVouch c.sof.frameId ∈ es
  · exact Or.inr hvouched
  · apply Or.inl
    rcases hc.intact.2.2 with hgaps | hclean
    · have htracked := tracked_of_unvouched hc.events hc.holds hown hvouched
      exact (hc.holds.gapless htracked hgaps).1
    · obtain ⟨p, hpass, hframe⟩ := hc.packet
      have hmem := (hown es e [] rfl).clean p hpass hclean
      rw [hframe] at hmem
      exact (hvouched hmem).elim

/-- A frame with a gap that FEC vouched for: the flag meets its own frame. -/
def vouchedRun : List Event :=
  [.fecVouch 1, .fecPrepare 1, .packet quietEnv (mkPacket 0 1 5 [0, 0, 1, 0x65])]

/-- The packet that ends the frame of `vouchedRun`, one packet after a gap. -/
def vouchedEnd : Event := .packet quietEnv (mkPacket 2 1 3 [0x88])

theorem vouchedRun_own (es₁ : List Event) (e₁ : Event) (es₂ : List Event)
    (hsplit : vouchedRun ++ [vouchedEnd] = es₁ ++ e₁ :: es₂) :
    FecSpeaksOfOwnFrame es₁ e₁ := by
  rcases es₁ with _ | ⟨a, _ | ⟨b, _ | ⟨c, _ | ⟨d, rest⟩⟩⟩⟩
  · obtain ⟨rfl, -⟩ : Event.fecVouch 1 = e₁ ∧ _ := by
      simpa [vouchedRun] using hsplit
    constructor <;> simp [Event.admitted]
  · obtain ⟨rfl, rfl, -⟩ : Event.fecVouch 1 = a ∧ Event.fecPrepare 1 = e₁ ∧
        _ := by
      simpa [vouchedRun] using hsplit
    constructor <;> simp [Event.admitted]
  · obtain ⟨rfl, rfl, rfl, -⟩ : Event.fecVouch 1 = a ∧
        Event.fecPrepare 1 = b ∧
        Event.packet quietEnv (mkPacket 0 1 5 [0, 0, 1, 0x65]) = e₁ ∧ _ := by
      simpa [vouchedRun] using hsplit
    constructor
    · intro p hpass _
      have hframe := congrArg (Option.map VideoPacket.frameId) hpass
      have hone : p.frameId = 1 := (Option.some.inj hframe).symm
      rw [hone]
      exact List.mem_cons_self
    · simp
    · intro p _ _ hopen
      exact absurd hopen (by decide)
  · obtain ⟨rfl, rfl, rfl, rfl, -⟩ : Event.fecVouch 1 = a ∧
        Event.fecPrepare 1 = b ∧
        Event.packet quietEnv (mkPacket 0 1 5 [0, 0, 1, 0x65]) = c ∧
        vouchedEnd = e₁ ∧ _ := by
      simpa [vouchedRun] using hsplit
    constructor
    · intro p hpass _
      have hframe := congrArg (Option.map VideoPacket.frameId) hpass
      have hone : p.frameId = 1 := (Option.some.inj hframe).symm
      rw [hone]
      exact List.mem_cons_self
    · simp [vouchedEnd]
    · intro p hpass hfirst
      have hnot := congrArg (Option.map VideoPacket.firstPacket) hpass
      have hfalse : p.firstPacket = false := (Option.some.inj hnot).symm
      rw [hfalse] at hfirst
      cases hfirst
  · simp [vouchedRun] at hsplit

theorem delivered_gapless_or_vouched_with_gap :
    ∃ c : Collection, c.events = vouchedRun ++ [vouchedEnd] ∧
      c.sof.frameId = 1 ∧ (∀ p ∈ c.later, p.frameId = 1) ∧ c.EndsOnce ∧
      [0, 0, 1, 0x65, 0x88] = accessUnit c.pieces ∧
      (ConsecutiveSeq c.pieces ∨ .fecVouch 1 ∈ vouchedRun) :=
  delivered_gapless_or_vouched vouchedRun vouchedEnd 1 [0, 0, 1, 0x65, 0x88]
    vouchedRun_own (by decide)

/-- FEC vouches for frame 1, whose packet is then turned away for its flags, so
that the clean flag outlives the frame; frame 2 opens. -/
def staleRun : List Event :=
  [.fecVouch 1, .fecPrepare 1, .packet quietEnv (mkPacket 0 1 0x2E [0x65]),
    .fecComplete 1, .packet quietEnv (mkPacket 1 2 5 [0, 0, 1, 0x65])]

/-- The end of frame 2, one packet after a gap. -/
def staleEnd : Event := .packet quietEnv (mkPacket 3 2 3 [0x88])

/-- A gapped frame that nothing vouched for reaches the decoder, on the clean
flag of an earlier frame. -/
theorem gapped_delivered_on_stale_flag :
    ¬ ∀ (es : List Event) (e : Event) (frameId : UInt32)
        (buffer : List UInt8),
      (frameId, buffer) ∈ deliveries (step (run .initial es) e).out →
      ∃ c : Collection, c.events = es ++ [e] ∧ c.sof.frameId = frameId ∧
        buffer = accessUnit c.pieces ∧
        (ConsecutiveSeq c.pieces ∨ .fecVouch frameId ∈ es) := by
  intro hclaim
  obtain ⟨c, hevents, -, -, hgapless⟩ := hclaim staleRun staleEnd 2
    [0, 0, 1, 0x65, 0x88] (by decide)
  have hconsecutive : ConsecutiveSeq c.pieces := by
    apply hgapless.resolve_right
    simp [staleRun]
  obtain ⟨before, opening, after, sof, hpass, hfirst⟩ := c
  -- only the packet of frame 2 in `staleRun` can be the opening one
  have hopens : ∀ {s : Depacketizer} {e : Event},
      (e.admitted s).any (·.firstPacket) = false →
      e.admitted s = some sof → False := by
    intro s e hnone hsome
    rw [hsome] at hnone
    simp [hfirst] at hnone
  have hsplit : staleRun ++ [staleEnd] = before ++ opening :: after :=
    hevents.symm
  rcases before with
    _ | ⟨a, _ | ⟨b, _ | ⟨d, _ | ⟨f, _ | ⟨g, _ | ⟨h, rest⟩⟩⟩⟩⟩⟩
  · obtain ⟨rfl, -⟩ : Event.fecVouch 1 = opening ∧ _ := by
      simpa [staleRun] using hsplit
    exact hopens (by decide) hpass
  · obtain ⟨rfl, rfl, -⟩ : Event.fecVouch 1 = a ∧
        Event.fecPrepare 1 = opening ∧ _ := by
      simpa [staleRun] using hsplit
    exact hopens (by decide) hpass
  · obtain ⟨rfl, rfl, rfl, -⟩ : Event.fecVouch 1 = a ∧
        Event.fecPrepare 1 = b ∧
        Event.packet quietEnv (mkPacket 0 1 0x2E [0x65]) = opening ∧ _ := by
      simpa [staleRun] using hsplit
    exact hopens (by decide) hpass
  · obtain ⟨rfl, rfl, rfl, rfl, -⟩ : Event.fecVouch 1 = a ∧
        Event.fecPrepare 1 = b ∧
        Event.packet quietEnv (mkPacket 0 1 0x2E [0x65]) = d ∧
        Event.fecComplete 1 = opening ∧ _ := by
      simpa [staleRun] using hsplit
    exact hopens (by decide) hpass
  · obtain ⟨rfl, rfl, rfl, rfl, rfl, rfl⟩ : Event.fecVouch 1 = a ∧
        Event.fecPrepare 1 = b ∧
        Event.packet quietEnv (mkPacket 0 1 0x2E [0x65]) = d ∧
        Event.fecComplete 1 = f ∧
        Event.packet quietEnv (mkPacket 1 2 5 [0, 0, 1, 0x65]) = opening ∧
        [staleEnd] = after := by
      simpa [staleRun] using hsplit
    have hseqs := congrArg (Option.map VideoPacket.seq) hpass
    have hseq : sof.seq = 1 := (Option.some.inj hseqs).symm
    have hpieces : ∃ p, Collection.pieces ⟨_, _, [staleEnd], sof, hpass,
        hfirst⟩ = [sof.stripped, p] ∧ p.seq = 3 := ⟨_, rfl, rfl⟩
    obtain ⟨p, hpieces, hthree⟩ := hpieces
    rw [hpieces] at hconsecutive
    have hnext := (List.isChain_cons_cons.mp hconsecutive).1
    rw [hthree, show sof.stripped.seq = sof.seq from rfl, hseq] at hnext
    exact absurd hnext (by decide)
  · obtain ⟨rfl, rfl, rfl, rfl, rfl, rfl, -⟩ : Event.fecVouch 1 = a ∧
        Event.fecPrepare 1 = b ∧
        Event.packet quietEnv (mkPacket 0 1 0x2E [0x65]) = d ∧
        Event.fecComplete 1 = f ∧
        Event.packet quietEnv (mkPacket 1 2 5 [0, 0, 1, 0x65]) = g ∧
        staleEnd = opening ∧ _ := by
      simpa [staleRun] using hsplit
    exact hopens (by decide) hpass
  · simp [staleRun] at hsplit

end MoonlightPsp.Reassembly
