import MoonlightPsp.RtpFec.Custody

/-!
# The FEC layer: no frame is lost by deferral

In a run without a jump, the packets that were put aside are only delayed, and a
frame whose data packets were all taken in time is submitted.
-/

namespace MoonlightPsp.RtpFec

open EventLog ReedSolomon SerialNumber

/-! ## Runs between two resets -/

/-- The condition holds of every call of the run. -/
def AtEachPacket (C : FecEnv → Fec → Packet → Prop) (s : Fec)
    (inputs : List FecInput) : Prop :=
  ∀ before env packet after u, inputs = before ++ .packet env packet :: after →
    s.run before = some u → C env u packet

section

variable {base f : UInt32} {F : FrameShape} {Q : Packet → Prop}
  {start new : List FecEvent} {handed handed' : ℕ → ℕ → Prop} {s t : Fec}

theorem AtEachPacket.head {C : FecEnv → Fec → Packet → Prop} {env : FecEnv}
    {packet : Packet} {rest : List FecInput}
    (h : AtEachPacket C s (.packet env packet :: rest)) : C env s packet :=
  h [] env packet rest s rfl rfl

theorem AtEachPacket.tail {C : FecEnv → Fec → Packet → Prop} {i : FecInput}
    {rest : List FecInput} (h : AtEachPacket C s (i :: rest))
    (ht : s.step i = some t) : AtEachPacket C t rest := by
  intro before env packet after u hrest hu
  refine h (i :: before) env packet after u (by rw [hrest]; rfl) ?_
  rw [Fec.run, ht]
  exact hu

/-- What a run without a reset keeps that no call breaks between two of which
the queue is settled. -/
theorem run_settled {C : FecEnv → Fec → Packet → Prop}
    {K : List FecInput → Fec → Prop} (hrange : InRange base Q)
    (hpacket : ∀ earlier env packet s r, Q packet → C env s packet →
      Ordered base Q s → Settled base s → K earlier s →
      rtpFecAddPacket env s packet = some r →
        Settled base r.2 ∧ K (earlier ++ [.packet env packet]) r.2)
    (haudio : ∀ earlier s block, K earlier s →
      K (earlier ++ [.audio block])
        (s.setRs (audioRtpFecComplete s.rs block).1))
    {inputs : List FecInput} (earlier : List FecInput)
    (hinputs : NoReset Q inputs)
    (hC : AtEachPacket C s inputs) (hs : Ordered base Q s)
    (hset : Settled base s) (hks : K earlier s) :
    ∃ t, s.run inputs = some t ∧ Ordered base Q t ∧ Settled base t ∧
      K (earlier ++ inputs) t := by
  induction inputs generalizing s earlier with
  | nil => exact ⟨s, rfl, hs, hset, by rwa [List.append_nil]⟩
  | cons i rest ih =>
      have hrest : NoReset Q rest := fun j hj =>
        hinputs j (List.mem_cons_of_mem i hj)
      have hi := hinputs i List.mem_cons_self
      have hmoved : earlier ++ i :: rest = (earlier ++ [i]) ++ rest := by simp
      cases i with
      | packet env packet =>
          obtain ⟨r, hr, -⟩ := rtpFecAddPacket_spec env hs.inv packet
          have hstep : s.step (.packet env packet) = some r.2 := by
            rw [Fec.step, hr]
            rfl
          obtain ⟨hs', -⟩ := rtpFecAddPacket_inOrder hrange
            (keptInOrder_true env) hi hs trivial hr
          obtain ⟨hset', hks'⟩ := hpacket earlier env packet s r hi hC.head hs
            hset hks hr
          obtain ⟨t, ht, h⟩ := ih _ hrest (hC.tail hstep) hs' hset' hks'
          refine ⟨t, ?_, hmoved ▸ h⟩
          rw [Fec.run, hstep]
          exact ht
      | audio block =>
          obtain ⟨t, ht, h⟩ := ih _ hrest (hC.tail (t := s.setRs
              (audioRtpFecComplete s.rs block).1) rfl)
            ⟨hs.inv.of_same (.setRs s _) rfl, hs.none, hs.current, hs.queue⟩
            hset (haudio earlier s block hks)
          exact ⟨t, ht, hmoved ▸ h⟩
      | reset => exact hi.elim

/-! ## The packets of a frame -/

/-- A data packet at this place of the frame is among the inputs. -/
def HandedIn (F : FrameShape) (f : UInt32) (inputs : List FecInput)
    (b i : ℕ) : Prop :=
  i < F.data b ∧ ∃ env packet, .packet env packet ∈ inputs ∧
    IsAt F f b i packet

/-- A data packet of the frame is not older than the current frame when it
arrives, nor far ahead of it. -/
def InTime (F : FrameShape) (f : UInt32) (s : Fec) (packet : Packet) : Prop :=
  ∀ b i, i < F.data b → IsAt F f b i packet → s.currentFrame ≠ noFrame →
    0 ≤ delta f s.currentFrame ∧ delta f s.currentFrame ≤ 1000

theorem handedIn_snoc {inputs : List FecInput} {i : FecInput} {b k : ℕ}
    (h : HandedIn F f (inputs ++ [i]) b k) :
    HandedIn F f inputs b k ∨ k < F.data b ∧ ∃ env packet,
      i = .packet env packet ∧ IsAt F f b k packet := by
  obtain ⟨hk, env, packet, hmem, hat⟩ := h
  rcases List.mem_append.mp hmem with hmem | hmem
  · exact .inl ⟨hk, env, packet, hmem, hat⟩
  · exact .inr ⟨hk, env, packet, (List.mem_singleton.mp hmem).symm, hat⟩

/-- Nothing happens to the frame. -/
theorem Custody.grow (hs : Custody base f F start handed false [] s)
    (handed' : ℕ → ℕ → Prop) (hhanded : ∀ b i, handed' b i → handed b i)
    (rs : SharedRs)
    (new : List FecEvent) :
    Custody base f F start handed' false []
      { s with rs := rs, out := s.out ++ new } := by
  have hlacks : Lacks F handed → Lacks F handed' :=
    fun ⟨b, hb, i, hi, hnot⟩ => ⟨b, hb, i, hi, fun h => hnot (hhanded b i h)⟩
  refine ⟨fun hahead b i hi => hs.ahead hahead b i (hhanded b i hi),
    fun heq hopen => ?_, fun heq hover => .inl ?_,
    fun hb => (hs.beyond hb).imp (fun h => h.grow rfl) hlacks, ?_⟩
  · obtain ⟨hcollect, hmissing, hwhere⟩ := hs.current heq hopen
    exact ⟨hcollect.aside s.deferred rs _, hmissing,
      fun b i hi => hwhere b i (hhanded b i hi)⟩
  · exact ((hs.ended heq hover).resolve_right
      fun h => Bool.noConfusion h.1).grow rfl
  · obtain ⟨events, hstart⟩ := hs.grown
    exact ⟨events ++ new, by rw [hstart, List.append_assoc]⟩

/-- A packet arrives that is let in. -/
theorem Custody.arrive (hs : Custody base f F start handed false [] s)
    {packet : Packet} (hhanded : ∀ b i, handed' b i →
      handed b i ∨ IsAt F f b i packet)
    (hbeyond : Beyond base f s → packetFrameIndex packet ≠ f) :
    Custody base f F start handed' false [packet] s := by
  refine ⟨fun hahead b i hi => ?_, fun heq hopen => ?_, fun heq hover => ?_,
    fun hb => (hs.beyond hb).imp_right ?_, hs.grown⟩
  · rcases hhanded b i hi with hi | hat
    · obtain ⟨q, hq, hat⟩ := hs.ahead hahead b i hi
      exact ⟨q, List.mem_cons_of_mem packet hq, hat⟩
    · exact ⟨packet, List.mem_cons_self, hat⟩
  · obtain ⟨hcollect, hmissing, hwhere⟩ := hs.current heq hopen
    refine ⟨hcollect, hmissing, fun b i hi => ?_⟩
    rcases hhanded b i hi with hi | hat
    · exact (hwhere b i hi).imp_right
        fun ⟨q, hq, hat⟩ => ⟨q, List.mem_cons_of_mem packet hq, hat⟩
    · exact .inr ⟨packet, List.mem_cons_self, hat⟩
  · exact .inl ((hs.ended heq hover).resolve_right
      fun h => Bool.noConfusion h.1)
  · rintro ⟨b, hb', i, hi, hnot⟩
    exact ⟨b, hb', i, hi, fun h => (hhanded b i h).elim hnot
      fun hat => hbeyond hb hat.frame⟩

/-- A call keeps the packets of the frame in custody, and the one that arrived
too. -/
theorem custody_packet {env : FecEnv} {packet : Packet} {r : Bool × Fec}
    {earlier : List FecInput} (hrange : InRange base Q) (hf : f ≠ noFrame)
    (hshape : OfShape F f Q env) (hQ : Q packet) (hjump : ¬Jumps env s packet)
    (htime : InTime F f s packet) (hs : Ordered base Q s)
    (hset : Settled base s)
    (hks : Custody base f F start (HandedIn F f earlier) false [] s)
    (hr : rtpFecAddPacket env s packet = some r) :
    Settled base r.2 ∧ Custody base f F start
      (HandedIn F f (earlier ++ [.packet env packet])) false [] r.2 := by
  have hsnoc : ∀ b i, HandedIn F f (earlier ++ [.packet env packet]) b i →
      HandedIn F f earlier b i ∨ i < F.data b ∧ IsAt F f b i packet := by
    intro b i hi
    rcases handedIn_snoc hi with hi | ⟨hlt, env', packet', heq, hat⟩
    · exact .inl hi
    · cases heq
      exact .inr ⟨hlt, hat⟩
  refine (rtpFecAddPacket_withCare hrange
    (keptWithCare_custody hrange hf hshape) hQ hs hset hjump
    (fun h hscreen => ?_) (fun hnot => ?_) hr).2
  · refine hks.arrive (fun b i hi => (hsnoc b i hi).imp_right fun h => h.2) ?_
    rintro ⟨hsome, hlt⟩ heq
    obtain ⟨hh, -, hdelta⟩ := screenPacket_taken hscreen
    have hframe := (parseFecHeader_spec hh.parse).2.1
    have hold := notOlder_of_screened hs hrange hQ hscreen hsome
    rw [← hframe, heq] at hold
    exact absurd hlt (not_lt_of_ge hold)
  · -- a data packet of the frame would have been let in
    have hsame : ∀ b i, HandedIn F f (earlier ++ [.packet env packet]) b i →
        HandedIn F f earlier b i := by
      intro b i hi
      refine (hsnoc b i hi).resolve_right ?_
      rintro ⟨hlt, hat⟩
      have hnear := htime b i hlt hat
      obtain ⟨h, hparse, hframe, -, -⟩ := hat
      refine hnot h (screenPacket_of_near
        (hshape packet h hQ hparse hframe).2 ?_)
      rw [hframe]
      exact hnear
    have hkeep := hks.grow _ hsame s.rs []
    rw [List.append_nil] at hkeep
    exact ⟨hkeep, fun frame => hks.grow _ hsame s.rs [.late frame false]⟩

/-! ## Frames that are awaited -/

/-- The packets of the frame agree on its shape, and pass the checks of their
metadata in every call of the run. -/
def Agrees (F : FrameShape) (f : UInt32) (inputs : List FecInput) : Prop :=
  ∀ env packet, .packet env packet ∈ inputs →
    OfShape F f (fun p => ∃ e, .packet e p ∈ inputs) env

/-- The frame index of the packet is in the half of the range that starts with
this one, and is not the one that stands for no frame. -/
def InHalf (base : UInt32) (packet : Packet) : Prop :=
  ∀ h, parseFecHeader packet = some h →
    position base h.frameIndex < 0x80000000 ∧ h.frameIndex ≠ noFrame

theorem noReset_and_mem {Q : Packet → Prop} {inputs : List FecInput}
    (h : NoReset Q inputs) :
    NoReset (fun p => Q p ∧ ∃ e, .packet e p ∈ inputs) inputs := by
  intro i hi
  have hQ := h i hi
  cases i with
  | packet env packet => exact ⟨hQ, env, hi⟩
  | audio block => trivial
  | reset => exact hQ

theorem custody_freshStart (hs : FreshStart s) (hf : f ≠ noFrame) :
    Custody base f F s.out (HandedIn F f []) false [] s := by
  have hnone : s.currentFrame = noFrame := by
    rcases hs with rfl | ⟨u, rfl⟩ <;> rfl
  refine ⟨fun _ b i hi => ?_, fun heq => ?_, fun heq => ?_,
    fun hb => absurd hnone hb.1, [], (List.append_nil _).symm⟩
  · obtain ⟨-, env, packet, hmem, -⟩ := hi
    exact absurd hmem List.not_mem_nil
  · exact absurd (heq.symm.trans hnone) hf
  · exact absurd (heq.symm.trans hnone) hf

/-- A frame that is in custody and not awaited any more was submitted, if all
its data packets were handed over. -/
theorem Custody.submitted {events : List FecEvent}
    (hs : Custody base f F start handed false [] s) (hord : Ordered base Q s)
    (hset : Settled base s) (hout : s.out = start ++ events)
    (hledger : Ledger base s events)
    (hall : ∀ b < F.blocks, ∀ i < F.data b, handed b i)
    (hbefore : ∀ g, .becameCurrent g ∈ events →
      position base g < position base f → fates g events ≠ 0) :
    ∃ sub, .submitted sub ∈ events ∧ sub.frame = f := by
  have hlacks : ¬Lacks F handed := fun ⟨b, hb, i, hi, hnot⟩ =>
    hnot (hall b hb i hi)
  have hsince : SubmittedSince start f s →
      ∃ sub, .submitted sub ∈ events ∧ sub.frame = f := by
    rintro ⟨events', hout', h⟩
    rw [hout] at hout'
    rwa [List.append_cancel_left hout']
  by_cases hbeyond : Beyond base f s
  · exact hsince ((hs.beyond hbeyond).resolve_right hlacks)
  by_cases hcurrent : s.currentFrame = f
  · cases hopen : s.frameSubmitted with
    | true =>
        exact hsince ((hs.ended hcurrent hopen).resolve_right
          fun h => Bool.noConfusion h.1)
    | false =>
        obtain ⟨-, hmissing, hwhere⟩ := hs.current hcurrent hopen
        exfalso
        refine hmissing fun b hb i hi => ?_
        refine (hwhere b i (hall b hb i hi)).resolve_right ?_
        rintro ⟨q, hq, hat⟩
        rcases hset with hnil | ⟨-, hnext⟩
        · rw [List.nil_append, hnil] at hq
          exact List.not_mem_nil hq
        · have hpos := hnext q hq
          rw [hat.frame, hcurrent] at hpos
          omega
  · exfalso
    have hahead : Ahead base f s := by
      by_cases hno : s.currentFrame = noFrame
      · exact .inl hno
      · have hle := not_lt.mp fun hlt => hbeyond ⟨hno, hlt⟩
        exact .inr (lt_of_le_of_ne hle fun heq =>
          hcurrent (position_injective heq))
    obtain ⟨q, hq, hat⟩ := hs.ahead hahead 0 0
      (hall 0 F.blocks_pos 0 (F.data_pos 0 F.blocks_pos))
    rcases hset with hnil | ⟨hopen, hnext⟩
    · rw [List.nil_append, hnil] at hq
      exact List.not_mem_nil hq
    · have hsome : s.currentFrame ≠ noFrame := fun hno => by
        rw [List.nil_append, hord.none hno] at hq
        exact List.not_mem_nil hq
      obtain ⟨hmem, hfates, -, -⟩ := hledger.current hsome
      rw [hopen] at hfates
      exact hbefore s.currentFrame hmem (hahead.resolve_left hsome) hfates

end

/-- Between two resets, with frame indexes in one half of their range, if no
packet jumps over the frames of the packets that are put aside: no packet is
dropped as stale when it is replayed, and a frame all data packets of which were
handed over in time is submitted once the frames before it have ended. -/
theorem deferral_loses_no_frame {base : UInt32} {s : Fec} (hs : FreshStart s)
    {inputs : List FecInput} (hinputs : NoReset (InHalf base) inputs)
    (hjumps : AtEachPacket (fun env u packet => ¬Jumps env u packet) s
      inputs) :
    ∃ t events, s.run inputs = some t ∧ t.out = s.out ++ events ∧
      (∀ g, .late g true ∉ events) ∧
      ∀ (f : UInt32) (F : FrameShape), Agrees F f inputs →
        AtEachPacket (fun _ => InTime F f) s inputs →
        (∀ b < F.blocks, ∀ i < F.data b, HandedIn F f inputs b i) →
        (∀ g, .becameCurrent g ∈ events → position base g < position base f →
          fates g events ≠ 0) →
        ∃ sub, .submitted sub ∈ events ∧ sub.frame = f := by
  have hlet := noReset_and_mem hinputs
  have hrange : InRange base fun p => InHalf base p ∧
      ∃ e, .packet e p ∈ inputs := fun packet h hQ hparse => hQ.1 h hparse
  have hord : Ordered base
      (fun p => InHalf base p ∧ ∃ e, .packet e p ∈ inputs) s :=
    .of_freshStart hs
  have hset : Settled base s := by
    rcases hs with rfl | ⟨u, rfl⟩ <;> exact .inl rfl
  obtain ⟨t, hrun, -, events, hout, hledger⟩ := run_inOrder hrange
    (keptInOrder_hasLedger hrange)
    (fun s rs h => h.neutral rfl rfl rfl (List.append_nil _).symm (by simp))
    hlet hord (hasLedger_freshStart hs)
  refine ⟨t, events, hrun, hout, ?_, fun f F hagrees htime hall hbefore => ?_⟩
  · obtain ⟨u, hrun', -, -, events', hout', hnone⟩ := run_settled hrange
      (K := fun _ => NoStaleReplay s.out)
      (fun earlier env packet s r hQ hjump hs hset hks hr =>
        (rtpFecAddPacket_withCare hrange (keptWithCare_noStaleReplay env) hQ hs
          hset hjump (fun _ _ => hks)
          (fun _ => ⟨hks, fun frame => hks.grow rfl (by simp)⟩) hr).2)
      (fun _ _ _ h => h) [] hlet hjumps hord hset
      ⟨[], (List.append_nil _).symm, by simp⟩
    rw [hrun] at hrun'
    obtain rfl := Option.some.inj hrun'
    rw [hout] at hout'
    rw [List.append_cancel_left hout']
    exact hnone
  · have hf : f ≠ noFrame := by
      obtain ⟨-, env, packet, hmem, h, hparse, hframe, -⟩ :=
        hall 0 F.blocks_pos 0 (F.data_pos 0 F.blocks_pos)
      exact hframe ▸ (hinputs _ hmem h hparse).2
    have hcalls : AtEachPacket (fun env u packet => ¬Jumps env u packet ∧
        InTime F f u packet ∧ OfShape F f (fun p => InHalf base p ∧
          ∃ e, .packet e p ∈ inputs) env) s inputs := by
      intro before env packet after u heq hu
      refine ⟨hjumps before env packet after u heq hu,
        htime before env packet after u heq hu, fun p h hQ => ?_⟩
      exact hagrees env packet (by simp [heq]) p h hQ.2
    obtain ⟨u, hrun', hord', hset', hcustody⟩ := run_settled hrange
      (K := fun earlier => Custody base f F s.out (HandedIn F f earlier) false [])
      (fun earlier env packet v r hQ hC hv hsetv hks hr =>
        custody_packet hrange hf hC.2.2 hQ hC.1 hC.2.1 hv hsetv hks hr)
      (fun earlier v block hks => by
        have hkeep := hks.grow (HandedIn F f (earlier ++ [.audio block]))
          (fun b i hi => ?_)
          (audioRtpFecComplete v.rs block).1 []
        · rw [List.append_nil] at hkeep
          exact hkeep
        · refine (handedIn_snoc hi).resolve_right ?_
          rintro ⟨-, env, packet, heq, -⟩
          cases heq)
      [] hlet hcalls hord hset (custody_freshStart hs hf)
    rw [hrun] at hrun'
    obtain rfl := Option.some.inj hrun'
    exact hcustody.submitted hord' hset' hout hledger hall hbefore

/-! ## Samples -/

/-- A frame of one data packet. -/
def onePacketShape (seq : UInt16) : FrameShape where
  blocks := 1
  data := fun _ => 1
  total := 1
  firstSeq := seq
  blocks_pos := Nat.one_pos
  data_pos := fun _ _ => Nat.one_pos
  fits := fun _ _ => by decide

theorem AtEachPacket.cons {C : FecEnv → Fec → Packet → Prop} {s : Fec}
    {env : FecEnv} {packet : Packet} {rest : List FecInput}
    (hhead : C env s packet)
    (htail : ∀ t, s.step (.packet env packet) = some t →
      AtEachPacket C t rest) :
    AtEachPacket C s (.packet env packet :: rest) := by
  intro before env' packet' after u heq hu
  cases before with
  | nil =>
      obtain ⟨hsame, -⟩ := List.cons.inj heq
      cases hsame
      obtain rfl := Option.some.inj hu
      exact hhead
  | cons i before =>
      obtain ⟨rfl, hrest⟩ := List.cons.inj heq
      rw [Fec.run, Option.bind_eq_some_iff] at hu
      obtain ⟨t, ht, hu⟩ := hu
      exact htail t ht before env' packet' after u hrest hu

theorem atEachPacket_nil {C : FecEnv → Fec → Packet → Prop} {s : Fec} :
    AtEachPacket C s [] := by
  intro before env packet after u heq
  cases before <;> cases heq

/-- Frame 7 has two data packets and a parity packet, frames 8 and 9 have one
data packet each.  Frame 8 is put aside, the parity packet makes frame 7
recoverable, and then frame 9 arrives. -/
def frameJumped : List FecInput :=
  [.packet (sampleEnv 1) (barePacket 100 7 0x00 2 0 50),
    .packet (sampleEnv 1) (barePacket 103 8 0x00 1 0 0),
    .packet (sampleEnv 1) (barePacket 102 7 0x00 2 2 50),
    .packet (sampleEnv 1) (barePacket 104 9 0x00 1 0 0)]

/-- Frame 7 is completed by its other data packet while frame 8 is put aside. -/
def frameDelayed : List FecInput :=
  [.packet (sampleEnv 1) (barePacket 100 7 0x00 2 0 50),
    .packet (sampleEnv 1) (barePacket 103 8 0x00 1 0 0),
    .packet (sampleEnv 1) (barePacket 101 7 0x00 2 1 50)]

/-- The packet of frame 8. -/
theorem header_frame8 : parseFecHeader (barePacket 103 8 0x00 1 0 0) =
    some ⟨103, 8, 1, 0, 0, 1, 0, 1⟩ := rfl

theorem isAt_frame8 : IsAt (onePacketShape 103) 8 0 0
    (barePacket 103 8 0x00 1 0 0) :=
  ⟨_, header_frame8, rfl, rfl, rfl⟩

theorem mem_samples {packet : Packet} (h : ∃ env,
    FecInput.packet env packet ∈ frameJumped ++ frameDelayed) :
    packet = barePacket 103 8 0x00 1 0 0 ∨ ∃ header,
      parseFecHeader packet = some header ∧ header.frameIndex ≠ 8 ∧
        position 0 header.frameIndex < 0x80000000 ∧
        header.frameIndex ≠ noFrame := by
  have hother : ∀ header : FecHeader, parseFecHeader packet = some header →
      header.frameIndex = 7 ∨ header.frameIndex = 9 →
        ∃ header, parseFecHeader packet = some header ∧
          header.frameIndex ≠ 8 ∧ position 0 header.frameIndex < 0x80000000 ∧
          header.frameIndex ≠ noFrame := by
    rintro header hparse (hseven | hnine)
    · exact ⟨header, hparse, by rw [hseven]; decide, by rw [hseven]; decide,
        by rw [hseven]; decide⟩
    · exact ⟨header, hparse, by rw [hnine]; decide, by rw [hnine]; decide,
        by rw [hnine]; decide⟩
  obtain ⟨env, hmem⟩ := h
  simp only [frameJumped, frameDelayed, List.cons_append, List.nil_append,
    List.mem_cons, FecInput.packet.injEq, List.not_mem_nil, or_false] at hmem
  rcases hmem with ⟨-, rfl⟩ | ⟨-, rfl⟩ | ⟨-, rfl⟩ | ⟨-, rfl⟩ | ⟨-, rfl⟩ |
    ⟨-, rfl⟩ | ⟨-, rfl⟩
  · exact .inr (hother ⟨100, 7, 2, 0, 1, 3, 0, 1⟩ rfl (.inl rfl))
  · exact .inl rfl
  · exact .inr (hother ⟨102, 7, 2, 2, 1, 3, 0, 1⟩ rfl (.inl rfl))
  · exact .inr (hother ⟨104, 9, 1, 0, 0, 1, 0, 1⟩ rfl (.inr rfl))
  · exact .inr (hother ⟨100, 7, 2, 0, 1, 3, 0, 1⟩ rfl (.inl rfl))
  · exact .inl rfl
  · exact .inr (hother ⟨101, 7, 2, 1, 1, 3, 0, 1⟩ rfl (.inl rfl))

theorem noReset_samples : NoReset (InHalf 0) (frameJumped ++ frameDelayed) := by
  intro i hi
  cases i with
  | packet env packet =>
      intro h hparse
      rcases mem_samples ⟨env, hi⟩ with rfl | ⟨header, heq, -, hpos, hne⟩
      · rw [header_frame8] at hparse
        obtain rfl := Option.some.inj hparse
        exact ⟨by decide, by decide⟩
      · obtain rfl := Option.some.inj (heq.symm.trans hparse)
        exact ⟨hpos, hne⟩
  | audio block => trivial
  | reset => simp [frameJumped, frameDelayed] at hi

theorem Agrees.mono {F : FrameShape} {f : UInt32} {inputs more : List FecInput}
    (h : Agrees F f more) (hsub : inputs ⊆ more) : Agrees F f inputs :=
  fun env packet hmem p header ⟨e, hp⟩ =>
    h env packet (hsub hmem) p header ⟨e, hsub hp⟩

theorem agrees_samples :
    Agrees (onePacketShape 103) 8 (frameJumped ++ frameDelayed) := by
  intro env _ henv packet h hpacket hparse hframe
  obtain rfl : env = sampleEnv 1 := by
    simp only [frameJumped, frameDelayed, List.cons_append, List.nil_append,
      List.mem_cons, FecInput.packet.injEq, List.not_mem_nil, or_false] at henv
    tauto
  rcases mem_samples hpacket with rfl | ⟨header, heq, hne, -, -⟩
  · rw [header_frame8] at hparse
    obtain rfl := Option.some.inj hparse
    exact ⟨⟨rfl, by decide, rfl, by decide, fun _ => ⟨rfl, rfl⟩⟩, rfl⟩
  · obtain rfl := Option.some.inj (heq.symm.trans hparse)
    exact absurd hframe hne

theorem inTime_of_other {F : FrameShape} {f : UInt32} {packet : Packet}
    (header : FecHeader) (hparse : parseFecHeader packet = some header)
    (hne : header.frameIndex ≠ f) (s : Fec) : InTime F f s packet := by
  rintro b i - ⟨h, hh, hframe, -⟩
  obtain rfl := Option.some.inj (hparse.symm.trans hh)
  exact absurd hframe hne

/-- Frame 8 comes right behind the first packet of frame 7. -/
theorem inTime_frame8 {t : Fec} (ht : Fec.initial.step (.packet (sampleEnv 1)
    (barePacket 100 7 0x00 2 0 50)) = some t) (packet : Packet) :
    InTime (onePacketShape 103) 8 t packet := by
  intro _ _ _ _ _
  have hfirst : ((Fec.initial.step (.packet (sampleEnv 1)
      (barePacket 100 7 0x00 2 0 50))).all fun t => decide
        (0 ≤ delta 8 t.currentFrame ∧ delta 8 t.currentFrame ≤ 1000)) =
          true := by
    decide +kernel
  rw [ht, Option.all_some, decide_eq_true_eq] at hfirst
  exact hfirst

theorem inTime_frameJumped :
    AtEachPacket (fun _ => InTime (onePacketShape 103) 8) Fec.initial
      frameJumped :=
  .cons (inTime_of_other ⟨100, 7, 2, 0, 1, 3, 0, 1⟩ rfl (by decide) _)
    fun _ ht => .cons (inTime_frame8 ht _) fun _ _ =>
      .cons (inTime_of_other ⟨102, 7, 2, 2, 1, 3, 0, 1⟩ rfl (by decide) _)
        fun _ _ => .cons (inTime_of_other ⟨104, 9, 1, 0, 0, 1, 0, 1⟩ rfl
          (by decide) _) fun _ _ => atEachPacket_nil

theorem inTime_frameDelayed :
    AtEachPacket (fun _ => InTime (onePacketShape 103) 8) Fec.initial
      frameDelayed :=
  .cons (inTime_of_other ⟨100, 7, 2, 0, 1, 3, 0, 1⟩ rfl (by decide) _)
    fun _ ht => .cons (inTime_frame8 ht _) fun _ _ =>
      .cons (inTime_of_other ⟨101, 7, 2, 1, 1, 3, 0, 1⟩ rfl (by decide) _)
        fun _ _ => atEachPacket_nil

/-- Frame 8 is handed over in time, frame 7 ends, and frame 8 is dropped as
stale when it is replayed. -/
theorem jump_loses_frame :
    NoReset (InHalf 0) frameJumped ∧ Agrees (onePacketShape 103) 8 frameJumped ∧
      AtEachPacket (fun _ => InTime (onePacketShape 103) 8) Fec.initial
        frameJumped ∧
      (∀ b < 1, ∀ i < 1, HandedIn (onePacketShape 103) 8 frameJumped b i) ∧
      ∃ events, fecTrace frameJumped = some events ∧ fates 7 events = 1 ∧
        .late 8 true ∈ events ∧ fates 8 events = 0 := by
  refine ⟨fun i hi => noReset_samples i (List.mem_append_left _ hi),
    agrees_samples.mono (List.subset_append_left _ _), inTime_frameJumped, ?_, ?_⟩
  · intro b hb i hi
    obtain rfl := Nat.lt_one_iff.mp hb
    obtain rfl := Nat.lt_one_iff.mp hi
    exact ⟨Nat.one_pos, sampleEnv 1, _, by simp [frameJumped], isAt_frame8⟩
  · have h : ((fecTrace frameJumped).any fun events => decide
        (fates 7 events = 1 ∧ .late 8 true ∈ events ∧ fates 8 events = 0)) =
          true := by
      decide +kernel
    cases htrace : fecTrace frameJumped with
    | none => simp [htrace] at h
    | some events =>
        rw [htrace, Option.any_some, decide_eq_true_eq] at h
        exact ⟨events, rfl, h⟩

theorem not_jumps_of_nil {env : FecEnv} {s : Fec} (packet : Packet)
    (h : s.deferred = []) : ¬Jumps env s packet :=
  fun ⟨_, _, hne, _⟩ => hne h

theorem not_jumps_of_span {env : FecEnv} {s : Fec} {packet : Packet}
    (header : FecHeader) (hparse : parseFecHeader packet = some header)
    (h : deferSpan s header.frameIndex ≤ 1) : ¬Jumps env s packet := by
  rintro ⟨taken, hscreen, -, hspan, -⟩
  obtain rfl := Option.some.inj
    (hparse.symm.trans (screenPacket_taken hscreen).1.parse)
  omega

theorem no_jump_frameDelayed :
    AtEachPacket (fun env u packet => ¬Jumps env u packet) Fec.initial
      frameDelayed := by
  have hfirst : ((Fec.initial.step (.packet (sampleEnv 1)
      (barePacket 100 7 0x00 2 0 50))).all fun t => decide (t.deferred = []) &&
        (t.step (.packet (sampleEnv 1) (barePacket 103 8 0x00 1 0 0))).all
          fun u => decide (deferSpan u 7 ≤ 1)) = true := by
    decide +kernel
  refine .cons (not_jumps_of_nil _ rfl) fun t ht =>
    .cons (not_jumps_of_nil _ ?_) fun u hu =>
      .cons (not_jumps_of_span ⟨101, 7, 2, 1, 1, 3, 0, 1⟩ rfl ?_)
        fun _ _ => atEachPacket_nil
  · rw [ht, Option.all_some, Bool.and_eq_true, decide_eq_true_eq] at hfirst
    exact hfirst.1
  · rw [ht, Option.all_some, Bool.and_eq_true, hu,
      Option.all_some] at hfirst
    exact of_decide_eq_true hfirst.2

/-- Each frame that became current before frame 8 has ended. -/
theorem trace_frameDelayed : ((Fec.initial.run frameDelayed).all fun t =>
    t.out.all fun e => match e with
      | .becameCurrent g => decide (g = 8 ∨ fates g t.out ≠ 0)
      | _ => true) = true := by
  decide +kernel

/-- Frame 8 is delayed behind frame 7, and submitted after it. -/
theorem deferral_loses_no_frame_delayed :
    ∃ t, Fec.initial.run frameDelayed = some t ∧ (∀ g, .late g true ∉ t.out) ∧
      ∃ sub, .submitted sub ∈ t.out ∧ sub.frame = 8 := by
  obtain ⟨t, events, hrun, hout, hlate, hsubmitted⟩ :=
    deferral_loses_no_frame (.inl rfl)
      (fun i hi => noReset_samples i (List.mem_append_right _ hi))
      no_jump_frameDelayed
  rw [show Fec.initial.out = [] from rfl, List.nil_append] at hout
  subst hout
  refine ⟨t, hrun, hlate, hsubmitted 8 (onePacketShape 103)
    (agrees_samples.mono (List.subset_append_right _ _)) inTime_frameDelayed
    ?_ ?_⟩
  · intro b hb i hi
    obtain rfl := Nat.lt_one_iff.mp hb
    obtain rfl := Nat.lt_one_iff.mp hi
    exact ⟨Nat.one_pos, sampleEnv 1, _, by simp [frameDelayed], isAt_frame8⟩
  · intro g hg hpos
    have htrace := trace_frameDelayed
    rw [hrun, Option.all_some, List.all_eq_true] at htrace
    refine (of_decide_eq_true (htrace _ hg)).resolve_left ?_
    rintro rfl
    exact lt_irrefl _ hpos

end MoonlightPsp.RtpFec
