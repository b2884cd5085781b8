import Mathlib.Data.List.TakeWhile
import MoonlightPsp.RtpFec.Collecting
import MoonlightPsp.RtpFec.Deferral
import MoonlightPsp.RtpFec.Fates

/-!
# The FEC layer: custody of the packets of a frame

Every data packet of a frame that was taken in time is in the queue, in a slot,
or in hand, until the frame is over.  So a frame whose data packets were all
taken in time is submitted, unless a call jumps over it.
-/

namespace MoonlightPsp.RtpFec

open EventLog ReedSolomon SerialNumber

section

variable {base f : UInt32} {F : FrameShape}

/-- A packet at this place of the frame. -/
def IsAt (F : FrameShape) (f : UInt32) (b i : ℕ) (packet : Packet) : Prop :=
  ∃ h, parseFecHeader packet = some h ∧ h.frameIndex = f ∧ F.block h = b ∧
    h.fecIndex = i

theorem IsAt.frame {b i : ℕ} {packet : Packet} (h : IsAt F f b i packet) :
    packetFrameIndex packet = f := by
  obtain ⟨header, hparse, hframe, -, -⟩ := h
  exact (parseFecHeader_spec hparse).2.1.trans hframe

/-- The frame was submitted since the start. -/
def SubmittedSince (start : List FecEvent) (f : UInt32) (s : Fec) : Prop :=
  ∃ events, s.out = start ++ events ∧
    ∃ sub, .submitted sub ∈ events ∧ sub.frame = f

/-- The current frame is before this one, or there is none yet. -/
def Ahead (base f : UInt32) (s : Fec) : Prop :=
  s.currentFrame = noFrame ∨ position base s.currentFrame < position base f

/-- The current frame is beyond this one. -/
def Beyond (base f : UInt32) (s : Fec) : Prop :=
  s.currentFrame ≠ noFrame ∧ position base f < position base s.currentFrame

/-- A data packet of the frame was not handed over. -/
def Lacks (F : FrameShape) (handed : ℕ → ℕ → Prop) : Prop :=
  ∃ b < F.blocks, ∃ i < F.data b, ¬handed b i

/-- Where the packets are that were handed over at these places of the frame,
and what has become of it. -/
structure Custody (base f : UInt32) (F : FrameShape) (start : List FecEvent)
    (handed : ℕ → ℕ → Prop) (ended : Bool) (hand : List Packet) (s : Fec) :
    Prop where
  ahead : Ahead base f s → ∀ b i, handed b i →
    ∃ q ∈ hand ++ s.deferred, IsAt F f b i q
  current : s.currentFrame = f → s.frameSubmitted = false →
    Collecting F s ∧ ¬F.Complete s ∧ ∀ b i, handed b i →
      (s.slots (F.slot b i)).isSome ∨
        ∃ q ∈ hand ++ s.deferred, IsAt F f b i q
  ended : s.currentFrame = f → s.frameSubmitted = true →
    SubmittedSince start f s ∨ ended = true ∧ Lacks F handed ∧
      ∀ q ∈ hand ++ s.deferred, packetFrameIndex q ≠ f
  beyond : Beyond base f s → SubmittedSince start f s ∨ Lacks F handed
  grown : ∃ events, s.out = start ++ events

variable {start new : List FecEvent} {handed : ℕ → ℕ → Prop} {ended : Bool}
  {hand : List Packet} {s t : Fec}

/-- What was emitted since the start only grows. -/
theorem grown_append (h : ∃ events, s.out = start ++ events)
    (hout : t.out = s.out ++ new) : ∃ events, t.out = start ++ events := by
  obtain ⟨events, hstart⟩ := h
  exact ⟨events ++ new, by rw [hout, hstart, List.append_assoc]⟩

theorem SubmittedSince.grow (h : SubmittedSince start f s)
    (hout : t.out = s.out ++ new) : SubmittedSince start f t := by
  obtain ⟨events, hs, sub, hsub, hframe⟩ := h
  exact ⟨events ++ new, by rw [hout, hs, List.append_assoc], sub,
    List.mem_append_left new hsub, hframe⟩

/-- The current frame is before this one, is this one or is beyond it. -/
theorem ahead_or_current_or_beyond (base f : UInt32) (s : Fec) :
    Ahead base f s ∨ s.currentFrame = f ∨ Beyond base f s := by
  by_cases hno : s.currentFrame = noFrame
  · exact .inl (.inl hno)
  · rcases lt_trichotomy (position base s.currentFrame) (position base f) with
      hlt | heq | hgt
    · exact .inl (.inr hlt)
    · exact .inr (.inl (position_injective heq))
    · exact .inr (.inr ⟨hno, hgt⟩)

theorem Ahead.ne_current (h : Ahead base f s) (hf : f ≠ noFrame) :
    s.currentFrame ≠ f := by
  rintro heq
  rcases h with hno | hlt
  · exact hf (heq.symm.trans hno)
  · rw [heq] at hlt
    exact absurd hlt (lt_irrefl _)

theorem Collecting.aside (h : Collecting F s) (deferred : List Packet)
    (rs : SharedRs) (out : List FecEvent) :
    Collecting F { s with deferred, rs, out } :=
  ⟨⟨h.shaped.data_pos, h.shaped.data_le, h.shaped.total_le,
    h.shaped.blocks_pos, h.shaped.blocks_le, h.shaped.base, h.shaped.max,
    h.shaped.block_le⟩,
    h.hold, h.blocks, h.single, h.multi, h.network⟩

/-- Packets move between the hand and the queue. -/
theorem Custody.requeue (hs : Custody base f F start handed ended hand s)
    (hf : f ≠ noFrame) (hand' l : List Packet)
    (hkept : ¬(s.currentFrame = f ∧ s.frameSubmitted = true) →
      ∀ q ∈ hand ++ s.deferred, packetFrameIndex q = f → q ∈ hand' ++ l)
    (hsub : ∀ q ∈ hand' ++ l, q ∈ hand ++ s.deferred) :
    Custody base f F start handed ended hand' (s.setDeferred l) := by
  refine ⟨fun hahead b i hi => ?_, fun hcurrent hopen => ?_,
    fun hcurrent hover => ?_, hs.beyond, hs.grown⟩
  · obtain ⟨q, hq, hat⟩ := hs.ahead hahead b i hi
    exact ⟨q, hkept (fun h => hahead.ne_current hf h.1) q hq hat.frame, hat⟩
  · obtain ⟨hcollect, hmissing, hwhere⟩ := hs.current hcurrent hopen
    refine ⟨hcollect.aside l s.rs s.out, hmissing, fun b i hi => ?_⟩
    have hopen' : s.frameSubmitted = false := hopen
    rcases hwhere b i hi with hslot | ⟨q, hq, hat⟩
    · exact .inl hslot
    · refine .inr ⟨q, hkept (fun h => ?_) q hq hat.frame, hat⟩
      rw [hopen'] at h
      exact Bool.noConfusion h.2
  · exact (hs.ended hcurrent hover).imp_right fun ⟨he, hlacks, hnone⟩ =>
      ⟨he, hlacks, fun q hq => hnone q (hsub q hq)⟩

/-- A frame that is open lacks a packet, unless one of its packets is in hand or
in the queue. -/
theorem Custody.lacks (hs : Custody base f F start handed ended hand s)
    (hcurrent : s.currentFrame = f) (hopen : s.frameSubmitted = false)
    (hnone : ∀ q ∈ hand ++ s.deferred, packetFrameIndex q ≠ f) :
    Lacks F handed := by
  obtain ⟨-, hmissing, hwhere⟩ := hs.current hcurrent hopen
  simp only [FrameShape.Complete, not_forall] at hmissing
  obtain ⟨b, hb, i, hi, hslot⟩ := hmissing
  refine ⟨b, hb, i, hi, fun hhanded => ?_⟩
  rcases hwhere b i hhanded with hsome | ⟨q, hq, hat⟩
  · exact hslot hsome
  · exact hnone q hq hat.frame

theorem Custody.conclude (hs : Custody base f F start handed ended hand s)
    (env : FecEnv) (hinv : FecInv s)
    (hnone : ∀ q ∈ hand ++ s.deferred,
      packetFrameIndex q ≠ s.currentFrame) :
    Custody base f F start handed true hand (concludeFrame env s) := by
  rw [concludeFrame]
  split
  · rename_i hguard
    have hc := hinv.concluded env (.inl hguard.2.2)
    have hcurrent := hc.same.currentFrame
    have hopen : s.frameSubmitted = false := by simpa using hguard.2.1
    obtain ⟨quiet, fate, hout, -, -⟩ := hc.out
    rw [List.append_assoc] at hout
    refine ⟨?_, fun _ hno => ?_, fun heq _ => ?_, ?_, ?_⟩
    · rw [Ahead, hcurrent, hc.same.deferred]
      exact hs.ahead
    · rw [hc.submitted] at hno
      exact Bool.noConfusion hno
    · rw [hcurrent] at heq
      rw [hc.same.deferred]
      rw [heq] at hnone
      exact .inr ⟨rfl, hs.lacks heq hopen hnone, hnone⟩
    · rw [Beyond, hcurrent]
      exact fun hb => (hs.beyond hb).imp_left fun h => h.grow hout
    · exact grown_append hs.grown hout
  · exact ⟨hs.ahead, hs.current, fun heq hover =>
      (hs.ended heq hover).imp_right fun h => ⟨rfl, h.2⟩, hs.beyond, hs.grown⟩

/-! ## Taking a packet -/

variable {packet : Packet} {h : FecHeader}

/-- A packet of the frame goes into its slot, and the last one submits it. -/
theorem custody_place (env : FecEnv) (hinv : FecInv s)
    (hcollect : Collecting F s) (hcurrent : s.currentFrame = f)
    (hopen : s.frameSubmitted = false) (hf : f ≠ noFrame)
    (hgrown : ∃ events, s.out = start ++ events) (hh : Taken packet h)
    (hF : F.Has h) (hwhere : ∀ b i, handed b i →
      (s.slots (F.slot b i)).isSome ∨
        ∃ q ∈ packet :: hand ++ s.deferred, IsAt F f b i q) :
    Custody base f F start handed false hand (placePacket env s h packet).2 := by
  have htcurrent := (placePacket_currentFrame env hinv hh).trans hcurrent
  have htqueue := placePacket_deferred env hinv hh
  have hnotAhead : ¬Ahead base f (placePacket env s h packet).2 := fun hahead =>
    hahead.ne_current hf htcurrent
  have hnotBeyond : ¬Beyond base f (placePacket env s h packet).2 := by
    rintro ⟨-, hlt⟩
    rw [htcurrent] at hlt
    exact absurd hlt (lt_irrefl _)
  rcases hcollect.place env hh hF hopen with
    ⟨hsubmitted, new, sub, hout, hsub, hframe⟩ |
    ⟨hstill, hcollect', hmissing, hkeeps, hslot⟩
  · refine ⟨fun h => absurd h hnotAhead, fun _ hno => ?_, fun _ _ => .inl ?_,
      fun h => absurd h hnotBeyond, grown_append hgrown hout⟩
    · rw [hsubmitted] at hno
      exact Bool.noConfusion hno
    · obtain ⟨events, hstart⟩ := hgrown
      exact ⟨events ++ new, by rw [hout, hstart, List.append_assoc], sub,
        List.mem_append_right events hsub, hframe.trans hcurrent⟩
  · obtain ⟨new, hout⟩ := FecSteps.out_grows
      (placePacket_steps (s := s) env hh) hinv
    refine ⟨fun h => absurd h hnotAhead, fun _ _ =>
      ⟨hcollect', hmissing, fun b i hi => ?_⟩, fun _ hyes => ?_,
      fun h => absurd h hnotBeyond, grown_append hgrown hout⟩
    · rcases hwhere b i hi with hsome | ⟨q, hq, hat⟩
      · exact .inl (hkeeps _ hsome)
      · rcases List.mem_cons.mp hq with rfl | hq
        · obtain ⟨h', hparse, -, rfl, rfl⟩ := hat
          obtain rfl := Option.some.inj (hh.parse.symm.trans hparse)
          exact .inl hslot
        · exact .inr ⟨q, htqueue ▸ hq, hat⟩
    · rw [hstill] at hyes
      exact Bool.noConfusion hyes

/-- Placing a packet does not open the frame again. -/
theorem placePacket_frameSubmitted (env : FecEnv)
    (hsubmitted : s.frameSubmitted = true) :
    (placePacket env s h packet).2.frameSubmitted = true := by
  have hregister : (registerBlock s h).frameSubmitted = true := by
    rw [registerBlock]
    split <;> exact hsubmitted
  rw [placePacket]
  split
  · exact hregister
  · rename_i index hslot
    have hstore := (storePacket_sizes (registerBlock s h) h index
      packet).frameSubmitted.trans hregister
    rw [submitIfReady, if_neg (by simp [hstore])]
    exact hstore

/-- Taking a packet of the frame. -/
theorem Custody.take_own
    (hs : Custody base f F start handed ended (packet :: hand) s)
    (env : FecEnv) (hinv : FecInv s) (hf : f ≠ noFrame)
    (hh : Taken packet h) (hF : F.Has h) (hframe : h.frameIndex = f)
    (hold : NotOlder base s h) :
    Custody base f F start handed false hand
      (placePacket env (enterFrame env s h) h packet).2 := by
  by_cases hcurrent : s.currentFrame = f
  · have hsame : enterFrame env s h = s := by
      rw [enterFrame, if_neg (by rw [hframe, hcurrent]; simp)]
    rw [hsame]
    cases hopen : s.frameSubmitted with
    | false =>
        obtain ⟨hcollect, -, hwhere⟩ := hs.current hcurrent hopen
        exact custody_place env hinv hcollect hcurrent hopen hf hs.grown hh hF
          hwhere
    | true =>
        obtain ⟨new, hout⟩ := FecSteps.out_grows
          (placePacket_steps (s := s) env hh) hinv
        have hsubmitted : SubmittedSince start f s := by
          refine (hs.ended hcurrent hopen).resolve_right ?_
          rintro ⟨-, -, hnone⟩
          exact hnone packet (by simp)
            ((parseFecHeader_spec hh.parse).2.1.trans hframe)
        have htcurrent := (placePacket_currentFrame env hinv hh).trans hcurrent
        refine ⟨fun hahead => absurd htcurrent (hahead.ne_current hf),
          fun _ hno => ?_, fun _ _ => .inl (hsubmitted.grow hout),
          fun _ => .inl (hsubmitted.grow hout), grown_append hs.grown hout⟩
        rw [placePacket_frameSubmitted env hopen] at hno
        exact Bool.noConfusion hno
  · have hopened : enterFrame env s h = openFrame (concludeFrame env s) h := by
      rw [enterFrame, if_pos]
      rw [hframe]
      exact Ne.symm hcurrent
    have hsteps := enterFrame_steps env hinv hh
    have hahead : Ahead base f s := by
      by_cases hno : s.currentFrame = noFrame
      · exact .inl hno
      · have hle := hold hno
        rw [hframe] at hle
        exact .inr (lt_of_le_of_ne hle fun heq =>
          hcurrent (position_injective heq))
    obtain ⟨new, hout⟩ := hsteps.out_grows hinv
    have hqueue := enterFrame_deferred env hinv h
    refine custody_place env (fecInv_steps hsteps hinv) ?_ ?_ ?_ hf
      (grown_append hs.grown hout) hh hF
      fun b i hi => .inr ?_
    · rw [hopened]
      exact collecting_openFrame hh hF _
    · rw [hopened]
      exact hframe
    · rw [hopened]
      rfl
    · rw [hqueue]
      exact hs.ahead hahead b i hi

/-- Taking a packet of another frame. -/
theorem Custody.take_other
    (hs : Custody base f F start handed ended (packet :: hand) s)
    (env : FecEnv) (hinv : FecInv s) (hh : Taken packet h)
    (hframe : h.frameIndex ≠ f) (hsome : h.frameIndex ≠ noFrame)
    (hold : NotOlder base s h)
    (hbehind : ∀ q ∈ hand ++ s.deferred,
      position base h.frameIndex ≤ position base (packetFrameIndex q)) :
    Custody base f F start handed false hand
      (placePacket env (enterFrame env s h) h packet).2 := by
  obtain ⟨-, htcurrent, htqueue⟩ := take_spec env hinv hh
  obtain ⟨new, hout⟩ := FecSteps.out_grows
    ((enterFrame_steps env hinv hh).trans (placePacket_steps env hh)) hinv
  have hpacket : packetFrameIndex packet ≠ f := by
    rw [(parseFecHeader_spec hh.parse).2.1]
    exact hframe
  refine ⟨fun hahead b i hi => ?_, fun heq => ?_, fun heq => ?_, fun hb => ?_,
    grown_append hs.grown hout⟩
  · have hlt : position base h.frameIndex < position base f := by
      rw [Ahead, htcurrent] at hahead
      exact hahead.resolve_left hsome
    have hahead' : Ahead base f s := by
      by_cases hno : s.currentFrame = noFrame
      · exact .inl hno
      · exact .inr ((hold hno).trans_lt hlt)
    obtain ⟨q, hq, hat⟩ := hs.ahead hahead' b i hi
    rcases List.mem_cons.mp hq with rfl | hq
    · exact absurd hat.frame hpacket
    · exact ⟨q, htqueue ▸ hq, hat⟩
  · exact absurd (htcurrent.symm.trans heq) hframe
  · exact absurd (htcurrent.symm.trans heq) hframe
  · -- the frame was left behind, so its packets are not there
    have hlt : position base f < position base h.frameIndex := by
      have hlt := hb.2
      rwa [htcurrent] at hlt
    have hnone : ∀ q ∈ packet :: hand ++ s.deferred,
        packetFrameIndex q ≠ f := by
      intro q hq heq
      rcases List.mem_cons.mp hq with rfl | hq
      · exact hpacket heq
      · have hle := hbehind q hq
        rw [heq] at hle
        exact absurd hlt (not_lt_of_ge hle)
    rcases ahead_or_current_or_beyond base f s with hahead | hcurrent | hbeyond
    · refine .inr ⟨0, F.blocks_pos, 0, F.data_pos 0 F.blocks_pos, fun hi => ?_⟩
      obtain ⟨q, hq, hat⟩ := hs.ahead hahead 0 0 hi
      exact hnone q hq hat.frame
    · cases hopen : s.frameSubmitted with
      | false => exact .inr (hs.lacks hcurrent hopen hnone)
      | true =>
          rcases hs.ended hcurrent hopen with hsubmitted | ⟨-, hlacks, -⟩
          · exact .inl (hsubmitted.grow hout)
          · exact .inr hlacks
    · exact (hs.beyond hbeyond).imp_left fun h => h.grow hout

/-! ## What a call keeps -/

/-- A packet that passes the checks of its metadata is taken if its frame is the
current one or not far ahead of it. -/
theorem screenPacket_of_near {c : FecConfig} {current : UInt32}
    (hpass : screenPacket c noFrame packet = .taken h)
    (hnear : current ≠ noFrame →
      0 ≤ delta h.frameIndex current ∧ delta h.frameIndex current ≤ 1000) :
    screenPacket c current packet = .taken h := by
  have hparse := (screenPacket_taken hpass).1.parse
  have hstale : ¬(current ≠ noFrame ∧ delta h.frameIndex current < 0) :=
    fun hlt => by
      have := (hnear hlt.1).1
      omega
  have hfar : ¬(current ≠ noFrame ∧ (delta h.frameIndex current > 1000 ∨
      delta h.frameIndex current < -1000)) := fun hgt => by
    have := hnear hgt.1
    omega
  rw [screenPacket, hparse] at hpass ⊢
  simp only [ne_eq, not_true_eq_false, false_and, if_false] at hpass
  simp only [if_neg hstale, if_neg hfar]
  exact hpass

theorem packetFrameIndex_of_none (hparse : parseFecHeader packet = none) :
    packetFrameIndex packet = noFrame := by
  rw [parseFecHeader] at hparse
  rw [packetFrameIndex]
  split at hparse
  · rfl
  · cases hparse

/-- The packets of the frame that are let in agree on its shape, and their
metadata passes the checks. -/
def OfShape (F : FrameShape) (f : UInt32) (Q : Packet → Prop)
    (env : FecEnv) : Prop :=
  ∀ packet h, Q packet → parseFecHeader packet = some h → h.frameIndex = f →
    F.Has h ∧ screenPacket env.config noFrame packet = .taken h

theorem keptWithCare_custody {Q : Packet → Prop} {env : FecEnv}
    (hrange : InRange base Q) (hf : f ≠ noFrame)
    (hshape : OfShape F f Q env) :
    KeptWithCare base Q env (Custody base f F start handed) where
  weaken := fun ended hand s hs =>
    ⟨hs.ahead, hs.current, fun heq hover => .inl ((hs.ended heq hover).resolve_right
      fun h => Bool.noConfusion h.1), hs.beyond, hs.grown⟩
  conclude := fun ended packet s hord hnone hs =>
    hs.conclude env hord.inv hnone
  drop := fun ended hand s hs => by
    refine hs.requeue hf _ _ (fun hnot q hq hframe => ?_) fun q hq => ?_
    · rcases List.mem_append.mp hq with hq | hq
      · exact List.mem_append_left _ hq
      · refine List.mem_append_right _ ?_
        rw [← List.takeWhile_append_dropWhile (p := fun p =>
          s.frameSubmitted && packetFrameIndex p == s.currentFrame)
          (l := s.deferred)] at hq
        refine (List.mem_append.mp hq).resolve_left fun htaken => hnot ?_
        have hdrop := List.mem_takeWhile_imp htaken
        rw [Bool.and_eq_true, beq_iff_eq, hframe] at hdrop
        exact ⟨hdrop.2.symm, hdrop.1⟩
    · rcases List.mem_append.mp hq with hq | hq
      · exact List.mem_append_left _ hq
      · exact List.mem_append_right _ ((List.dropWhile_sublist _).mem hq)
  pick := fun ended hand s front rest hq hs => by
    refine hs.requeue hf _ _ (fun _ q hmem _ => ?_) fun q hmem => ?_
    · simp only [hq, List.mem_append, List.mem_cons] at hmem ⊢
      tauto
    · simp only [hq, List.cons_append, List.mem_append, List.mem_cons] at hmem ⊢
      tauto
  defer := fun ended s packet hopen hs => by
    have hmoved := hs.requeue hf [] (s.deferred ++ [packet])
      (fun _ q hmem _ => by
        simp only [List.nil_append, List.mem_append, List.mem_singleton] at hmem ⊢
        tauto)
      fun q hmem => by
        simp only [List.nil_append, List.mem_append, List.mem_singleton] at hmem ⊢
        tauto
    refine ⟨hmoved.ahead, hmoved.current, fun _ hyes => ?_, hmoved.beyond,
      hmoved.grown⟩
    have hyes : s.frameSubmitted = true := hyes
    rw [hopen] at hyes
    exact Bool.noConfusion hyes
  refuse := fun ended hand s packet hord hQ hsome hle hnear hnot hs => by
    have hframe : packetFrameIndex packet ≠ f := by
      intro heq
      cases hparse : parseFecHeader packet with
      | none => exact hf (heq.symm.trans (packetFrameIndex_of_none hparse))
      | some h =>
          have hindex := (parseFecHeader_spec hparse).2.1
          obtain ⟨-, hpass⟩ := hshape packet h hQ hparse (hindex.symm.trans heq)
          refine hnot h (screenPacket_of_near hpass fun _ => ?_)
          rw [delta_eq_position (hrange packet h hQ hparse).1
            (hord.current hsome), ← hindex]
          omega
    refine hs.requeue hf _ s.deferred (fun _ q hq heq => ?_)
      fun q hq => List.mem_cons_of_mem _ hq
    rcases List.mem_cons.mp hq with rfl | hq
    · exact absurd heq hframe
    · exact hq
  take := fun ended hand s packet h hord hQ hh hold hbehind _ hs => by
    by_cases hframe : h.frameIndex = f
    · exact hs.take_own env hord.inv hf hh
        (hshape packet h hQ hh.parse hframe).1 hframe hold
    · exact hs.take_other env hord.inv hh hframe
        (hrange packet h hQ hh.parse).2 hold hbehind

/-- No packet was dropped as stale when it was replayed. -/
def NoStaleReplay (start : List FecEvent) (s : Fec) : Prop :=
  ∃ events, s.out = start ++ events ∧ ∀ g, .late g true ∉ events

theorem NoStaleReplay.grow (hs : NoStaleReplay start s)
    (hout : t.out = s.out ++ new) (hnew : ∀ g, .late g true ∉ new) :
    NoStaleReplay start t := by
  obtain ⟨events, hstart, hnone⟩ := hs
  refine ⟨events ++ new, by rw [hout, hstart, List.append_assoc],
    fun g hg => ?_⟩
  rcases List.mem_append.mp hg with hg | hg
  · exact hnone g hg
  · exact hnew g hg

theorem not_mem_late (hnew : ∀ e ∈ new, e.isOfFrame) (g : UInt32) :
    .late g true ∉ new :=
  fun hg => Bool.noConfusion (hnew _ hg)

theorem noStaleReplay_conclude (env : FecEnv) (hinv : FecInv s)
    (hs : NoStaleReplay start s) :
    NoStaleReplay start (concludeFrame env s) := by
  rw [concludeFrame]
  split
  · rename_i hguard
    obtain ⟨new, hout, hnew⟩ :=
      isOfFrame_of_concluded (hinv.concluded env (.inl hguard.2.2))
    exact hs.grow hout (not_mem_late hnew)
  · exact hs

theorem keptWithCare_noStaleReplay {Q : Packet → Prop} (env : FecEnv) :
    KeptWithCare base Q env fun _ _ => NoStaleReplay start where
  weaken := fun _ _ _ hs => hs
  conclude := fun _ _ _ hord _ hs => noStaleReplay_conclude env hord.inv hs
  drop := fun _ _ _ hs => hs
  pick := fun _ _ _ _ _ _ hs => hs
  defer := fun _ _ _ _ hs => hs
  refuse := fun _ _ _ _ _ _ _ _ _ _ hs => hs
  take := fun _ _ s packet h hord _ hh _ _ _ hs => by
    have henter : NoStaleReplay start (enterFrame env s h) := by
      rw [enterFrame]
      split
      · have hout : (openFrame (concludeFrame env s) h).out =
            (concludeFrame env s).out ++ [.becameCurrent h.frameIndex] := rfl
        exact (noStaleReplay_conclude env hord.inv hs).grow hout (by simp)
      · exact hs
    obtain ⟨new, hout, hnew⟩ := placePacket_out env
      (fecInv_steps (enterFrame_steps env hord.inv hh) hord.inv) hh
    exact henter.grow hout (not_mem_late hnew)

end

end MoonlightPsp.RtpFec
