import MoonlightPsp.Control.Threads

/-!
# What a step does to the input events

Most steps of the threads leave the input ring alone.  The others fill a free
slot, release the slot an ACK names, or resend a slot.
-/

namespace MoonlightPsp.Control

/-! ## The input side of a state -/

/-- The input ring, its counters and its history are the same. -/
structure SameInput (s s' : System) : Prop where
  ring : s'.globals.inputRetxRing = s.globals.inputRetxRing
  inputQueued : s'.globals.inputQueued = s.globals.inputQueued
  inputAcked : s'.globals.inputAcked = s.globals.inputAcked
  queued : s'.queued = s.queued
  owner : s'.owner = s.owner

theorem SameInput.refl (s : System) : SameInput s s := ⟨rfl, rfl, rfl, rfl, rfl⟩

/-- A send that has not built its packet. -/
def Holder.beforeBuild : Holder → Bool
  | .sending _ _ => true
  | .slotFound _ _ _ => true
  | .sendFailing => true
  | _ => false

/-- A send that has found its slot and not filled it yet. -/
def Holder.claims : Holder → Option (Fin retxSlots)
  | .slotFound _ _ slot => some slot
  | .built _ _ slot => some slot
  | _ => none

/-- The packet a send has built and not stored yet, with its channel. -/
def Holder.pending : Holder → Option (UInt8 × Packet)
  | .built pkt channel _ => some (channel, pkt)
  | _ => none

/-- The packet in the hands of the holder of the semaphore. -/
def System.pending (s : System) : Option (UInt8 × Packet) :=
  s.holder.bind Holder.pending

/-- The slot the holder of the semaphore is about to fill. -/
def System.claimed (s : System) : Option (Fin retxSlots) :=
  s.holder.bind Holder.claims

/-- The thread with the semaphore has not built a packet of its own. -/
def System.beforeBuild (s : System) : Bool :=
  s.holder.any Holder.beforeBuild

/-! ## Steps -/

/-- What a step does to the input side and to the reliable numbers. -/
inductive InputStep (s : System) (e : Event) (s' : System) : Prop
  /-- Nothing happens to the input ring. -/
  | calm (same : SameInput s s')
      (seqs : s'.globals.reliableSeqPerCh = s.globals.reliableSeqPerCh)
      (holder : s'.holder = s.holder ∨ s.pending = none ∧ s'.claimed = none ∧
        (s'.beforeBuild → s.holder = none ∨ s.beforeBuild))
  /-- A control message is built. -/
  | control (site : Site) (env : BuildEnv) (event : e = .build site env)
      (same : SameInput s s')
      (seqs : s'.globals.reliableSeqPerCh =
        (s.globals.takeReliableSeq site.channel).reliableSeqPerCh)
      (holder : s'.holder = s.holder)
  /-- A send finds a free slot. -/
  | found (payload : List UInt8) (channel : UInt8) (slot : Fin retxSlots)
      (same : SameInput s s')
      (seqs : s'.globals.reliableSeqPerCh = s.globals.reliableSeqPerCh)
      (before : s.holder = some (.sending payload channel))
      (after : s'.holder = some (.slotFound payload channel slot))
      (free : (s.globals.inputRetxRing slot).active = false)
  /-- It builds its packet. -/
  | built (payload : List UInt8) (channel : UInt8) (slot : Fin retxSlots)
      (raw : List UInt8) (same : SameInput s s')
      (seqs : s'.globals.reliableSeqPerCh =
        (s.globals.takeReliableSeq channel).reliableSeqPerCh)
      (before : s.holder = some (.slotFound payload channel slot))
      (after : s'.holder = some (.built (reliablePacket s.globals channel
        (s.globals.reliableSeqPerCh channel) raw) channel slot))
  /-- It fills the slot. -/
  | stored (pkt : Packet) (channel : UInt8) (slot : Fin retxSlots)
      (now : UInt32) (before : s.holder = some (.built pkt channel slot))
      (after : s' = s.store slot pkt channel now)
  /-- An ACK releases a slot. -/
  | released (env : StepEnv) (channel : UInt8) (seq : UInt16)
      (slot : Fin retxSlots) (event : e = .holder env)
      (before : s.holder = some (.acking channel seq))
      (holds : holdsInput channel seq (s.globals.inputRetxRing slot))
      (after : s' = s.move (releaseInput s.globals slot) (some .leaving))
  /-- The scan resends a slot. -/
  | resent (now : UInt32) (slot : Fin retxSlots) (rest : List (Fin retxSlots))
      (before : s.holder = some (.scanning now (slot :: rest)))
      (active : (s.globals.inputRetxRing slot).active = true)
      (after : s' = s.move (resendInput s.globals now slot)
        (some (.scanning now rest)))

/-- A step that touches neither the input side, nor the reliable numbers, nor
the semaphore. -/
theorem InputStep.aside {s s' : System} {e : Event} (same : SameInput s s')
    (seqs : s'.globals.reliableSeqPerCh = s.globals.reliableSeqPerCh)
    (holder : s'.holder = s.holder) : InputStep s e s' :=
  .calm same seqs (.inl holder)

/-- What is written to the control ring. -/
theorem SlotVisit.finish_input (c : Globals) (v : SlotVisit) :
    ∃ ring rtt, v.finish c = { c with retxRing := ring, rtt := rtt } := by
  cases v with
  | ack i now => exact ⟨_, _, rfl⟩
  | giveUp i => exact ⟨_, _, rfl⟩
  | resend i now => exact ⟨_, _, rfl⟩

/-- A control ring that is touched leaves the input side alone. -/
theorem storeStep_aside {s : System} {now : UInt32} {call : StoreCall}
    {e : Event} : InputStep s e (storeStep now s call) := by
  cases call with
  | claimed pkt slot => exact .aside ⟨rfl, rfl, rfl, rfl, rfl⟩ rfl rfl
  | filled => exact .aside ⟨rfl, rfl, rfl, rfl, rfl⟩ rfl rfl
  | advancing head => exact .aside ⟨rfl, rfl, rfl, rfl, rfl⟩ rfl rfl

theorem System.pending_eq {s : System} {h : Holder} (hs : s.holder = some h) :
    s.pending = h.pending := by
  rw [System.pending, hs, Option.bind_some]

theorem System.claimed_eq {s : System} {h : Holder} (hs : s.holder = some h) :
    s.claimed = h.claims := by
  rw [System.claimed, hs, Option.bind_some]

/-- Only a send that has claimed a slot has a packet in its hands. -/
theorem System.pending_of_claimed {s : System} (h : s.claimed = none) :
    s.pending = none := by
  cases hs : s.holder with
  | none => rw [System.pending, hs]; rfl
  | some hd =>
      rw [System.claimed_eq hs] at h
      rw [System.pending_eq hs]
      cases hd <;> first | rfl | cases h

theorem System.beforeBuild_eq {s : System} {h : Holder}
    (hs : s.holder = some h) : s.beforeBuild = h.beforeBuild := by
  rw [System.beforeBuild, hs, Option.any_some]

/-- A step of the holder. -/
theorem holderStep_inputStep (gcm : Gcm) (env : StepEnv) {s : System}
    {h : Holder} (hs : s.holder = some h) :
    InputStep s (.holder env) (holderStep gcm env s h) := by
  cases h with
  | sending payload channel =>
      simp only [holderStep]
      cases hslot : freeSlot s.globals with
      | none =>
          refine .calm ⟨rfl, rfl, rfl, rfl, rfl⟩ rfl (.inr ⟨?_, rfl, ?_⟩)
          · rw [System.pending_eq hs]
            rfl
          · exact fun _ => .inr (System.beforeBuild_eq hs)
      | some slot =>
          refine .found payload channel slot ⟨rfl, rfl, rfl, rfl, rfl⟩ rfl hs
            rfl ?_
          simpa using findSlot_eq_some hslot
  | slotFound payload channel slot =>
      simp only [holderStep]
      obtain ⟨n, hbuild | ⟨raw, -, hbuild⟩⟩ := buildEncryptedControlMsg_cases
        gcm env.build s.globals inputBuflen ctrlTypeInput payload channel
      · rw [hbuild]
        refine .calm ⟨rfl, rfl, rfl, rfl, rfl⟩ rfl (.inr ⟨?_, rfl, ?_⟩)
        · rw [System.pending_eq hs]
          rfl
        · exact fun _ => .inr (System.beforeBuild_eq hs)
      · rw [hbuild]
        exact .built payload channel slot raw ⟨rfl, rfl, rfl, rfl, rfl⟩ rfl hs
          rfl
  | built pkt channel slot => exact .stored pkt channel slot env.now hs rfl
  | sendFailing | exhausted | leaving =>
      refine .calm ⟨rfl, rfl, rfl, rfl, rfl⟩ rfl
        (.inr ⟨?_, rfl, fun h => by cases h⟩)
      rw [System.pending_eq hs]
      rfl
  | acking channel seq =>
      simp only [holderStep, inputRetxAck]
      cases hslot : findSlot fun i =>
        holdsInput channel seq (s.globals.inputRetxRing i) with
      | none =>
          refine .calm ⟨rfl, rfl, rfl, rfl, rfl⟩ rfl
            (.inr ⟨?_, rfl, fun h => by cases h⟩)
          rw [System.pending_eq hs]
          rfl
      | some slot =>
          exact .released env channel seq slot rfl hs (findSlot_eq_some hslot)
            rfl
  | scanning now rest =>
      have hpending : s.pending = none := by
        rw [System.pending_eq hs]
        rfl
      cases rest with
      | nil =>
          exact .calm ⟨rfl, rfl, rfl, rfl, rfl⟩ rfl
            (.inr ⟨hpending, rfl, fun h => by cases h⟩)
      | cons slot rest =>
          simp only [holderStep, inputRetxScanSlot]
          split
          · exact .calm ⟨rfl, rfl, rfl, rfl, rfl⟩ rfl
              (.inr ⟨hpending, rfl, fun h => by cases h⟩)
          · rename_i c hslot
            split_ifs at hslot with hskip hspent
            · obtain rfl : s.globals = c := by simpa using hslot
              exact .calm ⟨rfl, rfl, rfl, rfl, rfl⟩ rfl
                (.inr ⟨hpending, rfl, fun h => by cases h⟩)
            · obtain rfl : resendInput s.globals now slot = c := by
                simpa using hslot
              rw [not_or] at hskip
              exact .resent now slot rest hs (by simpa using hskip.1) rfl

/-- A thread takes the semaphore. -/
theorem enter_inputStep {s t s' : System} {e : Event} {h : Holder}
    (hsame : SameInput s t)
    (hseqs : t.globals.reliableSeqPerCh = s.globals.reliableSeqPerCh)
    (hholder : t.holder = s.holder) (hclaims : h.claims = none)
    (hs' : t.enter h = some s') : InputStep s e s' := by
  unfold System.enter at hs'
  split_ifs at hs' with hfree
  obtain rfl : t.move t.globals (some h) = s' := by simpa using hs'
  rw [Option.isNone_iff_eq_none, hholder] at hfree
  refine .calm ⟨hsame.ring, hsame.inputQueued, hsame.inputAcked, hsame.queued,
    hsame.owner⟩ hseqs (.inr ⟨?_, hclaims, fun _ => .inl hfree⟩)
  rw [System.pending, hfree]
  rfl

theorem step_inputStep {gcm : Gcm} {s s' : System} {e : Event}
    (h : step gcm s e = some s') : InputStep s e s' := by
  cases e with
  | enterSend payload channel taken =>
      simp only [step] at h
      split_ifs at h with haccepts htaken
      · exact enter_inputStep (.refl s) rfl rfl rfl h
      · obtain rfl := Option.some.inj h
        exact .aside ⟨rfl, rfl, rfl, rfl, rfl⟩ rfl rfl
  | enterAck channel seq taken =>
      simp only [step] at h
      split_ifs at h with hinput htaken
      · exact enter_inputStep (t := s.noteSettled channel seq)
          ⟨rfl, rfl, rfl, rfl, rfl⟩ rfl rfl rfl h
      · obtain rfl := Option.some.inj h
        exact .aside ⟨rfl, rfl, rfl, rfl, rfl⟩ rfl rfl
  | enterScan now taken =>
      simp only [step] at h
      split_ifs at h with htaken
      · exact enter_inputStep (.refl s) rfl rfl rfl h
      · obtain rfl := Option.some.inj h
        exact .aside (.refl s) rfl rfl
  | holder env =>
      obtain ⟨hd, hs, rfl⟩ := Option.map_eq_some_iff.mp h
      exact holderStep_inputStep gcm env hs
  | unsequenced payload channel env =>
      simp only [step] at h
      split_ifs at h with haccepts
      obtain rfl := Option.some.inj h
      obtain ⟨n, g, hbuild⟩ := buildEncryptedUnsequencedMsg_snd gcm env
        s.globals inputBuflen ctrlTypeInput payload channel
      rw [hbuild]
      exact .aside ⟨rfl, rfl, rfl, rfl, rfl⟩ rfl rfl
  | controlAck channel seq now =>
      obtain rfl := Option.some.inj h
      exact .aside ⟨rfl, rfl, rfl, rfl, rfl⟩ rfl rfl
  | controlScan now i =>
      obtain rfl := Option.some.inj h
      unfold System.noteGivenUp
      split
      · exact .aside ⟨rfl, rfl, rfl, rfl, rfl⟩ rfl rfl
      · exact .aside ⟨rfl, rfl, rfl, rfl, rfl⟩ rfl rfl
  | visit v =>
      simp only [step] at h
      split_ifs at h with hv
      obtain rfl := Option.some.inj h
      obtain ⟨ring, rtt, hfinish⟩ := v.finish_input s.globals
      rw [hfinish]
      exact .aside ⟨rfl, rfl, rfl, rfl, rfl⟩ rfl rfl
  | build site env =>
      simp only [step, buildSite] at h
      obtain ⟨n, hbuild | ⟨raw, -, hbuild⟩⟩ := buildEncryptedControlMsg_cases
        gcm env s.globals site.buflen site.msgType site.payload site.channel
      · rw [hbuild] at h
        obtain rfl := Option.some.inj h
        exact .aside ⟨rfl, rfl, rfl, rfl, rfl⟩ rfl rfl
      · rw [hbuild] at h
        obtain rfl := Option.some.inj h
        exact .control site env rfl ⟨rfl, rfl, rfl, rfl, rfl⟩ rfl rfl
  | sent pkt tx =>
      simp only [step, System.claim] at h
      split_ifs at h with hpkt hkeep
      · obtain rfl := Option.some.inj h
        exact .aside ⟨rfl, rfl, rfl, rfl, rfl⟩ rfl rfl
      · obtain rfl := Option.some.inj h
        exact .aside ⟨rfl, rfl, rfl, rfl, rfl⟩ rfl rfl
  | store call now =>
      simp only [step] at h
      split_ifs at h with hcall
      obtain rfl := Option.some.inj h
      exact storeStep_aside

/-! ## What a send relies on -/

/-- The slot a send has found is still free, and the packet it has built is for
its channel. -/
structure SendInv (s : System) : Prop where
  free : ∀ i, s.claimed = some i → (s.globals.inputRetxRing i).active = false
  pending : ∀ channel pkt, s.pending = some (channel, pkt) →
    pktGetChannelSeq pkt = (channel, readBe16 pkt 6)

theorem sendInv_start (c : Globals) : SendInv (.start c) := ⟨nofun, nofun⟩

theorem SendInv.of_calm {s s' : System} (h : SendInv s) (same : SameInput s s')
    (holder : s'.holder = s.holder ∨ s'.claimed = none) : SendInv s' := by
  refine ⟨fun i hi => ?_, fun channel pkt hpkt => ?_⟩
  · rcases holder with hsame | hclaimed
    · rw [same.ring]
      exact h.free i (by rw [System.claimed, ← hsame]; exact hi)
    · rw [hclaimed] at hi
      cases hi
  · rcases holder with hsame | hclaimed
    · exact h.pending channel pkt (by rw [System.pending, ← hsame]; exact hpkt)
    · rw [System.pending_of_claimed hclaimed] at hpkt
      cases hpkt

theorem SendInv.afterStep {gcm : Gcm} {s s' : System} {e : Event}
    (h : SendInv s) (hstep : step gcm s e = some s') : SendInv s' := by
  cases step_inputStep hstep with
  | calm same seqs holder =>
      exact h.of_calm same (holder.imp_right fun hmove => hmove.2.1)
  | control site env event same seqs holder => exact h.of_calm same (.inl holder)
  | found payload channel slot same seqs before after free =>
      refine ⟨fun i hi => ?_, fun channel pkt hpkt => ?_⟩
      · rw [System.claimed_eq after] at hi
        obtain rfl : slot = i := by simpa [Holder.claims] using hi
        rwa [same.ring]
      · rw [System.pending_eq after] at hpkt
        cases hpkt
  | built payload channel slot raw same seqs before after =>
      refine ⟨fun i hi => ?_, fun channel' pkt hpkt => ?_⟩
      · rw [System.claimed_eq after] at hi
        obtain rfl : slot = i := by simpa [Holder.claims] using hi
        rw [same.ring]
        exact h.free slot (System.claimed_eq before)
      · rw [System.pending_eq after] at hpkt
        simp only [Holder.pending, Option.some.injEq, Prod.mk.injEq] at hpkt
        obtain ⟨rfl, rfl⟩ := hpkt
        rw [pktGetChannelSeq_reliablePacket, readBe16_reliablePacket]
  | stored pkt channel slot now before after => subst after; exact ⟨nofun, nofun⟩
  | released env channel seq slot event before holds after =>
      subst after
      exact ⟨nofun, nofun⟩
  | resent now slot rest before active after =>
      subst after
      exact ⟨nofun, nofun⟩

end MoonlightPsp.Control
