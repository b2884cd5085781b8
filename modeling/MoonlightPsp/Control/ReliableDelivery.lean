import MoonlightPsp.Control.InputSteps

/-!
# Reliable numbers are not forgotten

The server waits for every reliable number of a channel, so a number that was
taken must be resent until it is acknowledged or given up.  The input path keeps
its packet before the first send.  The call sites of control messages keep it
only if that send succeeds, in a ring whose slots are reused in turn and that no
semaphore protects.
-/

namespace MoonlightPsp.Control

/-! ## What keeps a number -/

/-- A reliable number is with a send of an input event, or in the input ring. -/
def System.KeepsInput (s : System) (n : UInt8 × UInt16) : Prop :=
  (∃ pkt, s.pending = some (n.1, pkt) ∧ readBe16 pkt 6 = n.2) ∨
    ∃ i, holdsInput n.1 n.2 (s.globals.inputRetxRing i) = true

/-- A call site is about to send its packet, or to store it. -/
def System.Carries (s : System) (n : UInt8 × UInt16) : Prop :=
  (∃ pkt ∈ s.inHand, pktGetChannelSeq pkt = n) ∨
    ∃ pkt slot, .claimed pkt slot ∈ s.storing ∧ pktGetChannelSeq pkt = n

/-- It is in the control ring, or with a call site. -/
def System.KeepsControl (s : System) (n : UInt8 × UInt16) : Prop :=
  s.Carries n ∨ ∃ i, awaitsAck n.1 n.2 (s.globals.retxRing i) = true

/-- Every number taken is kept until it is acknowledged or given up. -/
def Remembers (s : System) : Prop :=
  ∀ n ∈ s.outstanding, s.KeepsInput n ∨ s.KeepsControl n

/-- A slot waits for an ACK. -/
def RetxEntry.Waits (e : RetxEntry) : Prop := e.active = true ∧ e.acked = false

/-- The first send of a control packet succeeds, the slot it is then put in does
not wait for an ACK and is not under a visit, and no other packet is being
stored. -/
def SendsAndFits (s : System) : Event → Prop
  | .sent _ tx => tx > 0 ∧ ¬ (s.globals.retxRing s.globals.retxHead).Waits ∧
      (∀ v ∈ s.visits, v.slot ≠ s.globals.retxHead) ∧ s.storing = []
  | _ => True

/-! ## The input side -/

theorem System.KeepsInput.of_same {s s' : System} {n : UInt8 × UInt16}
    (h : s.KeepsInput n)
    (hring : s'.globals.inputRetxRing = s.globals.inputRetxRing)
    (hpending : s'.pending = s.pending) : s'.KeepsInput n := by
  unfold System.KeepsInput
  rw [hring, hpending]
  exact h

/-- A number stays on the input side until a step of its ACK. -/
theorem System.KeepsInput.afterStep {gcm : Gcm} {s s' : System} {e : Event}
    {n : UInt8 × UInt16} (h : s.KeepsInput n) (hsend : SendInv s)
    (hstep : step gcm s e = some s') :
    s'.KeepsInput n ∨ s.holder = some (.acking n.1 n.2) := by
  cases step_inputStep hstep with
  | calm same seqs holder =>
      refine .inl (h.of_same same.ring ?_)
      rcases holder with hsame | ⟨hpending, hclaimed, -⟩
      · rw [System.pending, System.pending, hsame]
      · rw [hpending, System.pending_of_claimed hclaimed]
  | control site env event same seqs holder =>
      refine .inl (h.of_same same.ring ?_)
      rw [System.pending, System.pending, holder]
  | found payload channel slot same seqs before after free =>
      refine .inl (h.of_same same.ring ?_)
      rw [System.pending_eq before, System.pending_eq after]
      rfl
  | built payload channel slot raw same seqs before after =>
      rcases h with ⟨pkt, hpkt, -⟩ | ⟨i, hi⟩
      · rw [System.pending_eq before] at hpkt
        cases hpkt
      · exact .inl (.inr ⟨i, by rw [same.ring]; exact hi⟩)
  | stored pkt channel slot now before after =>
      subst after
      refine .inl (.inr ?_)
      rcases h with ⟨pkt', hpkt, hseq⟩ | ⟨i, hi⟩
      · rw [System.pending_eq before] at hpkt
        simp only [Holder.pending, Option.some.injEq, Prod.mk.injEq] at hpkt
        obtain ⟨rfl, rfl⟩ := hpkt
        exact ⟨slot, by simp [System.store, storeInput, holdsInput, hseq]⟩
      · have hne : i ≠ slot := by
          rintro rfl
          simp [holdsInput, hsend.free i (System.claimed_eq before)] at hi
        refine ⟨i, ?_⟩
        rw [← hi]
        exact congrArg (holdsInput n.1 n.2) (Function.update_of_ne hne _ _)
  | released env channel seq slot event before holds after =>
      subst after
      rcases h with ⟨pkt, hpkt, -⟩ | ⟨i, hi⟩
      · rw [System.pending_eq before] at hpkt
        cases hpkt
      · by_cases hne : i = slot
        · subst hne
          simp only [holdsInput, Bool.and_eq_true, beq_iff_eq] at hi holds
          exact .inr (by rw [before, ← hi.1.2, ← hi.2, holds.1.2, holds.2])
        · refine .inl (.inr ⟨i, ?_⟩)
          rw [← hi]
          exact congrArg (holdsInput n.1 n.2) (Function.update_of_ne hne _ _)
  | resent now slot rest before active after =>
      subst after
      rcases h with ⟨pkt, hpkt, -⟩ | ⟨i, hi⟩
      · rw [System.pending_eq before] at hpkt
        cases hpkt
      · refine .inl (.inr ⟨i, ?_⟩)
        by_cases hne : i = slot
        · subst hne
          simpa [System.move, resendInput, holdsInput] using hi
        · rw [← hi]
          exact congrArg (holdsInput n.1 n.2) (Function.update_of_ne hne _ _)

/-! ## The control side -/

/-- The visit ends the wait of its slot. -/
def SlotVisit.Ends : SlotVisit → Prop
  | .ack _ _ => True
  | .giveUp _ => True
  | .resend _ _ => False

/-- It is with a call site, or in a slot whose wait is not about to be ended. -/
def System.HoldsControl (s : System) (n : UInt8 × UInt16) : Prop :=
  s.Carries n ∨ ∃ i, awaitsAck n.1 n.2 (s.globals.retxRing i) = true ∧
    ∀ v ∈ s.visits, v.Ends → v.slot ≠ i

theorem System.HoldsControl.keeps {s : System} {n : UInt8 × UInt16}
    (h : s.HoldsControl n) : s.KeepsControl n :=
  h.imp_right fun ⟨i, hi, _⟩ => ⟨i, hi⟩

theorem System.Carries.of_same {s s' : System} {n : UInt8 × UInt16}
    (h : s.Carries n) (hhand : ∀ pkt ∈ s.inHand, pkt ∈ s'.inHand)
    (hstoring : ∀ call ∈ s.storing, call ∈ s'.storing) : s'.Carries n := by
  rcases h with ⟨pkt, hpkt, hn⟩ | ⟨pkt, slot, hcall, hn⟩
  · exact .inl ⟨pkt, hhand pkt hpkt, hn⟩
  · exact .inr ⟨pkt, slot, hstoring _ hcall, hn⟩

theorem System.HoldsControl.of_same {s s' : System} {n : UInt8 × UInt16}
    (h : s.HoldsControl n) (hring : s'.globals.retxRing = s.globals.retxRing)
    (hvisits : s'.visits = s.visits)
    (hhand : ∀ pkt ∈ s.inHand, pkt ∈ s'.inHand)
    (hstoring : s'.storing = s.storing) : s'.HoldsControl n := by
  rcases h with hcarries | ⟨i, hi, hfirm⟩
  · exact .inl (hcarries.of_same hhand fun call hcall => hstoring ▸ hcall)
  · exact .inr ⟨i, by rw [hring]; exact hi, by rw [hvisits]; exact hfirm⟩

theorem waits_of_awaitsAck {channel : UInt8} {seq : UInt16} {e : RetxEntry}
    (h : awaitsAck channel seq e = true) :
    e.Waits ∧ (e.channel, e.seq) = (channel, seq) := by
  simp only [awaitsAck, Bool.and_eq_true, Bool.not_eq_true', beq_iff_eq] at h
  exact ⟨h.1.1, Prod.ext h.1.2 h.2⟩

/-- What `retx_ack` finds waits for this very ACK. -/
theorem lookAck_eq_some {c : Globals} {channel : UInt8} {seq : UInt16}
    {now : UInt32} {v : SlotVisit} (h : lookAck c channel seq now = some v) :
    (c.retxRing v.slot).Waits ∧
      ((c.retxRing v.slot).channel, (c.retxRing v.slot).seq) =
        (channel, seq) := by
  obtain ⟨i, hi, rfl⟩ := Option.map_eq_some_iff.mp h
  exact waits_of_awaitsAck (findSlot_eq_some hi)

/-- What `retx_scan` finds waits in the slot it looks at. -/
theorem lookScan_eq_some {c : Globals} {now : UInt32} {i : Fin retxSlots}
    {v : SlotVisit} (h : lookScan c now i = some v) :
    v.slot = i ∧ (c.retxRing i).Waits := by
  unfold lookScan at h
  dsimp only at h
  split_ifs at h with hidle
  · obtain rfl := Option.some.inj h
    rw [not_or] at hidle
    exact ⟨rfl, by simpa using hidle.1, by simpa using hidle.2⟩
  · obtain rfl := Option.some.inj h
    rw [not_or] at hidle
    exact ⟨rfl, by simpa using hidle.1, by simpa using hidle.2⟩

/-- A write leaves the other slots alone. -/
theorem SlotVisit.finish_of_ne {c : Globals} {v : SlotVisit}
    {i : Fin retxSlots} (hne : v.slot ≠ i) :
    (v.finish c).retxRing i = c.retxRing i := by
  cases v with
  | ack j now => exact Function.update_of_ne (Ne.symm hne) _ _
  | giveUp j => exact Function.update_of_ne (Ne.symm hne) _ _
  | resend j now => exact Function.update_of_ne (Ne.symm hne) _ _

/-- A slot waits on, unless the visit ends its wait. -/
theorem SlotVisit.awaitsAck_finish {c : Globals} {v : SlotVisit}
    {i : Fin retxSlots} {n : UInt8 × UInt16}
    (hi : awaitsAck n.1 n.2 (c.retxRing i) = true)
    (hends : v.Ends → v.slot ≠ i) :
    awaitsAck n.1 n.2 ((v.finish c).retxRing i) = true := by
  by_cases hne : v.slot = i
  · cases v with
    | ack j now => exact absurd hne (hends trivial)
    | giveUp j => exact absurd hne (hends trivial)
    | resend j now =>
        obtain rfl : j = i := hne
        simpa [SlotVisit.finish, awaitsAck] using hi
  · rw [SlotVisit.finish_of_ne hne]
    exact hi

/-- What a step of the holder of the input semaphore does to the rest. -/
structure HolderEffect (s s' : System) : Prop where
  retxRing : s'.globals.retxRing = s.globals.retxRing
  inHand : s'.inHand = s.inHand
  storing : s'.storing = s.storing
  visits : s'.visits = s.visits
  holder : ∀ channel seq, s'.holder ≠ some (.acking channel seq)
  outstanding : s'.outstanding = s.outstanding ∨
    ∃ n, s'.outstanding = s.outstanding ++ [n] ∧ s'.KeepsInput n

theorem holderStep_effect (gcm : Gcm) (env : StepEnv) (s : System)
    (h : Holder) : HolderEffect s (holderStep gcm env s h) := by
  cases h with
  | sending payload channel =>
      simp only [holderStep]
      split <;> exact ⟨rfl, rfl, rfl, rfl, (fun _ _ h => by cases h), .inl rfl⟩
  | slotFound payload channel slot =>
      simp only [holderStep]
      obtain ⟨n, hbuild | ⟨raw, -, hbuild⟩⟩ := buildEncryptedControlMsg_cases
        gcm env.build s.globals inputBuflen ctrlTypeInput payload channel
      · rw [hbuild]
        exact ⟨rfl, rfl, rfl, rfl, (fun _ _ h => by cases h), .inl rfl⟩
      · rw [hbuild]
        exact ⟨rfl, rfl, rfl, rfl, (fun _ _ h => by cases h), .inr ⟨_, rfl, .inl ⟨_, rfl,
          readBe16_reliablePacket _ _ _ _⟩⟩⟩
  | acking channel seq =>
      simp only [holderStep, inputRetxAck]
      split <;> exact ⟨rfl, rfl, rfl, rfl, (fun _ _ h => by cases h), .inl rfl⟩
  | scanning now rest =>
      cases rest with
      | nil => exact ⟨rfl, rfl, rfl, rfl, (fun _ _ h => by cases h), .inl rfl⟩
      | cons slot rest =>
          simp only [holderStep, inputRetxScanSlot]
          split
          · exact ⟨rfl, rfl, rfl, rfl, (fun _ _ h => by cases h), .inl rfl⟩
          · rename_i c hslot
            split_ifs at hslot
            · obtain rfl : s.globals = c := by simpa using hslot
              exact ⟨rfl, rfl, rfl, rfl, (fun _ _ h => by cases h), .inl rfl⟩
            · obtain rfl : resendInput s.globals now slot = c := by
                simpa using hslot
              exact ⟨rfl, rfl, rfl, rfl, (fun _ _ h => by cases h), .inl rfl⟩
  | built | sendFailing | exhausted | leaving =>
      exact ⟨rfl, rfl, rfl, rfl, (fun _ _ h => by cases h), .inl rfl⟩

/-! ## The invariant -/

/-- What a run in which every control packet goes out and fits keeps. -/
structure DeliveryInv (s : System) : Prop where
  send : SendInv s
  inHand : ∀ pkt ∈ s.inHand, 0 < pkt.length ∧ pkt.length ≤ retxPktMax
  /-- The slot of a packet that is being stored waits for nothing, and no one is
  about to write to it. -/
  claimed : ∀ pkt slot, .claimed pkt slot ∈ s.storing →
    ¬ (s.globals.retxRing slot).Waits ∧ ∀ v ∈ s.visits, v.slot ≠ slot
  alone : s.storing.length ≤ 1
  acking : ∀ channel seq, s.holder = some (.acking channel seq) →
    isInputChannel channel = true ∧ (channel, seq) ∉ s.outstanding
  holds : ∀ n ∈ s.outstanding, s.KeepsInput n ∨ s.HoldsControl n

theorem DeliveryInv.remembers {s : System} (h : DeliveryInv s) : Remembers s :=
  fun n hn => (h.holds n hn).imp_right System.HoldsControl.keeps

theorem deliveryInv_start (c : Globals) : DeliveryInv (.start c) :=
  ⟨sendInv_start c, nofun, nofun, Nat.zero_le 1, nofun, nofun⟩

theorem mem_outstanding_noteSettled {s : System} {channel : UInt8}
    {seq : UInt16} {n : UInt8 × UInt16} :
    n ∈ (s.noteSettled channel seq).outstanding ↔
      n ∈ s.outstanding ∧ n ≠ (channel, seq) := by
  simp [System.noteSettled]

/-- A number that is still outstanding stays on its side. -/
theorem DeliveryInv.holds_of {gcm : Gcm} {s s' : System} {e : Event}
    (h : DeliveryInv s) (hstep : step gcm s e = some s')
    (hcontrol : ∀ n ∈ s'.outstanding, s.HoldsControl n → s'.HoldsControl n)
    {n : UInt8 × UInt16} (hn : n ∈ s.outstanding) (hn' : n ∈ s'.outstanding) :
    s'.KeepsInput n ∨ s'.HoldsControl n := by
  rcases h.holds n hn with hinput | hkept
  · refine .inl ((hinput.afterStep h.send hstep).resolve_right ?_)
    exact fun hacking => (h.acking n.1 n.2 hacking).2 hn
  · exact .inr (hcontrol n hn' hkept)

/-- The call sites of control messages use no input channel. -/
theorem Site.not_isInputChannel (site : Site) :
    isInputChannel site.channel = false := by
  cases site <;> rfl

/-- No buffer of a call site is longer than a slot. -/
theorem Site.buflen_le (site : Site) : site.buflen ≤ retxPktMax := by
  cases site <;> exact Nat.le_of_ble_eq_true rfl

/-- A step of the holder of the semaphore. -/
theorem DeliveryInv.afterHolder {gcm : Gcm} {s s' : System} {env : StepEnv}
    (hinv : DeliveryInv s) (hstep : step gcm s (.holder env) = some s') :
    DeliveryInv s' := by
  obtain ⟨h, hs, rfl⟩ := Option.map_eq_some_iff.mp hstep
  obtain ⟨hring, hhand, hstoring, hvisits, hacking, hout⟩ :=
    holderStep_effect gcm env s h
  refine ⟨hinv.send.afterStep hstep, by rw [hhand]; exact hinv.inHand,
    by rw [hring, hstoring, hvisits]; exact hinv.claimed,
    by rw [hstoring]; exact hinv.alone,
    fun channel seq heq => absurd heq (hacking channel seq), fun n hn => ?_⟩
  have hold : n ∈ s.outstanding → (holderStep gcm env s h).KeepsInput n ∨
      (holderStep gcm env s h).HoldsControl n :=
    fun hmem => hinv.holds_of hstep (fun n _ hkept =>
      hkept.of_same hring hvisits (fun pkt hpkt => by rw [hhand]; exact hpkt)
        hstoring) hmem hn
  rcases hout with hout | ⟨taken, hout, htaken⟩
  · exact hold (by rwa [hout] at hn)
  · rw [hout, List.mem_append, List.mem_singleton] at hn
    rcases hn with hn | rfl
    · exact hold hn
    · exact .inl htaken

/-- A step that adds no number and leaves the control side as it is. -/
theorem DeliveryInv.afterOther {gcm : Gcm} {s s' : System} {e : Event}
    (h : DeliveryInv s) (hstep : step gcm s e = some s')
    (hring : s'.globals.retxRing = s.globals.retxRing)
    (hhand : s'.inHand = s.inHand) (hstoring : s'.storing = s.storing)
    (hvisits : s'.visits = s.visits)
    (hout : ∀ n ∈ s'.outstanding, n ∈ s.outstanding)
    (hacking : ∀ channel seq, s'.holder = some (.acking channel seq) →
      s.holder = some (.acking channel seq) ∨
        isInputChannel channel = true ∧ (channel, seq) ∉ s'.outstanding) :
    DeliveryInv s' := by
  refine ⟨h.send.afterStep hstep, by rw [hhand]; exact h.inHand,
    by rw [hring, hstoring, hvisits]; exact h.claimed,
    by rw [hstoring]; exact h.alone, fun channel seq heq => ?_, fun n hn => ?_⟩
  · rcases hacking channel seq heq with hold | hnew
    · obtain ⟨hinput, hmem⟩ := h.acking channel seq hold
      exact ⟨hinput, fun hmem' => hmem (hout _ hmem')⟩
    · exact hnew
  · exact h.holds_of hstep (fun m _ hkept => hkept.of_same hring hvisits
      (fun pkt hpkt => by rw [hhand]; exact hpkt) hstoring) (hout n hn) hn

/-- A thread takes the semaphore. -/
theorem DeliveryInv.afterEnter {gcm : Gcm} {s t s' : System} {e : Event}
    {h : Holder} (hinv : DeliveryInv s) (hstep : step gcm s e = some s')
    (henter : t.enter h = some s')
    (hring : t.globals.retxRing = s.globals.retxRing)
    (hhand : t.inHand = s.inHand) (hstoring : t.storing = s.storing)
    (hvisits : t.visits = s.visits)
    (hout : ∀ n ∈ t.outstanding, n ∈ s.outstanding)
    (hacking : ∀ channel seq, h = .acking channel seq →
      isInputChannel channel = true ∧ (channel, seq) ∉ t.outstanding) :
    DeliveryInv s' := by
  unfold System.enter at henter
  split_ifs at henter
  obtain rfl := Option.some.inj henter
  exact hinv.afterOther hstep hring hhand hstoring hvisits hout
    fun channel seq heq => .inr (hacking channel seq (Option.some.inj heq))

/-- A control message is built. -/
theorem DeliveryInv.afterBuild {gcm : Gcm} {s s' : System} {site : Site}
    {env : BuildEnv} (h : DeliveryInv s)
    (hstep : step gcm s (.build site env) = some s') : DeliveryInv s' := by
  have hrun := hstep
  simp only [step, buildSite] at hrun
  obtain ⟨n, hbuild | ⟨raw, hlen, hbuild⟩⟩ := buildEncryptedControlMsg_cases
    gcm env s.globals site.buflen site.msgType site.payload site.channel
  · rw [hbuild] at hrun
    obtain rfl := Option.some.inj hrun
    exact h.afterOther hstep rfl rfl rfl rfl (fun _ hn => hn)
      fun _ _ heq => .inl heq
  · rw [hbuild] at hrun
    obtain rfl := Option.some.inj hrun
    refine ⟨h.send.afterStep hstep, ?_, h.claimed, h.alone, ?_, ?_⟩
    · intro pkt hpkt
      rcases List.mem_append.mp hpkt with hpkt | hpkt
      · exact h.inHand pkt hpkt
      · rw [List.mem_singleton] at hpkt
        subst hpkt
        rw [reliablePacket_length]
        have := site.buflen_le
        omega
    · intro channel seq heq
      obtain ⟨hinput, hout⟩ := h.acking channel seq heq
      refine ⟨hinput, fun hmem => ?_⟩
      rcases List.mem_append.mp hmem with hmem | hmem
      · exact hout hmem
      · rw [List.mem_singleton, Prod.mk.injEq] at hmem
        rw [hmem.1, site.not_isInputChannel] at hinput
        cases hinput
    · intro m hm
      rcases List.mem_append.mp hm with hold | hnew
      · refine h.holds_of hstep (fun m _ hkept => ?_) hold hm
        exact hkept.of_same rfl rfl (fun pkt hpkt => List.mem_append_left _ hpkt)
          rfl
      · rw [List.mem_singleton] at hnew
        subst hnew
        exact .inr (.inl (.inl ⟨_,
          List.mem_append_right _ (List.mem_singleton_self _),
          pktGetChannelSeq_reliablePacket _ _ _ _⟩))

/-- A slot that waits is looked at; if its wait is to be ended, its number is
settled. -/
theorem DeliveryInv.afterLook {gcm : Gcm} {s t : System} {e : Event}
    {found : Option SlotVisit} (h : DeliveryInv s)
    (hstep : step gcm s e = some (t.noteVisit found))
    (hglobals : t.globals = s.globals) (hhand : t.inHand = s.inHand)
    (hstoring : t.storing = s.storing) (hvisits : t.visits = s.visits)
    (hholder : t.holder = s.holder)
    (hout : ∀ n ∈ t.outstanding, n ∈ s.outstanding)
    (hwaits : ∀ v ∈ found, (s.globals.retxRing v.slot).Waits)
    (hends : ∀ v ∈ found, v.Ends → ∀ n ∈ t.outstanding,
      ((s.globals.retxRing v.slot).channel,
        (s.globals.retxRing v.slot).seq) ≠ n) :
    DeliveryInv (t.noteVisit found) := by
  have hmem : ∀ v ∈ (t.noteVisit found).visits, v ∈ s.visits ∨ v ∈ found := by
    intro v hv
    rw [← hvisits]
    exact (List.mem_append.mp hv).imp_right Option.mem_toList.mp
  refine ⟨h.send.afterStep hstep, ?_, ?_, ?_, ?_, fun n hn => ?_⟩
  · show ∀ pkt ∈ t.inHand, _
    rw [hhand]
    exact h.inHand
  · intro pkt slot hcall
    obtain ⟨hfree, hvisit⟩ := h.claimed pkt slot (hstoring ▸ hcall)
    refine ⟨by show ¬ (t.globals.retxRing slot).Waits; rwa [hglobals],
      fun v hv => ?_⟩
    rcases hmem v hv with hold | hnew
    · exact hvisit v hold
    · rintro rfl
      exact hfree (hwaits v hnew)
  · show t.storing.length ≤ 1
    rw [hstoring]
    exact h.alone
  · intro channel seq heq
    obtain ⟨hinput, hmem⟩ := h.acking channel seq (hholder ▸ heq)
    exact ⟨hinput, fun hmem' => hmem (hout _ hmem')⟩
  · refine h.holds_of hstep (fun m hm hkept => ?_) (hout n hn) hn
    rcases hkept with hcarries | ⟨i, hi, hfirm⟩
    · exact .inl (hcarries.of_same (fun pkt hpkt => hhand.symm ▸ hpkt)
        fun call hcall => hstoring.symm ▸ hcall)
    · refine .inr ⟨i, ?_, fun v hv hend => ?_⟩
      · show awaitsAck m.1 m.2 (t.globals.retxRing i) = true
        rwa [hglobals]
      · rcases hmem v hv with hold | hnew
        · exact hfirm v hold hend
        · rintro rfl
          exact hends v hnew hend m hm (waits_of_awaitsAck hi).2

/-- What was decided about a slot is written. -/
theorem DeliveryInv.afterVisit {gcm : Gcm} {s s' : System} {v : SlotVisit}
    (h : DeliveryInv s) (hstep : step gcm s (.visit v) = some s') :
    DeliveryInv s' := by
  have hrun := hstep
  simp only [step] at hrun
  split_ifs at hrun with hv
  obtain rfl := Option.some.inj hrun
  refine ⟨h.send.afterStep hstep, h.inHand, fun pkt slot hcall => ?_, h.alone,
    h.acking, fun n hn => ?_⟩
  · obtain ⟨hfree, hvisit⟩ := h.claimed pkt slot hcall
    refine ⟨?_, fun u hu => hvisit u (List.mem_of_mem_erase hu)⟩
    show ¬ ((v.finish s.globals).retxRing slot).Waits
    rwa [SlotVisit.finish_of_ne (hvisit v hv)]
  · refine h.holds_of hstep (fun m _ hkept => ?_) hn hn
    rcases hkept with hcarries | ⟨i, hi, hfirm⟩
    · exact .inl hcarries
    · exact .inr ⟨i, SlotVisit.awaitsAck_finish hi (hfirm v hv),
        fun u hu => hfirm u (List.mem_of_mem_erase hu)⟩

/-- A control packet goes out, and a slot that waits for nothing is claimed for
it. -/
theorem DeliveryInv.afterSent {gcm : Gcm} {s s' : System} {pkt : Packet}
    {tx : ℤ} (h : DeliveryInv s) (hfits : SendsAndFits s (.sent pkt tx))
    (hstep : step gcm s (.sent pkt tx) = some s') : DeliveryInv s' := by
  have hrun := hstep
  obtain ⟨htx, hfree, hvisit, hempty⟩ := hfits
  simp only [step] at hrun
  split_ifs at hrun with hpkt
  have hlen := h.inHand pkt hpkt
  rw [System.claim, if_pos ⟨htx, by omega⟩, hempty] at hrun
  obtain rfl := Option.some.inj hrun
  refine ⟨h.send.afterStep hstep, fun pkt' hpkt' =>
    h.inHand pkt' (List.mem_of_mem_erase hpkt'), fun pkt' slot hcall => ?_,
    le_rfl, h.acking, fun n hn => ?_⟩
  · obtain ⟨rfl, rfl⟩ := StoreCall.claimed.inj (List.mem_singleton.mp hcall)
    exact ⟨hfree, hvisit⟩
  · refine h.holds_of hstep (fun m _ hkept => ?_) hn hn
    rcases hkept with (⟨pkt', hpkt', hm⟩ | ⟨pkt', slot, hcall, -⟩) | hslot
    · by_cases heq : pkt' = pkt
      · subst heq
        exact .inl (.inr ⟨pkt', _, List.mem_singleton_self _, hm⟩)
      · exact .inl (.inl ⟨pkt', (List.mem_erase_of_ne heq).mpr hpkt', hm⟩)
    · rw [hempty] at hcall
      exact absurd hcall List.not_mem_nil
    · exact .inr hslot

/-- A packet is put in its slot, and the head is advanced. -/
theorem DeliveryInv.afterStore {gcm : Gcm} {s s' : System} {call : StoreCall}
    {now : UInt32} (h : DeliveryInv s)
    (hstep : step gcm s (.store call now) = some s') : DeliveryInv s' := by
  have hrun := hstep
  simp only [step] at hrun
  split_ifs at hrun with hcall
  obtain rfl := Option.some.inj hrun
  obtain ⟨call', hstoring⟩ :=
    List.length_eq_one_iff.mp (le_antisymm h.alone (List.length_pos_of_mem hcall))
  obtain rfl : call = call' := by rwa [hstoring, List.mem_singleton] at hcall
  have hsend := h.send.afterStep hstep
  cases call with
  | claimed pkt slot =>
      obtain ⟨hfree, hvisit⟩ := h.claimed pkt slot hcall
      refine ⟨hsend, h.inHand, ?_, ?_, h.acking, fun n hn => ?_⟩
      · intro pkt' slot' hcall'
        simp [storeStep, hstoring] at hcall'
      · simp [storeStep, hstoring]
      · refine h.holds_of hstep (fun m _ hkept => ?_) hn hn
        rcases hkept with (hhand | ⟨pkt', slot', hcall', hm⟩) | ⟨i, hi, hfirm⟩
        · exact .inl (.inl hhand)
        · rw [hstoring, List.mem_singleton] at hcall'
          obtain ⟨rfl, rfl⟩ := StoreCall.claimed.inj hcall'
          refine .inr ⟨slot', ?_, fun v hv _ => hvisit v hv⟩
          simp [storeStep, fillSlot, awaitsAck, hm]
        · have hne : i ≠ slot := by
            rintro rfl
            exact hfree (waits_of_awaitsAck hi).1
          refine .inr ⟨i, ?_, hfirm⟩
          rw [← hi]
          exact congrArg (awaitsAck m.1 m.2) (Function.update_of_ne hne _ _)
  | filled =>
      refine ⟨hsend, h.inHand, ?_, ?_, h.acking, fun n hn => ?_⟩
      · intro pkt slot hcall'
        simp [storeStep, hstoring] at hcall'
      · simp [storeStep, hstoring]
      · refine h.holds_of hstep (fun m _ hkept => ?_) hn hn
        rcases hkept with (hhand | ⟨pkt, slot, hcall', -⟩) | hslot
        · exact .inl (.inl hhand)
        · simp [hstoring] at hcall'
        · exact .inr hslot
  | advancing head =>
      refine ⟨hsend, h.inHand, ?_, ?_, h.acking, fun n hn => ?_⟩
      · intro pkt slot hcall'
        simp [storeStep, hstoring] at hcall'
      · simp [storeStep, hstoring]
      · refine h.holds_of hstep (fun m _ hkept => ?_) hn hn
        rcases hkept with (hhand | ⟨pkt, slot, hcall', -⟩) | hslot
        · exact .inl (.inl hhand)
        · simp [hstoring] at hcall'
        · exact .inr hslot

theorem System.noteGivenUp_same (s : System) (found : Option SlotVisit) :
    (s.noteGivenUp found).globals = s.globals ∧
      (s.noteGivenUp found).inHand = s.inHand ∧
      (s.noteGivenUp found).storing = s.storing ∧
      (s.noteGivenUp found).visits = s.visits ∧
      (s.noteGivenUp found).holder = s.holder := by
  unfold System.noteGivenUp
  split
  · exact ⟨rfl, rfl, rfl, rfl, rfl⟩
  · exact ⟨rfl, rfl, rfl, rfl, rfl⟩

theorem DeliveryInv.afterScan {gcm : Gcm} {s s' : System} {now : UInt32}
    {i : Fin retxSlots} (h : DeliveryInv s)
    (hstep : step gcm s (.controlScan now i) = some s') : DeliveryInv s' := by
  have hrun := hstep
  obtain rfl := Option.some.inj hrun
  obtain ⟨hglobals, hhand, hstoring, hvisits, hholder⟩ :=
    s.noteGivenUp_same (lookScan s.globals now i)
  refine h.afterLook hstep hglobals hhand hstoring hvisits hholder
    (fun n hn => ?_) (fun v hv => ?_) fun v hv hend n hn => ?_
  · unfold System.noteGivenUp at hn
    split at hn
    · exact (mem_outstanding_noteSettled.mp hn).1
    · exact hn
  · obtain ⟨rfl, hwaits⟩ := lookScan_eq_some hv
    exact hwaits
  · rw [Option.mem_def.mp hv] at hn
    cases v with
    | ack j now' =>
        unfold lookScan at hv
        dsimp only at hv
        split_ifs at hv
        all_goals cases hv
    | giveUp j => exact Ne.symm (mem_outstanding_noteSettled.mp hn).2
    | resend j now' => exact hend.elim

theorem DeliveryInv.afterStep {gcm : Gcm} {s s' : System} {e : Event}
    (h : DeliveryInv s) (hfits : SendsAndFits s e)
    (hstep : step gcm s e = some s') : DeliveryInv s' := by
  have hrun := hstep
  cases e with
  | holder env => exact h.afterHolder hstep
  | build site env => exact h.afterBuild hstep
  | sent pkt tx => exact h.afterSent hfits hstep
  | store call now => exact h.afterStore hstep
  | visit v => exact h.afterVisit hstep
  | enterSend payload channel taken =>
      simp only [step] at hrun
      split_ifs at hrun
      · exact h.afterEnter hstep hrun rfl rfl rfl rfl (fun _ hn => hn)
          fun _ _ h => by cases h
      · obtain rfl := Option.some.inj hrun
        exact h.afterOther hstep rfl rfl rfl rfl (fun _ hn => hn)
          fun _ _ heq => .inl heq
  | enterAck channel seq taken =>
      have hout : ∀ n ∈ (s.noteSettled channel seq).outstanding,
          n ∈ s.outstanding :=
        fun n hn => (mem_outstanding_noteSettled.mp hn).1
      simp only [step] at hrun
      split_ifs at hrun with hinput
      · refine h.afterEnter hstep hrun rfl rfl rfl rfl hout ?_
        intro channel' seq' heq
        cases heq
        exact ⟨by simpa using hinput,
          fun hmem => (mem_outstanding_noteSettled.mp hmem).2 rfl⟩
      · obtain rfl := Option.some.inj hrun
        exact h.afterOther hstep rfl rfl rfl rfl hout fun _ _ heq => .inl heq
  | enterScan now taken =>
      simp only [step] at hrun
      split_ifs at hrun
      · exact h.afterEnter hstep hrun rfl rfl rfl rfl (fun _ hn => hn)
          fun _ _ h => by cases h
      · obtain rfl := Option.some.inj hrun
        exact h
  | unsequenced payload channel env =>
      simp only [step] at hrun
      split_ifs at hrun
      obtain rfl := Option.some.inj hrun
      obtain ⟨n, g, hbuild⟩ := buildEncryptedUnsequencedMsg_snd gcm env
        s.globals inputBuflen ctrlTypeInput payload channel
      rw [hbuild] at hstep ⊢
      exact h.afterOther hstep rfl rfl rfl rfl (fun _ hn => hn)
        fun _ _ heq => .inl heq
  | controlAck channel seq now =>
      obtain rfl := Option.some.inj hrun
      refine h.afterLook hstep rfl rfl rfl rfl rfl
        (fun n hn => (mem_outstanding_noteSettled.mp hn).1)
        (fun v hv => (lookAck_eq_some hv).1) fun v hv _ n hn => ?_
      rw [(lookAck_eq_some hv).2]
      exact Ne.symm (mem_outstanding_noteSettled.mp hn).2
  | controlScan now i => exact h.afterScan hstep

/-! ## The result -/

/-- In every run in which the first send of each control packet succeeds, its
slot waits for no ACK and is not visited, and no two packets are stored at once,
every reliable number taken is kept until it is acknowledged or given up. -/
theorem remembers_of_sends {gcm : Gcm} {c : Globals} {es : List Event}
    {s : System} (hrun : run gcm (.start c) es = some s)
    (hsends : Meets SendsAndFits gcm (.start c) es) : Remembers s :=
  (run_induction (P := DeliveryInv) (Q := SendsAndFits)
    (fun _ _ _ ht hQ hstep => ht.afterStep hQ hstep) hrun hsends
    (deliveryInv_start c)).remembers

/-- The packet of an IDR request, with `before` of them before it. -/
def idrRequestPacket (before : UInt8) : Packet :=
  reliablePacket Globals.fresh 1 (before.toUInt16 + 1)
    ([0x01, 0x00, 26, 0, before, 0, 0, 0] ++ List.replicate 16 0 ++
      [0x02, 0x03, 2, 0, 0, 0])

/-- The calls that store it in a slot. -/
def storeEvents (pkt : Packet) (slot : Fin retxSlots) : List Event :=
  [.store (.claimed pkt slot) 1000, .store .filled 1000,
    .store (.advancing slot) 1000]

/-- An IDR request goes out, is stored, scanned and resent. -/
def idrRequestRun : List Event :=
  [.build .idrRequest ⟨true, true, true⟩, .sent (idrRequestPacket 0) 40] ++
    storeEvents (idrRequestPacket 0) 0 ++
    [.controlScan 900000 0, .visit (.resend 0 900000)]

/-- The run of an IDR request that goes out keeps its number. -/
theorem remembers_of_sends_idrRequest :
    ∃ s, run Gcm.identity (.start Globals.fresh) idrRequestRun = some s ∧
      s.outstanding = [(1, 1)] ∧ Remembers s := by
  have hlog : (run Gcm.identity (.start Globals.fresh) idrRequestRun).map
      (fun s => s.outstanding) = some [(1, 1)] := by decide
  obtain ⟨s, hrun, hout⟩ := Option.map_eq_some_iff.mp hlog
  refine ⟨s, hrun, hout, remembers_of_sends hrun ?_⟩
  refine ⟨trivial, fun s₁ hs₁ => ⟨?_, fun s₂ _ => ?_⟩⟩
  · obtain rfl := Option.some.inj hs₁
    exact ⟨by decide, fun hbusy => absurd hbusy.1 Bool.false_ne_true, nofun, rfl⟩
  · refine Meets.mono (meets_of_forall (Q := fun e => ∀ s, SendsAndFits s e) ?_)
      fun s e h => h s
    intro e he s
    rcases List.mem_append.mp he with he | he
    · obtain rfl | rfl | rfl : e = _ ∨ e = _ ∨ e = _ := by
        simpa [storeEvents] using he
      · trivial
      · trivial
      · trivial
    · obtain rfl | rfl : e = _ ∨ e = _ := by simpa using he
      · trivial
      · trivial

/-- A number that no one carries and no slot waits for is forgotten. -/
theorem not_remembers {s : System} {n : UInt8 × UInt16}
    (hout : n ∈ s.outstanding) (hpending : s.pending = none)
    (hinput : ∀ i, (s.globals.inputRetxRing i).active = false)
    (hhand : s.inHand = []) (hstoring : s.storing = [])
    (hretx : ∀ i, awaitsAck n.1 n.2 (s.globals.retxRing i) = false) :
    ¬ Remembers s := by
  intro h
  rcases h n hout with
    (⟨pkt, hpkt, -⟩ | ⟨i, hi⟩) | (⟨pkt, hpkt, -⟩ | ⟨pkt, slot, hcall, -⟩) | ⟨i, hi⟩
  · rw [hpending] at hpkt
    cases hpkt
  · simp [holdsInput, hinput i] at hi
  · rw [hhand] at hpkt
    cases hpkt
  · rw [hstoring] at hcall
    cases hcall
  · rw [hretx i] at hi
    cases hi

/-- What a run must end with for a number to be forgotten. -/
def forgotten (s : System) (n : UInt8 × UInt16) : Bool :=
  decide (n ∈ s.outstanding) && s.holder.isNone && s.inHand.isEmpty &&
    s.storing.isEmpty && decide ((∀ i, (s.globals.inputRetxRing i).active =
      false) ∧ ∀ i, awaitsAck n.1 n.2 (s.globals.retxRing i) = false)

theorem not_remembers_of_forgotten {s : System} {n : UInt8 × UInt16}
    (h : forgotten s n = true) : ¬ Remembers s := by
  simp only [forgotten, Bool.and_eq_true, decide_eq_true_eq,
    Option.isNone_iff_eq_none, List.isEmpty_iff] at h
  obtain ⟨⟨⟨⟨hout, hholder⟩, hhand⟩, hstoring⟩, hinput, hretx⟩ := h
  exact not_remembers hout (by rw [System.pending, hholder]; rfl) hinput hhand
    hstoring hretx

/-- An IDR request whose send fails takes a number of the urgent channel that
nothing keeps. -/
theorem not_remembers_of_failed_send :
    ¬ ∀ (gcm : Gcm) (es : List Event) (s : System),
      run gcm (.start Globals.fresh) es = some s → Remembers s := by
  intro hall
  have hlog : (run Gcm.identity (.start Globals.fresh)
      [.build .idrRequest ⟨true, true, true⟩,
        .sent (idrRequestPacket 0) (-1)]).map
        (forgotten · (1, 1)) = some true := by decide
  obtain ⟨s, hrun, hs⟩ := Option.map_eq_some_iff.mp hlog
  exact not_remembers_of_forgotten hs (hall _ _ s hrun)

/-- Two IDR requests that go out and are stored at once. -/
def overlapRun : List Event :=
  [.build .idrRequest ⟨true, true, true⟩, .build .idrRequest ⟨true, true, true⟩,
    .sent (idrRequestPacket 0) 40, .sent (idrRequestPacket 1) 40,
    .store (.claimed (idrRequestPacket 0) 0) 1000,
    .store (.claimed (idrRequestPacket 1) 0) 1000, .store .filled 1000,
    .store .filled 1000, .store (.advancing 0) 1000, .store (.advancing 0) 1000]

/-- They fill one slot, and the first is forgotten. -/
theorem not_remembers_of_overlap :
    ∃ s, run Gcm.identity (.start Globals.fresh) overlapRun = some s ∧
      ¬ Remembers s := by
  have hlog : (run Gcm.identity (.start Globals.fresh) overlapRun).map
      (forgotten · (1, 1)) = some true := by decide
  obtain ⟨s, hrun, hs⟩ := Option.map_eq_some_iff.mp hlog
  exact ⟨s, hrun, not_remembers_of_forgotten hs⟩

end MoonlightPsp.Control
