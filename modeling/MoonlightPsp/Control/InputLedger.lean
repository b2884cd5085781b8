import MoonlightPsp.Control.InputSteps

/-!
# The ledger of input events

Every input event that was queued and not acknowledged is in a slot of the input
ring, with the bytes it was queued with but for the time of the last send.  This
holds whatever the threads do between two steps of the holder of the semaphore.
-/

namespace MoonlightPsp.Control

/-! ## The ledger -/

/-- Two packets agree everywhere but in the sent time. -/
def SameButSentTime (p q : Packet) : Prop :=
  p.length = q.length ∧ ∀ k, k ≠ 2 → k ≠ 3 → p[k]? = q[k]?

/-- A slot holds the event it was last filled with. -/
def System.Holds (s : System) (i : Fin retxSlots) : Prop :=
  ∃ q, s.queued[s.owner i]? = some q ∧
    q.channel = (s.globals.inputRetxRing i).channel ∧
    q.seq = (s.globals.inputRetxRing i).seq ∧
    SameButSentTime (s.globals.inputRetxRing i).data q.packet

/-- The ring, the counters and the history agree. -/
structure Ledger (s : System) : Prop where
  count : s.globals.inputQueued - s.globals.inputAcked =
    UInt32.ofNat (activeSlots s.globals.inputRetxRing).card
  bytes : ∀ i, (s.globals.inputRetxRing i).active = true → s.Holds i
  distinct : ∀ i j, (s.globals.inputRetxRing i).active = true →
    (s.globals.inputRetxRing j).active = true → s.owner i = s.owner j → i = j
  genuine : ∀ q ∈ s.queued, pktGetChannelSeq q.packet = (q.channel, q.seq)

/-- The reliable numbers of the events queued on a channel, in order. -/
def System.numbersOn (s : System) (channel : UInt8) : List UInt16 :=
  (s.queued.filter (·.channel = channel)).map (·.seq)

/-- The numbers count up from `first`. -/
def CountUpFrom (first : UInt16) (numbers : List UInt16) : Prop :=
  ∀ k n, numbers[k]? = some n → n = first + UInt16.ofNat k

/-- A control message is built on the channel. -/
def Event.buildsOn (channel : UInt8) : Event → Prop
  | .build site _ => site.channel = channel
  | _ => False

/-- A slot in use stays in use, for the same event, until its ACK. -/
def KeepsSlots (s : System) (e : Event) (s' : System) : Prop :=
  ∀ i, (s.globals.inputRetxRing i).active = true →
    (s'.globals.inputRetxRing i).active = true ∧ s'.owner i = s.owner i ∨
    (∃ env, e = .holder env) ∧ s.holder = some (.acking
      (s.globals.inputRetxRing i).channel (s.globals.inputRetxRing i).seq)

/-- The input ring is the same, and no reliable number of the channel was
taken. -/
structure Untouched (channel : UInt8) (c c' : Globals) : Prop where
  ring : c'.inputRetxRing = c.inputRetxRing
  inputQueued : c'.inputQueued = c.inputQueued
  seq : c'.reliableSeqPerCh channel = c.reliableSeqPerCh channel

/-- A send that cannot queue its event stops the stream and leaves no trace,
whatever happened while it had the semaphore or if it could not get it. -/
def FailsCleanly (gcm : Gcm) (s : System) : Prop :=
  ∀ payload channel s₁,
    (step gcm s (.enterSend payload channel false) = some s₁ →
      Untouched channel s.globals s₁.globals ∧ s₁.globals.meRunning = false) ∧
    (step gcm s (.enterSend payload channel true) = some s₁ →
      ∀ es s₂, run gcm s₁ es = some s₂ →
        Meets (fun t _ => t.holder ≠ none) gcm s₁ es →
        (∀ e ∈ es, ¬ e.buildsOn channel) → s₂.holder = some .sendFailing →
        ∀ env s₃, step gcm s₂ (.holder env) = some s₃ →
          Untouched channel s.globals s₃.globals ∧
            s₃.globals.meRunning = false)

/-- The input side of a fresh start. -/
structure Fresh (c : Globals) : Prop where
  ring : ∀ i, (c.inputRetxRing i).active = false
  inputQueued : c.inputQueued = 0
  inputAcked : c.inputAcked = 0

/-! ## Bytes -/

theorem SameButSentTime.refl (p : Packet) : SameButSentTime p p :=
  ⟨rfl, fun _ _ _ => rfl⟩

/-- A resend changes nothing but the sent time. -/
theorem SameButSentTime.stamp {p q : Packet} (h : SameButSentTime p q)
    (now : UInt32) : SameButSentTime (stampSentTime p now) q := by
  refine ⟨by simpa [stampSentTime] using h.1, fun k h2 h3 => ?_⟩
  rw [← h.2 k h2 h3, stampSentTime, List.getElem?_set_ne (Ne.symm h3),
    List.getElem?_set_ne (Ne.symm h2)]

/-! ## What keeps the ledger -/

theorem ledger_start {c : Globals} (h : Fresh c) : Ledger (.start c) := by
  have hactive : ∀ i,
      ((System.start c).globals.inputRetxRing i).active ≠ true := by
    intro i
    rw [show (System.start c).globals = c from rfl, h.ring i]
    decide
  refine ⟨?_, ?_, ?_, ?_⟩
  · have hnone : activeSlots (System.start c).globals.inputRetxRing = ∅ := by
      ext i
      simpa using hactive i
    rw [hnone]
    show c.inputQueued - c.inputAcked = _
    rw [h.inputQueued, h.inputAcked]
    rfl
  · exact fun i hi => absurd hi (hactive i)
  · exact fun i _ hi => absurd hi (hactive i)
  · nofun

theorem Ledger.same {s s' : System} (h : Ledger s) (hsame : SameInput s s') :
    Ledger s' := by
  obtain ⟨hring, hqueued, hacked, hlog, howner⟩ := hsame
  refine ⟨?_, ?_, ?_, ?_⟩
  · rw [hring, hqueued, hacked]
    exact h.count
  · intro i
    unfold System.Holds
    rw [hring, hlog, howner]
    exact h.bytes i
  · rw [hring, howner]
    exact h.distinct
  · rw [hlog]
    exact h.genuine

theorem Ledger.owner_lt {s : System} (h : Ledger s) {i : Fin retxSlots}
    (hi : (s.globals.inputRetxRing i).active = true) :
    s.owner i < s.queued.length := by
  obtain ⟨q, hq, -⟩ := h.bytes i hi
  exact (List.getElem?_eq_some_iff.mp hq).1

/-- Filling a free slot keeps the ledger. -/
theorem Ledger.store {s : System} (h : Ledger s) {slot : Fin retxSlots}
    (hfree : (s.globals.inputRetxRing slot).active = false) {pkt : Packet}
    {channel : UInt8}
    (hpkt : pktGetChannelSeq pkt = (channel, readBe16 pkt 6)) (now : UInt32) :
    Ledger (s.store slot pkt channel now) := by
  have hother : ∀ {i : Fin retxSlots}, i ≠ slot →
      (s.store slot pkt channel now).globals.inputRetxRing i =
        s.globals.inputRetxRing i := fun hi => Function.update_of_ne hi _ _
  have howner : ∀ {i : Fin retxSlots}, i ≠ slot →
      (s.store slot pkt channel now).owner i = s.owner i :=
    fun hi => Function.update_of_ne hi _ _
  have hself : (s.store slot pkt channel now).owner slot = s.queued.length :=
    Function.update_self _ _ _
  refine ⟨?_, ?_, ?_, ?_⟩
  · have hcard : (activeSlots
        (s.store slot pkt channel now).globals.inputRetxRing).card =
          (activeSlots s.globals.inputRetxRing).card + 1 := by
      unfold System.store storeInput
      rw [activeSlots_update_active _ _ rfl,
        Finset.card_insert_of_notMem (by simp [hfree])]
    rw [hcard, UInt32.ofNat_add, ← h.count]
    show s.globals.inputQueued + 1 - s.globals.inputAcked = _
    grind
  · intro i hi
    by_cases hslot : i = slot
    · subst hslot
      refine ⟨⟨channel, readBe16 pkt 6, pkt⟩, ?_, ?_⟩
      · rw [hself]
        exact List.getElem?_concat_length
      · simp [System.store, storeInput, SameButSentTime.refl]
    · rw [hother hslot] at hi
      obtain ⟨q, hq, hrest⟩ := h.bytes i hi
      refine ⟨q, ?_, by rw [hother hslot]; exact hrest⟩
      rw [howner hslot]
      exact List.getElem?_append_left (h.owner_lt hi) ▸ hq
  · intro i j hi hj hij
    by_cases hislot : i = slot
    · subst hislot
      by_cases hjslot : j = i
      · exact hjslot.symm
      · rw [hother hjslot] at hj
        rw [hself, howner hjslot] at hij
        exact absurd (h.owner_lt hj) (by omega)
    · rw [hother hislot] at hi
      by_cases hjslot : j = slot
      · subst hjslot
        rw [hself, howner hislot] at hij
        exact absurd (h.owner_lt hi) (by omega)
      · rw [hother hjslot] at hj
        rw [howner hislot, howner hjslot] at hij
        exact h.distinct i j hi hj hij
  · intro q hq
    rcases List.mem_append.mp hq with hq | hq
    · exact h.genuine q hq
    · rw [List.mem_singleton] at hq
      subst hq
      exact hpkt

/-- So does the release of a slot in use. -/
theorem Ledger.release {s : System} (h : Ledger s) {slot : Fin retxSlots}
    (hactive : (s.globals.inputRetxRing slot).active = true)
    (holder : Option Holder) :
    Ledger (s.move (releaseInput s.globals slot) holder) := by
  have hother : ∀ {i : Fin retxSlots}, i ≠ slot →
      (s.move (releaseInput s.globals slot) holder).globals.inputRetxRing i =
        s.globals.inputRetxRing i := fun hi => Function.update_of_ne hi _ _
  have hne : ∀ {i : Fin retxSlots}, ((s.move (releaseInput s.globals slot)
      holder).globals.inputRetxRing i).active = true → i ≠ slot := by
    rintro i hi rfl
    simp [System.move, releaseInput] at hi
  refine ⟨?_, ?_, ?_, h.genuine⟩
  · have hmem : slot ∈ activeSlots s.globals.inputRetxRing := by simpa
    have hcard : (activeSlots s.globals.inputRetxRing).card =
        (activeSlots (s.move (releaseInput s.globals slot)
          holder).globals.inputRetxRing).card + 1 := by
      rw [show (s.move (releaseInput s.globals slot) holder).globals =
          releaseInput s.globals slot from rfl,
        releaseInput, activeSlots_update_inactive _ _ rfl,
        Finset.card_erase_add_one hmem]
    have hcount := h.count
    rw [hcard, UInt32.ofNat_add] at hcount
    show s.globals.inputQueued - (s.globals.inputAcked + 1) = _
    grind
  · intro i hi
    have hslot := hne hi
    rw [hother hslot] at hi
    obtain ⟨q, hq, hrest⟩ := h.bytes i hi
    exact ⟨q, hq, by rw [hother hslot]; exact hrest⟩
  · intro i j hi hj hij
    have hislot := hne hi
    have hjslot := hne hj
    rw [hother hislot] at hi
    rw [hother hjslot] at hj
    exact h.distinct i j hi hj hij

/-- A resend changes the sent time, and no more that the ledger speaks of. -/
theorem Ledger.resend {s : System} (h : Ledger s) (now : UInt32)
    (slot : Fin retxSlots) (holder : Option Holder) :
    Ledger (s.move (resendInput s.globals now slot) holder) := by
  have hentry : ∀ i : Fin retxSlots,
      ((s.move (resendInput s.globals now slot) holder).globals.inputRetxRing
        i).active = (s.globals.inputRetxRing i).active := by
    intro i
    by_cases hi : i = slot
    · subst hi
      simp [System.move, resendInput]
    · simp [System.move, resendInput, hi]
  refine ⟨?_, ?_, ?_, h.genuine⟩
  · have hsame : activeSlots (s.move (resendInput s.globals now slot)
        holder).globals.inputRetxRing =
          activeSlots s.globals.inputRetxRing := by
      ext i
      rw [mem_activeSlots, mem_activeSlots, hentry]
    rw [hsame]
    exact h.count
  · intro i hi
    rw [hentry] at hi
    obtain ⟨q, hq, hchannel, hseq, hdata⟩ := h.bytes i hi
    refine ⟨q, hq, ?_⟩
    by_cases hslot : i = slot
    · subst hslot
      simp only [System.move, resendInput, Function.update_self]
      exact ⟨hchannel, hseq, hdata.stamp now⟩
    · simp only [System.move, resendInput, Function.update_of_ne hslot]
      exact ⟨hchannel, hseq, hdata⟩
  · intro i j hi hj hij
    rw [hentry] at hi hj
    exact h.distinct i j hi hj hij

/-- The step lemma of the ledger. -/
theorem Ledger.afterStep {gcm : Gcm} {s s' : System} {e : Event}
    (h : Ledger s) (hsend : SendInv s) (hstep : step gcm s e = some s') :
    Ledger s' := by
  cases step_inputStep hstep with
  | calm same | control _ _ _ same | found _ _ _ same | built _ _ _ _ same =>
      exact h.same same
  | stored pkt channel slot now before after =>
      subst after
      exact h.store (hsend.free slot (System.claimed_eq before))
        (hsend.pending channel pkt (System.pending_eq before)) now
  | released env channel seq slot event before holds after =>
      subst after
      simp only [holdsInput, Bool.and_eq_true] at holds
      exact h.release holds.1.1 _
  | resent now slot rest before active after =>
      subst after
      exact h.resend now slot _

/-! ## Numbers -/

/-- The number a send has taken for an event it has not queued yet. -/
def System.numberPending (s : System) (channel : UInt8) : List UInt16 :=
  match s.pending with
  | some (channel', pkt) => if channel' = channel then [readBe16 pkt 6] else []
  | none => []

/-- The numbers taken on the channel for input events. -/
def System.numbersTaken (s : System) (channel : UInt8) : List UInt16 :=
  s.numbersOn channel ++ s.numberPending channel

/-- The numbers taken on the channel count up, and so does the next one. -/
structure NumbersInv (first : UInt16) (channel : UInt8) (s : System) :
    Prop where
  taken : CountUpFrom first (s.numbersTaken channel)
  next : s.globals.reliableSeqPerCh channel =
    first + UInt16.ofNat (s.numbersTaken channel).length

theorem CountUpFrom.concat {first n : UInt16} {numbers : List UInt16}
    (h : CountUpFrom first numbers)
    (hn : n = first + UInt16.ofNat numbers.length) :
    CountUpFrom first (numbers ++ [n]) := by
  intro k m hk
  rw [List.getElem?_append] at hk
  split_ifs at hk with hlt
  · exact h k m hk
  · obtain ⟨hlen, rfl⟩ := List.getElem?_eq_some_iff.mp hk
    simp only [List.length_singleton] at hlen
    obtain rfl : k = numbers.length := by omega
    simpa using hn

/-- Nothing is taken on the channel. -/
theorem NumbersInv.of_same {first : UInt16} {channel : UInt8} {s s' : System}
    (h : NumbersInv first channel s)
    (htaken : s'.numbersTaken channel = s.numbersTaken channel)
    (hseq : s'.globals.reliableSeqPerCh channel =
      s.globals.reliableSeqPerCh channel) : NumbersInv first channel s' :=
  ⟨htaken ▸ h.taken, by rw [hseq, htaken]; exact h.next⟩

theorem numbersTaken_of_same {s s' : System} (channel : UInt8)
    (hqueued : s'.queued = s.queued) (hpending : s'.pending = s.pending) :
    s'.numbersTaken channel = s.numbersTaken channel := by
  rw [System.numbersTaken, System.numbersTaken, System.numbersOn,
    System.numbersOn, System.numberPending, System.numberPending, hqueued,
    hpending]

theorem numbersTaken_of_not_pending {s : System} (channel : UInt8)
    (hpending : s.pending = none) :
    s.numbersTaken channel = s.numbersOn channel := by
  rw [System.numbersTaken, System.numberPending, hpending]
  exact List.append_nil _

/-- A number is taken for a packet that is built. -/
theorem NumbersInv.built {first : UInt16} {channel channel' : UInt8}
    {s s' : System} {raw : List UInt8} (h : NumbersInv first channel s)
    (hqueued : s'.queued = s.queued) (hnone : s.pending = none)
    (hpending : s'.pending = some (channel', reliablePacket s.globals
      channel' (s.globals.reliableSeqPerCh channel') raw))
    (hseqs : s'.globals.reliableSeqPerCh =
      Function.update s.globals.reliableSeqPerCh channel'
        (s.globals.reliableSeqPerCh channel' + 1)) :
    NumbersInv first channel s' := by
  have htaken := h.taken
  have hnext := h.next
  rw [numbersTaken_of_not_pending channel hnone] at htaken hnext
  by_cases hchannel : channel' = channel
  · subst hchannel
    have hnumbers : s'.numbersTaken channel' = s.numbersOn channel' ++
        [s.globals.reliableSeqPerCh channel'] := by
      rw [System.numbersTaken, System.numbersOn, System.numberPending,
        hpending, hqueued]
      simp [System.numbersOn, readBe16_reliablePacket]
    refine ⟨?_, ?_⟩
    · rw [hnumbers]
      exact htaken.concat hnext
    · rw [hnumbers, hseqs, Function.update_self, hnext, List.length_append,
        List.length_singleton, UInt16.ofNat_add]
      grind
  · refine h.of_same ?_ ?_
    · rw [numbersTaken_of_not_pending channel hnone, System.numbersTaken,
        System.numbersOn, System.numberPending, hpending, hqueued]
      simp [System.numbersOn, hchannel]
    · rw [hseqs]
      exact Function.update_of_ne (Ne.symm hchannel) _ _

/-- The step lemma of the numbers. -/
theorem NumbersInv.afterStep {gcm : Gcm} {first : UInt16} {channel : UInt8}
    {s s' : System} {e : Event} (h : NumbersInv first channel s)
    (he : ¬ e.buildsOn channel) (hstep : step gcm s e = some s') :
    NumbersInv first channel s' := by
  cases step_inputStep hstep with
  | calm same seqs holder =>
      refine h.of_same (numbersTaken_of_same channel same.queued ?_)
        (congrFun seqs channel)
      rcases holder with hsame | ⟨hpending, hclaimed, -⟩
      · rw [System.pending, System.pending, hsame]
      · rw [hpending, System.pending_of_claimed hclaimed]
  | control site env event same seqs holder =>
      subst event
      have hne : channel ≠ site.channel := fun heq => he heq.symm
      refine h.of_same (numbersTaken_of_same channel same.queued ?_) ?_
      · rw [System.pending, System.pending, holder]
      · rw [seqs]
        exact Function.update_of_ne hne _ _
  | found payload channel' slot same seqs before after free =>
      refine h.of_same (numbersTaken_of_same channel same.queued ?_)
        (congrFun seqs channel)
      rw [System.pending_eq before, System.pending_eq after]
      rfl
  | built payload channel' slot raw same seqs before after =>
      exact h.built same.queued (System.pending_eq before)
        (System.pending_eq after) seqs
  | stored pkt channel' slot now before after =>
      subst after
      refine h.of_same ?_ rfl
      have hpending : s.pending = some (channel', pkt) :=
        System.pending_eq before
      rw [numbersTaken_of_not_pending channel (s := s.store slot pkt _ now) rfl,
        System.numbersTaken, System.numberPending, hpending]
      by_cases hchannel : channel' = channel
      · simp [System.numbersOn, System.store, hchannel]
      · simp [System.numbersOn, System.store, hchannel]
  | released env channel' seq slot event before holds after =>
      subst after
      refine h.of_same (numbersTaken_of_same channel rfl ?_) rfl
      rw [System.pending_eq before]
      rfl
  | resent now slot rest before active after =>
      subst after
      refine h.of_same (numbersTaken_of_same channel rfl ?_) rfl
      rw [System.pending_eq before]
      rfl

/-! ## Slots -/

theorem SendInv.keepsSlots {gcm : Gcm} {s s' : System} {e : Event}
    (h : SendInv s) (hstep : step gcm s e = some s') : KeepsSlots s e s' := by
  intro i hi
  cases step_inputStep hstep with
  | calm same | control _ _ _ same | found _ _ _ same | built _ _ _ _ same =>
      exact .inl ⟨by rw [same.ring]; exact hi, by rw [same.owner]⟩
  | stored pkt channel slot now before after =>
      subst after
      have hne : i ≠ slot := by
        rintro rfl
        rw [h.free i (System.claimed_eq before)] at hi
        cases hi
      refine .inl ⟨?_, Function.update_of_ne hne _ _⟩
      rw [← hi]
      exact congrArg RetxEntry.active (Function.update_of_ne hne _ _)
  | released env channel seq slot event before holds after =>
      subst after
      by_cases hne : i = slot
      · subst hne
        simp only [holdsInput, Bool.and_eq_true, beq_iff_eq] at holds
        exact .inr ⟨⟨env, event⟩, by rw [before, holds.1.2, holds.2]⟩
      · refine .inl ⟨?_, rfl⟩
        rw [← hi]
        exact congrArg RetxEntry.active (Function.update_of_ne hne _ _)
  | resent now slot rest before active after =>
      subst after
      refine .inl ⟨?_, rfl⟩
      by_cases hne : i = slot
      · subst hne
        simpa [System.move, resendInput] using hi
      · rw [← hi]
        exact congrArg RetxEntry.active (Function.update_of_ne hne _ _)

/-! ## Failing sends -/

/-- While the semaphore is held by a send that has not built its packet, the
ring and the numbers are as they were when it got it. -/
structure Paused (channel : UInt8) (c : Globals) (s : System) : Prop where
  untouched : s.beforeBuild = true → Untouched channel c s.globals

theorem Untouched.trans_same {channel : UInt8} {c : Globals} {s s' : System}
    (h : Untouched channel c s.globals) (same : SameInput s s')
    (hseq : s'.globals.reliableSeqPerCh channel =
      s.globals.reliableSeqPerCh channel) :
    Untouched channel c s'.globals :=
  ⟨same.ring.trans h.ring, same.inputQueued.trans h.inputQueued,
    hseq.trans h.seq⟩

theorem Paused.afterStep {gcm : Gcm} {channel : UInt8} {c : Globals}
    {s s' : System} {e : Event} (h : Paused channel c s)
    (hheld : s.holder ≠ none) (he : ¬ e.buildsOn channel)
    (hstep : step gcm s e = some s') : Paused channel c s' := by
  refine ⟨fun hbefore => ?_⟩
  cases step_inputStep hstep with
  | calm same seqs holder =>
      refine (h.untouched ?_).trans_same same (congrFun seqs channel)
      rcases holder with hsame | ⟨-, -, hwas⟩
      · rwa [System.beforeBuild, ← hsame]
      · exact (hwas hbefore).resolve_left hheld
  | control site env event same seqs holder =>
      subst event
      have hne : channel ≠ site.channel := fun heq => he heq.symm
      refine (h.untouched ?_).trans_same same ?_
      · rwa [System.beforeBuild, ← holder]
      · rw [seqs]
        exact Function.update_of_ne hne _ _
  | found payload channel' slot same seqs before after free =>
      exact (h.untouched (System.beforeBuild_eq before)).trans_same same
        (congrFun seqs channel)
  | built payload channel' slot raw same seqs before after =>
      rw [System.beforeBuild_eq after] at hbefore
      cases hbefore
  | stored pkt channel' slot now before after =>
      subst after
      cases hbefore
  | released env channel' seq slot event before holds after =>
      subst after
      cases hbefore
  | resent now slot rest before active after =>
      subst after
      cases hbefore

theorem failsCleanly (gcm : Gcm) (s : System) : FailsCleanly gcm s := by
  intro payload channel s₁
  refine ⟨fun hstep => ?_, fun hstep es s₂ hrun hheld hbuilds hfailing env s₃
    hleave => ?_⟩
  · simp only [step, Bool.false_eq_true, if_false] at hstep
    split_ifs at hstep
    obtain rfl := Option.some.inj hstep
    exact ⟨⟨rfl, rfl, rfl⟩, rfl⟩
  · have henter : Untouched channel s.globals s₁.globals := by
      simp only [step, System.enter] at hstep
      split_ifs at hstep
      obtain rfl := Option.some.inj hstep
      exact ⟨rfl, rfl, rfl⟩
    have hpaused : Paused channel s.globals s₂ := by
      refine run_induction (Q := fun t e => t.holder ≠ none ∧
          ¬ e.buildsOn channel) (fun t e t' ht hQ hstep =>
            ht.afterStep hQ.1 hQ.2 hstep) hrun ?_ ⟨fun _ => henter⟩
      exact hheld.and (meets_of_forall hbuilds)
    obtain ⟨hd, hholder, rfl⟩ := Option.map_eq_some_iff.mp hleave
    obtain rfl : Holder.sendFailing = hd := by
      rw [hfailing] at hholder
      exact Option.some.inj hholder
    have := hpaused.untouched (System.beforeBuild_eq hfailing)
    exact ⟨⟨this.ring, this.inputQueued, this.seq⟩, rfl⟩

/-! ## The result -/

/-- From a fresh start on, in every run of the threads, the ledger is kept: the
counters give the number of slots in use, each of which holds the event it was
filled with; the numbers of a channel count up if only input events go out on
it; a slot is not reused before its ACK; and a send that fails leaves no
trace. -/
theorem input_ledger {gcm : Gcm} {c : Globals} (hfresh : Fresh c)
    {es : List Event} {s : System} (hrun : run gcm (.start c) es = some s) :
    Ledger s ∧
    (∀ channel, (∀ e ∈ es, ¬ e.buildsOn channel) →
      CountUpFrom (c.reliableSeqPerCh channel) (s.numbersOn channel)) ∧
    (∀ e s', step gcm s e = some s' → KeepsSlots s e s') ∧
    FailsCleanly gcm s := by
  have hinv : Ledger s ∧ SendInv s :=
    run_induction (P := fun t => Ledger t ∧ SendInv t)
      (Q := fun _ _ => True) (fun t e t' ht _ hstep =>
        ⟨ht.1.afterStep ht.2 hstep, ht.2.afterStep hstep⟩) hrun
      (meets_of_forall fun _ _ => trivial)
      ⟨ledger_start hfresh, sendInv_start c⟩
  refine ⟨hinv.1, fun channel hbuilds => ?_,
    fun e s' hstep => hinv.2.keepsSlots hstep, failsCleanly gcm s⟩
  have hnumbers : NumbersInv (c.reliableSeqPerCh channel) channel s :=
    run_induction (Q := fun _ e => ¬ e.buildsOn channel)
      (fun t e t' ht he hstep => ht.afterStep he hstep) hrun
      (meets_of_forall hbuilds) ⟨nofun, by simp [System.start,
        System.numbersTaken, System.numbersOn, System.numberPending,
        System.pending]⟩
  intro k n hk
  have hlt := (List.getElem?_eq_some_iff.mp hk).1
  exact hnumbers.taken k n (by
    rw [System.numbersTaken, List.getElem?_append_left hlt, hk])

/-! ## A run -/

/-- The run of one gamepad event that is sent, acknowledged and gone. -/
def gamepadRun : List Event :=
  let env : StepEnv := ⟨⟨true, true, true⟩, 1000⟩
  [.enterSend (List.replicate 8 0) 0x10 true, .holder env, .holder env,
    .holder env, .holder env, .enterAck 0x10 1 true, .holder env, .holder env]

/-- The ledger of a run in which an event is queued and acknowledged. -/
theorem input_ledger_gamepadRun :
    ∃ s, run Gcm.identity (.start Globals.fresh) gamepadRun = some s ∧
      s.queued.length = 1 ∧ Ledger s := by
  have hlog : (run Gcm.identity (.start Globals.fresh) gamepadRun).map
      (fun s => s.queued.length) = some 1 := by decide
  obtain ⟨s, hrun, hlength⟩ := Option.map_eq_some_iff.mp hlog
  exact ⟨s, hrun, hlength, (input_ledger ⟨fun _ => rfl, rfl, rfl⟩ hrun).1⟩

end MoonlightPsp.Control
