import MoonlightPsp.PacketRing.Model

/-!
# Safety of the packet ring

The invariant ties the ring to the log of published packets: the slots from tail
to head are its window from position `tailMoved` on.  Every step of either
thread keeps it, except a flush under the drain loop, by the callback or by the
network thread, after which the loop still sets the tail from what it knew.
-/

namespace MoonlightPsp.PacketRing

open RingWindow

/-! ## The backlog check -/

/-- Trimming keeps no more packets than were queued. -/
theorem decoderTrimLiveQueue_to {env : DrainEnv} {slots : ℕ → Packet}
    {head queued trimThreshold tail : ℕ} {ret : Bool}
    (h : decoderTrimLiveQueue env slots head queued trimThreshold =
      (ret, some tail)) :
    ∃ keep ≤ queued, keep < ringBufferSlots ∧
      tail = (head + ringBufferSlots - keep) % ringBufferSlots := by
  unfold decoderTrimLiveQueue at h
  split_ifs at h
  · cases h
  · cases h
  · simp only at h
    split at h
    · cases h
    · rename_i scan hscan
      have hmem := List.mem_of_find?_eq_some hscan
      rw [List.mem_range'_1] at hmem
      have hslots : ringBufferSlots = 512 := rfl
      split_ifs at h
      · cases h
      · refine ⟨scan, by omega, by omega, ?_⟩
        simp only [Prod.mk.injEq, Option.some.injEq] at h
        exact h.2.symm

theorem trimOrFlush_to {env : DrainEnv} {slots : ℕ → Packet}
    {head queued trimThreshold tail : ℕ}
    (h : trimOrFlush env slots head queued trimThreshold = .to tail) :
    ∃ keep ≤ queued,
      tail = (head + ringBufferSlots - keep) % ringBufferSlots := by
  unfold trimOrFlush at h
  split at h
  · split at h
    · rename_i ret tail' heq
      obtain ⟨keep, hkeep, -, htail⟩ := decoderTrimLiveQueue_to heq
      obtain rfl : tail' = tail := by simpa using h
      exact ⟨keep, hkeep, htail⟩
    · cases h
    · split at h <;> cases h
  · cases h

/-- The check after a drain moves the tail back from the head by at most what
was queued. -/
theorem drainBacklog_to {env : DrainEnv} {slots : ℕ → Packet}
    {head queued tail : ℕ}
    (h : drainBacklog env slots head queued = .to tail) :
    ∃ keep ≤ queued,
      tail = (head + ringBufferSlots - keep) % ringBufferSlots := by
  unfold drainBacklog at h
  simp only at h
  split_ifs at h
  · exact trimOrFlush_to h
  · exact trimOrFlush_to h
  · simp only [TailMove.to.injEq] at h
    exact ⟨_, Nat.min_le_right _ _, h.symm⟩

/-! ## The invariant -/

/-- What holds at each point of the network thread. -/
def ProducerInv (s : RingState) : Producer → Prop
  | .ready => True
  | .received packet direct => direct = true → s.slots s.head = packet
  | .written packet => s.slots s.head = packet ∧
      s.published.length + 1 - s.tailMoved < ringBufferSlots
  | .dropped => True
  | .emptying => True

/-- What holds at each point of the decoder thread while no one flushes under
it. -/
def ConsumerInv (s : RingState) : Consumer → Prop
  | .idle => True
  | .pending => s.tailMoved < s.published.length
  | .processing number =>
      number = s.tailMoved ∧ s.tailMoved < s.published.length
  | .callbackFlush _ _ _ => False
  | .advancing number tail moved => number = moved ∧ moved = s.tailMoved ∧
      tail = s.tail ∧ s.tailMoved < s.published.length
  | .measuring head seen => s.tailMoved ≤ seen ∧ seen ≤ s.published.length ∧
      head = seen % ringBufferSlots
  | .drained queued => queued ≤ s.published.length - s.tailMoved
  | .moving tail head seen => ∃ pos, s.tailMoved ≤ pos ∧ pos ≤ seen ∧
      seen ≤ s.published.length ∧ head = seen % ringBufferSlots ∧
      tail = pos % ringBufferSlots
  | .flushing => True

/-- The decoder thread has a packet that the tail is not moved over yet. -/
def Consumer.Holds : Consumer → Prop
  | .processing _ => True
  | .advancing _ _ _ => True
  | _ => False

/-- The invariant of a calm run. -/
structure Inv (s : RingState) : Prop where
  window : Window ringBufferSlots s.slots s.head s.tail s.published s.tailMoved
  producer : ProducerInv s s.producer
  consumer : ConsumerInv s s.consumer
  gone : ∀ k, k < s.tailMoved ↔ k ∈ s.consumed ∨ k ∈ s.flushed
  ordered : (s.processed.map Prod.fst).Pairwise (· < ·)
  behind : ∀ kp ∈ s.processed, kp.1 < s.tailMoved ∨
    kp.1 = s.tailMoved ∧ s.consumer.Holds
  genuine : ∀ kp ∈ s.processed, s.published[kp.1]? = some kp.2

theorem inv_initial (dropCount : UInt32) : Inv (.initial dropCount) := by
  refine ⟨⟨rfl, rfl, le_rfl, Nat.zero_lt_succ _, ?_⟩, trivial, trivial, ?_,
    List.Pairwise.nil, ?_, ?_⟩
  · intro k _ x hx
    simp [RingState.initial] at hx
  all_goals simp [RingState.initial]

theorem Inv.behind_of_not_holds {s : RingState} (h : Inv s)
    (hphase : ¬ s.consumer.Holds) : ∀ kp ∈ s.processed, kp.1 < s.tailMoved := by
  intro kp hkp
  rcases h.behind kp hkp with hlt | ⟨-, hholds⟩
  · exact hlt
  · exact absurd hholds hphase

theorem getElem?_append_of_eq_some {α : Type*} {l : List α} {k : ℕ} {x : α}
    (h : l[k]? = some x) (y : α) : (l ++ [y])[k]? = some x := by
  rw [List.getElem?_append_left (List.getElem?_eq_some_iff.mp h).1, h]

/-! ## Moving the tail -/

/-- Moving the tail to a later position of the window flushes what is before
it. -/
theorem moveTail_spec {s : RingState} (h : Inv s) {pos seen : ℕ}
    (hpos : s.tailMoved ≤ pos) (hseen : pos ≤ seen)
    (hpub : seen ≤ s.published.length) :
    let s' := s.moveTail (pos % ringBufferSlots) (seen % ringBufferSlots) seen
    Window ringBufferSlots s'.slots s'.head s'.tail s'.published s'.tailMoved ∧
      s'.tailMoved = pos ∧
      ∀ k, k < s'.tailMoved ↔ k ∈ s'.consumed ∨ k ∈ s'.flushed := by
  have hlt := h.window.lt
  have hmoved : seen - queued ringBufferSlots (seen % ringBufferSlots)
      (pos % ringBufferSlots) = pos := by
    rw [queued_mod hseen (by omega)]
    omega
  simp only [RingState.moveTail, hmoved]
  refine ⟨h.window.advance hpos (by omega), trivial, fun k => ?_⟩
  have hgone := h.gone k
  rw [List.mem_append, List.mem_range'_1, ← or_assoc, ← hgone]
  omega

/-- The tail may move on under the network thread. -/
theorem ProducerInv.advance {s s' : RingState} (h : ProducerInv s s.producer)
    (hslots : s'.slots = s.slots) (hhead : s'.head = s.head)
    (hpublished : s'.published = s.published)
    (hmoved : s.tailMoved ≤ s'.tailMoved) : ProducerInv s' s.producer := by
  cases hp : s.producer with
  | ready => trivial
  | received packet direct =>
      rw [hp] at h
      intro hdirect
      rw [hslots, hhead]
      exact h hdirect
  | written packet =>
      rw [hp] at h
      obtain ⟨hslot, hroom⟩ := h
      refine ⟨?_, ?_⟩
      · rw [hslots, hhead]
        exact hslot
      · rw [hpublished]
        omega
  | dropped => trivial
  | emptying => trivial

/-- A thread sets the tail to a later position while the decoder thread holds no
packet. -/
theorem Inv.moveTail {s : RingState} (h : Inv s) (hphase : ¬ s.consumer.Holds)
    {pos seen : ℕ} (hpos : s.tailMoved ≤ pos) (hseen : pos ≤ seen)
    (hpub : seen ≤ s.published.length) {dropCount : UInt32} {p : Producer}
    (hp : ProducerInv (s.moveTail (pos % ringBufferSlots)
      (seen % ringBufferSlots) seen) p) :
    Inv { s.moveTail (pos % ringBufferSlots) (seen % ringBufferSlots) seen with
      dropCount
      producer := p
      consumer := .idle } := by
  obtain ⟨hwindow, hmoved, hgone⟩ := moveTail_spec h hpos hseen hpub
  refine ⟨hwindow, by cases p <;> exact hp, trivial, hgone, h.ordered, ?_, h.genuine⟩
  intro kp hkp
  have hbefore := h.behind_of_not_holds hphase kp hkp
  left
  simp only [hmoved]
  exact Nat.lt_of_lt_of_le hbefore hpos

/-! ## The network thread -/

/-- Packets may be published under the decoder thread. -/
theorem ConsumerInv.publish {s s' : RingState} {packet : Packet}
    (h : ConsumerInv s s.consumer)
    (hpublished : s'.published = s.published ++ [packet])
    (htail : s'.tail = s.tail) (hmoved : s'.tailMoved = s.tailMoved) :
    ConsumerInv s' s.consumer := by
  have hlen : s'.published.length = s.published.length + 1 := by
    rw [hpublished, List.length_append, List.length_singleton]
  cases hphase : s.consumer with
  | idle => trivial
  | pending =>
      rw [hphase] at h
      rw [ConsumerInv, hmoved, hlen]
      exact Nat.lt_succ_of_lt h
  | processing number =>
      rw [hphase] at h
      refine ⟨h.1.trans hmoved.symm, ?_⟩
      rw [hmoved, hlen]
      exact Nat.lt_succ_of_lt h.2
  | advancing number tail moved =>
      rw [hphase] at h
      obtain ⟨hnumber, hsame, htail', hlt⟩ := h
      refine ⟨hnumber, hsame.trans hmoved.symm, htail'.trans htail.symm, ?_⟩
      rw [hmoved, hlen]
      exact Nat.lt_succ_of_lt hlt
  | measuring head seen =>
      rw [hphase] at h
      obtain ⟨hpos, hle, hhead⟩ := h
      refine ⟨hmoved ▸ hpos, ?_, hhead⟩
      rw [hlen]
      exact hle.trans (Nat.le_succ _)
  | callbackFlush number head seen =>
      rw [hphase] at h
      exact h.elim
  | drained queued =>
      rw [hphase] at h
      simp only [ConsumerInv, hlen, hmoved] at h ⊢
      omega
  | moving tail head seen =>
      rw [hphase] at h
      obtain ⟨pos, hpos, hseen, hle, hrest⟩ := h
      refine ⟨pos, hmoved ▸ hpos, hseen, ?_, hrest⟩
      rw [hlen]
      exact hle.trans (Nat.le_succ _)
  | flushing => trivial

/-- The network thread empties the ring of a decoder thread that is between two
turns of its loop. -/
theorem inv_emergencyFlush {s : RingState} (h : Inv s)
    (hidle : s.consumer = .idle) :
    Inv { s.moveTail s.head s.head s.published.length with
      dropCount := 0
      producer := .ready } := by
  have hready : ProducerInv (s.moveTail (s.published.length % ringBufferSlots)
      (s.published.length % ringBufferSlots) s.published.length) .ready := trivial
  have hphase : ¬ s.consumer.Holds := by simp [hidle, Consumer.Holds]
  have hmoved := @Inv.moveTail s h hphase _ _ h.window.le le_rfl le_rfl 0 _ hready
  rwa [← h.window.head_eq, ← hidle] at hmoved

theorem inv_stepProducer {s s' : RingState} {a : Action} (h : Inv s)
    (ha : a = .emergencyFlush → s.consumer = .idle)
    (hs : stepProducer s a = some s') : Inv s' := by
  cases a with
  | receive packet =>
      simp only [stepProducer] at hs
      split at hs
      · obtain rfl := Option.some.inj hs
        refine ⟨?_, ?_, h.consumer, h.gone, h.ordered, h.behind, h.genuine⟩
        · by_cases hfree : (s.head + 1) % ringBufferSlots ≠ s.tail
          · simpa [hfree] using h.window.write_free packet
          · simpa [hfree] using h.window
        · intro hdirect
          simp only [hdirect, if_true, Function.update_self]
      · cases hs
  | discard =>
      simp only [stepProducer] at hs
      split at hs
      · obtain rfl := Option.some.inj hs
        exact ⟨h.window, trivial, h.consumer, h.gone, h.ordered, h.behind,
          h.genuine⟩
      · cases hs
  | checkRoom =>
      simp only [stepProducer] at hs
      split at hs
      · rename_i packet direct hproducer
        by_cases hfull : (s.head + 1) % ringBufferSlots = s.tail
        · rw [if_pos hfull] at hs
          obtain rfl := Option.some.inj hs
          exact ⟨h.window, trivial, h.consumer, h.gone, h.ordered, h.behind,
            h.genuine⟩
        · rw [if_neg hfull] at hs
          have hroom := h.window.room_of_ne hfull
          obtain rfl := Option.some.inj hs
          have hreceived := h.producer
          rw [hproducer] at hreceived
          cases direct with
          | true =>
              exact ⟨h.window, ⟨hreceived rfl, hroom⟩, h.consumer, h.gone,
                h.ordered, h.behind, h.genuine⟩
          | false =>
              exact ⟨h.window.write_free packet,
                ⟨Function.update_self _ _ _, hroom⟩, h.consumer, h.gone,
                h.ordered, h.behind, h.genuine⟩
      · cases hs
  | publish =>
      simp only [stepProducer] at hs
      split at hs
      · rename_i packet hproducer
        obtain rfl := Option.some.inj hs
        have hwritten := h.producer
        rw [hproducer] at hwritten
        exact ⟨h.window.push hwritten.2 hwritten.1, trivial,
          h.consumer.publish rfl rfl rfl, h.gone, h.ordered, h.behind,
          fun kp hkp => getElem?_append_of_eq_some (h.genuine kp hkp) packet⟩
      · cases hs
  | checkReady decoderReady =>
      simp only [stepProducer] at hs
      split at hs
      · obtain rfl := Option.some.inj hs
        refine ⟨h.window, ?_, h.consumer, h.gone, h.ordered, h.behind,
          h.genuine⟩
        dsimp only
        split
        · trivial
        · trivial
      · cases hs
  | emergencyFlush =>
      simp only [stepProducer] at hs
      split at hs
      · obtain rfl := Option.some.inj hs
        exact inv_emergencyFlush h (ha rfl)
      · cases hs
  | _ => cases hs

/-! ## The decoder thread -/

/-- The decoder thread goes on to another point of its loop and changes nothing
else. -/
theorem Inv.proceed {s : RingState} {c : Consumer} (h : Inv s)
    (hphase : ¬ s.consumer.Holds) (hc : ConsumerInv s c) :
    Inv { s with consumer := c } := by
  refine ⟨h.window, h.producer, ?_, h.gone, h.ordered,
    fun kp hkp => Or.inl (h.behind_of_not_holds hphase kp hkp), h.genuine⟩
  cases c <;> exact hc

/-- The packet at the tail is the next in order. -/
theorem inv_take {s : RingState} (h : Inv s)
    (hphase : s.consumer = .pending) :
    Inv { s with
      consumer := .processing s.tailMoved
      processed := if (s.slots s.tail).length > 0 then
          s.processed ++ [(s.tailMoved, s.slots s.tail)]
        else s.processed } := by
  have hlt := h.consumer
  rw [hphase] at hlt
  have hslot := h.window.slot_tail hlt
  have hbefore := h.behind_of_not_holds (by simp [hphase, Consumer.Holds])
  refine ⟨h.window, h.producer, ⟨rfl, hlt⟩, h.gone, ?_, ?_, ?_⟩
  · by_cases hpos : (s.slots s.tail).length > 0
    · simp only [if_pos hpos, List.map_append, List.map_cons, List.map_nil]
      refine List.pairwise_append.mpr ⟨h.ordered,
        List.pairwise_singleton _ _, fun k hk l hl => ?_⟩
      obtain ⟨kp, hkp, rfl⟩ := List.mem_map.mp hk
      rw [List.mem_singleton] at hl
      exact hl ▸ hbefore kp hkp
    · simp only [if_neg hpos]
      exact h.ordered
  · intro kp hkp
    by_cases hpos : (s.slots s.tail).length > 0
    · simp only [if_pos hpos, List.mem_append, List.mem_singleton] at hkp
      rcases hkp with hkp | rfl
      · exact Or.inl (hbefore kp hkp)
      · exact Or.inr ⟨rfl, trivial⟩
    · simp only [if_neg hpos] at hkp
      exact Or.inl (hbefore kp hkp)
  · intro kp hkp
    by_cases hpos : (s.slots s.tail).length > 0
    · simp only [if_pos hpos, List.mem_append, List.mem_singleton] at hkp
      rcases hkp with hkp | rfl
      · exact h.genuine kp hkp
      · exact hslot
    · simp only [if_neg hpos] at hkp
      exact h.genuine kp hkp

/-- The packet is processed, and the tail is still where it was taken from. -/
theorem inv_finish {s : RingState} {number : ℕ} (h : Inv s)
    (hphase : s.consumer = .processing number) :
    Inv { s with consumer := .advancing number s.tail s.tailMoved } := by
  have hconsumer := h.consumer
  rw [hphase] at hconsumer
  refine ⟨h.window, h.producer, ⟨hconsumer.1, rfl, rfl, hconsumer.2⟩, h.gone,
    h.ordered, fun kp hkp => ?_, h.genuine⟩
  rcases h.behind kp hkp with hlt | ⟨heq, -⟩
  · exact Or.inl hlt
  · exact Or.inr ⟨heq, trivial⟩

/-- The packet processed is the one the tail moves over. -/
theorem inv_advance {s : RingState} {number tail moved : ℕ} (h : Inv s)
    (hphase : s.consumer = .advancing number tail moved) :
    Inv { s with
      tail := (tail + 1) % ringBufferSlots
      tailMoved := moved + 1
      consumer := .idle
      consumed := s.consumed ++ [number] } := by
  have hconsumer := h.consumer
  rw [hphase] at hconsumer
  obtain ⟨rfl, rfl, rfl, hlt⟩ := hconsumer
  have hadvance := h.window.advance (Nat.le_succ s.tailMoved) hlt
  have htail : (s.tail + 1) % ringBufferSlots =
      (s.tailMoved + 1) % ringBufferSlots := by
    rw [h.window.tail_eq, Nat.mod_add_mod]
  refine ⟨?_, h.producer.advance rfl rfl rfl (Nat.le_succ _), trivial,
    fun k => ?_, h.ordered, fun kp hkp => ?_, h.genuine⟩
  · simp only [htail]
    exact hadvance
  · have hgone := h.gone k
    simp only [List.mem_append, List.mem_singleton]
    rw [or_right_comm, ← hgone]
    omega
  · rcases h.behind kp hkp with hlt | ⟨heq, -⟩
    · exact Or.inl (by simp only; omega)
    · exact Or.inl (by simp only; omega)

/-- The tail is set to an index that was computed from an older head. -/
theorem inv_moveTail {s : RingState} {tail head seen : ℕ} (h : Inv s)
    (hphase : s.consumer = .moving tail head seen) :
    Inv { s.moveTail tail head seen with consumer := .idle } := by
  have hconsumer := h.consumer
  rw [hphase] at hconsumer
  obtain ⟨pos, hpos, hseen, hpub, rfl, rfl⟩ := hconsumer
  obtain ⟨-, hmoved, -⟩ := moveTail_spec h hpos hseen hpub
  exact h.moveTail (by simp [hphase, Consumer.Holds]) hpos hseen hpub
    (h.producer.advance rfl rfl rfl (hpos.trans_eq hmoved.symm))

theorem inv_stepConsumer {hardwareAvc : Bool} {s s' : RingState} {a : Action}
    (h : Inv s) (ha : a ≠ .callbackRead)
    (hs : stepConsumer hardwareAvc s a = some s') : Inv s' := by
  have hconsumer := h.consumer
  cases a with
  | find =>
      simp only [stepConsumer] at hs
      split at hs
      · rename_i hidle
        by_cases hne : s.tail = s.head
        · rw [if_neg (not_not.mpr hne)] at hs
          cases hs
        · rw [if_pos hne] at hs
          obtain rfl := Option.some.inj hs
          exact h.proceed (by simp [hidle, Consumer.Holds])
            (h.window.head_ne_tail_iff.mp hne)
      · cases hs
  | take =>
      simp only [stepConsumer] at hs
      split at hs
      · rename_i hpending
        obtain rfl := Option.some.inj hs
        exact inv_take h hpending
      · cases hs
  | callbackRead => exact absurd rfl ha
  | callbackWrite =>
      simp only [stepConsumer] at hs
      split at hs
      · rename_i hphase
        rw [hphase] at hconsumer
        exact hconsumer.elim
      · cases hs
  | finish =>
      simp only [stepConsumer] at hs
      split at hs
      · rename_i number hphase
        obtain rfl := Option.some.inj hs
        exact inv_finish h hphase
      · cases hs
  | advance =>
      simp only [stepConsumer] at hs
      split at hs
      · rename_i number tail moved hphase
        obtain rfl := Option.some.inj hs
        exact inv_advance h hphase
      · cases hs
  | measure =>
      simp only [stepConsumer] at hs
      split at hs
      · rename_i hidle
        obtain rfl := Option.some.inj hs
        exact h.proceed (by simp [hidle, Consumer.Holds])
          ⟨h.window.le, le_rfl, h.window.head_eq⟩
      · cases hs
  | readTail =>
      simp only [stepConsumer] at hs
      split at hs
      · rename_i head seen hphase
        obtain rfl := Option.some.inj hs
        rw [hphase] at hconsumer
        obtain ⟨hle, hseen, hhead⟩ := hconsumer
        have hlt := h.window.lt
        refine h.proceed (by simp [hphase, Consumer.Holds]) ?_
        rw [ConsumerInv, hhead, h.window.tail_eq, queued_mod hle (by omega)]
        omega
      · cases hs
  | checkBacklog env =>
      simp only [stepConsumer] at hs
      split at hs
      · rename_i queued hphase
        rw [hphase] at hconsumer
        have hlt := h.window.lt
        have hle := h.window.le
        have hdrained : ¬ s.consumer.Holds := by simp [hphase, Consumer.Holds]
        simp only [ConsumerInv] at hconsumer
        split at hs
        · obtain rfl := Option.some.inj hs
          exact h.proceed hdrained trivial
        · rename_i tail hto
          obtain rfl := Option.some.inj hs
          obtain ⟨keep, hkeep, htail⟩ := drainBacklog_to hto
          refine h.proceed hdrained ⟨s.published.length - keep, by omega,
            Nat.sub_le _ _, le_rfl, h.window.head_eq, ?_⟩
          rw [htail, h.window.head_eq, back_mod (by omega) (by omega)]
        · obtain rfl := Option.some.inj hs
          exact h.proceed hdrained trivial
      · cases hs
  | readHead =>
      simp only [stepConsumer] at hs
      split at hs
      · rename_i hphase
        obtain rfl := Option.some.inj hs
        exact h.proceed (by simp [hphase, Consumer.Holds])
          ⟨s.published.length, h.window.le, le_rfl, le_rfl, h.window.head_eq,
            h.window.head_eq⟩
      · cases hs
  | moveTail =>
      simp only [stepConsumer] at hs
      split at hs
      · rename_i tail head seen hphase
        obtain rfl := Option.some.inj hs
        exact inv_moveTail h hphase
      · cases hs
  | _ => cases hs

/-! ## Runs -/

theorem inv_step {hardwareAvc : Bool} {s s' : RingState} {a : Action}
    (h : Inv s) (ha : Calm s a) (hs : step hardwareAvc s a = some s') :
    Inv s' := by
  unfold step at hs
  split at hs
  · rename_i s₁ hproducer
    obtain rfl := Option.some.inj hs
    exact inv_stepProducer h ha.2 hproducer
  · exact inv_stepConsumer h ha.1 hs

theorem inv_of_run {hardwareAvc : Bool} {as : List Action} {s s' : RingState}
    (h : Inv s) (hrun : run hardwareAvc s as = some s')
    (hcalm : CalmRun hardwareAvc s as) : Inv s' := by
  induction as generalizing s with
  | nil =>
      obtain rfl := Option.some.inj hrun
      exact h
  | cons a as ih =>
      obtain ⟨s₁, hs₁, hrest⟩ := Option.bind_eq_some_iff.mp hrun
      exact ih (inv_step h hcalm.1 hs₁) hrest (hcalm.2 s₁ hs₁)

/-- Positions before the tail are gone, the others are left. -/
theorem remaining_eq_drop {s : RingState} (h : Inv s) :
    s.remaining = s.published.drop s.tailMoved := by
  have hstep : ∀ n ≤ s.published.length,
      (List.range n).filterMap (fun k =>
        if k ∈ s.consumed ∨ k ∈ s.flushed then none else s.published[k]?) =
      (s.published.take n).drop s.tailMoved := by
    intro n
    induction n with
    | zero => simp
    | succ n ih =>
        intro hn
        have hget := List.getElem?_eq_getElem (Nat.lt_of_succ_le hn)
        rw [List.range_succ, List.filterMap_append, ih (by omega),
          List.take_add_one, hget]
        simp only [List.filterMap_cons, List.filterMap_nil, ← h.gone n]
        by_cases hgone : n < s.tailMoved
        · rw [if_pos hgone, List.append_nil,
            List.drop_eq_nil_of_le (by simp; omega),
            List.drop_eq_nil_of_le (by simp; omega)]
        · rw [if_neg hgone, hget, List.drop_append_of_le_length
            (by rw [List.length_take]; omega)]
          rfl
  have hall := hstep s.published.length le_rfl
  rwa [List.take_length] at hall

theorem Inv.sound {s : RingState} (h : Inv s) : Sound s :=
  ⟨h.window.le, h.window.contents_eq.trans (remaining_eq_drop h).symm,
    h.ordered, h.genuine⟩

/-- In every calm run the ring is sound in every state: no access-unit callback
flushes it while a packet is being processed, and the network thread flushes it
only while the decoder thread is between two turns of its loop. -/
theorem sound_of_calm_run {hardwareAvc : Bool} {dropCount : UInt32}
    {as : List Action} {s : RingState}
    (hrun : run hardwareAvc (.initial dropCount) as = some s)
    (hcalm : CalmRun hardwareAvc (.initial dropCount) as) : Sound s :=
  (inv_of_run (inv_initial dropCount) hrun hcalm).sound

/-- The hardware build has no flush within the callback. -/
theorem ne_callbackRead_of_hardware {s s' : RingState} {a : Action}
    (hs : stepConsumer true s a = some s') : a ≠ .callbackRead := by
  rintro rfl
  simp only [stepConsumer] at hs
  split at hs
  · cases hs
  · cases hs

/-- The shipped build, which decodes in hardware, keeps the ring sound until the
network thread takes the decoder for dead. -/
theorem sound_of_hardware_run {dropCount : UInt32} {as : List Action}
    {s : RingState} (hrun : run true (.initial dropCount) as = some s)
    (hno : .emergencyFlush ∉ as) : Sound s := by
  refine (inv_of_run (inv_initial dropCount) hrun ?_).sound
  generalize RingState.initial dropCount = s₀ at hrun
  induction as generalizing s₀ with
  | nil => trivial
  | cons a as ih =>
      rw [List.mem_cons, not_or] at hno
      obtain ⟨s₁, hs₁, hrest⟩ := Option.bind_eq_some_iff.mp hrun
      refine ⟨⟨?_, fun ha => absurd ha.symm hno.1⟩, fun s₂ hs₂ => ?_⟩
      · rintro rfl
        rw [step] at hs₁
        exact ne_callbackRead_of_hardware hs₁ rfl
      · obtain rfl := Option.some.inj (hs₁.symm.trans hs₂)
        exact ih hno.2 _ hrest

/-- A packet is published and processed, and the next is published meanwhile. -/
def calmActions : List Action :=
  [.receive [1], .checkRoom, .publish, .find, .take, .receive [2, 3], .finish,
    .checkRoom, .advance, .publish, .find, .take, .finish, .advance, .measure,
    .readTail]

theorem sound_of_run_two_packets :
    ∃ s, run false (.initial 7) calmActions = some s ∧ Sound s ∧
      s.processed = [(0, [1]), (1, [2, 3])] :=
  ⟨_, rfl, @sound_of_calm_run false 7 calmActions _ rfl (by
    simp [calmActions, CalmRun, Calm]), rfl⟩

/-- The callback flushes while the only packet is processed, and the loop then
moves the tail past the head. -/
theorem not_sound_of_callback_flush :
    ¬ ∀ hardwareAvc dropCount as s,
      run hardwareAvc (.initial dropCount) as = some s → Sound s := by
  intro h
  have hsound := h false 0 [.receive [1], .checkRoom, .publish, .find, .take,
    .callbackRead, .callbackWrite, .finish, .advance] _ rfl
  exact absurd hsound.tail_le (by decide)

/-- The ring is filled, and the network thread flushes it while the decoder
thread has the first packet. -/
def emergencyActions : List Action :=
  (List.replicate 511 [.receive [1], .checkRoom, .publish]).flatten ++
    [.find, .take, .receive [1], .checkRoom, .checkReady false, .emergencyFlush,
      .finish, .advance]

/-- The hardware build is no safer where the decoder is only taken for dead. -/
theorem not_sound_of_emergency_flush :
    ∃ s, run true (.initial 1999) emergencyActions = some s ∧ ¬ Sound s := by
  have hpassed : (run true (.initial 1999) emergencyActions).any
      (fun s => s.published.length < s.tailMoved) = true := by decide +kernel
  obtain ⟨s, hs, hlt⟩ := (Option.any_eq_true _ _).mp hpassed
  exact ⟨s, hs, fun h => absurd h.tail_le (by simpa using hlt)⟩

end MoonlightPsp.PacketRing
