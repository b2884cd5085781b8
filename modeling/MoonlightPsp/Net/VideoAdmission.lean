import MoonlightPsp.Net.VideoReceiveLaw

/-!
# What the receive thread drops

As long as it empties the ring only between two turns of the decoder thread, the ring stays
sound whatever the receive thread drops or writes directly, and nothing is dropped that there is
room for: parity not before 466 packets wait, what opens no frame not before 492, and what opens
one only where all 511 slots are taken.
-/

namespace MoonlightPsp.Net

open PacketRing RingWindow RecvEvent

variable {audioServerPort : UInt16} {s s' : RecvState} {e : RecvEvent} {t : Turn} {p : Packet}

/-- A drop has its reason in the packets that wait. -/
def Shed : RecvEvent → Prop
  | videoDrop p waiting full =>
      if full then waiting = 511
      else pktPriority p = 0 ∧ 466 ≤ waiting ∨ pktPriority p ≤ 1 ∧ 492 ≤ waiting
  | _ => True

/-- As long as no flush came under the decoder thread, the ring is as it should be, and so were the
drops. -/
structure Sheltered (s : RecvState) : Prop where
  inv : flush false ∉ s.log → Inv s.ring
  shed : flush false ∉ s.log → ∀ e ∈ s.log, Shed e

/-! ## Steps on the ring -/

theorem inv_foldlM {as : List Action} {r r' : RingState} (h : Inv r)
    (hs : as.foldlM (stepConsumer true) r = some r') : Inv r' := by
  induction as generalizing r with
  | nil => exact Option.some.inj hs ▸ h
  | cons a as ih =>
      obtain ⟨r₁, hfirst, hrest⟩ := Option.bind_eq_some_iff.mp hs
      exact ih (inv_stepConsumer h (ne_callbackRead_of_hardware hfirst) hfirst) hrest

theorem Sheltered.consume (h : Sheltered s) {as : List Action} (hs : s.consume as = some s') :
    Sheltered s' := by
  obtain ⟨ring, hring, rfl⟩ := Option.map_eq_some_iff.mp hs
  exact ⟨fun hrest => inv_foldlM (h.inv hrest) hring, h.shed⟩

theorem Sheltered.produce (h : Sheltered s) {a : Action} (ha : a ≠ .emergencyFlush)
    (hs : s.produce a = some s') : Sheltered s' := by
  obtain ⟨ring, hring, rfl⟩ := Option.map_eq_some_iff.mp hs
  refine ⟨fun hrest => inv_stepProducer (h.inv hrest) ?_ hring, h.shed⟩
  exact fun hflush => absurd hflush ha

/-- One event more, no drop without reason. -/
theorem Sheltered.record (h : Sheltered s) (he : flush false ∉ s.log → Shed e) :
    Sheltered (s.record e) where
  inv := fun hrest => h.inv fun hbefore => hrest (List.mem_append_left _ hbefore)
  shed := fun hrest d hd => by
    have hrest' : flush false ∉ s.log := fun hbefore => hrest (List.mem_append_left _ hbefore)
    obtain hd | hd := List.mem_append.mp hd
    · exact h.shed hrest' d hd
    · rw [List.mem_singleton.mp hd]
      exact he hrest'

theorem consumer_of_atRest (h : s.atRest = true) : s.ring.consumer = .idle := by
  cases hconsumer : s.ring.consumer with
  | idle => rfl
  | _ =>
      rw [RecvState.atRest, hconsumer] at h
      exact absurd h Bool.false_ne_true

/-- The receive thread empties the ring, which the log tells. -/
theorem Sheltered.flushRing (h : Sheltered s) (hs : flushRing t s = some s') : Sheltered s' := by
  obtain ⟨s₁, hconsume, hs⟩ := Option.bind_eq_some_iff.mp hs
  obtain ⟨s₂, hflush, hs⟩ := Option.bind_eq_some_iff.mp hs
  obtain rfl := Option.some.inj hs
  have hrecord := (h.consume hconsume).record (e := flush s₁.atRest) fun _ => trivial
  refine Sheltered.record ?_ fun _ => trivial
  obtain ⟨ring, hring, rfl⟩ := Option.map_eq_some_iff.mp hflush
  refine ⟨fun hrest => inv_stepProducer (hrecord.inv hrest) (fun _ => ?_) hring, hrecord.shed⟩
  refine consumer_of_atRest (Bool.eq_true_of_not_eq_false fun hmoving => hrest ?_)
  rw [← hmoving]
  exact List.mem_append_right _ (List.mem_singleton_self _)

/-! ## A turn -/

theorem Sheltered.poll (h : Sheltered s) : Sheltered (poll t s).2 := by
  have haddress : ∀ s, Sheltered s → Sheltered (pollAddress t s).2 := by
    intro s h
    rw [pollAddress]
    split
    · exact ⟨h.inv, h.shed⟩
    · exact ⟨h.inv, h.shed⟩
  rw [Net.poll]
  split
  · split
    · have hdisabled := h.record (e := hotPathDisabled) fun _ => trivial
      exact haddress _ ⟨hdisabled.inv, hdisabled.shed⟩
    · exact h
  · exact haddress s h

theorem Sheltered.recoverIdle (h : Sheltered s) : Sheltered (recoverIdle t s) := by
  rw [Net.recoverIdle]
  split
  · generalize hforced : (if s.idleIdrRequested then s
      else { s.record idrForce with idleIdrRequested := true }) = s₁
    have hs₁ : Sheltered s₁ := by
      subst hforced
      split
      · exact h
      · have hrecord := h.record (e := idrForce) fun _ => trivial
        exact ⟨hrecord.inv, hrecord.shed⟩
    dsimp only
    split
    · have hrecord := hs₁.record (e := pings t.pingsDoneUs) fun _ => trivial
      exact ⟨hrecord.inv, hrecord.shed⟩
    · exact hs₁
  · exact h

theorem Sheltered.pollEmpty (h : Sheltered s) : Sheltered (pollEmpty t s) := by
  rw [Net.pollEmpty]
  dsimp only
  have hrecord := h.record (e := empty t.nowUs) fun _ => trivial
  have hempty : Sheltered
      { s.record (empty t.nowUs) with consecutiveEmpty := s.consecutiveEmpty + 1 } :=
    ⟨hrecord.inv, hrecord.shed⟩
  refine Sheltered.record ?_ fun _ => trivial
  split
  · exact hempty.recoverIdle
  · exact hempty

theorem Sheltered.countVideo (h : Sheltered s) (p : Packet) :
    Sheltered (countVideo t p s) := by
  have hvideo := h.record (e := videoRx t.nowUs p) fun _ => trivial
  rw [Net.countVideo]
  split
  · have hjitter := hvideo.record (e := jitter (t.nowUs - s.lastRecvUs)) fun _ => trivial
    exact ⟨hjitter.inv, hjitter.shed⟩
  · exact ⟨hvideo.inv, hvideo.shed⟩

/-- A full ring has no free slot but the one that always stays free. -/
theorem waiting_of_full (h : Inv s.ring)
    (hfull : (s.ring.head + 1) % ringBufferSlots = s.ring.tail) : s.waiting = 511 := by
  have hlength := h.window.full_of_eq hfull
  have hslots : ringBufferSlots = 512 := rfl
  rw [RecvState.waiting]
  omega

theorem ringPct_eq (h : Inv s.ring) : ringPct s = s.waiting * 100 / 512 := by
  rw [ringPct, h.window.queued_eq]
  rfl

theorem Sheltered.recoverFull (h : Sheltered s) (hs : recoverFull t s = some s') :
    Sheltered s' := by
  rw [Net.recoverFull] at hs
  obtain ⟨s₁, hready, hs⟩ := Option.bind_eq_some_iff.mp hs
  have hrequested : Sheltered (if s.ring.dropCount = 256 then s.record idr else s) := by
    split
    · exact h.record fun _ => trivial
    · exact h
  generalize (if s.ring.dropCount = 256 then s.record idr else s) = s₀
    at hrequested hready hs
  have hchecked := hrequested.produce PacketRing.Action.noConfusion hready
  split at hs
  · exact hchecked.flushRing hs
  · exact Option.some.inj hs ▸ hchecked

theorem Sheltered.publishPacket (h : Sheltered s) (hs : publishPacket t p s = some s') :
    Sheltered s' := by
  rw [Net.publishPacket] at hs
  split at hs
  · rename_i hfull
    obtain ⟨s₁, hdrop, hs⟩ := Option.bind_eq_some_iff.mp hs
    have hrecord := h.record (e := videoDrop p s.waiting true)
      fun hrest => waiting_of_full (h.inv hrest) hfull
    exact (hrecord.produce PacketRing.Action.noConfusion hdrop).recoverFull hs
  · obtain ⟨s₁, hcheck, hs⟩ := Option.bind_eq_some_iff.mp hs
    obtain ⟨s₂, hconsume, hs⟩ := Option.bind_eq_some_iff.mp hs
    obtain ⟨s₃, hpublish, hs⟩ := Option.bind_eq_some_iff.mp hs
    obtain rfl := Option.some.inj hs
    have hwritten := (h.produce PacketRing.Action.noConfusion hcheck).consume hconsume
    exact (hwritten.produce PacketRing.Action.noConfusion hpublish).record fun _ => trivial

theorem Sheltered.admitPacket (h : Sheltered s) (hs : admitPacket t p s = some s') :
    Sheltered s' := by
  rw [Net.admitPacket] at hs
  split at hs
  · rename_i hcrowded
    refine (h.record (e := videoDrop p s.waiting false) fun hrest => ?_).produce
      PacketRing.Action.noConfusion hs
    rw [ringPct_eq (h.inv hrest)] at hcrowded
    rw [Shed, if_neg Bool.false_ne_true]
    obtain ⟨hpct, hpriority⟩ | ⟨hpct, hpriority⟩ := hcrowded
    · exact Or.inl ⟨hpriority, by omega⟩
    · exact Or.inr ⟨hpriority, by omega⟩
  · obtain ⟨s₁, hconsume, hs⟩ := Option.bind_eq_some_iff.mp hs
    exact (h.consume hconsume).publishPacket hs

theorem Sheltered.receivePacket (h : Sheltered s) {d : Datagram}
    (hs : receivePacket audioServerPort t d s = some s') : Sheltered s' := by
  rw [Net.receivePacket] at hs
  obtain ⟨s₁, hreceive, hs⟩ := Option.bind_eq_some_iff.mp hs
  have hrecord := h.record (e := .packet t.nowUs d.bytes s.fromPort) fun _ => trivial
  have hcame : Sheltered { s.record (.packet t.nowUs d.bytes s.fromPort) with
      pktCount := s.pktCount + 1
      consecutiveEmpty := 0
      lastDataUs := t.nowUs
      idleIdrRequested := false } := ⟨hrecord.inv, hrecord.shed⟩
  have hreceived := hcame.produce PacketRing.Action.noConfusion hreceive
  split at hs
  · refine Sheltered.produce ?_ PacketRing.Action.noConfusion hs
    rw [routeAudio]
    split
    · exact hreceived.record fun _ => trivial
    · exact hreceived.record fun _ => trivial
  · obtain ⟨s₂, hconsume, hs⟩ := Option.bind_eq_some_iff.mp hs
    exact ((hreceived.countVideo d.bytes).consume hconsume).admitPacket hs

theorem Sheltered.recvTurn (h : Sheltered s) (hs : recvTurn audioServerPort s t = some s') :
    Sheltered s' := by
  rw [Net.recvTurn] at hs
  obtain ⟨s₁, hconsume, hs⟩ := Option.bind_eq_some_iff.mp hs
  have hpolled := (h.consume hconsume).poll (t := t)
  generalize Net.poll t s₁ = result at hpolled hs
  obtain ⟨read, s₂⟩ := result
  cases read with
  | data d => exact hpolled.receivePacket hs
  | empty =>
      obtain rfl := Option.some.inj hs
      exact hpolled.pollEmpty
  | failed =>
      obtain rfl := Option.some.inj hs
      exact hpolled.record fun _ => trivial

/-! ## The law -/

theorem Sheltered.networkRecvThread (h : Sheltered s) {ts : List Turn}
    (hs : networkRecvThread audioServerPort s ts = some s') : Sheltered s' := by
  induction ts generalizing s with
  | nil => exact Option.some.inj hs ▸ h
  | cons t ts ih =>
      obtain ⟨s₁, hturn, hrest⟩ := Option.bind_eq_some_iff.mp hs
      exact ih (h.recvTurn hturn) hrest

/-- What was dropped, and what is in the ring. -/
structure AdmissionLaw (s : RecvState) : Prop where
  sound : Sound s.ring
  shed : ∀ e ∈ s.log, Shed e

/-- In every run the ring stays sound and the drops have their reason, if the decoder thread was
between two turns of its loop whenever its ring was emptied. -/
theorem admission_law {ring : RingState} {lastRecvUs nowUs : UInt32} {ts : List Turn}
    (hinv : Inv ring)
    (hs : networkRecvThread audioServerPort (.start ring lastRecvUs nowUs) ts = some s)
    (hrest : flush false ∉ s.log) : AdmissionLaw s := by
  have hstart : Sheltered (.start ring lastRecvUs nowUs) :=
    ⟨fun _ => hinv, fun _ e he => absurd he List.not_mem_nil⟩
  have h := hstart.networkRecvThread hs
  exact ⟨(h.inv hrest).sound, h.shed hrest⟩

theorem admission_law_video :
    ∃ s, networkRecvThread 48000 (.start (.initial 3) 500 900) videoTurns = some s ∧
      AdmissionLaw s :=
  ⟨_, rfl, @admission_law 48000 _ (.initial 3) 500 900 videoTurns (inv_initial 3) rfl
    (by decide)⟩

end MoonlightPsp.Net
