import MoonlightPsp.Net.VideoReceive

/-!
# What the receive thread does

Every packet has exactly one fate, and the ring holds what was accepted, in order.  Each request to
the host has its reason in what came before.  While the decoder thread lives, only parity is dropped
before 492 packets wait, and what opens a frame is dropped only where all slots are taken.
-/

namespace MoonlightPsp.Net

open PacketRing RingWindow EventLog PastTime

/-! ## What the log tells -/

namespace RecvEvent

/-- The packets as they come. -/
def packet? : RecvEvent → Option Packet
  | packet _ p _ => some p
  | _ => none

/-- The packets as they are done with. -/
def fate? : RecvEvent → Option Packet
  | audioCounted p _ _ => some p
  | queueAudio p _ => some p
  | videoDrop p _ _ => some p
  | videoAccept p => some p
  | _ => none

/-- The packets that count as received video. -/
def video? : RecvEvent → Option Arrival
  | videoRx nowUs p => some ⟨nowUs, p⟩
  | _ => none

/-- The packets that count as accepted or dropped video. -/
def videoFate? : RecvEvent → Option Packet
  | videoDrop p _ _ => some p
  | videoAccept p => some p
  | _ => none

def accepted? : RecvEvent → Option Packet
  | videoAccept p => some p
  | _ => none

/-- The time of a packet. -/
def arrived? : RecvEvent → Option UInt32
  | packet nowUs _ _ => some nowUs
  | _ => none

def port? : RecvEvent → Option UInt16
  | packet _ _ port => some port
  | _ => none

/-- The time of a poll that got nothing. -/
def polled? : RecvEvent → Option UInt32
  | empty nowUs => some nowUs
  | _ => none

def pinged? : RecvEvent → Option UInt32
  | pings doneUs => some doneUs
  | _ => none

/-- The time of a video packet. -/
def videoTime? : RecvEvent → Option UInt32
  | videoRx nowUs _ => some nowUs
  | _ => none

def isPacket : RecvEvent → Bool
  | packet _ _ _ => true
  | _ => false

def isIdrForce : RecvEvent → Bool
  | idrForce => true
  | _ => false

def isFull : RecvEvent → Bool
  | videoDrop _ _ full => full
  | _ => false

def isFlush : RecvEvent → Bool
  | flush _ => true
  | _ => false

end RecvEvent

open RecvEvent

/-- What the thread finds at its start. -/
structure Found where
  audioServerPort : UInt16
  ring : RingState
  lastRecvUs : UInt32

variable {found : Found} {s s' : RecvState} {e : RecvEvent} {l : List RecvEvent}

/-- How many packets have come. -/
def packetCount (l : List RecvEvent) : ℕ := l.countP RecvEvent.isPacket

/-- How often the ring was full since it was emptied, by this thread or one before it. -/
def fullDrops (found : Found) (l : List RecvEvent) : ℕ :=
  (if l.any isFlush then 0 else found.ring.dropCount.toNat) + countSince isFlush isFull l

/-- The time of the latest video packet, or that of the threads before. -/
def lastVideo (found : Found) (l : List RecvEvent) : UInt32 :=
  (latest videoTime? l).getD found.lastRecvUs

/-- The socket has been silent for this time, by its clock. -/
def SilentFor (us : UInt32) (l : List RecvEvent) : Prop :=
  ∃ now last, latest polled? l = some now ∧ latest arrived? l = some last ∧ us ≤ now - last

/-- The pings are five seconds back, or there were none, or the clock was at zero. -/
def PingsRest (l : List RecvEvent) : Prop :=
  ∀ done ∈ latest pinged? l, done = 0 ∨
    ∃ now, latest polled? l = some now ∧ 5000000 ≤ now - done

/-- Why something is done, from the events before it. -/
def Grounded (found : Found) (before : List RecvEvent) : RecvEvent → Prop
  -- The address is that of the first packet, as long as the plain poll works.
  | packet _ _ port =>
      hotPathDisabled ∈ before ∨ UInt32.ofNat (packetCount before) = 0 ∨
        latest port? before = some port
  | queueAudio p _ => latest port? before = some found.audioServerPort ∧ isAudioRtp p = true
  | audioCounted p _ _ => latest port? before = some found.audioServerPort ∧ isAudioRtp p = true
  | jitter delta =>
      ∃ earlier now p, before = earlier ++ [videoRx now p] ∧
        lastVideo found earlier ≠ 0 ∧ delta = now - lastVideo found earlier
  | idrForce => SilentFor 2500000 before ∧ countSince isPacket isIdrForce before = 0
  | pings _ => SilentFor 2500000 before ∧ PingsRest before
  | idr =>
      ∃ earlier last, before = earlier ++ [last] ∧
        (last.isFlush = true ∨
          last.isFull = true ∧ UInt32.ofNat (fullDrops found before) = 256)
  | flush _ =>
      (∃ earlier last, before = earlier ++ [last] ∧ last.isFull = true) ∧
        2000 ≤ fullDrops found before
  | _ => True

/-! ## The clocks -/

/-- What the variables remember of the log. -/
structure Remembers (found : Found) (s : RecvState) : Prop where
  grounded : Always (Grounded found) s.log
  pktCount : s.pktCount = UInt32.ofNat (packetCount s.log)
  lastDataUs : ∀ last ∈ latest arrived? s.log, s.lastDataUs = last
  arrived : packetCount s.log ≠ 0 → latest arrived? s.log ≠ none
  idle : s.idleIdrRequested = false → countSince isPacket isIdrForce s.log = 0
  pinged : s.lastIdlePingUs = (latest pinged? s.log).getD 0
  recvUs : s.lastRecvUs = lastVideo found s.log
  hot : s.recvHotPathDisabled = true → hotPathDisabled ∈ s.log
  port : s.pktCount ≠ 0 → s.recvHotPathDisabled = false → latest port? s.log = some s.fromPort
  dropCount : s.ring.dropCount = UInt32.ofNat (fullDrops found s.log)

theorem packetCount_snoc : packetCount (l ++ [e]) = packetCount l + e.isPacket.toNat :=
  countP_snoc

theorem fullDrops_snoc :
    fullDrops found (l ++ [e]) =
      if e.isFlush then 0 else fullDrops found l + e.isFull.toNat := by
  rw [fullDrops, fullDrops, countSince_snoc, List.any_append, List.any_cons, List.any_nil,
    Bool.or_false]
  cases he : e.isFlush with
  | true =>
      rw [Bool.or_true, if_pos rfl, if_pos rfl]
      rfl
  | false => rw [Bool.or_false, if_neg Bool.false_ne_true, if_neg Bool.false_ne_true, add_assoc]

theorem ofNat_toNat_add (n : ℕ) (b : Bool) :
    UInt32.ofNat (n + b.toNat) = UInt32.ofNat n + UInt32.ofNat b.toNat :=
  UInt32.ofNat_add n b.toNat

theorem Remembers.start (found : Found) (nowUs : UInt32) :
    Remembers found (.start found.ring found.lastRecvUs nowUs) where
  grounded := always_nil
  pktCount := rfl
  lastDataUs := fun last hlast => absurd hlast.symm (Option.some_ne_none last)
  arrived := fun hcount => absurd rfl hcount
  idle := fun _ => rfl
  pinged := rfl
  recvUs := rfl
  hot := fun hdisabled => absurd hdisabled Bool.false_ne_true
  port := fun hcount => absurd rfl hcount
  dropCount := UInt32.ofNat_toNat.symm

/-- One event more, where every variable takes from it what is for it. -/
theorem Remembers.step (h : Remembers found s) (e : RecvEvent)
    (hlog : s'.log = s.log ++ [e]) (hgrounded : Grounded found s.log e)
    (hcount : s'.pktCount = s.pktCount + UInt32.ofNat e.isPacket.toNat)
    (hdata : s'.lastDataUs = e.arrived?.getD s.lastDataUs)
    (hidle : s'.idleIdrRequested =
      if e.isPacket then false else s.idleIdrRequested || e.isIdrForce)
    (hpings : s'.lastIdlePingUs = e.pinged?.getD s.lastIdlePingUs)
    (hrecv : s'.lastRecvUs = e.videoTime?.getD s.lastRecvUs)
    (hhot : s'.recvHotPathDisabled = (s.recvHotPathDisabled || e = hotPathDisabled))
    (hport : s'.fromPort = s.fromPort ∧ ∀ port ∈ e.port?, port = s.fromPort)
    (hdrop : s'.ring.dropCount =
      if e.isFlush then 0 else s.ring.dropCount + UInt32.ofNat e.isFull.toNat) :
    Remembers found s' where
  grounded := by
    rw [hlog]
    exact h.grounded.snoc hgrounded
  pktCount := by
    rw [hcount, hlog, packetCount_snoc, ofNat_toNat_add, h.pktCount]
  lastDataUs := by
    intro last hlast
    rw [hlog, latest_snoc] at hlast
    cases harrived : e.arrived? with
    | none =>
        rw [harrived, Option.none_or] at hlast
        rw [hdata, harrived]
        exact h.lastDataUs last hlast
    | some now =>
        rw [harrived, Option.some_or] at hlast
        rw [hdata, harrived]
        exact Option.some.inj hlast
  arrived := by
    intro hcame
    rw [hlog, packetCount_snoc] at hcame
    rw [hlog, latest_snoc]
    cases e with
    | packet nowUs p port => exact Option.some_ne_none nowUs
    | _ => exact h.arrived hcame
  idle := by
    intro hnot
    rw [hidle] at hnot
    rw [hlog, countSince_snoc]
    split at hnot
    · rename_i hpacket
      rw [if_pos hpacket]
    · rename_i hpacket
      rw [Bool.or_eq_false_iff] at hnot
      rw [if_neg hpacket, h.idle hnot.1, hnot.2]
      rfl
  pinged := by rw [hpings, hlog, getD_latest_snoc, h.pinged]
  recvUs := by rw [hrecv, hlog, lastVideo, getD_latest_snoc, h.recvUs, lastVideo]
  hot := by
    intro hdisabled
    rw [hhot, Bool.or_eq_true, decide_eq_true_eq] at hdisabled
    rw [hlog]
    obtain hbefore | rfl := hdisabled
    · exact List.mem_append_left _ (h.hot hbefore)
    · exact List.mem_append_right _ (List.mem_singleton_self _)
  port := by
    intro hcame hplain
    rw [hhot, Bool.or_eq_false_iff] at hplain
    rw [hlog, latest_snoc, hport.1]
    cases hnew : e.port? with
    | some port => rw [Option.some_or, hport.2 port hnew]
    | none =>
        rw [Option.none_or]
        refine h.port (fun hzero => hcame ?_) hplain.1
        have hnone : e.isPacket = false := by
          cases e with
          | packet nowUs p port => exact absurd hnew (Option.some_ne_none port)
          | _ => rfl
        rw [hcount, hzero, hnone]
        rfl
  dropCount := by
    rw [hdrop, hlog, fullDrops_snoc, h.dropCount]
    split
    · rfl
    · rw [ofNat_toNat_add]

/-- Events that no variable remembers. -/
def RecvEvent.passing : RecvEvent → Bool
  | hotPathDisabled => false
  | packet _ _ _ => false
  | videoRx _ _ => false
  | videoDrop _ _ full => !full
  | idrForce => false
  | pings _ => false
  | flush _ => false
  | _ => true

theorem Remembers.passing (h : Remembers found s) (he : e.passing = true)
    (hgrounded : Grounded found s.log e) :
    Remembers found (s.record e) := by
  have hfalse : ∀ b : Bool, b = (b || false) := fun b => (Bool.or_false b).symm
  have hzero : ∀ n : UInt32, n = n + UInt32.ofNat 0 := fun n => (UInt32.add_zero n).symm
  have hquiet : s.fromPort = s.fromPort ∧ ∀ port ∈ none, port = s.fromPort :=
    ⟨rfl, fun port hport => absurd hport (Option.not_mem_none port)⟩
  cases e with
  | hotPathDisabled => exact absurd he Bool.false_ne_true
  | packet nowUs p port => exact absurd he Bool.false_ne_true
  | videoRx nowUs p => exact absurd he Bool.false_ne_true
  | videoDrop p waiting full =>
      cases full with
      | true => exact absurd he Bool.false_ne_true
      | false =>
          exact h.step _ rfl hgrounded (hzero _) rfl (hfalse _) rfl rfl (hfalse _) hquiet (hzero _)
  | idrForce => exact absurd he Bool.false_ne_true
  | pings doneUs => exact absurd he Bool.false_ne_true
  | flush atRest => exact absurd he Bool.false_ne_true
  | _ => exact h.step _ rfl hgrounded (hzero _) rfl (hfalse _) rfl rfl (hfalse _) hquiet (hzero _)

/-! ## The fates of the packets -/

/-- Every packet that came has its fate, up to these; the ring and the statistics have what is
theirs. -/
structure Accounted (found : Found) (s : RecvState) (packets videos : List Packet) : Prop where
  packets : s.log.filterMap packet? = s.log.filterMap fate? ++ packets
  videos : (s.log.filterMap video?).map Arrival.packet = s.log.filterMap videoFate? ++ videos
  rtcp : s.rtcp = RtcpStats.initial.run (s.log.filterMap video?)
  published : s.ring.published = found.ring.published ++ s.log.filterMap accepted?

variable {packets videos packets' videos' : List Packet}

theorem Accounted.step (h : Accounted found s packets videos) (e : RecvEvent)
    (hlog : s'.log = s.log ++ [e])
    (hpackets : packets ++ e.packet?.toList = e.fate?.toList ++ packets')
    (hvideos : videos ++ (e.video?.toList.map Arrival.packet) = e.videoFate?.toList ++ videos')
    (hrtcp : s'.rtcp = s.rtcp.run e.video?.toList)
    (hpublished : s'.ring.published = s.ring.published ++ e.accepted?.toList) :
    Accounted found s' packets' videos' where
  packets := by
    rw [hlog, filterMap_snoc, filterMap_snoc, h.packets, List.append_assoc, hpackets,
      List.append_assoc]
  videos := by
    rw [hlog, filterMap_snoc, filterMap_snoc, List.map_append, h.videos, List.append_assoc,
      hvideos, List.append_assoc]
  rtcp := by
    rw [hrtcp, hlog, filterMap_snoc, h.rtcp]
    exact List.foldl_append.symm
  published := by rw [hpublished, hlog, filterMap_snoc, h.published, List.append_assoc]

/-! ## Steps on the ring -/

/-- The decoder thread leaves the other one alone. -/
theorem stepConsumer_keeps {hardwareAvc : Bool} {r r' : RingState} {a : Action}
    (h : stepConsumer hardwareAvc r a = some r') :
    r'.published = r.published ∧ r'.producer = r.producer ∧ r'.dropCount = r.dropCount := by
  cases a with
  | checkBacklog env =>
      simp only [stepConsumer] at h
      split at h
      · split at h
        · exact (Option.some.inj h) ▸ ⟨rfl, rfl, rfl⟩
        · exact (Option.some.inj h) ▸ ⟨rfl, rfl, rfl⟩
        · exact (Option.some.inj h) ▸ ⟨rfl, rfl, rfl⟩
      · exact absurd h.symm (Option.some_ne_none r')
  | _ =>
      simp only [stepConsumer] at h
      try split at h
      all_goals try split at h
      all_goals first
        | exact absurd h.symm (Option.some_ne_none r')
        | exact (Option.some.inj h) ▸ ⟨rfl, rfl, rfl⟩

theorem foldlM_stepConsumer_keeps {as : List Action} {r r' : RingState}
    (h : as.foldlM (stepConsumer true) r = some r') :
    r'.published = r.published ∧ r'.producer = r.producer ∧ r'.dropCount = r.dropCount := by
  induction as generalizing r with
  | nil => exact (Option.some.inj h) ▸ ⟨rfl, rfl, rfl⟩
  | cons a as ih =>
      obtain ⟨r₁, hfirst, hrest⟩ := Option.bind_eq_some_iff.mp h
      obtain ⟨hpublished, hproducer, hdropped⟩ := stepConsumer_keeps hfirst
      obtain ⟨hpublished', hproducer', hdropped'⟩ := ih hrest
      exact ⟨hpublished'.trans hpublished, hproducer'.trans hproducer, hdropped'.trans hdropped⟩

/-- What holds between two steps, with the point of the thread on the ring. -/
structure Going (found : Found) (s : RecvState) (packets videos : List Packet)
    (phase : Producer) : Prop where
  remembers : Remembers found s
  accounted : Accounted found s packets videos
  phase : s.ring.producer = phase

variable {phase : Producer} {p : Packet} {direct : Bool}

/-- Another ring with the same history. -/
theorem Going.ring (h : Going found s packets videos phase) {ring : RingState}
    (hpublished : ring.published = s.ring.published)
    (hdropped : ring.dropCount = s.ring.dropCount) :
    Going found { s with ring } packets videos ring.producer where
  remembers :=
    have hr := h.remembers
    ⟨hr.grounded, hr.pktCount, hr.lastDataUs, hr.arrived, hr.idle, hr.pinged, hr.recvUs, hr.hot,
      hr.port, hdropped.trans hr.dropCount⟩
  accounted :=
    have ha := h.accounted
    ⟨ha.packets, ha.videos, ha.rtcp, hpublished.trans ha.published⟩
  phase := rfl

theorem Going.consume (h : Going found s packets videos phase) {as : List Action}
    (hs : s.consume as = some s') : Going found s' packets videos phase := by
  obtain ⟨ring, hring, rfl⟩ := Option.map_eq_some_iff.mp hs
  obtain ⟨hpublished, hproducer, hdropped⟩ := foldlM_stepConsumer_keeps hring
  have hgoing := h.ring hpublished hdropped
  rw [hproducer, h.phase] at hgoing
  exact hgoing

theorem Going.receive (h : Going found s packets videos .ready)
    (hs : s.produce (.receive p) = some s') :
    ∃ direct, Going found s' packets videos (.received p direct) := by
  obtain ⟨ring, hring, rfl⟩ := Option.map_eq_some_iff.mp hs
  rw [stepProducer, h.phase] at hring
  obtain rfl := Option.some.inj hring
  exact ⟨_, h.ring rfl rfl⟩

theorem Going.discard (h : Going found s packets videos (.received p direct))
    (hs : s.produce .discard = some s') : Going found s' packets videos .ready := by
  obtain ⟨ring, hring, rfl⟩ := Option.map_eq_some_iff.mp hs
  rw [stepProducer, h.phase] at hring
  obtain rfl := Option.some.inj hring
  exact h.ring rfl rfl

theorem Going.checkRoom (h : Going found s packets videos (.received p direct))
    (hroom : (s.ring.head + 1) % ringBufferSlots ≠ s.ring.tail)
    (hs : s.produce .checkRoom = some s') : Going found s' packets videos (.written p) := by
  obtain ⟨ring, hring, rfl⟩ := Option.map_eq_some_iff.mp hs
  simp only [stepProducer, h.phase, if_neg hroom] at hring
  obtain rfl := Option.some.inj hring
  exact h.ring rfl rfl

/-- One event more. -/
theorem Going.passing (h : Going found s packets videos phase) (he : e.passing = true)
    (hgrounded : Grounded found s.log e)
    (hpackets : packets ++ e.packet?.toList = e.fate?.toList ++ packets')
    (hvideos : videos ++ (e.video?.toList.map Arrival.packet) = e.videoFate?.toList ++ videos')
    (hvideo : e.video? = none) (haccepted : e.accepted? = none) :
    Going found (s.record e) packets' videos' phase where
  remembers := h.remembers.passing he hgrounded
  accounted := by
    refine h.accounted.step e rfl hpackets hvideos ?_ ?_
    · rw [hvideo]
      rfl
    · rw [haccepted]
      exact (List.append_nil _).symm
  phase := h.phase

/-- The packet is published. -/
theorem Going.publish (h : Going found s [p] [p] (.written p))
    (hs : s.produce .publish = some s') :
    Going found (s'.record (.videoAccept p)) [] [] .ready := by
  obtain ⟨ring, hring, rfl⟩ := Option.map_eq_some_iff.mp hs
  rw [stepProducer, h.phase] at hring
  obtain rfl := Option.some.inj hring
  have hr := h.remembers
  refine ⟨?_, ?_, rfl⟩
  · refine Remembers.passing ?_ rfl trivial
    exact ⟨hr.grounded, hr.pktCount, hr.lastDataUs, hr.arrived, hr.idle, hr.pinged, hr.recvUs,
      hr.hot, hr.port, hr.dropCount⟩
  · exact h.accounted.step (.videoAccept p) rfl rfl rfl rfl rfl

/-! ## An empty poll -/

variable {t : Turn}

/-- Where the address is looked at, it is that of the packet. -/
theorem Going.address (h : Going found s packets videos phase) (t : Turn)
    (hasked : s.pktCount ≠ 0 → s.recvHotPathDisabled = true) :
    Going found (pollAddress t s).2 packets videos phase := by
  have hset : ∀ fromPort, Going found { s with fromPort } packets videos phase := by
    intro fromPort
    have hr := h.remembers
    refine ⟨⟨hr.grounded, hr.pktCount, hr.lastDataUs, hr.arrived, hr.idle, hr.pinged, hr.recvUs,
      hr.hot, ?_, hr.dropCount⟩, ?_, h.phase⟩
    · intro hcame hplain
      exact absurd ((hasked hcame).symm.trans hplain) Bool.noConfusion
    · exact ⟨h.accounted.packets, h.accounted.videos, h.accounted.rtcp, h.accounted.published⟩
  rw [pollAddress]
  split
  · exact hset t.port
  · exact hset 0

theorem Going.poll (h : Going found s packets videos phase) (t : Turn) :
    Going found (poll t s).2 packets videos phase := by
  rw [Net.poll]
  split
  · split
    · refine Going.address (s := { s.record hotPathDisabled with recvHotPathDisabled := true })
        ⟨?_, ?_, h.phase⟩ t fun _ => rfl
      · refine h.remembers.step hotPathDisabled rfl trivial (UInt32.add_zero _).symm rfl
          (Bool.or_false _).symm rfl rfl (Bool.or_true _).symm ⟨rfl, ?_⟩ (UInt32.add_zero _).symm
        exact fun port hport => absurd hport.symm (Option.some_ne_none port)
      · exact h.accounted.step hotPathDisabled rfl (List.append_nil _) (List.append_nil _) rfl
          (List.append_nil _).symm
    · exact h
  · rename_i hasked
    refine h.address t fun hcame => ?_
    by_contra hplain
    exact hasked ⟨hcame, Bool.not_eq_true _ ▸ hplain⟩

theorem Remembers.silent (h : Remembers found s) {now us : UInt32}
    (hcame : s.pktCount ≠ 0) (hpolled : latest polled? s.log = some now)
    (hlong : us ≤ now - s.lastDataUs) : SilentFor us s.log := by
  have hcount : packetCount s.log ≠ 0 := by
    intro hzero
    rw [h.pktCount, hzero] at hcame
    exact hcame rfl
  obtain ⟨last, hlast⟩ := Option.ne_none_iff_exists'.mp (h.arrived hcount)
  rw [h.lastDataUs last hlast] at hlong
  exact ⟨now, last, hpolled, hlast, hlong⟩

theorem Remembers.pings_rest (h : Remembers found s) {now : UInt32}
    (hpolled : latest polled? s.log = some now)
    (hrest : s.lastIdlePingUs = 0 ∨ 5000000 ≤ now - s.lastIdlePingUs) : PingsRest s.log := by
  intro done hdone
  have hlast : s.lastIdlePingUs = done := by
    rw [h.pinged, Option.mem_def.mp hdone, Option.getD_some]
  rw [hlast] at hrest
  exact hrest.imp id fun hlong => ⟨now, hpolled, hlong⟩

theorem Going.recoverIdle (h : Going found s packets videos phase)
    (hcame : s.pktCount ≠ 0) (hpolled : latest polled? s.log = some t.nowUs) :
    Going found (recoverIdle t s) packets videos phase := by
  rw [Net.recoverIdle]
  split
  · rename_i hlong
    generalize hforced : (if s.idleIdrRequested then s
      else { s.record idrForce with idleIdrRequested := true }) = s₁
    have hs₁ : Going found s₁ packets videos phase ∧ s₁.pktCount = s.pktCount ∧
        latest polled? s₁.log = some t.nowUs ∧ s₁.lastDataUs = s.lastDataUs := by
      subst hforced
      split
      · exact ⟨h, rfl, hpolled, rfl⟩
      · rename_i hfirst
        have hgrounded : Grounded found s.log idrForce :=
          ⟨h.remembers.silent hcame hpolled hlong,
            h.remembers.idle (Bool.not_eq_true _ ▸ hfirst)⟩
        refine ⟨⟨?_, ?_, h.phase⟩, rfl, ?_, rfl⟩
        · refine h.remembers.step idrForce rfl hgrounded (UInt32.add_zero _).symm rfl
            (Bool.or_true _).symm rfl rfl (Bool.or_false _).symm ⟨rfl, ?_⟩
            (UInt32.add_zero _).symm
          exact fun port hport => absurd hport.symm (Option.some_ne_none port)
        · exact h.accounted.step idrForce rfl (List.append_nil _) (List.append_nil _) rfl
            (List.append_nil _).symm
        · exact latest_snoc.trans hpolled
    obtain ⟨hgoing, hcame₁, hpolled₁, hdata₁⟩ := hs₁
    dsimp only
    split
    · rename_i hrest
      have hgrounded : Grounded found s₁.log (pings t.pingsDoneUs) :=
        ⟨hgoing.remembers.silent (hcame₁ ▸ hcame) hpolled₁ (hdata₁ ▸ hlong),
          hgoing.remembers.pings_rest hpolled₁ hrest⟩
      refine ⟨?_, ?_, hgoing.phase⟩
      · refine hgoing.remembers.step (pings t.pingsDoneUs) rfl hgrounded (UInt32.add_zero _).symm
          rfl (Bool.or_false _).symm rfl rfl (Bool.or_false _).symm ⟨rfl, ?_⟩
          (UInt32.add_zero _).symm
        exact fun port hport => absurd hport.symm (Option.some_ne_none port)
      · exact hgoing.accounted.step (pings t.pingsDoneUs) rfl (List.append_nil _)
          (List.append_nil _) rfl (List.append_nil _).symm
    · exact hgoing
  · exact h

theorem Going.pollEmpty (h : Going found s packets videos phase) (t : Turn) :
    Going found (pollEmpty t s) packets videos phase := by
  rw [Net.pollEmpty]
  dsimp only
  have hempty : Going found
      { s.record (empty t.nowUs) with consecutiveEmpty := s.consecutiveEmpty + 1 }
      packets videos phase := by
    refine ⟨?_, ?_, h.phase⟩
    · refine h.remembers.step (empty t.nowUs) rfl trivial (UInt32.add_zero _).symm rfl
        (Bool.or_false _).symm rfl rfl (Bool.or_false _).symm ⟨rfl, ?_⟩ (UInt32.add_zero _).symm
      exact fun port hport => absurd hport.symm (Option.some_ne_none port)
    · exact h.accounted.step (empty t.nowUs) rfl (List.append_nil _) (List.append_nil _) rfl
        (List.append_nil _).symm
  have hpolled : latest polled? (s.log ++ [empty t.nowUs]) = some t.nowUs := latest_snoc
  refine Going.passing ?_ rfl trivial (List.append_nil _) (List.append_nil _) rfl rfl
  split
  · rename_i hcame
    exact hempty.recoverIdle hcame hpolled
  · exact hempty

/-! ## A packet -/

/-- A packet has come, and has no fate yet. -/
theorem Going.packet (h : Going found s [] [] phase) (nowUs : UInt32) (p : Packet)
    (consecutiveEmpty : UInt32) :
    Going found
      { s.record (.packet nowUs p s.fromPort) with
        pktCount := s.pktCount + 1
        consecutiveEmpty
        lastDataUs := nowUs
        idleIdrRequested := false } [p] [] phase := by
  have hgrounded : Grounded found s.log (.packet nowUs p s.fromPort) := by
    have hr := h.remembers
    by_cases hcame : s.pktCount = 0
    · exact Or.inr (Or.inl (hr.pktCount.symm.trans hcame))
    · cases hplain : s.recvHotPathDisabled with
      | true => exact Or.inl (hr.hot hplain)
      | false => exact Or.inr (Or.inr (hr.port hcame hplain))
  refine ⟨?_, ?_, h.phase⟩
  · refine h.remembers.step (.packet nowUs p s.fromPort) rfl hgrounded rfl rfl rfl rfl rfl
      (Bool.or_false _).symm ⟨rfl, ?_⟩ (UInt32.add_zero _).symm
    exact fun port hport => (Option.some.inj hport).symm
  · exact h.accounted.step (.packet nowUs p s.fromPort) rfl rfl rfl rfl (List.append_nil _).symm

theorem Going.routeAudio (h : Going found s [p] [] phase)
    (hport : latest port? s.log = some found.audioServerPort) (haudio : isAudioRtp p = true)
    (t : Turn) : Going found (routeAudio t p s) [] [] phase := by
  rw [Net.routeAudio]
  split
  · exact h.passing rfl ⟨hport, haudio⟩ rfl rfl rfl rfl
  · exact h.passing rfl ⟨hport, haudio⟩ rfl rfl rfl rfl

theorem Going.countVideo (h : Going found s [p] [] phase) (t : Turn) :
    Going found (countVideo t p s) [p] [p] phase := by
  have hcounted : Going found
      { s.record (videoRx t.nowUs p) with
        lastRecvUs := t.nowUs
        rtcp := s.rtcp.receive t.nowUs p } [p] [p] phase := by
    refine ⟨?_, ?_, h.phase⟩
    · refine h.remembers.step (videoRx t.nowUs p) rfl trivial (UInt32.add_zero _).symm rfl
        (Bool.or_false _).symm rfl rfl (Bool.or_false _).symm ⟨rfl, ?_⟩ (UInt32.add_zero _).symm
      exact fun port hport => absurd hport.symm (Option.some_ne_none port)
    · exact h.accounted.step (videoRx t.nowUs p) rfl rfl rfl rfl (List.append_nil _).symm
  rw [Net.countVideo]
  split
  · rename_i hbefore
    refine hcounted.passing (e := jitter (t.nowUs - s.lastRecvUs)) rfl ?_ rfl rfl rfl rfl
    have hlast := h.remembers.recvUs
    refine ⟨s.log, t.nowUs, p, rfl, ?_, congrArg (t.nowUs - ·) hlast⟩
    rw [← hlast]
    exact hbefore
  · exact hcounted

theorem le_of_le_ofNat {n : ℕ} {a : UInt32} (h : a ≤ UInt32.ofNat n) : a.toNat ≤ n :=
  (UInt32.le_iff_toNat_le.mp h).trans (Nat.mod_le n (2 ^ 32))

/-- What a step of the thread on the ring records may go before the step itself. -/
theorem Going.flushRing (h : Going found s [] [] .emptying)
    (hgrounded : ∀ atRest, Grounded found s.log (flush atRest))
    (hs : flushRing t s = some s') : Going found s' [] [] .ready := by
  obtain ⟨s₁, hconsume, hs⟩ := Option.bind_eq_some_iff.mp hs
  obtain ⟨s₂, hflush, hs⟩ := Option.bind_eq_some_iff.mp hs
  obtain rfl := Option.some.inj hs
  have hlog : s₁.log = s.log := by
    obtain ⟨ring, -, rfl⟩ := Option.map_eq_some_iff.mp hconsume
    rfl
  have hmoved := h.consume hconsume
  rw [← hlog] at hgrounded
  have hflushed : Going found s₂ [] [] .ready ∧ s₂.log = s₁.log ++ [flush s₁.atRest] := by
    obtain ⟨ring, hring, rfl⟩ := Option.map_eq_some_iff.mp hflush
    change stepProducer s₁.ring .emergencyFlush = some ring at hring
    simp only [stepProducer, hmoved.phase] at hring
    obtain rfl := Option.some.inj hring
    refine ⟨⟨?_, ?_, rfl⟩, rfl⟩
    · refine hmoved.remembers.step (flush s₁.atRest) rfl (hgrounded _) (UInt32.add_zero _).symm rfl
        (Bool.or_false _).symm rfl rfl (Bool.or_false _).symm ⟨rfl, ?_⟩ rfl
      exact fun port hport => absurd hport.symm (Option.some_ne_none port)
    · exact hmoved.accounted.step (flush s₁.atRest) rfl rfl rfl rfl (List.append_nil _).symm
  exact hflushed.1.passing rfl ⟨s₁.log, _, hflushed.2, Or.inl rfl⟩ rfl rfl rfl rfl

theorem Going.checkReady (h : Going found s [] [] .dropped) {ready : Bool}
    (hs : s.produce (.checkReady ready) = some s') :
    Going found s' [] []
        (if 2000 ≤ s.ring.dropCount ∧ ready = false then .emptying else .ready) ∧
      s'.log = s.log := by
  obtain ⟨ring, hring, rfl⟩ := Option.map_eq_some_iff.mp hs
  rw [stepProducer, h.phase] at hring
  obtain rfl := Option.some.inj hring
  exact ⟨h.ring rfl rfl, rfl⟩

theorem Going.recoverFull (h : Going found s [] [] .dropped)
    (hends : ∃ earlier last, s.log = earlier ++ [last] ∧ last.isFull = true)
    (hs : recoverFull t s = some s') : Going found s' [] [] .ready := by
  have hcount := h.remembers.dropCount
  rw [Net.recoverFull] at hs
  obtain ⟨s₁, hready, hs⟩ := Option.bind_eq_some_iff.mp hs
  by_cases hfirst : s.ring.dropCount = 256
  · rw [if_pos hfirst] at hready hs
    obtain ⟨earlier, last, hlog, hfull⟩ := hends
    have hrequested := h.passing (e := idr) rfl ⟨earlier, last, hlog, Or.inr ⟨hfull,
      hcount.symm.trans hfirst⟩⟩ rfl rfl rfl rfl
    obtain ⟨hgoing, -⟩ := hrequested.checkReady hready
    have hshort : ¬(2000 ≤ (s.record idr).ring.dropCount ∧ t.decoderReady = false) := by
      change ¬(2000 ≤ s.ring.dropCount ∧ _)
      rw [hfirst]
      exact fun hlong => absurd hlong.1 (by decide)
    rw [if_neg hshort] at hgoing
    rw [if_neg (by rwa [decide_eq_true_eq])] at hs
    exact Option.some.inj hs ▸ hgoing
  · rw [if_neg hfirst] at hready hs
    obtain ⟨hgoing, hlog⟩ := h.checkReady hready
    by_cases hlong : 2000 ≤ s.ring.dropCount ∧ t.decoderReady = false
    · rw [if_pos hlong] at hgoing
      rw [if_pos (decide_eq_true hlong)] at hs
      refine hgoing.flushRing (fun _ => ?_) hs
      rw [hlog]
      rw [hcount] at hlong
      exact ⟨hends, le_of_le_ofNat hlong.1⟩
    · rw [if_neg hlong] at hgoing
      rw [if_neg (by rwa [decide_eq_true_eq])] at hs
      exact Option.some.inj hs ▸ hgoing

/-- The packet finds no slot. -/
theorem Going.dropFull (h : Going found s [p] [p] (.received p direct))
    (hfull : (s.ring.head + 1) % ringBufferSlots = s.ring.tail)
    (hs : (s.record (videoDrop p s.waiting true)).produce .checkRoom = some s') :
    Going found s' [] [] .dropped ∧ s'.log = s.log ++ [videoDrop p s.waiting true] := by
  obtain ⟨ring, hring, rfl⟩ := Option.map_eq_some_iff.mp hs
  change stepProducer s.ring .checkRoom = some ring at hring
  simp only [stepProducer, h.phase, if_pos hfull] at hring
  obtain rfl := Option.some.inj hring
  refine ⟨⟨?_, ?_, rfl⟩, rfl⟩
  · refine h.remembers.step (videoDrop p s.waiting true) rfl trivial (UInt32.add_zero _).symm rfl
      (Bool.or_false _).symm rfl rfl (Bool.or_false _).symm ⟨rfl, ?_⟩ rfl
    exact fun port hport => absurd hport.symm (Option.some_ne_none port)
  · exact h.accounted.step (videoDrop p s.waiting true) rfl rfl rfl rfl (List.append_nil _).symm

theorem Going.publishPacket (h : Going found s [p] [p] (.received p direct))
    (hs : publishPacket t p s = some s') : Going found s' [] [] .ready := by
  rw [Net.publishPacket] at hs
  split at hs
  · rename_i hfull
    obtain ⟨s₁, hdrop, hs⟩ := Option.bind_eq_some_iff.mp hs
    obtain ⟨hdropped, hlog⟩ := h.dropFull hfull hdrop
    exact hdropped.recoverFull ⟨s.log, _, hlog, rfl⟩ hs
  · rename_i hroom
    obtain ⟨s₁, hcheck, hs⟩ := Option.bind_eq_some_iff.mp hs
    obtain ⟨s₂, hconsume, hs⟩ := Option.bind_eq_some_iff.mp hs
    obtain ⟨s₃, hpublish, hs⟩ := Option.bind_eq_some_iff.mp hs
    obtain rfl := Option.some.inj hs
    exact ((h.checkRoom hroom hcheck).consume hconsume).publish hpublish

theorem Going.admitPacket (h : Going found s [p] [p] (.received p direct))
    (hs : admitPacket t p s = some s') : Going found s' [] [] .ready := by
  rw [Net.admitPacket] at hs
  split at hs
  · exact (h.passing (e := videoDrop p s.waiting false) rfl trivial rfl rfl rfl rfl).discard hs
  · obtain ⟨s₁, hconsume, hs⟩ := Option.bind_eq_some_iff.mp hs
    exact (h.consume hconsume).publishPacket hs

theorem Going.receivePacket (h : Going found s [] [] .ready) {d : Datagram}
    (hs : receivePacket found.audioServerPort t d s = some s') :
    Going found s' [] [] .ready := by
  rw [Net.receivePacket] at hs
  obtain ⟨s₁, hreceive, hs⟩ := Option.bind_eq_some_iff.mp hs
  have hcame := h.packet t.nowUs d.bytes 0
  obtain ⟨direct, hreceived⟩ := hcame.receive hreceive
  have hport : latest port? s₁.log = some s₁.fromPort := by
    obtain ⟨ring, -, rfl⟩ := Option.map_eq_some_iff.mp hreceive
    exact latest_snoc
  split at hs
  · rename_i haudio
    rw [haudio.1] at hport
    exact (hreceived.routeAudio hport haudio.2 t).discard hs
  · obtain ⟨s₂, hconsume, hs⟩ := Option.bind_eq_some_iff.mp hs
    exact ((hreceived.countVideo t).consume hconsume).admitPacket hs

/-! ## The law -/

/-- One turn. -/
theorem Going.recvTurn (h : Going found s [] [] .ready)
    (hs : recvTurn found.audioServerPort s t = some s') : Going found s' [] [] .ready := by
  rw [Net.recvTurn] at hs
  obtain ⟨s₁, hconsume, hs⟩ := Option.bind_eq_some_iff.mp hs
  have hpolled := (h.consume hconsume).poll t
  generalize Net.poll t s₁ = result at hpolled hs
  obtain ⟨read, s₂⟩ := result
  cases read with
  | data d => exact hpolled.receivePacket hs
  | empty =>
      obtain rfl := Option.some.inj hs
      exact hpolled.pollEmpty t
  | failed =>
      obtain rfl := Option.some.inj hs
      exact hpolled.passing rfl trivial rfl rfl rfl rfl

theorem Going.start (found : Found) (hready : found.ring.producer = .ready) (nowUs : UInt32) :
    Going found (.start found.ring found.lastRecvUs nowUs) [] [] .ready where
  remembers := .start found nowUs
  accounted := ⟨rfl, rfl, rfl, (List.append_nil _).symm⟩
  phase := hready

/-- All turns. -/
theorem Going.networkRecvThread (h : Going found s [] [] .ready) {ts : List Turn}
    (hs : networkRecvThread found.audioServerPort s ts = some s') :
    Going found s' [] [] .ready := by
  induction ts generalizing s with
  | nil => exact Option.some.inj hs ▸ h
  | cons t ts ih =>
      obtain ⟨s₁, hturn, hrest⟩ := Option.bind_eq_some_iff.mp hs
      exact ih (h.recvTurn hturn) hrest

/-- What the thread has done. -/
structure ReceiveLaw (found : Found) (s : RecvState) : Prop where
  grounded : Always (Grounded found) s.log
  /-- Each packet has one fate, before the next one comes. -/
  fates : s.log.filterMap packet? = s.log.filterMap fate?
  /-- What counts as received counts as accepted or dropped. -/
  videos : (s.log.filterMap video?).map Arrival.packet = s.log.filterMap videoFate?
  rtcp : s.rtcp = RtcpStats.initial.run (s.log.filterMap video?)
  published : s.ring.published = found.ring.published ++ s.log.filterMap accepted?

/-- Every run has done so, whatever the socket, the clock and the decoder thread do, and whatever
the threads before have left. -/
theorem receive_law {nowUs : UInt32} {ts : List Turn} (hready : found.ring.producer = .ready)
    (hs : networkRecvThread found.audioServerPort
      (.start found.ring found.lastRecvUs nowUs) ts = some s) : ReceiveLaw found s := by
  have h := (Going.start found hready nowUs).networkRecvThread hs
  refine ⟨h.remembers.grounded, ?_, ?_, h.accounted.rtcp, h.accounted.published⟩
  · exact h.accounted.packets.trans (List.append_nil _)
  · exact h.accounted.videos.trans (List.append_nil _)

/-- A packet of frame 7, the first of two with one of parity behind. -/
def videoDatagram (seq fecIndex : UInt8) (nalHeader : UInt8) : Datagram where
  bytes := [0x80, 0x60, 0, seq, 0, 0, 0, 90, 0, 0, 0, 1] ++
    [0, seq, 0, 0, 7, 0, 0, 0, 0x05, 0, 0x10, 0, 0, fecIndex <<< 4, 0x80, 0] ++
    [0, 0, 0, 1, nalHeader, 0x88]
  pos := Nat.zero_lt_succ _
  le := Nat.le_of_ble_eq_true rfl

/-- A turn in which this comes, the decoder thread taking these steps before. -/
def arrivingTurn (nowUs : UInt32) (d : Datagram) (beforeRecv : List Action) : Turn where
  recv := .data d
  recvfrom := .data d
  port := 47998
  nowUs
  pingsDoneUs := nowUs
  audioEnabled := true
  audioTaken := true
  decoderReady := true
  beforeRecv
  beforeAdmission := []
  beforeRoom := []
  beforePublish := []
  beforeFlush := []

/-- Two packets of data and one of parity; the decoder thread takes the first. -/
def videoTurns : List Turn :=
  [arrivingTurn 1000 (videoDatagram 1 0 0x65) [],
    arrivingTurn 1300 (videoDatagram 2 1 0x41) [.find, .take],
    arrivingTurn 1900 (videoDatagram 3 2 0x00) [.finish, .advance, .measure]]

/-- A thread before this one has counted three drops. -/
def videoFound : Found := ⟨48000, .initial 3, 500⟩

theorem videoTurns_run :
    ∃ s, networkRecvThread 48000 (.start (.initial 3) 500 900) videoTurns = some s :=
  Option.isSome_iff_exists.mp rfl

theorem receive_law_video :
    ∃ s, networkRecvThread 48000 (.start (.initial 3) 500 900) videoTurns = some s ∧
      ReceiveLaw videoFound s := by
  obtain ⟨s, hs⟩ := videoTurns_run
  have hlaw : ReceiveLaw videoFound s := receive_law rfl hs
  exact ⟨s, hs, hlaw⟩

end MoonlightPsp.Net
