import MoonlightPsp.RtpFec.Parity

/-!
# The FEC layer: counting what arrives

`rtp_fec_add_packet_inner` counts packets and bytes, for the bandwidth estimate.
A packet that was put aside is given to it once more when it is replayed, and is
then counted a second time.

The state has the two counters beside the layer, and a record of the packets
that were replayed, which the code does not keep.
-/

namespace MoonlightPsp.RtpFec

open ReedSolomon

/-! ## The model -/

/-- `g_fec_packets_received` and `g_fec_total_bytes_received`. -/
structure Traffic where
  packetsReceived : UInt32
  totalBytesReceived : UInt32
  deriving DecidableEq

/-- The counting at the start of `rtp_fec_add_packet_inner`. -/
def Traffic.count (t : Traffic) (packet : Packet) : Traffic :=
  if packet.length < 12 + 16 then t
  else ⟨t.packetsReceived + 1,
    t.totalBytesReceived + UInt32.ofNat packet.length⟩

/-- The layer with its counters, and the packets that were replayed. -/
structure Metered where
  fec : Fec
  traffic : Traffic
  replayed : List Packet

/-- A packet of the queue goes through `rtp_fec_add_packet_inner`. -/
def Metered.replay (env : FecEnv) (m : Metered) (front : Packet)
    (rest : List Packet) : Metered where
  fec := (replayPacket env (m.fec.setDeferred rest) front).2
  traffic := m.traffic.count front
  replayed := m.replayed ++ [front]

/-- `drain_deferred_cabac_packets`. -/
def Metered.drain (env : FecEnv) : ℕ → Metered → Option Metered
  | 0, _ => none
  | fuel + 1, m =>
      let m := { m with fec := dropSubmittedDeferredFramePackets m.fec }
      match m.fec.deferred with
      | [] => some m
      | front :: rest =>
          if canReplay m.fec front then
            Metered.drain env fuel (m.replay env front rest)
          else some m

/-- The frame transition and what follows it. -/
def Metered.transition (env : FecEnv) (h : FecHeader) (packet : Packet) :
    ℕ → Metered → Option (Bool × Metered)
  | 0, _ => none
  | fuel + 1, m =>
      if h.frameIndex ≠ m.fec.currentFrame ∧
          h.frameIndex > m.fec.currentFrame ∧
          currentFrameNeedsCabacDefer env.config m.fec then
        match deferCabacNewerPacket m.fec packet h.frameIndex with
        | some s => some (true, { m with fec := s })
        | none => do
            let m ← Metered.drain env (m.fec.deferred.length + 1)
              { m with fec := concludeFrame env m.fec }
            Metered.transition env h packet fuel m
      else
        let r := placePacket env (enterFrame env m.fec h) h packet
        some (r.1, { m with fec := r.2 })

/-- `rtp_fec_add_packet_inner` with `allow_defer` set. -/
def Metered.arrive (env : FecEnv) (m : Metered) (packet : Packet) :
    Option (Bool × Metered) :=
  let m := { m with traffic := m.traffic.count packet }
  match screenPacket env.config m.fec.currentFrame packet with
  | .bypass => some (false, m)
  | .stale frame => some (true, { m with fec := m.fec.emit (.late frame false) })
  | .junk => some (true, m)
  | .taken h => m.transition env h packet (m.fec.deferred.length + 2)

/-- `rtp_fec_add_packet`. -/
def Metered.addPacket (env : FecEnv) (m : Metered) (packet : Packet) :
    Option (Bool × Metered) := do
  let m ← m.drain env (m.fec.deferred.length + 1)
  let (consumed, m) ← m.arrive env packet
  let m ← m.drain env (m.fec.deferred.length + 1)
  pure (consumed, m)

/-- One input. -/
def Metered.step (m : Metered) : FecInput → Option Metered
  | .packet env packet => (m.addPacket env packet).map Prod.snd
  | .audio block =>
      some { m with
        fec := m.fec.setRs (audioRtpFecComplete m.fec.rs block).1 }
  | .reset => some { m with fec := rtpFecReset m.fec }

/-- A run of the layer with its counters. -/
def Metered.run (m : Metered) : List FecInput → Option Metered
  | [] => some m
  | i :: rest => (m.step i).bind fun m => m.run rest

/-! ## Sums -/

/-- The packet of an input. -/
def FecInput.arrived : FecInput → Option Packet
  | .packet _ p => some p
  | _ => none

/-- The packets handed to the layer in a run. -/
def arrivals (inputs : List FecInput) : List Packet :=
  inputs.filterMap FecInput.arrived

/-- The bytes of some packets. -/
def totalBytes (packets : List Packet) : ℕ := (packets.map List.length).sum

/-- The counters after these packets were counted once each. -/
def Traffic.plus (t : Traffic) (packets : List Packet) : Traffic :=
  ⟨t.packetsReceived + UInt32.ofNat packets.length,
    t.totalBytesReceived + UInt32.ofNat (totalBytes packets)⟩

theorem Traffic.plus_count {t : Traffic} {packets : List Packet}
    {packet : Packet} (hlen : 12 + 16 ≤ packet.length) :
    (t.plus packets).count packet = t.plus (packet :: packets) := by
  rw [count, if_neg (Nat.not_lt.mpr hlen)]
  simp only [plus, totalBytes, List.length_cons, List.map_cons, List.sum_cons,
    UInt32.ofNat_add, mk.injEq]
  constructor
  · exact UInt32.add_assoc _ _ _
  · rw [UInt32.add_assoc, UInt32.add_comm (UInt32.ofNat packet.length)]

theorem Traffic.plus_perm {t : Traffic} {packets packets' : List Packet}
    (h : packets.Perm packets') : t.plus packets = t.plus packets' := by
  simp only [plus, totalBytes, h.length_eq, (h.map List.length).sum_eq]

/-! ## What is counted -/

/-- Every packet that arrived was counted, and every one that was replayed. -/
structure Tallied (t : Traffic) (arrived : List Packet) (m : Metered) :
    Prop where
  inv : FecInv m.fec
  queue : ∀ q ∈ m.fec.deferred, 12 + 16 ≤ q.length
  traffic : m.traffic = t.plus (m.replayed ++ arrived)

section

variable {env : FecEnv} {t : Traffic} {arrived : List Packet} {m : Metered}

theorem Tallied.setFec (hm : Tallied t arrived m) {s : Fec} (hs : FecInv s)
    (hqueue : ∀ q ∈ s.deferred, q ∈ m.fec.deferred) :
    Tallied t arrived { m with fec := s } :=
  ⟨hs, fun q hq => hm.queue q (hqueue q hq), hm.traffic⟩

theorem Tallied.dropSubmitted (hm : Tallied t arrived m) :
    Tallied t arrived
      { m with fec := dropSubmittedDeferredFramePackets m.fec } :=
  hm.setFec (fecInv_step (.queue _) hm.inv)
    fun _ hq => (List.dropWhile_sublist _).mem hq

theorem Tallied.replay (hm : Tallied t arrived m) {front : Packet}
    {rest : List Packet} (hq : m.fec.deferred = front :: rest) :
    Tallied t arrived (m.replay env front rest) := by
  have hinv : FecInv (m.fec.setDeferred rest) :=
    fecInv_step (.queue rest) hm.inv
  refine ⟨fecInv_steps (replayPacket_steps env hinv front) hinv, ?_, ?_⟩
  · intro q hmem
    rw [Metered.replay, replayPacket_deferred env hinv] at hmem
    exact hm.queue q (by rw [hq]; exact List.mem_cons_of_mem front hmem)
  · have hlen := hm.queue front (by rw [hq]; exact List.mem_cons_self)
    simp only [Metered.replay]
    rw [hm.traffic, Traffic.plus_count hlen]
    refine Traffic.plus_perm ?_
    rw [← List.cons_append]
    exact List.perm_append_singleton front m.replayed |>.symm.append_right _

/-- A drain with counters is a drain, and counts what it replays. -/
theorem Tallied.drain (hm : Tallied t arrived m) {fuel : ℕ} {s : Fec}
    (hs : drainDeferredCabacPackets env fuel m.fec = some s) :
    ∃ m', m.drain env fuel = some m' ∧ m'.fec = s ∧ Tallied t arrived m' := by
  induction fuel generalizing m with
  | zero => exact nomatch hs
  | succ fuel ih =>
      have hdrop := hm.dropSubmitted
      rw [drainDeferredCabacPackets] at hs
      rw [Metered.drain]
      simp only at hs ⊢
      cases hq : (dropSubmittedDeferredFramePackets m.fec).deferred with
      | nil =>
          simp only [hq] at hs
          exact ⟨_, rfl, Option.some.inj hs, hdrop⟩
      | cons front rest =>
          simp only [hq] at hs
          simp only
          split at hs
          · rename_i hcan
            rw [if_pos hcan]
            exact ih (hdrop.replay hq) hs
          · rename_i hstop
            rw [if_neg hstop]
            exact ⟨_, rfl, Option.some.inj hs, hdrop⟩

theorem Tallied.conclude (hm : Tallied t arrived m) (env : FecEnv) :
    Tallied t arrived { m with fec := concludeFrame env m.fec } := by
  refine hm.setFec (fecInv_steps (concludeFrame_steps env) hm.inv) ?_
  intro q hq
  rwa [concludeFrame_deferred env hm.inv] at hq

theorem length_of_taken {packet : Packet} {h : FecHeader}
    (hh : Taken packet h) : 12 + 16 ≤ packet.length := by
  have hparse := hh.parse
  rw [parseFecHeader] at hparse
  split at hparse
  · cases hparse
  · rename_i off hoff
    simp only [rtpNvOffsetFromPacket] at hoff
    by_contra hshort
    split_ifs at hoff <;> omega

theorem Tallied.transition {h : FecHeader} {packet : Packet}
    (hh : Taken packet h) (hm : Tallied t arrived m) {fuel : ℕ}
    {r : Bool × Fec}
    (hr : processFrameTransition env h packet fuel m.fec = some r) :
    ∃ m', m.transition env h packet fuel = some (r.1, m') ∧ m'.fec = r.2 ∧
      Tallied t arrived m' := by
  induction fuel generalizing m with
  | zero => exact nomatch hr
  | succ fuel ih =>
      rw [Metered.transition]
      cases passed_of_eq hr with
      | deferred hwaits hdefer =>
          rw [if_pos hwaits]
          obtain ⟨hset, -, -⟩ := deferCabacNewerPacket_eq_some hdefer
          simp only [hdefer]
          refine ⟨_, rfl, rfl, ?_, ?_, hm.traffic⟩
          · rw [hset]
            exact fecInv_step (.queue _) hm.inv
          · rw [hset]
            intro q hq
            rcases List.mem_append.mp hq with hq | hq
            · exact hm.queue q hq
            · rw [List.mem_singleton.mp hq]
              exact length_of_taken hh
      | refused hwaits hrefused hdrain hr =>
          rw [if_pos hwaits]
          obtain ⟨m', hm', rfl, htallied⟩ := (hm.conclude env).drain hdrain
          obtain ⟨u, hu, hfec, hfinal⟩ := ih htallied hr
          refine ⟨u, ?_, hfec, hfinal⟩
          simp only [hrefused, Option.bind_eq_bind, hm', Option.bind_some, hu]
      | placed hgoes =>
          rw [if_neg hgoes]
          obtain ⟨hinv, -, hqueue⟩ := take_spec env hm.inv hh
          refine ⟨_, rfl, rfl, hm.setFec hinv fun q hq => ?_⟩
          rwa [hqueue] at hq

theorem Tallied.arrive (hm : Tallied t arrived m) (env : FecEnv) {packet : Packet}
    (hlen : 12 + 16 ≤ packet.length) :
    ∃ consumed m', m.arrive env packet = some (consumed, m') ∧
      arrivingPacket env m.fec packet = some (consumed, m'.fec) ∧
      Tallied t (arrived ++ [packet]) m' := by
  have hcount : Tallied t (arrived ++ [packet])
      { m with traffic := m.traffic.count packet } := by
    refine ⟨hm.inv, hm.queue, ?_⟩
    simp only
    rw [hm.traffic, Traffic.plus_count hlen]
    refine Traffic.plus_perm ?_
    rw [← List.append_assoc]
    exact (List.perm_append_singleton packet _).symm
  obtain ⟨r, hr, -⟩ := arrivingPacket_spec env hm.inv packet
  rw [hr, Metered.arrive]
  cases arrived_of_eq hr with
  | bypass hscreen =>
      simp only [hscreen]
      exact ⟨_, _, rfl, rfl, hcount⟩
  | stale frame hscreen =>
      simp only [hscreen]
      exact ⟨_, _, rfl, rfl, hcount.setFec
        (fecInv_step (.late frame false) hm.inv) fun _ hq => hq⟩
  | junk hscreen =>
      simp only [hscreen]
      exact ⟨_, _, rfl, rfl, hcount⟩
  | taken h hscreen hpass =>
      simp only [hscreen]
      obtain ⟨m', hm', hfec, htallied⟩ :=
        hcount.transition (screenPacket_taken hscreen).1 hpass
      exact ⟨r.1, m', hm', by rw [hfec], htallied⟩

/-- A call with counters is a call, and counts its packet and what it
replays. -/
theorem Tallied.addPacket (hm : Tallied t arrived m) (env : FecEnv) {packet : Packet}
    (hlen : 12 + 16 ≤ packet.length) :
    ∃ consumed m', m.addPacket env packet = some (consumed, m') ∧
      rtpFecAddPacket env m.fec packet = some (consumed, m'.fec) ∧
      Tallied t (arrived ++ [packet]) m' := by
  obtain ⟨s, hs, -⟩ := drain_isSome env hm.inv (Nat.lt_succ_self _)
  obtain ⟨u, hu, rfl, hut⟩ := hm.drain hs
  obtain ⟨consumed, v, hv, hvf, hvt⟩ := hut.arrive env hlen
  obtain ⟨w, hw, -⟩ := drain_isSome env hvt.inv (Nat.lt_succ_self _)
  obtain ⟨x, hx, rfl, hxt⟩ := hvt.drain hw
  refine ⟨consumed, x, ?_, ?_, hxt⟩
  · simp only [Metered.addPacket, hu, hv, hx, Option.bind_eq_bind,
      Option.bind_some, Option.pure_def]
  · simp only [rtpFecAddPacket, hs, hvf, hw, Option.bind_eq_bind,
      Option.bind_some, Option.pure_def]

end

theorem Tallied.run {t : Traffic} {arrived : List Packet} {m : Metered}
    (hm : Tallied t arrived m) (inputs : List FecInput)
    (hlen : ∀ p ∈ arrivals inputs, 12 + 16 ≤ p.length) :
    ∃ m', m.run inputs = some m' ∧ m.fec.run inputs = some m'.fec ∧
      Tallied t (arrived ++ arrivals inputs) m' := by
  induction inputs generalizing arrived m with
  | nil => exact ⟨m, rfl, rfl, by simpa [arrivals] using hm⟩
  | cons i rest ih =>
      cases i with
      | packet env packet =>
          obtain ⟨consumed, m', hm', hfec, htallied⟩ := hm.addPacket env
            (hlen packet (by simp [arrivals, FecInput.arrived]))
          obtain ⟨u, hu, huf, hut⟩ := ih htallied
            fun p hp => hlen p (List.mem_cons_of_mem _ hp)
          refine ⟨u, ?_, ?_, ?_⟩
          · simpa [Metered.run, Metered.step, hm'] using hu
          · simpa [Fec.run, Fec.step, hfec] using huf
          · simpa [arrivals, FecInput.arrived] using hut
      | audio block =>
          have hstep := hm.setFec (s := m.fec.setRs
            (audioRtpFecComplete m.fec.rs block).1)
            (hm.inv.of_same (.setRs _ _) rfl) fun _ hq => hq
          obtain ⟨u, hu, huf, hut⟩ := ih hstep hlen
          exact ⟨u, by simpa [Metered.run, Metered.step] using hu,
            by simpa [Fec.run, Fec.step] using huf, hut⟩
      | reset =>
          have hstep := hm.setFec (s := rtpFecReset m.fec) fecInv_reset
            fun _ hq => absurd hq List.not_mem_nil
          obtain ⟨u, hu, huf, hut⟩ := ih hstep hlen
          exact ⟨u, by simpa [Metered.run, Metered.step] using hu,
            by simpa [Fec.run, Fec.step] using huf, hut⟩

/-! ## Once or twice -/

theorem ofNat_eq_zero_iff (n : ℕ) : UInt32.ofNat n = 0 ↔ 2 ^ 32 ∣ n := by
  rw [← UInt32.toNat_inj, UInt32.toNat_ofNat', UInt32.toNat_zero]
  exact (Nat.dvd_iff_mod_eq_zero).symm

/-- Packets counted besides show, unless the counters come round. -/
theorem Traffic.plus_append_eq_iff (t : Traffic) (more packets : List Packet) :
    t.plus (more ++ packets) = t.plus packets ↔
      2 ^ 32 ∣ more.length ∧ 2 ^ 32 ∣ totalBytes more := by
  have hadd (x : UInt32) (a b : ℕ) :
      x + UInt32.ofNat (a + b) = x + UInt32.ofNat b ↔ 2 ^ 32 ∣ a := by
    rw [← ofNat_eq_zero_iff, UInt32.ofNat_add, UInt32.add_right_inj,
      UInt32.add_eq_right]
  simp only [plus, totalBytes, List.length_append, List.map_append,
    List.sum_append, mk.injEq, hadd]

/-- In every run the counters grow by the packets that arrived if and only if
what was replayed does not show in them. -/
theorem counted_once_iff (t : Traffic) (inputs : List FecInput)
    (hlen : ∀ p ∈ arrivals inputs, 12 + 16 ≤ p.length) :
    ∃ m, Metered.run ⟨Fec.initial, t, []⟩ inputs = some m ∧
      Fec.initial.run inputs = some m.fec ∧
      (m.traffic = t.plus (arrivals inputs) ↔
        2 ^ 32 ∣ m.replayed.length ∧ 2 ^ 32 ∣ totalBytes m.replayed) := by
  have hstart : Tallied t [] ⟨Fec.initial, t, []⟩ :=
    ⟨fecInv_initial, fun _ hq => absurd hq List.not_mem_nil, by
      simp [Traffic.plus, totalBytes]⟩
  obtain ⟨m, hm, hfec, htallied⟩ := hstart.run inputs hlen
  rw [List.nil_append] at htallied
  refine ⟨m, hm, hfec, ?_⟩
  rw [htallied.traffic]
  exact t.plus_append_eq_iff m.replayed (arrivals inputs)

/-- A CABAC stream in which a packet of frame 8 comes between the two packets of
frame 7. -/
def packetBetween : List FecInput :=
  [.packet (sampleEnv 1) (barePacket 0 7 0 2 0 0),
    .packet (sampleEnv 1) (barePacket 2 8 0 1 0 0),
    .packet (sampleEnv 1) (barePacket 1 7 0 2 1 0)]

/-- The same packets in their order. -/
def packetsInOrder : List FecInput :=
  [.packet (sampleEnv 1) (barePacket 0 7 0 2 0 0),
    .packet (sampleEnv 1) (barePacket 1 7 0 2 1 0),
    .packet (sampleEnv 1) (barePacket 2 8 0 1 0 0)]

/-- None of them is replayed. -/
theorem counted_once_packetsInOrder :
    ∃ m, Metered.run ⟨Fec.initial, ⟨0, 0⟩, []⟩ packetsInOrder = some m ∧
      Fec.initial.run packetsInOrder = some m.fec ∧
      m.traffic = Traffic.plus ⟨0, 0⟩ (arrivals packetsInOrder) := by
  obtain ⟨m, hm, hfec, hiff⟩ := counted_once_iff ⟨0, 0⟩ packetsInOrder (by decide)
  have hreplayed : ((Metered.run ⟨Fec.initial, ⟨0, 0⟩, []⟩ packetsInOrder).all fun m =>
      m.replayed.isEmpty) = true := by
    decide +kernel
  rw [hm, Option.all_some, List.isEmpty_iff] at hreplayed
  refine ⟨m, hm, hfec, hiff.mpr ?_⟩
  rw [hreplayed]
  exact ⟨dvd_zero _, dvd_zero _⟩

/-- The packet of frame 8 is counted when it arrives and when it is replayed. -/
theorem counted_twice :
    ¬∀ (t : Traffic) (inputs : List FecInput),
      (∀ p ∈ arrivals inputs, 12 + 16 ≤ p.length) →
        ∀ m, Metered.run ⟨Fec.initial, t, []⟩ inputs = some m →
          m.traffic = t.plus (arrivals inputs) := by
  intro hall
  have hcounted : (Metered.run ⟨Fec.initial, ⟨0, 0⟩, []⟩ packetBetween).map
      Metered.traffic = some ⟨4, 112⟩ := by
    decide +kernel
  obtain ⟨m, hm, htraffic⟩ := Option.map_eq_some_iff.mp hcounted
  rw [hall ⟨0, 0⟩ packetBetween (by decide) m hm] at htraffic
  exact absurd htraffic (by decide)

/-! ## Streams without deferral -/

theorem Metered.drain_of_nil (env : FecEnv) (fuel : ℕ) {m : Metered}
    (hqueue : m.fec.deferred = []) : m.drain env (fuel + 1) = some m := by
  have hdrop : dropSubmittedDeferredFramePackets m.fec = m.fec := by
    rw [dropSubmittedDeferredFramePackets, hqueue, List.dropWhile_nil,
      ← hqueue]
    rfl
  rw [Metered.drain]
  simp only [hdrop, hqueue]

/-- A call in a CAVLC stream leaves the queue empty. -/
theorem Metered.addPacket_of_cavlc {env : FecEnv}
    (hcavlc : fecStreamIsCabac env.config = false) {m : Metered}
    (hs : FecInv m.fec) (hqueue : m.fec.deferred = []) (packet : Packet) :
    ∃ r, m.addPacket env packet = some r ∧ FecInv r.2.fec ∧
      r.2.fec.deferred = [] ∧ r.2.replayed = m.replayed := by
  have harrive : ∃ r, m.arrive env packet = some r ∧ FecInv r.2.fec ∧
      r.2.fec.deferred = [] ∧ r.2.replayed = m.replayed := by
    rw [Metered.arrive]
    simp only
    cases hscreen : screenPacket env.config m.fec.currentFrame packet with
    | bypass => exact ⟨_, rfl, hs, hqueue, rfl⟩
    | stale frame =>
        exact ⟨_, rfl, fecInv_step (.late frame false) hs, hqueue, rfl⟩
    | junk => exact ⟨_, rfl, hs, hqueue, rfl⟩
    | taken h =>
        simp only
        rw [Metered.transition, if_neg]
        · obtain ⟨hinv, -, hkept⟩ :=
            take_spec env hs (screenPacket_taken hscreen).1
          exact ⟨_, rfl, hinv, hkept.trans hqueue, rfl⟩
        · rintro ⟨-, -, hneeds⟩
          simp [currentFrameNeedsCabacDefer, hcavlc] at hneeds
  obtain ⟨r, hr, hinv, hnil, hreplayed⟩ := harrive
  refine ⟨r, ?_, hinv, hnil, hreplayed⟩
  simp only [Metered.addPacket, Metered.drain_of_nil env _ hqueue, hr,
    Metered.drain_of_nil env _ hnil, Option.bind_eq_bind, Option.bind_some,
    Option.pure_def]

/-- In a CAVLC stream nothing is put aside, so nothing is replayed. -/
theorem Metered.replayed_of_cavlc {inputs : List FecInput}
    (hcavlc : ∀ env p, FecInput.packet env p ∈ inputs →
      fecStreamIsCabac env.config = false) {m m' : Metered}
    (hs : FecInv m.fec) (hqueue : m.fec.deferred = [])
    (hm : m.run inputs = some m') : m'.replayed = m.replayed := by
  induction inputs generalizing m with
  | nil => exact congrArg _ (Option.some.inj hm).symm
  | cons i rest ih =>
      have hrest : ∀ env p, FecInput.packet env p ∈ rest →
          fecStreamIsCabac env.config = false :=
        fun env p hp => hcavlc env p (List.mem_cons_of_mem i hp)
      rw [Metered.run] at hm
      cases i with
      | packet env packet =>
          obtain ⟨r, hr, hinv, hnil, hreplayed⟩ := Metered.addPacket_of_cavlc
            (hcavlc env packet List.mem_cons_self) hs hqueue packet
          simp only [Metered.step, hr, Option.map_some, Option.bind_some] at hm
          rw [ih hrest hinv hnil hm, hreplayed]
      | audio block =>
          simp only [Metered.step, Option.bind_some] at hm
          refine ih (m := { m with
            fec := m.fec.setRs (audioRtpFecComplete m.fec.rs block).1 }) hrest
            (hs.of_same (.setRs _ _) rfl) hqueue hm
      | reset =>
          simp only [Metered.step, Option.bind_some] at hm
          exact ih (m := { m with fec := rtpFecReset m.fec }) hrest
            fecInv_reset rfl hm

end MoonlightPsp.RtpFec
