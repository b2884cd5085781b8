import MoonlightPsp.RtpFec.Status

/-!
# The FEC layer: its books

How many packets of a frame came in is counted in three ways: by
`g_received_count`, by `g_network_received_count` with the marks, and by kind.
For an open frame in one block all of them tell the number of slots that are
taken.  So an attempt to recover a frame that finds enough packets also finds
enough parity packets among them.

`rtp_fec_init` leaves the counts of the frame before it, if there was one.
-/

namespace MoonlightPsp.RtpFec

open ReedSolomon

/-! ## The model -/

/-- `g_network_received_count` and `g_highest_received_index`. -/
structure Books where
  networkReceivedCount : ℕ
  highestReceivedIndex : ℕ

/-- After `reset_frame_receive_status`. -/
def Books.cleared : Books where
  networkReceivedCount := 0
  highestReceivedIndex := 0

/-- After `mark_frame_packet_received`. -/
def Books.mark (c : Books) (s : Fec) (index : ℕ) : Books :=
  if index ≥ fecMaxPackets ∨ s.receivedFromNetwork index then c
  else
    { networkReceivedCount := c.networkReceivedCount + 1
      highestReceivedIndex :=
        if c.networkReceivedCount = 0 ∨ index > c.highestReceivedIndex then index
        else c.highestReceivedIndex }

/-- After a packet is stored, or found to be stored already. -/
def Books.store (c : Books) (s : Fec) (index : ℕ) : Books :=
  if (s.slots index).isSome then c else c.mark s index

/-- `rtp_fec_init`, at any time.  The tables of `reed_solomon_init` are not part of
the state. -/
def rtpFecInit (s : Fec) : Fec :=
  { s with
    slots := fun _ => none
    receivedFromNetwork := fun _ => false
    currentFrame := noFrame
    receivedDataCount := 0
    receivedParityCount := 0
    deferred := []
    consecutiveFrameDrops := 0 }

/-- The states that the layer goes through, also in the middle of a call, and its
books there. -/
inductive Visited : Fec → Books → Prop where
  | initial : Visited Fec.initial .cleared
  | conclude (env : FecEnv) {s : Fec} {c : Books} (hs : Visited s c) :
      Visited (concludeFrame env s) c
  | enter {packet : Packet} {h : FecHeader} (hh : Taken packet h) {s : Fec} {c : Books}
      (hnew : h.frameIndex ≠ s.currentFrame) (hs : Visited s c) :
      Visited (openFrame s h) .cleared
  | register {packet : Packet} {h : FecHeader} (hh : Taken packet h) {s : Fec} {c : Books}
      (hs : Visited s c) : Visited (registerBlock s h) c
  | store {packet : Packet} {h : FecHeader} (hh : Taken packet h) {s : Fec} {c : Books}
      {index : ℕ} (hslot : slotIndex s h = some index) (hs : Visited s c) :
      Visited (storePacket s h index packet) (c.store s index)
  | submit (env : FecEnv) {s : Fec} {c : Books} {index : ℕ}
      (hstored : (s.slots index).isSome) (hs : Visited s c) :
      Visited (submitIfReady env s) c
  | late (frame : UInt32) (replayed : Bool) {s : Fec} {c : Books} (hs : Visited s c) :
      Visited (s.emit (.late frame replayed)) c
  | queue (deferred : List Packet) {s : Fec} {c : Books} (hs : Visited s c) :
      Visited (s.setDeferred deferred) c
  | audio (rs : SharedRs) {s : Fec} {c : Books} (hs : Visited s c) :
      Visited (s.setRs rs) c
  | reset {s : Fec} {c : Books} (hs : Visited s c) : Visited (rtpFecReset s) .cleared
  | init {s : Fec} {c : Books} (hs : Visited s c) : Visited (rtpFecInit s) .cleared

/-- The slots of the frame that hold a received packet. -/
def receivedSlots (s : Fec) : Finset ℕ :=
  (Finset.range s.totalPackets).filter fun i => (s.slots i).isSome

/-- All books tell how many slots are taken, and which is the last one. -/
structure Balanced (s : Fec) (c : Books) : Prop where
  receivedCount : s.receivedCount = (receivedSlots s).card
  networkReceivedCount : c.networkReceivedCount = (receivedSlots s).card
  byKind : s.receivedDataCount + s.receivedParityCount = (receivedSlots s).card
  inFrame : ∀ i, s.totalPackets ≤ i → s.slots i = none
  highest : (receivedSlots s).Nonempty →
    IsGreatest (receivedSlots s : Set ℕ) c.highestReceivedIndex

/-- `attempt_recovery_and_submit` is called: a frame with packets ends, or all its
data packets are there. -/
def Attempted (s : Fec) : Prop :=
  s.frameSubmitted = false ∧
    (s.currentFrame ≠ noFrame ∧ 0 < s.receivedCount ∨ frameReady s = true)

theorem concludeFrame_eq (env : FecEnv) (s : Fec) :
    concludeFrame env s = s ∨
      Attempted s ∧ 0 < s.receivedCount ∧
        concludeFrame env s = attemptRecoveryAndSubmit env s := by
  rw [concludeFrame]
  split
  · rename_i hguard
    obtain ⟨hframe, hopen, hkept⟩ := hguard
    exact .inr ⟨⟨by simpa using hopen, .inl ⟨hframe, hkept⟩⟩, hkept, rfl⟩
  · exact .inl rfl

theorem submitIfReady_eq (env : FecEnv) (s : Fec) :
    submitIfReady env s = s ∨
      Attempted s ∧ submitIfReady env s = attemptRecoveryAndSubmit env s := by
  rw [submitIfReady]
  split
  · rename_i hguard
    obtain ⟨hopen, hready⟩ := hguard
    exact .inr ⟨⟨by simpa using hopen, .inr hready⟩, rfl⟩
  · exact .inl rfl

/-! ## What the slots hold -/

/-- The slots, marks and counts by kind of a frame in one block.  How many packets
were received is told only of a frame that was opened since the start. -/
structure SlotsBooked (s : Fec) : Prop where
  marks : ∀ i, s.receivedFromNetwork i = (s.slots i).isSome
  inFrame : ∀ i, (s.slots i).isSome → i < s.totalPackets
  data : s.receivedDataCount =
    ((receivedSlots s).filter fun i => i < s.dataPackets).card
  parity : s.receivedParityCount =
    ((receivedSlots s).filter fun i => ¬i < s.dataPackets).card
  count : s.currentFrame ≠ noFrame → s.receivedCount = (receivedSlots s).card

theorem mem_receivedSlots {s : Fec} {i : ℕ} :
    i ∈ receivedSlots s ↔ i < s.totalPackets ∧ (s.slots i).isSome := by
  rw [receivedSlots, Finset.mem_filter, Finset.mem_range]

theorem receivedSlots_of_none {s : Fec} (hslots : ∀ i, s.slots i = none) :
    receivedSlots s = ∅ := by
  simp [receivedSlots, hslots]

theorem networkReceived_eq {s : Fec}
    (hmarks : ∀ i, s.receivedFromNetwork i = (s.slots i).isSome)
    (hin : ∀ i, (s.slots i).isSome → i < s.totalPackets)
    (htotal : s.totalPackets ≤ fecMaxPackets) : networkReceived s = receivedSlots s := by
  ext i
  rw [mem_networkReceived, mem_receivedSlots, hmarks]
  constructor
  · rintro ⟨-, hsome⟩
    exact ⟨hin i hsome, hsome⟩
  · rintro ⟨hlt, hsome⟩
    exact ⟨by omega, hsome⟩

theorem slotsBooked_of_none {s : Fec} (hslots : ∀ i, s.slots i = none)
    (hmarks : ∀ i, s.receivedFromNetwork i = false) (hdata : s.receivedDataCount = 0)
    (hparity : s.receivedParityCount = 0)
    (hcount : s.currentFrame ≠ noFrame → s.receivedCount = 0) : SlotsBooked s where
  marks i := by simp [hmarks, hslots]
  inFrame i hi := by simp [hslots] at hi
  data := by simp [hdata, receivedSlots_of_none hslots]
  parity := by simp [hparity, receivedSlots_of_none hslots]
  count hframe := by simp [hcount hframe, receivedSlots_of_none hslots]

theorem receivedSlots_insert {s t : Fec} {index : ℕ} {packet : Packet}
    (hin : index < s.totalPackets) (htotal : t.totalPackets = s.totalPackets)
    (hslots : t.slots = Function.update s.slots index (some packet)) :
    receivedSlots t = insert index (receivedSlots s) := by
  ext i
  rw [Finset.mem_insert, mem_receivedSlots, mem_receivedSlots, htotal, hslots]
  by_cases hi : i = index
  · subst hi
    simp [hin]
  · simp [hi]

theorem card_filter_insert {R : Finset ℕ} {index : ℕ} (hnew : index ∉ R) (p : ℕ → Prop)
    [DecidablePred p] :
    ((insert index R).filter p).card = (R.filter p).card + (decide (p index)).toNat := by
  rw [Finset.filter_insert]
  split
  · rename_i hp
    rw [Finset.card_insert_of_notMem fun hmem => hnew (Finset.mem_filter.mp hmem).1]
    simp [hp]
  · rename_i hp
    simp [hp]

/-- What a packet in a new slot of a frame in one block adds to the counts. -/
theorem storePacket_kinds {s : Fec} {index : ℕ} (packet : Packet)
    (hnone : ¬(s.slots index).isSome) (hmark : s.receivedFromNetwork index = false)
    (hlt : index < fecMaxPackets) (hsingle : s.numFecBlocks ≤ 1) (h : FecHeader) :
    let t := storePacket s h index packet
    t.receivedDataCount = s.receivedDataCount + (decide (index < s.dataPackets)).toNat ∧
      t.receivedParityCount =
        s.receivedParityCount + (decide ¬index < s.dataPackets).toNat := by
  have hnew : ¬(index ≥ fecMaxPackets ∨
      (fillSlot s index packet).receivedFromNetwork index = true) := by
    intro hold
    rcases hold with hge | hyes
    · omega
    · rw [fillSlot, hmark] at hyes
      exact Bool.noConfusion hyes
  have hkind : isDataPacket (fillSlot s index packet) h index =
      decide (index < s.dataPackets) := by
    rw [isDataPacket]
    exact if_neg (Nat.not_lt.mpr hsingle)
  have hblock (t : Fec) : (countForBlock t h).receivedDataCount = t.receivedDataCount ∧
      (countForBlock t h).receivedParityCount = t.receivedParityCount := by
    rw [countForBlock]
    split <;> exact ⟨rfl, rfl⟩
  rw [storePacket, if_neg hnone]
  simp only
  rw [(hblock _).1, (hblock _).2, markFramePacketReceived, if_neg hnew, hkind,
    ← decide_not]
  exact ⟨rfl, rfl⟩

/-- A packet that is stored is in the books. -/
theorem SlotsBooked.store {s : Fec} (hs : SlotsBooked s) (hsingle : s.numFecBlocks ≤ 1)
    (h : FecHeader) {index : ℕ} (packet : Packet) (hslot : slotIndex s h = some index) :
    SlotsBooked (storePacket s h index packet) := by
  by_cases hsome : (s.slots index).isSome
  · rwa [storePacket_of_isSome h packet hsome]
  obtain ⟨hin, hlt⟩ := slotIndex_of_single hsingle hslot
  have hunmarked : s.receivedFromNetwork index = false := by
    rw [hs.marks]
    simpa using hsome
  obtain ⟨hsizes, hslots, hcount, -⟩ := storePacket_of_isNone h packet hsome
  obtain ⟨-, hmarks, -⟩ := storePacket_counts packet hsome hunmarked hlt h
  obtain ⟨hdata, hparity⟩ := storePacket_kinds packet hsome hunmarked hlt hsingle h
  have hreceived := receivedSlots_insert hin hsizes.totalPackets hslots
  have hnew : index ∉ receivedSlots s := by
    intro hmem
    exact hsome (mem_receivedSlots.mp hmem).2
  refine ⟨fun i => ?_, fun i hi => ?_, ?_, ?_, fun hframe => ?_⟩
  · rw [hmarks, hslots]
    by_cases hi : i = index
    · subst hi
      simp
    · rw [Function.update_of_ne hi, Function.update_of_ne hi]
      exact hs.marks i
  · rw [hsizes.totalPackets]
    rw [hslots] at hi
    by_cases heq : i = index
    · subst heq
      exact hin
    · rw [Function.update_of_ne heq] at hi
      exact hs.inFrame i hi
  · rw [hreceived, hsizes.dataPackets, card_filter_insert hnew, hdata, hs.data]
  · rw [hreceived, hsizes.dataPackets, card_filter_insert hnew, hparity, hs.parity]
  · rw [hsizes.currentFrame] at hframe
    rw [hreceived, Finset.card_insert_of_notMem hnew, hcount, hs.count hframe]

/-! ## Enough packets are enough parity packets -/

theorem card_eq_length {R : Finset ℕ} {l : List ℕ} (hl : l.Nodup)
    (hmem : ∀ i, i ∈ R ↔ i ∈ l) : R.card = l.length := by
  have hR : R = l.toFinset := by
    ext i
    rw [hmem, List.mem_toFinset]
  rw [hR, List.toFinset_card_of_nodup hl]

/-- A data packet is missing, or its slot is taken. -/
theorem missingDataPackets_add_card {s : Fec} (hle : s.dataPackets ≤ s.totalPackets) :
    missingDataPackets s + ((receivedSlots s).filter fun i => i < s.dataPackets).card =
      s.dataPackets := by
  have htaken : ((receivedSlots s).filter fun i => i < s.dataPackets).card =
      ((List.range s.dataPackets).filter fun i => !(s.slots i).isNone).length := by
    apply card_eq_length (List.nodup_range.filter _)
    intro i
    rw [Finset.mem_filter, mem_receivedSlots, List.mem_filter, List.mem_range,
      Option.not_isNone]
    constructor
    · rintro ⟨⟨-, hsome⟩, hlt⟩
      exact ⟨hlt, hsome⟩
    · rintro ⟨hlt, hsome⟩
      exact ⟨⟨by omega, hsome⟩, hlt⟩
  have hsplit := List.length_eq_length_filter_add (l := List.range s.dataPackets)
    fun i => (s.slots i).isNone
  rw [List.length_range] at hsplit
  rw [htaken, missingDataPackets, ← hsplit]

theorem parityReceived_eq_card (s : Fec) :
    parityReceived s = ((receivedSlots s).filter fun i => ¬i < s.dataPackets).card := by
  rw [parityReceived]
  symm
  apply card_eq_length
  · apply List.Nodup.filter
    exact List.nodup_range'
  intro i
  rw [Finset.mem_filter, mem_receivedSlots, List.mem_filter, List.mem_range'_1]
  constructor
  · rintro ⟨⟨hlt, hsome⟩, hge⟩
    exact ⟨⟨by omega, by omega⟩, hsome⟩
  · rintro ⟨⟨hge, hlt⟩, hsome⟩
    exact ⟨⟨by omega, hsome⟩, by omega⟩

/-- The packets of the frame that were received are its data packets, but for the
missing ones, and the parity packets. -/
theorem card_receivedSlots {s : Fec} (hle : s.dataPackets ≤ s.totalPackets) :
    (receivedSlots s).card + missingDataPackets s = s.dataPackets + parityReceived s := by
  have hmissing := missingDataPackets_add_card hle
  have hparity := parityReceived_eq_card s
  have hsplit := Finset.card_filter_add_card_filter_not (s := receivedSlots s)
    (p := fun i => i < s.dataPackets)
  omega

/-- An attempt that finds enough packets finds a parity packet for each of the data
packets that are missing. -/
theorem SlotsBooked.enoughParity {s : Fec} (hs : SlotsBooked s) (hsingle : s.numFecBlocks ≤ 1)
    (hle : s.dataPackets ≤ s.totalPackets) (hattempt : Attempted s)
    (henough : s.dataPackets ≤ s.receivedCount) :
    missingDataPackets s ≤ parityReceived s := by
  obtain ⟨-, hframe | hready⟩ := hattempt
  · have hcard := card_receivedSlots hle
    have hcount := hs.count hframe.1
    omega
  · -- The data packets are all there, also when no frame was opened.
    have hall : s.dataPackets ≤ s.receivedDataCount := by
      rw [frameReady, if_pos hsingle] at hready
      simpa using hready
    have hmissing := missingDataPackets_add_card hle
    have hdata := hs.data
    omega

/-! ## No frame is dropped for too few parity packets -/

/-- The event of the exit that no attempt takes. -/
def FecEvent.isShortage : FecEvent → Bool
  | .dropped _ .insufficientParity _ _ => true
  | _ => false

/-- No event of the log is from that exit. -/
def NoShortage (out : List FecEvent) : Prop :=
  ∀ e ∈ out, e.isShortage = false

theorem NoShortage.append {out later : List FecEvent} (hout : NoShortage out)
    (hlater : ∀ e ∈ later, e.isShortage = false) : NoShortage (out ++ later) := by
  intro e he
  rcases List.mem_append.mp he with he | he
  · exact hout e he
  · exact hlater e he

theorem NoShortage.snoc {out : List FecEvent} {e : FecEvent} (hout : NoShortage out)
    (he : e.isShortage = false) : NoShortage (out ++ [e]) := by
  apply hout.append
  simpa using he

theorem noShortage_dropCurrentFrameStrict (env : FecEnv) {s : Fec}
    (hs : NoShortage s.out) {reason : DropReason} (hreason : reason ≠ .insufficientParity)
    (missing : ℕ) (before : List Request) :
    NoShortage (dropCurrentFrameStrict env s reason missing before).out := by
  apply hs.append
  intro e he
  rw [List.mem_cons, List.mem_singleton] at he
  rcases he with rfl | rfl
  · rfl
  · cases reason with
    | insufficientParity => exact absurd rfl hreason
    | _ => rfl

theorem noShortage_submitFramePackets (env : FecEnv) {s : Fec} (hs : NoShortage s.out) :
    NoShortage (submitFramePackets env s).out := by
  have hprepared : NoShortage (s.emit (.prepare s.currentFrame)).out := hs.snoc rfl
  rw [submitFramePackets, submitSlots]
  split
  · exact hprepared.snoc rfl
  · split
    · exact noShortage_dropCurrentFrameStrict env hprepared DropReason.noConfusion _ _
    · exact hprepared.snoc rfl

theorem noShortage_attemptMultiBlock (env : FecEnv) {s : Fec} (hshape : Shaped s)
    (hs : NoShortage s.out) :
    NoShortage (attemptMultiBlockRecoveryAndSubmit env s).out := by
  have hscan : NoShortage (scanBlocks env.config s).s.out := by
    rw [(scanBlocks_spec env.config hshape).1.out]
    exact hs
  rw [attemptMultiBlockRecoveryAndSubmit]
  split
  · apply noShortage_dropCurrentFrameStrict env hscan
    split <;> exact DropReason.noConfusion
  · exact noShortage_submitFramePackets env (hscan.snoc rfl)

theorem noShortage_finishFrame (env : FecEnv) {s : Fec} (hs : NoShortage s.out)
    (missing : ℕ) (o : SharedRs × Option Reconstruction) :
    NoShortage (finishFrame env s missing o).out := by
  rcases o with ⟨rs, _ | r⟩
  · exact noShortage_dropCurrentFrameStrict env (s := s.setRs rs) hs
      DropReason.noConfusion _ _
  simp only [finishFrame]
  have hrequeued : NoShortage (requeueFrame env.config (s.setRs rs) (frameMarks s) r.shards
      (fecRecoverySymbolSize env.config)).s.out := by
    have hout := (requeueFrame_spec env.config (s.setRs rs) r.shards).2.1
    rw [show frameMarks s = frameMarks (s.setRs rs) from rfl, hout]
    exact hs
  split
  · split
    · exact noShortage_dropCurrentFrameStrict env (hrequeued.snoc rfl)
        DropReason.noConfusion _ _
    · exact noShortage_submitFramePackets env (hrequeued.snoc rfl)
  · exact noShortage_dropCurrentFrameStrict env (s := (s.setRs rs).emit _) (hs.snoc rfl)
      DropReason.noConfusion _ _

theorem noShortage_attemptSingleBlock (env : FecEnv) {s : Fec} (hs : NoShortage s.out)
    (hparity : s.dataPackets ≤ s.receivedCount →
      missingDataPackets s ≤ parityReceived s) :
    NoShortage (attemptSingleBlock env s).out := by
  rw [attemptSingleBlock]
  split
  · exact noShortage_submitFramePackets env hs
  simp only
  split
  · apply noShortage_submitFramePackets env
    exact hs.snoc rfl
  split
  · exact hs.snoc rfl
  · rename_i henough
    rw [if_neg]
    · exact noShortage_finishFrame env (s := s.setCounters 0 0) hs _ _
    · apply Nat.not_lt.mpr
      exact hparity (Nat.le_of_not_lt henough)

theorem noShortage_attempt (env : FecEnv) {s : Fec} (hinv : FecInv s)
    (hkept : 0 < s.receivedCount) (hattempt : Attempted s)
    (hbooked : s.numFecBlocks ≤ 1 → SlotsBooked s) (hs : NoShortage s.out) :
    NoShortage (attemptRecoveryAndSubmit env s).out := by
  have hshape := hinv.shaped hkept
  rw [attemptRecoveryAndSubmit]
  split
  · exact noShortage_attemptMultiBlock env hshape hs
  · rename_i hmany
    have hsingle := Nat.le_of_not_lt hmany
    apply noShortage_attemptSingleBlock env hs
    intro henough
    exact (hbooked hsingle).enoughParity hsingle hshape.data_le hattempt henough

/-! ## Wherever the layer is -/

/-- The marks are in the books. -/
structure Tallies (s : Fec) (c : Books) : Prop where
  count : c.networkReceivedCount = networkReceivedCount s
  highest : c.highestReceivedIndex = highestReceivedIndex s

theorem Tallies.of_same {s t : Fec} {c : Books} (hs : Tallies s c)
    (hmarks : t.receivedFromNetwork = s.receivedFromNetwork) : Tallies t c where
  count := by
    rw [hs.count, networkReceivedCount, networkReceivedCount, networkReceived,
      networkReceived, hmarks]
  highest := by
    rw [hs.highest, highestReceivedIndex, highestReceivedIndex, networkReceived,
      networkReceived, hmarks]

theorem tallies_cleared {s : Fec} (hmarks : ∀ i, s.receivedFromNetwork i = false) :
    Tallies s .cleared where
  count := by
    rw [networkReceivedCount, networkReceived_eq_empty hmarks]
    rfl
  highest := by
    rw [highestReceivedIndex, networkReceived_eq_empty hmarks]
    rfl

theorem Tallies.mark {s : Fec} {c : Books} (hs : Tallies s c) (index : ℕ) (isData : Bool) :
    Tallies (markFramePacketReceived s index isData) (c.mark s index) := by
  have hmark := markFramePacketReceived_statics s index isData
  rw [Books.mark]
  simp only at hmark
  split at hmark
  · rename_i hold
    rw [if_pos hold, hmark]
    exact hs
  · rename_i hnew
    rw [if_neg hnew]
    obtain ⟨hcount, hhighest⟩ := hmark
    constructor
    · rw [hcount, hs.count]
    · rw [hhighest, hs.count, hs.highest]

theorem Tallies.store {s : Fec} {c : Books} (hs : Tallies s c) (h : FecHeader) (index : ℕ)
    (packet : Packet) : Tallies (storePacket s h index packet) (c.store s index) := by
  rw [Books.store, storePacket]
  split
  · exact hs
  · have hfilled : Tallies (fillSlot s index packet) c := hs.of_same rfl
    have hmarked := hfilled.mark index (isDataPacket (fillSlot s index packet) h index)
    apply hmarked.of_same
    rw [countForBlock]
    split <;> rfl

/-- What holds wherever the layer is. -/
structure Sound (s : Fec) (c : Books) : Prop where
  inv : FecInv s
  tallies : Tallies s c
  booked : s.numFecBlocks ≤ 1 → s.frameSubmitted = false → SlotsBooked s
  noShortage : NoShortage s.out

theorem registerBlock_of_single {s : Fec} (hsingle : s.numFecBlocks ≤ 1) (h : FecHeader) :
    registerBlock s h = s := by
  rw [registerBlock, if_neg]
  rintro ⟨hmany, -⟩
  omega

theorem registerBlock_keeps (s : Fec) (h : FecHeader) :
    (registerBlock s h).numFecBlocks = s.numFecBlocks ∧
      (registerBlock s h).receivedFromNetwork = s.receivedFromNetwork ∧
      (registerBlock s h).out = s.out := by
  rw [registerBlock]
  split <;> exact ⟨rfl, rfl, rfl⟩

theorem Sound.attempt {s : Fec} {c : Books} (hs : Sound s c) (env : FecEnv)
    (hattempt : Attempted s) (hkept : 0 < s.receivedCount) :
    Sound (attemptRecoveryAndSubmit env s) c where
  inv := fecInv_step (.conclude env hattempt.1 (.inl hkept)) hs.inv
  tallies := hs.tallies.of_same (hs.inv.concluded env (.inl hkept)).same.receivedFromNetwork
  booked := by
    intro _ hopen
    rw [(hs.inv.concluded env (.inl hkept)).submitted] at hopen
    exact Bool.noConfusion hopen
  noShortage := by
    apply noShortage_attempt env hs.inv hkept hattempt
    · intro hsingle
      exact hs.booked hsingle hattempt.1
    · exact hs.noShortage

theorem Sound.store {s : Fec} {c : Books} (hs : Sound s c) {packet : Packet} {h : FecHeader}
    (hh : Taken packet h) {index : ℕ} (hslot : slotIndex s h = some index) :
    Sound (storePacket s h index packet) (c.store s index) where
  inv := fecInv_storePacket hs.inv hh hslot
  tallies := hs.tallies.store h index packet
  booked := by
    intro hsingle hopen
    have hsizes := storePacket_sizes s h index packet
    rw [hsizes.numFecBlocks] at hsingle
    rw [hsizes.frameSubmitted] at hopen
    exact (hs.booked hsingle hopen).store hsingle h packet hslot
  noShortage := by
    by_cases hsome : (s.slots index).isSome
    · rw [storePacket_of_isSome h packet hsome]
      exact hs.noShortage
    · rw [(storePacket_of_isNone h packet hsome).2.2.2]
      exact hs.noShortage.snoc rfl

theorem fecInv_init {s : Fec} (hs : FecInv s) : FecInv (rtpFecInit s) where
  shape := by
    rcases hs.shape with hblank | hshape
    · exact .inl ⟨rfl, hblank.dataPackets, hblank.totalPackets, hblank.receivedCount,
        hblank.numFecBlocks, fun _ => rfl⟩
    · exact .inr ⟨hshape.data_pos, hshape.data_le, hshape.total_le, hshape.blocks_pos,
        hshape.blocks_le, hshape.base, hshape.max, hshape.block_le⟩
  hold := by
    intro i p hp
    cases hp
  counted := by
    intro i hi
    cases hi

/-- Each step keeps the books. -/
theorem Visited.sound {s : Fec} {c : Books} (hs : Visited s c) : Sound s c := by
  induction hs with
  | initial =>
      refine ⟨fecInv_initial, tallies_cleared fun _ => rfl, fun _ _ => ?_, ?_⟩
      · exact slotsBooked_of_none (fun _ => rfl) (fun _ => rfl) rfl rfl fun _ => rfl
      · intro e he
        cases he
  | @conclude env s c _ ih =>
      rcases concludeFrame_eq env s with hsame | ⟨hattempt, hkept, hends⟩
      · rwa [hsame]
      · rw [hends]
        exact ih.attempt env hattempt hkept
  | @enter packet h hh s c hnew _ ih =>
      refine ⟨?_, tallies_cleared fun _ => rfl, fun _ _ => ?_, ih.noShortage.snoc rfl⟩
      · refine ⟨.inr (shaped_openFrame hh s), ?_, ?_⟩
        · intro i p hp
          cases hp
        · intro i hi
          cases hi
      · exact slotsBooked_of_none (fun _ => rfl) (fun _ => rfl) rfl rfl fun _ => rfl
  | @register packet h hh s c _ ih =>
      obtain ⟨hblocks, hmarks, hout⟩ := registerBlock_keeps s h
      refine ⟨fecInv_step (.register hh) ih.inv, ih.tallies.of_same hmarks, ?_, ?_⟩
      · intro hsingle
        rw [hblocks] at hsingle
        rw [registerBlock_of_single hsingle]
        exact ih.booked hsingle
      · rw [hout]
        exact ih.noShortage
  | @store packet h hh s c index hslot _ ih => exact ih.store hh hslot
  | @submit env s c index hstored _ ih =>
      rcases submitIfReady_eq env s with hsame | ⟨hattempt, hends⟩
      · rwa [hsame]
      · rw [hends]
        exact ih.attempt env hattempt (ih.inv.counted index hstored)
  | @late frame replayed s c _ ih =>
      refine ⟨fecInv_step (.late frame replayed) ih.inv, ih.tallies.of_same rfl, ?_,
        ih.noShortage.snoc rfl⟩
      intro hsingle hopen
      obtain ⟨hmarks, hin, hdata, hparity, hcount⟩ := ih.booked hsingle hopen
      exact ⟨hmarks, hin, hdata, hparity, hcount⟩
  | @queue deferred s c _ ih =>
      refine ⟨fecInv_step (.queue deferred) ih.inv, ih.tallies.of_same rfl, ?_,
        ih.noShortage⟩
      intro hsingle hopen
      obtain ⟨hmarks, hin, hdata, hparity, hcount⟩ := ih.booked hsingle hopen
      exact ⟨hmarks, hin, hdata, hparity, hcount⟩
  | @audio rs s c _ ih =>
      refine ⟨ih.inv.of_same (.setRs s rs) rfl, ih.tallies.of_same rfl, ?_, ih.noShortage⟩
      intro hsingle hopen
      obtain ⟨hmarks, hin, hdata, hparity, hcount⟩ := ih.booked hsingle hopen
      exact ⟨hmarks, hin, hdata, hparity, hcount⟩
  | @reset s c _ ih =>
      refine ⟨fecInv_reset, tallies_cleared fun _ => rfl, fun _ _ => ?_,
        ih.noShortage.snoc rfl⟩
      exact slotsBooked_of_none (fun _ => rfl) (fun _ => rfl) rfl rfl fun _ => rfl
  | @init s c _ ih =>
      refine ⟨fecInv_init ih.inv, tallies_cleared fun _ => rfl, fun _ _ => ?_,
        ih.noShortage⟩
      apply slotsBooked_of_none (fun _ => rfl) (fun _ => rfl) rfl rfl
      intro hframe
      exact absurd rfl hframe

/-! ## Calls -/

/-- What happens to the layer, its start included. -/
inductive FecCall where
  | input (i : FecInput)
  | init

/-- One call. -/
def Fec.call (s : Fec) : FecCall → Option Fec
  | .input i => s.step i
  | .init => some (rtpFecInit s)

/-- A run of the layer in which it is started more than once. -/
def Fec.calls (s : Fec) : List FecCall → Option Fec
  | [] => some s
  | i :: rest => (s.call i).bind fun s => s.calls rest

section

variable {env : FecEnv} {s t : Fec} {packet : Packet} {h : FecHeader} {fuel : ℕ}
  {r : Bool × Fec}

theorem visited_enterFrame (hs : ∃ c, Visited s c) (env : FecEnv) (hh : Taken packet h) :
    ∃ c, Visited (enterFrame env s h) c := by
  obtain ⟨c, hc⟩ := hs
  rw [enterFrame]
  split
  · rename_i hnew
    rw [← concludeFrame_currentFrame env hc.sound.inv] at hnew
    exact ⟨_, .enter hh hnew (.conclude env hc)⟩
  · exact ⟨c, hc⟩

theorem visited_placePacket (hs : ∃ c, Visited s c) (env : FecEnv) (hh : Taken packet h) :
    ∃ c, Visited (placePacket env s h packet).2 c := by
  obtain ⟨c, hc⟩ := hs
  rw [placePacket]
  split
  · exact ⟨c, .register hh hc⟩
  · rename_i index hslot
    have hstored := storePacket_isSome (registerBlock s h) h index packet
    exact ⟨_, .submit env hstored (.store hh hslot (.register hh hc))⟩

theorem visited_replayPacket (hs : ∃ c, Visited s c) (env : FecEnv) (packet : Packet) :
    ∃ c, Visited (replayPacket env s packet).2 c := by
  rw [replayPacket]
  split
  · exact hs
  · obtain ⟨c, hc⟩ := hs
    exact ⟨c, .late _ _ hc⟩
  · exact hs
  · rename_i h hscreen
    have hh := (screenPacket_taken hscreen).1
    exact visited_placePacket (visited_enterFrame hs env hh) env hh

theorem visited_drain (hs : ∃ c, Visited s c)
    (ht : drainDeferredCabacPackets env fuel s = some t) : ∃ c, Visited t c := by
  apply drain_invariant (fun s => ∃ c, Visited s c) ?_ ?_ hs ht
  · rintro u ⟨c, hc⟩
    exact ⟨c, .queue _ hc⟩
  · rintro u front rest ⟨c, hc⟩ - -
    exact visited_replayPacket ⟨c, .queue rest hc⟩ env front

theorem visited_transition (hs : ∃ c, Visited s c) (hh : Taken packet h)
    (hr : processFrameTransition env h packet fuel s = some r) : ∃ c, Visited r.2 c := by
  induction fuel generalizing s with
  | zero =>
      rw [processFrameTransition] at hr
      cases hr
  | succ fuel ih =>
      cases passed_of_eq hr with
      | deferred hwaits hdefer =>
          obtain ⟨c, hc⟩ := hs
          obtain ⟨rfl, -, -⟩ := deferCabacNewerPacket_eq_some hdefer
          exact ⟨c, .queue _ hc⟩
      | refused hwaits hrefused hdrain hr =>
          obtain ⟨c, hc⟩ := hs
          exact ih (visited_drain ⟨c, .conclude env hc⟩ hdrain) hr
      | placed hgoes => exact visited_placePacket (visited_enterFrame hs env hh) env hh

theorem visited_arrivingPacket (hs : ∃ c, Visited s c)
    (hr : arrivingPacket env s packet = some r) : ∃ c, Visited r.2 c := by
  cases arrived_of_eq hr with
  | bypass hscreen => exact hs
  | stale frame hscreen =>
      obtain ⟨c, hc⟩ := hs
      exact ⟨c, .late frame false hc⟩
  | junk hscreen => exact hs
  | taken h hscreen hr => exact visited_transition hs (screenPacket_taken hscreen).1 hr

end

theorem visited_call {s : Fec} (hs : ∃ c, Visited s c) (i : FecCall) :
    ∃ t, s.call i = some t ∧ ∃ c, Visited t c := by
  obtain ⟨c, hc⟩ := hs
  cases i with
  | init => exact ⟨_, rfl, _, .init hc⟩
  | input i =>
      cases i with
      | packet env packet =>
          obtain ⟨r, hr, -⟩ := rtpFecAddPacket_spec env hc.sound.inv packet
          obtain ⟨t, o, v, hfirst, harrive, hlast, rfl⟩ := exists_of_rtpFecAddPacket hr
          refine ⟨v, ?_, visited_drain (visited_arrivingPacket
            (visited_drain ⟨c, hc⟩ hfirst) harrive) hlast⟩
          rw [Fec.call, Fec.step, hr]
          rfl
      | audio block => exact ⟨_, rfl, _, .audio _ hc⟩
      | reset => exact ⟨_, rfl, _, .reset hc⟩

/-- Every run has an end, and the layer was there. -/
theorem visited_calls (calls : List FecCall) {s : Fec} (hs : ∃ c, Visited s c) :
    ∃ t, s.calls calls = some t ∧ ∃ c, Visited t c := by
  induction calls generalizing s with
  | nil => exact ⟨s, rfl, hs⟩
  | cons i rest ih =>
      obtain ⟨t, ht, hc⟩ := visited_call hs i
      obtain ⟨u, hu, hd⟩ := ih hc
      refine ⟨u, ?_, hd⟩
      rw [Fec.calls, ht]
      exact hu

/-! ## The books balance -/

theorem FecInv.total_le {s : Fec} (hs : FecInv s) :
    s.dataPackets ≤ s.totalPackets ∧ s.totalPackets ≤ fecMaxPackets := by
  rcases hs.shape with hblank | hshape
  · rw [hblank.dataPackets, hblank.totalPackets]
    exact ⟨le_rfl, Nat.zero_le _⟩
  · exact ⟨hshape.data_le, hshape.total_le⟩

theorem SlotsBooked.balanced {s : Fec} {c : Books} (hs : SlotsBooked s) (hc : Tallies s c)
    (htotal : s.totalPackets ≤ fecMaxPackets) (hframe : s.currentFrame ≠ noFrame) :
    Balanced s c where
  receivedCount := hs.count hframe
  networkReceivedCount := by
    rw [hc.count, networkReceivedCount, networkReceived_eq hs.marks hs.inFrame htotal]
  byKind := by
    rw [hs.data, hs.parity]
    exact Finset.card_filter_add_card_filter_not (fun i => i < s.dataPackets)
  inFrame := by
    intro i hi
    cases hslot : s.slots i with
    | none => rfl
    | some p =>
        have hlt := hs.inFrame i (by rw [hslot]; rfl)
        omega
  highest := by
    intro hne
    rw [hc.highest, highestReceivedIndex, networkReceived_eq hs.marks hs.inFrame htotal]
    constructor
    · obtain ⟨i, hi, hsup⟩ := Finset.exists_mem_eq_sup _ hne id
      rw [hsup]
      exact hi
    · intro i hi
      exact Finset.le_sup (f := id) hi

/-- Wherever the layer is: the books of an open frame in one block balance, an
attempt with enough packets finds enough parity packets, and no frame was dropped
for too few of them. -/
theorem books_balance {s : Fec} {c : Books} (hs : Visited s c) :
    (s.numFecBlocks ≤ 1 → s.frameSubmitted = false → s.currentFrame ≠ noFrame →
      Balanced s c) ∧
    (s.numFecBlocks ≤ 1 → Attempted s → s.dataPackets ≤ s.receivedCount →
      missingDataPackets s ≤ parityReceived s) ∧
    ∀ frame missing requests,
      .dropped frame .insufficientParity missing requests ∉ s.out := by
  have hsound := hs.sound
  obtain ⟨hdata, htotal⟩ := hsound.inv.total_le
  refine ⟨?_, ?_, ?_⟩
  · intro hsingle hopen hframe
    exact (hsound.booked hsingle hopen).balanced hsound.tallies htotal hframe
  · intro hsingle hattempt henough
    exact (hsound.booked hsingle hattempt.1).enoughParity hsingle hdata hattempt henough
  · intro frame missing requests hmem
    exact Bool.noConfusion (hsound.noShortage _ hmem)

/-- A frame of two data packets and a parity packet, with the first packet. -/
def firstReceived : Fec :=
  storePacket (openFrame Fec.initial ⟨0, 7, 2, 0, 1, 3, 0, 1⟩)
    ⟨0, 7, 2, 0, 1, 3, 0, 1⟩ 0 (barePacket 0 7 0 2 0 50)

/-- The second packet was lost. -/
def parityInstead : Fec :=
  storePacket firstReceived ⟨2, 7, 2, 2, 1, 3, 0, 1⟩ 2 (barePacket 2 7 0 2 2 50)

theorem visited_parityInstead : Visited parityInstead ⟨2, 2⟩ := by
  have hfirst : screenPacket (sampleEnv 0).config noFrame (barePacket 0 7 0 2 0 50) =
      .taken ⟨0, 7, 2, 0, 1, 3, 0, 1⟩ := rfl
  have hparity : screenPacket (sampleEnv 0).config noFrame (barePacket 2 7 0 2 2 50) =
      .taken ⟨2, 7, 2, 2, 1, 3, 0, 1⟩ := rfl
  have hfirst := (screenPacket_taken hfirst).1
  have hopened := Visited.enter hfirst (by decide) .initial
  exact .store (screenPacket_taken hparity).1 rfl (.store hfirst rfl hopened)

theorem books_balance_parityInstead :
    Balanced parityInstead ⟨2, 2⟩ ∧
      missingDataPackets parityInstead ≤ parityReceived parityInstead ∧
      .dropped 7 .insufficientParity 1 [] ∉ parityInstead.out := by
  obtain ⟨hbalanced, hparity, hout⟩ := books_balance visited_parityInstead
  exact ⟨hbalanced (by decide) (by decide) (by decide),
    hparity (by decide) ⟨by decide, .inl (by decide)⟩ (by decide), hout 7 1 []⟩

end MoonlightPsp.RtpFec
