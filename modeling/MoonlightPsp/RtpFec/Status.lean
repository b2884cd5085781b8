import Mathlib.Data.Finset.Max
import Mathlib.Order.Lattice.Nat
import MoonlightPsp.RtpFec.Collecting

/-!
# The FEC layer: what the server is told of a frame

Two functions work out the status of a frame.  `update_fec_status_cache` goes by
the packets that are marked as received from the network, `submit_frame_packets`
by their number only.  For a frame in one block that is submitted, they never
come to the same.

`g_network_received_count` and `g_highest_received_index` are not kept in the
state; they are read off the marks, and change with them as in the source.
-/

namespace MoonlightPsp.RtpFec

open ReedSolomon

/-! ## The model -/

/-- The slots that are marked as received from the network. -/
def networkReceived (s : Fec) : Finset ℕ :=
  (Finset.range fecMaxPackets).filter fun i => s.receivedFromNetwork i

/-- `g_network_received_count`. -/
def networkReceivedCount (s : Fec) : ℕ := (networkReceived s).card

/-- `g_highest_received_index`. -/
def highestReceivedIndex (s : Fec) : ℕ := (networkReceived s).sup id

/-- `g_fec_last_highest_seq` and the other values that are cached with it, but
for the percentage. -/
structure FecStatus where
  highestSeq : UInt16
  nextContigSeq : UInt16
  missingBeforeHighest : UInt16
  dataPkts : UInt16
  parityPkts : UInt16
  recvData : UInt16
  recvParity : UInt16

/-- The `scan_limit` in `update_fec_status_cache`. -/
def scanLimit (s : Fec) : ℕ :=
  let limit :=
    if s.totalPackets = 0 ∨ s.totalPackets > fecMaxPackets then fecMaxPackets
    else s.totalPackets
  if networkReceivedCount s > 0 ∧ highestReceivedIndex s + 1 > limit then
    highestReceivedIndex s + 1
  else limit

/-- The first slot below the limit that is not marked, or else the limit. -/
def nextIndex (s : Fec) : ℕ :=
  ((List.range (scanLimit s)).takeWhile fun i => s.receivedFromNetwork i).length

/-- The slots below the highest one that are not marked. -/
def missingBelowHighest (s : Fec) : ℕ :=
  ((List.range (min (highestReceivedIndex s) (scanLimit s))).filter fun i =>
    !s.receivedFromNetwork i).length

/-- `update_fec_status_cache`. -/
def updateFecStatusCache (s : Fec) : FecStatus :=
  let received := networkReceivedCount s > 0
  let missing := if received then missingBelowHighest s else 0
  { highestSeq :=
      if received then s.lowestSeq + UInt16.ofNat (highestReceivedIndex s)
      else s.lowestSeq
    nextContigSeq :=
      if received then s.lowestSeq + UInt16.ofNat (nextIndex s)
      else s.lowestSeq
    missingBeforeHighest := UInt16.ofNat (min missing 0xFFFF)
    dataPkts := UInt16.ofNat s.dataPackets
    parityPkts := UInt16.ofNat s.parityPackets
    recvData := UInt16.ofNat s.receivedDataCount
    recvParity := UInt16.ofNat s.receivedParityCount }

/-- The status that `submit_frame_packets` caches and sends. -/
def submitStatus (s : Fec) : FecStatus where
  highestSeq :=
    if s.receivedCount > 0 then
      s.lowestSeq + UInt16.ofNat (s.receivedCount - 1)
    else s.lowestSeq
  nextContigSeq :=
    if s.dataPackets > 0 then s.lowestSeq + UInt16.ofNat (s.dataPackets - 1)
    else s.lowestSeq
  missingBeforeHighest := 0
  dataPkts := UInt16.ofNat s.dataPackets
  parityPkts := UInt16.ofNat s.parityPackets
  recvData := UInt16.ofNat (min s.receivedCount s.dataPackets)
  recvParity := UInt16.ofNat (s.receivedCount - s.dataPackets)

/-- The values that tell what was received are the same. -/
structure FecStatus.Agrees (a b : FecStatus) : Prop where
  highestSeq : a.highestSeq = b.highestSeq
  nextContigSeq : a.nextContigSeq = b.nextContigSeq
  recvData : a.recvData = b.recvData
  recvParity : a.recvParity = b.recvParity

/-- The states that a run goes through, also in the middle of a call. -/
inductive Reachable : Fec → Prop where
  | initial : Reachable Fec.initial
  | step {s t : Fec} (hs : Reachable s) (hst : FecStep s t) : Reachable t
  | audio {s : Fec} (rs : SharedRs) (hs : Reachable s) : Reachable (s.setRs rs)
  | reset {s : Fec} (hs : Reachable s) : Reachable (rtpFecReset s)

/-! ## Marks -/

theorem mem_networkReceived {s : Fec} {i : ℕ} :
    i ∈ networkReceived s ↔ i < fecMaxPackets ∧ s.receivedFromNetwork i = true := by
  simp [networkReceived]

theorem networkReceived_insert {s t : Fec} {index : ℕ}
    (hlt : index < fecMaxPackets) (ht : t.receivedFromNetwork =
      Function.update s.receivedFromNetwork index true) :
    networkReceived t = insert index (networkReceived s) := by
  ext i
  rw [Finset.mem_insert, mem_networkReceived, mem_networkReceived, ht]
  by_cases hi : i = index
  · subst hi
    simp [hlt]
  · simp [hi]

/-- A new mark counts, and becomes the highest one if it is the first or higher
than the others. -/
theorem markFramePacketReceived_statics (s : Fec) (index : ℕ) (isData : Bool) :
    let t := markFramePacketReceived s index isData
    if index ≥ fecMaxPackets ∨ s.receivedFromNetwork index = true then t = s
    else networkReceivedCount t = networkReceivedCount s + 1 ∧
      highestReceivedIndex t =
        if networkReceivedCount s = 0 ∨ index > highestReceivedIndex s then index
        else highestReceivedIndex s := by
  simp only [markFramePacketReceived]
  split
  · rfl
  · rename_i hnew
    simp only [not_or, Bool.not_eq_true] at hnew
    obtain ⟨hlt, hnot⟩ := hnew
    have hinsert (t : Fec) (ht : t.receivedFromNetwork =
        Function.update s.receivedFromNetwork index true) :
        networkReceived t = insert index (networkReceived s) :=
      networkReceived_insert (Nat.lt_of_not_le hlt) ht
    have hfresh : index ∉ networkReceived s := by
      simp [mem_networkReceived, hnot]
    constructor
    · rw [networkReceivedCount, hinsert _ rfl,
        Finset.card_insert_of_notMem hfresh, networkReceivedCount]
    · rw [highestReceivedIndex, hinsert _ rfl, Finset.sup_insert, id,
        ← highestReceivedIndex]
      split
      · rename_i hfirst
        rcases hfirst with hnone | habove
        · rw [highestReceivedIndex, Finset.card_eq_zero.mp hnone,
            Finset.sup_empty]
          exact sup_bot_eq index
        · exact sup_eq_left.mpr habove.le
      · rename_i hbelow
        simp only [not_or, Nat.not_lt] at hbelow
        exact sup_eq_right.mpr hbelow.2

/-- The marks of a frame in one block: the slots that are taken, so many as were
received. -/
structure Marked (s : Fec) : Prop where
  slots : ∀ i, s.receivedFromNetwork i = (s.slots i).isSome
  lt : ∀ i, s.receivedFromNetwork i = true → i < s.totalPackets
  count : s.receivedCount = networkReceivedCount s

theorem networkReceived_eq_empty {s : Fec}
    (hmarks : ∀ i, s.receivedFromNetwork i = false) :
    networkReceived s = ∅ := by
  simp [networkReceived, hmarks]

theorem marked_of_none {s : Fec} (hmarks : ∀ i, s.receivedFromNetwork i = false)
    (hslots : ∀ i, s.slots i = none) (hcount : s.receivedCount = 0) :
    Marked s where
  slots := fun i => by simp [hmarks, hslots]
  lt := fun i hi => by simp [hmarks] at hi
  count := by rw [hcount, networkReceivedCount, networkReceived_eq_empty hmarks,
    Finset.card_empty]

/-- In a frame in one block a packet has a slot if it is one of the frame's. -/
theorem slotIndex_of_single {s : Fec} (hsingle : s.numFecBlocks ≤ 1)
    {h : FecHeader} {index : ℕ} (hslot : slotIndex s h = some index) :
    index < s.totalPackets ∧ index < fecMaxPackets := by
  rw [slotIndex] at hslot
  simp only [if_neg (Nat.not_lt.mpr hsingle)] at hslot
  obtain ⟨hsome, hroom⟩ := Option.filter_eq_some_iff.mp hslot
  split at hsome
  · cases hsome
  · rename_i hin
    obtain rfl := Option.some.inj hsome
    exact ⟨Nat.lt_of_not_le hin, by simpa using hroom⟩

/-- A packet that is stored is marked. -/
theorem Marked.store {s : Fec} (hs : Marked s) (hsingle : s.numFecBlocks ≤ 1)
    (h : FecHeader) {index : ℕ} (packet : Packet)
    (hslot : slotIndex s h = some index) :
    Marked (storePacket s h index packet) := by
  by_cases hsome : (s.slots index).isSome
  · rwa [storePacket_of_isSome h packet hsome]
  obtain ⟨hindex, hlt⟩ := slotIndex_of_single hsingle hslot
  have hnew : s.receivedFromNetwork index = false := by
    rw [hs.slots]
    simpa using hsome
  obtain ⟨-, hmarks, -⟩ := storePacket_counts packet hsome hnew hlt h
  obtain ⟨hsizes, hslots, hcount, -⟩ := storePacket_of_isNone h packet hsome
  refine ⟨fun i => ?_, fun i hi => ?_, ?_⟩
  · rw [hmarks, hslots]
    by_cases hi : i = index
    · subst hi
      simp
    · rw [Function.update_of_ne hi, Function.update_of_ne hi]
      exact hs.slots i
  · rw [hsizes.totalPackets]
    rw [hmarks] at hi
    by_cases heq : i = index
    · subst heq
      exact hindex
    · rw [Function.update_of_ne heq] at hi
      exact hs.lt i hi
  · have hmark := markFramePacketReceived_statics s index true
    rw [if_neg (by simp [hnew, hlt])] at hmark
    have hsame : networkReceivedCount (storePacket s h index packet) =
        networkReceivedCount (markFramePacketReceived s index true) := by
      rw [networkReceivedCount, networkReceivedCount, networkReceived,
        networkReceived, hmarks, markFramePacketReceived,
        if_neg (by simp [hnew, hlt])]
    rw [hcount, hs.count, hsame, hmark.1]

theorem Reachable.inv {s : Fec} (hs : Reachable s) :
    FecInv s ∧ (s.numFecBlocks ≤ 1 → s.frameSubmitted = false → Marked s) := by
  induction hs with
  | initial =>
      exact ⟨fecInv_initial, fun _ _ =>
        marked_of_none (fun _ => rfl) (fun _ => rfl) rfl⟩
  | @step s t hs hst ih =>
      obtain ⟨hinv, hmarked⟩ := ih
      refine ⟨fecInv_step hst hinv, fun hsingle hopen => ?_⟩
      cases hst with
      | conclude env _ hkept =>
          rw [(hinv.concluded env hkept).submitted] at hopen
          exact Bool.noConfusion hopen
      | enter => exact marked_of_none (fun _ => rfl) (fun _ => rfl) rfl
      | register hh =>
          rename_i packet h
          have hnum : (registerBlock s h).numFecBlocks = s.numFecBlocks := by
            rw [registerBlock]
            split <;> rfl
          rw [hnum] at hsingle
          have hsame : registerBlock s h = s :=
            if_neg fun hmany => absurd hmany.1 (Nat.not_lt.mpr hsingle)
          rw [hsame] at hopen ⊢
          exact hmarked hsingle hopen
      | store hh hslot =>
          rename_i packet h index
          have hsizes := storePacket_sizes s h index packet
          rw [hsizes.numFecBlocks] at hsingle
          rw [hsizes.frameSubmitted] at hopen
          exact (hmarked hsingle hopen).store hsingle h packet hslot
      | late frame replayed =>
          obtain ⟨hslots, hlt, hcount⟩ := hmarked hsingle hopen
          exact ⟨hslots, hlt, hcount⟩
      | queue deferred =>
          obtain ⟨hslots, hlt, hcount⟩ := hmarked hsingle hopen
          exact ⟨hslots, hlt, hcount⟩
  | @audio s rs hs ih =>
      refine ⟨ih.1.of_same (.setRs s rs) rfl, fun hsingle hopen => ?_⟩
      obtain ⟨hslots, hlt, hcount⟩ := ih.2 hsingle hopen
      exact ⟨hslots, hlt, hcount⟩
  | reset hs ih =>
      exact ⟨fecInv_reset, fun _ _ =>
        marked_of_none (fun _ => rfl) (fun _ => rfl) rfl⟩

/-! ## What does not agree -/

/-- A frame in one block is only submitted if as many packets came in as it has
data packets. -/
theorem dataPackets_le_of_submitted {s : Fec} (hs : Marked s)
    (hshape : Shaped s) (hsingle : s.numFecBlocks ≤ 1) {env : FecEnv}
    {sub : Submission} {new : List FecEvent}
    (hout : (attemptRecoveryAndSubmit env s).out = s.out ++ new)
    (hsub : .submitted sub ∈ new) : s.dataPackets ≤ s.receivedCount := by
  have hdata := hshape.data_pos
  have hle := hshape.data_le
  have htotal := hshape.total_le
  by_contra hfew
  have hmissing : missingDataPackets s ≠ 0 := by
    intro hzero
    have hfilled := filled_of_missing_eq_zero (Nat.not_lt.mpr hsingle) hzero
    rw [Filled, if_neg (Nat.not_lt.mpr hsingle)] at hfilled
    have hsubset : Finset.range s.dataPackets ⊆ networkReceived s := by
      intro i hi
      have hlt := Finset.mem_range.mp hi
      rw [mem_networkReceived, hs.slots]
      exact ⟨by omega, hfilled i hlt⟩
    have hcard := Finset.card_le_card hsubset
    rw [Finset.card_range, ← networkReceivedCount, ← hs.count] at hcard
    exact hfew hcard
  rw [attemptRecoveryAndSubmit, if_neg (Nat.not_lt.mpr hsingle),
    attemptSingleBlock, if_neg (by omega), if_neg hmissing,
    if_pos (Nat.lt_of_not_le hfew)] at hout
  have hnew := List.append_cancel_left hout
  rw [← hnew] at hsub
  simp at hsub

theorem le_length_takeWhile_range {p : ℕ → Bool} {n m : ℕ} (hnm : n ≤ m)
    (hp : ∀ i < n, p i = true) :
    n ≤ ((List.range m).takeWhile p).length := by
  obtain ⟨k, rfl⟩ := Nat.exists_eq_add_of_le hnm
  rw [List.range_add, List.takeWhile_append_of_pos
    fun i hi => hp i (List.mem_range.mp hi), List.length_append,
    List.length_range]
  exact Nat.le_add_right n _

theorem ofNat_inj_of_lt {a b : ℕ} (ha : a < 0x10000) (hb : b < 0x10000)
    (h : UInt16.ofNat a = UInt16.ofNat b) : a = b := by
  have hnat := congrArg UInt16.toNat h
  rwa [UInt16.toNat_ofNat_of_lt' ha, UInt16.toNat_ofNat_of_lt' hb] at hnat

/-- If the number of packets tells the highest one, none is missing below it, and
then the last data packet is not the next one. -/
theorem not_agrees_of_enough {s : Fec} (hcount : s.receivedCount =
    networkReceivedCount s) (hdata : 0 < s.dataPackets)
    (henough : s.dataPackets ≤ s.receivedCount) :
    ¬(submitStatus s).Agrees (updateFecStatusCache s) := by
  rintro ⟨hhighest, hnext, -, -⟩
  have hcard : networkReceivedCount s ≤ fecMaxPackets := by
    simpa [networkReceivedCount, networkReceived] using
      Finset.card_filter_le (Finset.range fecMaxPackets) _
  have hpos : networkReceivedCount s > 0 := by omega
  have hne : (networkReceived s).Nonempty := Finset.card_pos.mp hpos
  have hmem : ∀ i ∈ networkReceived s, i ≤ highestReceivedIndex s :=
    fun i hi => Finset.le_sup (f := id) hi
  have hlast : highestReceivedIndex s < fecMaxPackets := by
    obtain ⟨i, hi, hsup⟩ := Finset.exists_mem_eq_sup _ hne id
    rw [highestReceivedIndex, hsup]
    exact (mem_networkReceived.mp hi).1
  have hmax : fecMaxPackets = 128 := rfl
  simp only [submitStatus, updateFecStatusCache, if_pos hpos, if_pos hdata,
    if_pos (show s.receivedCount > 0 by omega), UInt16.add_right_inj]
    at hhighest hnext
  have hhigh := ofNat_inj_of_lt (by omega) (by omega) hhighest
  have hall : networkReceived s = Finset.range s.receivedCount := by
    refine Finset.eq_of_subset_of_card_le (fun i hi => ?_) ?_
    · have := hmem i hi
      rw [Finset.mem_range]
      omega
    · rw [Finset.card_range, hcount, networkReceivedCount]
  have hreach : s.receivedCount ≤ scanLimit s := by
    rw [scanLimit]
    split_ifs <;> omega
  have hlimit : scanLimit s ≤ fecMaxPackets := by
    rw [scanLimit]
    split_ifs <;> omega
  have hafter : s.receivedCount ≤ nextIndex s := by
    refine le_length_takeWhile_range hreach fun i hi => ?_
    rw [← Finset.mem_range, ← hall] at hi
    exact (mem_networkReceived.mp hi).2
  have hbound : nextIndex s ≤ scanLimit s := by
    simpa [nextIndex] using (List.takeWhile_prefix
      (fun i => s.receivedFromNetwork i) (l := List.range (scanLimit s))).length_le
  have := ofNat_inj_of_lt (by omega) (by omega) hnext
  omega

theorem SameFrame.networkReceived {s t : Fec} (h : SameFrame s t) :
    networkReceived t = networkReceived s := by
  simp only [RtpFec.networkReceived, h.receivedFromNetwork]

/-- Whenever a frame in one block is submitted, the status that is cached with it
does not agree with the marks. -/
theorem submitted_status_differs {s : Fec} (hs : Reachable s)
    (hsingle : s.numFecBlocks ≤ 1) (hopen : s.frameSubmitted = false)
    (hkept : 0 < s.receivedCount) (env : FecEnv) (sub : Submission)
    (hsub : .submitted sub ∈
      (attemptRecoveryAndSubmit env s).out.drop s.out.length) :
    ¬(submitStatus (attemptRecoveryAndSubmit env s)).Agrees
      (updateFecStatusCache (attemptRecoveryAndSubmit env s)) := by
  obtain ⟨hinv, hmarked⟩ := hs.inv
  have hmarked := hmarked hsingle hopen
  have hshape := hinv.shaped hkept
  have hconcluded := hinv.concluded env (.inl hkept)
  obtain ⟨quiet, fate, hout, -, -⟩ := hconcluded.out
  rw [hout, List.append_assoc, List.drop_left] at hsub
  rw [List.append_assoc] at hout
  have henough := dataPackets_le_of_submitted hmarked hshape hsingle hout hsub
  have hsame := hconcluded.same
  refine not_agrees_of_enough ?_ ?_ ?_
  · rw [hsame.receivedCount, hmarked.count, networkReceivedCount,
      networkReceivedCount, hsame.networkReceived]
  · rw [hsame.dataPackets]
    exact hshape.data_pos
  · rwa [hsame.dataPackets, hsame.receivedCount]

/-- A frame of one data packet, which is received. -/
def oneReceived : Fec :=
  storePacket (openFrame Fec.initial ⟨0, 7, 1, 0, 0, 1, 0, 1⟩)
    ⟨0, 7, 1, 0, 0, 1, 0, 1⟩ 0 (barePacket 0 7 0 1 0 0)

theorem reachable_oneReceived : Reachable oneReceived := by
  have hscreen : screenPacket (sampleEnv 0).config noFrame
      (barePacket 0 7 0 1 0 0) = .taken ⟨0, 7, 1, 0, 0, 1, 0, 1⟩ := rfl
  have hh := (screenPacket_taken hscreen).1
  have hopened : Reachable (openFrame Fec.initial ⟨0, 7, 1, 0, 0, 1, 0, 1⟩) :=
    .step .initial (.enter hh (by decide) fun hsome => absurd rfl hsome)
  exact .step hopened (.store hh rfl)

theorem submitted_status_differs_oneReceived :
    ¬(submitStatus (attemptRecoveryAndSubmit (sampleEnv 0) oneReceived)).Agrees
      (updateFecStatusCache
        (attemptRecoveryAndSubmit (sampleEnv 0) oneReceived)) :=
  submitted_status_differs reachable_oneReceived (by decide) (by decide)
    (by decide) (sampleEnv 0) ⟨7, 0, [1], [⟨0, 0, barePacket 0 7 0 1 0 0⟩], some 1⟩
    (by decide +kernel)

/-- The packet that was received is told to be the next one to come. -/
theorem status_of_oneReceived :
    ¬∀ s, Reachable s → s.numFecBlocks ≤ 1 → s.frameSubmitted = false →
      0 < s.receivedCount → ∀ (env : FecEnv) (sub : Submission),
        .submitted sub ∈
            (attemptRecoveryAndSubmit env s).out.drop s.out.length →
          (submitStatus (attemptRecoveryAndSubmit env s)).Agrees
            (updateFecStatusCache (attemptRecoveryAndSubmit env s)) := by
  intro hall
  have hagrees := hall oneReceived reachable_oneReceived (by decide) (by decide)
    (by decide) (sampleEnv 0) ⟨7, 0, [1], [⟨0, 0, barePacket 0 7 0 1 0 0⟩], some 1⟩
    (by decide +kernel)
  exact absurd hagrees.nextContigSeq (by decide +kernel)

end MoonlightPsp.RtpFec
