import Mathlib.Algebra.Order.BigOperators.Group.List
import MoonlightPsp.Lib.EventLog
import MoonlightPsp.RtpFec.Steps

/-!
# The FEC layer: what is submitted

Every submission is of the packets in all the data slots, each once, in block
order and then in index order.  A frame in one block has a slot for every packet,
but takes the slot from the sequence number and never looks at the FEC index.  A
block of a larger frame has fewer slots, and a data packet beyond them is neither
missed nor submitted.
-/

namespace MoonlightPsp.RtpFec

open EventLog

/-! ## Events of a small step -/

/-- Whether the event ends a frame. -/
def FecEvent.isFate : FecEvent → Bool
  | .submitted _ => true
  | .dropped _ _ _ _ => true
  | _ => false

theorem not_isFate_of_isQuiet {e : FecEvent} (h : e.isQuiet) :
    e.isFate = false := by
  cases e with
  | recoveryClean clean => rfl
  | prepare frame => rfl
  | _ => exact Bool.noConfusion h

/-- What a small step adds to the events: a fate, after quiet events, or nothing
that ends a frame. -/
theorem FecStep.out_eq {s t : Fec} (hstep : FecStep s t) (hs : FecInv s) :
    (∃ quiet fate, t.out = s.out ++ quiet ++ [fate] ∧
      (∀ e ∈ quiet, e.isFate = false) ∧
      EndsWith s (recoveryCleanAfter (s.out ++ quiet)) fate) ∨
    ∃ new, t.out = s.out ++ new ∧ ∀ e ∈ new, e.isFate = false := by
  cases hstep with
  | conclude env hopen hkept =>
      obtain ⟨quiet, fate, hout, hquiet, hend⟩ := (hs.concluded env hkept).out
      exact .inl ⟨quiet, fate, hout,
        fun e he => not_isFate_of_isQuiet (hquiet e he), hend⟩
  | enter => exact .inr ⟨[_], rfl, by simp [FecEvent.isFate]⟩
  | register =>
      refine .inr ⟨[], ?_, by simp⟩
      rw [registerBlock]
      split <;> simp
  | store hh hslot =>
      rename_i packet h index
      by_cases hsome : (s.slots index).isSome
      · exact .inr ⟨[], by simp [storePacket_of_isSome h packet hsome],
          by simp⟩
      · exact .inr ⟨[_], (storePacket_of_isNone h packet hsome).2.2.2,
          by simp [FecEvent.isFate]⟩
  | late frame replayed => exact .inr ⟨[_], rfl, by simp [FecEvent.isFate]⟩
  | queue deferred => exact .inr ⟨[], (List.append_nil _).symm, by simp⟩

/-- Small steps only add to the events. -/
theorem FecSteps.out_grows {s t : Fec} (hsteps : FecSteps s t)
    (hs : FecInv s) : ∃ new, t.out = s.out ++ new := by
  induction hsteps with
  | refl => exact ⟨[], (List.append_nil _).symm⟩
  | tail hbefore hstep ih =>
      obtain ⟨before, hout⟩ := ih
      rcases hstep.out_eq (fecInv_steps hbefore hs) with
        ⟨quiet, fate, hstepOut, -, -⟩ | ⟨new, hstepOut, -⟩
      · exact ⟨before ++ quiet ++ [fate], by
          rw [hstepOut, hout]
          simp only [List.append_assoc]⟩
      · exact ⟨before ++ new, by rw [hstepOut, hout, List.append_assoc]⟩

/-! ## Submissions -/

/-- The data packet of the frame that a packet is by its own header. -/
def FecHeader.dataPlace (h : FecHeader) : Option (ℕ × ℕ) :=
  if h.fecIndex < h.dataPkts then some (h.fecBlockNum, h.fecIndex) else none

/-- The same for a packet. -/
def dataPlace (packet : Packet) : Option (ℕ × ℕ) :=
  (parseFecHeader packet).bind FecHeader.dataPlace

/-- The packets that came in for the frame which is current after these events,
with their slots. -/
def intake (events : List FecEvent) : List (ℕ × FecHeader) :=
  events.foldl (fun arrived e =>
    match e with
    | .becameCurrent _ => []
    | .stored _ slot h => arrived ++ [(slot, h)]
    | _ => arrived) []

/-- All data packets of the frame are handed over, in order: what is handed over
for a place is a packet that came in and is that data packet by its own header, or
it was rebuilt. -/
structure Submission.Complete (arrived : List (ℕ × FecHeader)) (sub : Submission) :
    Prop where
  places : sub.places = allPlaces sub.blockSizes
  own : ∀ y ∈ sub.shards,
    placeSlot sub.blockSizes y.block y.index ∈ arrived.map Prod.fst →
      dataPlace y.packet = some (y.block, y.index)

/-- The packet says that it is a data packet.  If the frame has one block, it says
that this is its block, and numbers the frame's packets from the same sequence
number as the packet that opened the frame. -/
structure Submission.Numbers (sub : Submission) (h : FecHeader) : Prop where
  isData : h.fecIndex < h.dataPkts
  single : sub.blockSizes.length ≤ 1 → h.fecBlockNum = 0 ∧
    h.seq - UInt16.ofNat h.fecIndex = sub.firstSeq

/-- No block has more data packets than slots, and the packets that came into the
slots of data packets are numbered as such. -/
structure Submission.Fits (arrived : List (ℕ × FecHeader)) (sub : Submission) :
    Prop where
  slots : ∀ n ∈ sub.blockSizes, n ≤ slotsPerBlock sub.blockSizes.length
  numbers : ∀ place ∈ slottedPlaces sub.blockSizes, ∀ h,
    (placeSlot sub.blockSizes place.1 place.2, h) ∈ arrived → sub.Numbers h

theorem mem_allPlaces {sizes : List ℕ} {place : ℕ × ℕ} :
    place ∈ allPlaces sizes ↔
      ∃ n, sizes[place.1]? = some n ∧ place.2 < n := by
  obtain ⟨b, i⟩ := place
  simp only [allPlaces, List.mem_flatMap, List.mem_map, List.mem_range,
    Prod.mk.injEq, Prod.exists, List.mem_zipIdx_iff_getElem?]
  constructor
  · rintro ⟨n, c, hn, j, hj, rfl, rfl⟩
    exact ⟨n, hn, hj⟩
  · rintro ⟨n, hn, hi⟩
    exact ⟨n, b, hn, i, hi, rfl, rfl⟩

theorem mem_slottedPlaces {sizes : List ℕ} {place : ℕ × ℕ}
    (h : place ∈ slottedPlaces sizes) :
    place.1 < sizes.length ∧ place.2 < slotsPerBlock sizes.length := by
  obtain ⟨n, hn, hi⟩ := mem_allPlaces.mp h
  rw [List.getElem?_map, Option.map_eq_some_iff] at hn
  obtain ⟨m, hm, rfl⟩ := hn
  exact ⟨(List.getElem?_eq_some_iff.mp hm).1, lt_of_lt_of_le hi (min_le_right _ _)⟩

theorem length_allPlaces (sizes : List ℕ) :
    (allPlaces sizes).length = sizes.sum := by
  have hzip : sizes.zipIdx.map (fun x => x.1) = sizes := List.zipIdx_map_fst _ _
  simp [allPlaces, List.length_flatMap, hzip]

/-- Nothing is left out exactly when every packet has a slot. -/
theorem slottedPlaces_eq_iff (sizes : List ℕ) :
    slottedPlaces sizes = allPlaces sizes ↔
      ∀ n ∈ sizes, n ≤ slotsPerBlock sizes.length := by
  rw [slottedPlaces]
  generalize slotsPerBlock sizes.length = room
  constructor
  · intro h
    have hlen := congrArg List.length h
    rw [length_allPlaces, length_allPlaces] at hlen
    intro n hn
    by_contra hlarge
    have hle : ∀ m ∈ sizes, min m room ≤ m := fun m _ => min_le_left m room
    have hlt : (sizes.map fun m => min m room).sum < (sizes.map id).sum :=
      List.sum_lt_sum _ _ hle ⟨n, hn, by simp only [id]; omega⟩
    rw [List.map_id] at hlt
    omega
  · intro h
    congr 1
    conv_rhs => rw [← List.map_id sizes]
    exact List.map_congr_left fun n hn => by simp [h n hn]

/-! ## What came in -/

theorem intake_append_quiet {events quiet : List FecEvent}
    (hquiet : ∀ e ∈ quiet, e.isQuiet) : intake (events ++ quiet) = intake events := by
  induction quiet using List.reverseRecOn with
  | nil => rw [List.append_nil]
  | append_singleton quiet e ih =>
      have he := hquiet e (by simp)
      rw [← List.append_assoc, intake, List.foldl_append]
      cases e with
      | recoveryClean clean => exact ih fun e he => hquiet e (by simp [he])
      | prepare frame => exact ih fun e he => hquiet e (by simp [he])
      | _ => exact Bool.noConfusion he

theorem intake_stored (events : List FecEvent) (frame : UInt32) (slot : ℕ)
    (h : FecHeader) :
    intake (events ++ [.stored frame slot h]) = intake events ++ [(slot, h)] := by
  rw [intake, List.foldl_append]
  rfl

/-- What is told by a packet does not depend on its frame index, nor on what is
behind its header. -/
theorem dataPlace_congr {p q : Packet} {off : ℕ}
    (hp : rtpNvOffsetFromPacket p = some off)
    (hq : rtpNvOffsetFromPacket q = some off)
    (hbytes : ∀ t, off + 8 ≤ t → t < off + 16 → byteAt q t = byteAt p t) :
    dataPlace q = dataPlace p := by
  have hinfo : readLe32 q (off + 12) = readLe32 p (off + 12) :=
    readLe32_congr fun t hle hlt => hbytes t (by omega) (by omega)
  have hblock : byteAt q (off + 11) = byteAt p (off + 11) :=
    hbytes _ (by omega) (by omega)
  simp only [dataPlace, parseFecHeader, hp, hq, hinfo, hblock, Option.bind_some,
    FecHeader.dataPlace]

theorem rtpNvOffset_lt {p : Packet} {off : ℕ}
    (h : rtpNvOffsetFromPacket p = some off) :
    12 ≤ off ∧ off ≤ 16 ∧ off + 16 ≤ p.length := by
  simp only [rtpNvOffsetFromPacket] at h
  split_ifs at h <;> obtain rfl := Option.some.inj h <;> omega

theorem rtpNvOffset_congr {p q : Packet} (hzero : byteAt q 0 = byteAt p 0)
    (hlen : min q.length 32 = min p.length 32) :
    rtpNvOffsetFromPacket q = rtpNvOffsetFromPacket p := by
  have hext : hasExtension q = hasExtension p := hasExtension_congr hzero
  simp only [rtpNvOffsetFromPacket, hext]
  split_ifs <;> first | rfl | omega

theorem dataPlace_take (p : Packet) :
    dataPlace (p.take maxPktSize) = dataPlace p := by
  have hoff : rtpNvOffsetFromPacket (p.take maxPktSize) =
      rtpNvOffsetFromPacket p :=
    rtpNvOffset_congr (byteAt_take (by decide))
      (by rw [List.length_take, maxPktSize]; omega)
  cases hp : rtpNvOffsetFromPacket p with
  | none => simp only [dataPlace, parseFecHeader, hoff, hp]
  | some off =>
      have hle := (rtpNvOffset_lt hp).2.1
      exact dataPlace_congr hp (hoff.trans hp) fun t _ ht =>
        byteAt_take (by rw [maxPktSize]; omega)

theorem dataPlace_patchFrameId (p : Packet) (frame : UInt32) :
    dataPlace (patchFrameId p frame) = dataPlace p := by
  rw [patchFrameId]
  cases hp : rtpNvOffsetFromPacket p with
  | none => rfl
  | some off =>
      have hlt := rtpNvOffset_lt hp
      simp only
      split
      · have hoff : rtpNvOffsetFromPacket (writeLe32 p (off + 4) frame) =
            rtpNvOffsetFromPacket p :=
          rtpNvOffset_congr (byteAt_writeLe32 _ (by omega)) (by rw [length_writeLe32])
        exact dataPlace_congr hp (hoff.trans hp) fun t hle _ =>
          byteAt_writeLe32 _ (by omega)
      · rfl

/-- A packet that came in for a frame with `num` blocks and this first sequence
number is where its numbers put it. -/
structure Placed (num : ℕ) (firstSeq : UInt16) (slot : ℕ) (h : FecHeader) :
    Prop where
  index_lt : h.fecIndex < 65536
  slot : if num > 1 then slot = h.fecBlockNum * slotsPerBlock num + h.fecIndex ∧
      h.fecIndex < slotsPerBlock num
    else slot = (h.seq - firstSeq).toNat

/-- As long as the frame is not over, the packets that came in for it are in their
slots. -/
def HoldsIntake (s : Fec) : Prop :=
  s.frameSubmitted = false → 0 < s.totalPackets → ∀ x ∈ intake s.out,
    Placed s.numFecBlocks s.lowestSeq x.1 x.2 ∧
      ∃ p, s.slots x.1 = some p ∧ dataPlace p = x.2.dataPlace

theorem HoldsIntake.of_same {s t : Fec} (hs : HoldsIntake s)
    (h : SameFrame s t) (hopen : t.frameSubmitted = s.frameSubmitted)
    (hslots : t.slots = s.slots) (hout : intake t.out = intake s.out) :
    HoldsIntake t := by
  rw [HoldsIntake, hopen, h.totalPackets, hout, hslots, h.numFecBlocks, h.lowestSeq]
  exact hs

/-- The slot of a packet is told by its numbers. -/
theorem placed_of_slotIndex {s : Fec} (hs : Shaped s) {packet : Packet}
    {h : FecHeader} (hh : Taken packet h) {index : ℕ}
    (hslot : slotIndex s h = some index) :
    Placed s.numFecBlocks s.lowestSeq index h := by
  have hindex := hh.index_lt
  have htotal := hh.total_le
  simp only [fecMaxPackets] at htotal
  refine ⟨by omega, ?_⟩
  simp only [slotIndex, Option.filter_eq_some_iff] at hslot
  obtain ⟨hslot, -⟩ := hslot
  split at hslot
  · rename_i hnum
    split at hslot
    · cases hslot
    · rename_i hlt
      rw [if_pos hnum, ← Option.some.inj hslot, hs.base]
      rw [hs.max] at hlt
      exact ⟨rfl, not_le.mp hlt⟩
  · rename_i hnum
    split at hslot
    · cases hslot
    · rw [if_neg hnum, ← Option.some.inj hslot]

theorem holdsIntake_store {s : Fec} (hs : FecInv s) (hintake : HoldsIntake s)
    {packet : Packet} {h : FecHeader} (hh : Taken packet h) {index : ℕ}
    (hslot : slotIndex s h = some index) :
    HoldsIntake (storePacket s h index packet) := by
  by_cases hsome : (s.slots index).isSome
  · rwa [storePacket_of_isSome h packet hsome]
  obtain ⟨hsizes, hslots, -, hout⟩ := storePacket_of_isNone h packet hsome
  have hshape : Shaped s := by
    rcases hs.shape with hblank | hshape
    · simp [slotIndex, hblank.numFecBlocks, hblank.totalPackets] at hslot
    · exact hshape
  rw [HoldsIntake, hsizes.frameSubmitted, hsizes.totalPackets,
    hsizes.numFecBlocks, hsizes.lowestSeq, hslots, hout, intake_stored]
  intro hopen hpos x hx
  rcases List.mem_append.mp hx with hx | hx
  · obtain ⟨hplaced, p, hp, hplace⟩ := hintake hopen hpos x hx
    refine ⟨hplaced, p, ?_, hplace⟩
    rwa [Function.update_of_ne]
    intro heq
    rw [← heq, hp] at hsome
    exact hsome rfl
  · obtain rfl := List.mem_singleton.mp hx
    refine ⟨placed_of_slotIndex hshape hh hslot, _, Function.update_self _ _ _, ?_⟩
    rw [dataPlace_take, dataPlace, hh.parse, Option.bind_some]

theorem holdsIntake_step {s t : Fec} (hstep : FecStep s t) (hs : FecInv s)
    (h : HoldsIntake s) : HoldsIntake t := by
  cases hstep with
  | conclude env hopen hkept =>
      intro hopen'
      rw [(hs.concluded env hkept).submitted] at hopen'
      exact Bool.noConfusion hopen'
  | enter hh hnew hover =>
      intro _ _ x hx
      simp [openFrame, intake] at hx
  | register hh =>
      rw [registerBlock]
      split
      · exact h
      · exact h
  | store hh hslot => exact holdsIntake_store hs h hh hslot
  | late frame replayed =>
      refine h.of_same (.emit s _) rfl rfl ?_
      rw [Fec.emit, intake, List.foldl_append]
      rfl
  | queue deferred => exact h

/-- A packet that came in for the frame of a submission is where its numbers put
it, and is handed over if it is in the slot of a data packet. -/
structure Submission.Arrived (sub : Submission) (slot : ℕ) (h : FecHeader) :
    Prop where
  placed : Placed sub.blockSizes.length sub.firstSeq slot h
  handed : ∀ y ∈ sub.shards, placeSlot sub.blockSizes y.block y.index = slot →
    dataPlace y.packet = h.dataPlace

theorem length_blockSizes (s : Fec) :
    (blockSizes s).length = if s.numFecBlocks > 1 then s.numFecBlocks else 1 := by
  rw [blockSizes]
  split
  · rw [List.length_map, List.length_range]
  · rfl

theorem Placed.of_blockSizes {s : Fec} {slot : ℕ} {h : FecHeader}
    (hplaced : Placed s.numFecBlocks s.lowestSeq slot h) :
    Placed (blockSizes s).length s.lowestSeq slot h := by
  refine ⟨hplaced.index_lt, ?_⟩
  have hslot := hplaced.slot
  rw [length_blockSizes]
  by_cases hnum : s.numFecBlocks > 1
  · rwa [if_pos hnum]
  · rw [if_neg hnum] at hslot
    rw [if_neg hnum, if_neg (lt_irrefl 1)]
    exact hslot

theorem seq_sub_sub (a b : UInt16) : a - (a - b) = b := by
  have hsub := UInt16.toNat_sub a b
  have hsub' := UInt16.toNat_sub a (a - b)
  have ha := a.toNat_lt
  have hb := b.toNat_lt
  rw [← UInt16.toNat_inj]
  omega

/-- A packet in the slot of a data packet is this data packet by its own header
exactly if it is numbered as such. -/
theorem Submission.Arrived.dataPlace_iff {sub : Submission} {slot : ℕ}
    {h : FecHeader} (harrived : sub.Arrived slot h) {place : ℕ × ℕ}
    (hplace : place ∈ slottedPlaces sub.blockSizes)
    (hslot : slot = placeSlot sub.blockSizes place.1 place.2) :
    h.dataPlace = some place ↔ sub.Numbers h := by
  obtain ⟨hblock, hroom⟩ := mem_slottedPlaces hplace
  obtain ⟨b, i⟩ := place
  have hnumbered := harrived.placed.slot
  have hlt := harrived.placed.index_lt
  rw [hslot, placeSlot] at hnumbered
  simp only at hblock hroom hnumbered
  by_cases hmany : sub.blockSizes.length > 1
  · -- The slot tells block and index.
    rw [if_pos hmany] at hnumbered
    obtain ⟨heq, hindex⟩ := hnumbered
    have hpos : 0 < slotsPerBlock sub.blockSizes.length := by omega
    have hsame : b = h.fecBlockNum ∧ i = h.fecIndex := by
      have hdiv := congrArg (· / slotsPerBlock sub.blockSizes.length) heq
      simp only [Nat.mul_comm _ (slotsPerBlock sub.blockSizes.length),
        Nat.mul_add_div hpos, Nat.div_eq_of_lt hroom, Nat.div_eq_of_lt hindex,
        Nat.add_zero] at hdiv
      subst hdiv
      exact ⟨rfl, Nat.add_left_cancel heq⟩
    rw [FecHeader.dataPlace, hsame.1, hsame.2]
    constructor
    · intro h'
      split at h'
      · exact ⟨‹_›, fun hone => by omega⟩
      · cases h'
    · intro h'
      rw [if_pos h'.isData]
  · -- The slot is counted from the first sequence number.
    rw [if_neg hmany] at hnumbered
    have hzero : b = 0 := by omega
    rw [hzero, Nat.zero_mul, Nat.zero_add] at hnumbered
    have hindex : h.fecIndex = i ↔
        h.seq - UInt16.ofNat h.fecIndex = sub.firstSeq := by
      rw [hnumbered]
      constructor
      · intro heq
        rw [heq, UInt16.ofNat_toNat, seq_sub_sub]
      · intro heq
        rw [← heq, seq_sub_sub, UInt16.toNat_ofNat_of_lt' hlt]
    rw [FecHeader.dataPlace, hzero]
    constructor
    · intro h'
      split at h'
      · rw [Option.some.injEq, Prod.mk.injEq] at h'
        exact ⟨‹_›, fun _ => ⟨h'.1, hindex.mp h'.2⟩⟩
      · cases h'
    · intro h'
      obtain ⟨hblock', hseq⟩ := h'.single (by omega)
      rw [if_pos h'.isData, hblock', hindex.mpr hseq]

/-! ## Runs -/

/-- What holds of a submission and the events before it. -/
def SubmitsSlots (before : List FecEvent) (e : FecEvent) : Prop :=
  ∀ sub, e = .submitted sub → recoveryCleanAfter before = true ∧
    sub.places = slottedPlaces sub.blockSizes ∧
    ∀ x ∈ intake before, sub.Arrived x.1 x.2

theorem submitsSlots_of_not_isFate {e : FecEvent} (he : e.isFate = false)
    (before : List FecEvent) : SubmitsSlots before e := by
  rintro sub rfl
  exact Bool.noConfusion he

/-- The end of a frame submits what came in for it. -/
theorem submitsSlots_of_endsWith {s : Fec} {quiet : List FecEvent}
    {fate : FecEvent} (hopen : s.frameSubmitted = false)
    (htotal : 0 < s.totalPackets) (hintake : HoldsIntake s)
    (hquiet : ∀ e ∈ quiet, e.isQuiet)
    (hend : EndsWith s (recoveryCleanAfter (s.out ++ quiet)) fate) :
    SubmitsSlots (s.out ++ quiet) fate := by
  rintro sub rfl
  cases hend with
  | submitted _ hframe hsizes hclean hplaces hfirst hpackets =>
      refine ⟨hclean, by rw [hsizes, hplaces], fun x hx => ?_⟩
      rw [intake_append_quiet hquiet] at hx
      obtain ⟨hplaced, p, hp, hplace⟩ := hintake hopen htotal x hx
      refine ⟨by rw [hsizes, hfirst]; exact hplaced.of_blockSizes, ?_⟩
      rw [hsizes]
      intro y hy hslot
      rw [hpackets y hy p (hslot ▸ hp), dataPlace_patchFrameId, hplace]

theorem submitsSlots_step {s t : Fec} (hstep : FecStep s t) (hs : FecInv s)
    (hintake : HoldsIntake s) (h : Always SubmitsSlots s.out) :
    Always SubmitsSlots t.out := by
  cases hstep with
  | conclude env hopen hkept =>
      have hshape := hs.shaped (hs.kept hkept)
      obtain ⟨quiet, fate, hout, hquiet, hend⟩ := (hs.concluded env hkept).out
      rw [hout]
      exact (h.append fun e he => submitsSlots_of_not_isFate
        (not_isFate_of_isQuiet (hquiet e he))).snoc
        (submitsSlots_of_endsWith hopen (hshape.data_pos.trans_le hshape.data_le)
          hintake hquiet hend)
  | enter hh hnew hover =>
      exact h.snoc (submitsSlots_of_not_isFate rfl _)
  | register hh =>
      rw [registerBlock]
      split
      · exact h
      · exact h
  | store hh hslot =>
      rename_i packet header index
      by_cases hsome : (s.slots index).isSome
      · rwa [storePacket_of_isSome header packet hsome]
      · rw [(storePacket_of_isNone header packet hsome).2.2.2]
        exact h.snoc (submitsSlots_of_not_isFate rfl _)
  | late frame replayed => exact h.snoc (submitsSlots_of_not_isFate rfl _)
  | queue deferred => exact h

theorem submitsSlots_run (inputs : List FecInput) :
    ∃ s, Fec.initial.run inputs = some s ∧ Always SubmitsSlots s.out := by
  obtain ⟨s, hrun, -, -, hout⟩ := run_invariant
    (fun s => FecInv s ∧ HoldsIntake s ∧ Always SubmitsSlots s.out) (fun _ h => h.1)
    (fun s t h hst => ⟨fecInv_step hst h.1, holdsIntake_step hst h.1 h.2.1,
      submitsSlots_step hst h.1 h.2.1 h.2.2⟩)
    (fun s rs h => ⟨h.1.of_same (.setRs s rs) rfl, h.2⟩)
    (fun s h => ⟨fecInv_reset, fun _ hpos => absurd hpos (lt_irrefl 0),
      h.2.2.snoc (submitsSlots_of_not_isFate rfl _)⟩)
    inputs ⟨fecInv_initial, fun _ hpos => absurd hpos (lt_irrefl 0), always_nil⟩
  exact ⟨s, hrun, hout⟩

/-- A submission of the packets in the slots is complete exactly if every data
packet has a slot and the packets in them are numbered as they should be. -/
theorem Submission.complete_iff {sub : Submission} {arrived : List (ℕ × FecHeader)}
    (hplaces : sub.places = slottedPlaces sub.blockSizes)
    (harrived : ∀ x ∈ arrived, sub.Arrived x.1 x.2) :
    sub.Complete arrived ↔ sub.Fits arrived := by
  have hplace : ∀ y ∈ sub.shards, (y.block, y.index) ∈ slottedPlaces sub.blockSizes :=
    fun y hy => hplaces ▸ List.mem_map.mpr ⟨y, hy, rfl⟩
  constructor
  · intro h
    refine ⟨(slottedPlaces_eq_iff _).mp (hplaces.symm.trans h.places), ?_⟩
    intro place hmem header hin
    obtain ⟨y, hy, rfl⟩ := List.mem_map.mp (hplaces ▸ hmem)
    have hx := harrived _ hin
    rw [← hx.dataPlace_iff hmem rfl, ← hx.handed y hy rfl]
    exact h.own y hy (List.mem_map.mpr ⟨_, hin, rfl⟩)
  · intro h
    refine ⟨hplaces.trans ((slottedPlaces_eq_iff _).mpr h.slots), ?_⟩
    intro y hy hin
    obtain ⟨⟨slot, header⟩, hmem, rfl⟩ := List.mem_map.mp hin
    have hx := harrived _ hmem
    rw [hx.handed y hy rfl, hx.dataPlace_iff (hplace y hy) rfl]
    exact h.numbers _ (hplace y hy) header hmem

/-- A frame of four blocks whose first block has 33 data packets, the last of
which is lost.  The other blocks have one packet each, and a packet of the next
frame follows. -/
def frameBeyondSlots : List FecInput :=
  ((List.range 32).map fun i =>
    .packet (sampleEnv 0) (barePacket (UInt16.ofNat i) 7 0xC0 33
      (UInt32.ofNat i) 0)) ++
  [.packet (sampleEnv 0) (barePacket 33 7 0xD0 1 0 0),
    .packet (sampleEnv 0) (barePacket 34 7 0xE0 1 0 0),
    .packet (sampleEnv 0) (barePacket 35 7 0xF0 1 0 0),
    .packet (sampleEnv 0) (barePacket 36 8 0x00 1 0 0)]

/-- Whether an event is a submission with the recovery flag set that is not
complete. -/
def submitsIncomplete (events : List FecEvent) (k : ℕ) : Bool :=
  match events[k]? with
  | some (.submitted sub) =>
      recoveryCleanAfter (events.take k) &&
        !decide (sub.places = allPlaces sub.blockSizes)
  | _ => false

theorem exists_of_submitsIncomplete {events : List FecEvent} {k : ℕ}
    (h : submitsIncomplete events k = true) :
    ∃ before sub after, events = before ++ .submitted sub :: after ∧
      recoveryCleanAfter before = true ∧ ¬sub.Complete (intake before) := by
  rw [submitsIncomplete] at h
  split at h
  · rename_i sub hk
    obtain ⟨hlt, hget⟩ := List.getElem?_eq_some_iff.mp hk
    rw [Bool.and_eq_true, Bool.not_eq_true', decide_eq_false_iff_not] at h
    refine ⟨events.take k, sub, events.drop (k + 1), ?_, h.1,
      fun hcomplete => h.2 hcomplete.places⟩
    rw [← hget, ← List.drop_eq_getElem_cons hlt, List.take_append_drop]
  · exact Bool.noConfusion h

end MoonlightPsp.RtpFec
