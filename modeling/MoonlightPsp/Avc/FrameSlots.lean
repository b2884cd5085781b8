import Mathlib.Algebra.Order.Group.Nat
import Mathlib.Data.List.Nodup
import Mathlib.Data.UInt
import MoonlightPsp.Lib.EventLog

/-!
# The frame slots of the hardware decoder

Six slots for pictures are shared by the decode worker and the presenter.  The
worker reserves three of them for a call of the firmware and publishes at most
one of these; the presenter takes the published one and releases it when it is
done.
-/

namespace MoonlightPsp.Avc

open EventLog

/-! ## The slot table -/

/-- `AVC_FRAME_SLOTS`. -/
def avcFrameSlots : ℕ := 6

/-- `AVC_SLOT_FREE` and so on. -/
inductive SlotState where
  | free
  | writing
  | queued
  | held
deriving DecidableEq

/-- `AvcFrameSlots`; no slot is queued where the source has -1. -/
structure AvcFrameSlots where
  state : ℕ → SlotState
  frameId : ℕ → UInt32
  decodedAtUs : ℕ → UInt32
  queued : Option ℕ

/-- `avc_frame_slots_init`. -/
def AvcFrameSlots.init : AvcFrameSlots where
  state := fun _ => .free
  frameId := fun _ => 0
  decodedAtUs := fun _ => 0
  queued := none

/-- `s->state[slot] = state`. -/
def AvcFrameSlots.mark (s : AvcFrameSlots) (slot : ℕ) (state : SlotState) :
    AvcFrameSlots :=
  { s with state := Function.update s.state slot state }

/-- Mark several slots. -/
def AvcFrameSlots.markAll (s : AvcFrameSlots) (slots : List ℕ)
    (state : SlotState) : AvcFrameSlots :=
  slots.foldl (fun s slot => s.mark slot state) s

/-- The first three free slots, or as many as there are. -/
def AvcFrameSlots.found (s : AvcFrameSlots) : List ℕ :=
  ((List.range avcFrameSlots).filter fun i => s.state i = .free).take 3

/-- `avc_frame_slots_reserve`; `given` says that no pointer is null. -/
def avcFrameSlotsReserve (s : AvcFrameSlots) (given : Bool) :
    Option (List ℕ) × AvcFrameSlots :=
  if !given then (none, s)
  else if s.found.length ≠ 3 then (none, s)
  else (some s.found, s.markAll s.found .writing)

/-- The check of `slots[i]` in `avc_frame_slots_publish`. -/
def AvcFrameSlots.reservedAt (s : AvcFrameSlots) (slots : ℕ → ℤ) (i : ℕ) :
    Bool :=
  decide (0 ≤ slots i ∧ slots i < avcFrameSlots) &&
    decide (s.state (slots i).toNat = .writing) &&
      (List.range i).all fun j => slots i ≠ slots j

/-- The last of the pictures becomes the queued one. -/
def AvcFrameSlots.enqueue (s : AvcFrameSlots) (slot : ℕ)
    (id decodedAtUs : UInt32) : AvcFrameSlots :=
  let s := match s.queued with
    | none => s
    | some old => s.mark old .free
  { s.mark slot .queued with
    queued := some slot
    frameId := Function.update s.frameId slot id
    decodedAtUs := Function.update s.decodedAtUs slot decodedAtUs }

/-- The numbers and times of the pictures that are published. -/
structure Outputs where
  ids : ℕ → UInt32
  decodedAtUs : ℕ → UInt32

/-- `avc_frame_slots_publish`; there are no outputs where one of the two
pointers is null. -/
def avcFrameSlotsPublish (s : AvcFrameSlots) (given : Bool) (slots : ℕ → ℤ)
    (count : ℤ) (outputs : Option Outputs) : Bool × AvcFrameSlots :=
  if !given ∨ count < 0 ∨ count > 3 ∨ count ≠ 0 ∧ outputs.isNone then (false, s)
  else if !(List.range 3).all (s.reservedAt slots) then (false, s)
  else
    let freed := s.markAll ((List.range 3).map fun i => (slots i).toNat) .free
    match outputs with
    | some o =>
        if count = 0 then (true, freed)
        else
          let last := (count - 1).toNat
          (true, freed.enqueue (slots last).toNat (o.ids last)
            (o.decodedAtUs last))
    | none => (true, freed)

/-- A picture that the presenter takes. -/
structure TakenFrame where
  slot : ℕ
  frameId : UInt32
  decodedAtUs : UInt32

/-- `avc_frame_slots_take`. -/
def avcFrameSlotsTake (s : AvcFrameSlots) (given : Bool) :
    Option TakenFrame × AvcFrameSlots :=
  if !given then (none, s)
  else match s.queued with
    | none => (none, s)
    | some slot =>
        (some ⟨slot, s.frameId slot, s.decodedAtUs slot⟩,
          { s.mark slot .held with queued := none })

/-- `avc_frame_slots_release`. -/
def avcFrameSlotsRelease (s : AvcFrameSlots) (given : Bool) (slot : ℤ) :
    Bool × AvcFrameSlots :=
  if !given ∨ slot < 0 ∨ slot ≥ avcFrameSlots ∨ s.state slot.toNat ≠ .held then
    (false, s)
  else (true, s.mark slot.toNat .free)

/-! ## Runs -/

/-- A call with any arguments. -/
inductive SlotCall where
  | reserve (given : Bool)
  | publish (given : Bool) (slots : ℕ → ℤ) (count : ℤ)
      (outputs : Option Outputs)
  | take (given : Bool)
  | release (given : Bool) (slot : ℤ)

/-- What a call has done, as its caller sees it. -/
inductive SlotEvent where
  | failed
  | reserved (slots : List ℕ)
  | published (slots : List ℕ) (last : Option UInt32)
  | taken (frame : TakenFrame)
  | released (slot : ℕ)

/-- One call. -/
def AvcFrameSlots.call (s : AvcFrameSlots) : SlotCall → SlotEvent × AvcFrameSlots
  | .reserve given =>
      match avcFrameSlotsReserve s given with
      | (none, s) => (.failed, s)
      | (some slots, s) => (.reserved slots, s)
  | .publish given slots count outputs =>
      match avcFrameSlotsPublish s given slots count outputs with
      | (false, s) => (.failed, s)
      | (true, s) =>
          (.published ((List.range 3).map fun i => (slots i).toNat)
            (if count = 0 then none
              else outputs.map fun o => o.ids (count - 1).toNat), s)
  | .take given =>
      match avcFrameSlotsTake s given with
      | (none, s) => (.failed, s)
      | (some frame, s) => (.taken frame, s)
  | .release given slot =>
      match avcFrameSlotsRelease s given slot with
      | (false, s) => (.failed, s)
      | (true, s) => (.released slot.toNat, s)

/-- The events of a run and the table after it. -/
def AvcFrameSlots.runCalls (s : AvcFrameSlots) :
    List SlotCall → List SlotEvent × AvcFrameSlots
  | [] => ([], s)
  | c :: rest =>
      let r := s.call c
      let later := r.2.runCalls rest
      (r.1 :: later.1, later.2)

/-! ## What a call can do -/

variable {s t : AvcFrameSlots}

@[simp] theorem mark_queued (slot : ℕ) (state : SlotState) :
    (s.mark slot state).queued = s.queued := rfl

@[simp] theorem mark_frameId (slot : ℕ) (state : SlotState) :
    (s.mark slot state).frameId = s.frameId := rfl

theorem mark_state (slot : ℕ) (state : SlotState) (i : ℕ) :
    (s.mark slot state).state i = if i = slot then state else s.state i := by
  rw [AvcFrameSlots.mark]
  exact Function.update_apply ..

theorem markAll_spec (slots : List ℕ) (state : SlotState) :
    (s.markAll slots state).queued = s.queued ∧
      (s.markAll slots state).frameId = s.frameId ∧
      ∀ i, (s.markAll slots state).state i =
        if i ∈ slots then state else s.state i := by
  induction slots generalizing s with
  | nil => exact ⟨rfl, rfl, fun i => by simp [AvcFrameSlots.markAll]⟩
  | cons slot rest ih =>
      obtain ⟨hqueued, hid, hstate⟩ := ih (s := s.mark slot state)
      refine ⟨hqueued, hid, fun i => ?_⟩
      rw [AvcFrameSlots.markAll, List.foldl_cons]
      rw [AvcFrameSlots.markAll] at hstate
      rw [hstate i, mark_state]
      by_cases hi : i = slot <;> simp [hi]

/-- What a call that succeeds does to the table. -/
inductive Moves (s t : AvcFrameSlots) : SlotEvent → Prop where
  | reserved {slots : List ℕ} (hlen : slots.length = 3)
      (hfree : ∀ i ∈ slots, i < avcFrameSlots ∧ s.state i = .free)
      (hnodup : slots.Nodup)
      (hstate : ∀ i, t.state i = if i ∈ slots then .writing else s.state i)
      (hqueued : t.queued = s.queued) (hid : t.frameId = s.frameId) :
      Moves s t (.reserved slots)
  | cancelled {slots : List ℕ}
      (hwriting : ∀ i ∈ slots, i < avcFrameSlots ∧ s.state i = .writing)
      (hstate : ∀ i, t.state i = if i ∈ slots then .free else s.state i)
      (hqueued : t.queued = s.queued) (hid : t.frameId = s.frameId) :
      Moves s t (.published slots none)
  | queued {slots : List ℕ} {id : UInt32} (slot : ℕ) (hslot : slot ∈ slots)
      (hwriting : ∀ i ∈ slots, i < avcFrameSlots ∧ s.state i = .writing)
      (hstate : ∀ i, t.state i = if i = slot then .queued
        else if i ∈ slots ∨ s.queued = some i then .free else s.state i)
      (hqueued : t.queued = some slot) (hid : t.frameId slot = id) :
      Moves s t (.published slots (some id))
  | taken (frame : TakenFrame) (hslot : s.queued = some frame.slot)
      (hframe : frame.frameId = s.frameId frame.slot)
      (hstate : ∀ i, t.state i = if i = frame.slot then .held else s.state i)
      (hqueued : t.queued = none) :
      Moves s t (.taken frame)
  | released {slot : ℕ} (hheld : slot < avcFrameSlots ∧ s.state slot = .held)
      (hstate : ∀ i, t.state i = if i = slot then .free else s.state i)
      (hqueued : t.queued = s.queued) (hid : t.frameId = s.frameId) :
      Moves s t (.released slot)

theorem found_spec (s : AvcFrameSlots) :
    s.found.Nodup ∧ ∀ i ∈ s.found, i < avcFrameSlots ∧ s.state i = .free := by
  refine ⟨(List.nodup_range.filter _).take, fun i hi => ?_⟩
  have hmem := List.mem_of_mem_take hi
  rwa [List.mem_filter, List.mem_range, decide_eq_true_eq] at hmem

theorem reservedAt_spec {slots : ℕ → ℤ}
    (h : (List.range 3).all (s.reservedAt slots) = true) :
    ∀ i ∈ (List.range 3).map fun i => (slots i).toNat,
      i < avcFrameSlots ∧ s.state i = .writing := by
  intro i hi
  obtain ⟨k, hk, rfl⟩ := List.mem_map.mp hi
  have hat := List.all_eq_true.mp h k hk
  rw [AvcFrameSlots.reservedAt, Bool.and_eq_true, Bool.and_eq_true,
    decide_eq_true_eq, decide_eq_true_eq] at hat
  exact ⟨by omega, hat.1.2⟩

theorem enqueue_spec (slot : ℕ) (id decodedAtUs : UInt32) :
    (s.enqueue slot id decodedAtUs).queued = some slot ∧
      (s.enqueue slot id decodedAtUs).frameId slot = id ∧
      ∀ i, (s.enqueue slot id decodedAtUs).state i =
        if i = slot then .queued
        else if s.queued = some i then .free else s.state i := by
  cases hq : s.queued with
  | none =>
      simp only [AvcFrameSlots.enqueue, hq]
      exact ⟨trivial, Function.update_self .., fun i => by simp [mark_state]⟩
  | some old =>
      simp only [AvcFrameSlots.enqueue, hq]
      exact ⟨trivial, Function.update_self .., fun i => by
        simp [mark_state, eq_comm]⟩

theorem publish_spec (s : AvcFrameSlots) (given : Bool) (slots : ℕ → ℤ)
    (count : ℤ) (outputs : Option Outputs) :
    (avcFrameSlotsPublish s given slots count outputs).1 = false ∧
      (avcFrameSlotsPublish s given slots count outputs).2 = s ∨
    (avcFrameSlotsPublish s given slots count outputs).1 = true ∧
      Moves s (avcFrameSlotsPublish s given slots count outputs).2
        (.published ((List.range 3).map fun i => (slots i).toNat)
          (if count = 0 then none
            else outputs.map fun o => o.ids (count - 1).toNat)) := by
  rw [avcFrameSlotsPublish]
  split
  · exact .inl ⟨rfl, rfl⟩
  rename_i hargs
  split
  · exact .inl ⟨rfl, rfl⟩
  rename_i hslots
  have hwriting := reservedAt_spec (by simpa using hslots)
  obtain ⟨hqueued, hid, hstate⟩ := markAll_spec (s := s)
    ((List.range 3).map fun i => (slots i).toNat) .free
  refine .inr ?_
  split
  · rename_i o
    split
    · exact ⟨rfl, .cancelled hwriting hstate hqueued hid⟩
    · obtain ⟨hq, hlast, hat⟩ := enqueue_spec (s := s.markAll
        ((List.range 3).map fun i => (slots i).toNat) .free)
        (slots (count - 1).toNat).toNat (o.ids (count - 1).toNat)
        (o.decodedAtUs (count - 1).toNat)
      refine ⟨rfl, .queued _ ?_ hwriting (fun i => ?_) hq hlast⟩
      · exact List.mem_map.mpr ⟨(count - 1).toNat,
          List.mem_range.mpr (by omega), rfl⟩
      · rw [hat i, hstate i, hqueued]
        split_ifs <;> first | rfl | tauto
  · rename_i hnone
    have hzero : count = 0 := by
      by_contra hne
      exact hargs (.inr (.inr (.inr ⟨hne, rfl⟩)))
    rw [if_pos hzero]
    exact ⟨rfl, .cancelled hwriting hstate hqueued hid⟩

/-- A call fails and leaves the table as it is, or moves slots. -/
theorem call_spec (s : AvcFrameSlots) (c : SlotCall) :
    (s.call c).1 = .failed ∧ (s.call c).2 = s ∨
      Moves s (s.call c).2 (s.call c).1 := by
  cases c with
  | reserve given =>
      rw [AvcFrameSlots.call, avcFrameSlotsReserve]
      split_ifs with hgiven hlen
      · exact .inl ⟨rfl, rfl⟩
      · exact .inl ⟨rfl, rfl⟩
      · obtain ⟨hnodup, hfree⟩ := found_spec s
        obtain ⟨hqueued, hid, hstate⟩ := markAll_spec (s := s) s.found .writing
        exact .inr (.reserved (not_not.mp hlen) hfree hnodup hstate hqueued hid)
  | publish given slots count outputs =>
      have h := publish_spec s given slots count outputs
      rw [AvcFrameSlots.call]
      rcases hr : avcFrameSlotsPublish s given slots count outputs with ⟨ok, t⟩
      rw [hr] at h
      cases ok with
      | false => exact .inl ⟨rfl, (h.resolve_right (by simp)).2⟩
      | true => exact .inr (h.resolve_left (by simp)).2
  | take given =>
      rw [AvcFrameSlots.call, avcFrameSlotsTake]
      cases given with
      | false => exact .inl ⟨rfl, rfl⟩
      | true =>
          cases hq : s.queued with
          | none => exact .inl ⟨rfl, rfl⟩
          | some slot => exact .inr (.taken _ hq rfl (mark_state slot .held) rfl)
  | release given slot =>
      rw [AvcFrameSlots.call, avcFrameSlotsRelease]
      split_ifs with hbad
      · exact .inl ⟨rfl, rfl⟩
      · simp only [not_or, not_lt, not_le, not_not, ge_iff_le] at hbad
        exact .inr (.released ⟨by omega, hbad.2.2.2⟩
          (mark_state slot.toNat .free) rfl rfl)

/-! ## Ownership -/

/-- Who a slot belongs to, as far as the callers know. -/
inductive SlotOwner where
  | nobody
  | writer
  | presenter
deriving DecidableEq

/-- The owner of a slot after one more event. -/
def SlotEvent.owner (slot : ℕ) (old : SlotOwner) : SlotEvent → SlotOwner
  | .failed => old
  | .reserved slots => if slot ∈ slots then .writer else old
  | .published slots _ => if slot ∈ slots then .nobody else old
  | .taken frame => if slot = frame.slot then .presenter else old
  | .released s => if slot = s then .nobody else old

/-- The owner of a slot after these events. -/
def ownerAfter (log : List SlotEvent) (slot : ℕ) : SlotOwner :=
  log.foldl (fun old e => e.owner slot old) .nobody

theorem ownerAfter_snoc (log : List SlotEvent) (e : SlotEvent) (slot : ℕ) :
    ownerAfter (log ++ [e]) slot = e.owner slot (ownerAfter log slot) := by
  simp [ownerAfter]

/-- A slot that is handed out belongs to nobody. -/
def HandsOutUnowned (before : List SlotEvent) (e : SlotEvent) : Prop :=
  (∀ slots, e = .reserved slots → slots.Nodup ∧
    ∀ slot ∈ slots, ownerAfter before slot = .nobody) ∧
  ∀ frame, e = .taken frame → ownerAfter before frame.slot = .nobody

/-- The number of the picture that is queued by an event. -/
def SlotEvent.publishedId : SlotEvent → Option UInt32
  | .published _ last => last
  | _ => none

/-- The number of the picture that is taken by an event. -/
def SlotEvent.takenId : SlotEvent → Option UInt32
  | .taken frame => some frame.frameId
  | _ => none

def publishedIds (log : List SlotEvent) : List UInt32 :=
  log.filterMap SlotEvent.publishedId

def takenIds (log : List SlotEvent) : List UInt32 :=
  log.filterMap SlotEvent.takenId

theorem publishedIds_snoc (log : List SlotEvent) (e : SlotEvent) :
    publishedIds (log ++ [e]) = publishedIds log ++ e.publishedId.toList := by
  rw [publishedIds, List.filterMap_append]
  cases h : e.publishedId <;> simp [publishedIds, h]

theorem takenIds_snoc (log : List SlotEvent) (e : SlotEvent) :
    takenIds (log ++ [e]) = takenIds log ++ e.takenId.toList := by
  rw [takenIds, List.filterMap_append]
  cases h : e.takenId <;> simp [takenIds, h]

/-- A picture that is taken is the last one that was published. -/
def TakesLatest (before : List SlotEvent) (e : SlotEvent) : Prop :=
  ∀ frame, e = .taken frame →
    (publishedIds before).getLast? = some frame.frameId

/-- The numbers of the pictures in the queue. -/
def AvcFrameSlots.queuedIds (s : AvcFrameSlots) : List UInt32 :=
  s.queued.toList.map s.frameId

/-- The table agrees with what its callers know. -/
structure SlotLedger (log : List SlotEvent) (s : AvcFrameSlots) : Prop where
  queued : ∀ i, s.state i = .queued ↔ s.queued = some i
  writing : ∀ i, s.state i = .writing ↔ ownerAfter log i = .writer
  held : ∀ i, s.state i = .held ↔ ownerAfter log i = .presenter
  latest : ∀ id ∈ s.queuedIds, (publishedIds log).getLast? = some id
  order : (takenIds log ++ s.queuedIds).Sublist (publishedIds log)
  owners : Always HandsOutUnowned log
  takes : Always TakesLatest log

theorem slotLedger_init : SlotLedger [] .init where
  queued := fun i => by simp [AvcFrameSlots.init]
  writing := fun i => by simp [AvcFrameSlots.init, ownerAfter]
  held := fun i => by simp [AvcFrameSlots.init, ownerAfter]
  latest := fun id hid => by simp [AvcFrameSlots.init,
    AvcFrameSlots.queuedIds] at hid
  order := by simp [AvcFrameSlots.init, AvcFrameSlots.queuedIds, takenIds]
  owners := always_nil
  takes := always_nil

variable {log : List SlotEvent} {e : SlotEvent}

theorem queued_of_moves (h : Moves s t e)
    (hs : ∀ i, s.state i = .queued ↔ s.queued = some i) (i : ℕ) :
    t.state i = .queued ↔ t.queued = some i := by
  have hi := hs i
  cases h with
  | reserved _ hfree _ hstate hqueued _ => grind
  | cancelled hwriting hstate hqueued _ => grind
  | queued slot hslot hwriting hstate hqueued _ => grind
  | taken frame hslot _ hstate hqueued => grind
  | released hheld hstate hqueued _ => grind

theorem owner_of_moves (h : Moves s t e) (hs : SlotLedger log s) (i : ℕ) :
    (t.state i = .writing ↔ ownerAfter (log ++ [e]) i = .writer) ∧
      (t.state i = .held ↔ ownerAfter (log ++ [e]) i = .presenter) := by
  have hw := hs.writing i
  have hh := hs.held i
  have hq := hs.queued i
  rw [ownerAfter_snoc]
  cases h with
  | reserved _ hfree _ hstate _ _ => grind [SlotEvent.owner]
  | cancelled hwriting hstate _ _ => grind [SlotEvent.owner]
  | queued slot hslot hwriting hstate _ _ => grind [SlotEvent.owner]
  | taken frame hslot _ hstate _ => grind [SlotEvent.owner]
  | released hheld hstate _ _ => grind [SlotEvent.owner]

theorem nobody_of_state (hs : SlotLedger log s) {i : ℕ}
    (h : s.state i = .free ∨ s.state i = .queued) :
    ownerAfter log i = .nobody := by
  have hw := hs.writing i
  have hh := hs.held i
  cases ho : ownerAfter log i with
  | nobody => rfl
  | writer =>
      rw [hw.mpr ho] at h
      rcases h with h | h <;> cases h
  | presenter =>
      rw [hh.mpr ho] at h
      rcases h with h | h <;> cases h

theorem handsOutUnowned_of_moves (h : Moves s t e) (hs : SlotLedger log s) :
    HandsOutUnowned log e := by
  refine ⟨?_, ?_⟩
  · rintro slots rfl
    cases h with
    | reserved _ hfree hnodup _ _ _ =>
        exact ⟨hnodup, fun i hi => nobody_of_state hs (.inl (hfree i hi).2)⟩
  · rintro frame rfl
    cases h with
    | taken frame hslot _ _ _ =>
        exact nobody_of_state hs (.inr ((hs.queued frame.slot).mpr hslot))

theorem takesLatest_of_moves (h : Moves s t e) (hs : SlotLedger log s) :
    TakesLatest log e := by
  rintro frame rfl
  cases h with
  | taken frame hslot hframe _ _ =>
      exact hs.latest _ (by simp [AvcFrameSlots.queuedIds, hslot, hframe])

theorem ids_of_quiet (hs : SlotLedger log s) (hq : t.queuedIds = s.queuedIds)
    (hp : e.publishedId = none) (ht : e.takenId = none) :
    (∀ id ∈ t.queuedIds, (publishedIds (log ++ [e])).getLast? = some id) ∧
      (takenIds (log ++ [e]) ++ t.queuedIds).Sublist
        (publishedIds (log ++ [e])) := by
  rw [hq, publishedIds_snoc, takenIds_snoc, hp, ht, Option.toList_none,
    List.append_nil, List.append_nil]
  exact ⟨hs.latest, hs.order⟩

theorem ids_of_moves (h : Moves s t e) (hs : SlotLedger log s) :
    (∀ id ∈ t.queuedIds, (publishedIds (log ++ [e])).getLast? = some id) ∧
      (takenIds (log ++ [e]) ++ t.queuedIds).Sublist
        (publishedIds (log ++ [e])) := by
  cases h with
  | reserved _ _ _ _ hqueued hid =>
      exact ids_of_quiet hs (by simp [AvcFrameSlots.queuedIds, hqueued, hid])
        rfl rfl
  | cancelled _ _ hqueued hid =>
      exact ids_of_quiet hs (by simp [AvcFrameSlots.queuedIds, hqueued, hid])
        rfl rfl
  | released _ _ hqueued hid =>
      exact ids_of_quiet hs (by simp [AvcFrameSlots.queuedIds, hqueued, hid])
        rfl rfl
  | queued slot hslot hwriting hstate hqueued hid =>
      have hnew : t.queuedIds = [t.frameId slot] := by
        simp [AvcFrameSlots.queuedIds, hqueued]
      simp only [hnew, hid, publishedIds_snoc, takenIds_snoc,
        SlotEvent.publishedId, SlotEvent.takenId, Option.toList_some,
        Option.toList_none, List.append_nil]
      refine ⟨by simp, List.Sublist.append ?_ (List.Sublist.refl _)⟩
      exact (List.sublist_append_left _ _).trans hs.order
  | taken frame hslot hframe hstate hqueued =>
      have hold : s.queuedIds = [s.frameId frame.slot] := by
        rw [AvcFrameSlots.queuedIds, hslot]
        rfl
      have hnew : t.queuedIds = [] := by
        rw [AvcFrameSlots.queuedIds, hqueued]
        rfl
      have horder := hs.order
      rw [hold, ← hframe] at horder
      simp only [hnew, publishedIds_snoc, takenIds_snoc, SlotEvent.publishedId,
        SlotEvent.takenId, Option.toList_none, Option.toList_some,
        List.append_nil]
      exact ⟨by simp, horder⟩

/-- A call keeps the ledger. -/
theorem SlotLedger.call (hs : SlotLedger log s) (c : SlotCall) :
    SlotLedger (log ++ [(s.call c).1]) (s.call c).2 := by
  rcases call_spec s c with ⟨hfailed, hsame⟩ | hmoves
  · rw [hfailed, hsame]
    obtain ⟨hlatest, horder⟩ := ids_of_quiet (t := s) (e := .failed) hs rfl rfl
      rfl
    refine ⟨hs.queued, fun i => ?_, fun i => ?_, hlatest, horder,
      hs.owners.snoc ⟨?_, ?_⟩, hs.takes.snoc ?_⟩
    · rw [ownerAfter_snoc]
      exact hs.writing i
    · rw [ownerAfter_snoc]
      exact hs.held i
    · intro slots h
      cases h
    · intro frame h
      cases h
    · intro frame h
      cases h
  · obtain ⟨hlatest, horder⟩ := ids_of_moves hmoves hs
    exact ⟨queued_of_moves hmoves hs.queued,
      fun i => (owner_of_moves hmoves hs i).1,
      fun i => (owner_of_moves hmoves hs i).2, hlatest, horder,
      hs.owners.snoc (handsOutUnowned_of_moves hmoves hs),
      hs.takes.snoc (takesLatest_of_moves hmoves hs)⟩

theorem slotLedger_runCalls (calls : List SlotCall) (hs : SlotLedger log s) :
    SlotLedger (log ++ (s.runCalls calls).1) (s.runCalls calls).2 := by
  induction calls generalizing log s with
  | nil => simpa [AvcFrameSlots.runCalls] using hs
  | cons c rest ih =>
      have h := ih (hs.call c)
      rwa [List.append_assoc] at h

/-! ## Room for a reservation -/

/-- How many slots are in a state. -/
def AvcFrameSlots.count (s : AvcFrameSlots) (state : SlotState) : ℕ :=
  ((List.range avcFrameSlots).filter fun i => s.state i = state).length

theorem count_add (s : AvcFrameSlots) :
    s.count .free + s.count .writing + s.count .queued + s.count .held =
      avcFrameSlots := by
  have h : ∀ l : List ℕ, (l.filter fun i => s.state i = .free).length +
      (l.filter fun i => s.state i = .writing).length +
      (l.filter fun i => s.state i = .queued).length +
      (l.filter fun i => s.state i = .held).length = l.length := by
    intro l
    induction l with
    | nil => rfl
    | cons i l ih =>
        simp only [List.filter_cons, List.length_cons]
        cases s.state i <;> simp <;> omega
  simpa [AvcFrameSlots.count] using h (List.range avcFrameSlots)

theorem count_queued_le (hs : SlotLedger log s) : s.count .queued ≤ 1 := by
  rw [AvcFrameSlots.count]
  have hnodup : ((List.range avcFrameSlots).filter fun i =>
      s.state i = .queued).Nodup := List.nodup_range.filter _
  have hsub : ((List.range avcFrameSlots).filter fun i =>
      s.state i = .queued) ⊆ s.queued.toList := by
    intro i hi
    rw [List.mem_filter, decide_eq_true_eq] at hi
    simp [(hs.queued i).mp hi.2]
  refine (hnodup.subperm hsub).length_le.trans ?_
  cases s.queued <;> simp

/-- With no reservation outstanding and at most two slots held there is room. -/
theorem reserve_succeeds (hs : SlotLedger log s)
    (hnone : ∀ i < avcFrameSlots, s.state i ≠ .writing)
    (hheld : s.count .held ≤ 2) :
    ∃ slots, (s.call (.reserve true)).1 = .reserved slots := by
  have hwriting : s.count .writing = 0 := by
    rw [AvcFrameSlots.count, List.length_eq_zero_iff, List.filter_eq_nil_iff]
    intro i hi
    simpa using hnone i (List.mem_range.mp hi)
  have htotal := count_add s
  have hqueued := count_queued_le hs
  rw [avcFrameSlots] at htotal
  have hlen : s.found.length = 3 := by
    rw [AvcFrameSlots.found, List.length_take]
    rw [AvcFrameSlots.count] at htotal
    omega
  exact ⟨s.found, by simp [AvcFrameSlots.call, avcFrameSlotsReserve, hlen]⟩

/-- In every run from the start: exactly the slot noted as queued is queued; the
slots that are being written or held are those which the callers own, and no
slot that somebody owns is handed out; a call that fails changes nothing; there
is room for a reservation unless one is outstanding or three slots are held; and
each picture that is taken is the last that was published, in increasing order
if the numbers of the pictures that are published increase. -/
theorem frame_slots_run (calls : List SlotCall) :
    let r := AvcFrameSlots.init.runCalls calls
    (∀ i, r.2.state i = .queued ↔ r.2.queued = some i) ∧
    (∀ i, (r.2.state i = .writing ↔ ownerAfter r.1 i = .writer) ∧
      (r.2.state i = .held ↔ ownerAfter r.1 i = .presenter)) ∧
    Always HandsOutUnowned r.1 ∧
    (∀ c, (r.2.call c).1 = .failed → (r.2.call c).2 = r.2) ∧
    ((∀ i < avcFrameSlots, r.2.state i ≠ .writing) → r.2.count .held ≤ 2 →
      ∃ slots, (r.2.call (.reserve true)).1 = .reserved slots) ∧
    Always TakesLatest r.1 ∧
    ((publishedIds r.1).Pairwise (· < ·) →
      (takenIds r.1).Pairwise (· < ·)) := by
  intro r
  have h : SlotLedger r.1 r.2 := slotLedger_runCalls calls slotLedger_init
  refine ⟨h.queued, fun i => ⟨h.writing i, h.held i⟩, h.owners, fun c hc => ?_,
    fun hnone hheld => reserve_succeeds h hnone hheld, h.takes, fun hids => ?_⟩
  · rcases call_spec r.2 c with ⟨-, hsame⟩ | hmoves
    · exact hsame
    · rw [hc] at hmoves
      cases hmoves
  · exact hids.sublist ((List.sublist_append_left _ _).trans h.order)

end MoonlightPsp.Avc
