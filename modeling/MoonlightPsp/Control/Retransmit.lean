import Mathlib.Data.Fintype.Card
import MoonlightPsp.Control.Model

/-!
# The retransmit rings

Reliable packets wait in a ring of slots for their ACK.  Control messages and
input events have a ring each.  A scan goes over the slots and resends what was
not acknowledged in time; the input ring gives up on the whole stream, the
control ring on the packet.
-/

namespace MoonlightPsp.Control

/-! ## Round trip times -/

/-- `RTO_MIN_US`. -/
def rtoMinUs : UInt32 := 50000

/-- `RTO_MAX_US`. -/
def rtoMaxUs : UInt32 := 1000000

/-- The smoothed values after one more sample. -/
def Rtt.smooth (r : Rtt) (rttSampleUs : UInt32) : Rtt :=
  if !r.initialized then
    { r with
      srttUs := rttSampleUs
      rttvarUs := rttSampleUs / 2
      initialized := true }
  else
    let delta := rttSampleUs.toInt32 - r.srttUs.toInt32
    let delta := if delta < 0 then -delta else delta
    { r with
      rttvarUs := (3 * r.rttvarUs + delta.toUInt32) / 4
      srttUs := (7 * r.srttUs + rttSampleUs) / 8 }

/-- `rtt_update`. -/
def rttUpdate (r : Rtt) (rttSampleUs : UInt32) : Rtt :=
  let r := r.smooth rttSampleUs
  let rto := r.srttUs + 4 * r.rttvarUs
  let rto := if rto < rtoMinUs then rtoMinUs else rto
  { r with rtoUs := if rto > rtoMaxUs then rtoMaxUs else rto }

/-! ## The ring of control messages -/

/-- The first slot, from slot 0 on, for which `p` holds. -/
def findSlot (p : Fin retxSlots → Bool) : Option (Fin retxSlots) :=
  (List.finRange retxSlots).find? p

/-- A slot of the control ring is filled. -/
def fillSlot (c : Globals) (slot : Fin retxSlots) (pkt : Packet)
    (channel : UInt8) (seq : UInt16) (now : UInt32) : Globals :=
  { c with
    retxRing := Function.update c.retxRing slot
      ⟨pkt, channel, seq, now, 0, false, true⟩ }

/-- `retx_store`. -/
def retxStore (c : Globals) (pkt : Packet) (channel : UInt8) (seq : UInt16)
    (now : UInt32) : Globals :=
  if pkt.length = 0 ∨ pkt.length > retxPktMax then c
  else
    { fillSlot c c.retxHead pkt channel seq now with
      retxHead := c.retxHead + 1 }

/-- A slot of the control ring that waits for this ACK. -/
def awaitsAck (channel : UInt8) (seq : UInt16) (e : RetxEntry) : Bool :=
  e.active && !e.acked && e.channel == channel && e.seq == seq

/-- The control ring in `retx_ack`. -/
def controlRetxAck (c : Globals) (channel : UInt8) (seq : UInt16)
    (now : UInt32) : Globals :=
  match findSlot fun i => awaitsAck channel seq (c.retxRing i) with
  | none => c
  | some i =>
      let e := c.retxRing i
      let rtt := now - e.sendTimeUs
      { c with
        retxRing := Function.update c.retxRing i { e with acked := true }
        rtt := if e.retries = 0 ∧ rtt > 0 ∧ rtt < 5000000 then
          rttUpdate c.rtt rtt else c.rtt }

/-- `RETX_MAX_TRIES`. -/
def retxMaxTries : UInt8 := 5

/-- One slot of the loop in `retx_scan`. -/
def retxScanSlot (c : Globals) (now : UInt32) (i : Fin retxSlots) : Globals :=
  let e := c.retxRing i
  if !e.active ∨ e.acked then c
  else if now - e.sendTimeUs < c.rtt.rtoUs then c
  else if e.retries ≥ retxMaxTries then
    { c with retxRing := Function.update c.retxRing i { e with active := false } }
  else
    { c with
      retxRing := Function.update c.retxRing i
        { e with sendTimeUs := now, retries := e.retries + 1 } }

/-- What `retx_ack` or `retx_scan` is about to write to a slot it has looked
at. -/
inductive SlotVisit where
  | ack (slot : Fin retxSlots) (now : UInt32)
  | giveUp (slot : Fin retxSlots)
  | resend (slot : Fin retxSlots) (now : UInt32)
deriving DecidableEq

def SlotVisit.slot : SlotVisit → Fin retxSlots
  | .ack slot _ => slot
  | .giveUp slot => slot
  | .resend slot _ => slot

/-- The write. -/
def SlotVisit.finish (c : Globals) : SlotVisit → Globals
  | .ack i now =>
      let e := c.retxRing i
      let rtt := now - e.sendTimeUs
      { c with
        retxRing := Function.update c.retxRing i { e with acked := true }
        rtt := if e.retries = 0 ∧ rtt > 0 ∧ rtt < 5000000 then
          rttUpdate c.rtt rtt else c.rtt }
  | .giveUp i =>
      { c with
        retxRing := Function.update c.retxRing i
          { c.retxRing i with active := false } }
  | .resend i now =>
      let e := c.retxRing i
      { c with
        retxRing := Function.update c.retxRing i
          { e with sendTimeUs := now, retries := e.retries + 1 } }

/-- What `retx_ack` finds in the control ring. -/
def lookAck (c : Globals) (channel : UInt8) (seq : UInt16) (now : UInt32) :
    Option SlotVisit :=
  (findSlot fun i => awaitsAck channel seq (c.retxRing i)).map (.ack · now)

/-- What `retx_scan` finds in a slot. -/
def lookScan (c : Globals) (now : UInt32) (i : Fin retxSlots) :
    Option SlotVisit :=
  let e := c.retxRing i
  if !e.active ∨ e.acked then none
  else if now - e.sendTimeUs < c.rtt.rtoUs then none
  else if e.retries ≥ retxMaxTries then some (.giveUp i)
  else some (.resend i now)

/-- Undisturbed, the control ring in `retx_ack` is looked at and written. -/
theorem controlRetxAck_eq (c : Globals) (channel : UInt8) (seq : UInt16)
    (now : UInt32) :
    controlRetxAck c channel seq now =
      (lookAck c channel seq now).elim c (SlotVisit.finish c) := by
  unfold controlRetxAck lookAck
  cases findSlot fun i => awaitsAck channel seq (c.retxRing i) with
  | none => rfl
  | some i => rfl

/-- And so is a slot in `retx_scan`. -/
theorem retxScanSlot_eq (c : Globals) (now : UInt32) (i : Fin retxSlots) :
    retxScanSlot c now i =
      (lookScan c now i).elim c (SlotVisit.finish c) := by
  unfold retxScanSlot lookScan
  dsimp only
  split_ifs
  · rfl
  · rfl
  · rfl
  · rfl

/-- `retx_clear`. -/
def retxClear (c : Globals) : Globals :=
  { c with
    retxRing := fun i => { c.retxRing i with active := false, acked := false }
    retxHead := 0
    rtt := Rtt.reset }

/-! ## The ring of input events -/

/-- `INPUT_RETX_MAX_TRIES`. -/
def inputRetxMaxTries : UInt8 := 8

/-- `INPUT_DELIVERY_TIMEOUT_US`. -/
def inputDeliveryTimeoutUs : UInt32 := 8000000

/-- `input_delivery_failed`. -/
def inputDeliveryFailed (c : Globals) : Globals :=
  { c with streamStatus := 1, meRunning := false }

/-- The channels whose ACKs are looked up among the input events. -/
def isInputChannel (channel : UInt8) : Bool :=
  channel == 0x02 || channel == 0x03 || channel == 0x10

/-- The slot becomes free, and its event counts as acknowledged. -/
def releaseInput (c : Globals) (i : Fin retxSlots) : Globals :=
  { c with
    inputRetxRing := Function.update c.inputRetxRing i
      { c.inputRetxRing i with active := false }
    inputAcked := c.inputAcked + 1 }

/-- A slot of the input ring that holds this packet. -/
def holdsInput (channel : UInt8) (seq : UInt16) (e : RetxEntry) : Bool :=
  e.active && e.channel == channel && e.seq == seq

/-- `input_retx_ack`, while it holds the semaphore. -/
def inputRetxAck (c : Globals) (channel : UInt8) (seq : UInt16) : Globals :=
  match findSlot fun i => holdsInput channel seq (c.inputRetxRing i) with
  | none => c
  | some i => releaseInput c i

/-- `retx_ack`; `taken` says whether the input semaphore was. -/
def retxAck (c : Globals) (channel : UInt8) (seq : UInt16) (now : UInt32)
    (taken : Bool) : Globals :=
  let c := if isInputChannel channel && taken then inputRetxAck c channel seq
    else c
  controlRetxAck c channel seq now

/-- The delay before the next try of an input event. -/
def retryDelay (rtoUs : UInt32) (retries : UInt8) : UInt32 :=
  let shift := if retries < 5 then retries.toUInt32 else 5
  let delay := rtoUs <<< shift
  if delay > 1000000 then 1000000 else delay

/-- The packet with the time of this send. -/
def stampSentTime (data : Packet) (now : UInt32) : Packet :=
  let sentTime := (now / 1000).toUInt16
  (data.set 2 (sentTime >>> 8).toUInt8).set 3 sentTime.toUInt8

/-- The slot after it was resent. -/
def resendInput (c : Globals) (now : UInt32) (i : Fin retxSlots) : Globals :=
  let e := c.inputRetxRing i
  { c with
    inputRetxRing := Function.update c.inputRetxRing i
      { e with
        data := stampSentTime e.data now
        sendTimeUs := now
        retries := e.retries + 1 }
    inputRetries := c.inputRetries + 1 }

/-- One slot of the loop in `input_retx_scan`; nothing if the event is
exhausted, which ends the loop. -/
def inputRetxScanSlot (c : Globals) (now : UInt32) (i : Fin retxSlots) :
    Option Globals :=
  let e := c.inputRetxRing i
  if !e.active ∨ now - e.sendTimeUs < retryDelay c.rtt.rtoUs e.retries then
    some c
  else if e.retries ≥ inputRetxMaxTries ∨
      now - c.inputFirstSendUs i ≥ inputDeliveryTimeoutUs then
    none
  else some (resendInput c now i)

/-- The loop of `input_retx_scan` over the slots still to visit, and whether it
found an exhausted event. -/
def inputRetxScanFrom (c : Globals) (now : UInt32) :
    List (Fin retxSlots) → Globals × Bool
  | [] => (c, false)
  | i :: rest =>
      match inputRetxScanSlot c now i with
      | none => (c, true)
      | some c' => inputRetxScanFrom c' now rest

/-- `input_retx_scan`. -/
def inputRetxScan (c : Globals) (now : UInt32) (taken : Bool) : Globals :=
  if !taken then c
  else
    let scanned := inputRetxScanFrom c now (List.finRange retxSlots)
    if scanned.2 then inputDeliveryFailed scanned.1 else scanned.1

/-- `retx_scan`: it reads the clock once for each ring. -/
def retxScan (c : Globals) (inputNow now : UInt32) (taken : Bool) : Globals :=
  (List.finRange retxSlots).foldl (fun c i => retxScanSlot c now i)
    (inputRetxScan c inputNow taken)

/-- An input event is put into a slot. -/
def storeInput (c : Globals) (slot : Fin retxSlots) (pkt : Packet)
    (channel : UInt8) (now : UInt32) : Globals :=
  { c with
    inputRetxRing := Function.update c.inputRetxRing slot
      { c.inputRetxRing slot with
        data := pkt
        channel
        seq := readBe16 pkt 6
        sendTimeUs := now
        retries := 0
        active := true }
    inputFirstSendUs := Function.update c.inputFirstSendUs slot now
    inputQueued := c.inputQueued + 1 }

/-! ## The slots in use -/

theorem findSlot_eq_some {p : Fin retxSlots → Bool} {i : Fin retxSlots}
    (h : findSlot p = some i) : p i = true := List.find?_some h

/-- The active slots of a ring. -/
def activeSlots (ring : Fin retxSlots → RetxEntry) : Finset (Fin retxSlots) :=
  Finset.univ.filter fun i => (ring i).active

@[simp]
theorem mem_activeSlots {ring : Fin retxSlots → RetxEntry}
    {i : Fin retxSlots} : i ∈ activeSlots ring ↔ (ring i).active = true := by
  simp [activeSlots]

theorem activeSlots_update_active (ring : Fin retxSlots → RetxEntry)
    (i : Fin retxSlots) {e : RetxEntry} (he : e.active = true) :
    activeSlots (Function.update ring i e) = insert i (activeSlots ring) := by
  ext j
  by_cases hj : j = i
  · subst hj
    simp [he]
  · simp [hj]

theorem activeSlots_update_inactive (ring : Fin retxSlots → RetxEntry)
    (i : Fin retxSlots) {e : RetxEntry} (he : e.active = false) :
    activeSlots (Function.update ring i e) = (activeSlots ring).erase i := by
  ext j
  by_cases hj : j = i
  · subst hj
    simp [he]
  · simp [hj]

end MoonlightPsp.Control
