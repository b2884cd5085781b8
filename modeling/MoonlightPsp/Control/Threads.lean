import MoonlightPsp.Control.Retransmit

/-!
# The threads of the control channel

Senders, the receiver and the ping thread share the globals.  The input ring is
only touched by the holder of its semaphore; a run interleaves the steps of the
holder with everything the other threads do without it.

The control ring has no semaphore.  Calls of `retx_store` come from several
threads and may overlap with each other and with the visits of `retx_ack` and
`retx_scan`, so each is a sequence of steps.

The state keeps, besides the globals, the history the invariants speak about:
the input events queued and the slot each went to, and the reliable sequence
numbers that are neither acknowledged nor given up.
-/

namespace MoonlightPsp.Control

/-! ## Control messages -/

/-- The messages that are sent reliably outside the input path. -/
inductive Site where
  | startA
  | startB
  | ping
  | idrRequest
  | rfiRequest (startFrame endFrame : UInt32)
  /-- The echo of the server hello. -/
  | helloEcho (msgPayload : List UInt8)

/-- The message type. -/
def Site.msgType : Site → UInt16
  | .startA => 0x0302
  | .startB => 0x0307
  | .ping => 0x0200
  | .idrRequest => 0x0302
  | .rfiRequest _ _ => 0x0301
  | .helloEcho _ => 0x010E

/-- The payload. -/
def Site.payload : Site → List UInt8
  | .startA => [0x00, 0x00]
  | .startB => [0x00]
  | .ping => [0x04, 0x00, 0, 0, 0, 0, 0, 0]
  | .idrRequest => [0x00, 0x00]
  | .rfiRequest startFrame endFrame =>
      putLe32 startFrame ++ [0, 0, 0, 0] ++ putLe32 endFrame ++
        List.replicate 12 0
  | .helloEcho msgPayload => if msgPayload = [] then [0x00] else msgPayload

/-- The ENet channel: generic, and urgent for the recovery requests. -/
def Site.channel : Site → UInt8
  | .idrRequest => 0x01
  | .rfiRequest _ _ => 0x01
  | _ => 0x00

/-- The size of the buffer the packet is built in. -/
def Site.buflen : Site → ℕ
  | .startA => 64
  | .startB => 64
  | _ => 128

/-- The packet of a message is built. -/
def buildSite (gcm : Gcm) (env : BuildEnv) (c : Globals) (site : Site) :
    Option Packet × Globals :=
  buildEncryptedControlMsg gcm env c site.buflen site.msgType site.payload
    site.channel

/-- After the packet was sent with result `tx`: it is kept if it went out. -/
def finishSite (c : Globals) (pkt : Packet) (tx : ℤ) (now : UInt32) : Globals :=
  if tx > 0 then
    retxStore c pkt (pktGetChannelSeq pkt).1 (pktGetChannelSeq pkt).2 now
  else c

/-! ## Input events -/

/-- `CTRL_TYPE_INPUT`. -/
def ctrlTypeInput : UInt16 := 0x0206

/-- The size of the packet buffer of `control_stream_send_input`. -/
def inputBuflen : ℕ := 128

/-- Everything but relative mouse motion is sent reliably. -/
def isReliable (payload : List UInt8) (channel : UInt8) : Bool :=
  !(channel == 0x03 && byteAt payload 4 == 0x07 && byteAt payload 5 == 0 &&
    byteAt payload 6 == 0 && byteAt payload 7 == 0)

/-- The checks before anything is touched. -/
def acceptsInput (c : Globals) (payload : List UInt8) : Bool :=
  c.cryptoReady && c.socketOpen && decide (8 ≤ payload.length) &&
    decide (payload.length ≤ 92)

/-- The first slot that is not in use. -/
def freeSlot (c : Globals) : Option (Fin retxSlots) :=
  findSlot fun i => !(c.inputRetxRing i).active

/-- What the system calls of one `control_stream_send_input` return. -/
structure SendEnv where
  inputTaken : Bool
  build : BuildEnv
  now : UInt32
  tx : ℤ

/-- `control_stream_send_input`: the return value and the state after. -/
def controlStreamSendInput (gcm : Gcm) (env : SendEnv) (c : Globals)
    (payload : List UInt8) (channel : UInt8) : ℤ × Globals :=
  if !acceptsInput c payload then (-1, c)
  else if isReliable payload channel then
    if !env.inputTaken then (-1, inputDeliveryFailed c)
    else
      match freeSlot c with
      | none => (-1, inputDeliveryFailed c)
      | some slot =>
          match buildEncryptedControlMsg gcm env.build c inputBuflen
            ctrlTypeInput payload channel with
          | (none, c') => (-1, inputDeliveryFailed c')
          | (some pkt, c') =>
              (pkt.length, storeInput c' slot pkt channel env.now)
  else
    match buildEncryptedUnsequencedMsg gcm env.build c inputBuflen
      ctrlTypeInput payload channel with
    | (none, c') => (-1, c')
    | (some _, c') => (env.tx, c')

/-! ## The holder of the input semaphore -/

/-- Where the holder of the input semaphore is. -/
inductive Holder where
  | sending (payload : List UInt8) (channel : UInt8)
  | slotFound (payload : List UInt8) (channel : UInt8) (slot : Fin retxSlots)
  | built (pkt : Packet) (channel : UInt8) (slot : Fin retxSlots)
  /-- No slot was free, or the packet could not be built. -/
  | sendFailing
  | acking (channel : UInt8) (seq : UInt16)
  | scanning (now : UInt32) (rest : List (Fin retxSlots))
  /-- The scan found an exhausted event. -/
  | exhausted
  | leaving

/-- An input event as it was queued. -/
structure Queued where
  channel : UInt8
  seq : UInt16
  packet : Packet
deriving DecidableEq

/-- A call of `retx_store`: it has read which slot is next, has filled it, or has
read the head once more to advance it. -/
inductive StoreCall where
  | claimed (pkt : Packet) (slot : Fin retxSlots)
  | filled
  | advancing (head : Fin retxSlots)
deriving DecidableEq

/-- The globals, the holder of the input semaphore, the control packets that
were built and not sent yet, the calls that are in the control ring, and the
history. -/
structure System where
  globals : Globals
  holder : Option Holder
  inHand : List Packet
  storing : List StoreCall
  visits : List SlotVisit
  /-- The input events in the order they were queued. -/
  queued : List Queued
  /-- The number of the event a slot was last filled with. -/
  owner : Fin retxSlots → ℕ
  /-- The reliable numbers taken, neither acknowledged nor given up. -/
  outstanding : List (UInt8 × UInt16)

/-- A state between two calls, with no history yet. -/
def System.start (c : Globals) : System :=
  ⟨c, none, [], [], [], [], fun _ => 0, []⟩

/-- What the system calls of one step return. -/
structure StepEnv where
  build : BuildEnv
  now : UInt32

/-- A reliable number of `channel` was taken. -/
def System.noteTaken (s : System) (channel : UInt8) : System :=
  { s with
    outstanding := s.outstanding ++
      [(channel, s.globals.reliableSeqPerCh channel)] }

/-- The number is settled. -/
def System.noteSettled (s : System) (channel : UInt8) (seq : UInt16) : System :=
  { s with outstanding := s.outstanding.filter (· ≠ (channel, seq)) }

/-- A slot of the input ring is filled. -/
def System.store (s : System) (slot : Fin retxSlots) (pkt : Packet)
    (channel : UInt8) (now : UInt32) : System :=
  { s with
    globals := storeInput s.globals slot pkt channel now
    holder := some .leaving
    queued := s.queued ++ [⟨channel, readBe16 pkt 6, pkt⟩]
    owner := Function.update s.owner slot s.queued.length }

/-- The globals and the holder change, the history does not. -/
def System.move (s : System) (c : Globals) (h : Option Holder) : System :=
  { s with globals := c, holder := h }

/-- The next step of the holder. -/
def holderStep (gcm : Gcm) (env : StepEnv) (s : System) : Holder → System
  | .sending payload channel =>
      match freeSlot s.globals with
      | none => s.move s.globals (some .sendFailing)
      | some slot => s.move s.globals (some (.slotFound payload channel slot))
  | .slotFound payload channel slot =>
      match buildEncryptedControlMsg gcm env.build s.globals inputBuflen
        ctrlTypeInput payload channel with
      | (none, c) => s.move c (some .sendFailing)
      | (some pkt, c) =>
          (s.noteTaken channel).move c (some (.built pkt channel slot))
  | .built pkt channel slot => s.store slot pkt channel env.now
  | .sendFailing => s.move (inputDeliveryFailed s.globals) none
  | .acking channel seq =>
      s.move (inputRetxAck s.globals channel seq) (some .leaving)
  | .scanning _ [] => s.move s.globals (some .leaving)
  | .scanning now (i :: rest) =>
      match inputRetxScanSlot s.globals now i with
      | none => s.move s.globals (some .exhausted)
      | some c => s.move c (some (.scanning now rest))
  | .exhausted => s.move (inputDeliveryFailed s.globals) none
  | .leaving => s.move s.globals none

/-! ## The control ring -/

/-- A call site keeps its packet if it went out: `retx_store` reads the slot. -/
def System.claim (s : System) (pkt : Packet) (tx : ℤ) : System :=
  if tx > 0 ∧ ¬ (pkt.length = 0 ∨ pkt.length > retxPktMax) then
    { s with storing := s.storing ++ [.claimed pkt s.globals.retxHead] }
  else s

/-- The next step of a call of `retx_store`. -/
def storeStep (now : UInt32) (s : System) (call : StoreCall) : System :=
  let rest := s.storing.erase call
  match call with
  | .claimed pkt slot =>
      { s with
        globals := fillSlot s.globals slot pkt (pktGetChannelSeq pkt).1
          (pktGetChannelSeq pkt).2 now
        storing := rest ++ [.filled] }
  | .filled =>
      { s with storing := rest ++ [.advancing s.globals.retxHead] }
  | .advancing head =>
      { s with
        globals := { s.globals with retxHead := head + 1 }
        storing := rest }

/-- A slot was looked at, with this to be written. -/
def System.noteVisit (s : System) (visit : Option SlotVisit) : System :=
  { s with visits := s.visits ++ visit.toList }

/-! ## Runs -/

/-- What any of the threads does next. -/
inductive Event where
  /-- A reliable `control_stream_send_input` waits for the input semaphore. -/
  | enterSend (payload : List UInt8) (channel : UInt8) (taken : Bool)
  /-- `retx_ack` does for an ACK on an input channel. -/
  | enterAck (channel : UInt8) (seq : UInt16) (taken : Bool)
  /-- `input_retx_scan` does. -/
  | enterScan (now : UInt32) (taken : Bool)
  /-- The holder takes a step. -/
  | holder (env : StepEnv)
  /-- Relative mouse motion is sent unsequenced. -/
  | unsequenced (payload : List UInt8) (channel : UInt8) (env : BuildEnv)
  /-- `retx_ack` goes over the control ring. -/
  | controlAck (channel : UInt8) (seq : UInt16) (now : UInt32)
  /-- `retx_scan` looks at a slot of the control ring. -/
  | controlScan (now : UInt32) (i : Fin retxSlots)
  /-- One of them writes what it has decided. -/
  | visit (v : SlotVisit)
  | build (site : Site) (env : BuildEnv)
  /-- A built control packet was sent with result `tx`. -/
  | sent (pkt : Packet) (tx : ℤ)
  /-- A call of `retx_store` goes on. -/
  | store (call : StoreCall) (now : UInt32)

/-- The semaphore is taken, if it is free, by a thread that then is at `h`. -/
def System.enter (s : System) (h : Holder) : Option System :=
  if s.holder.isNone then some (s.move s.globals (some h)) else none

/-- A slot the control scan gives up has its number settled. -/
def System.noteGivenUp (s : System) : Option SlotVisit → System
  | some (.giveUp i) =>
      s.noteSettled (s.globals.retxRing i).channel (s.globals.retxRing i).seq
  | _ => s

/-- One step of the threads, if it is possible. -/
def step (gcm : Gcm) (s : System) : Event → Option System
  | .enterSend payload channel taken =>
      if !(acceptsInput s.globals payload && isReliable payload channel) then
        none
      else if taken then s.enter (.sending payload channel)
      else some (s.move (inputDeliveryFailed s.globals) s.holder)
  | .enterAck channel seq taken =>
      if !isInputChannel channel then none
      else if taken then (s.noteSettled channel seq).enter (.acking channel seq)
      else some (s.noteSettled channel seq)
  | .enterScan now taken =>
      if taken then s.enter (.scanning now (List.finRange retxSlots))
      else some s
  | .holder env => s.holder.map (holderStep gcm env s)
  | .unsequenced payload channel env =>
      if !acceptsInput s.globals payload || isReliable payload channel then none
      else
        some (s.move (buildEncryptedUnsequencedMsg gcm env s.globals
          inputBuflen ctrlTypeInput payload channel).2 s.holder)
  | .controlAck channel seq now =>
      some ((s.noteSettled channel seq).noteVisit
        (lookAck s.globals channel seq now))
  | .controlScan now i =>
      let found := lookScan s.globals now i
      some ((s.noteGivenUp found).noteVisit found)
  | .visit v =>
      if v ∈ s.visits then
        some { s.move (v.finish s.globals) s.holder with
          visits := s.visits.erase v }
      else none
  | .build site env =>
      match buildSite gcm env s.globals site with
      | (none, c) => some (s.move c s.holder)
      | (some pkt, c) =>
          some { (s.noteTaken site.channel).move c s.holder with
            inHand := s.inHand ++ [pkt] }
  | .sent pkt tx =>
      if pkt ∈ s.inHand then
        some { s.claim pkt tx with inHand := s.inHand.erase pkt }
      else none
  | .store call now =>
      if call ∈ s.storing then some (storeStep now s call) else none

/-- A run from `s`, if every step is possible. -/
def run (gcm : Gcm) (s : System) : List Event → Option System
  | [] => some s
  | e :: es => (step gcm s e).bind fun s' => run gcm s' es

/-- Every step of the run meets a condition on the state before it. -/
def Meets (Q : System → Event → Prop) (gcm : Gcm) (s : System) :
    List Event → Prop
  | [] => True
  | e :: es => Q s e ∧ ∀ s', step gcm s e = some s' → Meets Q gcm s' es

theorem meets_of_forall {Q : Event → Prop} {gcm : Gcm} {s : System}
    {es : List Event} (h : ∀ e ∈ es, Q e) : Meets (fun _ e => Q e) gcm s es := by
  induction es generalizing s with
  | nil => trivial
  | cons e es ih =>
      exact ⟨h e (by simp), fun s' _ => ih fun d hd => h d (by simp [hd])⟩

theorem Meets.mono {Q R : System → Event → Prop} {gcm : Gcm} {s : System}
    {es : List Event} (h : Meets Q gcm s es) (himp : ∀ s e, Q s e → R s e) :
    Meets R gcm s es := by
  induction es generalizing s with
  | nil => trivial
  | cons e es ih => exact ⟨himp s e h.1, fun s' hs' => ih (h.2 s' hs')⟩

theorem Meets.and {Q R : System → Event → Prop} {gcm : Gcm} {s : System}
    {es : List Event} (hQ : Meets Q gcm s es) (hR : Meets R gcm s es) :
    Meets (fun s e => Q s e ∧ R s e) gcm s es := by
  induction es generalizing s with
  | nil => trivial
  | cons e es ih =>
      exact ⟨⟨hQ.1, hR.1⟩, fun s' hs' => ih (hQ.2 s' hs') (hR.2 s' hs')⟩

/-- What every step that meets the condition keeps holds after a run. -/
theorem run_induction {Q : System → Event → Prop} {gcm : Gcm}
    {P : System → Prop}
    (hstep : ∀ s e s', P s → Q s e → step gcm s e = some s' → P s')
    {s s' : System} {es : List Event} (h : run gcm s es = some s')
    (hQ : Meets Q gcm s es) (hs : P s) : P s' := by
  induction es generalizing s with
  | nil =>
      obtain rfl : s = s' := by simpa [run] using h
      exact hs
  | cons e es ih =>
      obtain ⟨s₁, hs₁, hrun⟩ := Option.bind_eq_some_iff.mp h
      exact ih hrun (hQ.2 s₁ hs₁) (hstep s e s₁ hs hQ.1 hs₁)

/-! ## A session to try runs on -/

/-- A cipher that hides nothing. -/
def Gcm.identity : Gcm := fun _ plaintext =>
  some ⟨List.replicate 16 0, plaintext, List.length_replicate, rfl⟩

/-- The globals after the handshake, before the first message. -/
def Globals.fresh : Globals where
  cryptoReady := true
  socketOpen := true
  ctrlRunning := true
  meRunning := true
  streamStatus := 0
  serverPeerId := 0
  sessionBits := 0
  reliableSeqPerCh := fun _ => 1
  nextCtrlEncSeq := 0
  unsequencedGroup := 1
  retxRing := fun _ => .zero
  retxHead := ⟨0, retxSlots_pos⟩
  inputRetxRing := fun _ => .zero
  inputFirstSendUs := fun _ => 0
  inputQueued := 0
  inputAcked := 0
  inputRetries := 0
  rtt := Rtt.reset

/-! ## The calls as runs -/

/-- The run reaches a state with these globals in which the semaphore is free. -/
def Reaches (gcm : Gcm) (s : System) (c : Globals) : Prop :=
  ∃ es s', run gcm s es = some s' ∧ s'.holder = none ∧ s'.globals = c

theorem Reaches.cons {gcm : Gcm} {s t : System} {c : Globals} (e : Event)
    (he : step gcm s e = some t) (h : Reaches gcm t c) : Reaches gcm s c := by
  obtain ⟨es, s', hrun, hholder, hc⟩ := h
  exact ⟨e :: es, s', by rw [run, he]; exact hrun, hholder, hc⟩

theorem reaches_self {gcm : Gcm} {s : System} (h : s.holder = none) :
    Reaches gcm s s.globals := ⟨[], s, rfl, h, rfl⟩

theorem run_append (gcm : Gcm) (s : System) (es es' : List Event) :
    run gcm s (es ++ es') = (run gcm s es).bind fun s' => run gcm s' es' := by
  induction es generalizing s with
  | nil => rfl
  | cons e es ih =>
      simp only [List.cons_append, run, Option.bind_assoc]
      exact congrArg _ (funext fun s' => ih s')

/-- One run leads to where the next starts. -/
theorem Reaches.trans {gcm : Gcm} {s : System} {c c' : Globals}
    (h : Reaches gcm s c)
    (hnext : ∀ s₁ : System, s₁.holder = none → s₁.globals = c →
      Reaches gcm s₁ c') : Reaches gcm s c' := by
  obtain ⟨es, s₁, hrun, hholder, hc⟩ := h
  obtain ⟨es', s₂, hrun', hholder', hc'⟩ := hnext s₁ hholder hc
  exact ⟨es ++ es', s₂, by rw [run_append, hrun]; exact hrun', hholder', hc'⟩

/-- The holder's steps lead on. -/
theorem Reaches.of_holder {gcm : Gcm} {s : System} {c : Globals} {h : Holder}
    (env : StepEnv) (hs : s.holder = some h)
    (hnext : Reaches gcm (holderStep gcm env s h) c) : Reaches gcm s c :=
  hnext.cons (.holder env) (by rw [step, hs]; rfl)

/-- A reliable `control_stream_send_input` is a run of its steps. -/
theorem reaches_sendInput (gcm : Gcm) (env : SendEnv) {s : System}
    {payload : List UInt8} {channel : UInt8} (hfree : s.holder = none)
    (haccepts : acceptsInput s.globals payload = true)
    (hreliable : isReliable payload channel = true) :
    Reaches gcm s
      (controlStreamSendInput gcm env s.globals payload channel).2 := by
  unfold controlStreamSendInput
  rw [haccepts, hreliable]
  simp only [Bool.not_true, Bool.false_eq_true, if_false, if_true]
  by_cases htaken : env.inputTaken = true
  swap
  · rw [if_pos (by simpa using htaken)]
    refine Reaches.cons (.enterSend payload channel false)
      (t := s.move (inputDeliveryFailed s.globals) s.holder) ?_
      (reaches_self hfree)
    simp [step, haccepts, hreliable]
  rw [if_neg (by simpa using htaken)]
  refine Reaches.cons (t := s.move s.globals (some (.sending payload channel)))
    (.enterSend payload channel true)
    (by simp [step, haccepts, hreliable, System.enter, hfree]) ?_
  let env' : StepEnv := ⟨env.build, env.now⟩
  refine .of_holder env' rfl ?_
  cases hslot : freeSlot s.globals with
  | none =>
      simp only [holderStep, System.move, hslot]
      exact .of_holder env' rfl (reaches_self rfl)
  | some slot =>
      simp only [holderStep, System.move, hslot]
      refine .of_holder env' rfl ?_
      rcases hbuild : buildEncryptedControlMsg gcm env.build s.globals
        inputBuflen ctrlTypeInput payload channel with ⟨pkt, c⟩
      cases pkt with
      | none =>
          simp only [holderStep, System.move, env', hbuild]
          exact .of_holder env' rfl (reaches_self rfl)
      | some pkt =>
          simp only [holderStep, System.move, env', hbuild]
          exact .of_holder env' rfl (.of_holder env' rfl (reaches_self rfl))

/-- What was found in a slot is written. -/
theorem reaches_visit (gcm : Gcm) {s : System} (hfree : s.holder = none)
    (visit : Option SlotVisit) :
    Reaches gcm (s.noteVisit visit)
      (visit.elim s.globals (SlotVisit.finish s.globals)) := by
  cases visit with
  | none => exact reaches_self hfree
  | some v =>
      have hmem : v ∈ (s.noteVisit (some v)).visits :=
        List.mem_append_right _ (List.mem_singleton_self v)
      refine Reaches.cons (.visit v) (by rw [step, if_pos hmem])
        (reaches_self ?_)
      exact hfree

/-- What a call site does after its send is a run, too. -/
theorem reaches_finishSite (gcm : Gcm) {s : System} {pkt : Packet} (tx : ℤ)
    (now : UInt32) (hfree : s.holder = none) (hpkt : pkt ∈ s.inHand) :
    Reaches gcm s (finishSite s.globals pkt tx now) := by
  refine Reaches.cons (.sent pkt tx) (by rw [step, if_pos hpkt]) ?_
  by_cases hkeep : tx > 0 ∧ ¬ (pkt.length = 0 ∨ pkt.length > retxPktMax)
  · rw [finishSite, retxStore, if_pos hkeep.1, if_neg hkeep.2, System.claim,
      if_pos hkeep]
    refine Reaches.cons (.store (.claimed pkt s.globals.retxHead) now)
      (by rw [step, if_pos (by simp)]) ?_
    refine Reaches.cons (.store .filled now)
      (by rw [step, if_pos (by simp [storeStep])]) ?_
    refine Reaches.cons (.store (.advancing s.globals.retxHead) now)
      (by rw [step, if_pos (by simp [storeStep, fillSlot])]) ?_
    exact reaches_self hfree
  · rw [System.claim, if_neg hkeep, finishSite, retxStore]
    split
    · rename_i htx
      rw [if_pos (not_not.mp fun hlen => hkeep ⟨htx, hlen⟩)]
      exact reaches_self hfree
    · exact reaches_self hfree

/-- So is `retx_ack`. -/
theorem reaches_retxAck (gcm : Gcm) (env : StepEnv) {s : System}
    (channel : UInt8) (seq : UInt16) (now : UInt32) (taken : Bool)
    (hfree : s.holder = none) :
    Reaches gcm s (retxAck s.globals channel seq now taken) := by
  have hlast : ∀ s₁ : System, s₁.holder = none →
      Reaches gcm s₁ (controlRetxAck s₁.globals channel seq now) :=
    fun s₁ h₁ => by
      rw [controlRetxAck_eq]
      exact .cons (.controlAck channel seq now) rfl
        (reaches_visit (s := s₁.noteSettled channel seq) gcm h₁ _)
  unfold retxAck
  by_cases hinput : isInputChannel channel = true
  swap
  · simpa [hinput] using hlast s hfree
  by_cases htaken : taken = true
  · subst htaken
    simp only [hinput, Bool.and_self, if_true]
    refine Reaches.cons (.enterAck channel seq true) (t :=
      (s.noteSettled channel seq).move s.globals (some (.acking channel seq)))
      (by simp [step, hinput, System.enter, System.noteSettled, hfree]) ?_
    refine .of_holder env rfl (.of_holder env rfl ?_)
    exact hlast _ rfl
  · rw [Bool.not_eq_true] at htaken
    subst htaken
    simpa using hlast s hfree

/-- The globals after a scan of the input ring that came to this result. -/
def afterInputScan (scanned : Globals × Bool) : Globals :=
  if scanned.2 then inputDeliveryFailed scanned.1 else scanned.1

/-- The holder scans the rest of the input ring and leaves. -/
theorem reaches_inputScanFrom (gcm : Gcm) (env : StepEnv) (now : UInt32)
    (rest : List (Fin retxSlots)) {s : System}
    (hs : s.holder = some (.scanning now rest)) {c : Globals}
    (hnext : ∀ s₁ : System, s₁.holder = none → s₁.globals =
      afterInputScan (inputRetxScanFrom s.globals now rest) →
      Reaches gcm s₁ c) :
    Reaches gcm s c := by
  induction rest generalizing s with
  | nil => exact .of_holder env hs (.of_holder env rfl (hnext _ rfl rfl))
  | cons i rest ih =>
      refine .of_holder env hs ?_
      cases hslot : inputRetxScanSlot s.globals now i with
      | none =>
          simp only [holderStep, hslot]
          refine .of_holder env rfl (hnext _ rfl ?_)
          rw [inputRetxScanFrom, hslot]
          rfl
      | some c₁ =>
          simp only [holderStep, hslot]
          refine ih rfl fun s₁ hfree h₁ => hnext s₁ hfree ?_
          rw [h₁, inputRetxScanFrom, hslot]
          rfl

theorem reaches_controlScan (gcm : Gcm) (now : UInt32)
    (slots : List (Fin retxSlots)) {s : System} (hfree : s.holder = none) :
    Reaches gcm s
      (slots.foldl (fun c i => retxScanSlot c now i) s.globals) := by
  induction slots generalizing s with
  | nil => exact reaches_self hfree
  | cons i slots ih =>
      refine Reaches.cons (.controlScan now i) rfl ?_
      have hgiven : ∀ found, (s.noteGivenUp found).holder = none ∧
          (s.noteGivenUp found).globals = s.globals := by
        intro found
        unfold System.noteGivenUp
        split
        · exact ⟨hfree, rfl⟩
        · exact ⟨hfree, rfl⟩
      have hvisit := reaches_visit gcm (hgiven (lookScan s.globals now i)).1
        (lookScan s.globals now i)
      rw [(hgiven _).2, ← retxScanSlot_eq] at hvisit
      exact hvisit.trans fun s₁ h₁ hc => by
        rw [List.foldl_cons, ← hc]
        exact ih h₁

/-- And `retx_scan`. -/
theorem reaches_retxScan (gcm : Gcm) (env : StepEnv) {s : System}
    (inputNow now : UInt32) (taken : Bool) (hfree : s.holder = none) :
    Reaches gcm s (retxScan s.globals inputNow now taken) := by
  unfold retxScan inputRetxScan
  by_cases htaken : taken = true
  · rw [if_neg (by simpa using htaken)]
    refine Reaches.cons (.enterScan inputNow true)
      (t := s.move s.globals
        (some (.scanning inputNow (List.finRange retxSlots))))
      (by simp [step, System.enter, hfree]) ?_
    refine reaches_inputScanFrom gcm env inputNow _ rfl fun s₁ h₁ hc => ?_
    have := reaches_controlScan gcm now (List.finRange retxSlots) h₁
    rwa [hc] at this
  · rw [if_pos (by simpa using htaken)]
    exact reaches_controlScan gcm now _ hfree

end MoonlightPsp.Control
