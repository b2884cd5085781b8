import Mathlib.Logic.Relation
import MoonlightPsp.Audio.Playback
import MoonlightPsp.Audio.PcmOrder

/-!
# What the playback thread plays

The variables of both threads are what the log says they are: the chunk that was played
last, the turns without one, the drift of the clock, the chunks in the ring.  So what each
turn does can be said of the log alone.
-/

namespace MoonlightPsp.Audio

open EventLog PastTime

variable {s t : Playback} {p q : Pcm} {log : List PlayEvent} {e : PlayEvent} {c : RtpClock}

/-! ## One event more -/

section Snoc

@[simp] theorem stagedIn_snoc : stagedIn (log ++ [e]) = stagedIn log ++ e.staged? := by
  rw [stagedIn, List.flatMap_append, List.flatMap_singleton, stagedIn]

@[simp] theorem pushedIn_snoc : pushedIn (log ++ [e]) = pushedIn log ++ e.pushed?.toList :=
  filterMap_snoc

@[simp] theorem consumedIn_snoc :
    consumedIn (log ++ [e]) = consumedIn log ++ e.consumed?.toList := filterMap_snoc

@[simp] theorem lastPlayed_snoc :
    lastPlayed (log ++ [e]) = e.played?.or (lastPlayed log) := latest_snoc

@[simp] theorem lastLook_snoc : lastLook (log ++ [e]) = e.look?.or (lastLook log) :=
  latest_snoc

@[simp] theorem lastArrival_snoc :
    lastArrival (log ++ [e]) = e.arrival?.getD (lastArrival log) := getD_latest_snoc 0

@[simp] theorem inTurn_snoc : inTurn (log ++ [e]) = e.inTurn?.getD (inTurn log) :=
  getD_latest_snoc false

@[simp] theorem lastAnchor_snoc :
    lastAnchor (log ++ [e]) = e.anchor?.or (lastAnchor log) := latest_snoc

@[simp] theorem lastClock_snoc :
    lastClock (log ++ [e]) = e.clock?.getD (lastClock log) := getD_latest_snoc (0, 0)

@[simp] theorem emptySince_snoc :
    emptySince (log ++ [e]) =
      if e.endsEmpty then 0 else emptySince log + e.isEmpty.toNat := countSince_snoc

@[simp] theorem advancedSince_snoc :
    advancedSince (log ++ [e]) =
      if e.anchors then 0 else advancedSince log + e.advances.toNat := countSince_snoc

@[simp] theorem ticksIn_snoc : ticksIn (log ++ [e]) = ticksIn log + e.isTick.toNat :=
  countP_snoc

@[simp] theorem trimsIn_snoc : trimsIn (log ++ [e]) = trimsIn log + e.isTrim.toNat :=
  countP_snoc

@[simp] theorem advancesIn_snoc :
    advancesIn (log ++ [e]) = advancesIn log + e.isAdvance.toNat := countP_snoc

end Snoc

/-! ## The ring -/

/-- The number of chunks in the ring. -/
def Pcm.count (p : Pcm) : ℕ := (p.ring.head - p.ring.tail).toNat

theorem Pcm.length_queued (p : Pcm) : p.ring.queued.length = p.count :=
  Audio.length_queued p.ring

theorem Sane.count_le (h : Sane p) : p.count ≤ 96 := by
  have hring := UInt32.le_iff_toNat_le.mp h.ring
  rw [h.depth_eq] at hring
  exact hring

/-- A pop fails where the ring is empty, and else takes its oldest chunk. -/
theorem ringPopPcm_cases (h : Sane p) :
    (p.count = 0 ∧ ringPopPcm p = (none, p)) ∨
      ∃ chunk q, ringPopPcm p = (some chunk, q) ∧ Sane q ∧ q.stage = p.stage ∧
        q.pushes = p.pushes ∧ p.ring.queued = chunk :: q.ring.queued := by
  have hcarries := ringPopPcm_carries p
  rw [ringPopPcm] at hcarries ⊢
  split
  · rename_i hempty
    left
    refine ⟨?_, rfl⟩
    rw [ringEmpty, beq_iff_eq] at hempty
    rw [Pcm.count, hempty, UInt32.sub_self]
    rfl
  · rename_i hempty
    right
    rw [if_neg hempty] at hcarries
    refine ⟨_, _, rfl, hcarries.sane h, rfl, rfl, ?_⟩
    apply queued_pop
    rw [ringEmpty, beq_iff_eq] at hempty
    exact hempty

/-- What a round of the flush does. -/
theorem flushRound_cases (h : Sane p) :
    p.flushRound = (none, p) ∨
      ∃ chunk q, p.flushRound = (some chunk, q) ∧ Sane q ∧ p.stage = chunk.samples ++ q.stage ∧
        p.pushes <+: q.pushes ∧ q.count = p.count + 1 ∧
        ((∀ x ∈ q.pushes, x.Harmless) → q.ring.queued = p.ring.queued ++ [chunk]) := by
  rw [Pcm.flushRound]
  split
  · rename_i hchunk
    obtain ⟨hkept, hcarries⟩ := ringPushPcm_carries p hchunk
    dsimp only
    split
    · rename_i hdone
      right
      have hcarries := hcarries hdone
      refine ⟨_, _, rfl, hcarries.sane h, ?_, hcarries.pushes, ?_⟩
      · exact (List.take_append_drop _ _).symm
      · rw [ringPushPcm] at hdone ⊢
        split at hdone
        · exact absurd hdone Bool.false_ne_true
        · rename_i hroom
          rw [if_neg hroom]
          have hlt := toNat_sub_lt_of_room h (Bool.eq_false_of_not_eq_true hroom)
          refine ⟨toNat_succ_sub hlt, fun hharmless => ?_⟩
          exact queued_push hlt (hharmless _ (List.mem_append_right _ List.mem_cons_self))
    · rename_i hfailed
      rw [hkept (Bool.eq_false_of_not_eq_true hfailed)]
      exact .inl rfl
  · exact .inl rfl

theorem stageIn_eq_some {src : List Int16} (h : p.stageIn src = some q) :
    p.stage.length + src.length ≤ audioStageCapacity ∧ q = { p with stage := p.stage ++ src } := by
  rw [Pcm.stageIn] at h
  split at h
  · rename_i hfits
    exact ⟨hfits, (Option.some.inj h).symm⟩
  · exact absurd h.symm (Option.some_ne_none _)

/-! ### A whole call -/

/-- What happens to ring and stage in a call: rounds of the flush, pops and the copy. -/
inductive PcmMove : Pcm → Pcm → Prop where
  | round (p : Pcm) : PcmMove p p.flushRound.2
  | pop (p : Pcm) : PcmMove p (ringPopPcm p).2
  | stageIn {p q : Pcm} {src : List Int16} (h : p.stageIn src = some q) : PcmMove p q

/-- Any number of moves. -/
abbrev PcmMoves : Pcm → Pcm → Prop := Relation.ReflTransGen PcmMove

theorem popMany_moves (p : Pcm) (n : ℕ) : PcmMoves p (p.popMany n) := by
  induction n generalizing p with
  | zero => exact .refl
  | succ n ih => exact (Relation.ReflTransGen.single (.pop p)).trans (ih _)

theorem flushLoop_moves (rounds : ℕ) (p : Pcm) (pops : List ℕ) :
    PcmMoves p (flushLoop rounds p pops).2.1 := by
  induction rounds generalizing p pops with
  | zero => exact .refl
  | succ rounds ih =>
      rw [flushLoop]
      split
      · rename_i hchunk
        have hstage := popMany_stage p (pops.headD 0)
        have hround : PcmMove _ (p.popMany (pops.headD 0)).flushRound.2 := .round _
        have hpopped := (popMany_moves p (pops.headD 0)).tail hround
        rw [Pcm.flushRound] at hpopped
        simp only [hstage, dif_pos hchunk] at hpopped
        dsimp only
        split
        · rename_i hfailed
          rw [Bool.not_eq_true'] at hfailed
          rwa [if_neg (by rw [hfailed]; exact Bool.false_ne_true)] at hpopped
        · rename_i hdone
          rw [Bool.not_eq_true', Bool.not_eq_false] at hdone
          rw [if_pos hdone] at hpopped
          exact hpopped.trans (ih _ _)
      · exact .refl

theorem makeStageRoom_moves (samples waitsLeft : ℕ) (p : Pcm) (pops : List ℕ) :
    PcmMoves p (makeStageRoom samples waitsLeft p pops).2.1 := by
  induction waitsLeft generalizing p pops with
  | zero =>
      rw [makeStageRoom]
      split
      · exact .refl
      · dsimp only
        split
        · exact flushLoop_moves _ _ _
        · exact flushLoop_moves _ _ _
  | succ waitsLeft ih =>
      rw [makeStageRoom]
      split
      · exact .refl
      · dsimp only
        split
        · exact flushLoop_moves _ _ _
        · exact (flushLoop_moves _ _ _).trans (ih _ _)

/-- A call of `audio_stage_append_and_flush`, with pops of the playback thread in between,
is made of the steps that the two threads are run with. -/
theorem audioStageAppendAndFlush_moves (p : Pcm) (src : ℕ → Int16) (samples : ℤ)
    (pops : List ℕ) : PcmMoves p (audioStageAppendAndFlush p src samples pops).2 := by
  have hroom := makeStageRoom_moves samples.toNat 24 p pops
  have hfits := (makeStageRoom_carries samples.toNat 24 p pops).2
  rw [audioStageAppendAndFlush]
  split
  · exact .refl
  · dsimp only
    split
    · exact hroom
    · rename_i hdone
      rw [Bool.not_eq_true', Bool.not_eq_false] at hdone
      refine (hroom.tail (@PcmMove.stageIn _ _ (given src samples) ?_)).trans
        (flushLoop_moves _ _ _)
      apply if_pos
      rw [given, List.length_map, List.length_range]
      exact hfits hdone

/-! ## What the variables remember -/

/-- The ring holds what was pushed and not taken, and the stage what was not pushed. -/
structure Queues (p : Pcm) (log : List PlayEvent) : Prop where
  sane : Sane p
  count : (consumedIn log).length + p.count = (pushedIn log).length
  staged : stagedIn log = (pushedIn log).flatMap Chunk.samples ++ p.stage
  order : (∀ x ∈ p.pushes, x.Harmless) → pushedIn log = consumedIn log ++ p.ring.queued

/-- The clock is the difference of what was sent and what was consumed. -/
structure Times (c : RtpClock) (log : List PlayEvent) : Prop where
  valid : c.anchorValid = (lastAnchor log).isSome
  scale : c.timestampScale = (lastClock log).2
  anchor : c.anchorValid → lastAnchor log = some c.anchorTs
  timeline : c.anchorValid → c.timelineSamples + driftTargetSamples =
    c.elapsedOffsetSamples + UInt32.ofNat (audioChunkSamples * advancedSince log)
  elapsed : c.anchorValid → c.timestampScale ≠ 0 → c.elapsedSamples =
    c.elapsedOffsetSamples + ((lastClock log).1 - c.anchorTs) * c.timestampScale

/-- The rest of the variables that the playback thread goes by. -/
structure PlayVars where
  lastDataUs : UInt32
  lastPlayChunk : Option Chunk
  consecutiveEmptyHolds : ℕ
  driftTick : UInt32
  stats : AudioStats

/-- Their values. -/
def Playback.vars (s : Playback) : PlayVars :=
  ⟨s.lastDataUs, s.lastPlayChunk, s.consecutiveEmptyHolds, s.driftTick, s.stats⟩

/-- The variables as the log has it. -/
def varsIn (log : List PlayEvent) : PlayVars where
  lastDataUs := lastArrival log
  lastPlayChunk := lastPlayed log
  consecutiveEmptyHolds := emptySince log
  driftTick := UInt32.ofNat (ticksIn log)
  stats := statsIn log

/-- Calls of `audio_advance_consumed_chunk` that are due. -/
def PlayPoint.due : PlayPoint → ℕ
  | .advance next => next.due + 1
  | _ => 0

/-- What a point in a turn says of the log. -/
def AtPoint (log : List PlayEvent) : PlayPoint → Prop
  | .prebuffer | .top | .ended => inTurn log = false
  | .drain | .dialogSilence => inTurn log = true ∧ ∃ idle, lastLook log = some (idle, true)
  | .correct idle | .pop idle => inTurn log = true ∧ lastLook log = some (idle, false)
  | .popAgain => inTurn log = true ∧ lastLook log = some (false, false)
  | .advance next => next.due = 0 ∧ AtPoint log next

/-- All of it. -/
structure Told (s : Playback) : Prop where
  queues : Queues s.pcm s.log
  times : Times s.clock s.log
  vars : s.vars = varsIn s.log
  trims : 256 * trimsIn s.log ≤ ticksIn s.log
  point : AtPoint s.log s.point
  due : (consumedIn s.log).length = advancesIn s.log + s.point.due
  orderly : Always Orderly s.log

theorem told_start : Told .start where
  queues := ⟨sane_init, rfl, rfl, fun _ => rfl⟩
  times := ⟨rfl, rfl, fun h => absurd h Bool.false_ne_true,
    fun h => absurd h Bool.false_ne_true, fun h => absurd h Bool.false_ne_true⟩
  vars := rfl
  trims := Nat.le_refl _
  point := rfl
  due := rfl
  orderly := always_nil

theorem Queues.queuedIn_eq (h : Queues p log) : queuedIn log = p.count := by
  rw [queuedIn, ← h.count, Nat.add_sub_cancel_left]

theorem queuedChunks_eq (h : Queues s.pcm log) : s.queuedChunks = queuedIn log := by
  have hle := h.sane.count_le
  have hbmod : s.queuedChunks = (s.pcm.count : ℤ).bmod (2 ^ 32) :=
    BitVec.toInt_eq_toNat_bmod _
  rw [h.queuedIn_eq, hbmod]
  exact Int.bmod_eq_of_le (by omega) (by omega)

/-- The error of the clock is the drift. -/
theorem driftError_eq (h : Times c log) (hvalid : c.anchorValid) (hscale : c.timestampScale ≠ 0) :
    c.driftError = driftIn log := by
  have htimeline := h.timeline hvalid
  have hsum : c.elapsedOffsetSamples = c.timelineSamples + driftTargetSamples -
      UInt32.ofNat (audioChunkSamples * advancedSince log) := by
    rw [htimeline, UInt32.add_sub_cancel]
  have herror : c.elapsedSamples - c.timelineSamples - driftTargetSamples =
      ((lastClock log).1 - c.anchorTs) * c.timestampScale -
        UInt32.ofNat (audioChunkSamples * advancedSince log) := by
    rw [h.elapsed hvalid hscale, hsum]
    grind
  rw [RtpClock.driftError, driftIn, herror, h.anchor hvalid, ← h.scale, Option.getD_some]

/-! ## Events that change little -/

/-- How the variables change with one event more. -/
theorem varsIn_snoc : varsIn (log ++ [e]) =
    { lastDataUs := e.arrival?.getD (lastArrival log)
      lastPlayChunk := e.played?.or (lastPlayed log)
      consecutiveEmptyHolds := if e.endsEmpty then 0 else emptySince log + e.isEmpty.toNat
      driftTick := UInt32.ofNat (ticksIn log) + UInt32.ofNat e.isTick.toNat
      stats := {
        framesPlayed := (statsIn log).framesPlayed + UInt32.ofNat e.isFrame.toNat
        underruns := (statsIn log).underruns + UInt32.ofNat e.isUnderrun.toNat
        emptyHolds := (statsIn log).emptyHolds + UInt32.ofNat e.isEmptyHold.toNat } } := by
  simp only [varsIn, statsIn, lastArrival_snoc, lastPlayed_snoc, emptySince_snoc, ticksIn_snoc,
    countP_snoc, UInt32.ofNat_add]

/-- An event that changes none of the variables. -/
structure PlayEvent.Quiet (e : PlayEvent) : Prop where
  arrival : e.arrival? = none
  played : e.played? = none
  endsEmpty : e.endsEmpty = false
  isEmpty : e.isEmpty = false
  isTick : e.isTick = false
  isFrame : e.isFrame = false
  isUnderrun : e.isUnderrun = false
  isEmptyHold : e.isEmptyHold = false

theorem PlayEvent.Quiet.varsIn_eq (he : e.Quiet) : varsIn (log ++ [e]) = varsIn log := by
  rw [varsIn_snoc, he.arrival, he.played, he.endsEmpty, he.isEmpty, he.isTick, he.isFrame,
    he.isUnderrun, he.isEmptyHold]
  simp only [Option.getD_none, Option.none_or, Bool.toNat_false, Bool.false_eq_true, if_false,
    Nat.add_zero, show UInt32.ofNat 0 = 0 from rfl, UInt32.add_zero]
  rfl

theorem Queues.other (h : Queues p log) (hstaged : e.staged? = []) (hpushed : e.pushed? = none)
    (hconsumed : e.consumed? = none) : Queues p (log ++ [e]) := by
  constructor
  · exact h.sane
  · simpa [hpushed, hconsumed] using h.count
  · simpa [hstaged, hpushed] using h.staged
  · simpa [hpushed, hconsumed] using h.order

theorem Times.other (h : Times c log) (hclock : e.clock? = none) (hanchor : e.anchor? = none)
    (hanchors : e.anchors = false) (hadvances : e.advances = false) : Times c (log ++ [e]) := by
  constructor
  · simpa [hanchor] using h.valid
  · simpa [hclock] using h.scale
  · simpa [hanchor] using h.anchor
  · simpa [hanchors, hadvances] using h.timeline
  · simpa [hclock] using h.elapsed

theorem AtPoint.other {point : PlayPoint} (h : AtPoint log point) (hlook : e.look? = none)
    (hturn : e.inTurn? = none) : AtPoint (log ++ [e]) point := by
  have hlooks : lastLook (log ++ [e]) = lastLook log := by rw [lastLook_snoc, hlook, Option.none_or]
  have hturns : inTurn (log ++ [e]) = inTurn log := by rw [inTurn_snoc, hturn, Option.getD_none]
  induction point with
  | advance next ih => exact ⟨h.1, ih h.2⟩
  | prebuffer => exact hturns.trans h
  | top => exact hturns.trans h
  | ended => exact hturns.trans h
  | drain => exact ⟨hturns.trans h.1, by rw [hlooks]; exact h.2⟩
  | dialogSilence => exact ⟨hturns.trans h.1, by rw [hlooks]; exact h.2⟩
  | correct idle => exact ⟨hturns.trans h.1, hlooks.trans h.2⟩
  | pop idle => exact ⟨hturns.trans h.1, hlooks.trans h.2⟩
  | popAgain => exact ⟨hturns.trans h.1, hlooks.trans h.2⟩

/-- An event of the receive thread. -/
structure PlayEvent.IsReceived (e : PlayEvent) : Prop where
  look : e.look? = none
  inTurn : e.inTurn? = none
  consumed : e.consumed? = none
  isAdvance : e.isAdvance = false
  isTick : e.isTick = false
  isTrim : e.isTrim = false
  orderly : ∀ before, Orderly before e

/-- What the receive thread does leaves the playback thread where it is. -/
theorem Told.received (h : Told s) (he : e.IsReceived) (hlog : t.log = s.log ++ [e])
    (hpoint : t.point = s.point) (hqueues : Queues t.pcm t.log) (htimes : Times t.clock t.log)
    (hvars : t.vars = varsIn t.log) : Told t where
  queues := hqueues
  times := htimes
  vars := hvars
  trims := by
    rw [hlog, trimsIn_snoc, ticksIn_snoc, he.isTick, he.isTrim]
    exact h.trims
  point := by
    rw [hlog, hpoint]
    exact h.point.other he.look he.inTurn
  due := by
    rw [hlog, hpoint, consumedIn_snoc, advancesIn_snoc, he.consumed, he.isAdvance]
    simpa using h.due
  orderly := by
    rw [hlog]
    exact h.orderly.snoc (he.orderly _)

/-! ## The receive thread -/

/-- The clock takes a timestamp. -/
theorem Times.take (h : Times c log) (ts packetMs : UInt32) (last : Option UInt32)
    (resumed : Bool) :
    let taken := c.take ts packetMs last resumed
    Times taken.2 (log ++ [.clocked taken.1 ts taken.2.timestampScale]) := by
  rw [RtpClock.take]
  split
  · rename_i hinvalid
    constructor
    · simp [PlayEvent.anchor?]
    · simp [PlayEvent.clock?]
    · intro _
      simp [PlayEvent.anchor?]
    · intro _
      simp [PlayEvent.anchors]
    · intro _ _
      simp [PlayEvent.clock?]
  · rename_i hvalid
    rw [Bool.not_eq_true', Bool.not_eq_false] at hvalid
    split
    · constructor
      · simp [PlayEvent.anchor?, hvalid]
      · simp [PlayEvent.clock?]
      · intro _
        simp [PlayEvent.anchor?]
      · intro _
        simp [PlayEvent.anchors]
      · intro _ _
        simp [PlayEvent.clock?]
    · constructor
      · simpa [PlayEvent.anchor?] using h.valid
      · simp [PlayEvent.clock?]
      · intro _
        simpa [PlayEvent.anchor?] using h.anchor hvalid
      · intro _
        simpa [PlayEvent.anchors, PlayEvent.advances] using h.timeline hvalid
      · intro _ hscale
        simp only [lastClock_snoc, PlayEvent.clock?, Option.getD_some]
        exact if_pos hscale

theorem Queues.stageIn (h : Queues p log) {src : List Int16} (hq : p.stageIn src = some q) :
    Queues q (log ++ [.staged src]) := by
  obtain ⟨hroom, rfl⟩ := stageIn_eq_some hq
  constructor
  · refine ⟨⟨?_, h.sane.ring⟩, h.sane.depth_eq⟩
    rw [List.length_append]
    exact hroom
  · simp only [consumedIn_snoc, pushedIn_snoc, PlayEvent.consumed?, PlayEvent.pushed?,
      Option.toList_none, List.append_nil]
    exact h.count
  · simp [PlayEvent.staged?, PlayEvent.pushed?, h.staged]
  · rw [consumedIn_snoc, pushedIn_snoc]
    simpa [PlayEvent.consumed?, PlayEvent.pushed?] using h.order

theorem Queues.push (h : Queues p log) {chunk : Chunk} (hsane : Sane q)
    (hstage : p.stage = chunk.samples ++ q.stage) (hpushes : p.pushes <+: q.pushes)
    (hcount : q.count = p.count + 1)
    (horder : (∀ x ∈ q.pushes, x.Harmless) → q.ring.queued = p.ring.queued ++ [chunk]) :
    Queues q (log ++ [.pushed chunk]) := by
  constructor
  · exact hsane
  · have hbefore := h.count
    simp only [pushedIn_snoc, consumedIn_snoc, PlayEvent.consumed?, PlayEvent.pushed?,
      Option.toList_none, Option.toList_some, List.append_nil, List.length_append,
      List.length_singleton, hcount]
    omega
  · have hbefore := h.staged
    rw [hstage] at hbefore
    simp [PlayEvent.staged?, PlayEvent.pushed?, hbefore]
  · intro hharmless
    have hbefore := h.order fun x hx => hharmless x (hpushes.subset hx)
    simp [PlayEvent.consumed?, PlayEvent.pushed?, hbefore, horder hharmless]

/-- An event takes a chunk from the ring. -/
theorem Queues.pop (h : Queues p log) {chunk : Chunk} (hsane : Sane q)
    (hstage : q.stage = p.stage) (hpushes : q.pushes = p.pushes)
    (hqueued : p.ring.queued = chunk :: q.ring.queued) (hstaged : e.staged? = [])
    (hpushed : e.pushed? = none) (hconsumed : e.consumed? = some chunk) :
    Queues q (log ++ [e]) := by
  have hcount : p.count = q.count + 1 := by
    rw [← p.length_queued, hqueued, List.length_cons, q.length_queued]
  constructor
  · exact hsane
  · have hbefore := h.count
    simp only [pushedIn_snoc, consumedIn_snoc, hpushed, hconsumed, Option.toList_none,
      Option.toList_some, List.append_nil, List.length_append, List.length_singleton]
    omega
  · simp [hstaged, hpushed, hstage, h.staged]
  · intro hharmless
    rw [hpushes] at hharmless
    simp [hpushed, hconsumed, h.order hharmless, hqueued]

theorem varsIn_arrived (now : UInt32) :
    varsIn (log ++ [.arrived now]) = { varsIn log with lastDataUs := now } := by
  rw [varsIn_snoc]
  simp [PlayEvent.arrival?, PlayEvent.played?, PlayEvent.endsEmpty, PlayEvent.isEmpty,
    PlayEvent.isTick, PlayEvent.isFrame, PlayEvent.isUnderrun, PlayEvent.isEmptyHold, varsIn]

theorem told_receive (h : Told s) (r : ReceiveStep) : Told (s.receive r) := by
  cases r with
  | stage src =>
      rw [Playback.receive]
      cases hfits : s.pcm.stageIn src with
      | none => exact h
      | some p =>
          have hquiet : PlayEvent.Quiet (.staged src) := ⟨rfl, rfl, rfl, rfl, rfl, rfl, rfl, rfl⟩
          exact h.received (e := .staged src) ⟨rfl, rfl, rfl, rfl, rfl, rfl, fun _ => trivial⟩
            rfl rfl (h.queues.stageIn hfits) (h.times.other rfl rfl rfl rfl)
            (h.vars.trans hquiet.varsIn_eq.symm)
  | flushRound =>
      rw [Playback.receive]
      obtain hround | ⟨chunk, q, hround, hsane, hstage, hpushes, hcount, horder⟩ :=
        flushRound_cases h.queues.sane
      · rw [hround]
        exact h
      · rw [hround]
        have hquiet : PlayEvent.Quiet (.pushed chunk) := ⟨rfl, rfl, rfl, rfl, rfl, rfl, rfl, rfl⟩
        exact h.received (e := .pushed chunk) ⟨rfl, rfl, rfl, rfl, rfl, rfl, fun _ => trivial⟩
          rfl rfl (h.queues.push hsane hstage hpushes hcount horder)
          (h.times.other rfl rfl rfl rfl) (h.vars.trans hquiet.varsIn_eq.symm)
  | queued now =>
      refine h.received (e := .arrived now) ⟨rfl, rfl, rfl, rfl, rfl, rfl, fun _ => trivial⟩
        rfl rfl (h.queues.other rfl rfl rfl) (h.times.other rfl rfl rfl rfl) ?_
      refine Eq.trans ?_ (varsIn_arrived now).symm
      exact congrArg (fun v : PlayVars => { v with lastDataUs := now }) h.vars
  | data now =>
      refine h.received (e := .arrived now) ⟨rfl, rfl, rfl, rfl, rfl, rfl, fun _ => trivial⟩
        rfl rfl (h.queues.other rfl rfl rfl) (h.times.other rfl rfl rfl rfl) ?_
      refine Eq.trans ?_ (varsIn_arrived now).symm
      exact congrArg (fun v : PlayVars => { v with lastDataUs := now }) h.vars
  | clock ts packetMs locked =>
      rw [Playback.receive]
      dsimp only
      split
      · exact ⟨h.queues, h.times, h.vars, h.trims, h.point, h.due, h.orderly⟩
      · generalize htaken : s.clock.take ts packetMs s.lastRtpTs s.resumed = taken
        have htimes := h.times.take ts packetMs s.lastRtpTs s.resumed
        rw [htaken] at htimes
        have hquiet : PlayEvent.Quiet (.clocked taken.1 ts taken.2.timestampScale) :=
          ⟨rfl, rfl, rfl, rfl, rfl, rfl, rfl, rfl⟩
        exact h.received (e := .clocked taken.1 ts taken.2.timestampScale)
          ⟨rfl, rfl, rfl, rfl, rfl, rfl, fun _ => trivial⟩ rfl rfl
          (h.queues.other rfl rfl rfl) htimes (h.vars.trans hquiet.varsIn_eq.symm)

/-! ## The playback thread -/

section Values

theorem Told.lastDataUs (h : Told s) : s.lastDataUs = lastArrival s.log :=
  congrArg PlayVars.lastDataUs h.vars

theorem Told.lastPlayChunk (h : Told s) : s.lastPlayChunk = lastPlayed s.log :=
  congrArg PlayVars.lastPlayChunk h.vars

theorem Told.emptyHolds (h : Told s) : s.consecutiveEmptyHolds = emptySince s.log :=
  congrArg PlayVars.consecutiveEmptyHolds h.vars

theorem Told.driftTick (h : Told s) : s.driftTick = UInt32.ofNat (ticksIn s.log) :=
  congrArg PlayVars.driftTick h.vars

theorem Told.stats (h : Told s) : s.stats = statsIn s.log := congrArg PlayVars.stats h.vars

end Values

/-- The clock is advanced by a chunk. -/
theorem Times.advanced (h : Times c log) :
    Times { c with timelineSamples := c.timelineSamples + UInt32.ofNat audioChunkSamples }
      (log ++ [.advanced true]) := by
  have hsince : advancedSince (log ++ [.advanced true]) = advancedSince log + 1 :=
    advancedSince_snoc
  constructor
  · simpa [PlayEvent.anchor?] using h.valid
  · simpa [PlayEvent.clock?] using h.scale
  · simpa [PlayEvent.anchor?] using h.anchor
  · intro hvalid
    have htimeline := h.timeline hvalid
    dsimp only
    rw [hsince, Nat.mul_add, Nat.mul_one, UInt32.ofNat_add, ← UInt32.add_assoc, ← htimeline,
      UInt32.add_assoc, UInt32.add_assoc, UInt32.add_comm driftTargetSamples]
  · simpa [PlayEvent.clock?] using h.elapsed

/-- `audio_advance_consumed_chunk`. -/
theorem told_advance (h : Told s) {next : PlayPoint} (hpoint : s.point = .advance next)
    (locked : Bool) : Told (s.advance next locked) := by
  have hat := h.point
  have hdue := h.due
  rw [hpoint] at hat hdue
  have hquiet : PlayEvent.Quiet (.advanced locked) := ⟨rfl, rfl, rfl, rfl, rfl, rfl, rfl, rfl⟩
  constructor
  · exact h.queues.other rfl rfl rfl
  · cases locked with
    | false => exact h.times.other rfl rfl rfl rfl
    | true => exact h.times.advanced
  · exact h.vars.trans hquiet.varsIn_eq.symm
  · simpa [Playback.advance, Playback.emit, PlayEvent.isTick, PlayEvent.isTrim] using h.trims
  · exact hat.2.other rfl rfl
  · simp only [Playback.advance, Playback.emit, consumedIn_snoc, advancesIn_snoc,
      PlayEvent.consumed?, PlayEvent.isAdvance, Option.toList_none, List.append_nil,
      Bool.toNat_true]
    rw [PlayPoint.due] at hdue
    omega
  · refine h.orderly.snoc ?_
    rw [PlayPoint.due, hat.1] at hdue
    exact hdue

/-- A block goes out. -/
theorem Told.put (h : Told s) (block : OutputBlock) (cause : Cause)
    (hlog : t.log = s.log ++ [.put block cause]) (hclock : t.clock = s.clock)
    (hqueues : Queues t.pcm t.log) (hvars : t.vars = varsIn t.log) (hdue : s.point.due = 0)
    (hconsumed : (PlayEvent.put block cause).consumed?.toList.length = t.point.due)
    (hpoint : inTurn t.log = false → AtPoint t.log t.point) (hfits : Fits s.log block cause)
    (hturn : inTurn s.log = cause.inTurn) : Told t := by
  have hbefore := h.due
  rw [hdue] at hbefore
  constructor
  · exact hqueues
  · rw [hclock, hlog]
    exact h.times.other rfl rfl rfl rfl
  · exact hvars
  · rw [hlog, trimsIn_snoc, ticksIn_snoc]
    exact h.trims
  · apply hpoint
    rw [hlog, inTurn_snoc]
    rfl
  · rw [hlog, consumedIn_snoc, advancesIn_snoc, List.length_append, hconsumed, hbefore]
    rfl
  · rw [hlog]
    exact h.orderly.snoc ⟨hfits, hturn, hbefore.symm⟩

/-- The variables behind a block. -/
theorem varsIn_put {block : OutputBlock} {cause : Cause} (h : Told s) :
    varsIn (s.log ++ [.put block cause]) =
      let e : PlayEvent := .put block cause
      { lastDataUs := s.lastDataUs
        lastPlayChunk := e.played?.or s.lastPlayChunk
        consecutiveEmptyHolds :=
          if e.endsEmpty then 0 else s.consecutiveEmptyHolds + e.isEmpty.toNat
        driftTick := s.driftTick
        stats := {
          framesPlayed := s.stats.framesPlayed + UInt32.ofNat e.isFrame.toNat
          underruns := s.stats.underruns + UInt32.ofNat e.isUnderrun.toNat
          emptyHolds := s.stats.emptyHolds + UInt32.ofNat e.isEmptyHold.toNat } } := by
  rw [varsIn_snoc, h.lastDataUs, h.lastPlayChunk, h.emptyHolds, h.driftTick, h.stats]
  exact congrArg (fun tick => PlayVars.mk _ _ _ tick _) (UInt32.add_zero _)

/-- A chunk from the ring is played. -/
theorem told_play (h : Told s) {idle : Bool} {chunk : Chunk} (hsane : Sane q)
    (hstage : q.stage = s.pcm.stage)
    (hpushes : q.pushes = s.pcm.pushes) (hqueued : s.pcm.ring.queued = chunk :: q.ring.queued)
    (hdue : s.point.due = 0) (hturn : inTurn s.log = true)
    (hlook : lastLook s.log = some (idle, false)) : Told (s.play chunk q) := by
  have hcount : 0 < queuedIn s.log := by
    rw [h.queues.queuedIn_eq, ← Pcm.length_queued, hqueued]
    exact Nat.succ_pos _
  refine h.put (audioSrcOutputChunk chunk 1) (.played chunk) rfl rfl
    (h.queues.pop hsane hstage hpushes hqueued rfl rfl rfl) ?_ hdue rfl ?_
    ⟨rfl, hcount, idle, hlook⟩ hturn
  · refine Eq.trans ?_ (varsIn_put h).symm
    simp [Playback.vars, Playback.play, Playback.put, Playback.emit, PlayEvent.played?,
      PlayEvent.endsEmpty, PlayEvent.isFrame, PlayEvent.isUnderrun, PlayEvent.isEmptyHold]
  · exact fun hafter => ⟨rfl, hafter⟩

/-- What is played where the ring is empty. -/
theorem told_playEmpty (h : Told s) {idle : Bool} (hcount : s.pcm.count = 0)
    (hdue : s.point.due = 0) (hturn : inTurn s.log = true)
    (hlook : lastLook s.log = some (idle, false)) : Told (s.playEmpty idle) := by
  have hqueued : queuedIn s.log = 0 := h.queues.queuedIn_eq.trans hcount
  have hunderrun (hnone : lastPlayed s.log = none ∨ 12 ≤ emptySince s.log)
      (hlive : idle = false) : Told (Playback.put { s with
        stats := { s.stats with underruns := s.stats.underruns + 1 }
        consecutiveEmptyHolds := s.consecutiveEmptyHolds + 1
        point := .top } (silenceBlock 0) .underrun) := by
    subst hlive
    refine h.put (silenceBlock 0) .underrun rfl rfl
      (h.queues.other rfl rfl rfl) ?_ hdue rfl id ⟨rfl, hqueued, hlook, hnone⟩ hturn
    refine Eq.trans ?_ (varsIn_put h).symm
    simp [Playback.vars, Playback.put, Playback.emit, PlayEvent.played?,
      PlayEvent.endsEmpty, PlayEvent.isEmpty, PlayEvent.isFrame, PlayEvent.isUnderrun,
      PlayEvent.isEmptyHold]
  rw [Playback.playEmpty]
  cases idle with
  | true =>
      refine h.put (silenceBlock 0) .idle rfl rfl
        (h.queues.other rfl rfl rfl) ?_ hdue rfl id ⟨rfl, hqueued, hlook⟩ hturn
      refine Eq.trans ?_ (varsIn_put h).symm
      simp [Playback.vars, Playback.put, Playback.emit, PlayEvent.played?,
        PlayEvent.endsEmpty, PlayEvent.isFrame, PlayEvent.isUnderrun, PlayEvent.isEmptyHold]
  | false =>
      have hlast := h.lastPlayChunk
      rw [if_neg Bool.false_ne_true]
      split
      · rename_i hnone
        exact hunderrun (.inl (hlast.symm.trans hnone)) rfl
      · rename_i chunk hchunk
        split
        · rename_i hfew
          refine h.put _ .emptyHold rfl rfl
            (h.queues.other rfl rfl rfl) ?_ hdue rfl id
            ⟨hqueued, hlook, h.emptyHolds ▸ hfew, chunk, hlast.symm.trans hchunk, ?_⟩ hturn
          · refine Eq.trans ?_ (varsIn_put h).symm
            simp [Playback.vars, Playback.put, Playback.emit, PlayEvent.played?,
              PlayEvent.endsEmpty, PlayEvent.isEmpty, PlayEvent.isFrame, PlayEvent.isUnderrun,
              PlayEvent.isEmptyHold]
          · rw [h.emptyHolds]
        · rename_i hmany
          exact hunderrun (.inr (h.emptyHolds ▸ Nat.not_lt.mp hmany)) rfl

theorem told_popToPlay (h : Told s) {idle : Bool} (hpoint : s.point = .pop idle) :
    Told (s.popToPlay idle) := by
  have hat := h.point
  have hdue : s.point.due = 0 := by rw [hpoint]; rfl
  rw [hpoint] at hat
  rw [Playback.popToPlay]
  obtain ⟨hcount, hpop⟩ | ⟨chunk, q, hpop, hsane, hstage, hpushes, hqueued⟩ :=
    ringPopPcm_cases h.queues.sane
  · rw [hpop]
    dsimp only
    split
    · rename_i hagain
      rw [Bool.and_eq_true, Bool.not_eq_true'] at hagain
      rw [hagain.1] at hat
      refine ⟨h.queues, h.times, h.vars, h.trims, hat, ?_, h.orderly⟩
      rw [h.due, hdue]
      rfl
    · exact told_playEmpty h hcount hdue hat.1 hat.2
  · rw [hpop]
    exact told_play h hsane hstage hpushes hqueued hdue hat.1 hat.2

theorem told_popAgain (h : Told s) (hpoint : s.point = .popAgain) : Told s.popAgain := by
  have hat := h.point
  have hdue : s.point.due = 0 := by rw [hpoint]; rfl
  rw [hpoint] at hat
  rw [Playback.popAgain]
  obtain ⟨hcount, hpop⟩ | ⟨chunk, q, hpop, hsane, hstage, hpushes, hqueued⟩ :=
    ringPopPcm_cases h.queues.sane
  · rw [hpop]
    exact told_playEmpty h hcount hdue hat.1 hat.2
  · rw [hpop]
    exact told_play h hsane hstage hpushes hqueued hdue hat.1 hat.2

/-- The playback thread goes on in the same turn. -/
theorem Told.goOn (h : Told s) {point : PlayPoint} (hdue : s.point.due = point.due)
    (hat : AtPoint s.log point) : Told { s with point := point } :=
  ⟨h.queues, h.times, h.vars, h.trims, hat, hdue ▸ h.due, h.orderly⟩

/-- The chunks in the ring where the turn is trimmed or held. -/
theorem trims_iff (h : Told s) :
    Trims s.log ↔ s.queuedChunks > 6 + 1 ∧ s.driftTick % 256 = 0 := by
  have htick : s.driftTick % 256 = 0 ↔ ticksIn s.log % 256 = 0 := by
    rw [h.driftTick, ← UInt32.toNat_inj, UInt32.toNat_mod, UInt32.toNat_ofNat']
    change ticksIn s.log % 2 ^ 32 % 256 = 0 ↔ _
    rw [Nat.mod_mod_of_dvd _ (by decide)]
  rw [Trims, htick, queuedChunks_eq h.queues, and_comm]
  refine and_congr_left fun _ => ?_
  omega

/-- A tick at which the corrections are looked at. -/
theorem correctionTick_iff (h : Told s) :
    s.driftTick % 128 ≠ 0 ↔ ¬ ticksIn s.log % 128 = 0 := by
  rw [h.driftTick, Ne, ← UInt32.toNat_inj, UInt32.toNat_mod, UInt32.toNat_ofNat']
  change ¬ ticksIn s.log % 2 ^ 32 % 128 = 0 ↔ _
  rw [Nat.mod_mod_of_dvd _ (by decide)]

/-- The correction behind a tick. -/
theorem told_correctDrift (h : Told s) (hpoint : s.point = .correct false)
    (htick : JustTicked s.log) (hvalid : s.clock.anchorValid)
    (hscale : s.clock.timestampScale ≠ 0) (htrims : 256 * trimsIn s.log < ticksIn s.log) :
    Told s.correctDrift := by
  have hat := h.point
  have hdue : s.point.due = 0 := by rw [hpoint]; rfl
  rw [hpoint] at hat
  have honward : Told { s with point := .pop false } := h.goOn hdue hat
  rw [Playback.correctDrift]
  split
  · exact honward
  · rename_i hcorrects
    rw [correctionTick_iff h, not_not] at hcorrects
    split
    · rename_i htrim
      rw [← trims_iff h] at htrim
      obtain ⟨hcount, hpop⟩ | ⟨chunk, q, hpop, hsane, hstage, hpushes, hqueued⟩ :=
        ringPopPcm_cases h.queues.sane
      · rw [hpop]
        exact honward
      · rw [hpop]
        have hquiet : PlayEvent.Quiet (.trimmed chunk) := ⟨rfl, rfl, rfl, rfl, rfl, rfl, rfl, rfl⟩
        have hbefore := h.due
        rw [hdue] at hbefore
        constructor
        · exact h.queues.pop hsane hstage hpushes hqueued rfl rfl rfl
        · exact h.times.other rfl rfl rfl rfl
        · exact h.vars.trans hquiet.varsIn_eq.symm
        · have hmod := htrim.1
          change 256 * trimsIn (s.log ++ [.trimmed chunk]) ≤ ticksIn (s.log ++ [.trimmed chunk])
          have hnoTick : (PlayEvent.trimmed chunk).isTick = false := rfl
          rw [trimsIn_snoc, ticksIn_snoc, PlayEvent.isTrim, hnoTick, Bool.toNat_true,
            Bool.toNat_false]
          omega
        · exact ⟨rfl, @AtPoint.other _ _ (.pop false) hat rfl rfl⟩
        · change (consumedIn (s.log ++ [.trimmed chunk])).length =
            advancesIn (s.log ++ [.trimmed chunk]) + 1
          rw [consumedIn_snoc, advancesIn_snoc, List.length_append, hbefore]
          rfl
        · exact h.orderly.snoc ⟨hat.1, htick, htrim⟩
    · rename_i htrim
      rw [← trims_iff h] at htrim
      split
      · rename_i hhold
        rw [driftError_eq h.times hvalid hscale, queuedChunks_eq h.queues] at hhold
        have hlast := h.lastPlayChunk
        split
        · rename_i chunk hchunk
          refine h.put _ .driftHold rfl rfl (h.queues.other rfl rfl rfl) ?_ hdue rfl id
            ⟨htick, ⟨hcorrects, htrim, hhold.1, ?_⟩, chunk, hlast.symm.trans hchunk, rfl⟩ hat.1
          · refine Eq.trans ?_ (varsIn_put h).symm
            simp [Playback.vars, Playback.driftHold, Playback.put, Playback.emit,
              PlayEvent.played?, PlayEvent.endsEmpty, PlayEvent.isEmpty, PlayEvent.isFrame,
              PlayEvent.isUnderrun, PlayEvent.isEmptyHold]
          · exact Int.ofNat_le.mp hhold.2
        · exact honward
      · exact honward

theorem told_correct (h : Told s) {idle : Bool} (hpoint : s.point = .correct idle)
    (locked : Bool) : Told (s.correct idle locked) := by
  have hat := h.point
  have hdue : s.point.due = 0 := by rw [hpoint]; rfl
  rw [hpoint] at hat
  rw [Playback.correct]
  split
  · rename_i hcorrects
    simp only [Bool.and_eq_true, Bool.not_eq_true', bne_iff_ne] at hcorrects
    obtain ⟨⟨⟨-, hvalid⟩, hscale⟩, rfl⟩ := hcorrects
    have hticked : Told (Playback.emit { s with driftTick := s.driftTick + 1 } .ticked) := by
      constructor
      · exact h.queues.other rfl rfl rfl
      · exact h.times.other rfl rfl rfl rfl
      · refine Eq.trans ?_ varsIn_snoc.symm
        simp [Playback.vars, Playback.emit, PlayEvent.arrival?, PlayEvent.played?,
          PlayEvent.endsEmpty, PlayEvent.isEmpty, PlayEvent.isTick, PlayEvent.isFrame,
          PlayEvent.isUnderrun, PlayEvent.isEmptyHold, h.lastDataUs, h.lastPlayChunk,
          h.emptyHolds, h.driftTick, h.stats]
      · have hbefore := h.trims
        simp only [Playback.emit, trimsIn_snoc, ticksIn_snoc, PlayEvent.isTrim,
          PlayEvent.isTick, Bool.toNat_false, Bool.toNat_true]
        omega
      · exact h.point.other rfl rfl
      · simpa [Playback.emit, PlayEvent.consumed?, PlayEvent.isAdvance] using h.due
      · exact h.orderly.snoc ⟨hat.2, h.times.scale ▸ hscale⟩
    refine told_correctDrift hticked hpoint ⟨List.getLast?_concat, ?_⟩ hvalid hscale ?_
    · rw [Playback.emit, lastLook_snoc]
      exact hat.2
    · have hbefore := h.trims
      simp only [Playback.emit, trimsIn_snoc, ticksIn_snoc, PlayEvent.isTrim, PlayEvent.isTick,
        Bool.toNat_false, Bool.toNat_true]
      omega
  · exact h.goOn hdue hat

/-- The beginning of a turn. -/
theorem told_look (h : Told s) (hpoint : s.point = .top) (seen : Seen) :
    Told (s.look seen) := by
  have hat := h.point
  have hdue : s.point.due = 0 := by rw [hpoint]; rfl
  have hbefore := h.due
  rw [hpoint] at hat
  rw [hdue] at hbefore
  rw [Playback.look]
  split
  · refine h.put _ .last rfl rfl (h.queues.other rfl rfl rfl) ?_ hdue rfl id rfl hat
    refine Eq.trans ?_ (varsIn_put h).symm
    simp [Playback.vars, Playback.put, Playback.emit, PlayEvent.played?, PlayEvent.endsEmpty,
      PlayEvent.isEmpty, PlayEvent.isFrame, PlayEvent.isUnderrun, PlayEvent.isEmptyHold]
  · have hquiet : PlayEvent.Quiet
        (.looked (sourceIdle s.lastDataUs seen.now) seen.dialog seen.now) :=
      ⟨rfl, rfl, rfl, rfl, rfl, rfl, rfl, rfl⟩
    constructor
    · exact h.queues.other rfl rfl rfl
    · exact h.times.other rfl rfl rfl rfl
    · exact h.vars.trans hquiet.varsIn_eq.symm
    · simpa [Playback.emit, PlayEvent.isTick, PlayEvent.isTrim] using h.trims
    · simp only [Playback.emit]
      cases hdialog : seen.dialog with
      | true => exact ⟨inTurn_snoc, _, lastLook_snoc⟩
      | false => exact ⟨inTurn_snoc, lastLook_snoc⟩
    · cases hdialog : seen.dialog with
      | true => simpa [Playback.emit, PlayEvent.consumed?, PlayEvent.isAdvance,
          PlayPoint.due] using hbefore
      | false => simpa [Playback.emit, PlayEvent.consumed?, PlayEvent.isAdvance,
          PlayPoint.due] using hbefore
    · refine h.orderly.snoc ⟨?_, hat, hbefore.symm⟩
      rw [h.lastDataUs]

theorem told_playTurn (h : Told s) (seen : Seen) : Told (s.playTurn seen) := by
  have hat := h.point
  have hbefore := h.due
  rw [Playback.playTurn]
  split
  · rename_i hpoint
    split
    · exact h
    · rw [hpoint] at hat
      refine h.goOn ?_ hat
      rw [hpoint]
      rfl
  · rename_i hpoint
    exact told_look h hpoint seen
  · rename_i hpoint
    rw [hpoint] at hat hbefore
    obtain ⟨-, hpop⟩ | ⟨chunk, q, hpop, hsane, hstage, hpushes, hqueued⟩ :=
      ringPopPcm_cases h.queues.sane
    · rw [hpop]
      refine h.goOn ?_ hat
      rw [hpoint]
      rfl
    · rw [hpop]
      have hquiet : PlayEvent.Quiet (.drained chunk) := ⟨rfl, rfl, rfl, rfl, rfl, rfl, rfl, rfl⟩
      constructor
      · exact h.queues.pop hsane hstage hpushes hqueued rfl rfl rfl
      · exact h.times.other rfl rfl rfl rfl
      · exact h.vars.trans hquiet.varsIn_eq.symm
      · simpa [Playback.emit, PlayEvent.isTick, PlayEvent.isTrim] using h.trims
      · exact ⟨rfl, @AtPoint.other _ _ .dialogSilence hat rfl rfl⟩
      · simp only [Playback.emit, consumedIn_snoc, advancesIn_snoc, List.length_append, hbefore]
        rfl
      · exact h.orderly.snoc hat
  · rename_i hpoint
    rw [hpoint] at hat hbefore
    refine h.put _ .dialog rfl rfl (h.queues.other rfl rfl rfl) ?_
      (by rw [hpoint]; rfl) rfl id ⟨rfl, hat.2⟩ hat.1
    refine Eq.trans ?_ (varsIn_put h).symm
    simp [Playback.vars, Playback.put, Playback.emit, PlayEvent.played?, PlayEvent.endsEmpty,
      PlayEvent.isEmpty, PlayEvent.isFrame, PlayEvent.isUnderrun, PlayEvent.isEmptyHold]
  · rename_i idle hpoint
    exact told_correct h hpoint seen.locked
  · rename_i idle hpoint
    exact told_popToPlay h hpoint
  · rename_i hpoint
    exact told_popAgain h hpoint
  · rename_i next hpoint
    exact told_advance h hpoint seen.locked
  · exact h

/-! ## Runs -/

theorem told_run (h : Told s) (steps : List PlayStep) : Told (s.run steps) := by
  induction steps generalizing s with
  | nil => exact h
  | cons step steps ih =>
      apply ih
      cases step with
      | receive r => exact told_receive h r
      | play seen => exact told_playTurn h seen

/-- In every run of both threads, in any order of their steps, each block that goes out is the
one that the log before it asks for; samples are pushed in the order in which they were
staged and, unless a push behind a wrap met a queued chunk, chunks are taken in that order;
at most one chunk is trimmed in 256 ticks; and the statistics are those of the log. -/
theorem playback_law (steps : List PlayStep) :
    let s := Playback.start.run steps
    Always Orderly s.log ∧
      stagedIn s.log = (pushedIn s.log).flatMap Chunk.samples ++ s.pcm.stage ∧
      ((∀ p ∈ s.pcm.pushes, p.Harmless) →
        pushedIn s.log = consumedIn s.log ++ s.pcm.ring.queued) ∧
      256 * trimsIn s.log ≤ ticksIn s.log ∧ s.stats = statsIn s.log := by
  have h := told_run told_start steps
  refine ⟨h.orderly, h.queues.staged, h.queues.order, h.trims, h.stats⟩

/-- Eight chunks arrive, which is enough to begin, and two of them are played. -/
def eightChunks : List PlayStep :=
  (List.range 8).flatMap (fun k => [
    .receive (.stage (List.replicate audioChunkSamples (Int16.ofNat k))),
    .receive .flushRound]) ++
  List.replicate 9 (.play ⟨0, true, false, true⟩)

theorem playback_law_eightChunks :
    let s := Playback.start.run eightChunks
    (consumedIn s.log).length = 2 ∧
      pushedIn s.log = consumedIn s.log ++ s.pcm.ring.queued := by
  have hturn : (Playback.start.run eightChunks).pcm.pushes.all
      (fun p => decide (p.tail ≤ p.head)) = true := by decide +kernel
  refine ⟨by decide +kernel, (playback_law eightChunks).2.2.1 fun p hp => ?_⟩
  exact Push.harmless_of_le (of_decide_eq_true (List.all_eq_true.mp hturn p hp))

end MoonlightPsp.Audio
