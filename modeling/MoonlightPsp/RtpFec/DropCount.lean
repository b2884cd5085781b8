import MoonlightPsp.RtpFec.Order
import MoonlightPsp.RtpFec.Submission

/-!
# The FEC layer: frames dropped in a row

`g_consecutive_frame_drops` is to count the frames that were dropped in a row,
and an IDR frame is forced when there are too many.  The code counts in two
places and starts over in four.  Where a frame in one block has enough packets,
the count starts over before the frame is recovered, so that it is lost if the
recovery fails; and a frame in several blocks that is submitted does not start it
over at all.

A ledger counts the same from the events, with the flags as each of them finds
them.
-/

namespace MoonlightPsp.RtpFec

open Loops ReedSolomon

/-! ## The ledger -/

/-- Whether the reason comes up only once enough packets of a frame in one block
are there. -/
def DropReason.comesLate : DropReason → Bool
  | .unrecoverable => false
  | .multiBlockMissing => false
  | .multiBlockRsFailed => false
  | _ => true

/-- An IDR frame is forced for the number of drops.  For a frame too few packets
of which came in, a missing or corrupt reference is seen to first. -/
def forcesIdr (flags : FlagsView) (reason : DropReason) (drops : ℕ) : Bool :=
  decide (consecutiveDropIdrLimit ≤ drops) &&
    (reason != .unrecoverable ||
      (flags.lastGoodFrame != 0 && !flags.refsCorrupted))

/-- So many frames in a row are unrecoverable, or so many packets missing, that
an IDR frame is asked for if the references are corrupt. -/
def isCatastrophic (missing unrecoverable : ℕ) : Prop :=
  unrecoverable ≥ unrecoverableIdrThreshold ∨
    missing ≥ catastrophicLossThreshold * 2

instance (missing unrecoverable : ℕ) :
    Decidable (isCatastrophic missing unrecoverable) :=
  inferInstanceAs (Decidable (_ ∨ _))

/-- The frames dropped since the last submission or the last IDR frame that was
forced for them, those since an IDR frame was requested at all, and those too few
packets of which came in. -/
structure DropLedger where
  drops : ℕ
  unanswered : ℕ
  unrecoverable : ℕ

/-- The ledger after an event, `flags` being the flags before it. -/
def DropLedger.record (l : DropLedger) (flags : FlagsView) :
    FecEvent → DropLedger
  | .submitted _ => ⟨0, 0, 0⟩
  | .dropped _ reason missing requests =>
      { drops :=
          if forcesIdr flags reason (l.drops + 1) then 0 else l.drops + 1
        unanswered :=
          if requests.contains .requestIdr then 0 else l.unanswered + 1
        unrecoverable :=
          if reason = .unrecoverable then
            if flags.lastGoodFrame = 0 ∨
                (if flags.refsCorrupted then
                  isCatastrophic missing (l.unrecoverable + 1)
                else consecutiveDropIdrLimit ≤ l.drops + 1) then 0
            else l.unrecoverable + 1
          else if reason.comesLate then 0
          else l.unrecoverable }
  | _ => l

/-- An event, with the ledger and the flags before it. -/
structure LedgerEntry where
  ledger : DropLedger
  flags : FlagsView
  event : FecEvent

def LedgerEntry.after (x : LedgerEntry) : DropLedger :=
  x.ledger.record x.flags x.event

/-- The ledger after some events of a call, `before` being those before them. -/
def DropLedger.recordAll (env : FecEnv) :
    DropLedger → List FecEvent → List FecEvent → DropLedger
  | l, _, [] => l
  | l, before, e :: es =>
      (l.record (env.flags before) e).recordAll env (before ++ [e]) es

/-- The entries of these events. -/
def DropLedger.entries (env : FecEnv) :
    DropLedger → List FecEvent → List FecEvent → List LedgerEntry
  | _, _, [] => []
  | l, before, e :: es =>
      ⟨l, env.flags before, e⟩ ::
        (l.record (env.flags before) e).entries env (before ++ [e]) es

/-- The layer with the ledger and its history. -/
structure Audited where
  fec : Fec
  ledger : DropLedger
  history : List LedgerEntry

/-- One input. -/
def Audited.step (a : Audited) : FecInput → Option Audited
  | .packet env packet =>
      (rtpFecAddPacket env a.fec packet).map fun r =>
        let new := r.2.out.drop a.fec.out.length
        { fec := r.2
          ledger := a.ledger.recordAll env a.fec.out new
          history := a.history ++ a.ledger.entries env a.fec.out new }
  | .audio block =>
      some { a with fec := a.fec.setRs (audioRtpFecComplete a.fec.rs block).1 }
  | .reset => some { a with fec := rtpFecReset a.fec, ledger := ⟨0, 0, 0⟩ }

/-- A run of the layer with the ledger. -/
def Audited.run (a : Audited) : List FecInput → Option Audited
  | [] => some a
  | i :: rest => (a.step i).bind fun a => a.run rest

/-- The start, with nothing counted. -/
def Audited.initial : Audited := ⟨Fec.initial, ⟨0, 0, 0⟩, []⟩

/-- The counter of the code is the number of drops, and an IDR frame was
requested with every so many of them at the latest. -/
def Audited.Accounted (a : Audited) : Prop :=
  a.fec.consecutiveFrameDrops.toNat = a.ledger.drops ∧
    ∀ x ∈ a.history, x.after.unanswered < consecutiveDropIdrLimit

/-- No frame in several blocks is submitted after a drop; the counters of the
code have room for a drop more; no frame in one block is dropped after another
one although enough packets came in; and the references are not corrupt, with
nothing else that leads to an IDR frame, when a frame too few packets of which
came in is one too many. -/
def LedgerEntry.Regular (x : LedgerEntry) : Prop :=
  match x.event with
  | .submitted sub => sub.blockSizes.length ≤ 1 ∨ x.ledger.drops = 0
  | .dropped _ reason missing _ =>
      x.ledger.drops + 1 < 2 ^ 32 ∧
      if reason = .unrecoverable then
        x.ledger.unrecoverable + 1 < 2 ^ 31 ∧
        ¬(consecutiveDropIdrLimit ≤ x.ledger.unanswered + 1 ∧
          x.flags.lastGoodFrame ≠ 0 ∧ x.flags.refsCorrupted = true ∧
          x.flags.waitingForIdr = false ∧
          ¬isCatastrophic missing (x.ledger.unrecoverable + 1))
      else reason.comesLate = true → x.ledger.drops = 0
  | _ => True

instance : DecidablePred LedgerEntry.Regular
  | ⟨_, _, .submitted _⟩ => inferInstanceAs (Decidable (_ ∨ _))
  | ⟨_, _, .dropped _ _ _ _⟩ => inferInstanceAs (Decidable (_ ∧ ite _ _ _))
  | ⟨_, _, .becameCurrent _⟩ => instDecidableTrue
  | ⟨_, _, .late _ _⟩ => instDecidableTrue
  | ⟨_, _, .stored _ _ _⟩ => instDecidableTrue
  | ⟨_, _, .recoveryClean _⟩ => instDecidableTrue
  | ⟨_, _, .prepare _⟩ => instDecidableTrue

/-! ## Folding -/

section

variable {env : FecEnv}

theorem recordAll_append (l : DropLedger) (before xs ys : List FecEvent) :
    l.recordAll env before (xs ++ ys) =
      (l.recordAll env before xs).recordAll env (before ++ xs) ys := by
  induction xs generalizing l before with
  | nil => simp [DropLedger.recordAll]
  | cons x xs ih =>
      simp only [List.cons_append, DropLedger.recordAll, ih]
      simp

theorem entries_append (l : DropLedger) (before xs ys : List FecEvent) :
    l.entries env before (xs ++ ys) = l.entries env before xs ++
      (l.recordAll env before xs).entries env (before ++ xs) ys := by
  induction xs generalizing l before with
  | nil => simp [DropLedger.entries, DropLedger.recordAll]
  | cons x xs ih =>
      simp only [List.cons_append, DropLedger.entries, DropLedger.recordAll, ih]
      simp

theorem record_of_not_isFate (l : DropLedger) (flags : FlagsView)
    {e : FecEvent} (he : e.isFate = false) : l.record flags e = l := by
  cases e with
  | submitted sub => exact Bool.noConfusion he
  | dropped frame reason missing requests => exact Bool.noConfusion he
  | _ => rfl

/-- Events that end no frame leave the ledger as it is. -/
theorem recordAll_of_not_isFate (env : FecEnv) (l : DropLedger) (before : List FecEvent)
    {es : List FecEvent} (hes : ∀ e ∈ es, e.isFate = false) :
    l.recordAll env before es = l ∧
      ∀ x ∈ l.entries env before es, x.after = l := by
  induction es generalizing before with
  | nil => exact ⟨rfl, by simp [DropLedger.entries]⟩
  | cons e es ih =>
      have he := record_of_not_isFate l (env.flags before)
        (hes e List.mem_cons_self)
      obtain ⟨hall, hmem⟩ := ih (before ++ [e])
        fun e' he' => hes e' (List.mem_cons_of_mem e he')
      rw [DropLedger.recordAll, DropLedger.entries, he]
      refine ⟨hall, fun x hx => ?_⟩
      rcases List.mem_cons.mp hx with rfl | hx
      · exact he
      · exact hmem x hx

end

/-! ## What a call keeps -/

/-- Two states between which no frame ended. -/
structure SameCounts (s t : Fec) : Prop where
  drops : t.consecutiveFrameDrops = s.consecutiveFrameDrops
  unrecoverable : t.consecUnrecoverable = s.consecUnrecoverable
  out : ∃ new, t.out = s.out ++ new ∧ ∀ e ∈ new, e.isFate = false

theorem SameCounts.of_eq {s t : Fec}
    (hdrops : t.consecutiveFrameDrops = s.consecutiveFrameDrops)
    (hunrecoverable : t.consecUnrecoverable = s.consecUnrecoverable)
    (hout : t.out = s.out) : SameCounts s t :=
  ⟨hdrops, hunrecoverable, [], by rw [hout, List.append_nil], by simp⟩

theorem openFrame_counts (s : Fec) (h : FecHeader) :
    SameCounts s (openFrame s h) :=
  ⟨rfl, rfl, [_], rfl, by simp [FecEvent.isFate]⟩

theorem late_counts (s : Fec) (frame : UInt32) (replayed : Bool) :
    SameCounts s (s.emit (.late frame replayed)) :=
  ⟨rfl, rfl, [_], rfl, by simp [FecEvent.isFate]⟩

theorem setDeferred_counts (s : Fec) (deferred : List Packet) :
    SameCounts s (s.setDeferred deferred) :=
  .of_eq rfl rfl rfl

/-- A property that the conclusion of a frame keeps, with these circumstances,
and whatever ends no frame. -/
structure KeptByCall (env : FecEnv) (K : Fec → Prop) : Prop where
  conclude : ∀ s, FecInv s → 0 < s.receivedCount → K s →
    K (attemptRecoveryAndSubmit env s)
  other : ∀ s t, SameCounts s t → K s → K t

section

variable {env : FecEnv} {K : Fec → Prop}

theorem registerBlock_counts (s : Fec) (h : FecHeader) :
    SameCounts s (registerBlock s h) := by
  rw [registerBlock]
  split
  · exact .of_eq rfl rfl rfl
  · exact .of_eq rfl rfl rfl

theorem storePacket_counters (s : Fec) (h : FecHeader) (index : ℕ)
    (packet : Packet) : SameCounts s (storePacket s h index packet) := by
  refine ⟨?_, ?_, ?_⟩
  · rw [storePacket]
    split
    · rfl
    · simp only [countForBlock, countForFrame, markFramePacketReceived]
      split_ifs <;> rfl
  · rw [storePacket]
    split
    · rfl
    · simp only [countForBlock, countForFrame, markFramePacketReceived]
      split_ifs <;> rfl
  · by_cases hsome : (s.slots index).isSome
    · exact ⟨[], by simp [storePacket_of_isSome h packet hsome], by simp⟩
    · exact ⟨_, (storePacket_of_isNone h packet hsome).2.2.2,
        by simp [FecEvent.isFate]⟩

theorem KeptByCall.concludeFrame (hK : KeptByCall env K) {s : Fec}
    (hs : FecInv s) (hks : K s) : K (concludeFrame env s) := by
  rw [RtpFec.concludeFrame]
  split
  · rename_i hguard
    exact hK.conclude s hs hguard.2.2 hks
  · exact hks

theorem KeptByCall.take (hK : KeptByCall env K) {s : Fec} (hs : FecInv s)
    {packet : Packet} {h : FecHeader} (hh : Taken packet h) (hks : K s) :
    K (placePacket env (enterFrame env s h) h packet).2 := by
  have hopened := fecInv_steps (enterFrame_steps env hs hh) hs
  have henter : K (enterFrame env s h) := by
    rw [enterFrame]
    split
    · exact hK.other _ _ (openFrame_counts _ h) (hK.concludeFrame hs hks)
    · exact hks
  have hregister := hK.other _ _ (registerBlock_counts (enterFrame env s h) h)
    henter
  have hinv := fecInv_step (.register hh) hopened
  rw [placePacket]
  split
  · exact hregister
  · rename_i index hslot
    have hstore := hK.other _ _ (storePacket_counters _ h index packet) hregister
    have hstored := fecInv_storePacket hinv hh hslot
    simp only [submitIfReady]
    split
    · exact hK.conclude _ hstored (hstored.kept (.inr ⟨index,
        storePacket_isSome _ h index packet⟩)) hstore
    · exact hstore

theorem KeptByCall.replay (hK : KeptByCall env K) {s : Fec} (hs : FecInv s)
    (packet : Packet) (hks : K s) : K (replayPacket env s packet).2 := by
  rw [replayPacket]
  split
  · exact hks
  · exact hK.other _ _ (late_counts s _ true) hks
  · exact hks
  · rename_i h hscreen
    exact hK.take hs (screenPacket_taken hscreen).1 hks

theorem KeptByCall.drain (hK : KeptByCall env K) {fuel : ℕ} {s t : Fec}
    (hs : FecInv s) (hks : K s)
    (ht : drainDeferredCabacPackets env fuel s = some t) : FecInv t ∧ K t := by
  refine drain_invariant (fun u => FecInv u ∧ K u) ?_ ?_ ⟨hs, hks⟩ ht
  · rintro u ⟨hu, hku⟩
    exact ⟨fecInv_step (.queue _) hu, hK.other _ _ (setDeferred_counts u _) hku⟩
  · rintro u front rest ⟨hu, hku⟩ - -
    have hqueue : FecInv (u.setDeferred rest) := fecInv_step (.queue rest) hu
    exact ⟨fecInv_steps (replayPacket_steps env hqueue front) hqueue,
      hK.replay hqueue front (hK.other _ _ (setDeferred_counts u rest) hku)⟩

theorem KeptByCall.transition (hK : KeptByCall env K) {packet : Packet}
    {h : FecHeader} (hh : Taken packet h) {fuel : ℕ} {s : Fec}
    {r : Bool × Fec} (hs : FecInv s) (hks : K s)
    (hr : processFrameTransition env h packet fuel s = some r) :
    FecInv r.2 ∧ K r.2 := by
  induction fuel generalizing s with
  | zero => exact nomatch hr
  | succ fuel ih =>
      cases passed_of_eq hr with
      | deferred hwaits hdefer =>
          obtain ⟨rfl, -, -⟩ := deferCabacNewerPacket_eq_some hdefer
          exact ⟨fecInv_step (.queue _) hs,
            hK.other _ _ (setDeferred_counts s _) hks⟩
      | refused hwaits hrefused hdrain hr =>
          have hinv := fecInv_steps (concludeFrame_steps env) hs
          obtain ⟨htinv, hkt⟩ :=
            hK.drain hinv (hK.concludeFrame hs hks) hdrain
          exact ih htinv hkt hr
      | placed hgoes =>
          exact ⟨(take_spec env hs hh).1, hK.take hs hh hks⟩

/-- A call keeps the property. -/
theorem KeptByCall.addPacket (hK : KeptByCall env K) {s : Fec}
    {packet : Packet} {r : Bool × Fec} (hs : FecInv s) (hks : K s)
    (hr : rtpFecAddPacket env s packet = some r) : FecInv r.2 ∧ K r.2 := by
  obtain ⟨t, o, v, hfirst, harrive, hlast, rfl⟩ := exists_of_rtpFecAddPacket hr
  obtain ⟨ht, hkt⟩ := hK.drain hs hks hfirst
  have ho : FecInv o.2 ∧ K o.2 := by
    cases arrived_of_eq harrive with
    | bypass _ => exact ⟨ht, hkt⟩
    | stale frame _ =>
        exact ⟨fecInv_step (.late frame false) ht,
          hK.other _ _ (late_counts t frame false) hkt⟩
    | junk _ => exact ⟨ht, hkt⟩
    | taken h hscreen hpass =>
        exact hK.transition (screenPacket_taken hscreen).1 ht hkt hpass
  exact hK.drain ho.1 ho.2 hlast

end

/-! ## The conclusion of a frame -/

/-- The counters of the layer are those of the ledger. -/
structure Reckoned (s : Fec) (l : DropLedger) : Prop where
  drops : s.consecutiveFrameDrops.toNat = l.drops
  unrecoverable : s.consecUnrecoverable.toInt = l.unrecoverable
  unanswered_le : l.unanswered ≤ l.drops
  answered : l.unanswered < consecutiveDropIdrLimit

theorem Reckoned.drops_succ {s : Fec} {l : DropLedger} (hl : Reckoned s l)
    (hroom : l.drops + 1 < 2 ^ 32) :
    (s.consecutiveFrameDrops + 1).toNat = l.drops + 1 := by
  rw [UInt32.toNat_add, hl.drops]
  exact Nat.mod_eq_of_lt hroom

theorem Reckoned.unrecoverable_succ {s : Fec} {l : DropLedger}
    (hl : Reckoned s l) (hroom : l.unrecoverable + 1 < 2 ^ 31) :
    (s.consecUnrecoverable + 1).toInt = (l.unrecoverable + 1 : ℕ) := by
  rw [Int32.toInt_add, hl.unrecoverable]
  have hone : (1 : Int32).toInt = 1 := rfl
  rw [hone, Int.bmod_def]
  omega

/-- A frame ends with a fate after quiet events. -/
def EndsFrame (env : FecEnv) (s t : Fec) : Prop :=
  ∃ quiet fate, t.out = s.out ++ quiet ++ [fate] ∧
    (∀ e ∈ quiet, e.isQuiet) ∧
    ∀ l, Reckoned s l →
      LedgerEntry.Regular ⟨l, env.flags (s.out ++ quiet), fate⟩ →
        Reckoned t (l.record (env.flags (s.out ++ quiet)) fate)

/-- `u` differs from `s` by quiet events only, besides slots and counters. -/
structure QuietlyFrom (s u : Fec) : Prop where
  blocks : u.numFecBlocks = s.numFecBlocks
  out : ∃ quiet, u.out = s.out ++ quiet ∧ ∀ e ∈ quiet, e.isQuiet

theorem QuietlyFrom.emit {s u : Fec} (h : QuietlyFrom s u) {e : FecEvent}
    (he : e.isQuiet) : QuietlyFrom s (u.emit e) := by
  obtain ⟨quiet, hout, hquiet⟩ := h.out
  refine ⟨h.blocks, quiet ++ [e], by simp [Fec.emit, hout], ?_⟩
  intro x hx
  rcases List.mem_append.mp hx with hx | hx
  · exact hquiet x hx
  · rwa [List.mem_singleton.mp hx]

theorem QuietlyFrom.of_same {s u : Fec} (h : SameFrame s u)
    (hout : u.out = s.out) : QuietlyFrom s u :=
  ⟨h.numFecBlocks, [], by rw [hout, List.append_nil], by simp⟩

section

variable {env : FecEnv} {s u : Fec}

theorem dropCurrentFrameStrict_counts (env : FecEnv) (u : Fec)
    (reason : DropReason) (missing : ℕ) (before : List Request) :
    let t := dropCurrentFrameStrict env u reason missing before
    ∃ requests, t.out = u.out ++ [.recoveryClean false] ++
        [.dropped u.currentFrame reason missing requests] ∧
      t.consecUnrecoverable = u.consecUnrecoverable ∧
      (t.consecutiveFrameDrops =
        if consecutiveDropIdrLimit ≤ (u.consecutiveFrameDrops + 1).toNat then 0
        else u.consecutiveFrameDrops + 1) ∧
      (consecutiveDropIdrLimit ≤ (u.consecutiveFrameDrops + 1).toNat →
        requests.contains .requestIdr = true) := by
  refine ⟨_, by rw [List.append_assoc]; rfl, rfl, ?_, ?_⟩
  · simp only [dropCurrentFrameStrict]
    by_cases hlimit :
        consecutiveDropIdrLimit ≤ (u.consecutiveFrameDrops + 1).toNat
    · rw [if_pos ⟨by simp only [hlimit, decide_true, Bool.or_true],
        hlimit⟩, if_pos hlimit]
    · rw [if_neg fun h => hlimit h.2, if_neg hlimit]
  · intro hlimit
    rw [decide_eq_true hlimit, Bool.or_true, if_pos rfl]
    simp

/-- A frame in several blocks is dropped. -/
theorem strict_ends_multi (hu : QuietlyFrom s u)
    (hdrops : u.consecutiveFrameDrops = s.consecutiveFrameDrops)
    (hcount : u.consecUnrecoverable = s.consecUnrecoverable)
    {reason : DropReason} (hreason : reason ≠ .unrecoverable)
    (hearly : reason.comesLate = false) (missing : ℕ) (before : List Request) :
    EndsFrame env s (dropCurrentFrameStrict env u reason missing before) := by
  obtain ⟨quiet, hout, hquiet⟩ := hu.out
  obtain ⟨requests, htout, htcount, htdrops, hidr⟩ :=
    dropCurrentFrameStrict_counts env u reason missing before
  refine ⟨quiet ++ [.recoveryClean false],
    .dropped u.currentFrame reason missing requests, ?_, ?_,
    fun l hl hregular => ?_⟩
  · rw [htout, hout]
    simp only [List.append_assoc]
  · intro e he
    rcases List.mem_append.mp he with he | he
    · exact hquiet e he
    · rw [List.mem_singleton.mp he]
      rfl
  · have hle := hl.unanswered_le
    have hlt := hl.answered
    have hroom : l.drops + 1 < 2 ^ 32 := hregular.1
    rw [hdrops] at htdrops hidr
    rw [hl.drops_succ hroom] at htdrops hidr
    have hforces (flags : FlagsView) (n : ℕ) :
        forcesIdr flags reason n = decide (consecutiveDropIdrLimit ≤ n) := by
      simp [forcesIdr, hreason]
    simp only [DropLedger.record, hforces, decide_eq_true_eq, if_neg hreason,
      hearly, Bool.false_eq_true, if_false]
    refine ⟨?_, by rw [htcount, hcount, hl.unrecoverable], ?_, ?_⟩
    · rw [htdrops]
      split
      · rfl
      · exact hl.drops_succ hroom
    · simp only
      split
      · exact Nat.zero_le _
      · rename_i hno
        rw [if_neg fun h => hno (hidr h)]
        omega
    · simp only
      split
      · exact Nat.zero_lt_succ _
      · rename_i hno
        have : ¬consecutiveDropIdrLimit ≤ l.drops + 1 := fun h => hno (hidr h)
        omega

/-- A frame in one block is dropped although enough packets came in: the count
starts over with it. -/
theorem strict_ends_single (hu : QuietlyFrom s u)
    (hdrops : u.consecutiveFrameDrops = 0) (hcount : u.consecUnrecoverable = 0)
    {reason : DropReason} (hlate : reason.comesLate = true) (missing : ℕ)
    (before : List Request) :
    EndsFrame env s (dropCurrentFrameStrict env u reason missing before) := by
  obtain ⟨quiet, hout, hquiet⟩ := hu.out
  obtain ⟨requests, htout, htcount, htdrops, -⟩ :=
    dropCurrentFrameStrict_counts env u reason missing before
  have hreason : reason ≠ .unrecoverable := by
    rintro rfl
    exact Bool.noConfusion hlate
  refine ⟨quiet ++ [.recoveryClean false],
    .dropped u.currentFrame reason missing requests, ?_, ?_,
    fun l hl hregular => ?_⟩
  · rw [htout, hout]
    simp only [List.append_assoc]
  · intro e he
    rcases List.mem_append.mp he with he | he
    · exact hquiet e he
    · rw [List.mem_singleton.mp he]
      rfl
  · simp only [LedgerEntry.Regular, if_neg hreason] at hregular
    have hzero := hregular.2 hlate
    have hle := hl.unanswered_le
    rw [hdrops] at htdrops
    simp only [DropLedger.record, forcesIdr, hzero, if_neg hreason, hlate,
      if_true]
    refine ⟨congrArg UInt32.toNat htdrops,
      congrArg Int32.toInt (htcount.trans hcount), ?_, ?_⟩
    · simp only [consecutiveDropIdrLimit]
      split <;> simp
      omega
    · simp only [consecutiveDropIdrLimit]
      split <;> omega

/-- When the two counts start over, and when no IDR frame is requested. -/
theorem unrecoverableRequests_spec (s : Fec) (flags : FlagsView) (missing : ℕ)
    {unrecoverable drops : ℕ} {consecUnrecoverable : Int32}
    {consecutiveFrameDrops : UInt32}
    (hunrecoverable : consecUnrecoverable.toInt = unrecoverable)
    (hdrops : consecutiveFrameDrops.toNat = drops) :
    let r := unrecoverableRequests s flags missing consecUnrecoverable
      consecutiveFrameDrops
    r.2.2 = forcesIdr flags .unrecoverable drops ∧
      (r.2.1 = true ↔ flags.lastGoodFrame = 0 ∨
        (if flags.refsCorrupted then isCatastrophic missing unrecoverable
        else consecutiveDropIdrLimit ≤ drops)) ∧
      (r.1.contains .requestIdr = false → drops < consecutiveDropIdrLimit ∨
        flags.lastGoodFrame ≠ 0 ∧ flags.refsCorrupted = true ∧
          flags.waitingForIdr = false ∧ ¬isCatastrophic missing unrecoverable) := by
  simp only [unrecoverableRequests, forcesIdr, isCatastrophic, hunrecoverable,
    hdrops, ge_iff_le, Nat.cast_le]
  by_cases hgood : flags.lastGoodFrame = 0
  · simp [hgood]
  · cases hrefs : flags.refsCorrupted with
    | true =>
        by_cases hbad : unrecoverable ≥ unrecoverableIdrThreshold ∨
            missing ≥ catastrophicLossThreshold * 2
        · simp [hgood, hbad]
        · cases hwait : flags.waitingForIdr with
          | true => simp [hgood, hbad]
          | false => simp [hgood, hbad]
    | false =>
        by_cases hlimit : consecutiveDropIdrLimit ≤ drops
        · simp [hgood, hlimit]
        · simp [hgood, hlimit, Nat.lt_of_not_le hlimit]

/-- A frame too few packets of which came in is dropped. -/
theorem unrecoverable_ends (env : FecEnv) (s : Fec) (missing : ℕ) :
    EndsFrame env s (dropUnrecoverable env s missing) := by
  set r := unrecoverableRequests s (env.flags s.out) missing
    (s.consecUnrecoverable + 1) (s.consecutiveFrameDrops + 1) with hr
  set requests := noteCurrentFrameDropForRecovery s (env.flags s.out) ++ r.1
    with hrequests
  have hasked : requests.contains .requestIdr = r.1.contains .requestIdr := by
    rw [hrequests, noteCurrentFrameDropForRecovery]
    split <;> simp
  refine ⟨[], .dropped s.currentFrame .unrecoverable missing requests,
    by rw [List.append_nil]; rfl, by simp, ?_⟩
  rw [List.append_nil]
  intro l hl hregular
  have hle := hl.unanswered_le
  have hlt := hl.answered
  simp only [LedgerEntry.Regular, if_true] at hregular
  obtain ⟨hroom, hroom', hregular⟩ := hregular
  have hdrops := hl.drops_succ hroom
  have hcount := hl.unrecoverable_succ hroom'
  obtain ⟨hforces, hrestarts, hsilent⟩ := unrecoverableRequests_spec s
    (env.flags s.out) missing hcount hdrops
  rw [← hr] at hforces hrestarts hsilent
  have htdrops : (dropUnrecoverable env s missing).consecutiveFrameDrops =
      if r.2.2 then 0 else s.consecutiveFrameDrops + 1 := rfl
  have htcount : (dropUnrecoverable env s missing).consecUnrecoverable =
      if r.2.1 then 0 else s.consecUnrecoverable + 1 := rfl
  rw [hforces] at htdrops
  simp only [hrestarts] at htcount
  refine ⟨?_, ?_, ?_, ?_⟩
  · rw [htdrops]
    simp only [DropLedger.record]
    split
    · rfl
    · exact hdrops
  · simp only [DropLedger.record, if_true]
    rw [htcount, apply_ite Int32.toInt, hcount, apply_ite (Nat.cast : ℕ → ℤ)]
    rfl
  · simp only [DropLedger.record, hasked]
    split
    · exact Nat.zero_le _
    · rename_i hno
      have hnot : forcesIdr (env.flags s.out) .unrecoverable (l.drops + 1) =
          false := by
        rcases hsilent (by simpa using hno) with hfew | ⟨-, hrefs, -⟩
        · simp [forcesIdr, Nat.not_le.mpr hfew]
        · simp [forcesIdr, hrefs]
      rw [hnot]
      simpa using hle
  · simp only [DropLedger.record, hasked]
    split
    · exact Nat.zero_lt_succ _
    · rename_i hno
      rcases hsilent (by simpa using hno) with hfew | hcorrupt
      · omega
      · by_contra hmany
        exact hregular ⟨Nat.le_of_not_lt hmany, hcorrupt⟩

theorem handOver_ends (hu : QuietlyFrom s u) (hcount : u.consecUnrecoverable = 0)
    (hdrops : u.consecutiveFrameDrops =
      if s.numFecBlocks > 1 then s.consecutiveFrameDrops else 0)
    (shards : List Shard) (nextSeq : Option UInt16) :
    EndsFrame env s (handOver u shards nextSeq) := by
  obtain ⟨quiet, hout, hquiet⟩ := hu.out
  refine ⟨quiet,
    .submitted ⟨u.currentFrame, u.lowestSeq, blockSizes u, shards, nextSeq⟩, ?_,
    hquiet,
    fun l hl hregular => ⟨?_, congrArg Int32.toInt hcount, Nat.le_refl _,
      Nat.zero_lt_succ _⟩⟩
  · simp only [handOver, hout]
  · have hkept : (handOver u shards nextSeq).consecutiveFrameDrops =
        u.consecutiveFrameDrops := rfl
    rw [hkept, hdrops]
    split
    · rename_i hmany
      simp only [LedgerEntry.Regular, blockSizes, hu.blocks, if_pos hmany,
        List.length_map, List.length_range] at hregular
      rw [hl.drops]
      exact hregular.resolve_left (by omega)
    · rfl

/-- A frame is handed on. -/
theorem submit_ends (hu : QuietlyFrom s u) (hcount : u.consecUnrecoverable = 0)
    (hdrops : u.consecutiveFrameDrops =
      if s.numFecBlocks > 1 then s.consecutiveFrameDrops else 0) :
    EndsFrame env s (submitFramePackets env u) := by
  have hprepared := hu.emit (e := .prepare u.currentFrame) rfl
  rw [submitFramePackets, submitSlots]
  split
  · exact handOver_ends hprepared hcount hdrops _ _
  · rename_i hsingle
    rw [hprepared.blocks] at hsingle
    split
    · refine strict_ends_single hprepared ?_ hcount rfl _ _
      exact hdrops.trans (if_neg hsingle)
    · exact handOver_ends hprepared hcount hdrops _ _

/-! ### Recovery leaves the counters alone -/

/-- The counters of two states are the same. -/
def SameCounters (s t : Fec) : Prop :=
  t.consecutiveFrameDrops = s.consecutiveFrameDrops ∧
    t.consecUnrecoverable = s.consecUnrecoverable

theorem SameCounters.trans {s t u : Fec} (hst : SameCounters s t)
    (htu : SameCounters t u) : SameCounters s u :=
  ⟨htu.1.trans hst.1, htu.2.trans hst.2⟩

theorem requeueBlock_counters (c : FecConfig) (s : Fec) (b : ℕ)
    (blk : FecBlock) (marks : ℕ → Bool) (rebuilt : ℕ → Buf) (size : ℕ) :
    SameCounters s (requeueBlock c s b blk marks rebuilt size) := by
  rw [requeueBlock]
  refine fold_invariant (fun _ t => SameCounters s t) ⟨rfl, rfl⟩ ?_
  intro i _ t ht
  split
  · exact ht
  · exact ht

theorem recoverBlock_counters (c : FecConfig) (s : Fec) (b : ℕ) :
    SameCounters s (recoverBlock c s b).2 := by
  rw [recoverBlock]
  split
  · exact ⟨rfl, rfl⟩
  split
  · exact ⟨rfl, rfl⟩
  split
  · exact ⟨rfl, rfl⟩
  generalize videoReconstruct s.rs _ _ _ _ _ _ = o
  rcases o with ⟨rs, _ | r⟩
  · exact ⟨rfl, rfl⟩
  · simp only [finishBlock]
    split
    · exact requeueBlock_counters c (s.setRs rs) b _ _ _ _
    · exact ⟨rfl, rfl⟩

theorem scanBlocks_counters (c : FecConfig) (s : Fec) :
    SameCounters s (scanBlocks c s).s := by
  rw [scanBlocks]
  refine fold_invariant (fun _ (r : BlockScan) => SameCounters s r.s) ⟨rfl, rfl⟩
    ?_
  intro b _ r hr
  exact hr.trans (recoverBlock_counters c r.s b)

theorem requeueFrame_counters (c : FecConfig) (s : Fec) (marks : ℕ → Bool)
    (rebuilt : ℕ → Buf) (size : ℕ) :
    SameCounters s (requeueFrame c s marks rebuilt size).s := by
  rw [requeueFrame]
  refine fold_invariant (fun _ (q : RequeueState) => SameCounters s q.s)
    ⟨rfl, rfl⟩ ?_
  intro i _ q hq
  rw [requeueOne]
  split
  · exact hq
  · simp only
    split
    · exact hq
    · exact hq

/-! ### The ways a frame ends -/

/-- A frame in one block with enough packets ends. -/
theorem finishFrame_ends (hu : SameFrame s u) (hout : u.out = s.out)
    (hsingle : ¬s.numFecBlocks > 1) (hdrops : u.consecutiveFrameDrops = 0)
    (hcount : u.consecUnrecoverable = 0) (missing : ℕ)
    (o : SharedRs × Option Reconstruction) :
    EndsFrame env s (finishFrame env u missing o) := by
  rcases o with ⟨rs, _ | r⟩
  · exact strict_ends_single
      (.of_same (hu.trans (.setRs u rs)) hout) hdrops hcount rfl _ _
  simp only [finishFrame]
  obtain ⟨hsame, hqout, -, -⟩ := requeueFrame_spec env.config (u.setRs rs)
    r.shards
  obtain ⟨hqdrops, hqcount⟩ := requeueFrame_counters env.config (u.setRs rs)
    (frameMarks u) r.shards (fecRecoverySymbolSize env.config)
  have hqueued := QuietlyFrom.of_same
    ((hu.trans (.setRs u rs)).trans hsame) (hqout.trans hout)
  split
  · split
    · exact strict_ends_single (hqueued.emit rfl) (hqdrops.trans hdrops)
        (hqcount.trans hcount) rfl _ _
    · refine submit_ends (hqueued.emit rfl) (hqcount.trans hcount) ?_
      rw [if_neg hsingle]
      exact hqdrops.trans hdrops
  · exact strict_ends_single
      (QuietlyFrom.emit (.of_same (hu.trans (.setRs u rs)) hout) rfl) hdrops
      hcount rfl _ _

theorem attemptSingleBlock_ends (hshape : Shaped s)
    (hsingle : ¬s.numFecBlocks > 1) :
    EndsFrame env s (attemptSingleBlock env s) := by
  have hdata := hshape.data_pos
  have hle := hshape.data_le
  have htotal := hshape.total_le
  have hcounters := SameFrame.setCounters s 0 0
  rw [attemptSingleBlock, if_neg (by omega)]
  split
  · exact submit_ends (QuietlyFrom.emit (.of_same hcounters rfl) rfl) rfl
      (if_neg hsingle).symm
  · split
    · exact unrecoverable_ends env s _
    · simp only
      split
      · exact strict_ends_single (.of_same hcounters rfl) rfl rfl rfl _ _
      · exact finishFrame_ends hcounters rfl hsingle rfl rfl _ _

theorem attemptMultiBlock_ends (hshape : Shaped s)
    (hmany : s.numFecBlocks > 1) :
    EndsFrame env s (attemptMultiBlockRecoveryAndSubmit env s) := by
  obtain ⟨hscan, -⟩ := scanBlocks_spec env.config hshape
  obtain ⟨hdrops, hcount⟩ := scanBlocks_counters env.config s
  have hscanned := QuietlyFrom.of_same hscan.same hscan.out
  rw [attemptMultiBlockRecoveryAndSubmit]
  split
  · split
    · exact strict_ends_multi hscanned hdrops hcount (by simp) rfl _ _
    · exact strict_ends_multi hscanned hdrops hcount (by simp) rfl _ _
  · refine submit_ends (QuietlyFrom.emit (.of_same
      (hscan.same.trans (.setCounters _ 0 _)) hscan.out) rfl) rfl ?_
    rw [if_pos hmany]
    exact hdrops

/-- An attempt ends the frame. -/
theorem attempt_ends (env : FecEnv) {s : Fec} (hshape : Shaped s) :
    EndsFrame env s (attemptRecoveryAndSubmit env s) := by
  rw [attemptRecoveryAndSubmit]
  split
  · exact attemptMultiBlock_ends hshape ‹_›
  · exact attemptSingleBlock_ends hshape ‹_›

end

/-! ## Runs -/

/-- What a call has added to the events agrees with the ledger, as long as all of
it is regular. -/
def Booked (env : FecEnv) (l : DropLedger) (before : List FecEvent) (s : Fec) :
    Prop :=
  ∃ new, s.out = before ++ new ∧
    ((∀ x ∈ l.entries env before new, x.Regular) →
      Reckoned s (l.recordAll env before new) ∧
        ∀ x ∈ l.entries env before new,
          x.after.unanswered < consecutiveDropIdrLimit)

theorem Booked.other {env : FecEnv} {l : DropLedger} {before : List FecEvent}
    {s t : Fec} (hs : Booked env l before s) (hst : SameCounts s t) :
    Booked env l before t := by
  obtain ⟨new, hnew, hbooked⟩ := hs
  obtain ⟨more, hout, hmore⟩ := hst.out
  obtain ⟨hsame, hafter⟩ := recordAll_of_not_isFate env
    (l.recordAll env before new) (before ++ new) hmore
  refine ⟨new ++ more, by rw [hout, hnew, List.append_assoc], ?_⟩
  rw [entries_append, recordAll_append, hsame]
  intro hregular
  obtain ⟨hreckoned, hanswered⟩ := hbooked fun x hx =>
    hregular x (List.mem_append_left _ hx)
  refine ⟨⟨by rw [hst.drops, hreckoned.drops],
    by rw [hst.unrecoverable, hreckoned.unrecoverable],
    hreckoned.unanswered_le, hreckoned.answered⟩, fun x hx => ?_⟩
  rcases List.mem_append.mp hx with hx | hx
  · exact hanswered x hx
  · rw [hafter x hx]
    exact hreckoned.answered

theorem Booked.conclude {env : FecEnv} {l : DropLedger}
    {before : List FecEvent} {s t : Fec} (hs : Booked env l before s)
    (hst : EndsFrame env s t) : Booked env l before t := by
  obtain ⟨new, hnew, hbooked⟩ := hs
  obtain ⟨quiet, fate, hout, hquiet, hfate⟩ := hst
  obtain ⟨hsame, hafter⟩ := recordAll_of_not_isFate env
    (l.recordAll env before new) (before ++ new)
    fun e he => not_isFate_of_isQuiet (hquiet e he)
  refine ⟨new ++ (quiet ++ [fate]), by
    rw [hout, hnew]
    simp only [List.append_assoc], ?_⟩
  rw [entries_append, recordAll_append, entries_append, recordAll_append, hsame]
  rw [hnew] at hfate
  intro hregular
  obtain ⟨hreckoned, hanswered⟩ := hbooked fun x hx =>
    hregular x (List.mem_append_left _ hx)
  have hlast := hfate _ hreckoned (hregular _ (List.mem_append_right _
    (List.mem_append_right _ List.mem_cons_self)))
  refine ⟨hlast, fun x hx => ?_⟩
  rcases List.mem_append.mp hx with hx | hx
  · exact hanswered x hx
  rcases List.mem_append.mp hx with hx | hx
  · rw [hafter x hx]
    exact hreckoned.answered
  · rw [DropLedger.entries, DropLedger.entries, List.mem_singleton] at hx
    rw [hx]
    exact hlast.answered

theorem booked_keptByCall (env : FecEnv) (l : DropLedger)
    (before : List FecEvent) : KeptByCall env (Booked env l before) where
  conclude := fun _ hs hpos hbooked =>
    hbooked.conclude (attempt_ends env (hs.shaped hpos))
  other := fun _ _ hst hbooked => hbooked.other hst

/-- The history is of regular events only, up to now. -/
def Audited.AllRegular (a : Audited) : Prop := ∀ x ∈ a.history, x.Regular

/-- The state of an audited run. -/
structure AuditedInv (a : Audited) : Prop where
  inv : FecInv a.fec
  booked : a.AllRegular → Reckoned a.fec a.ledger ∧
    ∀ x ∈ a.history, x.after.unanswered < consecutiveDropIdrLimit

theorem auditedInv_packet {a : Audited} (ha : AuditedInv a) (env : FecEnv)
    (packet : Packet) :
    ∃ r a', rtpFecAddPacket env a.fec packet = some r ∧
      a.step (.packet env packet) = some a' ∧ a'.fec = r.2 ∧ AuditedInv a' := by
  obtain ⟨r, hr, -⟩ := rtpFecAddPacket_spec env ha.inv packet
  refine ⟨r, _, hr, by rw [Audited.step, hr]; rfl, rfl, ?_⟩
  by_cases hall : a.AllRegular
  · obtain ⟨hreckoned, hanswered⟩ := ha.booked hall
    obtain ⟨hinv, new, hnew, hbooked⟩ :=
      (booked_keptByCall env a.ledger a.fec.out).addPacket ha.inv
        ⟨[], (List.append_nil _).symm, fun _ =>
          ⟨hreckoned, by simp [DropLedger.entries]⟩⟩ hr
    have hdrop : r.2.out.drop a.fec.out.length = new := by
      rw [hnew, List.drop_left]
    refine ⟨hinv, fun hregular => ?_⟩
    simp only [hdrop]
    simp only [Audited.AllRegular, hdrop] at hregular
    obtain ⟨hend, hbetween⟩ := hbooked fun x hx =>
      hregular x (List.mem_append_right _ hx)
    refine ⟨hend, fun x hx => ?_⟩
    rcases List.mem_append.mp hx with hx | hx
    · exact hanswered x hx
    · exact hbetween x hx
  · obtain ⟨r', hr', hsteps⟩ := rtpFecAddPacket_spec env ha.inv packet
    rw [hr] at hr'
    obtain rfl := Option.some.inj hr'
    refine ⟨fecInv_steps hsteps ha.inv, fun hregular => ?_⟩
    exact absurd (fun x hx => hregular x (List.mem_append_left _ hx)) hall

/-- In every run without a submission or a drop that is not regular, the counter
of the code is the number of drops, and IDR frames are requested in time. -/
theorem accounted_of_regular (inputs : List FecInput) :
    ∃ a, Audited.initial.run inputs = some a ∧
      Fec.initial.run inputs = some a.fec ∧ (a.AllRegular → a.Accounted) := by
  have hrun : ∀ a, AuditedInv a → ∃ b, a.run inputs = some b ∧
      a.fec.run inputs = some b.fec ∧ AuditedInv b := by
    induction inputs with
    | nil => exact fun a ha => ⟨a, rfl, rfl, ha⟩
    | cons i rest ih =>
        intro a ha
        cases i with
        | packet env packet =>
            obtain ⟨r, a', hr, hstep, hfec, ha'⟩ :=
              auditedInv_packet ha env packet
            obtain ⟨b, hb, hbf, hinv⟩ := ih a' ha'
            rw [hfec] at hbf
            exact ⟨b, by simp [Audited.run, hstep, hb],
              by simp [Fec.run, Fec.step, hr, hbf], hinv⟩
        | audio block =>
            obtain ⟨b, hb, hbf, hinv⟩ := ih
              { a with fec := a.fec.setRs (audioRtpFecComplete a.fec.rs block).1 }
              ⟨ha.inv.of_same (.setRs _ _) rfl, fun hall =>
                ⟨⟨(ha.booked hall).1.drops, (ha.booked hall).1.unrecoverable,
                  (ha.booked hall).1.unanswered_le,
                  (ha.booked hall).1.answered⟩, (ha.booked hall).2⟩⟩
            exact ⟨b, by simpa [Audited.run, Audited.step] using hb,
              by simpa [Fec.run, Fec.step] using hbf, hinv⟩
        | reset =>
            obtain ⟨b, hb, hbf, hinv⟩ := ih
              { a with fec := rtpFecReset a.fec, ledger := ⟨0, 0, 0⟩ }
              ⟨fecInv_reset, fun hall => ⟨⟨rfl, rfl, Nat.le_refl _,
                Nat.zero_lt_succ _⟩, (ha.booked hall).2⟩⟩
            exact ⟨b, by simpa [Audited.run, Audited.step] using hb,
              by simpa [Fec.run, Fec.step] using hbf, hinv⟩
  obtain ⟨a, ha, hfec, hinv⟩ := hrun Audited.initial
    ⟨fecInv_initial, fun _ => ⟨⟨rfl, rfl, Nat.le_refl _, Nat.zero_lt_succ _⟩,
      fun _ hx => absurd hx List.not_mem_nil⟩⟩
  refine ⟨a, ha, hfec, fun hall => ?_⟩
  obtain ⟨hreckoned, hanswered⟩ := hinv.booked hall
  exact ⟨hreckoned.drops, hanswered⟩

/-- Half of frames 1, 2 and 4 is lost, and frame 3 comes whole. -/
def droppedAroundWhole : List FecInput :=
  [.packet (sampleEnv 0) (barePacket 0 1 0x00 2 0 0),
    .packet (sampleEnv 0) (barePacket 2 2 0x00 2 0 0),
    .packet (sampleEnv 0) (barePacket 4 3 0x00 1 0 0),
    .packet (sampleEnv 0) (barePacket 5 4 0x00 2 0 0),
    .packet (sampleEnv 0) (barePacket 7 5 0x00 2 0 0)]

/-- The three drops are regular; the count starts over with frame 3, and frame 4
is counted after it. -/
theorem accounted_of_regular_droppedAroundWhole :
    ∃ a, Audited.initial.run droppedAroundWhole = some a ∧ a.Accounted ∧
      a.fec.out.countP FecEvent.isFate = 4 ∧ a.fec.consecutiveFrameDrops = 1 := by
  obtain ⟨a, ha, -, haccounted⟩ := accounted_of_regular droppedAroundWhole
  have htrace : ((Audited.initial.run droppedAroundWhole).all fun a =>
      a.history.all (fun x => decide x.Regular) &&
        decide (a.fec.out.countP FecEvent.isFate = 4 ∧
          a.fec.consecutiveFrameDrops = 1)) = true := by
    decide +kernel
  rw [ha, Option.all_some, Bool.and_eq_true, List.all_eq_true,
    decide_eq_true_eq] at htrace
  exact ⟨a, ha, haccounted fun x hx => of_decide_eq_true (htrace.1 x hx),
    htrace.2⟩

/-- Half of frame 1 is lost, and frame 2 in two blocks comes whole. -/
def submittedAfterDrop : List FecInput :=
  [.packet (sampleEnv 0) (barePacket 0 1 0x00 2 0 0),
    .packet (sampleEnv 0) (barePacket 2 2 0x40 1 0 0),
    .packet (sampleEnv 0) (barePacket 3 2 0x50 1 0 0)]

/-- Frame 1 is still counted after frame 2 was submitted. -/
theorem drop_counted_after_submission :
    ¬∀ inputs, ∃ a, Audited.initial.run inputs = some a ∧ a.Accounted := by
  intro hall
  obtain ⟨a, ha, hdrops, -⟩ := hall submittedAfterDrop
  have hcounts : (Audited.initial.run submittedAfterDrop).map (fun a =>
      (a.fec.consecutiveFrameDrops.toNat, a.ledger.drops)) = some (1, 0) := by
    decide +kernel
  rw [ha, Option.map_some, hdrops, Option.some.injEq, Prod.mk.injEq] at hcounts
  omega

end MoonlightPsp.RtpFec
