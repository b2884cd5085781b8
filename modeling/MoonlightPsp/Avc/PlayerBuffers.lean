import MoonlightPsp.Avc.BackendGate
import MoonlightPsp.Avc.Player

/-!
# Who owns the output buffers

When the player gives buffers to the firmware, they should be three slots of the
pool that the presenter neither holds nor can take, and a reservation should be
over when the call returns.  A run keeps to that exactly if no close gets to its
drain and no decode fails to lock the table a second time.
-/

namespace MoonlightPsp.Avc

/-! ## What the player owes -/

/-- Buffers that were given, seen from the state that the call leaves. -/
structure OwnsGiven (g : Giving) (after : Player) : Prop where
  /-- The indices are inside of `PspAvcPictures.rgba`. -/
  index : ∀ w ∈ g.rgba, w.1 < 3
  /-- The buffers are slots of the pool. -/
  pool : after.pixels.isSome = true ∧ ∀ w ∈ g.rgba, w.2 < avcFrameSlots
  distinct : (g.rgba.map Prod.snd).Nodup
  held : ∀ w ∈ g.rgba, g.table.state w.2 ≠ .held
  /-- None of them is queued and can still be taken. -/
  queued : ∀ w ∈ g.rgba, ¬(g.table.state w.2 = .queued ∧
    after.slots.queued = some w.2)
  /-- A reservation was published or cancelled. -/
  settled : ∀ w ∈ g.rgba, after.slots.state w.2 ≠ .writing

/-- A call comes back, and all buffers that it gave away were the player's own. -/
def GivesOwned (s : Player) (c : PlayerCall) : Prop :=
  ∃ r, s.call c = some r ∧ ∀ g, r.given = some g → OwnsGiven g r.player

/-- A decode gets a reservation. -/
def Player.reserves (s : Player) (lock : ℤ) : Prop :=
  s.profileChangePending = false ∧ 0 ≤ s.sema ∧ 0 ≤ lock ∧
    s.slots.found.length = 3

/-- A close gets to its drain. -/
def Player.drains (s : Player) (lock : ℤ) : Prop :=
  0 ≤ s.sema ∧ s.closes lock = true ∧ s.undrained = true

/-- A decode that has a reservation can lock the table again, and a close does
not get to its drain. -/
def Undisturbed (s : Player) : PlayerCall → Prop
  | .decode _ a => s.reserves a.lock → 0 ≤ a.secondLock
  | .close a => ¬s.drains a.lock
  | _ => True

/-- A property of every call of a run. -/
def AtEachCall (P : Player → PlayerCall → Prop) :
    Player → List PlayerCall → Prop
  | _, [] => True
  | s, c :: calls => P s c ∧ ∀ r, s.call c = some r → AtEachCall P r.player calls

/-! ## The table -/

/-- Exactly the slot that is noted as queued is queued. -/
def QueueNoted (t : AvcFrameSlots) : Prop :=
  ∀ i, t.state i = .queued ↔ t.queued = some i

theorem queueNoted_init : QueueNoted .init :=
  slotLedger_init.queued

variable {s : Player} {t u : AvcFrameSlots}

/-- The presenter keeps the table sound, and no slot begins or ends to be
written. -/
structure PresenterKeeps (t u : AvcFrameSlots) : Prop where
  noted : QueueNoted u
  writing : ∀ i, u.state i = .writing ↔ t.state i = .writing

theorem take_keeps (ht : QueueNoted t) :
    PresenterKeeps t (avcFrameSlotsTake t true).2 := by
  rw [avcFrameSlotsTake, if_neg (by simp)]
  cases hq : t.queued with
  | none => exact ⟨ht, fun i => Iff.rfl⟩
  | some slot =>
      have hslot := (ht slot).mpr hq
      constructor
      · intro i
        have hi := ht i
        simp only [mark_state]
        grind
      · intro i
        simp only [mark_state]
        grind

theorem release_keeps (ht : QueueNoted t) (slot : ℤ) :
    PresenterKeeps t (avcFrameSlotsRelease t true slot).2 := by
  rw [avcFrameSlotsRelease]
  split
  · exact ⟨ht, fun i => Iff.rfl⟩
  · rename_i hbad
    have hheld : t.state slot.toNat = .held := by
      by_contra hno
      exact hbad (.inr (.inr (.inr hno)))
    constructor
    · intro i
      have hi := ht i
      simp only [mark_state, mark_queued]
      grind
    · intro i
      simp only [mark_state]
      grind

/-- A call of the presenter changes nothing but the table. -/
theorem present_keeps (s : Player) (c : PresenterCall) :
    ∃ t, s.present c = { s with slots := t } ∧
      (QueueNoted s.slots → PresenterKeeps s.slots t) := by
  have hsame : ∃ t, s = { s with slots := t } ∧
      (QueueNoted s.slots → PresenterKeeps s.slots t) :=
    ⟨s.slots, rfl, fun h => ⟨h, fun i => Iff.rfl⟩⟩
  cases c with
  | take given lock =>
      rw [Player.present, pspAvcPlayerTake]
      split
      · exact hsame
      · exact ⟨_, rfl, take_keeps⟩
  | release frame lock =>
      rw [Player.present, pspAvcPlayerRelease]
      split
      · exact hsame
      · split
        · exact hsame
        · exact ⟨_, rfl, fun h => release_keeps h _⟩

theorem presents_keep (s : Player) (calls : List PresenterCall) :
    ∃ t, calls.foldl Player.present s = { s with slots := t } ∧
      (QueueNoted s.slots → PresenterKeeps s.slots t) := by
  induction calls generalizing s with
  | nil => exact ⟨s.slots, rfl, fun h => ⟨h, fun i => Iff.rfl⟩⟩
  | cons c calls ih =>
      obtain ⟨t, ht, hkeeps⟩ := present_keeps s c
      obtain ⟨u, hu, hkeeps'⟩ := ih (s.present c)
      rw [ht] at hu hkeeps'
      refine ⟨u, by rw [List.foldl_cons, ht]; exact hu, fun hnoted => ?_⟩
      have hfirst := hkeeps hnoted
      have hrest := hkeeps' hfirst.noted
      exact ⟨hrest.noted, fun i => (hrest.writing i).trans (hfirst.writing i)⟩

theorem dropQueued_noted (ht : QueueNoted t) : QueueNoted t.dropQueued := by
  rw [AvcFrameSlots.dropQueued]
  cases hq : t.queued with
  | none => exact ht
  | some slot =>
      intro i
      have hi := ht i
      simp only [mark_state]
      grind

/-- A reservation that still stands is published with up to three pictures. -/
theorem publish_reserved (ht : QueueNoted t) {reserved : List ℕ}
    (hlen : reserved.length = 3) (hnodup : reserved.Nodup)
    (hwriting : ∀ i ∈ reserved, i < avcFrameSlots ∧ t.state i = .writing)
    {count : ℤ} (hcount : 0 ≤ count ∧ count ≤ 3) (o : Outputs) :
    let r := avcFrameSlotsPublish t true (fun i => reserved.getD i 0) count
      (some o)
    r.1 = true ∧ QueueNoted r.2 ∧ ∀ i ∈ reserved, r.2.state i ≠ .writing := by
  obtain ⟨x, y, z, rfl⟩ := List.length_eq_three.mp hlen
  have hall : (List.range 3).all
      (t.reservedAt fun i => (([x, y, z].getD i 0 : ℕ) : ℤ)) = true := by
    simp only [List.nodup_cons, List.mem_cons, List.not_mem_nil, or_false,
      not_or] at hnodup
    have hx := hwriting x (by simp)
    have hy := hwriting y (by simp)
    have hz := hwriting z (by simp)
    simp [List.range_succ, AvcFrameSlots.reservedAt, hx.2, hy.2, hz.2]
    omega
  have hslots : (List.range 3).map (fun i =>
      ((([x, y, z].getD i 0 : ℕ) : ℤ)).toNat) = [x, y, z] := rfl
  have hspec := publish_spec t true (fun i => (([x, y, z].getD i 0 : ℕ) : ℤ)) count
    (some o)
  intro r
  have hok : r.1 = true := by
    simp only [r, avcFrameSlotsPublish, hall]
    rw [if_neg (by simp; omega), if_neg (by simp)]
    split <;> rfl
  rcases hspec with ⟨hno, -⟩ | ⟨-, hmoves⟩
  · exact absurd (hok.symm.trans hno) (by simp)
  · rw [hslots] at hmoves
    refine ⟨hok, queued_of_moves hmoves ht, fun i hi => ?_⟩
    change (avcFrameSlotsPublish t true _ count (some o)).2.state i ≠ .writing
    generalize (avcFrameSlotsPublish t true _ count (some o)).2 = u at hmoves
    generalize (if count = 0 then none else
      (some o).map fun o => o.ids (count - 1).toNat) = last at hmoves
    cases hmoves with
    | cancelled _ hstate _ _ => simp [hstate i, hi]
    | queued slot hslot _ hstate _ _ =>
        rw [hstate i]
        split
        · simp
        · simp [hi]

/-- A reservation is of three slots that were free. -/
theorem reserve_spec (ht : QueueNoted t) {reserved : List ℕ}
    (h : avcFrameSlotsReserve t true = (some reserved, u)) :
    t.found.length = 3 ∧ reserved.length = 3 ∧ reserved.Nodup ∧
      (∀ i ∈ reserved, i < avcFrameSlots ∧ u.state i = .writing) ∧
      QueueNoted u := by
  rw [avcFrameSlotsReserve, if_neg (by simp)] at h
  split at h
  · cases h
  · rename_i hlen
    have hlen := not_not.mp hlen
    obtain ⟨rfl, rfl⟩ : t.found = reserved ∧ t.markAll t.found .writing = u := by
      simpa using h
    obtain ⟨hnodup, hfree⟩ := found_spec t
    obtain ⟨hqueued, -, hstate⟩ := markAll_spec (s := t) t.found .writing
    refine ⟨hlen, hlen, hnodup, fun i hi => ⟨(hfree i hi).1, ?_⟩, fun i => ?_⟩
    · rw [hstate i, if_pos hi]
    · have hi := ht i
      have hf := hfree i
      rw [hstate i, hqueued]
      grind

/-! ## The invariant -/

/-- The player between two calls. -/
structure Playing (s : Player) : Prop where
  hardware : Sane s.hardware
  table : 0 ≤ s.sema → QueueNoted s.slots
  pool : 0 ≤ s.sema → s.pixels.isSome = true

theorem playing_start : Playing .start where
  hardware := sane_start
  table := fun h => absurd h (by decide)
  pool := fun h => absurd h (by decide)

/-- A drain leaves the session as it is, or makes it unusable. -/
theorem Sane.drained {h : Hardware} (hs : Sane h) {session : PspAvcSession}
    (hsession : session = h.firmware.session ∨
      session = { h.firmware.session with ready := false }) :
    Sane { h with firmware.session := session } := by
  have howns : session.owns = h.firmware.session.owns := by
    rcases hsession with heq | heq <;> rw [heq]
  refine ⟨⟨hs.law, hs.sound.of_same howns rfl, hs.input, hs.firmwareSps,
    hs.empty, hs.sources⟩, fun havcc hfailed => ?_⟩
  obtain ⟨hmain, hopened⟩ := hs.decoding havcc hfailed
  refine ⟨fun hready => ?_, hopened⟩
  rcases hsession with heq | heq
  · exact heq ▸ hmain (heq ▸ hready)
  · rw [heq] at hready
    exact Bool.noConfusion hready

/-- The size that is expected may change. -/
theorem Sane.expect {h : Hardware} (hs : Sane h) (width height : ℕ) :
    Sane { h with
      backend.expectedWidth := width
      backend.expectedHeight := height } :=
  ⟨⟨hs.law, hs.sound, hs.input, hs.firmwareSps, hs.empty,
    ⟨hs.sources.sps, hs.sources.pps⟩⟩, fun havcc hfailed =>
    let hd := hs.decoding havcc hfailed
    ⟨hd.session, hd.opened⟩⟩

/-! ## Opening and closing -/

theorem Playing.of_hardware (hp : Playing s) {h : Hardware} (hh : Sane h) :
    Playing { s with hardware := h } :=
  ⟨hh, hp.table, hp.pool⟩

theorem Playing.reopen (hp : Playing s) (a : CloseAnswers) (free : ℤ) :
    Playing (closeBackendForReopen s a free).2 :=
  ⟨backendClose_sane hp.hardware a free, hp.table, hp.pool⟩

theorem playing_of_noSema (hh : Sane s.hardware) (hsema : s.sema < 0) :
    Playing s :=
  ⟨hh, fun h => absurd h (by omega), fun h => absurd h (by omega)⟩

theorem allocatePool_playing (hh : Sane s.hardware) (hsema : s.sema < 0)
    (a : PlayerOpenAnswers) : Playing (allocatePool s a).2 := by
  rw [allocatePool]
  split
  · exact playing_of_noSema (backendClose_sane hh _ _) hsema
  · dsimp only
    split
    · rename_i hcreate
      split
      · exact playing_of_noSema hh hcreate
      · exact playing_of_noSema (backendClose_sane hh _ _) hcreate
    · exact ⟨hh, fun _ => queueNoted_init, fun _ => rfl⟩

theorem openFresh_playing (hp : Playing s) {reuseBuffers : Bool}
    (hsema : reuseBuffers = false → s.sema < 0) (width height : ℕ)
    (helper : Bool) (mainProfile : ℤ) (a : PlayerOpenAnswers) :
    Playing (openFresh s reuseBuffers width height helper mainProfile a).2 := by
  have hopened := backendOpen_sane hp.hardware width height helper mainProfile
    a.backend
  rw [openFresh]
  dsimp only
  split
  · exact (hp.of_hardware hopened).reopen a.cleanup a.cleanupFree
  · cases reuseBuffers with
    | true => exact ⟨hopened, fun _ => queueNoted_init, hp.pool⟩
    | false =>
        rw [if_neg Bool.false_ne_true]
        apply allocatePool_playing
        · exact hopened
        · exact hsema rfl

theorem openProfile_playing (hp : Playing s) (width height : ℕ) (helper : Bool)
    (mainProfile : ℤ) (a : PlayerOpenAnswers) :
    Playing (pspAvcPlayerOpenProfile s width height helper mainProfile a).2 := by
  rw [pspAvcPlayerOpenProfile]
  split
  · exact hp
  · split
    · exact hp
    · split
      · split
        · exact hp.of_hardware (hp.hardware.expect width height)
        · split
          · exact hp
          · dsimp only
            split
            · exact hp.reopen a.stale a.staleFree
            · exact openFresh_playing (hp.reopen a.stale a.staleFree) (by simp)
                width height helper mainProfile a
      · rename_i hsema
        split
        · dsimp only
          split
          · exact hp.reopen a.stale a.staleFree
          · exact openFresh_playing (hp.reopen a.stale a.staleFree)
              (fun _ => Int.not_le.mp hsema) width height helper mainProfile a
        · exact openFresh_playing hp (fun _ => Int.not_le.mp hsema) width height
            helper mainProfile a

theorem drainPlayer_playing (hp : Playing s) (a : DrainAnswers) :
    Playing (drainPlayer s a).player :=
  hp.of_hardware (hp.hardware.drained (drain_session a))

theorem closeDrained_playing (hp : Playing s) (a : PlayerCloseAnswers) :
    Playing (closeDrained s a).2 := by
  have hclosed := backendClose_sane hp.hardware a.backend a.freeArena
  rw [closeDrained]
  dsimp only
  split
  · exact hp
  · split
    · exact hp.of_hardware hclosed
    · split
      · exact hp.of_hardware hclosed
      · exact ⟨hclosed, fun _ => queueNoted_init, hp.pool⟩

theorem close_playing (hp : Playing s) (a : PlayerCloseAnswers) :
    Playing (pspAvcPlayerClose s a).player := by
  rw [pspAvcPlayerClose]
  split
  · rename_i hsema
    have hclosed := hp.reopen a.backend a.freeArena
    rw [PlayerReturn.plain, closeWithoutSema]
    dsimp only
    split
    · exact hclosed
    · split
      · exact hclosed
      · exact playing_of_noSema hclosed.hardware hsema
  · split
    · exact hp
    · split
      · have hdrained := drainPlayer_playing hp a.drain
        dsimp only
        split
        · exact hdrained
        · exact closeDrained_playing hdrained a
      · exact closeDrained_playing hp a

theorem reset_playing (hp : Playing s) (lock : ℤ) (c : CloseAnswers)
    (a : OpenAnswers) : Playing (pspAvcPlayerReset s lock c a).2 := by
  have hreset := reset_sane hp.hardware c a
  rw [pspAvcPlayerReset]
  split
  · exact hp
  · dsimp only
    split
    · exact hp.of_hardware hreset
    · exact ⟨hreset, fun h => dropQueued_noted (hp.table h), hp.pool⟩

theorem applyProfileChange_playing (hp : Playing s) (lock : ℤ) (c : CloseAnswers)
    (a : OpenAnswers) :
    Playing (pspAvcPlayerApplyProfileChange s lock c a).2 := by
  rw [pspAvcPlayerApplyProfileChange]
  generalize (if s.profileChangeTarget = true then (1 : ℤ) else 0) = target
  have hswitched := switchProfile_sane hp.hardware target c a
  split
  · exact hp
  · dsimp only
    split
    · exact hp.of_hardware hswitched
    · exact ⟨hswitched, hp.table, hp.pool⟩

theorem present_playing (hp : Playing s) (c : PresenterCall) :
    Playing (s.present c) := by
  obtain ⟨t, ht, hkeeps⟩ := present_keeps s c
  rw [ht]
  exact ⟨hp.hardware, fun h => (hkeeps (hp.table h)).noted, hp.pool⟩

/-! ## Decoding -/

/-- The pictures of a unit are at most three. -/
theorem submitUnit_count {h : Hardware} (au : DecoderUnit) {p : PspAvcPictures}
    (a : SubmitAnswers) (hp : p.count = 0) :
    0 ≤ (submitUnit h au p a).2.count ∧ (submitUnit h au p a).2.count ≤ 3 := by
  have hzero : 0 ≤ p.count ∧ p.count ≤ 3 := by omega
  obtain ⟨-, hlow, hhigh, -⟩ := submit_spec (s := h.firmware.session) (p := p) au a
  rw [submitUnit]
  dsimp only
  split_ifs
  · exact hzero
  · exact hzero
  · exact hzero
  · exact hzero
  · exact ⟨hlow, hhigh⟩
  · exact ⟨hlow, hhigh⟩

theorem decode_count {h : Hardware} {src : Option (List UInt8)}
    {p : PspAvcPictures} {a : SubmitAnswers} {r : (ℤ × Hardware) × PspAvcPictures}
    (hr : pspAvcBackendDecode h src p a = some r) :
    0 ≤ r.2.count ∧ r.2.count ≤ 3 := by
  have hzero : (0 : ℤ) ≤ 0 ∧ (0 : ℤ) ≤ 3 := by decide
  rw [pspAvcBackendDecode] at hr
  dsimp only at hr
  split at hr
  · cases hr
    exact hzero
  · obtain ⟨prepared, -, hr⟩ := Option.bind_eq_some_iff.mp hr
    split at hr
    · split at hr
      · cases hr
        exact hzero
      · cases hr
        exact hzero
    · rw [decodeReady] at hr
      obtain ⟨⟨taken, b⟩, -, hr⟩ := Option.bind_eq_some_iff.mp hr
      dsimp only at hr
      split at hr
      · cases hr
        exact hzero
      · split at hr
        · cases hr
          exact hzero
        · cases hr
          exact submitUnit_count _ a rfl

theorem noteResult_frame (s : Player) (r : ℤ) :
    ∃ target pending, s.noteResult r = { s with
      profileChangeTarget := target
      profileChangePending := pending } := by
  rw [Player.noteResult]
  split
  · exact ⟨_, _, rfl⟩
  · exact ⟨_, _, rfl⟩

/-- The second critical section ends the reservation, unless it is not
reached. -/
theorem publishPictures_spec (ht : QueueNoted s.slots) {reserved : List ℕ}
    (hlen : reserved.length = 3) (hnodup : reserved.Nodup)
    (hwriting : ∀ i ∈ reserved, i < avcFrameSlots ∧ s.slots.state i = .writing)
    (r : ℤ) {count : ℤ} (hcount : 0 ≤ count ∧ count ≤ 3)
    (a : PlayerDecodeAnswers) :
    ∃ t sequence, (publishPictures s reserved r count a).2 = { s with
        slots := t
        outputSequence := sequence
        profileDecodeActive := false } ∧ QueueNoted t ∧
      ∀ i ∈ reserved, t.state i ≠ .writing ↔ 0 ≤ a.secondLock := by
  rw [publishPictures]
  dsimp only
  split
  · rename_i hlock
    exact ⟨s.slots, _, rfl, ht, fun i hi =>
      iff_of_false (not_not.mpr (hwriting i hi).2) (by omega)⟩
  · rename_i hlock
    obtain ⟨hok, hnoted, hsettled⟩ := publish_reserved ht hlen hnodup hwriting
      hcount ⟨fun i => s.outputSequence + UInt32.ofNat (i + 1), a.decodedAtUs⟩
    rw [hok]
    exact ⟨_, _, rfl, hnoted, fun i hi =>
      iff_of_true (hsettled i hi) (by omega)⟩

/-- What a decode that has a reservation leaves. -/
theorem decodeInto_spec (hp : Playing s) (hsema : 0 ≤ s.sema)
    {reserved : List ℕ} (hlen : reserved.length = 3) (hnodup : reserved.Nodup)
    (hwriting : ∀ i ∈ reserved, i < avcFrameSlots ∧ s.slots.state i = .writing)
    (src : Option (List UInt8)) (a : PlayerDecodeAnswers) :
    ∃ r, decodeInto s reserved src a = some r ∧ Playing r.player ∧
      ∃ g, r.given = some g ∧ (OwnsGiven g r.player ↔ 0 ≤ a.secondLock) := by
  obtain ⟨r, hr, hsane⟩ := decode_sane hp.hardware src
    ⟨fun i => s.slotAddress (reserved.getD i 0), 0⟩ a.submit
  have hcount : 0 ≤ (if r.1.1 ≠ 0 then 0 else r.2.count) ∧
      (if r.1.1 ≠ 0 then 0 else r.2.count) ≤ 3 := by
    have hbackend := decode_count hr
    split
    · exact ⟨Int.le_refl 0, by decide⟩
    · exact hbackend
  obtain ⟨target, pending, hnote⟩ := noteResult_frame
    { s with hardware := r.1.2, profileDecodeActive := true } r.1.1
  obtain ⟨t, ht, hkeeps⟩ := presents_keep { s with
    hardware := r.1.2
    profileDecodeActive := true
    profileChangeTarget := target
    profileChangePending := pending } a.presenter
  have hkept := hkeeps (hp.table hsema)
  obtain ⟨u, sequence, hu, hnoted, hsettled⟩ := publishPictures_spec
    (s := { s with
      hardware := r.1.2
      slots := t
      profileDecodeActive := true
      profileChangeTarget := target
      profileChangePending := pending })
    hkept.noted hlen hnodup (fun i hi => ⟨(hwriting i hi).1,
      (hkept.writing i).mpr (hwriting i hi).2⟩) r.1.1 hcount a
  rw [decodeInto]
  simp only [hr, Option.bind_eq_bind, Option.bind_some, hnote, ht, hu]
  refine ⟨_, rfl, ⟨hsane, fun _ => hnoted, hp.pool⟩, _, rfl, ?_⟩
  obtain ⟨x, y, z, rfl⟩ := List.length_eq_three.mp hlen
  have hrgba : ∀ w ∈ (List.range 3).map fun i => (i, [x, y, z].getD i 0),
      w.1 < 3 ∧ w.2 ∈ [x, y, z] := by
    intro w hw
    simp [List.range_succ] at hw
    rcases hw with rfl | rfl | rfl <;> simp
  constructor
  · intro howns
    exact (hsettled x (by simp)).mp (howns.settled (0, x) (by simp [List.range_succ]))
  · intro hlock
    refine ⟨fun w hw => (hrgba w hw).1, ⟨hp.pool hsema, fun w hw =>
      (hwriting _ (hrgba w hw).2).1⟩, hnodup, fun w hw => ?_, fun w hw => ?_,
      fun w hw => (hsettled _ (hrgba w hw).2).mpr hlock⟩
    · simp [(hwriting _ (hrgba w hw).2).2]
    · simp [(hwriting _ (hrgba w hw).2).2]

theorem decode_spec (hp : Playing s) (src : Option (List UInt8))
    (a : PlayerDecodeAnswers) :
    ∃ r, pspAvcPlayerDecode s src a = some r ∧ Playing r.player ∧
      ((∀ g, r.given = some g → OwnsGiven g r.player) ↔
        Undisturbed s (.decode src a)) := by
  have hquiet : ∀ result, ¬s.reserves a.lock →
      ∃ r, some (⟨result, s, none⟩ : PlayerReturn) = some r ∧
        Playing r.player ∧ ((∀ g, r.given = some g → OwnsGiven g r.player) ↔
          Undisturbed s (.decode src a)) := fun result hno =>
    ⟨_, rfl, hp, iff_of_true (fun g hg => by cases hg) fun h => absurd h hno⟩
  rw [pspAvcPlayerDecode]
  split
  · rename_i hpending
    refine hquiet _ fun h => ?_
    have hidle := h.1
    simp [hpending] at hidle
  · rename_i hpending
    split
    · rename_i hrefused
      refine hquiet _ fun h => ?_
      obtain ⟨-, hsema, hlock, -⟩ := h
      omega
    · rename_i hopen
      split
      · rename_i u hfull
        refine hquiet _ fun h => ?_
        rw [avcFrameSlotsReserve, if_neg (by simp), if_neg (not_not.mpr h.2.2.2)]
          at hfull
        cases hfull
      · rename_i reserved u hreserved
        have hsema : 0 ≤ s.sema := by omega
        obtain ⟨hfound, hlen, hnodup, hwriting, hnoted⟩ :=
          reserve_spec (hp.table hsema) hreserved
        obtain ⟨r, hr, hplaying, g, hg, hiff⟩ := decodeInto_spec
          (s := { s with slots := u }) ⟨hp.hardware, fun _ => hnoted, hp.pool⟩
          hsema hlen hnodup hwriting src a
        have hreserves : s.reserves a.lock :=
          ⟨by simpa using hpending, hsema, by omega, hfound⟩
        refine ⟨r, hr, hplaying, ?_⟩
        rw [Undisturbed, hg]
        constructor
        · exact fun howns _ => hiff.mp (howns g rfl)
        · rintro hlock g' ⟨⟩
          exact hiff.mpr (hlock hreserves)

/-! ## Runs -/

/-- The drain writes outside of `PspAvcPictures.rgba`. -/
theorem not_owns_drained (s : Player) (a : DrainAnswers) (after : Player) :
    ∃ g, (drainPlayer s a).given = some g ∧ ¬OwnsGiven g after := by
  refine ⟨_, rfl, fun howns => ?_⟩
  have hthree := howns.index (3, 3) (by simp [avcFrameSlots])
  exact absurd hthree (by decide)

theorem close_spec_given (s : Player) (a : PlayerCloseAnswers) :
    (∀ g, (pspAvcPlayerClose s a).given = some g →
      OwnsGiven g (pspAvcPlayerClose s a).player) ↔ Undisturbed s (.close a) := by
  have hquiet : ∀ r : ℤ × Player, ¬s.drains a.lock →
      ((∀ g, (PlayerReturn.plain r).given = some g →
        OwnsGiven g (PlayerReturn.plain r).player) ↔
          Undisturbed s (.close a)) := fun r hno =>
    iff_of_true (fun g hg => by cases hg) hno
  rw [pspAvcPlayerClose]
  split
  · rename_i hsema
    refine hquiet _ fun h => ?_
    have hopen := h.1
    omega
  · rename_i hsema
    split
    · rename_i hclosed
      exact hquiet _ fun h => by simp [h.2.1] at hclosed
    · rename_i hcloses
      split
      · rename_i hundrained
        have hdrains : s.drains a.lock :=
          ⟨by omega, by simpa using hcloses, hundrained⟩
        refine iff_of_false (fun howns => ?_) (not_not.mpr hdrains)
        dsimp only at howns
        split at howns
        · obtain ⟨g, hg, hnot⟩ := not_owns_drained s a.drain
            (drainPlayer s a.drain).player
          exact hnot (howns g hg)
        · obtain ⟨g, hg, hnot⟩ := not_owns_drained s a.drain
            (closeDrained (drainPlayer s a.drain).player a).2
          exact hnot (howns g hg)
      · rename_i hdrained
        exact hquiet _ fun h => hdrained h.2.2

/-- One call. -/
theorem call_playing (hp : Playing s) (c : PlayerCall) :
    ∃ r, s.call c = some r ∧ Playing r.player ∧
      ((∀ g, r.given = some g → OwnsGiven g r.player) ↔ Undisturbed s c) := by
  have hplain : ∀ {r : ℤ × Player}, Playing r.2 → ∀ {p : Prop}, p →
      ∃ r', some (PlayerReturn.plain r) = some r' ∧ Playing r'.player ∧
        ((∀ g, r'.given = some g → OwnsGiven g r'.player) ↔ p) :=
    fun h _ hp => ⟨_, rfl, h, iff_of_true (fun g hg => by cases hg) hp⟩
  cases c with
  | openProfile width height helper mainProfile a =>
      exact hplain (openProfile_playing hp width height helper mainProfile a)
        trivial
  | decode src a => exact decode_spec hp src a
  | present c => exact hplain (r := (0, _)) (present_playing hp c) trivial
  | applyProfileChange lock c a =>
      exact hplain (applyProfileChange_playing hp lock c a) trivial
  | reset lock c a => exact hplain (reset_playing hp lock c a) trivial
  | close a => exact ⟨_, rfl, close_playing hp a, close_spec_given s a⟩

theorem givesOwned_iff (hp : Playing s) (c : PlayerCall) :
    GivesOwned s c ↔ Undisturbed s c := by
  obtain ⟨r, hr, -, hiff⟩ := call_playing hp c
  rw [← hiff, GivesOwned, hr]
  constructor
  · rintro ⟨r', ⟨⟩, h⟩
    exact h
  · exact fun h => ⟨r, rfl, h⟩

/-- In every run, each call gives away only buffers that are the player's own and
ends its reservation, exactly if no call of the run is disturbed. -/
theorem givesOwned_iff_undisturbed (calls : List PlayerCall) :
    AtEachCall GivesOwned .start calls ↔ AtEachCall Undisturbed .start calls := by
  have hrun : ∀ s, Playing s →
      (AtEachCall GivesOwned s calls ↔ AtEachCall Undisturbed s calls) := by
    induction calls with
    | nil => exact fun s _ => Iff.rfl
    | cons c calls ih =>
        intro s hp
        obtain ⟨r, hr, hplaying, -⟩ := call_playing hp c
        refine and_congr (givesOwned_iff hp c) ?_
        simp only [hr, Option.some.injEq, forall_eq']
        exact ih r.player hplaying
  exact hrun .start playing_start

/-- A firmware without pictures. -/
def noPictures : ConvertAnswers where
  detail := 0
  given := false
  width := fun _ => 0
  height := fun _ => 0
  csc := fun _ => 0

/-- A player that opens, and a decode without data whose second wait on the
semaphore fails. -/
def unlockedDecode : List PlayerCall :=
  [.openProfile 480 272 false 0 {
      sameHelper := true
      lock := 0
      stale := smoothClose
      staleFree := 0
      backend := ⟨smoothOpen, ⟨true, 0, true⟩, fun _ => 0, smoothClose⟩
      pool := ⟨true, 0, true⟩
      poolAddress := 0x08900000
      createSema := 1
      freePool := 0
      cleanup := smoothClose
      cleanupFree := 0 },
    .decode none {
      lock := 0
      submit := ⟨0, 0, 0, noPictures⟩
      presenter := []
      secondLock := -1
      decodedAtUs := fun _ => 0 }]

/-- Its reservation is never ended. -/
theorem unlockedDecode_leaks : ¬AtEachCall GivesOwned .start unlockedDecode := by
  rintro ⟨-, hlater⟩
  obtain ⟨⟨r, hr, howns⟩, -⟩ := hlater _ rfl
  cases hr
  exact (howns _ rfl).settled (0, 0) (by decide) rfl

end MoonlightPsp.Avc
