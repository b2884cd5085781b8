import MoonlightPsp.Avc.PlayerBuffers

/-!
# Who owns the picture on the screen

`display_gpu.c` shows pictures out of the pool of the player.  It keeps the slot of the
last one, so that it can be drawn again, and gives it back when the next one came.
While the HUD is visible it keeps a copy of its own instead.
-/

namespace MoonlightPsp.Avc

/-! ## The display -/

/-- A pointer to pixels that is not null. -/
inductive Texture where
  | copy
  | slot (address : UInt32)
deriving DecidableEq

/-- The statics of `display_gpu.c`. -/
structure Display where
  lastFrameData : Option Texture
  lastFrameCopyValid : Bool
  avcOwnedFrame : Option UInt32

def Display.start : Display := ⟨none, false, none⟩

/-- What the display functions read of the HUD, of the configuration and of the stream
resolution. -/
structure FrameView where
  hudOverlayVisible : Bool
  cabacTestMode : Bool
  audioEnabled : Bool
  fps : ℤ
  width : ℤ
  height : ℤ
  srcW : ℕ
  srcH : ℕ
  texStride : ℕ

/-- `BUF_WIDTH` and `SCR_HEIGHT`. -/
def bufWidth : ℕ := 512

def scrHeight : ℕ := 272

/-- `display_cabac_perf_direct_hud_texture`. -/
def displayCabacPerfDirectHudTexture (v : FrameView) : Bool :=
  v.cabacTestMode && !v.audioEnabled &&
    decide (30 ≤ v.fps ∧ v.width ≤ 320 ∧ v.height ≤ 180)

/-- The picture fits in `s_last_frame_copy`. -/
def FrameView.copies (v : FrameView) : Bool :=
  v.hudOverlayVisible &&
    decide (v.srcW ≤ bufWidth ∧ v.srcH ≤ scrHeight ∧ v.srcW ≤ v.texStride ∧
      v.texStride ≤ bufWidth ∧ v.texStride * 4 * v.srcH ≤ bufWidth * scrHeight * 4)

/-- `display_prepare_frame_texture`. -/
def displayPrepareFrameTexture (d : Display) (frame : Texture) (v : FrameView) :
    Display :=
  if frame = .copy ∧ d.lastFrameCopyValid then { d with lastFrameData := some .copy }
  else if v.hudOverlayVisible ∧ displayCabacPerfDirectHudTexture v then
    { d with lastFrameData := some frame, lastFrameCopyValid := false }
  else if v.copies then { d with lastFrameData := some .copy, lastFrameCopyValid := true }
  else { d with lastFrameData := some frame, lastFrameCopyValid := false }

/-! ## The decode in two parts -/

/-- A decode between its two critical sections. -/
structure InFlight where
  reserved : List ℕ
  result : ℤ
  count : ℤ

/-- `psp_avc_player_decode` up to the second wait on the semaphore; it may return
before. -/
def beginDecode (s : Player) (src : Option (List UInt8)) (lock : ℤ) (a : SubmitAnswers) :
    Option (Except ℤ InFlight × Player) :=
  if s.profileChangePending then some (.error profileChangeRequired, s)
  else if s.sema < 0 ∨ lock < 0 then some (.error (-1), s)
  else
    match avcFrameSlotsReserve s.slots true with
    | (none, _) => some (.error (-3), s)
    | (some reserved, slots) => do
        let s := { s with slots }
        let r ← pspAvcBackendDecode s.hardware src
          ⟨fun i => s.slotAddress (reserved.getD i 0), 0⟩ a
        let s := { s with hardware := r.1.2, profileDecodeActive := true }
        some (.ok ⟨reserved, r.1.1, if r.1.1 ≠ 0 then 0 else r.2.count⟩,
          s.noteResult r.1.1)

/-- The two parts, with what the presenter does between them, are the whole. -/
theorem decode_eq_parts (s : Player) (src : Option (List UInt8)) (a : PlayerDecodeAnswers) :
    (pspAvcPlayerDecode s src a).map (fun r => (r.result, r.player)) =
      (beginDecode s src a.lock a.submit).map fun r =>
        match r.1 with
        | .error result => (result, r.2)
        | .ok w => publishPictures (a.presenter.foldl Player.present r.2) w.reserved
            w.result w.count a := by
  rw [pspAvcPlayerDecode, beginDecode]
  split
  · rfl
  · split
    · rfl
    · cases avcFrameSlotsReserve s.slots true with
      | mk reserved slots =>
          cases reserved with
          | none => rfl
          | some reserved =>
              simp only [decodeInto]
              cases pspAvcBackendDecode s.hardware src
                ⟨fun i => Player.slotAddress { s with slots } (reserved.getD i 0), 0⟩
                a.submit with
              | none => rfl
              | some r => rfl

/-! ## The player and the display -/

/-- `psp_avc_player_destroy`. -/
def pspAvcPlayerDestroy (s : Player) (a : PlayerCloseAnswers) (deleteSema freePool : ℤ) :
    ℤ × Player :=
  let closed := pspAvcPlayerClose s a
  let s := closed.player
  if closed.result ≠ 0 then (closed.result, s)
  else if 0 ≤ s.sema ∧ deleteSema ≠ 0 then (deleteSema, s)
  else
    let s := { s with sema := if 0 ≤ s.sema then -1 else s.sema }
    if s.pixels.isSome ∧ pspAvcReleaseAligned s.pixelsUid freePool < 0 then
      (pspAvcReleaseAligned s.pixelsUid freePool, s)
    else (0, { s with pixels := none, pixelsUid := -1, slots := .init })

/-- Where the main thread is: outside of the display functions, with a picture that it
took, in `display_frame` of it with the slot of the picture before, in
`display_frame_repeat`, behind the draw with the slots that are still to be given back, or
in `display_avc_release_frame` before and behind its release. -/
inductive Presenter where
  | idle
  | taken (frame : UInt32)
  | drawing (frame : UInt32) (previous : Option UInt32)
  | repeating (frame : Texture)
  | givingBack (frames : List UInt32)
  | clearing (frame : UInt32)
  | cleared

/-- The player, the display, the place of the main thread and the decode that is under
way.  `slotReads` lists the slots whose pixels were read, each with whether the presenter
held it then; `leaked` are the slots that could not be given back. -/
structure Screen where
  player : Player
  display : Display
  presenter : Presenter
  inFlight : Option InFlight
  slotReads : List (UInt32 × Bool)
  leaked : List ℕ

def Screen.start : Screen := ⟨.start, .start, .idle, none, [], []⟩

/-- The slot at an address. -/
def Player.slotAt (s : Player) (frame : UInt32) : Option ℕ :=
  (List.range avcFrameSlots).find? fun i => frame = s.slotAddress i

/-- The presenter holds the slot at an address. -/
def Player.holdsAt (s : Player) (frame : UInt32) : Bool :=
  (s.slotAt frame).any fun i => s.slots.state i = .held

/-- `psp_avc_player_release`; the slot of a failed call stays held. -/
def Screen.release (s : Screen) (frame : UInt32) (lock : ℤ) : Screen :=
  { s with
    player := (pspAvcPlayerRelease s.player frame lock).2
    leaked := s.leaked ++ if lock < 0 then (s.player.slotAt frame).toList else [] }

/-- The pixels behind a pointer are read. -/
def Screen.read (s : Screen) (frame : Texture) : Screen :=
  { s with
    slotReads := s.slotReads ++ match frame with
      | .copy => []
      | .slot address => [(address, s.player.holdsAt address)] }

/-- `display_frame` of a pointer that is not null begins: the pixels are copied, or will be
drawn from. -/
def Screen.displayFrame (s : Screen) (frame : Texture) (v : FrameView) : Screen :=
  { s.read frame with display := displayPrepareFrameTexture s.display frame v }

/-- The frame loop of `main.c` takes a picture. -/
def Screen.take (s : Screen) (lock : ℤ) : Screen :=
  match s.presenter with
  | .idle =>
      let r := pspAvcPlayerTake s.player true lock
      let s := { s with player := r.2 }
      match r.1 with
      | none => s
      | some (frame, _) => if frame = 0 then s else { s with presenter := .taken frame }
  | _ => s

/-- `display_avc_frame` of the picture, up to the draw. -/
def Screen.startDraw (s : Screen) (v : FrameView) : Screen :=
  match s.presenter with
  | .taken frame => { s.displayFrame (.slot frame) v with
      presenter := .drawing frame s.display.avcOwnedFrame }
  | _ => s

/-- `display_frame_repeat`, up to the draw. -/
def Screen.startRepeat (s : Screen) (v : FrameView) : Screen :=
  match s.presenter, s.display.lastFrameData with
  | .idle, some frame => { s.displayFrame frame v with presenter := .repeating frame }
  | _, _ => s

/-- Pixels are read at some time of a draw. -/
def Screen.draw (s : Screen) : Screen :=
  match s.presenter with
  | .drawing frame _ => s.read (.slot frame)
  | .repeating frame => s.read frame
  | _ => s

/-- `sceGuSync` returned.  The slot of the picture before is given back, unless it is shown
again; so is that of this picture, if its pixels were copied. -/
def Screen.endDraw (s : Screen) : Screen :=
  match s.presenter with
  | .drawing frame previous =>
      if s.display.lastFrameData = some (.slot frame) then
        { s with
          display.avcOwnedFrame := some frame
          presenter := .givingBack (previous.toList.filter (· ≠ frame)) }
      else
        { s with
          display.avcOwnedFrame := none
          presenter := .givingBack (previous.toList.filter (· ≠ frame) ++ [frame]) }
  | .repeating _ => { s with presenter := .idle }
  | _ => s

/-- `display_avc_release_frame`, up to its release. -/
def Screen.releaseFrame (s : Screen) : Screen :=
  match s.presenter with
  | .idle => { s with
      display.lastFrameData := none
      display.lastFrameCopyValid := false
      presenter := s.display.avcOwnedFrame.elim .idle .clearing }
  | _ => s

/-- The main thread gives the next slot back, or is done with it. -/
def Screen.giveBack (s : Screen) (lock : ℤ) : Screen :=
  match s.presenter with
  | .givingBack (frame :: frames) =>
      { s.release frame lock with presenter := .givingBack frames }
  | .givingBack [] => { s with presenter := .idle }
  | .clearing frame => { s.release frame lock with presenter := .cleared }
  | .cleared => { s with display.avcOwnedFrame := none, presenter := .idle }
  | _ => s

/-- The pool lies inside of the address space, behind the null pointer. -/
def PoolFits (address : UInt32) : Prop :=
  0 < address.toNat ∧ address.toNat + avcFrameSlots * slotBytes ≤ 2 ^ 32

/-- A step of one of the threads. -/
inductive ScreenStep where
  | openProfile (width height : ℕ) (helper : Bool) (mainProfile : ℤ)
      (a : PlayerOpenAnswers) (fits : PoolFits a.poolAddress)
  | beginDecode (src : Option (List UInt8)) (lock : ℤ) (a : SubmitAnswers)
  | finishDecode (a : PlayerDecodeAnswers)
  | reset (lock : ℤ) (c : CloseAnswers) (a : OpenAnswers)
  | applyProfileChange (lock : ℤ) (c : CloseAnswers) (a : OpenAnswers)
  | take (lock : ℤ)
  | startDraw (v : FrameView)
  | startRepeat (v : FrameView)
  | draw
  | endDraw
  | releaseFrame
  | giveBack (lock : ℤ)
  | close (a : PlayerCloseAnswers)
  | destroy (a : PlayerCloseAnswers) (deleteSema freePool : ℤ)

/-- One step; the worker decodes one unit at a time.  A step that the main thread cannot
take where it is leaves the state. -/
def Screen.step (s : Screen) : ScreenStep → Option Screen
  | .openProfile width height helper mainProfile a _ =>
      some { s with
        player := (pspAvcPlayerOpenProfile s.player width height helper mainProfile a).2 }
  | .beginDecode src lock a =>
      if s.inFlight.isSome then some s
      else do
        let r ← Avc.beginDecode s.player src lock a
        some { s with player := r.2, inFlight := r.1.toOption }
  | .finishDecode a =>
      match s.inFlight with
      | none => some s
      | some w => some { s with
          player := (publishPictures s.player w.reserved w.result w.count a).2
          inFlight := none }
  | .reset lock c a =>
      if s.inFlight.isSome then some s
      else some { s with player := (pspAvcPlayerReset s.player lock c a).2 }
  | .applyProfileChange lock c a =>
      some { s with player := (pspAvcPlayerApplyProfileChange s.player lock c a).2 }
  | .take lock => some (s.take lock)
  | .startDraw v => some (s.startDraw v)
  | .startRepeat v => some (s.startRepeat v)
  | .draw => some s.draw
  | .endDraw => some s.endDraw
  | .releaseFrame => some s.releaseFrame
  | .giveBack lock => some (s.giveBack lock)
  | .close a => some { s with player := (pspAvcPlayerClose s.player a).player }
  | .destroy a deleteSema freePool =>
      some { s with player := (pspAvcPlayerDestroy s.player a deleteSema freePool).2 }

def Screen.run (s : Screen) : List ScreenStep → Option Screen
  | [] => some s
  | i :: rest => do
      let t ← s.step i
      t.run rest

/-! ## Addresses of slots -/

variable {p q : Player} {base : UInt32} {i j : ℕ}

theorem slotAddress_toNat (hpixels : p.pixels = some base) (hfits : PoolFits base)
    (hi : i < avcFrameSlots) : (p.slotAddress i).toNat = base.toNat + i * slotBytes := by
  have hend : base.toNat + i * slotBytes < 2 ^ 32 := by
    have hpool := hfits.2
    simp only [avcFrameSlots, slotBytes] at hi hpool ⊢
    omega
  have hoffset : (UInt32.ofNat (i * slotBytes)).toNat = i * slotBytes := by
    rw [UInt32.toNat_ofNat']
    exact Nat.mod_eq_of_lt (by omega)
  rw [Player.slotAddress, hpixels, Option.getD_some, UInt32.toNat_add, hoffset]
  exact Nat.mod_eq_of_lt hend

theorem slotAddress_ne_zero (hpixels : p.pixels = some base) (hfits : PoolFits base)
    (hi : i < avcFrameSlots) : p.slotAddress i ≠ 0 := by
  intro hzero
  have hnat := slotAddress_toNat hpixels hfits hi
  have hpos := hfits.1
  rw [hzero, UInt32.toNat_zero] at hnat
  omega

theorem slotAddress_injective (hpixels : p.pixels = some base) (hfits : PoolFits base)
    (hi : i < avcFrameSlots) (hj : j < avcFrameSlots)
    (h : p.slotAddress i = p.slotAddress j) : i = j := by
  have hnat := congrArg UInt32.toNat h
  rw [slotAddress_toNat hpixels hfits hi, slotAddress_toNat hpixels hfits hj] at hnat
  simp only [slotBytes] at hnat
  omega

theorem slotAt_slotAddress (hpixels : p.pixels = some base) (hfits : PoolFits base)
    (hi : i < avcFrameSlots) : p.slotAt (p.slotAddress i) = some i := by
  rw [Player.slotAt, List.find?_range_eq_some]
  refine ⟨by simp, List.mem_range.mpr hi, fun j hj => ?_⟩
  have hne : p.slotAddress i ≠ p.slotAddress j := fun h =>
    absurd (slotAddress_injective hpixels hfits hi (hj.trans hi) h) (by omega)
  simpa using hne

/-! ## What the presenter holds -/

variable {s t : Screen} {holding : List ℕ}

/-- The slots that the display holds, besides those that it could not give back; and
what was read was held. -/
structure Holding (s : Screen) (holding : List ℕ) : Prop where
  playing : Playing s.player
  pool : 0 ≤ s.player.sema → ∃ base, s.player.pixels = some base ∧ PoolFits base
  inPool : ∀ i, s.player.slots.state i ≠ .free → i < avcFrameSlots
  opened : ∀ i, s.player.slots.state i = .held → 0 ≤ s.player.sema
  held : ∀ i, s.player.slots.state i = .held ↔ i ∈ holding ∨ i ∈ s.leaked
  nodup : holding.Nodup
  apart : ∀ i ∈ holding, i ∉ s.leaked
  reads : ∀ r ∈ s.slotReads, r.2 = true

theorem holding_start : Holding .start [] where
  playing := playing_start
  pool := fun h => absurd h (by decide)
  inPool := fun i h => absurd rfl h
  opened := fun i h => nomatch (h : SlotState.free = .held)
  held := fun i =>
    iff_of_false (fun h => nomatch (h : SlotState.free = .held)) (by simp [Screen.start])
  nodup := List.nodup_nil
  apart := by simp
  reads := by simp [Screen.start]

theorem Holding.address (h : Holding s holding) (hi : i ∈ holding) :
    0 ≤ s.player.sema ∧ s.player.slotAddress i ≠ 0 ∧
      s.player.slotAt (s.player.slotAddress i) = some i ∧
      s.player.slots.state i = .held := by
  have hheld := (h.held i).mpr (.inl hi)
  have hsema := h.opened i hheld
  have hpool := h.inPool i (by simp [hheld])
  obtain ⟨base, hpixels, hfits⟩ := h.pool hsema
  exact ⟨hsema, slotAddress_ne_zero hpixels hfits hpool,
    slotAt_slotAddress hpixels hfits hpool, hheld⟩

theorem release_failed {frame : UInt32} {lock : ℤ} (hlock : lock < 0) :
    (pspAvcPlayerRelease p frame lock).2 = p := by
  rw [pspAvcPlayerRelease, if_pos (.inr (.inr hlock))]

theorem release_held {lock : ℤ} (hsema : 0 ≤ p.sema) (hzero : p.slotAddress i ≠ 0)
    (hat : p.slotAt (p.slotAddress i) = some i) (hi : i < avcFrameSlots)
    (hheld : p.slots.state i = .held) (hlock : ¬ lock < 0) :
    (pspAvcPlayerRelease p (p.slotAddress i) lock).2 =
      { p with slots := p.slots.mark i .free } := by
  have hgood : ¬ (p.sema < 0 ∨ p.slotAddress i = 0 ∨ lock < 0) := by
    rintro (hbad | hbad | hbad)
    · exact absurd hsema (not_le.mpr hbad)
    · exact hzero hbad
    · exact hlock hbad
  rw [Player.slotAt] at hat
  have hslot : ¬ (!true ∨ (i : ℤ) < 0 ∨ (i : ℤ) ≥ avcFrameSlots ∨
      p.slots.state (i : ℤ).toNat ≠ .held) := by
    simp [hheld, hi]
  rw [pspAvcPlayerRelease, if_neg hgood, hat]
  simp only [avcFrameSlotsRelease]
  rw [if_neg hslot]
  rfl

/-- A slot is given back, or joins those that could not be. -/
theorem Holding.release (h : Holding s (i :: holding)) (lock : ℤ) :
    Holding (s.release (s.player.slotAddress i) lock) holding := by
  obtain ⟨hsema, hzero, hat, hheld⟩ := h.address List.mem_cons_self
  have hpool := h.inPool i (by simp [hheld])
  have hfresh := List.nodup_cons.mp h.nodup
  have happart := h.apart i List.mem_cons_self
  by_cases hlock : lock < 0
  · rw [Screen.release, release_failed hlock, if_pos hlock, hat]
    refine ⟨h.playing, h.pool, h.inPool, h.opened, fun j => ?_, hfresh.2,
      fun j hj hleaked => ?_, h.reads⟩
    · rw [h.held j]
      simp only [List.mem_cons, Option.toList_some, List.mem_append, List.not_mem_nil, or_false]
      tauto
    · rcases List.mem_append.mp hleaked with hold | hnew
      · exact h.apart j (List.mem_cons_of_mem i hj) hold
      · obtain rfl : j = i := by simpa using hnew
        exact hfresh.1 hj
  · have hplaying := present_playing h.playing (.release (s.player.slotAddress i) lock)
    rw [Player.present, release_held hsema hzero hat hpool hheld hlock] at hplaying
    rw [Screen.release, release_held hsema hzero hat hpool hheld hlock, if_neg hlock,
      List.append_nil]
    refine ⟨hplaying, h.pool, fun j hj => ?_, fun j _ => hsema, fun j => ?_, hfresh.2,
      fun j hj => h.apart j (List.mem_cons_of_mem i hj), h.reads⟩
    · dsimp only at hj
      rw [mark_state] at hj
      split at hj
      · exact absurd rfl hj
      · exact h.inPool j hj
    · dsimp only
      rw [mark_state]
      split
      · rename_i heq
        rw [heq]
        exact iff_of_false SlotState.noConfusion (fun hno => hno.elim hfresh.1 happart)
      · rename_i hne
        rw [h.held j, List.mem_cons]
        simp [hne]

/-- A picture that is taken has the address of a slot that was queued. -/
theorem take_spec (p : Player) (lock : ℤ) :
    pspAvcPlayerTake p true lock = (none, p) ∨
      ∃ taken, 0 ≤ p.sema ∧ p.slots.queued = some taken.slot ∧
        pspAvcPlayerTake p true lock = (some (p.slotAddress taken.slot, taken),
          { p with slots := { p.slots.mark taken.slot .held with queued := none } }) := by
  rw [pspAvcPlayerTake]
  split
  · exact .inl rfl
  · rename_i hopen
    have hsema : 0 ≤ p.sema := not_lt.mp fun hno => hopen (.inl hno)
    cases hqueued : p.slots.queued with
    | none => 
        left
        simp [avcFrameSlotsTake, hqueued]
    | some slot =>
        refine .inr ⟨⟨slot, p.slots.frameId slot, p.slots.decodedAtUs slot⟩, hsema, rfl, ?_⟩
        simp [avcFrameSlotsTake, hqueued]

theorem Holding.take (h : Holding s holding) {lock : ℤ} {taken : TakenFrame}
    (hsema : 0 ≤ s.player.sema) (hqueued : s.player.slots.queued = some taken.slot)
    (htake : pspAvcPlayerTake s.player true lock = (some (s.player.slotAddress taken.slot, taken),
      { s.player with
        slots := { s.player.slots.mark taken.slot .held with queued := none } })) :
    Holding { s with player := (pspAvcPlayerTake s.player true lock).2 }
      (taken.slot :: holding) := by
  have hplaying := present_playing h.playing (.take true lock)
  rw [Player.present] at hplaying
  have hstate := (h.playing.table hsema taken.slot).mpr hqueued
  have hfree : ¬ (taken.slot ∈ holding ∨ taken.slot ∈ s.leaked) := by
    rw [← h.held, hstate]
    exact SlotState.noConfusion
  rw [htake] at hplaying ⊢
  refine ⟨hplaying, h.pool, fun j hj => ?_, fun _ _ => hsema, fun j => ?_,
    List.nodup_cons.mpr ⟨fun hmem => hfree (.inl hmem), h.nodup⟩, fun j hj => ?_, h.reads⟩
  · dsimp only at hj
    rw [mark_state] at hj
    split at hj
    · rename_i heq
      rw [heq]
      exact h.inPool taken.slot (by simp [hstate])
    · exact h.inPool j hj
  · dsimp only
    rw [mark_state]
    split
    · rename_i heq
      simp [heq]
    · rename_i hne
      rw [h.held j, List.mem_cons]
      simp [hne]
  · rcases List.mem_cons.mp hj with rfl | hmem
    · exact fun hleaked => hfree (.inr hleaked)
    · exact h.apart j hmem

/-- What is read is a slot that the display holds, or the copy. -/
theorem Holding.read (h : Holding s holding) {frame : Texture}
    (hframe : frame = .copy ∨ ∃ i ∈ holding, frame = .slot (s.player.slotAddress i)) :
    Holding (s.read frame) holding := by
  refine ⟨h.playing, h.pool, h.inPool, h.opened, h.held, h.nodup, h.apart, fun r hr => ?_⟩
  rcases List.mem_append.mp hr with hold | hnew
  · exact h.reads r hold
  · rcases hframe with rfl | ⟨i, hi, rfl⟩
    · cases hnew
    · obtain ⟨-, -, hat, hheld⟩ := h.address hi
      obtain rfl : r = _ := List.mem_singleton.mp hnew
      simp [Player.holdsAt, hat, hheld]

theorem Holding.perm {other : List ℕ} (h : Holding s holding) (hperm : holding.Perm other) :
    Holding s other where
  playing := h.playing
  pool := h.pool
  inPool := h.inPool
  opened := h.opened
  held := fun i => (h.held i).trans (or_congr_left hperm.mem_iff)
  nodup := hperm.nodup_iff.mp h.nodup
  apart := fun i hi => h.apart i (hperm.mem_iff.mpr hi)
  reads := h.reads

theorem Holding.of_main (h : Holding s holding) (d : Display) (c : Presenter) :
    Holding { s with display := d, presenter := c } holding :=
  ⟨h.playing, h.pool, h.inPool, h.opened, h.held, h.nodup, h.apart, h.reads⟩

/-! ## What is on the screen -/

variable {d : Display} {v : FrameView} {frame : Texture}

/-- The display noted the slot that is pointed to. -/
def Display.Noted (d : Display) (frame : Texture) : Prop :=
  ∀ address, frame = .slot address → d.avcOwnedFrame = some address

/-- What would be drawn again is the slot that is noted, or the copy. -/
def Display.AtRest (d : Display) : Prop :=
  ∀ frame, d.lastFrameData = some frame → d.Noted frame

/-- The addresses of the slots that the main thread has to give back. -/
def Screen.owes (s : Screen) : List UInt32 :=
  match s.presenter with
  | .idle | .repeating _ | .clearing _ => s.display.avcOwnedFrame.toList
  | .taken frame | .drawing frame _ => frame :: s.display.avcOwnedFrame.toList
  | .givingBack frames => frames ++ s.display.avcOwnedFrame.toList
  | .cleared => []

/-- What the main thread knows of the display where it is. -/
def Screen.Agrees (s : Screen) : Prop :=
  match s.presenter with
  | .idle | .taken _ | .givingBack _ => s.display.AtRest
  | .drawing frame previous => previous = s.display.avcOwnedFrame ∧
      (s.display.lastFrameData = some .copy ∨ s.display.lastFrameData = some (.slot frame))
  | .repeating frame => s.display.Noted frame ∧ s.display.AtRest
  | .clearing frame => s.display.avcOwnedFrame = some frame ∧ s.display.lastFrameData = none
  | .cleared => s.display.lastFrameData = none

/-- The presenter and the display agree. -/
def Settled (s : Screen) : Prop :=
  ∃ holding, Holding s holding ∧ s.owes = holding.map s.player.slotAddress ∧ s.Agrees

theorem noted_copy : d.Noted .copy := fun _ h => nomatch h

theorem prepare_spec (d : Display) (frame : Texture) (v : FrameView) :
    (displayPrepareFrameTexture d frame v).avcOwnedFrame = d.avcOwnedFrame ∧
      ((displayPrepareFrameTexture d frame v).lastFrameData = some .copy ∨
        (displayPrepareFrameTexture d frame v).lastFrameData = some frame) := by
  rw [displayPrepareFrameTexture]
  split_ifs
  · exact ⟨rfl, .inl rfl⟩
  · exact ⟨rfl, .inr rfl⟩
  · exact ⟨rfl, .inl rfl⟩
  · exact ⟨rfl, .inr rfl⟩

/-- What a picture that is noted leaves behind is noted. -/
theorem atRest_prepare (h : d.Noted frame) :
    (displayPrepareFrameTexture d frame v).Noted frame ∧
      (displayPrepareFrameTexture d frame v).AtRest := by
  obtain ⟨howned, hlast⟩ := prepare_spec d frame v
  have hnoted : (displayPrepareFrameTexture d frame v).Noted frame := fun address hframe =>
    howned.trans (h address hframe)
  refine ⟨hnoted, fun other hother => ?_⟩
  rcases hlast with hcopy | hsame
  · rw [hcopy] at hother
    exact Option.some.inj hother ▸ noted_copy
  · rw [hsame] at hother
    exact Option.some.inj hother ▸ hnoted

theorem release_pixels (p : Player) (frame : UInt32) (lock : ℤ) :
    (pspAvcPlayerRelease p frame lock).2.pixels = p.pixels := by
  obtain ⟨t, ht, -⟩ := present_keeps p (.release frame lock)
  rw [Player.present] at ht
  rw [ht]

theorem slotAddress_congr (h : q.pixels = p.pixels) (i : ℕ) :
    q.slotAddress i = p.slotAddress i := by
  rw [Player.slotAddress, Player.slotAddress, h]

/-- The first of the slots that are owed is given back. -/
theorem Holding.giveBack (h : Holding s holding) {frame : UInt32} {frames : List UInt32}
    (howes : frame :: frames = holding.map s.player.slotAddress) (lock : ℤ) :
    ∃ rest, Holding (s.release frame lock) rest ∧
      frames = rest.map (s.release frame lock).player.slotAddress := by
  cases holding with
  | nil => cases howes
  | cons i rest =>
      rw [List.map_cons, List.cons.injEq] at howes
      obtain ⟨rfl, rfl⟩ := howes
      exact ⟨rest, h.release lock,
        List.map_congr_left fun j _ => (slotAddress_congr (release_pixels ..) j).symm⟩

/-! ## The display functions -/

theorem take_settled (h : Settled s) (lock : ℤ) : Settled (s.take lock) := by
  rw [Screen.take]
  split
  · rename_i hidle
    obtain ⟨holding, hholding, howes, hagrees⟩ := h
    rcases take_spec s.player lock with hnone | ⟨taken, hsema, hqueued, htake⟩
    · rw [hnone]
      exact ⟨holding, hholding, howes, hagrees⟩
    · have htaken := hholding.take hsema hqueued htake
      rw [htake] at htaken ⊢
      have hzero : s.player.slotAddress taken.slot ≠ 0 :=
        (htaken.address List.mem_cons_self).2.1
      rw [Screen.owes, hidle] at howes
      rw [Screen.Agrees, hidle] at hagrees
      dsimp only
      rw [if_neg hzero]
      exact ⟨taken.slot :: holding, htaken.of_main _ _,
        congrArg (s.player.slotAddress taken.slot :: ·) howes, hagrees⟩
  · exact h

theorem startDraw_settled (h : Settled s) (v : FrameView) : Settled (s.startDraw v) := by
  rw [Screen.startDraw]
  split
  · rename_i address htaken
    obtain ⟨holding, hholding, howes, hagrees⟩ := h
    rw [Screen.owes, htaken] at howes
    obtain ⟨howned, hlast⟩ := prepare_spec s.display (.slot address) v
    obtain ⟨i, hi, haddress⟩ : ∃ i ∈ holding, s.player.slotAddress i = address :=
      List.mem_map.mp (howes ▸ List.mem_cons_self)
    have hread := hholding.read (.inr ⟨i, hi, congrArg Texture.slot haddress.symm⟩)
    refine ⟨holding, hread.of_main _ _, ?_, howned.symm, hlast⟩
    exact (congrArg (fun owned => address :: owned.toList) howned).trans howes
  · exact h

/-- What is noted is read. -/
theorem Holding.readNoted (h : Holding s holding)
    (howes : s.display.avcOwnedFrame.toList = holding.map s.player.slotAddress)
    (hframe : s.display.Noted frame) : Holding (s.read frame) holding := by
  refine h.read ?_
  cases frame with
  | copy => exact .inl rfl
  | slot address =>
      rw [hframe address rfl] at howes
      obtain ⟨i, hi, haddress⟩ : ∃ i ∈ holding, s.player.slotAddress i = address :=
        List.mem_map.mp (howes ▸ List.mem_singleton_self address)
      exact .inr ⟨i, hi, congrArg Texture.slot haddress.symm⟩

theorem startRepeat_settled (h : Settled s) (v : FrameView) : Settled (s.startRepeat v) := by
  rw [Screen.startRepeat]
  split
  · rename_i frame hidle hlast
    obtain ⟨holding, hholding, howes, hagrees⟩ := h
    rw [Screen.owes, hidle] at howes
    rw [Screen.Agrees, hidle] at hagrees
    have hnoted := hagrees frame hlast
    refine ⟨holding, (hholding.readNoted howes hnoted).of_main _ _, ?_, atRest_prepare hnoted⟩
    exact (congrArg Option.toList (prepare_spec s.display frame v).1).trans howes
  · exact h

theorem draw_settled (h : Settled s) : Settled s.draw := by
  rw [Screen.draw]
  obtain ⟨holding, hholding, howes, hagrees⟩ := h
  split
  · rename_i address previous hdrawing
    rw [Screen.owes, hdrawing] at howes
    obtain ⟨i, hi, haddress⟩ : ∃ i ∈ holding, s.player.slotAddress i = address :=
      List.mem_map.mp (howes ▸ List.mem_cons_self)
    refine ⟨holding, hholding.read (.inr ⟨i, hi, congrArg Texture.slot haddress.symm⟩),
      ?_, hagrees⟩
    rw [Screen.owes, Screen.read, hdrawing]
    exact howes
  · rename_i frame hrepeating
    have howned := howes
    rw [Screen.owes, hrepeating] at howned
    have hnoted := hagrees
    rw [Screen.Agrees, hrepeating] at hnoted
    exact ⟨holding, hholding.readNoted howned hnoted.1, howes, hagrees⟩
  · exact ⟨holding, hholding, howes, hagrees⟩

/-- The slot of a picture is another than the one that is noted. -/
theorem Holding.filter_previous (h : Holding s holding) {address : UInt32}
    {owned : List UInt32} (howes : address :: owned = holding.map s.player.slotAddress) :
    owned.filter (· ≠ address) = owned := by
  cases holding with
  | nil => cases howes
  | cons i rest =>
      rw [List.map_cons, List.cons.injEq] at howes
      obtain ⟨rfl, rfl⟩ := howes
      refine List.filter_eq_self.mpr fun other hother => decide_eq_true fun hsame => ?_
      obtain ⟨j, hj, rfl⟩ := List.mem_map.mp hother
      have hi := (h.address List.mem_cons_self).2.2.1
      have hat := (h.address (List.mem_cons_of_mem i hj)).2.2.1
      rw [hsame, hi] at hat
      exact (List.nodup_cons.mp h.nodup).1 (Option.some.inj hat ▸ hj)

theorem endDraw_settled (h : Settled s) : Settled s.endDraw := by
  rw [Screen.endDraw]
  split
  · rename_i address previous hdrawing
    obtain ⟨holding, hholding, howes, hagrees⟩ := h
    rw [Screen.owes, hdrawing] at howes
    rw [Screen.Agrees, hdrawing] at hagrees
    obtain ⟨rfl, hlast⟩ := hagrees
    have hprevious := hholding.filter_previous howes
    cases holding with
    | nil => cases howes
    | cons i rest =>
        have hrotated : Holding s (rest ++ [i]) :=
          hholding.perm (List.perm_append_singleton i rest).symm
        have hafter : s.display.avcOwnedFrame.toList ++ [address] =
            (rest ++ [i]).map s.player.slotAddress := by
          rw [List.map_cons, List.cons.injEq] at howes
          rw [List.map_append, ← howes.2, howes.1]
          rfl
        rw [hprevious]
        split
        · rename_i hkept
          refine ⟨rest ++ [i], hrotated.of_main _ _, hafter, fun frame hframe other hother => ?_⟩
          rw [hother, hkept, Option.some_inj, Texture.slot.injEq] at hframe
          exact congrArg some hframe
        · rename_i hcopied
          refine ⟨rest ++ [i], hrotated.of_main _ _, (List.append_nil _).trans hafter,
            fun frame hframe => ?_⟩
          rw [hlast.resolve_right hcopied] at hframe
          exact Option.some.inj hframe ▸ noted_copy
  · rename_i frame hrepeating
    obtain ⟨holding, hholding, howes, hagrees⟩ := h
    rw [Screen.owes, hrepeating] at howes
    rw [Screen.Agrees, hrepeating] at hagrees
    exact ⟨holding, hholding.of_main s.display .idle, howes, hagrees.2⟩
  · exact h

theorem releaseFrame_settled (h : Settled s) : Settled s.releaseFrame := by
  rw [Screen.releaseFrame]
  split
  · rename_i hidle
    obtain ⟨holding, hholding, howes, hagrees⟩ := h
    rw [Screen.owes, hidle] at howes
    cases howned : s.display.avcOwnedFrame with
    | none =>
        exact ⟨holding, hholding.of_main _ _, howes,
          fun frame hframe => nomatch (hframe : none = some frame)⟩
    | some owned => exact ⟨holding, hholding.of_main _ _, howes, howned, rfl⟩
  · exact h

theorem giveBack_settled (h : Settled s) (lock : ℤ) : Settled (s.giveBack lock) := by
  rw [Screen.giveBack]
  split
  · rename_i frame frames hgiving
    obtain ⟨holding, hholding, howes, hagrees⟩ := h
    rw [Screen.owes, hgiving] at howes
    rw [Screen.Agrees, hgiving] at hagrees
    obtain ⟨rest, hrest, hmap⟩ := hholding.giveBack howes lock
    exact ⟨rest, hrest.of_main _ _, hmap, hagrees⟩
  · rename_i hdone
    obtain ⟨holding, hholding, howes, hagrees⟩ := h
    rw [Screen.owes, hdone] at howes
    rw [Screen.Agrees, hdone] at hagrees
    exact ⟨holding, hholding.of_main s.display .idle, howes, hagrees⟩
  · rename_i frame hclearing
    obtain ⟨holding, hholding, howes, hagrees⟩ := h
    rw [Screen.Agrees, hclearing] at hagrees
    rw [Screen.owes, hclearing, hagrees.1] at howes
    obtain ⟨rest, hrest, hmap⟩ := hholding.giveBack howes lock
    exact ⟨rest, hrest.of_main _ _, hmap, hagrees.2⟩
  · rename_i hcleared
    obtain ⟨holding, hholding, howes, hagrees⟩ := h
    rw [Screen.owes, hcleared] at howes
    rw [Screen.Agrees, hcleared] at hagrees
    refine ⟨holding, hholding.of_main _ _, howes, fun frame hframe => ?_⟩
    rw [hagrees] at hframe
    cases hframe
  · exact h

/-! ## The other calls -/

/-- What a call of another part of the program does to the slots: it leaves those that
are held, or there are none. -/
inductive HeldSlots (p q : Player) : Prop where
  | kept (pixels : q.pixels = p.pixels) (sema : 0 ≤ p.sema → 0 ≤ q.sema)
      (held : ∀ i, q.slots.state i = .held ↔ p.slots.state i = .held)
      (inPool : (∀ i, p.slots.state i ≠ .free → i < avcFrameSlots) →
        ∀ i, q.slots.state i ≠ .free → i < avcFrameSlots)
  | none (before : ∀ i < avcFrameSlots, p.slots.state i ≠ .held)
      (after : ∀ i, q.slots.state i ≠ .held)
      (inPool : (∀ i, p.slots.state i ≠ .free → i < avcFrameSlots) →
        ∀ i, q.slots.state i ≠ .free → i < avcFrameSlots)

theorem HeldSlots.inPool (h : HeldSlots p q)
    (hbefore : ∀ i, p.slots.state i ≠ .free → i < avcFrameSlots) :
    ∀ i, q.slots.state i ≠ .free → i < avcFrameSlots := by
  cases h with
  | kept pixels sema held inPool => exact inPool hbefore
  | none before after inPool => exact inPool hbefore

/-- The pool is open and fits, or the player is closed. -/
def Pooled (p : Player) : Prop :=
  0 ≤ p.sema → ∃ base, p.pixels = some base ∧ PoolFits base

theorem Settled.other (h : Settled s) (hstep : HeldSlots s.player q) (hplaying : Playing q)
    (hpool : Pooled q) (inFlight : Option InFlight) :
    Settled { s with player := q, inFlight } := by
  obtain ⟨holding, hholding, howes, hagrees⟩ := h
  cases hstep with
  | kept pixels sema held inPool =>
      refine ⟨holding, ⟨hplaying, hpool, inPool hholding.inPool,
        fun i hi => sema (hholding.opened i ((held i).mp hi)),
        fun i => (held i).trans (hholding.held i), hholding.nodup, hholding.apart,
        hholding.reads⟩, ?_, hagrees⟩
      exact howes.trans (List.map_congr_left fun i _ => (slotAddress_congr pixels i).symm)
  | none before after inPool =>
      have hnone : ∀ i, ¬ (i ∈ holding ∨ i ∈ s.leaked) := by
        intro i hi
        have hheld := (hholding.held i).mpr hi
        exact before i (hholding.inPool i (by simp [hheld])) hheld
      obtain rfl : holding = [] :=
        List.eq_nil_iff_forall_not_mem.mpr fun i hi => hnone i (.inl hi)
      have hnothing : s.owes = [] := howes
      exact ⟨[], ⟨hplaying, hpool, inPool hholding.inPool, fun i hi => absurd hi (after i),
        fun i => iff_of_false (after i) (hnone i), List.nodup_nil, by simp,
        hholding.reads⟩, hnothing, hagrees⟩

theorem heldSlots_of_slots (hpixels : q.pixels = p.pixels) (hsema : q.sema = p.sema)
    (hslots : q.slots = p.slots) : HeldSlots p q :=
  .kept hpixels (fun h => hsema ▸ h) (fun i => by rw [hslots]) (fun h => by rwa [hslots])

theorem Pooled.of_eq (h : Pooled p) (hpixels : q.pixels = p.pixels)
    (hsema : q.sema = p.sema) : Pooled q := by
  rw [Pooled, hpixels, hsema]
  exact h

theorem heldSlots_of_moves {u : AvcFrameSlots} {e : SlotEvent}
    (hnoted : QueueNoted p.slots) (hmoves : Moves p.slots u e)
    (hevent : (∀ taken, e ≠ .taken taken) ∧ ∀ slot, e ≠ .released slot)
    (hslots : q.slots = u) (hpixels : q.pixels = p.pixels) (hsema : q.sema = p.sema) :
    HeldSlots p q := by
  refine .kept hpixels (fun h => hsema ▸ h) (fun i => ?_) (fun hpool i hi => ?_)
  · rw [hslots]
    have hi := hnoted i
    cases hmoves with
    | reserved _ hfree _ hstate _ _ => grind
    | cancelled hwriting hstate _ _ => grind
    | queued slot hslot hwriting hstate _ _ => grind
    | taken frame hslot _ hstate _ => exact absurd rfl (hevent.1 frame)
    | released hheld hstate _ _ => exact absurd rfl (hevent.2 _)
  · rw [hslots] at hi
    have hold := hpool i
    cases hmoves with
    | reserved _ hfree _ hstate _ _ => grind
    | cancelled hwriting hstate _ _ => grind
    | queued slot hslot hwriting hstate _ _ => grind
    | taken frame hslot _ hstate _ => exact absurd rfl (hevent.1 frame)
    | released hheld hstate _ _ => exact absurd rfl (hevent.2 _)

theorem moves_of_reserve {u : AvcFrameSlots} {reserved : List ℕ}
    (h : avcFrameSlotsReserve p.slots true = (some reserved, u)) :
    Moves p.slots u (.reserved reserved) := by
  have hspec := call_spec p.slots (.reserve true)
  simp only [AvcFrameSlots.call, h] at hspec
  exact hspec.resolve_left fun hno => SlotEvent.noConfusion hno.1

theorem beginDecode_spec (hp : Playing p) (src : Option (List UInt8)) (lock : ℤ)
    (a : SubmitAnswers) :
    ∃ r, beginDecode p src lock a = some r ∧ Playing r.2 ∧ HeldSlots p r.2 ∧
      r.2.pixels = p.pixels ∧ r.2.sema = p.sema := by
  have hquiet := heldSlots_of_slots (p := p) rfl rfl rfl
  rw [beginDecode]
  split
  · exact ⟨_, rfl, hp, hquiet, rfl, rfl⟩
  · split
    · exact ⟨_, rfl, hp, hquiet, rfl, rfl⟩
    · rename_i hopen
      split
      · exact ⟨_, rfl, hp, hquiet, rfl, rfl⟩
      · rename_i reserved u hreserved
        have hsema : 0 ≤ p.sema := by omega
        obtain ⟨-, -, -, -, hnoted⟩ := reserve_spec (hp.table hsema) hreserved
        obtain ⟨r, hr, hsane⟩ := decode_sane hp.hardware src
          ⟨fun i => p.slotAddress (reserved.getD i 0), 0⟩ a
        have hr' : pspAvcBackendDecode p.hardware src ⟨fun i =>
            Player.slotAddress { p with slots := u } (reserved.getD i 0), 0⟩ a = some r := hr
        obtain ⟨target, pending, hnote⟩ := noteResult_frame
          { p with hardware := r.1.2, slots := u, profileDecodeActive := true } r.1.1
        simp only [hr', Option.bind_eq_bind, Option.bind_some, hnote]
        refine ⟨_, rfl, ⟨hsane, fun _ => hnoted, hp.pool⟩, ?_, rfl, rfl⟩
        exact heldSlots_of_moves (hp.table hsema) (moves_of_reserve hreserved)
          ⟨fun _ => SlotEvent.noConfusion, fun _ => SlotEvent.noConfusion⟩ rfl rfl rfl

/-- A publication moves slots that were written, or leaves the table. -/
theorem publishPictures_slots (p : Player) (reserved : List ℕ) (r count : ℤ)
    (a : PlayerDecodeAnswers) :
    let q := (publishPictures p reserved r count a).2
    (q.hardware = p.hardware ∧ q.pixels = p.pixels ∧ q.sema = p.sema) ∧
      (q.slots = p.slots ∨
        ∃ slots last, Moves p.slots q.slots (.published slots last)) := by
  rw [publishPictures]
  dsimp only
  split
  · exact ⟨⟨rfl, rfl, rfl⟩, .inl rfl⟩
  · have hplayer : ∀ b : Bool, ∀ t : Player, ∀ x y : ℤ,
        (if b then (x, t) else (y, t)).2 = t := by
      intro b t x y
      cases b
      · rfl
      · rfl
    rw [hplayer]
    refine ⟨⟨rfl, rfl, rfl⟩, ?_⟩
    rcases publish_spec p.slots true (fun i => (reserved.getD i 0 : ℕ)) count
      (some ⟨fun i => p.outputSequence + UInt32.ofNat (i + 1), a.decodedAtUs⟩)
      with ⟨-, hsame⟩ | ⟨-, hmoves⟩
    · exact .inl hsame
    · exact .inr ⟨_, _, hmoves⟩

theorem publishPictures_heldSlots (hp : Playing p)
    (hidle : p.sema < 0 → ∀ i, p.slots.state i ≠ .held) (reserved : List ℕ) (r count : ℤ)
    (a : PlayerDecodeAnswers) :
    Playing (publishPictures p reserved r count a).2 ∧
      HeldSlots p (publishPictures p reserved r count a).2 ∧
      (publishPictures p reserved r count a).2.pixels = p.pixels ∧
      (publishPictures p reserved r count a).2.sema = p.sema := by
  obtain ⟨⟨hhardware, hpixels, hsema⟩, hslots⟩ := publishPictures_slots p reserved r count a
  generalize (publishPictures p reserved r count a).2 = q at *
  have hsane : Sane q.hardware := hhardware ▸ hp.hardware
  have hopen : 0 ≤ q.sema → q.pixels.isSome = true := by
    rw [hsema, hpixels]
    exact hp.pool
  rcases hslots with hsame | ⟨slots, last, hmoves⟩
  · refine ⟨⟨hsane, ?_, hopen⟩, heldSlots_of_slots hpixels hsema hsame, hpixels, hsema⟩
    rw [hsema, hsame]
    exact hp.table
  · by_cases hclosed : p.sema < 0
    · refine ⟨playing_of_noSema hsane (hsema.trans_lt hclosed),
        .none (fun i _ => hidle hclosed i) (fun i => ?_) (fun hpool i hi => ?_), hpixels, hsema⟩
      · have hi := hidle hclosed i
        cases hmoves with
        | cancelled hwriting hstate _ _ => grind
        | queued slot hslot hwriting hstate _ _ => grind
      · have hold := hpool i
        cases hmoves with
        | cancelled hwriting hstate _ _ => grind
        | queued slot hslot hwriting hstate _ _ => grind
    · have hnoted := hp.table (not_lt.mp hclosed)
      exact ⟨⟨hsane, fun _ => queued_of_moves hmoves hnoted, hopen⟩,
        heldSlots_of_moves hnoted hmoves
          ⟨fun _ => SlotEvent.noConfusion, fun _ => SlotEvent.noConfusion⟩ rfl hpixels hsema,
        hpixels, hsema⟩

theorem reset_heldSlots (hp : Playing p) (lock : ℤ) (c : CloseAnswers) (a : OpenAnswers) :
    HeldSlots p (pspAvcPlayerReset p lock c a).2 ∧
      (pspAvcPlayerReset p lock c a).2.pixels = p.pixels ∧
      (pspAvcPlayerReset p lock c a).2.sema = p.sema := by
  rw [pspAvcPlayerReset]
  split
  · exact ⟨heldSlots_of_slots rfl rfl rfl, rfl, rfl⟩
  · rename_i hsema
    dsimp only
    split
    · exact ⟨heldSlots_of_slots rfl rfl rfl, rfl, rfl⟩
    · refine ⟨?_, rfl, rfl⟩
      dsimp only
      rw [AvcFrameSlots.dropQueued]
      cases hqueued : p.slots.queued with
      | none => exact heldSlots_of_slots rfl rfl rfl
      | some slot =>
          have hstate := (hp.table (not_lt.mp hsema) slot).mpr hqueued
          refine .kept rfl id (fun i => ?_) (fun hpool i hi => ?_)
          · dsimp only
            rw [mark_state]
            split
            · rename_i heq
              simp [heq, hstate]
            · exact Iff.rfl
          · dsimp only at hi
            rw [mark_state] at hi
            split at hi
            · exact absurd rfl hi
            · exact hpool i hi

theorem applyProfileChange_heldSlots (lock : ℤ) (c : CloseAnswers) (a : OpenAnswers) :
    HeldSlots p (pspAvcPlayerApplyProfileChange p lock c a).2 ∧
      (pspAvcPlayerApplyProfileChange p lock c a).2.pixels = p.pixels ∧
      (pspAvcPlayerApplyProfileChange p lock c a).2.sema = p.sema := by
  rw [pspAvcPlayerApplyProfileChange]
  generalize (if p.profileChangeTarget = true then (1 : ℤ) else 0) = target
  split
  · exact ⟨heldSlots_of_slots rfl rfl rfl, rfl, rfl⟩
  · dsimp only
    split
    · exact ⟨heldSlots_of_slots rfl rfl rfl, rfl, rfl⟩
    · exact ⟨heldSlots_of_slots rfl rfl rfl, rfl, rfl⟩

theorem not_anyIn {u : AvcFrameSlots} {states : List SlotState}
    (h : u.anyIn states = false) (hi : i < avcFrameSlots) : u.state i ∉ states := by
  rw [AvcFrameSlots.anyIn, List.any_eq_false] at h
  simpa using h i (List.mem_range.mpr hi)

theorem init_not_held (i : ℕ) : AvcFrameSlots.init.state i ≠ .held := fun h =>
  nomatch (h : SlotState.free = .held)

theorem init_inPool (h : AvcFrameSlots.init.state i ≠ .free) : i < avcFrameSlots :=
  absurd rfl h

/-- The table is cleared while no slot is held. -/
theorem heldSlots_of_init (hslots : q.slots = .init)
    (hbefore : ∀ i < avcFrameSlots, p.slots.state i ≠ .held) : HeldSlots p q := by
  refine .none hbefore (fun i => ?_) (fun _ i hi => ?_)
  · rw [hslots]
    exact init_not_held i
  · rw [hslots] at hi
    exact init_inPool hi

theorem heldSlots_of_closed (hbefore : ∀ i, p.slots.state i ≠ .held)
    (hslots : q.slots = p.slots ∨ q.slots = .init) : HeldSlots p q := by
  rcases hslots with hsame | hinit
  · refine .none (fun i _ => hbefore i) (fun i => ?_) (fun hpool => ?_)
    · rw [hsame]
      exact hbefore i
    · rwa [hsame]
  · exact heldSlots_of_init hinit fun i _ => hbefore i

/-- A player that is closed stays so, or gets a pool; its table is the old one or an
empty one. -/
theorem allocatePool_heldSlots (hsema : p.sema < 0) (a : PlayerOpenAnswers)
    (hfits : PoolFits a.poolAddress) :
    ((allocatePool p a).2.slots = p.slots ∨ (allocatePool p a).2.slots = .init) ∧
      Pooled (allocatePool p a).2 := by
  have hclosed : ∀ {q : Player}, q.sema < 0 → Pooled q := fun hq h =>
    absurd h (not_le.mpr hq)
  rw [allocatePool]
  split
  · exact ⟨.inl rfl, hclosed hsema⟩
  · dsimp only
    split
    · rename_i hcreate
      split
      · exact ⟨.inl rfl, hclosed hcreate⟩
      · exact ⟨.inl rfl, hclosed hcreate⟩
    · exact ⟨.inr rfl, fun _ => ⟨a.poolAddress, rfl, hfits⟩⟩

theorem openFresh_closed (hsema : p.sema < 0) (width height : ℕ) (helper : Bool)
    (mainProfile : ℤ) (a : PlayerOpenAnswers) (hfits : PoolFits a.poolAddress) :
    ((openFresh p false width height helper mainProfile a).2.slots = p.slots ∨
      (openFresh p false width height helper mainProfile a).2.slots = .init) ∧
      Pooled (openFresh p false width height helper mainProfile a).2 := by
  rw [openFresh]
  dsimp only
  split
  · exact ⟨.inl rfl, fun h => absurd h (not_le.mpr hsema)⟩
  · rw [if_neg Bool.false_ne_true]
    exact allocatePool_heldSlots (p := { p with
      hardware := _
      profileChangePending := false
      profileChangeTarget := _ }) hsema a hfits

theorem openFresh_idle (hidle : ∀ i < avcFrameSlots, p.slots.state i ≠ .held)
    (width height : ℕ) (helper : Bool) (mainProfile : ℤ) (a : PlayerOpenAnswers) :
    HeldSlots p (openFresh p true width height helper mainProfile a).2 ∧
      (openFresh p true width height helper mainProfile a).2.pixels = p.pixels ∧
      (openFresh p true width height helper mainProfile a).2.sema = p.sema := by
  rw [openFresh]
  dsimp only
  split
  · exact ⟨heldSlots_of_slots rfl rfl rfl, rfl, rfl⟩
  · exact ⟨heldSlots_of_init rfl hidle, rfl, rfl⟩

theorem openProfile_heldSlots (hidle : p.sema < 0 → ∀ i, p.slots.state i ≠ .held)
    (hpool : Pooled p) (width height : ℕ) (helper : Bool) (mainProfile : ℤ)
    (a : PlayerOpenAnswers) (hfits : PoolFits a.poolAddress) :
    HeldSlots p (pspAvcPlayerOpenProfile p width height helper mainProfile a).2 ∧
      Pooled (pspAvcPlayerOpenProfile p width height helper mainProfile a).2 := by
  have hquiet : ∀ {q : Player}, q.pixels = p.pixels → q.sema = p.sema →
      q.slots = p.slots → HeldSlots p q ∧ Pooled q := fun hpixels hsema hslots =>
    ⟨heldSlots_of_slots hpixels hsema hslots, hpool.of_eq hpixels hsema⟩
  have hfresh : ∀ {q : Player}, p.sema < 0 →
      (q.slots = p.slots ∨ q.slots = .init) ∧ Pooled q → HeldSlots p q ∧ Pooled q :=
    fun hsema h => ⟨heldSlots_of_closed (hidle hsema) h.1, h.2⟩
  rw [pspAvcPlayerOpenProfile]
  split
  · exact hquiet rfl rfl rfl
  · split
    · exact hquiet rfl rfl rfl
    · split
      · rename_i hsema
        split
        · exact hquiet rfl rfl rfl
        · split
          · exact hquiet rfl rfl rfl
          · rename_i hframes
            dsimp only
            split
            · exact hquiet rfl rfl rfl
            · have hnone : ∀ i < avcFrameSlots, p.slots.state i ≠ .held := by
                intro i hi hheld
                simp only [framesIdle, if_neg (not_lt.mpr hsema)] at hframes
                split at hframes
                · exact hframes rfl
                · rw [Bool.not_not] at hframes
                  exact not_anyIn (by simpa using hframes) hi (by simp [hheld])
              obtain ⟨hheld, hpixels, hsame⟩ := openFresh_idle
                (p := (closeBackendForReopen p a.stale a.staleFree).2) hnone width height
                helper mainProfile a
              refine ⟨?_, hpool.of_eq hpixels hsame⟩
              cases hheld with
              | kept pixels sema held inPool => exact .kept pixels sema held inPool
              | none before after inPool => exact .none before after inPool
      · rename_i hsema
        have hsema := not_le.mp hsema
        split
        · dsimp only
          split
          · exact hquiet rfl rfl rfl
          · exact hfresh hsema (openFresh_closed
              (p := (closeBackendForReopen p a.stale a.staleFree).2) hsema width height
              helper mainProfile a hfits)
        · exact hfresh hsema (openFresh_closed hsema width height helper mainProfile a hfits)

theorem closeDrained_slots (p : Player) (a : PlayerCloseAnswers) :
    let r := closeDrained p a
    r.2.pixels = p.pixels ∧ r.2.sema = p.sema ∧
      (r.1 ≠ 0 ∧ r.2.slots = p.slots ∨ r.2.slots = .init) := by
  rw [closeDrained]
  split
  · rename_i hflush
    exact ⟨rfl, rfl, .inl ⟨hflush.2, rfl⟩⟩
  · dsimp only
    split
    · rename_i hclosed
      exact ⟨rfl, rfl, .inl ⟨hclosed, rfl⟩⟩
    · split
      · exact ⟨rfl, rfl, .inl ⟨show (-1 : ℤ) ≠ 0 by decide, rfl⟩⟩
      · exact ⟨rfl, rfl, .inr rfl⟩

/-- A close leaves the table and fails, or clears it while no slot is held. -/
theorem close_slots (hsema : 0 ≤ p.sema) (a : PlayerCloseAnswers) :
    let r := pspAvcPlayerClose p a
    r.player.pixels = p.pixels ∧ r.player.sema = p.sema ∧
      (r.result ≠ 0 ∧ r.player.slots = p.slots ∨
        (∀ i < avcFrameSlots, p.slots.state i ≠ .held) ∧ r.player.slots = .init) := by
  rw [pspAvcPlayerClose, if_neg (not_lt.mpr hsema)]
  split
  · exact ⟨rfl, rfl, .inl ⟨show (-1 : ℤ) ≠ 0 by decide, rfl⟩⟩
  · rename_i hcloses
    have hnone : ∀ i < avcFrameSlots, p.slots.state i ≠ .held := by
      intro i hi hheld
      simp only [Player.closes, Bool.not_eq_true', Bool.not_eq_false,
        Bool.and_eq_true] at hcloses
      exact not_anyIn (by simpa using hcloses.2) hi (by simp [hheld])
    split
    · dsimp only
      split
      · rename_i hdrained
        exact ⟨rfl, rfl, .inl ⟨hdrained, rfl⟩⟩
      · obtain ⟨hpixels, hsame, hslots⟩ := closeDrained_slots (drainPlayer p a.drain).player a
        exact ⟨hpixels, hsame, hslots.imp_right fun h => ⟨hnone, h⟩⟩
    · obtain ⟨hpixels, hsame, hslots⟩ := closeDrained_slots p a
      exact ⟨hpixels, hsame, hslots.imp_right fun h => ⟨hnone, h⟩⟩

theorem closeWithoutSema_slots (p : Player) (a : PlayerCloseAnswers) :
    (closeWithoutSema p a).2.sema = p.sema ∧ (closeWithoutSema p a).2.slots = p.slots := by
  rw [closeWithoutSema]
  split
  · exact ⟨rfl, rfl⟩
  · split
    · exact ⟨rfl, rfl⟩
    · exact ⟨rfl, rfl⟩

theorem close_heldSlots (hidle : p.sema < 0 → ∀ i, p.slots.state i ≠ .held)
    (hpool : Pooled p) (a : PlayerCloseAnswers) :
    HeldSlots p (pspAvcPlayerClose p a).player ∧ Pooled (pspAvcPlayerClose p a).player := by
  by_cases hsema : p.sema < 0
  · obtain ⟨hsame, hslots⟩ := closeWithoutSema_slots p a
    rw [pspAvcPlayerClose, if_pos hsema]
    refine ⟨heldSlots_of_closed (hidle hsema) (.inl hslots), fun h => ?_⟩
    exact absurd h (not_le.mpr (hsame.trans_lt hsema))
  · obtain ⟨hpixels, hsame, hslots⟩ := close_slots (not_lt.mp hsema) a
    refine ⟨?_, hpool.of_eq hpixels hsame⟩
    rcases hslots with ⟨-, hslots⟩ | ⟨hnone, hinit⟩
    · exact heldSlots_of_slots hpixels hsame hslots
    · exact heldSlots_of_init hinit hnone

/-- Behind a close that fails nothing is freed; behind one that succeeds the pool is, with
no slot held. -/
theorem destroy_heldSlots (hidle : p.sema < 0 → ∀ i, p.slots.state i ≠ .held)
    (hpool : Pooled p) (a : PlayerCloseAnswers) (deleteSema freePool : ℤ) :
    HeldSlots p (pspAvcPlayerDestroy p a deleteSema freePool).2 ∧
      Pooled (pspAvcPlayerDestroy p a deleteSema freePool).2 := by
  obtain ⟨hheld, hpooled⟩ := close_heldSlots hidle hpool a
  rw [pspAvcPlayerDestroy]
  dsimp only
  split
  · exact ⟨hheld, hpooled⟩
  · rename_i hresult
    -- The close returned 0: its table has no slot that is held, and neither had the old one.
    have hclear : (∀ i < avcFrameSlots, p.slots.state i ≠ .held) ∧
        ∀ i, (pspAvcPlayerClose p a).player.slots.state i ≠ .held := by
      by_cases hsema : p.sema < 0
      · refine ⟨fun i _ => hidle hsema i, fun i => ?_⟩
        rw [pspAvcPlayerClose, if_pos hsema, PlayerReturn.plain,
          (closeWithoutSema_slots p a).2]
        exact hidle hsema i
      · rcases (close_slots (not_lt.mp hsema) a).2.2 with ⟨hno, -⟩ | ⟨hnone, hinit⟩
        · exact absurd hno hresult
        · refine ⟨hnone, fun i => ?_⟩
          rw [hinit]
          exact init_not_held i
    have hclosed : ∀ {q : Player}, q.sema < 0 →
        (q.slots = (pspAvcPlayerClose p a).player.slots ∨ q.slots = .init) →
        HeldSlots p q ∧ Pooled q := by
      intro q hsema hslots
      refine ⟨?_, fun h => absurd h (not_le.mpr hsema)⟩
      rcases hslots with hsame | hinit
      · refine .none hclear.1 (fun i => ?_) (fun hbefore => ?_)
        · rw [hsame]
          exact hclear.2 i
        · rw [hsame]
          exact hheld.inPool hbefore
      · exact heldSlots_of_init hinit hclear.1
    split
    · exact ⟨hheld, hpooled⟩
    · have hsema : (if 0 ≤ (pspAvcPlayerClose p a).player.sema then (-1 : ℤ)
          else (pspAvcPlayerClose p a).player.sema) < 0 := by
        split
        · decide
        · rename_i hno
          exact not_le.mp hno
      split
      · exact hclosed hsema (.inl rfl)
      · exact hclosed hsema (.inr rfl)

/-! ## Runs -/

theorem destroy_playing (hp : Playing p) (a : PlayerCloseAnswers) (deleteSema freePool : ℤ) :
    Playing (pspAvcPlayerDestroy p a deleteSema freePool).2 := by
  have hclosed := close_playing hp a
  rw [pspAvcPlayerDestroy]
  dsimp only
  split
  · exact hclosed
  · split
    · exact hclosed
    · have hsema : (if 0 ≤ (pspAvcPlayerClose p a).player.sema then (-1 : ℤ)
          else (pspAvcPlayerClose p a).player.sema) < 0 := by
        split
        · decide
        · rename_i hno
          exact not_le.mp hno
      split
      · exact playing_of_noSema hclosed.hardware hsema
      · exact playing_of_noSema hclosed.hardware hsema

/-- The pool, and that no slot is held while the player is closed. -/
theorem Settled.player (h : Settled s) :
    Playing s.player ∧ Pooled s.player ∧
      (s.player.sema < 0 → ∀ i, s.player.slots.state i ≠ .held) := by
  obtain ⟨holding, hholding, -⟩ := h
  refine ⟨hholding.playing, hholding.pool, fun hsema i hheld => ?_⟩
  exact absurd (hholding.opened i hheld) (not_le.mpr hsema)

theorem step_settled (h : Settled s) (i : ScreenStep) :
    ∃ t, s.step i = some t ∧ Settled t := by
  obtain ⟨hplaying, hpool, hidle⟩ := h.player
  cases i with
  | openProfile width height helper mainProfile a fits =>
      obtain ⟨hheld, hpooled⟩ := openProfile_heldSlots hidle hpool width height helper
        mainProfile a fits
      exact ⟨_, rfl, h.other hheld
        (openProfile_playing hplaying width height helper mainProfile a) hpooled _⟩
  | beginDecode src lock a =>
      rw [Screen.step]
      split
      · exact ⟨s, rfl, h⟩
      · obtain ⟨r, hr, hnext, hheld, hpixels, hsema⟩ := beginDecode_spec hplaying src lock a
        rw [hr, Option.bind_eq_bind, Option.bind_some]
        exact ⟨_, rfl, h.other hheld hnext (hpool.of_eq hpixels hsema) _⟩
  | finishDecode a =>
      rw [Screen.step]
      cases hworker : s.inFlight with
      | none => exact ⟨s, rfl, h⟩
      | some w =>
          obtain ⟨hnext, hheld, hpixels, hsema⟩ := publishPictures_heldSlots hplaying hidle
            w.reserved w.result w.count a
          exact ⟨_, rfl, h.other hheld hnext (hpool.of_eq hpixels hsema) none⟩
  | reset lock c a =>
      rw [Screen.step]
      split
      · exact ⟨s, rfl, h⟩
      · obtain ⟨hheld, hpixels, hsema⟩ := reset_heldSlots hplaying lock c a
        exact ⟨_, rfl, h.other hheld (reset_playing hplaying lock c a)
          (hpool.of_eq hpixels hsema) _⟩
  | applyProfileChange lock c a =>
      obtain ⟨hheld, hpixels, hsema⟩ := applyProfileChange_heldSlots (p := s.player) lock c a
      exact ⟨_, rfl, h.other hheld (applyProfileChange_playing hplaying lock c a)
        (hpool.of_eq hpixels hsema) _⟩
  | take lock => exact ⟨_, rfl, take_settled h lock⟩
  | startDraw v => exact ⟨_, rfl, startDraw_settled h v⟩
  | startRepeat v => exact ⟨_, rfl, startRepeat_settled h v⟩
  | draw => exact ⟨_, rfl, draw_settled h⟩
  | endDraw => exact ⟨_, rfl, endDraw_settled h⟩
  | releaseFrame => exact ⟨_, rfl, releaseFrame_settled h⟩
  | giveBack lock => exact ⟨_, rfl, giveBack_settled h lock⟩
  | close a =>
      obtain ⟨hheld, hpooled⟩ := close_heldSlots hidle hpool a
      exact ⟨_, rfl, h.other hheld (close_playing hplaying a) hpooled _⟩
  | destroy a deleteSema freePool =>
      obtain ⟨hheld, hpooled⟩ := destroy_heldSlots hidle hpool a deleteSema freePool
      exact ⟨_, rfl, h.other hheld (destroy_playing hplaying a deleteSema freePool) hpooled _⟩

theorem run_settled (h : Settled s) (steps : List ScreenStep) :
    ∃ t, s.run steps = some t ∧ Settled t := by
  induction steps generalizing s with
  | nil => exact ⟨s, rfl, h⟩
  | cons i steps ih =>
      obtain ⟨t, ht, hnext⟩ := step_settled h i
      obtain ⟨u, hu, hlast⟩ := ih hnext
      refine ⟨u, ?_, hlast⟩
      rw [Screen.run, ht]
      exact hu

/-- What holds between two steps: only slots that the presenter held were read; it holds
those that the main thread has to give back, and those that a failed call did not; and what
is drawn again is one of the first or the copy. -/
structure ScreenSafe (s : Screen) : Prop where
  reads : ∀ r ∈ s.slotReads, r.2 = true
  held : ∀ i, s.player.slots.state i = .held ↔
    (i < avcFrameSlots ∧ s.player.slotAddress i ∈ s.owes) ∨ i ∈ s.leaked
  once : ∀ i ∈ s.leaked, s.player.slotAddress i ∉ s.owes
  again : ∀ frame, s.display.lastFrameData = some (.slot frame) →
    frame ∈ s.owes ∧ s.player.holdsAt frame = true

/-- A slot that would be drawn again is owed. -/
theorem Screen.Agrees.owed (h : s.Agrees) {address : UInt32}
    (hlast : s.display.lastFrameData = some (.slot address)) : address ∈ s.owes := by
  have hnoted : s.display.AtRest → address ∈ s.display.avcOwnedFrame.toList := fun hrest => by
    simp [hrest _ hlast address rfl]
  rw [Screen.Agrees] at h
  rw [Screen.owes]
  split at h
  · rename_i hidle
    rw [hidle]
    exact hnoted h
  · rename_i frame htaken
    rw [htaken]
    exact List.mem_cons_of_mem frame (hnoted h)
  · rename_i frames hgiving
    rw [hgiving]
    exact List.mem_append_right frames (hnoted h)
  · rename_i frame previous hdrawing
    rw [hdrawing]
    obtain rfl : address = frame := by simpa [hlast] using h.2
    exact List.mem_cons_self
  · rename_i frame hrepeating
    rw [hrepeating]
    exact hnoted h.2
  · exact absurd (h.2.symm.trans hlast) (by simp)
  · exact absurd (h.symm.trans hlast) (by simp)

theorem Settled.safe (h : Settled s) : ScreenSafe s := by
  obtain ⟨holding, hholding, howes, hagrees⟩ := h
  have hmem : ∀ i < avcFrameSlots, s.player.slotAddress i ∈ s.owes → i ∈ holding := by
    intro i hi howed
    rw [howes] at howed
    obtain ⟨j, hj, hsame⟩ := List.mem_map.mp howed
    obtain ⟨hsema, -, -, hheld⟩ := hholding.address hj
    obtain ⟨base, hpixels, hfits⟩ := hholding.pool hsema
    have hinPool := hholding.inPool j (by simp [hheld])
    exact slotAddress_injective hpixels hfits hinPool hi hsame ▸ hj
  have howed : ∀ i ∈ holding, i < avcFrameSlots ∧ s.player.slotAddress i ∈ s.owes := by
    intro i hi
    refine ⟨hholding.inPool i (by simp [(hholding.address hi).2.2.2]), ?_⟩
    rw [howes]
    exact List.mem_map_of_mem hi
  refine ⟨hholding.reads, fun i => ?_, fun i hi hno => ?_, fun frame hframe => ?_⟩
  · rw [hholding.held i]
    exact or_congr_left ⟨howed i, fun h => hmem i h.1 h.2⟩
  · have hin := hholding.inPool i (by simp [(hholding.held i).mpr (.inr hi)])
    exact hholding.apart i (hmem i hin hno) hi
  · have hframes := hagrees.owed hframe
    refine ⟨hframes, ?_⟩
    rw [howes] at hframes
    obtain ⟨i, hi, rfl⟩ := List.mem_map.mp hframes
    obtain ⟨-, -, hat, hheld⟩ := hholding.address hi
    simp [Player.holdsAt, hat, hheld]

/-- In every interleaving of the worker and the presenter, also while a picture is drawn,
with the player opened and closed between, the display reads only slots that it holds and
gives back each other one, unless a wait on the semaphore failed there. -/
theorem screen_safe (steps : List ScreenStep) :
    ∃ t, Screen.start.run steps = some t ∧ ScreenSafe t := by
  have hstart : Settled .start := ⟨[], holding_start, rfl, fun frame hframe =>
    nomatch (hframe : none = some frame)⟩
  obtain ⟨t, ht, hsettled⟩ := run_settled hstart steps
  exact ⟨t, ht, hsettled.safe⟩

end MoonlightPsp.Avc
