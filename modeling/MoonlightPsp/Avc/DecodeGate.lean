import MoonlightPsp.Avc.PlayerBuffers
import MoonlightPsp.Control.IdrSpacing
import MoonlightPsp.Detector.HeaderScan
import MoonlightPsp.Lib.PastTime

/-!
# The gate in front of the hardware decoder

`rtp_frame_complete_callback` of `decoder_thread.c` decides for each complete access
unit whether the player gets it.  What it knows of the units before is in flags, and
other code of the program may write most of them between two units.  The watchdog of
the main thread asks for a reset at any time, also while the callback is in the player,
and each start of the decoder forgets a reset that is due.
-/

namespace MoonlightPsp.Avc

open EventLog PastTime
open Control (IdrEntry)
open Detector (nalScanHeaders headerLoop headerScLen headerScLen_eq)

/-! ## The callback -/

/-- The flags of the decoder that other code shares. -/
structure DecodeFlags where
  currentFrameIsCorrupt : Bool
  decodePaused : Bool
  refsCorrupted : Bool
  sawFirstIdr : Bool
  idrFullyDecoded : Bool
  lastDecodeOutputOk : Bool
  avcLastInputAccepted : Bool

/-- The flags where no unit has come. -/
def DecodeFlags.zero : DecodeFlags := ⟨false, false, false, false, false, false, false⟩

/-- What became of an access unit. -/
inductive Fate where
  | damaged
  | paused
  | awaitsIdr
  | resetFailed
  | submitted (afterReset : Bool) (result : ℤ)
deriving DecidableEq

/-- An access unit of the callback, with the two flags that stop any unit and with the
IDR requests that were made. -/
structure Delivery where
  nal : List UInt8
  hasIdr : Bool
  corrupt : Bool
  paused : Bool
  fate : Fate
  asked : List IdrEntry

/-- A unit, other code that left `g_refs_corrupted` so, the watchdog of the main thread,
or a start of the decoder. -/
inductive GateEvent where
  | delivered (d : Delivery)
  | marked (refsCorrupted : Bool)
  | watchdog
  | started

/-- The decoder; `hwResetNeeded` is `s_hw_reset_needed`. -/
structure DecodePath where
  flags : DecodeFlags
  hwResetNeeded : Bool
  player : Player
  log : List GateEvent

/-- What the calls in the callback return, what other threads ask of the player
between the reset and the decode, and whether the watchdog comes behind the test of
`s_hw_reset_needed`: before a reset is noted as done, or behind that. -/
structure CallbackAnswers where
  lock : ℤ
  close : CloseAnswers
  reopen : OpenAnswers
  decode : PlayerDecodeAnswers
  watchdogAtReset : Bool
  watchdogAtDecode : Bool

/-- What the callback leaves, besides the log, and whether the watchdog came in one of
these places. -/
structure Decision where
  flags : DecodeFlags
  hwResetNeeded : Bool
  player : Player
  fate : Fate
  asked : List IdrEntry
  watchedAtReset : Bool
  watchedAtDecode : Bool

/-- `psp_avc_player_is_ready`. -/
def Player.isReady (s : Player) : Bool :=
  decide (0 ≤ s.sema) && s.pixels.isSome && s.hardware.backend.avcc.isSome &&
    !s.hardware.backend.failed && s.hardware.firmware.session.ready

/-- The references are given up; `hardware_request_ref_resync` sets the first flag. -/
def DecodeFlags.resync (f : DecodeFlags) (refsCorrupted : Bool) : DecodeFlags :=
  { f with
    refsCorrupted
    sawFirstIdr := false
    idrFullyDecoded := false }

/-- The flags behind `psp_avc_player_decode`. -/
def DecodeFlags.note (f : DecodeFlags) (hasIdr : Bool) (result : ℤ) : DecodeFlags :=
  if result = 0 ∨ result = 3 then
    { f with
      avcLastInputAccepted := true
      sawFirstIdr := hasIdr || f.sawFirstIdr
      idrFullyDecoded := hasIdr || f.idrFullyDecoded
      lastDecodeOutputOk := result = 0 || f.lastDecodeOutputOk }
  else if result = profileChangeRequired then f.resync true
  else f

/-- The IDR requests behind `psp_avc_player_decode`. -/
def askedAfter (result : ℤ) : List IdrEntry :=
  if result = 2 then [.startup] else if result < 0 then [.force] else []

/-- The unit goes to the player, with no reset due.  The mark of a watchdog stays. -/
def submitNal (f : DecodeFlags) (p : Player) (nal : List UInt8) (hasIdr afterReset : Bool)
    (a : CallbackAnswers) : Option Decision := do
  let r ← pspAvcPlayerDecode p (some nal) a.decode
  some {
    flags := f.note hasIdr r.result
    hwResetNeeded := a.watchdogAtDecode || r.result < 0
    player := r.player
    fate := .submitted afterReset r.result
    asked := (if afterReset then [.force] else []) ++ askedAfter r.result
    watchedAtReset := afterReset && a.watchdogAtReset
    watchedAtDecode := a.watchdogAtDecode }

/-- A unit with an IDR comes while a reset is due.  What a watchdog marks before the
reset is noted as done is taken back with it. -/
def resetAndSubmit (f : DecodeFlags) (p : Player) (nal : List UInt8) (hasIdr : Bool)
    (a : CallbackAnswers) : Option Decision :=
  let r := pspAvcPlayerReset p a.lock a.close a.reopen
  if r.1 < 0 ∨ !r.2.isReady then
    some ⟨f, true, r.2, .resetFailed, [], a.watchdogAtReset, false⟩
  else
    submitNal { f with refsCorrupted := false, idrFullyDecoded := false } r.2 nal hasIdr
      true a

/-- The part of `rtp_frame_complete_callback` behind `nal_scan_headers`. -/
def decideNal (s : DecodePath) (nal : List UInt8) (hasIdr : Bool) (a : CallbackAnswers) :
    Option Decision :=
  let f := { s.flags with lastDecodeOutputOk := false, avcLastInputAccepted := false }
  if f.currentFrameIsCorrupt then
    some ⟨f.resync true, s.hwResetNeeded, s.player, .damaged, [.force], false, false⟩
  else if f.decodePaused then some ⟨f, true, s.player, .paused, [], false, false⟩
  else if f.refsCorrupted ∧ !hasIdr then
    some ⟨f, s.hwResetNeeded, s.player, .awaitsIdr, [.startup], false, false⟩
  else
    let f := if f.refsCorrupted then f.resync false else f
    if !s.hwResetNeeded then submitNal f s.player nal hasIdr false a
    else if !hasIdr then some ⟨f, true, s.player, .awaitsIdr, [.startup], false, false⟩
    else resetAndSubmit f s.player nal hasIdr a

/-- The event of a watchdog. -/
def watchdogIf (came : Bool) : List GateEvent := if came then [.watchdog] else []

/-- The event of a decision. -/
def Decision.delivery (e : Decision) (f : DecodeFlags) (nal : List UInt8)
    (hasIdr : Bool) : Delivery :=
  ⟨nal, hasIdr, f.currentFrameIsCorrupt, f.decodePaused, e.fate, e.asked⟩

/-- `rtp_frame_complete_callback` of the hardware build, for a unit that is not null. -/
def rtpFrameCompleteCallback (s : DecodePath) (nal : List UInt8) (a : CallbackAnswers) :
    Option DecodePath :=
  if nal = [] then
    some { s with flags := { s.flags with
      lastDecodeOutputOk := false
      avcLastInputAccepted := false } }
  else do
    let headers ← nalScanHeaders nal
    let d ← decideNal s nal headers.1 a
    some {
      flags := d.flags
      hwResetNeeded := d.hwResetNeeded
      player := d.player
      log := s.log ++ watchdogIf d.watchedAtReset ++
        [.delivered (d.delivery s.flags nal headers.1)] ++ watchdogIf d.watchedAtDecode }

/-! ## Runs -/

/-- Calls of the player, none of them outside of a buffer. -/
def Player.calls (s : Player) : List PlayerCall → Option Player
  | [] => some s
  | c :: rest => do
      let r ← s.call c
      r.player.calls rest

/-- A complete unit; a turn of the other code, which leaves the flags so and calls the
player; `sw_decoder_thread_force_restart` of the watchdog; or the part of
`sw_decoder_thread_init` that the callback sees. -/
inductive PathStep where
  | unit (nal : List UInt8) (a : CallbackAnswers)
  | others (flags : DecodeFlags) (calls : List PlayerCall)
  | watchdog
  | start

def DecodePath.step (s : DecodePath) : PathStep → Option DecodePath
  | .unit nal a => rtpFrameCompleteCallback s nal a
  | .others flags calls => do
      let player ← s.player.calls calls
      some { s with flags, player, log := s.log ++ [.marked flags.refsCorrupted] }
  | .watchdog => some { s with hwResetNeeded := true, log := s.log ++ [.watchdog] }
  | .start => some { s with hwResetNeeded := false, log := s.log ++ [.started] }

def DecodePath.run (s : DecodePath) : List PathStep → Option DecodePath
  | [] => some s
  | i :: rest => do
      let t ← s.step i
      t.run rest

/-- The decoder before its first start, with no player open. -/
def DecodePath.start : DecodePath := ⟨.zero, false, .start, []⟩

/-! ## What the gate owes -/

/-- The next unit for the player must come behind a reset. -/
def GateEvent.BreaksSession : GateEvent → Prop
  | .delivered d => d.fate = .paused ∨ d.fate = .resetFailed ∨
      ∃ afterReset result, d.fate = .submitted afterReset result ∧ result < 0
  | .watchdog => True
  | _ => False

/-- A unit went to the player, or the decoder was started. -/
def GateEvent.EndsBreak : GateEvent → Prop
  | .delivered d => ∃ afterReset result, d.fate = .submitted afterReset result
  | .started => True
  | _ => False

/-- The next unit for the player must have an IDR. -/
def GateEvent.BreaksRefs : GateEvent → Prop
  | .delivered d => d.fate = .damaged ∨
      ∃ afterReset, d.fate = .submitted afterReset profileChangeRequired
  | .marked refsCorrupted => refsCorrupted = true
  | _ => False

/-- A unit reached the player or the reset, or other code took the mark away. -/
def GateEvent.RestoresRefs : GateEvent → Prop
  | .delivered d => d.fate = .resetFailed ∨
      ∃ afterReset result, d.fate = .submitted afterReset result
  | .marked refsCorrupted => refsCorrupted = false
  | _ => False

/-- The session is broken: no unit was submitted since, and the decoder not started. -/
def SessionBroken : List GateEvent → Prop :=
  Pending GateEvent.BreaksSession GateEvent.EndsBreak

/-- The references are broken. -/
def RefsBroken : List GateEvent → Prop :=
  Pending GateEvent.BreaksRefs GateEvent.RestoresRefs

/-- What must be true of a unit and the events before it: its fate is settled by what is
broken, and each unit that is lost asks for an IDR, unless the decoder was paused or the
reset failed. -/
structure DeliveryLaw (before : List GateEvent) (d : Delivery) : Prop where
  damaged : d.fate = .damaged ↔ d.corrupt = true
  paused : d.fate = .paused ↔ d.corrupt = false ∧ d.paused = true
  awaitsIdr : d.fate = .awaitsIdr ↔ d.corrupt = false ∧ d.paused = false ∧
    d.hasIdr = false ∧ (RefsBroken before ∨ SessionBroken before)
  reset : (d.fate = .resetFailed ∨ ∃ result, d.fate = .submitted true result) ↔
    d.corrupt = false ∧ d.paused = false ∧ d.hasIdr = true ∧ SessionBroken before
  direct : (∃ result, d.fate = .submitted false result) ↔
    d.corrupt = false ∧ d.paused = false ∧ ¬ SessionBroken before ∧
      (RefsBroken before → d.hasIdr = true)
  silent : d.asked = [] ↔ d.fate = .paused ∨ d.fate = .resetFailed ∨
    ∃ result, d.fate = .submitted false result ∧ 0 ≤ result ∧ result ≠ 2

/-- The law of the log. -/
def PathLaw (before : List GateEvent) : GateEvent → Prop
  | .delivered d => DeliveryLaw before d
  | _ => True

/-! ## One unit -/

variable {s : DecodePath} {f : DecodeFlags} {p : Player} {nal : List UInt8}
  {hasIdr afterReset : Bool}

theorem headerLoop_total (fuel i : ℕ) (hasSync : Bool) (hi : i ≤ nal.length)
    (hfuel : nal.length < fuel + i) : ∃ r, headerLoop nal fuel i hasSync = some r := by
  induction fuel generalizing i hasSync with
  | zero => exact absurd (hfuel.trans_le (by rwa [Nat.zero_add])) (Nat.lt_irrefl _)
  | succ fuel ih =>
      rw [headerLoop]
      split
      · rename_i hmore
        rw [headerScLen_eq hmore, Option.bind_eq_bind, Option.bind_some]
        split
        · rename_i hcode
          rw [List.getElem?_eq_getElem hcode.2, Option.bind_eq_bind, Option.bind_some]
          dsimp only
          split_ifs
          · exact ⟨_, rfl⟩
          · exact ⟨_, rfl⟩
          · exact ih _ _ hcode.2 (by omega)
        · exact ih _ _ (by omega) (by omega)
      · exact ⟨_, rfl⟩

theorem nalScanHeaders_total (nal : List UInt8) : ∃ r, nalScanHeaders nal = some r := by
  rw [nalScanHeaders]
  split
  · exact ⟨_, rfl⟩
  · exact headerLoop_total _ 0 false (Nat.zero_le _) (Nat.lt_succ_self _)

theorem note_refsCorrupted (hf : f.refsCorrupted = false) (result : ℤ) :
    (f.note hasIdr result).refsCorrupted = decide (result = profileChangeRequired) := by
  rw [DecodeFlags.note]
  split
  · rename_i haccepted
    rcases haccepted with rfl | rfl <;> exact hf
  · split
    · rename_i hchange
      exact (decide_eq_true hchange).symm
    · rename_i hchange
      rw [hf, decide_eq_false hchange]

theorem askedAfter_eq_nil_iff (result : ℤ) :
    askedAfter result = [] ↔ 0 ≤ result ∧ result ≠ 2 := by
  rw [askedAfter]
  split
  · simp_all
  · split
    · simp_all
    · simp_all

/-- No watchdog came behind the test. -/
def Decision.Unwatched (d : Decision) : Prop :=
  d.watchedAtReset = false ∧ d.watchedAtDecode = false

/-- What the callback decides, by the flags and the mark of the reset that it finds. -/
inductive Decides (f : DecodeFlags) (due hasIdr : Bool) (d : Decision) : Prop where
  | damaged (corrupt : f.currentFrameIsCorrupt = true) (fate : d.fate = .damaged)
      (asked : d.asked = [.force]) (resetNeeded : d.hwResetNeeded = due)
      (refs : d.flags.refsCorrupted = true) (unwatched : d.Unwatched)
  | paused (corrupt : f.currentFrameIsCorrupt = false) (paused : f.decodePaused = true)
      (fate : d.fate = .paused) (asked : d.asked = []) (resetNeeded : d.hwResetNeeded = true)
      (refs : d.flags.refsCorrupted = f.refsCorrupted) (unwatched : d.Unwatched)
  | awaitsIdr (corrupt : f.currentFrameIsCorrupt = false) (paused : f.decodePaused = false)
      (idr : hasIdr = false) (broken : f.refsCorrupted = true ∨ due = true)
      (fate : d.fate = .awaitsIdr) (asked : d.asked = [.startup])
      (resetNeeded : d.hwResetNeeded = due)
      (refs : d.flags.refsCorrupted = f.refsCorrupted) (unwatched : d.Unwatched)
  | resetFailed (corrupt : f.currentFrameIsCorrupt = false) (paused : f.decodePaused = false)
      (idr : hasIdr = true) (due : due = true) (fate : d.fate = .resetFailed)
      (asked : d.asked = []) (resetNeeded : d.hwResetNeeded = true)
      (refs : d.flags.refsCorrupted = false) (watched : d.watchedAtDecode = false)
  | reset (corrupt : f.currentFrameIsCorrupt = false) (paused : f.decodePaused = false)
      (idr : hasIdr = true) (due : due = true) (result : ℤ)
      (fate : d.fate = .submitted true result)
      (asked : d.asked = .force :: askedAfter result)
      (resetNeeded : d.hwResetNeeded = (d.watchedAtDecode || decide (result < 0)))
      (refs : d.flags.refsCorrupted = decide (result = profileChangeRequired))
  | direct (corrupt : f.currentFrameIsCorrupt = false) (paused : f.decodePaused = false)
      (due : due = false) (idr : f.refsCorrupted = true → hasIdr = true) (result : ℤ)
      (fate : d.fate = .submitted false result) (asked : d.asked = askedAfter result)
      (resetNeeded : d.hwResetNeeded = (d.watchedAtDecode || decide (result < 0)))
      (refs : d.flags.refsCorrupted = decide (result = profileChangeRequired))
      (watched : d.watchedAtReset = false)

theorem submitNal_spec (hp : Playing p) (hf : f.refsCorrupted = false) (nal : List UInt8)
    (hasIdr afterReset : Bool) (a : CallbackAnswers) :
    ∃ d result, submitNal f p nal hasIdr afterReset a = some d ∧ Playing d.player ∧
      d.fate = .submitted afterReset result ∧
      d.asked = (if afterReset then [.force] else []) ++ askedAfter result ∧
      d.hwResetNeeded = (d.watchedAtDecode || decide (result < 0)) ∧
      d.flags.refsCorrupted = decide (result = profileChangeRequired) ∧
      d.watchedAtReset = (afterReset && a.watchdogAtReset) := by
  obtain ⟨r, hr, hplaying, -⟩ := decode_spec hp (some nal) a.decode
  refine ⟨_, r.result, by rw [submitNal, hr]; rfl, hplaying, rfl, rfl, rfl, ?_, rfl⟩
  exact note_refsCorrupted hf r.result

theorem decideNal_spec (hp : Playing s.player) (nal : List UInt8) (hasIdr : Bool)
    (a : CallbackAnswers) :
    ∃ d, decideNal s nal hasIdr a = some d ∧ Playing d.player ∧
      Decides s.flags s.hwResetNeeded hasIdr d := by
  rw [decideNal]
  dsimp only
  split
  · rename_i hcorrupt
    exact ⟨_, rfl, hp, .damaged hcorrupt rfl rfl rfl rfl ⟨rfl, rfl⟩⟩
  rename_i hcorrupt
  rw [Bool.not_eq_true] at hcorrupt
  split
  · rename_i hpaused
    exact ⟨_, rfl, hp, .paused hcorrupt hpaused rfl rfl rfl rfl ⟨rfl, rfl⟩⟩
  rename_i hpaused
  rw [Bool.not_eq_true] at hpaused
  split
  · rename_i hrefs
    have hidr : hasIdr = false := by simpa using hrefs.2
    exact ⟨_, rfl, hp,
      .awaitsIdr hcorrupt hpaused hidr (.inl hrefs.1) rfl rfl rfl rfl ⟨rfl, rfl⟩⟩
  rename_i hrefs
  have hneed : s.flags.refsCorrupted = true → hasIdr = true := by simpa using hrefs
  -- From here on the references count as sound.
  generalize hf : (if s.flags.refsCorrupted = true then
    DecodeFlags.resync _ false else _) = f
  have hsound : f.refsCorrupted = false := by
    rw [← hf]
    split
    · rfl
    · rename_i hno
      simpa using hno
  split
  · rename_i hdue
    obtain ⟨d, result, hd, hplaying, hfate, hasked, hreset, hrefs, hwatched⟩ :=
      submitNal_spec hp hsound nal hasIdr false a
    exact ⟨d, hd, hplaying, .direct hcorrupt hpaused (by simpa using hdue) hneed result
      hfate hasked hreset hrefs hwatched⟩
  rename_i hdue
  have hdue : s.hwResetNeeded = true := by simpa using hdue
  split
  · rename_i hidr
    have hidr : hasIdr = false := by simpa using hidr
    have hwhole : s.flags.refsCorrupted = false := by
      by_contra hbroken
      exact absurd (hneed (by simpa using hbroken)) (by simp [hidr])
    exact ⟨_, rfl, hp, .awaitsIdr hcorrupt hpaused hidr (.inr hdue) rfl rfl hdue.symm
      (hsound.trans hwhole.symm) ⟨rfl, rfl⟩⟩
  · rename_i hidr
    have hidr : hasIdr = true := by simpa using hidr
    have hreset := reset_playing hp a.lock a.close a.reopen
    rw [resetAndSubmit]
    split
    · exact ⟨_, rfl, hreset,
        .resetFailed hcorrupt hpaused hidr hdue rfl rfl rfl hsound rfl⟩
    · obtain ⟨d, result, hd, hplaying, hfate, hasked, hneeded, hrefs, -⟩ :=
        submitNal_spec hreset
          (f := { f with refsCorrupted := false, idrFullyDecoded := false }) rfl nal hasIdr true
          a
      exact ⟨d, hd, hplaying,
        .reset hcorrupt hpaused hidr hdue result hfate hasked hneeded hrefs⟩

/-! ## The flags remember the log -/

/-- The flags tell what is broken, and the law was kept so far. -/
structure Remembers (s : DecodePath) : Prop where
  playing : Playing s.player
  session : s.hwResetNeeded = true ↔ SessionBroken s.log
  refs : s.flags.refsCorrupted = true ↔ RefsBroken s.log
  law : Always PathLaw s.log

theorem remembers_start : Remembers .start where
  playing := playing_start
  session := iff_of_false Bool.false_ne_true not_pending_nil
  refs := iff_of_false Bool.false_ne_true not_pending_nil
  law := always_nil

variable {log : List GateEvent} {d : Delivery} {due : Bool} {e : Decision}

theorem sessionBroken_watchdogIf (came : Bool) :
    SessionBroken (log ++ watchdogIf came) ↔ came = true ∨ SessionBroken log := by
  cases came with
  | false => simp [watchdogIf]
  | true => simp [watchdogIf, SessionBroken, pending_snoc, GateEvent.BreaksSession]

theorem refsBroken_watchdogIf (came : Bool) :
    RefsBroken (log ++ watchdogIf came) ↔ RefsBroken log := by
  cases came with
  | false => simp [watchdogIf]
  | true => exact pending_of_neutral id id

theorem pathLaw_watchdogIf (h : Always PathLaw log) (came : Bool) :
    Always PathLaw (log ++ watchdogIf came) := by
  cases came with
  | false => rwa [watchdogIf, if_neg Bool.false_ne_true, List.append_nil]
  | true => exact h.snoc trivial

theorem Decides.session (h : Decides f due hasIdr e) (hdue : due = true ↔ SessionBroken log) :
    e.hwResetNeeded = true ↔
      SessionBroken (log ++ watchdogIf e.watchedAtReset ++
        [.delivered (e.delivery f nal hasIdr)] ++ watchdogIf e.watchedAtDecode) := by
  rw [sessionBroken_watchdogIf, SessionBroken, pending_snoc, ← SessionBroken,
    sessionBroken_watchdogIf, ← hdue]
  cases h with
  | damaged corrupt fate asked resetNeeded refs unwatched =>
      simp [GateEvent.BreaksSession, GateEvent.EndsBreak, Decision.delivery, fate,
        resetNeeded, unwatched.1, unwatched.2]
  | paused corrupt paused fate asked resetNeeded refs unwatched =>
      simp [GateEvent.BreaksSession, GateEvent.EndsBreak, Decision.delivery, fate,
        resetNeeded]
  | awaitsIdr corrupt paused idr broken fate asked resetNeeded refs unwatched =>
      simp [GateEvent.BreaksSession, GateEvent.EndsBreak, Decision.delivery, fate,
        resetNeeded, unwatched.1, unwatched.2]
  | resetFailed corrupt paused idr due fate asked resetNeeded refs watched =>
      simp [GateEvent.BreaksSession, GateEvent.EndsBreak, Decision.delivery, fate,
        resetNeeded]
  | reset corrupt paused idr due result fate asked resetNeeded refs =>
      simp [GateEvent.BreaksSession, GateEvent.EndsBreak, Decision.delivery, fate,
        resetNeeded]
  | direct corrupt paused due idr result fate asked resetNeeded refs watched =>
      simp [GateEvent.BreaksSession, GateEvent.EndsBreak, Decision.delivery, fate,
        resetNeeded]

theorem Decides.refs (h : Decides f due hasIdr e)
    (hrefs : f.refsCorrupted = true ↔ RefsBroken log) :
    e.flags.refsCorrupted = true ↔
      RefsBroken (log ++ watchdogIf e.watchedAtReset ++
        [.delivered (e.delivery f nal hasIdr)] ++ watchdogIf e.watchedAtDecode) := by
  rw [refsBroken_watchdogIf, RefsBroken, pending_snoc, ← RefsBroken,
    refsBroken_watchdogIf, ← hrefs]
  cases h with
  | damaged corrupt fate asked resetNeeded refs unwatched =>
      simp [GateEvent.BreaksRefs, GateEvent.RestoresRefs, Decision.delivery, fate, refs]
  | paused corrupt paused fate asked resetNeeded refs unwatched =>
      simp [GateEvent.BreaksRefs, GateEvent.RestoresRefs, Decision.delivery, fate, refs]
  | awaitsIdr corrupt paused idr broken fate asked resetNeeded refs unwatched =>
      simp [GateEvent.BreaksRefs, GateEvent.RestoresRefs, Decision.delivery, fate, refs]
  | resetFailed corrupt paused idr due fate asked resetNeeded refs watched =>
      simp [GateEvent.BreaksRefs, GateEvent.RestoresRefs, Decision.delivery, fate, refs]
  | reset corrupt paused idr due result fate asked resetNeeded refs =>
      simp [GateEvent.BreaksRefs, GateEvent.RestoresRefs, Decision.delivery, fate, refs]
  | direct corrupt paused due idr result fate asked resetNeeded refs watched =>
      simp [GateEvent.BreaksRefs, GateEvent.RestoresRefs, Decision.delivery, fate, refs]

theorem Decides.law (h : Decides f due hasIdr e)
    (hdue : due = true ↔ SessionBroken log)
    (hrefs : f.refsCorrupted = true ↔ RefsBroken log) :
    DeliveryLaw (log ++ watchdogIf e.watchedAtReset) (e.delivery f nal hasIdr) := by
  have hrefs' : RefsBroken (log ++ watchdogIf e.watchedAtReset) ↔ RefsBroken log :=
    refsBroken_watchdogIf _
  have hsession : SessionBroken (log ++ watchdogIf e.watchedAtReset) ↔
      e.watchedAtReset = true ∨ SessionBroken log := sessionBroken_watchdogIf _
  cases h with
  | damaged corrupt fate asked resetNeeded refs unwatched =>
      constructor <;> simp [Decision.delivery, fate, asked, corrupt]
  | paused corrupt paused fate asked resetNeeded refs unwatched =>
      constructor <;> simp [Decision.delivery, fate, asked, corrupt, paused]
  | awaitsIdr corrupt paused idr broken fate asked resetNeeded refs unwatched =>
      rw [hrefs, hdue] at broken
      constructor <;> simp [Decision.delivery, fate, asked, corrupt, paused, idr, hrefs',
        hsession]
      · tauto
      · tauto
  | resetFailed corrupt paused idr due fate asked resetNeeded refs watched =>
      have hbroken := hsession.mpr (.inr (hdue.mp due))
      constructor <;> simp [Decision.delivery, fate, asked, corrupt, paused, idr, hbroken]
  | reset corrupt paused idr due result fate asked resetNeeded refs =>
      have hbroken := hsession.mpr (.inr (hdue.mp due))
      constructor <;> simp [Decision.delivery, fate, asked, corrupt, paused, idr, hbroken]
  | direct corrupt paused due idr result fate asked resetNeeded refs watched =>
      have hwhole : ¬ SessionBroken (log ++ watchdogIf e.watchedAtReset) := by
        rw [hsession, watched, ← hdue, due]
        simp
      rw [hrefs] at idr
      constructor <;>
        simp [Decision.delivery, fate, asked, corrupt, paused, hwhole, hrefs',
          askedAfter_eq_nil_iff]
      · intro hno hbroken
        exact absurd (idr hbroken) (by simp [hno])
      · exact idr

theorem callback_remembers (h : Remembers s) (nal : List UInt8) (a : CallbackAnswers) :
    ∃ t, rtpFrameCompleteCallback s nal a = some t ∧ Remembers t := by
  rw [rtpFrameCompleteCallback]
  split
  · exact ⟨_, rfl, h.playing, h.session, h.refs, h.law⟩
  · obtain ⟨headers, hheaders⟩ := nalScanHeaders_total nal
    obtain ⟨d, hd, hplaying, hdecides⟩ := decideNal_spec h.playing nal headers.1 a
    have hunit : PathLaw (s.log ++ watchdogIf d.watchedAtReset)
        (.delivered (d.delivery s.flags nal headers.1)) := hdecides.law h.session h.refs
    have hlaw := (pathLaw_watchdogIf h.law d.watchedAtReset).snoc hunit
    rw [hheaders, Option.bind_eq_bind, Option.bind_some, hd, Option.bind_eq_bind,
      Option.bind_some]
    exact ⟨_, rfl, hplaying, hdecides.session h.session, hdecides.refs h.refs,
      pathLaw_watchdogIf hlaw _⟩

theorem calls_playing (hp : Playing p) (calls : List PlayerCall) :
    ∃ q, p.calls calls = some q ∧ Playing q := by
  induction calls generalizing p with
  | nil => exact ⟨p, rfl, hp⟩
  | cons c calls ih =>
      obtain ⟨r, hr, hplaying, -⟩ := call_playing hp c
      obtain ⟨q, hq, hlast⟩ := ih hplaying
      refine ⟨q, ?_, hlast⟩
      rw [Player.calls, hr]
      exact hq

theorem step_remembers (h : Remembers s) (i : PathStep) :
    ∃ t, s.step i = some t ∧ Remembers t := by
  cases i with
  | unit nal a => exact callback_remembers h nal a
  | others flags calls =>
      obtain ⟨q, hq, hplaying⟩ := calls_playing h.playing calls
      have hmarked : PathLaw s.log (.marked flags.refsCorrupted) := trivial
      refine ⟨_, by rw [DecodePath.step, hq]; rfl, hplaying, ?_, ?_, h.law.snoc hmarked⟩
      · exact h.session.trans (pending_of_neutral id id).symm
      · rw [RefsBroken, pending_snoc]
        simp +contextual [GateEvent.BreaksRefs, GateEvent.RestoresRefs]
  | watchdog =>
      refine ⟨_, rfl, h.playing, ?_, ?_, h.law.snoc trivial⟩
      · exact iff_of_true rfl (pending_of_raises trivial)
      · exact h.refs.trans (pending_of_neutral id id).symm
  | start =>
      refine ⟨_, rfl, h.playing, ?_, ?_, h.law.snoc trivial⟩
      · exact iff_of_false Bool.false_ne_true (not_pending_of_settles id trivial)
      · exact h.refs.trans (pending_of_neutral id id).symm

theorem run_remembers (h : Remembers s) (steps : List PathStep) :
    ∃ t, s.run steps = some t ∧ Remembers t := by
  induction steps generalizing s with
  | nil => exact ⟨s, rfl, h⟩
  | cons i steps ih =>
      obtain ⟨t, ht, hnext⟩ := step_remembers h i
      obtain ⟨u, hu, hlast⟩ := ih hnext
      refine ⟨u, ?_, hlast⟩
      rw [DecodePath.run, ht]
      exact hu

/-- In every run of the decoder, with other code between the units, the watchdog at any
time and any starts, no access is outside of a buffer, and the fate of each unit is
settled by what is broken in the log. -/
theorem decode_gate_exact (steps : List PathStep) :
    ∃ t, DecodePath.start.run steps = some t ∧ Always PathLaw t.log := by
  obtain ⟨t, ht, hlast⟩ := run_remembers remembers_start steps
  exact ⟨t, ht, hlast.law⟩

/-! ## Behind a break -/

/-- A unit that the player got, and did not refuse, behind a reset and with an IDR. -/
def GateEvent.Reseeds : GateEvent → Prop
  | .delivered d => d.hasIdr = true ∧ ∃ result, d.fate = .submitted true result ∧ 0 ≤ result
  | _ => False

theorem reseeds_of_pending {before after : List GateEvent} {c : GateEvent}
    (hlaw : Always PathLaw (before ++ c :: after)) (hsubmits : c.EndsBreak)
    (hrunning : c ≠ .started) (hbroken : SessionBroken before)
    (hkept : ¬ c.BreaksSession) : c.Reseeds := by
  cases c with
  | marked refsCorrupted => exact hsubmits.elim
  | watchdog => exact hsubmits.elim
  | started => exact absurd rfl hrunning
  | delivered d =>
      have hd : DeliveryLaw before d := hlaw before (.delivered d) after rfl
      obtain ⟨afterReset, result, hfate⟩ := hsubmits
      cases afterReset with
      | false => exact absurd hbroken (hd.direct.mp ⟨result, hfate⟩).2.2.1
      | true =>
          refine ⟨(hd.reset.mp (.inr ⟨result, hfate⟩)).2.2.1, result, hfate, ?_⟩
          by_contra hnegative
          exact hkept (.inr (.inr ⟨true, result, hfate, not_le.mp hnegative⟩))

/-- When nothing is broken any more, and the decoder was not started again, a reset and
an IDR came behind the break. -/
theorem exists_reseeds {before after : List GateEvent} {b : GateEvent}
    (hlaw : Always PathLaw (before ++ b :: after)) (hbreaks : b.BreaksSession)
    (hrunning : .started ∉ after) (hwhole : ¬ SessionBroken (before ++ b :: after)) :
    ∃ c ∈ after, c.Reseeds := by
  induction hlen : after.length using Nat.strong_induction_on generalizing before b after with
  | _ n ih =>
      obtain ⟨between, c, later, rfl, hsubmits, hbroken⟩ :=
        exists_first_settles hwhole hbreaks
      have hsplit : before ++ b :: (between ++ c :: later) =
          (before ++ b :: between) ++ c :: later := by simp
      rw [hsplit] at hlaw hwhole
      simp only [List.mem_append, List.mem_cons, not_or] at hrunning
      by_cases hagain : c.BreaksSession
      · obtain ⟨c', hmem, hreseeds⟩ := ih later.length (by simp [← hlen]; omega) hlaw
          hagain hrunning.2.2 hwhole rfl
        exact ⟨c', by simp [hmem], hreseeds⟩
      · exact ⟨c, by simp,
          reseeds_of_pending hlaw hsubmits (Ne.symm hrunning.2.1) hbroken hagain⟩

/-- Between a break of the session and a unit that goes to the player without a reset,
within one start of the decoder, the player was reset and took a unit with an IDR. -/
def ReseedLaw (before : List GateEvent) : GateEvent → Prop
  | .delivered d => (∃ result, d.fate = .submitted false result) →
      ∀ earlier b between, before = earlier ++ b :: between → b.BreaksSession →
        .started ∉ between → ∃ c ∈ between, c.Reseeds
  | _ => True

theorem reseedLaw_of_pathLaw {log : List GateEvent} (hlaw : Always PathLaw log) :
    Always ReseedLaw log := by
  intro before e after hlog
  cases e with
  | marked refsCorrupted => trivial
  | watchdog => trivial
  | started => trivial
  | delivered d =>
      rintro hdirect earlier b between rfl hbreaks hrunning
      have hd : DeliveryLaw (earlier ++ b :: between) d := hlaw _ _ _ hlog
      rw [hlog] at hlaw
      exact exists_reseeds hlaw.of_append hbreaks hrunning (hd.direct.mp hdirect).2.2.1

/-- In every run of the decoder, what goes to the player without a reset has no break of
the session behind the last reset, within one start of the decoder. -/
theorem decode_gate_reseeds (steps : List PathStep) :
    ∃ t, DecodePath.start.run steps = some t ∧ Always ReseedLaw t.log := by
  obtain ⟨t, ht, hlast⟩ := run_remembers remembers_start steps
  exact ⟨t, ht, reseedLaw_of_pathLaw hlast.law⟩

end MoonlightPsp.Avc
