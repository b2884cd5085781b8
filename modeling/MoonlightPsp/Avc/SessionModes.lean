import Mathlib.Data.List.Induction
import Mathlib.Tactic.Common
import MoonlightPsp.Avc.Session

/-!
# What a session owns and the mode of the Media Engine

Over every run of open, close and switch, whatever the firmware returns, each
resource is released once for each time it was acquired, and a close that
returns 0 leaves none.  The flag that notes that the Media Engine is in mode 4
is lost in two cases, and only in these.
-/

namespace MoonlightPsp.Avc

open EarlyExit EventLog

/-! ## Accounting for the resources -/

/-- Whether a resource is held after one more event. -/
def FirmwareEvent.holds (r : Resource) (old : Bool) : FirmwareEvent → Bool
  | .acquired r' => if r = r' then true else old
  | .released r' => if r = r' then false else old

/-- Whether a resource is held after these events. -/
def holdsAfter (log : List FirmwareEvent) (r : Resource) : Bool :=
  log.foldl (fun old e => e.holds r old) false

theorem holdsAfter_snoc (log : List FirmwareEvent) (e : FirmwareEvent)
    (r : Resource) : holdsAfter (log ++ [e]) r = e.holds r (holdsAfter log r) := by
  simp [holdsAfter]

/-- A resource is acquired only if it is not held, and released only if it is. -/
def HandledOnce (before : List FirmwareEvent) (e : FirmwareEvent) : Prop :=
  ∀ r, (e = .acquired r → holdsAfter before r = false) ∧
    (e = .released r → holdsAfter before r = true)

/-- The session notes what it holds. -/
structure Sound (w : Firmware) : Prop where
  owns : ∀ r, w.session.owns r = holdsAfter w.log r
  once : Always HandledOnce w.log
  loaded : w.session.owns .vshStarted = true →
    w.session.owns .vshLoaded = true

theorem sound_start : Sound .start :=
  ⟨fun _ => rfl, always_nil, fun h => Bool.noConfusion h⟩

variable {w t : Firmware}

theorem Sound.of_same (h : Sound w) (howns : t.session.owns = w.session.owns)
    (hlog : t.log = w.log) : Sound t :=
  ⟨fun r => by rw [howns, hlog]; exact h.owns r, hlog ▸ h.once,
    by rw [howns]; exact h.loaded⟩

theorem owns_acquire (w : Firmware) (r r' : Resource) :
    (w.acquire r).session.owns r' = (decide (r' = r) || w.session.owns r') := by
  rw [Firmware.acquire]
  by_cases h : r' = r <;> simp [h]

theorem owns_release (w : Firmware) (r r' : Resource) :
    (w.release r).session.owns r' =
      (!decide (r' = r) && w.session.owns r') := by
  rw [Firmware.release]
  split
  · by_cases h : r' = r <;> simp [h]
  · by_cases h : r' = r
    · subst h
      rename_i hnot
      simpa using hnot
    · simp [h]

theorem Sound.acquire (h : Sound w) {r : Resource}
    (hr : w.session.owns r = false)
    (hloaded : r = .vshStarted → w.session.owns .vshLoaded = true) :
    Sound (w.acquire r) where
  owns := fun r' => by
    rw [owns_acquire, h.owns r']
    change _ = holdsAfter (w.log ++ [.acquired r]) r'
    rw [holdsAfter_snoc, FirmwareEvent.holds]
    by_cases heq : r' = r <;> simp [heq]
  once := by
    refine h.once.snoc fun r' => ⟨fun he => ?_, fun he => ?_⟩
    · cases he
      rw [← h.owns]
      exact hr
    · cases he
  loaded := by
    rw [owns_acquire, owns_acquire]
    intro hstarted
    rw [Bool.or_eq_true] at hstarted ⊢
    refine .inr (hstarted.elim (fun heq => hloaded ?_) h.loaded)
    exact (of_decide_eq_true heq).symm

theorem Sound.release (h : Sound w) {r : Resource}
    (hr : r = .vshLoaded → w.session.owns .vshStarted = false) :
    Sound (w.release r) where
  owns := fun r' => by
    rw [owns_release, h.owns r', Firmware.release]
    split
    · change _ = holdsAfter (w.log ++ [.released r]) r'
      rw [holdsAfter_snoc, FirmwareEvent.holds]
      by_cases heq : r' = r <;> simp [heq]
    · rename_i hnot
      by_cases heq : r' = r
      · subst heq
        rw [h.owns] at hnot
        simpa using hnot
      · simp [heq]
  once := by
    rw [Firmware.release]
    split
    · rename_i howns
      refine h.once.snoc fun r' => ⟨fun he => ?_, fun he => ?_⟩
      · cases he
      · cases he
        rw [← h.owns]
        exact howns
    · exact h.once
  loaded := by
    rw [owns_release, owns_release]
    intro hstarted
    rw [Bool.and_eq_true] at hstarted ⊢
    refine ⟨?_, h.loaded hstarted.2⟩
    by_contra heq
    have hloaded : Resource.vshLoaded = r := by simpa using heq
    have hstill := hr hloaded.symm
    rw [hstarted.2] at hstill
    exact Bool.noConfusion hstill

@[simp] theorem release_bootedMode (w : Firmware) (r : Resource) :
    (w.release r).bootedMode = w.bootedMode := by
  rw [Firmware.release]
  split <;> rfl

@[simp] theorem release_baselineBooted (w : Firmware) (r : Resource) :
    (w.release r).session.baselineBooted = w.session.baselineBooted := by
  rw [Firmware.release]
  split <;> rfl

@[simp] theorem release_contextUid (w : Firmware) (r : Resource) :
    (w.release r).session.contextUid = w.session.contextUid := by
  rw [Firmware.release]
  split <;> rfl

/-! ## Closing -/

/-- A state on the way of a close from `w`: the resources of the list are gone,
the others are as they were. -/
structure Closing (w : Firmware) (mode : Option ℕ) (flag : Bool)
    (l : List Resource) (t : Firmware) : Prop where
  sound : Sound t
  mode : t.bootedMode = mode
  flag : t.session.baselineBooted = flag
  gone : ∀ r ∈ l, t.session.owns r = false
  rest : ∀ r ∉ l, t.session.owns r = w.session.owns r
  uid : t.session.contextUid = w.session.contextUid

variable {mode : Option ℕ} {flag : Bool} {l : List Resource}

theorem Closing.release (h : Closing w mode flag l t) (r : Resource)
    (hr : r = .vshLoaded → .vshStarted ∈ l) :
    Closing w mode flag (r :: l) (t.release r) where
  sound := h.sound.release fun heq => h.gone _ (hr heq)
  mode := by rw [release_bootedMode, h.mode]
  flag := by rw [release_baselineBooted, h.flag]
  gone := fun r' hmem => by
    rw [owns_release]
    rcases List.mem_cons.mp hmem with rfl | hmem
    · simp
    · simp [h.gone r' hmem]
  rest := fun r' hmem => by
    rw [List.mem_cons, not_or] at hmem
    rw [owns_release, h.rest r' hmem.2]
    simp [hmem.1]
  uid := by rw [release_contextUid, h.uid]

/-- What a stage that gives a resource back does. -/
theorem Closing.giveBack (h : Closing w mode flag l t) {r : Resource}
    (result : ℤ) (hnew : r ∉ l) (hr : r = .vshLoaded → .vshStarted ∈ l) :
    Ends (fun e => e.1 < 0 ∧ (w.session.owns r = true ∧ result < 0) ∧
        ∃ l, Closing w mode flag l e.2)
      (fun t => ¬(w.session.owns r = true ∧ result < 0) ∧
        Closing w mode flag (r :: l) t)
      (Firmware.giveBack r result t) := by
  rw [Firmware.giveBack, h.rest r hnew]
  refine ends_guard (fun hfail => ⟨hfail.2, hfail, l, h⟩) fun hgo => ?_
  exact ends_ok ⟨hgo, h.release r hr⟩

/-- Whether every call that the close makes succeeds. -/
def closes (s : PspAvcSession) (restoreMode : Bool) (a : CloseAnswers) : Prop :=
  ¬((restoreMode = true ∧ s.baselineBooted = true) ∧ a.boot < 0) ∧
  ¬(s.owns .helperStarted = true ∧
    stopResult a.stopHelper a.helperStatus < 0) ∧
  ¬(s.owns .helperLoaded = true ∧ a.unloadHelper < 0) ∧
  ¬(s.owns .vshStarted = true ∧ stopResult a.stopVsh a.vshStatus < 0) ∧
  ¬(s.owns .vshLoaded = true ∧ a.unloadVsh < 0) ∧
  ¬(s.owns .avcodec = true ∧ a.unloadAv < 0) ∧
  ¬(s.owns .context = true ∧
    pspAvcReleaseAligned s.contextUid a.freeContext < 0)

/-- The mode after the switch in a close. -/
def restoredMode (w : Firmware) (restoreMode : Bool) : Option ℕ :=
  if restoreMode = true ∧ w.session.baselineBooted = true then some 3
  else w.bootedMode

/-- The flag after the switch in a close. -/
def restoredFlag (w : Firmware) (restoreMode : Bool) : Bool :=
  w.session.baselineBooted && !restoreMode

/-- A close ends either before or after the switch of the mode. -/
def Restoring (w : Firmware) (restoreMode : Bool) (t : Firmware) : Prop :=
  t.bootedMode = w.bootedMode ∧
      t.session.baselineBooted = w.session.baselineBooted ∨
    t.bootedMode = restoredMode w restoreMode ∧
      t.session.baselineBooted = restoredFlag w restoreMode

theorem Closing.restoreMode (h : Closing w w.bootedMode
      w.session.baselineBooted l t) (restoreMode : Bool) (r : ℤ) :
    Ends (fun e => e.1 < 0 ∧
        ((restoreMode = true ∧ w.session.baselineBooted = true) ∧ r < 0) ∧
        Closing w w.bootedMode w.session.baselineBooted l e.2)
      (fun t =>
        ¬((restoreMode = true ∧ w.session.baselineBooted = true) ∧ r < 0) ∧
        Closing w (restoredMode w restoreMode) (restoredFlag w restoreMode) l t)
      (Firmware.restoreMode restoreMode r t) := by
  rw [Firmware.restoreMode, h.flag]
  split
  · rename_i hboot
    refine ends_guard (fun hr => ⟨hr, ⟨hboot, hr⟩, h⟩) fun hr => ?_
    refine ends_ok ⟨fun hfail => hr hfail.2, ?_⟩
    have hbooted : t.boot 3 r = { t with bootedMode := some 3 } := by
      rw [Firmware.boot, if_neg hr]
    rw [hbooted, restoredMode, if_pos hboot, restoredFlag, hboot.1, hboot.2]
    exact ⟨h.sound.of_same rfl rfl, rfl, rfl, h.gone, h.rest, h.uid⟩
  · rename_i hnot
    refine ends_ok ⟨fun hfail => hnot hfail.1, ?_⟩
    rw [restoredMode, if_neg hnot, restoredFlag]
    refine ⟨h.sound, h.mode, h.flag.trans ?_, h.gone, h.rest, h.uid⟩
    cases hflag : w.session.baselineBooted <;> cases restoreMode <;>
      simp_all

/-- What a close does up to its result. -/
theorem closeStages_spec (hs : Sound w) (restoreMode : Bool)
    (a : CloseAnswers) :
    Ends (fun e => e.1 < 0 ∧ ¬closes w.session restoreMode a ∧ Sound e.2 ∧
        Restoring w restoreMode e.2)
      (fun t => closes w.session restoreMode a ∧ Sound t ∧
        (∀ r, t.session.owns r = false) ∧
        t.bootedMode = restoredMode w restoreMode)
      (closeStages restoreMode a w) := by
  have hlater : ∀ e : ℤ × Firmware, (∃ l, Closing w (restoredMode w restoreMode)
      (restoredFlag w restoreMode) l e.2) →
        Sound e.2 ∧ Restoring w restoreMode e.2 :=
    fun e ⟨_, h⟩ => ⟨h.sound, .inr ⟨h.mode, h.flag⟩⟩
  have hstart : Closing w w.bootedMode w.session.baselineBooted []
      { w with session.ready := false } :=
    ⟨hs.of_same rfl rfl, rfl, rfl, by simp, fun _ _ => rfl, rfl⟩
  have hdeleted := (hstart.release .created (fun h => by cases h)).release
    .initialized fun h => by cases h
  rw [closeStages]
  refine .bind ((hdeleted.restoreMode restoreMode a.boot).mono ?_
    fun _ h => h) fun _ ⟨hboot, h⟩ => ?_
  · rintro e ⟨hneg, hfail, h⟩
    exact ⟨hneg, fun hc => hc.1 hfail, h.sound, .inl ⟨h.mode, h.flag⟩⟩
  refine .bind ((h.giveBack _ (by simp) (fun h => by cases h)).mono ?_
    fun _ h => h) fun _ ⟨hhelper, h⟩ => ?_
  · rintro e ⟨hneg, hfail, h⟩
    exact ⟨hneg, fun hc => hc.2.1 hfail, hlater e h⟩
  refine .bind ((h.giveBack _ (by simp) (fun h => by cases h)).mono ?_
    fun _ h => h) fun _ ⟨hunload, h⟩ => ?_
  · rintro e ⟨hneg, hfail, h⟩
    exact ⟨hneg, fun hc => hc.2.2.1 hfail, hlater e h⟩
  refine .bind ((h.giveBack _ (by simp) (fun h => by cases h)).mono ?_
    fun _ h => h) fun _ ⟨hstop, h⟩ => ?_
  · rintro e ⟨hneg, hfail, h⟩
    exact ⟨hneg, fun hc => hc.2.2.2.1 hfail, hlater e h⟩
  refine .bind ((h.giveBack _ (by simp) (fun _ => by simp)).mono ?_
    fun _ h => h) fun _ ⟨hvsh, h⟩ => ?_
  · rintro e ⟨hneg, hfail, h⟩
    exact ⟨hneg, fun hc => hc.2.2.2.2.1 hfail, hlater e h⟩
  refine .bind ((h.giveBack _ (by simp) (fun h => by cases h)).mono ?_
    fun _ h => h) fun _ ⟨hav, h⟩ => ?_
  · rintro e ⟨hneg, hfail, h⟩
    exact ⟨hneg, fun hc => hc.2.2.2.2.2.1 hfail, hlater e h⟩
  rw [Firmware.freeContext, h.uid]
  refine .bind ((h.giveBack _ (by simp) (fun h => by cases h)).mono ?_
    fun _ h => h) fun _ ⟨hcontext, h⟩ => ?_
  · rintro e ⟨hneg, hfail, h⟩
    exact ⟨hneg, fun hc => hc.2.2.2.2.2.2 hfail, hlater e h⟩
  have hdone := h.release .ddr fun h => by cases h
  refine ends_ok ⟨⟨hboot, hhelper, hunload, hstop, hvsh, hav, hcontext⟩,
    hdone.sound, fun r => hdone.gone r ?_, hdone.mode⟩
  cases r <;> simp

/-- What a close does. -/
theorem close_spec (hs : Sound w) (restoreMode : Bool) (a : CloseAnswers) :
    let r := pspAvcSessionCloseInternal w restoreMode a
    Sound r.2 ∧
      (closes w.session restoreMode a ∧ r.1 = 0 ∧ r.2.session = .zero ∧
          r.2.bootedMode = restoredMode w restoreMode ∨
        ¬closes w.session restoreMode a ∧ r.1 < 0 ∧
          Restoring w restoreMode r.2) := by
  have h := closeStages_spec hs restoreMode a
  rw [pspAvcSessionCloseInternal]
  cases hstages : closeStages restoreMode a w with
  | error e =>
      rw [hstages] at h
      exact ⟨h.2.2.1, .inr ⟨h.2.1, h.1, h.2.2.2⟩⟩
  | ok t =>
      rw [hstages] at h
      obtain ⟨hcloses, hsound, hgone, hmode⟩ := h
      refine ⟨hsound.of_same ?_ rfl, .inl ⟨hcloses, rfl, rfl, hmode⟩⟩
      funext r
      exact (hgone r).symm

/-! ## Opening -/

/-- The flag notes that the Media Engine is in mode 4. -/
def Tracked (w : Firmware) : Prop :=
  w.bootedMode = some 4 → w.session.baselineBooted = true

/-- A close loses track of no mode but the one that it was told to keep. -/
theorem close_tracked (hs : Sound w) (h : Tracked w) (a : CloseAnswers) :
    Tracked (pspAvcSessionClose w a).2 := by
  intro hfour
  rcases (close_spec hs true a).2 with ⟨-, -, -, hmode⟩ | ⟨-, -, hrest⟩
  · rw [pspAvcSessionClose, hmode, restoredMode] at hfour
    split at hfour
    · cases hfour
    · rename_i hnot
      exact absurd ⟨rfl, h hfour⟩ hnot
  · rw [pspAvcSessionClose] at hfour ⊢
    rcases hrest with ⟨hmode, hflag⟩ | ⟨hmode, hflag⟩
    · rw [hflag]
      exact h (hmode ▸ hfour)
    · rw [hmode, restoredMode] at hfour
      split at hfour
      · cases hfour
      · rename_i hnot
        exact absurd ⟨rfl, h hfour⟩ hnot

/-- Without the flag a close leaves the mode as it is. -/
theorem close_mode_of_flag (hs : Sound w)
    (h : w.session.baselineBooted = false) (a : CloseAnswers) :
    (pspAvcSessionClose w a).2.bootedMode = w.bootedMode ∧
      (pspAvcSessionClose w a).2.session.baselineBooted = false := by
  have hmode : restoredMode w true = w.bootedMode := by
    simp [restoredMode, h]
  have hflag : restoredFlag w true = false := by simp [restoredFlag]
  rcases (close_spec hs true a).2 with ⟨-, -, hzero, hafter⟩ | ⟨-, -, hrest⟩
  · exact ⟨hafter.trans hmode, congrArg PspAvcSession.baselineBooted hzero⟩
  · rcases hrest with ⟨hafter, hb⟩ | ⟨hafter, hb⟩
    · exact ⟨hafter, hb.trans h⟩
    · exact ⟨hafter.trans hmode, hb.trans hflag⟩

/-- The calls of an open succeed up to the mode switch, and the switch too. -/
structure OpenAnswers.Boots (a : OpenAnswers) : Prop where
  loadAv : 0 ≤ a.loadAv
  loadVsh : 0 ≤ a.loadVsh
  startVsh : 0 ≤ a.startVsh
  startStatus : 0 ≤ a.startStatus
  fixup : 0 < a.fixup
  boot : 0 ≤ a.boot

/-- The priority of the caller is not given back after the mode switch. -/
def OpenAnswers.RestoreFails (a : OpenAnswers) : Prop :=
  a.changed = true ∧ a.restorePriority < 0

/-- The mode and the flag after an open. -/
def OpenMode (w : Firmware) (mainProfile : Bool) (a : OpenAnswers)
    (t : Firmware) : Prop :=
  (¬a.Boots ∧ t.bootedMode = w.bootedMode ∧
      t.session.baselineBooted = false) ∨
    (a.Boots ∧ a.RestoreFails ∧ t.bootedMode = some (bootModeOf mainProfile) ∧
      t.session.baselineBooted = false) ∨
    (a.Boots ∧ ¬a.RestoreFails ∧ Tracked t)

variable {mainProfile : Bool} {a : OpenAnswers}

theorem OpenMode.rollback (h : OpenMode w mainProfile a t) (ht : Sound t)
    (c : CloseAnswers) :
    OpenMode w mainProfile a (pspAvcSessionClose t c).2 := by
  rcases h with ⟨hboots, hmode, hflag⟩ | ⟨hboots, hfails, hmode, hflag⟩ |
    ⟨hboots, hfails, htracked⟩
  · obtain ⟨hmode', hflag'⟩ := close_mode_of_flag ht hflag c
    exact .inl ⟨hboots, hmode'.trans hmode, hflag'⟩
  · obtain ⟨hmode', hflag'⟩ := close_mode_of_flag ht hflag c
    exact .inr (.inl ⟨hboots, hfails, hmode'.trans hmode, hflag'⟩)
  · exact .inr (.inr ⟨hboots, hfails, close_tracked ht htracked c⟩)

/-- A state on the way of an open: the resources of the list are there, the
later ones are not yet. -/
structure Opening (mode : Option ℕ) (flag : Bool) (l : List Resource)
    (t : Firmware) : Prop where
  sound : Sound t
  mode : t.bootedMode = mode
  flag : t.session.baselineBooted = flag
  held : ∀ r ∈ l, t.session.owns r = true
  later : ∀ r ∉ l, r ≠ .helperStarted → t.session.owns r = false

theorem Opening.acquire (h : Opening mode flag l t) {r : Resource}
    (hr : r ∉ l) (hne : r ≠ .helperStarted)
    (hloaded : r = .vshStarted → .vshLoaded ∈ l) :
    Opening mode flag (r :: l) (t.acquire r) where
  sound := h.sound.acquire (h.later r hr hne) fun heq => h.held _ (hloaded heq)
  mode := h.mode
  flag := h.flag
  held := fun r' hmem => by
    rw [owns_acquire]
    rcases List.mem_cons.mp hmem with rfl | hmem
    · simp
    · simp [h.held r' hmem]
  later := fun r' hmem hne' => by
    rw [List.mem_cons, not_or] at hmem
    rw [owns_acquire, h.later r' hmem.2 hne']
    simp [hmem.1]

theorem ends_check {Q : ℤ × Firmware → Prop} {P : Firmware → Prop} {r : ℤ}
    (herror : r < 0 → Q (r, t)) (hgo : 0 ≤ r → P t) :
    Ends Q P (Firmware.check r t) := by
  rw [Firmware.check]
  exact ends_guard herror fun h => ends_ok (hgo (Int.not_lt.mp h))

/-- The modules are loaded, or the mode was not switched. -/
theorem loadStages_spec (h : Opening mode flag [.avcodec] t) :
    Ends (fun e => e.1 < 0 ∧ ¬a.Boots ∧ ∃ l, Opening mode flag l e.2)
      (fun t => (0 ≤ a.loadVsh ∧ 0 ≤ a.startVsh ∧ 0 ≤ a.startStatus ∧
          0 < a.fixup) ∧
        Opening mode flag [.vshStarted, .vshLoaded, .avcodec] t)
      (loadStages a t) := by
  rw [loadStages]
  refine .bind (P := fun u => 0 ≤ a.loadVsh ∧ u = t) (ends_check
    (fun hneg => ⟨hneg, fun hb => Int.not_lt.mpr hb.loadVsh hneg, _, h⟩)
    fun hvsh => ⟨hvsh, rfl⟩) ?_
  rintro u ⟨hvsh, rfl⟩
  have hload := h.acquire (r := .vshLoaded) (by simp) (by simp) (by simp)
  refine .bind (P := fun v => 0 ≤ a.startVsh ∧ v = u.acquire .vshLoaded)
    (ends_check
      (fun hneg => ⟨hneg, fun hb => Int.not_lt.mpr hb.startVsh hneg, _, hload⟩)
      fun hstart => ⟨hstart, rfl⟩) ?_
  rintro v ⟨hstart, rfl⟩
  have hstarted := hload.acquire (r := .vshStarted) (by simp) (by simp)
    (by simp)
  refine .bind (P := fun v => 0 ≤ a.startStatus ∧
      v = (u.acquire .vshLoaded).acquire .vshStarted)
    (ends_check (fun hneg =>
      ⟨hneg, fun hb => Int.not_lt.mpr hb.startStatus hneg, _, hstarted⟩)
      fun hstatus => ⟨hstatus, rfl⟩) ?_
  rintro v ⟨hstatus, rfl⟩
  refine ends_check (fun hneg => ⟨hneg, fun hb => ?_, _, hstarted⟩)
    fun hfixup => ⟨⟨hvsh, hstart, hstatus, ?_⟩, hstarted⟩
  · have := hb.fixup
    split at hneg <;> omega
  · split at hfixup <;> omega

/-- After a check has passed the state is as it was. -/
theorem bind_check {Q : ℤ × Firmware → Prop} {P : Firmware → Prop} {r : ℤ}
    {f : Stage} (herror : r < 0 → Q (r, t)) (hgo : Ends Q P (f t)) :
    Ends Q P (Firmware.check r t >>= f) :=
  .bind (P := fun u => u = t) (ends_check herror fun _ => rfl)
    fun _ hu => hu ▸ hgo

theorem Opening.of_uid (h : Opening mode flag l t) (uid : ℤ) :
    Opening mode flag l { t with session.contextUid := uid } :=
  ⟨h.sound.of_same rfl rfl, h.mode, h.flag, h.held, h.later⟩

/-- The MPEG context is created, or the open fails. -/
theorem createStages_spec
    (h : Opening mode flag [.vshStarted, .vshLoaded, .avcodec] t) :
    Ends (fun e => e.1 < 0 ∧ ∃ l, Opening mode flag l e.2)
      (fun u => (∃ l, Opening mode flag l u) ∧ u.session.ready = true ∧
        u.session.mainProfile = t.session.mainProfile)
      (createStages a t) := by
  rw [createStages]
  refine bind_check (fun hneg => ⟨hneg, _, h⟩) ?_
  have hinit := h.acquire (r := .initialized) (by simp) (by simp) (by simp)
  refine bind_check (fun hneg => ⟨hneg, _, hinit⟩) ?_
  have hddr := hinit.acquire (r := .ddr) (by simp) (by simp) (by simp)
  refine bind_check (fun hneg => ⟨hneg, _, hddr⟩) ?_
  have huid := hddr.of_uid ((pspAvcAllocateAligned a.context).getD (-1))
  refine bind_check (fun hneg => ⟨hneg, _, huid⟩) ?_
  have hcontext := huid.acquire (r := .context) (by simp) (by simp) (by simp)
  refine bind_check (fun hneg => ⟨hneg, _, hcontext⟩) ?_
  have hcreated := hcontext.acquire (r := .created) (by simp) (by simp) (by simp)
  refine bind_check (fun hneg => ⟨hneg, _, hcreated⟩) ?_
  refine bind_check (fun hneg => ⟨hneg, _, hcreated⟩) ?_
  exact ends_ok ⟨⟨_, hcreated.sound.of_same rfl rfl, hcreated.mode,
    hcreated.flag, hcreated.held, hcreated.later⟩, rfl, rfl⟩

/-- The mode is switched and noted, or the open fails. -/
theorem bootProfile_spec
    (h : Opening w.bootedMode false [.vshStarted, .vshLoaded, .avcodec] t)
    (hloads : 0 ≤ a.loadAv ∧ 0 ≤ a.loadVsh ∧ 0 ≤ a.startVsh ∧
      0 ≤ a.startStatus ∧ 0 < a.fixup) :
    Ends (fun e => e.1 < 0 ∧ Sound e.2 ∧ OpenMode w mainProfile a e.2)
      (fun u => Opening (some (bootModeOf mainProfile)) (!mainProfile)
          [.vshStarted, .vshLoaded, .avcodec] u ∧
        u.session.mainProfile = mainProfile ∧ a.Boots ∧ ¬a.RestoreFails)
      (Firmware.bootProfile mainProfile a t) := by
  obtain ⟨hav, hvsh, hstart, hstatus, hfixup⟩ := hloads
  simp only [Firmware.bootProfile]
  by_cases hboot : a.boot < 0
  · have hsame : t.boot (bootModeOf mainProfile) a.boot = t := by
      rw [Firmware.boot, if_pos hboot]
    have hresult : a.bootResult = a.boot := if_neg (by omega)
    rw [hresult, hsame, if_pos hboot]
    exact ends_error ⟨hboot, h.sound, .inl ⟨fun hb => by
      have := hb.boot
      omega, h.mode, h.flag⟩⟩
  · have hboots : a.Boots := ⟨hav, hvsh, hstart, hstatus, hfixup, by omega⟩
    have hbooted : t.boot (bootModeOf mainProfile) a.boot =
        { t with bootedMode := some (bootModeOf mainProfile) } := by
      rw [Firmware.boot, if_neg hboot]
    rw [hbooted]
    by_cases hfails : a.changed = true ∧ a.restorePriority < 0
    · have hresult : a.bootResult = a.restorePriority :=
        if_pos ⟨hfails.1, hfails.2, by omega⟩
      rw [hresult, if_pos hfails.2]
      exact ends_error ⟨hfails.2, h.sound.of_same rfl rfl,
        .inr (.inl ⟨hboots, hfails, rfl, h.flag⟩)⟩
    · have hresult : a.bootResult = a.boot :=
        if_neg fun hall => hfails ⟨hall.1, hall.2.1⟩
      rw [hresult, if_neg hboot]
      exact ends_ok ⟨⟨h.sound.of_same rfl rfl, rfl, rfl, h.held, h.later⟩, rfl,
        hboots, hfails⟩

theorem tracked_of_opening
    (h : Opening (some (bootModeOf mainProfile)) (!mainProfile) l t) :
    Tracked t := by
  intro hfour
  rw [h.mode] at hfour
  rw [h.flag]
  cases mainProfile with
  | false => rfl
  | true => exact absurd (Option.some.inj hfour) (by decide)

/-- The checks of an open leave nothing that is held, and the flag not set. -/
theorem opening_of_opens (hs : Sound w) {helperPath mainProfile : Bool}
    {version : UInt32}
    (hopens : opens w.session helperPath mainProfile version = true) :
    Opening w.bootedMode false [] { w with session.contextUid := -1 } := by
  simp only [opens, Bool.and_eq_true, Bool.not_eq_true'] at hopens
  obtain ⟨⟨⟨⟨⟨⟨⟨⟨⟨⟨⟨-, hcontext⟩, hddr⟩, hav⟩, hvsh⟩, hhelper⟩, hinit⟩,
    hcreated⟩, hready⟩, hflag⟩, hmain⟩, -⟩ := hopens
  refine ⟨hs.of_same rfl rfl, rfl, hflag, by simp, fun r _ hr => ?_⟩
  have hstarted : w.session.owns .vshStarted = false := by
    by_contra hyes
    have hloaded := hs.loaded (by simpa using hyes)
    rw [hvsh] at hloaded
    exact Bool.noConfusion hloaded
  cases r <;> first | assumption | exact absurd rfl hr

/-- The stages of an open behind the load of the codec module. -/
theorem openStages_spec (mainProfile : Bool) {a : OpenAnswers} {t : Firmware}
    (ht : Opening w.bootedMode false [.avcodec] t) (hload : 0 ≤ a.loadAv) :
    Ends (fun e => e.1 < 0 ∧ Sound e.2 ∧ OpenMode w mainProfile a e.2)
      (fun t => Sound t ∧ OpenMode w mainProfile a t ∧
        t.session.ready = true ∧ t.session.mainProfile = mainProfile ∧
        t.session.baselineBooted = !mainProfile)
      (do
        let w ← loadStages a t
        let w ← Firmware.bootProfile mainProfile a w
        createStages a w) := by
  refine .bind ((loadStages_spec ht).mono ?_ fun _ h => h)
    fun _ ⟨hloads, hloaded⟩ => ?_
  · rintro e ⟨hneg, hnot, l, h⟩
    exact ⟨hneg, h.sound, .inl ⟨hnot, h.mode, h.flag⟩⟩
  refine .bind (bootProfile_spec hloaded ⟨hload, hloads⟩)
    fun _ ⟨hbooted, hprofile, hboots, hfails⟩ => ?_
  refine (createStages_spec hbooted).mono ?_ ?_
  · rintro e ⟨hneg, l, h⟩
    exact ⟨hneg, h.sound,
      .inr (.inr ⟨hboots, hfails, tracked_of_opening h⟩)⟩
  · rintro u ⟨⟨l, h⟩, hready, hsame⟩
    exact ⟨h.sound, .inr (.inr ⟨hboots, hfails, tracked_of_opening h⟩),
      hready, hsame.trans hprofile, h.flag⟩

/-- What an open does.  After the checks it ends with a session that is ready,
or it is rolled back. -/
theorem open_spec (hs : Sound w) (helperPath mainProfile : Bool)
    (a : OpenAnswers) :
    let r := pspAvcSessionOpen w helperPath mainProfile a
    Sound r.2 ∧
      (opens w.session helperPath mainProfile a.version = false ∧
          r = (-1, w) ∨
        opens w.session helperPath mainProfile a.version = true ∧
          OpenMode w mainProfile a r.2 ∧
          (r.1 = 0 ∧ r.2.session.ready = true ∧
              r.2.session.mainProfile = mainProfile ∧
              r.2.session.baselineBooted = !mainProfile ∨
            r.1 < 0)) := by
  rw [pspAvcSessionOpen]
  cases hopens : opens w.session helperPath mainProfile a.version with
  | false => exact ⟨hs, .inl ⟨rfl, rfl⟩⟩
  | true =>
      have hstart := opening_of_opens hs hopens
      simp only [Bool.not_true, Bool.false_eq_true, if_false]
      split
      · rename_i hneg
        exact ⟨hstart.sound, .inr ⟨trivial, .inl ⟨fun hb =>
          Int.not_lt.mpr hb.loadAv hneg, rfl, hstart.flag⟩, .inr hneg⟩⟩
      · rename_i hload
        have hacquired := hstart.acquire (r := .avcodec) (by simp) (by simp)
          (by simp)
        have hstages := openStages_spec mainProfile (a := a)
          hacquired (Int.not_lt.mp hload)
        split
        · rename_i t hok
          rw [hok] at hstages
          obtain ⟨hsound, hmode, hready, hprofile, hbaseline⟩ := hstages
          exact ⟨hsound, .inr ⟨trivial, hmode,
            .inl ⟨rfl, hready, hprofile, hbaseline⟩⟩⟩
        · rename_i r t herror
          rw [herror] at hstages
          obtain ⟨hneg, hsound, hmode⟩ := hstages
          refine ⟨(close_spec hsound true a.rollback).1, .inr ⟨trivial,
            hmode.rollback hsound a.rollback, .inr ?_⟩⟩
          dsimp only
          split
          · assumption
          · exact hneg

/-! ## Runs -/

/-- A call, with what the firmware returns in it. -/
inductive SessionCall where
  | sessionOpen (helperPath mainProfile : Bool) (a : OpenAnswers)
  | sessionClose (a : CloseAnswers)
  | sessionSwitchProfile (helperPath mainProfile : Bool) (c : CloseAnswers)
      (a : OpenAnswers)

/-- One call. -/
def Firmware.call (w : Firmware) : SessionCall → ℤ × Firmware
  | .sessionOpen helperPath mainProfile a =>
      pspAvcSessionOpen w helperPath mainProfile a
  | .sessionClose a => pspAvcSessionClose w a
  | .sessionSwitchProfile helperPath mainProfile c a =>
      pspAvcSessionSwitchProfile w helperPath mainProfile c a

/-- The state after a run. -/
def Firmware.runCalls (w : Firmware) (calls : List SessionCall) : Firmware :=
  calls.foldl (fun w c => (w.call c).2) w

/-- No call loses track of the mode: an open for Baseline gives the priority back
after the mode switch, and a switch that closed the session in mode 4 gets to
the mode switch of its open. -/
def Follows (w : Firmware) : SessionCall → Prop
  | .sessionOpen helperPath mainProfile a =>
      opens w.session helperPath mainProfile a.version = true → a.Boots →
        a.RestoreFails → mainProfile = true
  | .sessionClose _ => True
  | .sessionSwitchProfile helperPath mainProfile c a =>
      (mainProfile && helperPath) = false → closes w.session false c →
        (opens .zero helperPath mainProfile a.version = true → a.Boots →
          a.RestoreFails → mainProfile = true) ∧
        (w.bootedMode = some 4 →
          opens .zero helperPath mainProfile a.version = true ∧ a.Boots)

theorem sound_switchProfile (hs : Sound w) (helperPath mainProfile : Bool)
    (c : CloseAnswers) (a : OpenAnswers) :
    Sound (pspAvcSessionSwitchProfile w helperPath mainProfile c a).2 := by
  rw [pspAvcSessionSwitchProfile]
  split
  · exact hs
  · have hclosed := (close_spec hs false c).1
    dsimp only
    split
    · exact hclosed
    · exact (open_spec hclosed helperPath mainProfile a).1

theorem sound_call (hs : Sound w) (c : SessionCall) : Sound (w.call c).2 := by
  cases c with
  | sessionOpen helperPath mainProfile a =>
      exact (open_spec hs helperPath mainProfile a).1
  | sessionClose a => exact (close_spec hs true a).1
  | sessionSwitchProfile helperPath mainProfile c a =>
      exact sound_switchProfile hs helperPath mainProfile c a

theorem sound_runCalls (hs : Sound w) (calls : List SessionCall) :
    Sound (w.runCalls calls) := by
  induction calls generalizing w with
  | nil => exact hs
  | cons c rest ih => exact ih (sound_call hs c)

theorem bootedMode_ne_of_opens (h : Tracked w) {helperPath mainProfile : Bool}
    {version : UInt32}
    (hopens : opens w.session helperPath mainProfile version = true) :
    w.bootedMode ≠ some 4 := by
  intro hfour
  have hflag := h hfour
  simp [opens, hflag] at hopens

/-- Which opens keep track of the mode, of those that get past the checks. -/
theorem tracked_of_openMode (h : OpenMode w mainProfile a t) :
    Tracked t ↔ (a.Boots → a.RestoreFails → mainProfile = true) ∧
      (w.bootedMode = some 4 → a.Boots) := by
  rcases h with ⟨hboots, hmode, hflag⟩ | ⟨hboots, hfails, hmode, hflag⟩ |
    ⟨hboots, hfails, htracked⟩
  · rw [Tracked, hmode, hflag]
    exact ⟨fun h => ⟨fun hb => absurd hb hboots, fun hfour =>
      Bool.noConfusion (h hfour)⟩, fun h hfour => absurd (h.2 hfour) hboots⟩
  · rw [Tracked, hmode, hflag]
    cases mainProfile with
    | false =>
        exact ⟨fun h => Bool.noConfusion (h rfl),
          fun h => absurd (h.1 hboots hfails) (by simp)⟩
    | true =>
        exact ⟨fun _ => ⟨fun _ _ => rfl, fun _ => hboots⟩,
          fun _ hfour => absurd (Option.some.inj hfour) (by decide)⟩
  · exact ⟨fun _ => ⟨fun _ hf => absurd hf hfails, fun _ => hboots⟩,
      fun _ => htracked⟩

theorem tracked_switchProfile (hs : Sound w) (htracked : Tracked w)
    (helperPath mainProfile : Bool) (c : CloseAnswers) (a : OpenAnswers) :
    Tracked (pspAvcSessionSwitchProfile w helperPath mainProfile c a).2 ↔
      Follows w (.sessionSwitchProfile helperPath mainProfile c a) := by
  rw [pspAvcSessionSwitchProfile, Follows]
  cases hargs : mainProfile && helperPath with
  | true => exact ⟨fun _ h => Bool.noConfusion h, fun _ => htracked⟩
  | false =>
      obtain ⟨hclosed, hcase⟩ := close_spec hs false c
      have hmode : restoredMode w false = w.bootedMode := by
        simp [restoredMode]
      have hflag : restoredFlag w false = w.session.baselineBooted := by
        simp [restoredFlag]
      simp only [Bool.false_eq_true, if_false, true_implies]
      rcases hcase with ⟨hcloses, hzero, hsession, hafter⟩ | ⟨hnot, hneg, hrest⟩
      · rw [if_neg (by omega)]
        rw [hmode] at hafter
        obtain ⟨-, hopen⟩ := open_spec hclosed helperPath mainProfile a
        rw [hsession] at hopen
        rcases hopen with ⟨hopens, hsame⟩ | ⟨hopens, hopenMode, -⟩
        · rw [hsame, Tracked, hafter, hsession, hopens]
          exact ⟨fun h _ => ⟨fun h => Bool.noConfusion h, fun hfour =>
            Bool.noConfusion (h hfour)⟩,
            fun h hfour => Bool.noConfusion ((h hcloses).2 hfour).1⟩
        · rw [tracked_of_openMode hopenMode, hafter, hopens]
          exact ⟨fun h _ => ⟨fun _ => h.1, fun hfour => ⟨rfl, h.2 hfour⟩⟩,
            fun h => ⟨(h hcloses).1 rfl, fun hfour => ((h hcloses).2 hfour).2⟩⟩
      · rw [if_pos hneg]
        refine ⟨fun _ hc => absurd hc hnot, fun _ hfour => ?_⟩
        rcases hrest with ⟨hsame, hkept⟩ | ⟨hsame, hkept⟩
        · rw [hkept]
          exact htracked (hsame ▸ hfour)
        · rw [hkept, hflag]
          exact htracked (hmode ▸ hsame ▸ hfour)

/-- A call keeps track of the mode exactly if it is of the good kind. -/
theorem tracked_call (hs : Sound w) (htracked : Tracked w) (c : SessionCall) :
    Tracked (w.call c).2 ↔ Follows w c := by
  cases c with
  | sessionOpen helperPath mainProfile a =>
      rw [Firmware.call, Follows]
      rcases (open_spec hs helperPath mainProfile a).2 with
        ⟨hopens, hsame⟩ | ⟨hopens, hmode, -⟩
      · rw [hsame, hopens]
        exact ⟨fun _ h => Bool.noConfusion h, fun _ => htracked⟩
      · rw [tracked_of_openMode hmode]
        exact ⟨fun h _ => h.1, fun h => ⟨h hopens, fun hfour =>
          absurd hfour (bootedMode_ne_of_opens htracked hopens)⟩⟩
  | sessionClose a =>
      exact ⟨fun _ => trivial, fun _ => close_tracked hs htracked a⟩
  | sessionSwitchProfile helperPath mainProfile c a =>
      exact tracked_switchProfile hs htracked helperPath mainProfile c a

/-- What is wanted of a state: the mode is tracked, resources were handled
once, and a close that returns 0 leaves neither mode 4 nor a resource. -/
def SafelyOwned (w : Firmware) : Prop :=
  Tracked w ∧ Always HandledOnce w.log ∧
    ∀ a, (pspAvcSessionClose w a).1 = 0 →
      (pspAvcSessionClose w a).2.bootedMode ≠ some 4 ∧
      Always HandledOnce (pspAvcSessionClose w a).2.log ∧
      ∀ r, holdsAfter (pspAvcSessionClose w a).2.log r = false

theorem safelyOwned_of_tracked (hs : Sound w) (h : Tracked w) :
    SafelyOwned w := by
  refine ⟨h, hs.once, fun a hzero => ?_⟩
  have htracked := close_tracked hs h a
  obtain ⟨hsound, hcase⟩ := close_spec hs true a
  rw [pspAvcSessionClose] at hzero htracked ⊢
  rcases hcase with ⟨-, -, hsession, -⟩ | ⟨-, hneg, -⟩
  · refine ⟨fun hfour => ?_, hsound.once, fun r => ?_⟩
    · have hflag := htracked hfour
      rw [hsession] at hflag
      exact Bool.noConfusion hflag
    · rw [← hsound.owns r, hsession]
      rfl
  · omega

/-- In a run of open, close and switch, every state is as wanted if and only if
no call is of the two kinds that lose track of the mode. -/
theorem safelyOwned_iff_follows (calls : List SessionCall) :
    (∀ before after, calls = before ++ after →
        SafelyOwned (Firmware.start.runCalls before)) ↔
      ∀ before c after, calls = before ++ c :: after →
        Follows (Firmware.start.runCalls before) c := by
  have hsnoc (before : List SessionCall) (c : SessionCall) :
      Firmware.start.runCalls (before ++ [c]) =
        ((Firmware.start.runCalls before).call c).2 := by
    simp [Firmware.runCalls]
  have hsound := sound_runCalls sound_start
  constructor
  · intro h before c after hcalls
    rw [← tracked_call (hsound before) (h before (c :: after) hcalls).1, ← hsnoc]
    exact (h (before ++ [c]) after (by simp [hcalls])).1
  · intro h before after hcalls
    refine safelyOwned_of_tracked (hsound before) ?_
    induction before using List.reverseRecOn generalizing after with
    | nil =>
        intro hfour
        simp [Firmware.runCalls, Firmware.start] at hfour
    | append_singleton before c ih =>
        rw [List.append_assoc] at hcalls
        rw [hsnoc, tracked_call (hsound before) (ih (c :: after) hcalls)]
        exact h before c after hcalls

/-- Every call of a close succeeds. -/
def smoothClose : CloseAnswers := ⟨0, 0, 0, 0, 0, 0, 0, 0, 0⟩

/-- Every call of an open succeeds, on firmware 6.60, for a caller at priority
32. -/
def smoothOpen : OpenAnswers where
  version := 0x06060010
  loadAv := 0
  loadVsh := 1
  startVsh := 0
  startStatus := 0
  fixup := 1
  callerPriority := 32
  lowerPriority := 0
  boot := 0
  restorePriority := 0
  mpegInit := 0
  memalignDdr := true
  querySize := 65536
  context := ⟨true, 0, true⟩
  create := 0
  decodeMode := 0
  initAu := 0
  rollback := smoothClose

/-- An open for Baseline that cannot give the priority back. -/
def lostInOpen : List SessionCall :=
  [.sessionOpen false false { smoothOpen with restorePriority := -1 }]

/-- An open for Baseline, and a switch to Main that cannot load the AV module. -/
def lostInSwitch : List SessionCall :=
  [.sessionOpen false false smoothOpen,
    .sessionSwitchProfile false true smoothClose { smoothOpen with loadAv := -1 }]

/-- The flag is not set, and a close returns 0 and leaves mode 4. -/
def LeavesModeFour (w : Firmware) : Prop :=
  w.bootedMode = some 4 ∧ w.session.baselineBooted = false ∧
    (pspAvcSessionClose w smoothClose).1 = 0 ∧
    (pspAvcSessionClose w smoothClose).2.bootedMode = some 4

instance (w : Firmware) : Decidable (LeavesModeFour w) :=
  inferInstanceAs (Decidable (_ ∧ _ ∧ _ ∧ _))

/-- Both ways to lose track of the mode. -/
theorem leavesModeFour :
    LeavesModeFour (Firmware.start.runCalls lostInOpen) ∧
      LeavesModeFour (Firmware.start.runCalls lostInSwitch) := by
  decide +kernel

end MoonlightPsp.Avc
