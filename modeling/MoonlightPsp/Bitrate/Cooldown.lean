import MoonlightPsp.Bitrate.Model

/-!
# The cooldown after lost frames

A burst of lost frames caps the bitrate for 15 seconds.  The end of the cooldown is a
number of 32 bits that wraps, and 0 stands for no cooldown.
-/

namespace MoonlightPsp.Bitrate

open CheckedInt SerialNumber

/-! ## Bursts -/

/-- An update finds a burst of lost frames. -/
def Burst (s : SignalState) (env : UpdateEnv) : Prop :=
  s.Due env ∧ (s.adaptConsecutiveDrops ≥ adaptFastDropThreshold ∨ s.adaptDropEvents ≥ 2)

instance (s : SignalState) (env : UpdateEnv) : Decidable (Burst s env) :=
  inferInstanceAs (Decidable (_ ∧ _))

/-- The cooldown of a burst can be held: its end is not 0, and where the drop window does
not lift the bitrate to the floor, the controller has not gone below it. -/
structure Holdable (s : SignalState) (env : UpdateEnv) : Prop where
  until_ne : env.currentTime + adaptDropCooldownUs ≠ 0
  floor_le : s.adaptDropEvents < 2 → ∀ quality step floor,
    env.quality = some quality →
    pidStep s.pidTargetQuality s.pidIntegral s.pidErrorPrev quality = some step →
    getAdaptiveFloorKbps s.baseBitrate = some floor →
    min floor s.baseBitrate ≤ clampBitrate s.baseBitrate (s.currentBitrate + step.deltaKbps)

/-- Runs since the controller was initialized, up to a time, with the time of the latest
burst.  The bursts meet a condition. -/
inductive Run (cond : SignalState → UpdateEnv → Prop) (base : ℤ) (start : ℕ) :
    SignalState → ℕ → Option ℕ → Prop
  | init : Run cond base start (signalStrengthInit base (UInt32.ofNat start)) start none
  | report {s s' : SignalState} {time : ℕ} {burst : Option ℕ} {c : SignalCall}
      (hrun : Run cond base start s time burst) (hreport : ∀ env, c ≠ .update env)
      (hcall : c.run s = some s') : Run cond base start s' time burst
  | quiet {s s' : SignalState} {time : ℕ} {burst : Option ℕ} {env : UpdateEnv}
      (hrun : Run cond base start s time burst) (htime : time ≤ env.systemTime)
      (hquiet : ¬ Burst s env) (hcall : signalStrengthUpdate s env = some s') :
      Run cond base start s' env.systemTime burst
  | burst {s s' : SignalState} {time : ℕ} {burst : Option ℕ} {env : UpdateEnv}
      (hrun : Run cond base start s time burst) (htime : time ≤ env.systemTime)
      (hburst : Burst s env) (hcond : cond s env)
      (hcall : signalStrengthUpdate s env = some s') :
      Run cond base start s' env.systemTime (some env.systemTime)

/-! ## The cap -/

variable {s s' : SignalState} {env : UpdateEnv} {now : UInt32} {t time : ℕ}
  {base quality floor ceiling : ℤ}

/-- The cooldown of a burst at `t` is on. -/
structure Armed (base : ℤ) (t : ℕ) (s : SignalState) : Prop where
  base_eq : s.baseBitrate = base
  until_eq : s.adaptCooldownUntil = UInt32.ofNat t + adaptDropCooldownUs
  until_ne : s.adaptCooldownUntil ≠ 0
  floor_le : ∀ floor, getAdaptiveFloorKbps base = some floor →
    min floor base ≤ s.adaptCooldownCap

/-- It is on, and the bitrate is not above the cap. -/
structure Held (base : ℤ) (t : ℕ) (s : SignalState) : Prop extends Armed base t s where
  current_le : s.currentBitrate ≤ s.adaptCooldownCap

/-- Before the end of the cooldown its end is ahead of the clock. -/
theorem delta_until_neg (hle : t ≤ time) (hlt : time < t + 15000000) :
    delta (UInt32.ofNat time) (UInt32.ofNat t + adaptDropCooldownUs) < 0 := by
  have hsub := toNat_sub (UInt32.ofNat time) (UInt32.ofNat t + adaptDropCooldownUs)
  have hcool : adaptDropCooldownUs.toNat = 15000000 := rfl
  rw [UInt32.toNat_add, UInt32.toNat_ofNat', UInt32.toNat_ofNat', hcool] at hsub
  simp only [delta]
  split
  · omega
  · omega

theorem Armed.holdCap (h : Armed base t s) (hle : t ≤ env.systemTime)
    (hlt : env.systemTime < t + 15000000) : Held base t (s.holdCap env.currentTime) := by
  have hahead : delta env.currentTime s.adaptCooldownUntil < 0 := by
    rw [h.until_eq]
    exact delta_until_neg hle hlt
  rw [SignalState.holdCap, if_pos ⟨h.until_ne, hahead⟩]
  refine { h with current_le := ?_ }
  dsimp only
  split
  · exact Int.le_refl _
  · omega

/-- During the cooldown the bitrate does not recover. -/
theorem Held.slowRecover (h : Held base t s) (hcall : s.slowRecover now quality ceiling = some s') :
    Held base t s' := by
  rw [SignalState.slowRecover, if_neg fun hgreen => h.until_ne hgreen.1] at hcall
  cases hcall
  exact { h with }

theorem trendReduction_pos (bitrate : ℤ) : 0 < trendReduction bitrate := by
  rw [trendReduction]
  split
  · omega
  · omega

theorem Held.idrAvoid {events : ℤ} (h : Held base t s)
    (hcall : s.idrAvoid events env.cq = some s') : Held base t s' := by
  rw [SignalState.idrAvoid] at hcall
  split at hcall
  · obtain ⟨bitrate, hbitrate, hs'⟩ := Option.bind_eq_some_iff.mp hcall
    obtain ⟨-, rfl⟩ := int_eq_some.mp hbitrate
    cases hs'
    have hpos := trendReduction_pos s.currentBitrate
    have hle := h.current_le
    exact { h with current_le := by dsimp only; omega }
  · cases hcall
    exact h

/-- The floor does not lift the bitrate over the cap. -/
theorem Held.finalClamp (h : Held base t s) (hfloor : getAdaptiveFloorKbps base = some floor) :
    Held base t (s.finalClamp floor ceiling) := by
  have hmin := h.floor_le floor hfloor
  have hbase := h.base_eq
  have hle := h.current_le
  refine { h with current_le := ?_ }
  simp only [SignalState.finalClamp]
  split_ifs <;> omega

theorem Held.updateIcon (h : Held base t s) : Held base t (s.updateIcon now quality) := by
  rw [SignalState.updateIcon]
  split
  · exact { h with }
  split
  · exact { h with }
  · exact h

/-! ## Lost frames -/

theorem armed_beginCooldown (hne : env.currentTime + adaptDropCooldownUs ≠ 0)
    (hfloor : getAdaptiveFloorKbps s.baseBitrate = some floor)
    (hle : min floor s.baseBitrate ≤ s.currentBitrate) :
    Armed s.baseBitrate env.systemTime (s.beginCooldown env.currentTime) := by
  refine ⟨rfl, rfl, hne, fun floor' hfloor' => ?_⟩
  cases hfloor.symm.trans hfloor'
  exact hle

/-- A fast drop does not go below the floor, unless the bitrate was there already. -/
theorem fastDrop_armed (hne : env.currentTime + adaptDropCooldownUs ≠ 0)
    (hfloor : getAdaptiveFloorKbps s.baseBitrate = some floor)
    (hdrops : s.adaptConsecutiveDrops ≥ adaptFastDropThreshold)
    (hle : min floor s.baseBitrate ≤ s.currentBitrate) :
    Armed s.baseBitrate env.systemTime (s.fastDrop env.currentTime floor) := by
  rw [SignalState.fastDrop, if_pos hdrops]
  refine armed_beginCooldown
    (s := { s with currentBitrate := _, adaptConsecutiveDrops := 0 }) hne hfloor ?_
  simp only [halvedBitrate]
  split_ifs <;> omega

theorem fastDrop_baseBitrate :
    (s.fastDrop now floor).baseBitrate = s.baseBitrate := by
  rw [SignalState.fastDrop]
  split
  · rfl
  · rfl

theorem fastDrop_adaptDropEvents :
    (s.fastDrop now floor).adaptDropEvents = s.adaptDropEvents := by
  rw [SignalState.fastDrop]
  split
  · rfl
  · rfl

theorem dropWindow_armed (hne : env.currentTime + adaptDropCooldownUs ≠ 0)
    (hfloor : getAdaptiveFloorKbps s.baseBitrate = some floor) (hevents : s.adaptDropEvents ≥ 2)
    (hcall : s.dropWindow env.currentTime floor = some s') :
    Armed s.baseBitrate env.systemTime s' := by
  rw [SignalState.dropWindow, if_pos (by omega), if_pos hevents] at hcall
  obtain ⟨bitrate, -, hs'⟩ := Option.bind_eq_some_iff.mp hcall
  cases hs'
  have hlow : min floor s.baseBitrate ≤ if bitrate < floor then floor else bitrate := by
    split
    · omega
    · omega
  have harmed := armed_beginCooldown
    (s := { s with currentBitrate := if bitrate < floor then floor else bitrate }) hne hfloor hlow
  exact { harmed with }

/-- An isolated event leaves the cooldown alone. -/
theorem Armed.dropWindow (h : Armed base t s) (hevents : s.adaptDropEvents < 2)
    (hcall : s.dropWindow now floor = some s') : Armed base t s' := by
  rw [SignalState.dropWindow, if_neg (c := s.adaptDropEvents ≥ 2) (by omega)] at hcall
  split at hcall
  · cases hcall
    exact { h with }
  · cases hcall
    exact h

/-- A burst begins a cooldown. -/
theorem armed_of_burst (hne : env.currentTime + adaptDropCooldownUs ≠ 0)
    (hfloor : getAdaptiveFloorKbps s.baseBitrate = some floor)
    (hburst : s.adaptConsecutiveDrops ≥ adaptFastDropThreshold ∨ s.adaptDropEvents ≥ 2)
    (hle : s.adaptDropEvents < 2 → min floor s.baseBitrate ≤ s.currentBitrate)
    (hcall : (s.fastDrop env.currentTime floor).dropWindow env.currentTime floor = some s') :
    Armed s.baseBitrate env.systemTime s' := by
  by_cases hevents : s.adaptDropEvents ≥ 2
  · have hbase : (s.fastDrop env.currentTime floor).baseBitrate = s.baseBitrate :=
      fastDrop_baseBitrate
    rw [← hbase]
    refine dropWindow_armed hne ?_ ?_ hcall
    · rw [hbase]
      exact hfloor
    · rw [fastDrop_adaptDropEvents]
      exact hevents
  · have hisolated : s.adaptDropEvents < 2 := by omega
    have hdrops := hburst.resolve_right hevents
    refine (fastDrop_armed hne hfloor hdrops (hle hisolated)).dropWindow ?_ hcall
    rw [fastDrop_adaptDropEvents]
    exact hisolated

/-! ## The update -/

/-- Nothing was done about lost frames. -/
structure SameDrops (s s' : SignalState) : Prop where
  base : s'.baseBitrate = s.baseBitrate
  drops : s'.adaptConsecutiveDrops = s.adaptConsecutiveDrops
  events : s'.adaptDropEvents = s.adaptDropEvents
  until_eq : s'.adaptCooldownUntil = s.adaptCooldownUntil
  cap : s'.adaptCooldownCap = s.adaptCooldownCap

theorem Armed.congr (h : Armed base t s) (hsame : SameDrops s s') : Armed base t s' := by
  obtain ⟨hbase, huntil, hne, hfloor⟩ := h
  refine ⟨hsame.base.trans hbase, hsame.until_eq.trans huntil, ?_, ?_⟩
  · rw [hsame.until_eq]
    exact hne
  · rw [hsame.cap]
    exact hfloor

theorem updateTrend_eq_some (h : s.updateTrend = some s') :
    ∃ trend, s' = { s with currentTrend := trend } := by
  rw [SignalState.updateTrend] at h
  split at h
  · obtain ⟨sums, -, h⟩ := Option.bind_eq_some_iff.mp h
    obtain ⟨above, -, h⟩ := Option.bind_eq_some_iff.mp h
    obtain ⟨below, -, h⟩ := Option.bind_eq_some_iff.mp h
    exact ⟨_, (Option.some.inj h).symm⟩
  · exact ⟨s.currentTrend, (Option.some.inj h).symm⟩

theorem pid_eq_some (h : s.pid quality = some s') : ∃ step,
    pidStep s.pidTargetQuality s.pidIntegral s.pidErrorPrev quality = some step ∧
    SameDrops s s' ∧
    s'.currentBitrate = clampBitrate s.baseBitrate (s.currentBitrate + step.deltaKbps) := by
  rw [SignalState.pid] at h
  obtain ⟨step, hstep, h⟩ := Option.bind_eq_some_iff.mp h
  obtain ⟨bitrate, hbitrate, h⟩ := Option.bind_eq_some_iff.mp h
  obtain ⟨-, rfl⟩ := int_eq_some.mp hbitrate
  cases h
  exact ⟨step, hstep, ⟨rfl, rfl, rfl, rfl, rfl⟩, rfl⟩

/-- An evaluated update moves the bitrate by the step of the controller, and then adapts it. -/
theorem signalStrengthUpdate_eq_some (hdue : s.Due env)
    (h : signalStrengthUpdate s env = some s') : ∃ quality step s₁ s₂,
      env.quality = some quality ∧
      pidStep s.pidTargetQuality s.pidIntegral s.pidErrorPrev quality = some step ∧
      SameDrops s s₁ ∧
      s₁.currentBitrate = clampBitrate s.baseBitrate (s.currentBitrate + step.deltaKbps) ∧
      s₁.adapt env quality = some s₂ ∧ s' = s₂.updateIcon env.currentTime quality := by
  rw [signalStrengthUpdate, if_pos hdue] at h
  obtain ⟨percent, hread, h⟩ := Option.bind_eq_some_iff.mp h
  obtain ⟨s₀, htrend, h⟩ := Option.bind_eq_some_iff.mp h
  obtain ⟨trend, rfl⟩ := updateTrend_eq_some htrend
  obtain ⟨quality, hquality, h⟩ := Option.bind_eq_some_iff.mp h
  obtain ⟨s₁, hpid, h⟩ := Option.bind_eq_some_iff.mp h
  obtain ⟨s₂, hadapt, h⟩ := Option.bind_eq_some_iff.mp h
  obtain ⟨step, hstep, hsame, hbitrate⟩ := pid_eq_some hpid
  have hq : env.quality = some quality := by
    rw [UpdateEnv.quality, hread, Option.bind_eq_bind, Option.bind_some, hquality]
  exact ⟨quality, step, s₁, s₂, hq, hstep,
    ⟨hsame.base, hsame.drops, hsame.events, hsame.until_eq, hsame.cap⟩, hbitrate, hadapt,
    (Option.some.inj h).symm⟩

/-- When the cooldown is on after the lost frames were seen to, the cap is held. -/
theorem adapt_held (h : s.adapt env quality = some s') :
    ∃ floor s₁, getAdaptiveFloorKbps s.baseBitrate = some floor ∧
      (s.fastDrop env.currentTime floor).dropWindow env.currentTime floor = some s₁ ∧
      ∀ t, t ≤ env.systemTime → env.systemTime < t + 15000000 →
        Armed s.baseBitrate t s₁ → Held s.baseBitrate t s' := by
  rw [SignalState.adapt] at h
  obtain ⟨floor, hfloor, h⟩ := Option.bind_eq_some_iff.mp h
  obtain ⟨ceiling, -, h⟩ := Option.bind_eq_some_iff.mp h
  obtain ⟨s₁, hdrops, h⟩ := Option.bind_eq_some_iff.mp h
  obtain ⟨s₂, hrecover, h⟩ := Option.bind_eq_some_iff.mp h
  obtain ⟨s₃, havoid, h⟩ := Option.bind_eq_some_iff.mp h
  cases h
  refine ⟨floor, s₁, hfloor, hdrops, fun t hle hlt harmed => ?_⟩
  exact (((harmed.holdCap hle hlt).slowRecover hrecover).idrAvoid havoid).finalClamp hfloor

/-- An update within the cooldown. -/
theorem Held.update (h : Held s.baseBitrate t s) (hle : t ≤ env.systemTime)
    (hlt : env.systemTime < t + 15000000) (hquiet : ¬ Burst s env)
    (hcall : signalStrengthUpdate s env = some s') : Held s'.baseBitrate t s' := by
  by_cases hdue : s.Due env
  · obtain ⟨quality, step, s₁, s₂, -, -, hsame, -, hadapt, rfl⟩ :=
      signalStrengthUpdate_eq_some hdue hcall
    obtain ⟨floor, s₃, hfloor, hdrops, hheld⟩ := adapt_held hadapt
    have hcalm := not_or.mp fun hburst => hquiet ⟨hdue, hburst⟩
    rw [SignalState.fastDrop, if_neg (by rw [hsame.drops]; exact hcalm.1)] at hdrops
    have harmed : Armed s₁.baseBitrate t s₁ := by
      rw [hsame.base]
      exact h.toArmed.congr hsame
    have hevents : s₁.adaptDropEvents < 2 := by
      rw [hsame.events]
      omega
    have hs₂ := hheld t hle hlt (harmed.dropWindow hevents hdrops)
    rw [hs₂.updateIcon.base_eq]
    exact hs₂.updateIcon
  · rw [signalStrengthUpdate, if_neg hdue] at hcall
    cases hcall
    exact h

/-- An update with a burst. -/
theorem held_of_burst (hburst : Burst s env) (hcond : Holdable s env)
    (hcall : signalStrengthUpdate s env = some s') :
    Held s'.baseBitrate env.systemTime s' := by
  obtain ⟨quality, step, s₁, s₂, hquality, hstep, hsame, hbitrate, hadapt, rfl⟩ :=
    signalStrengthUpdate_eq_some hburst.1 hcall
  obtain ⟨floor, s₃, hfloor, hdrops, hheld⟩ := adapt_held hadapt
  have harmed : Armed s₁.baseBitrate env.systemTime s₃ := by
    refine armed_of_burst hcond.until_ne hfloor ?_ (fun hevents => ?_) hdrops
    · rw [hsame.drops, hsame.events]
      exact hburst.2
    · rw [hsame.events] at hevents
      rw [hsame.base] at hfloor
      rw [hbitrate, hsame.base]
      exact hcond.floor_le hevents quality step floor hquality hstep hfloor
  have hs₂ := hheld env.systemTime (Nat.le_refl _) (by omega) harmed
  rw [hs₂.updateIcon.base_eq]
  exact hs₂.updateIcon

/-! ## Runs -/

theorem Held.report {c : SignalCall} (h : Held s.baseBitrate t s)
    (hreport : ∀ env, c ≠ .update env) (hcall : c.run s = some s') :
    Held s'.baseBitrate t s' := by
  cases c with
  | update env => exact absurd rfl (hreport env)
  | frameDrop =>
      rw [SignalCall.run, reportFrameDrop] at hcall
      split at hcall
      · cases hcall
        exact h
      · obtain ⟨drops, -, hs'⟩ := Option.bind_eq_some_iff.mp hcall
        cases hs'
        exact { h with }
  | frameOk =>
      rw [SignalCall.run, reportFrameOk] at hcall
      cases hcall
      split
      · exact h
      · exact { h with }
  | jitter deltaUs =>
      rw [SignalCall.run, reportJitter] at hcall
      cases hcall
      split
      · exact h
      · exact { h with }

theorem Run.held {base : ℤ} {start : ℕ} {burst : Option ℕ}
    (h : Run Holdable base start s time burst) (hburst : burst = some t)
    (hlt : time < t + 15000000) : t ≤ time ∧ Held s.baseBitrate t s := by
  induction h with
  | init => cases hburst
  | report hrun hreport hcall ih =>
      obtain ⟨hle, hheld⟩ := ih hburst hlt
      exact ⟨hle, hheld.report hreport hcall⟩
  | quiet hrun htime hquiet hcall ih =>
      obtain ⟨hle, hheld⟩ := ih hburst (by omega)
      exact ⟨Nat.le_trans hle htime, hheld.update (Nat.le_trans hle htime) hlt hquiet hcall⟩
  | burst hrun htime hburst' hcond hcall ih =>
      cases hburst
      exact ⟨Nat.le_refl _, held_of_burst hburst' hcond hcall⟩

/-- If all bursts can be held, then no bitrate exceeds the cap during the 15 seconds after
the latest burst. -/
theorem cooldown_correct {base : ℤ} {start : ℕ} (h : Run Holdable base start s time (some t))
    (hlt : time < t + 15000000) : s.currentBitrate ≤ s.adaptCooldownCap :=
  (h.held rfl hlt).2.current_le

/-- An update at a time when frames arrive and none is lost. -/
def clearUpdate (systemTime : ℕ) : UpdateEnv :=
  ⟨systemTime, some (-30), updateConnectionQuality .excellent ⟨0, 0, 0, 0, 30, 30, 100000⟩⟩

/-- Three frames were lost. -/
def threeLost : SignalState :=
  { signalStrengthInit 1000 0 with adaptConsecutiveDrops := 3, adaptDropEvents := 3 }

theorem run_threeLost (cond : SignalState → UpdateEnv → Prop) :
    Run cond 1000 0 threeLost 0 none := by
  have hdrop : ∀ drops events : ℤ, 0 ≤ drops ∧ drops < 10 → events < 10 →
      SignalCall.run { signalStrengthInit 1000 0 with
        adaptConsecutiveDrops := drops, adaptDropEvents := events } .frameDrop =
      some { signalStrengthInit 1000 0 with
        adaptConsecutiveDrops := drops + 1, adaptDropEvents := events + 1 } := by
    intro drops events hdrops hevents
    have hint : int (drops + 1) = some (drops + 1) := int_eq_some.mpr ⟨by omega, rfl⟩
    simp [SignalCall.run, reportFrameDrop, signalStrengthInit, hint,
      show events < 1000 by omega]
  have hone : Run cond 1000 0 _ 0 none :=
    Run.init.report (c := .frameDrop) nofun (hdrop 0 0 (by decide) (by decide))
  have htwo := hone.report (c := .frameDrop) nofun (hdrop 1 1 (by decide) (by decide))
  exact htwo.report (c := .frameDrop) nofun (hdrop 2 2 (by decide) (by decide))

/-- A burst after two seconds, and an update eight seconds later. -/
theorem cooldown_correct_threeLost : ∃ s s',
    signalStrengthUpdate threeLost (clearUpdate 2000000) = some s ∧
      signalStrengthUpdate s (clearUpdate 10000000) = some s' ∧
      s'.currentBitrate ≤ s'.adaptCooldownCap := by
  obtain ⟨s, hcall⟩ := Option.isSome_iff_exists.mp
    (show (signalStrengthUpdate threeLost (clearUpdate 2000000)).isSome by decide +kernel)
  obtain ⟨s', hquiet⟩ := Option.isSome_iff_exists.mp
    (show (signalStrengthUpdate s (clearUpdate 10000000)).isSome by
      cases hcall
      decide +kernel)
  have hburst : Burst threeLost (clearUpdate 2000000) := by decide +kernel
  have hcond : Holdable threeLost (clearUpdate 2000000) :=
    ⟨by decide, fun hevents => absurd hevents (by decide)⟩
  have hrun := (run_threeLost Holdable).burst (Nat.zero_le _) hburst hcond hcall
  refine ⟨s, s', hcall, hquiet, cooldown_correct
    (hrun.quiet (by decide) (by cases hcall; decide +kernel) hquiet) (by decide)⟩

/-- A burst at which the end of the cooldown is 0 has none. -/
theorem cooldown_wraps :
    ¬ ∀ (base : ℤ) (start : ℕ) (s : SignalState) (time t : ℕ), 32 ≤ base →
      Run (fun _ _ => True) base start s time (some t) → time < t + 15000000 →
        s.currentBitrate ≤ s.adaptCooldownCap := by
  intro h
  obtain ⟨s, hburst⟩ := Option.isSome_iff_exists.mp
    (show (signalStrengthUpdate threeLost (clearUpdate 4279967296)).isSome by decide +kernel)
  obtain ⟨s', hquiet⟩ := Option.isSome_iff_exists.mp
    (show (signalStrengthUpdate s (clearUpdate 4281967296)).isSome by
      cases hburst
      decide +kernel)
  have hrun : Run (fun _ _ => True) 1000 0 s 4279967296 (some 4279967296) :=
    (run_threeLost _).burst (Nat.zero_le _) (by decide +kernel) trivial hburst
  have hcap := h 1000 0 s' 4281967296 4279967296 (by decide)
    (hrun.quiet (by decide) (by cases hburst; decide +kernel) hquiet) (by decide)
  cases hburst
  cases hquiet
  exact absurd hcap (by decide +kernel)

end MoonlightPsp.Bitrate
