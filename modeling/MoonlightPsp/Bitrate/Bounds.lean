import MoonlightPsp.Bitrate.Model

/-!
# The bounds of the bitrate

Every stage of an update keeps the bitrate between zero and the base, and the last one puts
it between the floor and the ceiling.  On the way no number overflows.
-/

namespace MoonlightPsp.Bitrate

open CheckedInt

/-! ## Signal and quality -/

variable {base floor ceiling quality : ℤ} {s : SignalState} {env : UpdateEnv}
  {now : UInt32}

theorem unclampedFloor_yields (hbase : 32 ≤ base) (hmax : base < 2 ^ 30) :
    Yields (unclampedFloor base) fun _ => True := by
  rw [unclampedFloor]
  split
  · exact yields_some trivial
  split
  · exact yields_some trivial
  split
  · exact yields_some trivial
  split
  · exact yields_some trivial
  · exact yields_int (by omega) (by omega) (yields_some trivial)

theorem getAdaptiveFloorKbps_yields (hbase : 32 ≤ base) (hmax : base < 2 ^ 30) :
    Yields (getAdaptiveFloorKbps base) fun floor => 32 ≤ floor ∧ floor ≤ base := by
  rw [getAdaptiveFloorKbps, if_neg (by omega)]
  refine (unclampedFloor_yields hbase hmax).bind fun floor _ => yields_some ?_
  simp only [bitrateMinKbps]
  split_ifs <;> omega

theorem rssiToPercent_yields (rssi : ℤ) :
    Yields (rssiToPercent rssi) fun percent => 0 ≤ percent ∧ percent ≤ 100 := by
  rw [rssiToPercent]
  split
  · exact yields_some (by omega)
  split
  · exact yields_some (by omega)
  · simp only [rssiMin, rssiMax] at *
    refine yields_int (by omega) (by omega) (yields_int (by omega) (by omega) ?_)
    refine yields_int (by omega) (by omega) (yields_some ?_)
    split_ifs <;> omega

theorem readSignalPercent_yields (rssi : Option ℤ) :
    Yields (readSignalPercent rssi) fun percent => 0 ≤ percent ∧ percent ≤ 100 := by
  cases rssi with
  | none => exact yields_some (by omega)
  | some rssi => exact rssiToPercent_yields rssi

theorem ConnQuality.score_bounds (q : ConnQuality) : 0 ≤ q.score ∧ q.score ≤ 100 := by
  cases q <;> decide

theorem compositeQuality_yields {percent : ℤ} (hpercent : 0 ≤ percent ∧ percent ≤ 100)
    (cq : ConnQualityState) :
    Yields (compositeQuality percent cq) fun quality => 0 ≤ quality ∧ quality ≤ 100 := by
  have hscore := cq.quality.score_bounds
  have hfec := cq.fecRecovery_le
  refine yields_int (by omega) (by omega) (yields_int (by omega) (by omega) ?_)
  refine yields_int (by omega) (by omega) (yields_int (by omega) (by omega) ?_)
  refine yields_int (by omega) (by omega) (yields_some ?_)
  rw [Int.tdiv_eq_ediv_of_nonneg (by omega)]
  omega

/-! ## The invariant -/

/-- What holds between the calls. -/
structure Bounded (base : ℤ) (s : SignalState) : Prop where
  initialized : s.initialized
  base_eq : s.baseBitrate = base
  target : s.pidTargetQuality = 75
  current_ge : 0 ≤ s.currentBitrate
  current_le : s.currentBitrate ≤ base
  cap_ge : 0 ≤ s.adaptCooldownCap
  integral_ge : -500000 ≤ s.pidIntegral
  integral_le : s.pidIntegral ≤ 500000
  error_ge : -75 ≤ s.pidErrorPrev
  error_le : s.pidErrorPrev ≤ 25
  drops_ge : 0 ≤ s.adaptConsecutiveDrops
  drops_lt : s.adaptConsecutiveDrops < 2 ^ 31
  events_ge : 0 ≤ s.adaptDropEvents
  events_le : s.adaptDropEvents ≤ 1000
  history : ∀ i, 0 ≤ s.rssiHistory i ∧ s.rssiHistory i ≤ 100

theorem bounded_init (hbase : 0 ≤ base) : Bounded base (signalStrengthInit base now) := by
  constructor
  all_goals simp only [signalStrengthInit]
  all_goals omega

/-! ## The stages -/

theorem Bounded.recordRssi (h : Bounded base s) {percent : ℤ}
    (hpercent : 0 ≤ percent ∧ percent ≤ 100) : Bounded base (s.recordRssi percent) := by
  refine { h with history := fun i => ?_ }
  simp only [SignalState.recordRssi, Function.update_apply]
  split
  · exact hpercent
  · exact h.history i

/-- What the sums are after a number of turns. -/
structure TrendSums.After (n : ℕ) (sums : TrendSums) : Prop where
  count : sums.olderN + sums.recentN = n
  older_ge : 0 ≤ sums.olderAvg
  older_le : sums.olderAvg ≤ 100 * sums.olderN
  recent_ge : 0 ≤ sums.recentAvg
  recent_le : sums.recentAvg ≤ 100 * sums.recentN

theorem Bounded.sumTrend (h : Bounded base s) {n : ℕ} (hn : n < 16) {sums : TrendSums}
    (hsums : sums.After n) : Yields (s.sumTrend sums n) (TrendSums.After (n + 1)) := by
  obtain ⟨hcount, hog, hol, hrg, hrl⟩ := hsums
  have hsample := h.history (s.historyIdx n)
  rw [SignalState.sumTrend]
  split
  · refine yields_int (by omega) (by omega) (yields_int (by omega) (by omega) ?_)
    exact yields_some ⟨by dsimp only; omega, by dsimp only; omega, by dsimp only; omega, hrg, hrl⟩
  · refine yields_int (by omega) (by omega) (yields_int (by omega) (by omega) ?_)
    exact yields_some ⟨by dsimp only; omega, hog, hol, by dsimp only; omega, by dsimp only; omega⟩

theorem average_bounds {sum n : ℤ} (hsum : 0 ≤ sum) :
    0 ≤ (if n > 0 then sum.tdiv n else sum) ∧ (if n > 0 then sum.tdiv n else sum) ≤ sum := by
  split
  · rename_i hn
    rw [Int.tdiv_eq_ediv_of_nonneg hsum]
    exact ⟨Int.ediv_nonneg hsum (Int.le_of_lt hn), Int.ediv_le_self n hsum⟩
  · exact ⟨hsum, Int.le_refl sum⟩

theorem Bounded.updateTrend (h : Bounded base s) : Yields s.updateTrend (Bounded base) := by
  have hlt : s.rssiHistoryCount.val < 17 := s.rssiHistoryCount.isLt
  rw [SignalState.updateTrend]
  split
  · refine (yields_foldlM (I := TrendSums.After) ⟨rfl, by decide, by decide, by decide, by decide⟩
      fun i hi sums hsums => h.sumTrend (by omega) hsums).bind fun sums hsums => ?_
    obtain ⟨hcount, hog, hol, hrg, hrl⟩ := hsums
    have holder := average_bounds (n := sums.olderN) hog
    dsimp only
    refine yields_int (by omega) (by omega) (yields_int (by omega) (by omega) ?_)
    exact yields_some { h with }
  · exact yields_some h

theorem clampIntegral_bounds (n : ℤ) :
    -500000 ≤ clampIntegral n ∧ clampIntegral n ≤ 500000 := by
  simp only [clampIntegral, pidIntegralMax, pidIntegralMin]
  split_ifs <;> omega

theorem clampDelta_bounds (n : ℤ) : -150 ≤ clampDelta n ∧ clampDelta n ≤ 150 := by
  simp only [clampDelta, pidMaxDeltaKbps]
  split_ifs <;> omega

theorem clampBitrate_bounds (hbase : 32 ≤ base) (n : ℤ) :
    0 ≤ clampBitrate base n ∧ clampBitrate base n ≤ base := by
  simp only [clampBitrate, bitrateMinKbps]
  split_ifs <;> omega

/-- The terms of the controller stay small, since the quality and the integral do. -/
theorem pidStep_yields {integral errorPrev : ℤ} (hquality : 0 ≤ quality ∧ quality ≤ 100)
    (hintegral : -500000 ≤ integral ∧ integral ≤ 500000)
    (herror : -75 ≤ errorPrev ∧ errorPrev ≤ 25) :
    Yields (pidStep 75 integral errorPrev quality) fun step =>
      (-75 ≤ step.error ∧ step.error ≤ 25) ∧
      (-500000 ≤ step.integral ∧ step.integral ≤ 500000) ∧
      -150 ≤ step.deltaKbps ∧ step.deltaKbps ≤ 150 := by
  rw [pidStep]
  simp only [pidKp, pidKi, pidKd, pidScale]
  refine yields_int (by omega) (by omega) (yields_int (by omega) (by omega) ?_)
  have hclamp := clampIntegral_bounds (integral + (quality - 75))
  generalize clampIntegral _ = clamped at hclamp
  have hscaled : -50000 ≤ (100 * clamped).tdiv 1000 ∧ (100 * clamped).tdiv 1000 ≤ 50000 :=
    tdiv_bounds (k := 1000) (by omega) (by omega) (by omega)
  refine yields_int (by omega) (by omega) (yields_int (by omega) (by omega) ?_)
  refine yields_int (by omega) (by omega) (yields_int (by omega) (by omega) ?_)
  refine yields_int (by omega) (by omega) (yields_int (by omega) (by omega) ?_)
  exact yields_some ⟨by dsimp only; omega, hclamp, clampDelta_bounds _⟩

theorem Bounded.pid (h : Bounded base s) (hbase : 32 ≤ base) (hmax : base < 2 ^ 30)
    (hquality : 0 ≤ quality ∧ quality ≤ 100) : Yields (s.pid quality) (Bounded base) := by
  have hge := h.current_ge
  have hle := h.current_le
  rw [SignalState.pid, h.target, h.base_eq]
  refine (pidStep_yields hquality ⟨h.integral_ge, h.integral_le⟩
    ⟨h.error_ge, h.error_le⟩).bind fun step hstep => ?_
  obtain ⟨herror, hintegral, hdelta⟩ := hstep
  have hclamp := clampBitrate_bounds hbase (s.currentBitrate + step.deltaKbps)
  refine yields_int (by omega) (by omega) (yields_some ?_)
  exact { h with
    base_eq := rfl
    target := rfl
    current_ge := hclamp.1
    current_le := hclamp.2
    integral_ge := hintegral.1
    integral_le := hintegral.2
    error_ge := herror.1
    error_le := herror.2 }

theorem Bounded.withBitrate (h : Bounded base s) {bitrate : ℤ} (hge : 0 ≤ bitrate)
    (hle : bitrate ≤ base) : Bounded base { s with currentBitrate := bitrate } :=
  { h with current_ge := hge, current_le := hle }

theorem Bounded.resetDrops (h : Bounded base s) :
    Bounded base { s with adaptConsecutiveDrops := 0 } :=
  { h with drops_ge := Int.le_refl 0, drops_lt := Int.pow_pos (by decide) }

theorem Bounded.resetEvents (h : Bounded base s) : Bounded base { s with adaptDropEvents := 0 } :=
  { h with events_ge := Int.le_refl 0, events_le := show (0 : ℤ) ≤ 1000 by decide }

theorem Bounded.beginCooldown (h : Bounded base s) (now : UInt32) :
    Bounded base (s.beginCooldown now) :=
  { h with cap_ge := h.current_ge }

theorem halvedBitrate_ge {bitrate : ℤ} (hbitrate : 0 ≤ bitrate) :
    0 ≤ halvedBitrate bitrate floor := by
  rw [halvedBitrate, Int.tdiv_eq_ediv_of_nonneg hbitrate]
  split
  · omega
  · omega

theorem windowReduction_bounds {bitrate : ℤ} (hbitrate : 0 ≤ bitrate) (events : ℤ) :
    32 ≤ windowReduction bitrate events ∧
      (windowReduction bitrate events ≤ bitrate ∨ windowReduction bitrate events = 32) := by
  have hself := Int.ediv_le_self (if events ≥ 3 then 4 else 8) hbitrate
  rw [windowReduction, Int.tdiv_eq_ediv_of_nonneg hbitrate]
  split
  · omega
  · omega

theorem trendReduction_bounds {bitrate : ℤ} (hbitrate : 0 ≤ bitrate) :
    25 ≤ trendReduction bitrate ∧
      (trendReduction bitrate ≤ bitrate ∨ trendReduction bitrate = 25) := by
  rw [trendReduction, Int.tdiv_eq_ediv_of_nonneg hbitrate]
  split
  · omega
  · omega

theorem Bounded.fastDrop (h : Bounded base s) (now : UInt32) :
    Bounded base (s.fastDrop now floor) := by
  have hhalf : 0 ≤ halvedBitrate s.currentBitrate floor := halvedBitrate_ge h.current_ge
  have hge := h.current_ge
  have hle := h.current_le
  rw [SignalState.fastDrop]
  split
  · generalize hlow : (if halvedBitrate s.currentBitrate floor < s.currentBitrate then
      halvedBitrate s.currentBitrate floor else s.currentBitrate) = low
    have hbounds : 0 ≤ low ∧ low ≤ base := by
      rw [← hlow]
      split
      · omega
      · omega
    exact (h.withBitrate hbounds.1 hbounds.2).resetDrops.beginCooldown now
  · exact h

theorem Bounded.dropWindow (h : Bounded base s) (hmax : base < 2 ^ 30)
    (hfloor : 0 ≤ floor ∧ floor ≤ base) (now : UInt32) :
    Yields (s.dropWindow now floor) (Bounded base) := by
  have hge := h.current_ge
  have hle := h.current_le
  have hreduction := windowReduction_bounds hge s.adaptDropEvents
  rw [SignalState.dropWindow]
  split
  · split
    · refine yields_int (by omega) (by omega) (yields_some ?_)
      refine ((h.withBitrate ?_ ?_).beginCooldown now).resetEvents
      · split <;> omega
      · split <;> omega
    · exact yields_some h.resetEvents
  · exact yields_some h

theorem Bounded.holdCap (h : Bounded base s) (now : UInt32) : Bounded base (s.holdCap now) := by
  rw [SignalState.holdCap]
  split
  · have hge := h.current_ge
    have hle := h.current_le
    have hcap := h.cap_ge
    refine { h.withBitrate ?_ ?_ with }
    · split <;> omega
    · split <;> omega
  split
  · exact { h with }
  · exact h

theorem Bounded.slowRecover (h : Bounded base s) (hmax : base < 2 ^ 30)
    (hceiling : 0 ≤ ceiling) (now : UInt32) :
    Yields (s.slowRecover now quality ceiling) (Bounded base) := by
  have hge := h.current_ge
  have hle := h.current_le
  have hbase := h.base_eq
  rw [SignalState.slowRecover]
  split
  · split
    · simp only [adaptSlowRecoverKbps]
      refine yields_int (by omega) (by omega) (yields_some ?_)
      refine { h.withBitrate ?_ ?_ with }
      · split_ifs <;> omega
      · split_ifs <;> omega
    · exact yields_some { h with }
  · exact yields_some { h with }

/-- The bitrate may leave its range here, until the final clamp. -/
theorem Bounded.idrAvoid (h : Bounded base s) (hmax : base < 2 ^ 30) (events : ℤ)
    (cq : ConnQualityState) : Yields (s.idrAvoid events cq) fun s' =>
      ∃ bitrate, s' = { s with currentBitrate := bitrate } := by
  have hge := h.current_ge
  have hle := h.current_le
  have hreduction := trendReduction_bounds hge
  rw [SignalState.idrAvoid]
  split
  · exact yields_int (by omega) (by omega) (yields_some ⟨_, rfl⟩)
  · exact yields_some ⟨s.currentBitrate, rfl⟩

/-- What an evaluated update has come to. -/
structure InBounds (base floor ceiling : ℤ) (s : SignalState) : Prop where
  floor_le : floor ≤ s.currentBitrate
  le_min : s.currentBitrate ≤ min base ceiling

theorem Bounded.finalClamp (h : Bounded base s) (hfloor : 0 ≤ floor ∧ floor ≤ base)
    (hceiling : floor ≤ ceiling) (bitrate : ℤ) :
    Bounded base ({ s with currentBitrate := bitrate }.finalClamp floor ceiling) ∧
      InBounds base floor ceiling ({ s with currentBitrate := bitrate }.finalClamp floor ceiling) := by
  have hbase := h.base_eq
  have hclamped : floor ≤
      ({ s with currentBitrate := bitrate }.finalClamp floor ceiling).currentBitrate ∧
      ({ s with currentBitrate := bitrate }.finalClamp floor ceiling).currentBitrate ≤
        min base ceiling := by
    simp only [SignalState.finalClamp]
    split_ifs <;> omega
  refine ⟨{ h with current_ge := ?_, current_le := ?_ }, ⟨hclamped.1, hclamped.2⟩⟩
  · omega
  · omega

/-! ## The update -/

theorem adaptCeiling_yields (hquality : 0 ≤ quality ∧ quality ≤ 100) (floor : ℤ) :
    Yields (adaptCeiling quality floor) fun ceiling => floor ≤ ceiling := by
  rw [adaptCeiling]
  simp only [adaptCeilingQualityMult, adaptCeilingMaxKbps]
  refine yields_int (by omega) (by omega) (yields_some ?_)
  split_ifs <;> omega

/-- The ceiling and the floor that bound the result are those of this base and quality. -/
theorem Bounded.adapt (h : Bounded base s) (hbase : 32 ≤ base) (hmax : base < 2 ^ 30)
    (hquality : 0 ≤ quality ∧ quality ≤ 100) (env : UpdateEnv) :
    ∃ floor ceiling, getAdaptiveFloorKbps base = some floor ∧
      adaptCeiling quality floor = some ceiling ∧
      Yields (s.adapt env quality) fun s' => Bounded base s' ∧ InBounds base floor ceiling s' := by
  obtain ⟨floor, hfloor, hge, hle⟩ := getAdaptiveFloorKbps_yields hbase hmax
  obtain ⟨ceiling, hceiling, hfc⟩ := adaptCeiling_yields hquality floor
  have hbounds : 0 ≤ floor ∧ floor ≤ base := ⟨by omega, hle⟩
  refine ⟨floor, ceiling, hfloor, hceiling, ?_⟩
  rw [SignalState.adapt, h.base_eq]
  refine Yields.bind_eq hfloor (Yields.bind_eq hceiling ?_)
  refine ((h.fastDrop env.currentTime).dropWindow hmax hbounds env.currentTime).bind fun s₁ h₁ => ?_
  refine ((h₁.holdCap env.currentTime).slowRecover hmax (by omega) env.currentTime).bind
    fun s₂ h₂ => ?_
  refine (h₂.idrAvoid hmax s.adaptDropEvents env.cq).bind fun s₃ h₃ => ?_
  obtain ⟨bitrate, rfl⟩ := h₃
  exact yields_some (h₂.finalClamp hbounds hfc bitrate)

theorem updateIcon_currentBitrate :
    (s.updateIcon now quality).currentBitrate = s.currentBitrate := by
  rw [SignalState.updateIcon]
  split
  · rfl
  split
  · rfl
  · rfl

theorem Bounded.updateIcon (h : Bounded base s) : Bounded base (s.updateIcon now quality) := by
  rw [SignalState.updateIcon]
  split
  · exact { h with }
  split
  · exact { h with }
  · exact h

/-- After an evaluation the bitrate lies between the floor of the base and the ceiling of
the quality. -/
def Evaluated (base : ℤ) (env : UpdateEnv) (s : SignalState) : Prop :=
  ∃ quality floor ceiling, env.quality = some quality ∧
    getAdaptiveFloorKbps base = some floor ∧ adaptCeiling quality floor = some ceiling ∧
    InBounds base floor ceiling s

theorem Bounded.evaluate (h : Bounded base s) (hbase : 32 ≤ base) (hmax : base < 2 ^ 30)
    (hdue : s.Due env) :
    Yields (signalStrengthUpdate s env) fun s' => Bounded base s' ∧ Evaluated base env s' := by
  obtain ⟨percent, hread, hpercent⟩ := readSignalPercent_yields env.rssi
  obtain ⟨quality, hcomposite, hquality⟩ := compositeQuality_yields hpercent env.cq
  have hq : env.quality = some quality := by
    rw [UpdateEnv.quality, hread, Option.bind_eq_bind, Option.bind_some, hcomposite]
  have hchecked : Bounded base { s with lastCheckTime := env.currentTime } := { h with }
  rw [signalStrengthUpdate, if_pos hdue]
  refine Yields.bind_eq hread ?_
  refine (hchecked.recordRssi hpercent).updateTrend.bind fun s₁ h₁ => ?_
  refine Yields.bind_eq hcomposite ?_
  refine (h₁.pid hbase hmax hquality).bind fun s₂ h₂ => ?_
  obtain ⟨floor, ceiling, hfloor, hceiling, hadapt⟩ := h₂.adapt hbase hmax hquality env
  refine hadapt.bind fun s₃ h₃ => yields_some ⟨h₃.1.updateIcon, ?_⟩
  refine ⟨quality, floor, ceiling, hq, hfloor, hceiling, ?_, ?_⟩
  · rw [updateIcon_currentBitrate]
    exact h₃.2.floor_le
  · rw [updateIcon_currentBitrate]
    exact h₃.2.le_min

/-! ## Runs -/

/-- The calls since the controller was initialized. -/
def runSignal (base : ℤ) (now : UInt32) (calls : List SignalCall) : Option SignalState :=
  calls.foldlM SignalCall.run (signalStrengthInit base now)

/-- A call does not overflow, unless it is one lost frame too many. -/
theorem Bounded.call (h : Bounded base s) (hbase : 32 ≤ base) (hmax : base < 2 ^ 30)
    {c : SignalCall} (hcount : c = .frameDrop → s.adaptConsecutiveDrops < 2 ^ 31 - 1) :
    Yields (c.run s) fun s' => Bounded base s' ∧
      ∀ env, c = .update env → s.Due env → Evaluated base env s' := by
  have hready : ¬ (!s.initialized) = true := by
    rw [h.initialized]
    decide
  cases c with
  | update env =>
      rw [SignalCall.run]
      by_cases hdue : s.Due env
      · refine (h.evaluate hbase hmax hdue).mono fun s' hs' => ⟨hs'.1, ?_⟩
        rintro _ ⟨⟩ -
        exact hs'.2
      · rw [signalStrengthUpdate, if_neg hdue]
        refine yields_some ⟨h, ?_⟩
        rintro _ ⟨⟩ hdue'
        exact absurd hdue' hdue
  | frameDrop =>
      have hdrops := hcount rfl
      have hge := h.drops_ge
      have heg := h.events_ge
      have hel := h.events_le
      rw [SignalCall.run, reportFrameDrop, if_neg hready]
      refine yields_int (by omega) (by omega) (yields_some ⟨?_, nofun⟩)
      exact { h with
        drops_ge := by dsimp only; omega
        drops_lt := by dsimp only; omega
        events_ge := by dsimp only; split <;> omega
        events_le := by dsimp only; split <;> omega }
  | frameOk =>
      rw [SignalCall.run, reportFrameOk, if_neg hready]
      exact yields_some ⟨h.resetDrops, nofun⟩
  | jitter deltaUs =>
      rw [SignalCall.run, reportJitter, if_neg hready]
      exact yields_some ⟨{ h with }, nofun⟩

theorem drops_lt_of_reportFrameDrop {s' : SignalState} (hready : s.initialized)
    (h : reportFrameDrop s = some s') : s.adaptConsecutiveDrops < 2 ^ 31 - 1 := by
  rw [reportFrameDrop, if_neg (by rw [hready]; decide)] at h
  obtain ⟨drops, hdrops, -⟩ := Option.bind_eq_some_iff.mp h
  have hrange := (int_eq_some.mp hdrops).1
  omega

theorem bounded_run {calls : List SignalCall} (hbase : 32 ≤ base) (hmax : base < 2 ^ 30)
    (hrun : runSignal base now calls = some s) : Bounded base s := by
  refine invariant_of_foldlM (fun a c b ha hb => ?_) (bounded_init (by omega)) hrun
  have hcount : c = .frameDrop → a.adaptConsecutiveDrops < 2 ^ 31 - 1 := by
    rintro rfl
    exact drops_lt_of_reportFrameDrop ha.initialized hb
  exact ((ha.call hbase hmax hcount).of_eq hb).1

/-- In every run the integral keeps its limits, no call overflows, and an evaluated update
puts the bitrate between the floor and the ceiling.  That the counter of lost frames does not
overflow is up to those who report them. -/
theorem runSignal_correct {calls : List SignalCall} {c : SignalCall} (hbase : 32 ≤ base)
    (hmax : base < 2 ^ 30) (hrun : runSignal base now calls = some s)
    (hcount : c = .frameDrop → s.adaptConsecutiveDrops < 2 ^ 31 - 1) :
    ∃ s', c.run s = some s' ∧ -500000 ≤ s'.pidIntegral ∧ s'.pidIntegral ≤ 500000 ∧
      ∀ env, c = .update env → s.Due env → Evaluated base env s' := by
  obtain ⟨s', hcall, hbounded, hevaluated⟩ := (bounded_run hbase hmax hrun).call hbase hmax hcount
  exact ⟨s', hcall, hbounded.integral_ge, hbounded.integral_le, hevaluated⟩

/-- Two lost frames, and an update two seconds later. -/
def twoLostFrames : List SignalCall := [.frameDrop, .frameDrop]

theorem runSignal_correct_twoLostFrames :
    ((runSignal 1000 0 twoLostFrames).map SignalState.adaptDropEvents = some 2) ∧
    ∃ s s', runSignal 1000 0 twoLostFrames = some s ∧
      SignalCall.run s (.update ⟨2000000, none, initialQuality⟩) = some s' ∧
      Evaluated 1000 ⟨2000000, none, initialQuality⟩ s' := by
  refine ⟨by decide +kernel, ?_⟩
  obtain ⟨s, hrun⟩ := Option.isSome_iff_exists.mp
    (show (runSignal 1000 0 twoLostFrames).isSome by decide +kernel)
  obtain ⟨s', hcall, -, -, hevaluated⟩ := runSignal_correct
    (c := .update ⟨2000000, none, initialQuality⟩) (by decide) (by decide) hrun nofun
  refine ⟨s, s', hrun, hcall, hevaluated _ rfl ?_⟩
  cases hrun
  decide +kernel

/-- The floor is computed from twice the base, which overflows for a huge base. -/
theorem runSignal_overflows :
    ¬ ∀ (base : ℤ) (now : UInt32) (calls : List SignalCall), 32 ≤ base → base < 2 ^ 31 →
      (runSignal base now calls).isSome := by
  intro h
  have hsome := h (2 ^ 30) 0 [.update ⟨2000000, none, initialQuality⟩] (by decide) (by decide)
  exact absurd hsome (by decide +kernel)

end MoonlightPsp.Bitrate
