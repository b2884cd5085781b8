import MoonlightPsp.Lib.CheckedInt
import MoonlightPsp.Lib.SerialNumber
import Mathlib.Logic.Function.Basic

/-!
# The bitrate controller

Once a second the strength of the Wi-Fi signal and the quality of the connection are
blended into a number, and the bitrate follows it.  Lost frames lower the bitrate at once
and cap it for a while.

The model has no result where a signed number overflows.
-/

namespace MoonlightPsp.Bitrate

open CheckedInt SerialNumber

/-! ## Constants -/

/-- `BITRATE_MIN_KBPS`. -/
def bitrateMinKbps : ℤ := 32

/-- `ICON_DISPLAY_DURATION_US`. -/
def iconDisplayDurationUs : UInt32 := 2000000

/-- `SIGNAL_CHECK_INTERVAL_US`. -/
def signalCheckIntervalUs : UInt32 := 1000000

/-- `RSSI_MIN`. -/
def rssiMin : ℤ := -90

/-- `RSSI_MAX`. -/
def rssiMax : ℤ := -30

/-- `SIGNAL_GOOD`. -/
def signalGood : ℤ := 60

/-- `SIGNAL_FAIR`. -/
def signalFair : ℤ := 40

/-- `PID_KP`. -/
def pidKp : ℤ := 300

/-- `PID_KI`. -/
def pidKi : ℤ := 100

/-- `PID_KD`. -/
def pidKd : ℤ := 50

/-- `PID_SCALE`. -/
def pidScale : ℤ := 1000

/-- `PID_INTEGRAL_MAX`. -/
def pidIntegralMax : ℤ := 500000

/-- `PID_INTEGRAL_MIN`. -/
def pidIntegralMin : ℤ := -500000

/-- `PID_MAX_DELTA_KBPS`. -/
def pidMaxDeltaKbps : ℤ := 150

/-- `ADAPT_FAST_DROP_THRESHOLD`. -/
def adaptFastDropThreshold : ℤ := 3

/-- `ADAPT_SLOW_RECOVER_KBPS`. -/
def adaptSlowRecoverKbps : ℤ := 12

/-- `ADAPT_GREEN_HOLDOFF_US`. -/
def adaptGreenHoldoffUs : UInt32 := 5000000

/-- `ADAPT_DROP_COOLDOWN_US`. -/
def adaptDropCooldownUs : UInt32 := 15000000

/-- `ADAPT_CEILING_MAX_KBPS`. -/
def adaptCeilingMaxKbps : ℤ := 4000

/-- `ADAPT_CEILING_QUALITY_MULT`. -/
def adaptCeilingQualityMult : ℤ := 50

/-- `ADAPT_STREAM_FLOOR_KBPS`. -/
def adaptStreamFloorKbps : ℤ := 96

/-- `SIGNAL_RSSI_HISTORY_SIZE` and `SIGNAL_JITTER_HISTORY_SIZE`. -/
abbrev historySize : ℕ := 16

/-! ## The quality of the connection -/

/-- `ConnQuality`. -/
inductive ConnQuality where
  | excellent
  | good
  | fair
  | poor
  | critical

/-- `ConnQualityState`, as far as the controller reads it. -/
structure ConnQualityState where
  quality : ConnQuality
  lossRatePct : UInt32
  fecRecoveryPct : UInt32
  fecRecovery_le : fecRecoveryPct.toNat ≤ 100

/-- What the counters have gained since the last time, in `update_connection_quality`. -/
structure QualityCounters where
  recovered : UInt32
  failed : UInt32
  dropped : UInt32
  attempts : UInt32
  frames : UInt32
  decodedNow : UInt32
  estimatedBwBps : UInt32

namespace QualityCounters

variable (d : QualityCounters)

def totalFecPkts : UInt32 := d.recovered + d.failed

def packetLossX10 : UInt32 :=
  if d.totalFecPkts > 0 then d.failed * 1000 / d.totalFecPkts else 0

/-- The share of the recovery attempts that succeeded. -/
def attemptsPct : UInt32 :=
  if d.attempts > 0 then
    (if d.attempts > d.dropped then d.attempts - d.dropped else 0) * 100 / d.attempts
  else 100

/-- Nothing arrived. -/
def idle : Bool :=
  d.estimatedBwBps < 4096 && d.frames == 0 && d.dropped == 0 && d.totalFecPkts == 0 &&
    d.attempts == 0

/-- `loss_rate_x10`. -/
def lossRateX10 : UInt32 :=
  let events := d.frames + d.dropped
  let frameLossX10 := d.dropped * 1000 / events
  if d.idle then if d.decodedNow = 0 then 0 else 1000
  else if events > 0 ∧ (d.totalFecPkts > 0 ∨ d.packetLossX10 > 0 ∨ d.attempts > 0) ∧
      frameLossX10 > d.packetLossX10 then frameLossX10
  else d.packetLossX10

/-- `recovery_pct`. -/
def recoveryPct : UInt32 :=
  let events := d.frames + d.dropped
  let visibleDeliveryPct := d.frames * 100 / events
  if d.idle then if d.decodedNow = 0 then 100 else 0
  else if events > 0 ∧ (d.totalFecPkts > 0 ∨ d.packetLossX10 > 0 ∨ d.attempts > 0) ∧
      visibleDeliveryPct < d.attemptsPct then visibleDeliveryPct
  else d.attemptsPct

variable {d}

theorem attemptsPct_le : d.attemptsPct.toNat ≤ 100 := by
  rw [attemptsPct]
  split
  · have hle : (if d.attempts > d.dropped then d.attempts - d.dropped else 0).toNat ≤
        d.attempts.toNat := by
      split
      · rename_i hmore
        rw [UInt32.toNat_sub_of_le _ _ (UInt32.le_of_lt hmore)]
        omega
      · exact Nat.zero_le _
    rw [UInt32.toNat_div, UInt32.toNat_mul]
    apply Nat.div_le_of_le_mul
    calc _ ≤ _ := Nat.mod_le _ _
      _ ≤ d.attempts.toNat * 100 := Nat.mul_le_mul_right _ hle
  · exact Nat.le_refl _

theorem recoveryPct_le : d.recoveryPct.toNat ≤ 100 := by
  rw [recoveryPct]
  split
  · split
    · exact Nat.le_refl _
    · exact Nat.zero_le _
  split
  · rename_i hvisible
    exact Nat.le_trans (Nat.le_of_lt (UInt32.lt_iff_toNat_lt.mp hvisible.2.2)) attemptsPct_le
  · exact attemptsPct_le

end QualityCounters

/-- The snapshot of `update_connection_quality`, with the quality it comes to. -/
def updateConnectionQuality (quality : ConnQuality) (d : QualityCounters) :
    ConnQualityState :=
  ⟨quality, d.lossRateX10, d.recoveryPct, QualityCounters.recoveryPct_le⟩

/-- The snapshot at the start. -/
def initialQuality : ConnQualityState := ⟨.fair, 0, 0, Nat.zero_le _⟩

/-! ## State -/

/-- `SignalTrend`. -/
inductive SignalTrend where
  | improving
  | stable
  | degrading
  deriving DecidableEq

/-- `SignalState`, with `g_initialized`. -/
structure SignalState where
  initialized : Bool
  signalPercent : ℤ
  currentBitrate : ℤ
  baseBitrate : ℤ
  wifiIconVisible : Bool
  iconShowTime : UInt32
  lastCheckTime : UInt32
  pidErrorPrev : ℤ
  pidIntegral : ℤ
  pidTargetQuality : ℤ
  adaptConsecutiveDrops : ℤ
  adaptDropEvents : ℤ
  adaptLastGreenTime : UInt32
  adaptCooldownUntil : UInt32
  adaptCooldownCap : ℤ
  adaptInRecovery : Bool
  adaptPrevBitrate : ℤ
  rssiHistory : Fin historySize → ℤ
  rssiHistoryIdx : Fin historySize
  rssiHistoryCount : Fin (historySize + 1)
  jitterSamples : Fin historySize → UInt32
  jitterIdx : Fin historySize
  jitterCount : Fin (historySize + 1)
  currentTrend : SignalTrend

/-- `signal_strength_init`. -/
def signalStrengthInit (baseBitrateKbps : ℤ) (now : UInt32) : SignalState where
  initialized := true
  signalPercent := 50
  currentBitrate := baseBitrateKbps
  baseBitrate := baseBitrateKbps
  wifiIconVisible := false
  iconShowTime := 0
  lastCheckTime := now
  pidErrorPrev := 0
  pidIntegral := 0
  pidTargetQuality := 75
  adaptConsecutiveDrops := 0
  adaptDropEvents := 0
  adaptLastGreenTime := 0
  adaptCooldownUntil := 0
  adaptCooldownCap := baseBitrateKbps
  adaptInRecovery := false
  adaptPrevBitrate := baseBitrateKbps
  rssiHistory := fun _ => 0
  rssiHistoryIdx := 0
  rssiHistoryCount := 0
  jitterSamples := fun _ => 0
  jitterIdx := 0
  jitterCount := 0
  currentTrend := .stable

/-- What an update reads: the time, of which the clock shows the low 32 bits, the RSSI if
the driver knows it, and the quality of the connection. -/
structure UpdateEnv where
  systemTime : ℕ
  rssi : Option ℤ
  cq : ConnQualityState

/-- `sceKernelGetSystemTimeLow`. -/
def UpdateEnv.currentTime (env : UpdateEnv) : UInt32 := UInt32.ofNat env.systemTime

/-! ## Signal and quality -/

/-- The floor for a positive base, before it is clamped. -/
def unclampedFloor (baseBitrateKbps : ℤ) : Option ℤ :=
  if baseBitrateKbps ≤ 256 then some 96
  else if baseBitrateKbps ≤ 320 then some 128
  else if baseBitrateKbps ≤ 384 then some 160
  else if baseBitrateKbps ≤ 512 then some 192
  else do
    let twice ← int (baseBitrateKbps * 2)
    let floor := twice.tdiv 5
    some (if floor < 224 then 224 else floor)

/-- `signal_strength_get_adaptive_floor_kbps`. -/
def getAdaptiveFloorKbps (baseBitrateKbps : ℤ) : Option ℤ :=
  if baseBitrateKbps ≤ 0 then some bitrateMinKbps
  else do
    let floor ← unclampedFloor baseBitrateKbps
    let floor := if floor < adaptStreamFloorKbps then adaptStreamFloorKbps else floor
    let floor := if floor > baseBitrateKbps then baseBitrateKbps else floor
    some (if floor < bitrateMinKbps then bitrateMinKbps else floor)

/-- `rssi_to_percent`. -/
def rssiToPercent (rssi : ℤ) : Option ℤ :=
  if rssi ≥ rssiMax then some 100
  else if rssi ≤ rssiMin then some 0
  else do
    let above ← int (rssi - rssiMin)
    let scaled ← int (above * 100)
    let span ← int (rssiMax - rssiMin)
    let percent := scaled.tdiv span
    let percent := if percent < 0 then 0 else percent
    some (if percent > 100 then 100 else percent)

/-- `read_signal_percent`. -/
def readSignalPercent : Option ℤ → Option ℤ
  | none => some 50
  | some rssi => rssiToPercent rssi

/-- The quality as a score. -/
def ConnQuality.score : ConnQuality → ℤ
  | excellent => 100
  | good => 75
  | fair => 50
  | poor => 25
  | critical => 0

/-- `composite_quality`. -/
def compositeQuality (signalPercent : ℤ) (cq : ConnQualityState) : Option ℤ := do
  let signal ← int (signalPercent * 20)
  let conn ← int (cq.quality.score * 45)
  let fec ← int (cq.fecRecoveryPct.toNat * 35)
  let both ← int (signal + conn)
  let sum ← int (both + fec)
  some (sum.tdiv 100)

/-- The composite quality that an update comes to. -/
def UpdateEnv.quality (env : UpdateEnv) : Option ℤ := do
  let signalPercent ← readSignalPercent env.rssi
  compositeQuality signalPercent env.cq

/-- The signal goes into its history. -/
def SignalState.recordRssi (s : SignalState) (signalPercent : ℤ) : SignalState :=
  { s with
    signalPercent
    rssiHistory := Function.update s.rssiHistory s.rssiHistoryIdx signalPercent
    rssiHistoryIdx := s.rssiHistoryIdx + 1
    rssiHistoryCount := if h : s.rssiHistoryCount.val < historySize then
        ⟨s.rssiHistoryCount.val + 1, Nat.succ_lt_succ h⟩
      else s.rssiHistoryCount }

/-- The slot of the history that is read in a turn of the loop. -/
def SignalState.historyIdx (s : SignalState) (ti : ℕ) : Fin historySize :=
  Fin.ofNat historySize (s.rssiHistoryIdx.val + historySize - s.rssiHistoryCount.val + ti)

/-- The sums of the loop over the history. -/
structure TrendSums where
  recentAvg : ℤ
  olderAvg : ℤ
  recentN : ℤ
  olderN : ℤ

/-- A turn of the loop. -/
def SignalState.sumTrend (s : SignalState) (sums : TrendSums) (ti : ℕ) : Option TrendSums := do
  let sample := s.rssiHistory (s.historyIdx ti)
  if ti < s.rssiHistoryCount.val / 2 then
    let olderAvg ← int (sums.olderAvg + sample)
    let olderN ← int (sums.olderN + 1)
    some { sums with olderAvg, olderN }
  else
    let recentAvg ← int (sums.recentAvg + sample)
    let recentN ← int (sums.recentN + 1)
    some { sums with recentAvg, recentN }

/-- `avg_jitter`. -/
def SignalState.avgJitter (s : SignalState) : UInt32 :=
  if s.jitterCount.val > 0 then
    ((List.range s.jitterCount.val).foldl
      (fun jsum ji => jsum + s.jitterSamples (Fin.ofNat historySize ji)) 0) /
        UInt32.ofNat s.jitterCount.val
  else 0

/-- The trend is taken from the history. -/
def SignalState.updateTrend (s : SignalState) : Option SignalState := do
  if s.rssiHistoryCount.val ≥ 4 then
    let sums ← (List.range s.rssiHistoryCount.val).foldlM s.sumTrend ⟨0, 0, 0, 0⟩
    let olderAvg := if sums.olderN > 0 then sums.olderAvg.tdiv sums.olderN else sums.olderAvg
    let recentAvg := if sums.recentN > 0 then sums.recentAvg.tdiv sums.recentN
      else sums.recentAvg
    let above ← int (olderAvg + 5)
    let below ← int (olderAvg - 5)
    some { s with
      currentTrend := if recentAvg > above ∧ s.avgJitter < 50000 then .improving
        else if recentAvg < below ∨ s.avgJitter > 100000 then .degrading
        else .stable }
  else some s

/-! ## The update -/

/-- The integral is kept between its limits. -/
def clampIntegral (integral : ℤ) : ℤ :=
  let integral := if integral > pidIntegralMax then pidIntegralMax else integral
  if integral < pidIntegralMin then pidIntegralMin else integral

/-- The step of one update is limited. -/
def clampDelta (deltaKbps : ℤ) : ℤ :=
  let deltaKbps := if deltaKbps > pidMaxDeltaKbps then pidMaxDeltaKbps else deltaKbps
  if deltaKbps < -pidMaxDeltaKbps then -pidMaxDeltaKbps else deltaKbps

/-- The bitrate is kept between the minimum and the base. -/
def clampBitrate (baseBitrate bitrate : ℤ) : ℤ :=
  let bitrate := if bitrate < bitrateMinKbps then bitrateMinKbps else bitrate
  if bitrate > baseBitrate then baseBitrate else bitrate

/-- What the PID controller computes. -/
structure PidStep where
  error : ℤ
  integral : ℤ
  deltaKbps : ℤ

/-- The terms of the PID controller. -/
def pidStep (targetQuality integral errorPrev quality : ℤ) : Option PidStep := do
  let error ← int (quality - targetQuality)
  let sum ← int (integral + error)
  let integral := clampIntegral sum
  let derivative ← int (error - errorPrev)
  let p ← int (pidKp * error)
  let scaled ← int (pidKi * integral)
  let pi ← int (p + scaled.tdiv pidScale)
  let d ← int (pidKd * derivative)
  let pidOutput ← int (pi + d)
  some ⟨error, integral, clampDelta (pidOutput.tdiv pidScale)⟩

/-- The PID controller. -/
def SignalState.pid (s : SignalState) (quality : ℤ) : Option SignalState := do
  let step ← pidStep s.pidTargetQuality s.pidIntegral s.pidErrorPrev quality
  let bitrate ← int (s.currentBitrate + step.deltaKbps)
  some { s with
    pidIntegral := step.integral
    pidErrorPrev := step.error
    currentBitrate := clampBitrate s.baseBitrate bitrate }

/-- `adapt_ceiling`. -/
def adaptCeiling (quality adaptFloor : ℤ) : Option ℤ := do
  let ceiling ← int (quality * adaptCeilingQualityMult)
  let ceiling := if ceiling > adaptCeilingMaxKbps then adaptCeilingMaxKbps else ceiling
  some (if ceiling < adaptFloor then adaptFloor else ceiling)

/-- The cooldown after a burst of lost frames begins. -/
def SignalState.beginCooldown (s : SignalState) (now : UInt32) : SignalState :=
  { s with
    adaptInRecovery := false
    adaptLastGreenTime := 0
    adaptCooldownUntil := now + adaptDropCooldownUs
    adaptCooldownCap := s.currentBitrate }

/-- Half the bitrate, but not less than the floor. -/
def halvedBitrate (bitrate adaptFloor : ℤ) : ℤ :=
  let halved := bitrate.tdiv 2
  if halved < adaptFloor then adaptFloor else halved

/-- Fast drop: the bitrate is halved. -/
def SignalState.fastDrop (s : SignalState) (now : UInt32) (adaptFloor : ℤ) : SignalState :=
  if s.adaptConsecutiveDrops ≥ adaptFastDropThreshold then
    { s with
      currentBitrate := if halvedBitrate s.currentBitrate adaptFloor < s.currentBitrate then
          halvedBitrate s.currentBitrate adaptFloor
        else s.currentBitrate
      adaptConsecutiveDrops := 0 }.beginCooldown now
  else s

/-- What a number of lost frames takes from the bitrate. -/
def windowReduction (bitrate events : ℤ) : ℤ :=
  let reduction := bitrate.tdiv (if events ≥ 3 then 4 else 8)
  if reduction < 32 then 32 else reduction

/-- Drop window: the bitrate is reduced, unless the event was isolated. -/
def SignalState.dropWindow (s : SignalState) (now : UInt32) (adaptFloor : ℤ) :
    Option SignalState :=
  if s.adaptDropEvents > 0 then
    if s.adaptDropEvents ≥ 2 then do
      let bitrate ← int (s.currentBitrate - windowReduction s.currentBitrate s.adaptDropEvents)
      let s := { s with currentBitrate := if bitrate < adaptFloor then adaptFloor else bitrate }
      some { s.beginCooldown now with adaptDropEvents := 0 }
    else some { s with adaptDropEvents := 0 }
  else some s

/-- The cap is held until the cooldown is over. -/
def SignalState.holdCap (s : SignalState) (now : UInt32) : SignalState :=
  if s.adaptCooldownUntil ≠ 0 ∧ delta now s.adaptCooldownUntil < 0 then
    { s with
      currentBitrate := if s.currentBitrate > s.adaptCooldownCap then s.adaptCooldownCap
        else s.currentBitrate
      adaptLastGreenTime := 0 }
  else if s.adaptCooldownUntil ≠ 0 then { s with adaptCooldownUntil := 0 }
  else s

/-- The time since when the quality is good. -/
def SignalState.greenTime (s : SignalState) (now : UInt32) : UInt32 :=
  if s.adaptLastGreenTime = 0 then now else s.adaptLastGreenTime

/-- Slow recovery, when the quality is good and was good for a while. -/
def SignalState.slowRecover (s : SignalState) (now : UInt32) (quality adaptCeiling : ℤ) :
    Option SignalState :=
  if s.adaptCooldownUntil = 0 ∧ quality ≥ signalGood ∧ s.adaptConsecutiveDrops = 0 then
    if now - s.greenTime now ≥ adaptGreenHoldoffUs then do
      let bitrate ← int (s.currentBitrate + adaptSlowRecoverKbps)
      let bitrate := if bitrate > adaptCeiling then adaptCeiling else bitrate
      some { s with
        currentBitrate := if bitrate > s.baseBitrate then s.baseBitrate else bitrate
        adaptLastGreenTime := s.greenTime now
        adaptInRecovery := true }
    else some { s with adaptLastGreenTime := s.greenTime now }
  else some { s with adaptLastGreenTime := 0, adaptInRecovery := false }

/-- What a bad trend takes from the bitrate. -/
def trendReduction (bitrate : ℤ) : ℤ :=
  let reduction := bitrate.tdiv 10
  if reduction < 25 then 25 else reduction

/-- IDR avoidance: the bitrate is reduced when the trend is down and packets are lost. -/
def SignalState.idrAvoid (s : SignalState) (hadDropEvents : ℤ) (cq : ConnQualityState) :
    Option SignalState :=
  if s.currentTrend = .degrading ∧ (hadDropEvents > 0 ∨ cq.lossRatePct ≥ 80) then do
    let bitrate ← int (s.currentBitrate - trendReduction s.currentBitrate)
    some { s with currentBitrate := bitrate }
  else some s

/-- The final clamp. -/
def SignalState.finalClamp (s : SignalState) (adaptFloor adaptCeiling : ℤ) : SignalState :=
  let bitrate := if s.currentBitrate < adaptFloor then adaptFloor else s.currentBitrate
  let bitrate := if bitrate > adaptCeiling then adaptCeiling else bitrate
  { s with
    adaptPrevBitrate := s.currentBitrate
    currentBitrate := if bitrate > s.baseBitrate then s.baseBitrate else bitrate }

/-- The Wi-Fi icon. -/
def SignalState.updateIcon (s : SignalState) (now : UInt32) (quality : ℤ) : SignalState :=
  if quality < signalFair then { s with wifiIconVisible := true, iconShowTime := now }
  else if s.wifiIconVisible ∧ now - s.iconShowTime ≥ iconDisplayDurationUs then
    { s with wifiIconVisible := false }
  else s

/-- The adaptive overlay. -/
def SignalState.adapt (s : SignalState) (env : UpdateEnv) (quality : ℤ) :
    Option SignalState := do
  let now := env.currentTime
  let adaptFloor ← getAdaptiveFloorKbps s.baseBitrate
  let hadDropEvents := s.adaptDropEvents
  let ceiling ← adaptCeiling quality adaptFloor
  let s ← (s.fastDrop now adaptFloor).dropWindow now adaptFloor
  let s ← (s.holdCap now).slowRecover now quality ceiling
  let s ← s.idrAvoid hadDropEvents env.cq
  some (s.finalClamp adaptFloor ceiling)

/-- An update only looks at the signal if a second has passed. -/
def SignalState.Due (s : SignalState) (env : UpdateEnv) : Prop :=
  s.initialized ∧ ¬ env.currentTime - s.lastCheckTime < signalCheckIntervalUs

instance (s : SignalState) (env : UpdateEnv) : Decidable (s.Due env) :=
  inferInstanceAs (Decidable (_ ∧ _))

/-- `signal_strength_update`; it returns the current bitrate of the state after. -/
def signalStrengthUpdate (s : SignalState) (env : UpdateEnv) : Option SignalState := do
  if s.Due env then
    let s := { s with lastCheckTime := env.currentTime }
    let signalPercent ← readSignalPercent env.rssi
    let s ← (s.recordRssi signalPercent).updateTrend
    let quality ← compositeQuality signalPercent env.cq
    let s ← s.pid quality
    let s ← s.adapt env quality
    some (s.updateIcon env.currentTime quality)
  else some s

/-! ## Reports and runs -/

/-- `signal_strength_report_frame_drop`. -/
def reportFrameDrop (s : SignalState) : Option SignalState := do
  if !s.initialized then some s
  else
    let drops ← int (s.adaptConsecutiveDrops + 1)
    some { s with
      adaptConsecutiveDrops := drops
      adaptDropEvents := if s.adaptDropEvents < 1000 then s.adaptDropEvents + 1
        else s.adaptDropEvents }

/-- `signal_strength_report_frame_ok`. -/
def reportFrameOk (s : SignalState) : SignalState :=
  if !s.initialized then s else { s with adaptConsecutiveDrops := 0 }

/-- `signal_strength_report_jitter`. -/
def reportJitter (s : SignalState) (deltaUs : UInt32) : SignalState :=
  if !s.initialized then s
  else
    { s with
      jitterSamples := Function.update s.jitterSamples s.jitterIdx deltaUs
      jitterIdx := s.jitterIdx + 1
      jitterCount := if h : s.jitterCount.val < historySize then
          ⟨s.jitterCount.val + 1, Nat.succ_lt_succ h⟩
        else s.jitterCount }

/-- A call of the controller. -/
inductive SignalCall where
  | update (env : UpdateEnv)
  | frameDrop
  | frameOk
  | jitter (deltaUs : UInt32)

def SignalCall.run (s : SignalState) : SignalCall → Option SignalState
  | update env => signalStrengthUpdate s env
  | frameDrop => reportFrameDrop s
  | frameOk => some (reportFrameOk s)
  | jitter deltaUs => some (reportJitter s deltaUs)

end MoonlightPsp.Bitrate
