import MoonlightPsp.Bitrate.Model
import MoonlightPsp.Lib.CheckedWord
import Mathlib.Data.List.Infix

/-!
# The grade of the connection

Once a second the counters of the FEC layer and of the decoder are compared with those of
the second before, and the connection is graded.  A grade holds only after it was asked
for some times in a row.
-/

namespace MoonlightPsp.Bitrate

open CheckedWord

deriving instance DecidableEq for ConnQuality

/-! ## Loss and recovery -/

namespace QualityCounters

/-- `packet_loss_x10`, on words that may not hold every result. -/
def packetLoss (word : ℕ → Option ℕ) (d : QualityCounters) (totalFecPkts : ℕ) : Option ℕ :=
  if totalFecPkts > 0 then ratio word d.failed.toNat 1000 totalFecPkts else some 0

/-- `recovery_pct` of the attempts alone. -/
def attemptsRatio (word : ℕ → Option ℕ) (d : QualityCounters) : Option ℕ :=
  let success := if d.attempts > d.dropped then (d.attempts - d.dropped).toNat else 0
  if d.attempts > 0 then ratio word success 100 d.attempts.toNat else some 100

/-- The frames that did not arrive make the loss larger and the ratio smaller. -/
def withFrames (word : ℕ → Option ℕ) (d : QualityCounters)
    (totalFecPkts packetLossX10 recoveryPct : ℕ) : Option (ℕ × ℕ) := do
  let totalFrameEvents ← word (d.frames.toNat + d.dropped.toNat)
  if totalFrameEvents > 0 then
    let frameLossX10 ← ratio word d.dropped.toNat 1000 totalFrameEvents
    let visibleDeliveryPct ← ratio word d.frames.toNat 100 totalFrameEvents
    if totalFecPkts > 0 ∨ packetLossX10 > 0 ∨ d.attempts > 0 then
      some (if frameLossX10 > packetLossX10 then frameLossX10 else packetLossX10,
        if visibleDeliveryPct < recoveryPct then visibleDeliveryPct else recoveryPct)
    else some (packetLossX10, recoveryPct)
  else some (packetLossX10, recoveryPct)

/-- `loss_rate_x10` and `recovery_pct`. -/
def lossAndRecovery (word : ℕ → Option ℕ) (d : QualityCounters) : Option (ℕ × ℕ) := do
  let totalFecPkts ← word (d.recovered.toNat + d.failed.toNat)
  let packetLossX10 ← packetLoss word d totalFecPkts
  let recoveryPct ← attemptsRatio word d
  let result ← withFrames word d totalFecPkts packetLossX10 recoveryPct
  some (if d.idle then if d.decodedNow = 0 then (0, 100) else (1000, 0) else result)

/-- Counters that gained so little that no word is too small. -/
structure Moderate (d : QualityCounters) : Prop where
  packets : d.recovered.toNat + d.failed.toNat < 2 ^ 32
  failed : d.failed.toNat ≤ 4294967
  dropped : d.dropped.toNat ≤ 4294967
  frames : d.frames.toNat ≤ 42949672
  success : d.attempts.toNat ≤ d.dropped.toNat + 42949672

/-- The loss and the ratio are in their ranges, and no step on the way to them overflowed
or divided by zero. -/
structure InRange (d : QualityCounters) : Prop where
  loss_le : d.lossRateX10.toNat ≤ 1000
  recovery_le : d.recoveryPct.toNat ≤ 100
  exact : lossAndRecovery checked d = some (d.lossRateX10.toNat, d.recoveryPct.toNat)

variable {d : QualityCounters}

theorem toNat_success :
    (if d.attempts > d.dropped then d.attempts - d.dropped else 0).toNat =
      if d.attempts > d.dropped then (d.attempts - d.dropped).toNat else 0 := by
  split
  · rfl
  · rfl

/-- A ratio of two words, computed by the processor. -/
theorem ratio_words (part scale whole : UInt32) (hpos : 0 < whole.toNat) :
    ratio wrapped part.toNat scale.toNat whole.toNat =
      some (part * scale / whole).toNat := by
  rw [ratio_wrapped hpos, UInt32.toNat_div, UInt32.toNat_mul]

theorem packetLoss_wrapped (d : QualityCounters) :
    packetLoss wrapped d d.totalFecPkts.toNat = some d.packetLossX10.toNat := by
  rw [packetLoss, packetLossX10]
  by_cases hpos : d.totalFecPkts > 0
  · have hpos' : 0 < d.totalFecPkts.toNat := UInt32.lt_iff_toNat_lt.mp hpos
    rw [if_pos hpos, if_pos hpos', ← ratio_words _ _ _ hpos']
    rfl
  · have hpos' : ¬d.totalFecPkts.toNat > 0 := fun h => hpos (UInt32.lt_iff_toNat_lt.mpr h)
    rw [if_neg hpos, if_neg hpos']
    rfl

theorem attemptsRatio_wrapped (d : QualityCounters) :
    attemptsRatio wrapped d = some d.attemptsPct.toNat := by
  simp only [attemptsRatio]
  rw [attemptsPct, ← toNat_success]
  by_cases hpos : d.attempts > 0
  · rw [if_pos hpos, if_pos hpos, ← ratio_words _ _ _ (UInt32.lt_iff_toNat_lt.mp hpos)]
    rfl
  · rw [if_neg hpos, if_neg hpos]
    rfl

theorem withFrames_wrapped (d : QualityCounters) (total loss recovery : UInt32) :
    withFrames wrapped d total.toNat loss.toNat recovery.toNat = 
      let events := d.frames + d.dropped
      let seen := events > 0 ∧ (total > 0 ∨ loss > 0 ∨ d.attempts > 0)
      some ((if seen ∧ d.dropped * 1000 / events > loss then d.dropped * 1000 / events
          else loss).toNat,
        (if seen ∧ d.frames * 100 / events < recovery then d.frames * 100 / events
          else recovery).toNat) := by
  have hevents : wrapped (d.frames.toNat + d.dropped.toNat) =
      some (d.frames + d.dropped).toNat := by
    rw [UInt32.toNat_add]
    rfl
  have hpos : ∀ a : UInt32, a.toNat > 0 ↔ a > 0 :=
    fun _ => ⟨fun h => UInt32.lt_iff_toNat_lt.mpr h, fun h => UInt32.lt_iff_toNat_lt.mp h⟩
  simp only [withFrames, hevents, Option.bind_eq_bind, Option.bind_some]
  by_cases hany : d.frames + d.dropped > 0
  · have hany' := (hpos _).mpr hany
    have hdropped : ratio wrapped d.dropped.toNat 1000 (d.frames + d.dropped).toNat =
        some (d.dropped * 1000 / (d.frames + d.dropped)).toNat := ratio_words _ 1000 _ hany'
    have hframes : ratio wrapped d.frames.toNat 100 (d.frames + d.dropped).toNat =
        some (d.frames * 100 / (d.frames + d.dropped)).toNat := ratio_words _ 100 _ hany'
    rw [if_pos hany', hdropped, hframes]
    simp only [Option.bind_some, hpos, hany, true_and]
    by_cases hsome : total > 0 ∨ loss > 0 ∨ d.attempts > 0
    · simp only [hsome, if_true, true_and, gt_iff_lt, ← UInt32.lt_iff_toNat_lt,
        apply_ite UInt32.toNat]
    · simp only [hsome, if_false, false_and]
  · have hnone : ¬(d.frames + d.dropped).toNat > 0 := fun h => hany ((hpos _).mp h)
    rw [if_neg hnone]
    simp only [hany, false_and, if_false]

/-- On the words of the processor there is always a result, so nothing is divided by
zero. -/
theorem lossAndRecovery_wrapped (d : QualityCounters) :
    lossAndRecovery wrapped d = some (d.lossRateX10.toNat, d.recoveryPct.toNat) := by
  have htotal : wrapped (d.recovered.toNat + d.failed.toNat) = some d.totalFecPkts.toNat := by
    rw [totalFecPkts, UInt32.toNat_add]
    rfl
  simp only [lossAndRecovery, htotal, Option.bind_eq_bind, Option.bind_some,
    packetLoss_wrapped, attemptsRatio_wrapped, withFrames_wrapped]
  rw [lossRateX10, recoveryPct]
  by_cases hidle : d.idle = true
  · by_cases hstart : d.decodedNow = 0
    · simp only [hidle, hstart, if_true]
      rfl
    · simp only [hidle, hstart, if_true, if_false]
      rfl
  · simp only [hidle, and_assoc]
    rfl

theorem packetLoss_checked {total r : ℕ} (hle : d.failed.toNat ≤ total) :
    packetLoss checked d total = some r ↔
      d.failed.toNat ≤ 4294967 ∧ r = d.failed.toNat * 1000 / total := by
  rw [packetLoss]
  split
  · rename_i hpos
    rw [ratio_checked hpos]
    omega
  · rename_i hzero
    obtain rfl : total = 0 := by omega
    rw [Option.some.injEq, Nat.div_zero]
    omega

theorem attemptsRatio_checked {r : ℕ} :
    attemptsRatio checked d = some r ↔
      d.attempts.toNat ≤ d.dropped.toNat + 42949672 ∧
        r = if d.attempts > 0 then
          (if d.attempts > d.dropped then (d.attempts - d.dropped).toNat else 0) * 100 /
            d.attempts.toNat
          else 100 := by
  simp only [attemptsRatio]
  by_cases hpos : d.attempts > 0
  · rw [if_pos hpos, if_pos hpos, ratio_checked (UInt32.lt_iff_toNat_lt.mp hpos)]
    refine and_congr_left fun _ => ?_
    split
    · rename_i hmore
      have hlt := UInt32.lt_iff_toNat_lt.mp hmore
      rw [UInt32.toNat_sub_of_le _ _ (UInt32.le_of_lt hmore)]
      omega
    · rename_i hmore
      have hle := UInt32.le_iff_toNat_le.mp (UInt32.not_lt.mp hmore)
      omega
  · have hzero := UInt32.le_iff_toNat_le.mp (UInt32.not_lt.mp hpos)
    have hnil : (0 : UInt32).toNat = 0 := rfl
    rw [if_neg hpos, if_neg hpos, Option.some.injEq]
    omega

theorem withFrames_checked {total loss recovery : ℕ} {r : ℕ × ℕ} :
    withFrames checked d total loss recovery = some r ↔
      d.frames.toNat + d.dropped.toNat < 2 ^ 32 ∧ d.dropped.toNat ≤ 4294967 ∧
        d.frames.toNat ≤ 42949672 ∧
        r = 
          let events := d.frames.toNat + d.dropped.toNat
          let seen := events > 0 ∧ (total > 0 ∨ loss > 0 ∨ d.attempts > 0)
          (if seen ∧ d.dropped.toNat * 1000 / events > loss then
              d.dropped.toNat * 1000 / events else loss,
            if seen ∧ d.frames.toNat * 100 / events < recovery then
              d.frames.toNat * 100 / events else recovery) := by
  rw [withFrames, Option.bind_eq_bind, Option.bind_eq_some_iff]
  by_cases hany : d.frames.toNat + d.dropped.toNat > 0
  · constructor
    · rintro ⟨events, hevents, hr⟩
      obtain ⟨hlt, rfl⟩ := checked_eq_some.mp hevents
      rw [if_pos hany, Option.bind_eq_some_iff] at hr
      obtain ⟨lost, hlost, hr⟩ := hr
      rw [Option.bind_eq_some_iff] at hr
      obtain ⟨seen, hseen, hr⟩ := hr
      obtain ⟨hdropped, rfl⟩ := (ratio_checked hany).mp hlost
      obtain ⟨hframes, rfl⟩ := (ratio_checked hany).mp hseen
      refine ⟨hlt, by omega, by omega, ?_⟩
      split at hr
      · rename_i hsome
        simp only [hany, hsome, and_self, true_and]
        exact (Option.some.inj hr).symm
      · rename_i hsome
        simp only [hsome, and_false, false_and, if_false]
        exact (Option.some.inj hr).symm
    · rintro ⟨hlt, hdropped, hframes, rfl⟩
      refine ⟨_, checked_eq_some.mpr ⟨hlt, rfl⟩, ?_⟩
      rw [if_pos hany, (ratio_checked hany).mpr ⟨by omega, rfl⟩, Option.bind_some,
        (ratio_checked hany).mpr ⟨by omega, rfl⟩, Option.bind_some]
      split
      · rename_i hsome
        simp only [hany, hsome, and_self, true_and]
      · rename_i hsome
        simp only [hsome, and_false, false_and, if_false]
  · have hzero : d.frames.toNat + d.dropped.toNat = 0 := by omega
    constructor
    · rintro ⟨events, hevents, hr⟩
      obtain ⟨hlt, rfl⟩ := checked_eq_some.mp hevents
      rw [if_neg hany] at hr
      refine ⟨hlt, by omega, by omega, ?_⟩
      simp only [hany, false_and, if_false]
      exact (Option.some.inj hr).symm
    · rintro ⟨hlt, -, -, rfl⟩
      refine ⟨_, checked_eq_some.mpr ⟨hlt, rfl⟩, ?_⟩
      rw [if_neg hany]
      simp only [hany, false_and, if_false]

/-- No step overflows just as long as the counters gained little. -/
theorem lossAndRecovery_checked {r : ℕ × ℕ} :
    lossAndRecovery checked d = some r → d.Moderate := by
  intro h
  simp only [lossAndRecovery, Option.bind_eq_bind, Option.bind_eq_some_iff] at h
  obtain ⟨total, htotal, loss, hloss, recovery, hrecovery, result, hresult, -⟩ := h
  obtain ⟨hsum, rfl⟩ := checked_eq_some.mp htotal
  obtain ⟨-, hdropped, hframes, -⟩ := withFrames_checked.mp hresult
  exact ⟨hsum, ((packetLoss_checked (Nat.le_add_left _ _)).mp hloss).1, hdropped, hframes,
    (attemptsRatio_checked.mp hrecovery).1⟩

theorem withFrames_le (hd : d.Moderate) (total : ℕ) {loss : ℕ} (recovery : ℕ)
    (hloss : loss ≤ 1000) :
    ∃ r, withFrames checked d total loss recovery = some r ∧ r.1 ≤ 1000 := by
  have hevents : d.frames.toNat + d.dropped.toNat < 2 ^ 32 := by
    have hframes := hd.frames
    have hdropped := hd.dropped
    omega
  refine ⟨_, withFrames_checked.mpr ⟨hevents, hd.dropped, hd.frames, rfl⟩, ?_⟩
  simp only
  split
  · exact share_le (Nat.le_add_left _ _)
  · exact hloss

theorem Moderate.lossAndRecovery (hd : d.Moderate) :
    ∃ r, lossAndRecovery checked d = some r ∧ r.1 ≤ 1000 := by
  have hfailed : d.failed.toNat ≤ d.recovered.toNat + d.failed.toNat := Nat.le_add_left _ _
  obtain ⟨result, hresult, hle⟩ := withFrames_le hd (d.recovered.toNat + d.failed.toNat)
    (if d.attempts > 0 then
      (if d.attempts > d.dropped then (d.attempts - d.dropped).toNat else 0) * 100 /
        d.attempts.toNat
      else 100)
    (share_le hfailed)
  simp only [QualityCounters.lossAndRecovery, Option.bind_eq_bind, Option.bind_some,
    checked_eq_some.mpr ⟨hd.packets, rfl⟩, (packetLoss_checked hfailed).mpr ⟨hd.failed, rfl⟩,
    attemptsRatio_checked.mpr ⟨hd.success, rfl⟩, hresult]
  refine ⟨_, rfl, ?_⟩
  by_cases hidle : d.idle = true
  · rw [if_pos hidle]
    split
    · exact Nat.zero_le _
    · exact Nat.le_refl _
  · rwa [if_neg hidle]

/-- A result on checked words is the result. -/
theorem lossAndRecovery_of_checked {r : ℕ × ℕ} (h : lossAndRecovery checked d = some r) :
    r = (d.lossRateX10.toNat, d.recoveryPct.toNat) := by
  have hwrapped : lossAndRecovery wrapped d = some r := by
    simp only [QualityCounters.lossAndRecovery, Option.bind_eq_bind,
      Option.bind_eq_some_iff] at h ⊢
    obtain ⟨total, htotal, loss, hloss, recovery, hrecovery, result, hresult, hr⟩ := h
    refine ⟨total, wrapped_of_checked htotal, loss, ?_, recovery, ?_, result, ?_, hr⟩
    · rw [packetLoss] at hloss ⊢
      split
      · rename_i hpos
        rw [if_pos hpos] at hloss
        exact ratio_wrapped_of_checked hpos hloss
      · rename_i hzero
        rwa [if_neg hzero] at hloss
    · simp only [attemptsRatio] at hrecovery ⊢
      split
      · rename_i hpos
        rw [if_pos hpos] at hrecovery
        exact ratio_wrapped_of_checked (UInt32.lt_iff_toNat_lt.mp hpos) hrecovery
      · rename_i hzero
        rwa [if_neg hzero] at hrecovery
    · simp only [withFrames, Option.bind_eq_bind, Option.bind_eq_some_iff] at hresult ⊢
      obtain ⟨events, hevents, hresult⟩ := hresult
      refine ⟨events, wrapped_of_checked hevents, ?_⟩
      split
      · rename_i hpos
        rw [if_pos hpos, Option.bind_eq_some_iff] at hresult
        obtain ⟨lost, hlost, hresult⟩ := hresult
        obtain ⟨seen, hseen, hresult⟩ := Option.bind_eq_some_iff.mp hresult
        rw [ratio_wrapped_of_checked hpos hlost, Option.bind_some,
          ratio_wrapped_of_checked hpos hseen, Option.bind_some]
        exact hresult
      · rename_i hzero
        rwa [if_neg hzero] at hresult
  rw [lossAndRecovery_wrapped] at hwrapped
  exact (Option.some.inj hwrapped).symm

theorem inRange_iff : d.InRange ↔ d.Moderate := by
  constructor
  · intro h
    exact lossAndRecovery_checked h.exact
  · intro hd
    obtain ⟨r, hr, hle⟩ := hd.lossAndRecovery
    obtain rfl := lossAndRecovery_of_checked hr
    exact ⟨hle, recoveryPct_le, hr⟩

end QualityCounters

/-! ## Grading -/

/-- The numbers of the enumeration. -/
def ConnQuality.level : ConnQuality → ℕ
  | excellent => 0
  | good => 1
  | fair => 2
  | poor => 3
  | critical => 4

namespace QualityCounters

variable (d : QualityCounters)

/-- `transport_idle`. -/
def transportIdle : Bool := d.idle && d.decodedNow != 0

/-- The quality that the counters ask for. -/
def quality : ConnQuality :=
  let q : ConnQuality :=
    if d.idle then if d.decodedNow = 0 then .fair else .critical
    else if d.lossRateX10 < 10 ∧ d.recoveryPct ≥ 99 then .excellent
    else if d.lossRateX10 < 30 ∧ d.recoveryPct ≥ 97 then .good
    else if d.lossRateX10 < 80 ∧ d.recoveryPct ≥ 90 then .fair
    else if d.lossRateX10 < 150 ∧ d.recoveryPct ≥ 75 then .poor
    else .critical
  let q : ConnQuality :=
    if d.dropped > 0 ∧ d.totalFecPkts > 0 ∧ q.level < ConnQuality.poor.level then .poor else q
  if d.dropped ≥ 3 ∧ d.totalFecPkts > 0 then .critical else q

end QualityCounters

/-- The counters of the FEC layer. -/
structure FecCounters where
  recovered : UInt32
  failed : UInt32
  dropped : UInt32
  attempts : UInt32

/-- What one evaluation reads.  The counters of the FEC layer are read again when they are
saved; another thread may have changed them by then. -/
structure QualitySnapshot where
  nowUs : UInt32
  fec : FecCounters
  decoded : UInt32
  estimatedBwBps : UInt32
  saved : FecCounters

/-- The state of `update_connection_quality`. -/
structure QualityMonitor where
  prevFec : FecCounters
  prevDecoded : UInt32
  prevTimeUs : UInt32
  pending : ConnQuality
  consecutive : Int32
  committed : ConnQuality
  bwScalePct : ℕ
  report : ConnQualityState
  framesPerSec : UInt32
  bwEstimateBps : UInt32

namespace QualityMonitor

def initial : QualityMonitor where
  prevFec := ⟨0, 0, 0, 0⟩
  prevDecoded := 0
  prevTimeUs := 0
  pending := .fair
  consecutive := 0
  committed := .fair
  bwScalePct := 100
  report := initialQuality
  framesPerSec := 0
  bwEstimateBps := 0

/-- What the counters have gained. -/
def gained (s : QualityMonitor) (x : QualitySnapshot) : QualityCounters where
  recovered := x.fec.recovered - s.prevFec.recovered
  failed := x.fec.failed - s.prevFec.failed
  dropped := x.fec.dropped - s.prevFec.dropped
  attempts := x.fec.attempts - s.prevFec.attempts
  frames := x.decoded - s.prevDecoded
  decodedNow := x.decoded
  estimatedBwBps := x.estimatedBwBps

/-- `dt_us`. -/
def elapsedUs (s : QualityMonitor) (x : QualitySnapshot) : UInt32 :=
  let dtUs := if s.prevTimeUs ≠ 0 then x.nowUs - s.prevTimeUs else 1000000
  if dtUs = 0 then 1 else dtUs

/-- `required_consecutive`. -/
def requiredConsecutive (s : QualityMonitor) (d : QualityCounters) : ℕ :=
  if d.quality.level > s.committed.level then
    if d.transportIdle ∨ d.dropped ≥ 2 then 1 else 2
  else 3

/-- The quality is counted, as one more in a row or as the first one. -/
def count (s : QualityMonitor) (q : ConnQuality) : QualityMonitor :=
  if q = s.pending then { s with consecutive := s.consecutive + 1 }
  else { s with pending := q, consecutive := 1 }

/-- The quality is committed if it came often enough. -/
def commit (s : QualityMonitor) (d : QualityCounters) : QualityMonitor :=
  let q := d.quality
  if s.consecutive.toInt ≥ s.requiredConsecutive d ∧ q ≠ s.committed then
    { s with
      bwScalePct :=
        if q.level ≥ ConnQuality.critical.level then 60
        else if q.level ≥ ConnQuality.poor.level then 75
        else 100
      committed := q }
  else s

/-- `update_connection_quality`. -/
def update (s : QualityMonitor) (x : QualitySnapshot) : QualityMonitor :=
  let d := s.gained x
  let t := (s.count d.quality).commit d
  { t with
    prevFec := x.saved
    prevDecoded := x.decoded
    prevTimeUs := x.nowUs
    report := updateConnectionQuality t.committed d
    framesPerSec := d.frames * 1000000 / s.elapsedUs x
    bwEstimateBps := x.estimatedBwBps }

def run (s : QualityMonitor) (snapshots : List QualitySnapshot) : QualityMonitor :=
  snapshots.foldl update s

/-- The qualities that the evaluations asked for. -/
def asked (s : QualityMonitor) : List QualitySnapshot → List ConnQuality
  | [] => []
  | x :: rest => (s.gained x).quality :: (s.update x).asked rest

/-! ## The grade over a run -/

/-- The pending quality was asked for by the last evaluations, as many as are counted. -/
def Counted (s : QualityMonitor) (qualities : List ConnQuality) : Prop :=
  ∃ n, List.replicate n s.pending <:+ qualities ∧ s.consecutive = Int32.ofNat n

theorem elapsedUs_pos (s : QualityMonitor) (x : QualitySnapshot) : 0 < s.elapsedUs x := by
  simp only [elapsedUs]
  generalize (if s.prevTimeUs ≠ 0 then x.nowUs - s.prevTimeUs else 1000000) = dtUs
  split
  · exact Nat.one_pos
  · rename_i hzero
    exact UInt32.pos_iff_ne_zero.mpr hzero

theorem replicate_concat_suffix {α : Type} {n : ℕ} {a : α} {l : List α}
    (h : List.replicate n a <:+ l) : List.replicate (n + 1) a <:+ l ++ [a] := by
  obtain ⟨front, rfl⟩ := h
  refine ⟨front, ?_⟩
  rw [List.append_assoc, ← List.replicate_succ']

variable {s : QualityMonitor} {qualities : List ConnQuality}

theorem Counted.count (h : s.Counted qualities) (q : ConnQuality) :
    (s.count q).pending = q ∧ (s.count q).Counted (qualities ++ [q]) := by
  rw [QualityMonitor.count]
  split
  · rename_i hsame
    obtain ⟨n, hsuffix, hcount⟩ := h
    refine ⟨hsame.symm, n + 1, ?_, ?_⟩
    · subst hsame
      exact replicate_concat_suffix hsuffix
    · show s.consecutive + 1 = _
      rw [hcount, Int32.ofNat_add]
      rfl
  · exact ⟨rfl, 1, List.suffix_append _ _, rfl⟩

/-- A counter that has come to a number has counted that far. -/
theorem le_of_toInt_ofNat {n required : ℕ} (h : (Int32.ofNat n).toInt ≥ required) :
    required ≤ n := by
  rw [Int32.toInt_ofNat'] at h
  have hsize : Int32.size = 4294967296 := rfl
  rw [hsize] at h
  simp only [Int.bmod] at h
  split at h
  · omega
  · omega

theorem Counted.update (h : s.Counted qualities) (x : QualitySnapshot) :
    (s.update x).Counted (qualities ++ [(s.gained x).quality]) := by
  obtain ⟨-, n, hsuffix, hcount⟩ := h.count (s.gained x).quality
  simp only [QualityMonitor.update, commit]
  split
  · exact ⟨n, hsuffix, hcount⟩
  · exact ⟨n, hsuffix, hcount⟩

/-- A new quality is committed only if it came often enough in a row. -/
theorem Counted.committed (h : s.Counted qualities) (x : QualitySnapshot)
    (hnew : (s.update x).committed ≠ s.committed) :
    (s.update x).committed = (s.gained x).quality ∧
      List.replicate (s.requiredConsecutive (s.gained x)) (s.update x).committed <:+
        qualities ++ [(s.gained x).quality] := by
  obtain ⟨hpending, n, hsuffix, hcount⟩ := h.count (s.gained x).quality
  have hsame : (s.count (s.gained x).quality).committed = s.committed := by
    rw [QualityMonitor.count]
    split
    · rfl
    · rfl
  have hrequired : (s.count (s.gained x).quality).requiredConsecutive (s.gained x) =
      s.requiredConsecutive (s.gained x) := by
    rw [requiredConsecutive, requiredConsecutive, hsame]
  simp only [QualityMonitor.update, commit] at hnew ⊢
  split at hnew
  · rename_i hoften
    rw [if_pos hoften]
    rw [hcount, hrequired] at hoften
    refine ⟨rfl, ?_⟩
    rw [hpending] at hsuffix
    refine List.IsSuffix.trans ?_ hsuffix
    obtain ⟨more, rfl⟩ := Nat.exists_eq_add_of_le' (le_of_toInt_ofNat hoften.1)
    rw [List.replicate_add]
    exact List.suffix_append _ _
  · exact absurd hsame hnew

theorem counted_run (h : s.Counted qualities) (snapshots : List QualitySnapshot) :
    (s.run snapshots).Counted (qualities ++ s.asked snapshots) := by
  induction snapshots generalizing s qualities with
  | nil =>
      rw [asked, List.append_nil]
      exact h
  | cons x rest ih =>
      have hrest := ih (h.update x)
      rw [List.append_assoc] at hrest
      exact hrest

theorem asked_concat (snapshots : List QualitySnapshot) (x : QualitySnapshot) :
    s.asked (snapshots ++ [x]) =
      s.asked snapshots ++ [((s.run snapshots).gained x).quality] := by
  induction snapshots generalizing s with
  | nil => rfl
  | cons y rest ih =>
      rw [List.cons_append, asked, ih]
      rfl

/-- Whatever the counters do, nothing is divided by zero and a new quality is committed
only after it was asked for often enough in a row; the loss and the recovery ratio are
right just as long as the counters gain little between two evaluations. -/
theorem connectionQuality_run (snapshots : List QualitySnapshot) (x : QualitySnapshot) :
    let s := initial.run snapshots
    let d := s.gained x
    let t := s.update x
    d.lossAndRecovery wrapped =
        some (t.report.lossRatePct.toNat, t.report.fecRecoveryPct.toNat) ∧
      0 < s.elapsedUs x ∧
      (d.InRange ↔ d.Moderate) ∧
      t.report.quality = t.committed ∧
      (t.committed ≠ s.committed →
        List.replicate (s.requiredConsecutive d) t.committed <:+
          initial.asked (snapshots ++ [x])) := by
  intro s d t
  have hstart : initial.Counted [] := ⟨0, List.nil_suffix, rfl⟩
  have hcounted : s.Counted (initial.asked snapshots) := counted_run hstart snapshots
  refine ⟨QualityCounters.lossAndRecovery_wrapped d, elapsedUs_pos s x,
    QualityCounters.inRange_iff, rfl, ?_⟩
  intro hnew
  rw [asked_concat]
  exact (hcounted.committed x hnew).2

/-- The decoder was started again, and two frames were lost since: the loss comes to
200%. -/
theorem connectionQuality_restart :
    let before : QualitySnapshot := ⟨1000000, ⟨0, 0, 0, 0⟩, 1, 60000, ⟨0, 0, 0, 0⟩⟩
    let x : QualitySnapshot := ⟨2000000, ⟨0, 0, 2, 1⟩, 0, 60000, ⟨0, 0, 2, 1⟩⟩
    ((initial.run [before]).update x).report.lossRatePct = 2000 ∧
      ¬((initial.run [before]).gained x).InRange := by
  have hloss : ((initial.run [⟨1000000, ⟨0, 0, 0, 0⟩, 1, 60000, ⟨0, 0, 0, 0⟩⟩]).update
      ⟨2000000, ⟨0, 0, 2, 1⟩, 0, 60000, ⟨0, 0, 2, 1⟩⟩).report.lossRatePct = 2000 := by
    decide
  refine ⟨hloss, ?_⟩
  intro h
  have hle : (2000 : UInt32).toNat ≤ 1000 := hloss ▸ h.loss_le
  exact absurd hle (by decide)

end QualityMonitor

end MoonlightPsp.Bitrate
