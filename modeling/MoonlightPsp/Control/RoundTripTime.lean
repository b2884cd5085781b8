import Mathlib.Data.List.Induction
import MoonlightPsp.Control.Retransmit
import MoonlightPsp.Lib.CheckedInt
import MoonlightPsp.Lib.CheckedWord

/-!
# The arithmetic of the retransmit timeout

The round trip times are smoothed by a filter in unsigned words that takes one difference
in signed ones.  Samples below five seconds keep every number of it small, so that the
words hold the numbers themselves.
-/

namespace MoonlightPsp.Control

open CheckedInt CheckedWord

/-! ## The filter on numbers -/

/-- The distance from zero. -/
def distance (delta : ℤ) : Option ℤ := if delta < 0 then int (-delta) else some delta

/-- `Rtt.smooth`, if no step of it overflows: the smoothed time and its variance. -/
def Rtt.smoothChecked (r : Rtt) (rttSampleUs : UInt32) : Option (ℕ × ℕ) :=
  if !r.initialized then
    some (rttSampleUs.toNat, rttSampleUs.toNat / 2)
  else do
    let sample ← int rttSampleUs.toNat
    let srtt ← int r.srttUs.toNat
    let delta ← int (sample - srtt)
    let delta ← distance delta
    let threeVar ← checked (3 * r.rttvarUs.toNat)
    let sumVar ← checked (threeVar + delta.toNat)
    let sevenSrtt ← checked (7 * r.srttUs.toNat)
    let sumSrtt ← checked (sevenSrtt + rttSampleUs.toNat)
    some (sumSrtt / 8, sumVar / 4)

/-- `rttUpdate`, if no step of it overflows: the two smoothed values and the timeout. -/
def rttUpdateChecked (r : Rtt) (rttSampleUs : UInt32) : Option (ℕ × ℕ × ℕ) := do
  let smoothed ← r.smoothChecked rttSampleUs
  let fourVar ← checked (4 * smoothed.2)
  let rto ← checked (smoothed.1 + fourVar)
  let rto := if rto < 50000 then 50000 else rto
  some (smoothed.1, smoothed.2, if rto > 1000000 then 1000000 else rto)

/-- The smoothed time and its variance, without words. -/
def Rtt.smoothed (r : Rtt) (sample : ℕ) : ℕ × ℕ :=
  if !r.initialized then (sample, sample / 2)
  else
    ((7 * r.srttUs.toNat + sample) / 8,
      (3 * r.rttvarUs.toNat + ((sample : ℤ) - r.srttUs.toNat).natAbs) / 4)

/-- What `retx_ack` lets through. -/
def IsSample (sample : UInt32) : Prop := 0 < sample.toNat ∧ sample.toNat < 5000000

/-- The smoothed values of samples below five seconds. -/
structure Rtt.Small (r : Rtt) : Prop where
  srtt : r.srttUs.toNat < 5000000
  rttvar : r.rttvarUs.toNat < 5000000

variable {r : Rtt} {sample : UInt32}

theorem small_reset : Rtt.reset.Small := by
  constructor
  · decide
  · decide

theorem smoothed_lt (hr : r.Small) (hs : IsSample sample) :
    (r.smoothed sample.toNat).1 < 5000000 ∧ (r.smoothed sample.toNat).2 < 5000000 := by
  have hsrtt := hr.srtt
  have hrttvar := hr.rttvar
  have hsample := hs.2
  rw [Rtt.smoothed]
  split
  · exact ⟨hsample, by omega⟩
  · constructor
    · omega
    · omega

/-! ## No step overflows -/

theorem int_of_small {n : ℤ} (hlo : -5000000 < n) (hhi : n < 5000000) : int n = some n := by
  apply int_of_bounds
  · omega
  · omega

theorem checked_of_small {n : ℕ} (hn : n < 40000000) : checked n = some n := by
  apply checked_of_lt
  omega

theorem distance_of_small {n : ℤ} (hlo : -5000000 < n) (hhi : n < 5000000) :
    distance n = some (n.natAbs : ℤ) := by
  rw [distance]
  split
  · rename_i hneg
    rw [int_of_small (by omega) (by omega)]
    congr 1
    omega
  · rename_i hpos
    congr 1
    omega

theorem smoothChecked_eq (hr : r.Small) (hs : IsSample sample) :
    r.smoothChecked sample = some (r.smoothed sample.toNat) := by
  have hsrtt := hr.srtt
  have hrttvar := hr.rttvar
  have hsample := hs.2
  rw [Rtt.smoothChecked, Rtt.smoothed]
  split
  · rfl
  · have hdelta : distance ((sample.toNat : ℤ) - r.srttUs.toNat) =
        some (((sample.toNat : ℤ) - r.srttUs.toNat).natAbs : ℤ) := by
      apply distance_of_small
      · omega
      · omega
    rw [int_of_small (by omega) (by omega), int_of_small (by omega) (by omega)]
    simp only [Option.bind_eq_bind, Option.bind_some]
    rw [int_of_small (by omega) (by omega), Option.bind_some, hdelta, Option.bind_some,
      Int.toNat_natCast]
    rw [checked_of_small (by omega), Option.bind_some, checked_of_small (by omega),
      Option.bind_some, checked_of_small (by omega), Option.bind_some,
      checked_of_small (by omega), Option.bind_some]

/-- A timeout clamped to its bounds. -/
def clampRto (rto : ℕ) : ℕ :=
  let rto := if rto < 50000 then 50000 else rto
  if rto > 1000000 then 1000000 else rto

theorem clampRto_bounds (rto : ℕ) : 50000 ≤ clampRto rto ∧ clampRto rto ≤ 1000000 := by
  simp only [clampRto]
  split
  · split
    · omega
    · omega
  · split
    · omega
    · omega

theorem rttUpdateChecked_eq (hr : r.Small) (hs : IsSample sample) :
    rttUpdateChecked r sample =
      some ((r.smoothed sample.toNat).1, (r.smoothed sample.toNat).2,
        clampRto ((r.smoothed sample.toNat).1 + 4 * (r.smoothed sample.toNat).2)) := by
  have hlt := smoothed_lt hr hs
  rw [rttUpdateChecked, smoothChecked_eq hr hs]
  simp only [Option.bind_eq_bind, Option.bind_some]
  rw [checked_of_small (by omega), Option.bind_some, checked_of_small (by omega),
    Option.bind_some, clampRto]

/-! ## What the words hold -/

theorem toInt_toInt32 {w : UInt32} (hw : w.toNat < 5000000) : w.toInt32.toInt = w.toNat := by
  apply BitVec.toInt_eq_toNat_of_lt
  change 2 * w.toNat < 2 ^ 32
  omega

theorem toNat_toUInt32 {w : Int32} {n : ℕ} (hw : w.toInt = n) : w.toUInt32.toNat = n := by
  have h0 : 0 ≤ w := by
    rw [Int32.le_iff_toInt_le, hw]
    exact Int.natCast_nonneg n
  rw [Int32.toNat_toUInt32_of_le h0, Int32.toNatClampNeg, hw, Int.toNat_natCast]

/-- The difference of the source, as a word. -/
theorem toNat_distance {a b : UInt32} (ha : a.toNat < 5000000) (hb : b.toNat < 5000000) :
    (if a.toInt32 - b.toInt32 < 0 then -(a.toInt32 - b.toInt32)
      else a.toInt32 - b.toInt32).toUInt32.toNat = ((a.toNat : ℤ) - b.toNat).natAbs := by
  have hdiff : (a.toInt32 - b.toInt32).toInt = (a.toNat : ℤ) - b.toNat := by
    rw [Int32.toInt_sub, toInt_toInt32 ha, toInt_toInt32 hb]
    exact Int.bmod_eq_of_le (by omega) (by omega)
  apply toNat_toUInt32
  split
  · rename_i hneg
    rw [Int32.lt_iff_toInt_lt, hdiff, Int32.toInt_zero] at hneg
    rw [Int32.toInt_neg, hdiff, Int.bmod_eq_of_le (by omega) (by omega)]
    omega
  · rename_i hpos
    rw [Int32.lt_iff_toInt_lt, hdiff, Int32.toInt_zero] at hpos
    rw [hdiff]
    omega

theorem toNat_smooth (hr : r.Small) (hs : IsSample sample) :
    ((r.smooth sample).srttUs.toNat, (r.smooth sample).rttvarUs.toNat) =
      r.smoothed sample.toNat := by
  have hsrtt := hr.srtt
  have hrttvar := hr.rttvar
  have hsample := hs.2
  rw [Rtt.smooth, Rtt.smoothed]
  split
  · rfl
  · have hdist := toNat_distance hsample hsrtt
    ext
    · change (7 * r.srttUs.toNat % 2 ^ 32 + sample.toNat) % 2 ^ 32 / 8 = _
      omega
    · change (3 * r.rttvarUs.toNat % 2 ^ 32 + (_ : UInt32).toNat) % 2 ^ 32 / 4 = _
      rw [hdist]
      omega

theorem toNat_clampRto {rto : UInt32} :
    (let rto := if rto < rtoMinUs then rtoMinUs else rto
      if rto > rtoMaxUs then rtoMaxUs else rto).toNat = clampRto rto.toNat := by
  simp only [clampRto, rtoMinUs, rtoMaxUs, UInt32.lt_iff_toNat_lt, gt_iff_lt, apply_ite UInt32.toNat]
  rfl

/-- What the estimator holds, as numbers. -/
def Rtt.values (r : Rtt) : ℕ × ℕ × ℕ := (r.srttUs.toNat, r.rttvarUs.toNat, r.rtoUs.toNat)

theorem values_rttUpdate (hr : r.Small) (hs : IsSample sample) :
    (rttUpdate r sample).values =
      ((r.smoothed sample.toNat).1, (r.smoothed sample.toNat).2,
        clampRto ((r.smoothed sample.toNat).1 + 4 * (r.smoothed sample.toNat).2)) := by
  have hlt := smoothed_lt hr hs
  have hsmooth := toNat_smooth hr hs
  rw [← hsmooth] at hlt ⊢
  have hrto : ((r.smooth sample).srttUs + 4 * (r.smooth sample).rttvarUs).toNat =
      (r.smooth sample).srttUs.toNat + 4 * (r.smooth sample).rttvarUs.toNat := by
    change ((r.smooth sample).srttUs.toNat +
      4 * (r.smooth sample).rttvarUs.toNat % 2 ^ 32) % 2 ^ 32 = _
    omega
  rw [← hrto, ← toNat_clampRto]
  rfl

/-- The numbers of an update are those of the words, and none overflowed. -/
theorem rttUpdateChecked_values (hr : r.Small) (hs : IsSample sample) :
    rttUpdateChecked r sample = some (rttUpdate r sample).values := by
  rw [rttUpdateChecked_eq hr hs, values_rttUpdate hr hs]

theorem Rtt.Small.rttUpdate (hr : r.Small) (hs : IsSample sample) :
    (rttUpdate r sample).Small := by
  have hlt := smoothed_lt hr hs
  have hvalues := values_rttUpdate hr hs
  rw [Rtt.values, Prod.mk.injEq, Prod.mk.injEq] at hvalues
  obtain ⟨hsrtt, hrttvar, -⟩ := hvalues
  exact ⟨hsrtt ▸ hlt.1, hrttvar ▸ hlt.2⟩

/-! ## Runs -/

/-- The estimator of a session after these samples, the oldest first. -/
def rttAfter (samples : List UInt32) : Rtt := samples.foldl rttUpdate Rtt.reset

theorem rttAfter_concat (samples : List UInt32) (sample : UInt32) :
    rttAfter (samples ++ [sample]) = rttUpdate (rttAfter samples) sample := by
  rw [rttAfter, List.foldl_append]
  rfl

/-- The smoothed time lies between two of the samples. -/
structure Rtt.Between (r : Rtt) (samples : List UInt32) : Prop where
  least : ∃ low ∈ samples, low.toNat ≤ r.srttUs.toNat
  greatest : ∃ high ∈ samples, r.srttUs.toNat ≤ high.toNat

/-- The timeout is between `RTO_MIN_US` and `RTO_MAX_US`. -/
def Rtt.InRange (r : Rtt) : Prop := 50000 ≤ r.rtoUs.toNat ∧ r.rtoUs.toNat ≤ 1000000

/-- What holds between the updates: no number is large, the first sample sets the flag and
from then on the smoothed time is between two samples. -/
structure Rtt.Inv (r : Rtt) (samples : List UInt32) : Prop where
  small : r.Small
  between : r.initialized = true → r.Between samples
  inRange : r.InRange

theorem initialized_rttUpdate (r : Rtt) (sample : UInt32) :
    (rttUpdate r sample).initialized = true := by
  change (r.smooth sample).initialized = true
  rw [Rtt.smooth]
  split
  · rfl
  · rename_i h
    change r.initialized = true
    rwa [Bool.not_eq_true', Bool.not_eq_false] at h

theorem inRange_reset : Rtt.reset.InRange := by
  constructor
  · decide
  · decide

theorem inRange_rttUpdate (hr : r.Small) (hs : IsSample sample) :
    (rttUpdate r sample).InRange := by
  have hrto : (rttUpdate r sample).rtoUs.toNat = _ :=
    congrArg (fun v => v.2.2) (values_rttUpdate hr hs)
  rw [Rtt.InRange, hrto]
  exact clampRto_bounds _

/-- The step of the run: a mean of the old value and the sample, rounded downwards, does not
leave what lies between them. -/
theorem Rtt.Inv.rttUpdate {samples : List UInt32} (hr : r.Inv samples) (hs : IsSample sample) :
    (rttUpdate r sample).Inv (samples ++ [sample]) := by
  refine ⟨hr.small.rttUpdate hs, ?_, inRange_rttUpdate hr.small hs⟩
  intro _
  have hsrtt : (Control.rttUpdate r sample).srttUs.toNat = (r.smoothed sample.toNat).1 :=
    congrArg Prod.fst (values_rttUpdate hr.small hs)
  have hlast : sample ∈ samples ++ [sample] := List.mem_append_right _ (List.mem_singleton_self _)
  rw [Rtt.smoothed] at hsrtt
  split at hsrtt
  · exact ⟨⟨sample, hlast, hsrtt.ge⟩, ⟨sample, hlast, hsrtt.le⟩⟩
  · rename_i hinit
    rw [Bool.not_eq_true', Bool.not_eq_false] at hinit
    obtain ⟨⟨low, hlow, hle⟩, ⟨high, hhigh, hge⟩⟩ := hr.between hinit
    constructor
    · by_cases hcase : sample.toNat ≤ r.srttUs.toNat
      · exact ⟨sample, hlast, by omega⟩
      · exact ⟨low, List.mem_append_left _ hlow, by omega⟩
    · by_cases hcase : sample.toNat ≤ r.srttUs.toNat
      · exact ⟨high, List.mem_append_left _ hhigh, by omega⟩
      · exact ⟨sample, hlast, by omega⟩

theorem inv_rttAfter {samples : List UInt32} (h : ∀ s ∈ samples, IsSample s) :
    (rttAfter samples).Inv samples := by
  induction samples using List.reverseRecOn with
  | nil =>
      refine ⟨small_reset, ?_, inRange_reset⟩
      intro hinit
      cases hinit
  | append_singleton samples sample ih =>
      rw [rttAfter_concat]
      have hsamples : ∀ s ∈ samples, IsSample s := by
        intro s hs
        exact h s (List.mem_append_left _ hs)
      apply (ih hsamples).rttUpdate
      exact h sample (List.mem_append_right _ (List.mem_singleton_self sample))

/-- After any samples, one more update overflows nowhere, leaves the smoothed time between
two of the samples and the timeout between its bounds. -/
theorem rttUpdate_in_bounds (samples : List UInt32) (sample : UInt32)
    (h : ∀ s ∈ samples ++ [sample], IsSample s) :
    rttUpdateChecked (rttAfter samples) sample = some (rttAfter (samples ++ [sample])).values ∧
      (rttAfter (samples ++ [sample])).Between (samples ++ [sample]) ∧
      (rttAfter (samples ++ [sample])).InRange := by
  have hbefore : (rttAfter samples).Inv samples := by
    apply inv_rttAfter
    intro s hs
    exact h s (List.mem_append_left _ hs)
  have hs : IsSample sample := h sample (List.mem_append_right _ (List.mem_singleton_self sample))
  have hafter := inv_rttAfter h
  rw [rttAfter_concat] at hafter ⊢
  refine ⟨rttUpdateChecked_values hbefore.small hs, ?_, hafter.inRange⟩
  apply hafter.between
  exact initialized_rttUpdate _ _

/-- A fast network and then a slow packet. -/
theorem rttUpdate_in_bounds_spike :
    (∀ s ∈ [(2000 : UInt32), 3000, 2500] ++ [4999999], IsSample s) ∧
      rttUpdateChecked (rttAfter [2000, 3000, 2500]) 4999999 =
        some (rttAfter ([2000, 3000, 2500] ++ [4999999])).values ∧
      (rttAfter ([2000, 3000, 2500] ++ [4999999])).Between ([2000, 3000, 2500] ++ [4999999]) ∧
      (rttAfter ([2000, 3000, 2500] ++ [4999999])).InRange := by
  have h : ∀ s ∈ [(2000 : UInt32), 3000, 2500] ++ [4999999], IsSample s := by
    simp [IsSample]
  exact ⟨h, rttUpdate_in_bounds [2000, 3000, 2500] 4999999 h⟩

/-! ## The samples of the control channel -/

/-- An ACK gives no sample, or one that is between 0 and 5 seconds. -/
theorem rtt_controlRetxAck (c : Globals) (channel : UInt8) (seq : UInt16) (now : UInt32) :
    (controlRetxAck c channel seq now).rtt = c.rtt ∨
      ∃ sample, IsSample sample ∧
        (controlRetxAck c channel seq now).rtt = rttUpdate c.rtt sample := by
  rw [controlRetxAck]
  split
  · exact Or.inl rfl
  · rename_i i hslot
    by_cases hsample : (c.retxRing i).retries = 0 ∧ now - (c.retxRing i).sendTimeUs > 0 ∧
        now - (c.retxRing i).sendTimeUs < 5000000
    · refine Or.inr ⟨now - (c.retxRing i).sendTimeUs, ⟨hsample.2.1, hsample.2.2⟩, ?_⟩
      exact if_pos hsample
    · exact Or.inl (if_neg hsample)

/-- The estimator has seen samples of the right size only. -/
def Sampled (r : Rtt) : Prop :=
  ∃ samples : List UInt32, (∀ s ∈ samples, IsSample s) ∧ r = rttAfter samples

theorem Sampled.controlRetxAck {c : Globals} (h : Sampled c.rtt) (channel : UInt8)
    (seq : UInt16) (now : UInt32) : Sampled (controlRetxAck c channel seq now).rtt := by
  rcases rtt_controlRetxAck c channel seq now with hsame | ⟨sample, hs, hnew⟩
  · rwa [hsame]
  · obtain ⟨samples, hsamples, hr⟩ := h
    refine ⟨samples ++ [sample], ?_, by rw [hnew, hr, rttAfter_concat]⟩
    intro s hmem
    rcases List.mem_append.mp hmem with hold | hlast
    · exact hsamples s hold
    · rwa [List.mem_singleton.mp hlast]

/-- In a session the timeout is never out of its range. -/
theorem Sampled.inRange (h : Sampled r) : r.InRange := by
  obtain ⟨samples, hsamples, rfl⟩ := h
  exact (inv_rttAfter hsamples).inRange

theorem sampled_retxClear (c : Globals) : Sampled (retxClear c).rtt := by
  refine ⟨[], ?_, rfl⟩
  intro s hs
  exact absurd hs List.not_mem_nil

end MoonlightPsp.Control
