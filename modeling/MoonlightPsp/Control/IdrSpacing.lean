import MoonlightPsp.Control.Receive
import Mathlib.Algebra.Group.Int.Defs
import Mathlib.Algebra.Group.Nat.Defs

/-!
# How far IDR requests are apart

Four functions ask the host for an IDR frame, and share the backoff.  They are called
by several threads, in any order.
-/

namespace MoonlightPsp.Control

/-! ## Calls -/

/-- `control_stream_request_idr_recovery_fast`. -/
def controlStreamRequestIdrRecoveryFast (gcm : Gcm) (env : IdrEnv) (r : Receiver) :
    ℤ × Receiver :=
  let last := r.idr.lastIdrTick
  if last ≠ 0 ∧ env.forceTick - last < 500000 then (0, r)
  else
    controlStreamRequestIdr gcm env
      { r with idr := { r.idr with idrCount := 0, idrBackoffUs := 500000 } }

/-- The functions that ask for an IDR frame. -/
inductive IdrEntry where
  | request
  | force
  | recoveryFast
  | startup

def IdrEntry.call (gcm : Gcm) : IdrEntry → IdrEnv → Receiver → ℤ × Receiver
  | request => controlStreamRequestIdr gcm
  | force => controlStreamRequestIdrForce gcm
  | recoveryFast => controlStreamRequestIdrRecoveryFast gcm
  | startup => controlStreamRequestIdrStartup gcm

/-- A call, with what it reads and with the state it finds; of this the backoff is left
by the calls before. -/
structure IdrCall where
  entry : IdrEntry
  env : IdrEnv
  receiver : Receiver

/-- The readings of the clock. -/
def IdrCall.ticks (c : IdrCall) : List UInt64 :=
  match c.entry with
  | .request => [c.env.tick]
  | _ => [c.env.forceTick, c.env.tick]

def IdrCall.before (c : IdrCall) (idr : IdrPacing) : Receiver := { c.receiver with idr }

def IdrCall.after (gcm : Gcm) (c : IdrCall) (idr : IdrPacing) : Receiver :=
  (c.entry.call gcm c.env (c.before idr)).2

/-- The tick of the request, if one was transmitted. -/
def IdrCall.transmitted (gcm : Gcm) (c : IdrCall) (idr : IdrPacing) : Option UInt64 :=
  if (c.before idr).replies.length < (c.after gcm idr).replies.length ∧ 0 < c.env.tx then
    some c.env.tick
  else none

/-- One call more: the backoff, and the ticks of the transmitted requests. -/
def idrStep (gcm : Gcm) (s : IdrPacing × List UInt64) (c : IdrCall) :
    IdrPacing × List UInt64 :=
  ((c.after gcm s.1).idr, s.2 ++ (c.transmitted gcm s.1).toList)

/-- The calls since the backoff was reset. -/
def runIdr (gcm : Gcm) (calls : List IdrCall) : IdrPacing × List UInt64 :=
  calls.foldl (idrStep gcm) (.reset, [])

/-- The call was let through, and has noted its time. -/
def IdrCall.counts (gcm : Gcm) (c : IdrCall) (idr : IdrPacing) : Bool :=
  (c.after gcm idr).idr.lastIdrTick ≠ idr.lastIdrTick

/-- How many calls are let through, whether or not the send succeeds. -/
def requestsFrom (gcm : Gcm) (idr : IdrPacing) : List IdrCall → ℕ
  | [] => 0
  | c :: cs => (c.counts gcm idr).toNat + requestsFrom gcm (c.after gcm idr).idr cs

/-! ## One request -/

variable {gcm : Gcm} {env : IdrEnv} {r : Receiver} {i i' : IdrPacing}

/-- The backoff interval lies between half a second and two seconds. -/
structure IdrPacing.InRange (i : IdrPacing) : Prop where
  ge : 500000 ≤ i.idrBackoffUs.toNat
  le : i.idrBackoffUs.toNat ≤ 2000000

theorem IdrPacing.relax_idrBackoffUs (i : IdrPacing) (env : IdrEnv) :
    (i.relax env).idrBackoffUs = i.idrBackoffUs ∨ (i.relax env).idrBackoffUs = 500000 ∨
      (i.relax env).idrBackoffUs = i.idrBackoffUs / 2 ∧ ¬ i.idrBackoffUs / 2 < 500000 := by
  simp only [relax]
  generalize i.idrBackoffUs = backoff
  by_cases hdecoded : env.idrFullyDecoded ∧ !i.idrPrevDecoded
  · simp only [if_pos hdecoded]
    by_cases hlong : backoff > 500000
    · simp only [if_pos hlong]
      by_cases hshort : backoff / 2 < 500000
      · simp only [if_pos hshort]
        split
        · exact .inr (.inl rfl)
        · exact .inr (.inl rfl)
      · simp only [if_neg hshort]
        split
        · exact .inr (.inl rfl)
        · exact .inr (.inr ⟨rfl, hshort⟩)
    · simp only [if_neg hlong]
      split
      · split
        · exact .inr (.inl rfl)
        · exact .inr (.inl rfl)
      · split
        · exact .inr (.inl rfl)
        · exact .inl rfl
  · simp only [if_neg hdecoded]
    split
    · exact .inr (.inl rfl)
    · exact .inl rfl

theorem IdrPacing.InRange.relax (h : i.InRange) : (i.relax env).InRange := by
  obtain ⟨hge, hle⟩ := h
  rcases i.relax_idrBackoffUs env with hsame | hreset | ⟨hhalf, hlong⟩
  · exact ⟨by rw [hsame]; exact hge, by rw [hsame]; exact hle⟩
  · exact ⟨by rw [hreset]; decide, by rw [hreset]; decide⟩
  · rw [UInt32.lt_iff_toNat_lt, UInt32.toNat_div] at hlong
    constructor
    · rw [hhalf, UInt32.toNat_div]
      exact Nat.le_of_not_lt hlong
    · rw [hhalf, UInt32.toNat_div]
      exact (Nat.div_le_self _ _).trans hle

theorem IdrPacing.InRange.count (h : i.InRange) : (i.count env).InRange := by
  obtain ⟨hge, hle⟩ := h
  have hdouble : (i.idrBackoffUs * 2).toNat = i.idrBackoffUs.toNat * 2 := by
    rw [UInt32.toNat_mul]
    exact Nat.mod_eq_of_lt (show i.idrBackoffUs.toNat * 2 < 2 ^ 32 by omega)
  rw [IdrPacing.count]
  split
  · split
    · exact ⟨show 500000 ≤ 2000000 by decide, show 2000000 ≤ 2000000 by decide⟩
    · rename_i hshort
      rw [gt_iff_lt, UInt32.lt_iff_toNat_lt, hdouble] at hshort
      constructor
      · show 500000 ≤ (i.idrBackoffUs * 2).toNat
        omega
      · show (i.idrBackoffUs * 2).toNat ≤ 2000000
        rw [hdouble]
        exact Nat.le_of_not_lt hshort
  · exact ⟨hge, hle⟩

/-- No request was made in between. -/
structure IdrPacing.SameRequest (i i' : IdrPacing) : Prop where
  tick : i'.lastIdrTick = i.lastIdrTick
  count : i'.idrCount = i.idrCount
  inRange : i.InRange → i'.InRange

theorem IdrPacing.sameRequest_refl (i : IdrPacing) : i.SameRequest i := ⟨rfl, rfl, id⟩

theorem IdrPacing.sameRequest_relax : i.SameRequest (i.relax env) :=
  ⟨rfl, rfl, fun h => h.relax⟩

/-- A request is only sent, or counted, when it is not throttled. -/
theorem controlStreamRequestIdr_cases (gcm : Gcm) (env : IdrEnv) (r : Receiver) :
    (r.idr.SameRequest (controlStreamRequestIdr gcm env r).2.idr ∧
      (controlStreamRequestIdr gcm env r).2.replies = r.replies) ∨
    (r.idr.relax env).throttled env.tick = false ∧
      (controlStreamRequestIdr gcm env r).2.idr = (r.idr.relax env).count env := by
  rw [controlStreamRequestIdr]
  split
  · exact .inl ⟨⟨rfl, rfl, fun h => ⟨h.ge, h.le⟩⟩, rfl⟩
  split
  · exact .inl ⟨r.idr.sameRequest_refl, rfl⟩
  dsimp only
  split
  · exact .inl ⟨IdrPacing.sameRequest_relax, rfl⟩
  · rename_i hthrottled
    rw [Bool.not_eq_true] at hthrottled
    split
    · exact .inr ⟨hthrottled, rfl⟩
    · exact .inr ⟨hthrottled, rfl⟩

/-- What lets a request through: it is the first one that counts, or late enough. -/
def IdrPacing.Due (i : IdrPacing) (clock : ℕ) : Prop :=
  i.lastIdrTick = 0 ∨ i.lastIdrTick.toNat + 500000 ≤ clock

theorem sub_ge_of_not_lt {last now : UInt64} {gap : ℕ} (hle : last.toNat ≤ now.toNat)
    (h : ¬ (now - last).toNat < gap) : last.toNat + gap ≤ now.toNat := by
  rw [UInt64.toNat_sub_of_le _ _ (UInt64.le_iff_toNat_le.mpr hle)] at h
  omega

theorem IdrPacing.due_of_not_throttled (h : i.throttled env.tick = false)
    (hrange : i.InRange) (hle : i.lastIdrTick.toNat ≤ env.tick.toNat) :
    i.idrCount < 1 ∨ i.Due env.tick.toNat := by
  rw [throttled, decide_eq_false_iff_not] at h
  by_contra hnot
  rw [not_or, Due, not_or] at hnot
  obtain ⟨hcount, hlast, hsoon⟩ := hnot
  refine h ⟨Int32.not_lt.mp hcount, hlast, ?_⟩
  rw [UInt64.lt_iff_toNat_lt]
  by_contra hlate
  have hlong := sub_ge_of_not_lt hle hlate
  have hback : i.idrBackoffUs.toUInt64.toNat = i.idrBackoffUs.toNat := UInt32.toNat_toUInt64 _
  have := hrange.ge
  omega

/-! ## One call -/

variable {c : IdrCall}

/-- What a call does to the backoff before it makes its request. -/
structure IdrCall.Prepares (c : IdrCall) (i i' : IdrPacing) : Prop where
  tick : i'.lastIdrTick = i.lastIdrTick
  inRange : i.InRange → i'.InRange
  count : i'.idrCount = i.idrCount ∨
    i'.idrCount = 0 ∧ c.env.forceTick ∈ c.ticks ∧
      ¬ (i.lastIdrTick ≠ 0 ∧ c.env.forceTick - i.lastIdrTick < 500000)

/-- A call does nothing, or makes one request. -/
def IdrCall.Requests (gcm : Gcm) (c : IdrCall) (i : IdrPacing) : Prop :=
  c.after gcm i = c.before i ∨
    ∃ i', c.Prepares i i' ∧
      c.after gcm i = (controlStreamRequestIdr gcm c.env (c.before i')).2

theorem IdrPacing.inRange_resend :
    IdrPacing.InRange { i with idrCount := 0, idrBackoffUs := 500000 } :=
  ⟨show 500000 ≤ 500000 by decide, show 500000 ≤ 2000000 by decide⟩

theorem IdrCall.requests_force (hentry : c.entry ≠ .request)
    (h : c.after gcm i = (controlStreamRequestIdrForce gcm c.env (c.before i)).2) :
    c.Requests gcm i := by
  rw [Requests, h, controlStreamRequestIdrForce]
  dsimp only
  split
  · split
    · exact .inl rfl
    split
    · refine .inr ⟨{ i with idrBackoffUs := 2000000 }, ⟨rfl, fun _ => ?_, .inl rfl⟩, rfl⟩
      exact ⟨show 500000 ≤ 2000000 by decide, show 2000000 ≤ 2000000 by decide⟩
    · exact .inr ⟨i, ⟨rfl, id, .inl rfl⟩, rfl⟩
  · split
    · exact .inl rfl
    · rename_i hlate
      refine .inr ⟨{ i with idrCount := 0, idrBackoffUs := 500000 },
        ⟨rfl, fun _ => IdrPacing.inRange_resend, .inr ⟨rfl, ?_, hlate⟩⟩, rfl⟩
      rw [ticks]
      split
      · contradiction
      · exact List.mem_cons_self

theorem IdrCall.requests (gcm : Gcm) (c : IdrCall) (i : IdrPacing) : c.Requests gcm i := by
  have hafter : c.after gcm i = (c.entry.call gcm c.env (c.before i)).2 := rfl
  cases hentry : c.entry with
  | request =>
      rw [hentry] at hafter
      exact .inr ⟨i, ⟨rfl, id, .inl rfl⟩, hafter⟩
  | force =>
      rw [hentry] at hafter
      exact requests_force (by rw [hentry]; nofun) hafter
  | recoveryFast =>
      rw [hentry] at hafter
      rw [Requests, hafter, IdrEntry.call, controlStreamRequestIdrRecoveryFast]
      dsimp only
      split
      · exact .inl rfl
      · rename_i hlate
        refine .inr ⟨{ i with idrCount := 0, idrBackoffUs := 500000 },
          ⟨rfl, fun _ => IdrPacing.inRange_resend, .inr ⟨rfl, ?_, hlate⟩⟩, rfl⟩
        rw [ticks, hentry]
        exact List.mem_cons_self
  | startup =>
      rw [hentry] at hafter
      rw [IdrEntry.call, controlStreamRequestIdrStartup] at hafter
      split at hafter
      · exact .inl hafter
      · exact requests_force (by rw [hentry]; nofun) hafter

theorem idrStep_inRange {s : IdrPacing × List UInt64} (h : s.1.InRange) :
    (idrStep gcm s c).1.InRange := by
  have hrange : (c.after gcm s.1).idr.InRange := by
    rcases c.requests gcm s.1 with hsame | ⟨i', hprepares, hrequest⟩
    · rw [hsame]
      exact h
    · have hready : (c.before i').idr.InRange := hprepares.inRange h
      rw [hrequest]
      rcases controlStreamRequestIdr_cases gcm c.env (c.before i') with
        ⟨hsame, -⟩ | ⟨-, hcount⟩
      · exact hsame.inRange hready
      · rw [hcount]
        exact hready.relax.count
  exact hrange

/-! ## A run -/

/-- The later tick is half a second after the earlier one. -/
def Spaced (earlier later : UInt64) : Prop := earlier.toNat + 500000 ≤ later.toNat

/-- What is known after a number of requests, at a time that the last call has seen. -/
structure Paced (requests clock : ℕ) (s : IdrPacing × List UInt64) : Prop where
  last_le : s.1.lastIdrTick.toNat ≤ clock
  log_le : ∀ t ∈ s.2, 0 < t.toNat ∧ t.toNat ≤ s.1.lastIdrTick.toNat
  count : requests < 2 ^ 31 → 0 ≤ s.1.idrCount.toInt ∧ s.1.idrCount.toInt ≤ requests
  due : requests < 2 ^ 31 → s.1.idrCount = 0 → s.1.Due clock
  spaced : requests < 2 ^ 31 → s.2.Pairwise Spaced

variable {requests clock clock' : ℕ} {log : List UInt64} {sent : Option UInt64}

theorem paced_reset : Paced 0 0 (.reset, []) :=
  ⟨Nat.zero_le _, fun t ht => (nomatch ht), fun _ => ⟨by decide, by decide⟩,
    fun _ _ => .inl rfl, fun _ => List.Pairwise.nil⟩

theorem Paced.later (h : Paced requests clock (i, log)) (hclock : clock ≤ clock')
    (htick : i'.lastIdrTick = i.lastIdrTick)
    (hcount : i'.idrCount = i.idrCount ∨ i'.idrCount = 0 ∧ i.Due clock') :
    Paced requests clock' (i', log) := by
  obtain ⟨hlast, hlog, hcounted, hdue, hspaced⟩ := h
  refine ⟨?_, ?_, fun hfew => ?_, fun hfew hzero => ?_, hspaced⟩
  · rw [htick]
    exact hlast.trans hclock
  · rw [htick]
    exact hlog
  · rcases hcount with hsame | ⟨hzero, -⟩
    · rw [hsame]
      exact hcounted hfew
    · rw [hzero]
      exact ⟨le_rfl, Int.natCast_nonneg requests⟩
  · rw [IdrPacing.Due, htick]
    rcases hcount with hsame | ⟨-, hdue'⟩
    · rw [hsame] at hzero
      exact (hdue hfew hzero).imp_right fun hle => hle.trans hclock
    · exact hdue'

theorem Paced.gap (h : Paced requests clock (i, log)) (hclock : clock ≤ clock')
    (hdue : i.idrCount < 1 ∨ i.Due clock') (hfew : requests < 2 ^ 31) : i.Due clock' := by
  rcases hdue with hfirst | hlate
  · have hone : (1 : Int32).toInt = 1 := rfl
    have hcount : 0 ≤ i.idrCount.toInt ∧ i.idrCount.toInt ≤ requests := h.count hfew
    rw [Int32.lt_iff_toInt_lt] at hfirst
    have hzero : i.idrCount = 0 := by
      rw [← Int32.toInt_inj]
      show i.idrCount.toInt = 0
      omega
    exact (h.due hfew hzero).imp_right fun hle => hle.trans hclock
  · exact hlate

theorem IdrPacing.toInt_count (h : i.idrCount.toInt < 2 ^ 31 - 1) (h0 : 0 ≤ i.idrCount.toInt) :
    (i.count env).idrCount.toInt = i.idrCount.toInt + 1 := by
  show (i.idrCount + 1).toInt = i.idrCount.toInt + 1
  rw [Int32.toInt_add]
  exact Int.bmod_eq_of_le (by simp; omega) (by simp; omega)

/-- A request that is let through. -/
theorem Paced.request (h : Paced requests clock (i, log)) (hclock : clock ≤ env.tick.toNat)
    (hpos : 0 < env.tick) (hdue : i.idrCount < 1 ∨ i.Due env.tick.toNat)
    (hsent : ∀ t ∈ sent, t = env.tick) :
    Paced (requests + 1) env.tick.toNat (i.count env, log ++ sent.toList) := by
  have hgap := h.gap hclock hdue
  obtain ⟨hlast, hlog, hcount, -, hspaced⟩ := h
  have hpositive : requests + 1 < 2 ^ 31 → 0 < (i.count env).idrCount.toInt ∧
      (i.count env).idrCount.toInt ≤ requests + 1 := by
    intro hfew
    have hbound : 0 ≤ i.idrCount.toInt ∧ i.idrCount.toInt ≤ requests := hcount (by omega)
    rw [IdrPacing.toInt_count (by omega) hbound.1]
    omega
  refine ⟨le_rfl, ?_, fun hfew => ?_, fun hfew hzero => ?_, fun hfew => ?_⟩
  · intro t ht
    rw [List.mem_append, Option.mem_toList] at ht
    rcases ht with hold | hnew
    · exact ⟨(hlog t hold).1, (hlog t hold).2.trans (hlast.trans hclock)⟩
    · rw [hsent t hnew]
      exact ⟨UInt64.lt_iff_toNat_lt.mp hpos, le_rfl⟩
  · have := hpositive hfew
    push_cast
    omega
  · have hnonzero := (hpositive hfew).1
    rw [hzero] at hnonzero
    exact absurd hnonzero (by decide)
  · rw [List.pairwise_append]
    refine ⟨hspaced (by omega), ?_, fun a ha b hb => ?_⟩
    · cases sent with
      | none => exact List.Pairwise.nil
      | some t => exact List.pairwise_singleton _ t
    · rw [Option.mem_toList] at hb
      rw [hsent b hb]
      obtain ⟨hnonzero, hle⟩ := hlog a ha
      change a.toNat ≤ i.lastIdrTick.toNat at hle
      rcases hgap (by omega) with hnone | hlate
      · rw [hnone] at hle
        exact absurd hnonzero (Nat.not_lt.mpr hle)
      · rw [Spaced]
        omega

/-- A request notes another time than the one before it. -/
theorem Paced.tick_ne (h : Paced requests clock (i, log)) (hclock : clock ≤ env.tick.toNat)
    (hpos : 0 < env.tick) (hdue : i.idrCount < 1 ∨ i.Due env.tick.toNat)
    (hfew : requests < 2 ^ 31) : env.tick ≠ i.lastIdrTick := by
  intro heq
  rcases h.gap hclock hdue hfew with hnone | hlate
  · rw [heq, hnone] at hpos
    exact absurd hpos (by decide)
  · rw [heq] at hlate
    omega

theorem IdrCall.ticks_cases (c : IdrCall) :
    c.ticks = [c.env.tick] ∨ c.ticks = [c.env.forceTick, c.env.tick] := by
  rw [ticks]
  split
  · exact .inl rfl
  · exact .inr rfl

theorem IdrCall.tick_mem (c : IdrCall) : c.env.tick ∈ c.ticks := by
  rcases c.ticks_cases with h | h
  · simp [h]
  · simp [h]

theorem IdrCall.le_tick (hticks : c.ticks.Pairwise (· ≤ ·)) {t : UInt64} (ht : t ∈ c.ticks) :
    t.toNat ≤ c.env.tick.toNat := by
  rcases c.ticks_cases with h | h
  · rw [h, List.mem_singleton] at ht
    rw [ht]
  · rw [h, List.pairwise_pair, UInt64.le_iff_toNat_le] at hticks
    rw [h, List.mem_pair] at ht
    rcases ht with rfl | rfl
    · exact hticks
    · exact le_rfl

theorem IdrCall.Prepares.count_due (h : c.Prepares i i') (hticks : c.ticks.Pairwise (· ≤ ·))
    (hclock : ∀ t ∈ c.ticks, i.lastIdrTick.toNat ≤ t.toNat) :
    i'.idrCount = i.idrCount ∨ i'.idrCount = 0 ∧ i.Due c.env.tick.toNat := by
  rcases h.count with hsame | ⟨hzero, hmem, hlate⟩
  · exact .inl hsame
  · refine .inr ⟨hzero, ?_⟩
    by_cases hnone : i.lastIdrTick = 0
    · exact .inl hnone
    · rw [not_and] at hlate
      have hlong := hlate hnone
      rw [UInt64.lt_iff_toNat_lt] at hlong
      have hgap := sub_ge_of_not_lt (hclock _ hmem) hlong
      exact .inr (hgap.trans (le_tick hticks hmem))

theorem IdrCall.transmitted_eq (gcm : Gcm) (c : IdrCall) (i : IdrPacing) {t : UInt64}
    (h : c.transmitted gcm i = some t) : t = c.env.tick := by
  rw [transmitted] at h
  split at h
  · exact (Option.some.inj h).symm
  · cases h

theorem IdrCall.transmitted_eq_none (h : (c.after gcm i).replies = c.receiver.replies) :
    c.transmitted gcm i = none := by
  rw [transmitted, if_neg]
  rintro ⟨hlonger, -⟩
  rw [h] at hlonger
  exact lt_irrefl _ hlonger

/-- Past the limit nothing is known of the counter. -/
theorem Paced.beyond {requests' : ℕ} {s : IdrPacing × List UInt64} (hmany : 2 ^ 31 ≤ requests')
    (hlast : s.1.lastIdrTick.toNat ≤ clock)
    (hlog : ∀ t ∈ s.2, 0 < t.toNat ∧ t.toNat ≤ s.1.lastIdrTick.toNat) :
    Paced requests' clock s :=
  ⟨hlast, hlog, fun hfew => absurd hfew (by omega), fun hfew => absurd hfew (by omega),
    fun hfew => absurd hfew (by omega)⟩

/-- One call more.  It makes at most one request, and only when the last one is old enough,
also when the call starts to count anew. -/
theorem Paced.step (gcm : Gcm) (h : Paced requests clock (i, log)) (hrange : i.InRange)
    (hticks : c.ticks.Pairwise (· ≤ ·)) (hpos : ∀ t ∈ c.ticks, 0 < t)
    (hclock : ∀ t ∈ c.ticks, clock ≤ t.toNat) :
    Paced (requests + (c.counts gcm i).toNat) c.env.tick.toNat (idrStep gcm (i, log) c) := by
  have hnow := hclock _ c.tick_mem
  rw [idrStep]
  rcases c.requests gcm i with hsame | ⟨i', hprepares, hrequest⟩
  · have hnone : c.transmitted gcm i = none :=
      IdrCall.transmitted_eq_none (by rw [hsame]; rfl)
    have hquiet : c.counts gcm i = false := by
      rw [IdrCall.counts, hsame]
      exact decide_eq_false (not_not.mpr rfl)
    rw [hnone, Option.toList_none, List.append_nil, hsame, hquiet]
    exact h.later hnow rfl (.inl rfl)
  · have hlast : ∀ t ∈ c.ticks, i.lastIdrTick.toNat ≤ t.toNat :=
      fun t ht => h.last_le.trans (hclock t ht)
    have hready := h.later hnow hprepares.tick (hprepares.count_due hticks hlast)
    rcases controlStreamRequestIdr_cases gcm c.env (c.before i') with
      ⟨hquiet, hreplies⟩ | ⟨hthrottled, hcount⟩
    · have hnone : c.transmitted gcm i = none :=
        IdrCall.transmitted_eq_none (by rw [hrequest]; exact hreplies)
      have hsame : c.counts gcm i = false := by
        rw [IdrCall.counts, hrequest]
        exact decide_eq_false (not_not.mpr (hquiet.tick.trans hprepares.tick))
      rw [hnone, Option.toList_none, List.append_nil, hrequest, hsame]
      exact hready.later le_rfl hquiet.tick (.inl hquiet.count)
    · have hrelaxed : Paced requests c.env.tick.toNat (i'.relax c.env, log) :=
        hready.later le_rfl rfl (.inl rfl)
      have hdue := IdrPacing.due_of_not_throttled hthrottled (hprepares.inRange hrange).relax
        hrelaxed.last_le
      have htimes : ∀ t ∈ c.transmitted gcm i, t = c.env.tick :=
        fun t ht => c.transmitted_eq gcm i ht
      have hsent := hrelaxed.request le_rfl (hpos _ c.tick_mem) hdue htimes
      rw [hrequest, hcount]
      by_cases hfew : requests < 2 ^ 31
      · have hcounts : c.counts gcm i = true := by
          rw [IdrCall.counts, hrequest, hcount]
          refine decide_eq_true fun heq => ?_
          exact hrelaxed.tick_ne le_rfl (hpos _ c.tick_mem) hdue hfew
            (heq.trans hprepares.tick.symm)
        rw [hcounts]
        exact hsent
      · exact Paced.beyond (by omega) hsent.last_le hsent.log_le

theorem Paced.run (gcm : Gcm) {cs : List IdrCall} {s : IdrPacing × List UInt64}
    (h : Paced requests clock s) (hrange : s.1.InRange)
    (hticks : (cs.flatMap IdrCall.ticks).Pairwise (· ≤ ·))
    (hpos : ∀ t ∈ cs.flatMap IdrCall.ticks, 0 < t)
    (hclock : ∀ t ∈ cs.flatMap IdrCall.ticks, clock ≤ t.toNat) :
    ∃ clock', Paced (requests + requestsFrom gcm s.1 cs) clock' (cs.foldl (idrStep gcm) s) := by
  induction cs generalizing requests clock s with
  | nil => exact ⟨clock, h⟩
  | cons c cs ih =>
      rw [List.flatMap_cons, List.pairwise_append] at hticks
      obtain ⟨hfirst, hrest, hcross⟩ := hticks
      simp only [List.flatMap_cons, List.mem_append] at hclock hpos
      have hstep := h.step gcm hrange hfirst (fun t ht => hpos t (.inl ht))
        fun t ht => hclock t (.inl ht)
      obtain ⟨clock', hrun⟩ := ih hstep (idrStep_inRange hrange) hrest
        (fun t ht => hpos t (.inr ht)) fun t ht =>
          UInt64.le_iff_toNat_le.mp (hcross _ c.tick_mem t ht)
      refine ⟨clock', ?_⟩
      rw [requestsFrom, ← Nat.add_assoc]
      exact hrun

theorem runIdr_inRange (gcm : Gcm) (cs : List IdrCall) : (runIdr gcm cs).1.InRange := by
  have hfold : ∀ s : IdrPacing × List UInt64, s.1.InRange →
      (cs.foldl (idrStep gcm) s).1.InRange := by
    induction cs with
    | nil => exact fun s h => h
    | cons c cs ih => exact fun s h => ih _ (idrStep_inRange h)
  exact hfold _ ⟨by decide, by decide⟩

/-- A call during startup, at a time. -/
def startupCall (entry : IdrEntry) (tick : UInt64) : IdrCall where
  entry := entry
  env := ⟨false, 0, true, false, tick, tick, ⟨true, true, true⟩, 1, 0⟩
  receiver := ⟨.fresh, true, .reset, false, 0, 0, 0, 0, 0, [], []⟩

end MoonlightPsp.Control
