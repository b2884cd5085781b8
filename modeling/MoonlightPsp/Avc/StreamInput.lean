import MoonlightPsp.Avc.AnnexB

/-!
# The input gate of the decoder

`avc_stream_input.c`: access units are packetized, their parameter sets cached,
and slices held back until an IDR unit arrives behind both parameter sets.  The
caches are 1024 bytes each; copies and comparisons outside them, or outside the
input, give `none`.
-/

namespace MoonlightPsp.Avc

open CheckedMemory

/-! ## The model -/

/-- `AvcStreamInput`. -/
structure StreamInput where
  sps : List UInt8
  pps : List UInt8
  spsSize : ℕ
  ppsSize : ℕ
  needIdr : Bool
  immediateIdrOnly : Bool

/-- `sizeof(s->sps)` and `sizeof(s->pps)`. -/
def cacheSize : ℕ := 1024

/-- The values that `avc_stream_input_prepare` returns. -/
inductive InputResult where
  | ready
  | parameters
  | needIdr
  | invalid
  | parameterChange
  deriving DecidableEq

/-- The value as the enumeration in the header has it. -/
def InputResult.value : InputResult → ℤ
  | .ready => 0
  | .parameters => 1
  | .needIdr => 2
  | .invalid => -1
  | .parameterChange => -2

/-- `avc_stream_input_init`. -/
def avcStreamInputInit (immediate : Bool) : StreamInput :=
  ⟨List.replicate cacheSize 0, List.replicate cacheSize 0, 0, 0, true, immediate⟩

/-- `avc_stream_input_invalidate`. -/
def avcStreamInputInvalidate (s : StreamInput) : StreamInput :=
  { s with needIdr := true }

/-- Where a pointer into the input points. -/
def Pointer.inputOffset : Pointer → Option ℕ
  | .input offset => some offset
  | _ => none

/-- `changed`, with the input that `next` points into. -/
def changed (src cached : List UInt8) (cachedSize : ℕ) (next : Pointer)
    (nextSize : ℕ) : Option Bool :=
  if cachedSize = 0 ∨ nextSize = 0 then some false
  else if cachedSize ≠ nextSize then some true
  else do
    let offset ← next.inputOffset
    let old ← slice cached 0 nextSize
    let new ← slice src offset nextSize
    some (old ≠ new)

/-- The cache and its size after a parameter set of the unit is copied to it, if
there is one. -/
def cacheSet (src cached : List UInt8) (cachedSize : ℕ) (next : Pointer)
    (nextSize : ℕ) : Option (List UInt8 × ℕ) :=
  if nextSize = 0 then some (cached, cachedSize)
  else do
    let offset ← next.inputOffset
    let cached ← copy src cached offset 0 nextSize
    some (cached, nextSize)

/-- What a call returns, and what it leaves in the state, the output buffer and
`*au`. -/
structure Prepared where
  result : InputResult
  state : StreamInput
  dst : Option (List UInt8)
  au : PacketizedAu

/-- A call that asks for an IDR unit next. -/
def refuse (s : StreamInput) (dst : Option (List UInt8)) (result : InputResult) :
    Prepared :=
  ⟨result, { s with needIdr := true }, dst, .zero⟩

/-- The gate behind the caches. -/
def gateUnit (s : StreamInput) (dst : Option (List UInt8))
    (parsed : PacketizedAu) : Prepared :=
  if parsed.avccSize = 0 then ⟨.parameters, s, dst, .zero⟩
  else if s.spsSize = 0 ∨ s.ppsSize = 0 ∨
      ((s.needIdr ∨ s.immediateIdrOnly) ∧ !parsed.hasIdr) then
    refuse s dst .needIdr
  else
    ⟨.ready, { s with needIdr := false }, dst,
      { parsed with
        sps := .spsCache
        spsSize := s.spsSize
        pps := .ppsCache
        ppsSize := s.ppsSize }⟩

/-- The part of the call behind a unit that is parsed. -/
def takeUnit (s : StreamInput) (src : List UInt8) (dst : Option (List UInt8))
    (parsed : PacketizedAu) : Option Prepared := do
  let spsChanged ← changed src s.sps s.spsSize parsed.sps parsed.spsSize
  if spsChanged then some (refuse s dst .parameterChange)
  else do
    let ppsChanged ← changed src s.pps s.ppsSize parsed.pps parsed.ppsSize
    if ppsChanged then some (refuse s dst .parameterChange)
    else do
      let (sps, spsSize) ←
        cacheSet src s.sps s.spsSize parsed.sps parsed.spsSize
      let (pps, ppsSize) ←
        cacheSet src s.pps s.ppsSize parsed.pps parsed.ppsSize
      some (gateUnit { s with sps, spsSize, pps, ppsSize } dst parsed)

/-- `avc_stream_input_prepare` behind its check for null pointers.  The local
`parsed` is only looked at after a call that succeeds. -/
def prepareUnit (s : StreamInput) (src dst : Option (List UInt8)) :
    Option Prepared := do
  let (code, dst, parsed) ← avcPacketize ⟨src, dst, some .zero⟩
  let parsed := parsed.getD .zero
  if code ≠ 0 ∨ parsed.spsSize > cacheSize ∨ parsed.ppsSize > cacheSize then
    some (refuse s dst .invalid)
  else takeUnit s (src.getD []) dst parsed

/-- `avc_stream_input_prepare`: the value it returns, and what it writes unless
one of the first two pointers is null. -/
def avcStreamInputPrepare (s : Option StreamInput) (au : Option PacketizedAu)
    (src dst : Option (List UInt8)) : Option (InputResult × Option Prepared) :=
  match s, au with
  | some s, some _ => do
      let r ← prepareUnit s src dst
      some (r.result, some r)
  | _, _ => some (.invalid, none)

/-! ## Runs -/

/-- A call for an initialised state; `au` is what `*au` holds before. -/
inductive InputCall where
  | prepare (au : PacketizedAu) (src dst : Option (List UInt8))
  | invalidate

/-- What a call of `avc_stream_input_prepare` returns, with the output buffer and
`*au` behind it. -/
structure InputOutcome where
  result : InputResult
  dst : Option (List UInt8)
  au : PacketizedAu

/-- A call of a run: its outcome, none for an invalidation, and the state behind
it. -/
structure InputEntry where
  outcome : Option InputOutcome
  state : StreamInput

def inputStep (s : StreamInput) : InputCall → Option InputEntry
  | .prepare au src dst => do
      let (result, written) ← avcStreamInputPrepare (some s) (some au) src dst
      match written with
      | none => some ⟨some ⟨result, dst, au⟩, s⟩
      | some r => some ⟨some ⟨result, r.dst, r.au⟩, r.state⟩
  | .invalidate => some ⟨none, avcStreamInputInvalidate s⟩

/-- The calls of a run, in their order. -/
def inputRun (s : StreamInput) : List InputCall → Option (List InputEntry)
  | [] => some []
  | c :: cs => do
      let e ← inputStep s c
      let es ← inputRun e.state cs
      some (e :: es)

/-! ## One call -/

variable {s : StreamInput} {src cached : List UInt8} {ptr : Pointer}
  {size next : ℕ}

/-- The sequence parameter set in the cache. -/
def StreamInput.cachedSps (s : StreamInput) : List UInt8 := s.sps.take s.spsSize

/-- The picture parameter set in the cache. -/
def StreamInput.cachedPps (s : StreamInput) : List UInt8 := s.pps.take s.ppsSize

/-- A cache and the size of what it holds. -/
structure CacheInv (cached : List UInt8) (size : ℕ) : Prop where
  length : cached.length = cacheSize
  size_le : size ≤ cacheSize

structure StreamInput.Inv (s : StreamInput) : Prop where
  sps : CacheInv s.sps s.spsSize
  pps : CacheInv s.pps s.ppsSize

theorem avcStreamInputInit_inv (immediate : Bool) :
    (avcStreamInputInit immediate).Inv :=
  ⟨⟨List.length_replicate, Nat.zero_le _⟩, ⟨List.length_replicate, Nat.zero_le _⟩⟩

theorem changed_isSome (h : CacheInv cached size) (hspan : Spans src ptr next) :
    ∃ b, changed src cached size ptr next = some b := by
  rw [changed]
  split_ifs with hempty hsize
  · exact ⟨false, rfl⟩
  · exact ⟨true, rfl⟩
  · obtain ⟨offset, rfl, hin⟩ := hspan fun h => hempty (Or.inr h)
    have hcached : 0 + next ≤ cached.length := by
      have hlen := h.length
      have hle := h.size_le
      omega
    simp only [Pointer.inputOffset, Option.bind_eq_bind, Option.bind_some,
      slice_eq hin, slice_eq hcached]
    exact ⟨_, rfl⟩

/-- A parameter set that is cached is not replaced by a different one. -/
theorem cacheSet_spec (h : CacheInv cached size) (hspan : Spans src ptr next)
    (hnext : next ≤ cacheSize)
    (hsame : changed src cached size ptr next = some false) :
    ∃ cached' size', cacheSet src cached size ptr next = some (cached', size') ∧
      CacheInv cached' size' ∧
      (size ≠ 0 → size' = size ∧ cached'.take size' = cached.take size) := by
  rw [cacheSet]
  split_ifs with hzero
  · exact ⟨cached, size, rfl, h, fun _ => ⟨rfl, rfl⟩⟩
  · obtain ⟨offset, rfl, hin⟩ := hspan hzero
    have hfits : 0 + next ≤ cached.length := by
      have hlen := h.length
      omega
    have hnew : ((src.drop offset).take next).length = next := by
      rw [List.length_take, List.length_drop]
      omega
    have hroom : 0 + ((src.drop offset).take next).length ≤ cached.length := by
      rw [hnew]
      exact hfits
    simp only [Pointer.inputOffset, Option.bind_eq_bind, Option.bind_some,
      copy_eq_overlay hin hfits]
    refine ⟨_, next, rfl, ⟨?_, hnext⟩, fun hsize => ?_⟩
    · rw [length_overlay hroom, h.length]
    · rw [changed, if_neg (by omega)] at hsame
      have hsize : size = next := by
        by_contra hdiff
        rw [if_pos hdiff] at hsame
        exact absurd hsame (by simp)
      rw [if_neg (by simpa using hsize)] at hsame
      simp only [Pointer.inputOffset, Option.bind_eq_bind, Option.bind_some,
        slice_eq hin, slice_eq hfits, List.drop_zero] at hsame
      have hbytes : cached.take next = (src.drop offset).take next := by
        simpa using hsame
      have htake := take_overlay hroom
      rw [hnew] at htake
      refine ⟨hsize.symm, ?_⟩
      simpa [hsize, hbytes] using htake

/-- The bytes that a pointer and a size refer to in the caches. -/
def StreamInput.pointed (s : StreamInput) : Pointer → ℕ → List UInt8
  | .spsCache, n => s.sps.take n
  | .ppsCache, n => s.pps.take n
  | _, _ => []

/-- An access unit as it goes to the decoder: both cached parameter sets, and
slices in the output buffer. -/
structure IsReadyUnit (s : StreamInput) (dst : Option (List UInt8))
    (au : PacketizedAu) : Prop where
  sps : s.pointed au.sps au.spsSize = s.cachedSps
  pps : s.pointed au.pps au.ppsSize = s.cachedPps
  spsSize : au.spsSize = s.cachedSps.length ∧ au.spsSize ≠ 0
  ppsSize : au.ppsSize = s.cachedPps.length ∧ au.ppsSize ≠ 0
  avcc : au.avccSize ≠ 0 ∧ ∃ buffer, dst = some buffer ∧
    au.avccSize ≤ buffer.length

/-- A cache that is not empty stays as it is. -/
structure CachesKept (s s' : StreamInput) : Prop where
  sps : s.spsSize ≠ 0 → s'.spsSize = s.spsSize ∧ s'.cachedSps = s.cachedSps
  pps : s.ppsSize ≠ 0 → s'.ppsSize = s.ppsSize ∧ s'.cachedPps = s.cachedPps

theorem CachesKept.refl (s : StreamInput) : CachesKept s s :=
  ⟨fun _ => ⟨rfl, rfl⟩, fun _ => ⟨rfl, rfl⟩⟩

theorem CachesKept.trans {s₁ s₂ s₃ : StreamInput} (h : CachesKept s₁ s₂)
    (h' : CachesKept s₂ s₃) : CachesKept s₁ s₃ := by
  constructor
  · intro hsize
    obtain ⟨hsize₂, hbytes₂⟩ := h.sps hsize
    obtain ⟨hsize₃, hbytes₃⟩ := h'.sps (hsize₂ ▸ hsize)
    exact ⟨hsize₃.trans hsize₂, hbytes₃.trans hbytes₂⟩
  · intro hsize
    obtain ⟨hsize₂, hbytes₂⟩ := h.pps hsize
    obtain ⟨hsize₃, hbytes₃⟩ := h'.pps (hsize₂ ▸ hsize)
    exact ⟨hsize₃.trans hsize₂, hbytes₃.trans hbytes₂⟩

/-- A result after which the next access unit has to be an IDR unit. -/
def InputResult.Resets (r : InputResult) : Prop := r.value < 0 ∨ r = .needIdr

theorem ready_not_resets : ¬InputResult.ready.Resets := by
  simp [InputResult.Resets, InputResult.value]

theorem parameters_not_resets : ¬InputResult.parameters.Resets := by
  simp [InputResult.Resets, InputResult.value]

/-- What a call does, whatever its input is. -/
structure PrepareSpec (s : StreamInput) (r : Prepared) : Prop where
  inv : r.state.Inv
  kept : CachesKept s r.state
  ready : r.result = .ready → IsReadyUnit r.state r.dst r.au
  idr : r.result = .ready → s.needIdr = true → r.au.hasIdr = true
  notReady : r.result ≠ .ready → r.au = .zero
  needs : r.result ≠ .ready → s.needIdr = true → r.state.needIdr = true
  resets : r.result.Resets → r.state.needIdr = true

theorem refuse_spec (h : s.Inv) (dst : Option (List UInt8))
    {result : InputResult} (hresult : result ≠ .ready) :
    PrepareSpec s (refuse s dst result) where
  inv := ⟨h.sps, h.pps⟩
  kept := ⟨fun _ => ⟨rfl, rfl⟩, fun _ => ⟨rfl, rfl⟩⟩
  ready := fun h => absurd h hresult
  idr := fun h => absurd h hresult
  notReady := fun _ => rfl
  needs := fun _ _ => rfl
  resets := fun _ => rfl

theorem PrepareSpec.of_kept (s' : StreamInput) {r : Prepared}
    (hneed : s'.needIdr = s.needIdr) (hkept : CachesKept s s')
    (h : PrepareSpec s' r) : PrepareSpec s r where
  inv := h.inv
  kept := hkept.trans h.kept
  ready := h.ready
  idr := fun hready hs => h.idr hready (hneed ▸ hs)
  notReady := h.notReady
  needs := fun hready hs => h.needs hready (hneed ▸ hs)
  resets := h.resets

theorem length_cached (h : CacheInv cached size) :
    (cached.take size).length = size := by
  rw [List.length_take, h.length]
  exact Nat.min_eq_left h.size_le

theorem gateUnit_spec (h : s.Inv) {buffer : List UInt8}
    {parsed : PacketizedAu} (hfits : parsed.avccSize ≤ buffer.length) :
    PrepareSpec s (gateUnit s (some buffer) parsed) := by
  rw [gateUnit]
  split_ifs with hempty hheld
  · constructor
    · exact h
    · exact CachesKept.refl s
    · exact fun hready => nomatch hready
    · exact fun hready => nomatch hready
    · exact fun _ => rfl
    · exact fun _ hs => hs
    · exact fun hresets => absurd hresets parameters_not_resets
  · exact refuse_spec h _ (by decide)
  · obtain ⟨hsps, hpps, hidr⟩ : s.spsSize ≠ 0 ∧ s.ppsSize ≠ 0 ∧
        (s.needIdr = true → parsed.hasIdr = true) := by
      refine ⟨fun h => hheld (Or.inl h), fun h => hheld (Or.inr (Or.inl h)),
        fun hs => ?_⟩
      by_contra hno
      exact hheld (Or.inr (Or.inr ⟨Or.inl hs, by simpa using hno⟩))
    constructor
    · exact ⟨h.sps, h.pps⟩
    · exact ⟨fun _ => ⟨rfl, rfl⟩, fun _ => ⟨rfl, rfl⟩⟩
    · exact fun _ => ⟨rfl, rfl, ⟨(length_cached h.sps).symm, hsps⟩,
        ⟨(length_cached h.pps).symm, hpps⟩, hempty, buffer, rfl, hfits⟩
    · exact fun _ => hidr
    · exact fun hno => absurd rfl hno
    · exact fun hno => absurd rfl hno
    · exact fun hresets => absurd hresets ready_not_resets

theorem takeUnit_spec (h : s.Inv) {src buffer : List UInt8}
    {parsed : PacketizedAu} (hin : Contained src parsed)
    (hsps : parsed.spsSize ≤ cacheSize) (hpps : parsed.ppsSize ≤ cacheSize)
    (hfits : parsed.avccSize ≤ buffer.length) :
    ∃ r, takeUnit s src (some buffer) parsed = some r ∧ PrepareSpec s r := by
  obtain ⟨b, hb⟩ := changed_isSome h.sps hin.sps
  obtain ⟨c, hc⟩ := changed_isSome h.pps hin.pps
  rw [takeUnit]
  simp only [hb, hc, Option.bind_eq_bind, Option.bind_some]
  cases b with
  | true => exact ⟨_, rfl, refuse_spec h _ (by decide)⟩
  | false =>
      cases c with
      | true => exact ⟨_, rfl, refuse_spec h _ (by decide)⟩
      | false =>
          obtain ⟨sps', spsSize', hset, hinv, hkept⟩ :=
            cacheSet_spec h.sps hin.sps hsps hb
          obtain ⟨pps', ppsSize', hset', hinv', hkept'⟩ :=
            cacheSet_spec h.pps hin.pps hpps hc
          simp only [Bool.false_eq_true, if_false, hset, hset', Option.bind_some]
          let s' : StreamInput := { s with
            sps := sps', spsSize := spsSize', pps := pps', ppsSize := ppsSize' }
          have hgate := gateUnit_spec (s := s') ⟨hinv, hinv'⟩ hfits
          exact ⟨_, rfl, hgate.of_kept s' rfl ⟨hkept, hkept'⟩⟩

/-- Every call comes back, with what the specification says. -/
theorem prepareUnit_spec (h : s.Inv) (src dst : Option (List UInt8)) :
    ∃ r, prepareUnit s src dst = some r ∧ PrepareSpec s r := by
  have hinvalid : ∀ dst, PrepareSpec s (refuse s dst .invalid) :=
    fun dst => refuse_spec h dst (by decide)
  have hreject : ∀ dst' : Option (List UInt8),
      avcPacketize ⟨src, dst, some .zero⟩ = some (-1, dst', some .zero) →
      ∃ r, prepareUnit s src dst = some r ∧ PrepareSpec s r := by
    intro dst' hcall
    refine ⟨_, ?_, hinvalid dst'⟩
    rw [prepareUnit, hcall]
    rfl
  cases src with
  | none => exact hreject dst rfl
  | some src =>
      cases dst with
      | none => exact hreject none rfl
      | some buffer =>
          by_cases hne : src = []
          · subst src
            exact hreject (some buffer) rfl
          · obtain ⟨r, hr, hsafe⟩ := packetizeUnits_safe hne buffer .zero
            have hcall : avcPacketize ⟨some src, some buffer, some .zero⟩ =
                some (r.code, some r.dst, some r.au) := by
              rw [avcPacketize, hr]
              rfl
            rw [prepareUnit, hcall]
            simp only [Option.bind_eq_bind, Option.bind_some, Option.getD_some]
            split_ifs with hbad
            · exact ⟨_, rfl, hinvalid _⟩
            · refine takeUnit_spec h hsafe.contained ?_ ?_
                (hsafe.length_dst ▸ hsafe.fits)
              · omega
              · omega

/-! ## Runs -/

/-- An access unit for the decoder comes out. -/
def InputEntry.IsReady (e : InputEntry) : Prop :=
  ∃ o, e.outcome = some o ∧ o.result = .ready

/-- After this call the next access unit has to be an IDR unit: an invalidation,
or a call that returned a negative value or `AVC_INPUT_NEED_IDR`. -/
def InputEntry.Resets (e : InputEntry) : Prop :=
  ∀ o, e.outcome = some o → o.result.Resets

/-- What a call of a run does. -/
structure StepSpec (s : StreamInput) (e : InputEntry) : Prop where
  inv : e.state.Inv
  kept : CachesKept s e.state
  ready : ∀ o, e.outcome = some o → o.result = .ready →
    IsReadyUnit e.state o.dst o.au
  idr : ∀ o, e.outcome = some o → o.result = .ready → s.needIdr = true →
    o.au.hasIdr = true
  notReady : ∀ o, e.outcome = some o → o.result ≠ .ready → o.au = .zero
  needs : ¬e.IsReady → s.needIdr = true → e.state.needIdr = true
  resets : e.Resets → e.state.needIdr = true

theorem inputStep_spec (h : s.Inv) (c : InputCall) :
    ∃ e, inputStep s c = some e ∧ StepSpec s e := by
  cases c with
  | invalidate =>
      refine ⟨_, rfl, ?_⟩
      constructor
      · exact ⟨h.sps, h.pps⟩
      · exact ⟨fun _ => ⟨rfl, rfl⟩, fun _ => ⟨rfl, rfl⟩⟩
      · exact fun o ho => nomatch ho
      · exact fun o ho => nomatch ho
      · exact fun o ho => nomatch ho
      · exact fun _ _ => rfl
      · exact fun _ => rfl
  | prepare au src dst =>
      obtain ⟨r, hr, hspec⟩ := prepareUnit_spec h src dst
      refine ⟨⟨some ⟨r.result, r.dst, r.au⟩, r.state⟩, ?_, ?_⟩
      · rw [inputStep, avcStreamInputPrepare]
        simp only [hr, Option.bind_eq_bind, Option.bind_some]
      · constructor
        · exact hspec.inv
        · exact hspec.kept
        · rintro o ⟨⟩ hready
          exact hspec.ready hready
        · rintro o ⟨⟩
          exact hspec.idr
        · rintro o ⟨⟩
          exact hspec.notReady
        · exact fun hready => hspec.needs fun h => hready ⟨_, rfl, h⟩
        · exact fun hresets => hspec.resets (hresets _ rfl)

/-- A run from a state comes back call by call. -/
theorem inputRun_cons (h : s.Inv) {c : InputCall} {cs : List InputCall}
    {log : List InputEntry} (hrun : inputRun s (c :: cs) = some log) :
    ∃ e es, log = e :: es ∧ StepSpec s e ∧ inputRun e.state cs = some es := by
  obtain ⟨e, he, hspec⟩ := inputStep_spec h c
  rw [inputRun, he] at hrun
  simp only [Option.bind_eq_bind, Option.bind_some,
    Option.bind_eq_some_iff] at hrun
  obtain ⟨es, hes, hlog⟩ := hrun
  exact ⟨e, es, (Option.some.inj hlog).symm, hspec, hes⟩

theorem inputRun_isSome (h : s.Inv) (cs : List InputCall) :
    ∃ log, inputRun s cs = some log := by
  induction cs generalizing s with
  | nil => exact ⟨[], rfl⟩
  | cons c cs ih =>
      obtain ⟨e, he, hspec⟩ := inputStep_spec h c
      obtain ⟨es, hes⟩ := ih hspec.inv
      refine ⟨e :: es, ?_⟩
      rw [inputRun, he]
      simp only [Option.bind_eq_bind, Option.bind_some, hes]

/-- Every call of a run does what the specification of a call says, from a state
that is sound. -/
theorem inputRun_entry (h : s.Inv) {cs : List InputCall}
    {log : List InputEntry} (hrun : inputRun s cs = some log)
    {e : InputEntry} (he : e ∈ log) :
    ∃ s', s'.Inv ∧ CachesKept s s' ∧ StepSpec s' e := by
  induction cs generalizing s log with
  | nil =>
      obtain rfl : [] = log := Option.some.inj hrun
      exact absurd he (by simp)
  | cons c cs ih =>
      obtain ⟨e₁, es, rfl, hspec, hrest⟩ := inputRun_cons h hrun
      rcases List.mem_cons.mp he with rfl | hlater
      · exact ⟨s, h, CachesKept.refl s, hspec⟩
      · obtain ⟨s', hinv, hkept, hspec'⟩ := ih hspec.inv hrest hlater
        exact ⟨s', hinv, hspec.kept.trans hkept, hspec'⟩

/-- What follows some calls in a run is a run from the state behind them. -/
theorem inputRun_split (h : s.Inv) {cs : List InputCall}
    {before after : List InputEntry}
    (hrun : inputRun s cs = some (before ++ after)) :
    ∃ s' cs', s'.Inv ∧ inputRun s' cs' = some after ∧
      (before = [] → s' = s) ∧
      ∀ b e, before = b ++ [e] → e.state = s' ∧ ∃ s₀, StepSpec s₀ e := by
  induction before generalizing s cs with
  | nil => exact ⟨s, cs, h, hrun, fun _ => rfl, fun b e hb => by simp at hb⟩
  | cons d before ih =>
      cases cs with
      | nil => exact nomatch hrun
      | cons c cs =>
          obtain ⟨e, es, hlog, hspec, hrest⟩ := inputRun_cons h hrun
          obtain ⟨rfl, rfl⟩ := List.cons.inj hlog
          obtain ⟨s', cs', hinv, hrun', hnil, hlast⟩ := ih hspec.inv hrest
          refine ⟨s', cs', hinv, hrun', nofun, ?_⟩
          intro b e hb
          cases b with
          | nil =>
              obtain ⟨rfl, hempty⟩ := List.cons.inj hb
              exact ⟨(hnil hempty).symm, s, hspec⟩
          | cons d' b => exact hlast b e (List.cons.inj hb).2

/-- While an IDR unit is needed, the next access unit has one. -/
theorem idr_of_needIdr (h : s.Inv) (hneed : s.needIdr = true)
    {cs : List InputCall} {quiet after : List InputEntry} {e : InputEntry}
    (hrun : inputRun s cs = some (quiet ++ e :: after))
    (hquiet : ∀ q ∈ quiet, ¬q.IsReady) {o : InputOutcome}
    (ho : e.outcome = some o) (hready : o.result = .ready) :
    o.au.hasIdr = true := by
  induction quiet generalizing s cs with
  | nil =>
      cases cs with
      | nil => exact nomatch hrun
      | cons c cs =>
          obtain ⟨e', es, hlog, hspec, -⟩ := inputRun_cons h hrun
          obtain ⟨rfl, -⟩ := List.cons.inj hlog
          exact hspec.idr o ho hready hneed
  | cons q quiet ih =>
      cases cs with
      | nil => exact nomatch hrun
      | cons c cs =>
          obtain ⟨e', es, hlog, hspec, hrest⟩ := inputRun_cons h hrun
          obtain ⟨rfl, rfl⟩ := List.cons.inj hlog
          have hstill := hspec.needs (hquiet _ (by simp)) hneed
          exact ih hspec.inv hstill hrest fun q hq => hquiet q (by simp [hq])

/-- The law of the gate, for the calls of a run after `avc_stream_input_init`. -/
structure GateLaw (log : List InputEntry) : Prop where
  /-- The first access unit since the start, or since a call that asks for an IDR
  unit, has one. -/
  idrFirst : ∀ before quiet e after, log = before ++ (quiet ++ e :: after) →
    (before = [] ∨ ∃ b r, before = b ++ [r] ∧ r.Resets) →
    (∀ q ∈ quiet, ¬q.IsReady) → ∀ o, e.outcome = some o →
    o.result = .ready → o.au.hasIdr = true
  /-- A parameter set that is cached stays. -/
  kept : ∀ before e middle e' after,
    log = before ++ e :: (middle ++ e' :: after) →
    CachesKept e.state e'.state
  /-- An access unit comes with both of them, and with slices. -/
  ready : ∀ e ∈ log, ∀ o, e.outcome = some o → o.result = .ready →
    IsReadyUnit e.state o.dst o.au
  /-- Otherwise `*au` is zero. -/
  notReady : ∀ e ∈ log, ∀ o, e.outcome = some o → o.result ≠ .ready →
    o.au = .zero

/-- Every run of calls after `avc_stream_input_init` comes back, stays inside its
buffers and obeys the law of the gate. -/
theorem streamInput_gate (immediate : Bool) (cs : List InputCall) :
    ∃ log, inputRun (avcStreamInputInit immediate) cs = some log ∧
      GateLaw log := by
  have hinit := avcStreamInputInit_inv immediate
  obtain ⟨log, hrun⟩ := inputRun_isSome hinit cs
  refine ⟨log, hrun, ?_, ?_, ?_, ?_⟩
  · intro before quiet e after hlog hbefore hquiet o ho hready
    rw [hlog] at hrun
    obtain ⟨s', cs', hinv, hrun', hnil, hlast⟩ := inputRun_split hinit hrun
    have hneed : s'.needIdr = true := by
      rcases hbefore with hempty | ⟨b, r, hb, hresets⟩
      · rw [hnil hempty]
        rfl
      · obtain ⟨hstate, s₀, hspec⟩ := hlast b r hb
        rw [← hstate]
        exact hspec.resets hresets
    exact idr_of_needIdr hinv hneed hrun' hquiet ho hready
  · intro before e middle e' after hlog
    have hsplit : log = (before ++ [e]) ++ (middle ++ e' :: after) := by
      simp [hlog]
    rw [hsplit] at hrun
    obtain ⟨s', cs', hinv, hrun', -, hlast⟩ := inputRun_split hinit hrun
    obtain ⟨hstate, -⟩ := hlast before e rfl
    obtain ⟨s₁, -, hkept, hspec⟩ := inputRun_entry hinv hrun' (e := e')
      (by simp)
    rw [hstate]
    exact hkept.trans hspec.kept
  · intro e he o ho hready
    obtain ⟨s', -, -, hspec⟩ := inputRun_entry hinit hrun he
    exact hspec.ready o ho hready
  · intro e he o ho hready
    obtain ⟨s', -, -, hspec⟩ := inputRun_entry hinit hrun he
    exact hspec.notReady o ho hready

end MoonlightPsp.Avc
