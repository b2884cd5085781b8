import MoonlightPsp.ReedSolomon.RoundTrip

/-!
# Two streams on one Reed-Solomon context

Video and audio recovery share the static context of `rs.c`.  The video side
keeps the context of its last recovery and reuses it when the shape still fits;
the audio side keeps its pointer and writes its own matrix over whatever the
context holds.  Each recovery runs under the global lock, so a run is a list of
recoveries.

A recovery that would do the same with a context of its own is one whose matrix
was not replaced in between.  Since both sides recognise their matrix by shape
only, the video side cannot tell its own four-by-two matrix from the audio one.
-/

namespace MoonlightPsp.ReedSolomon

open CauchyElimination

/-! ## The recoveries -/

/-- `AUDIO_RTP_FEC_DATA_SHARDS`. -/
def audioDataShards : ℕ := 4

/-- `AUDIO_RTP_FEC_PARITY_SHARDS`. -/
def audioParityShards : ℕ := 2

/-- `AUDIO_RTP_FEC_TOTAL_SHARDS`. -/
def audioTotalShards : ℕ := audioDataShards + audioParityShards

/-- `audio_parity`. -/
def audioParity : List Gf :=
  [⟨0x77⟩, ⟨0x40⟩, ⟨0x38⟩, ⟨0x0e⟩, ⟨0xc7⟩, ⟨0xa7⟩, ⟨0x0d⟩, ⟨0x6c⟩]

/-- The parity buffer after the audio matrix was copied to its start. -/
def overlayAudio (parityBuf : Buf) : Buf :=
  parityBuf.memcpy (fun a => audioParity.getD a 0) audioParity.length

/-- One call of `reedSolomonReconstruct`: the matrix it worked with, null when
the context had none, and what it returned. -/
structure Reconstruction where
  matrix : Option (List Gf)
  ret : Int
  shards : ℕ → Buf

/-- The matrix in force: the rows of the parity buffer that a context of this
shape reads. -/
def matrixInForce (rs : RsContext) : Option (List Gf) :=
  if rs.parity then
    some ((List.range (rs.parityShards * rs.dataShards)).map rs.parityBuf)
  else none

def reconstruct (rs : RsContext) (shards : ℕ → Buf) (marks : ℕ → Bool)
    (nrShards blockSize : ℕ) : Reconstruction :=
  let (ret, shards) := reedSolomonReconstruct rs shards marks nrShards blockSize
  ⟨matrixInForce rs, ret, shards⟩

/-- The static context and the pointers both streams keep to it:
`s_cached_rs`, `s_cached_data`, `s_cached_parity` and `s_audio_rtp_fec_rs`. -/
structure SharedRs where
  ctx : RsContext
  cachedRs : Bool
  cachedData : ℕ
  cachedParity : ℕ
  audioRs : Bool

/-- The statics before the first recovery. -/
def SharedRs.initial : SharedRs := ⟨RsContext.cleared, false, 0, 0, false⟩

/-- The section of `attempt_recovery_and_submit` and
`attempt_multi_block_recovery_and_submit` that runs under the lock. -/
def videoReconstruct (s : SharedRs) (dataPackets parityPackets totalPackets : ℕ)
    (packets : ℕ → Buf) (marks : ℕ → Bool) (receiveSize : ℕ) :
    SharedRs × Option Reconstruction :=
  if s.cachedRs ∧ s.cachedData = dataPackets ∧
      s.cachedParity = parityPackets ∧ s.ctx.dataShards = dataPackets ∧
      s.ctx.parityShards = parityPackets then
    (s, some (reconstruct s.ctx packets marks totalPackets receiveSize))
  else
    let ctx := if s.cachedRs then reedSolomonRelease s.ctx else s.ctx
    let (ok, ctx) := reedSolomonNew ctx dataPackets parityPackets
    if ok then
      (⟨ctx, true, dataPackets, parityPackets, s.audioRs⟩,
        some (reconstruct ctx packets marks totalPackets receiveSize))
    else ({ s with ctx, cachedRs := false }, none)

/-- What `AudioRtpFecBlock` holds for the recovery. -/
structure AudioRtpFecBlock where
  valid : Bool
  marks : ℕ → Bool
  data : ℕ → Buf
  fec : ℕ → Buf
  blockSize : ℕ

namespace AudioRtpFecBlock

/-- The shard pointers: the data blocks, then the parity blocks. -/
def shards (b : AudioRtpFecBlock) : ℕ → Buf := fun i =>
  if i < audioDataShards then b.data i else b.fec (i - audioDataShards)

def available (b : AudioRtpFecBlock) : ℕ :=
  ((List.range audioTotalShards).filter fun i => !b.marks i).length

def missingData (b : AudioRtpFecBlock) : ℕ :=
  ((List.range audioDataShards).filter b.marks).length

/-- The checks before the lock: something is missing, and enough is there. -/
def reachesLock (b : AudioRtpFecBlock) : Bool :=
  b.valid && decide (b.missingData ≠ 0) &&
    decide (audioDataShards ≤ b.available)

/-- The block after a reconstruction, which writes into its buffers; a success
clears the marks of the data shards. -/
def update (b : AudioRtpFecBlock) (r : Reconstruction) : AudioRtpFecBlock :=
  { b with
    data := fun i => if i < audioDataShards then r.shards i else b.data i
    fec := fun i =>
      if i < audioParityShards then r.shards (audioDataShards + i)
      else b.fec i
    marks := fun i =>
      if r.ret = 0 ∧ i < audioDataShards then false else b.marks i }

end AudioRtpFecBlock

/-- The section of `audio_rtp_fec_complete` that runs under the lock. -/
def audioReconstruct (s : SharedRs) (b : AudioRtpFecBlock) :
    SharedRs × Option Reconstruction :=
  let (audioRs, ctx) :=
    if !s.audioRs ∨ s.ctx.dataShards ≠ audioDataShards ∨
        s.ctx.parityShards ≠ audioParityShards ∨ !s.ctx.m ∨ !s.ctx.parity then
      reedSolomonNew s.ctx audioDataShards audioParityShards
    else (s.audioRs, s.ctx)
  if audioRs then
    let ctx := { ctx with parityBuf := overlayAudio ctx.parityBuf }
    ({ s with ctx, audioRs },
      some (reconstruct ctx b.shards b.marks audioTotalShards b.blockSize))
  else ({ s with ctx, audioRs }, none)

/-- `audio_rtp_fec_complete`: the statics, the reconstruction if one ran, the
return value and the block. -/
def audioRtpFecComplete (s : SharedRs) (b : AudioRtpFecBlock) :
    SharedRs × Option Reconstruction × Int × AudioRtpFecBlock :=
  if !b.valid then (s, none, -1, b)
  else if b.missingData = 0 then (s, none, 0, b)
  else if b.available < audioDataShards then (s, none, -1, b)
  else
    match audioReconstruct s b with
    | (s, none) => (s, none, -1, b)
    | (s, some r) => (s, some r, if r.ret ≠ 0 then -1 else 0, b.update r)

/-- The end of `rtp_fec_reset`. -/
def rtpFecResetContext (s : SharedRs) : SharedRs :=
  if s.cachedRs then
    { s with
      ctx := reedSolomonRelease s.ctx
      cachedRs := false
      cachedData := 0
      cachedParity := 0 }
  else s

/-! ## Runs -/

/-- What happens to the shared context, one after the other. -/
inductive RecoveryEvent where
  | video (dataPackets parityPackets totalPackets : ℕ) (packets : ℕ → Buf)
      (marks : ℕ → Bool) (receiveSize : ℕ)
  | audio (block : AudioRtpFecBlock)
  | reset

/-- One event on the shared statics, with the reconstruction it ran. -/
def RecoveryEvent.step (s : SharedRs) :
    RecoveryEvent → SharedRs × Option Reconstruction
  | .video ds ps total packets marks size =>
      videoReconstruct s ds ps total packets marks size
  | .audio b =>
      let (s, r, _, _) := audioRtpFecComplete s b
      (s, r)
  | .reset => (rtpFecResetContext s, none)

/-- The reconstructions of a run, event by event. -/
def runRecoveries (s : SharedRs) :
    List RecoveryEvent → List (Option Reconstruction)
  | [] => []
  | e :: es => (e.step s).2 :: runRecoveries (e.step s).1 es

/-- The reconstruction of an event on a context of its own: the Cauchy matrix of
the video shape, or the audio matrix. -/
def RecoveryEvent.onOwnContext : RecoveryEvent → Option Reconstruction
  | .video ds ps total packets marks size =>
      let (ok, rs) := reedSolomonNew RsContext.cleared ds ps
      if ok then some (reconstruct rs packets marks total size) else none
  | .audio b =>
      if b.reachesLock then
        let rs := (reedSolomonNew RsContext.cleared audioDataShards
          audioParityShards).2
        some (reconstruct { rs with parityBuf := overlayAudio rs.parityBuf }
          b.shards b.marks audioTotalShards b.blockSize)
      else none
  | .reset => none

/-! ## The contended shape -/

/-- A video recovery of the shape that the audio side uses as well. -/
def RecoveryEvent.IsContended : RecoveryEvent → Prop
  | .video ds ps _ _ _ _ => ds = audioDataShards ∧ ps = audioParityShards
  | _ => False

/-- An audio recovery, whether or not it gets to the lock. -/
def RecoveryEvent.IsAudio : RecoveryEvent → Prop
  | .audio _ => True
  | _ => False

/-- An audio recovery that writes its matrix into the context. -/
def RecoveryEvent.WritesAudioMatrix : RecoveryEvent → Prop
  | .audio b => b.reachesLock = true
  | _ => False

/-- Two successive video events of the contended shape with only audio events in
between, one of which wrote the audio matrix. -/
def MatrixOverwritten (es : List RecoveryEvent) : Prop :=
  ∃ pre v mid v' post, es = pre ++ v :: (mid ++ v' :: post) ∧
    v.IsContended ∧ v'.IsContended ∧ (∀ e ∈ mid, e.IsAudio) ∧
    ∃ e ∈ mid, e.WritesAudioMatrix

/-- The same as a monitor.  `held` says that the last video event had the
contended shape, `touched` that the audio matrix was written since. -/
def overwrites (held touched : Bool) : List RecoveryEvent → Prop
  | [] => False
  | .video ds ps _ _ _ _ :: es =>
      if ds = audioDataShards ∧ ps = audioParityShards then
        (held = true ∧ touched = true) ∨ overwrites true false es
      else overwrites false false es
  | .audio b :: es => overwrites held (touched || b.reachesLock) es
  | .reset :: es => overwrites false false es

/-- A contended video event ahead, with only audio events before it. -/
def ContendedAhead (touched : Bool) (es : List RecoveryEvent) : Prop :=
  ∃ mid v post, es = mid ++ v :: post ∧ v.IsContended ∧
    (∀ e ∈ mid, e.IsAudio) ∧
    (touched = true ∨ ∃ e ∈ mid, e.WritesAudioMatrix)

theorem matrixOverwritten_cons {e : RecoveryEvent} {es : List RecoveryEvent} :
    MatrixOverwritten (e :: es) ↔
      (e.IsContended ∧ ContendedAhead false es) ∨ MatrixOverwritten es := by
  constructor
  · rintro ⟨pre, v, mid, v', post, heq, hv, hv', hmid, hwrite⟩
    cases pre with
    | nil =>
        obtain ⟨rfl, rfl⟩ := List.cons.inj heq
        exact Or.inl ⟨hv, mid, v', post, rfl, hv', hmid, Or.inr hwrite⟩
    | cons p pre =>
        obtain ⟨rfl, rfl⟩ := List.cons.inj heq
        exact Or.inr ⟨pre, v, mid, v', post, rfl, hv, hv', hmid, hwrite⟩
  · rintro (⟨hv, mid, v', post, rfl, hv', hmid, hwrite⟩ |
      ⟨pre, v, mid, v', post, rfl, hrest⟩)
    · rcases hwrite with hfalse | hwrite
      · cases hfalse
      · exact ⟨[], e, mid, v', post, rfl, hv, hv', hmid, hwrite⟩
    · exact ⟨e :: pre, v, mid, v', post, rfl, hrest⟩

theorem contendedAhead_cons_of_not_audio {touched : Bool} {e : RecoveryEvent}
    {es : List RecoveryEvent} (he : ¬ e.IsAudio) :
    ContendedAhead touched (e :: es) ↔ e.IsContended ∧ touched = true := by
  constructor
  · rintro ⟨mid, v, post, heq, hv, hmid, hwrite⟩
    cases mid with
    | nil =>
        obtain ⟨rfl, rfl⟩ := List.cons.inj heq
        exact ⟨hv, by simpa using hwrite⟩
    | cons m mid =>
        obtain ⟨rfl, rfl⟩ := List.cons.inj heq
        exact absurd (hmid e List.mem_cons_self) he
  · rintro ⟨hv, htouched⟩
    exact ⟨[], e, es, rfl, hv, by simp, Or.inl htouched⟩

theorem contendedAhead_cons_audio {touched : Bool} {b : AudioRtpFecBlock}
    {es : List RecoveryEvent} :
    ContendedAhead touched (.audio b :: es) ↔
      ContendedAhead (touched || b.reachesLock) es := by
  constructor
  · rintro ⟨mid, v, post, heq, hv, hmid, hwrite⟩
    cases mid with
    | nil =>
        obtain ⟨rfl, rfl⟩ := List.cons.inj heq
        exact hv.elim
    | cons m mid =>
        obtain ⟨rfl, rfl⟩ := List.cons.inj heq
        refine ⟨mid, v, post, rfl, hv,
          fun e he => hmid e (List.mem_cons_of_mem _ he), ?_⟩
        rcases hwrite with htouched | ⟨e, he, hwrite⟩
        · simp [htouched]
        · rcases List.mem_cons.mp he with rfl | he
          · exact Or.inl (by simp [show b.reachesLock = true from hwrite])
          · exact Or.inr ⟨e, he, hwrite⟩
  · rintro ⟨mid, v, post, rfl, hv, hmid, hwrite⟩
    refine ⟨.audio b :: mid, v, post, rfl, hv, fun e he => ?_, ?_⟩
    · rcases List.mem_cons.mp he with rfl | he
      · trivial
      · exact hmid e he
    · rcases hwrite with htouched | ⟨e, he, hwrite⟩
      · rcases Bool.or_eq_true_iff.mp htouched with htouched | hlock
        · exact Or.inl htouched
        · exact Or.inr ⟨.audio b, List.mem_cons_self, hlock⟩
      · exact Or.inr ⟨e, List.mem_cons_of_mem _ he, hwrite⟩

theorem overwrites_iff (held touched : Bool) (es : List RecoveryEvent) :
    overwrites held touched es ↔
      (held = true ∧ ContendedAhead touched es) ∨ MatrixOverwritten es := by
  induction es generalizing held touched with
  | nil =>
      simp [overwrites, ContendedAhead, MatrixOverwritten]
  | cons e es ih =>
      rw [matrixOverwritten_cons]
      cases e with
      | video ds ps total packets marks size =>
          rw [contendedAhead_cons_of_not_audio (by simp [RecoveryEvent.IsAudio])]
          by_cases hshape : ds = audioDataShards ∧ ps = audioParityShards
          · simp [overwrites, RecoveryEvent.IsContended, hshape, ih]
          · simp [overwrites, RecoveryEvent.IsContended, hshape, ih]
      | audio b =>
          rw [contendedAhead_cons_audio]
          simp [overwrites, RecoveryEvent.IsContended, ih]
      | reset =>
          rw [contendedAhead_cons_of_not_audio (by simp [RecoveryEvent.IsAudio])]
          simp [overwrites, RecoveryEvent.IsContended, ih]

/-! ## What the context holds -/

/-- The context after a successful `reedSolomonNew`. -/
def freshContext (ds ps : ℕ) : RsContext :=
  ⟨ds, ps, ds + ps, true, true, cauchyParity ds ps⟩

/-- The context an audio recovery works with. -/
def audioContext : RsContext :=
  { freshContext audioDataShards audioParityShards with
    parityBuf := overlayAudio (cauchyParity audioDataShards audioParityShards) }

/-- The shapes `reedSolomonNew` accepts. -/
def Fits (ds ps : ℕ) : Prop :=
  ¬ (ds + ps > dataShardsMax ∨ ds = 0 ∨ ps = 0)

theorem reedSolomonNew_of_fits (rs : RsContext) {ds ps : ℕ}
    (h : Fits ds ps) : reedSolomonNew rs ds ps = (true, freshContext ds ps) :=
  if_neg h

theorem reedSolomonNew_of_not_fits (rs : RsContext) {ds ps : ℕ}
    (h : ¬ Fits ds ps) : reedSolomonNew rs ds ps =
      (false, ⟨ds, ps, ds + ps, false, false, rs.parityBuf⟩) :=
  if_pos (not_not.mp h)

theorem fits_audio : Fits audioDataShards audioParityShards := by
  simp [Fits, audioDataShards, audioParityShards, dataShardsMax]

theorem overlayAudio_idem (buf : Buf) :
    overlayAudio (overlayAudio buf) = overlayAudio buf := by
  funext a
  by_cases ha : a < audioParity.length <;> simp [overlayAudio, Buf.memcpy, ha]

/-! ## The audio matrix -/

/-- The entry of the audio matrix for a parity row and a data column. -/
def audioEntry (row col : ℕ) : Gf :=
  audioParity.getD (row * audioDataShards + col) 0

theorem audioContext_parityBuf {row col : ℕ} (hrow : row < audioParityShards)
    (hcol : col < audioDataShards) :
    audioContext.parityBuf (row * audioDataShards + col) =
      audioEntry row col := by
  have hflat : row * audioDataShards + col < audioParity.length :=
    flat_lt hcol hrow
  exact if_pos hflat

theorem audioEntry_ne_zero : ∀ row < audioParityShards,
    ∀ col < audioDataShards, audioEntry row col ≠ 0 := by
  decide +kernel

/-- With any entry as first pivot the second pivot does not vanish. -/
theorem audioEntry_second_pivot : ∀ row < audioParityShards,
    ∀ p < audioDataShards, ∀ q < audioDataShards, p ≠ q →
      audioEntry (1 - row) q - audioEntry (1 - row) p *
        ((audioEntry row p)⁻¹ * audioEntry row q) ≠ 0 := by
  decide +kernel

/-- Any one or two lost data packets can be computed with the audio matrix. -/
theorem audioContext_decodes :
    Decodes audioContext audioDataShards audioParityShards := by
  refine ⟨rfl, rfl, rfl, by decide, by decide, ?_⟩
  intro W d q hd hq hdinj hqinj k hk
  have hentry : ∀ i < W, ∀ j < W,
      audioContext.parityBuf (d i * audioDataShards + q j) =
        audioEntry (d i) (q j) := fun i hi j hj =>
    audioContext_parityBuf (hd i hi) (hq j hj)
  have hrows : ∀ i < W, d i < 2 := hd
  have hpos : 0 < W := by omega
  rcases Nat.lt_or_ge k 2 with hk2 | hk2
  · rcases Nat.lt_or_ge k 1 with hk1 | hk1
    · obtain rfl : k = 0 := by omega
      rw [afterColumns, hentry 0 hpos 0 hpos]
      exact audioEntry_ne_zero _ (hd 0 hpos) _ (hq 0 hpos)
    · obtain rfl : k = 1 := by omega
      have hother : d 1 = 1 - d 0 := by
        have h₀ := hrows 0 hpos
        have h₁ := hrows 1 hk
        have hne : d 1 ≠ d 0 := fun h => by
          have := hdinj 1 hk 0 hpos h
          omega
        omega
      have hcols : q 0 ≠ q 1 := fun h => by
        have := hqinj 0 hpos 1 hk h
        omega
      simp only [afterColumns, hentry 0 hpos 0 hpos, hentry 0 hpos 1 hk,
        hentry 1 hk 0 hpos, hentry 1 hk 1 hk]
      rw [hother]
      exact audioEntry_second_pivot _ (hd 0 hpos) _ (hq 0 hpos) _ (hq 1 hk)
        hcols
  · -- there are two parity rows only
    have h₀ := hrows 0 hpos
    have h₁ := hrows 1 (by omega)
    have h₂ := hrows 2 (by omega)
    have h₀₁ := hdinj 0 hpos 1 (by omega)
    have h₀₂ := hdinj 0 hpos 2 (by omega)
    have h₁₂ := hdinj 1 (by omega) 2 (by omega)
    omega

/-! ## The invariant of a run -/

/-- The invariant of a run: without a cached video context the static context is
released or holds the audio matrix; with one it holds the matrix of that shape,
unless an audio recovery has `touched` it since. -/
structure Tracked (s : SharedRs) (touched : Bool) : Prop where
  uncached : s.cachedRs = false → s.ctx.m = false ∨ s.ctx = audioContext
  fits : s.cachedRs = true → Fits s.cachedData s.cachedParity
  cached : s.cachedRs = true → s.ctx =
    if touched then audioContext else freshContext s.cachedData s.cachedParity

theorem tracked_initial : Tracked SharedRs.initial false :=
  ⟨fun _ => Or.inl rfl, fun h => absurd h (by decide),
    fun h => absurd h (by decide)⟩

/-- Whatever the context held, an audio recovery leaves the audio context. -/
theorem audioReconstruct_eq {s : SharedRs} {touched : Bool}
    (h : Tracked s touched) (b : AudioRtpFecBlock) :
    audioReconstruct s b =
      ({ s with ctx := audioContext, audioRs := true },
        some (reconstruct audioContext b.shards b.marks audioTotalShards
          b.blockSize)) := by
  by_cases hnew : !s.audioRs ∨ s.ctx.dataShards ≠ audioDataShards ∨
      s.ctx.parityShards ≠ audioParityShards ∨ !s.ctx.m ∨ !s.ctx.parity
  · simp only [audioReconstruct, if_pos hnew,
      reedSolomonNew_of_fits _ fits_audio]
    rfl
  · have hreuse := hnew
    push Not at hreuse
    obtain ⟨haudio, hds, hps, hm, hparity⟩ := hreuse
    have haudio' : s.audioRs = true := by simpa using haudio
    have hctx : s.ctx = audioContext ∨
        s.ctx = freshContext audioDataShards audioParityShards := by
      cases hcached : s.cachedRs with
      | false =>
          rcases h.uncached hcached with hnone | hctx
          · simp [hnone] at hm
          · exact Or.inl hctx
      | true =>
          have hctx := h.cached hcached
          cases touched with
          | true => exact Or.inl hctx
          | false =>
              have hctx' : s.ctx =
                  freshContext s.cachedData s.cachedParity := hctx
              rw [hctx'] at hds hps
              right
              rw [hctx', ← hds, ← hps]
              rfl
    have hoverlay : { s.ctx with parityBuf := overlayAudio s.ctx.parityBuf } =
        audioContext := by
      rcases hctx with hctx | hctx <;> rw [hctx]
      · simp [audioContext, overlayAudio_idem]
      · rfl
    unfold audioReconstruct
    rw [if_neg hnew]
    simp only [haudio', if_true]
    rw [hoverlay]

theorem audioRtpFecComplete_step {s : SharedRs} {touched : Bool}
    (h : Tracked s touched) (b : AudioRtpFecBlock) :
    (RecoveryEvent.audio b).step s =
      if b.reachesLock then
        ({ s with ctx := audioContext, audioRs := true },
          some (reconstruct audioContext b.shards b.marks audioTotalShards
            b.blockSize))
      else (s, none) := by
  simp only [RecoveryEvent.step, audioRtpFecComplete,
    AudioRtpFecBlock.reachesLock, audioReconstruct_eq h]
  by_cases hvalid : b.valid = true
  · by_cases hmissing : b.missingData = 0
    · simp [hvalid, hmissing]
    · by_cases havail : b.available < audioDataShards
      · simp [hvalid, hmissing, havail]
      · simp [hvalid, hmissing, havail, Nat.not_lt.mp havail]
  · simp [hvalid]

theorem Tracked.audio {s : SharedRs} {touched : Bool} (h : Tracked s touched) :
    Tracked { s with ctx := audioContext, audioRs := true } true :=
  ⟨fun _ => Or.inr rfl, h.fits, fun _ => rfl⟩

theorem Tracked.reset {s : SharedRs} {touched : Bool} (h : Tracked s touched) :
    Tracked (rtpFecResetContext s) false ∧
      (rtpFecResetContext s).cachedRs = false := by
  unfold rtpFecResetContext
  cases hcached : s.cachedRs with
  | false =>
      simp only [Bool.false_eq_true, if_false]
      refine ⟨⟨h.uncached, fun hc => ?_, fun hc => ?_⟩, hcached⟩
      all_goals
        rw [hcached] at hc
        cases hc
  | true =>
      exact ⟨⟨fun _ => Or.inl rfl, fun hc => absurd hc (by simp),
        fun hc => absurd hc (by simp)⟩, rfl⟩

/-! ## Video recoveries -/

/-- A cached video context that is reused is the last one used, so the only way
it can have the wrong matrix is the audio one of the same shape. -/
theorem videoReconstruct_spec {s : SharedRs} {touched : Bool}
    (h : Tracked s touched) (ds ps total : ℕ) (packets : ℕ → Buf)
    (marks : ℕ → Bool) (size : ℕ) :
    if s.cachedRs = true ∧ s.cachedData = ds ∧ s.cachedParity = ps ∧
        touched = true ∧ ds = audioDataShards ∧ ps = audioParityShards then
      (videoReconstruct s ds ps total packets marks size).2 =
        some (reconstruct audioContext packets marks total size)
    else
      (videoReconstruct s ds ps total packets marks size).2 =
        (RecoveryEvent.video ds ps total packets marks size).onOwnContext ∧
      Tracked (videoReconstruct s ds ps total packets marks size).1 false ∧
      ((videoReconstruct s ds ps total packets marks size).1.cachedRs = true →
        (videoReconstruct s ds ps total packets marks size).1.cachedData = ds ∧
        (videoReconstruct s ds ps total packets marks size).1.cachedParity =
          ps) ∧
      (Fits ds ps → (videoReconstruct s ds ps total packets marks
        size).1.cachedRs = true) := by
  by_cases hreuse : s.cachedRs ∧ s.cachedData = ds ∧
      s.cachedParity = ps ∧ s.ctx.dataShards = ds ∧ s.ctx.parityShards = ps
  · obtain ⟨hcached, rfl, rfl, hds, hps⟩ := hreuse
    have hresult : videoReconstruct s s.cachedData s.cachedParity total packets
        marks size = (s, some (reconstruct s.ctx packets marks total size)) :=
      if_pos ⟨hcached, rfl, rfl, hds, hps⟩
    have hctx := h.cached hcached
    rw [hresult]
    cases touched with
    | true =>
        have haudio : s.ctx = audioContext := hctx
        rw [haudio] at hds hps
        have hshape : s.cachedData = audioDataShards ∧
            s.cachedParity = audioParityShards := ⟨hds.symm, hps.symm⟩
        rw [if_pos ⟨hcached, rfl, rfl, rfl, hshape⟩, haudio]
    | false =>
        have hfresh : s.ctx = freshContext s.cachedData s.cachedParity := hctx
        rw [if_neg (by simp)]
        refine ⟨?_, h, fun _ => ⟨rfl, rfl⟩, fun _ => hcached⟩
        simp only [RecoveryEvent.onOwnContext,
          reedSolomonNew_of_fits _ (h.fits hcached), if_true, hfresh]
  · have hnot : ¬ (s.cachedRs = true ∧ s.cachedData = ds ∧
        s.cachedParity = ps ∧ touched = true ∧ ds = audioDataShards ∧
        ps = audioParityShards) := by
      rintro ⟨hcached, hdata, hparity, htouched, hds, hps⟩
      have hctx := h.cached hcached
      rw [htouched, if_pos rfl] at hctx
      refine hreuse ⟨hcached, hdata, hparity, ?_, ?_⟩
      · rw [hctx, hds]
        rfl
      · rw [hctx, hps]
        rfl
    rw [if_neg hnot]
    have hresult : videoReconstruct s ds ps total packets marks size = _ :=
      if_neg hreuse
    rw [hresult]
    by_cases hfits : Fits ds ps
    · simp only [reedSolomonNew_of_fits _ hfits, if_true,
        RecoveryEvent.onOwnContext, true_and]
      exact ⟨⟨fun hc => absurd hc (by simp), fun _ => hfits,
        fun _ => rfl⟩, fun _ => trivial, fun _ => trivial⟩
    · simp only [reedSolomonNew_of_not_fits _ hfits, Bool.false_eq_true,
        if_false, RecoveryEvent.onOwnContext, true_and]
      exact ⟨⟨fun _ => Or.inl rfl, fun hc => absurd hc (by simp),
        fun hc => absurd hc (by simp)⟩, fun hc => absurd hc (by simp),
        fun hf => absurd hf hfits⟩

theorem Tracked.video {s : SharedRs} {touched : Bool} (h : Tracked s touched)
    (ds ps total : ℕ) (packets : ℕ → Buf) (marks : ℕ → Bool) (size : ℕ) :
    ∃ touched',
      Tracked (videoReconstruct s ds ps total packets marks size).1 touched' := by
  unfold videoReconstruct
  by_cases hreuse : s.cachedRs ∧ s.cachedData = ds ∧
      s.cachedParity = ps ∧ s.ctx.dataShards = ds ∧ s.ctx.parityShards = ps
  · rw [if_pos hreuse]
    exact ⟨touched, h⟩
  · rw [if_neg hreuse]
    refine ⟨false, ?_⟩
    by_cases hfits : Fits ds ps
    · simp only [reedSolomonNew_of_fits _ hfits, if_true]
      exact ⟨fun hc => absurd hc (by simp), fun _ => hfits, fun _ => rfl⟩
    · simp only [reedSolomonNew_of_not_fits _ hfits, Bool.false_eq_true,
        if_false]
      exact ⟨fun _ => Or.inl rfl, fun hc => absurd hc (by simp),
        fun hc => absurd hc (by simp)⟩

/-- Every event keeps the invariant. -/
theorem Tracked.step {s : SharedRs} {touched : Bool} (h : Tracked s touched)
    (e : RecoveryEvent) : ∃ touched', Tracked (e.step s).1 touched' := by
  cases e with
  | video ds ps total packets marks size =>
      exact h.video ds ps total packets marks size
  | audio b =>
      rw [audioRtpFecComplete_step h]
      split_ifs
      · exact ⟨true, h.audio⟩
      · exact ⟨touched, h⟩
  | reset => exact ⟨false, h.reset.1⟩

/-- The audio matrix is not the Cauchy matrix of its shape. -/
theorem audioContext_matrix_ne : matrixInForce audioContext ≠
    matrixInForce (freshContext audioDataShards audioParityShards) := by
  decide +kernel

/-! ## The whole run -/

theorem runRecoveries_eq_iff (es : List RecoveryEvent) (s : SharedRs)
    (held touched : Bool) (h : Tracked s touched)
    (hheld : held = true ↔ s.cachedRs = true ∧
      s.cachedData = audioDataShards ∧ s.cachedParity = audioParityShards) :
    runRecoveries s es = es.map RecoveryEvent.onOwnContext ↔
      ¬ overwrites held touched es := by
  induction es generalizing s held touched with
  | nil => simp [runRecoveries, overwrites]
  | cons e es ih =>
      rw [runRecoveries, List.map_cons, List.cons.injEq]
      cases e with
      | video ds ps total packets marks size =>
          have hspec := videoReconstruct_spec h ds ps total packets marks size
          simp only [RecoveryEvent.step, overwrites]
          by_cases hshape : ds = audioDataShards ∧ ps = audioParityShards
          · obtain ⟨rfl, rfl⟩ := hshape
            by_cases hbad : held = true ∧ touched = true
            · obtain ⟨hcached, hdata, hparity⟩ := hheld.mp hbad.1
              rw [if_pos ⟨hcached, hdata, hparity, hbad.2, rfl, rfl⟩] at hspec
              have hne : (videoReconstruct s audioDataShards audioParityShards
                  total packets marks size).2 ≠
                  (RecoveryEvent.video audioDataShards audioParityShards total
                    packets marks size).onOwnContext := by
                rw [hspec]
                simp only [RecoveryEvent.onOwnContext,
                  reedSolomonNew_of_fits _ fits_audio, if_true]
                intro heq
                exact audioContext_matrix_ne
                  (congrArg Reconstruction.matrix (Option.some.inj heq))
              simp [hne, hbad]
            · have hnot : ¬ (s.cachedRs = true ∧
                  s.cachedData = audioDataShards ∧
                  s.cachedParity = audioParityShards ∧ touched = true ∧
                  audioDataShards = audioDataShards ∧
                  audioParityShards = audioParityShards) :=
                fun hc => hbad ⟨hheld.mpr ⟨hc.1, hc.2.1, hc.2.2.1⟩,
                  hc.2.2.2.1⟩
              rw [if_neg hnot] at hspec
              obtain ⟨hout, htracked, hcache, hfits⟩ := hspec
              have hcached := hfits fits_audio
              rw [ih _ true false htracked
                (iff_of_true rfl ⟨hcached, hcache hcached⟩)]
              simp [hout, hbad]
          · have hnot : ¬ (s.cachedRs = true ∧ s.cachedData = ds ∧
                s.cachedParity = ps ∧ touched = true ∧
                ds = audioDataShards ∧ ps = audioParityShards) :=
              fun hc => hshape hc.2.2.2.2
            rw [if_neg hnot] at hspec
            obtain ⟨hout, htracked, hcache, -⟩ := hspec
            rw [ih _ false false htracked ?_]
            · simp [hout, hshape]
            · refine iff_of_false (by simp) fun ⟨hcached, hds, hps⟩ => hshape ?_
              obtain ⟨hdata, hparity⟩ := hcache hcached
              exact ⟨hdata ▸ hds, hparity ▸ hps⟩
      | audio b =>
          rw [audioRtpFecComplete_step h]
          simp only [overwrites]
          by_cases hlock : b.reachesLock = true
          · simp only [if_pos hlock]
            rw [ih _ held true h.audio hheld]
            have hown : (RecoveryEvent.audio b).onOwnContext =
                some (reconstruct audioContext b.shards b.marks
                  audioTotalShards b.blockSize) := if_pos hlock
            simp [hown, hlock]
          · simp only [if_neg hlock]
            rw [ih _ held touched h hheld]
            simp [hlock, RecoveryEvent.onOwnContext]
      | reset =>
          obtain ⟨htracked, hcached⟩ := h.reset
          simp only [RecoveryEvent.step, overwrites]
          rw [ih _ false false htracked (by simp [hcached])]
          simp [RecoveryEvent.onOwnContext]

/-- On the shared context every recovery works with the matrix of a context of
its own, and returns the same, exactly in the runs in which the audio side does
not write its matrix between two successive video recoveries of its shape. -/
theorem recoveries_as_on_own_context_iff (es : List RecoveryEvent) :
    runRecoveries SharedRs.initial es = es.map RecoveryEvent.onOwnContext ↔
      ¬ MatrixOverwritten es := by
  rw [runRecoveries_eq_iff es _ false false tracked_initial (by decide),
    overwrites_iff]
  simp

/-- Video, audio, video, all of four data and two parity shards: the second
video recovery works with the audio matrix. -/
theorem recoveries_not_as_on_own_context :
    ¬ ∀ es : List RecoveryEvent,
      runRecoveries SharedRs.initial es =
        es.map RecoveryEvent.onOwnContext := by
  intro h
  let video : RecoveryEvent := .video 4 2 6 (fun _ _ => 0) (fun i => i = 0) 1
  let audio : RecoveryEvent := .audio
    ⟨true, fun i => i = 0, fun _ _ => 0, fun _ _ => 0, 1⟩
  have hrun := h [video, audio, video]
  have hmatrix := congrArg
    (List.map (Option.map Reconstruction.matrix)) hrun
  exact absurd hmatrix (by decide +kernel)

end MoonlightPsp.ReedSolomon
