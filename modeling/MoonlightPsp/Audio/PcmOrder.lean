import Mathlib.Tactic.Common
import MoonlightPsp.Audio.Pcm

/-!
# Samples are played in the order in which they were accepted

What was popped, then the queued chunks, then the stage: pushes and pops move
samples inside of this list, and an append puts new ones at its end.  The one
exception is a push behind the wrap of the head counter.  As 96 does not divide
2^32, the slots do not go on there in turn, and with 64 chunks in the ring the
push meets the slot of one of them.
-/

namespace MoonlightPsp.Audio

/-! ## What is conserved -/

/-- The chunks between tail and head. -/
def AudioRingBuffer.queued (r : AudioRingBuffer) : List Chunk :=
  (List.range (r.head - r.tail).toNat).map fun k =>
    r.pcm (ringSlot (r.tail + UInt32.ofNat k))

/-- All samples since the last reset, in the order of playing. -/
def Pcm.samples (s : Pcm) : List Int16 :=
  s.popped ++ s.ring.queued.flatMap Chunk.samples ++ s.stage

/-- The stage and the ring are in their bounds. -/
structure InBounds (s : Pcm) : Prop where
  stage : s.stage.length ≤ audioStageCapacity
  ring : s.ring.head - s.ring.tail ≤ s.depth

/-- If the head counter has wrapped and the tail counter has not, a push to one
of the first 64 slots with 64 chunks in the ring writes what is there. -/
def Push.Harmless (p : Push) : Prop :=
  p.head < p.tail → p.head < 64 → 64 ≤ p.head - p.tail → p.old = p.new

/-- The depth as it always is, and the bounds. -/
structure Sane (s : Pcm) : Prop extends InBounds s where
  depth_eq : s.depth = UInt32.ofNat audioRingSlots

variable {s t u : Pcm}

theorem sane_init : Sane .init := by
  refine ⟨⟨Nat.zero_le _, ?_⟩, rfl⟩
  exact UInt32.le_iff_toNat_le.mpr (by decide)

/-! ## The ring -/

/-- Two counters less than 96 apart have the same slot only across the wrap. -/
theorem wrapped_of_mod_eq {h t k n : ℕ} (hh : h < 4294967296)
    (ht : t < 4294967296) (hk : k < n) (hroom : n < 96)
    (hcount : n = (4294967296 - t + h) % 4294967296)
    (hslot : (t + k) % 4294967296 % 96 = h % 96) :
    h < t ∧ h < 64 ∧ 64 ≤ n := by
  rcases Nat.lt_or_ge h t with hwrapped | hturn
  · have hn : n = 4294967296 - t + h := by omega
    rcases Nat.lt_or_ge (t + k) 4294967296 with hbefore | hbehind
    · have hmod : (t + k) % 4294967296 = t + k := Nat.mod_eq_of_lt hbefore
      rw [hmod] at hslot
      omega
    · have hmod : (t + k) % 4294967296 = t + k - 4294967296 := by omega
      rw [hmod] at hslot
      omega
  · have hn : n = h - t := by omega
    have hmod : (t + k) % 4294967296 = t + k := Nat.mod_eq_of_lt (by omega)
    rw [hmod] at hslot
    omega

/-- The slot of the head is that of a queued chunk only across the wrap. -/
theorem wrapped_of_ringSlot_eq {head tail : UInt32} {k : ℕ}
    (hk : k < (head - tail).toNat) (hroom : (head - tail).toNat < 96)
    (hslot : ringSlot (tail + UInt32.ofNat k) = ringSlot head) :
    head < tail ∧ head < 64 ∧ 64 ≤ head - tail := by
  have hhead := head.toNat_lt
  have htail := tail.toNat_lt
  have h64 : (64 : UInt32).toNat = 64 := rfl
  have h96 : (UInt32.ofNat audioRingSlots).toNat = 96 := rfl
  rw [ringSlot, ringSlot, UInt32.toNat_mod, UInt32.toNat_mod, h96,
    UInt32.toNat_add, UInt32.toNat_ofNat'] at hslot
  rw [UInt32.toNat_sub] at hk hroom
  rw [UInt32.lt_iff_toNat_lt, UInt32.lt_iff_toNat_lt, UInt32.le_iff_toNat_le,
    UInt32.toNat_sub, h64]
  rw [Nat.add_mod_mod] at hslot
  exact wrapped_of_mod_eq hhead htail hk hroom rfl hslot

theorem length_queued (r : AudioRingBuffer) :
    r.queued.length = (r.head - r.tail).toNat := by
  rw [AudioRingBuffer.queued, List.length_map, List.length_range]

theorem toNat_sub_lt_of_room (h : Sane s) (hroom : ringFull s = false) :
    (s.ring.head - s.ring.tail).toNat < 96 := by
  rw [ringFull, decide_eq_false_iff_not, h.depth_eq, ge_iff_le,
    UInt32.not_le] at hroom
  exact UInt32.lt_iff_toNat_lt.mp hroom

theorem toNat_succ_sub {head tail : UInt32}
    (hroom : (head - tail).toNat < 96) :
    (head + 1 - tail).toNat = (head - tail).toNat + 1 := by
  have hhead := head.toNat_lt
  have htail := tail.toNat_lt
  rw [UInt32.toNat_sub] at hroom
  rw [UInt32.toNat_sub, UInt32.toNat_sub, UInt32.toNat_add]
  rw [show (1 : UInt32).toNat = 1 from rfl]
  omega

/-- A harmless push adds one chunk to the queue. -/
theorem queued_push {r : AudioRingBuffer} {src : Chunk}
    (hroom : (r.head - r.tail).toNat < 96)
    (hharmless : Push.Harmless ⟨r.head, r.tail, r.pcm (ringSlot r.head), src⟩) :
    AudioRingBuffer.queued { r with
      pcm := Function.update r.pcm (ringSlot r.head) src
      head := r.head + 1 } = r.queued ++ [src] := by
  have hkept : ∀ k, k < (r.head - r.tail).toNat →
      Function.update r.pcm (ringSlot r.head) src
        (ringSlot (r.tail + UInt32.ofNat k)) =
      r.pcm (ringSlot (r.tail + UInt32.ofNat k)) := by
    intro k hk
    by_cases hslot : ringSlot (r.tail + UInt32.ofNat k) = ringSlot r.head
    · obtain ⟨hwrapped, hlow, hmany⟩ := wrapped_of_ringSlot_eq hk hroom hslot
      rw [hslot, Function.update_self]
      exact (hharmless hwrapped hlow hmany).symm
    · exact Function.update_of_ne hslot _ _
  have hlast : r.tail + UInt32.ofNat (r.head - r.tail).toNat = r.head := by
    rw [UInt32.ofNat_toNat, UInt32.add_comm, UInt32.sub_add_cancel]
  rw [AudioRingBuffer.queued, AudioRingBuffer.queued]
  dsimp only
  rw [toNat_succ_sub hroom, List.range_succ, List.map_append, List.map_singleton,
    hlast, Function.update_self]
  refine congrArg (· ++ [src]) (List.map_congr_left fun k hk => ?_)
  exact hkept k (List.mem_range.mp hk)

/-- A pop takes the oldest chunk of the queue. -/
theorem queued_pop {r : AudioRingBuffer} (hqueued : r.head ≠ r.tail) :
    r.queued = r.pcm (ringSlot r.tail) ::
      AudioRingBuffer.queued { r with tail := r.tail + 1 } := by
  have hne : (r.head - r.tail).toNat ≠ 0 := by
    intro hzero
    have hsame : r.head - r.tail = 0 := UInt32.toNat_inj.mp hzero
    refine hqueued ?_
    rw [← UInt32.sub_add_cancel r.head r.tail, hsame, UInt32.zero_add]
  obtain ⟨n, hn⟩ := Nat.exists_eq_succ_of_ne_zero hne
  have hrest : (r.head - (r.tail + 1)).toNat = n := by
    have hhead := r.head.toNat_lt
    have htail := r.tail.toNat_lt
    rw [UInt32.toNat_sub] at hn
    rw [UInt32.toNat_sub, UInt32.toNat_add]
    rw [show (1 : UInt32).toNat = 1 from rfl]
    omega
  rw [AudioRingBuffer.queued, AudioRingBuffer.queued, hn, List.range_succ_eq_map,
    List.map_cons, List.map_map]
  dsimp only
  rw [hrest]
  refine congrArg₂ _ ?_ (List.map_congr_left fun k _ => ?_)
  · rw [show UInt32.ofNat 0 = 0 from rfl, UInt32.add_zero]
  · rw [Function.comp_apply, Nat.succ_eq_add_one, UInt32.ofNat_add,
      UInt32.add_assoc, UInt32.add_comm (UInt32.ofNat k)]
    rfl

/-! ## Pushes and pops -/

/-- What pushes and pops do: samples only move. -/
structure Carries (s u : Pcm) : Prop where
  sane : Sane s → Sane u
  pushes : s.pushes <+: u.pushes
  samples : Sane s → (∀ p ∈ u.pushes, p.Harmless) → u.samples = s.samples
  stage : u.stage.length ≤ s.stage.length

theorem Carries.refl (s : Pcm) : Carries s s :=
  ⟨id, List.prefix_refl _, fun _ _ => rfl, Nat.le_refl _⟩

theorem Carries.trans (h : Carries s t) (h' : Carries t u) : Carries s u where
  sane := h'.sane ∘ h.sane
  pushes := h.pushes.trans h'.pushes
  samples := fun hs hu => (h'.samples (h.sane hs) hu).trans
    (h.samples hs fun p hp => hu p (h'.pushes.subset hp))
  stage := Nat.le_trans h'.stage h.stage

theorem ringPopPcm_carries (s : Pcm) : Carries s (ringPopPcm s).2 := by
  rw [ringPopPcm]
  split
  · exact Carries.refl s
  · rename_i hempty
    have hqueued : s.ring.head ≠ s.ring.tail := by
      rw [ringEmpty, beq_iff_eq] at hempty
      exact hempty
    have hpop := queued_pop hqueued
    refine ⟨fun h => ⟨⟨h.stage, ?_⟩, h.depth_eq⟩, List.prefix_refl _,
      fun _ _ => ?_, Nat.le_refl _⟩
    · have hlength := congrArg List.length hpop
      rw [List.length_cons, length_queued, length_queued] at hlength
      have hle := UInt32.le_iff_toNat_le.mp h.ring
      exact UInt32.le_iff_toNat_le.mpr (by dsimp only at hlength ⊢; omega)
    · rw [Pcm.samples, Pcm.samples, hpop, List.flatMap_cons]
      simp only [List.append_assoc]

@[simp] theorem ringPopPcm_stage (s : Pcm) : (ringPopPcm s).2.stage = s.stage := by
  rw [ringPopPcm]
  split
  · rfl
  · rfl

theorem popMany_carries (s : Pcm) (n : ℕ) : Carries s (s.popMany n) := by
  induction n generalizing s with
  | zero => exact Carries.refl s
  | succ n ih => exact (ringPopPcm_carries s).trans (ih _)

theorem popMany_stage (s : Pcm) (n : ℕ) : (s.popMany n).stage = s.stage := by
  induction n generalizing s with
  | zero => rfl
  | succ n ih => rw [Pcm.popMany, ih, ringPopPcm_stage]

/-- A push of the chunk at the front of the stage. -/
theorem ringPushPcm_carries (s : Pcm)
    (h : audioChunkSamples ≤ s.stage.length) :
    let r := ringPushPcm s (stageChunk s.stage h)
    (r.1 = false → r.2 = s) ∧ (r.1 = true →
      Carries s { r.2 with stage := s.stage.drop audioChunkSamples }) := by
  rw [ringPushPcm]
  split
  · exact ⟨fun _ => rfl, fun htrue => by cases htrue⟩
  · rename_i hfull
    rw [Bool.not_eq_true] at hfull
    constructor
    · intro hfalse
      cases hfalse
    intro _
    refine ⟨fun hs => ?_, List.prefix_append _ _, fun hs hharmless => ?_, ?_⟩
    · have hroom := toNat_sub_lt_of_room hs hfull
      refine ⟨⟨?_, ?_⟩, hs.depth_eq⟩
      · rw [List.length_drop]
        exact Nat.le_trans (Nat.sub_le _ _) hs.stage
      · rw [UInt32.le_iff_toNat_le, toNat_succ_sub hroom, hs.depth_eq]
        exact hroom
    · have hqueued := queued_push (toNat_sub_lt_of_room hs hfull)
        (hharmless _ (List.mem_append_right _ (List.mem_singleton.mpr rfl)))
      have hstage : s.stage = s.stage.take audioChunkSamples ++
        s.stage.drop audioChunkSamples := (List.take_append_drop _ _).symm
      rw [Pcm.samples, Pcm.samples, hqueued, List.flatMap_append,
        List.flatMap_singleton]
      conv => right; rw [hstage]
      simp only [stageChunk, List.append_assoc]
    · rw [List.length_drop]
      exact Nat.sub_le _ _

/-! ## The stage -/

theorem flushLoop_carries (rounds : ℕ) (s : Pcm) (pops : List ℕ) :
    Carries s (flushLoop rounds s pops).2.1 := by
  induction rounds generalizing s pops with
  | zero => exact Carries.refl s
  | succ rounds ih =>
      rw [flushLoop]
      split
      · rename_i hchunk
        have hpopped := popMany_carries s (pops.headD 0)
        have hstage := popMany_stage s (pops.headD 0)
        have hpush := ringPushPcm_carries (s.popMany (pops.headD 0))
          (hstage ▸ hchunk)
        simp only [hstage] at hpush
        dsimp only
        split
        · rename_i hfailed
          rw [hpush.1 (by simpa using hfailed)]
          exact hpopped
        · rename_i hdone
          exact (hpopped.trans (hpush.2 (by simpa using hdone))).trans (ih _ _)
      · exact Carries.refl s

theorem makeStageRoom_carries (samples waitsLeft : ℕ) (s : Pcm)
    (pops : List ℕ) :
    let r := makeStageRoom samples waitsLeft s pops
    Carries s r.2.1 ∧
      (r.1 = true → r.2.1.stage.length + samples ≤ audioStageCapacity) := by
  induction waitsLeft generalizing s pops with
  | zero =>
      have hflushed := flushLoop_carries s.stage.length s pops
      rw [makeStageRoom]
      split
      · rename_i hfits
        exact ⟨Carries.refl s, fun _ => hfits⟩
      · dsimp only
        split
        · rename_i hfits
          exact ⟨hflushed, fun _ => hfits.2⟩
        · exact ⟨hflushed, fun htrue => by cases htrue⟩
  | succ waitsLeft ih =>
      have hflushed := flushLoop_carries s.stage.length s pops
      rw [makeStageRoom]
      split
      · rename_i hfits
        exact ⟨Carries.refl s, fun _ => hfits⟩
      · dsimp only
        split
        · rename_i hfits
          exact ⟨hflushed, fun _ => hfits.2⟩
        · obtain ⟨hcarries, hfits⟩ := ih
            (audioFlushStageToRing s pops).2.1 (audioFlushStageToRing s pops).2.2
          exact ⟨hflushed.trans hcarries, hfits⟩

/-- The samples of an append are behind all others, unless its return value is
negative. -/
theorem append_spec (h : Sane s) (src : ℕ → Int16) (samples : ℤ)
    (pops : List ℕ) :
    let r := audioStageAppendAndFlush s src samples pops
    Sane r.2 ∧ s.pushes <+: r.2.pushes ∧
      ((∀ p ∈ r.2.pushes, p.Harmless) → r.2.samples =
        s.samples ++ if r.1 < 0 then [] else given src samples) := by
  rw [audioStageAppendAndFlush]
  split
  · exact ⟨h, List.prefix_refl _, fun _ => by simp⟩
  · rename_i hsize
    obtain ⟨hroom, hfits⟩ := makeStageRoom_carries samples.toNat 24 s pops
    dsimp only
    generalize makeStageRoom samples.toNat 24 s pops = room at hroom hfits ⊢
    obtain ⟨ok, u, left⟩ := room
    cases ok with
    | false =>
        refine ⟨hroom.sane h, hroom.pushes, fun hharmless => ?_⟩
        simpa using hroom.samples h hharmless
    | true =>
        have hsane := hroom.sane h
        have hmore : Sane { u with stage := u.stage ++ given src samples } := by
          refine ⟨⟨?_, hsane.ring⟩, hsane.depth_eq⟩
          rw [List.length_append, given, List.length_map, List.length_range]
          exact hfits rfl
        have hflushed := flushLoop_carries (u.stage ++ given src samples).length
          { u with stage := u.stage ++ given src samples } left
        refine ⟨hflushed.sane hmore, hroom.pushes.trans hflushed.pushes,
          fun hharmless => ?_⟩
        have hbefore : u.samples = s.samples := hroom.samples h fun p hp =>
          hharmless p (hflushed.pushes.subset hp)
        have hadded : Pcm.samples
            { u with stage := u.stage ++ given src samples } =
            u.samples ++ given src samples := by
          rw [Pcm.samples, Pcm.samples, List.append_assoc _ u.stage]
        have hcode : ∀ b : Bool, ¬(if b then (0 : ℤ) else 1) < 0 := by decide
        rw [Bool.not_true, if_neg Bool.false_ne_true, if_neg (hcode _),
          ← hbefore, ← hadded]
        exact hflushed.samples hmore hharmless

/-! ## Runs -/

/-- The bounds, and the accepted samples in order. -/
def Accounts (s : Pcm) (accepted : List Int16) : Prop :=
  Sane s ∧ ((∀ p ∈ s.pushes, p.Harmless) → s.samples = accepted)

theorem Accounts.of_carries {accepted : List Int16} (h : Accounts s accepted)
    (hcarries : Carries s u) : Accounts u accepted :=
  ⟨hcarries.sane h.1, fun hharmless => (hcarries.samples h.1 hharmless).trans
    (h.2 fun p hp => hharmless p (hcarries.pushes.subset hp))⟩

theorem call_accounts {accepted : List Int16} (h : Accounts s accepted)
    (c : PcmCall) : Accounts (s.call c) (acceptedBy s accepted c) := by
  cases c with
  | append src samples pops =>
      obtain ⟨hsane, hpushes, hsamples⟩ := append_spec h.1 src samples pops
      refine ⟨hsane, fun hharmless => ?_⟩
      have hbefore := h.2 fun p hp => hharmless p (hpushes.subset hp)
      rw [Pcm.call, hsamples hharmless, hbefore, acceptedBy]
      split
      · exact List.append_nil _
      · rfl
  | flush pops => exact h.of_carries (flushLoop_carries _ s pops)
  | pop => exact h.of_carries (ringPopPcm_carries s)
  | adjustDepth =>
      have hring := h.1.ring
      rw [h.1.depth_eq] at hring
      exact ⟨⟨⟨h.1.stage, hring⟩, rfl⟩, h.2⟩
  | reset =>
      refine ⟨⟨⟨Nat.zero_le _, ?_⟩, h.1.depth_eq⟩, fun _ => ?_⟩
      · exact UInt32.le_iff_toNat_le.mpr (by simp [Pcm.call, Pcm.reset])
      · simp [Pcm.call, Pcm.reset, Pcm.samples, AudioRingBuffer.queued,
          acceptedBy]

/-- In every run the stage and the ring stay in their bounds; and unless a push
behind a wrap met a queued chunk since the last reset, all accepted samples were
popped, are queued or are staged, in their order. -/
theorem samples_eq_accepted (calls : List PcmCall) :
    let r := playRun .init [] calls
    InBounds r.1 ∧ ((∀ p ∈ r.1.pushes, p.Harmless) → r.1.samples = r.2) := by
  have hrun : ∀ s accepted, Accounts s accepted →
      Accounts (playRun s accepted calls).1 (playRun s accepted calls).2 := by
    induction calls with
    | nil => exact fun s accepted h => h
    | cons c calls ih => exact fun s accepted h => ih _ _ (call_accounts h c)
  obtain ⟨hsane, hsamples⟩ := hrun .init [] ⟨sane_init, fun _ => rfl⟩
  exact ⟨hsane.toInBounds, hsamples⟩

/-- A push whose counters are in turn is harmless. -/
theorem Push.harmless_of_le {p : Push} (h : p.tail ≤ p.head) : p.Harmless :=
  fun hwrapped => absurd h (UInt32.not_le.mpr hwrapped)

/-- A ramp of 700 samples and 600 ones, with a pop behind each and one before the
second push. -/
def rampRun : List PcmCall :=
  [.append (fun i => Int16.ofNat i) 700 [], .pop, .append (fun _ => 1) 600 [1], .pop]

theorem samples_eq_accepted_rampRun :
    (playRun .init [] rampRun).1.samples = (playRun .init [] rampRun).2 := by
  have hturn : (playRun .init [] rampRun).1.pushes.all
      (fun p => decide (p.tail ≤ p.head)) = true := by decide +kernel
  refine (samples_eq_accepted rampRun).2 fun p hp => ?_
  exact Push.harmless_of_le (of_decide_eq_true (List.all_eq_true.mp hturn p hp))

/-! ## A run across the wrap -/

/-- Rounds of one silent chunk each that is popped at once, then a chunk of ones
and 64 silent ones. -/
def wrapRun (rounds : ℕ) : List PcmCall :=
  (List.replicate rounds [.append (fun _ => 0) 512 [], .pop]).flatten ++
    .append (fun _ => 1) 512 [] ::
      List.replicate 64 (.append (fun _ => 0) 512 [])

/-- A chunk with one value. -/
def Chunk.all (x : Int16) : Chunk where
  samples := List.replicate audioChunkSamples x
  length_eq := List.length_replicate

/-- What can be said of the ring in such a run: nothing is staged, all that was
popped is silent, and so are all slots but that of the chunk of ones. -/
structure Quiet (s : Pcm) (head tail : UInt32) : Prop where
  stage : s.stage = []
  depth : s.depth = 96
  head_eq : s.ring.head = head
  tail_eq : s.ring.tail = tail
  popped : ∀ x ∈ s.popped, x = 0
  slots : ∀ i, i ≠ 63 → s.ring.pcm i = .silence

theorem given_all (x : Int16) :
    given (fun _ => x) 512 = List.replicate audioChunkSamples x := by
  rw [given, List.map_const', List.length_range]
  rfl

/-- A flush of a stage with one chunk. -/
theorem flushLoop_chunk (h : s.stage.length = audioChunkSamples)
    (hroom : ringFull s = false) (rounds : ℕ) :
    flushLoop (rounds + 1) s [] =
      (true, { (ringPushPcm s (stageChunk s.stage h.ge)).2 with stage := [] },
        []) := by
  have hpushed : (ringPushPcm s (stageChunk s.stage h.ge)).1 = true := by
    rw [ringPushPcm, hroom]
    rfl
  have hempty : s.stage.drop audioChunkSamples = [] :=
    List.drop_eq_nil_of_le h.le
  have hdone : ∀ u : Pcm, u.stage = [] →
      flushLoop rounds u [] = (true, u, []) := by
    intro u hu
    cases rounds with
    | zero => rfl
    | succ rounds =>
        rw [flushLoop, dif_neg]
        rw [hu]
        decide
  rw [flushLoop, dif_pos h.ge]
  simp only [List.headD_nil, Pcm.popMany, List.tail_nil, hpushed, hempty,
    Bool.not_true, Bool.false_eq_true, if_false]
  exact hdone _ rfl

/-- An append of one chunk to an empty stage is a push. -/
theorem append_chunk (hstage : s.stage = []) (hroom : ringFull s = false)
    (x : Int16) :
    audioStageAppendAndFlush s (fun _ => x) 512 [] =
      (0, (ringPushPcm s (.all x)).2) := by
  have hfits : makeStageRoom (512 : ℤ).toNat 24 s [] = (true, s, []) := by
    rw [makeStageRoom, if_pos]
    rw [hstage]
    decide
  have hlength : (s.stage ++ given (fun _ => x) 512).length =
      audioChunkSamples := by
    rw [hstage, given_all, List.nil_append, List.length_replicate]
  have hflush := flushLoop_chunk (s := { s with
    stage := s.stage ++ given (fun _ => x) 512 }) hlength hroom 511
  have hchunk : stageChunk (s.stage ++ given (fun _ => x) 512) hlength.ge =
      .all x := by
    rw [stageChunk, Chunk.all, Chunk.mk.injEq, hstage, given_all,
      List.nil_append]
    exact List.take_of_length_le List.length_replicate.le
  have hpushed : (ringPushPcm s (.all x)).2 = { (ringPushPcm
      { s with stage := s.stage ++ given (fun _ => x) 512 } (.all x)).2 with
      stage := [] } := by
    rw [ringPushPcm, ringPushPcm, ← hstage]
    split
    · rename_i hfull
      rw [hroom] at hfull
      cases hfull
    · rw [if_neg]
      rw [← Bool.not_eq_true] at hroom
      exact hroom
  rw [audioStageAppendAndFlush, if_neg (by decide), hfits]
  dsimp only
  rw [audioFlushStageToRing]
  simp only [hlength]
  rw [show audioChunkSamples = 511 + 1 from rfl, hflush, hchunk, hpushed]
  rfl

/-- What an append of one chunk does to a quiet state. -/
theorem Quiet.append {head tail : UInt32} (h : Quiet s head tail)
    (hroom : head - tail < 96) (x : Int16)
    (hslot : x = 0 ∨ ringSlot head = 63) :
    let u := s.call (.append (fun _ => x) 512 [])
    Quiet u (head + 1) tail ∧
      u.ring.pcm = Function.update s.ring.pcm (ringSlot head) (.all x) := by
  have hnotFull : ringFull s = false := by
    rw [ringFull, h.head_eq, h.tail_eq, h.depth, decide_eq_false_iff_not,
      ge_iff_le, UInt32.not_le]
    exact hroom
  have hcall : s.call (.append (fun _ => x) 512 []) =
      (ringPushPcm s (.all x)).2 :=
    congrArg Prod.snd (append_chunk h.stage hnotFull x)
  have hpcm : (ringPushPcm s (.all x)).2.ring.pcm =
      Function.update s.ring.pcm (ringSlot head) (.all x) := by
    rw [ringPushPcm, hnotFull, ← h.head_eq]
    rfl
  dsimp only
  rw [hcall]
  refine ⟨⟨?_, ?_, ?_, ?_, ?_, fun i hi => ?_⟩, hpcm⟩
  · rw [ringPushPcm, hnotFull]
    exact h.stage
  · rw [ringPushPcm, hnotFull]
    exact h.depth
  · rw [ringPushPcm, hnotFull, ← h.head_eq]
    rfl
  · rw [ringPushPcm, hnotFull]
    exact h.tail_eq
  · rw [ringPushPcm, hnotFull]
    exact h.popped
  · rw [hpcm]
    by_cases hi' : i = ringSlot head
    · rw [hi', Function.update_self]
      rcases hslot with rfl | hslot
      · rfl
      · exact absurd (hi'.trans hslot) hi
    · rw [Function.update_of_ne hi']
      exact h.slots i hi

/-- A pop where all slots are silent. -/
theorem Quiet.pop {head tail : UInt32} (h : Quiet s head tail)
    (hqueued : head ≠ tail) (hsilent : s.ring.pcm 63 = .silence) :
    Quiet (s.call .pop) head (tail + 1) ∧ (s.call .pop).ring.pcm = s.ring.pcm := by
  have hnotEmpty : ringEmpty s = false := by
    rw [ringEmpty, h.head_eq, h.tail_eq, beq_eq_false_iff_ne]
    exact hqueued
  have hall : ∀ i, s.ring.pcm i = .silence := by
    intro i
    by_cases hi : i = 63
    · rw [hi, hsilent]
    · exact h.slots i hi
  rw [Pcm.call, ringPopPcm, hnotEmpty]
  refine ⟨⟨h.stage, h.depth, h.head_eq, ?_, fun x hx => ?_, h.slots⟩, rfl⟩
  · rw [← h.tail_eq]
    rfl
  · rcases List.mem_append.mp hx with hx | hx
    · exact h.popped x hx
    · rw [hall] at hx
      exact List.eq_of_mem_replicate hx

theorem playRun_append (s : Pcm) (accepted : List Int16)
    (calls calls' : List PcmCall) :
    playRun s accepted (calls ++ calls') =
      playRun (playRun s accepted calls).1 (playRun s accepted calls).2
        calls' := by
  induction calls generalizing s accepted with
  | nil => rfl
  | cons c calls ih => exact ih _ _

theorem playRun_one (s : Pcm) (accepted : List Int16) (c : PcmCall) :
    (playRun s accepted [c]).1 = s.call c := by
  rw [playRun, playRun]

/-- Where all slots are silent, so are all samples. -/
theorem Quiet.samples_eq {head tail : UInt32} (h : Quiet s head tail)
    (hsilent : s.ring.pcm 63 = .silence) : ∀ x ∈ s.samples, x = 0 := by
  intro x hx
  rw [Pcm.samples, h.stage, List.append_nil] at hx
  rcases List.mem_append.mp hx with hx | hx
  · exact h.popped x hx
  · obtain ⟨chunk, hchunk, hx⟩ := List.mem_flatMap.mp hx
    obtain ⟨k, -, rfl⟩ := List.mem_map.mp hchunk
    generalize ringSlot (s.ring.tail + UInt32.ofNat k) = i at hx
    by_cases hi : i = 63
    · rw [hi, hsilent] at hx
      exact List.eq_of_mem_replicate hx
    · rw [h.slots i hi] at hx
      exact List.eq_of_mem_replicate hx

/-- The silent rounds move both counters. -/
theorem Quiet.rounds {c : UInt32} (h : Quiet s c c)
    (hsilent : s.ring.pcm 63 = .silence) (accepted : List Int16) (n : ℕ) :
    let u := (playRun s accepted
      (List.replicate n [.append (fun _ => 0) 512 [], .pop]).flatten).1
    Quiet u (c + UInt32.ofNat n) (c + UInt32.ofNat n) ∧
      u.ring.pcm 63 = .silence := by
  induction n generalizing s c accepted with
  | zero =>
      rw [show UInt32.ofNat 0 = 0 from rfl, UInt32.add_zero]
      exact ⟨h, hsilent⟩
  | succ n ih =>
      obtain ⟨hpushed, hpcm⟩ := h.append
        (by rw [UInt32.sub_self]; decide) 0 (.inl rfl)
      have hstill : (s.call (.append (fun _ => 0) 512 [])).ring.pcm 63 =
          .silence := by
        rw [hpcm]
        by_cases hslot : 63 = ringSlot c
        · rw [hslot, Function.update_self]
          rfl
        · rw [Function.update_of_ne hslot, hsilent]
      have hmoved : c + 1 ≠ c := by
        intro heq
        have hone : (1 : UInt32) = 0 := by
          rw [← UInt32.add_sub_cancel 1 c, UInt32.add_comm 1 c, heq,
            UInt32.sub_self]
        cases hone
      obtain ⟨hpopped, hsame⟩ := hpushed.pop hmoved hstill
      have hrest := ih hpopped (by rw [hsame, hstill])
        (acceptedBy (s.call (.append (fun _ => 0) 512 []))
          (acceptedBy s accepted (.append (fun _ => 0) 512 [])) .pop)
      rw [Nat.add_comm n 1, UInt32.ofNat_add, ← UInt32.add_assoc,
        Nat.add_comm 1 n, List.replicate_succ, List.flatten_cons,
        List.cons_append, List.cons_append, List.nil_append, playRun, playRun]
      exact hrest

/-- The silent chunks behind the chunk of ones, up to slot 62. -/
theorem Quiet.tail_run (h : Quiet s 0 4294967295) (accepted : List Int16)
    {n : ℕ} (hn : n ≤ 63) :
    Quiet (playRun s accepted
        (List.replicate n (.append (fun _ => 0) 512 []))).1
      (UInt32.ofNat n) 4294967295 := by
  induction n with
  | zero => exact h
  | succ n ih =>
      rw [List.replicate_succ', playRun_append]
      have hbefore := ih (by omega)
      have hroom : UInt32.ofNat n - 4294967295 < 96 := by
        rw [UInt32.lt_iff_toNat_lt, UInt32.toNat_sub, UInt32.toNat_ofNat']
        change (2 ^ 32 - 4294967295 + n % 2 ^ 32) % 2 ^ 32 < 96
        omega
      rw [UInt32.ofNat_add, playRun_one]
      exact (hbefore.append hroom 0 (.inl rfl)).1

theorem mem_accepted_of_mem (accepted : List Int16) {x : Int16}
    (hx : x ∈ accepted) (n : ℕ) (src : ℕ → Int16) :
    x ∈ (playRun s accepted (List.replicate n (.append src 512 []))).2 := by
  induction n generalizing s accepted with
  | zero => exact hx
  | succ n ih =>
      rw [List.replicate_succ, playRun]
      refine ih _ ?_
      rw [acceptedBy]
      split
      · exact hx
      · exact List.mem_append_left _ hx

/-- 2^32 - 1 rounds bring both counters in front of the wrap.  The chunk of ones
goes to slot 63, and so does the 64th chunk behind it. -/
theorem samples_lost_across_wrap :
    (playRun .init [] (wrapRun 4294967295)).1.samples ≠
      (playRun .init [] (wrapRun 4294967295)).2 := by
  have hstart : Quiet .init 0 0 :=
    ⟨rfl, rfl, rfl, rfl, fun x hx => (List.not_mem_nil hx).elim, fun _ _ => rfl⟩
  obtain ⟨hbefore, hsilent⟩ := hstart.rounds rfl [] 4294967295
  rw [wrapRun, playRun_append]
  generalize playRun .init [] _ = r at hbefore hsilent ⊢
  obtain ⟨s, accepted⟩ := r
  have hfull : Quiet s 4294967295 4294967295 := hbefore
  have hones := (hfull.append (by decide) 1 (.inr rfl)).1
  have hone : (1 : Int16) ∈ acceptedBy s accepted
      (.append (fun _ => 1) 512 []) := by
    have hnotFull : ringFull s = false := by
      rw [ringFull, hbefore.head_eq, hbefore.tail_eq, hbefore.depth]
      decide
    rw [acceptedBy, append_chunk hbefore.stage hnotFull, given_all]
    exact List.mem_append_right _ (List.mem_replicate.mpr ⟨by decide, rfl⟩)
  have hlast := hones.tail_run
    (acceptedBy s accepted (.append (fun _ => 1) 512 [])) (Nat.le_refl 63)
  have hkept := mem_accepted_of_mem (s := s.call (.append (fun _ => 1) 512 []))
    _ hone 64 (fun _ => 0)
  rw [playRun]
  intro heq
  rw [← heq] at hkept
  rw [show 64 = 63 + 1 from rfl, List.replicate_succ', playRun_append,
    playRun_one] at hkept
  obtain ⟨hend, hpcm⟩ := hlast.append (by decide) 0 (.inl rfl)
  have hzero := hend.samples_eq (by rw [hpcm]; exact Function.update_self ..)
    1 hkept
  cases hzero

end MoonlightPsp.Audio
