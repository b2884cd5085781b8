import MoonlightPsp.Audio.FecRecovery

/-!
# Runs of the audio recovery cache

A run is a list of packets in any order, some of them lost or repeated, with
recoveries in between; a reset, another packet duration and what the video
stream does with the shared context may come at any time.

Beside the statics a run notes for each slot when it was used last and which
shards have come for its block since the block is there.
-/

namespace MoonlightPsp.Audio

open ReedSolomon

/-! ## Events -/

/-- What happens to the cache.  A packet comes with the reading of the clock,
which the code sees modulo 2^32. -/
inductive FecEvent where
  | data (now : ℕ) (hdr : RtpHeader) (payload : Packet)
  | parity (now : ℕ) (payload : Packet)
  | recover (seq : UInt16)
  | duration (ms : ℤ)
  | reset
  | shared (event : RecoveryEvent)

def FecEvent.step (s : AudioFec) : FecEvent → AudioFec
  | .data now hdr payload =>
      audioRtpFecCacheData s (UInt32.ofNat now) hdr payload
  | .parity now payload => audioRtpFecCacheParity s (UInt32.ofNat now) payload
  | .recover seq => (audioRtpFecRecoverPayload s seq).2
  | .duration ms => setPacketDurationMs s ms
  | .reset => audioRtpFecReset s
  | .shared event => { s with rs := (event.step s.rs).1 }

/-- The packets are from the sender. -/
def FecEvent.From (d : Sender) : FecEvent → Prop
  | .data _ hdr payload => d.SendsData hdr payload
  | .parity _ payload => d.SendsParity payload
  | _ => True

/-- The shard that an event caches, and when. -/
def FecEvent.arrival (s : AudioFec) : FecEvent → Option (ℕ × FecShard)
  | .data now hdr payload =>
      (dataShard s.packetDurationMs hdr payload).map fun x => (now, x)
  | .parity now payload => (parityShard payload).map fun x => (now, x)
  | _ => none

instance (b : FecBlock) (x : FecShard) : Decidable (b.isFor x) :=
  inferInstanceAs (Decidable (_ ∧ _))

/-- The statics; for each slot the clock at its last use, and the shards that
came since its block is there. -/
structure Monitored where
  fec : AudioFec
  usedAt : ℕ → ℕ
  since : ℕ → List ℕ

def Monitored.init : Monitored := ⟨.init, fun _ => 0, fun _ => []⟩

def Monitored.step (m : Monitored) (e : FecEvent) : Monitored :=
  match e.arrival m.fec with
  | none => { m with fec := e.step m.fec }
  | some (now, x) =>
      match (audioRtpFecGetBlock m.fec.blocks (UInt32.ofNat now) x).1 with
      | none => { m with fec := e.step m.fec }
      | some i =>
          { fec := e.step m.fec
            usedAt := Function.update m.usedAt i now
            since := Function.update m.since i (x.shard ::
              if (m.fec.blocks i).isFor x then m.since i else []) }

def Monitored.run (m : Monitored) (es : List FecEvent) : Monitored :=
  es.foldl Monitored.step m

/-! ## The invariant -/

/-- The block holds shards of the sender's block `k`. -/
structure Sender.Fills (d : Sender) (k : ℕ) (b : FecBlock) : Prop where
  spans : d.Spans k
  baseSeq : b.baseSeq = UInt16.ofNat (4 * k)
  blockSize : b.blockSize = d.size k
  agrees : Agrees b.toAudioRtpFecBlock (d.shard k)

/-- A slot in use: what it holds, what has come for it, and its stamp. -/
structure SlotSound (d : Sender) (b : FecBlock) (usedAt : ℕ) (since : List ℕ) :
    Prop where
  filled : ∃ k, d.Fills k b
  arrived : ∀ s ∈ since, s < audioTotalShards ∧ b.marks s = false
  stamp : b.lastUseUs = UInt32.ofNat usedAt

structure Sound (d : Sender) (m : Monitored) : Prop where
  distinct : DistinctBases m.fec.blocks
  slots : ∀ i < audioRtpFecCacheBlocks, (m.fec.blocks i).valid = true →
    SlotSound d (m.fec.blocks i) (m.usedAt i) (m.since i)
  tracked : ∃ touched, Tracked m.fec.rs touched

theorem sound_init (d : Sender) : Sound d .init := by
  refine ⟨fun i _ j _ hi => ?_, fun i _ hi => ?_, false, tracked_initial⟩
  · cases hi
  · cases hi

theorem Sender.codeWord (d : Sender) (k : ℕ) :
    CodeWord (d.size k) (d.shard k) :=
  fun row _ _ ht => d.shard_parity k row ht

variable {d : Sender} {m : Monitored}

/-! ## One shard -/

theorem shards_keep (b : FecBlock) (x : FecShard) (s : ℕ) :
    (b.keep x).shards s =
      if s = x.shard then (b.shards s).memcpy x.src x.blockSize
      else b.shards s := by
  rcases Nat.lt_or_ge s audioDataShards with hdata | hparity
  · by_cases hs : s = x.shard
    · subst s
      simp [AudioRtpFecBlock.shards, FecBlock.keep, hdata]
    · simp [AudioRtpFecBlock.shards, FecBlock.keep, hdata, hs]
  · have hnot : ¬ s < audioDataShards := Nat.not_lt.mpr hparity
    have hback : audioDataShards + (s - audioDataShards) = s := by omega
    simp [AudioRtpFecBlock.shards, FecBlock.keep, hnot, hback]

theorem Sender.Fills.keep {k : ℕ} {b : FecBlock} {x : FecShard}
    (h : d.Fills k b) (hx : d.Issues k x) : d.Fills k (b.keep x) := by
  refine ⟨h.spans, h.baseSeq, h.blockSize, fun s hs hmark t ht => ?_⟩
  have ht' : t < d.size k := by
    rw [← h.blockSize]
    exact ht
  rw [shards_keep]
  by_cases hsx : s = x.shard
  · have ht'' : t < x.blockSize := by
      rw [hx.blockSize]
      exact ht'
    rw [if_pos hsx, Buf.memcpy, if_pos ht'', hx.src t ht', hsx]
  · have hold : b.marks s = false := by
      simpa [FecBlock.keep, hsx] using hmark
    rw [if_neg hsx]
    exact h.agrees s hs hold t ht

theorem Sender.Issues.renew {k : ℕ} {x : FecShard} (hx : d.Issues k x)
    (b : FecBlock) (now : UInt32) : d.Fills k (b.renew now x) := by
  refine ⟨hx.spans, hx.baseSeq, hx.blockSize, fun s _ hmark => ?_⟩
  cases hmark

/-- The last step of caching a shard, on the block that was found or made. -/
theorem SlotSound.keep {b : FecBlock} {usedAt : ℕ} {since : List ℕ}
    {x : FecShard} {k : ℕ} (h : SlotSound d b usedAt since)
    (hx : d.Issues k x) (hbase : b.baseSeq = x.baseSeq) :
    SlotSound d (if b.marks x.shard then b.keep x else b) usedAt
      (x.shard :: since) := by
  obtain ⟨l, hl⟩ := h.filled
  have hkl : k = l := hx.spans.unique hl.spans
    (hx.baseSeq.symm.trans (hbase.symm.trans hl.baseSeq))
  subst l
  by_cases hmark : b.marks x.shard = true
  · rw [if_pos hmark]
    refine ⟨⟨k, hl.keep hx⟩, fun s hs => ?_, h.stamp⟩
    by_cases hsx : s = x.shard
    · simp [FecBlock.keep, hsx, hx.shard_lt]
    · have hold := h.arrived s ((List.mem_cons.mp hs).resolve_left hsx)
      simp [FecBlock.keep, hsx, hold]
  · rw [if_neg hmark]
    refine ⟨h.filled, fun s hs => ?_, h.stamp⟩
    rcases List.mem_cons.mp hs with rfl | hs
    · exact ⟨hx.shard_lt, by simpa using hmark⟩
    · exact h.arrived s hs

theorem cacheShard_eq {s : AudioFec} {now : UInt32} {x : FecShard} {i : ℕ}
    {after : ℕ → FecBlock}
    (h : audioRtpFecGetBlock s.blocks now x = (some i, after)) :
    cacheShard s now x = { s with
      blocks := Function.update after i
        (if (after i).marks x.shard then (after i).keep x else after i) } := by
  rw [cacheShard, h]
  by_cases hmark : (after i).marks x.shard = true
  · simp only [if_pos hmark]
  · simp only [if_neg hmark, Function.update_eq_self]

/-- What finding or making the block does, in either case: its slot holds shards
of the sender's block, the others are as before. -/
theorem Sound.found_or_made (h : Sound d m) {now k i : ℕ} {x : FecShard}
    (hi : i < audioRtpFecCacheBlocks) (hx : d.Issues k x)
    {after : ℕ → FecBlock}
    (hcase : Found m.fec.blocks (UInt32.ofNat now) x i after ∨
      Made m.fec.blocks (UInt32.ofNat now) x i after) :
    DistinctBases after ∧
    ((after i).baseSeq = x.baseSeq ∧
      SlotSound d (after i) now
        (if (m.fec.blocks i).isFor x then m.since i else [])) ∧
    ∀ j < audioRtpFecCacheBlocks, j ≠ i → (after j).valid = true →
      after j = m.fec.blocks j := by
  rcases hcase with hfound | hmade
  · obtain ⟨hvalid, hbase⟩ := FecBlock.hasBase_iff.mp hfound.1.1
    obtain ⟨⟨l, hl⟩, harrived, -⟩ := h.slots i hi hvalid
    refine ⟨hfound.distinct h.distinct, ?_, fun j _ hji _ => ?_⟩
    · rw [if_pos hfound.1, hfound.2, Function.update_self]
      exact ⟨hbase, ⟨l, hl.spans, hl.baseSeq, hl.blockSize, hl.agrees⟩,
        harrived, rfl⟩
    · rw [hfound.2, Function.update_of_ne hji]
  · obtain ⟨b, hb⟩ := hmade.made
    refine ⟨hmade.distinct h.distinct, ?_, fun j hj hji hvalid =>
      (hmade.others j hj hji hvalid).1⟩
    rw [if_neg hmade.not_isFor, hb]
    refine ⟨rfl, ⟨k, hx.renew b _⟩, fun s hs => ?_, rfl⟩
    cases hs

theorem FecEvent.step_of_arrival {s : AudioFec} {e : FecEvent} {now : ℕ}
    {x : FecShard} (h : e.arrival s = some (now, x)) :
    e.step s = cacheShard s (UInt32.ofNat now) x := by
  cases e with
  | data now' hdr payload =>
      obtain ⟨y, hy, heq⟩ := Option.map_eq_some_iff.mp h
      cases heq
      simp only [FecEvent.step, audioRtpFecCacheData, hy]
  | parity now' payload =>
      obtain ⟨y, hy, heq⟩ := Option.map_eq_some_iff.mp h
      cases heq
      simp only [FecEvent.step, audioRtpFecCacheParity, hy]
  | recover seq => cases h
  | duration ms => cases h
  | reset => cases h
  | shared event => cases h

theorem FecEvent.From.issues {s : AudioFec} {e : FecEvent} (he : e.From d)
    {now : ℕ} {x : FecShard} (h : e.arrival s = some (now, x)) :
    ∃ k, d.Issues k x := by
  cases e with
  | data now' hdr payload =>
      obtain ⟨y, hy, heq⟩ := Option.map_eq_some_iff.mp h
      cases heq
      exact Sender.SendsData.issues he hy
  | parity now' payload =>
      obtain ⟨y, hy, heq⟩ := Option.map_eq_some_iff.mp h
      cases heq
      exact Sender.SendsParity.issues he hy
  | recover seq => cases h
  | duration ms => cases h
  | reset => cases h
  | shared event => cases h

theorem Sound.step_of_arrival (h : Sound d m) {e : FecEvent} (he : e.From d)
    {now : ℕ} {x : FecShard} (harrival : e.arrival m.fec = some (now, x)) :
    Sound d (m.step e) := by
  obtain ⟨k, hx⟩ := he.issues harrival
  have hstep := FecEvent.step_of_arrival harrival
  by_cases hsize : x.blockSize = 0 ∨ x.blockSize > audioRtpFecPayloadMax
  · have hget : audioRtpFecGetBlock m.fec.blocks (UInt32.ofNat now) x =
        (none, m.fec.blocks) := if_pos hsize
    have hsame : e.step m.fec = m.fec := by
      rw [hstep, cacheShard, hget]
    have hm : m.step e = m := by
      simp only [Monitored.step, harrival, hget, hsame]
    rw [hm]
    exact h
  · obtain ⟨i, hi, after, hget, hcase⟩ :=
      audioRtpFecGetBlock_cases (UInt32.ofNat now) h.distinct hsize
    obtain ⟨hdistinct, ⟨hbase, hslot⟩, hothers⟩ := h.found_or_made hi hx hcase
    have hm : m.step e = ⟨cacheShard m.fec (UInt32.ofNat now) x,
        Function.update m.usedAt i now,
        Function.update m.since i (x.shard ::
          if (m.fec.blocks i).isFor x then m.since i else [])⟩ := by
      simp only [Monitored.step, harrival, hget, hstep]
    rw [hm, cacheShard_eq hget]
    refine ⟨hdistinct.update ?_ ?_, fun j hj hvalid => ?_, h.tracked⟩
    · split_ifs <;> rfl
    · split_ifs <;> rfl
    · by_cases hji : j = i
      · subst j
        simp only [Function.update_self]
        exact hslot.keep hx hbase
      · simp only [Function.update_of_ne hji] at hvalid ⊢
        have hkept := hothers j hj hji hvalid
        rw [hkept] at hvalid ⊢
        exact h.slots j hj hvalid

/-! ## Recoveries -/

theorem completeBlock_blocks (s : AudioFec) (i : ℕ) :
    (completeBlock s i).2.blocks = Function.update s.blocks i
      { s.blocks i with
        toAudioRtpFecBlock := (audioRtpFecComplete s.rs
          (s.blocks i).toAudioRtpFecBlock).2.2.2 } := rfl

/-- A slot in use after `audio_rtp_fec_complete`. -/
theorem Sound.completed (h : Sound d m) {i k : ℕ}
    (hvalid : (m.fec.blocks i).valid = true)
    (hk : d.Fills k (m.fec.blocks i)) :
    (∃ touched, Tracked (completeBlock m.fec i).2.rs touched) ∧
    Completed (m.fec.blocks i).toAudioRtpFecBlock (d.shard k)
      (completeBlock m.fec i).1
      ((completeBlock m.fec i).2.blocks i).toAudioRtpFecBlock := by
  obtain ⟨touched, htracked⟩ := h.tracked
  have hword : CodeWord (m.fec.blocks i).blockSize (d.shard k) := by
    rw [hk.blockSize]
    exact d.codeWord k
  have hspec := audioRtpFecComplete_spec htracked hvalid hword hk.agrees
  rw [completeBlock_blocks, Function.update_self]
  exact hspec

theorem Sound.complete (h : Sound d m) {i : ℕ}
    (hi : i < audioRtpFecCacheBlocks)
    (hvalid : (m.fec.blocks i).valid = true) :
    Sound d { m with fec := (completeBlock m.fec i).2 } := by
  obtain ⟨⟨k, hk⟩, harrived, hstamp⟩ := h.slots i hi hvalid
  obtain ⟨htracked, hcompleted⟩ := h.completed hvalid hk
  rw [completeBlock_blocks, Function.update_self] at hcompleted
  refine ⟨?_, fun j hj hjvalid => ?_, htracked⟩
  · exact h.distinct.update hcompleted.valid rfl
  · simp only [completeBlock_blocks] at hjvalid ⊢
    by_cases hji : j = i
    · subst j
      rw [Function.update_self]
      exact ⟨⟨k, hk.spans, hk.baseSeq, hcompleted.blockSize.trans hk.blockSize,
        hcompleted.agrees⟩, fun s hs => (harrived s hs).imp_right (hcompleted.marks s),
        hstamp⟩
    · rw [Function.update_of_ne hji] at hjvalid ⊢
      exact h.slots j hj hjvalid

/-- `audio_rtp_fec_recover_payload` by the search for the block. -/
theorem audioRtpFecRecoverPayload_eq (s : AudioFec) (seq : UInt16) :
    audioRtpFecRecoverPayload s seq =
      match findBlock s.blocks (audioFecBaseSeq seq) with
      | none => (none, s)
      | some i =>
          (if (completeBlock s i).1 ≠ 0 ∨
              ((completeBlock s i).2.blocks i).marks (seq.toNat % 4) then none
          else some ((List.range ((completeBlock s i).2.blocks i).blockSize).map
            fun t => (((completeBlock s i).2.blocks i).data
              (seq.toNat % 4) t).byte),
            (completeBlock s i).2) := by
  have hpos := toNat_sub_audioFecBaseSeq seq
  have hlt : ¬ seq.toNat % 4 ≥ audioDataShards :=
    Nat.not_le.mpr (Nat.mod_lt _ (by decide))
  simp only [audioRtpFecRecoverPayload, hpos, if_neg hlt]
  cases findBlock s.blocks (audioFecBaseSeq seq) with
  | none => rfl
  | some i =>
      dsimp only
      split_ifs
      all_goals rfl

theorem Sound.recover (h : Sound d m) (seq : UInt16) :
    Sound d { m with fec := (audioRtpFecRecoverPayload m.fec seq).2 } := by
  rw [audioRtpFecRecoverPayload_eq]
  cases hfind : findBlock m.fec.blocks (audioFecBaseSeq seq) with
  | none => exact h
  | some i =>
      obtain ⟨hi, hbase⟩ := findBlock_eq_some hfind
      exact h.complete hi (FecBlock.hasBase_iff.mp hbase).1

theorem Sound.step (h : Sound d m) {e : FecEvent} (he : e.From d) :
    Sound d (m.step e) := by
  cases harrival : e.arrival m.fec with
  | some a => exact h.step_of_arrival he harrival
  | none =>
      have hm : m.step e = { m with fec := e.step m.fec } := by
        simp only [Monitored.step, harrival]
      rw [hm]
      cases e with
      | data now hdr payload =>
          have hnone := Option.map_eq_none_iff.mp harrival
          simp only [FecEvent.step, audioRtpFecCacheData, hnone]
          exact h
      | parity now payload =>
          have hnone := Option.map_eq_none_iff.mp harrival
          simp only [FecEvent.step, audioRtpFecCacheParity, hnone]
          exact h
      | recover seq => exact h.recover seq
      | duration ms => exact ⟨h.distinct, h.slots, h.tracked⟩
      | reset =>
          refine ⟨fun i _ j _ hi => ?_, fun i _ hi => ?_, h.tracked⟩
          · cases hi
          · cases hi
      | shared event =>
          obtain ⟨touched, htracked⟩ := h.tracked
          exact ⟨h.distinct, h.slots, htracked.step event⟩

theorem Sound.run (h : Sound d m) {es : List FecEvent}
    (hes : ∀ e ∈ es, e.From d) : Sound d (m.run es) := by
  induction es generalizing m with
  | nil => exact h
  | cons e es ih =>
      have hstep := h.step (hes e List.mem_cons_self)
      exact ih hstep fun e' he' => hes e' (List.mem_cons_of_mem _ he')

/-! ## What a run guarantees -/

/-- What holds of the cache of a sender's packets. -/
structure CacheCorrect (d : Sender) (m : Monitored) : Prop where
  /-- The valid blocks have distinct sequence numbers. -/
  distinct : DistinctBases m.fec.blocks
  /-- A valid block is one of the sender's, and holds the bytes of every shard that
  is not marked as missing. -/
  filled : ∀ i < audioRtpFecCacheBlocks, (m.fec.blocks i).valid = true →
    ∃ k, d.Fills k (m.fec.blocks i)
  /-- If every slot is taken, a shard of another block takes the one that was not
  used for the longest time, as long as the times of use lie within 2^31. -/
  evicts : ∀ (now : UInt32) (x : FecShard),
    ¬ (x.blockSize = 0 ∨ x.blockSize > audioRtpFecPayloadMax) →
    (∀ i < audioRtpFecCacheBlocks, (m.fec.blocks i).valid = true ∧
      (m.fec.blocks i).baseSeq ≠ x.baseSeq) →
    (∀ i < audioRtpFecCacheBlocks, ∀ j < audioRtpFecCacheBlocks,
      m.usedAt i < m.usedAt j + 2 ^ 31) →
    ∃ i < audioRtpFecCacheBlocks,
      audioRtpFecGetBlock m.fec.blocks now x = (some i,
        Function.update m.fec.blocks i ((m.fec.blocks i).renew now x)) ∧
      ∀ j < audioRtpFecCacheBlocks, m.usedAt i ≤ m.usedAt j
  /-- What is recovered for a number is the payload that was sent under it. -/
  recovers : ∀ (seq : UInt16) (out : Packet),
    (audioRtpFecRecoverPayload m.fec seq).1 = some out →
    ∃ n, d.Spans (n / 4) ∧ UInt16.ofNat n = seq ∧ out = d.payload n ∧
      ∀ n', d.Spans (n' / 4) → UInt16.ofNat n' = seq → n' = n
  /-- The recovery succeeds if four shards have come since the block is there. -/
  enough : ∀ (seq : UInt16), ∀ i < audioRtpFecCacheBlocks,
    (m.fec.blocks i).hasBase (audioFecBaseSeq seq) = true →
    audioDataShards ≤ (m.since i).toFinset.card →
    (audioRtpFecRecoverPayload m.fec seq).1.isSome

theorem Sound.evicts (h : Sound d m) {now : UInt32} {x : FecShard}
    (hsize : ¬ (x.blockSize = 0 ∨ x.blockSize > audioRtpFecPayloadMax))
    (hfull : ∀ i < audioRtpFecCacheBlocks, (m.fec.blocks i).valid = true ∧
      (m.fec.blocks i).baseSeq ≠ x.baseSeq)
    (hwithin : ∀ i < audioRtpFecCacheBlocks, ∀ j < audioRtpFecCacheBlocks,
      m.usedAt i < m.usedAt j + 2 ^ 31) :
    ∃ i < audioRtpFecCacheBlocks,
      audioRtpFecGetBlock m.fec.blocks now x = (some i,
        Function.update m.fec.blocks i ((m.fec.blocks i).renew now x)) ∧
      ∀ j < audioRtpFecCacheBlocks, m.usedAt i ≤ m.usedAt j := by
  have hrecent : Recent m.fec.blocks m.usedAt :=
    ⟨fun i hi => (h.slots i hi (hfull i hi).1).stamp, hwithin⟩
  have hfind : findBlock m.fec.blocks x.baseSeq = none := by
    cases hfind : findBlock m.fec.blocks x.baseSeq with
    | none => rfl
    | some i =>
        obtain ⟨hi, hbase⟩ := findBlock_eq_some hfind
        exact absurd (FecBlock.hasBase_iff.mp hbase).2 (hfull i hi).2
  obtain ⟨i, hi, hplace⟩ := placeBlock_eq m.fec.blocks now x
  refine ⟨i, hi, ?_, ?_⟩
  · rw [audioRtpFecGetBlock, if_neg hsize, hfind]
    exact hplace
  · exact placeBlock_least_recent (fun j hj => (hfull j hj).1) hrecent
      (congrArg Prod.fst hplace)

theorem map_byteAt_range (p : Packet) :
    (List.range p.length).map (byteAt p) = p := by
  refine List.ext_getElem (by simp) fun t ht ht' => ?_
  rw [List.getElem_map, List.getElem_range, byteAt,
    List.getD_eq_getElem _ _ ht']

/-- The data shard of a block that agrees with the sender's, copied out. -/
theorem Sender.Fills.copy_out {k pos : ℕ} {b : FecBlock} (h : d.Fills k b)
    (hpos : pos < audioDataShards) (hmark : b.marks pos = false) :
    (List.range b.blockSize).map (fun t => (b.data pos t).byte) =
      d.payload (4 * k + pos) := by
  have hpos4 : pos < 4 := hpos
  have hblock : (4 * k + pos) / 4 = k := by omega
  have hlen : (d.payload (4 * k + pos)).length = b.blockSize := by
    rw [d.length_eq, hblock, h.blockSize, Sender.size]
  have hbytes : ∀ t ∈ List.range b.blockSize,
      (b.data pos t).byte = byteAt (d.payload (4 * k + pos)) t := by
    intro t ht
    have hagree := h.agrees pos (Nat.lt_of_lt_of_le hpos (by decide)) hmark t
      (List.mem_range.mp ht)
    rw [AudioRtpFecBlock.shards, if_pos hpos, Sender.shard_data hpos,
      bytesFrom, Nat.zero_add] at hagree
    rw [hagree]
  rw [List.map_congr_left hbytes, ← hlen]
  exact map_byteAt_range _

theorem Sound.recovers (h : Sound d m) {seq : UInt16} {out : Packet}
    (hout : (audioRtpFecRecoverPayload m.fec seq).1 = some out) :
    ∃ n, d.Spans (n / 4) ∧ UInt16.ofNat n = seq ∧ out = d.payload n ∧
      ∀ n', d.Spans (n' / 4) → UInt16.ofNat n' = seq → n' = n := by
  rw [audioRtpFecRecoverPayload_eq] at hout
  cases hfind : findBlock m.fec.blocks (audioFecBaseSeq seq) with
  | none =>
      rw [hfind] at hout
      cases hout
  | some i =>
      rw [hfind] at hout
      obtain ⟨hi, hbase⟩ := findBlock_eq_some hfind
      obtain ⟨hvalid, hseq⟩ := FecBlock.hasBase_iff.mp hbase
      obtain ⟨k, hk⟩ := (h.slots i hi hvalid).filled
      obtain ⟨-, hcompleted⟩ := h.completed hvalid hk
      have hpos : seq.toNat % 4 < audioDataShards :=
        Nat.mod_lt _ (by decide)
      have hnumber : 4 * (seq.toNat / 4) = 4 * k % 2 ^ 16 := by
        rw [← toNat_audioFecBaseSeq, ← hseq, hk.baseSeq, UInt16.toNat_ofNat']
      have hfills : d.Fills k ((completeBlock m.fec i).2.blocks i) := by
        refine ⟨hk.spans, ?_, hcompleted.blockSize.trans hk.blockSize,
          hcompleted.agrees⟩
        rw [completeBlock_blocks, Function.update_self]
        exact hk.baseSeq
      dsimp only at hout
      split_ifs at hout with hfail
      have hmark : ((completeBlock m.fec i).2.blocks i).marks
          (seq.toNat % 4) = false := by
        simpa using fun hmark => hfail (Or.inr hmark)
      have hcopy := hfills.copy_out hpos hmark
      rw [Option.some.inj hout] at hcopy
      have hlt := seq.toNat_lt
      refine ⟨4 * k + seq.toNat % 4, ?_, ?_, hcopy, fun n' hn' heq => ?_⟩
      · have hblock : (4 * k + seq.toNat % 4) / 4 = k := by omega
        rw [hblock]
        exact hk.spans
      · rw [← UInt16.toNat_inj, UInt16.toNat_ofNat']
        omega
      · have hnat := congrArg UInt16.toNat heq
        rw [UInt16.toNat_ofNat'] at hnat
        have hsame : n' / 4 = k := by
          refine hn'.unique hk.spans ?_
          rw [← UInt16.toNat_inj, UInt16.toNat_ofNat', UInt16.toNat_ofNat']
          omega
        omega

theorem Sound.enough (h : Sound d m) {seq : UInt16} {i : ℕ}
    (hi : i < audioRtpFecCacheBlocks)
    (hbase : (m.fec.blocks i).hasBase (audioFecBaseSeq seq) = true)
    (hcard : audioDataShards ≤ (m.since i).toFinset.card) :
    (audioRtpFecRecoverPayload m.fec seq).1.isSome := by
  have hvalid := (FecBlock.hasBase_iff.mp hbase).1
  obtain ⟨⟨k, hk⟩, harrived, -⟩ := h.slots i hi hvalid
  obtain ⟨-, hcompleted⟩ := h.completed hvalid hk
  have havailable : audioDataShards ≤ (m.fec.blocks i).available := by
    have hsubset : (m.since i).toFinset ⊆ ((List.range audioTotalShards).filter
        fun s => !(m.fec.blocks i).marks s).toFinset := by
      intro s hs
      obtain ⟨hlt, hmark⟩ := harrived s (List.mem_toFinset.mp hs)
      simp [hlt, hmark]
    calc audioDataShards ≤ (m.since i).toFinset.card := hcard
      _ ≤ _ := Finset.card_le_card hsubset
      _ ≤ _ := List.toFinset_card_le _
  obtain ⟨hret, hmarks⟩ := hcompleted.enough havailable
  have hmark := hmarks (seq.toNat % 4) (Nat.mod_lt _ (by decide))
  rw [audioRtpFecRecoverPayload_eq, findBlock_of_hasBase h.distinct hi hbase]
  simp only [hret, hmark]
  rfl

/-- In every run on packets of a sender the cache keeps its blocks apart, holds
the bytes that were sent, gives away the block that was not used for the longest
time, and recovers the payloads of every block that it was given four shards
of. -/
theorem audioRtpFec_correct (d : Sender) (es : List FecEvent)
    (hes : ∀ e ∈ es, e.From d) : CacheCorrect d (Monitored.init.run es) := by
  have h := (sound_init d).run hes
  refine ⟨h.distinct, fun i hi hvalid => (h.slots i hi hvalid).filled, ?_, ?_,
    ?_⟩
  · exact fun now x hsize hfull hwithin => h.evicts hsize hfull hwithin
  · exact fun seq out hout => h.recovers hout
  · exact fun seq i hi hbase hcard => h.enough hi hbase hcard

/-- Packets of two bytes, the first one the number. -/
def countingSender : Sender where
  payload := fun n => [UInt8.ofNat n, 9]
  first := 0
  length_eq := fun _ => rfl

/-- A parity packet of the first block. -/
def countingParity (row : ℕ) : Packet :=
  UInt8.ofNat row :: 97 :: List.replicate 10 0 ++ countingSender.parity 0 row

/-- The packets 2 and 3 are lost. -/
def twoLost : List FecEvent :=
  [.data 100 ⟨0, 0, 0⟩ [0, 9], .data 200 ⟨1, 480, 0⟩ [1, 9],
    .parity 300 (countingParity 0), .parity 400 (countingParity 1)]

theorem audioRtpFec_twoLost :
    (audioRtpFecRecoverPayload (Monitored.init.run twoLost).fec 2).1 =
      some [2, 9] := by
  have hspan : countingSender.Spans 0 := ⟨0, ⟨by decide, by decide⟩, rfl⟩
  have hcorrect : CacheCorrect countingSender (Monitored.init.run twoLost) := by
    refine audioRtpFec_correct countingSender twoLost fun e he => ?_
    simp only [twoLost, List.mem_cons, List.not_mem_nil, or_false] at he
    rcases he with rfl | rfl | rfl | rfl
    · exact ⟨0, ⟨by decide, by decide⟩, rfl, rfl⟩
    · exact ⟨1, ⟨by decide, by decide⟩, rfl, rfl⟩
    · exact ⟨0, 0, hspan, by decide, rfl, by decide, rfl⟩
    · exact ⟨0, 1, hspan, by decide, rfl, by decide, rfl⟩
  have hsome := hcorrect.enough 2 0 (by decide) (by decide +kernel)
    (by decide +kernel)
  obtain ⟨out, hout⟩ := Option.isSome_iff_exists.mp hsome
  obtain ⟨n, -, -, heq, hunique⟩ := hcorrect.recovers 2 out hout
  rw [hout, heq, ← hunique 2 hspan rfl]
  rfl

end MoonlightPsp.Audio
