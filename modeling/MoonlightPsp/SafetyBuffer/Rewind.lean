import MoonlightPsp.SafetyBuffer.Ring

/-!
# Rewinding to the last keyframe

A rewind should go back to the newest live keyframe in RAM.  The search starts
at the head and ends in front of the tail, so it never looks at the oldest
entry, and with an empty ring it goes through all the stale slots.
-/

namespace MoonlightPsp.SafetyBuffer

open RingWindow

/-! ## What a rewind should do -/

/-- Some live entry is a keyframe in RAM. -/
def HasKeyframe (s : Buffer) : Prop := ∃ e ∈ s.live, e.ramKeyframe = true

/-- What was returned is the newest live keyframe in RAM, with the bytes that
were stored, and this is the newest live entry then. -/
def IsNewestKeyframe (s : Buffer) (w : Rewound) (after : Buffer) : Prop :=
  ∃ before e later, s.live = before ++ e :: later ∧ e.ramKeyframe = true ∧
    (∀ x ∈ later, x.ramKeyframe = false) ∧
    w.data = e.data ∧ w.length = e.length ∧ w.pts = e.timestamp ∧
    (∀ o, w.data = some o → after.bytesAt o w.length = e.nal) ∧
    after.live = before ++ [e]

/-- The calls about rewinding say, and do, what they should. -/
def Rewinds (s : Buffer) : BufferCall → Prop
  | .canRewind locked => safetyBufferCanRewind s locked = 1 ↔ HasKeyframe s
  | .rewind given locked =>
      ((safetyBufferRewind s given locked).1.isSome = true ↔ HasKeyframe s) ∧
        ∀ w, (safetyBufferRewind s given locked).1 = some w →
          IsNewestKeyframe s w (safetyBufferRewind s given locked).2
  | _ => True

/-- Some live entry but the oldest is a keyframe in RAM. -/
def HasLaterKeyframe (s : Buffer) : Prop :=
  ∃ e ∈ s.live.tail, e.ramKeyframe = true

/-- If there is a live keyframe in RAM, the oldest entry is not the only one, and
the call gets to the search; an empty ring has no stale keyframe in a slot but
the one at the tail. -/
def Findable (s : Buffer) : BufferCall → Prop
  | .canRewind locked => HasKeyframe s → locked = true ∧ HasLaterKeyframe s
  | .rewind given locked =>
      (HasKeyframe s → (given = true ∧ locked = true) ∧ HasLaterKeyframe s) ∧
        (given = true → locked = true → s.writeHead = s.readTail →
          ∀ i < safetyBufferSlots, i ≠ s.readTail →
            (s.slots i).ramKeyframe = false)
  | _ => True

/-! ## The search -/

variable {s : Buffer} {log : List Slot} {t : ℕ}

theorem previousSlot_mod {k : ℕ} (hk : 0 < k) :
    previousSlot (k % safetyBufferSlots) = (k - 1) % safetyBufferSlots :=
  back_mod hk (by decide)

/-- The loop looks at the slots from position `k` back to the one behind the
tail. -/
theorem findLoop_spec (htail : s.readTail = t % safetyBufferSlots)
    (rounds : ℕ) {k : ℕ} (htk : t ≤ k) (hrounds : k - t < rounds)
    (hk : k - t < safetyBufferSlots) :
    findLoop s rounds (k % safetyBufferSlots) = none ∧
        (∀ j, t < j → j ≤ k →
          (s.slots (j % safetyBufferSlots)).ramKeyframe = false) ∨
      ∃ j, t < j ∧ j ≤ k ∧
        findLoop s rounds (k % safetyBufferSlots) =
          some (j % safetyBufferSlots) ∧
        (s.slots (j % safetyBufferSlots)).ramKeyframe = true ∧
        ∀ i, j < i → i ≤ k →
          (s.slots (i % safetyBufferSlots)).ramKeyframe = false := by
  induction rounds generalizing k with
  | zero => omega
  | succ rounds ih =>
      rw [findLoop, htail]
      rcases Nat.eq_or_lt_of_le htk with rfl | hlt
      · rw [if_pos rfl]
        exact .inl ⟨rfl, fun j hj hj' => by omega⟩
      · rw [if_neg (mod_ne_of_lt hlt hk).symm]
        split
        · rename_i hram
          exact .inr ⟨k, hlt, Nat.le_refl k, rfl, hram, fun i hi hi' => by omega⟩
        · rename_i hram
          have hram : (s.slots (k % safetyBufferSlots)).ramKeyframe = false := by
            simpa using hram
          rw [previousSlot_mod (by omega)]
          rcases ih (k := k - 1) (by omega) (by omega) (by omega) with ⟨hnone, hquiet⟩ |
            ⟨j, hj, hjk, hsome, hfound, hquiet⟩
          · refine .inl ⟨hnone, fun j hj hj' => ?_⟩
            rcases Nat.eq_or_lt_of_le hj' with rfl | hless
            · exact hram
            · exact hquiet j hj (by omega)
          · refine .inr ⟨j, hj, by omega, hsome, hfound, fun i hi hi' => ?_⟩
            rcases Nat.eq_or_lt_of_le hi' with rfl | hless
            · exact hram
            · exact hquiet i hi (by omega)

/-- The search of an empty ring goes through all slots but the one at the
tail. -/
theorem findLastKeyframe_empty (h : Sound s log t) (hempty : t = log.length) :
    (findLastKeyframe s).isSome = false ↔
      ∀ i < safetyBufferSlots, i ≠ s.readTail →
        (s.slots i).ramKeyframe = false := by
  have hslots : safetyBufferSlots = 128 := rfl
  have hstart : previousSlot s.writeHead = (t + 127) % safetyBufferSlots := by
    rw [h.window.head_eq, ← hempty, ← Nat.add_mod_right t safetyBufferSlots,
      previousSlot_mod (by omega)]
    rfl
  rw [findLastKeyframe, hstart]
  have hspec := findLoop_spec h.window.tail_eq safetyBufferSlots
    (k := t + 127) (by omega) (by omega) (by omega)
  constructor
  · intro hnone i hi hne
    rcases hspec with ⟨-, hquiet⟩ | ⟨j, -, -, hsome, -⟩
    · obtain ⟨j, htj, hjt, rfl⟩ := exists_mod_eq t hi
      refine hquiet j (lt_of_le_of_ne htj ?_) (by omega)
      rintro rfl
      exact hne h.window.tail_eq.symm
    · rw [hsome] at hnone
      cases hnone
  · intro hquiet
    rcases hspec with ⟨hnone, -⟩ | ⟨j, hj, hjk, -, hfound, -⟩
    · rw [hnone]
      rfl
    · rw [hquiet _ (Nat.mod_lt _ (by decide)) ?_] at hfound
      · cases hfound
      · rw [h.window.tail_eq]
        exact (mod_ne_of_lt hj (by omega)).symm

/-- The search of a ring that is not empty finds the newest live keyframe in RAM
behind the oldest entry, if there is one. -/
theorem findLastKeyframe_live (h : Sound s log t) (hlive : t < log.length) :
    findLastKeyframe s = none ∧
        (∀ e ∈ log.drop (t + 1), e.ramKeyframe = false) ∨
      ∃ j e, t < j ∧ log[j]? = some e ∧
        findLastKeyframe s = some (j % safetyBufferSlots) ∧
        s.slots (j % safetyBufferSlots) = e ∧ e.ramKeyframe = true ∧
        ∀ x ∈ log.drop (j + 1), x.ramKeyframe = false := by
  have hlt := h.window.lt
  have hstart : previousSlot s.writeHead =
      (log.length - 1) % safetyBufferSlots := by
    rw [h.window.head_eq, previousSlot_mod (by omega)]
  have hquietOf : ∀ k, t ≤ k → (∀ i, k < i → i ≤ log.length - 1 →
      (s.slots (i % safetyBufferSlots)).ramKeyframe = false) →
      ∀ x ∈ log.drop (k + 1), x.ramKeyframe = false := by
    intro k hk hquiet x hx
    obtain ⟨i, hi⟩ := List.mem_iff_getElem?.mp hx
    rw [List.getElem?_drop] at hi
    have hin : k + 1 + i < log.length := by
      by_contra hge
      rw [List.getElem?_eq_none (by omega)] at hi
      cases hi
    rw [← h.window.slot _ (by omega) x hi]
    exact hquiet _ (by omega) (by omega)
  rw [findLastKeyframe, hstart]
  rcases findLoop_spec h.window.tail_eq safetyBufferSlots
    (k := log.length - 1) (by omega) (by omega) (by omega) with
    ⟨hnone, hquiet⟩ | ⟨j, htj, hj, hsome, hfound, hquiet⟩
  · exact .inl ⟨hnone, hquietOf t (Nat.le_refl t) hquiet⟩
  · have hget := List.getElem?_eq_getElem (l := log) (i := j) (by omega)
    have hslot := h.window.slot j htj.le _ hget
    exact .inr ⟨j, log[j], htj, hget, hsome, hslot, hslot ▸ hfound,
      hquietOf j htj.le hquiet⟩

theorem hasKeyframe_iff (h : Sound s log t) :
    HasKeyframe s ↔ ∃ e ∈ log.drop t, e.ramKeyframe = true := by
  rw [HasKeyframe, h.live_eq]

theorem hasLaterKeyframe_iff (h : Sound s log t) :
    HasLaterKeyframe s ↔ ∃ e ∈ log.drop (t + 1), e.ramKeyframe = true := by
  rw [HasLaterKeyframe, h.live_eq, List.tail_drop]

theorem HasLaterKeyframe.hasKeyframe (hlater : HasLaterKeyframe s) :
    HasKeyframe s := by
  obtain ⟨e, he, hram⟩ := hlater
  exact ⟨e, List.mem_of_mem_tail he, hram⟩

theorem isSome_findLastKeyframe (h : Sound s log t) (hlive : t < log.length) :
    (findLastKeyframe s).isSome = true ↔ HasLaterKeyframe s := by
  rw [hasLaterKeyframe_iff h]
  rcases findLastKeyframe_live h hlive with ⟨hnone, hquiet⟩ |
    ⟨j, e, htj, hget, hsome, -, hram, -⟩
  · rw [hnone]
    refine iff_of_false (by simp) ?_
    rintro ⟨e, he, hram⟩
    rw [hquiet e he] at hram
    cases hram
  · rw [hsome]
    refine iff_of_true rfl ⟨e, ?_, hram⟩
    refine List.mem_iff_getElem?.mpr ⟨j - (t + 1), ?_⟩
    rw [List.getElem?_drop, Nat.add_sub_cancel' htj]
    exact hget

theorem canRewind_iff (h : Sound s log t) (locked : Bool) :
    safetyBufferCanRewind s locked = 1 ↔
      locked = true ∧ HasLaterKeyframe s := by
  rw [safetyBufferCanRewind]
  cases locked with
  | false => simp
  | true =>
      have hle := h.window.le
      rcases Nat.eq_or_lt_of_le hle with hempty | hlive
      · have hmeet : s.writeHead = s.readTail := by
          by_contra hne
          exact absurd (h.window.head_ne_tail_iff.mp (Ne.symm hne)) (by omega)
        have hnone : ¬HasLaterKeyframe s := by
          rw [hasLaterKeyframe_iff h, List.drop_eq_nil_of_le (by omega)]
          simp
        simp [hmeet, hnone]
      · have hmeet := h.window.head_ne_tail_iff.mpr hlive
        rw [← isSome_findLastKeyframe h hlive]
        simp [Ne.symm hmeet, Option.isSome_iff_ne_none]

/-- The live entries up to a position, and those behind it. -/
theorem drop_split {j : ℕ} {e : Slot} (htj : t ≤ j) (hget : log[j]? = some e) :
    (log.take (j + 1)).drop t = (log.take j).drop t ++ [e] ∧
      log.drop t = (log.take j).drop t ++ e :: log.drop (j + 1) := by
  have hj : j < log.length := by
    by_contra hge
    rw [List.getElem?_eq_none (by omega)] at hget
    cases hget
  have hlen : t ≤ (log.take j).length := by
    rw [List.length_take]
    omega
  have htake : log.take (j + 1) = log.take j ++ [e] := by
    rw [List.take_add_one, hget, Option.toList_some]
  have hfront : (log.take (j + 1)).drop t = (log.take j).drop t ++ [e] := by
    rw [htake, List.drop_append_of_le_length hlen]
  refine ⟨hfront, ?_⟩
  calc log.drop t = (log.take (j + 1) ++ log.drop (j + 1)).drop t := by
        rw [List.take_append_drop]
    _ = (log.take (j + 1)).drop t ++ log.drop (j + 1) := by
        rw [List.drop_append_of_le_length]
        rw [List.length_take]
        omega
    _ = (log.take j).drop t ++ e :: log.drop (j + 1) := by
        rw [hfront, List.append_assoc, List.singleton_append]

/-- A rewind of a ring that is not empty. -/
theorem rewind_live (h : Sound s log t) (hlive : t < log.length) :
    let r := safetyBufferRewind s true true
    (r.1.isSome = true ↔ HasLaterKeyframe s) ∧
      (∀ w, r.1 = some w → IsNewestKeyframe s w r.2) ∧
      ∃ n, Sound r.2 (log.take n) t := by
  have hiff := isSome_findLastKeyframe h hlive
  rw [safetyBufferRewind, if_neg (by simp)]
  rcases findLastKeyframe_live h hlive with ⟨hnone, -⟩ |
    ⟨j, e, htj, hget, hsome, hslot, hram, hquiet⟩
  · rw [hnone] at hiff ⊢
    refine ⟨hiff, fun w hw => ?_, log.length, ?_⟩
    · cases hw
    · rw [List.take_length]
      exact h
  · rw [hsome] at hiff ⊢
    have hj : j + 1 ≤ log.length := by
      by_contra hge
      rw [List.getElem?_eq_none (by omega)] at hget
      cases hget
    obtain ⟨hfront, hwhole⟩ := drop_split htj.le hget
    have hretracted := h.retract (n := j + 1) (u := { s with
      writeHead := nextSlot (j % safetyBufferSlots)
      rewindPoint := nextSlot (j % safetyBufferSlots)
      state := .buffering }) (by omega) hj (nextSlot_mod j) rfl rfl rfl rfl
    refine ⟨hiff, ?_, j + 1, hretracted⟩
    rintro w ⟨⟩
    have hmem : e ∈ log.drop t := by
      rw [hwhole]
      simp
    refine ⟨(log.take j).drop t, e, log.drop (j + 1), h.live_eq.trans hwhole,
      hram, hquiet, ?_, ?_, ?_, ?_, hretracted.live_eq.trans hfront⟩
    · rw [hslot]
    · rw [hslot]
    · rw [hslot]
    · rw [hslot]
      exact fun o ho => (h.holds e hmem o ho).2

/-- A rewind of an empty ring. -/
theorem rewind_empty (h : Sound s log t) (hempty : t = log.length) :
    let r := safetyBufferRewind s true true
    (r.1.isSome = false ↔ ∀ i < safetyBufferSlots, i ≠ s.readTail →
      (s.slots i).ramKeyframe = false) ∧
      (r.1.isSome = false → r.2 = s) := by
  rw [← findLastKeyframe_empty h hempty, safetyBufferRewind, if_neg (by simp)]
  cases findLastKeyframe s with
  | none => exact ⟨Iff.rfl, fun _ => rfl⟩
  | some idx => exact ⟨Iff.rfl, fun hno => by cases hno⟩

/-! ## Runs -/

theorem safetyBufferStoreNal_sound (h : Sound s log t)
    (nal : Option (List UInt8)) (pts : UInt64) (isKeyframe locked : Bool)
    (openFd : ℤ) :
    ∃ log' t', Sound (safetyBufferStoreNal s nal pts isKeyframe locked
      openFd).2 log' t' := by
  cases nal with
  | none => exact ⟨log, t, h⟩
  | some nal =>
      rw [safetyBufferStoreNal]
      split
      · exact ⟨log, t, h⟩
      · obtain ⟨t₁, -, ⟨-, hsound⟩ | ⟨-, data, t', -, -, hsound, -⟩⟩ :=
          storeLocked_sound h nal pts isKeyframe openFd
        · exact ⟨log, t₁, hsound⟩
        · exact ⟨_, t', hsound⟩

/-- The calls that do not search keep the ring sound. -/
theorem clear_sound (h : Sound s log t) (locked : Bool) (openFd : ℤ) :
    ∃ log' t', Sound (safetyBufferClear s locked openFd) log' t' := by
  cases locked with
  | false => exact ⟨log, t, h⟩
  | true => exact ⟨[], 0, sound_empty rfl rfl rfl⟩

theorem handlePacketLoss_same (s : Buffer) (locked : Bool) :
    SameRing s (safetyBufferHandlePacketLoss s locked) := by
  rw [safetyBufferHandlePacketLoss]
  split
  · exact ⟨rfl, rfl, rfl, rfl, rfl, rfl⟩
  · exact ⟨rfl, rfl, rfl, rfl, rfl, rfl⟩

/-- One call of a rewind: it does what it should exactly if the keyframe can be
found, and then the ring stays sound. -/
theorem rewind_spec (h : Sound s log t) (given locked : Bool) :
    (Rewinds s (.rewind given locked) ↔ Findable s (.rewind given locked)) ∧
      (Findable s (.rewind given locked) →
        ∃ log' t', Sound (safetyBufferRewind s given locked).2 log' t') := by
  by_cases hasked : given = true ∧ locked = true
  · obtain ⟨rfl, rfl⟩ := hasked
    rw [Rewinds, Findable]
    rcases Nat.eq_or_lt_of_le h.window.le with hempty | hlive
    · obtain ⟨hiff, hsame⟩ := rewind_empty h hempty
      have hmeet : s.writeHead = s.readTail := by
        by_contra hne
        exact absurd (h.window.head_ne_tail_iff.mp (Ne.symm hne)) (by omega)
      have hnone : ¬HasKeyframe s := by
        rw [hasKeyframe_iff h, List.drop_eq_nil_of_le (by omega)]
        simp
      constructor
      · constructor
        · rintro ⟨hsome, -⟩
          refine ⟨fun hyes => absurd hyes hnone, fun _ _ _ => hiff.mp ?_⟩
          rw [← Bool.not_eq_true]
          exact fun hyes => hnone (hsome.mp hyes)
        · rintro ⟨-, hquiet⟩
          have hno := hiff.mpr (hquiet rfl rfl hmeet)
          refine ⟨iff_of_false (by simp [hno]) hnone, fun w hw => ?_⟩
          rw [hw] at hno
          cases hno
      · rintro ⟨-, hquiet⟩
        rw [hsame (hiff.mpr (hquiet rfl rfl hmeet))]
        exact ⟨log, t, h⟩
    · obtain ⟨hiff, hnewest, n, hsound⟩ := rewind_live h hlive
      have hmeet := Ne.symm (h.window.head_ne_tail_iff.mpr hlive)
      refine ⟨?_, fun _ => ⟨_, t, hsound⟩⟩
      rw [hiff]
      constructor
      · rintro ⟨hsame, -⟩
        exact ⟨fun hyes => ⟨⟨rfl, rfl⟩, hsame.mpr hyes⟩,
          fun _ _ heq => absurd heq hmeet⟩
      · rintro ⟨hlater, -⟩
        exact ⟨⟨HasLaterKeyframe.hasKeyframe, fun hyes => (hlater hyes).2⟩,
          hnewest⟩
  · have hrefused : safetyBufferRewind s given locked = (none, s) := by
      rw [safetyBufferRewind, if_pos]
      cases given with
      | false => exact .inl rfl
      | true =>
          cases locked with
          | false => exact .inr rfl
          | true => exact absurd ⟨rfl, rfl⟩ hasked
    rw [Rewinds, Findable, hrefused]
    refine ⟨⟨?_, ?_⟩, fun _ => ⟨log, t, h⟩⟩
    · rintro ⟨hsome, -⟩
      exact ⟨fun hyes => absurd (hsome.mpr hyes) (by simp),
        fun hg hl => absurd ⟨hg, hl⟩ hasked⟩
    · rintro ⟨hgets, -⟩
      exact ⟨iff_of_false (by simp) fun hyes => hasked (hgets hyes).1,
        fun w hw => by cases hw⟩

theorem call_spec (h : Sound s log t) (c : BufferCall) :
    (Rewinds s c ↔ Findable s c) ∧
      (Findable s c → ∃ log' t', Sound (s.call c) log' t') := by
  cases c with
  | storeNal nal pts isKeyframe locked openFd =>
      exact ⟨Iff.rfl, fun _ =>
        safetyBufferStoreNal_sound h nal pts isKeyframe locked openFd⟩
  | canRewind locked =>
      refine ⟨?_, fun _ => ⟨log, t, h⟩⟩
      rw [Rewinds, Findable, canRewind_iff h]
      constructor
      · exact fun hiff hyes => hiff.mpr hyes
      · exact fun hgets => ⟨fun hyes => hyes.2.hasKeyframe, hgets⟩
  | rewind given locked => exact rewind_spec h given locked
  | handlePacketLoss locked =>
      exact ⟨Iff.rfl, fun _ => ⟨log, t,
        h.of_same (handlePacketLoss_same s locked)⟩⟩
  | clear locked openFd => exact ⟨Iff.rfl, fun _ => clear_sound h locked openFd⟩
  | writer fails =>
      exact ⟨Iff.rfl, fun _ => ⟨log, t, h.of_same (writerStep_same s fails)⟩⟩

/-- In every run, each call about rewinding does what it should, exactly if at
each of them the keyframe can be found. -/
theorem rewinds_iff_findable (calls : List BufferCall) :
    AtEachCall Rewinds .init calls ↔ AtEachCall Findable .init calls := by
  have hrun : ∀ s log t, Sound s log t →
      (AtEachCall Rewinds s calls ↔ AtEachCall Findable s calls) := by
    induction calls with
    | nil => exact fun s log t _ => Iff.rfl
    | cons c calls ih =>
        intro s log t h
        obtain ⟨hiff, hsound⟩ := call_spec h c
        rw [AtEachCall, AtEachCall, hiff]
        refine and_congr_right fun hfind => ?_
        obtain ⟨log', t', h'⟩ := hsound hfind
        exact ih _ log' t' h'
  exact hrun .init [] 0 (sound_empty rfl rfl rfl)

/-! ## Runs that go wrong -/

/-- A keyframe that is the only entry. -/
def onlyKeyframe : List BufferCall :=
  [.storeNal (some [0, 0, 0, 1, 0x65]) 0 true true (-1), .rewind true true]

/-- A keyframe that was given up at once. -/
def staleKeyframe : List BufferCall :=
  [.storeNal (some [0, 0, 0, 1, 0x65]) 1000000 true true (-1),
    .rewind true true]

instance (s : Buffer) : Decidable (HasKeyframe s) :=
  inferInstanceAs (Decidable (∃ e ∈ s.live, e.ramKeyframe = true))

/-- The first keyframe is live and not found, and the second one is found though
no entry is live. -/
theorem rewinds_fails : ¬AtEachCall Rewinds .init onlyKeyframe ∧
    ¬AtEachCall Rewinds .init staleKeyframe := by
  constructor
  · rintro ⟨-, ⟨hsome, -⟩, -⟩
    revert hsome
    decide +kernel
  · rintro ⟨-, ⟨hsome, -⟩, -⟩
    revert hsome
    decide +kernel

end MoonlightPsp.SafetyBuffer
