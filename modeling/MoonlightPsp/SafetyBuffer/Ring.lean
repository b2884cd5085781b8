import Mathlib.Tactic.Common
import MoonlightPsp.SafetyBuffer.Model

/-!
# The ring and the pool

The live entries are a window of a log of what was stored.  Their bytes lie one
after the other in the pool, in the order of the entries, so that no store
touches the bytes of a live entry.
-/

namespace MoonlightPsp.SafetyBuffer

open RingWindow

/-! ## The invariant -/

/-- The bytes of one entry lie in front of those of another. -/
def Apart (e e' : Slot) : Prop :=
  ∀ o o', e.data = some o → e'.data = some o' → o + e.length ≤ o'

/-- The bytes of an entry are in the part of the pool that is used. -/
def Holds (s : Buffer) (e : Slot) : Prop :=
  ∀ o, e.data = some o →
    o + e.length ≤ s.ramPoolUsed ∧ s.bytesAt o e.length = e.nal

/-- The entries of the log from `t` on are live, and their bytes are kept. -/
structure Sound (s : Buffer) (log : List Slot) (t : ℕ) : Prop where
  window : Window safetyBufferSlots s.slots s.writeHead s.readTail log t
  used : s.ramPoolUsed ≤ safetyBufferSizeBytes
  holds : ∀ e ∈ log.drop t, Holds s e
  apart : (log.drop t).Pairwise Apart

variable {s u : Buffer} {log : List Slot} {t : ℕ}

theorem Sound.live_eq (h : Sound s log t) : s.live = log.drop t :=
  h.window.contents_eq

theorem sound_empty (hhead : s.writeHead = 0) (htail : s.readTail = 0)
    (hused : s.ramPoolUsed = 0) : Sound s [] 0 where
  window := by
    refine ⟨hhead, htail, Nat.le_refl 0, by decide, fun k _ x hx => ?_⟩
    simp at hx
  used := by simp [hused]
  holds := fun e he => by simp at he
  apart := List.Pairwise.nil

/-- Two states with the same ring and pool. -/
structure SameRing (s u : Buffer) : Prop where
  slots : u.slots = s.slots
  pool : u.ramPool = s.ramPool
  used : u.ramPoolUsed = s.ramPoolUsed
  head : u.writeHead = s.writeHead
  tail : u.readTail = s.readTail
  newest : u.newestTimestamp = s.newestTimestamp

theorem Sound.of_same (h : Sound s log t) (hsame : SameRing s u) :
    Sound u log t where
  window := by
    rw [hsame.slots, hsame.head, hsame.tail]
    exact h.window
  used := hsame.used ▸ h.used
  holds := fun e he o ho => by
    rw [hsame.used, Buffer.bytesAt, hsame.pool]
    exact h.holds e he o ho
  apart := h.apart

theorem writeToFallback_same (s : Buffer) (nalLen : ℕ) :
    SameRing s (writeToFallback s nalLen).2 := by
  rw [writeToFallback]
  dsimp only
  split
  · exact ⟨rfl, rfl, rfl, rfl, rfl, rfl⟩
  · split
    · exact ⟨rfl, rfl, rfl, rfl, rfl, rfl⟩
    · split
      · exact ⟨rfl, rfl, rfl, rfl, rfl, rfl⟩
      · exact ⟨rfl, rfl, rfl, rfl, rfl, rfl⟩

theorem SameRing.trans {v : Buffer} (h : SameRing s u) (h' : SameRing u v) :
    SameRing s v :=
  ⟨h'.slots.trans h.slots, h'.pool.trans h.pool, h'.used.trans h.used,
    h'.head.trans h.head, h'.tail.trans h.tail, h'.newest.trans h.newest⟩

theorem switchToFallback_same (s : Buffer) (nalLen : ℕ) (openFd : ℤ) :
    SameRing s (switchToFallback s nalLen openFd) := by
  have hopened : SameRing s { s with
      fallbackFd := openFd
      usingFallback := true } := ⟨rfl, rfl, rfl, rfl, rfl, rfl⟩
  rw [switchToFallback]
  dsimp only
  split
  · exact hopened.trans (writeToFallback_same _ nalLen)
  · exact ⟨rfl, rfl, rfl, rfl, rfl, rfl⟩

theorem writerStep_same (s : Buffer) (fails : Bool) :
    SameRing s (s.writerStep fails) := by
  rw [Buffer.writerStep]
  split
  · exact ⟨rfl, rfl, rfl, rfl, rfl, rfl⟩
  · dsimp only
    split
    · exact ⟨rfl, rfl, rfl, rfl, rfl, rfl⟩
    · exact ⟨rfl, rfl, rfl, rfl, rfl, rfl⟩

theorem settle_same (s : Buffer) : SameRing s s.settle := by
  rw [Buffer.settle]
  split
  · exact ⟨rfl, rfl, rfl, rfl, rfl, rfl⟩
  · exact ⟨rfl, rfl, rfl, rfl, rfl, rfl⟩

/-! ## Giving up the oldest entries -/

theorem drop_drop_mem {e : Slot} {t' : ℕ} (htt' : t ≤ t')
    (he : e ∈ log.drop t') : e ∈ log.drop t := by
  obtain ⟨d, rfl⟩ := Nat.exists_eq_add_of_le htt'
  rw [← List.drop_drop] at he
  exact List.mem_of_mem_drop he

/-- The tail may move forward in the window. -/
theorem Sound.advance (h : Sound s log t) {t' : ℕ} (htt' : t ≤ t')
    (ht' : t' ≤ log.length) (oldest : UInt64) :
    Sound { s with
      readTail := t' % safetyBufferSlots
      oldestTimestamp := oldest } log t' where
  window := h.window.advance htt' ht'
  used := h.used
  holds := fun e he => h.holds e (drop_drop_mem htt' he)
  apart := by
    obtain ⟨d, rfl⟩ := Nat.exists_eq_add_of_le htt'
    rw [← List.drop_drop]
    exact h.apart.sublist (List.drop_sublist _ _)

theorem nextSlot_mod (k : ℕ) :
    nextSlot (k % safetyBufferSlots) = (k + 1) % safetyBufferSlots := by
  rw [nextSlot, Nat.mod_add_mod]

/-- A full ring gives up one entry. -/
theorem makeRoom_sound (h : Sound s log t) :
    ∃ t', Sound s.makeRoom log t' ∧ log.length + 1 - t' < safetyBufferSlots ∧
      (t' = t ∨ t' = t + 1 ∧ log.length = t + 127) ∧
      s.makeRoom.writeHead = s.writeHead := by
  have hle := h.window.le
  have hlt := h.window.lt
  have hslots : safetyBufferSlots = 128 := rfl
  rw [Buffer.makeRoom]
  split
  · rename_i hfull
    have hlen : log.length = t + 127 := by
      by_contra hne
      refine mod_ne_of_lt (N := safetyBufferSlots) (a := t)
        (b := log.length + 1) (by omega) (by omega) ?_
      rw [← h.window.tail_eq, ← hfull, h.window.head_eq, nextSlot_mod]
    refine ⟨t + 1, ?_, by omega, .inr ⟨rfl, hlen⟩, rfl⟩
    have hadvanced := h.advance (Nat.le_succ t) (by omega) s.oldestTimestamp
    rw [h.window.tail_eq, nextSlot_mod]
    exact hadvanced
  · rename_i hroom
    exact ⟨t, h, h.window.room_of_ne hroom, .inl rfl, rfl⟩

/-- The loop gives up entries as long as they are too old. -/
theorem evictLoop_sound (cutoff : UInt64) {rounds : ℕ} (h : Sound s log t)
    (hrounds : log.length - t < rounds) :
    ∃ t', t ≤ t' ∧ Sound (evictLoop cutoff rounds s) log t' ∧
      (∀ k, t ≤ k → k < t' → ∀ e, log[k]? = some e → e.timestamp < cutoff) ∧
      (∀ e, log[t']? = some e → cutoff ≤ e.timestamp) := by
  induction rounds generalizing s t with
  | zero => omega
  | succ rounds ih =>
      have hle := h.window.le
      rw [evictLoop]
      split
      · rename_i hempty
        have hlast : t = log.length := by
          by_contra hne
          exact h.window.head_ne_tail_iff.mpr (by omega) hempty
        refine ⟨t, Nat.le_refl t, h, fun k hk hk' => by omega, fun e he => ?_⟩
        rw [List.getElem?_eq_none (by omega)] at he
        cases he
      · rename_i hnonempty
        have hlt : t < log.length := h.window.head_ne_tail_iff.mp hnonempty
        have holdest := h.window.slot_tail hlt
        split
        · rename_i hnew
          refine ⟨t, Nat.le_refl t, h, fun k hk hk' => by omega, fun e he => ?_⟩
          rw [holdest] at he
          cases he
          exact hnew
        · rename_i hold
          have hadvanced := h.advance (Nat.le_succ t) hlt
            (s.slots s.readTail).timestamp
          rw [← nextSlot_mod, ← h.window.tail_eq] at hadvanced
          obtain ⟨t', htt', hsound, hevicted, hkept⟩ := ih hadvanced (by omega)
          refine ⟨t', by omega, hsound, fun k hk hk' e he => ?_, hkept⟩
          rcases Nat.eq_or_lt_of_le hk with rfl | hlater
          · rw [holdest] at he
            cases he
            exact UInt64.not_le.mp hold
          · exact hevicted k (by omega) hk' e he

/-- What `evict_old_entries` gives up: nothing while the newest timestamp is 0,
else the entries at the front that are older than the cutoff. -/
theorem evictOldEntries_sound (h : Sound s log t) :
    ∃ t', t ≤ t' ∧ Sound (evictOldEntries s) log t' ∧
      (s.newestTimestamp = 0 → t' = t) ∧
      (s.newestTimestamp ≠ 0 →
        (∀ k, t ≤ k → k < t' → ∀ e, log[k]? = some e →
          e.timestamp < s.newestTimestamp - durationUs) ∧
        ∀ e, log[t']? = some e →
          s.newestTimestamp - durationUs ≤ e.timestamp) := by
  rw [evictOldEntries]
  split
  · rename_i hzero
    exact ⟨t, Nat.le_refl t, h, fun _ => rfl, fun hne => absurd hzero hne⟩
  · rename_i hne
    obtain ⟨t', htt', hsound, hevicted, hkept⟩ := evictLoop_sound
      (s.newestTimestamp - durationUs) h h.window.lt
    refine ⟨t', htt', ?_, fun hzero => absurd hzero hne,
      fun _ => ⟨hevicted, hkept⟩⟩
    dsimp only
    split
    · rename_i hempty
      have hlast : t' = log.length := by
        have hle := hsound.window.le
        by_contra hnot
        exact hsound.window.head_ne_tail_iff.mpr (by omega) hempty
      have hnone : log.drop t' = [] := List.drop_eq_nil_of_le hlast.ge
      refine ⟨hsound.window, Nat.zero_le _, fun e he => ?_, ?_⟩
      · rw [hnone] at he
        cases he
      · rw [hnone]
        exact List.Pairwise.nil
    · exact hsound

/-! ## Storing -/

theorem bytesAt_putPool (s : Buffer) (offset : ℕ) (nal : List UInt8) :
    Buffer.bytesAt { s with ramPool := putPool s.ramPool offset nal } offset
      nal.length = nal := by
  refine List.ext_getElem (by simp [Buffer.bytesAt]) fun i hi hi' => ?_
  simp [Buffer.bytesAt, putPool, hi']

theorem bytesAt_putPool_of_le (s : Buffer) {offset o length : ℕ}
    (nal : List UInt8) (h : o + length ≤ offset) :
    Buffer.bytesAt { s with ramPool := putPool s.ramPool offset nal } o length =
      s.bytesAt o length := by
  refine List.map_congr_left fun i hi => ?_
  rw [List.mem_range] at hi
  exact if_neg (by omega)

theorem le_alignedSize (size : ℕ) : size ≤ alignedSize size := by
  rw [alignedSize]
  omega

/-- A new entry at the head whose bytes lie behind those of all others. -/
theorem fillSlot_sound (h : Sound s log t)
    (hroom : log.length + 1 - t < safetyBufferSlots) {e : Slot}
    (hholds : Holds s e)
    (hapart : ∀ x ∈ log.drop t, Apart x e) :
    Sound (s.fillSlot e) (log ++ [e]) t where
  window := by
    have hpushed := (h.window.write_free e).push (x := e) hroom
      (Function.update_self ..)
    exact hpushed
  used := h.used
  holds := fun x hx => by
    rw [List.drop_append_of_le_length h.window.le, List.mem_append,
      List.mem_singleton] at hx
    rcases hx with hx | rfl
    · exact h.holds x hx
    · exact hholds
  apart := by
    rw [List.drop_append_of_le_length h.window.le, List.pairwise_append]
    refine ⟨h.apart, List.pairwise_singleton _ _, fun x hx y hy => ?_⟩
    rw [List.mem_singleton.mp hy]
    exact hapart x hx

/-- What evictions and the write leave of the entries: those from `t'` on. -/
def Evicted (log : List Slot) (e : Slot) (t t' : ℕ) : Prop :=
  (e.timestamp = 0 → t' = t) ∧
  (e.timestamp ≠ 0 →
    (∀ k, t ≤ k → k < t' → ∀ x, (log ++ [e])[k]? = some x →
      x.timestamp < e.timestamp - durationUs) ∧
    ∀ x, (log ++ [e])[t']? = some x → e.timestamp - durationUs ≤ x.timestamp)

theorem commit_sound (h : Sound s log t)
    (hroom : log.length + 1 - t < safetyBufferSlots) {e : Slot}
    (hholds : Holds s e) (hapart : ∀ x ∈ log.drop t, Apart x e) :
    ∃ t', t ≤ t' ∧ Sound (s.commit e) (log ++ [e]) t' ∧ Evicted log e t t' := by
  obtain ⟨t', htt', hsound, hzero, hnonzero⟩ :=
    evictOldEntries_sound (fillSlot_sound h hroom hholds hapart)
  exact ⟨t', htt', hsound.of_same (settle_same _), hzero, hnonzero⟩

theorem evictLoop_slots (cutoff : UInt64) (rounds : ℕ) (s : Buffer) :
    (evictLoop cutoff rounds s).slots = s.slots := by
  induction rounds generalizing s with
  | zero => rfl
  | succ rounds ih =>
      rw [evictLoop]
      split
      · rfl
      · split
        · rfl
        · exact ih _

theorem commit_slots (s : Buffer) (e : Slot) :
    (s.commit e).slots s.writeHead = e := by
  have hevict : ∀ u : Buffer, (evictOldEntries u).slots = u.slots := by
    intro u
    have hloop := evictLoop_slots (u.newestTimestamp - durationUs)
      safetyBufferSlots u
    rw [evictOldEntries]
    split
    · rfl
    · dsimp only
      split
      · exact hloop
      · exact hloop
  rw [Buffer.commit, (settle_same _).slots, hevict]
  exact Function.update_self ..

/-- The bytes of a unit go behind those of all live entries. -/
theorem allocated_sound (h : Sound s log t) {nal : List UInt8} {offset used : ℕ}
    (hnew : allocateFromPool s nal.length = some (offset, used)) :
    let u : Buffer := { s with
      ramPool := putPool s.ramPool offset nal
      ramPoolUsed := used }
    Sound u log t ∧ offset + nal.length ≤ used ∧
      u.bytesAt offset nal.length = nal ∧
      ∀ x ∈ log.drop t, ∀ o, x.data = some o → o + x.length ≤ offset := by
  rw [allocateFromPool] at hnew
  split at hnew
  · cases hnew
  · rename_i hfits
    obtain ⟨rfl, rfl⟩ : s.ramPoolUsed = offset ∧
        s.ramPoolUsed + alignedSize nal.length = used := by simpa using hnew
    have hsize := le_alignedSize nal.length
    refine ⟨⟨h.window, by dsimp only; omega, fun e he o ho => ?_, h.apart⟩,
      by omega, bytesAt_putPool s _ nal, fun x hx o ho => (h.holds x hx o ho).1⟩
    obtain ⟨hin, hbytes⟩ := h.holds e he o ho
    refine ⟨by dsimp only; omega, ?_⟩
    rw [← hbytes]
    exact bytesAt_putPool_of_le s nal hin

/-- What a store does: it gets no slot, and at most a full ring gave up an entry;
or the unit is the newest entry. -/
theorem storeLocked_sound (h : Sound s log t) (nal : List UInt8) (pts : UInt64)
    (isKeyframe : Bool) (openFd : ℤ) :
    let r := storeLocked s nal pts isKeyframe openFd
    ∃ t₁, (t₁ = t ∨ t₁ = t + 1 ∧ log.length = t + 127) ∧
      (r.1 = false ∧ Sound r.2 log t₁ ∨
        r.1 = true ∧ ∃ data t', t₁ ≤ t' ∧
          let e : Slot := ⟨data, nal.length, pts, isKeyframe, nal⟩
          r.2.slots s.writeHead = e ∧
            Sound r.2 (log ++ [e]) t' ∧ Evicted log e t₁ t') := by
  obtain ⟨t₁, hroomy, hroom, hmoved, hhead⟩ := makeRoom_sound h
  refine ⟨t₁, hmoved, ?_⟩
  rw [storeLocked]
  dsimp only
  split
  · split
    · exact .inl ⟨rfl, hroomy.of_same (switchToFallback_same _ _ _)⟩
    · rename_i offset used hnew
      obtain ⟨hsound, hin, hbytes, hbefore⟩ := allocated_sound hroomy hnew
      obtain ⟨t', htt', hcommitted, hevicted⟩ := commit_sound hsound hroom
        (e := ⟨some offset, nal.length, pts, isKeyframe, nal⟩)
        (fun o ho => by
          obtain rfl := Option.some.inj ho
          exact ⟨hin, hbytes⟩)
        (fun x hx o o' ho ho' => by
          obtain rfl := Option.some.inj ho'
          exact hbefore x hx o ho)
      refine .inr ⟨rfl, some offset, t', htt', ?_, hcommitted, hevicted⟩
      rw [← hhead]
      exact commit_slots _ _
  · have hsame := writeToFallback_same s.makeRoom nal.length
    have hwritten := hroomy.of_same hsame
    split
    · exact .inl ⟨rfl, hwritten⟩
    · obtain ⟨t', htt', hcommitted, hevicted⟩ := commit_sound hwritten hroom
        (e := ⟨none, nal.length, pts, isKeyframe, nal⟩)
        (fun o ho => by cases ho) (fun x hx o o' ho ho' => by cases ho')
      refine .inr ⟨rfl, none, t', htt', ?_, hcommitted, hevicted⟩
      rw [← hhead, ← hsame.head]
      exact commit_slots _ _

/-- The entries behind a live one are dropped. -/
theorem Sound.retract (h : Sound s log t) {n : ℕ} (htn : t ≤ n)
    (hn : n ≤ log.length) (hhead : u.writeHead = n % safetyBufferSlots)
    (htail : u.readTail = s.readTail) (hslots : u.slots = s.slots)
    (hpool : u.ramPool = s.ramPool) (hused : u.ramPoolUsed = s.ramPoolUsed) :
    Sound u (log.take n) t where
  window := by
    rw [hhead, htail, hslots]
    exact h.window.retract htn hn
  used := hused ▸ h.used
  holds := fun e he o ho => by
    rw [List.drop_take] at he
    rw [hused, Buffer.bytesAt, hpool]
    exact h.holds e (List.mem_of_mem_take he) o ho
  apart := by
    rw [List.drop_take]
    exact h.apart.sublist (List.take_sublist _ _)

end MoonlightPsp.SafetyBuffer
