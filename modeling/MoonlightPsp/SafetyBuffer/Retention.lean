import MoonlightPsp.SafetyBuffer.Ring

/-!
# What the safety buffer keeps

Over stores with timestamps that do not decrease, the entries of the last two
seconds should stay live, 127 at most, and their bytes apart.  The cutoff is
computed modulo 2^64, so that a timestamp below two seconds puts it in the
future and gives up every entry.
-/

namespace MoonlightPsp.SafetyBuffer

/-! ## What should be kept -/

/-- The entry that a call adds. -/
def Buffer.storedBy (s : Buffer) : BufferCall → Option Slot
  | .storeNal nal pts isKeyframe locked openFd =>
      let r := safetyBufferStoreNal s nal pts isKeyframe locked openFd
      if r.1 then some (r.2.slots s.writeHead) else none
  | _ => none

/-- A property, at each call that adds an entry, of all entries that were stored
so far and the state behind the call. -/
def AtEachStore (P : List Slot → Buffer → Prop) :
    Buffer → List Slot → List BufferCall → Prop
  | _, _, [] => True
  | s, log, c :: calls =>
      (∀ e, s.storedBy c = some e → P (log ++ [e]) (s.call c)) ∧
        AtEachStore P (s.call c) (log ++ (s.storedBy c).toList) calls

/-- The timestamp is no more than two seconds older than the newest one. -/
def Recent (newest timestamp : UInt64) : Prop :=
  newest.toNat - timestamp.toNat ≤ durationUs.toNat

/-- Two entries share no byte of the pool. -/
def DisjointBytes (e e' : Slot) : Prop :=
  ∀ o o', e.data = some o → e'.data = some o' →
    ∀ k, ¬((o ≤ k ∧ k < o + e.length) ∧ o' ≤ k ∧ k < o' + e'.length)

/-- The live entries are those of the log from some position on; a recent one
with fewer than 127 newer ones is among them; and they share no bytes. -/
def Retains (log : List Slot) (s : Buffer) : Prop :=
  (∃ t, s.live = log.drop t ∧ ∀ k e newest, log[k]? = some e →
    log.getLast? = some newest → Recent newest.timestamp e.timestamp →
      log.length - (k + 1) < 127 → t ≤ k) ∧
    s.live.Pairwise DisjointBytes

/-- The timestamp of the entry that was just stored is 0, or two seconds at
least. -/
def LateEnough (log : List Slot) (_ : Buffer) : Prop :=
  ∀ e, log.getLast? = some e → e.timestamp = 0 ∨ durationUs ≤ e.timestamp

/-- Stores and steps of the writer thread. -/
def BufferCall.stores : BufferCall → Bool
  | .storeNal .. => true
  | .writer _ => true
  | _ => false

/-- The timestamp of a store. -/
def BufferCall.pts : BufferCall → Option UInt64
  | .storeNal _ pts _ _ _ => some pts
  | _ => none

/-- A run of stores whose timestamps do not decrease. -/
structure StoresInOrder (calls : List BufferCall) : Prop where
  stores : ∀ c ∈ calls, c.stores = true
  order : (calls.filterMap BufferCall.pts).Pairwise (· ≤ ·)

/-! ## The invariant -/

variable {s : Buffer} {log : List Slot} {t : ℕ}

/-- An entry that was given up is too old, or has enough newer ones by the next
store. -/
def GivenUp (log : List Slot) (k : ℕ) : Prop :=
  126 ≤ log.length - (k + 1) ∨ ∀ e newest, log[k]? = some e →
    log.getLast? = some newest → ¬Recent newest.timestamp e.timestamp

/-- The state between two stores. -/
structure Retaining (s : Buffer) (log : List Slot) (t : ℕ) : Prop where
  sound : Sound s log t
  sorted : log.Pairwise fun e e' => e.timestamp ≤ e'.timestamp
  givenUp : ∀ k, k < t → GivenUp log k

theorem DisjointBytes.of_apart {e e' : Slot} (h : Apart e e') :
    DisjointBytes e e' := by
  intro o o' ho ho' k hk
  have hle := h o o' ho ho'
  omega

theorem not_recent_mono {a b c : UInt64} (hab : a ≤ b)
    (h : ¬Recent a c) : ¬Recent b c := by
  have hle := UInt64.le_iff_toNat_le.mp hab
  rw [Recent] at h ⊢
  omega

/-- An entry that was given up stays so, and has 127 newer ones once there is one
more, unless it is too old. -/
theorem GivenUp.snoc {k : ℕ} {e : Slot} (hk : k < log.length)
    (hsorted : ∀ x ∈ log, x.timestamp ≤ e.timestamp) (h : GivenUp log k) :
    127 ≤ (log ++ [e]).length - (k + 1) ∨ ∀ x newest,
      (log ++ [e])[k]? = some x → (log ++ [e]).getLast? = some newest →
        ¬Recent newest.timestamp x.timestamp := by
  rcases h with hnewer | hold
  · refine .inl ?_
    rw [List.length_append, List.length_singleton]
    omega
  · refine .inr fun x newest hx hnewest => ?_
    rw [List.getElem?_append_left hk] at hx
    rw [List.getLast?_concat] at hnewest
    cases hnewest
    obtain ⟨last, hlast⟩ : ∃ last, log.getLast? = some last :=
      ⟨_, List.getLast?_eq_some_getLast (List.ne_nil_of_length_pos (by omega))⟩
    exact not_recent_mono (hsorted last (List.mem_of_getLast? hlast))
      (hold x last hx hlast)

/-! ## The cutoff -/

theorem cutoff_of_le {a : UInt64} (h : durationUs ≤ a) :
    (a - durationUs).toNat = a.toNat - durationUs.toNat :=
  UInt64.toNat_sub_of_le a durationUs h

/-- Below two seconds the cutoff is in the future. -/
theorem lt_cutoff {a : UInt64} (h : a < durationUs) : a < a - durationUs := by
  have hlt := UInt64.lt_iff_toNat_lt.mp h
  have hdur : durationUs.toNat = 2000000 := rfl
  rw [UInt64.lt_iff_toNat_lt, UInt64.toNat_sub, hdur]
  rw [hdur] at hlt
  rw [Nat.mod_eq_of_lt (by omega)]
  omega

/-- With a late enough timestamp only old entries are given up. -/
theorem Evicted.givenUp {e : Slot} {t' : ℕ} (h : Evicted log e t t')
    (hlate : e.timestamp = 0 ∨ durationUs ≤ e.timestamp) {k : ℕ} (hk : t ≤ k)
    (hk' : k < t') {x : Slot} (hx : (log ++ [e])[k]? = some x) :
    ¬Recent e.timestamp x.timestamp := by
  have hne : e.timestamp ≠ 0 := by
    intro hzero
    have hsame := h.1 hzero
    omega
  have hle := hlate.resolve_left hne
  have hold := UInt64.lt_iff_toNat_lt.mp ((h.2 hne).1 k hk hk' x hx)
  rw [cutoff_of_le hle] at hold
  rw [Recent]
  omega

/-- With an early one all entries are given up. -/
theorem Evicted.all {e : Slot} {t' : ℕ} (h : Evicted log e t t')
    (hsorted : ∀ x ∈ log, x.timestamp ≤ e.timestamp)
    (hearly : ¬(e.timestamp = 0 ∨ durationUs ≤ e.timestamp)) :
    (log ++ [e]).length ≤ t' := by
  rw [not_or] at hearly
  by_contra hlt
  have hget := List.getElem?_eq_getElem (l := log ++ [e]) (i := t') (by omega)
  have hkept := (h.2 hearly.1).2 _ hget
  have hle : (log ++ [e])[t'].timestamp ≤ e.timestamp := by
    rcases List.mem_append.mp (List.getElem_mem (l := log ++ [e]) (n := t')
      (by omega)) with hx | hx
    · exact hsorted _ hx
    · rw [List.mem_singleton.mp hx]
      exact UInt64.le_refl _
  have hfuture := lt_cutoff (UInt64.not_le.mp hearly.2)
  exact absurd (UInt64.lt_of_lt_of_le hfuture (UInt64.le_trans hkept hle))
    (UInt64.lt_irrefl _)

/-! ## One store -/

theorem Sound.disjoint (h : Sound s log t) : s.live.Pairwise DisjointBytes := by
  rw [h.live_eq]
  exact h.apart.imp DisjointBytes.of_apart

/-- Behind a store that adds an entry the buffer retains what it should exactly
if the timestamp is late enough. -/
theorem stored_retains (h : Retaining s log t) {e : Slot} {u : Buffer}
    {t₁ t' : ℕ} (hsorted : ∀ x ∈ log, x.timestamp ≤ e.timestamp)
    (hmoved : t₁ = t ∨ t₁ = t + 1 ∧ log.length = t + 127)
    (hsound : Sound u (log ++ [e]) t') (hevicted : Evicted log e t₁ t') :
    (Retains (log ++ [e]) u ↔ LateEnough (log ++ [e]) u) ∧
      (LateEnough (log ++ [e]) u → Retaining u (log ++ [e]) t') := by
  have hle := h.sound.window.le
  have hlast : (log ++ [e]).getLast? = some e := List.getLast?_concat
  have hgone : e.timestamp = 0 ∨ durationUs ≤ e.timestamp → ∀ k, k < t' →
      127 ≤ (log ++ [e]).length - (k + 1) ∨ ∀ x newest,
        (log ++ [e])[k]? = some x → (log ++ [e]).getLast? = some newest →
          ¬Recent newest.timestamp x.timestamp := by
    intro hlate k hk
    by_cases hkt : k < t
    · exact (h.givenUp k hkt).snoc (by omega) hsorted
    · by_cases hkt₁ : k < t₁
      · refine .inl ?_
        rw [List.length_append, List.length_singleton]
        omega
      · refine .inr fun x newest hx hnewest => ?_
        rw [hlast] at hnewest
        cases hnewest
        exact hevicted.givenUp hlate (by omega) hk hx
  have hlateOf : LateEnough (log ++ [e]) u →
      e.timestamp = 0 ∨ durationUs ≤ e.timestamp := fun hlate => hlate e hlast
  constructor
  · constructor
    · rintro ⟨⟨t'', hlive, hkept⟩, -⟩ x hx
      rw [hlast] at hx
      cases hx
      by_contra hearly
      have hall := hevicted.all hsorted hearly
      rw [hsound.live_eq, List.drop_eq_nil_of_le hall] at hlive
      have hpast := List.drop_eq_nil_iff.mp hlive.symm
      have hlength : (log ++ [e]).length = log.length + 1 := by simp
      have hnewest := hkept log.length e e List.getElem?_concat_length hlast
        (by rw [Recent]; omega) (by omega)
      omega
    · intro hlate
      refine ⟨⟨t', hsound.live_eq, fun k x newest hx hnewest hrecent hfew => ?_⟩,
        hsound.disjoint⟩
      by_contra hlt
      rcases hgone (hlateOf hlate) k (by omega) with hmany | hold
      · omega
      · exact hold x newest hx hnewest hrecent
  · intro hlate
    refine ⟨hsound, ?_, fun k hk => ?_⟩
    · rw [List.pairwise_append]
      refine ⟨h.sorted, List.pairwise_singleton _ _, fun x hx y hy => ?_⟩
      rw [List.mem_singleton.mp hy]
      exact hsorted x hx
    · exact (hgone (hlateOf hlate) k hk).imp_left fun hmany => by omega

/-- A store that adds nothing. -/
theorem refused_retaining (h : Retaining s log t) {u : Buffer} {t₁ : ℕ}
    (hmoved : t₁ = t ∨ t₁ = t + 1 ∧ log.length = t + 127)
    (hsound : Sound u log t₁) : Retaining u log t₁ where
  sound := hsound
  sorted := h.sorted
  givenUp := fun k hk => by
    by_cases hkt : k < t
    · exact h.givenUp k hkt
    · exact .inl (by omega)

/-- One call of a run. -/
theorem call_retains (h : Retaining s log t) {c : BufferCall}
    (hstores : c.stores = true)
    (hpts : ∀ pts, c.pts = some pts → ∀ x ∈ log, x.timestamp ≤ pts) :
    (s.storedBy c = none ∧ ∃ t', Retaining (s.call c) log t') ∨
      ∃ e t', s.storedBy c = some e ∧ c.pts = some e.timestamp ∧
        (Retains (log ++ [e]) (s.call c) ↔
          LateEnough (log ++ [e]) (s.call c)) ∧
        (LateEnough (log ++ [e]) (s.call c) →
          Retaining (s.call c) (log ++ [e]) t') := by
  cases c with
  | writer fails =>
      exact .inl ⟨rfl, t, h.sound.of_same (writerStep_same s fails), h.sorted,
        h.givenUp⟩
  | storeNal nal pts isKeyframe locked openFd =>
      rw [Buffer.storedBy, Buffer.call]
      cases nal with
      | none => exact .inl ⟨rfl, t, h⟩
      | some nal =>
          rw [safetyBufferStoreNal]
          split
          · exact .inl ⟨rfl, t, h⟩
          · obtain ⟨t₁, hmoved, ⟨hno, hsound⟩ |
              ⟨hyes, data, t', -, hslot, hsound, hevicted⟩⟩ :=
              storeLocked_sound h.sound nal pts isKeyframe openFd
            · exact .inl ⟨by simp [hno], t₁, refused_retaining h hmoved hsound⟩
            · obtain ⟨hiff, hretaining⟩ := stored_retains h
                (hpts pts rfl) hmoved hsound hevicted
              exact .inr ⟨_, t', by simp [hyes, hslot], rfl, hiff, hretaining⟩
  | canRewind locked => cases hstores
  | rewind given locked => cases hstores
  | handlePacketLoss locked => cases hstores
  | clear locked openFd => cases hstores

/-! ## Runs -/

theorem retaining_clear (s : Buffer) (openFd : ℤ) :
    Retaining (safetyBufferClear s true openFd) [] 0 where
  sound := sound_empty rfl rfl rfl
  sorted := List.Pairwise.nil
  givenUp := fun k hk => absurd hk (Nat.not_lt_zero k)

/-- In every run of stores from a cleared buffer whose timestamps do not
decrease, each store that adds an entry leaves what it should exactly if no
timestamp of an entry is above 0 and below two seconds. -/
theorem retains_iff_lateEnough (s : Buffer) (openFd : ℤ)
    {calls : List BufferCall} (hcalls : StoresInOrder calls) :
    AtEachStore Retains (safetyBufferClear s true openFd) [] calls ↔
      AtEachStore LateEnough (safetyBufferClear s true openFd) [] calls := by
  have hrun : ∀ u log t, Retaining u log t →
      (∀ pts ∈ calls.filterMap BufferCall.pts, ∀ x ∈ log, x.timestamp ≤ pts) →
      (AtEachStore Retains u log calls ↔ AtEachStore LateEnough u log calls) := by
    obtain ⟨hstores, horder⟩ := hcalls
    induction calls with
    | nil => exact fun u log t _ _ => Iff.rfl
    | cons c calls ih =>
        intro u log t h hbound
        have hlater : (calls.filterMap BufferCall.pts).Pairwise (· ≤ ·) := by
          rw [List.filterMap_cons] at horder
          split at horder
          · exact horder
          · exact (List.pairwise_cons.mp horder).2
        have hrest := ih (fun d hd => hstores d (List.mem_cons_of_mem c hd)) hlater
        have hmem : ∀ pts ∈ calls.filterMap BufferCall.pts,
            pts ∈ (c :: calls).filterMap BufferCall.pts := by
          intro pts hpts
          rw [List.filterMap_cons]
          split
          · exact hpts
          · exact List.mem_cons_of_mem _ hpts
        have hfirst : ∀ pts, c.pts = some pts →
            pts ∈ (c :: calls).filterMap BufferCall.pts := by
          intro pts hpts
          rw [List.filterMap_cons, hpts]
          exact List.mem_cons_self
        rw [AtEachStore, AtEachStore]
        rcases call_retains h (hstores c List.mem_cons_self)
          (fun pts hpts => hbound pts (hfirst pts hpts)) with
          ⟨hnone, t', hretaining⟩ | ⟨e, t', hsome, hpts, hiff, hretaining⟩
        · rw [hnone, Option.toList_none, List.append_nil]
          simp only [reduceCtorEq, false_implies, implies_true, true_and]
          exact hrest _ log t' hretaining fun pts hp => hbound pts (hmem pts hp)
        · simp only [hsome, Option.some.injEq, forall_eq', Option.toList_some]
          rw [hiff]
          refine and_congr_right fun hlate => ?_
          refine hrest _ _ t' (hretaining hlate) fun pts hp x hx => ?_
          rcases List.mem_append.mp hx with hx | hx
          · exact hbound pts (hmem pts hp) x hx
          · rw [List.mem_singleton.mp hx]
            rw [List.filterMap_cons, hpts] at horder
            exact (List.pairwise_cons.mp horder).1 pts hp
  exact hrun _ [] 0 (retaining_clear s openFd) fun pts _ x hx => by cases hx

/-- Two units of a stream that starts in the third second. -/
def lateStream : List BufferCall :=
  [.storeNal (some [0, 0, 0, 1, 0x65]) 3000000 true true (-1),
    .storeNal (some [0, 0, 0, 1, 0x41]) 3500000 false true (-1)]

/-- Two units of a stream that starts with its clock. -/
def earlyStream : List BufferCall :=
  [.storeNal (some [0, 0, 0, 1, 0x65]) 1000 true true (-1),
    .storeNal (some [0, 0, 0, 1, 0x41]) 34000 false true (-1)]

theorem storesInOrder_streams :
    StoresInOrder lateStream ∧ StoresInOrder earlyStream := by
  constructor
  · exact ⟨by simp [lateStream, BufferCall.stores],
      by simp [lateStream, BufferCall.pts]⟩
  · exact ⟨by simp [earlyStream, BufferCall.stores],
      by simp [earlyStream, BufferCall.pts]⟩

theorem lateStream_retains :
    AtEachStore Retains (safetyBufferClear .init true (-1)) [] lateStream ↔
      AtEachStore LateEnough (safetyBufferClear .init true (-1)) []
        lateStream :=
  retains_iff_lateEnough .init (-1) storesInOrder_streams.1

/-- The first unit is given up by its own store. -/
theorem retains_fails : StoresInOrder earlyStream ∧
    ¬AtEachStore Retains (safetyBufferClear .init true (-1)) [] earlyStream := by
  refine ⟨storesInOrder_streams.2, ?_⟩
  rintro ⟨hfirst, -⟩
  have hstored : ∃ e, (safetyBufferClear .init true (-1)).storedBy
      (.storeNal (some [0, 0, 0, 1, 0x65]) 1000 true true (-1)) = some e :=
    Option.isSome_iff_exists.mp (by decide +kernel)
  obtain ⟨e, he⟩ := hstored
  obtain ⟨⟨t, hlive, hkept⟩, -⟩ := hfirst e he
  have hnone : (Buffer.call (safetyBufferClear .init true (-1))
      (.storeNal (some [0, 0, 0, 1, 0x65]) 1000 true true (-1))).live = [] :=
    List.isEmpty_iff.mp (by decide +kernel)
  rw [hnone] at hlive
  have hpast := List.drop_eq_nil_iff.mp hlive.symm
  have hfresh := hkept 0 e e rfl rfl (by rw [Recent]; omega) (by simp)
  rw [List.nil_append, List.length_singleton] at hpast
  omega

end MoonlightPsp.SafetyBuffer
