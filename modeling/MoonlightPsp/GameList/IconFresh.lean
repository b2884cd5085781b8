import MoonlightPsp.GameList.IconIndex

/-!
# What the icon cache answers

The cache and its register answer alike, through restarts and through writes that were cut.
Where the cache calls art fresh, it was recorded under such a URL in the week before, and has
not been cleared since.  A URL that was changed within four bytes is always seen.
-/

namespace MoonlightPsp.GameList

open Rtsp Config CyclicCode

/-! ## The entries -/

variable {es : List CacheEntry} {e f : CacheEntry} {appId : Int32} {url : List UInt8}
  {day : UInt32}

theorem mem_of_findEntry (h : (findEntry es appId).bind (es[·]?) = some e) :
    e ∈ es ∧ e.appId = appId := by
  obtain ⟨i, hi, he⟩ := Option.bind_eq_some_iff.mp h
  obtain ⟨hlt, hfound, _⟩ := List.findIdx?_eq_some_iff_getElem.mp hi
  rw [List.getElem?_eq_getElem hlt] at he
  obtain rfl := Option.some.inj he
  exact ⟨List.getElem_mem hlt, by simpa using hfound⟩

theorem mem_recordEntry (h : f ∈ recordEntry es e) : f = e ∨ f ∈ es := by
  rw [recordEntry] at h
  split at h
  · exact (List.mem_or_eq_of_mem_set h).symm
  · split at h
    · obtain h | h := List.mem_append.mp h
      · exact Or.inr h
      · exact Or.inl (List.mem_singleton.mp h)
    · exact Or.inr h

theorem length_recordEntry_le (h : es.length ≤ maxCacheEntries) (e : CacheEntry) :
    (recordEntry es e).length ≤ maxCacheEntries := by
  rw [recordEntry]
  split
  · rwa [List.length_set]
  · split
    · rename_i hroom
      rw [List.length_append]
      exact hroom
    · exact h

/-- Where no update is needed, an entry says so. -/
theorem needsUpdate_false (hurl : url ≠ []) (h : needsUpdate es appId url day = false) :
    ∃ e ∈ es, e.appId = appId ∧ e.urlHash = crc32Compute url ∧
      day.toNat ≤ e.fetchDay.toNat + 7 := by
  rw [needsUpdate, if_neg hurl] at h
  cases hfind : (findEntry es appId).bind (es[·]?) with
  | none =>
      rw [hfind] at h
      exact absurd h.symm Bool.false_ne_true
  | some e =>
      rw [hfind] at h
      obtain ⟨hmem, hid⟩ := mem_of_findEntry hfind
      obtain ⟨hhash, hage⟩ := Bool.or_eq_false_iff.mp h
      refine ⟨e, hmem, hid, by simpa using hhash, ?_⟩
      -- The sum may overflow, and is smaller then.
      have hle : ¬day > e.fetchDay + 7 := by simpa using hage
      have hle' : day.toNat ≤ (e.fetchDay + 7).toNat := Nat.le_of_not_lt hle
      rw [UInt32.toNat_add] at hle'
      exact Nat.le_trans hle' (Nat.mod_le _ _)

/-! ## The register -/

variable {s : IconCache} {r : IconRegister} {c : IconCall}

theorem loadIndex_spec (s : IconCache) (a : IndexRead) :
    loadIndex s a = ⟨s.register.load a, true, s.file⟩ := by
  obtain ⟨entries, loaded, file⟩ := s
  cases loaded with
  | true => rfl
  | false =>
      cases file with
      | none =>
          simp only [loadIndex, IconRegister.load, IconCache.register, Bool.false_eq_true, if_false,
            Option.getD_none, Option.map_none, ite_self]
      | some content => rfl

theorem length_load_le (h : s.entries.length ≤ maxCacheEntries) (a : IndexRead) :
    (s.register.load a).length ≤ maxCacheEntries := by
  obtain ⟨entries, loaded, file⟩ := s
  cases loaded with
  | true => exact h
  | false =>
      cases file with
      | none =>
          simp [IconRegister.load, IconCache.register]
      | some content =>
          change (if a.opens ∧ ¬a.fails then readIndex content else []).length ≤ _
          split
          · exact length_readIndex_le content
          · exact Nat.zero_le _

theorem worthOfIndex_eq (h : es.length ≤ maxCacheEntries) (written : ℕ) :
    worthOfIndex es written = readIndex ((renderIndex 0 es).take written) := by
  rw [worthOfIndex]
  split
  · rename_i hall
    rw [List.take_of_length_le hall, readIndex_renderIndex h]
  · rfl

/-- One call. -/
theorem call_register (h : s.entries.length ≤ maxCacheEntries) (c : IconCall) :
    (s.call c).1.entries.length ≤ maxCacheEntries ∧
      (s.call c).1.register = (s.register.call c).1 ∧ (s.call c).2 = (s.register.call c).2 := by
  cases c with
  | needsUpdate appId url tick a =>
      refine ⟨?_, ?_, ?_⟩
      · simp only [IconCache.call, iconCacheNeedsUpdate, loadIndex_spec]
        exact length_load_le h a
      · simp only [IconCache.call, iconCacheNeedsUpdate, loadIndex_spec]
        rfl
      · simp only [IconCache.call, iconCacheNeedsUpdate, loadIndex_spec]
        rfl
  | record appId url tick a w =>
      have hle := length_recordEntry_le (length_load_le h a)
        ⟨appId, crc32Compute url, getCurrentDay tick⟩
      refine ⟨?_, ?_, rfl⟩
      · simp only [IconCache.call, iconCacheRecord, loadIndex_spec, saveIndex]
        split
        · exact hle
        · exact hle
      · simp only [IconCache.call, iconCacheRecord, loadIndex_spec, saveIndex, IconRegister.call,
          worthOfIndex_eq hle]
        split
        · rfl
        · rfl
  | clearAll a removed =>
      refine ⟨Nat.zero_le _, ?_, rfl⟩
      simp only [IconCache.call, iconCacheClearAll, loadIndex_spec, IconRegister.call]
      cases removed with
      | true => rfl
      | false => rfl
  | restart => exact ⟨Nat.zero_le _, rfl, rfl⟩

theorem answers_register (h : s.entries.length ≤ maxCacheEntries) (calls : List IconCall) :
    s.answers calls = s.register.answers calls := by
  induction calls generalizing s with
  | nil => rfl
  | cons c calls ih =>
      obtain ⟨hlength, hregister, hanswer⟩ := call_register h c
      rw [IconCache.answers, IconRegister.answers, hanswer, ih hlength, hregister]

/-- The cache answers what its register answers, also behind restarts and cut writes. -/
theorem icon_cache_answers (file : Option Text) (calls : List IconCall) :
    (⟨[], false, file⟩ : IconCache).answers calls =
      (⟨none, (file.map readIndex).getD []⟩ : IconRegister).answers calls :=
  answers_register (Nat.zero_le _) calls

/-! ## What fresh means -/

/-- An entry of which the day may have become earlier. -/
def NoLater (e f : CacheEntry) : Prop :=
  e.appId = f.appId ∧ e.urlHash = f.urlHash ∧ e.fetchDay.toNat ≤ f.fetchDay.toNat

theorem NoLater.trans {g : CacheEntry} (h : NoLater e f) (h' : NoLater f g) : NoLater e g :=
  ⟨h.1.trans h'.1, h.2.1.trans h'.2.1, Nat.le_trans h.2.2 h'.2.2⟩

/-- A clearing that takes the index away. -/
def IconCall.Clears (c : IconCall) : Prop := ∃ a, c = .clearAll a true

/-- The entry that a call records. -/
def IconCall.records : IconCall → Option CacheEntry
  | .record appId url tick _ _ => some ⟨appId, crc32Compute url, getCurrentDay tick⟩
  | _ => none

/-- The entries in memory and in the file. -/
def IconRegister.all (r : IconRegister) : List CacheEntry := r.held.getD [] ++ r.kept

theorem mem_all_of_load {a : IndexRead} (h : e ∈ r.load a) : e ∈ r.all := by
  rw [IconRegister.load] at h
  rw [IconRegister.all]
  cases hheld : r.held with
  | some entries =>
      rw [hheld] at h
      exact List.mem_append_left _ h
  | none =>
      rw [hheld, Option.getD_none] at h
      split at h
      · exact List.mem_append_right _ h
      · exact absurd h List.not_mem_nil

/-- Where an entry can come from. -/
theorem mem_all_call (h : s.entries.length ≤ maxCacheEntries)
    (he : e ∈ (s.call c).1.register.all) :
    (∃ f, c.records = some f ∧ NoLater e f) ∨
      ¬c.Clears ∧ ∃ f ∈ s.register.all, NoLater e f := by
  have hself : ∀ f : CacheEntry, NoLater f f := fun f => ⟨rfl, rfl, Nat.le_refl _⟩
  rw [(call_register h c).2.1] at he
  cases c with
  | needsUpdate appId url tick a =>
      refine Or.inr ⟨fun ⟨_, hc⟩ => IconCall.noConfusion hc, e, ?_, hself e⟩
      obtain he | he := List.mem_append.mp he
      · exact mem_all_of_load he
      · exact List.mem_append_right _ he
  | record appId url tick a w =>
      have hsplit : ∀ f ∈ recordEntry (s.register.load a) ⟨appId, crc32Compute url,
          getCurrentDay tick⟩, NoLater e f →
          (∃ f, (IconCall.record appId url tick a w).records = some f ∧ NoLater e f) ∨
            ¬(IconCall.record appId url tick a w).Clears ∧
              ∃ f ∈ s.register.all, NoLater e f := by
        intro f hf hle
        obtain rfl | hf := mem_recordEntry hf
        · exact Or.inl ⟨_, rfl, hle⟩
        · exact Or.inr ⟨fun ⟨_, hc⟩ => IconCall.noConfusion hc, f, mem_all_of_load hf, hle⟩
      obtain he | he := List.mem_append.mp he
      · exact hsplit e he (hself e)
      · change e ∈ (if w.opens then _ else _) at he
        split at he
        · have hroom := length_recordEntry_le (length_load_le h a)
            ⟨appId, crc32Compute url, getCurrentDay tick⟩
          rw [worthOfIndex_eq hroom] at he
          obtain ⟨f, hf, hle⟩ := mem_readIndex_cut hroom he
          exact hsplit f hf hle
        · exact Or.inr ⟨fun ⟨_, hc⟩ => IconCall.noConfusion hc, e, List.mem_append_right _ he,
            hself e⟩
  | clearAll a removed =>
      cases removed with
      | true => exact absurd he List.not_mem_nil
      | false =>
          refine Or.inr ⟨?_, e, List.mem_append_right _ he, hself e⟩
          rintro ⟨a', hc⟩
          obtain ⟨_, hfalse⟩ := IconCall.clearAll.inj hc
          exact absurd hfalse Bool.false_ne_true
  | restart =>
      exact Or.inr ⟨fun ⟨_, hc⟩ => IconCall.noConfusion hc, e, List.mem_append_right _ he, hself e⟩

/-- The entry was recorded, or stood in the first index, and was not cleared since. -/
def Recorded (first : List CacheEntry) (calls : List IconCall) (e : CacheEntry) : Prop :=
  (∃ f ∈ first, NoLater e f ∧ ∀ c ∈ calls, ¬c.Clears) ∨
    ∃ before c after f, calls = before ++ c :: after ∧ c.records = some f ∧ NoLater e f ∧
      ∀ c ∈ after, ¬c.Clears

theorem Recorded.snoc {first : List CacheEntry} {calls : List IconCall}
    (h : Recorded first calls f) (hc : ¬c.Clears) (hle : NoLater e f) :
    Recorded first (calls ++ [c]) e := by
  have hkeep : ∀ cs : List IconCall, (∀ d ∈ cs, ¬d.Clears) → ∀ d ∈ cs ++ [c], ¬d.Clears := by
    intro cs hcs d hd
    obtain hd | hd := List.mem_append.mp hd
    · exact hcs d hd
    · rwa [List.mem_singleton.mp hd]
  obtain ⟨g, hg, hfg, hcalls⟩ | ⟨before, d, after, g, rfl, hd, hfg, hafter⟩ := h
  · exact Or.inl ⟨g, hg, hle.trans hfg, hkeep calls hcalls⟩
  · refine Or.inr ⟨before, d, after ++ [c], g, ?_, hd, hle.trans hfg, hkeep after hafter⟩
    rw [List.append_assoc, List.cons_append]

theorem after_snoc (s : IconCache) (calls : List IconCall) (c : IconCall) :
    s.after (calls ++ [c]) = ((s.after calls).call c).1 := by
  rw [IconCache.after, List.foldl_append]
  rfl

/-- A run keeps the bound, and every entry was recorded. -/
theorem after_spec (file : Option Text) (calls : List IconCall) :
    ((⟨[], false, file⟩ : IconCache).after calls).entries.length ≤ maxCacheEntries ∧
      ∀ e ∈ ((⟨[], false, file⟩ : IconCache).after calls).register.all,
        Recorded ((file.map readIndex).getD []) calls e := by
  induction calls using List.reverseRecOn with
  | nil =>
      refine ⟨Nat.zero_le _, fun e he => Or.inl ⟨e, ?_, ⟨rfl, rfl, Nat.le_refl _⟩, ?_⟩⟩
      · exact he
      · intro c hc
        exact absurd hc List.not_mem_nil
  | append_singleton calls c ih =>
      obtain ⟨hlength, hall⟩ := ih
      rw [after_snoc]
      refine ⟨(call_register hlength c).1, fun e he => ?_⟩
      obtain ⟨f, hf, hle⟩ | ⟨hc, f, hf, hle⟩ := mem_all_call hlength he
      · exact Or.inr ⟨calls, c, [], f, rfl, hf, hle, fun _ hd => absurd hd List.not_mem_nil⟩
      · exact (hall f hf).snoc hc hle

/-- Art that is called fresh was recorded under a URL with this hash at most a week before, and
the cache was not cleared since. -/
theorem icon_cache_fresh (file : Option Text) (calls : List IconCall) (appId : Int32)
    {url : List UInt8} (tick : UInt64) (a : IndexRead) (hurl : url ≠ [])
    (h : (iconCacheNeedsUpdate ((⟨[], false, file⟩ : IconCache).after calls) appId url tick
      a).2 = false) :
    ∃ e, e.appId = appId ∧ e.urlHash = crc32Compute url ∧
      (getCurrentDay tick).toNat ≤ e.fetchDay.toNat + 7 ∧
        Recorded ((file.map readIndex).getD []) calls e := by
  simp only [iconCacheNeedsUpdate, loadIndex_spec] at h
  obtain ⟨e, he, hid, hhash, hage⟩ := needsUpdate_false hurl h
  exact ⟨e, hid, hhash, hage, (after_spec file calls).2 e (mem_all_of_load he)⟩

theorem icon_cache_fresh_next_day :
    ∃ e, e.appId = 7 ∧ e.urlHash = crc32Compute [104] ∧
      (getCurrentDay 90000000000).toNat ≤ e.fetchDay.toNat + 7 ∧
        Recorded ((none : Option Text).map readIndex |>.getD [])
          [.record 7 [104] 0 ⟨false, true⟩ ⟨false, 0⟩] e :=
  icon_cache_fresh none [.record 7 [104] 0 ⟨false, true⟩ ⟨false, 0⟩] 7 90000000000 ⟨true, false⟩
    (List.cons_ne_nil 104 []) (by decide +kernel)

/-! ## Changes of a URL -/

/-- The polynomial of the code. -/
abbrev crcPoly : BitVec 32 := 0xEDB88320

theorem toBitVec_crc32Round (crc : UInt32) :
    (crc32Round crc).toBitVec = shift crcPoly crc.toBitVec := by
  have hlow : crc &&& 1 ≠ 0 ↔ crc.toBitVec.getLsbD 0 = true := by
    rw [ne_eq, ← UInt32.toBitVec_inj, UInt32.toBitVec_and]
    change ¬crc.toBitVec &&& 1#32 = 0#32 ↔ _
    rw [BitVec.and_one_eq_setWidth_ofBool_getLsbD]
    cases crc.toBitVec.getLsbD 0 with
    | false => decide
    | true => decide
  rw [crc32Round, shift]
  split
  · rename_i hone
    rw [if_pos (hlow.mp hone)]
    rfl
  · rename_i hzero
    rw [if_neg (mt hlow.mpr hzero)]
    rfl

theorem toBitVec_crc32Byte (crc : UInt32) (byte : UInt8) :
    (crc32Byte crc byte).toBitVec = step crcPoly crc.toBitVec byte := by
  have hfold : ∀ (n : ℕ) (crc : UInt32),
      (Nat.fold n (fun _ _ crc => crc32Round crc) crc).toBitVec =
        (shift crcPoly)^[n] crc.toBitVec := by
    intro n crc
    induction n with
    | zero => rfl
    | succ n ih => rw [Nat.fold_succ, toBitVec_crc32Round, ih, Function.iterate_succ_apply']
  rw [crc32Byte, hfold, step, UInt32.toBitVec_xor, UInt8.toBitVec_toUInt32]

theorem toBitVec_foldl (crc : UInt32) (data : List UInt8) :
    (data.foldl crc32Byte crc).toBitVec = register crcPoly crc.toBitVec data := by
  induction data generalizing crc with
  | nil => rfl
  | cons b data ih =>
      rw [List.foldl_cons, ih, toBitVec_crc32Byte]
      rfl

/-- URLs that differ within four bytes have different hashes. -/
theorem crc32Compute_burst (front back : List UInt8) {bs cs : List UInt8}
    (hlength : bs.length = cs.length) (hfits : bs.length ≤ 4) :
    crc32Compute (front ++ bs ++ back) = crc32Compute (front ++ cs ++ back) ↔ bs = cs := by
  rw [crc32Compute, crc32Compute, UInt32.xor_left_inj, ← UInt32.toBitVec_inj, toBitVec_foldl,
    toBitVec_foldl]
  exact register_burst (by decide) front back hlength (by omega)

/-- An entry with another hash needs an update. -/
theorem needsUpdate_true (hurl : url ≠ [])
    (h : ∀ e, es.find? (fun e => e.appId = appId) = some e → e.urlHash ≠ crc32Compute url) :
    needsUpdate es appId url day = true := by
  rw [needsUpdate, if_neg hurl, findEntry, ← List.find?_eq_bind_findIdx?_getElem?]
  split
  · rfl
  · rename_i e he
    rw [Bool.or_eq_true]
    exact Or.inl (by simpa using h e he)

/-- The first entry that is found may be overwritten. -/
theorem find?_set {p : CacheEntry → Bool} {i : ℕ} (hp : p e = true)
    (h : es.findIdx? p = some i) : (es.set i e).find? p = some e := by
  induction es generalizing i with
  | nil => exact absurd h.symm (Option.some_ne_none i)
  | cons f es ih =>
      rw [List.findIdx?_cons] at h
      split at h
      · obtain rfl := Option.some.inj h
        rw [List.set_cons_zero, List.find?_cons_of_pos hp]
      · rename_i hf
        obtain ⟨j, hj, rfl⟩ := Option.map_eq_some_iff.mp h
        rw [List.set_cons_succ, List.find?_cons_of_neg hf, ih hj]

/-- An entry that is not looked for may be overwritten by such an entry. -/
theorem find?_set_of_neg {p : CacheEntry → Bool} {i : ℕ} (hp : p e = false)
    (h : ∀ f ∈ es[i]?, p f = false) : (es.set i e).find? p = es.find? p := by
  induction es generalizing i with
  | nil => rfl
  | cons f es ih =>
      cases i with
      | zero =>
          rw [List.set_cons_zero, List.find?_cons_of_neg (by simp [hp]),
            List.find?_cons_of_neg (by simp [h f rfl])]
      | succ i =>
          rw [List.set_cons_succ, List.find?_cons, List.find?_cons, ih h]

/-- What is found once an entry is recorded. -/
theorem find?_recordEntry (es : List CacheEntry) (e : CacheEntry) :
    ∀ f, (recordEntry es e).find? (fun f => f.appId = e.appId) = some f → f = e := by
  intro f hf
  rw [recordEntry] at hf
  split at hf
  · rename_i i hi
    rw [find?_set (by simp) hi] at hf
    exact (Option.some.inj hf).symm
  · rename_i hnone
    have hmissing : ∀ g ∈ es, ¬decide (g.appId = e.appId) = true := by
      intro g hg
      have hfalse := List.findIdx?_eq_none_iff.mp hnone g hg
      simpa using hfalse
    split at hf
    · rw [List.find?_append, List.find?_eq_none.mpr hmissing, Option.none_or,
        List.find?_cons_of_pos (by simp)] at hf
      exact (Option.some.inj hf).symm
    · rw [List.find?_eq_none.mpr hmissing] at hf
      exact absurd hf.symm (Option.some_ne_none f)

theorem find?_recordEntry_of_ne (hne : e.appId ≠ appId) :
    (recordEntry es e).find? (fun f => f.appId = appId) = es.find? (fun f => f.appId = appId) := by
  rw [recordEntry]
  split
  · rename_i i hi
    apply find?_set_of_neg
    · simpa using hne
    · intro f hf
      have hfound : (findEntry es e.appId).bind (es[·]?) = some f := by
        rw [hi, Option.bind_some]
        exact hf
      rw [(mem_of_findEntry hfound).2]
      simpa using hne
  · split
    · rw [List.find?_append]
      simp [hne]
    · rfl

/-- Nothing else than this hash is held for the application. -/
structure Holds (appId : Int32) (hash : UInt32) (s : IconCache) : Prop where
  loaded : s.loaded = true
  found : ∀ e, s.entries.find? (fun e => e.appId = appId) = some e → e.urlHash = hash

theorem holds_record (s : IconCache) (appId : Int32) (url : List UInt8) (tick : UInt64)
    (a : IndexRead) (w : IndexWrite) :
    Holds appId (crc32Compute url) (iconCacheRecord s appId url tick a w) := by
  have hfound : ∀ e, (recordEntry (loadIndex s a).entries
      ⟨appId, crc32Compute url, getCurrentDay tick⟩).find? (fun e => e.appId = appId) = some e →
        e.urlHash = crc32Compute url := by
    intro e he
    rw [find?_recordEntry _ ⟨appId, crc32Compute url, getCurrentDay tick⟩ e he]
  have hloaded : (loadIndex s a).loaded = true := by rw [loadIndex_spec]
  rw [iconCacheRecord, saveIndex]
  split
  · exact ⟨hloaded, hfound⟩
  · exact ⟨hloaded, hfound⟩

theorem Holds.call {hash : UInt32} (h : Holds appId hash s) (hrestart : c ≠ .restart)
    (hother : ∀ f, c.records = some f → f.appId ≠ appId) : Holds appId hash (s.call c).1 := by
  have hload : ∀ a, loadIndex s a = s := fun a => by rw [loadIndex, if_pos h.loaded]
  cases c with
  | needsUpdate appId' url tick a =>
      rw [IconCache.call, iconCacheNeedsUpdate, hload]
      exact h
  | record appId' url tick a w =>
      have hne := hother _ rfl
      have hfound : ∀ e, (recordEntry s.entries ⟨appId', crc32Compute url,
          getCurrentDay tick⟩).find? (fun e => e.appId = appId) = some e → e.urlHash = hash := by
        rw [find?_recordEntry_of_ne hne]
        exact h.found
      simp only [IconCache.call, iconCacheRecord, hload, saveIndex]
      split
      · exact ⟨h.loaded, hfound⟩
      · exact ⟨h.loaded, hfound⟩
  | clearAll a removed =>
      simp only [IconCache.call, iconCacheClearAll, hload]
      exact ⟨h.loaded, fun e he => absurd he.symm (Option.some_ne_none e)⟩
  | restart => exact absurd rfl hrestart

theorem Holds.after {hash : UInt32} (h : Holds appId hash s) {calls : List IconCall}
    (hcalls : ∀ c ∈ calls, c ≠ .restart ∧ ∀ f, c.records = some f → f.appId ≠ appId) :
    Holds appId hash (s.after calls) := by
  induction calls generalizing s with
  | nil => exact h
  | cons c calls ih =>
      obtain ⟨hrestart, hother⟩ := hcalls c List.mem_cons_self
      exact ih (h.call hrestart hother) fun d hd => hcalls d (List.mem_cons_of_mem c hd)

/-- A URL that differs from the recorded one within four bytes needs an update, whatever other
applications are looked up, recorded or cleared in between. -/
theorem icon_cache_sees_change (s : IconCache) (appId : Int32) (front back : List UInt8)
    {bs cs : List UInt8} (hlength : bs.length = cs.length) (hfits : bs.length ≤ 4)
    (hne : bs ≠ cs) (tick tick' : UInt64) (a a' : IndexRead) (w : IndexWrite)
    {calls : List IconCall}
    (hcalls : ∀ c ∈ calls, c ≠ .restart ∧ ∀ f, c.records = some f → f.appId ≠ appId) :
    (iconCacheNeedsUpdate ((iconCacheRecord s appId (front ++ bs ++ back) tick a w).after calls)
      appId (front ++ cs ++ back) tick' a').2 = true := by
  have hholds := (holds_record s appId (front ++ bs ++ back) tick a w).after hcalls
  have hurl : front ++ cs ++ back ≠ [] := by
    intro hnil
    obtain ⟨hnil, _⟩ := List.append_eq_nil_iff.mp hnil
    obtain ⟨_, rfl⟩ := List.append_eq_nil_iff.mp hnil
    exact hne (List.length_eq_zero_iff.mp hlength)
  rw [iconCacheNeedsUpdate, loadIndex, if_pos hholds.loaded]
  apply needsUpdate_true hurl
  intro e he
  rw [hholds.found e he]
  exact fun hhash => hne ((crc32Compute_burst front back hlength hfits).mp hhash)

theorem icon_cache_sees_change_letter :
    (iconCacheNeedsUpdate ((iconCacheRecord ⟨[], false, none⟩ 7 ([47] ++ [65] ++ [46]) 0
      ⟨false, true⟩ ⟨true, 100⟩).after [.clearAll ⟨false, true⟩ true]) 7 ([47] ++ [66] ++ [46]) 0
        ⟨false, true⟩).2 = true := by
  have hlength : ([65] : List UInt8).length = [66].length := rfl
  apply icon_cache_sees_change ⟨[], false, none⟩ 7 [47] [46] hlength (by decide) (by decide) 0 0
  intro c hc
  rw [List.mem_singleton.mp hc]
  exact ⟨IconCall.noConfusion, fun f hf => absurd hf.symm (Option.some_ne_none f)⟩

end MoonlightPsp.GameList
