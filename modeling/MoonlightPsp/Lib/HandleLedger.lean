import Mathlib.Logic.Function.Basic
import Mathlib.Tactic.Tauto
import MoonlightPsp.Lib.EventLog

/-!
# Handles and the ledger of their resources

A program keeps one variable for each kind of resource that it holds.  The system numbers
the resources and keeps a ledger of what it made and freed.  Resources of some kinds end by
themselves, as a thread does that deletes itself; their variable does not learn of it, and
what the program then asks for is refused.  The rules say what each of these does to the
variables and to the ledger.
-/

namespace HandleLedger

open EventLog

variable {κ : Type*}

/-- A resource, with the number that the system gave it. -/
structure Handle (κ : Type*) where
  kind : κ
  id : ℕ
deriving DecidableEq

/-- What the system is asked for, and what it does; a program that frees a kind it does not
hold misuses it. -/
inductive LedgerEvent (κ : Type*) where
  | made (h : Handle κ)
  | freed (h : Handle κ)
  | refused (h : Handle κ)
  | misused (kind : κ)
deriving DecidableEq

/-- The resource was made, and not freed. -/
def Live (log : List (LedgerEvent κ)) (h : Handle κ) : Prop :=
  .made h ∈ log ∧ .freed h ∉ log

instance [DecidableEq κ] (log : List (LedgerEvent κ)) (h : Handle κ) :
    Decidable (Live log h) :=
  inferInstanceAs (Decidable (_ ∧ _))

/-- Only live resources are freed, none is made twice, and only those that end by themselves
are refused. -/
def Lawful (ends : κ → Prop) (before : List (LedgerEvent κ)) : LedgerEvent κ → Prop
  | .made h => .made h ∉ before
  | .freed h => Live before h
  | .refused h => ends h.kind ∧ .made h ∈ before
  | .misused _ => False

/-- The variables, the resources that were live when their variable was given up, and the
ledger with the next number. -/
structure HandleTable (κ : Type*) where
  slots : κ → Option ℕ
  astray : List (Handle κ)
  log : List (LedgerEvent κ)
  next : ℕ

namespace HandleTable

/-- Nothing is held. -/
def empty : HandleTable κ := ⟨fun _ => none, [], [], 0⟩

variable [DecidableEq κ]

/-- A resource is made, and the variable names it. -/
def make (w : HandleTable κ) (k : κ) : HandleTable κ :=
  { w with
    slots := Function.update w.slots k (some w.next)
    astray := ((w.slots k).map (Handle.mk k)).toList ++ w.astray
    log := w.log ++ [.made ⟨k, w.next⟩]
    next := w.next + 1 }

/-- What the variable names is freed. -/
def free (w : HandleTable κ) (k : κ) : HandleTable κ :=
  match w.slots k with
  | none => { w with log := w.log ++ [.misused k] }
  | some id =>
      { w with
        slots := Function.update w.slots k none
        log := w.log ++ [.freed ⟨k, id⟩] }

/-- What the variable names is freed, if it names something. -/
def freeHeld (w : HandleTable κ) (k : κ) : HandleTable κ :=
  if (w.slots k).isSome then w.free k else w

/-- A resource ends by itself. -/
def expire (w : HandleTable κ) (h : Handle κ) : HandleTable κ :=
  if Live w.log h then { w with log := w.log ++ [.freed h] } else w

/-- What the variable names ends by itself. -/
def expireHeld (w : HandleTable κ) (k : κ) : HandleTable κ :=
  match w.slots k with
  | none => w
  | some id => w.expire ⟨k, id⟩

/-- The system refuses to free what the variable names, and the variable is given up; what
it named goes astray if it is live. -/
def discard (w : HandleTable κ) (k : κ) : HandleTable κ :=
  match w.slots k with
  | none => { w with log := w.log ++ [.misused k] }
  | some id =>
      { w with
        slots := Function.update w.slots k none
        astray := if Live w.log ⟨k, id⟩ then ⟨k, id⟩ :: w.astray else w.astray
        log := w.log ++ [.refused ⟨k, id⟩] }

/-- A variable names the resource. -/
def Names (w : HandleTable κ) (h : Handle κ) : Prop := w.slots h.kind = some h.id

/-- The variable names a resource. -/
def Has (w : HandleTable κ) (k : κ) : Prop := (w.slots k).isSome = true

instance (w : HandleTable κ) (k : κ) : Decidable (w.Has k) := decEq _ _

/-- The ledger is lawful; a live resource is named by its variable or went astray; what a
variable names is live, unless it is of a kind that ends by itself; and only such kinds go
astray. -/
structure Sound (ends : κ → Prop) (w : HandleTable κ) : Prop where
  lawful : Always (Lawful ends) w.log
  live : ∀ h, Live w.log h → w.Names h ∨ h ∈ w.astray
  made : ∀ h, w.Names h → .made h ∈ w.log
  held : ∀ h, w.Names h → ¬ends h.kind → Live w.log h
  apart : ∀ h ∈ w.astray, ¬ w.Names h
  strays : ∀ h ∈ w.astray, ends h.kind ∧ .made h ∈ w.log
  fresh : ∀ h, .made h ∈ w.log → h.id < w.next

variable {ends : κ → Prop} {w : HandleTable κ} {k k' : κ}

omit [DecidableEq κ] in
theorem sound_empty : Sound ends (empty : HandleTable κ) where
  lawful := always_nil
  live := fun _ hlive => absurd hlive.1 List.not_mem_nil
  made := fun _ hnames => absurd hnames.symm (Option.some_ne_none _)
  held := fun _ hnames => absurd hnames.symm (Option.some_ne_none _)
  apart := fun _ hmem => absurd hmem List.not_mem_nil
  strays := fun _ hmem => absurd hmem List.not_mem_nil
  fresh := fun _ hmem => absurd hmem List.not_mem_nil

theorem slots_make : (w.make k).slots = Function.update w.slots k (some w.next) := rfl

theorem has_make : (w.make k).Has k' ↔ k' = k ∨ w.Has k' := by
  rw [Has, slots_make]
  by_cases hk : k' = k
  · simp [hk]
  · simp [hk, Has]

theorem slots_free : (w.free k).slots = Function.update w.slots k none := by
  rw [free]
  split
  · rename_i hnone
    exact (Function.update_eq_self_iff.mpr hnone.symm).symm
  · rfl

theorem slots_discard : (w.discard k).slots = Function.update w.slots k none := by
  rw [discard]
  split
  · rename_i hnone
    exact (Function.update_eq_self_iff.mpr hnone.symm).symm
  · rfl

theorem has_of_slots {t : HandleTable κ} (h : t.slots = Function.update w.slots k none) :
    t.Has k' ↔ k' ≠ k ∧ w.Has k' := by
  rw [Has, h]
  by_cases hk : k' = k
  · simp [hk]
  · simp [hk, Has]

theorem has_free : (w.free k).Has k' ↔ k' ≠ k ∧ w.Has k' := has_of_slots slots_free

theorem has_discard : (w.discard k).Has k' ↔ k' ≠ k ∧ w.Has k' := has_of_slots slots_discard

theorem has_freeHeld : (w.freeHeld k).Has k' ↔ k' ≠ k ∧ w.Has k' := by
  rw [freeHeld]
  split
  · exact has_free
  · rename_i hno
    constructor
    · intro h
      refine ⟨?_, h⟩
      rintro rfl
      exact hno h
    · exact fun h => h.2

theorem astray_make (h : ¬ w.Has k) : (w.make k).astray = w.astray := by
  have hnone : w.slots k = none := Option.not_isSome_iff_eq_none.mp h
  simp [make, hnone]

theorem astray_free : (w.free k).astray = w.astray := by
  rw [free]
  split
  · rfl
  · rfl

theorem astray_freeHeld : (w.freeHeld k).astray = w.astray := by
  rw [freeHeld]
  split
  · exact astray_free
  · rfl

/-- What ends by itself changes neither the variables nor what went astray. -/
theorem expire_table (h : Handle κ) :
    (w.expire h).slots = w.slots ∧ (w.expire h).astray = w.astray := by
  rw [expire]
  split
  · exact ⟨rfl, rfl⟩
  · exact ⟨rfl, rfl⟩

theorem expireHeld_table (k : κ) :
    (w.expireHeld k).slots = w.slots ∧ (w.expireHeld k).astray = w.astray := by
  rw [expireHeld]
  split
  · exact ⟨rfl, rfl⟩
  · exact expire_table _

/-- Then it is not live any more. -/
theorem not_live_expire (h : Handle κ) : ¬ Live (w.expire h).log h := by
  rw [expire]
  split
  · exact fun hlive => hlive.2 (List.mem_append_right _ (List.mem_singleton_self _))
  · assumption

/-- A variable that is given up names nothing, the others what they did. -/
theorem names_of_slots {t : HandleTable κ} (h : t.slots = Function.update w.slots k none)
    {r : Handle κ} : t.Names r ↔ r.kind ≠ k ∧ w.Names r := by
  rw [Names, h]
  by_cases hk : r.kind = k
  · simp [hk]
  · simp [hk, Names]

theorem names_make {h : Handle κ} :
    (w.make k).Names h ↔ h = ⟨k, w.next⟩ ∨ h.kind ≠ k ∧ w.Names h := by
  obtain ⟨kind, id⟩ := h
  rw [Names, slots_make]
  by_cases hk : kind = k
  · simp [hk, eq_comm]
  · simp [hk, Names]

omit [DecidableEq κ] in
theorem live_freed {log : List (LedgerEvent κ)} {h r : Handle κ} :
    Live (log ++ [.freed h]) r ↔ r ≠ h ∧ Live log r := by
  rw [Live, Live]
  simp only [List.mem_append, List.mem_singleton, reduceCtorEq, or_false,
    LedgerEvent.freed.injEq]
  tauto

omit [DecidableEq κ] in
theorem live_refused {log : List (LedgerEvent κ)} {h r : Handle κ} :
    Live (log ++ [.refused h]) r ↔ Live log r := by
  simp [Live]

omit [DecidableEq κ] in
/-- What was not made was not freed. -/
theorem Sound.not_freed (hs : Sound ends w) {h : Handle κ} (hnew : .made h ∉ w.log) :
    .freed h ∉ w.log := by
  intro hmem
  obtain ⟨before, after, hlog⟩ := List.append_of_mem hmem
  have hmade := (hs.lawful before _ after hlog).1
  exact hnew (hlog ▸ List.mem_append_left _ hmade)

omit [DecidableEq κ] in
theorem Sound.not_made_next (hs : Sound ends w) : .made ⟨k, w.next⟩ ∉ w.log :=
  fun hmem => Nat.lt_irrefl _ (hs.fresh _ hmem)

/-- What was just made is live. -/
theorem Sound.live_make (hs : Sound ends w) (k : κ) :
    Live (w.make k).log ⟨k, w.next⟩ := by
  refine ⟨List.mem_append_right _ (List.mem_singleton_self _), fun hmem => ?_⟩
  rcases List.mem_append.mp hmem with hold | hnew
  · exact hs.not_freed hs.not_made_next hold
  · exact absurd (List.mem_singleton.mp hnew) (by simp)

theorem Sound.make (h : Sound ends w) (hk : ¬ w.Has k) : Sound ends (w.make k) := by
  have hnone : w.slots k = none := Option.not_isSome_iff_eq_none.mp hk
  have hnew : .made ⟨k, w.next⟩ ∉ w.log := h.not_made_next
  have hlive : ∀ r, Live (w.make k).log r ↔ r = ⟨k, w.next⟩ ∨ Live w.log r := by
    intro r
    have hunfreed := h.not_freed hnew
    rw [Live, Live]
    by_cases hr : r = ⟨k, w.next⟩
    · simp [HandleTable.make, hr, hunfreed]
    · simp [HandleTable.make, hr]
  have hnames : ∀ r, (w.make k).Names r ↔ r = ⟨k, w.next⟩ ∨ w.Names r := by
    intro r
    rw [names_make]
    refine or_congr_right (and_iff_right_of_imp ?_)
    rintro hr rfl
    exact absurd (hr.symm.trans hnone) (Option.some_ne_none _)
  have hastray := astray_make hk
  refine ⟨h.lawful.snoc hnew, ?_, ?_, ?_, ?_, ?_, ?_⟩
  · intro r hr
    rw [hnames, hastray]
    rcases (hlive r).mp hr with hlast | hold
    · exact .inl (.inl hlast)
    · exact (h.live r hold).imp_left .inr
  · intro r hr
    rcases (hnames r).mp hr with rfl | hold
    · exact ((hlive _).mpr (.inl rfl)).1
    · exact List.mem_append_left _ (h.made r hold)
  · intro r hr hown
    rcases (hnames r).mp hr with hlast | hold
    · exact (hlive r).mpr (.inl hlast)
    · exact (hlive r).mpr (.inr (h.held r hold hown))
  · intro r hr
    rw [hastray] at hr
    rw [hnames]
    rintro (rfl | hold)
    · exact hnew (h.strays _ hr).2
    · exact h.apart r hr hold
  · intro r hr
    rw [hastray] at hr
    exact ⟨(h.strays r hr).1, List.mem_append_left _ (h.strays r hr).2⟩
  · intro r hr
    rcases List.mem_append.mp hr with hold | hlast
    · exact Nat.lt_succ_of_lt (h.fresh r hold)
    · obtain rfl := LedgerEvent.made.inj (List.mem_singleton.mp hlast)
      exact Nat.lt_succ_self _

omit [DecidableEq κ] in
/-- The ledger goes on with something that is not made. -/
theorem made_snoc {log : List (LedgerEvent κ)} {e : LedgerEvent κ} {h : Handle κ}
    (he : ∀ r, e ≠ .made r) : .made h ∈ log ++ [e] ↔ .made h ∈ log := by
  rw [List.mem_append, List.mem_singleton]
  exact or_iff_left fun hlast => he h hlast.symm

theorem Sound.free (h : Sound ends w) {id : ℕ} (hid : w.slots k = some id)
    (hlive : Live w.log ⟨k, id⟩) : Sound ends (w.free k) := by
  have hnames : ∀ r, (w.free k).Names r ↔ r.kind ≠ k ∧ w.Names r :=
    fun r => names_of_slots slots_free
  have hfree : w.free k = { w with
      slots := Function.update w.slots k none
      log := w.log ++ [.freed ⟨k, id⟩] } := by
    rw [HandleTable.free, hid]
  have hmade : ∀ r, .made r ∈ w.log ++ [.freed ⟨k, id⟩] ↔ .made r ∈ w.log :=
    fun r => made_snoc (by simp)
  rw [hfree] at hnames ⊢
  refine ⟨h.lawful.snoc hlive, ?_, ?_, ?_, ?_, ?_, ?_⟩
  · intro r hr
    obtain ⟨hne, hold⟩ := live_freed.mp hr
    rw [hnames]
    refine (h.live r hold).imp_left fun hnamed => ⟨?_, hnamed⟩
    rintro rfl
    refine hne ?_
    rw [Names, hid, Option.some.injEq] at hnamed
    rw [hnamed]
  · intro r hr
    exact (hmade r).mpr (h.made r ((hnames r).mp hr).2)
  · intro r hr hown
    obtain ⟨hk, hold⟩ := (hnames r).mp hr
    refine live_freed.mpr ⟨?_, h.held r hold hown⟩
    rintro rfl
    exact hk rfl
  · intro r hr
    rw [hnames]
    exact fun hno => h.apart r hr hno.2
  · intro r hr
    exact ⟨(h.strays r hr).1, (hmade r).mpr (h.strays r hr).2⟩
  · intro r hr
    exact h.fresh r ((hmade r).mp hr)

theorem Sound.freeOwn (h : Sound ends w) (hown : ¬ends k) (hk : w.Has k) :
    Sound ends (w.free k) := by
  obtain ⟨id, hid⟩ := Option.isSome_iff_exists.mp hk
  exact h.free hid (h.held ⟨k, id⟩ hid hown)

theorem Sound.freeHeld (h : Sound ends w) (hown : ¬ends k) : Sound ends (w.freeHeld k) := by
  rw [HandleTable.freeHeld]
  split
  · rename_i hk
    exact h.freeOwn hown hk
  · exact h

theorem Sound.expire (h : Sound ends w) {r : Handle κ} (hends : ends r.kind) :
    Sound ends (w.expire r) := by
  rw [HandleTable.expire]
  split
  · rename_i hlive
    have hmade : ∀ t, .made t ∈ w.log ++ [.freed r] ↔ .made t ∈ w.log :=
      fun t => made_snoc (by simp)
    refine ⟨h.lawful.snoc hlive, ?_, ?_, ?_, h.apart, ?_, ?_⟩
    · exact fun t ht => h.live t (live_freed.mp ht).2
    · exact fun t ht => (hmade t).mpr (h.made t ht)
    · intro t ht hown
      refine live_freed.mpr ⟨?_, h.held t ht hown⟩
      rintro rfl
      exact hown hends
    · exact fun t ht => ⟨(h.strays t ht).1, (hmade t).mpr (h.strays t ht).2⟩
    · exact fun t ht => h.fresh t ((hmade t).mp ht)
  · exact h

theorem Sound.expireHeld (h : Sound ends w) (hends : ends k) :
    Sound ends (w.expireHeld k) := by
  rw [HandleTable.expireHeld]
  split
  · exact h
  · exact h.expire hends

theorem Sound.discard (h : Sound ends w) (hends : ends k) (hk : w.Has k) :
    Sound ends (w.discard k) := by
  obtain ⟨id, hid⟩ := Option.isSome_iff_exists.mp hk
  have hnames : ∀ r, (w.discard k).Names r ↔ r.kind ≠ k ∧ w.Names r :=
    fun r => names_of_slots slots_discard
  have hdiscard : w.discard k = { w with
      slots := Function.update w.slots k none
      astray := if Live w.log ⟨k, id⟩ then ⟨k, id⟩ :: w.astray else w.astray
      log := w.log ++ [.refused ⟨k, id⟩] } := by
    rw [HandleTable.discard, hid]
  have hastray : ∀ r, r ∈ (w.discard k).astray ↔
      r = ⟨k, id⟩ ∧ Live w.log ⟨k, id⟩ ∨ r ∈ w.astray := by
    intro r
    rw [hdiscard]
    dsimp only
    split
    · rename_i hlive
      rw [List.mem_cons, and_iff_left hlive]
    · rename_i hdead
      exact (or_iff_right fun hno => hdead hno.2).symm
  have hmade : ∀ r, .made r ∈ w.log ++ [.refused ⟨k, id⟩] ↔ .made r ∈ w.log :=
    fun r => made_snoc (by simp)
  have hlog : (w.discard k).log = w.log ++ [.refused ⟨k, id⟩] := by rw [hdiscard]
  refine ⟨?_, ?_, ?_, ?_, ?_, ?_, ?_⟩
  · rw [hlog]
    exact h.lawful.snoc ⟨hends, h.made ⟨k, id⟩ hid⟩
  · intro r hr
    rw [hlog, live_refused] at hr
    rw [hnames, hastray]
    rcases h.live r hr with hnamed | hold
    · by_cases hkind : r.kind = k
      · refine .inr (.inl ?_)
        obtain ⟨kind, number⟩ := r
        obtain rfl : kind = k := hkind
        obtain rfl : id = number := Option.some.inj (hid.symm.trans hnamed)
        exact ⟨rfl, hr⟩
      · exact .inl ⟨hkind, hnamed⟩
    · exact .inr (.inr hold)
  · intro r hr
    rw [hlog, hmade]
    exact h.made r ((hnames r).mp hr).2
  · intro r hr hown
    rw [hlog, live_refused]
    exact h.held r ((hnames r).mp hr).2 hown
  · intro r hr hno
    obtain ⟨hkind, hnamed⟩ := (hnames r).mp hno
    rcases (hastray r).mp hr with ⟨rfl, -⟩ | hold
    · exact hkind rfl
    · exact h.apart r hold hnamed
  · intro r hr
    rw [hlog, hmade]
    rcases (hastray r).mp hr with ⟨rfl, hlive⟩ | hold
    · exact ⟨hends, hlive.1⟩
    · exact h.strays r hold
  · intro r hr
    rw [hlog, hmade] at hr
    rw [hdiscard]
    exact h.fresh r hr

/-! ## Which kinds are held -/

/-- The program holds these kinds, and gave these resources up while they were live. -/
structure Keeps (ends : κ → Prop) (w : HandleTable κ) (lost : List (Handle κ))
    (kinds : List κ) : Prop where
  sound : Sound ends w
  astray : w.astray = lost
  has : ∀ k, w.Has k ↔ k ∈ kinds

variable {lost : List (Handle κ)} {kinds : List κ}

theorem Keeps.make (h : Keeps ends w lost kinds) (hk : k ∉ kinds) :
    Keeps ends (w.make k) lost (k :: kinds) where
  sound := h.sound.make fun hhas => hk ((h.has k).mp hhas)
  astray := by
    rw [astray_make fun hhas => hk ((h.has k).mp hhas)]
    exact h.astray
  has := by
    intro k'
    rw [has_make, h.has, List.mem_cons]

theorem has_filter (h : Keeps ends w lost kinds) {t : HandleTable κ}
    (ht : ∀ k', t.Has k' ↔ k' ≠ k ∧ w.Has k') (k' : κ) :
    t.Has k' ↔ k' ∈ kinds.filter (· ≠ k) := by
  rw [ht, h.has, List.mem_filter, decide_eq_true_eq, and_comm]

theorem Keeps.free (h : Keeps ends w lost kinds) (hown : ¬ends k) (hk : k ∈ kinds) :
    Keeps ends (w.free k) lost (kinds.filter (· ≠ k)) where
  sound := h.sound.freeOwn hown ((h.has k).mpr hk)
  astray := astray_free.trans h.astray
  has := has_filter h fun _ => has_free

/-- What was just made can be freed. -/
theorem Keeps.freeMade (h : Keeps ends w lost kinds) (hk : k ∉ kinds) :
    Keeps ends ((w.make k).free k) lost kinds where
  sound := (h.make hk).sound.free (Function.update_self ..) (h.sound.live_make k)
  astray := astray_free.trans (h.make hk).astray
  has := by
    intro k'
    rw [has_free, has_make, h.has]
    constructor
    · rintro ⟨hne, hnew | hold⟩
      · exact absurd hnew hne
      · exact hold
    · intro hmem
      refine ⟨?_, .inr hmem⟩
      rintro rfl
      exact hk hmem

theorem Keeps.freeHeld (h : Keeps ends w lost kinds) (hown : ¬ends k) :
    Keeps ends (w.freeHeld k) lost (kinds.filter (· ≠ k)) where
  sound := h.sound.freeHeld hown
  astray := astray_freeHeld.trans h.astray
  has := has_filter h fun _ => has_freeHeld

theorem Keeps.expireHeld (h : Keeps ends w lost kinds) (hends : ends k) :
    Keeps ends (w.expireHeld k) lost kinds where
  sound := h.sound.expireHeld hends
  astray := (expireHeld_table k).2.trans h.astray
  has := by
    intro k'
    rw [Has, (expireHeld_table k).1]
    exact h.has k'

/-- What is given up goes astray if it is live. -/
theorem Keeps.discard (h : Keeps ends w lost kinds) (hends : ends k) (hk : k ∈ kinds) :
    ∃ lost', Keeps ends (w.discard k) lost' (kinds.filter (· ≠ k)) ∧
      (lost' = lost ∨ ∃ id, w.slots k = some id ∧ Live w.log ⟨k, id⟩ ∧
        lost' = ⟨k, id⟩ :: lost) := by
  have hhas := (h.has k).mpr hk
  obtain ⟨id, hid⟩ := Option.isSome_iff_exists.mp hhas
  refine ⟨_, ⟨h.sound.discard hends hhas, rfl, has_filter h fun _ => has_discard⟩, ?_⟩
  rw [HandleTable.discard, hid, h.astray]
  dsimp only
  split
  · rename_i hlive
    exact .inr ⟨id, rfl, hlive, rfl⟩
  · exact .inl rfl

omit [DecidableEq κ] in
theorem Keeps.congr (h : Keeps ends w lost kinds) {kinds' : List κ}
    (hkinds : ∀ k, k ∈ kinds ↔ k ∈ kinds') : Keeps ends w lost kinds' :=
  ⟨h.sound, h.astray, fun k => (h.has k).trans (hkinds k)⟩

end HandleTable

end HandleLedger
