import Mathlib.Data.Nat.Notation
import Mathlib.Data.List.Basic
import Mathlib.Tactic.Common

/-!
# Parsers with a sticky error flag

A read beyond the end sets a flag and goes on with zeros, and the flag is looked
at once behind many reads.  A parser *parses* a grammar if, up to that flag, it
takes off the input exactly the words of the grammar.  Grammars are composed as
the parsers are.
-/

namespace StickyParser

/-- A state to read from: what is left of the input, whether a read has failed,
and the state behind some symbols. -/
class Source (σ : Type) (β : outParam Type) where
  rest : σ → List β
  failed : σ → Bool
  skip : ℕ → σ → σ
  rest_skip : ∀ n s, rest (skip n s) = (rest s).drop n
  skip_zero : ∀ s, skip 0 s = s
  skip_skip : ∀ m n s, skip n (skip m s) = skip (m + n) s

open Source

variable {σ β ε α γ : Type} [Source σ β]

/-- The words of a grammar with the value each one stands for. -/
abbrev Grammar (α β : Type) := α → List β → Prop

/-- A parser takes a word of the grammar off the input if there is one, and else
throws or sets the flag. -/
def Parses (p : StateT σ (Except ε) α) (G : Grammar α β) : Prop :=
  ∀ s a s', p s = .ok (a, s') ∧ failed s' = false ↔
    failed s = false ∧ ∃ cs, G a cs ∧ cs <+: rest s ∧ s' = skip cs.length s

/-- One word behind another. -/
def Grammar.andThen (G : Grammar α β) (F : α → Grammar γ β) : Grammar γ β :=
  fun c cs => ∃ a as bs, G a as ∧ F a c bs ∧ cs = as ++ bs

/-- Throw if a condition holds. -/
def rejectIf (c : Prop) [Decidable c] (e : ε) : StateT σ (Except ε) Unit :=
  if c then throw e else pure ()

/-- Throw if a read has failed. -/
def rejectFailed (e : ε) : StateT σ (Except ε) Unit :=
  fun s => if failed s then .error e else .ok ((), s)

/-- Go on only if no read has failed. -/
def unlessFailed (a : α) (p : StateT σ (Except ε) α) : StateT σ (Except ε) α :=
  fun s => if failed s then .ok (a, s) else p s

/-- Run a parser a number of times for its effect. -/
def skipMany (p : StateT σ (Except ε) α) : ℕ → StateT σ (Except ε) Unit
  | 0 => pure ()
  | n + 1 => do
      let _ ← p
      skipMany p n

variable {p : StateT σ (Except ε) α} {f : α → StateT σ (Except ε) γ}
  {G G' : Grammar α β} {F : α → Grammar γ β}

theorem Parses.congr (h : Parses p G) (hG : ∀ a cs, G a cs ↔ G' a cs) :
    Parses p G' := by
  intro s a s'
  rw [h s a s']
  simp only [hG]

theorem Parses.pure (a : α) :
    Parses (σ := σ) (β := β) (ε := ε) (Pure.pure a) fun a' cs => a' = a ∧ cs = [] := by
  intro s a' s'
  constructor
  · rintro ⟨hok, hfailed⟩
    cases hok
    exact ⟨hfailed, [], ⟨rfl, rfl⟩, List.nil_prefix, (skip_zero s).symm⟩
  · rintro ⟨hfailed, cs, ⟨rfl, rfl⟩, -, rfl⟩
    rw [List.length_nil, skip_zero]
    exact ⟨rfl, hfailed⟩

theorem Parses.throw (e : ε) :
    Parses (throw e : StateT σ (Except ε) α) fun _ _ => False := by
  intro s a s'
  constructor
  · rintro ⟨hok, -⟩
    cases hok
  · rintro ⟨-, cs, hfalse, -⟩
    exact hfalse.elim

theorem bind_ok {s s'' : σ} {c : γ} : (p >>= f) s = .ok (c, s'') ↔
    ∃ a s', p s = .ok (a, s') ∧ f a s' = .ok (c, s'') := by
  show (p s >>= fun r => f r.1 r.2) = _ ↔ _
  cases hp : p s with
  | error e => simp [Bind.bind, Except.bind]
  | ok r =>
      constructor
      · intro hf
        exact ⟨r.1, r.2, rfl, hf⟩
      · rintro ⟨a, s', hr, hf⟩
        cases hr
        exact hf

theorem Parses.bind (hp : Parses p G) (hf : ∀ a, Parses (f a) (F a)) :
    Parses (p >>= f) (G.andThen F) := by
  intro s c s''
  constructor
  · rintro ⟨hok, hfailed⟩
    obtain ⟨a, s', hps, hfs⟩ := bind_ok.mp hok
    obtain ⟨hfailed', bs, hF, hbs, rfl⟩ := (hf a s' c s'').mp ⟨hfs, hfailed⟩
    obtain ⟨hfailed'', as, hG, has, rfl⟩ := (hp s a s').mp ⟨hps, hfailed'⟩
    refine ⟨hfailed'', as ++ bs, ⟨a, as, bs, hG, hF, rfl⟩, ?_, ?_⟩
    · obtain ⟨ts, hts⟩ := has
      rw [rest_skip, ← hts, List.drop_left] at hbs
      rw [← hts]
      exact (List.prefix_append_right_inj as).mpr hbs
    · rw [skip_skip, List.length_append]
  · rintro ⟨hfailed, cs, ⟨a, as, bs, hG, hF, rfl⟩, hcs, rfl⟩
    have has : as <+: rest s := (List.prefix_append as bs).trans hcs
    have hbs : bs <+: rest (skip as.length s) := by
      obtain ⟨ts, hts⟩ := hcs
      rw [rest_skip, ← hts, List.append_assoc, List.drop_left]
      exact List.prefix_append bs ts
    obtain ⟨hps, hfailed'⟩ := (hp s a _).mpr ⟨hfailed, as, hG, has, rfl⟩
    obtain ⟨hfs, hfailed''⟩ := (hf a _ c _).mpr ⟨hfailed', bs, hF, hbs, rfl⟩
    rw [skip_skip, ← List.length_append] at hfs hfailed''
    exact ⟨bind_ok.mpr ⟨a, _, hps, hfs⟩, hfailed''⟩

/-- A parser that stops at some of the values. -/
theorem Parses.ite {c : Prop} [Decidable c] {q : StateT σ (Except ε) α}
    (hp : Parses p G) (hq : Parses q G') :
    Parses (if c then p else q) fun a cs => if c then G a cs else G' a cs := by
  by_cases hc : c
  · simpa only [if_pos hc] using hp
  · simpa only [if_neg hc] using hq

theorem parses_rejectIf (c : Prop) [Decidable c] (e : ε) :
    Parses (rejectIf c e : StateT σ (Except ε) Unit)
      fun _ cs => ¬ c ∧ cs = [] := by
  refine ((Parses.throw e).ite (Parses.pure ())).congr fun _ cs => ?_
  by_cases hc : c <;> simp [hc]

theorem parses_rejectFailed (e : ε) :
    Parses (rejectFailed e : StateT σ (Except ε) Unit) fun _ cs => cs = [] := by
  intro s a s'
  constructor
  · rintro ⟨hok, hfailed⟩
    by_cases hs : failed s = true
    · rw [rejectFailed, if_pos hs] at hok
      cases hok
    · rw [rejectFailed, if_neg hs] at hok
      cases hok
      exact ⟨hfailed, [], rfl, List.nil_prefix, (skip_zero s).symm⟩
  · rintro ⟨hfailed, cs, rfl, -, rfl⟩
    rw [List.length_nil, skip_zero, rejectFailed, hfailed]
    exact ⟨rfl, rfl⟩

theorem Parses.unlessFailed (hp : Parses p G) (a : α) :
    Parses (unlessFailed a p) G := by
  intro s a' s'
  by_cases hs : failed s = true
  · rw [StickyParser.unlessFailed, if_pos hs]
    constructor
    · rintro ⟨hok, hfailed⟩
      cases hok
      rw [hs] at hfailed
      cases hfailed
    · rintro ⟨hfailed, -⟩
      rw [hs] at hfailed
      cases hfailed
  · rw [StickyParser.unlessFailed, if_neg hs]
    exact hp s a' s'

theorem parses_skipMany {ok : α → Prop} {code : α → List β}
    (hp : Parses p fun a cs => ok a ∧ cs = code a) (n : ℕ) :
    Parses (skipMany p n) fun _ cs => ∃ as : List α,
      as.length = n ∧ (∀ a ∈ as, ok a) ∧ cs = as.flatMap code := by
  induction n with
  | zero =>
      refine (Parses.pure ()).congr fun _ cs => ?_
      constructor
      · rintro ⟨-, rfl⟩
        exact ⟨[], rfl, by simp, rfl⟩
      · rintro ⟨as, hlen, -, rfl⟩
        rw [List.length_eq_zero_iff.mp hlen]
        exact ⟨rfl, rfl⟩
  | succ n ih =>
      refine (hp.bind fun _ => ih).congr fun _ cs => ?_
      constructor
      · rintro ⟨a, -, -, ⟨ha, rfl⟩, ⟨as, hlen, has, rfl⟩, rfl⟩
        refine ⟨a :: as, by rw [List.length_cons, hlen], ?_, rfl⟩
        exact List.forall_mem_cons.mpr ⟨ha, has⟩
      · rintro ⟨as, hlen, has, rfl⟩
        cases as with
        | nil => simp at hlen
        | cons a as =>
            obtain ⟨ha, has⟩ := List.forall_mem_cons.mp has
            exact ⟨a, code a, as.flatMap code, ⟨ha, rfl⟩,
              ⟨as, by simpa using hlen, has, rfl⟩, rfl⟩

/-! ## Where the flag is looked at -/

/-- A parser that returns only if no read has failed. -/
def Checked (p : StateT σ (Except ε) α) : Prop :=
  ∀ s a s', p s = .ok (a, s') → failed s' = false

/-- A parser that reads nothing. -/
def Still (p : StateT σ (Except ε) α) : Prop :=
  ∀ s a s', p s = .ok (a, s') → s' = s

omit [Source σ β] in
theorem still_pure (a : α) : Still (pure a : StateT σ (Except ε) α) := by
  rintro s a' s' ⟨⟩
  rfl

omit [Source σ β] in
theorem still_rejectIf (c : Prop) [Decidable c] (e : ε) :
    Still (rejectIf c e : StateT σ (Except ε) Unit) := by
  intro s a s' h
  unfold rejectIf at h
  split at h
  · cases h
  · cases h
    rfl

omit [Source σ β] in
theorem Still.bind (hp : Still p) (hf : ∀ a, Still (f a)) : Still (p >>= f) := by
  intro s c s'' h
  obtain ⟨a, s', hps, hfs⟩ := bind_ok.mp h
  rw [hf a _ _ _ hfs, hp _ _ _ hps]

theorem checked_rejectFailed (e : ε) :
    Checked (rejectFailed e : StateT σ (Except ε) Unit) := by
  intro s a s' h
  unfold rejectFailed at h
  split at h
  · cases h
  · rename_i hs
    cases h
    exact Bool.eq_false_iff.mpr hs

theorem Checked.bind (hf : ∀ a, Checked (f a)) : Checked (p >>= f) := by
  intro s c s'' h
  obtain ⟨a, s', -, hfs⟩ := bind_ok.mp h
  exact hf a _ _ _ hfs

theorem Checked.bind_still (hp : Checked p) (hf : ∀ a, Still (f a)) :
    Checked (p >>= f) := by
  intro s c s'' h
  obtain ⟨a, s', hps, hfs⟩ := bind_ok.mp h
  rw [hf a _ _ _ hfs]
  exact hp _ _ _ hps

/-! ## What is thrown -/

/-- The errors that a parser throws. -/
def OnlyThrows (P : ε → Prop) (p : StateT σ (Except ε) α) : Prop :=
  ∀ s e, p s = .error e → P e

variable {P : ε → Prop}

omit [Source σ β] in
theorem onlyThrows_pure (a : α) :
    OnlyThrows P (pure a : StateT σ (Except ε) α) := by
  rintro s e ⟨⟩

omit [Source σ β] in
theorem onlyThrows_rejectIf {c : Prop} [Decidable c] {e : ε} (he : P e) :
    OnlyThrows P (rejectIf c e : StateT σ (Except ε) Unit) := by
  intro s e' h
  unfold rejectIf at h
  split at h
  · cases h
    exact he
  · cases h

theorem OnlyThrows.unlessFailed (hp : OnlyThrows P p) (a : α) :
    OnlyThrows P (unlessFailed a p) := by
  intro s e h
  unfold StickyParser.unlessFailed at h
  split at h
  · cases h
  · exact hp s e h

omit [Source σ β] in
theorem OnlyThrows.bind (hp : OnlyThrows P p) (hf : ∀ a, OnlyThrows P (f a)) :
    OnlyThrows P (p >>= f) := by
  intro s e h
  change (p s >>= fun r => f r.1 r.2) = _ at h
  cases hps : p s with
  | error e' =>
      rw [hps] at h
      cases h
      exact hp s e hps
  | ok r =>
      rw [hps] at h
      exact hf r.1 r.2 e h

/-! ## Along a known word -/

/-- Wherever the word comes next, the parser takes it off for the value. -/
def Reads (p : StateT σ (Except ε) α) (a : α) (cs : List β) : Prop :=
  ∀ s, failed s = false → cs <+: rest s → p s = .ok (a, skip cs.length s)

/-- The word comes next, or its beginning if the input ends inside it. -/
def Meets (s : σ) (cs : List β) : Prop := cs <+: rest s ∨ rest s <+: cs

/-- A parser that returns where the word comes next has taken it off for the value. -/
def Follows (p : StateT σ (Except ε) α) (a : α) (cs : List β) : Prop :=
  ∀ s a' s', failed s = false → Meets s cs → p s = .ok (a', s') →
    a' = a ∧ cs <+: rest s ∧ s' = skip cs.length s

/-- The parser does not return where the word comes next. -/
def Refuses (p : StateT σ (Except ε) α) (cs : List β) : Prop :=
  ∀ s a s', failed s = false → Meets s cs → p s ≠ .ok (a, s')

/-- What the parser returns where the word comes next has the property. -/
def Ensures (p : StateT σ (Except ε) α) (Q : α → Prop) (cs : List β) : Prop :=
  ∀ s a s', failed s = false → Meets s cs → p s = .ok (a, s') → Q a

variable {a : α} {c : γ} {cs ds : List β} {s : σ} {Q : α → Prop} {R : γ → Prop}

/-- Two beginnings of one input meet. -/
theorem Meets.of_isPrefix {ts : List β} (hs : rest s <+: ts) (hcs : cs <+: ts) :
    Meets s cs := List.prefix_or_prefix_of_prefix hcs hs

theorem Meets.left (h : Meets s (cs ++ ds)) : Meets s cs := by
  rcases h with h | h
  · exact .inl ((List.prefix_append cs ds).trans h)
  · exact (List.prefix_or_prefix_of_prefix h (List.prefix_append cs ds)).symm

/-- Behind a word that was taken the rest comes next. -/
theorem Meets.right (h : Meets s (cs ++ ds)) (hcs : cs <+: rest s) :
    Meets (skip cs.length s) ds := by
  obtain ⟨ts, hts⟩ := hcs
  have hrest : rest (skip cs.length s) = ts := by
    rw [rest_skip, ← hts, List.drop_left]
  rw [Meets, ← hts, List.prefix_append_right_inj, List.prefix_append_right_inj] at h
  rwa [Meets, hrest]

theorem Reads.pure (a : α) : Reads (Pure.pure a : StateT σ (Except ε) α) a [] := by
  intro s hs hcs
  rw [List.length_nil, skip_zero]
  rfl

theorem Reads.bind (hskip : ∀ n (s : σ), failed (skip n s) = failed s) (hp : Reads p a cs)
    (hf : Reads (f a) c ds) : Reads (p >>= f) c (cs ++ ds) := by
  intro s hs hcs
  obtain ⟨ts, hts⟩ := hcs
  rw [List.append_assoc] at hts
  have hrest : ds <+: rest (skip cs.length s) :=
    ⟨ts, by rw [rest_skip, ← hts, List.drop_left]⟩
  refine bind_ok.mpr ⟨a, _, hp s hs ⟨ds ++ ts, hts⟩, ?_⟩
  rw [hf _ ((hskip _ _).trans hs) hrest, skip_skip, List.length_append]

theorem Follows.pure (a : α) : Follows (Pure.pure a : StateT σ (Except ε) α) a [] := by
  rintro s a' s' hs - ⟨⟩
  exact ⟨rfl, List.nil_prefix, (skip_zero s).symm⟩

theorem Follows.bind (hskip : ∀ n (s : σ), failed (skip n s) = failed s)
    (hp : Follows p a cs) (hf : Follows (f a) c ds) : Follows (p >>= f) c (cs ++ ds) := by
  intro s c' s'' hs hcs hok
  obtain ⟨a', s', hps, hfs⟩ := bind_ok.mp hok
  obtain ⟨rfl, htaken, rfl⟩ := hp s a' s' hs hcs.left hps
  obtain ⟨rfl, hrest, rfl⟩ := hf _ c' s'' ((hskip _ _).trans hs) (hcs.right htaken) hfs
  refine ⟨rfl, ?_, by rw [skip_skip, List.length_append]⟩
  obtain ⟨ts, hts⟩ := htaken
  rw [rest_skip, ← hts, List.drop_left] at hrest
  rw [← hts]
  exact (List.prefix_append_right_inj cs).mpr hrest

theorem Refuses.bind (hp : Refuses p cs) : Refuses (p >>= f) cs := by
  intro s c s'' hs hcs hok
  obtain ⟨a, s', hps, -⟩ := bind_ok.mp hok
  exact hp s a s' hs hcs hps

theorem Refuses.append (hp : Refuses p cs) (ds : List β) : Refuses p (cs ++ ds) :=
  fun s a s' hs hcs => hp s a s' hs hcs.left

theorem Follows.refuses (hskip : ∀ n (s : σ), failed (skip n s) = failed s)
    (hp : Follows p a cs) (hf : Refuses (f a) ds) : Refuses (p >>= f) (cs ++ ds) := by
  intro s c s'' hs hcs hok
  obtain ⟨a', s', hps, hfs⟩ := bind_ok.mp hok
  obtain ⟨rfl, htaken, rfl⟩ := hp s a' s' hs hcs.left hps
  exact hf _ c s'' ((hskip _ _).trans hs) (hcs.right htaken) hfs

theorem Ensures.pure (ha : Q a) :
    Ensures (Pure.pure a : StateT σ (Except ε) α) Q cs := by
  rintro s a' s' - - ⟨⟩
  exact ha

theorem Follows.ensures (hskip : ∀ n (s : σ), failed (skip n s) = failed s)
    (hp : Follows p a cs) (hf : Ensures (f a) R ds) : Ensures (p >>= f) R (cs ++ ds) := by
  intro s c s'' hs hcs hok
  obtain ⟨a', s', hps, hfs⟩ := bind_ok.mp hok
  obtain ⟨rfl, htaken, rfl⟩ := hp s a' s' hs hcs.left hps
  exact hf _ c s'' ((hskip _ _).trans hs) (hcs.right htaken) hfs

/-- A parser of a grammar reads its words. -/
theorem Parses.reads (hp : Parses p G) (hG : G a cs) : Reads p a cs :=
  fun s hs hcs => ((hp s a _).mpr ⟨hs, cs, hG, hcs, rfl⟩).1

/-- Where the word of a code comes next, a parser of codes takes that word off. -/
theorem Parses.follows {ok : α → Prop} {code : α → List β}
    (hnever : ∀ s : σ, failed s = false)
    (hcode : ∀ {a b as bs}, code a ++ as = code b ++ bs → a = b)
    (hp : Parses p fun a cs => ok a ∧ cs = code a) (a : α) : Follows p a (code a) := by
  intro s a' s' hs hcs hok
  obtain ⟨-, -, ⟨-, rfl⟩, hword, rfl⟩ := (hp s a' s').mp ⟨hok, hnever s'⟩
  have heq : a' = a := by
    rcases hcs with h | h
    · rcases List.prefix_or_prefix_of_prefix hword h with ⟨ts, hts⟩ | ⟨ts, hts⟩
      · exact hcode (hts.trans (List.append_nil _).symm)
      · exact hcode ((List.append_nil _).trans hts.symm)
    · obtain ⟨ts, hts⟩ := hword.trans h
      exact hcode (hts.trans (List.append_nil _).symm)
  subst heq
  exact ⟨rfl, hword, rfl⟩

end StickyParser
