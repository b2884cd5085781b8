import Mathlib.Data.List.GetD
import MoonlightPsp.Identity.Model

/-!
# One generation behind the identity

The identity in use is that of one generation as long as no key is stored in part and
nobody asks for an id that was never stored.
-/

namespace MoonlightPsp.Identity

open Rtsp GuardedRun

variable {s t : IdentityState} {e : EnsureEnv} {g : Generation} {uid : Text}
  {op : IdentityOp}

/-! ## Ids in files -/

/-- The text of an id: 16 digits in upper case. -/
structure UidText (uid : Text) : Prop where
  length : uid.length = 16
  digits : ∀ c ∈ uid, c ∈ hexUpper

theorem UidText.ne_nil (h : UidText uid) : uid ≠ [] := by
  rintro rfl
  exact absurd h.length (by decide)

theorem byteDigits_mem (b : UInt8) : ∀ c ∈ byteDigits hexUpper b, c ∈ hexUpper := by
  have hdigit (i : ℕ) : hexUpper.getD i '0' ∈ hexUpper := by
    by_cases hi : i < hexUpper.length
    · rw [List.getD_eq_getElem _ _ hi]
      exact List.getElem_mem hi
    · rw [List.getD_eq_default _ _ (Nat.le_of_not_lt hi)]
      decide
  intro c hc
  simp only [byteDigits, List.mem_cons, List.not_mem_nil, or_false] at hc
  obtain rfl | rfl := hc
  · exact hdigit _
  · exact hdigit _

theorem length_flatMap_byteDigits (digits : Text) (bytes : List UInt8) :
    (bytes.flatMap (byteDigits digits)).length = 2 * bytes.length := by
  induction bytes with
  | nil => rfl
  | cons b bytes ih =>
      rw [List.flatMap_cons, List.length_append, ih, List.length_cons]
      simp only [byteDigits, List.length_cons, List.length_nil]
      omega

theorem length_sha256Hash (data : List UInt8) : (sha256Hash data).length = 32 := by
  rw [sha256Hash]
  rfl

theorem uidText_generateUid (seed : List UInt8) : UidText (generateUid seed) := by
  constructor
  · rw [generateUid, length_flatMap_byteDigits, List.length_take, length_sha256Hash]
    rfl
  · intro c hc
    obtain ⟨b, _, hc⟩ := List.mem_flatMap.mp hc
    exact byteDigits_mem b c hc

theorem hexUpper_spec : ∀ c ∈ hexUpper, isHexChar c = true ∧ c ≠ '\n' ∧
    (if 'a' ≤ c ∧ c ≤ 'f' then Char.ofNat (c.toNat - 97 + 65) else c) = c := by
  have hall : hexUpper.all (fun c => isHexChar c && c != '\n' &&
      (if 'a' ≤ c ∧ c ≤ 'f' then Char.ofNat (c.toNat - 97 + 65) else c) == c) = true := by
    decide
  intro c hc
  have hdigit := List.all_eq_true.mp hall c hc
  rw [Bool.and_eq_true, Bool.and_eq_true, bne_iff_ne, beq_iff_eq] at hdigit
  exact ⟨hdigit.1.1, hdigit.1.2, hdigit.2⟩

/-- An id that was stored whole is read back. -/
theorem loadUidFromFile_stored (h : UidText uid) : loadUidFromFile (some uid) = some uid := by
  have hwhole : uid.take 31 = uid := List.take_of_length_le (by rw [h.length]; decide)
  have hline : uid.takeWhile (· ≠ '\n') = uid := by
    have hall : (uid ++ []).takeWhile (· ≠ '\n') = uid ++ [].takeWhile (· ≠ '\n') :=
      List.takeWhile_append_of_pos fun c hc => by
        simpa using (hexUpper_spec c (h.digits c hc)).2.1
    rwa [List.append_nil, List.takeWhile_nil, List.append_nil] at hall
  have hvalid : isValidUid16Hex uid = true := by
    rw [isValidUid16Hex, Bool.and_eq_true, beq_iff_eq, List.all_eq_true]
    exact ⟨h.length, fun c hc => (hexUpper_spec c (h.digits c hc)).1⟩
  have hupper : uidToUppercase uid = uid := by
    have hsame : uid.map (fun c =>
        if 'a' ≤ c ∧ c ≤ 'f' then Char.ofNat (c.toNat - 97 + 65) else c) = uid.map id :=
      List.map_congr_left fun c hc => (hexUpper_spec c (h.digits c hc)).2.2
    rw [uidToUppercase, hsame, List.map_id]
  have hsixteen : uid.take 16 = uid := List.take_of_length_le (Nat.le_of_eq h.length)
  rw [loadUidFromFile, readFileFull, Option.map_some, Option.bind_some]
  simp only [Nat.add_one_sub_one, hwhole, if_neg h.ne_nil, hline, hvalid, if_true, hsixteen,
    hupper]

/-- A part of an id is no id. -/
theorem loadUidFromFile_short {k : ℕ} (hk : k < 16) (text : Text) :
    loadUidFromFile (some (text.take k)) = none := by
  rw [loadUidFromFile, readFileFull, Option.map_some, Option.bind_some]
  split
  · rfl
  · have hshort : isValidUid16Hex (((text.take k).take 31).takeWhile (· ≠ '\n')) = false := by
      have hline := (List.takeWhile_prefix (p := (· ≠ '\n'))
        (l := (text.take k).take 31)).length_le
      have hread := (List.take_sublist 31 (text.take k)).length_le
      have hpart : (text.take k).length ≤ k := List.length_take_le k text
      rw [isValidUid16Hex, Bool.and_eq_false_iff, beq_eq_false_iff_ne]
      left
      omega
    simp only [Nat.add_one_sub_one, hshort, Bool.false_eq_true, if_false]

/-! ## The invariant -/

/-- The files hold a generation, and the id in use, if any, is that of the generation. -/
structure Holds (s : IdentityState) (g : Generation) : Prop where
  uidText : UidText g.uid
  generated : g ∈ s.generations
  cert : s.certFile = some g.cert.text
  key : s.keyFile = some g.key.text
  uid : s.uid = [] ∨ s.uid = g.uid
  uidFile : loadUidFromFile s.uidFile = none ∨ loadUidFromFile s.uidFile = some g.uid

/-- A key is stored with its certificate, and an id only with a key. -/
structure Kept (s : IdentityState) : Prop where
  uid : s.uid = [] ∨ UidText s.uid
  noKey : s.keyFile = none → s.uidFile = none
  holds : s.keyFile.isSome = true → ∃ g, Holds s g

theorem kept_fresh : Kept IdentityState.fresh :=
  ⟨.inl rfl, fun _ => rfl, nofun⟩

/-- There are a certificate and a key, but no id is known and none can be read. -/
def LostUid (s : IdentityState) : Prop :=
  s.needGenerate = false ∧ s.uid = [] ∧ loadUidFromFile s.uidFile = none

/-- The whole text is stored. -/
def WriteResult.Whole (w : WriteResult) (text : Text) : Prop :=
  ∃ count, w = .stored count ∧ text.length ≤ count

/-- The id is known or can be read when it is asked for, and a key is stored whole or
not at all. -/
def Undamaged (s : IdentityState) : IdentityOp → Prop
  | .ensure e => ¬LostUid s ∧ (s.needGenerate = true → ∀ cert key,
      e.keygen (ensureUid e s).uid = some (cert, key) → e.certWrite.Whole cert.text →
        e.keyWrite = .notOpened ∨ e.keyWrite.Whole key.text)
  | .getUid _ => ¬LostUid s
  | .getUuid _ => s.uuid = [] → ¬LostUid s
  | .reset => True
  | .restart => True

/-- The identity in use is that of one generation, and the getters hand out its id and
the UUID of its id, however often they are called. -/
def Consistent (out : Text) (s : IdentityState) : Prop :=
  ∃ g ∈ s.generations, s.certHex = bytesToHexLite g.cert.text ∧ s.keyPem = g.key.text ∧
    s.uid = g.uid ∧ out = g.uid ∧ ∀ seed,
      clientIdentityGetUid seed s = (g.uid, s) ∧
      clientIdentityGetUuid seed s = (generateUuid g.uid, s)

/-- The certificate and the key are made and stored whole. -/
def Succeeds (e : EnsureEnv) : Prop :=
  ∀ uid, ∃ cert key, e.keygen uid = some (cert, key) ∧ e.certWrite.Whole cert.text ∧
    e.keyWrite.Whole key.text

/-! ## The id -/

theorem Kept.needGenerate (h : Kept s) : s.needGenerate = true ↔ s.keyFile = none := by
  rw [IdentityState.needGenerate, Bool.or_eq_true, Option.isNone_iff_eq_none,
    Option.isNone_iff_eq_none]
  constructor
  · rintro (hcert | hkey)
    · by_contra hkey
      obtain ⟨g, hg⟩ := h.holds (Option.isSome_iff_ne_none.mpr hkey)
      exact nomatch hcert.symm.trans hg.cert
    · exact hkey
  · exact .inr

/-- A generation stays when its id is read. -/
theorem Holds.withUid (h : Holds s g) (hload : loadUidFromFile s.uidFile = some uid) :
    uid = g.uid ∧ Holds { s with uid := uid } g := by
  obtain hnone | hsome := h.uidFile
  · exact nomatch hload.symm.trans hnone
  · obtain rfl := Option.some.inj (hload.symm.trans hsome)
    exact ⟨rfl, h.uidText, h.generated, h.cert, h.key, .inr rfl, h.uidFile⟩

/-- A state without a key. -/
theorem kept_of_noKey (huid : s.uid = [] ∨ UidText s.uid) (hkey : s.keyFile = none)
    (hfile : s.uidFile = none) : Kept s := by
  refine ⟨huid, fun _ => hfile, ?_⟩
  intro hsome
  rw [hkey] at hsome
  exact nomatch hsome

/-- Where no id is known, there is no key yet or the id of the generation can be read. -/
theorem Kept.unknown (h : Kept s) (hknown : ¬LostUid s) (hunknown : s.uid = []) :
    (loadUidFromFile s.uidFile = none ∧ s.needGenerate = true ∧ s.keyFile = none) ∨
      ∃ g : Generation, loadUidFromFile s.uidFile = some g.uid ∧ UidText g.uid ∧
        Kept { s with uid := g.uid } := by
  cases hload : loadUidFromFile s.uidFile with
  | none =>
      have hneed : s.needGenerate = true := by
        by_contra hno
        exact hknown ⟨Bool.eq_false_iff.mpr hno, hunknown, hload⟩
      exact .inl ⟨rfl, hneed, h.needGenerate.mp hneed⟩
  | some uid =>
      have hkey : s.keyFile.isSome = true := by
        rw [Option.isSome_iff_ne_none]
        intro hnone
        rw [h.noKey hnone] at hload
        exact nomatch hload
      obtain ⟨g, hg⟩ := h.holds hkey
      obtain ⟨rfl, hheld⟩ := hg.withUid hload
      exact .inr ⟨g, rfl, hg.uidText, .inr hg.uidText, h.noKey, fun _ => ⟨g, hheld⟩⟩

/-- The UUID does not matter. -/
theorem Kept.withUuid (h : Kept s) (uuid : Text) : Kept { s with uuid := uuid } := by
  refine ⟨h.uid, h.noKey, ?_⟩
  intro hkey
  obtain ⟨g, hg⟩ := h.holds hkey
  exact ⟨g, hg.uidText, hg.generated, hg.cert, hg.key, hg.uid, hg.uidFile⟩

/-- The id is found, or made where there is no key. -/
theorem ensureUid_spec (e : EnsureEnv) (h : Kept s) (hknown : ¬LostUid s) :
    ∃ uid, ensureUid e s = { s with uid := uid } ∧ UidText uid ∧
      Kept { s with uid := uid } := by
  by_cases hunknown : s.uid = []
  · obtain ⟨hload, hneed, hkey⟩ | ⟨g, hload, huid, hkept⟩ := h.unknown hknown hunknown
    · refine ⟨generateUid e.seed, ?_, uidText_generateUid _, ?_⟩
      · rw [ensureUid, if_neg (not_not_intro hunknown), hload]
        simp only [hneed, if_true, if_pos hunknown]
      · exact kept_of_noKey (.inr (uidText_generateUid _)) hkey (h.noKey hkey)
    · refine ⟨g.uid, ?_, huid, hkept⟩
      rw [ensureUid, if_neg (not_not_intro hunknown), hload]
      simp only [if_neg huid.ne_nil]
  · have huid := h.uid.resolve_left hunknown
    refine ⟨s.uid, ?_, huid, h⟩
    rw [ensureUid, if_pos hunknown]
    simp only [if_neg hunknown]

/-! ## A generation -/

theorem writeFileFull_whole {w : WriteResult} {text : Text} (h : w.Whole text)
    (file : Option Text) : writeFileFull file text w = (true, some text) := by
  obtain ⟨count, rfl, hcount⟩ := h
  rw [writeFileFull, decide_eq_true hcount, List.take_of_length_le hcount]

/-- A write that succeeds stores the whole text. -/
theorem whole_of_writeFileFull {w : WriteResult} {file : Option Text} {text : Text}
    (h : (writeFileFull file text w).1 = true) : w.Whole text := by
  cases w with
  | notOpened => exact nomatch h
  | stored count => exact ⟨count, rfl, of_decide_eq_true h⟩

/-- What the file of the id says after a write, when it did not exist before. -/
theorem loadUidFromFile_written (h : UidText uid) (w : WriteResult) :
    loadUidFromFile (writeFileFull none uid w).2 = none ∨
      loadUidFromFile (writeFileFull none uid w).2 = some uid := by
  cases w with
  | notOpened => exact .inl rfl
  | stored count =>
      by_cases hcount : count < 16
      · exact .inl (loadUidFromFile_short hcount uid)
      · right
        rw [writeFileFull, List.take_of_length_le (by rw [h.length]; omega),
          loadUidFromFile_stored h]

/-- A generation without a key before: nothing is kept, or all of it. -/
theorem generateCertAndKey_spec (h : Kept s) (hkey : s.keyFile = none) (huid : UidText s.uid)
    (hwrite : ∀ cert key, e.keygen s.uid = some (cert, key) → e.certWrite.Whole cert.text →
      e.keyWrite = .notOpened ∨ e.keyWrite.Whole key.text) :
    Kept (generateCertAndKey e s).2 ∧
    ((generateCertAndKey e s).1 = true → ∃ g, Holds (generateCertAndKey e s).2 g ∧
      g.uid = s.uid ∧ (generateCertAndKey e s).2.uid = s.uid ∧
      (generateCertAndKey e s).2.uuid = s.uuid) ∧
    (Succeeds e → (generateCertAndKey e s).1 = true) := by
  have hfile := h.noKey hkey
  obtain hnone | ⟨cert, key, hmade⟩ :
      e.keygen s.uid = none ∨ ∃ cert key, e.keygen s.uid = some (cert, key) := by
    cases e.keygen s.uid with
    | none => exact .inl rfl
    | some pair => exact .inr ⟨pair.1, pair.2, rfl⟩
  · have heq : generateCertAndKey e s = (false, s) := by
      rw [generateCertAndKey, hnone]
    rw [heq]
    refine ⟨h, nofun, ?_⟩
    intro hsucceeds
    obtain ⟨cert, key, hmade, _⟩ := hsucceeds s.uid
    exact nomatch hnone.symm.trans hmade
  · rw [generateCertAndKey, hmade]
    simp only
    by_cases hcert : (writeFileFull s.certFile cert.text e.certWrite).1 = true
    · have hwhole := whole_of_writeFileFull hcert
      rw [writeFileFull_whole hwhole]
      simp only [Bool.not_true, Bool.false_eq_true, if_false, hkey]
      obtain hclosed | hstored := hwrite cert key hmade hwhole
      · rw [hclosed]
        refine ⟨kept_of_noKey (.inr huid) rfl hfile, nofun, ?_⟩
        intro hsucceeds
        obtain ⟨_, key', _, _, count, hcount, _⟩ := hsucceeds s.uid
        exact nomatch hclosed.symm.trans hcount
      · rw [writeFileFull_whole hstored]
        simp only [Bool.not_true, Bool.false_eq_true, if_false, hfile]
        have hheld : Holds
            { s with
              generations := s.generations ++ [(⟨s.uid, cert, key⟩ : Generation)]
              certFile := some cert.text
              keyFile := some key.text
              uidFile := (writeFileFull none s.uid e.uidWrite).2 } ⟨s.uid, cert, key⟩ :=
          ⟨huid, List.mem_append_right _ List.mem_cons_self, rfl, rfl, .inr rfl,
            loadUidFromFile_written huid e.uidWrite⟩
        exact ⟨⟨.inr huid, nofun, fun _ => ⟨_, hheld⟩⟩, fun _ => ⟨_, hheld, rfl, trivial, trivial⟩,
          fun _ => trivial⟩
    · rw [Bool.not_eq_true] at hcert
      rw [hcert]
      simp only [Bool.not_false, if_true]
      refine ⟨kept_of_noKey (.inr huid) hkey hfile, nofun, ?_⟩
      intro hsucceeds
      obtain ⟨cert', key', hmade', hwhole, _⟩ := hsucceeds s.uid
      obtain rfl : cert = cert' := congrArg Prod.fst (Option.some.inj (hmade.symm.trans hmade'))
      rw [writeFileFull_whole hwhole] at hcert
      exact nomatch hcert

/-! ## One call -/

theorem loadIdentity_holds (h : Holds s g) :
    loadIdentity s = (some (s.uid.take 16), { s with
      certHex := bytesToHexLite g.cert.text
      keyPem := g.key.text
      loaded := true }) := by
  have hread (p : Pem) : readFileFull (some p.text) 2048 = some p.text := by
    rw [readFileFull, Option.map_some, List.take_of_length_le p.fits]
  obtain ⟨c, cert, hc⟩ := List.exists_cons_of_ne_nil g.cert.notEmpty
  obtain ⟨k, key, hk⟩ := List.exists_cons_of_ne_nil g.key.notEmpty
  rw [loadIdentity, h.cert, hread, hc]
  simp only
  rw [h.key, hread, hk]

theorem generateUuid_ne_nil (uid : Text) : generateUuid uid ≠ [] := by
  rw [generateUuid, snprintf, Ne, List.take_eq_nil_iff]
  simp

/-- The identity that is read from the files of a generation. -/
theorem consistent_loaded (h : Holds s g) (hkept : Kept s) (huid : s.uid = g.uid)
    (huuid : s.uuid = generateUuid s.uid) :
    Kept (loadIdentity s).2 ∧
    (∀ out, (loadIdentity s).1 = some out → Consistent out (loadIdentity s).2) ∧
    (loadIdentity s).1.isSome = true := by
  rw [loadIdentity_holds h]
  have hheld : Holds { s with
      certHex := bytesToHexLite g.cert.text
      keyPem := g.key.text
      loaded := true } g :=
    ⟨h.uidText, h.generated, h.cert, h.key, h.uid, h.uidFile⟩
  refine ⟨⟨hkept.uid, hkept.noKey, fun _ => ⟨g, hheld⟩⟩, ?_, rfl⟩
  intro out hout
  obtain rfl := Option.some.inj hout
  have hne : s.uid ≠ [] := huid ▸ h.uidText.ne_nil
  have hsome : s.uuid ≠ [] := huuid ▸ generateUuid_ne_nil s.uid
  refine ⟨g, h.generated, rfl, rfl, huid, ?_, ?_⟩
  · rw [huid]
    exact List.take_of_length_le (Nat.le_of_eq h.uidText.length)
  · intro seed
    constructor
    · rw [clientIdentityGetUid, if_neg hne]
      exact congrArg (·, _) huid
    · rw [clientIdentityGetUuid, if_neg hsome]
      exact congrArg (·, _) (huuid.trans (congrArg generateUuid huid))

/-- A call keeps the invariant; when it returns 0 the identity is that of one generation;
and it returns 0 when nothing fails. -/
theorem clientIdentityEnsure_spec (h : Kept s) (hop : Undamaged s (.ensure e)) :
    Kept (clientIdentityEnsure e s).2 ∧
    (∀ out, (clientIdentityEnsure e s).1 = some out →
      Consistent out (clientIdentityEnsure e s).2) ∧
    (Succeeds e → (clientIdentityEnsure e s).1.isSome = true) := by
  obtain ⟨hknown, hwrite⟩ := hop
  obtain ⟨uid, hensure, huid, hkept⟩ := ensureUid_spec e h hknown
  rw [hensure] at hwrite
  rw [clientIdentityEnsure, hensure]
  simp only
  have hready := hkept.withUuid (generateUuid uid)
  by_cases hneed : s.needGenerate = true
  · rw [if_pos hneed]
    obtain ⟨hafter, hgenerated, hsucceeds⟩ :=
      generateCertAndKey_spec hready (h.needGenerate.mp hneed) huid (hwrite hneed)
    by_cases hok : (generateCertAndKey e { s with
        uid := uid
        uuid := generateUuid uid }).1 = true
    · obtain ⟨g, hheld, hof, hsame, huuid⟩ := hgenerated hok
      rw [if_pos hok]
      have hloaded := consistent_loaded hheld hafter (hsame.trans hof.symm)
        (huuid.trans (congrArg generateUuid hsame.symm))
      exact ⟨hloaded.1, hloaded.2.1, fun _ => hloaded.2.2⟩
    · rw [if_neg hok]
      exact ⟨hafter, nofun, fun hgood => absurd (hsucceeds hgood) hok⟩
  · rw [if_neg hneed]
    have hkey : s.keyFile.isSome = true := by
      rw [Option.isSome_iff_ne_none]
      exact fun hnone => hneed (h.needGenerate.mpr hnone)
    obtain ⟨g, hheld⟩ := hready.holds hkey
    have hsame : uid = g.uid := hheld.uid.resolve_left huid.ne_nil
    have hloaded := consistent_loaded hheld hready hsame rfl
    exact ⟨hloaded.1, hloaded.2.1, fun _ => hloaded.2.2⟩

/-! ## Runs -/

/-- Asking for the id keeps the invariant. -/
theorem clientIdentityGetUid_kept (seed : List UInt8) (h : Kept s) (hknown : ¬LostUid s) :
    Kept (clientIdentityGetUid seed s).2 := by
  rw [clientIdentityGetUid]
  split
  · rename_i hunknown
    obtain ⟨hload, _, hkey⟩ | ⟨g, hload, _, hkept⟩ := h.unknown hknown hunknown
    · rw [hload]
      exact kept_of_noKey (.inr (uidText_generateUid seed)) hkey (h.noKey hkey)
    · rw [hload]
      exact hkept
  · exact h

theorem clientIdentityGetUuid_kept (seed : List UInt8) (h : Kept s)
    (hknown : s.uuid = [] → ¬LostUid s) : Kept (clientIdentityGetUuid seed s).2 := by
  rw [clientIdentityGetUuid]
  split
  · rename_i hunknown
    exact (clientIdentityGetUid_kept seed h (hknown hunknown)).withUuid _
  · exact h

/-- Every operation under the condition keeps the invariant. -/
theorem Kept.step (h : Kept s) (hop : Undamaged s op) : Kept (s.step op) := by
  cases op with
  | ensure e => exact (clientIdentityEnsure_spec h hop).1
  | reset => exact kept_of_noKey (.inl rfl) rfl rfl
  | getUid seed => exact clientIdentityGetUid_kept seed h hop
  | getUuid seed => exact clientIdentityGetUuid_kept seed h hop
  | restart =>
      refine ⟨.inl rfl, h.noKey, fun hkey => ?_⟩
      obtain ⟨g, hg⟩ := h.holds hkey
      exact ⟨g, hg.uidText, hg.generated, hg.cert, hg.key, .inl rfl, hg.uidFile⟩

/-- In every run that damages nothing: when `client_identity_ensure` returns 0, the
certificate, the key, the id and the UUID are those of one generation, and it returns 0
whenever nothing fails in it. -/
theorem clientIdentity_consistent (ops : List IdentityOp) (e : EnsureEnv)
    (h : Meets IdentityState.step Undamaged .fresh (ops ++ [.ensure e])) :
    (∀ out s, clientIdentityEnsure e (run IdentityState.step .fresh ops) = (some out, s) →
      Consistent out s) ∧
    (Succeeds e →
      (clientIdentityEnsure e (run IdentityState.step .fresh ops)).1.isSome = true) := by
  obtain ⟨hops, hlast⟩ := meets_snoc.mp h
  have hkept : Kept (run IdentityState.step .fresh ops) :=
    hops.invariant kept_fresh fun _ _ => Kept.step
  obtain ⟨_, hconsistent, hsucceeds⟩ := clientIdentityEnsure_spec hkept hlast
  refine ⟨?_, hsucceeds⟩
  intro out s heq
  have hout := hconsistent out (congrArg Prod.fst heq)
  rwa [heq] at hout

/-- A certificate and a key, and nothing fails. -/
def goodLaunch : EnsureEnv where
  seed := []
  keygen := fun _ =>
    some (⟨"CERT".toList, by decide, by decide⟩, ⟨"KEY".toList, by decide, by decide⟩)
  certWrite := .stored 4
  keyWrite := .stored 3
  uidWrite := .stored 16
  legacyWrite := .stored 16

/-- A launch in which the file of the key is not opened. -/
def unopenedKey : EnsureEnv := { goodLaunch with keyWrite := .notOpened }

/-- The first launch stores no key; after a restart nothing fails. -/
theorem clientIdentity_consistent_retried :
    (clientIdentityEnsure goodLaunch (run IdentityState.step .fresh
      [.ensure unopenedKey, .restart])).1.isSome = true ∧
    ∀ out s, clientIdentityEnsure goodLaunch (run IdentityState.step .fresh
      [.ensure unopenedKey, .restart]) = (some out, s) → Consistent out s := by
  have hnew : ∀ s : IdentityState, s.keyFile = none → ¬LostUid s := by
    intro s hnone hlost
    have hneed := hlost.1
    rw [IdentityState.needGenerate, hnone, Option.isNone_none, Bool.or_true] at hneed
    exact Bool.noConfusion hneed
  have hmeets : Meets IdentityState.step Undamaged .fresh
      ([.ensure unopenedKey, .restart] ++ [.ensure goodLaunch]) := by
    refine ⟨⟨hnew _ rfl, fun _ _ _ _ _ => .inl rfl⟩, trivial, ⟨hnew _ rfl, ?_⟩, trivial⟩
    intro _ cert key hmade _
    obtain rfl : _ = key := congrArg Prod.snd (Option.some.inj hmade)
    exact .inr ⟨3, rfl, by decide⟩
  have h := clientIdentity_consistent [.ensure unopenedKey, .restart] goodLaunch hmeets
  refine ⟨h.2 ?_, h.1⟩
  intro uid
  exact ⟨_, _, rfl, ⟨4, rfl, by decide⟩, 3, rfl, by decide⟩

/-- A launch in which only the first letter of the key is stored. -/
def shortKey : EnsureEnv := { goodLaunch with keyWrite := .stored 1 }

/-- A launch in which the file of the key stays empty. -/
def emptyKey : EnsureEnv := { goodLaunch with keyWrite := .stored 0 }

/-- A launch in which the file of the id is not opened. -/
def unopenedUid : EnsureEnv := { goodLaunch with uidWrite := .notOpened }

theorem generateUid_nil : generateUid [] = "E3B0C44298FC1C14".toList := by
  have hblocks (r : Registers) : sha256Blocks r [] = (r, []) := by
    rw [sha256Blocks, if_neg (by decide)]
  rw [generateUid, sha256Hash]
  simp only [hblocks]
  decide +kernel

/-- A later call finds the id that is known, and the files that are there. -/
theorem ensure_known (huid : s.uid ≠ []) (hneed : s.needGenerate = false) :
    clientIdentityEnsure goodLaunch s =
      loadIdentity { s with uuid := generateUuid s.uid } := by
  rw [clientIdentityEnsure, ensureUid, if_pos huid, if_neg huid, hneed,
    if_neg Bool.false_ne_true]

/-- The call after a short key takes what was stored for the key; after an empty key no
call succeeds; and after a restart the legacy id is taken for one that was not stored. -/
theorem clientIdentity_damaged :
    (∃ out s, clientIdentityEnsure goodLaunch (run IdentityState.step .fresh
      [.ensure shortKey]) = (some out, s) ∧ ¬Consistent out s) ∧
    (clientIdentityEnsure goodLaunch (run IdentityState.step .fresh
      [.ensure emptyKey])).1 = none ∧
    ∃ out s, clientIdentityEnsure goodLaunch (run IdentityState.step .fresh
      [.ensure unopenedUid, .restart]) = (some out, s) ∧ ¬Consistent out s := by
  have huid : ∀ e : EnsureEnv, e = shortKey ∨ e = emptyKey →
      (run IdentityState.step .fresh [.ensure e]).uid ≠ [] := by
    rintro e (rfl | rfl)
    · exact (uidText_generateUid []).ne_nil
    · exact (uidText_generateUid []).ne_nil
  refine ⟨?_, ?_, ?_⟩
  · rw [ensure_known (huid _ (.inl rfl)) rfl]
    refine ⟨_, _, rfl, ?_⟩
    rintro ⟨g, hg, _, hkey, _⟩
    obtain rfl := List.mem_singleton.mp hg
    exact absurd hkey (by decide)
  · rw [ensure_known (huid _ (.inr rfl)) rfl]
    rfl
  · refine ⟨_, _, rfl, ?_⟩
    rintro ⟨g, hg, _, _, hsame, _⟩
    obtain rfl := List.mem_singleton.mp hg
    have hlegacy : legacyUidValue = generateUid [] := hsame
    rw [generateUid_nil] at hlegacy
    exact absurd hlegacy (by decide)

end MoonlightPsp.Identity
