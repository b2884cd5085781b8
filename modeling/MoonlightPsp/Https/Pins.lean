import MoonlightPsp.Identity.Consistent
import MoonlightPsp.Lib.EventLog

/-!
# Pinned certificates

The client trusts the certificate of a host on its first use: it keeps the fingerprint in a
file of its own and takes no other certificate from the host later, as long as the file can
be read: where that fails, a use counts as the first again.  The files stay when the program
is started again.
-/

namespace MoonlightPsp.Https

open Rtsp (Text snprintf)
open Identity (sha256Hash byteDigits hexUpper length_flatMap_byteDigits length_sha256Hash
  byteDigits_mem hexUpper_spec)
open EventLog

/-! ## The model -/

/-- `sha256_hex_upper`. -/
def sha256HexUpper (digest : List UInt8) : Text :=
  (digest.take 32).flatMap (byteDigits hexUpper)

/-- The fingerprint of a certificate. -/
def fingerprint (raw : List UInt8) : Text := sha256HexUpper (sha256Hash raw)

/-- The characters that a file name keeps. -/
def isFilenameChar (c : Char) : Bool :=
  decide ('0' ≤ c ∧ c ≤ '9') || decide ('A' ≤ c ∧ c ≤ 'Z') || decide ('a' ≤ c ∧ c ≤ 'z') ||
    c == '.' || c == '-' || c == '_'

/-- `sanitize_host_for_filename`. -/
def sanitizeHostForFilename (host : Text) (outSize : ℕ) : Text :=
  let out := (host.take (outSize - 1)).map fun c => if isFilenameChar c then c else '_'
  if out = [] then "unknown".toList.take (outSize - 1) else out

/-- `TLS_PIN_DIR`. -/
def tlsPinDir : Text := "ms0:/PSP/SAVEDATA/Moonlight/tls_pins".toList

/-- `pin_path`. -/
def pinPath (host : Text) : Text :=
  snprintf 160 (tlsPinDir ++ "/".toList ++ sanitizeHostForFilename host 64 ++ ".sha256".toList)

/-- What a string function sees of a buffer that is cut at its first line end. -/
def firstLine (text : Text) : Text := text.takeWhile fun c => c ≠ '\n' ∧ c ≠ '\x00'

/-- `load_tls_pin_file`, of the text that the file has, and of whether it opens and can be
read. -/
def loadTlsPinFile (file : Option Text) (reads : Bool) (outSize : ℕ) : Option Text :=
  match file with
  | none => none
  | some text =>
      if !reads then none
      else if text.take (outSize - 1) = [] then none
      else some (firstLine (text.take (outSize - 1)))

/-- What the calls in `save_tls_pin_file` do: whether the file opens, how many characters of
the pin are written, and whether the line end is. -/
structure SaveAnswers where
  opens : Bool
  written : ℕ
  lineEnd : Bool

/-- What the calls in `tls_verify_or_store_pin` do; `reads` tells whether a pin file that is
there opens and can be read. -/
structure PinAnswers extends SaveAnswers where
  reads : Bool

/-- `save_tls_pin_file`: whether it succeeds, and the file behind it. -/
def saveTlsPinFile (file : Option Text) (pinHex : Text) (a : SaveAnswers) :
    Bool × Option Text :=
  if !a.opens then (false, file)
  else if a.written < pinHex.length then (false, some (pinHex.take a.written))
  else if !a.lineEnd then (false, some pinHex)
  else (true, some (pinHex ++ ['\n']))

/-- The files, by their paths. -/
abbrev Files := Text → Option Text

/-- `tls_verify_or_store_pin`, of the certificate that the peer showed: whether it returns 0,
and the files behind it. -/
def tlsVerifyOrStorePin (files : Files) (host : Text) (peer : Option (List UInt8))
    (a : PinAnswers) : Bool × Files :=
  match peer with
  | none => (true, files)
  | some raw =>
      if raw = [] then (true, files)
      else
        match loadTlsPinFile (files (pinPath host)) a.reads 80 with
        | some saved => (saved = fingerprint raw, files)
        | none =>
            let r := saveTlsPinFile (files (pinPath host)) (fingerprint raw) a.toSaveAnswers
            (r.1, Function.update files (pinPath host) r.2)

/-! ## Runs -/

/-- A connection. -/
structure Connection where
  host : Text
  peer : Option (List UInt8)
  answers : PinAnswers

/-- What a connection was, whether a pin file could be read, what was written if a pin was
to be stored, and whether the peer was accepted. -/
structure PinEntry where
  path : Text
  cert : Option (List UInt8)
  reads : Bool
  stored : Option SaveAnswers
  accepted : Bool

/-- The certificate that is looked at: an empty one is not. -/
def shown (peer : Option (List UInt8)) : Option (List UInt8) :=
  peer.filter fun raw => raw ≠ []

/-- A pin is to be stored. -/
def firstUse (files : Files) (c : Connection) : Bool :=
  (shown c.peer).isSome && (loadTlsPinFile (files (pinPath c.host)) c.answers.reads 80).isNone

/-- One connection more. -/
def connectStep (s : Files × List PinEntry) (c : Connection) : Files × List PinEntry :=
  let r := tlsVerifyOrStorePin s.1 c.host c.peer c.answers
  (r.2, s.2 ++ [⟨pinPath c.host, shown c.peer, c.answers.reads,
    if firstUse s.1 c then some c.answers.toSaveAnswers else none, r.1⟩])

/-- The connections, from the files that were there at first. -/
def runConnections (files : Files) (connections : List Connection) :
    Files × List PinEntry :=
  connections.foldl connectStep (files, [])

/-- The number of characters of a fingerprint. -/
def pinLength : ℕ := 64

/-- The pin is written whole. -/
def SaveAnswers.Saves (a : SaveAnswers) : Prop :=
  a.opens = true ∧ pinLength ≤ a.written ∧ a.lineEnd = true

/-- No certificate was shown for this pin file while it could not be read. -/
def Undisturbed (path : Text) (entries : List PinEntry) : Prop :=
  ∀ f ∈ entries, f.path = path → f.cert ≠ none → f.reads = true

/-- What must be true of a connection and those before it. -/
structure PinLaw (before : List PinEntry) (e : PinEntry) : Prop where
  /-- A peer without a certificate is accepted. -/
  unknown : e.cert = none → e.accepted = true
  /-- Behind an accepted certificate, exactly the ones with its fingerprint are, as long as
  the pin can be read. -/
  agrees : ∀ earlier d between, before = earlier ++ d :: between → d.path = e.path →
    d.accepted = true → Undisturbed e.path (between ++ [e]) →
    ∀ old, d.cert = some old → ∀ new, e.cert = some new →
      (e.accepted = true ↔ fingerprint new = fingerprint old)
  /-- Behind a pin that was written in part, no certificate is. -/
  locked : ∀ earlier d between, before = earlier ++ d :: between → d.path = e.path →
    Undisturbed e.path (between ++ [e]) → ∀ a, d.stored = some a → a.opens = true →
    0 < a.written → a.written < pinLength → e.cert ≠ none → e.accepted = false
  /-- Where the pin cannot be read, any certificate is accepted that can be stored. -/
  unread : e.cert ≠ none → e.reads = false →
    ∃ a, e.stored = some a ∧ (e.accepted = true ↔ a.Saves)

/-! ## The files -/

variable {files : Files} {raw : List UInt8} {c : Connection}

theorem length_fingerprint (raw : List UInt8) : (fingerprint raw).length = pinLength := by
  rw [fingerprint, sha256HexUpper, length_flatMap_byteDigits, List.length_take,
    length_sha256Hash]
  rfl

theorem fingerprint_line (raw : List UInt8) :
    ∀ c ∈ fingerprint raw, c ≠ '\n' ∧ c ≠ '\x00' := by
  intro c hc
  obtain ⟨b, -, hc⟩ := List.mem_flatMap.mp hc
  have hdigit := byteDigits_mem b c hc
  exact ⟨(hexUpper_spec c hdigit).2.1, fun hnul => absurd (hnul ▸ hdigit) (by decide)⟩

theorem firstLine_eq {text rest : Text} (htext : ∀ c ∈ text, c ≠ '\n' ∧ c ≠ '\x00') :
    firstLine (text ++ rest) = text ++ firstLine rest := by
  rw [firstLine, firstLine]
  apply List.takeWhile_append_of_pos
  intro c hc
  simpa using htext c hc

/-- A pin of any length that was written is read back. -/
theorem loadTlsPinFile_pin {pin : Text} (hpin : pin <+: fingerprint raw) (hne : pin ≠ [])
    {ending : Text} (hending : ending = [] ∨ ending = ['\n']) :
    loadTlsPinFile (some (pin ++ ending)) true 80 = some pin := by
  have hlen : pin.length ≤ pinLength := (length_fingerprint raw) ▸ hpin.length_le
  have hwhole : (pin ++ ending).take (80 - 1) = pin ++ ending := by
    apply List.take_of_length_le
    rw [List.length_append]
    simp only [pinLength] at hlen
    rcases hending with rfl | rfl
    · simp; omega
    · simp; omega
  have hline : firstLine ending = [] := by
    rcases hending with rfl | rfl
    · rfl
    · rfl
  rw [loadTlsPinFile, if_neg (by simp), hwhole, if_neg (by simp [hne]),
    firstLine_eq fun c hc => fingerprint_line raw c (hpin.subset hc), hline, List.append_nil]

/-- What a connection does, by the certificate and the file. -/
inductive Connects (files : Files) (c : Connection) (after : Files) (e : PinEntry) :
    Prop where
  | unknown (cert : e.cert = none) (stored : e.stored = none) (accepted : e.accepted = true)
      (same : after = files)
  | compared (raw : List UInt8) (saved : Text) (cert : e.cert = some raw)
      (stored : e.stored = none)
      (load : loadTlsPinFile (files e.path) e.reads 80 = some saved)
      (accepted : e.accepted = decide (saved = fingerprint raw)) (same : after = files)
  | first (raw : List UInt8) (cert : e.cert = some raw)
      (stored : e.stored = some c.answers.toSaveAnswers)
      (load : loadTlsPinFile (files e.path) e.reads 80 = none)
      (accepted : e.accepted =
        (saveTlsPinFile (files e.path) (fingerprint raw) c.answers.toSaveAnswers).1)
      (changed : after = Function.update files e.path
        (saveTlsPinFile (files e.path) (fingerprint raw) c.answers.toSaveAnswers).2)

theorem connectStep_cases (files : Files) (log : List PinEntry) (c : Connection) :
    ∃ after e, connectStep (files, log) c = (after, log ++ [e]) ∧
      e.path = pinPath c.host ∧ Connects files c after e := by
  refine ⟨_, _, rfl, rfl, ?_⟩
  cases hpeer : c.peer with
  | none =>
      exact .unknown (by simp [shown]) (by simp [firstUse, shown, hpeer]) rfl rfl
  | some raw =>
      by_cases hempty : raw = []
      · refine .unknown (by simp [shown, hempty]) (by simp [firstUse, shown, hpeer, hempty]) ?_ ?_
        · simp [tlsVerifyOrStorePin, hempty]
        · simp [tlsVerifyOrStorePin, hempty]
      · cases hload : loadTlsPinFile (files (pinPath c.host)) c.answers.reads 80 with
        | some saved =>
            refine .compared raw saved ?_ ?_ hload ?_ ?_
            · simp [shown, hempty]
            · simp [firstUse, hload]
            · simp [tlsVerifyOrStorePin, hempty, hload]
            · simp [tlsVerifyOrStorePin, hempty, hload]
        | none =>
            refine .first raw ?_ ?_ hload ?_ ?_
            · simp [shown, hempty]
            · simp [firstUse, hload, shown, hpeer, hempty]
            · simp [tlsVerifyOrStorePin, hempty, hload]
            · simp [tlsVerifyOrStorePin, hempty, hload]

variable {after : Files} {e : PinEntry} {log : List PinEntry}

/-- A pin is not written again while it can be read. -/
theorem Connects.keeps (h : Connects files c after e) {path saved : Text}
    (hreads : e.path = path → e.cert ≠ none → e.reads = true)
    (hload : loadTlsPinFile (files path) true 80 = some saved) :
    loadTlsPinFile (after path) true 80 = some saved := by
  cases h with
  | unknown cert stored accepted same => rwa [same]
  | compared raw old cert stored load accepted same => rwa [same]
  | first raw cert stored load accepted changed =>
      have hother : path ≠ e.path := by
        rintro rfl
        rw [hreads rfl (by simp [cert]), hload] at load
        cases load
      rwa [changed, Function.update_of_ne hother]

/-- What was read can be read. -/
theorem reads_of_load {file : Option Text} {reads : Bool} {outSize : ℕ} {saved : Text}
    (h : loadTlsPinFile file reads outSize = some saved) :
    loadTlsPinFile file true outSize = some saved := by
  cases reads with
  | true => exact h
  | false =>
      cases file with
      | none => exact h
      | some text => exact nomatch h

/-- An accepted certificate has its fingerprint in the file. -/
theorem Connects.whole (h : Connects files c after e) (haccepted : e.accepted = true)
    (hcert : e.cert = some raw) :
    loadTlsPinFile (after e.path) true 80 = some (fingerprint raw) := by
  cases h with
  | unknown cert stored accepted same =>
      rw [cert] at hcert
      cases hcert
  | compared other saved cert stored load accepted same =>
      obtain rfl := Option.some.inj (cert.symm.trans hcert)
      rw [haccepted, eq_comm, decide_eq_true_eq] at accepted
      rw [same, ← accepted]
      exact reads_of_load load
  | first other cert stored load accepted changed =>
      obtain rfl := Option.some.inj (cert.symm.trans hcert)
      rw [changed, Function.update_self]
      rw [haccepted, saveTlsPinFile] at accepted
      rw [saveTlsPinFile]
      split_ifs at accepted ⊢
      have hne : fingerprint other ≠ [] := List.ne_nil_of_length_pos (by
        rw [length_fingerprint]
        decide)
      exact loadTlsPinFile_pin List.prefix_rfl hne (.inr rfl)

/-- A pin that was written in part is in the file. -/
theorem Connects.part (h : Connects files c after e) {a : SaveAnswers}
    (hstored : e.stored = some a) (hopens : a.opens = true) (hsome : 0 < a.written)
    (hshort : a.written < pinLength) :
    ∃ saved, loadTlsPinFile (after e.path) true 80 = some saved ∧
      saved.length < pinLength := by
  cases h with
  | unknown cert stored accepted same =>
      rw [stored] at hstored
      cases hstored
  | compared other saved cert stored load accepted same =>
      rw [stored] at hstored
      cases hstored
  | first raw cert stored load accepted changed =>
      obtain rfl := Option.some.inj (stored.symm.trans hstored)
      have hlen := length_fingerprint raw
      have htake : ((fingerprint raw).take c.answers.written).length = c.answers.written := by
        rw [List.length_take, hlen]
        exact Nat.min_eq_left (Nat.le_of_lt hshort)
      refine ⟨(fingerprint raw).take c.answers.written, ?_, by rwa [htake]⟩
      rw [changed, Function.update_self, saveTlsPinFile, hopens, if_neg (by simp),
        if_pos (hlen.symm ▸ hshort)]
      have hprefix : (fingerprint raw).take c.answers.written <+: fingerprint raw :=
        List.take_prefix _ _
      have hload := loadTlsPinFile_pin hprefix
        (List.ne_nil_of_length_pos (htake.symm ▸ hsome)) (.inl rfl)
      rwa [List.append_nil] at hload

theorem saveTlsPinFile_iff (file : Option Text) (raw : List UInt8) (a : SaveAnswers) :
    (saveTlsPinFile file (fingerprint raw) a).1 = true ↔ a.Saves := by
  have hlen := length_fingerprint raw
  rw [saveTlsPinFile, SaveAnswers.Saves]
  split_ifs with hopens hshort hline
  · exact iff_of_false id fun hsaves => by simp [hsaves.1] at hopens
  · exact iff_of_false id fun hsaves => by omega
  · exact iff_of_false id fun hsaves => by simp [hsaves.2.2] at hline
  · exact iff_of_true rfl ⟨by simpa using hopens, by omega, by simpa using hline⟩

/-- The files remember what was accepted and what was written in part. -/
structure Pinned (files : Files) (log : List PinEntry) : Prop where
  whole : ∀ earlier d between, log = earlier ++ d :: between → d.accepted = true →
    Undisturbed d.path between → ∀ raw, d.cert = some raw →
    loadTlsPinFile (files d.path) true 80 = some (fingerprint raw)
  part : ∀ earlier d between, log = earlier ++ d :: between → Undisturbed d.path between →
    ∀ a, d.stored = some a → a.opens = true → 0 < a.written → a.written < pinLength →
    ∃ saved, loadTlsPinFile (files d.path) true 80 = some saved ∧ saved.length < pinLength
  law : Always PinLaw log

theorem undisturbed_append {path : Text} {between : List PinEntry} :
    Undisturbed path (between ++ [e]) ↔
      Undisturbed path between ∧ (e.path = path → e.cert ≠ none → e.reads = true) := by
  simp only [Undisturbed, List.forall_mem_append, List.forall_mem_singleton]

/-- The file decides a connection that shows a certificate, where it can be read. -/
theorem Connects.accepted_iff (h : Connects files c after e) {saved : Text}
    (hreads : e.reads = true) (hload : loadTlsPinFile (files e.path) true 80 = some saved)
    (hcert : e.cert = some raw) : e.accepted = true ↔ saved = fingerprint raw := by
  rw [← hreads] at hload
  cases h with
  | unknown cert stored accepted same =>
      rw [cert] at hcert
      cases hcert
  | compared other old cert stored load accepted same =>
      obtain rfl := Option.some.inj (cert.symm.trans hcert)
      obtain rfl := Option.some.inj (load.symm.trans hload)
      rw [accepted, decide_eq_true_eq]
  | first other cert stored load accepted changed =>
      rw [load] at hload
      cases hload

theorem Pinned.pinLaw (hp : Pinned files log) (h : Connects files c after e) :
    PinLaw log e where
  unknown := by
    intro hnone
    cases h with
    | unknown cert stored accepted same => exact accepted
    | compared raw saved cert stored load accepted same =>
        rw [cert] at hnone
        cases hnone
    | first raw cert stored load accepted changed =>
        rw [cert] at hnone
        cases hnone
  agrees := by
    intro earlier d between hlog hpath haccepted hfree old hold new hnew
    obtain ⟨hfree, hreads⟩ := undisturbed_append.mp hfree
    have hload := hp.whole earlier d between hlog haccepted (hpath ▸ hfree) old hold
    rw [hpath] at hload
    have hread := hreads rfl (by simp [hnew])
    exact (h.accepted_iff hread hload hnew).trans eq_comm
  locked := by
    intro earlier d between hlog hpath hfree a hstored hopens hsome hshort hcert
    obtain ⟨hfree, hreads⟩ := undisturbed_append.mp hfree
    obtain ⟨saved, hload, hlen⟩ := hp.part earlier d between hlog (hpath ▸ hfree) a hstored
      hopens hsome hshort
    rw [hpath] at hload
    obtain ⟨raw, hraw⟩ := Option.ne_none_iff_exists'.mp hcert
    rw [← Bool.not_eq_true, h.accepted_iff (hreads rfl hcert) hload hraw]
    rintro rfl
    rw [length_fingerprint] at hlen
    exact absurd hlen (Nat.lt_irrefl _)
  unread := by
    intro hcert hreads
    cases h with
    | unknown cert stored accepted same => exact absurd cert hcert
    | compared raw saved cert stored load accepted same =>
        rw [hreads] at load
        cases hfile : files e.path with
        | none =>
            rw [hfile] at load
            exact nomatch load
        | some text =>
            rw [hfile] at load
            exact nomatch load
    | first raw cert stored load accepted changed =>
        exact ⟨_, stored, by rw [accepted, saveTlsPinFile_iff]⟩

theorem Pinned.step (hp : Pinned files log) (h : Connects files c after e) :
    Pinned after (log ++ [e]) where
  whole := by
    intro earlier d between hlog haccepted hfree raw hraw
    rcases snoc_eq_append_cons hlog with ⟨rfl, -, rfl⟩ | ⟨rest, rfl, hold⟩
    · exact h.whole haccepted hraw
    · obtain ⟨hfree, hreads⟩ := undisturbed_append.mp hfree
      exact h.keeps hreads (hp.whole earlier d rest hold haccepted hfree raw hraw)
  part := by
    intro earlier d between hlog hfree a hstored hopens hsome hshort
    rcases snoc_eq_append_cons hlog with ⟨rfl, -, rfl⟩ | ⟨rest, rfl, hold⟩
    · exact h.part hstored hopens hsome hshort
    · obtain ⟨hfree, hreads⟩ := undisturbed_append.mp hfree
      obtain ⟨saved, hload, hlen⟩ := hp.part earlier d rest hold hfree a hstored hopens hsome
        hshort
      exact ⟨saved, h.keeps hreads hload, hlen⟩
  law := hp.law.snoc (hp.pinLaw h)

theorem pinned_foldl (hp : Pinned files log) (connections : List Connection) :
    let r := connections.foldl connectStep (files, log)
    Pinned r.1 r.2 := by
  induction connections generalizing files log with
  | nil => exact hp
  | cons c connections ih =>
      obtain ⟨after, e, hstep, -, hconnects⟩ := connectStep_cases files log c
      rw [List.foldl_cons, hstep]
      exact ih (hp.step hconnects)

/-- In every run of connections, from any files, as long as its pin can be read, a host is
accepted with exactly the certificates that have the fingerprint of the first, and a pin
that was written in part locks it out; where the pin cannot be read, any certificate is
accepted that can be stored. -/
theorem pins_agree (files : Files) (connections : List Connection) :
    Always PinLaw (runConnections files connections).2 :=
  (pinned_foldl ⟨by simp, by simp, always_nil⟩ connections).law

end MoonlightPsp.Https
