import Mathlib.Tactic.IntervalCases
import MoonlightPsp.Config.LoadSave

/-!
# The lines of a saved file

The file is described by its lines, and every line that the writer makes is read
back to what it was made from.
-/

namespace MoonlightPsp.Config

open Rtsp

/-- What a line of a saved file says. -/
inductive Entry where
  | remark (text : Text)
  | number (key : Key) (value : ℤ)
  | manualHost (index : ℕ) (entry : ManualHostEntry)
  | pairedHost (slot : ℕ) (ip : Field 16)
  | localBindIp (ip : Field 16)

namespace Entry

/-- The line, without its end. -/
def render : Entry → Text
  | remark text => text
  | number key value => key.text.toList ++ " = ".toList ++ signed value
  | manualHost index entry =>
      "manual_host_".toList ++ decimal index ++ " = ".toList ++ entry.ip.text ++
        ",".toList ++ entry.mac.text
  | pairedHost slot ip =>
      "paired_host_".toList ++ decimal slot ++ " = ".toList ++ ip.text
  | localBindIp ip => "local_bind_ip = ".toList ++ ip.text

/-- The line and its end. -/
def line (e : Entry) : Text := e.render ++ "\n".toList

/-- What the loader makes of the line. -/
def apply (retail : Bool) : Entry → LoadState → LoadState
  | remark _, s => s
  | number key value, s => setNumber retail key value s
  | manualHost _ entry, s =>
      { s with manualHosts := s.manualHosts ++ [entry], fileLoaded := true }
  | pairedHost slot ip, s =>
      { s with
        config.pairedHostIps := s.config.pairedHostIps.setIfInBounds slot ip
        config.pairedHostCount := max (slot + 1) s.config.pairedHostCount
        fileLoaded := true }
  | localBindIp ip, s =>
      { s with
        config.localBindIp := .strncpy 16 (trimWhitespace ip.text)
        fileLoaded := true }

end Entry

theorem Entry.render_number (key : Key) (value : ℤ) :
    (Entry.number key value).render = key.text.toList ++ " = ".toList ++ signed value := rfl

theorem Entry.render_pairedHost (slot : ℕ) (ip : Field 16) :
    (Entry.pairedHost slot ip).render =
      "paired_host_".toList ++ decimal slot ++ " = ".toList ++ ip.text := rfl

theorem Entry.render_manualHost (index : ℕ) (entry : ManualHostEntry) :
    (Entry.manualHost index entry).render =
      "manual_host_".toList ++ decimal index ++ " = ".toList ++ entry.ip.text ++
        ",".toList ++ entry.mac.text := rfl

theorem Entry.render_localBindIp (ip : Field 16) :
    (Entry.localBindIp ip).render = "local_bind_ip = ".toList ++ ip.text := rfl

theorem Entry.apply_number (retail : Bool) (key : Key) (value : ℤ) (s : LoadState) :
    (Entry.number key value).apply retail s = setNumber retail key value s := rfl

theorem Entry.apply_remark (retail : Bool) (text : Text) (s : LoadState) :
    (Entry.remark text).apply retail s = s := rfl

theorem Entry.apply_pairedHost (retail : Bool) (slot : ℕ) (ip : Field 16)
    (s : LoadState) :
    (Entry.pairedHost slot ip).apply retail s =
      { s with
        config.pairedHostIps := s.config.pairedHostIps.setIfInBounds slot ip
        config.pairedHostCount := max (slot + 1) s.config.pairedHostCount
        fileLoaded := true } := rfl

/-! ## The lines of a saved file -/

/-- The entries of the manual hosts, from number `index` on. -/
def manualHostEntries (index : ℕ) : List ManualHostEntry → List Entry
  | [] => []
  | entry :: rest => .manualHost index entry :: manualHostEntries (index + 1) rest

/-- The entries of the paired hosts, from slot `pi` on. -/
def pairedHostEntries (pi : ℕ) : List (Field 16) → List Entry
  | [] => []
  | ip :: rest =>
      (if ip.text ≠ [] then [.pairedHost pi ip] else []) ++ pairedHostEntries (pi + 1) rest

/-- The lines in front of the manual hosts. -/
def headEntries (s : Settings) : List Entry :=
  [.remark "; Moonlight PSP Configuration File".toList,
    .remark "; This file is auto-generated. Edit with care.".toList,
    .remark [],
    .remark "[stream]".toList,
    .number .width s.config.width,
    .number .height s.config.height,
    .number .resolutionIndex s.config.resolutionIndex,
    .number .presetIndex s.config.presetIndex,
    .number .fps s.config.fps,
    .number .fpsIndex s.config.fpsIndex,
    .number .bitrate s.config.bitrate,
    .number .packetSize s.config.packetSize,
    .remark [],
    .remark "[controls]".toList,
    .number .controlMode s.config.controlMode.toInt,
    .number .audioEnabled s.config.audioEnabled,
    .remark [],
    .remark "[advanced]".toList,
    .number .cabacTestMode s.config.cabacTestMode,
    .number .disableEncryption s.config.disableEncryption,
    .number .debugLog s.debugLogging,
    .remark [],
    .remark "[hosts]".toList]

/-- The lines behind the paired hosts. -/
def tailEntries (s : Settings) : List Entry :=
  [.remark [],
    .remark "[network]".toList,
    .remark
      "; local_bind_ip: leave empty for real PSP hardware (uses INADDR_ANY).".toList,
    .remark
      "; For PPSSPP on same host as server, set to a secondary NIC IP alias".toList,
    .remark "; e.g.  local_bind_ip = 10.0.0.100".toList,
    .localBindIp s.config.localBindIp,
    .remark [],
    .remark "[ui_colors]".toList,
    .number .uiThemeIndex s.config.uiThemeIndex,
    .remark []]

/-- The slots of the paired hosts that are in use. -/
def PairedHosts.inUse (config : PairedHosts) : List (Field 16) :=
  config.pairedHostIps.toList.take config.pairedHostCount

/-- All lines of the file. -/
def entries (s : Settings) : List Entry :=
  headEntries s ++ manualHostEntries 0 s.manualHosts ++
    [.remark [], .remark "[pairing]".toList] ++
    pairedHostEntries 0 s.config.toPairedHosts.inUse ++ tailEntries s

theorem manualHostLines_eq (index : ℕ) (hosts : List ManualHostEntry) :
    manualHostLines index hosts = (manualHostEntries index hosts).map Entry.line := by
  induction hosts generalizing index with
  | nil => rfl
  | cons entry rest ih =>
      rw [manualHostLines, manualHostEntries, ih, List.map_cons]
      rfl

theorem pairedHostLines_eq (pi : ℕ) (ips : List (Field 16)) :
    pairedHostLines pi ips = (pairedHostEntries pi ips).map Entry.line := by
  induction ips generalizing pi with
  | nil => rfl
  | cons ip rest ih =>
      rw [pairedHostLines, pairedHostEntries, ih, List.map_append]
      congr 1
      split
      · rfl
      · rfl

theorem Entry.line_remark (text : Text) : (Entry.remark text).line = text ++ "\n".toList :=
  rfl

theorem Entry.line_localBindIp (ip : Field 16) :
    (Entry.localBindIp ip).line = "local_bind_ip = ".toList ++ ip.text ++ "\n".toList := rfl

theorem numberLine_eq (key : Key) (value : ℤ) :
    numberLine key.text value = (Entry.number key value).line := rfl

/-- The texts in front of the manual hosts are their lines. -/
theorem headWrites_eq (s : Settings) :
    (saveConfigHead s).flatten = ((headEntries s).map Entry.line).flatten := by
  have htitle : "; Moonlight PSP Configuration File\n" =
      "; Moonlight PSP Configuration File" ++ "\n" := rfl
  have hedit : "; This file is auto-generated. Edit with care.\n\n" =
      "; This file is auto-generated. Edit with care." ++ "\n" ++ "\n" := rfl
  have hstream : "[stream]\n" = "[stream]" ++ "\n" := rfl
  have hcontrols : "\n[controls]\n" = "\n" ++ "[controls]" ++ "\n" := rfl
  have hadvanced : "\n[advanced]\n" = "\n" ++ "[advanced]" ++ "\n" := rfl
  have hhosts : "\n[hosts]\n" = "\n" ++ "[hosts]" ++ "\n" := rfl
  simp only [saveConfigHead, headEntries, htitle, hedit, hstream, hcontrols, hadvanced,
    hhosts, String.toList_append, List.map_cons, List.map_nil, List.flatten_cons,
    Entry.line_remark, List.append_assoc, List.nil_append, ← numberLine_eq, Key.text]

/-- The texts behind the paired hosts are their lines. -/
theorem tailWrites_eq (s : Settings) :
    (saveConfigTail s).flatten = ((tailEntries s).map Entry.line).flatten := by
  have hnetwork : "\n[network]\n" = "\n" ++ "[network]" ++ "\n" := rfl
  have hempty : "; local_bind_ip: leave empty for real PSP hardware (uses INADDR_ANY).\n" =
      "; local_bind_ip: leave empty for real PSP hardware (uses INADDR_ANY)." ++ "\n" := rfl
  have halias : "; For PPSSPP on same host as server, set to a secondary NIC IP alias\n" =
      "; For PPSSPP on same host as server, set to a secondary NIC IP alias" ++ "\n" := rfl
  have hexample : "; e.g.  local_bind_ip = 10.0.0.100\n" =
      "; e.g.  local_bind_ip = 10.0.0.100" ++ "\n" := rfl
  have hcolors : "\n[ui_colors]\n" = "\n" ++ "[ui_colors]" ++ "\n" := rfl
  simp only [saveConfigTail, tailEntries, hnetwork, hempty, halias, hexample, hcolors,
    String.toList_append, List.map_cons, List.map_nil, List.flatten_cons,
    Entry.line_remark, Entry.line_localBindIp, List.append_assoc, List.nil_append,
    ← numberLine_eq, Key.text]

/-- The file is its lines. -/
theorem saveConfig_eq (s : Settings) :
    saveConfig s = ((entries s).map Entry.line).flatten := by
  rw [saveConfig, saveConfigWrites, manualHostLines_eq, pairedHostLines_eq, entries]
  simp only [List.map_append, List.flatten_append]
  rw [headWrites_eq, tailWrites_eq]
  rfl

/-! ## Reading one line -/

variable {retail : Bool} {s : LoadState}

/-- A value behind `=` and a space is found, and it is trimmed once more. -/
theorem afterEquals_key {key : Text} (hkey : '=' ∉ key) (value : Text) :
    afterEquals (key ++ " = ".toList ++ value) = some (' ' :: value) := by
  have hfront : '=' ∉ key ++ [' '] := by
    rw [List.mem_append, not_or]
    exact ⟨hkey, by decide⟩
  have hsplit : key ++ " = ".toList ++ value = (key ++ [' ']) ++ '=' :: ' ' :: value := by
    rw [List.append_assoc, List.append_assoc]
    rfl
  rw [hsplit, afterEquals_append hfront]

theorem trim_space (value : Text) : trimWhitespace (' ' :: value) = trimWhitespace value :=
  rfl

/-- A line that begins with a key and ends with no blank is read whole. -/
theorem trim_line {front back : Text} (hfront : front ≠ [])
    (hhead : ∀ c ∈ front.head?, isBlank c = false) (hback : back ≠ [])
    (hlast : ∀ c ∈ back.getLast?, isBlank c = false) :
    trimWhitespace (front ++ back) = front ++ back := by
  apply trimWhitespace_of_ends
  · rw [List.head?_append_of_ne_nil _ hfront]
    exact hhead
  · rw [List.getLast?_append_of_ne_nil _ hback]
    exact hlast

/-- The keys that are followed by a number. -/
def Key.hasNumber : Key → Bool
  | .pairedHostIp | .pairedHost | .localBindIp | .manualHost => false
  | _ => true

theorem readKey_number {key : Key} (hkey : key.hasNumber = true) (line : Text) :
    readKey retail key line s =
      match parseIntValue line with
      | none => s
      | some value => setNumber retail key value s := by
  cases key <;> first | rfl | exact absurd hkey (by decide)

/-- A number is read back. -/
theorem readLine_number {key : Key} (hkey : key.hasNumber = true) (value : ℤ) :
    readLine retail s (Entry.number key value).render =
      (Entry.number key value).apply retail s := by
  have htrim : trimWhitespace (Entry.number key value).render =
      (Entry.number key value).render := by
    apply trim_line
    · cases key <;> exact List.cons_ne_nil _ _
    · exact all_not_blank.mp (by cases key <;> rfl)
    · exact signed_ne_nil value
    · intro c hc
      exact not_blank_of_mem_signed (List.mem_of_getLast? hc)
  have hkept : isSkipped (Entry.number key value).render = false := by
    cases key <;> rfl
  have hfind : keyOf (Entry.number key value).render = some key := by
    cases key <;> rfl
  have hparse : parseIntValue (Entry.number key value).render = some value := by
    have hequals : '=' ∉ key.text.toList := by
      cases key <;> decide
    rw [parseIntValue, Entry.render_number, afterEquals_key hequals, Option.map_some, trim_space,
      trimWhitespace_signed, atoi_signed]
  simp only [readLine, htrim, hkept, hfind, Bool.false_eq_true, if_false,
    readKey_number hkey, hparse, Entry.apply_number]

/-- A remark is passed over. -/
theorem readLine_remark {text : Text} (h : isSkipped (trimWhitespace text) = true) :
    readLine retail s (Entry.remark text).render = (Entry.remark text).apply retail s := by
  have hline : readLine retail s text = s := by
    simp only [readLine, h, if_true]
  exact hline

/-- The text behind `local_bind_ip = ` is read back without the blanks at its
ends. -/
theorem readLine_localBindIp (ip : Field 16) :
    readLine retail s (Entry.localBindIp ip).render =
      (Entry.localBindIp ip).apply retail s := by
  have hread (line : Text) (htrim : trimWhitespace (Entry.localBindIp ip).render = line)
      (hkept : isSkipped line = false) (hfind : keyOf line = some .localBindIp)
      (value : Text) (hvalue : afterEquals line = some value)
      (hsame : trimWhitespace value = trimWhitespace ip.text) :
      readLine retail s (Entry.localBindIp ip).render =
        (Entry.localBindIp ip).apply retail s := by
    simp only [readLine, htrim, hkept, hfind, Bool.false_eq_true, if_false, readKey,
      parseStringValue, hvalue, Option.map_some, Option.getD_some, hsame]
    rfl
  have hfront : (Entry.localBindIp ip).render.dropWhile isBlank =
      "local_bind_ip = ".toList ++ ip.text := rfl
  by_cases hempty : (ip.text.rdropWhile isBlank).isEmpty = true
  · -- nothing but blanks: the space behind `=` goes too
    apply hread "local_bind_ip =".toList _ rfl rfl []
    · rfl
    · rw [trimWhitespace.eq_1 ip.text, ← dropWhile_rdropWhile, List.isEmpty_iff.mp hempty]
      rfl
    · rw [trimWhitespace, hfront, rdropWhile_append, if_pos hempty]
      rfl
  · apply hread ("local_bind_ip = ".toList ++ ip.text.rdropWhile isBlank) _ rfl rfl
      (' ' :: ip.text.rdropWhile isBlank)
    · rfl
    · rw [trim_space, trimWhitespace, trimWhitespace, dropWhile_rdropWhile,
        List.rdropWhile_idempotent]
    · rw [trimWhitespace, hfront, rdropWhile_append, if_neg hempty]

/-- `sscanf` reads what `%d` wrote in front of a space. -/
theorem scanInt_decimal (n : ℕ) (rest : Text) :
    scanInt (decimal n ++ ' ' :: rest) = some ((n : ℤ), ' ' :: rest) := by
  have hdigits : ∀ c ∈ decimal n, c.isDigit = true := fun c hc => isDigit_of_mem_decimal hc
  have htake : (decimal n ++ ' ' :: rest).takeWhile Char.isDigit = decimal n := by
    rw [List.takeWhile_append_of_pos hdigits]
    simp
  have hdrop : (decimal n ++ ' ' :: rest).dropWhile Char.isDigit = ' ' :: rest := by
    rw [List.dropWhile_append_of_pos hdigits]
    rfl
  have hvalue : leadingNumber (decimal n ++ ' ' :: rest) = n := by
    have hwhole := leadingNumber_decimal n
    rw [leadingNumber, List.takeWhile_eq_self_iff.mpr hdigits] at hwhole
    rw [leadingNumber, htake, hwhole]
  cases hn : decimal n with
  | nil => exact absurd hn (decimal_ne_nil n)
  | cons d ds =>
      obtain ⟨hspace, hminus, hplus⟩ := isSpace_of_isDigit
        (hdigits d (hn ▸ List.mem_cons_self))
      rw [hn] at htake hdrop hvalue
      rw [List.cons_append] at htake hdrop hvalue ⊢
      rw [scanInt, List.dropWhile_cons_of_neg (by simp [hspace])]
      split
      · rename_i heq
        exact absurd (List.cons.inj heq).1 hminus
      · rename_i heq
        exact absurd (List.cons.inj heq).1 hplus
      · simp only [htake, hdrop, hvalue, if_neg (List.cons_ne_nil d ds), Int.one_mul]

theorem set_eq_setIfInBounds {α : Type*} {n : ℕ} (v : Vector α n) {i : ℕ} (hi : i < n)
    (x : α) : v.set i x hi = v.setIfInBounds i x := by
  apply Vector.toList_inj.mp
  rw [Vector.toList_set, Vector.toList_setIfInBounds]

/-- A paired host is read back into its slot. -/
theorem readLine_pairedHost {slot : ℕ} (hslot : slot < 8) {ip : Field 16}
    (hip : ip.text ≠ []) (hplain : Plain ip.text) :
    readLine retail s (Entry.pairedHost slot ip).render =
      (Entry.pairedHost slot ip).apply retail s := by
  have htrim : trimWhitespace (Entry.pairedHost slot ip).render =
      (Entry.pairedHost slot ip).render := by
    apply trim_line _ _ hip hplain.noTrailing
    · exact List.cons_ne_nil _ _
    · intro c hc
      obtain rfl : 'p' = c := Option.some.inj hc
      rfl
  have hkept : isSkipped (Entry.pairedHost slot ip).render = false := rfl
  have hfind : keyOf (Entry.pairedHost slot ip).render = some .pairedHost := by
    interval_cases slot <;> rfl
  have hslotText : scanInt ((Entry.pairedHost slot ip).render.drop 12) =
      some ((slot : ℤ), " = ".toList ++ ip.text) := by
    have hdrop : (Entry.pairedHost slot ip).render.drop 12 =
        decimal slot ++ ' ' :: ("= ".toList ++ ip.text) := by
      exact List.append_assoc (decimal slot) " = ".toList ip.text
    rw [hdrop, scanInt_decimal]
    rfl
  have hvalue : parseStringValue 16 (Entry.pairedHost slot ip).render = some ip := by
    have hequals : '=' ∉ "paired_host_".toList ++ decimal slot := by
      rw [List.mem_append, not_or]
      refine ⟨by decide, ?_⟩
      intro hmem
      exact absurd (isDigit_of_mem_decimal hmem) (by decide)
    rw [parseStringValue, Entry.render_pairedHost, afterEquals_key hequals, Option.map_some,
      trim_space, hplain.trim]
    exact congrArg some (Field.ext (Field.strncpy_text ip.fits))
  simp only [readLine, htrim, hkept, hfind, Bool.false_eq_true, if_false, readKey,
    setPairedHost, hslotText, hvalue]
  rw [dif_pos ⟨Int.natCast_nonneg slot, by omega⟩, Entry.apply_pairedHost]
  have hcount : (if slot + 1 > s.config.pairedHostCount then slot + 1
      else s.config.pairedHostCount) = max (slot + 1) s.config.pairedHostCount := by
    split <;> omega
  simp only [Int.toNat_natCast, Option.getD_some, hcount, set_eq_setIfInBounds]

/-- The first comma parts the address from the rest. -/
theorem manualHostOf_joined {entry : ManualHostEntry} {value : Field 64}
    (hcomma : ',' ∉ entry.ip.text) (hipPlain : Plain entry.ip.text)
    (hmacPlain : Plain entry.mac.text)
    (htext : value.text = entry.ip.text ++ (",".toList ++ entry.mac.text)) :
    manualHostOf value = entry := by
  have hskip : ∀ c ∈ entry.ip.text, (c != ',') = true := by
    intro c hc
    have hne : c ≠ ',' := by
      rintro rfl
      exact hcomma hc
    simpa using hne
  have htake : value.text.takeWhile (· != ',') = entry.ip.text := by
    rw [htext, List.takeWhile_append_of_pos hskip]
    exact List.append_nil _
  have hdrop : value.text.dropWhile (· != ',') = ',' :: entry.mac.text := by
    rw [htext, List.dropWhile_append_of_pos hskip]
    rfl
  have hip : (manualHostOf value).ip = entry.ip := by
    simp only [manualHostOf, htake, hipPlain.trim]
    exact Field.ext (Field.strncpy_text entry.ip.fits)
  have hmac : (manualHostOf value).mac = entry.mac := by
    simp only [manualHostOf, hdrop, if_neg (List.cons_ne_nil _ _), List.tail_cons,
      hmacPlain.trim]
    exact Field.ext (Field.strncpy_text entry.mac.fits)
  calc manualHostOf value = ⟨(manualHostOf value).ip, (manualHostOf value).mac⟩ := rfl
    _ = entry := by rw [hip, hmac]

/-- A manual host is read back behind those read before. -/
theorem readLine_manualHost {index : ℕ} {entry : ManualHostEntry}
    (hcount : s.manualHosts.length < 8) (hip : entry.ip.text ≠ [])
    (hcomma : ',' ∉ entry.ip.text) (hipPlain : Plain entry.ip.text)
    (hmacPlain : Plain entry.mac.text) :
    readLine retail s (Entry.manualHost index entry).render =
      (Entry.manualHost index entry).apply retail s := by
  have hlast : ∀ c ∈ (",".toList ++ entry.mac.text).getLast?, isBlank c = false := by
    cases hmac : entry.mac.text with
    | nil => exact all_not_blank.mp rfl
    | cons c mac =>
        rw [List.getLast?_append_of_ne_nil _ (List.cons_ne_nil c mac), ← hmac]
        exact hmacPlain.noTrailing
  have hback : ",".toList ++ entry.mac.text ≠ [] := List.cons_ne_nil _ _
  have htrim : trimWhitespace (Entry.manualHost index entry).render =
      (Entry.manualHost index entry).render := by
    rw [Entry.render_manualHost, List.append_assoc _ ",".toList]
    apply trim_line _ _ hback hlast
    · exact List.cons_ne_nil _ _
    · intro c hc
      obtain rfl : 'm' = c := Option.some.inj hc
      rfl
  have hkept : isSkipped (Entry.manualHost index entry).render = false := rfl
  have hfind : keyOf (Entry.manualHost index entry).render = some .manualHost := rfl
  have hlen : (entry.ip.text ++ (",".toList ++ entry.mac.text)).length < 64 := by
    have hiplen := entry.ip.fits
    have hmaclen := entry.mac.fits
    have hone : ",".toList.length = 1 := rfl
    rw [List.length_append, List.length_append]
    omega
  obtain ⟨value, hvalue, htext⟩ : ∃ value : Field 64,
      parseStringValue 64 (Entry.manualHost index entry).render = some value ∧
        value.text = entry.ip.text ++ (",".toList ++ entry.mac.text) := by
    have hequals : '=' ∉ "manual_host_".toList ++ decimal index := by
      rw [List.mem_append, not_or]
      refine ⟨by decide, ?_⟩
      intro hmem
      exact absurd (isDigit_of_mem_decimal hmem) (by decide)
    refine ⟨_, ?_, Field.strncpy_text hlen⟩
    rw [parseStringValue, Entry.render_manualHost, List.append_assoc _ ",".toList,
      List.append_assoc _ entry.ip.text, afterEquals_key hequals, Option.map_some,
      trim_space, trim_line hip hipPlain.noLeading hback hlast]
  have hentry : manualHostOf value = entry := manualHostOf_joined hcomma hipPlain hmacPlain htext
  simp only [readLine, htrim, hkept, hfind, Bool.false_eq_true, if_false, readKey,
    setManualHost, hvalue, hentry]
  rw [if_pos ⟨hcount, hip⟩]
  rfl

end MoonlightPsp.Config
