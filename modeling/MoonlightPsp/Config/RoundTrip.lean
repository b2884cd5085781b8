import MoonlightPsp.Config.Entries

/-!
# Saving and loading again

The loader finds the lines of a saved file, and its fold over them rebuilds the
settings.
-/

namespace MoonlightPsp.Config

open Rtsp

variable {retail : Bool} {s : LoadState}

/-! ## Reading all lines -/

/-- What can be saved: the values that the loader leaves as they are, and texts
that its trimming and its separators leave whole. -/
structure Persistable (retail : Bool) (s : Settings) : Prop where
  bitrate : 192 ≤ s.config.bitrate ∧ s.config.bitrate ≤ 2760
  packetSize : 512 ≤ s.config.packetSize ∧ s.config.packetSize ≤ 1392
  presetIndex : 0 ≤ s.config.presetIndex ∧ s.config.presetIndex < 4
  size :
    s.config.resolutionIndex = 3 ∧
        streamResolutionNormalize s.config.width s.config.height =
          (s.config.width, s.config.height) ∨
      ∃ i : Fin 3, s.config.resolutionIndex = (i : ℤ) ∧
        resolutionPresets.get i = (s.config.width, s.config.height)
  frameRate : ∀ fps ∈ fpsOfIndex s.config.fpsIndex, s.config.fps = fps
  audioEnabled : s.config.audioEnabled = 0 ∨ s.config.audioEnabled = 1
  cabacTestMode : s.config.cabacTestMode = 0 ∨ s.config.cabacTestMode = 1
  disableEncryption : s.config.disableEncryption = 0 ∨ s.config.disableEncryption = 1
  debugLogging : diagLogSetDebug retail s.debugLogging = s.debugLogging
  int32 : ∀ value ∈ [s.config.fps, s.config.fpsIndex, s.config.uiThemeIndex],
    -2147483648 ≤ value ∧ value ≤ 2147483647
  pairedHostCount : s.config.pairedHostCount ≤ 8
  pairedHosts : ∀ ip ∈ s.config.toPairedHosts.inUse, Plain ip.text
  lastPairedHost : ∀ ip ∈ s.config.toPairedHosts.inUse.getLast?, ip.text ≠ []
  manualHostCount : s.manualHosts.length ≤ 8
  manualHosts : ∀ entry ∈ s.manualHosts, entry.ip.text ≠ [] ∧ ',' ∉ entry.ip.text ∧
    Plain entry.ip.text ∧ Plain entry.mac.text

/-- The manual hosts are read back in their order. -/
theorem foldl_manualHosts {hosts : List ManualHostEntry} (index : ℕ)
    (hcount : s.manualHosts.length + hosts.length ≤ 8)
    (hhosts : ∀ entry ∈ hosts, entry.ip.text ≠ [] ∧ ',' ∉ entry.ip.text ∧
      Plain entry.ip.text ∧ Plain entry.mac.text)
    (hloaded : s.fileLoaded = true) :
    ((manualHostEntries index hosts).map Entry.render).foldl (readLine retail) s =
      { s with manualHosts := s.manualHosts ++ hosts } := by
  induction hosts generalizing index s with
  | nil => simp [manualHostEntries]
  | cons entry hosts ih =>
      obtain ⟨hip, hcomma, hipPlain, hmacPlain⟩ := hhosts entry List.mem_cons_self
      rw [List.length_cons] at hcount
      rw [manualHostEntries, List.map_cons, List.foldl_cons,
        readLine_manualHost (by omega) hip hcomma hipPlain hmacPlain]
      have happly : (Entry.manualHost index entry).apply retail s =
          { s with manualHosts := s.manualHosts ++ [entry] } := by
        have hsame : s = { s with fileLoaded := true } := by
          rw [← hloaded]
        exact congrArg (fun s : LoadState =>
          { s with manualHosts := s.manualHosts ++ [entry] }) hsame.symm
      have hrest := ih (s := { s with manualHosts := s.manualHosts ++ [entry] }) (index + 1)
        (by simp only [List.length_append, List.length_singleton]; omega)
        (fun other hother => hhosts other (List.mem_cons_of_mem _ hother)) hloaded
      rw [happly, hrest]
      simp only [List.append_assoc, List.singleton_append]

/-- What is said of the last of a list is said of the last of its tail. -/
theorem getLast?_of_cons {α : Type*} {p : α → Prop} {a : α} {l : List α}
    (h : ∀ x ∈ (a :: l).getLast?, p x) : ∀ x ∈ l.getLast?, p x := by
  intro x hx
  have hmore : l ≠ [] := by
    rintro rfl
    exact absurd hx (Option.not_mem_none _)
  exact h x (by rwa [List.getLast?_cons_of_ne_nil hmore])

/-- The first slot that is clear takes a host. -/
theorem toList_setIfInBounds_front {slots : Vector (Field 16) 8} {front : List (Field 16)}
    {k : ℕ} (hslots : slots.toList = front ++ List.replicate (k + 1) (.cleared 16))
    (ip : Field 16) :
    (slots.setIfInBounds front.length ip).toList =
      front ++ [ip] ++ List.replicate k (.cleared 16) := by
  rw [List.replicate_succ] at hslots
  rw [Vector.toList_setIfInBounds, hslots, List.set_append_right _ _ (Nat.le_refl _),
    Nat.sub_self, List.set_cons_zero, List.append_assoc]
  rfl

/-- The line of a paired host fills its slot, and the count reaches to it. -/
theorem readLine_nextSlot {slot : ℕ} {ip : Field 16} (hslot : slot < 8)
    (hip : ip.text ≠ []) (hplain : Plain ip.text)
    (hold : s.config.pairedHostCount ≤ slot) (hloaded : s.fileLoaded = true) :
    readLine retail s (Entry.pairedHost slot ip).render =
      { s with
        config.pairedHostIps := s.config.pairedHostIps.setIfInBounds slot ip
        config.pairedHostCount := slot + 1 } := by
  rw [readLine_pairedHost hslot hip hplain, Entry.apply_pairedHost,
    Nat.max_eq_left (by omega), ← hloaded]

/-- The paired hosts are read back into their slots, and the count is that of the
last one. -/
theorem foldl_pairedHosts (retail : Bool) (s : LoadState) (ips front : List (Field 16))
    (hcount : front.length + ips.length ≤ 8)
    (hslots : s.config.pairedHostIps.toList =
      front ++ List.replicate (8 - front.length) (.cleared 16))
    (hold : s.config.pairedHostCount ≤ front.length)
    (hips : ∀ ip ∈ ips, Plain ip.text) (hlast : ∀ ip ∈ ips.getLast?, ip.text ≠ [])
    (hloaded : s.fileLoaded = true) :
    ∃ slots : Vector (Field 16) 8,
      slots.toList = front ++ ips ++
        List.replicate (8 - front.length - ips.length) (.cleared 16) ∧
      ((pairedHostEntries front.length ips).map Entry.render).foldl (readLine retail) s =
        { s with
          config.pairedHostIps := slots
          config.pairedHostCount :=
            if ips = [] then s.config.pairedHostCount else front.length + ips.length } := by
  induction ips generalizing front s with
  | nil =>
      refine ⟨s.config.pairedHostIps, ?_, ?_⟩
      · rw [hslots, List.append_nil, List.length_nil, Nat.sub_zero]
      · simp [pairedHostEntries]
  | cons ip ips ih =>
      rw [List.length_cons] at hcount
      obtain ⟨k, hk⟩ : ∃ k, 8 - front.length = k + 1 := ⟨8 - front.length - 1, by omega⟩
      have hfront : (front ++ [ip]).length = front.length + 1 := by
        rw [List.length_append, List.length_singleton]
      have hleft : 8 - (front.length + 1) - ips.length =
          8 - front.length - (ip :: ips).length := by
        rw [List.length_cons]
        omega
      have htotal : front.length + 1 + ips.length = front.length + (ip :: ips).length := by
        rw [List.length_cons]
        omega
      have hrest (s' : LoadState)
          (hslots' : s'.config.pairedHostIps.toList =
            front ++ [ip] ++ List.replicate k (.cleared 16))
          (hold' : s'.config.pairedHostCount ≤ front.length + 1)
          (hloaded' : s'.fileLoaded = true) :=
        ih s' (front ++ [ip]) (by omega)
          (by rw [hslots', hfront, show 8 - (front.length + 1) = k by omega])
          (by rw [hfront]; exact hold')
          (fun other hother => hips other (List.mem_cons_of_mem _ hother))
          (getLast?_of_cons hlast) hloaded'
      rw [hfront, hleft, htotal, ← List.append_cons front ip ips] at hrest
      rw [hk] at hslots
      rw [if_neg (List.cons_ne_nil ip ips)]
      by_cases hempty : ip.text = []
      · -- an empty slot is not written, and the slots behind it are in use
        have hcleared : ip = .cleared 16 := Field.ext hempty
        have hmore : ips ≠ [] := by
          rintro rfl
          exact hlast ip rfl hempty
        obtain ⟨slots, htoList, hfold⟩ := hrest s
          (by rw [hslots, hcleared, List.replicate_succ, List.append_cons]) (by omega)
          hloaded
        refine ⟨slots, htoList, ?_⟩
        rw [pairedHostEntries, if_neg (not_not_intro hempty), List.nil_append, hfold,
          if_neg hmore]
      · obtain ⟨slots, htoList, hfold⟩ := hrest
          { s with
            config.pairedHostIps := s.config.pairedHostIps.setIfInBounds front.length ip
            config.pairedHostCount := front.length + 1 }
          (toList_setIfInBounds_front hslots ip) (Nat.le_refl _) hloaded
        refine ⟨slots, htoList, ?_⟩
        rw [pairedHostEntries, if_pos hempty, List.singleton_append, List.map_cons,
          List.foldl_cons,
          readLine_nextSlot (by omega) hempty (hips ip List.mem_cons_self) hold hloaded,
          hfold]
        have hreached : (if ips = [] then front.length + 1
            else front.length + (ip :: ips).length) =
              front.length + (ip :: ips).length := by
          split
          · rename_i hnil
            rw [hnil, List.length_singleton]
          · rfl
        simp only [hreached]

/-! ## The lines of the file -/

/-- A line that the loader reads whole. -/
def Entry.Short (e : Entry) (n : ℕ) : Prop := '\n' ∉ e.render ∧ e.render.length ≤ n

theorem short_number {key : Key} {value : ℤ} (hlow : -2147483648 ≤ value)
    (hhigh : value ≤ 2147483647) : (Entry.number key value).Short 31 := by
  constructor
  · have hkey : '\n' ∉ key.text.toList := by
      cases key <;> decide
    rw [Entry.render_number, List.mem_append, List.mem_append]
    rintro ((hmem | hmem) | hmem)
    · exact hkey hmem
    · exact absurd hmem (by decide)
    · exact absurd (not_blank_of_mem_signed hmem) (by decide)
  · have hkey : key.text.toList.length ≤ 17 := by
      cases key <;> decide
    have hvalue := length_signed_le hlow hhigh
    have hequals : " = ".toList.length = 3 := rfl
    rw [Entry.render_number, List.length_append, List.length_append]
    omega

/-- The lines are found one after the other. -/
theorem fileLines_entries {es : List Entry} (h : ∀ e ∈ es, e.Short 255) :
    fileLines (es.map Entry.line).flatten = es.map Entry.render := by
  induction es with
  | nil =>
      rw [fileLines]
      rfl
  | cons e es ih =>
      obtain ⟨hline, hlen⟩ := h e List.mem_cons_self
      rw [List.map_cons, List.flatten_cons, Entry.line, List.append_assoc]
      have hhead := fileLines_append hline hlen (es.map Entry.line).flatten
      rw [ih fun other hother => h other (List.mem_cons_of_mem _ hother)] at hhead
      exact hhead

theorem short_manualHost (index : ℕ) (hindex : index < 8) {entry : ManualHostEntry}
    (hip : Plain entry.ip.text) (hmac : Plain entry.mac.text) :
    (Entry.manualHost index entry).Short 49 := by
  have hiplen := entry.ip.fits
  have hmaclen := entry.mac.fits
  have hdecimal : (decimal index).length ≤ 1 := length_decimal_le (by omega) (by omega)
  constructor
  · rw [Entry.render_manualHost]
    simp only [List.mem_append]
    rintro (((((hmem | hmem) | hmem) | hmem) | hmem) | hmem)
    · exact absurd hmem (by decide)
    · exact absurd (isDigit_of_mem_decimal hmem) (by decide)
    · exact absurd hmem (by decide)
    · exact hip.oneLine hmem
    · exact absurd hmem (by decide)
    · exact hmac.oneLine hmem
  · have hkey : "manual_host_".toList.length = 12 := rfl
    have hequals : " = ".toList.length = 3 := rfl
    have hcomma : ",".toList.length = 1 := rfl
    rw [Entry.render_manualHost]
    simp only [List.length_append]
    omega

theorem short_pairedHost (slot : ℕ) (hslot : slot < 8) {ip : Field 16}
    (hip : Plain ip.text) : (Entry.pairedHost slot ip).Short 31 := by
  have hiplen := ip.fits
  have hdecimal : (decimal slot).length ≤ 1 := length_decimal_le (by omega) (by omega)
  constructor
  · rw [Entry.render_pairedHost]
    simp only [List.mem_append]
    rintro (((hmem | hmem) | hmem) | hmem)
    · exact absurd hmem (by decide)
    · exact absurd (isDigit_of_mem_decimal hmem) (by decide)
    · exact absurd hmem (by decide)
    · exact hip.oneLine hmem
  · have hkey : "paired_host_".toList.length = 12 := rfl
    have hequals : " = ".toList.length = 3 := rfl
    rw [Entry.render_pairedHost]
    simp only [List.length_append]
    omega

/-- Lines that are read whole and back to what they say, in at most `total`
characters. -/
structure ReadBack (retail : Bool) (es : List Entry) (total : ℕ) : Prop where
  short : ∀ e ∈ es, e.Short 255
  read : ∀ e ∈ es, ∀ s, readLine retail s e.render = e.apply retail s
  length : (es.map Entry.line).flatten.length ≤ total

namespace ReadBack

theorem nil : ReadBack retail [] 0 where
  short _ he := absurd he List.not_mem_nil
  read _ he := absurd he List.not_mem_nil
  length := Nat.le_refl 0

theorem cons {e : Entry} {es : List Entry} {n total : ℕ} (hshort : e.Short n)
    (hn : n ≤ 255) (hread : ∀ s, readLine retail s e.render = e.apply retail s)
    (hes : ReadBack retail es total) : ReadBack retail (e :: es) (n + 1 + total) where
  short := by
    rw [List.forall_mem_cons]
    exact ⟨⟨hshort.1, Nat.le_trans hshort.2 hn⟩, hes.short⟩
  read := by
    rw [List.forall_mem_cons]
    exact ⟨hread, hes.read⟩
  length := by
    have hlen := hes.length
    have hline := hshort.2
    have hend : "\n".toList.length = 1 := rfl
    rw [List.map_cons, List.flatten_cons, List.length_append, Entry.line,
      List.length_append]
    omega

theorem number {key : Key} {value : ℤ} {es : List Entry} {total : ℕ}
    (hkey : key.hasNumber = true) (hvalue : -2147483648 ≤ value ∧ value ≤ 2147483647)
    (hes : ReadBack retail es total) :
    ReadBack retail (.number key value :: es) (32 + total) :=
  cons (short_number hvalue.1 hvalue.2) (by omega)
    (fun _ => readLine_number hkey value) hes

theorem remark {text : Text} {n : ℕ} {es : List Entry} {total : ℕ}
    (htext : isSkipped (trimWhitespace text) = true ∧ '\n' ∉ text ∧ text.length ≤ n)
    (hn : n ≤ 255) (hes : ReadBack retail es total) :
    ReadBack retail (.remark text :: es) (n + 1 + total) :=
  cons htext.2 hn (fun _ => readLine_remark htext.1) hes

theorem empty {es : List Entry} {total : ℕ} (hes : ReadBack retail es total) :
    ReadBack retail (.remark [] :: es) (1 + total) :=
  have hnil : isSkipped (trimWhitespace []) = true ∧ '\n' ∉ ([] : Text) ∧
      ([] : Text).length ≤ 0 := by decide
  remark hnil (by omega) hes

theorem foldl {es : List Entry} {total : ℕ} (h : ReadBack retail es total)
    (s : LoadState) :
    (es.map Entry.render).foldl (readLine retail) s =
      es.foldl (fun s e => e.apply retail s) s := by
  rw [List.foldl_map]
  apply List.foldl_ext
  intro s e he
  exact h.read e he s

end ReadBack

theorem streamResolutionNormalize_le (width height : ℤ) :
    0 ≤ (streamResolutionNormalize width height).1 ∧
      (streamResolutionNormalize width height).1 ≤ 480 ∧
      0 ≤ (streamResolutionNormalize width height).2 ∧
      (streamResolutionNormalize width height).2 ≤ 272 := by
  simp only [streamResolutionNormalize]
  grind

variable {settings : Settings}

namespace Persistable

/-- The numbers that are kept are 32-bit numbers. -/
theorem size_int32 (h : Persistable retail settings) :
    (-2147483648 ≤ settings.config.width ∧ settings.config.width ≤ 2147483647) ∧
      (-2147483648 ≤ settings.config.height ∧ settings.config.height ≤ 2147483647) ∧
      -2147483648 ≤ settings.config.resolutionIndex ∧
        settings.config.resolutionIndex ≤ 2147483647 := by
  obtain ⟨hindex, hsize⟩ | ⟨i, hindex, hsize⟩ := h.size
  · have hle := streamResolutionNormalize_le settings.config.width settings.config.height
    rw [hsize] at hle
    simp only at hle
    omega
  · have hlt := i.isLt
    have hpreset : ∀ preset ∈ resolutionPresets,
        0 ≤ preset.1 ∧ preset.1 ≤ 480 ∧ 0 ≤ preset.2 ∧ preset.2 ≤ 272 := by decide
    have hle := hpreset _ (List.get_mem resolutionPresets i)
    rw [hsize] at hle
    simp only at hle
    omega

theorem debugLogging_int32 (h : Persistable retail settings) :
    -2147483648 ≤ settings.debugLogging ∧ settings.debugLogging ≤ 2147483647 := by
  have hdebug := h.debugLogging
  rw [diagLogSetDebug] at hdebug
  split at hdebug
  · omega
  · split at hdebug <;> omega

end Persistable

theorem controlMode_int32 (mode : ControlMode) :
    -2147483648 ≤ mode.toInt ∧ mode.toInt ≤ 2147483647 := by
  cases mode <;> decide

theorem headEntries_readBack (h : Persistable retail settings) :
    ReadBack retail (headEntries settings) 700 := by
  obtain ⟨hwidth, hheight, hresolution⟩ := h.size_int32
  have hpreset := h.presetIndex
  have hfps := h.int32 settings.config.fps (by simp)
  have hfpsIndex := h.int32 settings.config.fpsIndex (by simp)
  have hbitrate := h.bitrate
  have hpacket := h.packetSize
  have haudio := h.audioEnabled
  have hcabac := h.cabacTestMode
  have hencryption := h.disableEncryption
  have htitle : isSkipped (trimWhitespace "; Moonlight PSP Configuration File".toList) =
        true ∧
      '\n' ∉ "; Moonlight PSP Configuration File".toList ∧
      "; Moonlight PSP Configuration File".toList.length ≤ 34 := by decide
  have hedit : isSkipped (trimWhitespace
        "; This file is auto-generated. Edit with care.".toList) = true ∧
      '\n' ∉ "; This file is auto-generated. Edit with care.".toList ∧
      "; This file is auto-generated. Edit with care.".toList.length ≤ 46 := by decide
  have hstream : isSkipped (trimWhitespace "[stream]".toList) = true ∧
      '\n' ∉ "[stream]".toList ∧ "[stream]".toList.length ≤ 8 := by decide
  have hcontrols : isSkipped (trimWhitespace "[controls]".toList) = true ∧
      '\n' ∉ "[controls]".toList ∧ "[controls]".toList.length ≤ 10 := by decide
  have hadvanced : isSkipped (trimWhitespace "[advanced]".toList) = true ∧
      '\n' ∉ "[advanced]".toList ∧ "[advanced]".toList.length ≤ 10 := by decide
  have hhosts : isSkipped (trimWhitespace "[hosts]".toList) = true ∧
      '\n' ∉ "[hosts]".toList ∧ "[hosts]".toList.length ≤ 7 := by decide
  have hread : ReadBack retail (headEntries settings) _ :=
    .remark htitle (by omega) <| .remark hedit (by omega) <| .empty <|
    .remark hstream (by omega) <| .number rfl hwidth <| .number rfl hheight <|
    .number rfl hresolution <| .number rfl (by omega) <| .number rfl hfps <|
    .number rfl hfpsIndex <| .number rfl (by omega) <| .number rfl (by omega) <| .empty <|
    .remark hcontrols (by omega) <| .number rfl (controlMode_int32 _) <|
    .number rfl (by omega) <| .empty <| .remark hadvanced (by omega) <|
    .number rfl (by omega) <| .number rfl (by omega) <|
    .number rfl h.debugLogging_int32 <| .empty <| .remark hhosts (by omega) .nil
  exact { hread with length := Nat.le_trans hread.length (by decide) }

theorem tailEntries_readBack (h : Persistable retail settings)
    (hbind : '\n' ∉ settings.config.localBindIp.text) :
    ReadBack retail (tailEntries settings) 320 := by
  have huiTheme := h.int32 settings.config.uiThemeIndex (by simp)
  have hnetwork : isSkipped (trimWhitespace "[network]".toList) = true ∧
      '\n' ∉ "[network]".toList ∧ "[network]".toList.length ≤ 9 := by decide
  have hempty : isSkipped (trimWhitespace
        "; local_bind_ip: leave empty for real PSP hardware (uses INADDR_ANY).".toList) =
        true ∧
      '\n' ∉ "; local_bind_ip: leave empty for real PSP hardware (uses INADDR_ANY).".toList ∧
      "; local_bind_ip: leave empty for real PSP hardware (uses INADDR_ANY).".toList.length
        ≤ 69 := by decide
  have halias : isSkipped (trimWhitespace
        "; For PPSSPP on same host as server, set to a secondary NIC IP alias".toList) =
        true ∧
      '\n' ∉ "; For PPSSPP on same host as server, set to a secondary NIC IP alias".toList ∧
      "; For PPSSPP on same host as server, set to a secondary NIC IP alias".toList.length
        ≤ 68 := by decide
  have hexample : isSkipped (trimWhitespace "; e.g.  local_bind_ip = 10.0.0.100".toList) =
        true ∧
      '\n' ∉ "; e.g.  local_bind_ip = 10.0.0.100".toList ∧
      "; e.g.  local_bind_ip = 10.0.0.100".toList.length ≤ 34 := by decide
  have hcolors : isSkipped (trimWhitespace "[ui_colors]".toList) = true ∧
      '\n' ∉ "[ui_colors]".toList ∧ "[ui_colors]".toList.length ≤ 11 := by decide
  have hbindShort : (Entry.localBindIp settings.config.localBindIp).Short 31 := by
    have hfits := settings.config.localBindIp.fits
    have hkey : "local_bind_ip = ".toList.length = 16 := rfl
    constructor
    · rw [Entry.render_localBindIp, List.mem_append]
      rintro (hmem | hmem)
      · exact absurd hmem (by decide)
      · exact hbind hmem
    · rw [Entry.render_localBindIp, List.length_append]
      omega
  have hread : ReadBack retail (tailEntries settings) _ :=
    .empty <| .remark hnetwork (by omega) <| .remark hempty (by omega) <|
    .remark halias (by omega) <| .remark hexample (by omega) <|
    .cons hbindShort (by omega) (fun _ => readLine_localBindIp _) <| .empty <|
    .remark hcolors (by omega) <| .number rfl huiTheme <| .empty .nil
  exact { hread with length := Nat.le_trans hread.length (by decide) }

/-! ## The whole file -/

/-- The numbers in front of the hosts are taken over as they are. -/
theorem headEntries_apply (h : Persistable retail settings) (debugLogging : ℤ) :
    (headEntries settings).foldl (fun s e => e.apply retail s) (.initial debugLogging) =
      { config :=
          { settings.config with
            toPairedHosts := .initial
            localBindIp := .cleared 16
            uiThemeIndex := 0 }
        manualHosts := []
        debugLogging := settings.debugLogging
        fileLoaded := true
        presetIndexLoaded := true } := by
  have hfps : (fpsOfIndex settings.config.fpsIndex).getD settings.config.fps =
      settings.config.fps := by
    cases hindex : fpsOfIndex settings.config.fpsIndex with
    | none => rfl
    | some fps => exact (h.frameRate fps hindex).symm
  have hbitrate := h.bitrate
  have hpacket : clampConfigInt settings.config.packetSize 512 1392 =
      settings.config.packetSize := by
    have hrange := h.packetSize
    rw [clampConfigInt]
    omega
  have hmode : (if settings.config.controlMode.toInt = 0 then ControlMode.xbox
      else ControlMode.browser) = settings.config.controlMode := by
    cases settings.config.controlMode <;> rfl
  have hflag {flag : ℤ} (hflag : flag = 0 ∨ flag = 1) :
      (if flag ≠ 0 then (1 : ℤ) else 0) = flag := by
    omega
  simp only [headEntries, List.foldl_cons, List.foldl_nil, Entry.apply_number,
    Entry.apply_remark, setNumber, hfps, hpacket, hmode, hflag h.cabacTestMode,
    hflag h.disableEncryption, h.debugLogging, if_neg (Int.not_lt.mpr hbitrate.2),
    if_neg (Int.not_lt.mpr hbitrate.1)]
  rfl

/-- The slots that are kept: those behind the count are cleared. -/
def PairedHosts.persisted (config : PairedHosts) : PairedHosts where
  pairedHostCount := config.pairedHostCount
  pairedHostIps := Vector.ofFn fun i =>
    if i.val < config.pairedHostCount then config.pairedHostIps[i] else .cleared 16

theorem persisted_toList {config : PairedHosts} (hcount : config.pairedHostCount ≤ 8) :
    config.persisted.pairedHostIps.toList =
      config.inUse ++ List.replicate (8 - config.pairedHostCount) (.cleared 16) := by
  have hlen : config.inUse.length = config.pairedHostCount := by
    rw [PairedHosts.inUse, List.length_take, Vector.length_toList]
    omega
  apply List.ext_getElem
  · rw [Vector.length_toList, List.length_append, hlen, List.length_replicate]
    omega
  · intro i hi _
    rw [Vector.length_toList] at hi
    simp only [PairedHosts.persisted, Vector.getElem_toList, Vector.getElem_ofFn]
    by_cases hin : i < config.pairedHostCount
    · rw [if_pos hin, List.getElem_append_left (by omega)]
      simp only [PairedHosts.inUse, List.getElem_take, Vector.getElem_toList]
      rfl
    · rw [if_neg hin, List.getElem_append_right (by omega), List.getElem_replicate]

/-- A size that its mode has is kept. -/
theorem selectSize_eq {config : PspConfig}
    (hsize :
      config.resolutionIndex = 3 ∧
          streamResolutionNormalize config.width config.height =
            (config.width, config.height) ∨
        ∃ i : Fin 3, config.resolutionIndex = (i : ℤ) ∧
          resolutionPresets.get i = (config.width, config.height)) :
    selectSize config = config := by
  obtain ⟨hindex, hsize⟩ | ⟨i, hindex, hsize⟩ := hsize
  · rw [selectSize, if_pos hindex, hsize]
  · have hnearest : ∀ i : Fin 3,
        nearestPreset (resolutionPresets.get i).1 (resolutionPresets.get i).2 (i : ℤ) =
          (i : ℤ) := by decide
    have hbest := hnearest i
    rw [hsize, ← hindex] at hbest
    have hget : resolutionPresets.getD config.resolutionIndex.toNat (0, 0) =
        (config.width, config.height) := by
      rw [hindex, Int.toNat_natCast, ← hsize]
      exact (List.getElem_eq_getD (h := i.isLt) (0, 0)).symm
    have hpreset : ¬config.resolutionIndex = 3 := by
      have hlt := i.isLt
      omega
    simp only [selectSize, if_neg hpreset, hbest, hget]

theorem clampIndices_eq {config : PspConfig}
    (hpreset : 0 ≤ config.presetIndex ∧ config.presetIndex < 4)
    (hresolution : 0 ≤ config.resolutionIndex ∧ config.resolutionIndex < 4) :
    clampIndices config = config := by
  have hvalid {index : ℤ} (h : 0 ≤ index ∧ index < 4) :
      (if index < 0 ∨ index ≥ 4 then (1 : ℤ) else index) = index := if_neg (by omega)
  simp only [clampIndices, hvalid hpreset, hvalid hresolution]

theorem clampConfigInt_eq {value low high : ℤ} (h : low ≤ value ∧ value ≤ high) :
    clampConfigInt value low high = value := by
  rw [clampConfigInt, if_neg (by omega), if_neg (by omega)]

/-- Nothing that can be saved is normalised away. -/
theorem finishLoad_eq (h : Persistable retail settings) {s : LoadState}
    (hresolution : s.config.resolutionIndex = settings.config.resolutionIndex)
    (hwidth : s.config.width = settings.config.width)
    (hheight : s.config.height = settings.config.height)
    (hpreset : s.config.presetIndex = settings.config.presetIndex)
    (hbitrate : s.config.bitrate = settings.config.bitrate)
    (hpacket : s.config.packetSize = settings.config.packetSize)
    (haudio : s.config.audioEnabled = settings.config.audioEnabled)
    (hloaded : s.presetIndexLoaded = true) : finishLoad s = s.config := by
  have hselect : selectSize s.config = s.config := by
    apply selectSize_eq
    rw [hresolution, hwidth, hheight]
    exact h.size
  have hindex : 0 ≤ settings.config.resolutionIndex ∧
      settings.config.resolutionIndex < 4 := by
    obtain ⟨hindex, _⟩ | ⟨i, hindex, _⟩ := h.size
    · omega
    · have hlt := i.isLt
      omega
  have hclamp : clampIndices s.config = s.config :=
    clampIndices_eq (hpreset ▸ h.presetIndex) (hresolution ▸ hindex)
  have hflag : (if s.config.audioEnabled ≠ 0 then (1 : ℤ) else 0) =
      s.config.audioEnabled := by
    have hzero := h.audioEnabled
    rw [haudio]
    omega
  simp only [finishLoad, hclamp, hselect, hloaded, if_true, hflag,
    clampConfigInt_eq (hbitrate ▸ h.bitrate), clampConfigInt_eq (hpacket ▸ h.packetSize)]

/-- What is loaded from a saved file: everything, but for the slots behind the count
and the blanks around `localBindIp`. -/
def Settings.reloaded (settings : Settings) : Settings :=
  { settings with
    config.toPairedHosts := settings.config.toPairedHosts.persisted
    config.localBindIp := .strncpy 16 (trimWhitespace settings.config.localBindIp.text) }

/-- The lines of the manual hosts are read whole. -/
theorem manualHostEntries_short {hosts : List ManualHostEntry} (index : ℕ)
    (hindex : index + hosts.length ≤ 8)
    (hhosts : ∀ entry ∈ hosts, Plain entry.ip.text ∧ Plain entry.mac.text) :
    (∀ e ∈ manualHostEntries index hosts, e.Short 255) ∧
      ((manualHostEntries index hosts).map Entry.line).flatten.length ≤
        50 * hosts.length := by
  induction hosts generalizing index with
  | nil =>
      constructor
      · intro e he
        exact absurd he List.not_mem_nil
      · exact Nat.le_refl 0
  | cons entry hosts ih =>
      rw [List.length_cons] at hindex
      obtain ⟨hip, hmac⟩ := hhosts entry List.mem_cons_self
      obtain ⟨hline, hlen⟩ := short_manualHost index (by omega) hip hmac
      obtain ⟨hrest, htotal⟩ := ih (index + 1) (by omega)
        fun other hother => hhosts other (List.mem_cons_of_mem _ hother)
      constructor
      · rw [manualHostEntries, List.forall_mem_cons]
        exact ⟨⟨hline, by omega⟩, hrest⟩
      · have hend : "\n".toList.length = 1 := rfl
        rw [manualHostEntries, List.map_cons, List.flatten_cons, List.length_append,
          Entry.line, List.length_append, List.length_cons]
        omega

/-- So are those of the paired hosts. -/
theorem pairedHostEntries_short {ips : List (Field 16)} (slot : ℕ)
    (hslot : slot + ips.length ≤ 8) (hips : ∀ ip ∈ ips, Plain ip.text) :
    (∀ e ∈ pairedHostEntries slot ips, e.Short 255) ∧
      ((pairedHostEntries slot ips).map Entry.line).flatten.length ≤ 32 * ips.length := by
  induction ips generalizing slot with
  | nil =>
      constructor
      · intro e he
        exact absurd he List.not_mem_nil
      · exact Nat.le_refl 0
  | cons ip ips ih =>
      rw [List.length_cons] at hslot
      obtain ⟨hline, hlen⟩ :=
        short_pairedHost slot (by omega) (hips ip List.mem_cons_self)
      obtain ⟨hrest, htotal⟩ := ih (slot + 1) (by omega)
        fun other hother => hips other (List.mem_cons_of_mem _ hother)
      have hend : "\n".toList.length = 1 := rfl
      rw [pairedHostEntries]
      split
      · constructor
        · rw [List.singleton_append, List.forall_mem_cons]
          exact ⟨⟨hline, by omega⟩, hrest⟩
        · rw [List.singleton_append, List.map_cons, List.flatten_cons, List.length_append,
            Entry.line, List.length_append, List.length_cons]
          omega
      · refine ⟨hrest, ?_⟩
        rw [List.nil_append, List.length_cons]
        omega

theorem pairingEntries_readBack :
    ReadBack retail [.remark [], .remark "[pairing]".toList] 11 := by
  have hpairing : isSkipped (trimWhitespace "[pairing]".toList) = true ∧
      '\n' ∉ "[pairing]".toList ∧ "[pairing]".toList.length ≤ 9 := by decide
  exact .empty <| .remark hpairing (by omega) .nil

theorem length_inUse (h : Persistable retail settings) :
    settings.config.toPairedHosts.inUse.length = settings.config.pairedHostCount := by
  have hcount := h.pairedHostCount
  rw [PairedHosts.inUse, List.length_take, Vector.length_toList]
  omega

/-- The saved file fits the loader's buffer, and the loader finds its lines. -/
theorem fileLines_saved (h : Persistable retail settings)
    (hbind : '\n' ∉ settings.config.localBindIp.text) :
    fileLines ((saveConfig settings).take 2047) =
      (entries settings).map Entry.render := by
  have hhead := headEntries_readBack h
  have htail := tailEntries_readBack h hbind
  have hpairing : ReadBack retail _ 11 := pairingEntries_readBack
  obtain ⟨hmanual, hmanualLen⟩ := manualHostEntries_short 0
    (by have := h.manualHostCount; omega)
    fun entry hentry => (h.manualHosts entry hentry).2.2
  obtain ⟨hpaired, hpairedLen⟩ := pairedHostEntries_short 0
    (by have := length_inUse h; have := h.pairedHostCount; omega) h.pairedHosts
  have hlen : (saveConfig settings).length ≤ 2047 := by
    have hmanualCount := h.manualHostCount
    have hpairedCount := h.pairedHostCount
    rw [length_inUse h] at hpairedLen
    have h1 := hhead.length
    have h2 := hpairing.length
    have h3 := htail.length
    rw [saveConfig_eq, entries]
    simp only [List.map_append, List.flatten_append, List.length_append]
    omega
  rw [List.take_of_length_le hlen, saveConfig_eq]
  apply fileLines_entries
  rw [entries]
  simp only [List.forall_mem_append]
  exact ⟨⟨⟨⟨hhead.short, hmanual⟩, hpairing.short⟩, hpaired⟩, htail.short⟩

/-- The loader's fold over the lines of a saved file. -/
theorem foldl_saved (h : Persistable retail settings)
    (hbind : '\n' ∉ settings.config.localBindIp.text) (debugLogging : ℤ) :
    ((entries settings).map Entry.render).foldl (readLine retail) (.initial debugLogging) =
      { settings.reloaded with fileLoaded := true, presetIndexLoaded := true } := by
  have hpairing : ReadBack retail _ 11 := pairingEntries_readBack
  have hcount := length_inUse h
  -- everything but the paired hosts and what follows them
  let s : LoadState :=
    { config :=
        { settings.config with
          toPairedHosts := .initial
          localBindIp := .cleared 16
          uiThemeIndex := 0 }
      manualHosts := settings.manualHosts
      debugLogging := settings.debugLogging
      fileLoaded := true
      presetIndexLoaded := true }
  have hfront : ((headEntries settings ++ manualHostEntries 0 settings.manualHosts ++
        [Entry.remark [], Entry.remark "[pairing]".toList]).map Entry.render).foldl
      (readLine retail) (.initial debugLogging) = s := by
    simp only [List.map_append, List.foldl_append]
    rw [(headEntries_readBack h).foldl, headEntries_apply h,
      foldl_manualHosts 0 (by simpa using h.manualHostCount) h.manualHosts rfl,
      hpairing.foldl]
    rfl
  obtain ⟨slots, hslots, hpaired⟩ := foldl_pairedHosts retail s
    settings.config.toPairedHosts.inUse []
    (by rw [hcount]; simpa using h.pairedHostCount) (by rfl) (Nat.le_refl 0)
    h.pairedHosts h.lastPairedHost rfl
  have hpersisted : slots = settings.config.toPairedHosts.persisted.pairedHostIps := by
    apply Vector.toList_inj.mp
    rw [hslots, persisted_toList h.pairedHostCount, hcount]
    rfl
  have hlast : (if settings.config.toPairedHosts.inUse = [] then s.config.pairedHostCount
      else 0 + settings.config.toPairedHosts.inUse.length) =
        settings.config.pairedHostCount := by
    rw [Nat.zero_add, hcount]
    split
    · rename_i hnil
      rw [hnil] at hcount
      exact hcount
    · rfl
  rw [entries, List.append_assoc, List.map_append, List.foldl_append, hfront,
    List.map_append, List.foldl_append]
  rw [List.length_nil] at hpaired
  rw [hpaired, hlast, hpersisted, (tailEntries_readBack h hbind).foldl]
  rfl

/-- A saved file is loaded again. -/
theorem loadConfig_saved (h : Persistable retail settings)
    (hbind : '\n' ∉ settings.config.localBindIp.text) (debugLogging : ℤ) :
    loadConfig retail debugLogging (some (saveConfig settings)) =
      (settings.reloaded, 0) := by
  have hlines := fileLines_saved h hbind
  have hne : (saveConfig settings).take 2047 ≠ [] := by
    intro hnil
    rw [hnil, fileLines] at hlines
    exact absurd hlines (by simp [entries, headEntries])
  have hfinish := finishLoad_eq h
    (s := { settings.reloaded with fileLoaded := true, presetIndexLoaded := true })
    rfl rfl rfl rfl rfl rfl rfl rfl
  simp only [loadConfig, if_neg hne, hlines, foldl_saved h hbind, hfinish, if_true]

/-- Saving and loading again yields the same settings; the slots behind the count
are the only ones that are not kept. -/
theorem loadConfig_saveConfig (h : Persistable retail settings)
    (hbind : Plain settings.config.localBindIp.text) (debugLogging : ℤ) :
    loadConfig retail debugLogging (some (saveConfig settings)) =
      ({ settings with
          config.toPairedHosts := settings.config.toPairedHosts.persisted }, 0) := by
  have hsame : Field.strncpy 16 (trimWhitespace settings.config.localBindIp.text) =
      settings.config.localBindIp := by
    rw [hbind.trim]
    exact Field.ext (Field.strncpy_text settings.config.localBindIp.fits)
  rw [loadConfig_saved h hbind.oneLine, Settings.reloaded, hsame]

/-- The defaults with one host of either kind and a local address. -/
def oneHost (localBindIp : Field 16) : Settings where
  config :=
    { configSetDefaults with
      pairedHostCount := 1
      pairedHostIps :=
        (Vector.replicate 8 (.cleared 16)).setIfInBounds 0 (.strncpy 16 "10.0.0.2".toList)
      localBindIp := localBindIp }
  manualHosts := [⟨.strncpy 16 "10.0.0.3".toList, .strncpy 18 "0A:0B".toList⟩]
  debugLogging := 1

theorem oneHost_persistable (localBindIp : Field 16) :
    Persistable false (oneHost localBindIp) where
  bitrate := by simp [oneHost, configSetDefaults]
  packetSize := by simp [oneHost, configSetDefaults]
  presetIndex := by simp [oneHost, configSetDefaults]
  size := .inr ⟨1, rfl, rfl⟩
  frameRate := by
    intro fps hfps
    exact Option.some.inj hfps
  audioEnabled := .inr rfl
  cabacTestMode := .inl rfl
  disableEncryption := .inr rfl
  debugLogging := rfl
  int32 := by simp [oneHost, configSetDefaults]
  pairedHostCount := by simp [oneHost]
  pairedHosts := by
    intro ip hip
    obtain rfl : ip = .strncpy 16 "10.0.0.2".toList := List.mem_singleton.mp hip
    decide
  lastPairedHost := by
    intro ip hip
    obtain rfl : .strncpy 16 "10.0.0.2".toList = ip := Option.some.inj hip
    decide
  manualHostCount := by simp [oneHost]
  manualHosts := by
    intro entry hentry
    obtain rfl := List.mem_singleton.mp hentry
    decide

theorem loadConfig_saveConfig_oneHost :
    loadConfig false 0 (some (saveConfig (oneHost (.strncpy 16 "10.0.0.100".toList)))) =
      ({ oneHost (.strncpy 16 "10.0.0.100".toList) with
          config.toPairedHosts :=
            (oneHost (.strncpy 16 "10.0.0.100".toList)).config.toPairedHosts.persisted },
        0) :=
  loadConfig_saveConfig (oneHost_persistable _) (by decide) 0

/-- A local address of one blank has no line break and fits, and it is lost. -/
theorem loadConfig_saveConfig_blank :
    Persistable false (oneHost (.strncpy 16 [' '])) ∧
      '\n' ∉ (oneHost (.strncpy 16 [' '])).config.localBindIp.text ∧
      (loadConfig false 0 (some (saveConfig (oneHost (.strncpy 16 [' ']))))).1.config.localBindIp
        ≠ (oneHost (.strncpy 16 [' '])).config.localBindIp := by
  refine ⟨oneHost_persistable _, by decide, ?_⟩
  rw [loadConfig_saved (oneHost_persistable _) (by decide)]
  decide

end MoonlightPsp.Config
