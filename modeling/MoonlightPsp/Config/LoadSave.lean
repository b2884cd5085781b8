import MoonlightPsp.Config.IniText

/-!
# Loading and saving the configuration

`loadConfig` and `saveConfig` of `config.c` on the text of `config.ini`, with the
fields of `PspConfig` that are kept in the file.
-/

namespace MoonlightPsp.Config

open Rtsp

/-- `ControlMode`. -/
inductive ControlMode where
  | xbox
  | browser
  deriving DecidableEq

/-- The number of a control mode. -/
def ControlMode.toInt : ControlMode → ℤ
  | .xbox => 0
  | .browser => 1

/-- `PspConfig`, as far as it is kept. -/
structure PspConfig extends PairedHosts where
  width : ℤ
  height : ℤ
  fps : ℤ
  bitrate : ℤ
  packetSize : ℤ
  controlMode : ControlMode
  presetIndex : ℤ
  resolutionIndex : ℤ
  fpsIndex : ℤ
  localBindIp : Field 16
  uiThemeIndex : ℤ
  cabacTestMode : ℤ
  audioEnabled : ℤ
  disableEncryption : ℤ
  deriving DecidableEq

/-- `ManualHostEntry`. -/
structure ManualHostEntry where
  ip : Field 16
  mac : Field 18
  deriving DecidableEq

/-- Everything that is kept: the configuration, `g_manual_hosts` up to its count
and `g_debug_logging`. -/
structure Settings where
  config : PspConfig
  manualHosts : List ManualHostEntry
  debugLogging : ℤ
  deriving DecidableEq

/-- `configSetDefaults`. -/
def configSetDefaults : PspConfig where
  toPairedHosts := .initial
  width := 360
  height := 204
  fps := 20
  bitrate := 480
  packetSize := 1200
  controlMode := .xbox
  presetIndex := 1
  resolutionIndex := 1
  fpsIndex := 2
  localBindIp := .cleared 16
  uiThemeIndex := 0
  cabacTestMode := 0
  audioEnabled := 1
  disableEncryption := 1

/-- `clamp_config_int`. -/
def clampConfigInt (value minValue maxValue : ℤ) : ℤ :=
  if value < minValue then minValue else if value > maxValue then maxValue else value

/-- `diag_log_set_debug`; a retail build keeps its log off. -/
def diagLogSetDebug (retail : Bool) (enable : ℤ) : ℤ :=
  if retail then 0 else if enable ≠ 0 then 1 else 0

/-! ## Saving -/

/-- `key = value` and its line end. -/
def numberLine (key : String) (value : ℤ) : Text :=
  key.toList ++ " = ".toList ++ signed value ++ "\n".toList

/-- The `manual_host_%d` lines, from number `index` on. -/
def manualHostLines (index : ℕ) : List ManualHostEntry → List Text
  | [] => []
  | entry :: rest =>
      ("manual_host_".toList ++ decimal index ++ " = ".toList ++ entry.ip.text ++
        ",".toList ++ entry.mac.text ++ "\n".toList) :: manualHostLines (index + 1) rest

/-- The `paired_host_%d` lines of the slots in use, from slot `pi` on; an empty slot
has none. -/
def pairedHostLines (pi : ℕ) : List (Field 16) → List Text
  | [] => []
  | ip :: rest =>
      (if ip.text ≠ [] then
        ["paired_host_".toList ++ decimal pi ++ " = ".toList ++ ip.text ++ "\n".toList]
      else []) ++ pairedHostLines (pi + 1) rest

/-- What `saveConfig` writes before the hosts. -/
def saveConfigHead (s : Settings) : List Text :=
  ["; Moonlight PSP Configuration File\n".toList,
    "; This file is auto-generated. Edit with care.\n\n".toList,
    "[stream]\n".toList,
    numberLine "width" s.config.width,
    numberLine "height" s.config.height,
    numberLine "resolutionIndex" s.config.resolutionIndex,
    numberLine "presetIndex" s.config.presetIndex,
    numberLine "fps" s.config.fps,
    numberLine "fpsIndex" s.config.fpsIndex,
    numberLine "bitrate" s.config.bitrate,
    numberLine "packetSize" s.config.packetSize,
    "\n[controls]\n".toList,
    numberLine "controlMode" s.config.controlMode.toInt,
    numberLine "audioEnabled" s.config.audioEnabled,
    "\n[advanced]\n".toList,
    numberLine "cabacTestMode" s.config.cabacTestMode,
    numberLine "disableEncryption" s.config.disableEncryption,
    numberLine "debugLog" s.debugLogging,
    "\n[hosts]\n".toList]

/-- What `saveConfig` writes after the hosts. -/
def saveConfigTail (s : Settings) : List Text :=
  ["\n[network]\n".toList,
    "; local_bind_ip: leave empty for real PSP hardware (uses INADDR_ANY).\n".toList,
    "; For PPSSPP on same host as server, set to a secondary NIC IP alias\n".toList,
    "; e.g.  local_bind_ip = 10.0.0.100\n".toList,
    "local_bind_ip = ".toList ++ s.config.localBindIp.text ++ "\n".toList,
    "\n[ui_colors]\n".toList,
    numberLine "uiThemeIndex" s.config.uiThemeIndex,
    "\n".toList]

/-- The texts that `saveConfig` writes one after the other. -/
def saveConfigWrites (s : Settings) : List Text :=
  saveConfigHead s ++ manualHostLines 0 s.manualHosts ++ ["\n[pairing]\n".toList] ++
    pairedHostLines 0 (s.config.pairedHostIps.toList.take s.config.pairedHostCount) ++
    saveConfigTail s

/-- The file that `saveConfig` leaves when every write succeeds. -/
def saveConfig (s : Settings) : Text := (saveConfigWrites s).flatten

/-! ## Loading -/

/-- The keys of the file. -/
inductive Key where
  | width | height | fpsIndex | fps | audioEnabled | bitrate | packetSize
  | controlMode | resolutionIndex | presetIndex | uiThemeIndex | cabacTestMode
  | disableEncryption | debugLog | pairedHostIp | pairedHost | localBindIp
  | manualHost
  deriving DecidableEq

/-- What a line of the key begins with. -/
def Key.text : Key → String
  | width => "width"
  | height => "height"
  | fpsIndex => "fpsIndex"
  | fps => "fps"
  | audioEnabled => "audioEnabled"
  | bitrate => "bitrate"
  | packetSize => "packetSize"
  | controlMode => "controlMode"
  | resolutionIndex => "resolutionIndex"
  | presetIndex => "presetIndex"
  | uiThemeIndex => "uiThemeIndex"
  | cabacTestMode => "cabacTestMode"
  | disableEncryption => "disableEncryption"
  | debugLog => "debugLog"
  | pairedHostIp => "paired_host_ip"
  | pairedHost => "paired_host_"
  | localBindIp => "local_bind_ip"
  | manualHost => "manual_host_"

/-- The keys in the order in which `loadConfig` compares them with a line. -/
def Key.all : List Key :=
  [width, height, fpsIndex, fps, audioEnabled, bitrate, packetSize, controlMode,
    resolutionIndex, presetIndex, uiThemeIndex, cabacTestMode, disableEncryption,
    debugLog, pairedHostIp, pairedHost, localBindIp, manualHost]

/-- The key whose branch a line takes. -/
def keyOf (line : Text) : Option Key :=
  Key.all.find? fun key => key.text.toList.isPrefixOf line

/-- What `loadConfig` has read so far. -/
structure LoadState extends Settings where
  fileLoaded : Bool
  presetIndexLoaded : Bool

/-- The frame rate of an index; the custom index has none. -/
def fpsOfIndex (index : ℤ) : Option ℤ :=
  if index = 0 then some 10
  else if index = 1 then some 15
  else if index = 2 then some 20
  else if index = 3 then some 30
  else if index = 4 then some 60
  else none

/-- The index of a frame rate, `FPS_CUSTOM_INDEX` for those without one. -/
def indexOfFps (fps : ℤ) : ℤ :=
  if fps = 10 then 0
  else if fps = 15 then 1
  else if fps = 20 then 2
  else if fps = 30 then 3
  else if fps = 60 then 4
  else 5

/-- What `loadConfig` does with the number behind a key. -/
def setNumber (retail : Bool) (key : Key) (value : ℤ) (s : LoadState) : LoadState :=
  let s := { s with fileLoaded := true }
  match key with
  | .width => { s with config.width := value }
  | .height => { s with config.height := value }
  | .fpsIndex =>
      { s with
        config.fpsIndex := value
        config.fps := (fpsOfIndex value).getD s.config.fps }
  | .fps => { s with config.fps := value, config.fpsIndex := indexOfFps value }
  | .audioEnabled => { s with config.audioEnabled := value }
  | .bitrate =>
      let value := if value > 2760 then 2760 else value
      let value := if value < 192 then 192 else value
      { s with config.bitrate := value }
  | .packetSize => { s with config.packetSize := clampConfigInt value 512 1392 }
  | .controlMode =>
      { s with config.controlMode := if value = 0 then .xbox else .browser }
  | .resolutionIndex => { s with config.resolutionIndex := value }
  | .presetIndex => { s with config.presetIndex := value, presetIndexLoaded := true }
  | .uiThemeIndex => { s with config.uiThemeIndex := value }
  | .cabacTestMode => { s with config.cabacTestMode := if value ≠ 0 then 1 else 0 }
  | .disableEncryption =>
      { s with config.disableEncryption := if value ≠ 0 then 1 else 0 }
  | .debugLog => { s with debugLogging := diagLogSetDebug retail value }
  -- the other keys have no number
  | .pairedHostIp | .pairedHost | .localBindIp | .manualHost => s

/-- The legacy key of a single paired host. -/
def setLegacyHost (line : Text) (s : LoadState) : LoadState :=
  let legacyIp := (parseStringValue 16 line).getD (.cleared 16)
  let s := { s with fileLoaded := true }
  if legacyIp.text ≠ [] ∧ s.config.pairedHostCount = 0 then
    { s with
      config.pairedHostIps := s.config.pairedHostIps.set 0 legacyIp
      config.pairedHostCount := 1 }
  else s

/-- `paired_host_%d`. -/
def setPairedHost (line : Text) (s : LoadState) : LoadState :=
  let s := { s with fileLoaded := true }
  match scanInt (line.drop 12) with
  | none => s
  | some (slot, _) =>
      if h : 0 ≤ slot ∧ slot < 8 then
        let old := s.config.pairedHostIps[slot.toNat]
        { s with
          config.pairedHostIps := s.config.pairedHostIps.set slot.toNat
            ((parseStringValue 16 line).getD old)
          config.pairedHostCount :=
            if slot.toNat + 1 > s.config.pairedHostCount then slot.toNat + 1
            else s.config.pairedHostCount }
      else s

/-- The entry that a `manual_host_` line names: `ip,mac` or `ip` alone. -/
def manualHostOf (value : Field 64) : ManualHostEntry where
  ip := .strncpy 16 (trimWhitespace (value.text.takeWhile (· != ',')))
  mac :=
    if (value.text.dropWhile (· != ',')) = [] then .cleared 18
    else .strncpy 18 (trimWhitespace (value.text.dropWhile (· != ',')).tail)

/-- `manual_host_`; the list takes eight entries, those without an address are
dropped. -/
def setManualHost (line : Text) (s : LoadState) : LoadState :=
  match parseStringValue 64 line with
  | none => s
  | some value =>
      let entry := manualHostOf value
      if s.manualHosts.length < 8 ∧ entry.ip.text ≠ [] then
        { s with manualHosts := s.manualHosts ++ [entry], fileLoaded := true }
      else s

/-- The branch of one key. -/
def readKey (retail : Bool) (key : Key) (line : Text) (s : LoadState) : LoadState :=
  match key with
  | .pairedHostIp => setLegacyHost line s
  | .pairedHost => setPairedHost line s
  | .localBindIp =>
      { s with
        config.localBindIp := (parseStringValue 16 line).getD s.config.localBindIp
        fileLoaded := true }
  | .manualHost => setManualHost line s
  | key =>
      match parseIntValue line with
      | none => s
      | some value => setNumber retail key value s

/-- Empty lines, comments and section headers. -/
def isSkipped (line : Text) : Bool :=
  line.isEmpty || line.head? == some '#' || line.head? == some ';' ||
    line.head? == some '['

/-- What `loadConfig` does with one line. -/
def readLine (retail : Bool) (s : LoadState) (line : Text) : LoadState :=
  let trimmed := trimWhitespace line
  if isSkipped trimmed then s
  else
    match keyOf trimmed with
    | none => s
    | some key => readKey retail key trimmed s

/-! ## Normalisation -/

/-- `scale & 1` rounded up. -/
def evenUp (scale : ℤ) : ℤ := if scale % 2 = 1 then scale + 1 else scale

/-- `stream_resolution_normalize`. -/
def streamResolutionNormalize (width height : ℤ) : ℤ × ℤ :=
  let width := if width > 0 then width else 480
  let height := if height > 0 then height else 272
  let scaleMin := (300 + 29) / 30
  let scaleMax := 480 / 30
  let scale := evenUp (((width + 15) / 30 + (height + 8) / 17 + 1) / 2)
  let scale := evenUp (if scale < scaleMin then scaleMin else scale)
  let scale := if scale > scaleMax then scaleMax - scaleMax % 2 else scale
  let scale := if scale < 2 then 2 else scale
  let scale := if 17 * scale > 272 then 272 / 17 - 272 / 17 % 2 else scale
  (30 * scale, 17 * scale)

/-- `RESOLUTION_WIDTHS` and `RESOLUTION_HEIGHTS` of the presets. -/
def resolutionPresets : List (ℤ × ℤ) := [(480, 272), (360, 204), (300, 170)]

/-- The loop that looks for the nearest preset: the best so far, its difference
and the number of the next one. -/
def nearestPreset (width height : ℤ) (best : ℤ) : ℤ :=
  (resolutionPresets.foldl (fun (best, bestDiff, i) (w, h) =>
      let diff := (if w > width then w - width else width - w) +
        (if h > height then h - height else height - h)
      if diff < bestDiff then (i, diff, i + 1) else (best, bestDiff, i + 1))
    (best, (999999 : ℤ), (0 : ℤ))).1

/-- The clamps of both indices. -/
def clampIndices (config : PspConfig) : PspConfig :=
  let valid (index : ℤ) : ℤ := if index < 0 ∨ index ≥ 4 then 1 else index
  { config with
    presetIndex := valid config.presetIndex
    resolutionIndex := valid config.resolutionIndex }

/-- The size of the selected mode. -/
def selectSize (config : PspConfig) : PspConfig :=
  if config.resolutionIndex = 3 then
    let size := streamResolutionNormalize config.width config.height
    { config with width := size.1, height := size.2 }
  else
    let best := nearestPreset config.width config.height config.resolutionIndex
    let size := resolutionPresets.getD best.toNat (0, 0)
    { config with resolutionIndex := best, width := size.1, height := size.2 }

/-- What `loadConfig` does after the last line. -/
def finishLoad (s : LoadState) : PspConfig :=
  let config := selectSize (clampIndices s.config)
  { config with
    presetIndex :=
      if s.presetIndexLoaded then config.presetIndex else config.resolutionIndex
    bitrate := clampConfigInt config.bitrate 192 2760
    packetSize := clampConfigInt config.packetSize 512 1392
    audioEnabled := if config.audioEnabled ≠ 0 then 1 else 0 }

/-- The state in which `loadConfig` starts. -/
def LoadState.initial (debugLogging : ℤ) : LoadState where
  config := configSetDefaults
  manualHosts := []
  debugLogging := debugLogging
  fileLoaded := false
  presetIndexLoaded := false

/-- `loadConfig` on a file that may be missing: what is in force afterwards and the
return value. -/
def loadConfig (retail : Bool) (debugLogging : ℤ) (file : Option Text) : Settings × ℤ :=
  let start := LoadState.initial debugLogging
  match file with
  | none => (start.toSettings, -1)
  | some file =>
      let buffer := file.take 2047
      if buffer = [] then (start.toSettings, -1)
      else
        let s := (fileLines buffer).foldl (readLine retail) start
        ({ s.toSettings with config := finishLoad s }, if s.fileLoaded then 0 else -1)

end MoonlightPsp.Config
