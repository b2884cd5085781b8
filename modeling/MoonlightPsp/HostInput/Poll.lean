import MoonlightPsp.HostInput.Packets

/-!
# Polling the pad

`input_poll_and_send` sends a sample when it differs from the last one that was sent,
and not too often while only the stick moves.  Its memories are static: only the
last sample and the flag of its validity are set at the start of a session.
-/

namespace MoonlightPsp.HostInput

/-- The static variables of `input.c`, with the settings that the session runs with. -/
structure InputState where
  initialized : Bool
  browser : Bool
  mapping : ButtonMapping
  prev : Pad
  prevValid : Bool
  mouseLDown : Bool
  mouseRDown : Bool
  oskTriggerPrev : Bool
  lastSendTick : UInt32
  lastBatteryReportUs : UInt32
  lastBatteryPercent : ℤ
  lastBatteryState : UInt8

/-- What the power service tells. -/
structure Power where
  charging : ℤ
  exists_ : ℤ
  percent : ℤ

/-- What `input_init` finds: the settings, the mapping that it loads, the sample it
peeks at, and the clock. -/
structure Setup where
  browser : Bool
  mapping : ButtonMapping
  peeked : Pad
  power : Power
  nowUs : UInt32

/-- What a poll finds: the clock at its start, the pad, what the remote control adds to
it, and the clock behind the comparison. -/
structure Poll where
  startUs : UInt32
  power : Power
  pad : Pad
  remoteButtons : UInt32
  remoteAnalog : Option (UInt32 × UInt32)
  nowUs : UInt32

/-- The sample, with what the remote control adds. -/
def Poll.sample (p : Poll) : Pad :=
  let pad := { p.pad with buttons := p.pad.buttons ||| p.remoteButtons }
  match p.remoteAnalog with
  | none => pad
  | some (lx, ly) => { pad with lx := (min lx 255).toUInt8, ly := (min ly 255).toUInt8 }

namespace InputState

/-- `send_controller_battery`. -/
def sendControllerBattery (pw : Power) (s : InputState) : InputState × Sent :=
  let charging : Bool := pw.charging > 0
  let report : UInt8 × ℤ :=
    if pw.exists_ = 0 then (0x01, 0)
    else if pw.percent < 0 ∨ pw.percent > 100 then
      (s.lastBatteryState, s.lastBatteryPercent)
    else if charging then (if pw.percent ≥ 100 then 0x05 else 0x03, pw.percent)
    else (0x02, pw.percent)
  let percent := max 0 (min 100 report.2)
  let s :=
    if report.1 ≠ 0x01 ∧ report.1 ≠ 0x00 then
      { s with lastBatteryState := report.1, lastBatteryPercent := percent }
    else s
  (s, .controllerBattery report.1 (UInt8.ofNat percent.toNat))

/-- `input_init`. -/
def init (setup : Setup) (s : InputState) : InputState × List Sent :=
  let s := { s with
    initialized := true
    browser := setup.browser
    mapping := setup.mapping
    prev := setup.peeked
    prevValid := true }
  let r := s.sendControllerBattery setup.power
  ({ r.1 with lastBatteryReportUs := setup.nowUs }, [.controllerArrival, r.2])

/-- `input_shutdown`. -/
def shutdown (s : InputState) : InputState := { s with initialized := false }

/-- The battery is reported every thirty seconds. -/
def batteryReport (p : Poll) (s : InputState) : InputState × List Sent :=
  if p.startUs - s.lastBatteryReportUs ≥ 30000000 then
    let r := s.sendControllerBattery p.power
    ({ r.1 with lastBatteryReportUs := p.startUs }, [r.2])
  else (s, [])

/-- The distance of two axes. -/
def axisDistance (a b : UInt8) : ℕ := ((a.toNat : ℤ) - b.toNat).natAbs

/-- `state_changed`. -/
def stateChanged (cur : Pad) (s : InputState) : Bool :=
  if !s.prevValid then true
  else if cur.buttons ≠ s.prev.buttons then true
  else decide (axisDistance cur.lx s.prev.lx > 3 ∨ axisDistance cur.ly s.prev.ly > 3)

/-- The buttons did not change, and the last sending is less than a thirtieth of a
second ago. -/
def throttled (p : Poll) (s : InputState) : Bool :=
  p.sample.buttons = s.prev.buttons ∧ s.lastSendTick ≠ 0 ∧
    p.nowUs - s.lastSendTick < 33333

end InputState

/-! ## The browser -/

/-- `browser_mouse_delta`, for an axis between -128 and 127. -/
def browserMouseDelta (axis : ℤ) : ℤ :=
  let mag := axis.natAbs
  if mag ≤ 18 then 0
  else
    let mag := mag - 18
    let delta := mag * 12 / 109 + mag * mag * 16 / (109 * 109)
    axis.sign * (max 1 delta : ℕ)

/-- The movement of the mouse. -/
def mouseDelta (pad : Pad) : ℤ × ℤ :=
  (browserMouseDelta (pad.lx.toNat - 128), browserMouseDelta (pad.ly.toNat - 128))

def scrollCombo (buttons : UInt32) : Bool :=
  held buttons ctrlLTrigger && held buttons (ctrlUp ||| ctrlDown)

def oskCombo (buttons : UInt32) : Bool :=
  held buttons ctrlRTrigger && held buttons ctrlTriangle

/-- The left button of the mouse is held: L outside its combination. -/
def leftHeld (buttons : UInt32) : Bool :=
  held buttons ctrlLTrigger && !scrollCombo buttons

/-- The right button of the mouse is held: R outside its combinations. -/
def rightHeld (buttons : UInt32) : Bool :=
  held buttons ctrlRTrigger && !oskCombo buttons && !hudCombo buttons

/-- `send_key_tap`. -/
def sendKeyTap (vkCode : UInt16) : List Sent :=
  [.keyboard 0x03 vkCode 0, .keyboard 0x04 vkCode 0]

/-- One button of the mouse, which is sent at its edges. -/
def sendMouseButton (button : UInt8) (now down : Bool) : List Sent :=
  if now && !down then [.mouseButton true button]
  else if !now && down then [.mouseButton false button]
  else []

/-- The wheel. -/
def browserScroll (buttons prev : UInt32) : List Sent :=
  if held buttons ctrlLTrigger then
    (if held buttons ctrlUp && !held prev ctrlUp then [.scroll 120] else []) ++
      (if held buttons ctrlDown && !held prev ctrlDown then [.scroll (-120)] else [])
  else []

/-- The keys of the browser: the buttons that were pressed, and the key of each. -/
def browserKeys (buttons prev : UInt32) : List Sent :=
  let pressed := buttons &&& ~~~prev
  let tap (mask : UInt32) (vkCode : UInt16) : List Sent :=
    if held pressed mask then sendKeyTap vkCode else []
  (if !scrollCombo buttons && !hudCombo buttons then tap ctrlUp 0x26 else []) ++
    (if !scrollCombo buttons then tap ctrlDown 0x28 else []) ++
    tap ctrlLeft 0x25 ++ tap ctrlRight 0x27 ++ tap ctrlCross 0x0D ++
    tap ctrlCircle 0x1B ++
    (if !oskCombo buttons then tap ctrlTriangle 0x09 else []) ++
    tap ctrlSquare 0x20 ++ tap ctrlStart 0x0D ++ tap ctrlSelect 0x1B

namespace InputState

/-- R and Triangle send Enter. -/
def oskKey (pad : Pad) (s : InputState) : InputState × List Sent :=
  let now := oskCombo pad.buttons
  ({ s with oskTriggerPrev := now },
    if now && !s.oskTriggerPrev then sendKeyTap 0x0D else [])

/-- A sample in the mode of the browser. -/
def transmitBrowser (pad : Pad) (s : InputState) : InputState × List Sent :=
  let scroll := browserScroll pad.buttons s.prev.buttons
  let r := s.oskKey pad
  let delta := mouseDelta pad
  let move := if delta.1 ≠ 0 ∨ delta.2 ≠ 0 then
    [Sent.mouseMove (Int16.ofInt delta.1) (Int16.ofInt delta.2)] else []
  let left := sendMouseButton 1 (leftHeld pad.buttons) s.mouseLDown
  let right := sendMouseButton 3 (rightHeld pad.buttons) s.mouseRDown
  let keys := if pad.buttons ≠ s.prev.buttons then
    browserKeys pad.buttons s.prev.buttons else []
  ({ r.1 with
    mouseLDown := leftHeld pad.buttons
    mouseRDown := rightHeld pad.buttons },
    scroll ++ r.2 ++ move ++ left ++ right ++ keys)

/-- A sample in the mode of the gamepad. -/
def transmitXbox (pad : Pad) (s : InputState) : InputState × List Sent :=
  let r := s.oskKey pad
  (r.1, r.2 ++ [.gamepad s.mapping pad])

/-- The stick moves the mouse. -/
def mouseMoves (p : Poll) (s : InputState) : Bool :=
  s.browser && decide (mouseDelta p.sample ≠ (0, 0))

/-- `input_poll_and_send` behind the combinations. -/
def send (p : Poll) (s : InputState) : InputState × List Sent :=
  if !s.stateChanged p.sample && !s.mouseMoves p then (s, [])
  else if s.throttled p then (s, [])
  else
    let s := { s with lastSendTick := p.nowUs }
    let r := if s.browser then s.transmitBrowser p.sample else s.transmitXbox p.sample
    ({ r.1 with prev := p.sample }, r.2)

/-- `input_poll_and_send`. -/
def poll (p : Poll) (s : InputState) : InputState × List Sent :=
  if !s.initialized then (s, [])
  else
    let r := s.batteryReport p
    if exitCombo p.sample.buttons || hudCombo p.sample.buttons then r
    else
      let r' := r.1.send p
      (r'.1, r.2 ++ r'.2)

end InputState

end MoonlightPsp.HostInput
