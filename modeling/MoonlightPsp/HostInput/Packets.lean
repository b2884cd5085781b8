import MoonlightPsp.Control.Model
import MoonlightPsp.Pad
import Mathlib.Data.Int.Notation

/-!
# The packets of the input

What the host is sent: the state of the gamepad, which the mapper makes of a sample,
and the events of the mouse, the keyboard and the battery.
-/

namespace MoonlightPsp.HostInput

open MoonlightPsp.Control (putLe16 putLe32 putBe16)

/-! ## The gamepad -/

/-- `ButtonMapping`, without its version. -/
structure ButtonMapping where
  modifierButton : UInt32
  rightStickMode : UInt32
  l2Button : UInt32
  r2Button : UInt32
  rsUpButton : UInt32
  rsDownButton : UInt32
  rsLeftButton : UInt32
  rsRightButton : UInt32
  l3Button : UInt32
  r3Button : UInt32

/-- `set_default_mapping`. -/
def defaultMapping : ButtonMapping where
  modifierButton := ctrlLTrigger
  rightStickMode := 0
  l2Button := ctrlLeft
  r2Button := ctrlRight
  rsUpButton := ctrlTriangle
  rsDownButton := ctrlCross
  rsLeftButton := ctrlSquare
  rsRightButton := ctrlCircle
  l3Button := ctrlDown
  r3Button := ctrlUp

/-- The state of a gamepad. -/
structure Gamepad where
  buttons : UInt16
  lt : UInt8
  rt : UInt8
  lsx : Int16
  lsy : Int16
  rsx : Int16
  rsy : Int16

/-- The buttons of the pad with their flags. -/
def buttonFlags : List (UInt32 × UInt16) :=
  [(ctrlCross, 0x1000), (ctrlCircle, 0x2000), (ctrlSquare, 0x4000),
    (ctrlTriangle, 0x8000), (ctrlStart, 0x0010), (ctrlSelect, 0x0020),
    (ctrlLTrigger, 0x0100), (ctrlRTrigger, 0x0200), (ctrlUp, 0x0001),
    (ctrlDown, 0x0002), (ctrlLeft, 0x0004), (ctrlRight, 0x0008)]

def mlLsClk : UInt16 := 0x0040
def mlRsClk : UInt16 := 0x0080

/-- `translate_buttons`. -/
def translateButtons (pspButtons : UInt32) : UInt16 :=
  buttonFlags.foldl
    (fun flags b => if held pspButtons b.1 then flags ||| b.2 else flags) 0

/-- `consume_psp_button`, which knows single buttons only. -/
def consumePspButton (pspButton : UInt32) (flags : UInt16) : UInt16 :=
  match buttonFlags.find? (fun b => b.1 == pspButton) with
  | none => flags
  | some b => flags &&& ~~~b.2

/-- `map_analog`. -/
def mapAnalog (val : UInt8) : Int16 :=
  Int16.ofInt (max (-32767) (min 32767 (((val.toNat : ℤ) - 128) * 258)))

/-- `zero_deadzone_axis`. -/
def zeroDeadzoneAxis (value : Int16) : Int16 :=
  if value > -3200 ∧ value < 3200 then 0 else value

/-- One mapped button: its action, and then it is consumed. -/
def mapped (pspButtons button : UInt32) (act : Gamepad → Gamepad)
    (s : Gamepad × Bool) : Gamepad × Bool :=
  if button ≠ 0 ∧ held pspButtons button then
    let g := act s.1
    ({ g with buttons := consumePspButton button g.buttons }, true)
  else s

/-- The right stick, from the nub or from buttons. -/
def mapRightStick (m : ButtonMapping) (pspButtons : UInt32) (g : Gamepad) :
    Gamepad × Bool :=
  if m.rightStickMode = 1 then
    let ax := zeroDeadzoneAxis g.lsx
    let ay := zeroDeadzoneAxis g.lsy
    if ax ≠ 0 ∨ ay ≠ 0 then
      ({ g with rsx := ax, rsy := ay, lsx := 0, lsy := 0 }, true)
    else (g, false)
  else
    let s := mapped pspButtons m.rsUpButton (fun g => { g with rsy := 24000 }) (g, false)
    let s := mapped pspButtons m.rsDownButton (fun g => { g with rsy := -24000 }) s
    let s := mapped pspButtons m.rsLeftButton (fun g => { g with rsx := -24000 }) s
    mapped pspButtons m.rsRightButton (fun g => { g with rsx := 24000 }) s

/-- `apply_button_mapper_v2`. -/
def applyButtonMapperV2 (m : ButtonMapping) (pspButtons : UInt32) (g : Gamepad) :
    Gamepad :=
  let g := { g with lt := 0, rt := 0, rsx := 0, rsy := 0 }
  if m.modifierButton = 0 ∨ held pspButtons m.modifierButton = false then g
  else
    let s := mapRightStick m pspButtons g
    let s := mapped pspButtons m.l2Button (fun g => { g with lt := 0xFF }) s
    let s := mapped pspButtons m.r2Button (fun g => { g with rt := 0xFF }) s
    let s := mapped pspButtons m.l3Button
      (fun g => { g with buttons := g.buttons ||| mlLsClk }) s
    let s := mapped pspButtons m.r3Button
      (fun g => { g with buttons := g.buttons ||| mlRsClk }) s
    if s.2 then
      { s.1 with buttons := consumePspButton m.modifierButton s.1.buttons }
    else s.1

/-- The gamepad of a sample. -/
def gamepadOf (m : ButtonMapping) (pad : Pad) : Gamepad :=
  applyButtonMapperV2 m pad.buttons {
    buttons := translateButtons pad.buttons
    lt := 0
    rt := 0
    lsx := mapAnalog pad.lx
    lsy := -mapAnalog pad.ly
    rsx := 0
    rsy := 0 }

/-! ## The packets -/

/-- `put_be32`. -/
def putBe32 (v : UInt32) : List UInt8 :=
  putBe16 (v >>> 16).toUInt16 ++ putBe16 v.toUInt16

/-- `build_packet`. -/
def buildPacket (g : Gamepad) : List UInt8 :=
  putBe32 30 ++ putLe32 0x0000000C ++ putLe16 0x001A ++ putLe16 0 ++ putLe16 1 ++
    putLe16 0x0014 ++ putLe16 g.buttons ++ [g.lt, g.rt] ++ putLe16 g.lsx.toUInt16 ++
    putLe16 g.lsy.toUInt16 ++ putLe16 g.rsx.toUInt16 ++ putLe16 g.rsy.toUInt16 ++
    putLe16 0x009C ++ putLe16 0 ++ putLe16 0x0055

/-- What is sent. -/
inductive Sent where
  | controllerArrival
  | controllerBattery (state percent : UInt8)
  | gamepad (m : ButtonMapping) (pad : Pad)
  | mouseMove (dx dy : Int16)
  | mouseButton (pressed : Bool) (button : UInt8)
  | keyboard (keyAction : UInt8) (vkCode : UInt16) (modifiers : UInt8)
  | scroll (amount : Int16)

/-- The packet of an event. -/
def Sent.packet : Sent → List UInt8
  | .controllerArrival =>
      putBe32 12 ++ putLe32 0x55000004 ++ [0, 1] ++ putLe16 0x41 ++ putLe32 0xFFFF
  | .controllerBattery state percent =>
      putBe32 8 ++ putLe32 0x55000007 ++ [0, state, percent, 0]
  | .gamepad m pad => buildPacket (gamepadOf m pad)
  | .mouseMove dx dy =>
      putBe32 8 ++ putLe32 0x00000007 ++ putBe16 dx.toUInt16 ++ putBe16 dy.toUInt16
  | .mouseButton pressed button =>
      putBe32 5 ++ putLe32 (if pressed then 0x08 else 0x09) ++ [button]
  | .keyboard keyAction vkCode modifiers =>
      putBe32 10 ++ putLe32 keyAction.toUInt32 ++ [0] ++ putLe16 vkCode ++
        [modifiers, 0, 0]
  | .scroll amount =>
      putBe32 10 ++ putLe32 0x0000000A ++ putBe16 amount.toUInt16 ++
        putBe16 amount.toUInt16 ++ [0, 0]

/-- The channel of an event. -/
def Sent.channel : Sent → UInt8
  | .controllerArrival => 0x10
  | .controllerBattery _ _ => 0x10
  | .gamepad _ _ => 0x10
  | .mouseMove _ _ => 0x03
  | .mouseButton _ _ => 0x03
  | .keyboard _ _ _ => 0x02
  | .scroll _ => 0x03

/-- A packet starts with the number of the bytes behind that number. -/
theorem Sent.packet_size (e : Sent) : ∃ n : ℕ, e.packet.length = n + 4 ∧
    e.packet.take 4 = putBe32 (UInt32.ofNat n) := by
  cases e with
  | controllerArrival => exact ⟨12, rfl, rfl⟩
  | controllerBattery state percent => exact ⟨8, rfl, rfl⟩
  | gamepad m pad => exact ⟨30, rfl, rfl⟩
  | mouseMove dx dy => exact ⟨8, rfl, rfl⟩
  | mouseButton pressed button => exact ⟨5, rfl, rfl⟩
  | keyboard keyAction vkCode modifiers => exact ⟨10, rfl, rfl⟩
  | scroll amount => exact ⟨10, rfl, rfl⟩

end MoonlightPsp.HostInput
