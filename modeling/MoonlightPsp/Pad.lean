/-!
# The pad

A sample of the pad, and the masks of its buttons.
-/

namespace MoonlightPsp

/-- `SceCtrlData`, without the time. -/
structure Pad where
  buttons : UInt32
  lx : UInt8
  ly : UInt8
  deriving DecidableEq

def ctrlSelect : UInt32 := 0x1
def ctrlStart : UInt32 := 0x8
def ctrlUp : UInt32 := 0x10
def ctrlRight : UInt32 := 0x20
def ctrlDown : UInt32 := 0x40
def ctrlLeft : UInt32 := 0x80
def ctrlLTrigger : UInt32 := 0x100
def ctrlRTrigger : UInt32 := 0x200
def ctrlTriangle : UInt32 := 0x1000
def ctrlCircle : UInt32 := 0x2000
def ctrlCross : UInt32 := 0x4000
def ctrlSquare : UInt32 := 0x8000

/-- One of the buttons of a mask is held. -/
def held (buttons mask : UInt32) : Bool := buttons &&& mask ≠ 0

/-- Start and Select together. -/
def exitCombo (buttons : UInt32) : Bool :=
  held buttons ctrlStart && held buttons ctrlSelect

/-- R and Up together, which toggles the overlay. -/
def hudCombo (buttons : UInt32) : Bool :=
  held buttons ctrlRTrigger && held buttons ctrlUp

end MoonlightPsp
