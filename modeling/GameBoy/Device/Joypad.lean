import GameBoy.Interrupt

/-!
# Joypad

Eight buttons form two groups of four lines.  A line of the joypad register is low when a held
button of a selected group pulls it.
-/

namespace GameBoy

/-- A button, first the direction group and then the action group, in line order. -/
inductive Button where
  | right | left | up | down | a | b | select | start
deriving DecidableEq

/-- Position among the eight buttons; the last two bits are the line within the group. -/
def Button.index : Button → Fin 8
  | .right => 0
  | .left => 1
  | .up => 2
  | .down => 3
  | .a => 4
  | .b => 5
  | .select => 6
  | .start => 7

/-- The joypad register and the buttons behind it. -/
structure Joypad where
  /-- Group selection bits; a clear bit selects. -/
  select : UInt8 := 0x30
  /-- The buttons held down, by position. -/
  held : Vector Bool 8 := Vector.replicate 8 false
  /-- A press has not been signalled yet. -/
  requested : Bool := false
deriving DecidableEq

namespace Joypad

/-- The direction group is selected. -/
def directionsSelected (joypad : Joypad) : Bool :=
  joypad.select &&& 0x10 == 0

/-- The action group is selected. -/
def actionsSelected (joypad : Joypad) : Bool :=
  joypad.select &&& 0x20 == 0

/-- A held button of a selected group pulls the line. -/
def lineLow (joypad : Joypad) (line : Fin 4) : Bool :=
  (joypad.directionsSelected && joypad.held[line.val]) ||
    (joypad.actionsSelected && joypad.held[line.val + 4])

/-- The four lines as bits; a clear bit is a low line. -/
def lines (joypad : Joypad) : UInt8 :=
  (if joypad.lineLow 0 then 0 else 0x01) ||| (if joypad.lineLow 1 then 0 else 0x02) |||
    (if joypad.lineLow 2 then 0 else 0x04) ||| (if joypad.lineLow 3 then 0 else 0x08)

/-- The joypad register as read. -/
def read (joypad : Joypad) : UInt8 :=
  0xC0 ||| joypad.select ||| joypad.lines

/-- Write the joypad register. -/
def write (joypad : Joypad) (value : UInt8) : Joypad :=
  { joypad with select := value &&& 0x30 }

/-- Press or release a button; a button that goes down requests an interrupt. -/
def setButton (joypad : Joypad) (button : Button) (pressed : Bool) : Joypad :=
  { joypad with
    held := joypad.held.set button.index pressed
    requested := joypad.requested || (pressed && !joypad.held[button.index]) }

/-- The interrupt lines raised and not yet collected. -/
def raised (joypad : Joypad) : Interrupt.Lines :=
  { joypad := joypad.requested }

/-- Forget the raised lines once they are collected. -/
def acknowledge (joypad : Joypad) : Joypad :=
  { joypad with requested := false }

end Joypad
end GameBoy
