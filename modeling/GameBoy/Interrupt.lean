/-!
# Interrupt lines

The five lines share one layout in the request and enable registers.  A lower bit has higher
priority, and each line has its own entry address.
-/

namespace GameBoy

/-- An interrupt line, in bit order. -/
inductive Interrupt where
  | vblank
  | stat
  | timer
  | serial
  | joypad
deriving DecidableEq

namespace Interrupt

/-- Address of the request register IF. -/
def requestAddress : UInt16 := 0xFF0F

/-- Address of the enable register IE. -/
def enableAddress : UInt16 := 0xFFFF

/-- Every line, highest priority first. -/
def all : List Interrupt := [.vblank, .stat, .timer, .serial, .joypad]

/-- Bit position of a line. -/
def index : Interrupt → Nat
  | .vblank => 0
  | .stat => 1
  | .timer => 2
  | .serial => 3
  | .joypad => 4

/-- The byte with only the line's bit set. -/
def mask : Interrupt → UInt8
  | .vblank => 0x01
  | .stat => 0x02
  | .timer => 0x04
  | .serial => 0x08
  | .joypad => 0x10

/-- Address the processor jumps to when it services the line. -/
def vector (line : Interrupt) : UInt16 :=
  0x40 + 8 * UInt16.ofNat line.index

/-- The line's name in traces. -/
def name : Interrupt → String
  | .vblank => "VBLANK"
  | .stat => "STAT"
  | .timer => "TIMER"
  | .serial => "SERIAL"
  | .joypad => "JOYPAD"

/-- A set of interrupt lines. -/
structure Lines where
  vblank : Bool := false
  stat : Bool := false
  timer : Bool := false
  serial : Bool := false
  joypad : Bool := false
deriving DecidableEq

namespace Lines

/-- The line belongs to the set. -/
def contains (lines : Lines) : Interrupt → Bool
  | .vblank => lines.vblank
  | .stat => lines.stat
  | .timer => lines.timer
  | .serial => lines.serial
  | .joypad => lines.joypad

/-- The lines whose bits are set in a register byte; its upper three bits do not count. -/
def ofByte (byte : UInt8) : Lines where
  vblank := byte &&& 0x01 != 0
  stat := byte &&& 0x02 != 0
  timer := byte &&& 0x04 != 0
  serial := byte &&& 0x08 != 0
  joypad := byte &&& 0x10 != 0

/-- The register byte of a set, with the upper three bits clear. -/
def toByte (lines : Lines) : UInt8 :=
  (if lines.vblank then 0x01 else 0) ||| (if lines.stat then 0x02 else 0) |||
    (if lines.timer then 0x04 else 0) ||| (if lines.serial then 0x08 else 0) |||
    (if lines.joypad then 0x10 else 0)

/-- The lines in either set. -/
def union (left right : Lines) : Lines where
  vblank := left.vblank || right.vblank
  stat := left.stat || right.stat
  timer := left.timer || right.timer
  serial := left.serial || right.serial
  joypad := left.joypad || right.joypad

/-- The members, highest priority first. -/
def toList (lines : Lines) : List Interrupt :=
  all.filter lines.contains

/-- The member with the highest priority. -/
def first? (lines : Lines) : Option Interrupt :=
  all.find? lines.contains

/-- Entry address of the member with the highest priority; past all lines for the empty set. -/
def vector (lines : Lines) : UInt16 :=
  match lines.first? with
  | some line => line.vector
  | none => 0x80

@[simp]
theorem contains_union (left right : Lines) (line : Interrupt) :
    (left.union right).contains line = (left.contains line || right.contains line) := by
  cases line <;> rfl

theorem ofByte_toByte (lines : Lines) : ofByte lines.toByte = lines := by
  rcases lines with ⟨_ | _, _ | _, _ | _, _ | _, _ | _⟩ <;> decide

end Lines

/-- The lines that are both enabled and requested, from the two register bytes. -/
def pending (enable request : UInt8) : Lines :=
  Lines.ofByte (enable &&& request)

/-- The line serviced next for given register bytes, the master enable left aside. -/
def highestPriority (enable request : UInt8) : Option Interrupt :=
  (pending enable request).first?

end Interrupt
end GameBoy
