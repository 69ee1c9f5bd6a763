import GameBoy.Word

/-!
# Register file

Eight byte registers pair up as AF, BC, DE and HL beside SP and PC.  F holds four flags in its upper
half and its lower half does not exist.  Three mode flags describe how the processor proceeds.
-/

namespace GameBoy

/-- The condition flags. -/
structure Flags where
  zero : Bool := false
  subtract : Bool := false
  halfCarry : Bool := false
  carry : Bool := false
deriving DecidableEq

namespace Flags

/-- The flags as the register F. -/
def toByte (flags : Flags) : UInt8 :=
  (if flags.zero then 0x80 else 0) ||| (if flags.subtract then 0x40 else 0) |||
    (if flags.halfCarry then 0x20 else 0) ||| (if flags.carry then 0x10 else 0)

/-- The flags held in the upper half of a byte. -/
def ofByte (byte : UInt8) : Flags where
  zero := byte &&& 0x80 != 0
  subtract := byte &&& 0x40 != 0
  halfCarry := byte &&& 0x20 != 0
  carry := byte &&& 0x10 != 0

theorem ofByte_toByte (flags : Flags) : ofByte flags.toByte = flags := by
  rcases flags with ⟨_ | _, _ | _, _ | _, _ | _⟩ <;> decide

end Flags

/-- The register file and the processor's mode. -/
structure Registers where
  a : UInt8 := 0
  flags : Flags := {}
  b : UInt8 := 0
  c : UInt8 := 0
  d : UInt8 := 0
  e : UInt8 := 0
  h : UInt8 := 0
  l : UInt8 := 0
  sp : UInt16 := 0
  pc : UInt16 := 0
  /-- Waiting for an interrupt request. -/
  halted : Bool := false
  /-- Waiting for a button. -/
  stopped : Bool := false
  /-- Interrupt master enable. -/
  ime : Bool := false
deriving DecidableEq

namespace Registers

/-- The pair AF. -/
def af (regs : Registers) : UInt16 := Word.ofBytes regs.a regs.flags.toByte

/-- The pair BC. -/
def bc (regs : Registers) : UInt16 := Word.ofBytes regs.b regs.c

/-- The pair DE. -/
def de (regs : Registers) : UInt16 := Word.ofBytes regs.d regs.e

/-- The pair HL. -/
def hl (regs : Registers) : UInt16 := Word.ofBytes regs.h regs.l

/-- Replace AF; the lower half of F is dropped. -/
def setAF (regs : Registers) (word : UInt16) : Registers :=
  { regs with a := Word.high word, flags := Flags.ofByte (Word.low word) }

/-- Replace BC. -/
def setBC (regs : Registers) (word : UInt16) : Registers :=
  { regs with b := Word.high word, c := Word.low word }

/-- Replace DE. -/
def setDE (regs : Registers) (word : UInt16) : Registers :=
  { regs with d := Word.high word, e := Word.low word }

/-- Replace HL. -/
def setHL (regs : Registers) (word : UInt16) : Registers :=
  { regs with h := Word.high word, l := Word.low word }

end Registers
end GameBoy
