import GameBoy.Cpu.Instruction

/-!
# Arithmetic unit

Each operation maps bytes or words and the flags before it to a result and the flags after it.
Carries are stated on numbers: the half carry on the low four bits of each operand, the carry on all
of them.
-/

namespace GameBoy
namespace Alu

/-- Zero or one. -/
def carryBit (carry : Bool) : UInt8 := if carry then 1 else 0

/-- Sum of two bytes and a carry. -/
def add (left right : UInt8) (carryIn : Bool) : UInt8 × Flags :=
  let result := left + right + carryBit carryIn
  (result,
    { zero := result == 0
      halfCarry := left.toNat % 16 + right.toNat % 16 + carryIn.toNat > 15
      carry := left.toNat + right.toNat + carryIn.toNat > 255 })

/-- Difference of two bytes and a borrow. -/
def sub (left right : UInt8) (borrowIn : Bool) : UInt8 × Flags :=
  let result := left - right - carryBit borrowIn
  (result,
    { zero := result == 0
      subtract := true
      halfCarry := left.toNat % 16 < right.toNat % 16 + borrowIn.toNat
      carry := left.toNat < right.toNat + borrowIn.toNat })

/-- Flags of a bitwise operation. -/
def logicFlags (result : UInt8) (halfCarry : Bool) : Flags :=
  { zero := result == 0, halfCarry }

/-- An operation of A with a byte; a comparison subtracts and keeps A. -/
def combine (op : AluOp) (a value : UInt8) (flags : Flags) : UInt8 × Flags :=
  match op with
  | .add => add a value false
  | .adc => add a value flags.carry
  | .sub => sub a value false
  | .sbc => sub a value flags.carry
  | .and => (a &&& value, logicFlags (a &&& value) true)
  | .xor => (a ^^^ value, logicFlags (a ^^^ value) false)
  | .or => (a ||| value, logicFlags (a ||| value) false)
  | .cp => (a, (sub a value false).2)

/-- The correction that makes a sum or difference of decimal digits decimal again. -/
def decimalAdjustment (a : UInt8) (flags : Flags) : UInt8 :=
  let high := flags.carry || (!flags.subtract && a > 0x99)
  let low := flags.halfCarry || (!flags.subtract && a &&& 0x0F > 0x09)
  (if high then 0x60 else 0) ||| (if low then 0x06 else 0)

/-- Decimal adjustment of A after an addition or subtraction. -/
def daa (a : UInt8) (flags : Flags) : UInt8 × Flags :=
  let adjustment := decimalAdjustment a flags
  let result := if flags.subtract then a - adjustment else a + adjustment
  (result,
    { flags with zero := result == 0, halfCarry := false, carry := adjustment ≥ 0x60 })

/-- Successor of a byte; the carry is kept. -/
def inc (value : UInt8) (flags : Flags) : UInt8 × Flags :=
  let result := value + 1
  (result,
    { flags with
      zero := result == 0, subtract := false, halfCarry := value &&& 0x0F == 0x0F })

/-- Predecessor of a byte; the carry is kept. -/
def dec (value : UInt8) (flags : Flags) : UInt8 × Flags :=
  let result := value - 1
  (result,
    { flags with
      zero := result == 0, subtract := true, halfCarry := value &&& 0x0F == 0 })

/-- Sum of two words, with the half carry out of bit 11; the zero flag is kept. -/
def addWord (left right : UInt16) (flags : Flags) : UInt16 × Flags :=
  (left + right,
    { flags with
      subtract := false
      halfCarry := left.toNat % 0x1000 + right.toNat % 0x1000 > 0xFFF
      carry := left.toNat + right.toNat > 0xFFFF })

/-- Sum of a word and a signed byte, with the carries of the unsigned low bytes. -/
def addSigned (word : UInt16) (offset : UInt8) : UInt16 × Flags :=
  (word + Word.ofSigned offset,
    { halfCarry := word.toNat % 16 + offset.toNat % 16 > 15
      carry := word.toNat % 256 + offset.toNat > 255 })

/-- The bit shifted into one end, as a byte to be combined with the rest. -/
def shiftValue (op : ShiftOp) (value : UInt8) (carryIn : Bool) : UInt8 :=
  match op with
  | .rlc => value <<< 1 ||| value >>> 7
  | .rrc => value >>> 1 ||| value <<< 7
  | .rl => value <<< 1 ||| carryBit carryIn
  | .rr => value >>> 1 ||| carryBit carryIn <<< 7
  | .sla => value <<< 1
  | .sra => value >>> 1 ||| value &&& 0x80
  | .swap => value <<< 4 ||| value >>> 4
  | .srl => value >>> 1

/-- The bit shifted out; a swap shifts out none. -/
def shiftCarry (op : ShiftOp) (value : UInt8) : Bool :=
  match op with
  | .rlc | .rl | .sla => value &&& 0x80 != 0
  | .rrc | .rr | .sra | .srl => value &&& 0x01 != 0
  | .swap => false

/-- Rotation or shift of a byte. -/
def shift (op : ShiftOp) (value : UInt8) (carryIn : Bool) : UInt8 × Flags :=
  let result := shiftValue op value carryIn
  (result, { zero := result == 0, carry := shiftCarry op value })

/-- The byte with only the bit at `index` set. -/
def bitMask (index : Fin 8) : UInt8 :=
  1 <<< UInt8.ofNat index.val

/-- Flags after testing a bit; the carry is kept. -/
def bitFlags (index : Fin 8) (value : UInt8) (flags : Flags) : Flags :=
  { flags with
    zero := value &&& bitMask index == 0, subtract := false, halfCarry := true }

end Alu
end GameBoy
