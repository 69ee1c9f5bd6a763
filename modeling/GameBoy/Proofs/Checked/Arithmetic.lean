import GameBoy.Cpu.Execute
import Mathlib.Algebra.Ring.Int.Defs
import Mathlib.Algebra.Ring.Nat

/-!
# Checked arithmetic

Numbers in the machine have widths, and an operation overruns where its result does not fit, a
difference is negative, a divisor is zero or a shift is by too many places.  The operations of the
arithmetic unit and of the interrupt lines are carried out here in the widths that they are meant
for.  Whatever their operands are, none of them overruns.
-/

namespace GameBoy

namespace Checked

/-- The number, if it fits into so many bits. -/
def fit (bits number : Nat) : Option Nat :=
  if number < 2 ^ bits then some number else none

/-- The number, if it fits into so many bits of which one is the sign. -/
def fitSigned (bits : Nat) (number : Int) : Option Int :=
  if -2 ^ (bits - 1) ≤ number ∧ number < 2 ^ (bits - 1) then some number else none

/-- The difference of two numbers, if it is not negative. -/
def minus (number other : Nat) : Option Nat :=
  if other ≤ number then some (number - other) else none

/-- The remainder of a division, if the divisor is not zero. -/
def remainder (number divisor : Nat) : Option Nat :=
  if divisor = 0 then none else some (number % divisor)

/-- The number of places, if so many bits can be shifted by it. -/
def places (bits count : Nat) : Option Nat :=
  if count < bits then some count else none

variable {α : Type}

theorem bind_fit {bits number : Nat} (fits : number < 2 ^ bits) (next : Nat → Option α) :
    (fit bits number >>= next) = next number := by
  rw [fit, if_pos fits]
  rfl

theorem bind_fitSigned {bits : Nat} {number : Int} (lower : -2 ^ (bits - 1) ≤ number)
    (upper : number < 2 ^ (bits - 1)) (next : Int → Option α) :
    (fitSigned bits number >>= next) = next number := by
  rw [fitSigned, if_pos ⟨lower, upper⟩]
  rfl

theorem bind_minus {number other : Nat} (reaches : other ≤ number) (next : Nat → Option α) :
    (minus number other >>= next) = next (number - other) := by
  rw [minus, if_pos reaches]
  rfl

theorem bind_remainder {number divisor : Nat} (positive : 0 < divisor) (next : Nat → Option α) :
    (remainder number divisor >>= next) = next (number % divisor) := by
  rw [remainder, if_neg (Nat.ne_of_gt positive)]
  rfl

theorem bind_places {bits count : Nat} (few : count < bits) (next : Nat → Option α) :
    (places bits count >>= next) = next count := by
  rw [places, if_pos few]
  rfl

end Checked

open Checked

/-! ## The arithmetic unit -/

namespace Alu

/-- The sum of two bytes and a carry; the sum of their low halves is a byte and the whole is a
word. -/
def add? (left right : UInt8) (carryIn : Bool) : Option (UInt8 × Flags) := do
  let low ← fit 8 ((left &&& 0x0F).toNat + (right &&& 0x0F).toNat)
  let half ← fit 8 (low + carryIn.toNat)
  let sum ← fit 16 (left.toNat + right.toNat)
  let full ← fit 16 (sum + carryIn.toNat)
  let result := UInt8.ofNat full
  some (result, { zero := result == 0, halfCarry := half > 0x0F, carry := full > 0xFF })

/-- The difference of two bytes and a borrow, taken in words with a sign. -/
def sub? (left right : UInt8) (borrowIn : Bool) : Option (UInt8 × Flags) := do
  let low ← fitSigned 16 ((left &&& 0x0F).toNat - (right &&& 0x0F).toNat)
  let half ← fitSigned 16 (low - borrowIn.toNat)
  let difference ← fitSigned 16 (left.toNat - right.toNat)
  let full ← fitSigned 16 (difference - borrowIn.toNat)
  let result := UInt8.ofInt full
  some (result,
    { zero := result == 0, subtract := true, halfCarry := half < 0, carry := full < 0 })

/-- An operation of A with a byte. -/
def combine? (op : AluOp) (a value : UInt8) (flags : Flags) : Option (UInt8 × Flags) :=
  match op with
  | .add => add? a value false
  | .adc => add? a value flags.carry
  | .sub => sub? a value false
  | .sbc => sub? a value flags.carry
  | .cp => do
    let (_, flags) ← sub? a value false
    some (a, flags)
  | .and | .xor | .or => some (combine op a value flags)

/-- The sum of two words; the sum of their low twelve bits is a word and the whole a double
word. -/
def addWord? (left right : UInt16) (flags : Flags) : Option (UInt16 × Flags) := do
  let half ← fit 16 ((left &&& 0x0FFF).toNat + (right &&& 0x0FFF).toNat)
  let full ← fit 32 (left.toNat + right.toNat)
  some (left + right,
    { flags with subtract := false, halfCarry := half > 0x0FFF, carry := full > 0xFFFF })

/-- The sum of a word and a signed byte; the sums of the low bits are words. -/
def addSigned? (word : UInt16) (offset : UInt8) : Option (UInt16 × Flags) := do
  let half ← fit 16 ((word &&& 0x000F).toNat + (offset.toUInt16 &&& 0x000F).toNat)
  let full ← fit 16 ((word &&& 0x00FF).toNat + (offset.toUInt16 &&& 0x00FF).toNat)
  some (word + Word.ofSigned offset, { halfCarry := half > 0x000F, carry := full > 0x00FF })

/-- Rotation or shift of a byte; only a shift is by a number of places that is limited. -/
def shiftValue? (op : ShiftOp) (value : UInt8) (carryIn : Bool) : Option UInt8 := do
  let one := UInt8.ofNat (← places 8 1)
  let seven := UInt8.ofNat (← places 8 7)
  match op with
  | .rl => some (value <<< one ||| carryBit carryIn)
  | .rr => some (value >>> one ||| carryBit carryIn <<< seven)
  | .sla => some (value <<< one)
  | .sra => some (value >>> one ||| value &&& 0x80)
  | .srl => some (value >>> one)
  | .rlc | .rrc | .swap => some (shiftValue op value carryIn)

def shift? (op : ShiftOp) (value : UInt8) (carryIn : Bool) : Option (UInt8 × Flags) := do
  let result ← shiftValue? op value carryIn
  some (result, { zero := result == 0, carry := shiftCarry op value })

/-- The byte with only the bit at `index` set. -/
def bitMask? (index : Fin 8) : Option UInt8 := do
  let index ← places 8 index.val
  some (1 <<< UInt8.ofNat index)

/-- Flags after testing a bit. -/
def bitFlags? (index : Fin 8) (value : UInt8) (flags : Flags) : Option Flags := do
  let mask ← bitMask? index
  some { flags with zero := value &&& mask == 0, subtract := false, halfCarry := true }

theorem toNat_and_low (byte : UInt8) : (byte &&& 0x0F).toNat = byte.toNat % 16 := by
  rw [UInt8.toNat_and]
  exact Nat.and_two_pow_sub_one_eq_mod byte.toNat 4

theorem ofNat_sum (left right : UInt8) (carryIn : Bool) :
    UInt8.ofNat (left.toNat + right.toNat + carryIn.toNat) = left + right + carryBit carryIn := by
  rw [UInt8.ofNat_add, UInt8.ofNat_add, UInt8.ofNat_toNat, UInt8.ofNat_toNat]
  cases carryIn <;> rfl

theorem ofInt_difference (left right : UInt8) (borrowIn : Bool) :
    UInt8.ofInt (left.toNat - right.toNat - borrowIn.toNat) =
      left - right - carryBit borrowIn := by
  have byte (value : UInt8) : UInt8.ofInt value.toNat = value := by
    have bound : value.toNat < 256 := value.toNat_lt
    apply UInt8.toNat_inj.mp
    simp only [UInt8.ofInt, UInt8.toNat_ofNat']
    omega
  have borrow : UInt8.ofInt borrowIn.toNat = carryBit borrowIn := by cases borrowIn <;> rfl
  simp only [Int.sub_eq_add_neg, UInt8.ofInt_add, UInt8.ofInt_neg, byte, borrow,
    UInt8.sub_eq_add_neg]

theorem add?_eq (left right : UInt8) (carryIn : Bool) :
    add? left right carryIn = some (add left right carryIn) := by
  have carry : carryIn.toNat ≤ 1 := Bool.toNat_le carryIn
  have first : left.toNat < 256 := left.toNat_lt
  have second : right.toNat < 256 := right.toNat_lt
  rw [add?, toNat_and_low, toNat_and_low, bind_fit (by omega), bind_fit (by omega),
    bind_fit (by omega), bind_fit (by omega), ofNat_sum, add]

theorem sub?_eq (left right : UInt8) (borrowIn : Bool) :
    sub? left right borrowIn = some (sub left right borrowIn) := by
  have borrow : borrowIn.toNat ≤ 1 := Bool.toNat_le borrowIn
  have first : left.toNat < 256 := left.toNat_lt
  have second : right.toNat < 256 := right.toNat_lt
  rw [sub?, toNat_and_low, toNat_and_low, bind_fitSigned (by omega) (by omega),
    bind_fitSigned (by omega) (by omega), bind_fitSigned (by omega) (by omega),
    bind_fitSigned (by omega) (by omega), ofInt_difference, sub]
  have half : ((left.toNat % 16 : Nat) - (right.toNat % 16 : Nat) - borrowIn.toNat : Int) < 0 ↔
      left.toNat % 16 < right.toNat % 16 + borrowIn.toNat := by omega
  have full : (left.toNat - right.toNat - borrowIn.toNat : Int) < 0 ↔
      left.toNat < right.toNat + borrowIn.toNat := by omega
  simp only [half, full]

theorem combine?_eq (op : AluOp) (a value : UInt8) (flags : Flags) :
    combine? op a value flags = some (combine op a value flags) := by
  cases op with
  | add | adc => exact add?_eq ..
  | sub | sbc => exact sub?_eq ..
  | cp =>
      rw [combine?, sub?_eq]
      rfl
  | and | xor | or => rfl

theorem addWord?_eq (left right : UInt16) (flags : Flags) :
    addWord? left right flags = some (addWord left right flags) := by
  have low (word : UInt16) : (word &&& 0x0FFF).toNat = word.toNat % 0x1000 := by
    rw [UInt16.toNat_and]
    exact Nat.and_two_pow_sub_one_eq_mod word.toNat 12
  have first : left.toNat < 65536 := left.toNat_lt
  have second : right.toNat < 65536 := right.toNat_lt
  rw [addWord?, low, low, bind_fit (by omega), bind_fit (by omega), addWord]

theorem addSigned?_eq (word : UInt16) (offset : UInt8) :
    addSigned? word offset = some (addSigned word offset) := by
  have half (word : UInt16) : (word &&& 0x000F).toNat = word.toNat % 16 := by
    rw [UInt16.toNat_and]
    exact Nat.and_two_pow_sub_one_eq_mod word.toNat 4
  have low (word : UInt16) : (word &&& 0x00FF).toNat = word.toNat % 256 := by
    rw [UInt16.toNat_and]
    exact Nat.and_two_pow_sub_one_eq_mod word.toNat 8
  have byte : offset.toNat < 256 := offset.toNat_lt
  have same : offset.toNat % 256 = offset.toNat := Nat.mod_eq_of_lt byte
  rw [addSigned?, half, half, low, low, UInt8.toNat_toUInt16, bind_fit (by omega),
    bind_fit (by omega), same, addSigned]

theorem shift?_eq (op : ShiftOp) (value : UInt8) (carryIn : Bool) :
    shift? op value carryIn = some (shift op value carryIn) := by
  have moved : shiftValue? op value carryIn = some (shiftValue op value carryIn) := by
    rw [shiftValue?, bind_places (by decide), bind_places (by decide)]
    cases op <;> rfl
  rw [shift?, moved]
  rfl

theorem bitMask?_eq (index : Fin 8) : bitMask? index = some (bitMask index) :=
  bind_places index.isLt _

theorem bitFlags?_eq (index : Fin 8) (value : UInt8) (flags : Flags) :
    bitFlags? index value flags = some (bitFlags index value flags) := by
  rw [bitFlags?, bitMask?_eq]
  rfl

end Alu

/-! ## Instructions and interrupt lines -/

/-- The slots of both pages. -/
def Instruction.slots : Vector Instruction 0x200 :=
  Vector.ofFn fun slot => Instruction.ofSlot (UInt16.ofNat slot.val)

theorem Instruction.slots_getElem? {slot : UInt16} (inside : slot.toNat < 0x200) :
    Instruction.slots[slot.toNat]? = some (Instruction.ofSlot slot) := by
  rw [Vector.getElem?_eq_getElem inside, Instruction.slots, Vector.getElem_ofFn,
    UInt16.ofNat_toNat]

namespace Interrupt

/-- The number of low bits of a byte that are clear. -/
def trailingZeros (byte : UInt8) : Nat :=
  ((List.range 8).find? fun place => byte &&& 1 <<< UInt8.ofNat place != 0).getD 8

/-- Address the processor jumps to when it services the line. -/
def vector? (line : Interrupt) : Option UInt16 := do
  let offset ← fit 16 (trailingZeros line.mask * 8)
  let address ← fit 16 (0x40 + offset)
  some (UInt16.ofNat address)

/-- The line serviced next for given register bytes. -/
def highestPriority? (enable request : UInt8) : Option (Option Interrupt) := do
  let pending := enable &&& request &&& 0x1F
  if pending = 0 then
    some none
  else
    let lowest ← places 8 (trailingZeros pending)
    some (all.find? fun line => line.mask == 1 <<< UInt8.ofNat lowest)

theorem vector?_eq (line : Interrupt) : line.vector? = some line.vector := by
  cases line <;> decide

theorem highestPriority?_eq (enable request : UInt8) :
    highestPriority? enable request = some (highestPriority enable request) := by
  rw [highestPriority?, highestPriority, pending]
  exact forall_byte (enable &&& request) (by decide +kernel)

end Interrupt
end GameBoy
