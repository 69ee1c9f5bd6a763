import GameBoy.Cpu.Instruction

/-!
# Decoding

An opcode splits into a quadrant of two bits, a row and a column of three bits each.  Half of the
rows pair up: the row divided by two then names a register pair and its remainder the variant.
There are two pages of 256 slots, the second reached through the escape byte.
-/

namespace GameBoy

/-- The operand with a given code. -/
def Operand.ofCode : Fin 8 → Operand
  | 0 => .b
  | 1 => .c
  | 2 => .d
  | 3 => .e
  | 4 => .h
  | 5 => .l
  | 6 => .atHL
  | 7 => .a

/-- The register operand with a given code. -/
def Pair.ofCode : Fin 4 → Pair
  | 0 => .bc
  | 1 => .de
  | 2 => .hl
  | 3 => .sp

/-- The stack pair with a given code. -/
def StackPair.ofCode : Fin 4 → StackPair
  | 0 => .bc
  | 1 => .de
  | 2 => .hl
  | 3 => .af

/-- The pointer with a given code. -/
def Pointer.ofCode : Fin 4 → Pointer
  | 0 => .bc
  | 1 => .de
  | 2 => .hlUp
  | 3 => .hlDown

/-- The operation with a given code. -/
def AluOp.ofCode : Fin 8 → AluOp
  | 0 => .add
  | 1 => .adc
  | 2 => .sub
  | 3 => .sbc
  | 4 => .and
  | 5 => .xor
  | 6 => .or
  | 7 => .cp

/-- The rotation or shift with a given code. -/
def ShiftOp.ofCode : Fin 8 → ShiftOp
  | 0 => .rlc
  | 1 => .rrc
  | 2 => .rl
  | 3 => .rr
  | 4 => .sla
  | 5 => .sra
  | 6 => .swap
  | 7 => .srl

namespace Opcode

/-- The top two bits of an opcode. -/
def quadrant (opcode : UInt8) : Fin 4 :=
  ⟨opcode.toNat / 64 % 4, Nat.mod_lt _ (by decide)⟩

/-- The middle three bits of an opcode. -/
def row (opcode : UInt8) : Fin 8 :=
  ⟨opcode.toNat / 8 % 8, Nat.mod_lt _ (by decide)⟩

/-- The low three bits of an opcode. -/
def column (opcode : UInt8) : Fin 8 :=
  ⟨opcode.toNat % 8, Nat.mod_lt _ (by decide)⟩

/-- The pair code of a row. -/
def pairCode (row : Fin 8) : Fin 4 :=
  ⟨row.val / 2, by omega⟩

/-- The row is the second variant of its pair. -/
def isSecond (row : Fin 8) : Bool :=
  row.val % 2 == 1

/-- The escape byte to the second page. -/
def escape : UInt8 := 0xCB

end Opcode

namespace Instruction

open Opcode

/-- The first quadrant: short jumps, loads and arithmetic of single operands. -/
def ofFirstQuadrant (row column : Fin 8) : Instruction :=
  match column with
  | 0 =>
    match row with
    | 0 => .nop
    | 1 => .storeSP
    | 2 => .stop
    | 3 => .jr none
    | 4 => .jr (some .nz)
    | 5 => .jr (some .z)
    | 6 => .jr (some .nc)
    | 7 => .jr (some .c)
  | 1 =>
    let pair := Pair.ofCode (pairCode row)
    if isSecond row then .addHL pair else .loadPair pair
  | 2 =>
    let pointer := Pointer.ofCode (pairCode row)
    if isSecond row then .loadA pointer else .storeA pointer
  | 3 =>
    let pair := Pair.ofCode (pairCode row)
    if isSecond row then .decPair pair else .incPair pair
  | 4 => .inc (Operand.ofCode row)
  | 5 => .dec (Operand.ofCode row)
  | 6 => .loadByte (Operand.ofCode row)
  | 7 =>
    match row with
    | 0 => .rotateA .rlc
    | 1 => .rotateA .rrc
    | 2 => .rotateA .rl
    | 3 => .rotateA .rr
    | 4 => .daa
    | 5 => .cpl
    | 6 => .scf
    | 7 => .ccf

/-- The second quadrant: copies between operands, with HALT in place of (HL) to (HL). -/
def ofSecondQuadrant (row column : Fin 8) : Instruction :=
  match Operand.ofCode row, Operand.ofCode column with
  | .atHL, .atHL => .halt
  | target, source => .load target source

/-- The last quadrant: control flow, the stack and everything left over. -/
def ofLastQuadrant (row column : Fin 8) : Instruction :=
  match column with
  | 0 =>
    match row with
    | 0 => .ret (some .nz)
    | 1 => .ret (some .z)
    | 2 => .ret (some .nc)
    | 3 => .ret (some .c)
    | 4 => .storeHigh
    | 5 => .addSP
    | 6 => .loadHigh
    | 7 => .loadHLSP
  | 1 =>
    match row with
    | 1 => .ret none
    | 3 => .reti
    | 5 => .jpHL
    | 7 => .loadSPHL
    | even => .pop (StackPair.ofCode (pairCode even))
  | 2 =>
    match row with
    | 0 => .jp (some .nz)
    | 1 => .jp (some .z)
    | 2 => .jp (some .nc)
    | 3 => .jp (some .c)
    | 4 => .storeHighC
    | 5 => .storeAt
    | 6 => .loadHighC
    | 7 => .loadAt
  | 3 =>
    match row with
    | 0 => .jp none
    | 1 => .escape
    | 6 => .di
    | 7 => .ei
    | _ => .illegal
  | 4 =>
    match row with
    | 0 => .call (some .nz)
    | 1 => .call (some .z)
    | 2 => .call (some .nc)
    | 3 => .call (some .c)
    | _ => .illegal
  | 5 =>
    match row with
    | 1 => .call none
    | 3 | 5 | 7 => .illegal
    | even => .push (StackPair.ofCode (pairCode even))
  | 6 => .aluByte (AluOp.ofCode row)
  | 7 => .rst row

/-- The instruction in a slot of the first page. -/
def ofOpcode (opcode : UInt8) : Instruction :=
  match quadrant opcode with
  | 0 => ofFirstQuadrant (row opcode) (column opcode)
  | 1 => ofSecondQuadrant (row opcode) (column opcode)
  | 2 => .alu (AluOp.ofCode (row opcode)) (Operand.ofCode (column opcode))
  | 3 => ofLastQuadrant (row opcode) (column opcode)

/-- The instruction in a slot of the second page. -/
def ofExtended (opcode : UInt8) : Instruction :=
  let target := Operand.ofCode (column opcode)
  match quadrant opcode with
  | 0 => .shift (ShiftOp.ofCode (row opcode)) target
  | 1 => .bit (row opcode) target
  | 2 => .res (row opcode) target
  | 3 => .set (row opcode) target

/-- The instruction in a slot of both pages, the second counted from 0x100; higher bits do not
count. -/
def ofSlot (slot : UInt16) : Instruction :=
  if slot &&& 0x100 = 0 then ofOpcode (Word.low slot) else ofExtended (Word.low slot)

end Instruction
end GameBoy
