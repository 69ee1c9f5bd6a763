import GameBoy.Cpu.Registers
import GameBoy.Text.Hex

/-!
# Instructions

The instruction set as data: what an instruction names, which immediate bytes follow it, what it
costs, and how it is written.  An instruction with a condition is the same instruction as the one
without, and `none` stands for no condition.
-/

namespace GameBoy

/-- An 8-bit operand, in encoding order; `atHL` is the byte HL points at. -/
inductive Operand where
  | b | c | d | e | h | l | atHL | a
deriving DecidableEq

/-- A 16-bit register operand, in encoding order. -/
inductive Pair where
  | bc | de | hl | sp
deriving DecidableEq

/-- A register pair that can be pushed and popped, in encoding order. -/
inductive StackPair where
  | bc | de | hl | af
deriving DecidableEq

/-- A pointer through which A is loaded and stored; the last two move HL by one. -/
inductive Pointer where
  | bc | de | hlUp | hlDown
deriving DecidableEq

/-- A condition on the flags, in encoding order. -/
inductive Condition where
  | nz | z | nc | c
deriving DecidableEq

/-- An operation of A with a byte, in encoding order. -/
inductive AluOp where
  | add | adc | sub | sbc | and | xor | or | cp
deriving DecidableEq

/-- A rotation or shift of a byte, in encoding order. -/
inductive ShiftOp where
  | rlc | rrc | rl | rr | sla | sra | swap | srl
deriving DecidableEq

/-- Immediate bytes that follow an opcode. -/
inductive Immediate where
  | none | signed8 | unsigned8 | unsigned16
deriving DecidableEq

/-- Number of immediate bytes. -/
def Immediate.size : Immediate → Nat
  | .none => 0
  | .signed8 | .unsigned8 => 1
  | .unsigned16 => 2

/-- The flags meet the condition. -/
def Condition.holds (flags : Flags) : Condition → Bool
  | .nz => !flags.zero
  | .z => flags.zero
  | .nc => !flags.carry
  | .c => flags.carry

/-- One instruction. -/
inductive Instruction where
  | nop
  | stop
  | halt
  | di
  | ei
  /-- Load a pair with a word. -/
  | loadPair (pair : Pair)
  /-- Store A through a pointer. -/
  | storeA (pointer : Pointer)
  /-- Load A through a pointer. -/
  | loadA (pointer : Pointer)
  /-- Store SP at an address. -/
  | storeSP
  | incPair (pair : Pair)
  | decPair (pair : Pair)
  /-- Add a pair to HL. -/
  | addHL (pair : Pair)
  | inc (target : Operand)
  | dec (target : Operand)
  /-- Load an operand with a byte. -/
  | loadByte (target : Operand)
  /-- Copy one operand to another. -/
  | load (target source : Operand)
  /-- Rotate A, always clearing the zero flag. -/
  | rotateA (op : ShiftOp)
  | daa
  | cpl
  | scf
  | ccf
  /-- Combine A with an operand. -/
  | alu (op : AluOp) (source : Operand)
  /-- Combine A with a byte. -/
  | aluByte (op : AluOp)
  | jr (condition : Option Condition)
  | jp (condition : Option Condition)
  | jpHL
  | call (condition : Option Condition)
  | ret (condition : Option Condition)
  | reti
  /-- Call one of eight fixed addresses. -/
  | rst (target : Fin 8)
  | push (pair : StackPair)
  | pop (pair : StackPair)
  /-- Store A in the last page, at a byte offset. -/
  | storeHigh
  /-- Load A from the last page, at a byte offset. -/
  | loadHigh
  /-- Store A in the last page, at offset C. -/
  | storeHighC
  /-- Load A from the last page, at offset C. -/
  | loadHighC
  /-- Store A at an address. -/
  | storeAt
  /-- Load A from an address. -/
  | loadAt
  /-- Add a signed byte to SP. -/
  | addSP
  /-- Load HL with SP plus a signed byte. -/
  | loadHLSP
  /-- Copy HL to SP. -/
  | loadSPHL
  /-- The escape byte, which is no instruction of its own. -/
  | escape
  /-- A hole of the instruction set. -/
  | illegal
  | shift (op : ShiftOp) (target : Operand)
  | bit (index : Fin 8) (source : Operand)
  | res (index : Fin 8) (target : Operand)
  | set (index : Fin 8) (target : Operand)
deriving DecidableEq

namespace Instruction

/-- The immediate bytes of an instruction. -/
def immediate : Instruction → Immediate
  | .loadPair _ | .storeSP | .jp _ | .call _ | .storeAt | .loadAt => .unsigned16
  | .loadByte _ | .aluByte _ | .storeHigh | .loadHigh | .stop => .unsigned8
  | .jr _ | .addSP | .loadHLSP => .signed8
  | _ => .none

/-- The slot holds nothing that can be executed. -/
def isIllegal : Instruction → Bool
  | .illegal | .escape => true
  | _ => false

/-- The condition of a conditional instruction. -/
def condition? : Instruction → Option Condition
  | .jr condition | .jp condition | .call condition | .ret condition => condition
  | _ => none

/-- The instruction goes ahead under the flags; one without condition always does. -/
def taken (instruction : Instruction) (flags : Flags) : Bool :=
  match instruction.condition? with
  | none => true
  | some condition => condition.holds flags

/-- `memory` cycles for the byte HL points at and `register` cycles for a register. -/
def operandCost (operand : Operand) (register memory : Nat) : Nat :=
  if operand = .atHL then memory else register

/-- The T-cycles an instruction takes, without any stall it causes. -/
def cost (instruction : Instruction) (taken : Bool) : Nat :=
  match instruction with
  | .nop | .stop | .halt | .di | .ei => 4
  | .loadPair _ => 12
  | .storeA _ | .loadA _ => 8
  | .storeSP => 20
  | .incPair _ | .decPair _ | .addHL _ => 8
  | .inc target | .dec target => operandCost target 4 12
  | .loadByte target => operandCost target 8 12
  | .load target source => if target = .atHL ∨ source = .atHL then 8 else 4
  | .rotateA _ | .daa | .cpl | .scf | .ccf => 4
  | .alu _ source => operandCost source 4 8
  | .aluByte _ => 8
  | .jr _ => if taken then 12 else 8
  | .jp _ => if taken then 16 else 12
  | .jpHL => 4
  | .call _ => if taken then 24 else 12
  | .ret none => 16
  | .ret (some _) => if taken then 20 else 8
  | .reti | .rst _ | .push _ => 16
  | .pop _ => 12
  | .storeHigh | .loadHigh => 12
  | .storeHighC | .loadHighC => 8
  | .storeAt | .loadAt | .addSP => 16
  | .loadHLSP => 12
  | .loadSPHL => 8
  | .escape | .illegal => 4
  | .shift _ target | .res _ target | .set _ target => operandCost target 8 16
  | .bit _ source => operandCost source 8 12

theorem four_le_cost (instruction : Instruction) (taken : Bool) : 4 ≤ instruction.cost taken := by
  unfold cost operandCost
  split <;> (repeat' split) <;> omega

end Instruction
end GameBoy
