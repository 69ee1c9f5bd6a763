import GameBoy.Cpu.Instruction

/-!
# Mnemonics

The written form of an instruction.  Immediate bytes are shown by their kind: `d8` and `d16` are
data, `a8` and `a16` addresses, and `r8` is a signed displacement.
-/

namespace GameBoy

/-- The written form of an operand. -/
def Operand.text : Operand → String
  | .b => "B"
  | .c => "C"
  | .d => "D"
  | .e => "E"
  | .h => "H"
  | .l => "L"
  | .atHL => "(HL)"
  | .a => "A"

/-- The written form of a register operand. -/
def Pair.text : Pair → String
  | .bc => "BC"
  | .de => "DE"
  | .hl => "HL"
  | .sp => "SP"

/-- The written form of a pair on the stack. -/
def StackPair.text : StackPair → String
  | .bc => "BC"
  | .de => "DE"
  | .hl => "HL"
  | .af => "AF"

/-- The written form of a pointer. -/
def Pointer.text : Pointer → String
  | .bc => "(BC)"
  | .de => "(DE)"
  | .hlUp => "(HL+)"
  | .hlDown => "(HL-)"

/-- The written form of a condition. -/
def Condition.text : Condition → String
  | .nz => "NZ"
  | .z => "Z"
  | .nc => "NC"
  | .c => "C"

/-- The written form of an operation up to its operand. -/
def AluOp.text : AluOp → String
  | .add => "ADD A,"
  | .adc => "ADC A,"
  | .sub => "SUB "
  | .sbc => "SBC A,"
  | .and => "AND "
  | .xor => "XOR "
  | .or => "OR "
  | .cp => "CP "

/-- The written form of a rotation or shift. -/
def ShiftOp.text : ShiftOp → String
  | .rlc => "RLC"
  | .rrc => "RRC"
  | .rl => "RL"
  | .rr => "RR"
  | .sla => "SLA"
  | .sra => "SRA"
  | .swap => "SWAP"
  | .srl => "SRL"

/-- The name of a kind of immediate bytes. -/
def Immediate.name : Immediate → String
  | .none => "None"
  | .signed8 => "Signed8"
  | .unsigned8 => "Unsigned8"
  | .unsigned16 => "Unsigned16"

namespace Instruction

/-- A jump, call or return with its condition and its target, if it has any. -/
def branchText (name : String) (condition : Option Condition) (target : Option String) : String :=
  match condition.toList.map Condition.text ++ target.toList with
  | [] => name
  | parts => name ++ " " ++ ",".intercalate parts

/-- The written form of an instruction. -/
def mnemonic : Instruction → String
  | .nop => "NOP"
  | .stop => "STOP"
  | .halt => "HALT"
  | .di => "DI"
  | .ei => "EI"
  | .loadPair pair => "LD " ++ pair.text ++ ",d16"
  | .storeA pointer => "LD " ++ pointer.text ++ ",A"
  | .loadA pointer => "LD A," ++ pointer.text
  | .storeSP => "LD (a16),SP"
  | .incPair pair => "INC " ++ pair.text
  | .decPair pair => "DEC " ++ pair.text
  | .addHL pair => "ADD HL," ++ pair.text
  | .inc target => "INC " ++ target.text
  | .dec target => "DEC " ++ target.text
  | .loadByte target => "LD " ++ target.text ++ ",d8"
  | .load target source => "LD " ++ target.text ++ "," ++ source.text
  | .rotateA op => op.text ++ "A"
  | .daa => "DAA"
  | .cpl => "CPL"
  | .scf => "SCF"
  | .ccf => "CCF"
  | .alu op source => op.text ++ source.text
  | .aluByte op => op.text ++ "d8"
  | .jr condition => branchText "JR" condition (some "r8")
  | .jp condition => branchText "JP" condition (some "a16")
  | .jpHL => "JP HL"
  | .call condition => branchText "CALL" condition (some "a16")
  | .ret condition => branchText "RET" condition none
  | .reti => "RETI"
  | .rst target => "RST " ++ Hex.digits 2 (8 * target.val) ++ "H"
  | .push pair => "PUSH " ++ pair.text
  | .pop pair => "POP " ++ pair.text
  | .storeHigh => "LDH (a8),A"
  | .loadHigh => "LDH A,(a8)"
  | .storeHighC => "LD (C),A"
  | .loadHighC => "LD A,(C)"
  | .storeAt => "LD (a16),A"
  | .loadAt => "LD A,(a16)"
  | .addSP => "ADD SP,r8"
  | .loadHLSP => "LD HL,SP+r8"
  | .loadSPHL => "LD SP,HL"
  | .escape => "PREFIX CB"
  | .illegal => "ILLEGAL"
  | .shift op target => op.text ++ " " ++ target.text
  | .bit index source => "BIT " ++ toString index.val ++ "," ++ source.text
  | .res index target => "RES " ++ toString index.val ++ "," ++ target.text
  | .set index target => "SET " ++ toString index.val ++ "," ++ target.text

end Instruction
end GameBoy
