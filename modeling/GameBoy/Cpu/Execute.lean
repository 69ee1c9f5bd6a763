import GameBoy.Cpu.Alu
import GameBoy.Cpu.Basic
import GameBoy.Cpu.Decode

/-!
# Execution

An instruction is fetched, its immediate bytes are fetched as one word, and then it acts.  Within an
action every read comes before the first write.  A delayed EI advances only when the action has
succeeded.
-/

namespace GameBoy

namespace Registers

/-- The register pair named by an operand. -/
def pair (regs : Registers) : Pair → UInt16
  | .bc => regs.bc
  | .de => regs.de
  | .hl => regs.hl
  | .sp => regs.sp

/-- Replace the register pair named by an operand. -/
def setPair (regs : Registers) (pair : Pair) (word : UInt16) : Registers :=
  match pair with
  | .bc => regs.setBC word
  | .de => regs.setDE word
  | .hl => regs.setHL word
  | .sp => { regs with sp := word }

/-- The pair named by a push. -/
def stackPair (regs : Registers) : StackPair → UInt16
  | .bc => regs.bc
  | .de => regs.de
  | .hl => regs.hl
  | .af => regs.af

/-- Replace the pair named by a pop. -/
def setStackPair (regs : Registers) (pair : StackPair) (word : UInt16) : Registers :=
  match pair with
  | .bc => regs.setBC word
  | .de => regs.setDE word
  | .hl => regs.setHL word
  | .af => regs.setAF word

end Registers

namespace Exec

variable {β : Type} [Bus β]

/-- Read an operand. -/
def readOperand : Operand → Exec β UInt8
  | .b => do pure (← registers).b
  | .c => do pure (← registers).c
  | .d => do pure (← registers).d
  | .e => do pure (← registers).e
  | .h => do pure (← registers).h
  | .l => do pure (← registers).l
  | .atHL => do read (← registers).hl
  | .a => do pure (← registers).a

/-- Write an operand. -/
def writeOperand (target : Operand) (value : UInt8) : Exec β Unit :=
  match target with
  | .b => modifyRegisters fun regs => { regs with b := value }
  | .c => modifyRegisters fun regs => { regs with c := value }
  | .d => modifyRegisters fun regs => { regs with d := value }
  | .e => modifyRegisters fun regs => { regs with e := value }
  | .h => modifyRegisters fun regs => { regs with h := value }
  | .l => modifyRegisters fun regs => { regs with l := value }
  | .atHL => do write (← registers).hl value
  | .a => modifyRegisters fun regs => { regs with a := value }

/-- Replace A. -/
def setA (value : UInt8) : Exec β Unit :=
  modifyRegisters fun regs => { regs with a := value }

/-- Replace the flags. -/
def setFlags (flags : Flags) : Exec β Unit :=
  modifyRegisters fun regs => { regs with flags }

/-- Continue at an address. -/
def jump (target : UInt16) : Exec β Unit :=
  modifyRegisters fun regs => { regs with pc := target }

/-- Continue at an address and remember where to return. -/
def call (target : UInt16) : Exec β Unit := do
  push (← registers).pc
  jump target

/-- Continue where the last call left off. -/
def ret : Exec β Unit := do
  jump (← pop)

/-- The address in a pointer; the moving forms then move HL. -/
def follow (pointer : Pointer) : Exec β UInt16 := do
  let regs ← registers
  match pointer with
  | .bc => pure regs.bc
  | .de => pure regs.de
  | .hlUp =>
    modifyRegisters fun regs => regs.setHL (regs.hl + 1)
    pure regs.hl
  | .hlDown =>
    modifyRegisters fun regs => regs.setHL (regs.hl - 1)
    pure regs.hl

/-- An address in the last page. -/
def highPage (offset : UInt8) : UInt16 :=
  0xFF00 ||| offset.toUInt16

/-- Wait for an interrupt; if one is pending that cannot be taken, the halt bug arises instead. -/
def halt : Exec β Unit := do
  let enable ← read Interrupt.enableAddress
  let request ← read Interrupt.requestAddress
  modifyCpu fun cpu =>
    if !cpu.regs.ime && (Interrupt.highestPriority enable request).isSome then
      { cpu with haltBug := true }
    else
      { cpu with regs := { cpu.regs with halted := true } }

/-- Hang for good on an undecodable opcode. -/
def lock (error : DecodeError) : Exec β Unit := do
  report (.illegalOpcode error (← registers))
  modifyCpu fun cpu => { cpu with locked := some error }
  throw (.decode error)

/-- Fetch the immediate bytes as one word, low byte first. -/
def fetchImmediate : Immediate → Exec β UInt16
  | .none => pure 0
  | .signed8 | .unsigned8 => do pure (← fetch).toUInt16
  | .unsigned16 => do
    let low ← fetch
    let high ← fetch
    pure (Word.ofBytes high low)

/-- The effect of an instruction from slot `slot` whose first byte was at `start`, given its
immediate bytes and whether its condition holds. -/
def perform (instruction : Instruction) (slot start immediate : UInt16) (taken : Bool) :
    Exec β Unit :=
  match instruction with
  | .nop => pure ()
  | .stop => modifyRegisters fun regs => { regs with stopped := true }
  | .halt => halt
  | .di => modifyCpu (Cpu.setIme false)
  | .ei => modifyCpu fun cpu => { cpu with eiPending := true }
  | .loadPair pair => modifyRegisters fun regs => regs.setPair pair immediate
  | .storeA pointer => do write (← follow pointer) (← registers).a
  | .loadA pointer => do setA (← read (← follow pointer))
  | .storeSP => do access (Bus.writeWord immediate (← registers).sp)
  | .incPair pair => modifyRegisters fun regs => regs.setPair pair (regs.pair pair + 1)
  | .decPair pair => modifyRegisters fun regs => regs.setPair pair (regs.pair pair - 1)
  | .addHL pair =>
    modifyRegisters fun regs =>
      let (sum, flags) := Alu.addWord regs.hl (regs.pair pair) regs.flags
      { regs.setHL sum with flags }
  | .inc target => do
    let value ← readOperand target
    let (result, flags) := Alu.inc value (← registers).flags
    setFlags flags
    writeOperand target result
  | .dec target => do
    let value ← readOperand target
    let (result, flags) := Alu.dec value (← registers).flags
    setFlags flags
    writeOperand target result
  | .loadByte target => writeOperand target (Word.low immediate)
  | .load target source => do writeOperand target (← readOperand source)
  | .rotateA op =>
    modifyRegisters fun regs =>
      let (a, flags) := Alu.shift op regs.a regs.flags.carry
      { regs with a, flags := { flags with zero := false } }
  | .daa =>
    modifyRegisters fun regs =>
      let (a, flags) := Alu.daa regs.a regs.flags
      { regs with a, flags }
  | .cpl =>
    modifyRegisters fun regs =>
      { regs with
        a := ~~~regs.a, flags := { regs.flags with subtract := true, halfCarry := true } }
  | .scf =>
    modifyRegisters fun regs =>
      { regs with
        flags := { regs.flags with subtract := false, halfCarry := false, carry := true } }
  | .ccf =>
    modifyRegisters fun regs =>
      { regs with
        flags :=
          { regs.flags with subtract := false, halfCarry := false, carry := !regs.flags.carry } }
  | .alu op source => do
    let value ← readOperand source
    modifyRegisters fun regs =>
      let (a, flags) := Alu.combine op regs.a value regs.flags
      { regs with a, flags }
  | .aluByte op =>
    modifyRegisters fun regs =>
      let (a, flags) := Alu.combine op regs.a (Word.low immediate) regs.flags
      { regs with a, flags }
  | .jr _ => do
    if taken then
      modifyRegisters fun regs => { regs with pc := regs.pc + Word.ofSigned (Word.low immediate) }
  | .jp _ => do if taken then jump immediate
  | .jpHL => do jump (← registers).hl
  | .call _ => do if taken then call immediate
  | .ret _ => do if taken then ret
  | .reti => do
    ret
    modifyCpu (Cpu.setIme true)
  | .rst target => call (UInt16.ofNat (8 * target.val))
  | .push pair => do push ((← registers).stackPair pair)
  | .pop pair => do
    let word ← pop
    modifyRegisters fun regs => regs.setStackPair pair word
  | .storeHigh => do write (highPage (Word.low immediate)) (← registers).a
  | .loadHigh => do setA (← read (highPage (Word.low immediate)))
  | .storeHighC => do
    let regs ← registers
    write (highPage regs.c) regs.a
  | .loadHighC => do setA (← read (highPage (← registers).c))
  | .storeAt => do write immediate (← registers).a
  | .loadAt => do setA (← read immediate)
  | .addSP =>
    modifyRegisters fun regs =>
      let (sp, flags) := Alu.addSigned regs.sp (Word.low immediate)
      { regs with sp, flags }
  | .loadHLSP =>
    modifyRegisters fun regs =>
      let (sum, flags) := Alu.addSigned regs.sp (Word.low immediate)
      { regs.setHL sum with flags }
  | .loadSPHL => modifyRegisters fun regs => { regs with sp := regs.hl }
  | .escape => lock (.malformedEscape start)
  | .illegal => lock (.illegalOpcode slot start)
  | .shift op target => do
    let value ← readOperand target
    let (result, flags) := Alu.shift op value (← registers).flags.carry
    setFlags flags
    writeOperand target result
  | .bit index source => do
    let value ← readOperand source
    modifyRegisters fun regs => { regs with flags := Alu.bitFlags index value regs.flags }
  | .res index target => do
    let value ← readOperand target
    writeOperand target (value &&& ~~~Alu.bitMask index)
  | .set index target => do
    let value ← readOperand target
    writeOperand target (value ||| Alu.bitMask index)

end Exec

/-- What the processor did in one step. -/
inductive Quantum where
  /-- It waited. -/
  | idle
  /-- It diverted to the handler of an interrupt. -/
  | interrupt (line : Interrupt)
  /-- It executed the instruction in a slot, whose accesses stalled it. -/
  | execution (slot : UInt16) (cost stall : Nat)
deriving DecidableEq

/-- The T-cycles of a step. -/
def Quantum.cycles : Quantum → Nat
  | .idle => 4
  | .interrupt _ => 20
  | .execution _ cost stall => cost + stall

namespace Cpu

open Exec

variable {β : Type} [Bus β]

/-- Fail if the processor hangs. -/
def requireUnlocked : Exec β Unit := do
  match (← cpu).locked with
  | some error => throw (.decode error)
  | none => pure ()

/-- Fetch the opcode, through the escape byte if there is one, as a slot of the two pages. -/
def fetchSlot : Exec β UInt16 := do
  let opcode ← fetch
  if opcode = Opcode.escape then
    pure (0x100 ||| (← fetch).toUInt16)
  else
    pure opcode.toUInt16

/-- Fetch, decode and execute one instruction, whatever mode the processor is in. -/
def execute : Exec β Quantum := do
  requireUnlocked
  let start := (← registers).pc
  let slot ← fetchSlot
  let instruction := Instruction.ofSlot slot
  let immediate ← fetchImmediate instruction.immediate
  let taken := instruction.taken (← registers).flags
  perform instruction slot start immediate taken
  modifyCpu Cpu.settleEI
  let stall ← takeStall
  pure (.execution slot (instruction.cost taken) stall)

end Cpu
end GameBoy
