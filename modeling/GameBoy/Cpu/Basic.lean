import GameBoy.Bus
import GameBoy.Config
import GameBoy.Cpu.Instruction

/-!
# Processor

The processor is a register file and the latches beside it.  It acts on a system, which is a
processor together with a bus; an action that faults keeps what it had changed before.
-/

namespace GameBoy

/-- The processor. -/
structure Cpu where
  regs : Registers := {}
  /-- An EI has been executed and has not yet reached the delay. -/
  eiPending : Bool := false
  /-- Interrupts are enabled when the next instruction has completed. -/
  eiDelay : Bool := false
  /-- The next byte fetched does not advance PC. -/
  haltBug : Bool := false
  /-- The error that hangs the processor until it is reset. -/
  locked : Option DecodeError := none
deriving DecidableEq

namespace Cpu

/-- A processor at power-on. -/
def boot : BootState → Cpu
  | .zeroed => {}
  | .postBoot =>
    { regs :=
        { a := 0x01
          flags := { zero := true, halfCarry := true, carry := true }
          b := 0x00, c := 0x13, d := 0x00, e := 0xD8, h := 0x01, l := 0x4D
          sp := 0xFFFE, pc := 0x0100 } }

/-- Move on to the next byte of the instruction stream, or use up the halt bug. -/
def advance (cpu : Cpu) : Cpu :=
  if cpu.haltBug then { cpu with haltBug := false }
  else { cpu with regs := { cpu.regs with pc := cpu.regs.pc + 1 } }

/-- Set the master enable at once and forget any EI under way. -/
def setIme (enabled : Bool) (cpu : Cpu) : Cpu :=
  { cpu with regs := { cpu.regs with ime := enabled }, eiPending := false, eiDelay := false }

/-- Let an EI under way come one instruction closer to its effect. -/
def settleEI (cpu : Cpu) : Cpu :=
  if cpu.eiDelay then { cpu with regs := { cpu.regs with ime := true }, eiDelay := false }
  else if cpu.eiPending then { cpu with eiPending := false, eiDelay := true }
  else cpu

end Cpu

/-- A processor and the bus it is connected to. -/
structure System (β : Type) where
  cpu : Cpu
  bus : β

/-- An action of the processor. -/
abbrev Exec (β : Type) := EStateM Fault (System β)

namespace Exec

variable {α β : Type}

/-- The processor. -/
@[inline]
def cpu : Exec β Cpu := fun system =>
  .ok system.cpu system

/-- The register file. -/
@[inline]
def registers : Exec β Registers := fun system =>
  .ok system.cpu.regs system

/-- Change the processor. -/
@[inline]
def modifyCpu (change : Cpu → Cpu) : Exec β Unit := fun ⟨cpu, bus⟩ =>
  .ok () ⟨change cpu, bus⟩

/-- Change the register file. -/
@[inline]
def modifyRegisters (change : Registers → Registers) : Exec β Unit :=
  modifyCpu fun cpu => { cpu with regs := change cpu.regs }

/-- Perform a bus access. -/
@[inline]
def access (action : Access β α) : Exec β α := fun ⟨cpu, bus⟩ =>
  match action bus with
  | .ok value bus => .ok value ⟨cpu, bus⟩
  | .error error bus => .error (.memory error) ⟨cpu, bus⟩

variable [Bus β]

/-- Read a byte from the bus. -/
def read (address : UInt16) : Exec β UInt8 :=
  access (Bus.read address)

/-- Write a byte to the bus. -/
def write (address : UInt16) (value : UInt8) : Exec β Unit :=
  access (Bus.write address value)

/-- Collect the stall cycles of the bus. -/
def takeStall : Exec β Nat := fun ⟨cpu, bus⟩ =>
  let (cycles, bus) := Bus.takeStall bus
  .ok cycles ⟨cpu, bus⟩

/-- Report an event to the bus. -/
def report (event : Event) : Exec β Unit := fun ⟨cpu, bus⟩ =>
  .ok () ⟨cpu, Bus.report event bus⟩

/-- Fetch the next byte of the instruction stream. -/
def fetch : Exec β UInt8 := do
  let value ← read (← registers).pc
  modifyCpu Cpu.advance
  pure value

/-- Push a word, with its high byte at the higher address. -/
def push (word : UInt16) : Exec β Unit := do
  modifyRegisters fun regs => { regs with sp := regs.sp - 1 }
  write (← registers).sp (Word.high word)
  modifyRegisters fun regs => { regs with sp := regs.sp - 1 }
  write (← registers).sp (Word.low word)

/-- Pop a word. -/
def pop : Exec β UInt16 := do
  let word ← access (Bus.readWord (← registers).sp)
  modifyRegisters fun regs => { regs with sp := regs.sp + 2 }
  pure word

end Exec
end GameBoy
