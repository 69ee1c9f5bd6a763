import GameBoy.Cpu.Execute

/-!
# Scheduling

One step of the processor takes a pending interrupt, waits, or executes an instruction.  STOP ends
when a selected button line is low and HALT when an enabled line is requested, in either case within
the step that notices.
-/

namespace GameBoy
namespace Cpu

open Exec

variable {β : Type} [Bus β]

/-- Address of the joypad register, whose low lines end STOP. -/
def joypadAddress : UInt16 := 0xFF00

/-- A stopped processor stays stopped while all four button lines are high. -/
def staysStopped : Exec β Bool := do
  if (← registers).stopped then
    let lines ← read joypadAddress
    if lines &&& 0x0F = 0x0F then
      pure true
    else
      modifyRegisters fun regs => { regs with stopped := false }
      pure false
  else
    pure false

/-- Divert to the handler of `line`, with `request` the request byte read before. -/
def dispatch (line : Interrupt) (request : UInt8) : Exec β Unit := do
  modifyCpu (Cpu.setIme false)
  let returnPc := (← registers).pc
  push returnPc
  write Interrupt.requestAddress (request &&& ~~~line.mask)
  jump line.vector
  report (.interruptServiced line returnPc)

/-- Take the pending interrupt of highest priority if the master enable is set.  A pending interrupt
ends HALT in any case. -/
def serviceInterrupt : Exec β (Option Interrupt) := do
  let enable ← read Interrupt.enableAddress
  let request ← read Interrupt.requestAddress
  match Interrupt.highestPriority enable request with
  | none => pure none
  | some line =>
    modifyRegisters fun regs => { regs with halted := false }
    if (← registers).ime then
      dispatch line request
      pure (some line)
    else
      pure none

/-- Advance the processor by one step. -/
def step : Exec β Quantum := do
  requireUnlocked
  if ← staysStopped then
    pure .idle
  else
    match ← serviceInterrupt with
    | some line => pure (.interrupt line)
    | none =>
      if (← registers).halted then
        pure .idle
      else
        execute

end Cpu
end GameBoy
