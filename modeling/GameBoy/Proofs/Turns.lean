import GameBoy.Proofs.Clock
import GameBoy.Proofs.Collection
import Mathlib.Logic.Relation

/-!
# Turns of a machine

Whatever can be done with a machine is a sequence of turns: the processor steps, the opcode ahead is
looked at, or the board is operated from outside.  A property of the board that the bus keeps, and
that survives time and requests from outside, therefore holds for good.
-/

namespace GameBoy

open Effect

/-- Looking at the opcode ahead, on any bus. -/
def Cpu.lookAhead {β : Type} [Bus β] : Exec β (Option UInt8) := do
  let cpu ← Exec.cpu
  if cpu.regs.halted || cpu.regs.stopped || cpu.locked.isSome then
    pure none
  else if cpu.regs.ime then
    let enable ← Exec.read Interrupt.enableAddress
    let request ← Exec.read Interrupt.requestAddress
    if (Interrupt.highestPriority enable request).isSome then
      pure none
    else
      some <$> Exec.read cpu.regs.pc
  else
    some <$> Exec.read cpu.regs.pc

theorem Machine.nextOpcode_eq_lookAhead : Machine.nextOpcode = Cpu.lookAhead := rfl

/-- Looking at the opcode ahead obeys every law. -/
theorem Exec.Law.lookAhead {β γ : Type} [Bus β] [Bus γ]
    {holds : (α : Type) → Nat → Exec β α → Exec γ α → Prop} (law : Law holds)
    (looks : holds _ 0 cpu cpu) : holds _ 0 Cpu.lookAhead Cpu.lookAhead := by
  have reads (address : UInt16) :
      holds _ 0 (some <$> Exec.read address) (some <$> Exec.read address) := by
    rw [map_eq_pure_bind, map_eq_pure_bind]
    exact law.after (law.read address) fun value => law.pure (some value)
  rw [Cpu.lookAhead, Cpu.lookAhead]
  refine law.after looks fun cpu => ?_
  split
  · exact law.pure none
  · split
    · refine law.after (law.read _) fun enable => law.after (law.read _) fun request => ?_
      split
      · exact law.pure none
      · exact reads _
    · exact reads _

namespace Board

/-- Whatever is done to a board keeps the property. -/
structure Lasting (property : Board → Prop) : Prop extends Bus.Invariant property where
  tick : ∀ {σ : Type} (render : Renderer σ) (cycles : Nat) (board : Board) (screen : σ),
    property board → property (board.tick render cycles screen).1
  setButton : ∀ (button : Button) (pressed : Bool) (board : Board),
    property board → property (board.setButton button pressed)
  request : ∀ (lines : Interrupt.Lines) (board : Board),
    property board → property (board.request lines)

theorem Lasting.operate {property : Board → Prop} (lasting : Lasting property) {σ : Type}
    (render : Renderer σ) (operation : Operation) {board : Board} (screen : σ)
    (holds : property board) : property (operate render operation (board, screen)).1 := by
  cases operation with
  | read address => exact lasting.read address board holds
  | write address value => exact lasting.write address value board holds
  | tick cycles => exact lasting.tick render cycles board screen holds
  | setButton button pressed => exact lasting.setButton button pressed board holds
  | request lines => exact lasting.request lines board holds

theorem lasting_settled : Lasting fun board => board.raised = {} where
  toInvariant := invariant_settled
  tick render cycles board screen _ := raised_tick render cycles board screen
  setButton _ _ _ _ := raised_collect _
  request _ _ settled := settled

theorem lasting_tracked : Lasting fun board => board.ppu.Tracked where
  toInvariant := invariant_tracked
  tick render cycles board screen tracked :=
    (tracked.tick render cycles screen).of_agrees (board.tick_apply render cycles screen).2
  setButton button pressed board tracked :=
    tracked.of_agrees (board.setButton_apply button pressed).2
  request _ _ tracked := tracked

end Board

namespace Machine

/-- What can happen to a machine: it steps, successfully or not, or the opcode ahead is looked at,
or its board is operated from outside. -/
inductive Turn : Machine → Machine → Prop
  | step {σ : Type} (render : Renderer σ) (screen : σ) (machine : Machine) :
      Turn machine (final (Session.step render) ⟨machine, screen⟩).machine
  | look (machine : Machine) : Turn machine (final nextOpcode machine)
  | operate {σ : Type} (render : Renderer σ) (screen : σ) (operation : Board.Operation)
      (machine : Machine) :
      Turn machine ⟨machine.cpu, (Board.operate render operation (machine.bus, screen)).1⟩

/-- The second machine has come from the first by any number of turns. -/
abbrev Turns : Machine → Machine → Prop :=
  Relation.ReflTransGen Turn

variable {property : Board → Prop} {machine later : Machine}

theorem Turn.keeps (lasting : Board.Lasting property) (turn : Turn machine later)
    (holds : property machine.bus) : property later.bus := by
  cases turn with
  | step render screen =>
      have kept := lasting.step machine holds
      cases ran : Cpu.step machine with
      | ok quantum after =>
          rw [final_of_ok ran] at kept
          rw [final_of_ok (Session.step_of_ok ran)]
          exact lasting.tick render quantum.cycles after.bus screen kept
      | error fault after =>
          rw [final_of_error ran] at kept
          rw [final_of_error (Session.step_of_error ran)]
          exact kept
  | look => exact lasting.law.toLaw.lookAhead lasting.law.cpu machine holds
  | operate render screen operation => exact lasting.operate render operation screen holds

/-- A lasting property of the board outlasts any number of turns. -/
theorem Turns.keep (lasting : Board.Lasting property) (turns : Turns machine later)
    (holds : property machine.bus) : property later.bus := by
  induction turns with
  | refl => exact holds
  | tail _ turn ih => exact turn.keeps lasting ih

end Machine
end GameBoy
