import GameBoy.Proofs.Invariant

/-!
# Causes of faults

A step fails because the bus refuses an access or because the instruction stream holds an opcode
that the processor lacks.  The escape byte is never met as an instruction of its own, and a
processor that hangs does so on account of an opcode that it lacks.
-/

namespace GameBoy

namespace Effect

variable {ε σ α γ : Type} {property : σ → Prop} {cause : ε → Prop}

/-- The action keeps the property, whatever comes of it, and fails for one of the given causes
only. -/
def Confined (property : σ → Prop) (cause : ε → Prop) (action : EStateM ε σ α) : Prop :=
  ∀ state, property state →
    match action state with
    | .ok _ after => property after
    | .error error after => cause error ∧ property after

namespace Confined

theorem pure (value : α) : Confined property cause (pure value : EStateM ε σ α) :=
  fun _ holds => holds

theorem throw {error : ε} (known : cause error) :
    Confined property cause (throw error : EStateM ε σ α) :=
  fun _ holds => ⟨known, holds⟩

/-- A chain is confined if its links are, the later ones for the values the first can return. -/
theorem bind_of {action : EStateM ε σ α} {next : α → EStateM ε σ γ}
    (first : Confined property cause action)
    (rest : ∀ state value after, action state = .ok value after →
      Confined property cause (next value)) :
    Confined property cause (action >>= next) := by
  intro state holds
  have middle := first state holds
  cases ran : action state with
  | ok value after =>
      rw [ran] at middle
      rw [bind_of_ok ran]
      exact rest state value after ran after middle
  | error error after =>
      rw [ran] at middle
      rw [bind_of_error ran]
      exact middle

theorem bind {action : EStateM ε σ α} {next : α → EStateM ε σ γ}
    (first : Confined property cause action)
    (rest : ∀ value, Confined property cause (next value)) :
    Confined property cause (action >>= next) :=
  first.bind_of fun _ value _ _ => rest value

theorem keeps {action : EStateM ε σ α} (confined : Confined property cause action) :
    Keeps property action := by
  intro state holds
  have after := confined state holds
  rw [final]
  cases ran : action state with
  | ok value next =>
      rw [ran] at after
      exact after
  | error error next =>
      rw [ran] at after
      exact after.2

theorem of_error {action : EStateM ε σ α} {state after : σ} {error : ε}
    (confined : Confined property cause action) (holds : property state)
    (ran : action state = .error error after) : cause error := by
  have ended := confined state holds
  rw [ran] at ended
  exact ended.1

end Confined
end Effect

open Effect

/-- The error stands for a hole of the instruction set. -/
def DecodeError.IsHole : DecodeError → Prop
  | .illegalOpcode _ _ => True
  | .malformedEscape _ => False

/-- The fault is an opcode that the processor lacks or an access refused for a cause. -/
def Fault.Within (cause : MemoryError → Prop) : Fault → Prop
  | .decode error => error.IsHole
  | .memory error => cause error

/-- The bus has the property, and if the processor hangs, then on account of an opcode it lacks. -/
structure System.Sane {β : Type} (property : β → Prop) (system : System β) : Prop where
  bus : property system.bus
  lock : ∀ error, system.cpu.locked = some error → error.IsHole

/-- The operations of the bus keep the property, and accesses are refused for one of the given
causes only. -/
structure Bus.Confined {β : Type} [Bus β] (property : β → Prop) (cause : MemoryError → Prop) :
    Prop where
  read : ∀ address, Effect.Confined property cause (Bus.read address)
  write : ∀ address value, Effect.Confined property cause (Bus.write address value)
  takeStall : ∀ bus, property bus → property (Bus.takeStall bus).2
  report : ∀ event bus, property bus → property (Bus.report event bus)

/-! ## The instruction stream -/

namespace Instruction

/-- The escape byte is the only one that decodes to an escape. -/
theorem ofSlot_ne_escape {opcode : UInt8} (plain : opcode ≠ Opcode.escape) :
    ofSlot opcode.toUInt16 ≠ .escape := by
  revert plain
  exact forall_byte opcode (by decide +kernel)

theorem ofSlot_extended_ne_escape (opcode : UInt8) :
    ofSlot (0x100 ||| opcode.toUInt16) ≠ .escape :=
  forall_byte opcode (by decide +kernel)

end Instruction

theorem Exec.ofSlot_of_fetchSlot {β : Type} [Bus β] {system after : System β} {slot : UInt16}
    (ran : Cpu.fetchSlot system = .ok slot after) : Instruction.ofSlot slot ≠ .escape := by
  obtain ⟨opcode, between, _, rest⟩ := bind_ok.mp ran
  by_cases escaped : opcode = Opcode.escape
  · rw [if_pos escaped] at rest
    obtain ⟨low, _, _, done⟩ := bind_ok.mp rest
    cases done
    exact Instruction.ofSlot_extended_ne_escape low
  · rw [if_neg escaped] at rest
    cases rest
    exact Instruction.ofSlot_ne_escape escaped

/-! ## Steps -/

namespace Exec

/-- The action keeps a system sane and fails for a known cause only. -/
abbrev Sane {α β : Type} (property : β → Prop) (cause : MemoryError → Prop) (action : Exec β α) :
    Prop :=
  Confined (System.Sane property) (Fault.Within cause) action

variable {α β : Type} {property : β → Prop} {cause : MemoryError → Prop}

theorem sane_access {action : Access β α} (confined : Confined property cause action) :
    Sane property cause (access action) := by
  intro system sane
  have after := confined system.bus sane.bus
  rw [access_apply]
  cases ran : action system.bus with
  | ok value bus =>
      rw [ran] at after
      exact ⟨after, sane.lock⟩
  | error error bus =>
      rw [ran] at after
      exact ⟨after.1, after.2, sane.lock⟩

theorem sane_modifyCpu (change : Cpu → Cpu) (kept : ∀ cpu, (change cpu).locked = cpu.locked) :
    Sane property cause (modifyCpu change) := by
  intro system sane
  refine ⟨sane.bus, fun error locked => sane.lock error ?_⟩
  rw [← kept]
  exact locked

theorem sane_modifyRegisters (change : Registers → Registers) :
    Sane property cause (modifyRegisters change) :=
  sane_modifyCpu _ fun _ => rfl

theorem sane_advance : Sane property cause (modifyCpu Cpu.advance) := by
  refine sane_modifyCpu _ fun cpu => ?_
  rw [Cpu.advance]
  split <;> rfl

theorem sane_settleEI : Sane property cause (modifyCpu Cpu.settleEI) := by
  refine sane_modifyCpu _ fun cpu => ?_
  rw [Cpu.settleEI]
  split
  · rfl
  · split <;> rfl

theorem sane_cpu : Sane property cause (cpu : Exec β Cpu) :=
  fun _ sane => sane

theorem sane_requireUnlocked : Sane property cause (Cpu.requireUnlocked : Exec β Unit) := by
  intro system sane
  rw [Cpu.requireUnlocked_apply]
  cases locked : system.cpu.locked with
  | none => exact sane
  | some error => exact ⟨sane.lock error locked, sane⟩

end Exec

namespace Bus.Confined

open Exec Cpu

variable {β : Type} [Bus β] {property : β → Prop} {cause : MemoryError → Prop}
variable (bus : Bus.Confined property cause)

include bus

theorem law : Law fun _ _ (action : Exec β _) (_ : Exec β _) => Sane property cause action where
  pure := .pure
  bind := .bind
  mono _ sane := sane
  registers _ sane := sane
  read address := sane_access (bus.read address)
  write address value := sane_access (bus.write address value)
  modify change _ _ := sane_modifyRegisters change

theorem reports (event : Event) : Sane property cause (Exec.report event) :=
  fun _ sane => ⟨bus.report event _ sane.bus, sane.lock⟩

theorem collects : Sane property cause Exec.takeStall :=
  fun _ sane => ⟨bus.takeStall _ sane.bus, sane.lock⟩

theorem hangs (slot start : UInt16) : Sane property cause (lock (.illegalOpcode slot start)) := by
  refine bus.law.registers.bind fun _ => (bus.reports _).bind fun _ => ?_
  refine Confined.bind (fun system sane => ⟨sane.bus, ?_⟩) fun _ => .throw trivial
  intro error locked
  cases locked
  trivial

/-- An instruction other than the escape keeps the system sane. -/
theorem perform {instruction : Instruction} (decoded : instruction ≠ .escape)
    (slot start immediate : UInt16) (taken : Bool) :
    Sane property cause (perform instruction slot start immediate taken) := by
  cases kind : instruction.isControl with
  | false =>
      refine bus.law.perform ?_ (fun _ change _ => sane_modifyRegisters change) (fun control => ?_)
        slot start immediate taken
      · cases instruction <;> first | rfl | cases kind
      · exact absurd (kind.symm.trans control) Bool.false_ne_true
  | true =>
      cases instruction with
      | stop | di | ei =>
          rw [Exec.perform]
          exact sane_modifyCpu _ fun _ => rfl
      | halt =>
          change Sane property cause halt
          rw [halt_eq_poll]
          refine bus.law.poll.bind fun registers => sane_modifyCpu _ fun cpu => ?_
          split <;> rfl
      | reti =>
          exact (bus.law.ret fun change _ => sane_modifyRegisters change).bind fun _ =>
            sane_modifyCpu (setIme true) fun _ => rfl
      | illegal => exact bus.hangs slot start
      | escape => exact absurd rfl decoded
      | _ => cases kind

theorem concludes {slot : UInt16} (decoded : Instruction.ofSlot slot ≠ .escape)
    (start immediate : UInt16) : Sane property cause (conclude slot start immediate) := by
  refine bus.law.registers.bind fun _ => (bus.perform decoded _ _ _ _).bind fun _ => ?_
  exact sane_settleEI.bind fun _ => bus.collects.bind fun _ => .pure _

theorem execute : Sane property cause Cpu.execute := by
  rw [execute_eq_conclude]
  refine sane_requireUnlocked.bind fun _ => bus.law.registers.bind fun regs => ?_
  -- `bind_of` and not `bind`: only a slot that was fetched is known to be no escape
  refine (bus.law.fetchSlot sane_advance).bind_of fun _ slot _ fetched => ?_
  refine (bus.law.fetchImmediate sane_advance _).bind fun immediate => ?_
  exact bus.concludes (ofSlot_of_fetchSlot fetched) regs.pc immediate

theorem dispatches (line : Interrupt) (request : UInt8) :
    Sane property cause (dispatch line request) := by
  refine (sane_modifyCpu (setIme false) fun _ => rfl).bind fun _ => ?_
  refine bus.law.registers.bind fun regs => ?_
  refine (bus.law.push regs.pc).bind fun _ => (bus.law.write _ _).bind fun _ => ?_
  exact (sane_modifyRegisters _).bind fun _ => bus.reports _

theorem waits : Sane property cause staysStopped := by
  refine bus.law.registers.bind fun regs => ?_
  split
  · refine (bus.law.read _).bind fun lines => ?_
    split
    · exact .pure true
    · exact (sane_modifyRegisters _).bind fun _ => .pure false
  · exact .pure false

theorem carriesOut (request : UInt8) (plan : Plan) :
    Sane property cause (carryOut request plan) := by
  cases plan with
  | wait => exact .pure Quantum.idle
  | serve line =>
      refine (sane_modifyCpu wake fun _ => rfl).bind fun _ => ?_
      exact (bus.dispatches line request).bind fun _ => .pure _
  | run => exact (sane_modifyCpu wake fun _ => rfl).bind fun _ => bus.execute

/-- A step of a sane system leaves it sane and fails only on an opcode that the processor lacks or
an access that the bus refuses. -/
theorem step : Sane property cause Cpu.step := by
  rw [step_eq_proceed]
  refine sane_requireUnlocked.bind fun _ => bus.waits.bind fun stays => ?_
  split
  · exact .pure Quantum.idle
  · rw [proceed_eq_carryOut]
    exact bus.law.poll.bind fun polled => sane_cpu.bind fun _ => bus.carriesOut polled.2 _

end Bus.Confined
end GameBoy
