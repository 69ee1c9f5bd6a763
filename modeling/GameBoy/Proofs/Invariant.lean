import GameBoy.Proofs.Schedule

/-!
# Invariants of the bus

The processor reaches the bus through four operations only.  A property of the bus that these keep
is therefore kept by every step, whatever becomes of it.
-/

namespace GameBoy

open Effect

namespace Exec

variable {α β : Type} {property : β → Prop}

theorem keeps_access {action : Access β α} (keeps : Keeps property action) :
    Keeps (fun system : System β => property system.bus) (access action) := by
  intro system holds
  have after := keeps system.bus holds
  rw [final] at after
  rw [final, access_apply]
  cases ran : action system.bus <;> rw [ran] at after <;> exact after

theorem keeps_modifyCpu (change : Cpu → Cpu) :
    Keeps (fun system : System β => property system.bus) (modifyCpu change) :=
  fun _ holds => holds

variable [Bus β]

/-- Where reads and writes keep the property, so does every action of the processor that neither
collects stall cycles nor reports. -/
theorem law_keeps (read : ∀ address, Keeps property (Bus.read address))
    (write : ∀ address value, Keeps property (Bus.write address value)) :
    Law fun _ _ (action : Exec β _) (_ : Exec β _) =>
      Keeps (fun system : System β => property system.bus) action where
  pure := .pure
  bind := .bind
  mono _ keeps := keeps
  registers := keeps_registers
  read address := keeps_access (read address)
  write address value := keeps_access (write address value)
  modify _ _ _ := keeps_modifyCpu _

end Exec

/-! ## What comes before a plan -/

namespace Cpu

open Exec

variable {β : Type} [Bus β] {property : β → Prop}

section Reading

variable (read : ∀ address, Keeps property (Bus.read address))

include read

theorem keeps_staysStopped :
    Keeps (fun system : System β => property system.bus) staysStopped := by
  refine keeps_registers.bind fun regs => ?_
  split
  · refine (keeps_access (read _)).bind fun lines => ?_
    split
    · exact .pure true
    · exact (keeps_modifyCpu _).bind fun _ => .pure false
  · exact .pure false

theorem keeps_poll : Keeps (fun system : System β => property system.bus) poll :=
  (keeps_access (read _)).bind fun _ => (keeps_access (read _)).bind fun _ => .pure _

/-- A successful step has only read until it waits, diverts or executes. -/
theorem step_after_reading {system after : System β} {quantum : Quantum}
    (holds : property system.bus) (ran : step system = .ok quantum after) :
    (quantum = .idle ∧ (system.cpu.regs.stopped = true ∨ system.cpu.regs.halted = true) ∧
        (∃ stopped, after.cpu = system.cpu.setStopped stopped) ∧ property after.bus) ∨
      (∃ line request bus, quantum = .interrupt line ∧ system.cpu.regs.ime = true ∧ property bus ∧
        dispatch line request ⟨system.cpu.rouse, bus⟩ = .ok () after) ∨
      ∃ bus, property bus ∧ execute ⟨system.cpu.rouse, bus⟩ = .ok quantum after := by
  obtain ⟨_, ⟨waits, rfl⟩ | ⟨woken, enable, request, polled, waits, reads, carried⟩⟩ := step_ok ran
  · obtain ⟨same, mode⟩ := staysStopped_ok waits
    exact .inl ⟨rfl, .inl (mode rfl), ⟨true, same⟩, (keeps_staysStopped read).of_ok holds waits⟩
  have kept : property polled.bus :=
    (keeps_poll read).of_ok ((keeps_staysStopped read).of_ok holds waits) reads
  have same : polled.cpu = system.cpu.setStopped false := by
    rw [← (staysStopped_ok waits).1, ← cpu_final_poll woken, final_of_ok reads]
  rcases carryOut_ok carried with ⟨rfl, waiting, rfl⟩ | ⟨line, rfl, enabled, _, dispatched⟩ | ran
  · rw [same] at waiting
    exact .inl ⟨rfl, .inr waiting, ⟨false, same⟩, kept⟩
  · rw [same] at enabled dispatched
    exact .inr (.inl ⟨line, request, polled.bus, rfl, enabled, kept, dispatched⟩)
  · rw [same] at ran
    exact .inr (.inr ⟨polled.bus, kept, ran⟩)

end Reading
end Cpu

open Exec

variable {β : Type} [Bus β]

/-- The four operations of the bus keep the property. -/
structure Bus.Invariant (property : β → Prop) : Prop where
  read : ∀ address, Keeps property (Bus.read address)
  write : ∀ address value, Keeps property (Bus.write address value)
  takeStall : ∀ bus, property bus → property (Bus.takeStall bus).2
  report : ∀ event bus, property bus → property (Bus.report event bus)

namespace Bus.Invariant

variable {property : β → Prop} (invariant : Bus.Invariant property)

include invariant

theorem steady : Steady fun system : System β => property system.bus where
  read address := keeps_access (invariant.read address)
  write address value := keeps_access (invariant.write address value)
  takeStall _ holds := invariant.takeStall _ holds
  report event _ holds := invariant.report event _ holds
  modify _ _ := keeps_modifyCpu _

/-- Keeping an invariant of the bus is a law of every step. -/
theorem law :
    StepLaw fun _ _ (action : Exec β _) (_ : Exec β _) =>
      Keeps (fun system : System β => property system.bus) action where
  toLaw := invariant.steady.law
  change := keeps_modifyCpu
  throw := .throw
  cpu := keeps_cpu
  takeStall := invariant.steady.takeStall
  report := invariant.steady.report

/-- Every step keeps an invariant of the bus. -/
theorem step : Keeps (fun system : System β => property system.bus) Cpu.step :=
  invariant.law.step

end Bus.Invariant
end GameBoy
