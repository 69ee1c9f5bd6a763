import GameBoy.Proofs.Schedule

/-!
# Runs

A run is a chain of steps of the processor.  Between two steps the rest of the machine may do to the
bus whatever it likes, so each step finds a bus of its own.
-/

namespace GameBoy
namespace Cpu

open Effect

variable {β : Type} [Bus β]

variable (β) in
/-- A run of successful steps, with what the processor did in each of them. -/
inductive Run : Cpu → List Quantum → Cpu → Prop
  | nil (cpu : Cpu) : Run cpu [] cpu
  | cons {cpu : Cpu} {quantum : Quantum} {rest : List Quantum} {last : Cpu} (bus : β)
      {after : System β} :
      step ⟨cpu, bus⟩ = .ok quantum after → Run after.cpu rest last → Run cpu (quantum :: rest) last

variable (β) in
/-- A processor that some steps from power-on lead to, failed ones included. -/
inductive Reachable : Cpu → Prop
  | boot (state : BootState) : Reachable (Cpu.boot state)
  | step {cpu : Cpu} (bus : β) : Reachable cpu → Reachable (final Cpu.step ⟨cpu, bus⟩).cpu

theorem Run.of_append {first last : Cpu} {front back : List Quantum}
    (run : Run β first (front ++ back) last) :
    ∃ middle, Run β first front middle ∧ Run β middle back last := by
  induction front generalizing first with
  | nil => exact ⟨first, .nil first, run⟩
  | cons quantum front ih =>
      cases run with
      | cons bus ran rest =>
          obtain ⟨middle, begun, ended⟩ := ih rest
          exact ⟨middle, .cons bus ran begun, ended⟩

end Cpu

/-- Memory that holds a byte at every address and does nothing else. -/
structure ByteMap where
  byte : UInt16 → UInt8

instance : Bus ByteMap where
  read address map := .ok (map.byte address) map
  write address value map := .ok () ⟨fun other => if other = address then value else map.byte other⟩

end GameBoy
