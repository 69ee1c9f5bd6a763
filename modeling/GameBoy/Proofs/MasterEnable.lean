import GameBoy.Proofs.Run

/-!
# The interrupt master enable

Whether interrupts are enabled follows from what the processor did in its steps so far.  DI and a
dispatch disable them and RETI enables them, all at once; EI enables them when the instruction after
it has completed.  The latches of the processor realise exactly this automaton: they matter only
while interrupts are disabled, and then one of them says whether an EI has just been executed.
-/

namespace GameBoy

/-- The instruction that a step executed. -/
def Quantum.instruction : Quantum → Option Instruction
  | .idle | .interrupt _ => none
  | .execution slot _ _ => some (Instruction.ofSlot slot)

/-- The step disabled interrupts. -/
def Quantum.disables (quantum : Quantum) : Prop :=
  (∃ line, quantum = .interrupt line) ∨ quantum.instruction = some .di

/-- The automaton of the master enable. -/
structure MasterEnable where
  enabled : Bool := false
  /-- The instruction that has just completed is an EI. -/
  armed : Bool := false
deriving DecidableEq

namespace MasterEnable

/-- The master enable after an instruction. -/
def afterInstruction (state : MasterEnable) : Instruction → MasterEnable
  | .di => { enabled := false, armed := false }
  | .reti => { enabled := true, armed := false }
  | .ei => { enabled := state.enabled || state.armed, armed := true }
  | _ => { enabled := state.enabled || state.armed, armed := false }

/-- The master enable after a step. -/
def afterStep (state : MasterEnable) : Quantum → MasterEnable
  | .idle => state
  | .interrupt _ => { enabled := false, armed := false }
  | .execution slot _ _ => state.afterInstruction (Instruction.ofSlot slot)

/-- The master enable after a number of steps. -/
def afterSteps (state : MasterEnable) (quanta : List Quantum) : MasterEnable :=
  quanta.foldl afterStep state

/-- The automaton knows the master enable.  While it is clear the automaton also knows the latches,
and a processor that has just executed an EI is not waiting. -/
structure Tracks (state : MasterEnable) (control : Control) : Prop where
  enabled : control.ime = state.enabled
  delayed : control.ime = false → control.eiDelay = state.armed
  settled : control.ime = false → control.eiPending = false
  running : state.armed = true → control.halted = false ∧ control.stopped = false

theorem tracks_boot (state : BootState) : Tracks {} (Cpu.boot state).control := by
  cases state with
  | zeroed | postBoot => exact ⟨rfl, fun _ => rfl, fun _ => rfl, nofun⟩

theorem tracks_divert (cpu : Cpu) (line : Interrupt) :
    Tracks { enabled := false, armed := false } (cpu.divert line).control :=
  ⟨rfl, fun _ => rfl, fun _ => rfl, nofun⟩

namespace Tracks

variable {state : MasterEnable} {control : Control}

theorem rouse {cpu : Cpu} (tracks : Tracks state cpu.control) : Tracks state cpu.rouse.control :=
  ⟨tracks.enabled, tracks.delayed, tracks.settled, fun _ => ⟨rfl, rfl⟩⟩

theorem of_enabled (on : control.ime = true) (enabled : state.enabled = true)
    (running : state.armed = true → control.halted = false ∧ control.stopped = false) :
    Tracks state control where
  enabled := on.trans enabled.symm
  delayed off := absurd (off.symm.trans on) Bool.false_ne_true
  settled off := absurd (off.symm.trans on) Bool.false_ne_true
  running := running

/-- An instruction that leaves the enable and its latches alone completes the delay of an EI. -/
theorem settle (tracks : Tracks state control) {next : Control} (ime : next.ime = control.ime)
    (delay : next.eiDelay = control.eiDelay) (pending : next.eiPending = control.eiPending) :
    Tracks { enabled := state.enabled || state.armed, armed := false } next.settle := by
  cases enabled : control.ime with
  | true =>
      have on : next.settle.ime = true := by
        rw [Control.settle]
        split
        · rfl
        · split <;> exact ime.trans enabled
      have due : (state.enabled || state.armed) = true := by
        rw [← tracks.enabled, enabled, Bool.true_or]
      exact of_enabled on due fun armed => absurd armed Bool.false_ne_true
  | false =>
      have armed := delay.trans (tracks.delayed enabled)
      have clear := pending.trans (tracks.settled enabled)
      have off := tracks.enabled.symm.trans enabled
      rw [Control.settle, armed, clear, off]
      cases kind : state.armed with
      | true => exact of_enabled rfl rfl fun armed => absurd armed Bool.false_ne_true
      | false =>
          exact ⟨ime.trans enabled, fun _ => armed.trans kind, fun _ => clear,
            fun armed => absurd armed Bool.false_ne_true⟩

/-- An EI completes the delay of an earlier EI and begins one of its own. -/
theorem enable (tracks : Tracks state control)
    (awake : control.halted = false ∧ control.stopped = false) :
    Tracks { enabled := state.enabled || state.armed, armed := true }
      (Control.settle { control with eiPending := true }) := by
  cases delayed : control.eiDelay with
  | true =>
      have due : (state.enabled || state.armed) = true := by
        cases enabled : control.ime with
        | true => rw [← tracks.enabled, enabled, Bool.true_or]
        | false => rw [← tracks.delayed enabled, delayed, Bool.or_true]
      rw [Control.settle, if_pos rfl]
      exact of_enabled rfl due fun _ => awake
  | false =>
      rw [Control.settle, if_neg Bool.false_ne_true, if_pos rfl]
      refine ⟨?_, fun _ => rfl, fun _ => rfl, fun _ => awake⟩
      cases enabled : control.ime with
      | true => simp [← tracks.enabled, enabled]
      | false => simp [← tracks.enabled, ← tracks.delayed enabled, enabled, delayed]

/-- The latches follow the automaton through every instruction. -/
theorem afterInstruction (tracks : Tracks state control)
    (awake : control.halted = false ∧ control.stopped = false) (instruction : Instruction)
    (waits : Bool) :
    Tracks (state.afterInstruction instruction)
      (instruction.steer waits { control with haltBug := false }).settle := by
  cases instruction with
  | di | reti => exact ⟨rfl, fun _ => rfl, fun _ => rfl, nofun⟩
  | ei => exact enable ⟨tracks.enabled, tracks.delayed, tracks.settled, tracks.running⟩ awake
  | halt => cases waits <;> exact tracks.settle rfl rfl rfl
  | _ => exact tracks.settle rfl rfl rfl

variable {β : Type} [Bus β] {cpu : Cpu}

theorem not_waiting (tracks : Tracks state control) (armed : state.armed = true) :
    ¬(control.stopped = true ∨ control.halted = true) := by
  obtain ⟨running, going⟩ := tracks.running armed
  rw [running, going]
  simp

/-- The latches follow the automaton through every step. -/
theorem afterStep {bus : β} {quantum : Quantum} {after : System β}
    (tracks : Tracks state cpu.control) (ran : Cpu.step ⟨cpu, bus⟩ = .ok quantum after) :
    Tracks (state.afterStep quantum) after.cpu.control := by
  rcases Cpu.step_cases ran with ⟨rfl, mode, stopped, same⟩ | ⟨line, rfl, _, same⟩ | ⟨_, executed⟩
  · rw [same]
    exact ⟨tracks.enabled, tracks.delayed, tracks.settled,
      fun armed => absurd mode (tracks.not_waiting armed)⟩
  · rw [same]
    exact tracks_divert _ line
  · obtain ⟨slot, cost, stall, waits, rfl, _, steered⟩ := Cpu.control_execute executed
    rw [steered]
    exact tracks.rouse.afterInstruction ⟨rfl, rfl⟩ _ waits

/-- The latches follow the automaton through every run. -/
theorem afterSteps {quanta : List Quantum} {last : Cpu} (tracks : Tracks state cpu.control)
    (run : Cpu.Run β cpu quanta last) : Tracks (state.afterSteps quanta) last.control := by
  induction run generalizing state with
  | nil => exact tracks
  | cons bus ran rest ih => exact ih (tracks.afterStep ran)

theorem not_idle {bus : β} {quantum : Quantum} {after : System β}
    (tracks : Tracks state cpu.control) (armed : state.armed = true)
    (ran : Cpu.step ⟨cpu, bus⟩ = .ok quantum after) : quantum ≠ .idle := by
  rintro rfl
  rcases Cpu.step_cases ran with ⟨_, mode, _⟩ | ⟨_, same, _⟩ | ⟨_, executed⟩
  · exact tracks.not_waiting armed mode
  · cases same
  · obtain ⟨_, _, _, _, same, _⟩ := Cpu.control_execute executed
    cases same

/-- Right after an EI that has not yet taken effect the processor executes an instruction. -/
theorem executes {bus : β} {quantum : Quantum} {after : System β}
    (tracks : Tracks state cpu.control) (armed : state.armed = true)
    (disabled : state.enabled = false) (ran : Cpu.step ⟨cpu, bus⟩ = .ok quantum after) :
    ∃ instruction, quantum.instruction = some instruction := by
  rcases Cpu.step_cases ran with ⟨idle, _⟩ | ⟨line, rfl, enabled, _⟩ | ⟨_, executed⟩
  · exact absurd idle (tracks.not_idle armed ran)
  · exact absurd (disabled.symm.trans (tracks.enabled.symm.trans enabled)) Bool.false_ne_true
  · obtain ⟨slot, _, _, _, rfl, _⟩ := Cpu.control_execute executed
    exact ⟨_, rfl⟩

end Tracks

/-! ## The automaton on its own -/

theorem afterStep_of_disables (state : MasterEnable) {quantum : Quantum}
    (disables : quantum.disables) :
    state.afterStep quantum = { enabled := false, armed := false } := by
  rcases disables with ⟨line, rfl⟩ | executed
  · rfl
  · cases quantum with
    | idle | interrupt line => cases executed
    | execution slot cost stall =>
        rw [afterStep, Option.some.inj executed]
        rfl

theorem afterStep_of_ei (state : MasterEnable) {quantum : Quantum}
    (executed : quantum.instruction = some .ei) :
    state.afterStep quantum = { enabled := state.enabled || state.armed, armed := true } := by
  cases quantum with
  | idle | interrupt line => cases executed
  | execution slot cost stall =>
      rw [afterStep, Option.some.inj executed]
      rfl

theorem armed_afterStep {state : MasterEnable} {quantum : Quantum}
    (armed : (state.afterStep quantum).armed = true) :
    quantum = .idle ∧ state.armed = true ∨ quantum.instruction = some .ei := by
  cases quantum with
  | idle => exact .inl ⟨rfl, armed⟩
  | interrupt line => cases armed
  | execution slot cost stall =>
      refine .inr ?_
      rw [afterStep] at armed
      rw [Quantum.instruction]
      cases executed : Instruction.ofSlot slot with
      | ei => rfl
      | _ =>
          rw [executed] at armed
          cases armed

theorem afterSteps_cons (state : MasterEnable) (quantum : Quantum) (rest : List Quantum) :
    state.afterSteps (quantum :: rest) = (state.afterStep quantum).afterSteps rest := rfl

theorem afterSteps_append (state : MasterEnable) (front back : List Quantum) :
    state.afterSteps (front ++ back) = (state.afterSteps front).afterSteps back :=
  List.foldl_append

theorem enabled_afterStep {state : MasterEnable} {quantum : Quantum} {instruction : Instruction}
    (executes : quantum.instruction = some instruction) (goes : ¬quantum.disables)
    (due : (state.enabled || state.armed) = true) : (state.afterStep quantum).enabled = true := by
  cases quantum with
  | idle | interrupt line => cases executes
  | execution slot cost stall =>
      cases executed : Instruction.ofSlot slot with
      | di => exact absurd (.inr (congrArg some executed)) goes
      | reti =>
          rw [afterStep, executed]
          rfl
      | _ =>
          rw [afterStep, executed]
          exact due

theorem enabled_afterSteps {state : MasterEnable} {quanta : List Quantum}
    (goes : ∀ quantum ∈ quanta, ¬quantum.disables) (enabled : state.enabled = true) :
    (state.afterSteps quanta).enabled = true := by
  induction quanta generalizing state with
  | nil => exact enabled
  | cons quantum rest ih =>
      refine ih (fun later member => goes later (.tail _ member)) ?_
      cases quantum with
      | idle => exact enabled
      | interrupt line => exact absurd (.inl ⟨line, rfl⟩) (goes _ (.head _))
      | execution slot cost stall =>
          exact enabled_afterStep rfl (goes _ (.head _)) (by rw [enabled, Bool.true_or])

/-- An EI takes effect with the next instruction that does not disable interrupts. -/
theorem enabled_of_armed {state : MasterEnable} {quanta : List Quantum}
    (goes : ∀ quantum ∈ quanta, ¬quantum.disables)
    (executes : ∃ quantum ∈ quanta, quantum.instruction ≠ none) (armed : state.armed = true) :
    (state.afterSteps quanta).enabled = true := by
  induction quanta with
  | nil => simp at executes
  | cons quantum rest ih =>
      have later := fun other member => goes other (.tail quantum member)
      cases quantum with
      | idle =>
          obtain ⟨other, member, executes⟩ := executes
          cases member with
          | head => exact absurd rfl executes
          | tail _ member => exact ih later ⟨other, member, executes⟩
      | interrupt line => exact absurd (.inl ⟨line, rfl⟩) (goes _ (.head _))
      | execution slot cost stall =>
          rw [afterSteps_cons]
          refine enabled_afterSteps later (enabled_afterStep rfl (goes _ (.head _)) ?_)
          rw [armed, Bool.or_true]

/-- Without EI and RETI interrupts stay disabled. -/
theorem afterSteps_of_disabled {quanta : List Quantum}
    (never : ∀ quantum ∈ quanta,
      quantum.instruction ≠ some .ei ∧ quantum.instruction ≠ some .reti) :
    afterSteps {} quanta = {} := by
  induction quanta with
  | nil => rfl
  | cons quantum rest ih =>
      obtain ⟨noEi, noReti⟩ := never quantum (.head _)
      have same : afterStep {} quantum = {} := by
        cases quantum with
        | idle | interrupt line => rfl
        | execution slot cost stall =>
            rw [afterStep]
            cases executed : Instruction.ofSlot slot with
            | ei => exact absurd (congrArg some executed) noEi
            | reti => exact absurd (congrArg some executed) noReti
            | _ => rfl
      rw [afterSteps_cons, same]
      exact ih fun later member => never later (.tail _ member)

end MasterEnable

namespace Cpu

open MasterEnable

variable {β : Type} [Bus β]

/-- Only an EI leaves the automaton armed, as a waiting step cannot follow it. -/
theorem Run.ends_with_ei {start last : Cpu} {state : MasterEnable} {quanta : List Quantum}
    (tracks : Tracks state start.control) (fresh : state.armed = false)
    (run : Run β start quanta last) (armed : (state.afterSteps quanta).armed = true) :
    ∃ front quantum, quanta = front ++ [quantum] ∧ quantum.instruction = some .ei := by
  rcases List.eq_nil_or_concat quanta with rfl | ⟨front, quantum, rfl⟩
  · exact absurd (fresh.symm.trans armed) Bool.false_ne_true
  rw [List.concat_eq_append] at run armed ⊢
  refine ⟨front, quantum, rfl, ?_⟩
  obtain ⟨middle, begun, ended⟩ := run.of_append
  rw [afterSteps_append] at armed
  rcases armed_afterStep armed with ⟨idle, before⟩ | executed
  · cases ended with
    | cons bus ran rest => exact absurd idle ((tracks.afterSteps begun).not_idle before ran)
  · exact executed

/-- The master enable is what the automaton says.  An EI executed while interrupts are disabled lets
the next instruction execute before any interrupt, unless it ends the delay of an EI right before
it; it takes effect with the next instruction, whatever further EI there are; and what came before a
DI or a dispatch has no influence on what comes after it. -/
theorem Run.follows_masterEnable {state : BootState} {quanta : List Quantum} {cpu : Cpu}
    (run : Run β (Cpu.boot state) quanta cpu) :
    cpu.regs.ime = (afterSteps {} quanta).enabled ∧
    (∀ front ei next back, quanta = front ++ ei :: next :: back →
      ei.instruction = some .ei → (afterSteps {} front).enabled = false →
        (∃ instruction, next.instruction = some instruction) ∨
          ∃ earlier other, front = earlier ++ [other] ∧ other.instruction = some .ei) ∧
    (∀ front ei back, quanta = front ++ ei :: back → ei.instruction = some .ei →
      (∀ quantum ∈ back, ¬quantum.disables) →
        (∃ quantum ∈ back, quantum.instruction ≠ none) → cpu.regs.ime = true) ∧
    ∀ front quantum back, quanta = front ++ quantum :: back → quantum.disables →
      cpu.regs.ime = (afterSteps {} back).enabled ∧
        ((∀ later ∈ back, later.instruction ≠ some .ei ∧ later.instruction ≠ some .reti) →
          cpu.regs.ime = false) := by
  have follows : cpu.regs.ime = (afterSteps {} quanta).enabled :=
    ((tracks_boot state).afterSteps run).enabled
  refine ⟨follows, ?_, ?_, ?_⟩
  · rintro front ei next back rfl executed disabled
    obtain ⟨middle, begun, ended⟩ := run.of_append
    have tracks := (tracks_boot state).afterSteps begun
    cases armed : (afterSteps {} front).armed with
    | true => exact .inr (begun.ends_with_ei (tracks_boot state) rfl armed)
    | false =>
        cases ended with
        | cons bus ran rest =>
            have after := tracks.afterStep ran
            rw [afterStep_of_ei _ executed, disabled, armed] at after
            cases rest with
            | cons bus ran rest => exact .inl (after.executes rfl rfl ran)
  · rintro front ei back rfl executed goes later
    rw [follows, afterSteps_append, afterSteps_cons, afterStep_of_ei _ executed]
    exact enabled_of_armed goes later rfl
  · rintro front quantum back rfl disables
    rw [follows, afterSteps_append, afterSteps_cons, afterStep_of_disables _ disables]
    refine ⟨rfl, fun never => ?_⟩
    rw [afterSteps_of_disabled never]

/-- An EI in front of a NOP, run from power-on. -/
theorem Run.follows_masterEnable_ei_nop :
    ∃ cpu, Run ByteMap (Cpu.boot .zeroed) [.execution 0xFB 4 0, .execution 0x00 4 0] cpu ∧
      cpu.regs.ime = true := by
  let memory : ByteMap := ⟨fun address => if address = 0 then 0xFB else 0⟩
  have run : Run ByteMap (Cpu.boot .zeroed) [.execution 0xFB 4 0, .execution 0x00 4 0] _ :=
    .cons memory (Effect.ok_of_value? (by decide +kernel))
      (.cons memory (Effect.ok_of_value? (by decide +kernel)) (.nil _))
  exact ⟨_, run, run.follows_masterEnable.1⟩

/-- Of two EI in a row the second is executed with interrupts disabled, and an interrupt may follow
it at once: it is the instruction with which the first takes effect. -/
theorem Run.dispatches_after_second_ei : ∃ between last,
    Instruction.ofSlot 0xFB = .ei ∧
      Run ByteMap (Cpu.boot .postBoot) [.execution 0xFB 4 0] between ∧
      between.regs.ime = false ∧
      Run ByteMap between [.execution 0xFB 4 0, .interrupt .vblank] last := by
  let memory : ByteMap := ⟨fun address => if 0xFF00 ≤ address then 0x01 else 0xFB⟩
  have begun : Run ByteMap (Cpu.boot .postBoot) [.execution 0xFB 4 0] _ :=
    .cons memory (Effect.ok_of_value? (by decide +kernel)) (.nil _)
  exact ⟨_, _, rfl, begun, by decide +kernel,
    .cons memory (Effect.ok_of_value? (by decide +kernel))
      (.cons memory (Effect.ok_of_value? (by decide +kernel)) (.nil _))⟩

end Cpu
end GameBoy
