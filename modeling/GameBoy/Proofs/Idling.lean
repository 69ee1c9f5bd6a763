import GameBoy.Proofs.Buttons
import GameBoy.Proofs.Dispatch

/-!
# Waiting

A stopped processor waits until a held button pulls a line of a selected group, and a halted one
until an enabled interrupt is requested.  While it waits nothing but time passes, and the first step
that does not wait is one of a processor out of both modes.
-/

namespace GameBoy

open Effect

/-! ## One mode at a time -/

/-- The processor does not wait for an interrupt and for a button at once. -/
def Cpu.OneMode (cpu : Cpu) : Prop :=
  ¬(cpu.regs.halted = true ∧ cpu.regs.stopped = true)

namespace Cpu

variable {β : Type} [Bus β]

theorem oneMode_of_control {cpu other : Cpu} (one : other.OneMode)
    (halted : cpu.control.halted = other.control.halted)
    (stopped : cpu.control.stopped = other.control.stopped) : cpu.OneMode := by
  rintro ⟨waits, stops⟩
  exact one ⟨halted.symm.trans waits, stopped.symm.trans stops⟩

theorem oneMode_rouse (cpu : Cpu) : cpu.rouse.OneMode := by
  rintro ⟨⟨⟩, -⟩

/-- STOP and HALT each begin one mode, and no other instruction begins any. -/
theorem oneMode_execute (cpu : Cpu) (bus : β) :
    (final execute ⟨cpu.rouse, bus⟩).cpu.OneMode := by
  cases ran : execute (⟨cpu.rouse, bus⟩ : System β) with
  | ok quantum after =>
      obtain ⟨slot, cost, stall, waits, -, -, steered⟩ := control_execute ran
      rw [final_of_ok ran]
      -- The delay of EI, which is settled after the instruction, does not touch the modes.
      obtain ⟨ime, eiPending, eiDelay, settled⟩ := Control.settle_eq
        ((Instruction.ofSlot slot).steer waits { cpu.rouse.control with haltBug := false })
      rw [settled] at steered
      have one : ¬(after.cpu.control.halted = true ∧ after.cpu.control.stopped = true) := by
        rw [steered]
        cases Instruction.ofSlot slot <;> cases waits <;>
          simp [Instruction.steer, control, rouse]
      exact one
  | error fault after =>
      rw [final_of_error ran]
      rcases control_execute_of_error ran with same | ⟨locked, left⟩
      · rw [same]
        exact cpu.oneMode_rouse
      · exact oneMode_of_control cpu.oneMode_rouse (by rw [left]) (by rw [left])

theorem oneMode_dispatch (line : Interrupt) (request : UInt8) (cpu : Cpu) (bus : β) :
    (final (dispatch line request) ⟨cpu.rouse, bus⟩).cpu.OneMode := by
  cases ran : dispatch line request (⟨cpu.rouse, bus⟩ : System β) with
  | ok done after =>
      obtain ⟨_, _, _, _, _, _, rfl⟩ := dispatch_ok ran
      rw [final_of_ok ran]
      exact oneMode_of_control cpu.oneMode_rouse rfl rfl
  | error fault after =>
      obtain ⟨sp, left⟩ := dispatch_error ran
      rw [final_of_error ran, left]
      exact oneMode_of_control cpu.oneMode_rouse rfl rfl

end Cpu

namespace Machine

variable {machine : Machine}

theorem stopped_of_waitsForButton (waits : machine.waitsForButton = true) :
    machine.cpu.regs.stopped = true :=
  (Bool.and_eq_true_iff.mp waits).1

theorem oneMode_step (one : machine.cpu.OneMode) : (final Cpu.step machine).cpu.OneMode := by
  cases locked : machine.cpu.locked with
  | some error =>
      rw [final_of_error (Cpu.step_of_locked locked)]
      exact one
  | none =>
      cases planned : machine.plan with
      | wait =>
          rw [final_of_ok (step_of_wait locked planned)]
          rintro ⟨halted, waits⟩
          exact one ⟨halted, stopped_of_waitsForButton waits⟩
      | run =>
          rw [final, step_of_run locked planned]
          exact Cpu.oneMode_execute machine.cpu machine.bus
      | serve line =>
          have kept := Cpu.oneMode_dispatch line machine.bus.requestByte machine.cpu machine.bus
          rw [final] at kept
          rw [final, step_of_serve locked planned, bind_apply]
          cases ran : Cpu.dispatch line machine.bus.requestByte ⟨machine.cpu.rouse, machine.bus⟩ <;>
            rw [ran] at kept <;> exact kept

theorem Handled.oneMode {first : Machine} {inputs : List Joypad.Input}
    (handled : first.Handled inputs machine) (begun : first.cpu.OneMode) :
    machine.cpu.OneMode := by
  induction handled with
  | start => exact begun
  | @step inputs machine σ render screen _ ih =>
      rcases machine.final_sessionStep render screen with same | ⟨cycles, same⟩ <;> rw [same] <;>
        exact oneMode_step ih
  | @look inputs machine _ ih =>
      rcases machine.final_nextOpcode with same | ⟨event, same⟩ <;> rw [same] <;> exact ih
  | operate _ _ _ _ ih => exact ih

/-! ## Which steps wait -/

/-- A stopped processor waits unless a button line is low. -/
theorem idles_iff_waitsForButton (one : machine.cpu.OneMode) (unlocked : machine.cpu.locked = none)
    (stopped : machine.cpu.regs.stopped = true) :
    machine.Idles ↔ machine.waitsForButton = true := by
  rw [idles_iff, plan]
  constructor
  · rintro ⟨-, planned⟩
    by_contra goes
    rw [if_neg goes] at planned
    exact one ⟨Cpu.halted_of_plan planned, stopped⟩
  · intro waits
    exact ⟨unlocked, if_pos waits⟩

/-- A halted processor waits unless an enabled interrupt is requested. -/
theorem idles_iff_highestPriority (unlocked : machine.cpu.locked = none)
    (halted : machine.cpu.regs.halted = true) (going : machine.cpu.regs.stopped = false) :
    machine.Idles ↔
      Interrupt.highestPriority machine.bus.enables machine.bus.requestByte = none := by
  have goes : machine.waitsForButton = false := by
    rw [waitsForButton, going, Bool.false_and]
  rw [idles_iff, plan, goes, if_neg Bool.false_ne_true, Cpu.plan, halted]
  cases Interrupt.highestPriority machine.bus.enables machine.bus.requestByte with
  | none => simp [unlocked]
  | some line => cases machine.cpu.regs.ime <;> simp

/-- A step that does not wait acts for a processor out of both modes: it serves the pending
interrupt of highest priority, or it executes. -/
theorem acts_of_not_idles (unlocked : machine.cpu.locked = none) (acts : ¬machine.Idles) :
    (∃ line, machine.cpu.regs.ime = true ∧
        Interrupt.highestPriority machine.bus.enables machine.bus.requestByte = some line ∧
        Cpu.step machine =
          (Cpu.dispatch line machine.bus.requestByte >>= fun _ => pure (.interrupt line))
            ⟨machine.cpu.rouse, machine.bus⟩) ∨
      (machine.cpu.regs.ime = true →
          Interrupt.highestPriority machine.bus.enables machine.bus.requestByte = none) ∧
        Cpu.step machine = Cpu.execute ⟨machine.cpu.rouse, machine.bus⟩ := by
  have planned : machine.plan =
      machine.cpu.plan machine.bus.enables machine.bus.requestByte := by
    rw [plan]
    split
    · next waits => exact absurd (idles_iff.mpr ⟨unlocked, if_pos waits⟩) acts
    · rfl
  cases goal : machine.plan with
  | wait => exact absurd (idles_iff.mpr ⟨unlocked, goal⟩) acts
  | serve line =>
      obtain ⟨enabled, pending⟩ := Cpu.ime_of_plan (planned.symm.trans goal)
      exact .inl ⟨line, enabled, pending, step_of_serve unlocked goal⟩
  | run =>
      refine .inr ⟨fun enabled => ?_, step_of_run unlocked goal⟩
      rw [goal, Cpu.plan, enabled] at planned
      cases pending : Interrupt.highestPriority machine.bus.enables machine.bus.requestByte with
      | none => rfl
      | some line =>
          rw [pending] at planned
          cases planned

/-! ## Steps that wait -/

/-- A step that waits leaves the machine to time. -/
theorem step_of_idles (one : machine.cpu.OneMode) (idles : machine.Idles) :
    Cpu.step machine = .ok .idle machine := by
  obtain ⟨unlocked, planned⟩ := idles_iff.mp idles
  have same : machine.waitsForButton = machine.cpu.regs.stopped := by
    cases stopped : machine.cpu.regs.stopped with
    | true => exact (idles_iff_waitsForButton one unlocked stopped).mp idles
    | false => rw [waitsForButton, stopped, Bool.false_and]
  rw [step_of_wait unlocked planned, same, Cpu.setStopped_self rfl]

/-- A step that waits writes nothing. -/
theorem selections_of_idles (idles : machine.Idles) : machine.selections = [] := by
  obtain ⟨after, ran⟩ := idles
  obtain ⟨more, taped⟩ := Taped.step_of_ok ran []
  have reads (address : UInt16) :
      Keeps (fun taped : Taped Board => taped.writes = []) (Bus.read address) := by
    intro taped empty
    rw [final, Taped.read_apply]
    cases Bus.read address taped.bus <;> exact empty
  rcases Cpu.step_after_reading reads rfl taped with
    ⟨_, _, _, empty⟩ | ⟨_, _, _, ⟨⟩, _⟩ | ⟨bus, _, executed⟩
  · rw [selections, Machine.taped, final_of_ok taped, empty, Board.selections, List.flatMap_nil]
  · obtain ⟨_, _, _, _, execution, _⟩ := Cpu.control_execute executed
    cases execution

end Machine

namespace Interrupt

/-- No line is pending if no bit of the five is both enabled and requested. -/
theorem highestPriority_eq_none_iff (enable request : UInt8) :
    highestPriority enable request = none ↔ enable &&& request &&& 0x1F = 0 := by
  rw [← Option.not_isSome_iff_eq_none, isSome_highestPriority]
  simp

end Interrupt

/-! ## Runs of steps that wait -/

namespace Session

variable {σ : Type} {render : Renderer σ} {session last : Session σ} {moves : List (Move σ)}
  {first : Machine} {inputs : List Joypad.Input}

theorem idles_of_step {next : Session σ} (ran : step render session = .ok .idle next) :
    session.machine.Idles := by
  obtain ⟨after, stepped, -⟩ := step_ok ran
  exact ⟨after, stepped⟩

/-- A step that waits moves neither the processor nor the joypad. -/
theorem step_of_idles (one : session.machine.cpu.OneMode) (idles : session.machine.Idles)
    (render : Renderer σ) :
    step render session =
      .ok .idle ⟨⟨session.machine.cpu, (session.machine.bus.tick render 4 session.screen).1⟩,
        (session.machine.bus.tick render 4 session.screen).2⟩ :=
  step_of_ok (Machine.step_of_idles one idles)

/-- Steps that wait are time that passes. -/
theorem Steps.of_idle (steps : Steps render session moves last)
    (waits : ∀ move ∈ moves, move.quantum = .idle) (one : session.machine.cpu.OneMode)
    (settled : session.machine.bus.raised = {}) :
    last.machine.cpu = session.machine.cpu ∧
      (last.machine.bus, last.screen) =
        session.machine.bus.tick render (4 * moves.length) session.screen := by
  induction steps with
  | nil session => exact ⟨rfl, (Board.tick_zero render settled session.screen).symm⟩
  | @cons session next last quantum rest ran _ ih =>
      obtain ⟨rfl, others⟩ := List.forall_mem_cons.mp waits
      have stepped := step_of_idles one (idles_of_step ran) render
      rw [ran] at stepped
      cases stepped
      obtain ⟨_, _, _, serial, joypad⟩ := (Board.raised_eq_empty_iff session.machine.bus).mp settled
      obtain ⟨cpu, passed⟩ := ih others one (Board.raised_tick render 4 _ _)
      refine ⟨cpu, ?_⟩
      rw [passed, Board.tick_add render serial joypad, List.length_cons, Nat.mul_succ, Nat.add_comm]

theorem Steps.handled (steps : Steps render session moves last)
    (waits : ∀ move ∈ moves, move.quantum = .idle)
    (handled : first.Handled inputs session.machine) : first.Handled inputs last.machine := by
  induction steps with
  | nil => exact handled
  | @cons session next last quantum rest ran _ ih =>
      obtain ⟨rfl, others⟩ := List.forall_mem_cons.mp waits
      have stepped := handled.step render session.screen
      rw [final_of_ok ran, Machine.selections_of_idles (idles_of_step ran),
        List.append_nil] at stepped
      exact ih others stepped

end Session

open Joypad Session

/-- Whatever has been done to a machine since power-on, steps that wait are the passing of four
cycles each and change nothing of the processor.  The step after them waits for a button unless a
held button belongs to a group selected, whatever the interrupt registers are, and for an interrupt
unless one is enabled and requested; a step that does not wait acts at once, out of both modes. -/
theorem waiting_is_time (cartridge : Cartridge) (config : Config) (sink : Sink)
    {machine : Machine} {inputs : List Input}
    (handled : (Machine.boot cartridge config sink).Handled inputs machine)
    (unlocked : machine.cpu.locked = none) {σ : Type} (render : Renderer σ) (screen : σ)
    {moves : List (Move σ)} {last : Session σ} (steps : Steps render ⟨machine, screen⟩ moves last)
    (waits : ∀ move ∈ moves, move.quantum = .idle) :
    let later := last.machine
    let pending := later.bus.enables &&& later.bus.requestByte &&& 0x1F
    ((∀ move ∈ moves, move.quantum.cycles = 4) ∧ later.cpu = machine.cpu ∧
      (later.bus, last.screen) = machine.bus.tick render (4 * moves.length) screen) ∧
    (machine.cpu.regs.stopped = true →
      (later.Idles ↔ ¬∃ button : Button, heldAfter inputs button = true ∧
        button.SelectedBy (selectionAfter inputs))) ∧
    (machine.cpu.regs.halted = true → machine.cpu.regs.stopped = false →
      (later.Idles ↔ pending = 0)) ∧
    (¬later.Idles →
      (∃ line, machine.cpu.regs.ime = true ∧
          Interrupt.highestPriority later.bus.enables later.bus.requestByte = some line ∧
          Cpu.step later = (Cpu.dispatch line later.bus.requestByte >>= fun _ =>
            pure (.interrupt line)) ⟨machine.cpu.rouse, later.bus⟩) ∨
        (machine.cpu.regs.ime = true → pending = 0) ∧
          Cpu.step later = Cpu.execute ⟨machine.cpu.rouse, later.bus⟩) := by
  intro later pending
  have begun : (Machine.boot cartridge config sink).cpu.OneMode := by
    cases boot : config.bootState <;> simp [Machine.boot, Cpu.boot, boot, Cpu.OneMode]
  have buttons : Reflects [] (Machine.boot cartridge config sink).bus.joypad := by
    cases boot : config.bootState <;>
      simpa [Machine.boot, Board.boot, boot] using reflects_boot
  have settled : machine.bus.raised = {} :=
    handled.turns.keep Board.lasting_settled (Board.raised_boot _ _ _)
  have one := handled.oneMode begun
  obtain ⟨same, passed⟩ := steps.of_idle waits one settled
  have reflects := (steps.handled waits handled).reflects buttons
  simp only at same passed
  refine ⟨⟨fun move here => by rw [waits move here]; rfl, same, passed⟩, ?_, ?_, ?_⟩
  · intro stopped
    rw [Machine.idles_iff_waitsForButton (same ▸ one) (same ▸ unlocked) (same ▸ stopped),
      Machine.waitsForButton, same, stopped, Bool.true_and, beq_iff_eq, reflects.lines_high_iff]
  · intro halted going
    rw [Machine.idles_iff_highestPriority (same ▸ unlocked) (same ▸ halted) (same ▸ going),
      Interrupt.highestPriority_eq_none_iff]
  · intro acts
    have does := Machine.acts_of_not_idles (same ▸ unlocked) acts
    rwa [same, Interrupt.highestPriority_eq_none_iff] at does

/-- A machine that selects the directions and stops. -/
def stopsForDirections : Machine :=
  .ofProgram [0x3E, 0x20, 0xE0, 0x00, 0x10, 0x00]

/-- The machine stopped, with an action button held. -/
def heldInVain : Machine :=
  (stopsForDirections.afterSteps 3).setButton .start true

theorem handled_heldInVain :
    stopsForDirections.Handled [.select 0x20, .button .start true] heldInVain := by
  have first : stopsForDirections.selections = [] := by decide +kernel
  have second : (stopsForDirections.afterSteps 1).selections = [.select 0x20] := by decide +kernel
  have third : (stopsForDirections.afterSteps 2).selections = [] := by decide +kernel
  have started : stopsForDirections.Handled [] stopsForDirections := .start
  have loaded := started.step Renderer.null ()
  rw [first] at loaded
  have selected := loaded.step Renderer.null ()
  rw [show (final (Session.step Renderer.null) ⟨stopsForDirections, ()⟩).machine =
    stopsForDirections.afterSteps 1 from rfl, second] at selected
  have stopped := selected.step Renderer.null ()
  rw [show (final (Session.step Renderer.null) ⟨stopsForDirections.afterSteps 1, ()⟩).machine =
    stopsForDirections.afterSteps 2 from rfl, third] at stopped
  exact stopped.operate Renderer.null () (.setButton .start true)

/-- While only a button of the other group is held, a stopped machine waits, and goes on waiting. -/
theorem waiting_is_time_unselected :
    ∃ last, Steps Renderer.null ⟨heldInVain, ()⟩ [⟨⟨heldInVain, ()⟩, .idle⟩] last ∧
      last.machine.cpu = heldInVain.cpu ∧ last.machine.Idles := by
  have unlocked : heldInVain.cpu.locked = none := by decide +kernel
  have stopped : heldInVain.cpu.regs.stopped = true := by decide +kernel
  have none : ¬∃ button : Button,
      heldAfter [.select 0x20, .button .start true] button = true ∧
        button.SelectedBy (selectionAfter [.select 0x20, .button .start true]) := by
    rintro ⟨button, held, selected⟩
    revert held selected
    cases button <;> decide
  have waiting {moves : List (Move Unit)} {last : Session Unit}
      (steps : Steps Renderer.null ⟨heldInVain, ()⟩ moves last) :=
    waiting_is_time (.romOnly _ _) { bootState := .zeroed } .discard handled_heldInVain unlocked
      Renderer.null () steps
  obtain ⟨-, waits, -⟩ := waiting (.nil _) (List.forall_mem_nil _)
  obtain ⟨after, ran⟩ := (waits stopped).mpr none
  have goes : step Renderer.null (⟨heldInVain, ()⟩ : Session Unit) = .ok .idle _ := step_of_ok ran
  have steps := Steps.cons goes (.nil _)
  obtain ⟨⟨-, same, -⟩, still, -⟩ := waiting steps (by simp)
  exact ⟨_, steps, same, (still stopped).mpr none⟩

end GameBoy
