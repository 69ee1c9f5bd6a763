import GameBoy.Machine
import GameBoy.Proofs.Schedule

/-!
# Polling a board

The three registers that a step polls can always be read, and reading them changes nothing.  So the
plan of the next step is a function of the machine, and the step carries it out.
-/

namespace GameBoy

namespace Board

/-- The request register as read. -/
def requestByte (board : Board) : UInt8 :=
  0xE0 ||| board.requests.toByte

theorem read_of_peek {board : Board} {address : UInt16} {value : UInt8}
    (found : board.peek address = .ok value) : Bus.read address board = .ok value board := by
  change Board.read address board = _
  rw [Board.read, found]

theorem read_of_peek_error {board : Board} {address : UInt16} {error : MemoryError}
    (refused : board.peek address = .error error) :
    Bus.read address board = .error error (board.record (.memoryFault error)) := by
  change Board.read address board = _
  rw [Board.read, refused]

theorem peek_of_read {board after : Board} {address : UInt16} {value : UInt8}
    (ran : Bus.read address board = .ok value after) : board.peek address = .ok value := by
  cases found : board.peek address with
  | ok byte =>
      rw [read_of_peek found] at ran
      cases ran
      rfl
  | error error =>
      rw [read_of_peek_error found] at ran
      cases ran

theorem peek_enableAddress (board : Board) :
    board.peek Interrupt.enableAddress = .ok board.enables := rfl

theorem peek_requestAddress (board : Board) :
    board.peek Interrupt.requestAddress = .ok board.requestByte := rfl

theorem peek_joypadAddress (board : Board) :
    board.peek Cpu.joypadAddress = .ok board.joypad.read := rfl

end Board

namespace Machine

open Effect Exec

/-- All button lines are high and the processor waits for one of them. -/
def waitsForButton (machine : Machine) : Bool :=
  machine.cpu.regs.stopped && machine.bus.joypad.read &&& 0x0F == 0x0F

/-- The plan of the next step. -/
def plan (machine : Machine) : Plan :=
  if machine.waitsForButton then .wait
  else machine.cpu.plan machine.bus.enables machine.bus.requestByte

/-- Read an address that can be read. -/
theorem read_apply {machine : Machine} {address : UInt16} {value : UInt8}
    (found : machine.bus.peek address = .ok value) :
    (read address : Exec Board UInt8) machine = .ok value machine := by
  rw [Exec.read, access_apply, Board.read_of_peek found]

theorem read_apply_of_error {machine : Machine} {address : UInt16} {error : MemoryError}
    (refused : machine.bus.peek address = .error error) :
    (read address : Exec Board UInt8) machine =
      .error (.memory error) ⟨machine.cpu, machine.bus.record (.memoryFault error)⟩ := by
  rw [Exec.read, access_apply, Board.read_of_peek_error refused]

theorem poll_apply (machine : Machine) :
    poll machine = .ok (machine.bus.enables, machine.bus.requestByte) machine := by
  rw [poll, bind_of_ok (read_apply (Board.peek_enableAddress _)),
    bind_of_ok (read_apply (Board.peek_requestAddress _))]
  rfl

theorem staysStopped_apply (machine : Machine) :
    Cpu.staysStopped machine =
      .ok machine.waitsForButton
        ⟨machine.cpu.setStopped machine.waitsForButton, machine.bus⟩ := by
  rw [waitsForButton]
  cases mode : machine.cpu.regs.stopped with
  | false =>
      rw [Cpu.staysStopped_apply_of_running mode, Bool.false_and, Cpu.setStopped_self mode]
  | true =>
      rw [Cpu.staysStopped, bind_of_ok (registers_apply _), mode, if_pos rfl, Bool.true_and,
        bind_of_ok (read_apply (Board.peek_joypadAddress _))]
      by_cases high : machine.bus.joypad.read &&& 0x0F = 0x0F
      · rw [if_pos high, beq_iff_eq.mpr high, Cpu.setStopped_self mode]
        rfl
      · rw [if_neg high, beq_eq_false_iff_ne.mpr high]
        rfl

/-- A step carries out the plan. -/
theorem step_of_unlocked {machine : Machine} (unlocked : machine.cpu.locked = none) :
    Cpu.step machine = Cpu.carryOut machine.bus.requestByte machine.plan
      ⟨machine.cpu.setStopped machine.waitsForButton, machine.bus⟩ := by
  rw [Cpu.step_eq_proceed, bind_of_ok (Cpu.requireUnlocked_of_unlocked unlocked),
    bind_of_ok (staysStopped_apply machine), plan]
  cases waits : machine.waitsForButton with
  | true => rfl
  | false =>
      rw [if_neg Bool.false_ne_true, Cpu.proceed_eq_carryOut, bind_of_ok (poll_apply _),
        bind_of_ok (cpu_apply _), if_neg Bool.false_ne_true]
      rfl

theorem waitsForButton_of_plan {machine : Machine} (planned : machine.plan ≠ .wait) :
    machine.waitsForButton = false := by
  cases waits : machine.waitsForButton with
  | false => rfl
  | true => exact absurd (by rw [plan, waits, if_pos rfl]) planned

theorem step_of_run {machine : Machine} (unlocked : machine.cpu.locked = none)
    (planned : machine.plan = .run) :
    Cpu.step machine = Cpu.execute ⟨machine.cpu.rouse, machine.bus⟩ := by
  have goes : machine.waitsForButton = false := waitsForButton_of_plan (by rw [planned]; nofun)
  rw [step_of_unlocked unlocked, planned, goes, Cpu.carryOut, bind_of_ok (modifyCpu_apply _ _)]
  rfl

theorem step_of_serve {machine : Machine} {line : Interrupt}
    (unlocked : machine.cpu.locked = none) (planned : machine.plan = .serve line) :
    Cpu.step machine =
      (Cpu.dispatch line machine.bus.requestByte >>= fun _ => pure (.interrupt line))
        ⟨machine.cpu.rouse, machine.bus⟩ := by
  have goes : machine.waitsForButton = false := waitsForButton_of_plan (by rw [planned]; nofun)
  rw [step_of_unlocked unlocked, planned, goes, Cpu.carryOut, bind_of_ok (modifyCpu_apply _ _)]
  rfl

/-- A step that served an interrupt has dispatched it. -/
theorem dispatch_of_step {machine after : Machine} {line : Interrupt}
    (ran : Cpu.step machine = .ok (.interrupt line) after) :
    Cpu.dispatch line machine.bus.requestByte ⟨machine.cpu.rouse, machine.bus⟩ = .ok () after := by
  have unlocked := (Cpu.step_ok ran).1
  cases planned : machine.plan with
  | wait =>
      rw [step_of_unlocked unlocked, planned] at ran
      cases ran
  | run =>
      rw [step_of_run unlocked planned] at ran
      obtain ⟨_, _, _, _, execution, _⟩ := Cpu.control_execute ran
      cases execution
  | serve other =>
      rw [step_of_serve unlocked planned] at ran
      obtain ⟨_, _, dispatched, done⟩ := bind_ok.mp ran
      cases done
      exact dispatched

theorem step_of_wait {machine : Machine} (unlocked : machine.cpu.locked = none)
    (planned : machine.plan = .wait) :
    Cpu.step machine =
      .ok .idle ⟨machine.cpu.setStopped machine.waitsForButton, machine.bus⟩ := by
  rw [step_of_unlocked unlocked, planned]
  rfl

end Machine

namespace Session

open Effect

variable {σ : Type} {render : Renderer σ}

theorem step_of_ok {session : Session σ} {after : Machine} {quantum : Quantum}
    (ran : Cpu.step session.machine = .ok quantum after) :
    step render session =
      .ok quantum ⟨⟨after.cpu, (after.bus.tick render quantum.cycles session.screen).1⟩,
        (after.bus.tick render quantum.cycles session.screen).2⟩ := by
  have acted : act Cpu.step session = .ok quantum ⟨after, session.screen⟩ := by
    rw [act, ran]
  rw [step, bind_of_ok acted]
  rfl

theorem step_of_error {session : Session σ} {after : Machine} {fault : Fault}
    (ran : Cpu.step session.machine = .error fault after) :
    step render session = .error fault ⟨after, session.screen⟩ := by
  have acted : act Cpu.step session = .error fault ⟨after, session.screen⟩ := by
    rw [act, ran]
  rw [step, bind_of_error acted]

/-- A successful step is one of the processor, after which the board catches up. -/
theorem step_ok {session next : Session σ} {quantum : Quantum}
    (ran : step render session = .ok quantum next) :
    ∃ after, Cpu.step session.machine = .ok quantum after ∧
      next = ⟨⟨after.cpu, (after.bus.tick render quantum.cycles session.screen).1⟩,
        (after.bus.tick render quantum.cycles session.screen).2⟩ := by
  cases stepped : Cpu.step session.machine with
  | ok other after =>
      rw [step_of_ok stepped] at ran
      cases ran
      exact ⟨after, rfl, rfl⟩
  | error fault after =>
      rw [step_of_error stepped] at ran
      cases ran

end Session

/-! ## Reachable machines -/

namespace Machine

open Effect

/-- A machine that can arise from power-on: the processor steps, failed steps included, and in
between the host presses and releases buttons, requests interrupts and writes to the bus. -/
inductive Reachable : Machine → Prop
  | boot (cartridge : Cartridge) (config : Config) (sink : Sink) :
      Reachable (Machine.boot cartridge config sink)
  | step {machine : Machine} {σ : Type} (render : Renderer σ) (screen : σ) :
      Reachable machine → Reachable (final (Session.step render) ⟨machine, screen⟩).machine
  | setButton {machine : Machine} (button : Button) (pressed : Bool) :
      Reachable machine → Reachable (machine.setButton button pressed)
  | request {machine : Machine} (lines : Interrupt.Lines) :
      Reachable machine → Reachable ⟨machine.cpu, machine.bus.request lines⟩
  | write {machine : Machine} (address : UInt16) (value : UInt8) :
      Reachable machine → Reachable (final (Exec.write address value) machine)

/-- The machine after a number of steps that draw nothing. -/
def afterSteps (machine : Machine) : Nat → Machine
  | 0 => machine
  | count + 1 => (final (Session.step Renderer.null) ⟨machine.afterSteps count, ()⟩).machine

theorem Reachable.afterSteps {machine : Machine} (reach : machine.Reachable) (count : Nat) :
    (machine.afterSteps count).Reachable := by
  induction count with
  | zero => exact reach
  | succ count ih => exact .step Renderer.null () ih

/-- A machine that begins with every register clear and runs a program from address zero. -/
def ofProgram (program : List UInt8) : Machine :=
  let bank := program.zipIdx.foldl (fun bank entry => bank.write entry.2 entry.1) (Bank.filled 0)
  boot (.romOnly bank (Bank.filled 0)) { bootState := .zeroed } .discard

end Machine
end GameBoy
