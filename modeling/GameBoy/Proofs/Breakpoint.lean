import GameBoy.Proofs.Polling

/-!
# Software breakpoints

A frame that is to stop at a breakpoint looks ahead at the opcode of every step.  What it foresees
is what the step executes, unless the step ends HALT or STOP: then it foresees nothing although an
instruction may be executed.  The frame therefore stops at the first breakpoint executed by a step
that did not begin in one of the two modes, and is an ordinary frame if there is none.
-/

namespace GameBoy
namespace Machine

open Effect Exec

/-- The step ran into the error that the processor hangs on. -/
def Hangs (machine : Machine) : Prop :=
  ∃ error, machine.cpu.locked = some error ∧ Cpu.step machine = .error (.decode error) machine

/-- The step waits. -/
def Idles (machine : Machine) : Prop :=
  ∃ after, Cpu.step machine = .ok .idle after

/-- The step dispatches an interrupt. -/
def Diverts (machine : Machine) : Prop :=
  machine.cpu.locked = none ∧ machine.cpu.regs.ime = true ∧
    ∃ line, Cpu.step machine =
      (Cpu.dispatch line machine.bus.requestByte >>= fun _ => pure (.interrupt line))
        ⟨machine.cpu.rouse, machine.bus⟩

/-- The step executes an instruction whose first byte is `opcode`. -/
def Executes (machine : Machine) (opcode : UInt8) : Prop :=
  machine.cpu.locked = none ∧ machine.bus.peek machine.cpu.regs.pc = .ok opcode ∧
    Cpu.step machine = Cpu.execute ⟨machine.cpu.rouse, machine.bus⟩

/-- The processor neither halted nor stopped. -/
def isAwake (machine : Machine) : Bool :=
  !machine.cpu.regs.halted && !machine.cpu.regs.stopped

variable {machine : Machine}

/-! ## What a step does and what it was planned to do -/

theorem execute_ne_idle {system after : Machine} : Cpu.execute system ≠ .ok .idle after := by
  intro ran
  obtain ⟨_, _, _, _, execution, _⟩ := Cpu.control_execute ran
  cases execution

/-- An execution and a dispatch always differ: one of them clears the master enable. -/
theorem execute_ne_dispatch (enabled : machine.cpu.regs.ime = true) (line : Interrupt)
    (request : UInt8) :
    Cpu.execute ⟨machine.cpu.rouse, machine.bus⟩ ≠
      (Cpu.dispatch line request >>= fun _ => pure (.interrupt line))
        ⟨machine.cpu.rouse, machine.bus⟩ := by
  intro same
  cases ran : Cpu.execute ⟨machine.cpu.rouse, machine.bus⟩ with
  | ok quantum after =>
      -- success tells the two apart by what they report
      rw [ran] at same
      obtain ⟨_, _, _, _, rfl, _⟩ := Cpu.control_execute ran
      obtain ⟨_, _, _, done⟩ := bind_ok.mp same.symm
      cases done
  | error fault after =>
      -- both may fail with the same fault, but only the dispatch has cleared the master enable
      rw [ran] at same
      have cleared : after.cpu.regs.ime = false := by
        rcases bind_error.mp same.symm with failed | ⟨_, _, _, done⟩
        · obtain ⟨sp, left⟩ := Cpu.dispatch_error failed
          rw [left]
          rfl
        · cases done
      have kept : after.cpu.regs.ime = true := by
        rcases Cpu.control_execute_of_error ran with left | ⟨locked, left⟩
        · rw [left]
          exact enabled
        · exact (congrArg Control.ime left).trans enabled
      exact absurd (cleared.symm.trans kept) Bool.false_ne_true

theorem enabled_of_serve {line : Interrupt} (planned : machine.plan = .serve line) :
    machine.cpu.regs.ime = true := by
  have goes : machine.waitsForButton = false := waitsForButton_of_plan (by rw [planned]; nofun)
  rw [plan, goes, if_neg Bool.false_ne_true] at planned
  exact (Cpu.ime_of_plan planned).1

theorem executes_iff {opcode : UInt8} :
    Executes machine opcode ↔ machine.cpu.locked = none ∧ machine.plan = .run ∧
      machine.bus.peek machine.cpu.regs.pc = .ok opcode := by
  constructor
  · rintro ⟨unlocked, fetched, steps⟩
    refine ⟨unlocked, ?_, fetched⟩
    cases planned : machine.plan with
    | run => rfl
    | wait =>
        rw [step_of_wait unlocked planned] at steps
        exact absurd steps.symm execute_ne_idle
    | serve line =>
        rw [step_of_serve unlocked planned] at steps
        exact absurd steps.symm (execute_ne_dispatch (enabled_of_serve planned) _ _)
  · rintro ⟨unlocked, planned, fetched⟩
    exact ⟨unlocked, fetched, step_of_run unlocked planned⟩

theorem idles_iff : Idles machine ↔ machine.cpu.locked = none ∧ machine.plan = .wait := by
  constructor
  · rintro ⟨after, steps⟩
    have unlocked := (Cpu.step_ok steps).1
    refine ⟨unlocked, ?_⟩
    cases planned : machine.plan with
    | wait => rfl
    | serve line =>
        rw [step_of_serve unlocked planned] at steps
        obtain ⟨_, _, _, done⟩ := bind_ok.mp steps
        cases done
    | run =>
        rw [step_of_run unlocked planned] at steps
        exact absurd steps execute_ne_idle
  · rintro ⟨unlocked, planned⟩
    exact ⟨_, step_of_wait unlocked planned⟩

theorem diverts_iff :
    Diverts machine ↔ machine.cpu.locked = none ∧ ∃ line, machine.plan = .serve line := by
  constructor
  · rintro ⟨unlocked, enabled, line, steps⟩
    refine ⟨unlocked, ?_⟩
    cases planned : machine.plan with
    | serve line => exact ⟨line, rfl⟩
    | wait =>
        rw [step_of_wait unlocked planned] at steps
        obtain ⟨_, _, _, done⟩ := bind_ok.mp steps.symm
        cases done
    | run =>
        rw [step_of_run unlocked planned] at steps
        exact absurd steps (execute_ne_dispatch enabled _ _)
  · rintro ⟨unlocked, line, planned⟩
    exact ⟨unlocked, enabled_of_serve planned, line, step_of_serve unlocked planned⟩

theorem hangs_iff : Hangs machine ↔ machine.cpu.locked.isSome = true := by
  constructor
  · rintro ⟨error, locked, _⟩
    rw [locked]
    rfl
  · intro locked
    obtain ⟨error, locked⟩ := Option.isSome_iff_exists.mp locked
    exact ⟨error, locked, Cpu.step_of_locked locked⟩

/-! ## Looking ahead -/

/-- What is foreseen is what is planned for a processor that is awake. -/
theorem nextOpcode_apply (machine : Machine) :
    nextOpcode machine =
      if machine.isAwake ∧ machine.cpu.locked = none ∧ machine.plan = .run then
        (some <$> Exec.read machine.cpu.regs.pc) machine
      else .ok none machine := by
  rw [nextOpcode, bind_of_ok (cpu_apply _)]
  cases halted : machine.cpu.regs.halted with
  | true => simp [isAwake, halted]
  | false =>
      cases stopped : machine.cpu.regs.stopped with
      | true => simp [isAwake, stopped]
      | false =>
          cases locked : machine.cpu.locked with
          | some error => simp
          | none =>
              have goes : machine.waitsForButton = false := by
                rw [waitsForButton, stopped, Bool.false_and]
              simp only [isAwake, halted, stopped, plan, goes, Cpu.plan]
              have enables := read_apply (Board.peek_enableAddress machine.bus)
              have requests := read_apply (Board.peek_requestAddress machine.bus)
              cases pending :
                  Interrupt.highestPriority machine.bus.enables machine.bus.requestByte with
              | none | some line =>
                  cases machine.cpu.regs.ime with
                  | false => simp
                  | true => simp [bind_of_ok enables, bind_of_ok requests, pending]

/-- An instruction that a step has executed begins with the byte at PC. -/
theorem executes_of_execution {slot : UInt16} {cost stall : Nat} {after : Machine}
    (ran : Cpu.step machine = .ok (.execution slot cost stall) after) :
    ∃ opcode rest, Executes machine opcode ∧ Instruction.slotBytes slot = opcode :: rest := by
  have unlocked := (Cpu.step_ok ran).1
  cases planned : machine.plan with
  | wait =>
      rw [step_of_wait unlocked planned] at ran
      cases ran
  | serve line =>
      rw [step_of_serve unlocked planned] at ran
      obtain ⟨_, _, _, done⟩ := bind_ok.mp ran
      cases done
  | run =>
      rw [step_of_run unlocked planned] at ran
      obtain ⟨_, slot, immediate, fetched, stream, acts⟩ := Cpu.execute_ok ran
      obtain ⟨_, _, _, same⟩ := Cpu.conclude_ok acts
      cases same
      obtain ⟨opcode, rest, bytes⟩ :=
        List.exists_cons_of_length_pos (Instruction.slotBytes_length_pos slot)
      rw [Instruction.encoding, bytes, List.cons_append, List.length_cons] at stream
      obtain ⟨first, _, _, split, read, _⟩ := readRun_of_fetchRun_succ stream
      cases split
      exact ⟨opcode, rest, executes_iff.mpr ⟨unlocked, planned, Board.peek_of_read read⟩, bytes⟩

/-- What is foreseen is executed by the next step.  Where nothing is foreseen the step waits,
dispatches an interrupt or hangs, or it executes an instruction right after ending HALT or STOP. -/
theorem nextOpcode_agrees {opcode : UInt8}
    (fetched : machine.bus.peek machine.cpu.regs.pc = .ok opcode) :
    ∃ found, nextOpcode machine = .ok found machine ∧
      (∀ other, found = some other ↔ Executes machine other ∧ machine.isAwake = true) ∧
      (found = none ↔ Idles machine ∨ Diverts machine ∨ Hangs machine ∨
        Executes machine opcode ∧ machine.isAwake = false) := by
  rw [nextOpcode_apply]
  simp only [executes_iff, idles_iff, diverts_iff, hangs_iff]
  by_cases foreseen : machine.isAwake = true ∧ machine.cpu.locked = none ∧ machine.plan = .run
  · obtain ⟨awake, unlocked, planned⟩ := foreseen
    rw [if_pos ⟨awake, unlocked, planned⟩]
    refine ⟨some opcode, map_of_ok (read_apply fetched) some, fun other => ?_, ?_⟩
    · simp [awake, unlocked, planned, fetched]
    · simp [awake, unlocked, planned]
  · rw [if_neg foreseen]
    refine ⟨none, rfl, fun other => ?_, ?_⟩
    · constructor
      · nofun
      · rintro ⟨⟨unlocked, planned, _⟩, awake⟩
        exact absurd ⟨awake, unlocked, planned⟩ foreseen
    · refine ⟨fun _ => ?_, fun _ => rfl⟩
      cases locked : machine.cpu.locked with
      | some error => exact .inr (.inr (.inl rfl))
      | none =>
          cases planned : machine.plan with
          | wait => exact .inl ⟨rfl, rfl⟩
          | serve line => exact .inr (.inl ⟨rfl, line, rfl⟩)
          | run =>
              have asleep : machine.isAwake = false :=
                Bool.eq_false_iff.mpr fun awake => foreseen ⟨awake, locked, planned⟩
              exact .inr (.inr (.inr ⟨⟨rfl, rfl, fetched⟩, asleep⟩))

theorem nextOpcode_ok {found : Option UInt8} {after : Machine}
    (looked : nextOpcode machine = .ok found after) :
    after = machine ∧
      ∀ other, found = some other ↔ Executes machine other ∧ machine.isAwake = true := by
  cases fetched : machine.bus.peek machine.cpu.regs.pc with
  | ok opcode =>
      obtain ⟨foreseen, looks, agrees, _⟩ := nextOpcode_agrees fetched
      rw [looks] at looked
      cases looked
      exact ⟨rfl, agrees⟩
  | error error =>
      rw [nextOpcode_apply] at looked
      split at looked
      · rw [map_of_error (read_apply_of_error fetched)] at looked
        cases looked
      · cases looked
        refine ⟨rfl, fun other => ⟨nofun, fun executes => ?_⟩⟩
        have byte := executes.1.2.1
        rw [fetched] at byte
        cases byte

/-- Looking ahead fails only where the step would, and in the same way. -/
theorem nextOpcode_error {fault : Fault} {after : Machine}
    (looked : nextOpcode machine = .error fault after) : Cpu.step machine = .error fault after := by
  rw [nextOpcode_apply] at looked
  split at looked
  · obtain ⟨awake, unlocked, planned⟩ : machine.isAwake = true ∧ machine.cpu.locked = none ∧
        machine.plan = .run := by assumption
    have modes : machine.cpu.regs.halted = false ∧ machine.cpu.regs.stopped = false := by
      simpa [isAwake] using awake
    cases fetched : machine.bus.peek machine.cpu.regs.pc with
    | ok opcode =>
        rw [map_of_ok (read_apply fetched)] at looked
        cases looked
    | error error =>
        rw [map_of_error (read_apply_of_error fetched)] at looked
        cases looked
        have unread : Cpu.fetchSlot machine = .error (.memory error)
            ⟨machine.cpu, machine.bus.record (.memoryFault error)⟩ := by
          refine bind_of_error ?_ _
          rw [fetch_apply, Board.read_of_peek_error fetched]
        rw [step_of_run unlocked planned, Cpu.rouse_of_running modes.1 modes.2,
          Cpu.execute_eq_conclude, bind_of_ok (Cpu.requireUnlocked_of_unlocked unlocked),
          bind_of_ok (registers_apply _), bind_of_error unread]
  · cases looked

end Machine

/-- The step executed `LD B,B`. -/
def Quantum.isBreakpoint : Quantum → Bool
  | .idle | .interrupt _ => false
  | .execution slot _ _ => slot == Machine.softwareBreakpoint.toUInt16

/-- A breakpoint is foreseen exactly if the step executes it and did not begin in HALT or STOP. -/
theorem Machine.foreseen_iff {machine looked after : Machine} {found : Option UInt8}
    {quantum : Quantum} (looks : nextOpcode machine = .ok found looked)
    (ran : Cpu.step machine = .ok quantum after) :
    found = some softwareBreakpoint ↔ (machine.isAwake && quantum.isBreakpoint) = true := by
  rw [(nextOpcode_ok looks).2, and_comm, Bool.and_eq_true]
  refine and_congr_right fun _ => ?_
  constructor
  · intro executes
    have executed := ran
    rw [executes.2.2] at executed
    obtain ⟨slot, cost, stall, _, rfl, _⟩ := Cpu.control_execute executed
    obtain ⟨opcode, rest, same, bytes⟩ := executes_of_execution ran
    have byte := executes.2.1.symm.trans same.2.1
    cases byte
    exact beq_iff_eq.mpr (Instruction.eq_of_slotBytes bytes (by decide))
  · intro stops
    cases quantum with
    | idle | interrupt line => cases stops
    | execution slot cost stall =>
        obtain ⟨opcode, rest, executes, bytes⟩ := executes_of_execution ran
        rw [beq_iff_eq.mp stops, Instruction.slotBytes_toUInt16] at bytes
        cases bytes
        exact executes

namespace Session

open Effect

variable {σ : Type} {render : Renderer σ}

/-! ## A frame -/

/-- The step that began at `session` and did `quantum` stops a frame. -/
def stops (session : Session σ) (quantum : Quantum) : Bool :=
  session.machine.isAwake && quantum.isBreakpoint

/-- Looking ahead before a step makes no difference but for telling whether to stop after it. -/
theorem look_then_step {α : Type} (render : Renderer σ) (session : Session σ)
    (next : Bool → Quantum → EStateM Fault (Session σ) α) :
    (act Machine.nextOpcode >>= fun opcode => step render >>= fun quantum =>
        next (opcode = some Machine.softwareBreakpoint) quantum) session =
      (step render >>= fun quantum => next (session.stops quantum) quantum) session := by
  cases looks : Machine.nextOpcode session.machine with
  | ok found looked =>
      have acted : act Machine.nextOpcode session = .ok found session := by
        rw [act, looks, (Machine.nextOpcode_ok looks).1]
      rw [bind_of_ok acted]
      cases ran : Cpu.step session.machine with
      | ok quantum after =>
          rw [bind_of_ok (step_of_ok ran), bind_of_ok (step_of_ok ran)]
          congr 2
          rw [← Bool.coe_iff_coe, decide_eq_true_iff]
          exact Machine.foreseen_iff looks ran
      | error fault after =>
          rw [bind_of_error (step_of_error ran), bind_of_error (step_of_error ran)]
  | error fault looked =>
      have acted : act Machine.nextOpcode session = .error fault ⟨looked, session.screen⟩ := by
        rw [act, looks]
      rw [bind_of_error acted,
        bind_of_error (step_of_error (Machine.nextOpcode_error looks))]

theorem untilFrom_of_lt {elapsed : Nat} (within : elapsed < Machine.cyclesPerFrame) (fuel : Nat)
    (session : Session σ) :
    runFrameUntilBreakpointFrom render (fuel + 1) elapsed session =
      (step render >>= fun quantum =>
        if session.stops quantum then pure (.breakpoint, elapsed + quantum.cycles)
        else runFrameUntilBreakpointFrom render fuel (elapsed + quantum.cycles)) session := by
  rw [runFrameUntilBreakpointFrom, if_pos within]
  have looked := look_then_step render session fun stop quantum =>
    if stop then pure (FrameEnd.breakpoint, elapsed + quantum.cycles)
    else runFrameUntilBreakpointFrom render fuel (elapsed + quantum.cycles)
  simpa only [decide_eq_true_eq] using looked

/-- Successful steps of one frame that do not stop it, with the cycles counted before and after. -/
inductive Quiet (render : Renderer σ) : Session σ → Nat → Session σ → Nat → Prop
  | nil (session : Session σ) (elapsed : Nat) : Quiet render session elapsed session elapsed
  | cons {session next last : Session σ} {elapsed spent : Nat} {quantum : Quantum} :
      elapsed < Machine.cyclesPerFrame → step render session = .ok quantum next →
      session.stops quantum = false → Quiet render next (elapsed + quantum.cycles) last spent →
      Quiet render session elapsed last spent

theorem four_le_cycles {session next : Session σ} {quantum : Quantum}
    (ran : step render session = .ok quantum next) : 4 ≤ quantum.cycles := by
  obtain ⟨_, stepped, _⟩ := step_ok ran
  exact Cpu.four_le_cycles stepped

theorem stop_of_quiet {session before last : Session σ} {elapsed spent fuel : Nat}
    {quantum : Quantum} (quiet : Quiet render session elapsed before spent)
    (within : spent < Machine.cyclesPerFrame) (ran : step render before = .ok quantum last)
    (stop : before.stops quantum = true) (enough : Machine.cyclesPerFrame ≤ elapsed + fuel) :
    runFrameUntilBreakpointFrom render fuel elapsed session =
      .ok (.breakpoint, spent + quantum.cycles) last := by
  induction quiet generalizing fuel with
  | nil session elapsed =>
      cases fuel with
      | zero => exact absurd within (Nat.not_lt.mpr enough)
      | succ fuel =>
          rw [untilFrom_of_lt within, bind_of_ok ran, if_pos stop]
          rfl
  | @cons session next last elapsed spent first early goes quiet rest ih =>
      cases fuel with
      | zero => exact absurd early (Nat.not_lt.mpr enough)
      | succ fuel =>
          have progress := four_le_cycles goes
          rw [untilFrom_of_lt early, bind_of_ok goes, quiet, if_neg Bool.false_ne_true]
          exact ih within ran stop (by omega)

theorem quiet_of_stop {session last : Session σ} {elapsed total fuel : Nat}
    (ran :
      runFrameUntilBreakpointFrom render fuel elapsed session = .ok (.breakpoint, total) last) :
    ∃ before spent quantum, Quiet render session elapsed before spent ∧
      spent < Machine.cyclesPerFrame ∧ step render before = .ok quantum last ∧
      before.stops quantum = true ∧ total = spent + quantum.cycles := by
  induction fuel generalizing session elapsed with
  | zero => cases ran
  | succ fuel ih =>
      by_cases within : elapsed < Machine.cyclesPerFrame
      · rw [untilFrom_of_lt within] at ran
        obtain ⟨quantum, next, goes, rest⟩ := bind_ok.mp ran
        cases stop : session.stops quantum with
        | true =>
            rw [if_pos stop] at rest
            cases rest
            exact ⟨session, elapsed, quantum, .nil _ _, within, goes, stop, rfl⟩
        | false =>
            rw [if_neg (by rw [stop]; exact Bool.false_ne_true)] at rest
            obtain ⟨before, spent, other, quiet, found⟩ := ih rest
            exact ⟨before, spent, other, .cons within goes stop quiet, found⟩
      · rw [runFrameUntilBreakpointFrom, if_neg within] at ran
        cases ran

theorem untilFrom_eq_runFrom {session : Session σ} {elapsed fuel : Nat}
    (never : ∀ total last,
      runFrameUntilBreakpointFrom render fuel elapsed session ≠ .ok (.breakpoint, total) last) :
    runFrameUntilBreakpointFrom render fuel elapsed session =
      (Prod.mk FrameEnd.completed <$> runFrameFrom render fuel elapsed) session := by
  induction fuel generalizing session elapsed with
  | zero => rfl
  | succ fuel ih =>
      by_cases within : elapsed < Machine.cyclesPerFrame
      · rw [untilFrom_of_lt within] at never ⊢
        rw [runFrameFrom, if_pos within, map_bind]
        cases ran : step render session with
        | ok quantum next =>
            rw [bind_of_ok ran] at never ⊢
            rw [bind_of_ok ran]
            cases stop : session.stops quantum with
            | true =>
                rw [if_pos stop] at never
                exact absurd rfl (never _ _)
            | false =>
                rw [stop, if_neg Bool.false_ne_true] at never
                rw [if_neg Bool.false_ne_true]
                exact ih never
        | error fault after => rw [bind_of_error ran, bind_of_error ran]
      · rw [runFrameUntilBreakpointFrom, runFrameFrom, if_neg within, if_neg within]
        rfl

/-- Looking ahead tells what the step executes exactly unless the step executes an instruction right
after ending HALT or STOP.  A frame stops right after the first step that executes `LD B,B` and did
not begin in one of these modes, and is an ordinary frame if there is none. -/
theorem breakpoint_seen_unless_waking (render : Renderer σ) (session : Session σ) :
    (∀ opcode, session.machine.bus.peek session.machine.cpu.regs.pc = .ok opcode →
      ∃ found, Machine.nextOpcode session.machine = .ok found session.machine ∧
        (∀ other, found = some other ↔
          session.machine.Executes other ∧ session.machine.isAwake = true) ∧
        (found = none ↔ session.machine.Idles ∨ session.machine.Diverts ∨ session.machine.Hangs ∨
          session.machine.Executes opcode ∧ session.machine.isAwake = false) ∧
        ((∀ other, found = some other ↔ session.machine.Executes other) ↔
          ¬(session.machine.Executes opcode ∧ session.machine.isAwake = false))) ∧
    (∀ total last, runFrameUntilBreakpoint render session = .ok (.breakpoint, total) last ↔
      ∃ before spent quantum, Quiet render session 0 before spent ∧
        spent < Machine.cyclesPerFrame ∧ step render before = .ok quantum last ∧
        before.stops quantum = true ∧ total = spent + quantum.cycles) ∧
    ((∀ total last, runFrameUntilBreakpoint render session ≠ .ok (.breakpoint, total) last) →
      runFrameUntilBreakpoint render session =
        (Prod.mk FrameEnd.completed <$> runFrame render) session) := by
  refine ⟨fun opcode fetched => ?_, fun total last => ⟨quiet_of_stop, ?_⟩, untilFrom_eq_runFrom⟩
  · obtain ⟨found, looks, agrees, absent⟩ := Machine.nextOpcode_agrees fetched
    refine ⟨found, looks, agrees, absent, ?_⟩
    constructor
    · rintro same ⟨executes, asleep⟩
      have awake := ((agrees opcode).mp ((same opcode).mpr executes)).2
      exact absurd (asleep.symm.trans awake) Bool.false_ne_true
    · intro settled other
      rw [agrees]
      refine ⟨And.left, fun executes => ⟨executes, ?_⟩⟩
      have byte := executes.2.1.symm.trans fetched
      cases byte
      exact eq_true_of_ne_false fun asleep => settled ⟨executes, asleep⟩
  · rintro ⟨before, spent, quantum, quiet, within, ran, stop, rfl⟩
    exact stop_of_quiet quiet within ran stop (Nat.le_add_left _ 0)

/-- A program that selects the buttons, stops and runs into two breakpoints, after it has stopped
and with a button pressed. -/
def wakingSession : Session Unit :=
  let stopped := (Machine.ofProgram [0xE0, 0x00, 0x10, 0x00, 0x40, 0x40]).afterSteps 2
  ⟨stopped.setButton .right true, ()⟩

/-- The breakpoint that is executed as the processor wakes goes unnoticed; the frame stops at the
second. -/
theorem breakpoint_missed_on_waking :
    wakingSession.machine.Reachable ∧
      value? Machine.nextOpcode wakingSession.machine = some none ∧
      value? Cpu.step wakingSession.machine = some (.execution 0x40 4 0) ∧
      value? (runFrameUntilBreakpoint Renderer.null) wakingSession = some (.breakpoint, 8) :=
  ⟨.setButton .right true (.afterSteps (.boot _ _ _) 2), by decide +kernel, by decide +kernel,
    by decide +kernel⟩

end Session
end GameBoy
