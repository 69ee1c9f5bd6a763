import GameBoy.Proofs.Run

/-!
# The halt bug

A HALT that finds an interrupt pending while interrupts are disabled makes the processor read the
next byte twice.  If that HALT completes the delay of an EI, the interrupt is taken before the next
byte is read, and the byte read twice is the first one of the handler.  The main statement says that
a handler is misread in this way exactly then.
-/

namespace GameBoy

/-- Only a HALT that does not wait leaves the halt bug behind. -/
theorem Instruction.halt_of_steer {instruction : Instruction} {waits : Bool} {control : Control}
    (clear : control.haltBug = false)
    (armed : (instruction.steer waits control).haltBug = true) :
    instruction = .halt ∧ waits = false := by
  cases instruction with
  | halt =>
      cases waits with
      | true => exact absurd (clear.symm.trans armed) Bool.false_ne_true
      | false => exact ⟨rfl, rfl⟩
  | _ => exact absurd (clear.symm.trans armed) Bool.false_ne_true

namespace Cpu

open Effect Exec

variable {β : Type} {cpu next : Cpu}

/-- The halt bug has been there since the steps, and PC at the place. -/
def Lingers (place : UInt16) (since : List (System β)) (cpu : Cpu) : Prop :=
  ∀ later ∈ since.map System.cpu ++ [cpu], later.haltBug = true ∧ later.regs.pc = place

theorem Lingers.step {place : UInt16} {since : List (System β)} (lingers : Lingers place since cpu)
    (bus : β) (armed : next.haltBug = true) (still : next.regs.pc = cpu.regs.pc) :
    Lingers place (since ++ [⟨cpu, bus⟩]) next := by
  intro later member
  rw [List.map_append, List.mem_append] at member
  rcases member with before | now
  · exact lingers later before
  · obtain rfl := List.mem_singleton.mp now
    exact ⟨armed, still.trans (lingers cpu (List.mem_append_right _ (.head _))).2⟩

variable [Bus β]

/-- The systems that the steps from power-on have found, oldest first, and the processor after
them. -/
inductive History : List (System β) → Cpu → Prop
  | boot (state : BootState) : History [] (Cpu.boot state)
  | step {past : List (System β)} {cpu : Cpu} (bus : β) :
      History past cpu → History (past ++ [⟨cpu, bus⟩]) (final Cpu.step ⟨cpu, bus⟩).cpu

theorem Reachable.exists_history (reach : Reachable β cpu) :
    ∃ past : List (System β), History past cpu := by
  induction reach with
  | boot state => exact ⟨[], .boot state⟩
  | step bus _ ih =>
      obtain ⟨past, history⟩ := ih
      exact ⟨_, history.step bus⟩

/-- The step executes a HALT that does not wait. -/
def FallsThrough (found : System β) : Prop :=
  ∃ slot cost stall after, step found = .ok (.execution slot cost stall) after ∧
    Instruction.ofSlot slot = .halt ∧ after.cpu.haltBug = true

/-- The last step that has not failed was a HALT that did not wait and that completed the delay of
an EI. -/
def EnabledAtHalt (past : List (System β)) (cpu : Cpu) : Prop :=
  ∃ front found failed, past = front ++ found :: failed ∧ FallsThrough found ∧
    found.cpu.eiDelay = true ∧ (final step found).cpu = cpu ∧
    ∀ later ∈ failed, later.cpu = cpu ∧ ∃ fault after, step later = .error fault after

/-- The processor is about to read the byte that follows a HALT. -/
def FollowsHalt (past : List (System β)) (cpu : Cpu) : Prop :=
  ∃ front found since, past = front ++ found :: since ∧ FallsThrough found ∧
    Lingers (final step found).cpu.regs.pc since cpu

/-- The processor is about to read the first byte of a handler that it was diverted to right after a
HALT that completed the delay of an EI. -/
def EntersHandler (past : List (System β)) (cpu : Cpu) : Prop :=
  ∃ front halted since line after, past = front ++ halted :: since ∧
    EnabledAtHalt front halted.cpu ∧ step halted = .ok (.interrupt line) after ∧
    Lingers line.vector since cpu

/-- Where the halt bug comes from. -/
structure Traced (past : List (System β)) (cpu : Cpu) : Prop where
  enabled : cpu.haltBug = true → cpu.regs.ime = true → EnabledAtHalt past cpu
  origin : cpu.haltBug = true → FollowsHalt past cpu ∨ EntersHandler past cpu

variable {past : List (System β)}

theorem Traced.of_clear (clear : cpu.haltBug = false) : Traced past cpu where
  enabled armed := absurd (clear.symm.trans armed) Bool.false_ne_true
  origin armed := absurd (clear.symm.trans armed) Bool.false_ne_true

/-- As long as it stays where it is, the halt bug comes from where it came from. -/
theorem Traced.origin_step (traced : Traced past cpu) (bus : β) (kept : next.haltBug = cpu.haltBug)
    (still : next.regs.pc = cpu.regs.pc) (armed : next.haltBug = true) :
    FollowsHalt (past ++ [⟨cpu, bus⟩]) next ∨ EntersHandler (past ++ [⟨cpu, bus⟩]) next := by
  rcases traced.origin (kept.symm.trans armed) with
    ⟨front, found, since, rfl, falls, lingers⟩ |
    ⟨front, halted, since, line, after, rfl, enabled, ran, lingers⟩
  · exact .inl ⟨front, found, since ++ [⟨cpu, bus⟩], List.append_assoc .., falls,
      lingers.step bus armed still⟩
  · exact .inr ⟨front, halted, since ++ [⟨cpu, bus⟩], line, after, List.append_assoc .., enabled,
      ran, lingers.step bus armed still⟩

/-! ## Executing a HALT -/

theorem haltBug_of_execute {system after : System β} {quantum : Quantum}
    (ran : execute system = .ok quantum after) (armed : after.cpu.haltBug = true) :
    ∃ slot cost stall, quantum = .execution slot cost stall ∧ Instruction.ofSlot slot = .halt ∧
      after.cpu.regs.ime = system.cpu.eiDelay ∧
      after.cpu.regs.halted = system.cpu.regs.halted ∧
      after.cpu.regs.stopped = system.cpu.regs.stopped := by
  obtain ⟨slot, cost, stall, waits, rfl, enabled, steered⟩ := control_execute ran
  obtain ⟨ime, pending, delay, settled⟩ :=
    ((Instruction.ofSlot slot).steer waits { system.cpu.control with haltBug := false }).settle_eq
  have left := steered.trans settled
  obtain ⟨halts, rfl⟩ : Instruction.ofSlot slot = .halt ∧ waits = false :=
    Instruction.halt_of_steer rfl ((congrArg Control.haltBug left).symm.trans armed)
  have disabled : system.cpu.regs.ime = false := enabled halts rfl
  rw [halts] at steered left
  refine ⟨slot, cost, stall, rfl, halts, ?_, congrArg Control.halted left,
    congrArg Control.stopped left⟩
  have ime := congrArg Control.ime steered
  rw [Control.ime_settle] at ime
  change after.cpu.regs.ime = (system.cpu.regs.ime || system.cpu.eiDelay) at ime
  rwa [disabled, Bool.false_or] at ime

/-- After a HALT that does not wait the processor runs on, with interrupts enabled exactly if the
HALT completed the delay of an EI. -/
theorem FallsThrough.state {found : System β} (falls : FallsThrough found) :
    let left := (final step found).cpu
    left.haltBug = true ∧ left.regs.ime = found.cpu.eiDelay ∧ left.regs.halted = false ∧
      left.regs.stopped = false := by
  obtain ⟨slot, cost, stall, after, ran, halts, armed⟩ := falls
  rw [final_of_ok ran]
  rcases step_cases ran with ⟨idle, _⟩ | ⟨_, same, _⟩ | ⟨_, executed⟩
  · cases idle
  · cases same
  · obtain ⟨_, _, _, _, _, enabled, running, going⟩ := haltBug_of_execute executed armed
    exact ⟨armed, enabled, running, going⟩

theorem EnabledAtHalt.state (halted : EnabledAtHalt past cpu) :
    cpu.haltBug = true ∧ cpu.regs.halted = false ∧ cpu.regs.stopped = false := by
  obtain ⟨_, found, _, _, falls, _, rfl, _⟩ := halted
  obtain ⟨armed, _, running, going⟩ := falls.state
  exact ⟨armed, running, going⟩

/-! ## Where the halt bug comes from -/

/-- A step that fails and leaves the processor as it was is as if it had not been. -/
theorem EnabledAtHalt.of_error (halted : EnabledAtHalt past cpu) {bus : β} {fault : Fault}
    {after : System β} (failed : step ⟨cpu, bus⟩ = .error fault after) :
    EnabledAtHalt (past ++ [⟨cpu, bus⟩]) cpu := by
  obtain ⟨front, found, steps, rfl, falls, delayed, left, same⟩ := halted
  refine ⟨front, found, steps ++ [⟨cpu, bus⟩], List.append_assoc .., falls, delayed, left, ?_⟩
  intro later member
  rcases List.mem_append.mp member with before | now
  · exact same later before
  · obtain rfl := List.mem_singleton.mp now
    exact ⟨rfl, fault, after, failed⟩

/-- A step that fails keeps track if it leaves alone a processor that is not waiting. -/
theorem Traced.of_error (traced : Traced past cpu) {bus : β} {fault : Fault} {after : System β}
    (failed : step ⟨cpu, bus⟩ = .error fault after) (kept : next.haltBug = cpu.haltBug)
    (enable : next.regs.ime = cpu.regs.ime) (still : next.regs.pc = cpu.regs.pc)
    (same : cpu.regs.halted = false → cpu.regs.stopped = false → next = cpu) :
    Traced (past ++ [⟨cpu, bus⟩]) next where
  enabled armed enabled := by
    have halted := traced.enabled (kept.symm.trans armed) (enable.symm.trans enabled)
    rw [same halted.state.2.1 halted.state.2.2]
    exact halted.of_error failed
  origin := traced.origin_step bus kept still

/-- Every step keeps track of where the halt bug comes from. -/
theorem Traced.step (traced : Traced past cpu) (bus : β) :
    Traced (past ++ [⟨cpu, bus⟩]) (final Cpu.step ⟨cpu, bus⟩).cpu := by
  cases ran : Cpu.step ⟨cpu, bus⟩ with
  | ok quantum after =>
      rw [final_of_ok ran]
      rcases step_cases ran with ⟨rfl, mode, _, same⟩ | ⟨line, rfl, enabled, same⟩ | ⟨_, executed⟩
      · -- a HALT that did not wait is never followed by a waiting step
        rw [same]
        refine ⟨fun armed enabled => ?_, traced.origin_step bus rfl rfl⟩
        obtain ⟨_, running, going⟩ := (traced.enabled armed enabled).state
        exact absurd mode (by rw [going, running]; simp)
      · refine ⟨fun _ on => ?_, fun armed => .inr ?_⟩
        · rw [same] at on
          cases on
        · have halted := traced.enabled (by rw [same] at armed; exact armed) enabled
          refine ⟨past, ⟨cpu, bus⟩, [], line, after, rfl, halted, ran, fun later member => ?_⟩
          obtain rfl := List.mem_singleton.mp member
          exact ⟨armed, by rw [same]; rfl⟩
      · cases armed : after.cpu.haltBug with
        | false => exact .of_clear armed
        | true =>
            obtain ⟨slot, cost, stall, rfl, halts, enabled, _⟩ := haltBug_of_execute executed armed
            have falls : FallsThrough (⟨cpu, bus⟩ : System β) :=
              ⟨slot, cost, stall, after, ran, halts, armed⟩
            have left : (final Cpu.step ⟨cpu, bus⟩).cpu = after.cpu := by rw [final_of_ok ran]
            refine ⟨fun _ on => ⟨past, ⟨cpu, bus⟩, [], rfl, falls, enabled.symm.trans on, left,
              List.forall_mem_nil _⟩, fun _ => .inl ⟨past, ⟨cpu, bus⟩, [], rfl, falls, ?_⟩⟩
            intro later member
            obtain rfl := List.mem_singleton.mp member
            exact ⟨armed, by rw [left]⟩
  | error fault after =>
      rw [final_of_error ran]
      rcases step_error ran with ⟨stopped, mode, same⟩ | ⟨_, sp, same⟩ | ⟨_, failed⟩
      · rw [same]
        refine traced.of_error ran rfl rfl rfl fun _ going => setStopped_self ?_
        rw [going]
        cases stopped with
        | false => rfl
        | true => exact absurd (mode rfl) (by rw [going]; simp)
      · -- a dispatch that failed has cleared the master enable and left PC alone
        rw [same]
        exact ⟨nofun, traced.origin_step bus rfl rfl⟩
      · rcases control_execute_of_error failed with same | ⟨locked, used⟩
        · rw [same]
          exact traced.of_error ran rfl rfl rfl fun running going =>
            rouse_of_running running going
        · exact .of_clear (congrArg Control.haltBug used)

theorem traced_of_history (history : History past cpu) : Traced past cpu := by
  induction history with
  | boot state => exact .of_clear (by cases state <;> rfl)
  | step bus _ ih => exact ih.step bus

/-! ## Reading an instruction -/

/-- After polling, a step reads every byte of an instruction once, from consecutive addresses, and
lets it act with PC past it. -/
def ReadsOnce (system : System β) (quantum : Quantum) (later : System β) : Prop :=
  ∃ polled started fetched slot immediate, poll system = .ok polled ⟨system.cpu, started⟩ ∧
    Bus.readRun system.cpu.regs.pc (Instruction.encoding slot immediate).length started =
      .ok (Instruction.encoding slot immediate) fetched ∧
    conclude slot system.cpu.regs.pc immediate
      ⟨system.cpu.skip (Instruction.encoding slot immediate).length, fetched⟩ = .ok quantum later

/-- After polling, a step reads the first byte of an instruction, goes on reading at the same
address, and lets the instruction act with PC one short of it. -/
def RepeatsFirst (system : System β) (quantum : Quantum) (later : System β) : Prop :=
  ∃ polled started second fetched slot immediate first rest,
    poll system = .ok polled ⟨system.cpu, started⟩ ∧
    Instruction.encoding slot immediate = first :: rest ∧
    Bus.read system.cpu.regs.pc started = .ok first second ∧
    Bus.readRun system.cpu.regs.pc rest.length second = .ok rest fetched ∧
    conclude slot system.cpu.regs.pc immediate
      ⟨{ system.cpu with haltBug := false }.skip rest.length, fetched⟩ = .ok quantum later

/-- A step with interrupts disabled reads an instruction once, or its first byte twice if the halt
bug is there. -/
theorem reads_of_disabled {system later : System β} {quantum : Quantum}
    (running : system.cpu.rouse = system.cpu) (disabled : system.cpu.regs.ime = false)
    (ran : step system = .ok quantum later) :
    (system.cpu.haltBug = false → ReadsOnce system quantum later) ∧
      (system.cpu.haltBug = true → RepeatsFirst system quantum later) := by
  rw [step_of_disabled (step_ok ran).1 running disabled] at ran
  obtain ⟨polled, ⟨cpu, started⟩, reads, executed⟩ := bind_ok.mp ran
  have same : cpu = system.cpu := by
    rw [← cpu_final_poll system, final_of_ok reads]
  subst same
  obtain ⟨_, slot, immediate, ⟨fetchedCpu, fetched⟩, stream, acts⟩ := execute_ok executed
  constructor
  · intro clear
    obtain ⟨consecutive, moved⟩ := readRun_of_fetchRun (by exact clear) stream
    exact ⟨polled, started, fetched, slot, immediate, reads, consecutive, moved ▸ acts⟩
  · intro armed
    obtain ⟨first, rest, split⟩ :=
      List.exists_cons_of_length_pos (Instruction.encoding_length_pos slot immediate)
    rw [split, List.length_cons] at stream
    obtain ⟨_, _, second, same, begun, consecutive, moved⟩ := readRun_of_fetchRun_succ stream
    cases same
    rw [advance, if_pos armed] at moved consecutive
    exact ⟨polled, started, second, fetched, slot, immediate, first, rest, reads, split, begun,
      consecutive, moved ▸ acts⟩

/-- Every processor that can be reached has a history of steps from power-on.  By it the halt bug
stays with the byte that follows a HALT, except that an interrupt takes it to the handler if the
HALT completed the delay of an EI: only then is the first byte there read twice. -/
theorem haltBug_after_interrupt (reach : Reachable β cpu) :
    (∃ past : List (System β), History past cpu) ∧
    ∀ past : List (System β), History past cpu →
      (cpu.haltBug = true → FollowsHalt past cpu ∨ EntersHandler past cpu) ∧
      ∀ (bus : β) (line : Interrupt) (after : System β),
        step ⟨cpu, bus⟩ = .ok (.interrupt line) after →
          (after.cpu.haltBug = true ↔ EnabledAtHalt past cpu) ∧
          after.cpu.regs.pc = line.vector ∧
          ∀ (next : β) (quantum : Quantum) (later : System β),
            step ⟨after.cpu, next⟩ = .ok quantum later →
              (¬EnabledAtHalt past cpu → ReadsOnce ⟨after.cpu, next⟩ quantum later) ∧
              (EnabledAtHalt past cpu → RepeatsFirst ⟨after.cpu, next⟩ quantum later) := by
  refine ⟨reach.exists_history, fun past history => ?_⟩
  have traced := traced_of_history history
  refine ⟨traced.origin, fun bus line after ran => ?_⟩
  obtain ⟨enabled, same⟩ : cpu.regs.ime = true ∧ after.cpu = cpu.rouse.divert line := by
    rcases step_cases ran with ⟨idle, _⟩ | ⟨_, ⟨⟩, enabled, same⟩ | ⟨_, executed⟩
    · cases idle
    · exact ⟨enabled, same⟩
    · obtain ⟨_, _, _, _, execution, _⟩ := control_execute executed
      cases execution
  have bug : after.cpu.haltBug = true ↔ EnabledAtHalt past cpu := by
    rw [same]
    exact ⟨fun armed => traced.enabled armed enabled, fun halted => halted.state.1⟩
  refine ⟨bug, by rw [same]; rfl, fun next quantum later ran => ?_⟩
  obtain ⟨once, twice⟩ := reads_of_disabled (by rw [same]; rfl) (by rw [same]; rfl) ran
  exact ⟨fun other => once (Bool.eq_false_iff.mpr fun armed => other (bug.mp armed)),
    fun halted => twice (bug.mpr halted)⟩

/-- EI and HALT at the entry point, an interrupt enabled and requested, and INC A elsewhere. -/
def enablingHalt : ByteMap where
  byte address :=
    if address = 0x0100 then 0xFB
    else if address = 0x0101 then 0x76
    else if address = Interrupt.enableAddress || address = Interrupt.requestAddress then 0x01
    else 0x3C

/-- The processor after a number of steps of that program. -/
def enablingHaltCpu : Nat → Cpu
  | 0 => Cpu.boot .postBoot
  | count + 1 => (final step ⟨enablingHaltCpu count, enablingHalt⟩).cpu

/-- The systems that these steps have found. -/
def enablingHaltPast (count : Nat) : List (System ByteMap) :=
  (List.range count).map fun step => ⟨enablingHaltCpu step, enablingHalt⟩

theorem reachable_enablingHaltCpu (count : Nat) : Reachable ByteMap (enablingHaltCpu count) := by
  induction count with
  | zero => exact .boot .postBoot
  | succ count ih => exact .step enablingHalt ih

theorem history_enablingHalt (count : Nat) :
    History (enablingHaltPast count) (enablingHaltCpu count) := by
  induction count with
  | zero => exact .boot .postBoot
  | succ count ih =>
      rw [enablingHaltPast, List.range_succ, List.map_append]
      exact ih.step enablingHalt

/-- The HALT of that program completes the delay of the EI before it. -/
theorem haltBug_after_interrupt_enablingHalt :
    EnabledAtHalt (enablingHaltPast 2) (enablingHaltCpu 2) :=
  (((haltBug_after_interrupt (reachable_enablingHaltCpu 2)).2 _ (history_enablingHalt 2)).2
    enablingHalt .vblank _ (ok_of_value? (by decide +kernel))).1.mp (by decide +kernel)

/-- The first instruction of its handler is executed without PC moving past it. -/
theorem haltBug_reaches_handler :
    ∃ after later, Reachable ByteMap (enablingHaltCpu 2) ∧
      step ⟨enablingHaltCpu 2, enablingHalt⟩ = .ok (.interrupt .vblank) after ∧
      after.cpu.haltBug = true ∧ after.cpu.regs.pc = 0x40 ∧
      step after = .ok (.execution 0x3C 4 0) later ∧ later.cpu.regs.pc = 0x40 :=
  ⟨_, _, reachable_enablingHaltCpu 2, ok_of_value? (by decide +kernel), by decide +kernel,
    by decide +kernel, ok_of_value? (by decide +kernel), by decide +kernel⟩

end Cpu
end GameBoy
