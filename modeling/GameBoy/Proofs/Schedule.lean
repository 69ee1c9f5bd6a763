import GameBoy.Proofs.Control

/-!
# One step

A step of the processor reads the two interrupt registers and then carries out one of three plans:
it waits, it serves an interrupt or it runs an instruction.  The main statements read a step back as
the plan it carried out, whether the step succeeds or fails.
-/

namespace GameBoy

/-- What the processor is about to do once it has read the interrupt registers. -/
inductive Plan where
  | wait
  | serve (line : Interrupt)
  | run
deriving DecidableEq

namespace Cpu

open Effect Exec

/-- The plan of a processor that no button line keeps waiting. -/
def plan (cpu : Cpu) (enable request : UInt8) : Plan :=
  match Interrupt.highestPriority enable request with
  | some line => if cpu.regs.ime then .serve line else .run
  | none => if cpu.regs.halted then .wait else .run

/-- The processor out of both waiting modes. -/
def rouse (cpu : Cpu) : Cpu :=
  { cpu with regs := { cpu.regs with halted := false, stopped := false } }

/-- The processor with its stack pointer moved. -/
def withStack (cpu : Cpu) (sp : UInt16) : Cpu :=
  { cpu with regs := { cpu.regs with sp } }

/-- The processor at the handler of `line`, with its return address on the stack. -/
def divert (line : Interrupt) (cpu : Cpu) : Cpu :=
  let cpu := (cpu.setIme false).withStack (cpu.regs.sp - 2)
  { cpu with regs := { cpu.regs with pc := line.vector } }

variable {β : Type} [Bus β]

/-! ## Waiting for a button -/

theorem staysStopped_apply_of_running {system : System β}
    (running : system.cpu.regs.stopped = false) : staysStopped system = .ok false system := by
  rw [staysStopped, bind_of_ok (registers_apply system), running]
  rfl

/-- The processor with its STOP mode set or ended. -/
def setStopped (cpu : Cpu) (stopped : Bool) : Cpu :=
  { cpu with regs := { cpu.regs with stopped } }

theorem setStopped_self {cpu : Cpu} {stopped : Bool} (same : cpu.regs.stopped = stopped) :
    cpu.setStopped stopped = cpu := by
  subst same
  rfl

/-- A processor that was stopped may go on, and then no longer is. -/
theorem staysStopped_ok {system after : System β} {stays : Bool}
    (ran : staysStopped system = .ok stays after) :
    after.cpu = system.cpu.setStopped stays ∧ (stays = true → system.cpu.regs.stopped = true) := by
  cases mode : system.cpu.regs.stopped with
  | false =>
      rw [staysStopped_apply_of_running mode] at ran
      cases ran
      exact ⟨(setStopped_self mode).symm, nofun⟩
  | true =>
      rw [staysStopped, bind_of_ok (registers_apply system), mode, if_pos rfl] at ran
      obtain ⟨lines, between, reads, rest⟩ := bind_ok.mp ran
      obtain ⟨_, same⟩ := access_ok.mp reads
      by_cases high : lines &&& 0x0F = 0x0F
      · rw [if_pos high] at rest
        cases rest
        exact ⟨same.trans (setStopped_self mode).symm, fun _ => rfl⟩
      · rw [if_neg high] at rest
        cases rest
        exact ⟨by rw [same]; rfl, nofun⟩

theorem staysStopped_error {system after : System β} {fault : Fault}
    (ran : staysStopped system = .error fault after) : after.cpu = system.cpu := by
  cases mode : system.cpu.regs.stopped with
  | false =>
      rw [staysStopped_apply_of_running mode] at ran
      cases ran
  | true =>
      rw [staysStopped, bind_of_ok (registers_apply system), mode, if_pos rfl] at ran
      rcases bind_error.mp ran with failed | ⟨lines, _, _, rest⟩
      · exact final_of_error failed ▸ cpu_final_access _ system
      · by_cases high : lines &&& 0x0F = 0x0F
        · rw [if_pos high] at rest
          cases rest
        · rw [if_neg high] at rest
          cases rest

/-! ## Serving an interrupt -/

theorem push_ok {word : UInt16} {system after : System β} (ran : push word system = .ok () after) :
    ∃ between,
      Bus.write (system.cpu.regs.sp - 1) (Word.high word) system.bus = .ok () between ∧
      Bus.write (system.cpu.regs.sp - 2) (Word.low word) between = .ok () after.bus ∧
      after.cpu = system.cpu.withStack (system.cpu.regs.sp - 2) := by
  have lowered : system.cpu.regs.sp - 1 - 1 = system.cpu.regs.sp - 2 := by grind
  rw [← lowered]
  rw [push, bind_of_ok (modifyRegisters_apply _ _), bind_of_ok (registers_apply _)] at ran
  obtain ⟨_, between, first, rest⟩ := bind_ok.mp ran
  obtain ⟨high, same⟩ := access_ok.mp first
  rw [bind_of_ok (modifyRegisters_apply _ _), bind_of_ok (registers_apply _), same] at rest
  obtain ⟨low, kept⟩ := access_ok.mp rest
  exact ⟨between.bus, high, low, kept⟩

/-- A dispatch writes the return address and the request register, and diverts the processor. -/
theorem dispatch_ok {line : Interrupt} {request : UInt8} {system after : System β}
    (ran : dispatch line request system = .ok () after) :
    ∃ first second third,
      Bus.write (system.cpu.regs.sp - 1) (Word.high system.cpu.regs.pc) system.bus = .ok () first ∧
      Bus.write (system.cpu.regs.sp - 2) (Word.low system.cpu.regs.pc) first = .ok () second ∧
      Bus.write Interrupt.requestAddress (request &&& ~~~line.mask) second = .ok () third ∧
      after = ⟨system.cpu.divert line,
        Bus.report (.interruptServiced line system.cpu.regs.pc) third⟩ := by
  rw [dispatch, bind_of_ok (modifyCpu_apply _ _), bind_of_ok (registers_apply _)] at ran
  obtain ⟨_, pushed, returns, rest⟩ := bind_ok.mp ran
  obtain ⟨_, cleared, clears, rest⟩ := bind_ok.mp rest
  obtain ⟨first, high, low, lowered⟩ := push_ok returns
  obtain ⟨written, same⟩ := access_ok.mp clears
  cases rest
  refine ⟨first, pushed.bus, cleared.bus, high, low, written, ?_⟩
  rw [same, lowered]
  rfl

theorem keeps_push (cpu : Cpu) (word : UInt16) :
    Keeps (fun later : System β => ∃ sp, later.cpu = cpu.withStack sp) (push word) := by
  have lowers : Keeps (fun later : System β => ∃ sp, later.cpu = cpu.withStack sp)
      (modifyRegisters fun regs => { regs with sp := regs.sp - 1 }) := by
    rintro later ⟨sp, same⟩
    refine ⟨sp - 1, ?_⟩
    rw [final_of_ok (modifyRegisters_apply _ _), same]
    rfl
  have stores (address : UInt16) (value : UInt8) :
      Keeps (fun later : System β => ∃ sp, later.cpu = cpu.withStack sp) (write address value) := by
    rintro later ⟨sp, same⟩
    exact ⟨sp, (cpu_final_access _ later).trans same⟩
  refine lowers.bind fun _ => keeps_registers.bind fun _ => (stores _ _).bind fun _ => ?_
  exact lowers.bind fun _ => keeps_registers.bind fun _ => stores _ _

/-- A dispatch that fails has cleared the master enable and may have moved the stack pointer. -/
theorem dispatch_error {line : Interrupt} {request : UInt8} {system after : System β}
    {fault : Fault} (ran : dispatch line request system = .error fault after) :
    ∃ sp, after.cpu = (system.cpu.setIme false).withStack sp := by
  rw [dispatch, bind_of_ok (modifyCpu_apply _ _), bind_of_ok (registers_apply _)] at ran
  have begun : ∃ sp, system.cpu.setIme false = (system.cpu.setIme false).withStack sp := ⟨_, rfl⟩
  rcases bind_error.mp ran with failed | ⟨_, pushed, returns, rest⟩
  · exact (keeps_push _ _).of_error begun failed
  obtain ⟨sp, lowered⟩ := (keeps_push _ _).of_ok begun returns
  rcases bind_error.mp rest with failed | ⟨_, _, _, rest⟩
  · refine ⟨sp, Eq.trans ?_ lowered⟩
    rw [← cpu_final_access _ pushed, ← final_of_error failed]
    rfl
  · cases rest

/-! ## Carrying out a plan -/

/-- End HALT. -/
def wake (cpu : Cpu) : Cpu :=
  { cpu with regs := { cpu.regs with halted := false } }

theorem wake_setStopped (cpu : Cpu) : (cpu.setStopped false).wake = cpu.rouse := rfl

theorem wake_of_running {cpu : Cpu} (running : cpu.regs.halted = false) : cpu.wake = cpu := by
  rw [wake, ← running]

theorem rouse_of_running {cpu : Cpu} (running : cpu.regs.halted = false)
    (going : cpu.regs.stopped = false) : cpu.rouse = cpu := by
  rw [← wake_setStopped, setStopped_self going, wake_of_running running]

/-- Carry out a plan, with `request` the request byte read before. -/
def carryOut (request : UInt8) : Plan → Exec β Quantum
  | .wait => pure .idle
  | .serve line =>
    modifyCpu wake >>= fun _ => dispatch line request >>= fun _ => pure (.interrupt line)
  | .run => modifyCpu wake >>= fun _ => execute

/-- What a step does once no button line keeps the processor waiting. -/
def proceed : Exec β Quantum :=
  serviceInterrupt >>= fun served =>
    match served with
    | some line => pure (.interrupt line)
    | none => registers >>= fun regs => if regs.halted then pure .idle else execute

theorem serviceInterrupt_eq_poll :
    (serviceInterrupt : Exec β (Option Interrupt)) = poll >>= fun polled =>
      match Interrupt.highestPriority polled.1 polled.2 with
      | none => pure none
      | some line => modifyCpu wake >>= fun _ => registers >>= fun regs =>
          if regs.ime then dispatch line polled.2 >>= fun _ => pure (some line) else pure none := by
  rw [serviceInterrupt, poll]
  simp only [bind_assoc, pure_bind]
  rfl

theorem proceed_eq_carryOut :
    (proceed : Exec β Quantum) = poll >>= fun polled => cpu >>= fun cpu =>
      carryOut polled.2 (cpu.plan polled.1 polled.2) := by
  rw [proceed, serviceInterrupt_eq_poll, bind_assoc]
  congr 1
  funext ⟨enable, request⟩ system
  rw [bind_of_ok (cpu_apply system), plan]
  cases pending : Interrupt.highestPriority enable request with
  | none =>
      cases waiting : system.cpu.regs.halted with
      | true => simp [bind_apply, waiting, carryOut]
      | false =>
          have awake : system.cpu.wake = system.cpu := wake_of_running waiting
          simp [bind_apply, waiting, carryOut, awake]
  | some line =>
      have same : system.cpu.wake.regs.ime = system.cpu.regs.ime := rfl
      simp only [bind_assoc]
      rw [bind_of_ok (modifyCpu_apply _ _), bind_of_ok (registers_apply _)]
      cases enabled : system.cpu.regs.ime with
      | true =>
          simp only [same, enabled, if_true, bind_assoc, pure_bind]
          rfl
      | false =>
          simp only [same, enabled, Bool.false_eq_true, if_false, pure_bind]
          rfl

theorem halted_of_plan {cpu : Cpu} {enable request : UInt8}
    (planned : cpu.plan enable request = .wait) : cpu.regs.halted = true := by
  rw [plan] at planned
  split at planned
  · split at planned <;> cases planned
  · split at planned
    · assumption
    · cases planned

theorem ime_of_plan {cpu : Cpu} {enable request : UInt8} {line : Interrupt}
    (planned : cpu.plan enable request = .serve line) :
    cpu.regs.ime = true ∧ Interrupt.highestPriority enable request = some line := by
  rw [plan] at planned
  split at planned
  · split at planned
    · cases planned
      exact ⟨by assumption, by assumption⟩
    · cases planned
  · split at planned <;> cases planned

theorem plan_of_disabled {cpu : Cpu} (disabled : cpu.regs.ime = false)
    (running : cpu.regs.halted = false) (enable request : UInt8) :
    cpu.plan enable request = .run := by
  rw [plan, disabled, running]
  cases Interrupt.highestPriority enable request <;> rfl

theorem carryOut_ok {enable request : UInt8} {polled after : System β} {quantum : Quantum}
    (ran : carryOut request (polled.cpu.plan enable request) polled = .ok quantum after) :
    (quantum = .idle ∧ polled.cpu.regs.halted = true ∧ after = polled) ∨
      (∃ line, quantum = .interrupt line ∧ polled.cpu.regs.ime = true ∧
        Interrupt.highestPriority enable request = some line ∧
        dispatch line request ⟨polled.cpu.wake, polled.bus⟩ = .ok () after) ∨
      execute ⟨polled.cpu.wake, polled.bus⟩ = .ok quantum after := by
  cases planned : polled.cpu.plan enable request with
  | wait =>
      rw [planned] at ran
      cases ran
      exact .inl ⟨rfl, halted_of_plan planned, rfl⟩
  | serve line =>
      rw [planned, carryOut, bind_of_ok (modifyCpu_apply _ _)] at ran
      obtain ⟨_, _, dispatched, done⟩ := bind_ok.mp ran
      cases done
      obtain ⟨enabled, pending⟩ := ime_of_plan planned
      exact .inr (.inl ⟨line, rfl, enabled, pending, dispatched⟩)
  | run =>
      rw [planned, carryOut, bind_of_ok (modifyCpu_apply _ _)] at ran
      exact .inr (.inr ran)

theorem carryOut_error {enable request : UInt8} {polled after : System β} {fault : Fault}
    (ran : carryOut request (polled.cpu.plan enable request) polled = .error fault after) :
    (polled.cpu.regs.ime = true ∧
        ∃ line, dispatch line request ⟨polled.cpu.wake, polled.bus⟩ = .error fault after) ∨
      execute ⟨polled.cpu.wake, polled.bus⟩ = .error fault after := by
  cases planned : polled.cpu.plan enable request with
  | wait =>
      rw [planned] at ran
      cases ran
  | serve line =>
      rw [planned, carryOut, bind_of_ok (modifyCpu_apply _ _)] at ran
      rcases bind_error.mp ran with failed | ⟨_, _, _, done⟩
      · exact .inl ⟨(ime_of_plan planned).1, line, failed⟩
      · cases done
  | run =>
      rw [planned, carryOut, bind_of_ok (modifyCpu_apply _ _)] at ran
      exact .inr ran

/-! ## The step -/

theorem step_eq_proceed :
    (step : Exec β Quantum) = requireUnlocked >>= fun _ => staysStopped >>= fun stays =>
      if stays then pure .idle else proceed := rfl

/-- A processor that hangs does not step. -/
theorem step_of_locked {system : System β} {error : DecodeError}
    (locked : system.cpu.locked = some error) : step system = .error (.decode error) system := by
  rw [step_eq_proceed, bind_of_error (requireUnlocked_of_locked locked)]

/-- A successful step waited for a button, or polled the interrupt registers and carried out its
plan. -/
theorem step_ok {system after : System β} {quantum : Quantum}
    (ran : step system = .ok quantum after) :
    system.cpu.locked = none ∧
      ((staysStopped system = .ok true after ∧ quantum = .idle) ∨
        ∃ woken enable request polled, staysStopped system = .ok false woken ∧
          poll woken = .ok (enable, request) polled ∧
          carryOut request (polled.cpu.plan enable request) polled = .ok quantum after) := by
  rw [step_eq_proceed] at ran
  obtain ⟨_, _, unlocked, rest⟩ := bind_ok.mp ran
  obtain ⟨rfl, free⟩ := requireUnlocked_ok unlocked
  refine ⟨free, ?_⟩
  obtain ⟨stays, woken, waits, rest⟩ := bind_ok.mp rest
  cases stays with
  | true =>
      cases rest
      exact .inl ⟨waits, rfl⟩
  | false =>
      rw [if_neg Bool.false_ne_true, proceed_eq_carryOut] at rest
      obtain ⟨⟨enable, request⟩, polled, reads, rest⟩ := bind_ok.mp rest
      rw [bind_of_ok (cpu_apply _)] at rest
      exact .inr ⟨woken, enable, request, polled, waits, reads, rest⟩

/-- What a successful step did to the processor. -/
theorem step_cases {system after : System β} {quantum : Quantum}
    (ran : step system = .ok quantum after) :
    (quantum = .idle ∧ (system.cpu.regs.stopped = true ∨ system.cpu.regs.halted = true) ∧
        ∃ stopped, after.cpu = system.cpu.setStopped stopped) ∨
      (∃ line, quantum = .interrupt line ∧ system.cpu.regs.ime = true ∧
        after.cpu = system.cpu.rouse.divert line) ∨
      ∃ bus, execute ⟨system.cpu.rouse, bus⟩ = .ok quantum after := by
  obtain ⟨_, ⟨waits, rfl⟩ | ⟨woken, enable, request, polled, waits, reads, carried⟩⟩ := step_ok ran
  · obtain ⟨same, mode⟩ := staysStopped_ok waits
    exact .inl ⟨rfl, .inl (mode rfl), true, same⟩
  have same : polled.cpu = system.cpu.setStopped false := by
    rw [← (staysStopped_ok waits).1, ← cpu_final_poll woken, final_of_ok reads]
  rcases carryOut_ok carried with ⟨rfl, waiting, rfl⟩ | ⟨line, rfl, enabled, _, dispatched⟩ | ran
  · rw [same] at waiting
    exact .inl ⟨rfl, .inr waiting, false, same⟩
  · rw [same] at enabled dispatched
    obtain ⟨_, _, _, _, _, _, rfl⟩ := dispatch_ok dispatched
    exact .inr (.inl ⟨line, rfl, enabled, rfl⟩)
  · rw [same] at ran
    exact .inr (.inr ⟨polled.bus, ran⟩)

theorem four_le_cycles {system after : System β} {quantum : Quantum}
    (ran : step system = .ok quantum after) : 4 ≤ quantum.cycles := by
  rcases step_cases ran with ⟨rfl, _⟩ | ⟨line, rfl, _⟩ | ⟨_, executed⟩
  · exact Nat.le_refl 4
  · exact Nat.le_add_left 4 16
  · obtain ⟨_, slot, immediate, fetched, _, acts⟩ := execute_ok executed
    obtain ⟨_, _, _, rfl⟩ := conclude_ok acts
    exact Nat.le_trans (Instruction.four_le_cost _ _) (Nat.le_add_right _ _)

/-- What a failed step did to the processor. -/
theorem step_error {system after : System β} {fault : Fault}
    (ran : step system = .error fault after) :
    (∃ stopped, (stopped = true → system.cpu.regs.stopped = true) ∧
        after.cpu = system.cpu.setStopped stopped) ∨
      (system.cpu.regs.ime = true ∧
        ∃ sp, after.cpu = (system.cpu.rouse.setIme false).withStack sp) ∨
      ∃ bus, execute ⟨system.cpu.rouse, bus⟩ = .error fault after := by
  rw [step_eq_proceed] at ran
  have unchanged {later : System β} (same : later.cpu = system.cpu) :
      ∃ stopped, (stopped = true → system.cpu.regs.stopped = true) ∧
        later.cpu = system.cpu.setStopped stopped :=
    ⟨_, id, same.trans (setStopped_self rfl).symm⟩
  rcases bind_error.mp ran with hung | ⟨_, _, unlocked, rest⟩
  · exact .inl (unchanged (congrArg System.cpu (requireUnlocked_error hung)))
  rw [(requireUnlocked_ok unlocked).1] at rest
  rcases bind_error.mp rest with failed | ⟨stays, woken, waits, rest⟩
  · exact .inl (unchanged (staysStopped_error failed))
  cases stays with
  | true => cases rest
  | false =>
      obtain ⟨same, _⟩ := staysStopped_ok waits
      rw [if_neg Bool.false_ne_true, proceed_eq_carryOut] at rest
      rcases bind_error.mp rest with failed | ⟨⟨enable, request⟩, polled, reads, rest⟩
      · refine .inl ⟨false, nofun, ?_⟩
        rw [← same, ← cpu_final_poll woken, final_of_error failed]
      have same : polled.cpu = system.cpu.setStopped false := by
        rw [← same, ← cpu_final_poll woken, final_of_ok reads]
      rw [bind_of_ok (cpu_apply _)] at rest
      rcases carryOut_error rest with ⟨enabled, _, failed⟩ | failed
      · rw [same] at enabled failed
        exact .inr (.inl ⟨enabled, dispatch_error failed⟩)
      · rw [same] at failed
        exact .inr (.inr ⟨polled.bus, failed⟩)

/-- With interrupts disabled and nothing to wait for, a step polls the interrupt registers and
executes an instruction. -/
theorem step_of_disabled {system : System β} (unlocked : system.cpu.locked = none)
    (running : system.cpu.rouse = system.cpu) (disabled : system.cpu.regs.ime = false) :
    step system = (poll >>= fun _ => execute) system := by
  have halted : system.cpu.regs.halted = false := by
    rw [← running]
    rfl
  have stopped : system.cpu.regs.stopped = false := by
    rw [← running]
    rfl
  rw [step_eq_proceed, bind_of_ok (requireUnlocked_of_unlocked unlocked),
    bind_of_ok (staysStopped_apply_of_running stopped), if_neg Bool.false_ne_true,
    proceed_eq_carryOut, bind_apply, bind_apply]
  cases reads : poll system with
  | error fault after => rfl
  | ok polled after =>
      have same : after.cpu = system.cpu := final_of_ok reads ▸ cpu_final_poll system
      have awake : after.cpu.wake = after.cpu := wake_of_running (same ▸ halted)
      change (cpu >>= _) after = execute after
      rw [bind_of_ok (cpu_apply _), plan_of_disabled (same ▸ disabled) (same ▸ halted), carryOut,
        bind_of_ok (modifyCpu_apply _ _), awake]

end Cpu
end GameBoy
