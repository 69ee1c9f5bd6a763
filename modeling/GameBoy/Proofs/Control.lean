import GameBoy.Proofs.Law

/-!
# Control state

The control state is what decides how the processor proceeds: the mode flags and the latches.  Bus
accesses leave it alone, and so do all but seven instructions.  The main statement says what an
executed instruction does to it.
-/

namespace GameBoy

/-- An EI under way comes one instruction closer to its effect. -/
def Control.settle (control : Control) : Control :=
  if control.eiDelay then { control with ime := true, eiDelay := false }
  else if control.eiPending then { control with eiPending := false, eiDelay := true }
  else control

/-- Settling an EI changes the master enable and its latches only. -/
theorem Control.settle_eq (control : Control) :
    ∃ ime eiPending eiDelay, control.settle = { control with ime, eiPending, eiDelay } := by
  rw [settle]
  split
  · exact ⟨_, _, _, rfl⟩
  · split
    · exact ⟨_, _, _, rfl⟩
    · exact ⟨_, _, _, rfl⟩

theorem Control.ime_settle (control : Control) :
    control.settle.ime = (control.ime || control.eiDelay) := by
  rw [settle]
  split
  · next delayed => simp [delayed]
  · next running => split <;> simp [running]

theorem Control.locked_settle (control : Control) : control.settle.locked = control.locked := by
  obtain ⟨_, _, _, settled⟩ := control.settle_eq
  rw [settled]

@[simp]
theorem Cpu.control_settleEI (cpu : Cpu) : cpu.settleEI.control = cpu.control.settle := by
  rw [Cpu.settleEI, Control.settle]
  cases delayed : cpu.eiDelay with
  | true => simp [control, delayed]
  | false => cases pending : cpu.eiPending <;> simp [control, delayed, pending]

@[simp]
theorem Cpu.control_advance (cpu : Cpu) :
    cpu.advance.control = { cpu.control with haltBug := false } := by
  rw [Cpu.advance]
  cases armed : cpu.haltBug <;> simp [control, armed]

/-- What an instruction does to the control state; `waits` says whether a HALT found nothing to go
on for. -/
def Instruction.steer (instruction : Instruction) (waits : Bool) (control : Control) : Control :=
  match instruction with
  | .stop => { control with stopped := true }
  | .halt => if waits then { control with halted := true } else { control with haltBug := true }
  | .di => { control with ime := false, eiPending := false, eiDelay := false }
  | .ei => { control with eiPending := true }
  | .reti => { control with ime := true, eiPending := false, eiDelay := false }
  | _ => control

theorem Instruction.locked_steer (instruction : Instruction) (waits : Bool) (control : Control) :
    (instruction.steer waits control).locked = control.locked := by
  cases instruction with
  | halt => cases waits <;> rfl
  | _ => rfl

namespace Exec

open Effect

variable {α β : Type} [Bus β] {property : System β → Prop}

/-- Bus accesses keep the property, and so do changes of registers outside the control state. -/
structure Steady (property : System β → Prop) : Prop where
  read : ∀ address, Keeps property (read address)
  write : ∀ address value, Keeps property (write address value)
  takeStall : Keeps property takeStall
  report : ∀ event, Keeps property (report event)
  modify : ∀ change : Registers → Registers,
    (∀ cpu : Cpu, Cpu.control { cpu with regs := change cpu.regs } = cpu.control) →
      Keeps property (modifyRegisters change)

namespace Steady

variable (steady : Steady property)

include steady

/-- Keeping a steady property is a law. -/
theorem law : Law fun _ _ (action : Exec β _) (_ : Exec β _) => Keeps property action where
  pure := .pure
  bind := .bind
  mono _ keeps := keeps
  registers := keeps_registers
  read := steady.read
  write := steady.write
  modify change control _ := steady.modify change control

theorem ret : Keeps property ret :=
  steady.law.ret steady.modify

/-- An instruction that is not there for the control state keeps every steady property. -/
theorem perform {instruction : Instruction} (ordinary : instruction.isControl = false)
    (slot start immediate : UInt16) (taken : Bool) :
    Keeps property (perform instruction slot start immediate taken) := by
  refine steady.law.perform ?_ (fun _ => steady.modify) (fun control => ?_) slot start immediate
    taken
  · cases instruction <;> first | rfl | cases ordinary
  · exact absurd (ordinary.symm.trans control) Bool.false_ne_true

end Steady

theorem steady_control (control : Control) :
    Steady fun system : System β => system.cpu.control = control where
  read _ system holds := (congrArg Cpu.control (cpu_final_access _ system)).trans holds
  write _ _ system holds := (congrArg Cpu.control (cpu_final_access _ system)).trans holds
  takeStall _ holds := holds
  report _ _ holds := holds
  modify _ same system holds := (same system.cpu).trans holds

/-! ## The control instructions -/

/-- Read the enable and the request register. -/
def poll : Exec β (UInt8 × UInt8) := do
  let enable ← read Interrupt.enableAddress
  let request ← read Interrupt.requestAddress
  pure (enable, request)

theorem Law.poll {γ : Type} [Bus γ] {holds : (α : Type) → Nat → Exec β α → Exec γ α → Prop}
    (law : Law holds) : holds _ 0 poll poll :=
  law.after (law.read _) fun _ => law.after (law.read _) fun _ => law.pure _

theorem cpu_final_poll (system : System β) : (final poll system).cpu = system.cpu := by
  have kept : Keeps (fun later => later.cpu = system.cpu) (poll : Exec β _) := by
    refine Keeps.bind (fun later same => (cpu_final_access _ later).trans same) fun _ => ?_
    exact Keeps.bind (fun later same => (cpu_final_access _ later).trans same) fun _ => .pure _
  exact kept system rfl

theorem halt_eq_poll :
    (halt : Exec β Unit) = poll >>= fun registers => modifyCpu fun cpu =>
      if !cpu.regs.ime && (Interrupt.highestPriority registers.1 registers.2).isSome then
        { cpu with haltBug := true }
      else
        { cpu with regs := { cpu.regs with halted := true } } := by
  simp only [halt, poll, bind_assoc, pure_bind]

theorem control_halt {system after : System β} (ran : halt system = .ok () after) :
    ∃ waits, (waits = false → system.cpu.regs.ime = false) ∧
      after.cpu.control = Instruction.halt.steer waits system.cpu.control := by
  rw [halt_eq_poll] at ran
  obtain ⟨⟨enable, request⟩, polled, reads, rest⟩ := bind_ok.mp ran
  have same : polled.cpu = system.cpu := final_of_ok reads ▸ cpu_final_poll system
  rw [modifyCpu_apply, same] at rest
  cases rest
  cases refused : !system.cpu.regs.ime && (Interrupt.highestPriority enable request).isSome with
  | true =>
      rw [Bool.and_eq_true, Bool.not_eq_true'] at refused
      exact ⟨false, fun _ => refused.1, rfl⟩
  | false => exact ⟨true, by simp, rfl⟩

theorem cpu_of_halt_error {system after : System β} {fault : Fault}
    (ran : halt system = .error fault after) : after.cpu = system.cpu := by
  rw [halt_eq_poll] at ran
  rcases bind_error.mp ran with failed | ⟨_, _, _, rest⟩
  · exact final_of_error failed ▸ cpu_final_poll system
  · cases rest

/-- A successful action of an instruction steers the control state. -/
theorem control_perform {instruction : Instruction} {slot start immediate : UInt16} {taken : Bool}
    {system after : System β}
    (ran : perform instruction slot start immediate taken system = .ok () after) :
    ∃ waits, (instruction = .halt → waits = false → system.cpu.regs.ime = false) ∧
      after.cpu.control = instruction.steer waits system.cpu.control := by
  cases kind : instruction.isControl with
  | false =>
      refine ⟨true, by simp, ?_⟩
      have kept :=
        (steady_control (β := β) system.cpu.control).perform kind slot start immediate taken
      rw [kept.of_ok rfl ran]
      cases instruction <;> first | rfl | cases kind
  | true =>
      cases instruction with
      | stop | di | ei =>
          cases ran
          exact ⟨false, by simp, rfl⟩
      | halt =>
          obtain ⟨waits, enabled, steered⟩ := control_halt ran
          exact ⟨waits, fun _ => enabled, steered⟩
      | reti =>
          obtain ⟨_, between, returned, rest⟩ := bind_ok.mp ran
          have kept := (steady_control system.cpu.control).ret.of_ok rfl returned
          cases rest
          refine ⟨true, by simp, ?_⟩
          rw [Instruction.steer, ← kept]
          rfl
      | escape | illegal => cases ran
      | _ => cases kind

/-- An action of an instruction that fails can at most have locked the processor. -/
theorem control_perform_of_error {instruction : Instruction} {slot start immediate : UInt16}
    {taken : Bool} {system after : System β} {fault : Fault}
    (ran : perform instruction slot start immediate taken system = .error fault after) :
    ∃ locked, after.cpu.control = { system.cpu.control with locked } := by
  cases kind : instruction.isControl with
  | false =>
      have kept :=
        (steady_control (β := β) system.cpu.control).perform kind slot start immediate taken
      exact ⟨system.cpu.locked, kept.of_error rfl ran⟩
  | true =>
      cases instruction with
      | stop | di | ei => cases ran
      | halt => exact ⟨system.cpu.locked, congrArg Cpu.control (cpu_of_halt_error ran)⟩
      | reti =>
          rcases bind_error.mp ran with failed | ⟨_, _, _, rest⟩
          · exact ⟨system.cpu.locked, (steady_control system.cpu.control).ret.of_error rfl failed⟩
          · cases rest
      | escape | illegal =>
          cases ran
          exact ⟨_, rfl⟩
      | _ => cases kind

/-! ## Executing an instruction -/

theorem control_fetch {system after : System β} {value : UInt8}
    (ran : fetch system = .ok value after) :
    after.cpu.control = { system.cpu.control with haltBug := false } := by
  rw [fetch_apply] at ran
  cases read : Bus.read system.cpu.regs.pc system.bus with
  | ok first bus =>
      rw [read] at ran
      cases ran
      exact system.cpu.control_advance
  | error error bus => simp [read] at ran

theorem cpu_of_fetch_error {system after : System β} {fault : Fault}
    (ran : fetch system = .error fault after) : after.cpu = system.cpu := by
  rw [fetch_apply] at ran
  cases read : Bus.read system.cpu.regs.pc system.bus with
  | ok first bus => simp [read] at ran
  | error error bus =>
      rw [read] at ran
      cases ran
      rfl

omit [Bus β] in
/-- Once the halt bug is used up, going on leaves the control state alone. -/
theorem keeps_advance (control : Control) :
    Keeps (fun system : System β => system.cpu.control = { control with haltBug := false })
      (modifyCpu Cpu.advance) := by
  intro system holds
  rw [final_of_ok (modifyCpu_apply Cpu.advance system), Cpu.control_advance, holds]

theorem keeps_fetchRun (control : Control) (count : Nat) :
    Keeps (fun system : System β => system.cpu.control = { control with haltBug := false })
      (fetchRun count) :=
  (steady_control _).law.fetchRun (keeps_advance control) count

theorem keeps_fetchImmediate (control : Control) (kind : Immediate) :
    Keeps (fun system : System β => system.cpu.control = { control with haltBug := false })
      (fetchImmediate kind) :=
  (steady_control _).law.fetchImmediate (keeps_advance control) kind

theorem control_fetchRun {system after : System β} {count : Nat} {values : List UInt8}
    (some : 0 < count) (ran : fetchRun count system = .ok values after) :
    after.cpu.control = { system.cpu.control with haltBug := false } := by
  obtain ⟨count, rfl⟩ := Nat.exists_eq_succ_of_ne_zero (Nat.ne_of_gt some)
  obtain ⟨value, between, fetched, rest⟩ := bind_ok.mp ran
  obtain ⟨rest, _, remaining, done⟩ := bind_ok.mp rest
  cases done
  exact (keeps_fetchRun _ count).of_ok (control_fetch fetched) remaining

theorem control_of_fetchSlot_error {system after : System β} {fault : Fault}
    (ran : Cpu.fetchSlot system = .error fault after) :
    after.cpu = system.cpu ∨ after.cpu.control = { system.cpu.control with haltBug := false } := by
  rcases bind_error.mp ran with failed | ⟨opcode, between, fetched, rest⟩
  · exact .inl (cpu_of_fetch_error failed)
  · have first := control_fetch fetched
    by_cases escaped : opcode = Opcode.escape
    · rw [if_pos escaped] at rest
      rcases bind_error.mp rest with failed | ⟨_, _, _, rest⟩
      · exact .inr (cpu_of_fetch_error failed ▸ first)
      · cases rest
    · rw [if_neg escaped] at rest
      cases rest

end Exec

namespace Cpu

open Effect Exec

variable {β : Type} [Bus β]

/-- An executed instruction uses up the halt bug, steers the control state and settles an EI. -/
theorem control_execute {system after : System β} {quantum : Quantum}
    (ran : execute system = .ok quantum after) :
    ∃ slot cost stall waits,
      quantum = .execution slot cost stall ∧
      (Instruction.ofSlot slot = .halt → waits = false → system.cpu.regs.ime = false) ∧
      after.cpu.control =
        ((Instruction.ofSlot slot).steer waits
          { system.cpu.control with haltBug := false }).settle := by
  obtain ⟨_, slot, immediate, fetched, stream, acts⟩ := execute_ok ran
  obtain ⟨acted, performed, rfl, rfl⟩ := conclude_ok acts
  have begun := control_fetchRun (Instruction.encoding_length_pos slot immediate) stream
  obtain ⟨waits, enabled, steered⟩ := control_perform performed
  refine ⟨slot, _, _, waits, rfl, ?_, ?_⟩
  · intro halts falls
    exact (congrArg Control.ime begun).symm.trans (enabled halts falls)
  · rw [control_settleEI, steered, begun]

/-- A failed execution has either fetched nothing, and left the processor as it was, or used up the
halt bug and at most locked the processor. -/
theorem control_execute_of_error {system after : System β} {fault : Fault}
    (ran : execute system = .error fault after) :
    after.cpu = system.cpu ∨
      ∃ locked, after.cpu.control = { system.cpu.control with haltBug := false, locked } := by
  rw [execute_eq_conclude] at ran
  rcases bind_error.mp ran with hung | ⟨_, _, unlocked, rest⟩
  · exact .inl (congrArg System.cpu (requireUnlocked_error hung))
  obtain ⟨rfl, _⟩ := requireUnlocked_ok unlocked
  rw [bind_of_ok (registers_apply _)] at rest
  rcases bind_error.mp rest with unfetched | ⟨slot, between, opcode, rest⟩
  · rcases control_of_fetchSlot_error unfetched with same | used
    · exact .inl same
    · exact .inr ⟨_, used⟩
  have begun := control_fetchRun (Instruction.slotBytes_length_pos slot) (fetchSlot_ok opcode)
  rcases bind_error.mp rest with unfetched | ⟨immediate, fetched, operand, acts⟩
  · exact .inr ⟨_, (keeps_fetchImmediate _ _).of_error begun unfetched⟩
  have fetchedAll := (keeps_fetchImmediate _ _).of_ok begun operand
  obtain ⟨locked, failed⟩ := control_perform_of_error (conclude_error acts)
  exact .inr ⟨locked, by rw [failed, fetchedAll]⟩

end Cpu
end GameBoy
