import GameBoy.Proofs.Checked.Accesses
import GameBoy.Proofs.Pending

/-!
# Checked steps

The processor runs on a board whose accesses are checked, and checks its own arithmetic.  The first
operation that overruns ends the step, and the board is lost with it.  From a board on which five
more transfers can be added to the pending stall a step does what it does without the checks.
-/

namespace GameBoy

open Effect Exec Checked

/-! ## Boards that may be lost -/

/-- A board whose operations are checked, until one of them has overrun. -/
inductive Guarded where
  | intact (board : Board)
  | overrun

namespace Guarded

variable {α : Type}

/-- Carry out a checked access.  One that overruns ends whatever it is part of; the error says
nothing more. -/
def carryOut (access : Checked MemoryError Board α) : Access Guarded α
  | .intact board =>
    match access board with
    | some (.ok value after) => .ok value (.intact after)
    | some (.error error after) => .error error (.intact after)
    | none => .error (.bankOutOfRange 0 0) .overrun
  | .overrun => .error (.bankOutOfRange 0 0) .overrun

instance : Bus Guarded where
  read address := carryOut (Board.read? address)
  write address value := carryOut (Board.write? address value)
  takeStall
    | .intact board => (board.stall, .intact { board with stall := 0 })
    | .overrun => (0, .overrun)
  report event
    | .intact board => .intact (board.record event)
    | .overrun => .overrun

theorem carryOut_of_meets {access : Checked MemoryError Board α} {action : Access Board α}
    {board : Board} (meets : access.Meets action board) :
    carryOut access (.intact board) = see .intact (action board) := by
  rw [Meets] at meets
  rw [carryOut, meets]
  cases action board <;> rfl

end Guarded

namespace Exec

variable {α : Type}

/-- Go on with the result of an operation, unless it has overrun. -/
def demand (result : Option α) : Exec Guarded α := fun system =>
  match result with
  | some value => .ok value system
  | none => .error (.memory (.bankOutOfRange 0 0)) ⟨system.cpu, .overrun⟩

@[simp]
theorem demand_some (value : α) : demand (some value) = pure value := rfl

/-- Change the register file by an operation. -/
def changeRegisters (operation : Registers → Option Registers) : Exec Guarded Unit := do
  let changed ← demand (operation (← registers))
  modifyRegisters fun _ => changed

theorem changeRegisters_eq {operation : Registers → Option Registers}
    {change : Registers → Registers} (fits : ∀ regs, operation regs = some (change regs)) :
    changeRegisters operation = modifyRegisters change := by
  funext system
  rw [changeRegisters, bind_of_ok (registers_apply system), fits]
  rfl

/-! ## Instructions -/

/-- The effect of an instruction with its arithmetic checked.  What is not listed does nothing that
can overrun, but for its accesses. -/
def perform? (instruction : Instruction) (slot start immediate : UInt16) (taken : Bool) :
    Exec Guarded Unit :=
  match instruction with
  | .addHL pair =>
    changeRegisters fun regs => do
      let (sum, flags) ← Alu.addWord? regs.hl (regs.pair pair) regs.flags
      some { regs.setHL sum with flags }
  | .rotateA op =>
    changeRegisters fun regs => do
      let (a, flags) ← Alu.shift? op regs.a regs.flags.carry
      some { regs with a, flags := { flags with zero := false } }
  | .alu op source => do
    let value ← readOperand source
    changeRegisters fun regs => do
      let (a, flags) ← Alu.combine? op regs.a value regs.flags
      some { regs with a, flags }
  | .aluByte op =>
    changeRegisters fun regs => do
      let (a, flags) ← Alu.combine? op regs.a (Word.low immediate) regs.flags
      some { regs with a, flags }
  | .rst target => do
    let vector ← demand (fit 8 (8 * target.val))
    call (UInt16.ofNat vector)
  | .addSP =>
    changeRegisters fun regs => do
      let (sp, flags) ← Alu.addSigned? regs.sp (Word.low immediate)
      some { regs with sp, flags }
  | .loadHLSP =>
    changeRegisters fun regs => do
      let (sum, flags) ← Alu.addSigned? regs.sp (Word.low immediate)
      some { regs.setHL sum with flags }
  | .shift op target => do
    let value ← readOperand target
    let (result, flags) ← demand (Alu.shift? op value (← registers).flags.carry)
    setFlags flags
    writeOperand target result
  | .bit index source => do
    let value ← readOperand source
    changeRegisters fun regs => do
      let flags ← Alu.bitFlags? index value regs.flags
      some { regs with flags }
  | .res index target => do
    let value ← readOperand target
    let mask ← demand (Alu.bitMask? index)
    writeOperand target (value &&& ~~~mask)
  | .set index target => do
    let value ← readOperand target
    let mask ← demand (Alu.bitMask? index)
    writeOperand target (value ||| mask)
  | _ => perform instruction slot start immediate taken

/-- The arithmetic of an instruction never overruns. -/
theorem perform?_eq (instruction : Instruction) (slot start immediate : UInt16) (taken : Bool) :
    perform? instruction slot start immediate taken =
      perform instruction slot start immediate taken := by
  cases instruction with
  | addHL pair =>
      rw [perform?, perform]
      exact changeRegisters_eq fun regs => by rw [Alu.addWord?_eq]; rfl
  | rotateA op =>
      rw [perform?, perform]
      exact changeRegisters_eq fun regs => by rw [Alu.shift?_eq]; rfl
  | alu op source =>
      rw [perform?, perform]
      congr 1
      funext value
      exact changeRegisters_eq fun regs => by rw [Alu.combine?_eq]; rfl
  | aluByte op =>
      rw [perform?, perform]
      exact changeRegisters_eq fun regs => by rw [Alu.combine?_eq]; rfl
  | rst target =>
      have vector : fit 8 (8 * target.val) = some (8 * target.val) := if_pos (by omega)
      rw [perform?, vector, demand_some, pure_bind, perform]
  | addSP | loadHLSP =>
      rw [perform?, perform]
      exact changeRegisters_eq fun regs => by rw [Alu.addSigned?_eq]; rfl
  | shift op target => simp only [perform?, perform, Alu.shift?_eq, demand_some, pure_bind]
  | bit index source =>
      rw [perform?, perform]
      congr 1
      funext value
      exact changeRegisters_eq fun regs => by rw [Alu.bitFlags?_eq]; rfl
  | res index target | set index target =>
      simp only [perform?, perform, Alu.bitMask?_eq, demand_some, pure_bind]
  | _ => rfl

end Exec

/-! ## Steps -/

namespace Cpu

/-- Fetch the opcode and look its instruction up. -/
def fetchInstruction? : Exec Guarded (UInt16 × Instruction) := do
  let slot ← fetchSlot
  let instruction ← demand Instruction.slots[slot.toNat]?
  pure (slot, instruction)

/-- Collect the stall cycles, which are added to the cost. -/
def settleStall? (cost : Nat) : Exec Guarded Nat := do
  let stall ← takeStall
  let _ ← demand (fit 32 (cost + stall))
  pure stall

/-- Let an instruction act once all its bytes have been fetched. -/
def conclude? (slot start : UInt16) (instruction : Instruction) (immediate : UInt16) :
    Exec Guarded Quantum := do
  let taken := instruction.taken (← registers).flags
  perform? instruction slot start immediate taken
  modifyCpu settleEI
  let cost := instruction.cost taken
  let stall ← settleStall? cost
  pure (.execution slot cost stall)

/-- Fetch, decode and execute one instruction. -/
def execute? : Exec Guarded Quantum := do
  requireUnlocked
  let start := (← registers).pc
  let (slot, instruction) ← fetchInstruction?
  let immediate ← fetchImmediate instruction.immediate
  conclude? slot start instruction immediate

/-- Divert to the handler of a line. -/
def dispatch? (line : Interrupt) (request : UInt8) : Exec Guarded Unit := do
  modifyCpu (Cpu.setIme false)
  let returnPc := (← registers).pc
  push returnPc
  write Interrupt.requestAddress (request &&& ~~~line.mask)
  jump (← demand line.vector?)
  report (.interruptServiced line returnPc)

/-- Take the pending interrupt of highest priority if the master enable is set. -/
def serviceInterrupt? : Exec Guarded (Option Interrupt) := do
  let enable ← read Interrupt.enableAddress
  let request ← read Interrupt.requestAddress
  match ← demand (Interrupt.highestPriority? enable request) with
  | none => pure none
  | some line =>
    modifyRegisters fun regs => { regs with halted := false }
    if (← registers).ime then
      dispatch? line request
      pure (some line)
    else
      pure none

/-- Advance the processor by one step. -/
def step? : Exec Guarded Quantum := do
  requireUnlocked
  if ← staysStopped then
    pure .idle
  else
    match ← serviceInterrupt? with
    | some line => pure (.interrupt line)
    | none =>
      if (← registers).halted then
        pure .idle
      else
        execute?

/-- Look at the opcode ahead. -/
def lookAhead? : Exec Guarded (Option UInt8) := do
  let cpu ← cpu
  if cpu.regs.halted || cpu.regs.stopped || cpu.locked.isSome then
    pure none
  else if cpu.regs.ime then
    let enable ← read Interrupt.enableAddress
    let request ← read Interrupt.requestAddress
    let first ← demand (Interrupt.highestPriority? enable request)
    if first.isSome then
      pure none
    else
      some <$> read cpu.regs.pc
  else
    some <$> read cpu.regs.pc

/-- Every slot that is fetched holds an instruction. -/
theorem fetchInstruction?_eq :
    fetchInstruction? = fetchSlot >>= fun slot => pure (slot, Instruction.ofSlot slot) := by
  have finds {slot : UInt16} (inside : slot.toNat < 0x200) :
      (demand Instruction.slots[slot.toNat]? >>= fun instruction =>
        (pure (slot, instruction) : Exec Guarded _)) = pure (slot, Instruction.ofSlot slot) := by
    rw [Instruction.slots_getElem? inside, demand_some, pure_bind]
  have first (opcode : UInt8) : opcode.toUInt16.toNat < 0x200 := by
    rw [UInt8.toNat_toUInt16]
    exact Nat.lt_trans opcode.toNat_lt (by decide)
  have second (opcode : UInt8) : (0x100 ||| opcode.toUInt16).toNat < 0x200 := by
    rw [UInt16.toNat_or]
    exact Nat.or_lt_two_pow (n := 9) (by decide) (first opcode)
  rw [fetchInstruction?, fetchSlot, bind_assoc, bind_assoc]
  congr 1
  funext opcode
  split
  · simp only [bind_assoc, pure_bind]
    congr 1
    funext low
    exact finds (second low)
  · rw [pure_bind, pure_bind]
    exact finds (first opcode)

theorem execute?_eq :
    execute? = requireUnlocked >>= fun _ => registers >>= fun regs => fetchSlot >>= fun slot =>
      fetchImmediate (Instruction.ofSlot slot).immediate >>= fun immediate =>
        conclude? slot regs.pc (Instruction.ofSlot slot) immediate := by
  simp only [execute?, fetchInstruction?_eq, bind_assoc, pure_bind]

theorem dispatch?_eq (line : Interrupt) (request : UInt8) :
    dispatch? line request = dispatch line request := by
  simp only [dispatch?, dispatch, Interrupt.vector?_eq, demand_some, pure_bind]

theorem serviceInterrupt?_eq : serviceInterrupt? = serviceInterrupt := by
  rw [serviceInterrupt?, serviceInterrupt]
  congr 1
  funext enable
  congr 1
  funext request
  rw [Interrupt.highestPriority?_eq, demand_some, pure_bind]
  cases Interrupt.highestPriority enable request with
  | none => rfl
  | some line => simp only [dispatch?_eq]

theorem lookAhead?_eq : lookAhead? = lookAhead := by
  simp only [lookAhead?, lookAhead, Interrupt.highestPriority?_eq, demand_some, pure_bind]

end Cpu

/-! ## A step does not overrun -/

/-- While so many transfers can be added to the pending stall, the checked action does what the
action does, and adds no more transfers. -/
def Mirrors {α : Type} (count : Nat) (action : Exec Board α) (checked : Exec Guarded α) : Prop :=
  ∀ machine : Machine, machine.bus.stall + Board.dmaStall * count < 2 ^ 31 →
    checked (machine.view .intact) = see (System.view .intact) (action machine) ∧
      (final action machine).bus.stall ≤ machine.bus.stall + Board.dmaStall * count

namespace Mirrors

variable {α : Type} {action : Exec Board α} {checked : Exec Guarded α}

theorem of_still (same : ∀ machine : Machine,
      checked (machine.view .intact) = see (System.view .intact) (action machine))
    (still : ∀ machine, (final action machine).bus.stall ≤ machine.bus.stall) :
    Mirrors 0 action checked :=
  fun machine _ => ⟨same machine, still machine⟩

theorem read (address : UInt16) : Mirrors 0 (Exec.read address) (Exec.read address) := by
  refine .of_still (fun machine => ?_) fun machine => ?_
  · exact access_view (Guarded.carryOut_of_meets (Board.meets_read address machine.bus))
  · exact (law_owes machine.bus.stall).read address rfl machine (Nat.le_refl _)

theorem write (address : UInt16) (value : UInt8) :
    Mirrors 1 (Exec.write address value) (Exec.write address value) := by
  intro machine room
  have stall : machine.bus.stall + Board.dmaStall < 2 ^ 32 := by omega
  refine ⟨access_view (Guarded.carryOut_of_meets (Board.meets_write address value stall)), ?_⟩
  rw [Exec.write, final, access_apply, Board.write_apply]
  cases machine.bus.refusal address value with
  | some error => exact Nat.le_add_right _ _
  | none =>
      refine Nat.le_trans (Nat.le_of_eq (Board.stall_store machine.bus address value)) ?_
      split <;> simp

/-- Mirroring is a law of every step, with a transfer for each byte that may be written. -/
theorem law : StepLaw fun _ count (action : Exec Board _) (checked : Exec Guarded _) =>
    Mirrors count action checked where
  pure _ := .of_still (fun _ => rfl) fun _ => Nat.le_refl _
  bind := by
    intro _ _ first second action checked next follow begins rest machine room
    rw [Nat.mul_add] at room ⊢
    obtain ⟨same, begun⟩ := begins machine (by omega)
    rw [bind_apply, same]
    cases ran : action machine with
    | ok value after =>
        rw [final_of_ok ran] at begun
        obtain ⟨goes, ended⟩ := rest value after (by omega)
        rw [final, bind_of_ok ran]
        rw [final] at ended
        exact ⟨goes, by omega⟩
    | error fault after =>
        rw [final_of_error ran] at begun
        rw [final, bind_of_error ran]
        exact ⟨rfl, by simp only; omega⟩
  mono fewer mirrors machine room := by
    have less := Nat.mul_le_mul_left Board.dmaStall fewer
    obtain ⟨same, grows⟩ := mirrors machine (by omega)
    exact ⟨same, by omega⟩
  registers := .of_still (fun _ => rfl) fun _ => Nat.le_refl _
  read := read
  write := write
  modify _ _ _ := .of_still (fun _ => rfl) fun _ => Nat.le_refl _
  change _ := .of_still (fun _ => rfl) fun _ => Nat.le_refl _
  throw _ := .of_still (fun _ => rfl) fun _ => Nat.le_refl _
  cpu := .of_still (fun _ => rfl) fun _ => Nat.le_refl _
  takeStall := .of_still (fun _ => rfl) fun _ => Nat.zero_le _
  report _ := .of_still (fun _ => rfl) fun _ => Nat.le_refl _

/-- What is pending can be added to the cost of an instruction. -/
theorem settleStall {cost : Nat} (cheap : cost ≤ 24) :
    Mirrors 0 takeStall (Cpu.settleStall? cost) := by
  intro machine room
  have fits : fit 32 (cost + machine.bus.stall) = some (cost + machine.bus.stall) :=
    if_pos (by omega)
  refine ⟨?_, Nat.zero_le _⟩
  rw [Cpu.settleStall?, bind_of_ok (takeStall_apply _)]
  change (demand (fit 32 (cost + machine.bus.stall)) >>= fun _ => pure machine.bus.stall) _ = _
  rw [fits]
  rfl

theorem conclude (slot start immediate : UInt16) :
    Mirrors (Instruction.ofSlot slot).writes (Cpu.conclude slot start immediate)
      (Cpu.conclude? slot start (Instruction.ofSlot slot) immediate) := by
  have performs (taken : Bool) :
      Mirrors (Instruction.ofSlot slot).writes
        (perform (Instruction.ofSlot slot) slot start immediate taken)
        (perform? (Instruction.ofSlot slot) slot start immediate taken) := by
    rw [perform?_eq]
    exact law.perform _ slot start immediate taken
  refine law.after law.registers fun regs => ?_
  exact law.before (performs _) fun _ => law.after (law.change _) fun _ =>
    law.after (settleStall (Instruction.cost_le _ _)) fun _ => law.pure _

theorem execute : Mirrors 2 Cpu.execute Cpu.execute? := by
  rw [Cpu.execute_eq_conclude, Cpu.execute?_eq]
  refine law.after law.requireUnlocked fun _ => law.after law.registers fun regs => ?_
  refine law.after (law.fetchSlot (law.change _)) fun slot => ?_
  refine law.after (law.fetchImmediate (law.change _) _) fun immediate => ?_
  exact law.mono (Instruction.writes_le_two _) (conclude slot regs.pc immediate)

theorem step : Mirrors 5 Cpu.step Cpu.step? := by
  rw [Cpu.step?, Cpu.serviceInterrupt?_eq]
  refine law.after law.requireUnlocked fun _ => law.after law.staysStopped fun stays => ?_
  split
  · exact law.mono (Nat.zero_le 5) (law.pure _)
  · refine law.bind law.serviceInterrupt fun served => ?_
    cases served with
    | some line => exact law.mono (Nat.zero_le 2) (law.pure _)
    | none =>
        refine law.after law.registers fun regs => ?_
        split
        · exact law.mono (Nat.zero_le 2) (law.pure _)
        · exact execute

theorem lookAhead : Mirrors 0 Machine.nextOpcode Cpu.lookAhead? := by
  rw [Cpu.lookAhead?_eq]
  exact law.lookAhead law.cpu

end Mirrors
end GameBoy
