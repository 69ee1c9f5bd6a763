import GameBoy.Proofs.Fetch

/-!
# Laws of the instruction set

An instruction is a chain of accesses and changes of registers.  A relation between the actions of
two processors that holds of these links and passes to chains holds of every instruction, and if it
also holds of what happens between instructions, of every step.  The two buses may be of different
kinds.  The relation is graded by the number of bytes that an action may write.
-/

namespace GameBoy

/-- The part of the processor that decides how it proceeds. -/
structure Control where
  ime : Bool
  halted : Bool
  stopped : Bool
  eiPending : Bool
  eiDelay : Bool
  haltBug : Bool
  locked : Option DecodeError
deriving DecidableEq

/-- The control state of a processor. -/
def Cpu.control (cpu : Cpu) : Control where
  ime := cpu.regs.ime
  halted := cpu.regs.halted
  stopped := cpu.regs.stopped
  eiPending := cpu.eiPending
  eiDelay := cpu.eiDelay
  haltBug := cpu.haltBug
  locked := cpu.locked

namespace Instruction

/-- The instruction is there for its effect on the control state. -/
def isControl : Instruction → Bool
  | .stop | .halt | .di | .ei | .reti | .escape | .illegal => true
  | _ => false

/-- The instruction may continue elsewhere. -/
def branches : Instruction → Bool
  | .jr _ | .jp _ | .jpHL | .call _ | .ret _ | .reti | .rst _ => true
  | _ => false

/-- The most bytes that the instruction writes. -/
def writes : Instruction → Nat
  | .storeSP | .call _ | .rst _ | .push _ => 2
  | .storeA _ | .inc _ | .dec _ | .loadByte _ | .load _ _ | .storeHigh | .storeHighC | .storeAt
  | .shift _ _ | .res _ _ | .set _ _ => 1
  | _ => 0

/-- A write takes four cycles. -/
theorem writes_le_cost (instruction : Instruction) (taken : Bool) :
    4 * instruction.writes ≤ instruction.cost taken := by
  cases instruction <;> simp only [writes, cost, operandCost] <;> (repeat' split) <;> omega

theorem writes_le_two (instruction : Instruction) : instruction.writes ≤ 2 := by
  unfold writes
  split <;> decide

end Instruction

/-- The change of registers leaves the control state alone. -/
def Registers.KeepsControl (change : Registers → Registers) : Prop :=
  ∀ cpu : Cpu, Cpu.control { cpu with regs := change cpu.regs } = cpu.control

/-- The change of registers leaves PC alone. -/
def Registers.KeepsPc (change : Registers → Registers) : Prop :=
  ∀ regs, (change regs).pc = regs.pc

namespace Exec

variable {β γ : Type} [Bus β] [Bus γ]

/-- A relation between actions that passes to chains and holds of accesses and of changes of
registers that leave PC and the control state alone. -/
structure Law (holds : (α : Type) → Nat → Exec β α → Exec γ α → Prop) : Prop where
  pure : ∀ {α : Type} (value : α), holds α 0 (pure value) (pure value)
  bind : ∀ {α δ : Type} {first second : Nat} {action : Exec β α} {twin : Exec γ α}
    {next : α → Exec β δ} {follow : α → Exec γ δ}, holds α first action twin →
      (∀ value, holds δ second (next value) (follow value)) →
        holds δ (second + first) (action >>= next) (twin >>= follow)
  mono : ∀ {α : Type} {fewer more : Nat} {action : Exec β α} {twin : Exec γ α}, fewer ≤ more →
    holds α fewer action twin → holds α more action twin
  registers : holds _ 0 registers registers
  read : ∀ address, holds _ 0 (read address) (read address)
  write : ∀ address value, holds _ 1 (write address value) (write address value)
  modify : ∀ change, Registers.KeepsControl change → Registers.KeepsPc change →
    holds _ 0 (modifyRegisters change) (modifyRegisters change)

namespace Law

variable {holds : (α : Type) → Nat → Exec β α → Exec γ α → Prop} (law : Law holds)

include law

/-! ## The named actions -/

/-- A chain whose first link writes nothing. -/
theorem after {α δ : Type} {count : Nat} {action : Exec β α} {twin : Exec γ α}
    {next : α → Exec β δ} {follow : α → Exec γ δ} (first : holds α 0 action twin)
    (rest : ∀ value, holds δ count (next value) (follow value)) :
    holds δ count (action >>= next) (twin >>= follow) :=
  law.bind first rest

/-- A chain of which only the first link writes. -/
theorem before {α δ : Type} {count : Nat} {action : Exec β α} {twin : Exec γ α}
    {next : α → Exec β δ} {follow : α → Exec γ δ} (first : holds α count action twin)
    (rest : ∀ value, holds δ 0 (next value) (follow value)) :
    holds δ count (action >>= next) (twin >>= follow) :=
  Nat.zero_add count ▸ law.bind first rest

theorem readWord (address : UInt16) :
    holds _ 0 (access (Bus.readWord address)) (access (Bus.readWord address)) := by
  rw [Bus.readWord, Bus.readWord, access_bind, access_bind]
  refine law.after (law.read address) fun low => ?_
  rw [access_bind, access_bind]
  exact law.after (law.read (address + 1)) fun high => law.pure _

theorem writeWord (address word : UInt16) :
    holds _ 2 (access (Bus.writeWord address word)) (access (Bus.writeWord address word)) := by
  rw [Bus.writeWord, Bus.writeWord, access_bind, access_bind]
  exact law.bind (law.write address _) fun _ => law.write (address + 1) _

theorem push (word : UInt16) : holds _ 2 (push word) (push word) := by
  refine law.after (law.modify _ (fun _ => rfl) fun _ => rfl) fun _ => ?_
  refine law.after law.registers fun _ => law.bind (law.write _ _) fun _ => ?_
  refine law.after (law.modify _ (fun _ => rfl) fun _ => rfl) fun _ => ?_
  exact law.after law.registers fun _ => law.write _ _

theorem pop : holds _ 0 pop pop := by
  refine law.after law.registers fun regs => law.after (law.readWord regs.sp) fun word => ?_
  exact law.after (law.modify _ (fun _ => rfl) fun _ => rfl) fun _ => law.pure word

theorem setA (value : UInt8) : holds _ 0 (setA value) (setA value) :=
  law.modify _ (fun _ => rfl) fun _ => rfl

theorem setFlags (flags : Flags) : holds _ 0 (setFlags flags) (setFlags flags) :=
  law.modify _ (fun _ => rfl) fun _ => rfl

theorem follow (pointer : Pointer) : holds _ 0 (follow pointer) (follow pointer) := by
  refine law.after law.registers fun regs => ?_
  cases pointer with
  | bc => exact law.pure regs.bc
  | de => exact law.pure regs.de
  | hlUp | hlDown =>
      exact law.after (law.modify _ (fun _ => rfl) fun _ => rfl) fun _ => law.pure regs.hl

theorem readOperand (source : Operand) :
    holds _ 0 (readOperand source) (readOperand source) := by
  cases source with
  | atHL => exact law.after law.registers fun regs => law.read regs.hl
  | _ => exact law.after law.registers fun _ => law.pure _

theorem writeOperand (target : Operand) (value : UInt8) :
    holds _ 1 (writeOperand target value) (writeOperand target value) := by
  cases target with
  | atHL => exact law.after law.registers fun regs => law.write regs.hl value
  | _ =>
      rw [Exec.writeOperand, Exec.writeOperand]
      exact law.mono (Nat.zero_le 1) (law.modify _ (fun _ => rfl) fun _ => rfl)

theorem setPair (pair : Pair) (word : Registers → UInt16) :
    holds _ 0 (modifyRegisters fun regs => regs.setPair pair (word regs))
      (modifyRegisters fun regs => regs.setPair pair (word regs)) :=
  law.modify _ (fun _ => by cases pair <;> rfl) fun _ => by cases pair <;> rfl

theorem setStackPair (pair : StackPair) (word : UInt16) :
    holds _ 0 (modifyRegisters fun regs => regs.setStackPair pair word)
      (modifyRegisters fun regs => regs.setStackPair pair word) :=
  law.modify _ (fun _ => by cases pair <;> rfl) fun _ => by cases pair <;> rfl

/-! ## Instructions -/

section Fetching

variable (advance : holds _ 0 (modifyCpu Cpu.advance) (modifyCpu Cpu.advance))

include advance

theorem fetch : holds _ 0 fetch fetch :=
  law.after law.registers fun _ => law.after (law.read _) fun _ =>
    law.after advance fun _ => law.pure _

theorem fetchRun (count : Nat) : holds _ 0 (fetchRun count) (fetchRun count) := by
  induction count with
  | zero => exact law.pure []
  | succ count ih =>
      exact law.after (law.fetch advance) fun _ => law.after ih fun _ => law.pure _

theorem fetchSlot : holds _ 0 Cpu.fetchSlot Cpu.fetchSlot := by
  refine law.after (law.fetch advance) fun opcode => ?_
  split
  · exact law.after (law.fetch advance) fun _ => law.pure _
  · exact law.pure _

theorem fetchImmediate (kind : Immediate) :
    holds _ 0 (fetchImmediate kind) (fetchImmediate kind) := by
  cases kind with
  | none => exact law.pure 0
  | signed8 | unsigned8 => exact law.after (law.fetch advance) fun _ => law.pure _
  | unsigned16 =>
      exact law.after (law.fetch advance) fun _ => law.after (law.fetch advance) fun _ => law.pure _

end Fetching

section Branching

variable (branch : ∀ change, Registers.KeepsControl change →
  holds _ 0 (modifyRegisters change) (modifyRegisters change))

include branch

theorem call (target : UInt16) : holds _ 2 (call target) (call target) :=
  law.after law.registers fun regs => law.before (law.push regs.pc) fun _ => branch _ fun _ => rfl

theorem ret : holds _ 0 ret ret :=
  law.after law.pop fun _ => branch _ fun _ => rfl

end Branching

/-- A law holds of an instruction unless this moves PC or touches the control state; then such
changes must obey the law. -/
theorem perform {instruction : Instruction} (legal : instruction.isIllegal = false)
    (branch : instruction.branches = true → ∀ change, Registers.KeepsControl change →
      holds _ 0 (modifyRegisters change) (modifyRegisters change))
    (latch : instruction.isControl = true → ∀ change : Cpu → Cpu,
      (∀ cpu, (change cpu).regs.pc = cpu.regs.pc) → holds _ 0 (modifyCpu change) (modifyCpu change))
    (slot start immediate : UInt16) (taken : Bool) :
    holds _ instruction.writes (perform instruction slot start immediate taken)
      (perform instruction slot start immediate taken) := by
  cases instruction with
  | escape | illegal => cases legal
  | nop => exact law.pure ()
  | stop | di | ei =>
      rw [Exec.perform, Exec.perform]
      exact latch rfl _ fun _ => rfl
  | halt =>
      refine law.after (law.read _) fun enable => law.after (law.read _) fun request => ?_
      refine latch rfl _ fun cpu => ?_
      split <;> rfl
  | loadPair pair => exact law.setPair pair fun _ => immediate
  | storeA pointer =>
      exact law.after (law.follow pointer) fun _ => law.after law.registers fun _ => law.write _ _
  | loadA pointer =>
      exact law.after (law.follow pointer) fun _ => law.after (law.read _) fun _ => law.setA _
  | storeSP => exact law.after law.registers fun _ => law.writeWord _ _
  | incPair pair => exact law.setPair pair fun regs => regs.pair pair + 1
  | decPair pair => exact law.setPair pair fun regs => regs.pair pair - 1
  | inc target | dec target | shift op target =>
      exact law.after (law.readOperand target) fun _ => law.after law.registers fun _ =>
        law.after (law.setFlags _) fun _ => law.writeOperand target _
  | loadByte target => exact law.writeOperand target _
  | load target source =>
      exact law.after (law.readOperand source) fun _ => law.writeOperand target _
  | alu op source | bit index source =>
      exact law.after (law.readOperand source) fun _ =>
        law.modify _ (fun _ => rfl) fun _ => rfl
  | addHL | rotateA | daa | cpl | scf | ccf | aluByte | addSP | loadHLSP | loadSPHL =>
      rw [Exec.perform, Exec.perform]
      exact law.modify _ (fun _ => rfl) fun _ => rfl
  | jr condition | jp condition =>
      cases taken with
      | false => exact law.pure ()
      | true =>
          rw [Exec.perform, Exec.perform, if_pos rfl, if_pos rfl]
          exact branch rfl _ fun _ => rfl
  | jpHL => exact law.after law.registers fun _ => branch rfl _ fun _ => rfl
  | call condition =>
      cases taken with
      | false => exact law.mono (Nat.zero_le 2) (law.pure ())
      | true => exact law.call (branch rfl) immediate
  | ret condition =>
      cases taken with
      | false => exact law.pure ()
      | true => exact law.ret (branch rfl)
  | reti => exact law.after (law.ret (branch rfl)) fun _ => latch rfl _ fun _ => rfl
  | rst target => exact law.call (branch rfl) _
  | push pair => exact law.after law.registers fun _ => law.push _
  | pop pair => exact law.after law.pop fun word => law.setStackPair pair word
  | storeHigh | storeHighC | storeAt => exact law.after law.registers fun _ => law.write _ _
  | loadHigh | loadAt => exact law.after (law.read _) fun _ => law.setA _
  | loadHighC =>
      exact law.after law.registers fun _ => law.after (law.read _) fun _ => law.setA _
  | res index target | set index target =>
      exact law.after (law.readOperand target) fun _ => law.writeOperand target _

end Law

/-! ## Steps -/

/-- A law that also holds of every change of the processor, of failing and of what happens between
instructions. -/
structure StepLaw (holds : (α : Type) → Nat → Exec β α → Exec γ α → Prop) : Prop
    extends Law holds where
  change : ∀ change : Cpu → Cpu, holds _ 0 (modifyCpu change) (modifyCpu change)
  throw : ∀ {α : Type} (fault : Fault), holds α 0 (throw fault) (throw fault)
  cpu : holds _ 0 cpu cpu
  takeStall : holds _ 0 takeStall takeStall
  report : ∀ event, holds _ 0 (report event) (report event)

namespace StepLaw

variable {holds : (α : Type) → Nat → Exec β α → Exec γ α → Prop} (law : StepLaw holds)

include law

theorem lock (error : DecodeError) : holds _ 0 (lock error) (lock error) :=
  law.after law.registers fun _ => law.after (law.report _) fun _ =>
    law.after (law.change _) fun _ => law.throw _

theorem perform (instruction : Instruction) (slot start immediate : UInt16) (taken : Bool) :
    holds _ instruction.writes (perform instruction slot start immediate taken)
      (perform instruction slot start immediate taken) := by
  cases legal : instruction.isIllegal with
  | false =>
      exact law.toLaw.perform legal (fun _ _ _ => law.change _) (fun _ _ _ => law.change _) ..
  | true =>
      cases instruction with
      | escape | illegal => exact law.lock _
      | _ => cases legal

theorem requireUnlocked : holds _ 0 Cpu.requireUnlocked Cpu.requireUnlocked := by
  refine law.after law.cpu fun cpu => ?_
  cases cpu.locked with
  | none => exact law.pure ()
  | some error => exact law.throw _

theorem conclude (slot start immediate : UInt16) :
    holds _ (Instruction.ofSlot slot).writes (Cpu.conclude slot start immediate)
      (Cpu.conclude slot start immediate) := by
  refine law.after law.registers fun _ => ?_
  exact law.before (law.perform _ _ _ _ _) fun _ => law.after (law.change _) fun _ =>
    law.after law.takeStall fun _ => law.pure _

theorem execute : holds _ 2 Cpu.execute Cpu.execute := by
  rw [Cpu.execute_eq_conclude, Cpu.execute_eq_conclude]
  refine law.after law.requireUnlocked fun _ => law.after law.registers fun regs => ?_
  refine law.after (law.fetchSlot (law.change _)) fun slot => ?_
  refine law.after (law.fetchImmediate (law.change _) _) fun immediate => ?_
  exact law.mono (Instruction.writes_le_two _) (law.conclude slot regs.pc immediate)

theorem dispatch (line : Interrupt) (request : UInt8) :
    holds _ 3 (Cpu.dispatch line request) (Cpu.dispatch line request) := by
  refine law.after (law.change _) fun _ => law.after law.registers fun regs => ?_
  refine law.bind (law.push regs.pc) fun _ => law.bind (law.write _ _) fun _ => ?_
  refine law.after ?_ fun _ => law.report _
  rw [jump, jump, modifyRegisters, modifyRegisters]
  exact law.change _

theorem staysStopped : holds _ 0 Cpu.staysStopped Cpu.staysStopped := by
  refine law.after law.registers fun regs => ?_
  split
  · refine law.after (law.read _) fun lines => ?_
    split
    · exact law.pure true
    · exact law.after (law.change _) fun _ => law.pure false
  · exact law.pure false

theorem serviceInterrupt : holds _ 3 Cpu.serviceInterrupt Cpu.serviceInterrupt := by
  refine law.after (law.read _) fun enable => law.after (law.read _) fun request => ?_
  split
  · exact law.mono (Nat.zero_le 3) (law.pure none)
  · next line _ =>
    refine law.after (law.change _) fun _ => law.after law.registers fun regs => ?_
    split
    · exact law.before (law.dispatch line request) fun _ => law.pure _
    · exact law.mono (Nat.zero_le 3) (law.pure none)

/-- A law that holds of the links of a step holds of the step. -/
theorem step : holds _ 5 Cpu.step Cpu.step := by
  refine law.after law.requireUnlocked fun _ => law.after law.staysStopped fun stays => ?_
  split
  · exact law.mono (Nat.zero_le 5) (law.pure _)
  · refine law.bind law.serviceInterrupt fun served => ?_
    cases served with
    | some line => exact law.mono (Nat.zero_le 2) (law.pure _)
    | none =>
        refine law.after law.registers fun regs => ?_
        split
        · exact law.mono (Nat.zero_le 2) (law.pure _)
        · exact law.execute

end StepLaw
end Exec
end GameBoy
