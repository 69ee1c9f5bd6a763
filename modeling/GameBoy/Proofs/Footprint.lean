import GameBoy.Proofs.Execution
import GameBoy.Proofs.Tape
import Mathlib.Data.List.Nodup

/-!
# Footprints of instructions

An instruction declares the cells of the register file in which it may leave results and the
addresses at which it stores.  The other cells keep their contents, even if the instruction faults.
One that succeeds has stored exactly at its addresses, none of them twice.
-/

namespace GameBoy

open Effect

/-- A part of the register file that an instruction may have as a destination.  PC moves with every
instruction, and the master enable may change through an earlier EI. -/
inductive Cell where
  | a | b | c | d | e | h | l
  | zero | subtract | halfCarry | carry
  | sp | halted | stopped
deriving DecidableEq

/-- The flags. -/
def Cell.flags : List Cell :=
  [.zero, .subtract, .halfCarry, .carry]

namespace Registers

/-- The content of a cell. -/
def content (regs : Registers) : Cell → Nat
  | .a => regs.a.toNat
  | .b => regs.b.toNat
  | .c => regs.c.toNat
  | .d => regs.d.toNat
  | .e => regs.e.toNat
  | .h => regs.h.toNat
  | .l => regs.l.toNat
  | .zero => regs.flags.zero.toNat
  | .subtract => regs.flags.subtract.toNat
  | .halfCarry => regs.flags.halfCarry.toNat
  | .carry => regs.flags.carry.toNat
  | .sp => regs.sp.toNat
  | .halted => regs.halted.toNat
  | .stopped => regs.stopped.toNat

/-- The address in a pointer. -/
def pointer (regs : Registers) : Pointer → UInt16
  | .bc => regs.bc
  | .de => regs.de
  | .hlUp | .hlDown => regs.hl

/-- The addresses of a pushed word, in the order in which its bytes are written. -/
def stackTop (regs : Registers) : List UInt16 :=
  [regs.sp - 1, regs.sp - 2]

end Registers

/-- The cell of an operand. -/
def Operand.cells : Operand → List Cell
  | .b => [.b]
  | .c => [.c]
  | .d => [.d]
  | .e => [.e]
  | .h => [.h]
  | .l => [.l]
  | .atHL => []
  | .a => [.a]

/-- The address of an operand in memory. -/
def Operand.addresses (regs : Registers) : Operand → List UInt16
  | .atHL => [regs.hl]
  | _ => []

/-- The cells of a pair. -/
def Pair.cells : Pair → List Cell
  | .bc => [.b, .c]
  | .de => [.d, .e]
  | .hl => [.h, .l]
  | .sp => [.sp]

/-- The cells of a pair that is popped. -/
def StackPair.cells : StackPair → List Cell
  | .bc => [.b, .c]
  | .de => [.d, .e]
  | .hl => [.h, .l]
  | .af => .a :: Cell.flags

/-- The cells that following a pointer moves. -/
def Pointer.cells : Pointer → List Cell
  | .bc | .de => []
  | .hlUp | .hlDown => [.h, .l]

/-- HL after a pointer has been followed. -/
def Pointer.moved (hl : UInt16) : Pointer → UInt16
  | .bc | .de => hl
  | .hlUp => hl + 1
  | .hlDown => hl - 1

/-- The cell of the result of an operation. -/
def AluOp.cells : AluOp → List Cell
  | .cp => []
  | _ => [.a]

namespace Instruction

/-- The cells in which the instruction may leave results. -/
def destinations (instruction : Instruction) (taken : Bool) : List Cell :=
  match instruction with
  | .stop => [.stopped]
  | .halt => [.halted]
  | .loadPair pair | .incPair pair | .decPair pair => pair.cells
  | .storeA pointer => pointer.cells
  | .loadA pointer => .a :: pointer.cells
  | .addHL _ => [.h, .l, .subtract, .halfCarry, .carry]
  | .inc target | .dec target => target.cells ++ [.zero, .subtract, .halfCarry]
  | .loadByte target | .load target _ | .res _ target | .set _ target => target.cells
  | .rotateA _ => .a :: Cell.flags
  | .daa => [.a, .zero, .halfCarry, .carry]
  | .cpl => [.a, .subtract, .halfCarry]
  | .scf | .ccf => [.subtract, .halfCarry, .carry]
  | .alu op _ | .aluByte op => op.cells ++ Cell.flags
  | .call _ | .ret _ => if taken then [.sp] else []
  | .reti | .rst _ | .push _ | .loadSPHL => [.sp]
  | .pop pair => .sp :: pair.cells
  | .loadHigh | .loadHighC | .loadAt => [.a]
  | .addSP => .sp :: Cell.flags
  | .loadHLSP => .h :: .l :: Cell.flags
  | .shift _ target => target.cells ++ Cell.flags
  | .bit _ _ => [.zero, .subtract, .halfCarry]
  | .nop | .di | .ei | .storeSP | .jr _ | .jp _ | .jpHL | .storeHigh | .storeHighC | .storeAt
  | .escape | .illegal => []

/-- The addresses at which the instruction stores, given the registers that it finds. -/
def stores (instruction : Instruction) (regs : Registers) (immediate : UInt16) (taken : Bool) :
    List UInt16 :=
  match instruction with
  | .storeA pointer => [regs.pointer pointer]
  | .storeSP => [immediate, immediate + 1]
  | .inc target | .dec target | .loadByte target | .load target _ | .shift _ target | .res _ target
  | .set _ target => target.addresses regs
  | .call _ => if taken then regs.stackTop else []
  | .rst _ | .push _ => regs.stackTop
  | .storeHigh => [Exec.highPage (Word.low immediate)]
  | .storeHighC => [Exec.highPage regs.c]
  | .storeAt => [immediate]
  | _ => []

theorem stores_eq_nil {instruction : Instruction} (still : instruction.writes = 0)
    (regs : Registers) (immediate : UInt16) (taken : Bool) :
    instruction.stores regs immediate taken = [] := by
  cases instruction <;> first | rfl | cases still

end Instruction

theorem Registers.nodup_stackTop (regs : Registers) : regs.stackTop.Nodup := by
  have apart : regs.sp - 1 ≠ regs.sp - 2 := by grind
  simp [stackTop, apart]

theorem Operand.nodup_addresses (target : Operand) (regs : Registers) :
    (target.addresses regs).Nodup := by
  cases target <;> simp [addresses]

theorem Instruction.nodup_stores (instruction : Instruction) (regs : Registers)
    (immediate : UInt16) (taken : Bool) :
    (instruction.stores regs immediate taken).Nodup := by
  have apart : immediate ≠ immediate + 1 := by grind
  unfold stores
  split <;>
    first
    | exact Operand.nodup_addresses _ _
    | exact regs.nodup_stackTop
    | (split <;> first | exact regs.nodup_stackTop | exact List.nodup_nil)
    | simp [apart]

namespace Exec

variable {α β : Type}

/-! ## Cells -/

/-- The cell holds the number. -/
def Holds (cell : Cell) (number : Nat) (system : System β) : Prop :=
  system.cpu.regs.content cell = number

section Cells

variable {cell : Cell} {number : Nat}

theorem keeps_content {change : Registers → Registers}
    (same : ∀ regs, regs.content cell = number → (change regs).content cell = number) :
    Keeps (Holds (β := β) cell number) (modifyRegisters change) :=
  fun system holds => same system.cpu.regs holds

theorem content_access (action : Access β α) : Keeps (Holds cell number) (access action) := by
  intro system holds
  rw [Holds, cpu_final_access action system]
  exact holds

/-- What follows a look at the registers may count on what the cell holds. -/
theorem content_registers {next : Registers → Exec β α}
    (rest : ∀ regs, regs.content cell = number → Keeps (Holds cell number) (next regs)) :
    Keeps (Holds cell number) (registers >>= next) :=
  fun system holds => rest system.cpu.regs holds system holds

theorem content_setA (outside : cell ≠ .a) (value : UInt8) :
    Keeps (Holds (β := β) cell number) (setA value) := by
  refine keeps_content fun regs holds => ?_
  cases cell <;> first | exact holds | exact absurd rfl outside

theorem content_setFlags (outside : cell ∉ Cell.flags) (flags : Flags) :
    Keeps (Holds (β := β) cell number) (setFlags flags) := by
  refine keeps_content fun regs holds => ?_
  cases cell <;> first | exact holds | exact absurd (by decide) outside

theorem content_jump (target : UInt16) : Keeps (Holds (β := β) cell number) (jump target) := by
  refine keeps_content fun regs holds => ?_
  cases cell <;> exact holds

theorem content_setPair {pair : Pair} (outside : cell ∉ pair.cells) (regs : Registers)
    (word : UInt16) : (regs.setPair pair word).content cell = regs.content cell := by
  cases pair <;> cases cell <;> first | rfl | exact absurd (by decide) outside

theorem content_setStackPair {pair : StackPair} (outside : cell ∉ pair.cells) (regs : Registers)
    (word : UInt16) : (regs.setStackPair pair word).content cell = regs.content cell := by
  cases pair <;> cases cell <;> first | rfl | exact absurd (by decide) outside

/-- A comparison keeps A, and every other operation has A among its destinations. -/
theorem content_combine {op : AluOp} (outside : cell ∉ op.cells ++ Cell.flags) (regs : Registers)
    (value : UInt8) :
    { regs with
      a := (Alu.combine op regs.a value regs.flags).1
      flags := (Alu.combine op regs.a value regs.flags).2 }.content cell = regs.content cell := by
  cases op <;> cases cell <;> first | rfl | exact absurd (by decide) outside

theorem content_follow {pointer : Pointer} (outside : cell ∉ pointer.cells) :
    Keeps (Holds (β := β) cell number) (follow pointer) := by
  refine keeps_registers.bind fun regs => ?_
  cases pointer with
  | bc | de => exact .pure _
  | hlUp | hlDown =>
      refine Keeps.bind (keeps_content fun regs holds => ?_) fun _ => .pure _
      cases cell <;> first | exact holds | exact absurd (by decide) outside

variable [Bus β]

theorem content_push (outside : cell ≠ .sp) (word : UInt16) :
    Keeps (Holds (β := β) cell number) (push word) := by
  have lowers : Keeps (Holds (β := β) cell number)
      (modifyRegisters fun regs => { regs with sp := regs.sp - 1 }) := by
    refine keeps_content fun regs holds => ?_
    cases cell <;> first | exact holds | exact absurd rfl outside
  refine lowers.bind fun _ => keeps_registers.bind fun _ => (content_access _).bind fun _ => ?_
  exact lowers.bind fun _ => keeps_registers.bind fun _ => content_access _

theorem content_pop (outside : cell ≠ .sp) : Keeps (Holds (β := β) cell number) pop := by
  refine keeps_registers.bind fun _ => (content_access _).bind fun word => ?_
  refine Keeps.bind (keeps_content fun regs holds => ?_) fun _ => .pure word
  cases cell <;> first | exact holds | exact absurd rfl outside

theorem content_call (outside : cell ≠ .sp) (target : UInt16) :
    Keeps (Holds (β := β) cell number) (call target) :=
  keeps_registers.bind fun _ => (content_push outside _).bind fun _ => content_jump target

theorem content_ret (outside : cell ≠ .sp) : Keeps (Holds (β := β) cell number) ret :=
  (content_pop outside).bind fun word => content_jump word

theorem content_readOperand (source : Operand) :
    Keeps (Holds (β := β) cell number) (readOperand source) := by
  cases source with
  | atHL => exact keeps_registers.bind fun _ => content_access _
  | _ => exact keeps_registers.bind fun _ => .pure _

theorem content_writeOperand {target : Operand} (outside : cell ∉ target.cells) (value : UInt8) :
    Keeps (Holds (β := β) cell number) (writeOperand target value) := by
  cases target with
  | atHL => exact keeps_registers.bind fun _ => content_access _
  | _ =>
      rw [writeOperand]
      refine keeps_content fun regs holds => ?_
      cases cell <;> first | exact holds | exact absurd (by decide) outside

theorem content_halt (outside : cell ≠ .halted) : Keeps (Holds (β := β) cell number) halt := by
  refine (content_access _).bind fun enable => (content_access _).bind fun request => ?_
  intro system holds
  rw [final_of_ok (modifyCpu_apply _ _), Holds]
  split
  · exact holds
  · cases cell <;> first | exact holds | exact absurd rfl outside

/-- An instruction keeps what a cell holds that is not among its destinations. -/
theorem content_perform {instruction : Instruction} {taken : Bool}
    (outside : cell ∉ instruction.destinations taken) (slot start immediate : UInt16) :
    Keeps (Holds (β := β) cell number) (perform instruction slot start immediate taken) := by
  have other {first : Cell} (member : first ∈ instruction.destinations taken) : cell ≠ first :=
    fun same => outside (same ▸ member)
  cases instruction with
  | nop => exact .pure ()
  | halt => exact content_halt (other List.mem_cons_self)
  | di | ei =>
      intro system holds
      cases cell <;> exact holds
  | loadPair pair | incPair pair | decPair pair =>
      rw [perform]
      exact keeps_content fun regs holds => (content_setPair outside regs _).trans holds
  | storeA pointer =>
      exact (content_follow outside).bind fun _ => keeps_registers.bind fun _ => content_access _
  | loadA pointer =>
      have moves : cell ∉ pointer.cells := fun member => outside (List.mem_cons_of_mem _ member)
      exact (content_follow moves).bind fun _ => (content_access _).bind fun _ =>
        content_setA (other List.mem_cons_self) _
  | storeSP => exact keeps_registers.bind fun _ => content_access _
  | stop | addHL | rotateA | daa | cpl | scf | ccf | addSP | loadHLSP | loadSPHL =>
      rw [perform]
      rw [Instruction.destinations] at outside
      refine keeps_content fun regs holds => ?_
      cases cell <;> first | exact holds | exact absurd (by decide) outside
  | inc target | dec target =>
      obtain ⟨result, flags⟩ := not_or.mp fun member => outside (List.mem_append.mpr member)
      refine (content_readOperand target).bind fun value => content_registers fun regs holds => ?_
      refine Keeps.bind (keeps_content fun later same => ?_) fun _ => content_writeOperand result _
      -- the carry is the one read before, not the one that is replaced
      cases cell <;> first | exact same | exact holds | exact absurd (by decide) flags
  | loadByte target => exact content_writeOperand outside _
  | load target source =>
      exact (content_readOperand source).bind fun _ => content_writeOperand outside _
  | alu op source =>
      exact (content_readOperand source).bind fun value =>
        keeps_content fun regs holds => (content_combine outside regs value).trans holds
  | aluByte op =>
      rw [perform]
      exact keeps_content fun regs holds => (content_combine outside regs _).trans holds
  | jr condition | jp condition =>
      cases taken with
      | false => exact .pure ()
      | true =>
          rw [perform, if_pos rfl]
          refine keeps_content fun regs holds => ?_
          cases cell <;> exact holds
  | jpHL => exact keeps_registers.bind fun _ => content_jump _
  | call condition =>
      cases taken with
      | false => exact .pure ()
      | true => exact content_call (other List.mem_cons_self) immediate
  | ret condition =>
      cases taken with
      | false => exact .pure ()
      | true => exact content_ret (other List.mem_cons_self)
  | reti =>
      refine (content_ret (other List.mem_cons_self)).bind fun _ system holds => ?_
      cases cell <;> exact holds
  | rst target => exact content_call (other List.mem_cons_self) _
  | push pair => exact keeps_registers.bind fun _ => content_push (other List.mem_cons_self) _
  | pop pair =>
      have kept : cell ∉ pair.cells := fun member => outside (List.mem_cons_of_mem _ member)
      exact (content_pop (other List.mem_cons_self)).bind fun word =>
        keeps_content fun regs holds => (content_setStackPair kept regs word).trans holds
  | storeHigh | storeHighC | storeAt => exact keeps_registers.bind fun _ => content_access _
  | loadHigh | loadAt =>
      exact (content_access _).bind fun _ => content_setA (other List.mem_cons_self) _
  | loadHighC =>
      exact keeps_registers.bind fun _ => (content_access _).bind fun _ =>
        content_setA (other List.mem_cons_self) _
  | escape | illegal =>
      refine keeps_registers.bind fun _ => Keeps.bind (fun _ holds => holds) fun _ => ?_
      exact Keeps.bind (fun _ holds => holds) fun _ => .throw _
  | shift op target =>
      obtain ⟨result, flags⟩ := not_or.mp fun member => outside (List.mem_append.mpr member)
      exact (content_readOperand target).bind fun _ => keeps_registers.bind fun _ =>
        (content_setFlags flags _).bind fun _ => content_writeOperand result _
  | bit index source =>
      rw [Instruction.destinations] at outside
      refine (content_readOperand source).bind fun value => keeps_content fun regs holds => ?_
      cases cell <;> first | exact holds | exact absurd (by decide) outside
  | res index target | set index target =>
      exact (content_readOperand target).bind fun _ => content_writeOperand outside _

end Cells
end Exec

namespace Cpu

variable {β : Type}

theorem content_settleEI (cpu : Cpu) (cell : Cell) :
    cpu.settleEI.regs.content cell = cpu.regs.content cell := by
  obtain ⟨_, _, _, settled⟩ := cpu.settleEI_eq
  rw [settled]
  cases cell <;> rfl

theorem content_behind (system : System β) (length : Nat) (fetched : β) (cell : Cell) :
    (behind system length fetched).cpu.regs.content cell = system.cpu.regs.content cell := by
  cases cell <;> rfl

theorem stores_behind (instruction : Instruction) (system : System β) (length : Nat) (fetched : β)
    (immediate : UInt16) (taken : Bool) :
    instruction.stores (behind system length fetched).cpu.regs immediate taken =
      instruction.stores system.cpu.regs immediate taken := by
  cases instruction <;> rfl

end Cpu

/-! ## Stores -/

/-- What reads keep is kept by all actions that write nothing. -/
theorem Exec.law_still {β : Type} [Bus β] {property : β → Prop}
    (read : ∀ address, Keeps property (Bus.read address))
    (takeStall : ∀ bus, property bus → property (Bus.takeStall bus).2)
    (report : ∀ event bus, property bus → property (Bus.report event bus)) :
    StepLaw fun _ count (action : Exec β _) (_ : Exec β _) =>
      count = 0 → Keeps (fun system => property system.bus) action where
  pure _ _ := .pure _
  bind first rest none :=
    (first (Nat.eq_zero_of_add_eq_zero_left none)).bind fun value =>
      rest value (Nat.eq_zero_of_add_eq_zero_right none)
  mono fewer keeps none := keeps (Nat.eq_zero_of_le_zero (none ▸ fewer))
  registers _ := keeps_registers
  read address _ := keeps_access (read address)
  write _ _ some := absurd some Nat.one_ne_zero
  modify _ _ _ _ := keeps_modifyCpu _
  change _ _ := keeps_modifyCpu _
  throw _ _ := .throw _
  cpu _ := keeps_cpu
  takeStall _ _ holds := takeStall _ holds
  report event _ _ holds := report event _ holds

namespace Taped

variable {β : Type} [Bus β]

/-- The addresses of the writes on the tape. -/
def addresses (taped : Taped β) : List UInt16 :=
  taped.writes.map Stored.address

theorem keeps_addresses_read (tape : List UInt16) (address : UInt16) :
    Keeps (fun taped : Taped β => taped.addresses = tape) (Bus.read address) := by
  intro taped holds
  rw [final, read_apply]
  cases Bus.read address taped.bus <;> exact holds

theorem law_addresses (tape : List UInt16) :
    Exec.StepLaw fun _ count (action : Exec (Taped β) _) (_ : Exec (Taped β) _) =>
      count = 0 → Keeps (fun system => system.bus.addresses = tape) action :=
  Exec.law_still (keeps_addresses_read tape) (fun _ holds => holds) fun _ _ holds => holds

theorem addresses_write {taped after : Taped β} {address : UInt16} {value : UInt8}
    (ran : Bus.write address value taped = .ok () after) :
    after.addresses = taped.addresses ++ [address] := by
  rw [write_apply] at ran
  cases wrote : Bus.write address value taped.bus with
  | error error bus => simp [wrote] at ran
  | ok _ bus =>
      rw [wrote] at ran
      cases ran
      simp [addresses]

theorem addresses_writeWord {taped after : Taped β} {address word : UInt16}
    (ran : Bus.writeWord address word taped = .ok () after) :
    after.addresses = taped.addresses ++ [address, address + 1] := by
  obtain ⟨_, between, low, high⟩ := bind_ok.mp ran
  rw [addresses_write high, addresses_write low, List.append_assoc]
  rfl

end Taped

namespace Exec

open Taped

variable {β : Type}

theorem follow_ok {pointer : Pointer} {address : UInt16} {before after : System β}
    (ran : follow pointer before = .ok address after) :
    address = before.cpu.regs.pointer pointer ∧ after.bus = before.bus ∧
      after.cpu.regs.hl = pointer.moved before.cpu.regs.hl := by
  cases pointer with
  | bc | de =>
      cases ran
      exact ⟨rfl, rfl, rfl⟩
  | hlUp | hlDown =>
      cases ran
      exact ⟨rfl, rfl, Word.ofBytes_high_low _⟩

variable [Bus β]

theorem readOperand_ok {source : Operand} {value : UInt8} {before after : System β}
    (ran : readOperand source before = .ok value after) : after.cpu = before.cpu := by
  cases source with
  | atHL => exact (access_ok.mp ran).2
  | _ =>
      cases ran
      rfl

variable {before after : System (Taped β)}

theorem addresses_access_write {address : UInt16} {value : UInt8}
    (ran : write address value before = .ok () after) :
    after.bus.addresses = before.bus.addresses ++ [address] :=
  addresses_write (access_ok.mp ran).1

theorem addresses_readOperand {source : Operand} {value : UInt8}
    (ran : readOperand source before = .ok value after) :
    after.bus.addresses = before.bus.addresses :=
  ((law_addresses _).readOperand source rfl).of_ok rfl ran

theorem addresses_push {word : UInt16} (ran : push word before = .ok () after) :
    after.bus.addresses = before.bus.addresses ++ before.cpu.regs.stackTop := by
  obtain ⟨between, high, low, _⟩ := Cpu.push_ok ran
  rw [addresses_write low, addresses_write high, List.append_assoc]
  rfl

theorem addresses_call {target : UInt16} (ran : call target before = .ok () after) :
    after.bus.addresses = before.bus.addresses ++ before.cpu.regs.stackTop := by
  rw [call, bind_of_ok (registers_apply before)] at ran
  obtain ⟨_, pushed, pushes, jumps⟩ := bind_ok.mp ran
  have stored := addresses_push pushes
  cases jumps
  exact stored

theorem addresses_writeOperand {target : Operand} {value : UInt8}
    (ran : writeOperand target value before = .ok () after) :
    after.bus.addresses = before.bus.addresses ++ target.addresses before.cpu.regs := by
  cases target with
  | atHL => exact addresses_access_write ran
  | _ =>
      cases ran
      exact (List.append_nil _).symm

/-- An operand that has been read is written where it was found, with the flags replaced or not. -/
theorem addresses_update {target source : Operand} {value result : UInt8}
    {between : System (Taped β)} (reads : readOperand source before = .ok value between)
    (ran : writeOperand target result between = .ok () after ∨ ∃ flags,
      (setFlags flags >>= fun _ => writeOperand target result) between = .ok () after) :
    after.bus.addresses = before.bus.addresses ++ target.addresses before.cpu.regs := by
  rw [← readOperand_ok reads, ← addresses_readOperand reads]
  rcases ran with ran | ⟨flags, ran⟩
  · exact addresses_writeOperand ran
  · rw [setFlags, bind_of_ok (modifyRegisters_apply _ _)] at ran
    have stored := addresses_writeOperand ran
    cases target <;> exact stored

/-- An instruction stores exactly at its addresses. -/
theorem addresses_perform {instruction : Instruction} {slot start immediate : UInt16}
    {taken : Bool} (ran : perform instruction slot start immediate taken before = .ok () after) :
    after.bus.addresses =
      before.bus.addresses ++ instruction.stores before.cpu.regs immediate taken := by
  by_cases still : instruction.writes = 0
  · rw [Instruction.stores_eq_nil still, List.append_nil]
    exact ((law_addresses _).perform instruction slot start immediate taken still).of_ok rfl ran
  cases instruction with
  | storeA pointer =>
      obtain ⟨address, moved, follows, rest⟩ := bind_ok.mp ran
      obtain ⟨rfl, same, _⟩ := follow_ok follows
      rw [bind_of_ok (registers_apply moved)] at rest
      rw [addresses_access_write rest, same]
      rfl
  | storeSP =>
      rw [perform, bind_of_ok (registers_apply before)] at ran
      exact addresses_writeWord (access_ok.mp ran).1
  | inc target | dec target | shift op target =>
      obtain ⟨value, between, reads, rest⟩ := bind_ok.mp ran
      exact addresses_update reads (.inr ⟨_, rest⟩)
  | loadByte target => exact addresses_writeOperand ran
  | load target source | res index target | set index target =>
      obtain ⟨value, between, reads, rest⟩ := bind_ok.mp ran
      exact addresses_update reads (.inl rest)
  | call condition =>
      cases taken with
      | false =>
          cases ran
          exact (List.append_nil _).symm
      | true => exact addresses_call ran
  | rst target => exact addresses_call ran
  | push pair =>
      rw [perform, bind_of_ok (registers_apply before)] at ran
      exact addresses_push ran
  | storeHigh | storeHighC | storeAt =>
      rw [perform, bind_of_ok (registers_apply before)] at ran
      exact addresses_access_write ran
  | _ => exact absurd rfl still

end Exec

namespace Cpu

open Exec Taped

variable {β : Type} [Bus β] {before after : System (Taped β)} {quantum : Quantum}

/-- An executed instruction stores at its addresses, found from the registers before it. -/
theorem addresses_execute (ran : execute before = .ok quantum after) :
    ∃ slot immediate taken cost stall, quantum = .execution slot cost stall ∧
      after.bus.addresses = before.bus.addresses ++
        (Instruction.ofSlot slot).stores before.cpu.regs immediate taken := by
  obtain ⟨_, slot, immediate, fetched, stream, acts⟩ := execute_ok ran
  obtain ⟨_, same⟩ := behind_of_encoding stream
  have read : fetched.bus.addresses = before.bus.addresses :=
    ((law_addresses _).fetchRun ((law_addresses _).change _) _ rfl).of_ok rfl stream
  obtain ⟨acted, performed, rfl, rfl⟩ := conclude_ok acts
  have stored := addresses_perform performed
  rw [read, same, stores_behind] at stored
  exact ⟨slot, immediate, _, _, _, rfl, stored⟩

theorem addresses_dispatch {line : Interrupt} {request : UInt8}
    (ran : dispatch line request before = .ok () after) :
    after.bus.addresses =
      before.bus.addresses ++ before.cpu.regs.stackTop ++ [Interrupt.requestAddress] := by
  obtain ⟨first, second, third, high, low, clears, rfl⟩ := dispatch_ok ran
  change third.addresses = _
  rw [addresses_write clears, addresses_write low, addresses_write high]
  simp [Registers.stackTop]

/-- A step stores at the addresses of its instruction, or below the stack pointer and at the request
register to serve an interrupt. -/
theorem addresses_step (ran : step before = .ok quantum after) :
    (quantum = .idle ∧ after.bus.addresses = before.bus.addresses) ∨
      (∃ line, quantum = .interrupt line ∧ after.bus.addresses =
        before.bus.addresses ++ before.cpu.regs.stackTop ++ [Interrupt.requestAddress]) ∨
      ∃ slot immediate taken cost stall, quantum = .execution slot cost stall ∧
        after.bus.addresses = before.bus.addresses ++
          (Instruction.ofSlot slot).stores before.cpu.regs immediate taken := by
  rcases step_after_reading (keeps_addresses_read before.bus.addresses) rfl ran with
    ⟨rfl, _, _, kept⟩ | ⟨line, request, bus, rfl, _, kept, dispatched⟩ | ⟨bus, kept, executed⟩
  · exact .inl ⟨rfl, kept⟩
  · have stored := addresses_dispatch dispatched
    rw [kept] at stored
    exact .inr (.inl ⟨line, rfl, stored⟩)
  · obtain ⟨slot, immediate, taken, cost, stall, rfl, stored⟩ := addresses_execute executed
    have unmoved : (Instruction.ofSlot slot).stores before.cpu.rouse.regs immediate taken =
        (Instruction.ofSlot slot).stores before.cpu.regs immediate taken := by
      cases Instruction.ofSlot slot <;> rfl
    rw [kept, unmoved] at stored
    exact .inr (.inr ⟨slot, immediate, taken, cost, stall, rfl, stored⟩)

/-- No step writes twice to an address other than the request register. -/
theorem count_addresses_step (ran : step before = .ok quantum after) {address : UInt16}
    (other : address ≠ Interrupt.requestAddress) :
    after.bus.addresses.count address ≤ before.bus.addresses.count address + 1 := by
  rcases addresses_step ran with ⟨_, stored⟩ | ⟨_, _, stored⟩ |
    ⟨slot, immediate, taken, _, _, _, stored⟩
  · rw [stored]
    exact Nat.le_succ _
  · have once := List.nodup_iff_count_le_one.mp before.cpu.regs.nodup_stackTop address
    have unserved : [Interrupt.requestAddress].count address = 0 :=
      List.count_eq_zero.mpr fun member => other (List.mem_singleton.mp member)
    rw [stored, List.count_append, List.count_append, unserved, Nat.add_zero]
    exact Nat.add_le_add_left once _
  · have once := List.nodup_iff_count_le_one.mp
      ((Instruction.ofSlot slot).nodup_stores before.cpu.regs immediate taken) address
    rw [stored, List.count_append]
    exact Nat.add_le_add_left once _

end Cpu
end GameBoy
