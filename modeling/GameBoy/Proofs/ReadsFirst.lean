import GameBoy.Proofs.FlatMemory

/-!
# Reads before writes

An instruction reads everything that it needs before it writes anything.  On flat memory of which
any addresses may refuse to be read or written, a read that is refused therefore ends an instruction
before it has had an effect: the processor has fetched some bytes, and at most moved HL along with a
pointer.  A write that is refused ends one before memory has changed, unless the first byte of a
word has been stored.
-/

namespace GameBoy

open Effect

/-- The access is a read, refused or not. -/
def AccessRecord.isRead : AccessRecord → Bool
  | .read .. | .readRefused _ => true
  | .write .. | .writeRefused _ => false

namespace FlatBus

/-! ## What accesses leave behind -/

/-- Since the start the bus has been read, if anything. -/
structure Looked (start bus : FlatBus) : Prop where
  accesses : ∃ reads : List AccessRecord,
    bus.accesses.toList = start.accesses.toList ++ reads ∧ ∀ access ∈ reads, access.isRead = true
  memory : bus.memory = start.memory

/-- Since the start the bus has been written, if anything, and that at the addresses. -/
structure WroteOnly (start : FlatBus) (addresses : List UInt16) (bus : FlatBus) : Prop where
  accesses : ∃ writes : List AccessRecord,
    bus.accesses.toList = start.accesses.toList ++ writes ∧
      ∀ access ∈ writes, access.isRead = false
  memory : ∀ address ∉ addresses, bus.peek address = start.peek address

/-- Since the start the bus has been read first and written after that. -/
def Orderly (start bus : FlatBus) : Prop :=
  ∃ reads writes : List AccessRecord,
    bus.accesses.toList = start.accesses.toList ++ reads ++ writes ∧
      (∀ access ∈ reads, access.isRead = true) ∧ ∀ access ∈ writes, access.isRead = false

variable {start between bus : FlatBus} {first second addresses : List UInt16}

theorem Looked.refl (start : FlatBus) : Looked start start :=
  ⟨⟨[], by simp, by simp⟩, rfl⟩

theorem Looked.trans (early : Looked start between) (late : Looked between bus) :
    Looked start bus := by
  obtain ⟨reads, grown, reading⟩ := early.accesses
  obtain ⟨more, grownToo, readingToo⟩ := late.accesses
  refine ⟨⟨reads ++ more, ?_, fun access member => ?_⟩, late.memory.trans early.memory⟩
  · rw [grownToo, grown, List.append_assoc]
  · exact (List.mem_append.mp member).elim (reading access) (readingToo access)

theorem Looked.peek (looked : Looked start bus) (address : UInt16) :
    bus.peek address = start.peek address := by
  rw [FlatBus.peek, looked.memory, FlatBus.peek]

theorem WroteOnly.refl (start : FlatBus) : WroteOnly start [] start :=
  ⟨⟨[], by simp, by simp⟩, fun _ _ => rfl⟩

theorem WroteOnly.trans (early : WroteOnly start first between)
    (late : WroteOnly between second bus) : WroteOnly start (first ++ second) bus := by
  obtain ⟨writes, grown, writing⟩ := early.accesses
  obtain ⟨more, grownToo, writingToo⟩ := late.accesses
  refine ⟨⟨writes ++ more, ?_, fun access member => ?_⟩, fun address outside => ?_⟩
  · rw [grownToo, grown, List.append_assoc]
  · exact (List.mem_append.mp member).elim (writing access) (writingToo access)
  · obtain ⟨notEarly, notLate⟩ := not_or.mp fun member => outside (List.mem_append.mpr member)
    rw [late.memory address notLate, early.memory address notEarly]

theorem Looked.orderly (looked : Looked start between) (stored : WroteOnly between addresses bus) :
    Orderly start bus := by
  obtain ⟨reads, grown, reading⟩ := looked.accesses
  obtain ⟨writes, grownToo, writing⟩ := stored.accesses
  exact ⟨reads, writes, by rw [grownToo, grown], reading, writing⟩

/-- Reading may come before what is orderly. -/
theorem Looked.trans_orderly (early : Looked start between) (late : Orderly between bus) :
    Orderly start bus := by
  obtain ⟨reads, grown, reading⟩ := early.accesses
  obtain ⟨more, writes, grownToo, readingToo, writing⟩ := late
  refine ⟨reads ++ more, writes, ?_, fun access member => ?_, writing⟩
  · rw [grownToo, grown, List.append_assoc start.accesses.toList]
  · exact (List.mem_append.mp member).elim (reading access) (readingToo access)

theorem looked_read (address : UInt16) (bus : FlatBus) :
    Looked bus (final (Bus.read address) bus) := by
  change Looked bus (final (FlatBus.read address) bus)
  cases refused : bus.refusesRead address with
  | true =>
      have noted : final (FlatBus.read address) bus = bus.note (.readRefused address) := by
        simp [final, read, refused]
      rw [noted]
      exact ⟨⟨[.readRefused address], by simp [note], by simp [AccessRecord.isRead]⟩, rfl⟩
  | false =>
      have noted : final (FlatBus.read address) bus =
          bus.note (.read address (bus.peek address)) := by
        simp [final, read, refused]
      rw [noted]
      exact ⟨⟨[.read address (bus.peek address)], by simp [note], by simp [AccessRecord.isRead]⟩,
        rfl⟩

theorem read_error {after : FlatBus} {address : UInt16} {error : MemoryError}
    (ran : Bus.read address bus = .error error after) : error = .vramDmaRead address := by
  change FlatBus.read address bus = _ at ran
  rw [read] at ran
  split at ran
  · cases ran
    rfl
  · cases ran

theorem wroteOnly_write {after : FlatBus} {address : UInt16} {value : UInt8}
    (ran : Bus.write address value bus = .ok () after) : WroteOnly bus [address] after := by
  refine ⟨?_, (wrote_write ran).memory⟩
  change FlatBus.write address value bus = _ at ran
  rw [write] at ran
  split at ran
  · cases ran
  · cases ran
    exact ⟨[.write address value], by simp [note, poke], by simp [AccessRecord.isRead]⟩

theorem write_error {after : FlatBus} {address : UInt16} {value : UInt8} {error : MemoryError}
    (ran : Bus.write address value bus = .error error after) :
    error = .unusable address value ∧ WroteOnly bus [] after := by
  change FlatBus.write address value bus = _ at ran
  rw [write] at ran
  split at ran
  · cases ran
    exact ⟨rfl, ⟨[.writeRefused address], by simp [note], by simp [AccessRecord.isRead]⟩,
      fun _ _ => rfl⟩
  · cases ran

end FlatBus

namespace Exec

open FlatBus

variable {α γ : Type}

/-! ## Actions that only read -/

/-- Whatever comes of the action, it has only read and has changed the processor in the given way.
It fails only where a read is refused. -/
structure Senses (moved : Cpu → Cpu) (action : Exec FlatBus α) : Prop where
  cpu : ∀ system, (final action system).cpu = moved system.cpu
  bus : ∀ system : System FlatBus, system.bus.Looked (final action system).bus
  fails : ∀ system fault after, action system = .error fault after →
    ∃ address, fault = .memory (.vramDmaRead address)

namespace Senses

theorem pure (value : α) : Senses id (pure value : Exec FlatBus α) where
  cpu _ := rfl
  bus _ := .refl _
  fails _ _ _ failed := nomatch failed

theorem read (address : UInt16) : Senses id (read address : Exec FlatBus UInt8) where
  cpu system := cpu_final_access _ system
  bus system := by
    have looked := looked_read address system.bus
    rw [final] at looked ⊢
    rw [Exec.read, access_apply]
    cases ran : Bus.read address system.bus <;> rw [ran] at looked <;> exact looked
  fails system fault after failed := by
    rw [Exec.read, access_apply] at failed
    cases ran : Bus.read address system.bus with
    | ok value bus => simp [ran] at failed
    | error error bus =>
        rw [ran] at failed
        cases failed
        exact ⟨address, congrArg Fault.memory (read_error ran)⟩

/-- What comes after a change of the processor may read. -/
theorem after {moved : Cpu → Cpu} {first : Exec FlatBus α} {next : α → Exec FlatBus γ}
    (leads : ∀ system, ∃ value, first system = .ok value ⟨moved system.cpu, system.bus⟩)
    (rest : ∀ value, Senses id (next value)) : Senses moved (first >>= next) where
  cpu system := by
    obtain ⟨value, ran⟩ := leads system
    rw [final, bind_of_ok ran]
    exact (rest value).cpu _
  bus system := by
    obtain ⟨value, ran⟩ := leads system
    rw [final, bind_of_ok ran]
    exact (rest value).bus ⟨moved system.cpu, system.bus⟩
  fails system fault after failed := by
    obtain ⟨value, ran⟩ := leads system
    rw [bind_of_ok ran] at failed
    exact (rest value).fails _ fault after failed

theorem bind {action : Exec FlatBus α} {next : α → Exec FlatBus γ} (first : Senses id action)
    (rest : ∀ value, Senses id (next value)) : Senses id (action >>= next) where
  cpu system := by
    have begun := first.cpu system
    cases ran : action system with
    | ok value between =>
        rw [final_of_ok ran] at begun
        rw [final, bind_of_ok ran]
        exact ((rest value).cpu between).trans begun
    | error fault between =>
        rw [final_of_error ran] at begun
        rw [final, bind_of_error ran]
        exact begun
  bus system := by
    have begun := first.bus system
    cases ran : action system with
    | ok value between =>
        rw [final_of_ok ran] at begun
        rw [final, bind_of_ok ran]
        exact begun.trans ((rest value).bus between)
    | error fault between =>
        rw [final_of_error ran] at begun
        rw [final, bind_of_error ran]
        exact begun
  fails system fault after failed := by
    rcases bind_error.mp failed with early | ⟨value, between, _, late⟩
    · exact first.fails system fault after early
    · exact (rest value).fails between fault after late

theorem registers_bind {next : Registers → Exec FlatBus α}
    (rest : ∀ regs, Senses id (next regs)) : Senses id (registers >>= next) :=
  after (fun system => ⟨system.cpu.regs, rfl⟩) rest

theorem readOperand (source : Operand) : Senses id (readOperand source : Exec FlatBus UInt8) := by
  cases source with
  | atHL => exact registers_bind fun regs => read regs.hl
  | _ => exact registers_bind fun _ => pure _

theorem readWord (address : UInt16) :
    Senses id (access (Bus.readWord address) : Exec FlatBus UInt16) := by
  rw [Bus.readWord, access_bind]
  refine (read address).bind fun low => ?_
  rw [access_bind]
  exact (read (address + 1)).bind fun high => pure _

/-- Read the word on top of the stack. -/
theorem top : Senses id (registers >>= fun regs => access (Bus.readWord regs.sp) :
    Exec FlatBus UInt16) :=
  registers_bind fun regs => readWord regs.sp

theorem poll : Senses id (poll : Exec FlatBus (UInt8 × UInt8)) :=
  (read _).bind fun _ => (read _).bind fun _ => pure _

end Senses

/-! ## Actions that only write -/

/-- The action only writes, at the addresses if it succeeds.  It fails only where a write is
refused, and has then written at the addresses before that one. -/
structure StoresAt (addresses : List UInt16) (action : Exec FlatBus α) (system : System FlatBus) :
    Prop where
  stores : ∀ value after, action system = .ok value after →
    system.bus.WroteOnly addresses after.bus
  fails : ∀ fault after, action system = .error fault after → ∃ done address value rest,
    addresses = done ++ address :: rest ∧ fault = .memory (.unusable address value) ∧
      system.bus.WroteOnly done after.bus

namespace StoresAt

variable {system : System FlatBus} {addresses : List UInt16}

theorem modifyCpu (change : Cpu → Cpu) (system : System FlatBus) :
    StoresAt [] (modifyCpu change) system where
  stores _ _ ran := by
    cases ran
    exact .refl _
  fails _ _ failed := nomatch failed

theorem pure (value : α) (system : System FlatBus) :
    StoresAt [] (pure value : Exec FlatBus α) system where
  stores _ _ ran := by
    cases ran
    exact .refl _
  fails _ _ failed := nomatch failed

theorem modifyRegisters (change : Registers → Registers) (system : System FlatBus) :
    StoresAt [] (modifyRegisters change) system := by
  rw [Exec.modifyRegisters]
  exact modifyCpu _ system

theorem jump (target : UInt16) (system : System FlatBus) :
    StoresAt [] (jump target) system := by
  rw [Exec.jump]
  exact modifyRegisters _ system

theorem registers_bind {next : Registers → Exec FlatBus α}
    (rest : StoresAt addresses (next system.cpu.regs) system) :
    StoresAt addresses (registers >>= next) system := by
  have begins := bind_of_ok (registers_apply system) next
  exact ⟨fun value after ran => rest.stores value after (begins.symm.trans ran),
    fun fault after failed => rest.fails fault after (begins.symm.trans failed)⟩

theorem modifyCpu_bind {change : Cpu → Cpu} {next : Unit → Exec FlatBus α}
    (rest : StoresAt addresses (next ()) ⟨change system.cpu, system.bus⟩) :
    StoresAt addresses (Exec.modifyCpu change >>= next) system := by
  have begins := bind_of_ok (modifyCpu_apply change system) next
  exact ⟨fun value after ran => rest.stores value after (begins.symm.trans ran),
    fun fault after failed => rest.fails fault after (begins.symm.trans failed)⟩

theorem write (address : UInt16) (value : UInt8) (system : System FlatBus) :
    StoresAt [address] (write address value) system where
  stores _ after ran := wroteOnly_write (access_ok.mp ran).1
  fails fault after failed := by
    rw [Exec.write, access_apply] at failed
    cases ran : Bus.write address value system.bus with
    | ok _ bus => simp [ran] at failed
    | error error bus =>
        rw [ran] at failed
        cases failed
        obtain ⟨rfl, wrote⟩ := write_error ran
        exact ⟨[], address, value, [], rfl, rfl, wrote⟩

theorem bind {more : List UInt16} {action : Exec FlatBus α} {next : α → Exec FlatBus γ}
    (first : StoresAt addresses action system)
    (rest : ∀ value after, action system = .ok value after → StoresAt more (next value) after) :
    StoresAt (addresses ++ more) (action >>= next) system where
  stores last after ran := by
    obtain ⟨value, between, begun, ended⟩ := bind_ok.mp ran
    have early := first.stores value between begun
    exact early.trans ((rest value between begun).stores last after ended)
  fails fault after failed := by
    rcases bind_error.mp failed with early | ⟨value, between, begun, late⟩
    · obtain ⟨done, address, value, others, split, error, wrote⟩ := first.fails fault after early
      refine ⟨done, address, value, others ++ more, ?_, error, wrote⟩
      rw [split, List.append_assoc, List.cons_append]
    · obtain ⟨done, address, word, others, split, error, wrote⟩ :=
        (rest value between begun).fails fault after late
      refine ⟨addresses ++ done, address, word, others, ?_, error,
        (first.stores value between begun).trans wrote⟩
      rw [split, List.append_assoc]

/-- After a write the processor is as it was. -/
theorem write_bind {address : UInt16} {value : UInt8} {next : Unit → Exec FlatBus α}
    (rest : ∀ bus, StoresAt addresses (next ()) ⟨system.cpu, bus⟩) :
    StoresAt (address :: addresses) (Exec.write address value >>= next) system := by
  refine (write address value system).bind fun _ after ran => ?_
  have later := rest after.bus
  rwa [← (access_ok.mp ran).2] at later

theorem push (word : UInt16) (system : System FlatBus) :
    StoresAt system.cpu.regs.stackTop (push word) system := by
  have below : system.cpu.regs.sp - 2 = system.cpu.regs.sp - 1 - 1 := by grind
  rw [Registers.stackTop, below]
  refine modifyCpu_bind (registers_bind (write_bind fun bus => ?_))
  exact modifyCpu_bind (registers_bind (write _ _ _))

theorem writeWord (address word : UInt16) (system : System FlatBus) :
    StoresAt [address, address + 1] (access (Bus.writeWord address word)) system := by
  rw [Bus.writeWord, access_bind]
  exact write_bind fun bus => write _ _ _

theorem writeOperand (target : Operand) (value : UInt8) (system : System FlatBus) :
    StoresAt (target.addresses system.cpu.regs) (writeOperand target value) system := by
  cases target with
  | atHL => exact registers_bind (write _ _ _)
  | _ =>
      rw [Exec.writeOperand]
      exact modifyRegisters _ _

/-- The flags may be set before an operand is written. -/
theorem setFlags_bind (flags : Flags) (target : Operand) (value : UInt8)
    (system : System FlatBus) :
    StoresAt (target.addresses system.cpu.regs)
      (setFlags flags >>= fun _ => Exec.writeOperand target value) system := by
  have unmoved : target.addresses { system.cpu.regs with flags } =
      target.addresses system.cpu.regs := by
    cases target <;> rfl
  have writes := writeOperand target value
    ⟨{ system.cpu with regs := { system.cpu.regs with flags } }, system.bus⟩
  rw [setFlags, Exec.modifyRegisters, ← unmoved]
  exact modifyCpu_bind writes

theorem follow_bind (pointer : Pointer) (system : System FlatBus) :
    StoresAt [system.cpu.regs.pointer pointer]
      (follow pointer >>= fun address => registers >>= fun regs => Exec.write address regs.a)
      system := by
  have moves : StoresAt [] (follow pointer) system := by
    cases pointer with
    | bc | de => exact registers_bind (pure _ _)
    | hlUp | hlDown => exact registers_bind (modifyCpu_bind (pure _ _))
  refine moves.bind fun address after ran => registers_bind ?_
  rw [← (follow_ok ran).1]
  exact write address _ after

theorem call (target : UInt16) (system : System FlatBus) :
    StoresAt system.cpu.regs.stackTop (call target) system := by
  refine registers_bind ?_
  rw [← List.append_nil system.cpu.regs.stackTop]
  exact (push system.cpu.regs.pc system).bind fun _ after _ => jump target after

end StoresAt

/-! ## Instructions -/

/-- The action first only reads, which changes the processor in the given way, and then only writes,
at addresses that depend on the registers. -/
def Splits (moved : Cpu → Cpu) (addresses : Registers → List UInt16) (action : Exec FlatBus Unit) :
    Prop :=
  ∃ (α : Type) (sense : Exec FlatBus α) (act : α → Exec FlatBus Unit),
    action = sense >>= act ∧ Senses moved sense ∧
      ∀ value system, StoresAt (addresses system.cpu.regs) (act value) system

namespace Splits

variable {moved : Cpu → Cpu} {addresses : Registers → List UInt16} {action : Exec FlatBus Unit}

/-- An action that reads nothing. -/
theorem of_stores (stores : ∀ system, StoresAt (addresses system.cpu.regs) action system) :
    Splits id addresses action :=
  ⟨Unit, pure (), fun _ => action, (pure_bind () fun _ => action).symm, .pure (),
    fun _ system => stores system⟩

/-- An action that changes the processor only. -/
theorem of_modifyCpu (change : Cpu → Cpu) : Splits id (fun _ => []) (modifyCpu change) :=
  of_stores fun system => .modifyCpu change system

/-- An action that changes the processor as something read says. -/
theorem of_senses {sense : Exec FlatBus α} (senses : Senses moved sense) (change : α → Cpu → Cpu) :
    Splits moved (fun _ => []) (sense >>= fun value => modifyCpu (change value)) :=
  ⟨α, sense, _, rfl, senses, fun value system => .modifyCpu (change value) system⟩

/-- An action that pops a word and then stays within the processor. -/
theorem of_pop {next : UInt16 → Exec FlatBus Unit}
    (still : ∀ word system, StoresAt [] (next word) system) :
    Splits id (fun _ => []) (pop >>= next) := by
  refine ⟨UInt16, registers >>= fun regs => access (Bus.readWord regs.sp), fun word =>
    modifyRegisters (fun regs => { regs with sp := regs.sp + 2 }) >>= fun _ => next word, ?_,
    .top, fun word system => ?_⟩
  · simp only [pop, bind_assoc, pure_bind]
  · exact (StoresAt.modifyRegisters _ system).bind fun _ after _ => still word after

/-- An action that loads A with what it has read. -/
theorem of_load {sense : Exec FlatBus UInt8} (senses : Senses moved sense) :
    Splits moved (fun _ => []) (sense >>= setA) :=
  ⟨UInt8, sense, setA, rfl, senses, fun _ system => .modifyRegisters _ system⟩

variable {system after : System FlatBus} {fault : Fault}

theorem orderly (splits : Splits moved addresses action) (system : System FlatBus) :
    system.bus.Orderly (final action system).bus := by
  obtain ⟨α, sense, act, chain, senses, stores⟩ := splits
  have looked := senses.bus system
  rw [chain]
  cases sensed : sense system with
  | error fault between =>
      rw [final_of_error sensed] at looked
      rw [final, bind_of_error sensed]
      exact looked.orderly (.refl _)
  | ok value between =>
      rw [final_of_ok sensed] at looked
      rw [final, bind_of_ok sensed]
      cases acted : act value between with
      | ok _ after => exact looked.orderly ((stores value between).stores _ after acted)
      | error fault after =>
          obtain ⟨_, _, _, _, _, _, wrote⟩ := (stores value between).fails fault after acted
          exact looked.orderly wrote

/-- Such an action fails while it still reads or while it already writes. -/
theorem fails (splits : Splits moved addresses action)
    (failed : action system = .error fault after) :
    (∃ address, fault = .memory (.vramDmaRead address) ∧ after.cpu = moved system.cpu ∧
      system.bus.Looked after.bus) ∨
    ∃ done address value rest,
      addresses (moved system.cpu).regs = done ++ address :: rest ∧
        fault = .memory (.unusable address value) ∧
        ∀ other ∉ done, after.bus.peek other = system.bus.peek other := by
  obtain ⟨α, sense, act, rfl, senses, stores⟩ := splits
  have looked := senses.bus system
  have changed := senses.cpu system
  rcases bind_error.mp failed with early | ⟨value, between, sensed, late⟩
  · rw [final_of_error early] at looked changed
    obtain ⟨address, error⟩ := senses.fails system fault after early
    exact .inl ⟨address, error, changed, looked⟩
  · rw [final_of_ok sensed] at looked changed
    obtain ⟨done, address, word, rest, split, error, wrote⟩ :=
      (stores value between).fails fault after late
    refine .inr ⟨done, address, word, rest, changed ▸ split, error, fun other outside => ?_⟩
    rw [wrote.memory other outside, looked.peek]

end Splits
end Exec

/-- How an instruction moves HL when it follows a pointer to read. -/
def Instruction.follows (instruction : Instruction) (cpu : Cpu) : Cpu :=
  match instruction with
  | .loadA .hlUp => { cpu with regs := cpu.regs.setHL (cpu.regs.hl + 1) }
  | .loadA .hlDown => { cpu with regs := cpu.regs.setHL (cpu.regs.hl - 1) }
  | _ => cpu

namespace Exec

open FlatBus

theorem senses_follow (pointer : Pointer) :
    Senses (Instruction.loadA pointer).follows (follow pointer >>= read : Exec FlatBus UInt8) := by
  refine .after (fun system => ?_) fun address => .read address
  cases pointer <;> exact ⟨_, rfl⟩

/-- Every legal instruction first only reads and then only writes. -/
theorem splits_perform {instruction : Instruction} (legal : instruction.isIllegal = false)
    (slot start immediate : UInt16) (taken : Bool) :
    Splits instruction.follows (fun regs => instruction.stores regs immediate taken)
      (perform instruction slot start immediate taken) := by
  cases instruction with
  | escape | illegal => cases legal
  | nop => exact .of_stores fun system => .pure () system
  | di | ei =>
      rw [perform]
      exact .of_modifyCpu _
  | stop | loadPair | incPair | decPair | addHL | rotateA | daa | cpl | scf | ccf | aluByte
  | addSP | loadHLSP | loadSPHL =>
      rw [perform, modifyRegisters]
      exact .of_modifyCpu _
  | halt =>
      rw [perform, halt_eq_poll]
      exact .of_senses .poll _
  | loadA pointer =>
      rw [perform, ← bind_assoc]
      exact .of_load (senses_follow pointer)
  | alu _ source | bit _ source => exact .of_senses (.readOperand source) _
  | loadHigh | loadAt => exact .of_load (.read _)
  | loadHighC =>
      rw [perform, ← bind_assoc]
      exact .of_load (.registers_bind fun regs => .read _)
  | pop pair => exact .of_pop fun word system => .modifyRegisters _ system
  | reti =>
      rw [perform, ret, bind_assoc]
      exact .of_pop fun word system =>
        (StoresAt.jump word system).bind fun _ after _ => .modifyCpu _ after
  | ret condition =>
      cases taken with
      | false => exact .of_stores fun system => .pure () system
      | true => exact .of_pop StoresAt.jump
  | jr condition =>
      cases taken with
      | false => exact .of_stores fun system => .pure () system
      | true =>
          rw [perform, if_pos rfl]
          exact .of_stores fun system => .modifyRegisters _ system
  | jp condition =>
      cases taken with
      | false => exact .of_stores fun system => .pure () system
      | true => exact .of_stores fun system => .jump _ system
  | jpHL => exact .of_stores fun system => .registers_bind (.jump _ system)
  | storeA pointer => exact .of_stores fun system => .follow_bind pointer system
  | storeSP => exact .of_stores fun system => .registers_bind (.writeWord _ _ _)
  | storeHigh | storeHighC | storeAt =>
      exact .of_stores fun system => .registers_bind (.write _ _ _)
  | push pair => exact .of_stores fun system => .registers_bind (.push _ system)
  | rst target => exact .of_stores fun system => .call _ system
  | call condition =>
      cases taken with
      | false => exact .of_stores fun system => .pure () system
      | true => exact .of_stores fun system => .call _ system
  | loadByte target => exact .of_stores fun system => .writeOperand target _ system
  | load target source =>
      exact ⟨_, readOperand source, _, rfl, .readOperand source,
        fun value system => .writeOperand target value system⟩
  | res _ target | set _ target =>
      exact ⟨_, readOperand target, _, rfl, .readOperand target,
        fun value system => .writeOperand target _ system⟩
  | inc target | dec target | shift _ target =>
      exact ⟨_, readOperand target, _, rfl, .readOperand target,
        fun value system => .registers_bind (.setFlags_bind _ target _ system)⟩

/-! ## Fetching -/

theorem fetch_refused {system after : System FlatBus} {fault : Fault}
    (failed : fetch system = .error fault after) :
    (∃ address, fault = .memory (.vramDmaRead address)) ∧ after.cpu = system.cpu := by
  rw [fetch_apply] at failed
  cases read : Bus.read system.cpu.regs.pc system.bus with
  | ok value bus => simp [read] at failed
  | error error bus =>
      rw [read] at failed
      cases failed
      exact ⟨⟨_, congrArg Fault.memory (read_error read)⟩, rfl⟩

/-- Whatever writes nothing at most reads. -/
theorem law_looked (start : FlatBus) :
    StepLaw fun _ count (action : Exec FlatBus _) (_ : Exec FlatBus _) =>
      count = 0 → Keeps (fun system => start.Looked system.bus) action :=
  law_still (fun address bus looked => looked.trans (looked_read address bus))
    (fun _ looked => ⟨looked.accesses, looked.memory⟩)
    fun _ _ looked => ⟨looked.accesses, looked.memory⟩

/-- An instruction reads before it writes, and nothing at all if it is illegal. -/
theorem orderly_perform (instruction : Instruction) (slot start immediate : UInt16) (taken : Bool)
    (system : System FlatBus) :
    system.bus.Orderly (final (perform instruction slot start immediate taken) system).bus := by
  cases legal : instruction.isIllegal with
  | false => exact (splits_perform legal slot start immediate taken).orderly system
  | true =>
      have silent : instruction.writes = 0 := by
        cases instruction with
        | escape | illegal => rfl
        | _ => cases legal
      have looked := (law_looked system.bus).perform instruction slot start immediate taken silent
      exact (looked system (.refl _)).orderly (.refl _)

end Exec

theorem Instruction.stores_follows (instruction : Instruction) (cpu : Cpu) (immediate : UInt16)
    (taken : Bool) :
    instruction.stores (instruction.follows cpu).regs immediate taken =
      instruction.stores cpu.regs immediate taken := by
  unfold follows
  split <;> rfl

theorem Instruction.stores_fetched (instruction : Instruction) (cpu : Cpu) (count : Nat)
    (immediate : UInt16) (taken : Bool) :
    instruction.stores (cpu.fetched count).regs immediate taken =
      instruction.stores cpu.regs immediate taken := by
  cases instruction <;> rfl

theorem Instruction.length_stores_le (instruction : Instruction) (regs : Registers)
    (immediate : UInt16) (taken : Bool) :
    (instruction.stores regs immediate taken).length ≤ instruction.writes := by
  have operand (target : Operand) : (target.addresses regs).length ≤ 1 := by
    cases target <;> simp [Operand.addresses]
  cases instruction <;>
    first | exact operand _ | (cases taken <;> simp [stores, writes, Registers.stackTop])

namespace Cpu

open Exec FlatBus

/-! ## Executing -/

/-- The fetch of an instruction or a read that it makes has been refused.  Nothing has been written,
and the processor is as fetching has left it, but for HL if the instruction has followed a
pointer. -/
structure StoppedReading (system : System FlatBus) (fault : Fault) (after : System FlatBus) :
    Prop where
  bus : system.bus.Looked after.bus
  cpu : ∃ values between, fetchRun values.length system = .ok values between ∧
    (fetch between = .error fault after ∧ after.cpu = system.cpu.fetched values.length ∨
      ∃ slot immediate, values = Instruction.encoding slot immediate ∧
        after.cpu = (Instruction.ofSlot slot).follows (system.cpu.fetched values.length))

/-- A write that an instruction makes has been refused, the first or the second of its writes.  In
memory nothing has changed but the byte written before. -/
def StoppedWriting (system : System FlatBus) (address : UInt16) (after : System FlatBus) : Prop :=
  ∃ slot immediate between,
    fetchRun (Instruction.encoding slot immediate).length system =
      .ok (Instruction.encoding slot immediate) between ∧
    let instruction := Instruction.ofSlot slot
    let stores := instruction.stores system.cpu.regs immediate
      (instruction.taken system.cpu.regs.flags)
    (stores.head? = some address ∧ ∀ other, after.bus.peek other = system.bus.peek other) ∨
      ∃ first, instruction.writes = 2 ∧ stores = [first, address] ∧
        ∀ other ≠ first, after.bus.peek other = system.bus.peek other

variable {system after : System FlatBus} {fault : Fault}

theorem looked_fetchRun {values : List UInt8} {fetched : System FlatBus}
    (ran : fetchRun values.length system = .ok values fetched) :
    system.bus.Looked fetched.bus := by
  have law := law_looked system.bus
  exact (law.fetchRun (law.change _) _ rfl).of_ok (.refl _) ran

/-- A fetch that is refused ends the instruction. -/
theorem stoppedReading_of_stops (stops : StopsFetching system fault after) :
    (∃ address, fault = .memory (.vramDmaRead address)) ∧ StoppedReading system fault after := by
  obtain ⟨values, between, begun, failed⟩ := stops
  have law := law_looked system.bus
  have looked := (law.fetch (law.change _) rfl).of_error (looked_fetchRun begun) failed
  obtain ⟨refused, same⟩ := fetch_refused failed
  exact ⟨refused, looked, values, between, begun,
    .inl ⟨failed, same.trans (cpu_of_fetchRun begun)⟩⟩

/-- What has been fetched fails to act because it is illegal, or because an access is refused. -/
theorem stopped_of_perform {slot immediate : UInt16} {fetched : System FlatBus}
    (begun : fetchRun (Instruction.encoding slot immediate).length system =
      .ok (Instruction.encoding slot immediate) fetched)
    (failed : perform (Instruction.ofSlot slot) slot system.cpu.regs.pc immediate
      ((Instruction.ofSlot slot).taken fetched.cpu.regs.flags) fetched = .error fault after) :
    (∃ error, fault = .decode error) ∨
      (∃ address, fault = .memory (.vramDmaRead address) ∧ StoppedReading system fault after) ∨
      ∃ address value, fault = .memory (.unusable address value) ∧
        StoppedWriting system address after := by
  have arrived := cpu_of_fetchRun begun
  have looked := looked_fetchRun begun
  cases legal : (Instruction.ofSlot slot).isIllegal with
  | true =>
      refine .inl ?_
      cases instruction : Instruction.ofSlot slot with
      | escape | illegal =>
          rw [instruction] at failed
          cases failed
          exact ⟨_, rfl⟩
      | _ => simp [instruction, Instruction.isIllegal] at legal
  | false =>
      refine .inr ?_
      rcases (splits_perform legal _ _ _ _).fails failed with
        ⟨address, error, changed, read⟩ | ⟨done, address, value, rest, split, error, kept⟩
      · rw [arrived] at changed
        exact .inl ⟨address, error, looked.trans read, _, fetched, begun,
          .inr ⟨slot, immediate, rfl, changed⟩⟩
      · refine .inr ⟨address, value, error, slot, immediate, fetched, begun, ?_⟩
        rw [Instruction.stores_follows, arrived, Instruction.stores_fetched] at split
        change (Instruction.ofSlot slot).stores system.cpu.regs immediate
          ((Instruction.ofSlot slot).taken system.cpu.regs.flags) = _ at split
        replace kept (other : UInt16) (outside : other ∉ done) :
            after.bus.peek other = system.bus.peek other :=
          (kept other outside).trans (looked.peek other)
        cases done with
        | nil => exact .inl ⟨congrArg List.head? split, fun other => kept other List.not_mem_nil⟩
        | cons first more =>
            -- no instruction writes more than two bytes
            have few := (Instruction.ofSlot slot).length_stores_le system.cpu.regs immediate
              ((Instruction.ofSlot slot).taken system.cpu.regs.flags)
            have two := (Instruction.ofSlot slot).writes_le_two
            rw [split, List.length_append, List.length_cons, List.length_cons] at few
            obtain rfl : more = [] := List.length_eq_zero_iff.mp (by omega)
            obtain rfl : rest = [] := List.length_eq_zero_iff.mp (by omega)
            refine .inr ⟨first, by omega, split, fun other apart => kept other ?_⟩
            rwa [List.mem_singleton]

/-- Whatever memory refuses, an execution makes all its reads before its first write.  If it fails,
the processor hangs, or a read has been refused, and then nothing has been written and the processor
is as fetching has left it, but for HL if that was to move along; or a write has been refused, and
then memory has not changed, but for the first byte of an instruction that stores two. -/
theorem reads_precede_writes (system : System FlatBus) :
    system.bus.Orderly (final execute system).bus ∧
    ∀ fault after, execute system = .error fault after →
      (∃ error, fault = .decode error) ∨
      (∃ address, fault = .memory (.vramDmaRead address) ∧ StoppedReading system fault after) ∨
      ∃ address value, fault = .memory (.unusable address value) ∧
        StoppedWriting system address after := by
  constructor
  · cases ran : execute system with
    | ok quantum after =>
        rw [final_of_ok ran]
        obtain ⟨_, slot, immediate, fetched, begun, concluded⟩ := execute_ok ran
        obtain ⟨acted, performed, rfl, _⟩ := conclude_ok concluded
        exact (looked_fetchRun begun).trans_orderly (final_of_ok performed ▸ orderly_perform ..)
    | error fault after =>
        rw [final_of_error ran]
        rcases execute_error ran with
          ⟨_, _, rfl⟩ | stops | ⟨slot, immediate, fetched, begun, failed⟩
        · exact Looked.orderly (.refl _) (.refl _)
        · exact (stoppedReading_of_stops stops).2.bus.orderly (.refl _)
        · exact (looked_fetchRun begun).trans_orderly (final_of_error failed ▸ orderly_perform ..)
  · intro fault after failed
    rcases execute_error failed with
      ⟨error, decode, _⟩ | stops | ⟨slot, immediate, fetched, begun, acts⟩
    · exact .inl ⟨error, decode⟩
    · obtain ⟨⟨address, refused⟩, stopped⟩ := stoppedReading_of_stops stops
      exact .inr (.inl ⟨address, refused, stopped⟩)
    · exact stopped_of_perform begun acts

/-- A processor in a memory that holds `opcode` everywhere and refuses all accesses to one
address. -/
def refusing (opcode : UInt8) (address : UInt16) : System FlatBus :=
  ⟨{ regs := { b := 0x12, c := 0x34, h := 0x80, sp := 0x0002, pc := 0x0010 } },
    { memory := Bank.filled opcode, refusesRead := (· == address), refusesWrite := (· == address) }⟩

/-- LD A,(HL+) cannot read its byte but has moved HL; PUSH BC cannot write C but has written B. -/
theorem reads_precede_writes_refusing :
    (∃ fault after, execute (refusing 0x2A 0x8000) = .error fault after ∧
      StoppedReading (refusing 0x2A 0x8000) fault after ∧ after.cpu.regs.hl = 0x8001) ∧
    ∃ fault after, execute (refusing 0xC5 0x0000) = .error fault after ∧
      StoppedWriting (refusing 0xC5 0x0000) 0x0000 after ∧ after.bus.peek 0x0001 = 0x12 := by
  constructor
  · have failed : execute (refusing 0x2A 0x8000) =
        .error (.memory (.vramDmaRead 0x8000)) (final execute (refusing 0x2A 0x8000)) := rfl
    refine ⟨_, _, failed, ?_, rfl⟩
    rcases (reads_precede_writes _).2 _ _ failed with ⟨_, ⟨⟩⟩ | ⟨_, _, stopped⟩ | ⟨_, _, ⟨⟩, _⟩
    exact stopped
  · have failed : execute (refusing 0xC5 0x0000) =
        .error (.memory (.unusable 0x0000 0x34)) (final execute (refusing 0xC5 0x0000)) := rfl
    refine ⟨_, _, failed, ?_, rfl⟩
    rcases (reads_precede_writes _).2 _ _ failed with ⟨_, ⟨⟩⟩ | ⟨_, ⟨⟩, _⟩ | ⟨_, _, same, stopped⟩
    cases same
    exact stopped

end Cpu
end GameBoy
