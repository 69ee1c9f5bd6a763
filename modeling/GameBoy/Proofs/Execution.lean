import GameBoy.Proofs.Opcodes
import GameBoy.Proofs.Run
import GameBoy.Proofs.Schedule

/-!
# Executing an instruction

On a bus that refuses nothing an instruction is read from consecutive addresses and carried out.  It
goes on behind its last byte unless it branches.  How many bytes it has, where it leads and what it
costs is what the opcode table says of its slot.
-/

namespace GameBoy

open Effect

/-- Buses on which no access is refused and none stalls the processor, and which an access turns
into such buses. -/
structure Bus.Calm {β : Type} [Bus β] (calm : β → Prop) : Prop where
  read : ∀ address, Succeeds calm (Bus.read address)
  write : ∀ address value, Succeeds calm (Bus.write address value)
  unstalled : ∀ bus, calm bus → (Bus.takeStall bus).1 = 0

namespace Instruction

theorem cost_le (instruction : Instruction) (taken : Bool) : instruction.cost taken ≤ 24 := by
  cases instruction <;> simp only [cost, operandCost] <;> (repeat' split) <;> decide

end Instruction

/-- A line is pending just if one of the five bits is both enabled and requested. -/
theorem Interrupt.isSome_highestPriority (enable request : UInt8) :
    (highestPriority enable request).isSome = (enable &&& request &&& 0x1F != 0) := by
  rw [highestPriority, pending]
  exact forall_byte (enable &&& request) (by decide +kernel)

namespace Exec

variable {β : Type}

/-! ## Success -/

theorem succeeds_access {α : Type} {calm : β → Prop} {action : Access β α}
    (succeeds : Succeeds calm action) :
    Succeeds (fun system : System β => calm system.bus) (access action) := by
  intro system holds
  obtain ⟨value, after, ran, holds⟩ := succeeds system.bus holds
  exact ⟨value, ⟨system.cpu, after⟩, access_ok.mpr ⟨ran, rfl⟩, holds⟩

theorem succeeds_modifyCpu {calm : β → Prop} (change : Cpu → Cpu) :
    Succeeds (fun system : System β => calm system.bus) (modifyCpu change) :=
  fun _ holds => ⟨_, _, rfl, holds⟩

variable [Bus β]

/-- Where every access succeeds, so does every action of the processor that does not lock it. -/
theorem law_succeeds {calm : β → Prop} (read : ∀ address, Succeeds calm (Bus.read address))
    (write : ∀ address value, Succeeds calm (Bus.write address value)) :
    Law fun _ _ (action : Exec β _) (_ : Exec β _) =>
      Succeeds (fun system : System β => calm system.bus) action where
  pure value system holds := ⟨value, system, rfl, holds⟩
  bind := .bind
  mono _ succeeds := succeeds
  registers system holds := ⟨_, system, rfl, holds⟩
  read address := succeeds_access (read address)
  write address value := succeeds_access (write address value)
  modify _ _ _ := succeeds_modifyCpu _

/-! ## Where an instruction goes on -/

/-- The word has been pushed, its high byte first. -/
def Pushed (word : UInt16) (before after : System β) : Prop :=
  ∃ middle,
    Bus.write (before.cpu.regs.sp - 1) (Word.high word) before.bus = .ok () middle ∧
    Bus.write (before.cpu.regs.sp - 2) (Word.low word) middle = .ok () after.bus ∧
    after.cpu.regs.sp = before.cpu.regs.sp - 2

/-- PC has been popped. -/
def Popped (before after : System β) : Prop :=
  Bus.readWord before.cpu.regs.sp before.bus = .ok after.cpu.regs.pc after.bus ∧
    after.cpu.regs.sp = before.cpu.regs.sp + 2

/-- Where an instruction of the course goes on that began to act with PC behind it and goes ahead or
not, and what it has put on the stack to return there. -/
def Leads (course : Course) (immediate : UInt16) (goes : Bool) (before after : System β) : Prop :=
  let next := before.cpu.regs.pc
  match course, goes with
  | .relative, true => after.cpu.regs.pc = next + Slot.displacement immediate.toUInt8
  | .absolute, true => after.cpu.regs.pc = immediate
  | .pointed, true => after.cpu.regs.pc = before.cpu.regs.hl
  | .call, true => after.cpu.regs.pc = immediate ∧ Pushed next before after
  | .restart target, true => after.cpu.regs.pc = target ∧ Pushed next before after
  | .back, true => Popped before after
  | _, _ => after.cpu.regs.pc = next

theorem law_pc (pc : UInt16) :
    Law fun _ _ (action : Exec β _) (_ : Exec β _) =>
      Keeps (fun system : System β => system.cpu.regs.pc = pc) action where
  pure := .pure
  bind := .bind
  mono _ keeps := keeps
  registers := keeps_registers
  read _ system holds := (congrArg (·.regs.pc) (cpu_final_access _ system)).trans holds
  write _ _ system holds := (congrArg (·.regs.pc) (cpu_final_access _ system)).trans holds
  modify _ _ same system holds := (same system.cpu.regs).trans holds

theorem pc_of_perform {instruction : Instruction} (legal : instruction.isIllegal = false)
    (straight : instruction.branches = false) {slot start immediate : UInt16} {taken : Bool}
    {before after : System β}
    (ran : perform instruction slot start immediate taken before = .ok () after) :
    after.cpu.regs.pc = before.cpu.regs.pc := by
  have keeps := (law_pc (β := β) before.cpu.regs.pc).perform legal
    (fun branch => absurd (straight.symm.trans branch) Bool.false_ne_true)
    (fun _ _ same system holds => (same system.cpu).trans holds) slot start immediate taken
  exact keeps.of_ok rfl ran

theorem call_ok {target : UInt16} {before after : System β}
    (ran : call target before = .ok () after) :
    after.cpu.regs.pc = target ∧ Pushed before.cpu.regs.pc before after := by
  rw [call, bind_of_ok (registers_apply before)] at ran
  obtain ⟨_, pushed, pushes, rest⟩ := bind_ok.mp ran
  obtain ⟨middle, high, low, lowered⟩ := Cpu.push_ok pushes
  cases rest
  refine ⟨rfl, middle, high, low, ?_⟩
  rw [lowered]
  rfl

theorem ret_ok {before after : System β} (ran : ret before = .ok () after) :
    Popped before after := by
  obtain ⟨word, popped, pops, rest⟩ := bind_ok.mp ran
  rw [pop, bind_of_ok (registers_apply before)] at pops
  obtain ⟨value, between, reads, raised⟩ := bind_ok.mp pops
  obtain ⟨found, same⟩ := access_ok.mp reads
  cases raised
  cases rest
  refine ⟨found, ?_⟩
  rw [same]

theorem leads_of_perform {instruction : Instruction} (legal : instruction.isIllegal = false)
    {slot start immediate : UInt16} {flags : Flags} {before after : System β}
    (ran : perform instruction slot start immediate (instruction.taken flags) before =
      .ok () after) :
    Leads instruction.course immediate (instruction.taken flags) before after := by
  cases straight : instruction.branches with
  | false =>
      have same := pc_of_perform legal straight ran
      cases instruction <;> first | exact same | cases straight
  | true =>
      cases instruction with
      | jpHL =>
          cases ran
          rfl
      | rst target => exact call_ok ran
      | reti =>
          obtain ⟨_, _, returned, rest⟩ := bind_ok.mp ran
          have popped := ret_ok returned
          cases rest
          exact popped
      | jr condition =>
          generalize (Instruction.jr condition).taken flags = taken at ran ⊢
          cases taken with
          | false =>
              cases ran
              rfl
          | true =>
              cases ran
              exact congrArg (before.cpu.regs.pc + ·) (Slot.ofSigned_eq_displacement _)
      | jp condition =>
          generalize (Instruction.jp condition).taken flags = taken at ran ⊢
          cases taken <;> (cases ran; rfl)
      | call condition =>
          generalize (Instruction.call condition).taken flags = taken at ran ⊢
          cases taken with
          | false =>
              cases ran
              rfl
          | true => exact call_ok ran
      | ret condition =>
          generalize (Instruction.ret condition).taken flags = taken at ran ⊢
          cases taken with
          | false =>
              cases ran
              rfl
          | true => exact ret_ok ran
      | _ => cases straight

/-- A HALT sets the halt bug if it finds an interrupt pending that it may not take. -/
theorem haltBug_of_halt {before after : System β} (ran : halt before = .ok () after) :
    ∃ enable second request,
      Bus.read 0xFFFF before.bus = .ok enable second ∧
      Bus.read 0xFF0F second = .ok request after.bus ∧
      after.cpu.haltBug = (before.cpu.haltBug ||
        !before.cpu.regs.ime && enable &&& request &&& 0x1F != 0) := by
  obtain ⟨enable, between, first, rest⟩ := bind_ok.mp ran
  obtain ⟨request, polled, second, rest⟩ := bind_ok.mp rest
  obtain ⟨enables, same⟩ := access_ok.mp first
  obtain ⟨requests, kept⟩ := access_ok.mp second
  rw [modifyCpu_apply, kept, same] at rest
  cases rest
  refine ⟨enable, between.bus, request, enables, requests, ?_⟩
  rw [← Interrupt.isSome_highestPriority]
  split <;> simp_all

end Exec

namespace Cpu

open Exec

variable {β : Type} [Bus β]

/-- Settling an EI touches nothing but what EI is about. -/
theorem settleEI_eq (cpu : Cpu) : ∃ ime eiPending eiDelay,
    cpu.settleEI = { cpu with regs := { cpu.regs with ime }, eiPending, eiDelay } := by
  rw [settleEI]
  split
  · exact ⟨true, _, false, rfl⟩
  · split
    · exact ⟨_, false, true, rfl⟩
    · exact ⟨_, _, _, rfl⟩

theorem haltBug_settleEI (cpu : Cpu) : cpu.settleEI.haltBug = cpu.haltBug := by
  obtain ⟨_, _, _, settled⟩ := cpu.settleEI_eq
  rw [settled]

theorem leads_settleEI {course : Course} {immediate : UInt16} {goes : Bool} {before : System β}
    {cpu : Cpu} {bus : β} (leads : Leads course immediate goes before ⟨cpu, bus⟩) :
    Leads course immediate goes before ⟨cpu.settleEI, bus⟩ := by
  obtain ⟨_, _, _, settled⟩ := cpu.settleEI_eq
  rw [settled]
  exact leads

theorem advance_eq_skip (cpu : Cpu) :
    cpu.advance = { cpu with haltBug := false }.skip (if cpu.haltBug then 0 else 1) := by
  cases armed : cpu.haltBug with
  | true => simp [advance, armed]
  | false => simp [advance, armed, skip]

theorem execute_of_fetched {system opened fetched : System β} {slot immediate : UInt16}
    (unlocked : system.cpu.locked = none) (opcode : fetchSlot system = .ok slot opened)
    (operand :
      fetchImmediate (Instruction.ofSlot slot).immediate opened = .ok immediate fetched) :
    execute system = conclude slot system.cpu.regs.pc immediate fetched := by
  rw [execute_eq_conclude, bind_of_ok (requireUnlocked_of_unlocked unlocked),
    bind_of_ok (registers_apply system), bind_of_ok opcode, bind_of_ok operand]

theorem conclude_of_perform {slot start immediate : UInt16} {system acted : System β}
    (ran : perform (Instruction.ofSlot slot) slot start immediate
      ((Instruction.ofSlot slot).taken system.cpu.regs.flags) system = .ok () acted) :
    conclude slot start immediate system =
      .ok (.execution slot
          ((Instruction.ofSlot slot).cost ((Instruction.ofSlot slot).taken system.cpu.regs.flags))
          (Bus.takeStall acted.bus).1)
        ⟨acted.cpu.settleEI, (Bus.takeStall acted.bus).2⟩ := by
  rw [conclude, bind_of_ok (registers_apply system), bind_of_ok ran,
    bind_of_ok (modifyCpu_apply _ _)]
  rfl

theorem haltBug_of_perform {instruction : Instruction} {slot start immediate : UInt16}
    {taken : Bool} {before after : System β} (other : instruction ≠ .halt)
    (ran : perform instruction slot start immediate taken before = .ok () after) :
    after.cpu.haltBug = before.cpu.haltBug := by
  obtain ⟨waits, _, steered⟩ := control_perform ran
  have steady : (instruction.steer waits before.cpu.control).haltBug = before.cpu.haltBug := by
    cases instruction <;> first | rfl | exact absurd rfl other
  exact (congrArg Control.haltBug steered).trans steady

/-- The bytes are read, the first of them at PC and the others from the next address on, or from PC
again with the halt bug. -/
def Reads (system : System β) (bytes : List UInt8) (fetched : β) : Prop :=
  let moved := if system.cpu.haltBug then 0 else 1
  ∃ first rest second,
    bytes = first :: rest ∧
    Bus.read system.cpu.regs.pc system.bus = .ok first second ∧
    Bus.readRun (system.cpu.regs.pc + UInt16.ofNat moved) rest.length second = .ok rest fetched

/-- The system once an instruction of a number of bytes has been read. -/
def behind (system : System β) (length : Nat) (fetched : β) : System β :=
  let moved := if system.cpu.haltBug then 0 else 1
  ⟨{ system.cpu with haltBug := false }.skip (moved + (length - 1)), fetched⟩

/-- The instruction of a slot has acted on `before`, which left the bus `acted` before its stall
cycles were collected.  It goes on where it leads, and the halt bug is there again only if it is a
HALT that found an interrupt pending with the master enable clear. -/
structure Acts (slot immediate : UInt16) (goes : Bool) (before : System β) (acted : β)
    (after : System β) : Prop where
  leads : Leads (Slot.course slot) immediate goes before ⟨after.cpu, acted⟩
  collects : after.bus = (Bus.takeStall acted).2
  clears : slot ≠ 0x76 → after.cpu.haltBug = false
  sets : slot = 0x76 → ∃ enable second request,
    Bus.read 0xFFFF before.bus = .ok enable second ∧
    Bus.read 0xFF0F second = .ok request acted ∧
    after.cpu.haltBug = (!before.cpu.regs.ime && enable &&& request &&& 0x1F != 0)

theorem behind_of_encoding {slot immediate : UInt16} {system fetched : System β}
    (stream : fetchRun (Instruction.encoding slot immediate).length system =
      .ok (Instruction.encoding slot immediate) fetched) :
    Reads system (Instruction.encoding slot immediate) fetched.bus ∧
      fetched = behind system (Instruction.encoding slot immediate).length fetched.bus := by
  obtain ⟨first, rest, split⟩ :=
    List.exists_cons_of_length_pos (Instruction.encoding_length_pos slot immediate)
  rw [split, List.length_cons] at stream
  obtain ⟨_, _, second, same, begun, consecutive, skipped⟩ := readRun_of_fetchRun_succ stream
  cases same
  rw [advance_eq_skip] at consecutive skipped
  rw [skip_skip] at skipped
  refine ⟨⟨first, rest, second, split, begun, consecutive⟩, ?_⟩
  rw [behind, split, List.length_cons, Nat.add_sub_cancel, ← skipped]

/-- What has been fetched as a slot and its immediate are the bytes of the slot. -/
theorem reads_of_fetched {slot immediate : UInt16} {system opened fetched : System β}
    (opcode : fetchSlot system = .ok slot opened)
    (operand :
      fetchImmediate (Instruction.ofSlot slot).immediate opened = .ok immediate fetched) :
    Reads system (Slot.bytes slot immediate) fetched.bus ∧
      fetched = behind system (Slot.length slot) fetched.bus := by
  have inside := (valid_of_fetchSlot opcode).1
  have stream := behind_of_encoding (fetchRun_encoding opcode operand)
  rwa [Slot.encoding_eq_bytes inside, Slot.length_bytes inside] at stream

/-- The memory at PC determines the slot that is read and as much of the immediate as it has. -/
theorem Reads.unique {system : System β} {slot other immediate word : UInt16} {fetched left : β}
    (valid : Slot.Valid slot) (reads : Reads system (Slot.bytes slot immediate) fetched)
    (rival : Slot.Valid other) (again : Reads system (Slot.bytes other word) left) :
    other = slot ∧ left = fetched ∧ Slot.bytes slot word = Slot.bytes slot immediate := by
  obtain ⟨first, rest, second, split, begun, consecutive⟩ := reads
  obtain ⟨_, others, _, parted, restarted, onward⟩ := again
  rw [begun] at restarted
  cases restarted
  have same : other = slot := by
    rcases Slot.split_bytes valid split with ⟨plain, rfl⟩ | ⟨rfl, low, rfl, rfl⟩ <;>
      rcases Slot.split_bytes rival parted with ⟨direct, rfl⟩ | ⟨escape, high, rfl, rfl⟩
    · rfl
    · exact absurd escape plain
    · exact absurd rfl direct
    · rw [List.length_singleton] at onward consecutive
      rw [onward] at consecutive
      cases consecutive
      rfl
  subst same
  have lengths := (Slot.length_bytes valid.1 immediate).trans (Slot.length_bytes valid.1 word).symm
  rw [split, parted, List.length_cons, List.length_cons, Nat.add_right_cancel_iff] at lengths
  rw [← lengths, consecutive] at onward
  cases onward
  exact ⟨rfl, rfl, parted.trans split.symm⟩

/-- Only the bytes that an instruction has decide where it leads. -/
theorem leads_congr {instruction : Instruction} {immediate word : UInt16} {goes : Bool}
    {before after : System β}
    (same : Instruction.immediateBytes instruction.immediate word =
      Instruction.immediateBytes instruction.immediate immediate)
    (leads : Leads instruction.course word goes before after) :
    Leads instruction.course immediate goes before after := by
  cases instruction with
  | jr condition =>
      have low : Word.low word = Word.low immediate := List.head_eq_of_cons_eq same
      cases goes with
      | false => exact leads
      | true => exact leads.trans (congrArg (before.cpu.regs.pc + Slot.displacement ·) low)
  | jp condition | call condition =>
      rw [← Instruction.eq_of_immediateBytes same]
      exact leads
  | _ => cases goes <;> exact leads

theorem legal_of_perform {instruction : Instruction} {slot start immediate : UInt16} {taken : Bool}
    {before after : System β}
    (ran : perform instruction slot start immediate taken before = .ok () after) :
    instruction.isIllegal = false := by
  cases instruction with
  | escape | illegal => cases ran
  | _ => rfl

theorem acts_of_perform {slot start immediate : UInt16} {flags : Flags} {before acted : System β}
    (inside : slot < 0x200) (clear : before.cpu.haltBug = false)
    (ran : perform (Instruction.ofSlot slot) slot start immediate
      ((Instruction.ofSlot slot).taken flags) before = .ok () acted) :
    Acts slot immediate (Slot.goesAhead slot flags) before acted.bus
      ⟨acted.cpu.settleEI, (Bus.takeStall acted.bus).2⟩ where
  leads := by
    have leads := leads_of_perform (legal_of_perform ran) ran
    rw [Slot.course_ofSlot inside, Slot.taken_ofSlot inside] at leads
    exact leads_settleEI leads
  collects := rfl
  clears other := by
    have moves := mt (Slot.ofSlot_eq_halt_iff inside).mp other
    rw [haltBug_settleEI, haltBug_of_perform moves ran, clear]
  sets halts := by
    rw [(Slot.ofSlot_eq_halt_iff inside).mpr halts] at ran
    obtain ⟨enable, second, request, enables, requests, set⟩ := haltBug_of_halt ran
    rw [clear, Bool.false_or] at set
    exact ⟨enable, second, request, enables, requests, (haltBug_settleEI _).trans set⟩

theorem Acts.congr {slot immediate word : UInt16} {goes : Bool} {before after : System β}
    {acted : β} (inside : slot < 0x200) (same : Slot.bytes slot word = Slot.bytes slot immediate)
    (acts : Acts slot word goes before acted after) :
    Acts slot immediate goes before acted after where
  leads := by
    have leads := acts.leads
    rw [← Slot.course_ofSlot inside] at leads ⊢
    exact leads_congr (Slot.immediateBytes_of_bytes inside same) leads
  collects := acts.collects
  clears := acts.clears
  sets := acts.sets

/-- Where every access succeeds, the bytes at PC are those of a slot.  If it holds an instruction,
this acts with PC behind them, and the execution takes the cycles of the slot beside those of a
stall. -/
theorem execute_of_succeeds {property : β → Prop}
    (read : ∀ address, Succeeds property (Bus.read address))
    (write : ∀ address value, Succeeds property (Bus.write address value)) {system : System β}
    (unlocked : system.cpu.locked = none) (holds : property system.bus) :
    ∃ slot immediate fetched, Slot.Valid slot ∧ Reads system (Slot.bytes slot immediate) fetched ∧
      (Slot.Legal slot →
        let goes := Slot.goesAhead slot system.cpu.regs.flags
        ∃ acted, property acted.bus ∧
          perform (Instruction.ofSlot slot) slot system.cpu.regs.pc immediate
              ((Instruction.ofSlot slot).taken system.cpu.regs.flags)
              (behind system (Slot.length slot) fetched) = .ok () acted ∧
          execute system =
            .ok (.execution slot (Slot.cost slot goes) (Bus.takeStall acted.bus).1)
              ⟨acted.cpu.settleEI, (Bus.takeStall acted.bus).2⟩) := by
  have law := law_succeeds read write
  obtain ⟨slot, opened, opcode, holds⟩ := law.fetchSlot (succeeds_modifyCpu _) system holds
  obtain ⟨immediate, ⟨cpu, fetched⟩, operand, holds⟩ :=
    law.fetchImmediate (succeeds_modifyCpu _) _ opened holds
  have valid := valid_of_fetchSlot opcode
  obtain ⟨reads, same⟩ := reads_of_fetched opcode operand
  have executes := execute_of_fetched unlocked opcode operand
  cases same
  refine ⟨slot, immediate, fetched, valid, reads, fun legal => ?_⟩
  obtain ⟨_, acted, performed, holds⟩ :=
    law.perform (Slot.isIllegal_ofSlot_of_legal legal) (fun _ _ _ => succeeds_modifyCpu _)
      (fun _ _ _ => succeeds_modifyCpu _) slot system.cpu.regs.pc immediate _ _ holds
  have concludes := conclude_of_perform performed
  rw [Slot.cost_ofSlot valid.1] at concludes
  exact ⟨acted, holds, performed, executes.trans concludes⟩

/-- A successful execution has read the bytes of one instruction and let it act with PC behind them:
it goes on there or where a branch leads, and takes the cycles that the slot and the condition say
beside those for which the bus stalls it.  Without refused accesses and stalls the bytes at PC are
those of a slot, and an instruction that is there is executed so. -/
theorem execute_reads_then_acts (system : System β) (unlocked : system.cpu.locked = none) :
    (∀ quantum after, execute system = .ok quantum after → ∃ slot immediate fetched acted,
      let goes := Slot.goesAhead slot system.cpu.regs.flags
      Slot.Legal slot ∧ Reads system (Slot.bytes slot immediate) fetched ∧
      quantum = .execution slot (Slot.cost slot goes) (Bus.takeStall acted).1 ∧
      Acts slot immediate goes (behind system (Slot.length slot) fetched) acted after) ∧
    (∀ calm : β → Prop, Bus.Calm calm → calm system.bus →
      (∃ slot immediate fetched,
        Slot.Valid slot ∧ Reads system (Slot.bytes slot immediate) fetched) ∧
      ∀ slot immediate fetched, Slot.Legal slot → Reads system (Slot.bytes slot immediate) fetched →
        let goes := Slot.goesAhead slot system.cpu.regs.flags
        ∃ acted after, execute system = .ok (.execution slot (Slot.cost slot goes) 0) after ∧
          Acts slot immediate goes (behind system (Slot.length slot) fetched) acted after) ∧
    ∀ slot goes, Slot.Legal slot →
      4 ∣ Slot.cost slot goes ∧ 4 ≤ Slot.cost slot goes ∧ Slot.cost slot goes ≤ 24 := by
  refine ⟨fun quantum after ran => ?_, fun calm free quiet => ?_, fun slot goes legal => ?_⟩
  · obtain ⟨_, slot, immediate, opened, ⟨cpu, fetched⟩, opcode, operand, acts⟩ :=
      execute_ok_fetched ran
    have valid := valid_of_fetchSlot opcode
    obtain ⟨reads, same⟩ := reads_of_fetched opcode operand
    obtain ⟨acted, performed, rfl, rfl⟩ := conclude_ok acts
    cases same
    rw [Slot.cost_ofSlot valid.1]
    exact ⟨slot, immediate, fetched, acted.bus,
      Slot.legal_of_isIllegal valid (legal_of_perform performed), reads, rfl,
      acts_of_perform valid.1 rfl performed⟩
  · obtain ⟨slot, immediate, fetched, valid, reads, executes⟩ :=
      execute_of_succeeds free.read free.write unlocked quiet
    refine ⟨⟨slot, immediate, fetched, valid, reads⟩, fun other word left legal again => ?_⟩
    obtain ⟨rfl, rfl, same⟩ := reads.unique valid legal.1 again
    obtain ⟨acted, still, performed, executed⟩ := executes legal
    rw [free.unstalled acted.bus still] at executed
    have acts := acts_of_perform valid.1 rfl performed
    exact ⟨acted.bus, _, executed, acts.congr valid.1 same.symm⟩
  · have listed := Slot.cost_mem legal.1.1 goes
    generalize Slot.cost slot goes = cost at listed ⊢
    revert cost
    decide

theorem calm_byteMap : Bus.Calm fun _ : ByteMap => True where
  read _ map _ := ⟨_, map, rfl, trivial⟩
  write _ _ _ _ := ⟨_, _, rfl, trivial⟩
  unstalled _ _ := rfl

/-- A processor before a memory full of one byte, with the halt bug or not. -/
def amidst (byte : UInt8) (haltBug : Bool) : System ByteMap :=
  ⟨{ regs := { pc := 0xC000, sp := 0xD000 }, haltBug }, ⟨fun _ => byte⟩⟩

/-- With the halt bug RST pushes its own address; `SET 1,E` lies behind the escape byte; CALL leads
to the word behind its opcode and pushes the address behind that word; and `JR Z` is passed over. -/
theorem execute_reads_then_acts_amidst :
    (∃ (after : System ByteMap) (fetched acted : ByteMap),
      execute (amidst 0xFF true) = .ok (.execution 0xFF 16 0) after ∧
        after.cpu.regs.pc = 0x38 ∧ after.cpu.haltBug = false ∧
        Pushed 0xC000 ⟨(amidst 0xFF true).cpu, fetched⟩ ⟨after.cpu, acted⟩) ∧
    (∃ after : System ByteMap, execute (amidst 0xCB false) = .ok (.execution 0x1CB 8 0) after ∧
      after.cpu.regs.pc = 0xC002) ∧
    (∃ (after : System ByteMap) (fetched acted : ByteMap),
      execute (amidst 0xCD false) = .ok (.execution 0xCD 24 0) after ∧
        after.cpu.regs.pc = 0xCDCD ∧
        Pushed 0xC003 ⟨(amidst 0xCD false).cpu, fetched⟩ ⟨after.cpu, acted⟩) ∧
    ∃ after : System ByteMap, execute (amidst 0x28 false) = .ok (.execution 0x28 8 0) after ∧
      after.cpu.regs.pc = 0xC002 := by
  have runs (byte : UInt8) (haltBug : Bool) :=
    ((execute_reads_then_acts (amidst byte haltBug) rfl).2.1 _ calm_byteMap trivial).2
  refine ⟨?_, ?_, ?_, ?_⟩
  · obtain ⟨acted, after, executes, acts⟩ :=
      runs 0xFF true 0xFF 0 _ (by decide) ⟨0xFF, [], _, rfl, rfl, rfl⟩
    exact ⟨after, _, acted, executes, acts.leads.1, acts.clears (by decide), acts.leads.2⟩
  · obtain ⟨acted, after, executes, acts⟩ :=
      runs 0xCB false 0x1CB 0 _ (by decide) ⟨0xCB, [0xCB], _, rfl, rfl, rfl⟩
    exact ⟨after, executes, acts.leads⟩
  · obtain ⟨acted, after, executes, acts⟩ :=
      runs 0xCD false 0xCD 0xCDCD _ (by decide) ⟨0xCD, [0xCD, 0xCD], _, rfl, rfl, rfl⟩
    exact ⟨after, _, acted, executes, acts.leads.1, acts.leads.2⟩
  · obtain ⟨acted, after, executes, acts⟩ :=
      runs 0x28 false 0x28 0x28 _ (by decide) ⟨0x28, [0x28], _, rfl, rfl, rfl⟩
    exact ⟨after, executes, acts.leads⟩

end Cpu
end GameBoy
