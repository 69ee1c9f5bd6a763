import GameBoy.Bus.Flat
import GameBoy.Proofs.Footprint

/-!
# Executing on flat memory

On a flat memory that refuses nothing every legal instruction succeeds.  It changes its destinations
and stores at its addresses, and leaves every other register, flag, mode and byte as it found them.
-/

namespace GameBoy

open Effect Exec

/-- The address of an access that wrote. -/
def AccessRecord.stored? : AccessRecord → Option UInt16
  | .write address _ => some address
  | _ => none

namespace FlatBus

/-- No address refuses to be read or written. -/
structure Open (bus : FlatBus) : Prop where
  read : ∀ address, bus.refusesRead address = false
  write : ∀ address, bus.refusesWrite address = false

/-- The addresses that have been written, oldest first. -/
def written (bus : FlatBus) : List UInt16 :=
  bus.accesses.toList.filterMap AccessRecord.stored?

theorem written_note (bus : FlatBus) (access : AccessRecord) :
    (bus.note access).written = bus.written ++ access.stored?.toList := by
  cases stored : access.stored? <;> simp [note, written, stored]

theorem read_apply {bus : FlatBus} (opened : bus.Open) (address : UInt16) :
    Bus.read address bus =
      .ok (bus.peek address) (bus.note (.read address (bus.peek address))) := by
  change FlatBus.read address bus = _
  rw [read, opened.read address]
  rfl

theorem write_apply {bus : FlatBus} (opened : bus.Open) (address : UInt16) (value : UInt8) :
    Bus.write address value bus =
      .ok () { (bus.poke address value).note (.write address value) with
        stall := bus.stall + bus.stallOf address } := by
  change FlatBus.write address value bus = _
  rw [write, opened.write address]
  rfl

theorem succeeds_read (address : UInt16) : Succeeds Open (Bus.read address) :=
  fun _ opened => ⟨_, _, read_apply opened address, opened.read, opened.write⟩

theorem succeeds_write (address : UInt16) (value : UInt8) :
    Succeeds Open (Bus.write address value) :=
  fun _ opened => ⟨_, _, write_apply opened address value, opened.read, opened.write⟩

/-! ## What has been written -/

/-- The bus differs from an earlier one by writes to the addresses at most. -/
structure Wrote (start : FlatBus) (addresses : List UInt16) (bus : FlatBus) : Prop where
  written : bus.written = start.written ++ addresses
  memory : ∀ address ∉ addresses, bus.peek address = start.peek address

theorem Wrote.refl (start : FlatBus) : Wrote start [] start :=
  ⟨(List.append_nil _).symm, fun _ _ => rfl⟩

theorem Wrote.trans {start middle bus : FlatBus} {first second : List UInt16}
    (begun : Wrote start first middle) (ended : Wrote middle second bus) :
    Wrote start (first ++ second) bus where
  written := by rw [ended.written, begun.written, List.append_assoc]
  memory := by
    intro address outside
    obtain ⟨early, late⟩ := not_or.mp fun member => outside (List.mem_append.mpr member)
    rw [ended.memory address late, begun.memory address early]

theorem final_read (address : UInt16) (bus : FlatBus) :
    ∃ access : AccessRecord, access.stored? = none ∧
      final (Bus.read address) bus = bus.note access := by
  change ∃ access : AccessRecord, access.stored? = none ∧
    final (FlatBus.read address) bus = bus.note access
  cases refused : bus.refusesRead address with
  | true => exact ⟨.readRefused address, rfl, by simp [final, read, refused]⟩
  | false => exact ⟨.read address (bus.peek address), rfl, by simp [final, read, refused]⟩

theorem wrote_note {bus : FlatBus} {access : AccessRecord} (none : access.stored? = none) :
    Wrote bus [] (bus.note access) where
  written := by
    rw [written_note, none]
    rfl
  memory _ _ := rfl

theorem wrote_read (address : UInt16) (bus : FlatBus) :
    Wrote bus [] (final (Bus.read address) bus) := by
  obtain ⟨access, none, same⟩ := final_read address bus
  rw [same]
  exact wrote_note none

theorem wrote_write {bus after : FlatBus} {address : UInt16} {value : UInt8}
    (ran : Bus.write address value bus = .ok () after) : Wrote bus [address] after := by
  change FlatBus.write address value bus = _ at ran
  rw [write] at ran
  split at ran
  · cases ran
  · cases ran
    refine ⟨written_note (bus.poke address value) _, fun other outside => ?_⟩
    have apart : address ≠ other := fun same => outside (List.mem_singleton.mpr same.symm)
    exact (peek_poke bus address other value).trans (if_neg apart)

theorem wrote_write_error {bus after : FlatBus} {address : UInt16} {value : UInt8}
    {error : MemoryError} (ran : Bus.write address value bus = .error error after) :
    Wrote bus [] after := by
  change FlatBus.write address value bus = _ at ran
  rw [write] at ran
  split at ran
  · cases ran
    exact wrote_note rfl
  · cases ran

/-- The writes on a tape are all that has been written. -/
theorem invariant_wrote (start : FlatBus) :
    Bus.Invariant fun taped : Taped FlatBus => Wrote start taped.addresses taped.bus where
  read address taped holds := by
    have read := wrote_read address taped.bus
    rw [final] at read
    rw [final, Taped.read_apply]
    have both : Wrote start (taped.addresses ++ []) _ := holds.trans read
    rw [List.append_nil] at both
    cases ran : Bus.read address taped.bus <;> rw [ran] at both <;> exact both
  write address value taped holds := by
    rw [final, Taped.write_apply]
    cases ran : Bus.write address value taped.bus with
    | ok _ bus =>
        have both := holds.trans (wrote_write ran)
        rw [Taped.addresses, List.map_append]
        exact both
    | error error bus =>
        have both := holds.trans (wrote_write_error ran)
        rw [List.append_nil] at both
        exact both
  takeStall _ holds := ⟨holds.written, holds.memory⟩
  report _ _ holds := ⟨holds.written, holds.memory⟩

theorem wrote_readRun {address : UInt16} {count : Nat} {values : List UInt8} {bus after : FlatBus}
    (ran : Bus.readRun address count bus = .ok values after) : Wrote bus [] after := by
  induction count generalizing address values bus with
  | zero =>
      cases ran
      exact .refl _
  | succ count ih =>
      obtain ⟨value, middle, read, rest⟩ := bind_ok.mp ran
      obtain ⟨values, last, run, done⟩ := bind_ok.mp rest
      cases done
      have first := wrote_read address bus
      rw [final_of_ok read] at first
      exact first.trans (ih run)

theorem wrote_perform {instruction : Instruction} {slot start immediate : UInt16} {taken : Bool}
    {before after : System FlatBus}
    (ran : perform instruction slot start immediate taken before = .ok () after) :
    Wrote before.bus (instruction.stores before.cpu.regs immediate taken) after.bus := by
  obtain ⟨writes, taped⟩ :=
    Taped.twin_of_ok (Taped.sees_bus.law.perform instruction slot start immediate taken) ran []
  have keeps := (invariant_wrote before.bus).law.perform instruction slot start immediate taken
  have kept := keeps ⟨before.cpu, ⟨before.bus, []⟩⟩ (.refl before.bus)
  rw [final_of_ok taped, addresses_perform taped] at kept
  exact kept

end FlatBus

/-! ## The frame of an instruction -/

theorem Flags.toByte_and_lowNibble (flags : Flags) : flags.toByte &&& 0x0F = 0 := by
  rcases flags with ⟨_ | _, _ | _, _ | _, _ | _⟩ <;> decide

/-- The master enable after an instruction: an EI takes effect one instruction late. -/
def Instruction.enables (instruction : Instruction) (cpu : Cpu) : Bool :=
  match instruction with
  | .di => false
  | .reti => true
  | _ => cpu.regs.ime || cpu.eiDelay

theorem Instruction.ime_settle_steer (instruction : Instruction) (waits : Bool) (cpu : Cpu) :
    (instruction.steer waits cpu.control).settle.ime = instruction.enables cpu := by
  rw [Control.ime_settle]
  cases instruction with
  | di | reti => rfl
  | halt => cases waits <;> rfl
  | _ => rfl

namespace Exec

variable {β : Type} [Bus β] {before after : System β}

/-- Following a pointer is all that moves HL when A is stored or loaded through it. -/
theorem hl_of_perform {instruction : Instruction} {pointer : Pointer}
    (through : instruction = .storeA pointer ∨ instruction = .loadA pointer)
    {slot start immediate : UInt16} {taken : Bool}
    (ran : perform instruction slot start immediate taken before = .ok () after) :
    after.cpu.regs.hl = pointer.moved before.cpu.regs.hl := by
  rcases through with rfl | rfl
  · obtain ⟨address, moved, follows, rest⟩ := bind_ok.mp ran
    rw [bind_of_ok (registers_apply moved)] at rest
    rw [(access_ok.mp rest).2]
    exact (follow_ok follows).2.2
  · obtain ⟨address, moved, follows, rest⟩ := bind_ok.mp ran
    obtain ⟨value, loaded, reads, rest⟩ := bind_ok.mp rest
    have same := (access_ok.mp reads).2
    cases rest
    change loaded.cpu.regs.hl = _
    rw [same]
    exact (follow_ok follows).2.2

end Exec

/-- What an instruction leaves as it was, and where it goes, when it is executed on flat memory;
`next` is the address behind it. -/
structure Instruction.Frame (instruction : Instruction) (immediate : UInt16) (taken : Bool)
    (next : UInt16) (before after : System FlatBus) : Prop where
  cells : ∀ cell ∉ instruction.destinations taken,
    after.cpu.regs.content cell = before.cpu.regs.content cell
  lowNibble : after.cpu.regs.flags.toByte &&& 0x0F = 0
  pointer : ∀ pointer, instruction = .storeA pointer ∨ instruction = .loadA pointer →
    after.cpu.regs.hl = pointer.moved before.cpu.regs.hl
  pc : instruction.branches = false → after.cpu.regs.pc = next
  ime : after.cpu.regs.ime = instruction.enables before.cpu
  unlocked : after.cpu.locked = none
  written : after.bus.written =
    before.bus.written ++ instruction.stores before.cpu.regs immediate taken
  memory : ∀ address ∉ instruction.stores before.cpu.regs immediate taken,
    after.bus.peek address = before.bus.peek address

/-- Only the bytes that an instruction has decide where it stores. -/
theorem Instruction.stores_congr {instruction : Instruction} {immediate word : UInt16}
    (same : immediateBytes instruction.immediate word =
      immediateBytes instruction.immediate immediate) (regs : Registers) (taken : Bool) :
    instruction.stores regs word taken = instruction.stores regs immediate taken := by
  cases instruction with
  | storeHigh =>
      have low : Word.low word = Word.low immediate := List.head_eq_of_cons_eq same
      rw [stores, stores, low]
  | storeSP | storeAt => rw [eq_of_immediateBytes same]
  | _ => rfl

theorem Instruction.Frame.congr {instruction : Instruction} {immediate word : UInt16}
    {taken : Bool} {next : UInt16} {before after : System FlatBus}
    (same : immediateBytes instruction.immediate word =
      immediateBytes instruction.immediate immediate)
    (frame : instruction.Frame word taken next before after) :
    instruction.Frame immediate taken next before after :=
  { frame with
    written := by rw [frame.written, stores_congr same]
    memory := by
      rw [← stores_congr same]
      exact frame.memory }

namespace Cpu

theorem Reads.wrote {system : System FlatBus} {bytes : List UInt8} {fetched : FlatBus}
    (reads : Reads system bytes fetched) : FlatBus.Wrote system.bus [] fetched := by
  obtain ⟨first, rest, second, _, begun, consecutive⟩ := reads
  have start := FlatBus.wrote_read system.cpu.regs.pc system.bus
  rw [final_of_ok begun] at start
  exact start.trans (FlatBus.wrote_readRun consecutive)

theorem frame_of_perform {instruction : Instruction} {slot immediate start : UInt16} {taken : Bool}
    {system acted : System FlatBus} {length : Nat} {fetched : FlatBus}
    (unlocked : system.cpu.locked = none) (read : FlatBus.Wrote system.bus [] fetched)
    (ran : perform instruction slot start immediate taken (behind system length fetched) =
      .ok () acted) :
    instruction.Frame immediate taken (behind system length fetched).cpu.regs.pc system
      ⟨acted.cpu.settleEI, (Bus.takeStall acted.bus).2⟩ := by
  have legal := legal_of_perform ran
  obtain ⟨waits, _, steered⟩ := control_perform ran
  have settled : acted.cpu.settleEI.control =
      (instruction.steer waits (behind system length fetched).cpu.control).settle := by
    rw [control_settleEI, steered]
  have stored := read.trans (FlatBus.wrote_perform ran)
  rw [stores_behind, List.nil_append] at stored
  refine ⟨fun cell outside => ?_, Flags.toByte_and_lowNibble _, fun pointer through => ?_,
    fun straight => ?_, ?_, ?_, stored.written, stored.memory⟩
  · rw [content_settleEI, ← content_behind system length fetched]
    exact (content_perform outside slot start immediate).of_ok rfl ran
  · have moved := hl_of_perform through ran
    obtain ⟨_, _, _, same⟩ := acted.cpu.settleEI_eq
    rw [same]
    exact moved
  · have kept := pc_of_perform legal straight ran
    obtain ⟨_, _, _, same⟩ := acted.cpu.settleEI_eq
    rw [same]
    exact kept
  · have ime := congrArg Control.ime settled
    rw [instruction.ime_settle_steer] at ime
    exact ime
  · have locked := congrArg Control.locked settled
    rw [Control.locked_settle, instruction.locked_steer] at locked
    exact locked.trans unlocked

/-- On a flat memory that refuses nothing, the bytes at PC are those of a slot.  If it holds an
instruction, an unlocked processor executes this and changes nothing but the destinations and the
bytes at the addresses that the instruction declares. -/
theorem execute_frame (system : System FlatBus) (unlocked : system.cpu.locked = none)
    (opened : system.bus.Open) :
    (∃ slot immediate fetched,
      Slot.Valid slot ∧ Reads system (Slot.bytes slot immediate) fetched) ∧
    ∀ slot immediate fetched, Slot.Legal slot → Reads system (Slot.bytes slot immediate) fetched →
      let goes := Slot.goesAhead slot system.cpu.regs.flags
      let next := (behind system (Slot.length slot) fetched).cpu.regs.pc
      ∃ stall after, execute system = .ok (.execution slot (Slot.cost slot goes) stall) after ∧
        (Instruction.ofSlot slot).Frame immediate goes next system after := by
  obtain ⟨slot, immediate, fetched, valid, reads, executes⟩ :=
    execute_of_succeeds FlatBus.succeeds_read FlatBus.succeeds_write unlocked opened
  refine ⟨⟨slot, immediate, fetched, valid, reads⟩, fun other word left legal again => ?_⟩
  obtain ⟨rfl, rfl, same⟩ := reads.unique valid legal.1 again
  obtain ⟨acted, _, performed, executed⟩ := executes legal
  have frame := frame_of_perform unlocked reads.wrote performed
  rw [Slot.taken_ofSlot valid.1] at frame
  exact ⟨_, _, executed, frame.congr (Slot.immediateBytes_of_bytes valid.1 same.symm)⟩

/-- A processor in a memory full of one byte, with HL at the last address. -/
def filledWith (byte : UInt8) : System FlatBus :=
  ⟨{ regs := { pc := 0xC000, h := 0xFF, l := 0xFF } }, { memory := Bank.filled byte }⟩

theorem peek_filledWith (byte : UInt8) (address : UInt16) :
    (filledWith byte).bus.peek address = byte :=
  Bank.read_filled _ _

theorem readRun_of_filled {bus : FlatBus} {byte : UInt8} (opened : bus.Open)
    (full : ∀ address, bus.peek address = byte) (address : UInt16) (count : Nat) :
    ∃ fetched, Bus.readRun address count bus = .ok (List.replicate count byte) fetched := by
  induction count generalizing bus address with
  | zero => exact ⟨bus, rfl⟩
  | succ count ih =>
      have first := FlatBus.read_apply opened address
      rw [full] at first
      obtain ⟨fetched, rest⟩ := @ih (bus.note (.read address byte)) ⟨opened.read, opened.write⟩
        full (address + 1)
      refine ⟨fetched, ?_⟩
      rw [Bus.readRun, bind_of_ok first, bind_of_ok rest]
      rfl

theorem reads_filledWith (byte : UInt8) (count : Nat) :
    ∃ fetched, Reads (filledWith byte) (List.replicate (count + 1) byte) fetched := by
  have opened : (filledWith byte).bus.Open := ⟨fun _ => rfl, fun _ => rfl⟩
  have first := FlatBus.read_apply opened 0xC000
  rw [peek_filledWith] at first
  have begun : ((filledWith byte).bus.note (.read 0xC000 byte)).Open := ⟨opened.read, opened.write⟩
  obtain ⟨fetched, rest⟩ := readRun_of_filled begun (peek_filledWith byte) (0xC000 + 1) count
  refine ⟨fetched, byte, List.replicate count byte, _, rfl, first, ?_⟩
  rw [List.length_replicate]
  exact rest

/-- `LD (HL+),A` stores at the last address and lets HL wrap around.  `SET 1,E` lies behind the
escape byte and leaves all but E as it was. -/
theorem execute_frame_filledWith :
    (∃ stall after, execute (filledWith 0x22) = .ok (.execution 0x22 8 stall) after ∧
      after.cpu.regs.hl = 0 ∧ after.bus.written = [0xFFFF] ∧ after.bus.peek 0xC000 = 0x22) ∧
    ∃ stall after, execute (filledWith 0xCB) = .ok (.execution 0x1CB 8 stall) after ∧
      after.cpu.regs.pc = 0xC002 ∧ after.bus.written = [] ∧
      ∀ cell ≠ .e, after.cpu.regs.content cell = (filledWith 0xCB).cpu.regs.content cell := by
  have runs (byte : UInt8) := (execute_frame (filledWith byte) rfl ⟨fun _ => rfl, fun _ => rfl⟩).2
  constructor
  · obtain ⟨fetched, reads⟩ := reads_filledWith 0x22 0
    obtain ⟨stall, after, executes, frame⟩ := runs 0x22 0x22 0 fetched (by decide) reads
    have apart : (0xC000 : UInt16) ∉ [0xFFFF] := by decide
    exact ⟨stall, after, executes, frame.pointer .hlUp (.inl rfl), frame.written,
      (frame.memory 0xC000 apart).trans (peek_filledWith 0x22 _)⟩
  · obtain ⟨fetched, reads⟩ := reads_filledWith 0xCB 1
    obtain ⟨stall, after, executes, frame⟩ := runs 0xCB 0x1CB 0 fetched (by decide) reads
    exact ⟨stall, after, executes, frame.pc rfl, frame.written,
      fun cell other => frame.cells cell (List.mem_singleton.not.mpr other)⟩

end Cpu
end GameBoy
