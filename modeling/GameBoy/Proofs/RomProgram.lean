import GameBoy.Proofs.Execution
import GameBoy.Proofs.Image
import GameBoy.Proofs.Loading
import GameBoy.Proofs.Routing

/-!
# Programs in ROM

An image of two ROM banks may be put together from a program and further code, and a machine that it
is loaded into reads it byte by byte.  While nothing disturbs the processor, each step executes the
instruction found at PC.
-/

namespace GameBoy

open Effect Exec

/-! ## Images -/

instance : BankSize 0x8000 := ⟨by decide⟩

/-- The bytes of both ROM banks of a cartridge without a controller. -/
abbrev FlatRom := Bank 0x8000

namespace FlatRom

/-- The image of the two banks. -/
def image (rom : FlatRom) : ByteArray :=
  ⟨rom.bytes.toArray⟩

/-- What the header has to hold as its checksum. -/
def checksum (rom : FlatRom) : UInt8 :=
  (List.range' 0x134 0x19).foldl (fun sum offset => sum - rom.read offset - 1) 0

/-- The code at the entry point, which leads to 0x0150. -/
def entry : List UInt8 :=
  [0x00, 0xC3, 0x50, 0x01]

/-- The entry point and a header with the codes of a cartridge type and of a RAM size. -/
def headed (kind ramSize : UInt8) : FlatRom :=
  let entered := (Bank.filled 0 : FlatRom).writeAll 0x100 entry
  -- the title is "HARNESS"
  let titled := entered.writeAll 0x134 [0x48, 0x41, 0x52, 0x4E, 0x45, 0x53, 0x53, 0x00]
  let declared := ((titled.write 0x147 kind).write 0x148 0x00).write 0x149 ramSize
  declared.write 0x14D (checksum declared)

/-- A program at 0x0150 that is entered from 0x0100, and further code at other offsets. -/
def assemble (program : List UInt8) (vectors : List (Nat × List UInt8)) (kind ramSize : UInt8) :
    FlatRom :=
  vectors.foldl (fun rom vector => rom.writeAll vector.1 vector.2)
    ((headed kind ramSize).writeAll 0x150 program)

theorem read_headed_entry (kind ramSize : UInt8) {index : Nat} (inside : index < entry.length) :
    (headed kind ramSize).read (0x100 + index) = entry[index] := by
  have few : index < 4 := inside
  rw [headed, Bank.read_write_of_ne _ _ (by omega), Bank.read_write_of_ne _ _ (by omega),
    Bank.read_write_of_ne _ _ (by omega), Bank.read_write_of_ne _ _ (by omega),
    Bank.read_writeAll (by omega) _ _ _ (by simp), if_neg (by omega),
    Bank.read_writeAll (by omega) _ _ _ (by simp [entry]), if_pos (by omega),
    Nat.add_sub_cancel_left]
  simp [inside]

theorem read_headed_codes (kind ramSize : UInt8) :
    (headed kind ramSize).read 0x147 = kind ∧ (headed kind ramSize).read 0x148 = 0x00 ∧
      (headed kind ramSize).read 0x149 = ramSize := by
  refine ⟨?_, ?_, ?_⟩ <;> simp [headed, Bank.read_write]

theorem size_image (rom : FlatRom) : rom.image.size = 0x8000 := by
  simp [image, ByteArray.size]

theorem byteAt_image (rom : FlatRom) {offset : Nat} (inside : offset < 0x8000) :
    RomImage.byteAt rom.image offset = rom.read offset := by
  simp [RomImage.byteAt, image, Bank.read, Nat.mod_eq_of_lt inside, inside]

end FlatRom

/-- Without a controller the two windows show the two banks of an image. -/
theorem Cartridge.readRom_of_cut {cartridge : Cartridge} {image : ByteArray}
    (plain : cartridge.mapper = .none) (banks : cartridge.rom = RomImage.cut image 2)
    {address : UInt16} (inside : address.toNat < 0x8000) :
    cartridge.readRom address = RomImage.byteAt image address.toNat := by
  have resolved : cartridge.resolveRom address =
      (address.toNat / 0x4000, address.toNat % 0x4000) := by
    rw [resolveRom, plain, banks, RomImage.size_cut, Nat.mod_eq_of_lt inside, Mapper.romBank]
    by_cases second : 0x4000 ≤ address.toNat
    · have bank : address.toNat / 0x4000 = 1 := by omega
      simp [second, bank]
    · have bank : address.toNat / 0x4000 = 0 := by omega
      simp [second, bank]
  have bank : address.toNat / 0x4000 < 2 := by omega
  have found : cartridge.rom.getD (address.toNat / 0x4000) (Bank.filled 0xFF) =
      Bank.ofSlice image (address.toNat / 0x4000 * 0x4000) := by
    rw [banks, RomImage.cut, Array.getD_eq_getD_getElem?, Array.getElem?_ofFn, dif_pos bank]
    rfl
  rw [readRom, resolved]
  simp only [found]
  rw [RomImage.read_ofSlice image _ (Nat.mod_lt _ (by decide)), Nat.div_add_mod']

/-! ## Code -/

/-- Nothing keeps the processor from executing instructions, and none of its latches is set. -/
def Control.undisturbed : Control :=
  ⟨false, false, false, false, false, false, none⟩

/-- The bytes are found from an address on. -/
def Board.Finds (board : Board) (address : UInt16) : List UInt8 → Prop
  | [] => True
  | byte :: bytes => board.peek address = .ok byte ∧ board.Finds (address + 1) bytes

/-- The immediate bytes of an instruction as one word. -/
def Immediate.word (kind : Immediate) (bytes : List UInt8) : UInt16 :=
  match kind with
  | .none => 0
  | .signed8 | .unsigned8 => (bytes.getD 0 0).toUInt16
  | .unsigned16 => Word.ofBytes (bytes.getD 1 0) (bytes.getD 0 0)

theorem Cpu.settleEI_of_undisturbed {cpu : Cpu} (free : cpu.control = .undisturbed) :
    cpu.settleEI = cpu := by
  have delayed : cpu.eiDelay = false := congrArg Control.eiDelay free
  have pending : cpu.eiPending = false := congrArg Control.eiPending free
  rw [settleEI, delayed, pending]
  rfl

namespace Machine

variable {machine : Machine}

theorem fetch_of_peek (clear : machine.cpu.haltBug = false) {byte : UInt8}
    (found : machine.bus.peek machine.cpu.regs.pc = .ok byte) :
    fetch machine = .ok byte ⟨machine.cpu.skip 1, machine.bus⟩ := by
  rw [fetch_of_read (Board.read_of_peek found), Cpu.advance_of_haltBug_eq_false clear]

theorem fetchImmediate_of_finds (clear : machine.cpu.haltBug = false) {kind : Immediate}
    {bytes : List UInt8} (whole : bytes.length = kind.size)
    (found : machine.bus.Finds machine.cpu.regs.pc bytes) :
    fetchImmediate kind machine =
      .ok (kind.word bytes) ⟨machine.cpu.skip kind.size, machine.bus⟩ := by
  cases kind with
  | none =>
      rw [Immediate.size, Cpu.skip_zero]
      rfl
  | signed8 | unsigned8 =>
      obtain ⟨byte, rfl⟩ := List.length_eq_one_iff.mp whole
      rw [fetchImmediate, bind_of_ok (fetch_of_peek clear found.1)]
      rfl
  | unsigned16 =>
      obtain ⟨low, high, rfl⟩ := List.length_eq_two.mp whole
      obtain ⟨first, second, _⟩ := found
      have next := @fetch_of_peek ⟨machine.cpu.skip 1, machine.bus⟩ clear high second
      rw [fetchImmediate, bind_of_ok (fetch_of_peek clear first), bind_of_ok next, Cpu.skip_skip]
      rfl

theorem plan_of_undisturbed (free : machine.cpu.control = .undisturbed) : machine.plan = .run := by
  have going : machine.cpu.regs.stopped = false := congrArg Control.stopped free
  have goes : machine.waitsForButton = false := by rw [waitsForButton, going, Bool.false_and]
  rw [plan, goes, if_neg Bool.false_ne_true]
  exact Cpu.plan_of_disabled (congrArg Control.ime free) (congrArg Control.halted free) _ _

/-- The instruction found at PC is fetched and acts.  Unless it is there for the control state,
nothing disturbs the processor afterwards either. -/
theorem step_of_finds {acted : Machine} {opcode : UInt8} {bytes : List UInt8}
    {instruction : Instruction} (free : machine.cpu.control = .undisturbed)
    (code : machine.bus.Finds machine.cpu.regs.pc (opcode :: bytes))
    (decoded : Instruction.ofSlot opcode.toUInt16 = instruction)
    (whole : bytes.length = instruction.immediate.size)
    (ordinary : instruction.isControl = false)
    (acts : perform instruction opcode.toUInt16 machine.cpu.regs.pc
      (instruction.immediate.word bytes) (instruction.taken machine.cpu.regs.flags)
      ⟨machine.cpu.skip (bytes.length + 1), machine.bus⟩ = .ok () acted) :
    Cpu.step machine =
        .ok (.execution opcode.toUInt16
            (instruction.cost (instruction.taken machine.cpu.regs.flags)) acted.bus.stall)
          ⟨acted.cpu, { acted.bus with stall := 0 }⟩ ∧
      acted.cpu.control = .undisturbed := by
  subst decoded
  have unlocked : machine.cpu.locked = none := congrArg Control.locked free
  have clear : machine.cpu.haltBug = false := congrArg Control.haltBug free
  have awake : machine.cpu.rouse = machine.cpu :=
    Cpu.rouse_of_running (congrArg Control.halted free) (congrArg Control.stopped free)
  have plain : opcode ≠ Opcode.escape := by
    rintro rfl
    cases ordinary
  obtain ⟨first, rest⟩ := code
  have slot := fetchSlot_of_read (Board.read_of_peek first) plain
  rw [Cpu.advance_of_haltBug_eq_false clear] at slot
  have operand :=
    @fetchImmediate_of_finds ⟨machine.cpu.skip 1, machine.bus⟩ clear _ bytes whole rest
  rw [Cpu.skip_skip, ← whole, Nat.add_comm 1] at operand
  obtain ⟨_, _, steered⟩ := control_perform acts
  have still : acted.cpu.control = .undisturbed := by
    rw [steered, ← free]
    cases instruction : Instruction.ofSlot opcode.toUInt16 <;>
      first | rfl | (rw [instruction] at ordinary; cases ordinary)
  refine ⟨?_, still⟩
  rw [step_of_run unlocked (plan_of_undisturbed free), awake,
    Cpu.execute_of_fetched unlocked slot operand, Cpu.conclude_of_perform acts,
    Cpu.settleEI_of_undisturbed still]
  rfl

/-- A byte is loaded through HL, which moves on. -/
theorem perform_loadA {byte : UInt8} (found : machine.bus.peek machine.cpu.regs.hl = .ok byte)
    (slot start immediate : UInt16) (taken : Bool) :
    perform (.loadA .hlUp) slot start immediate taken machine =
      .ok () ⟨{ machine.cpu with
        regs := { machine.cpu.regs.setHL (machine.cpu.regs.hl + 1) with a := byte } },
        machine.bus⟩ := by
  let moved : Machine :=
    ⟨{ machine.cpu with regs := machine.cpu.regs.setHL (machine.cpu.regs.hl + 1) }, machine.bus⟩
  have follows : follow .hlUp machine = .ok machine.cpu.regs.hl moved := rfl
  have reads : Exec.read machine.cpu.regs.hl moved = .ok byte moved := read_apply found
  rw [perform, bind_of_ok follows, bind_of_ok reads]
  rfl

/-- A is stored in the last page. -/
theorem perform_storeHigh (offset : UInt8) (taken : Bool) (slot start : UInt16)
    (allowed : machine.bus.refusal (highPage offset) machine.cpu.regs.a = none) :
    perform .storeHigh slot start offset.toUInt16 taken machine =
      .ok () ⟨machine.cpu, machine.bus.store (highPage offset) machine.cpu.regs.a⟩ := by
  have writes : Bus.write (highPage offset) machine.cpu.regs.a machine.bus =
      .ok () (machine.bus.store (highPage offset) machine.cpu.regs.a) := by
    rw [Board.write_apply, allowed]
  rw [perform, Word.low_toUInt16, bind_of_ok (registers_apply machine)]
  exact access_ok.mpr ⟨writes, rfl⟩

end Machine
end GameBoy
