import GameBoy.Proofs.Splitting
import GameBoy.Proofs.Storage
import GameBoy.Proofs.Watching

/-!
# Transfers into object memory

A transfer copies 160 bytes as they were before it began.  It reads from below object memory only,
so none of the bytes that it reads is one that it wrote, it reaches no I/O register and starts no
other transfer.
-/

namespace GameBoy

open Effect

/-! ## Copies -/

/-- Copy a number of bytes, one after another. -/
def Bus.copy {β : Type} [Bus β] (source target : UInt16) : Nat → Access β Unit
  | 0 => pure ()
  | count + 1 => do
    copy source target count
    let byte ← read (source + UInt16.ofNat count)
    write (target + UInt16.ofNat count) byte

/-- The two accesses that copy a byte. -/
def copyAccesses (byte : UInt8) (source target : UInt16) : List AccessRecord :=
  [.read source byte, .write target byte]

/-- The access is one to memory alone, and does not read object memory. -/
def AccessRecord.CopiesToObjects : AccessRecord → Prop
  | .read address _ => address < 0xE000
  | .write address _ => Region.of address = .oam
  | .readRefused _ | .writeRefused _ => False

namespace Board

/-- The first address of object memory. -/
def objectAddress : UInt16 := 0xFE00

/-- The accesses of a copy to object memory, oldest first. -/
def accessesOfCopy (board : Board) (source : UInt16) (count : Nat) : List AccessRecord :=
  (List.range count).flatMap fun place =>
    copyAccesses (board.memoryByte (source + UInt16.ofNat place)) (source + UInt16.ofNat place)
      (objectAddress + UInt16.ofNat place)

/-- The board once a transfer has begun and before it has copied anything. -/
def opened (board : Board) (value : UInt8) : Board :=
  { board with dmaRegister := value }.record (.oamDma (dmaSource value))

/-- On a board such a copy is the one that a transfer makes. -/
theorem copy_eq_copyBytes (source : UInt16) (count : Nat) :
    (Bus.copy source objectAddress count : Access Board Unit) = copyBytes source count := by
  induction count with
  | zero => rfl
  | succ count ih =>
      rw [Bus.copy, copyBytes, ih]
      rfl

/-- The accesses of a copy are those of its bytes, in order. -/
theorem copy_watched {source : UInt16} (below : source.toNat ≤ 0xDF00) {count : Nat}
    (inside : count ≤ 0xA0) (board : Board) :
    Bus.copy source objectAddress count (⟨board, #[]⟩ : Watched Board) =
      .ok () ⟨board.afterCopies source count, (board.accessesOfCopy source count).toArray⟩ := by
  induction count with
  | zero =>
      rw [afterCopies, copied_zero]
      rfl
  | succ count ih =>
      have next : board.accessesOfCopy source (count + 1) =
          board.accessesOfCopy source count ++
            copyAccesses (board.memoryByte (source + UInt16.ofNat count))
              (source + UInt16.ofNat count) (objectAddress + UInt16.ofNat count) := by
        simp [accessesOfCopy, List.range_succ]
      rw [Bus.copy, bind_of_ok (ih (Nat.le_of_succ_le inside)),
        bind_of_ok (Watched.read_of_ok (read_afterCopies below inside board) _)]
      refine (Watched.write_of_ok (write_objectAddress inside board source) _).trans ?_
      rw [next]
      simp [copyAccesses, objectAddress]

/-- A copy of a transfer touches neither I/O registers nor, to read it, object memory. -/
theorem copiesToObjects {source : UInt16} (below : source.toNat ≤ 0xDF00) (board : Board)
    {access : AccessRecord} (made : access ∈ board.accessesOfCopy source 0xA0) :
    access.CopiesToObjects := by
  obtain ⟨place, inside, either⟩ := List.mem_flatMap.mp made
  rw [List.mem_range] at inside
  rw [copyAccesses, List.mem_pair] at either
  rcases either with rfl | rfl
  · exact lt_of_source below inside
  · exact region_objectAddress inside

/-! ## Transfers -/

/-- The source of a transfer is a page, and a page beyond work RAM stands for one of work RAM. -/
theorem toNat_dmaSource (value : UInt8) :
    (dmaSource value).toNat =
      if value.toNat * 0x100 < 0xE000 then value.toNat * 0x100
      else value.toNat * 0x100 - 0x2000 :=
  forall_byte value (by decide +kernel)

/-- Cartridge RAM that is not mapped shows no byte. -/
theorem memoryByte_of_unmapped {board : Board} {address : UInt16}
    (unmapped : board.isMapped address = false) : board.memoryByte address = 0xFF := by
  rw [isMapped, Bool.or_eq_false_iff, bne_eq_false_iff_eq, Option.isSome_eq_false_iff,
    Option.isNone_iff_eq_none] at unmapped
  rw [memoryByte, unmapped.1]
  simp only [Cartridge.readRam, unmapped.2]

/-- Nothing but the transfer happens when its trigger is written. -/
theorem write_dmaAddress {board : Board} (settled : board.raised = {}) (value : UInt8) :
    Bus.write dmaAddress value board = .ok () (board.oamDma value) := by
  have stored : board.store dmaAddress value = (board.oamDma value).collect := rfl
  have still : (board.oamDma value).raised = {} := (raised_oamDma board value).trans settled
  rw [write_apply]
  exact congrArg (EStateM.Result.ok ()) (stored.trans (collect_of_settled still))

theorem peek_objectAddress (board : Board) {place : Nat} (inside : place < 0xA0) :
    board.peek (objectAddress + UInt16.ofNat place) = .ok board.ppu.oam.bytes[place] := by
  have region := region_objectAddress inside
  have offset : (objectAddress + UInt16.ofNat place - objectAddress).toNat % 0xA0 = place := by
    rw [UInt16.add_comm, UInt16.add_sub_cancel, UInt16.toNat_ofNat']
    omega
  rw [peek_of_memory (by rw [objectAddress, region]; nofun), memoryByte, objectAddress, region]
  simp only [Ppu.readOam, Bank.read]
  simp only [objectAddress] at offset
  simp only [offset]

/-- Whatever has happened to a machine, the write of a byte to the trigger succeeds, and object
memory then holds what reads of its page found before, or of the page of work RAM that it stands
for; where cartridge RAM is not mapped they find 0xFF.  The register shows the byte written, the
pending stall has grown by 640 cycles and the transfer has been reported.  Nothing else has changed.
Byte by byte the transfer does the same, and each access of its copy reads below object memory or
writes to it.

The pending stall is a number without bound here.  A counter of 32 bits agrees as long as it holds
less than `2 ^ 32` after the 640 cycles; beyond that lead only millions of writes to the trigger
with no step in between. -/
theorem transfer_is_snapshot (cartridge : Cartridge) (config : Config) (sink : Sink)
    (later : Machine) (turns : (Machine.boot cartridge config sink).Turns later) (value : UInt8) :
    let found := later.bus
    let source := dmaSource value
    source.toNat = (if value.toNat * 0x100 < 0xE000 then value.toNat * 0x100
      else value.toNat * 0x100 - 0x2000) ∧
    ∃ oam : Bank 0xA0,
      let after : Board :=
        { found with
          dmaRegister := value
          ppu := { found.ppu with oam }
          stall := found.stall + 640
          sink := found.sink.record (.oamDma source) }
      Bus.write dmaAddress value found = .ok () after ∧
      Bus.read dmaAddress after = .ok value after ∧
      (∀ place < 0xA0, ∃ byte,
        Bus.read (source + UInt16.ofNat place) found = .ok byte found ∧
        Bus.read (objectAddress + UInt16.ofNat place) after = .ok byte after ∧
        (found.isMapped (source + UInt16.ofNat place) = false → byte = 0xFF)) ∧
      transfer value found = .ok () after ∧
      (∀ count, (Bus.copy source objectAddress count : Access Board Unit) =
        copyBytes source count) ∧
      Bus.copy source objectAddress 0xA0 (⟨found.opened value, #[]⟩ : Watched Board) =
        .ok () ⟨{ after with stall := found.stall }, (found.accessesOfCopy source 0xA0).toArray⟩ ∧
      ∀ access ∈ found.accessesOfCopy source 0xA0, access.CopiesToObjects := by
  intro found source
  have settled : found.raised = {} := turns.keep lasting_settled (raised_boot _ _ _)
  have below : source.toNat ≤ 0xDF00 := dmaSource_le value
  have moved : (found.opened value).afterCopies source 0xA0 =
      { found.oamDma value with stall := found.stall } := by
    rw [afterCopies, copied_all]
    rfl
  refine ⟨toNat_dmaSource value, (found.oamDma value).ppu.oam, write_dmaAddress settled value,
    rfl, fun place inside => ?_, transfer_eq value found, copy_eq_copyBytes source, ?_,
    fun access made => ?_⟩
  · have low := lt_of_source below inside
    have memory : Region.of (source + UInt16.ofNat place) ≠ .io := by
      rw [ne_eq, Region.of_eq_iff, Region.first]
      grind
    refine ⟨found.memoryByte (source + UInt16.ofNat place),
      read_of_peek (peek_of_memory memory found), read_of_peek ?_, memoryByte_of_unmapped⟩
    refine (peek_objectAddress (found.oamDma value) inside).trans (congrArg Except.ok ?_)
    simp only [oamDma, Vector.getElem_ofFn, source]
  · have copies := copy_watched below (Nat.le_refl 0xA0) (found.opened value)
    rw [moved] at copies
    exact copies
  · exact copiesToObjects below found made

/-- A machine with a byte in work RAM. -/
def Machine.withByte : Machine :=
  let start := Machine.boot (.romOnly (Bank.filled 0) (Bank.filled 0)) {} .discard
  ⟨start.cpu, (operate Renderer.null (.write 0xC003 0x5A) (start.bus, ())).1⟩

/-- The first page of the echo stands for the first page of work RAM. -/
theorem transfer_is_snapshot_echo :
    ∃ after, Bus.write 0xFF46 0xE0 Machine.withByte.bus = .ok () after ∧
      after.peek 0xFE03 = .ok 0x5A ∧ after.peek 0xFF46 = .ok 0xE0 ∧ after.stall = 640 := by
  have turns : Machine.Turns
      (Machine.boot (.romOnly (Bank.filled 0) (Bank.filled 0)) {} .discard) Machine.withByte :=
    .single (.operate Renderer.null () (.write 0xC003 0x5A) _)
  obtain ⟨_, _, ran, shown, copies, _⟩ := transfer_is_snapshot _ _ _ _ turns 0xE0
  obtain ⟨byte, found, copied, _⟩ := copies 3 (by decide)
  have source : Machine.withByte.bus.peek (dmaSource 0xE0 + UInt16.ofNat 3) = .ok 0x5A := by
    decide +kernel
  have same : byte = 0x5A := by
    rw [peek_of_read found] at source
    exact Except.ok.inj source
  subst same
  exact ⟨_, ran, peek_of_read copied, peek_of_read shown, rfl⟩

end Board
end GameBoy
