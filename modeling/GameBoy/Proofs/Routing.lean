import GameBoy.Proofs.CartridgeRam
import GameBoy.Proofs.Requests

/-!
# Routed accesses

An access goes to the owner of its address, which may refuse it: a cartridge looks for the selected
bank among those present, and a transfer into object memory reads and writes one byte after another.
No bank is ever missing and no byte of a transfer is ever refused, so these accesses are those of
the board.
-/

namespace GameBoy

open Effect

theorem Effect.modify_apply {ε σ : Type} (change : σ → σ) (state : σ) :
    (modify change : EStateM ε σ PUnit) state = .ok () (change state) := rfl

namespace Board

/-! ## Transfers into object memory -/

/-- Copy a number of bytes into object memory, each read and written as the processor would. -/
def copyBytes (source : UInt16) : Nat → Access Board Unit
  | 0 => pure ()
  | count + 1 => do
    copyBytes source count
    let byte ← Bus.read (source + UInt16.ofNat count)
    Bus.write (0xFE00 + UInt16.ofNat count) byte

/-- A transfer into object memory, byte by byte. -/
def transfer (value : UInt8) : Access Board Unit := do
  let source := dmaSource value
  modify fun board => { board with dmaRegister := value }.record (.oamDma source)
  copyBytes source 0xA0
  modify fun board => { board with stall := board.stall + dmaStall }

/-- Object memory after a number of bytes have been copied to its start. -/
def copied (board : Board) (source : UInt16) (count : Nat) : Bank 0xA0 where
  bytes := Vector.ofFn fun place =>
    if place.val < count then board.memoryByte (source + UInt16.ofNat place.val)
    else board.ppu.oam.bytes[place]

/-- The board after a number of bytes have been copied. -/
def afterCopies (board : Board) (source : UInt16) (count : Nat) : Board :=
  { board with ppu := { board.ppu with oam := board.copied source count } }

theorem copied_zero (board : Board) (source : UInt16) : board.copied source 0 = board.ppu.oam := by
  simp [copied]

/-- The next byte completes one more copy. -/
theorem write_copied (board : Board) (source : UInt16) {count : Nat} (inside : count < 0xA0) :
    (board.copied source count).write count (board.memoryByte (source + UInt16.ofNat count)) =
      board.copied source (count + 1) := by
  apply congrArg Bank.mk
  apply Vector.ext
  intro place _
  rw [Vector.getElem_set, copied, Vector.getElem_ofFn, Vector.getElem_ofFn]
  by_cases next : count = place
  · subst next
    simp [Nat.mod_eq_of_lt inside]
  · have same : place < count + 1 ↔ place < count := by omega
    simp [Nat.mod_eq_of_lt inside, next, same]

/-- All bytes have been copied in the end. -/
theorem copied_all (board : Board) (source : UInt16) :
    board.copied source 0xA0 =
      { bytes := Vector.ofFn fun place => board.memoryByte (source + UInt16.ofNat place.val) } := by
  simp only [copied, Fin.is_lt, if_true]

/-- No transfer reads beyond work RAM. -/
theorem dmaSource_le (value : UInt8) : (dmaSource value).toNat ≤ 0xDF00 :=
  forall_byte value (by decide +kernel)

/-- No byte of a transfer is read from beyond work RAM. -/
theorem lt_of_source {source : UInt16} (below : source.toNat ≤ 0xDF00) {count : Nat}
    (inside : count < 0xA0) : source + UInt16.ofNat count < 0xE000 := by
  rw [UInt16.lt_iff_toNat_lt, UInt16.toNat_add, UInt16.toNat_ofNat']
  simp
  omega

theorem peek_of_memory {address : UInt16} (memory : Region.of address ≠ .io) (board : Board) :
    board.peek address = .ok (board.memoryByte address) := by
  rw [peek]
  cases region : Region.of address with
  | io => exact absurd region memory
  | _ => rfl

/-- What is in object memory shows nowhere else. -/
theorem memoryByte_oam {address : UInt16} (elsewhere : Region.of address ≠ .oam) (board : Board)
    (oam : Bank 0xA0) :
    { board with ppu := { board.ppu with oam } }.memoryByte address = board.memoryByte address := by
  simp only [memoryByte]
  cases region : Region.of address with
  | oam => exact absurd region elsewhere
  | _ => rfl

theorem region_objectAddress {count : Nat} (inside : count < 0xA0) :
    Region.of (0xFE00 + UInt16.ofNat count) = .oam := by
  have place : (0xFE00 + UInt16.ofNat count).toNat = 0xFE00 + count := by
    rw [UInt16.toNat_add, UInt16.toNat_ofNat']
    simp
    omega
  rw [Region.of_eq_iff, UInt16.le_iff_toNat_le, UInt16.le_iff_toNat_le, place]
  simp [Region.first, Region.last]
  omega

/-- The write of a byte into object memory completes one more copy. -/
theorem write_objectAddress {count : Nat} (inside : count < 0xA0) (board : Board)
    (source : UInt16) :
    Bus.write (0xFE00 + UInt16.ofNat count) (board.memoryByte (source + UInt16.ofNat count))
        (board.afterCopies source count) =
      .ok () (board.afterCopies source (count + 1)) := by
  have region := region_objectAddress inside
  have place : (0xFE00 + UInt16.ofNat count - 0xFE00 : UInt16).toNat = count := by
    rw [UInt16.add_comm, UInt16.add_sub_cancel, UInt16.toNat_ofNat']
    omega
  change Board.write _ _ _ = _
  simp only [write, refusal, store, region, Ppu.writeOam, place, afterCopies,
    write_copied board source inside]

/-- Sources lie below object memory, so no byte read is one that was copied before. -/
theorem read_afterCopies {source : UInt16} (below : source.toNat ≤ 0xDF00) {count : Nat}
    (inside : count < 0xA0) (board : Board) :
    Bus.read (source + UInt16.ofNat count) (board.afterCopies source count) =
      .ok (board.memoryByte (source + UInt16.ofNat count)) (board.afterCopies source count) := by
  have low := lt_of_source below inside
  have memory : Region.of (source + UInt16.ofNat count) ≠ .io := by
    rw [ne_eq, Region.of_eq_iff, Region.first]
    grind
  have elsewhere : Region.of (source + UInt16.ofNat count) ≠ .oam := by
    rw [ne_eq, Region.of_eq_iff, Region.first]
    grind
  apply read_of_peek
  rw [peek_of_memory memory, afterCopies, memoryByte_oam elsewhere]

theorem copyBytes_eq {source : UInt16} (below : source.toNat ≤ 0xDF00) {count : Nat}
    (inside : count ≤ 0xA0) (board : Board) :
    copyBytes source count board = .ok () (board.afterCopies source count) := by
  induction count with
  | zero =>
      rw [afterCopies, copied_zero]
      rfl
  | succ count ih =>
      rw [copyBytes, bind_of_ok (ih (Nat.le_of_succ_le inside)),
        bind_of_ok (read_afterCopies below inside board)]
      exact write_objectAddress inside board source

/-- Byte by byte or at once, a transfer does the same, and it always succeeds. -/
theorem transfer_eq (value : UInt8) (board : Board) :
    transfer value board = .ok () (board.oamDma value) := by
  let opened := { board with dmaRegister := value }.record (.oamDma (dmaSource value))
  have copies := copyBytes_eq (dmaSource_le value) (Nat.le_refl 0xA0) opened
  rw [transfer, bind_of_ok (modify_apply _ board), bind_of_ok copies, afterCopies, copied_all]
  rfl

/-! ## Accesses -/

/-- Report the error of an access that fails. -/
def reporting {α : Type} (access : Access Board α) : Access Board α := fun board =>
  match access board with
  | .ok value after => .ok value after
  | .error error after => .error error (after.record (.memoryFault error))

/-- Look for the byte at an address. -/
def lookUp (board : Board) (address : UInt16) : Except MemoryError UInt8 :=
  match Region.of address with
  | .romBank0 | .romBankN => board.cartridge.lookUpRom address
  | .externalRam => board.cartridge.lookUpRam address
  | .io => board.portByte address
  | _ => .ok (board.memoryByte address)

/-- Read from the owner of an address. -/
def routedRead (address : UInt16) : Access Board UInt8 := fun board =>
  match board.lookUp address with
  | .ok value => .ok value board
  | .error error => .error error board

/-- Write into the ROM windows, which only a controller takes. -/
def routedWriteRom (address : UInt16) (value : UInt8) : Access Board Unit := fun board =>
  if board.cartridge.mapper.isPresent then .ok () (board.storeRom address value)
  else if board.strictRomWrites then .error (.readOnly address value) board
  else .ok () (board.record (.romWriteIgnored address value))

/-- Write an I/O register and collect what devices request. -/
def routedWritePort (address : UInt16) (value : UInt8) : Access Board Unit := do
  match Port.of address with
  | .oamDma => transfer value
  | _ => modify (·.storePort address value)
  modify collect

/-- Write to the owner of an address. -/
def routedWrite (address : UInt16) (value : UInt8) : Access Board Unit := fun board =>
  match Region.of address with
  | .romBank0 | .romBankN => routedWriteRom address value board
  | .externalRam =>
    match board.cartridge.replaceRam address value with
    | .ok cartridge => .ok () { board with cartridge }
    | .error error => .error error board
  | .unusable => .error (.unusable address value) board
  | .io => routedWritePort address value board
  | _ => .ok () (board.store address value)

theorem lookUp_eq (board : Board) (address : UInt16) :
    board.lookUp address = board.peek address := by
  rw [lookUp, peek, memoryByte]
  cases region : Region.of address with
  | romBank0 | romBankN => exact board.cartridge.lookUpRom_eq address
  | externalRam => exact board.cartridge.lookUpRam_eq address
  | _ => rfl

/-- A read finds its byte with its owner. -/
theorem read_eq_routed (address : UInt16) :
    (Bus.read address : Access Board UInt8) = reporting (routedRead address) := by
  funext board
  change Board.read address board = _
  rw [read, reporting, routedRead, lookUp_eq]
  cases board.peek address with
  | ok value => rfl
  | error error => rfl

theorem routedWritePort_eq (address : UInt16) (value : UInt8) (board : Board) :
    routedWritePort address value board = .ok () (board.storePort address value).collect := by
  rw [routedWritePort]
  cases port : Port.of address with
  | oamDma =>
      have stored : board.storePort address value = board.oamDma value := by
        rw [storePort, port]
      rw [stored]
      exact bind_of_ok (transfer_eq value board) _
  | _ => exact bind_of_ok (modify_apply _ board) _

theorem routedWriteRom_eq (address : UInt16) (value : UInt8) (board : Board) :
    routedWriteRom address value board =
      if board.strictRomWrites && !board.cartridge.mapper.isPresent then
        .error (.readOnly address value) board
      else .ok () (board.storeRom address value) := by
  rw [routedWriteRom]
  cases present : board.cartridge.mapper.isPresent with
  | true => simp
  | false => cases strict : board.strictRomWrites <;> simp [storeRom, present]

/-- A write is taken or refused by the owner of its address. -/
theorem write_eq_routed (address : UInt16) (value : UInt8) :
    (Bus.write address value : Access Board Unit) = reporting (routedWrite address value) := by
  funext board
  change Board.write address value board = _
  rw [write, reporting, routedWrite, refusal, store]
  cases region : Region.of address with
  | romBank0 | romBankN =>
      simp only [routedWriteRom_eq]
      cases board.strictRomWrites && !board.cartridge.mapper.isPresent <;> rfl
  | externalRam => simp only [Cartridge.replaceRam_eq]
  | io => simp only [routedWritePort_eq]
  | _ => rfl

end Board
end GameBoy
