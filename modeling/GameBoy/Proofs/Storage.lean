import GameBoy.Proofs.Refusal

/-!
# Memory of the board

A byte written to memory is found at every address of its cell from then on, and the write is not
noticed at any other address.  A cell has one address, or two if it is one of work RAM that shows
again in the echo.  Cartridge RAM that is not mapped takes no byte at all.
-/

namespace GameBoy

open Effect

/-- In a window no larger than its memory, addresses at the same place are the same. -/
theorem Bank.eq_of_offset {first last : UInt16} {size : Nat} {address other : UInt16}
    (fits : last.toNat < first.toNat + size) (here : first ≤ address ∧ address ≤ last)
    (there : first ≤ other ∧ other ≤ last)
    (same : (address - first).toNat % size = (other - first).toNat % size) : address = other := by
  obtain ⟨above, below⟩ := here
  obtain ⟨aboveToo, belowToo⟩ := there
  rw [UInt16.toNat_sub_of_le _ _ above, UInt16.toNat_sub_of_le _ _ aboveToo] at same
  rw [UInt16.le_iff_toNat_le] at above below aboveToo belowToo
  rw [Nat.mod_eq_of_lt (by omega), Nat.mod_eq_of_lt (by omega)] at same
  exact UInt16.toNat_inj.mp (by omega)

/-! ## Cells -/

/-- A region of memory, which keeps what is written to it. -/
def Region.isMemory : Region → Bool
  | .vram | .externalRam | .workRam0 | .workRamN | .echo | .oam | .highRam
  | .interruptEnable => true
  | .romBank0 | .romBankN | .unusable | .io => false

/-- The second address is the echo of the first. -/
def IsEcho (address other : UInt16) : Prop :=
  0xC000 ≤ address ∧ address ≤ 0xDDFF ∧ other = address + 0x2000

/-- The two addresses are those of one cell. -/
def SameCell (address other : UInt16) : Prop :=
  address = other ∨ IsEcho address other ∨ IsEcho other address

instance (address other : UInt16) : Decidable (IsEcho address other) :=
  inferInstanceAs (Decidable (_ ∧ _ ∧ _))

instance (address other : UInt16) : Decidable (SameCell address other) :=
  inferInstanceAs (Decidable (_ ∨ _ ∨ _))

theorem SameCell.symm {address other : UInt16} (same : SameCell address other) :
    SameCell other address :=
  same.imp Eq.symm Or.symm

theorem not_sameCell_succ (address : UInt16) : ¬SameCell address (address + 1) := by
  rw [SameCell, IsEcho, IsEcho]
  grind

namespace Region

/-- The addresses of work RAM and of its echo. -/
def isWork : Region → Bool
  | .workRam0 | .workRamN | .echo => true
  | _ => false

theorem isWork_iff {address : UInt16} :
    (Region.of address).isWork = true ↔ 0xC000 ≤ address ∧ address ≤ 0xFDFF := by
  have found := bounds_of address
  cases region : Region.of address <;> rw [region] at found <;> simp only [first, last] at found <;>
    simp only [isWork] <;> grind

/-- Two addresses of work RAM are those of one cell if they lie at the same place in it. -/
theorem sameCell_of_isWork {address other : UInt16} (here : (Region.of address).isWork = true)
    (there : (Region.of other).isWork = true)
    (same : address.toNat % 0x2000 = other.toNat % 0x2000) : SameCell address other := by
  rw [isWork_iff, UInt16.le_iff_toNat_le, UInt16.le_iff_toNat_le] at here there
  simp only [SameCell, IsEcho, UInt16.le_iff_toNat_le, ← UInt16.toNat_inj, UInt16.toNat_add]
  simp at *
  omega

/-- Within a region no larger than its memory, addresses at the same place are the same. -/
theorem eq_of_offset {region : Region} {size : Nat} {address other : UInt16}
    (fits : region.last.toNat < region.first.toNat + size) (here : Region.of address = region)
    (there : Region.of other = region)
    (same : (address - region.first).toNat % size = (other - region.first).toNat % size) :
    address = other :=
  Bank.eq_of_offset fits (of_eq_iff.mp here) (of_eq_iff.mp there) same

/-- The window of cartridge RAM shows each offset of a bank once. -/
theorem eq_of_window {address other : UInt16} (here : Region.of address = .externalRam)
    (there : Region.of other = .externalRam)
    (same : address.toNat % 0x2000 = other.toNat % 0x2000) : address = other := by
  rw [of_eq_iff, UInt16.le_iff_toNat_le, UInt16.le_iff_toNat_le] at here there
  simp only [first, last] at here there
  apply UInt16.toNat_inj.mp
  simp at *
  omega

end Region

/-! ## Cartridge RAM -/

namespace Cartridge

variable (cartridge : Cartridge)

theorem resolveRam_writeRam (address other : UInt16) (value : UInt8) :
    (cartridge.writeRam address value).resolveRam other = cartridge.resolveRam other := by
  rw [writeRam]
  split
  · rfl
  · next bank offset _ =>
      have fitted : (cartridge.ram.modify bank (·.write offset value)).isEmpty =
          cartridge.ram.isEmpty := by
        simp only [Array.isEmpty, Array.size_modify]
      simp only [resolveRam, fitted, Array.size_modify]

/-- All addresses of the window resolve to one bank. -/
theorem resolveRam_of_isSome {address : UInt16}
    (mapped : (cartridge.resolveRam address).isSome = true) :
    ∃ bank < cartridge.ram.size, ∀ other,
      cartridge.resolveRam other = some (bank, other.toNat % 0x2000) := by
  obtain ⟨⟨bank, offset⟩, resolved⟩ := Option.isSome_iff_exists.mp mapped
  refine ⟨bank, resolveRam_lt resolved, fun other => ?_⟩
  rw [resolveRam] at resolved ⊢
  split at resolved
  · cases resolved
  · next nonempty =>
      obtain ⟨selected, found, pair⟩ := Option.map_eq_some_iff.mp resolved
      cases pair
      rw [if_neg nonempty, found]
      rfl

/-- A byte of RAM that is mapped is found again at its address and nowhere else. -/
theorem readRam_writeRam {address : UInt16}
    (mapped : (cartridge.resolveRam address).isSome = true) (value : UInt8) (other : UInt16) :
    (cartridge.writeRam address value).readRam other =
      if address.toNat % 0x2000 = other.toNat % 0x2000 then value else cartridge.readRam other := by
  obtain ⟨bank, present, resolved⟩ := cartridge.resolveRam_of_isSome mapped
  have written := ramByte_operate present (Nat.mod_lt other.toNat (by decide : 0 < 0x2000))
    (.write address value)
  rw [stored, resolved] at written
  rw [readRam, readRam, resolveRam_writeRam, resolved]
  change (cartridge.operate (.write address value)).ramByte bank (other.toNat % 0x2000) = _
  rw [written]
  by_cases same : address.toNat % 0x2000 = other.toNat % 0x2000
  · rw [if_pos same, if_pos (by rw [same])]
    rfl
  · rw [if_neg same, if_neg (by simpa using same)]
    rfl

theorem writeRam_of_unmapped {address : UInt16} (unmapped : cartridge.resolveRam address = none)
    (value : UInt8) : cartridge.writeRam address value = cartridge := by
  rw [writeRam, unmapped]

theorem readRom_writeRam (address other : UInt16) (value : UInt8) :
    (cartridge.writeRam address value).readRom other = cartridge.readRom other := by
  rw [writeRam]
  split <;> rfl

end Cartridge

/-! ## Memory -/

namespace Board

/-- The address is not one of cartridge RAM that is disabled, unmapped or absent. -/
def isMapped (board : Board) (address : UInt16) : Bool :=
  Region.of address != .externalRam || (board.cartridge.resolveRam address).isSome

/-- Both addresses of a cell show its byte. -/
theorem memoryByte_of_isEcho {address other : UInt16} (echo : IsEcho address other)
    (board : Board) : board.memoryByte other = board.memoryByte address := by
  obtain ⟨above, below, rfl⟩ := echo
  have work : (Region.of address).isWork = true := Region.isWork_iff.mpr (by grind)
  have shown : Region.of (address + 0x2000) = .echo := by
    rw [Region.of_eq_iff, Region.first, Region.last]
    grind
  have same : (address + 0x2000).toNat % 0x2000 = address.toNat % 0x2000 := by
    rw [UInt16.toNat_add]
    simp
  have place : board.workRam.read (address + 0x2000).toNat = board.workRam.read address.toNat := by
    simp only [Bank.read, same]
  rw [memoryByte, memoryByte, shown]
  cases region : Region.of address <;> first | exact place | (rw [region] at work; cases work)

theorem memoryByte_of_sameCell {address other : UInt16} (same : SameCell address other)
    (board : Board) : board.memoryByte other = board.memoryByte address := by
  rcases same with rfl | echo | echo
  · rfl
  · exact memoryByte_of_isEcho echo board
  · exact (memoryByte_of_isEcho echo board).symm

/-- What is written to memory that is mapped is found at the address. -/
theorem memoryByte_store_self {address : UInt16} (memory : (Region.of address).isMemory = true)
    {board : Board} (mapped : board.isMapped address = true) (value : UInt8) :
    (board.store address value).memoryByte address = value := by
  rw [memoryByte, store]
  cases region : Region.of address with
  | vram | oam => exact Bank.read_write_self _ _ _
  | workRam0 | workRamN | echo => exact Bank.read_write_self _ _ _
  | highRam => exact Bank.read_write_self _ _ _
  | interruptEnable => rfl
  | externalRam =>
      have fitted : (board.cartridge.resolveRam address).isSome = true := by
        simpa [isMapped, region] using mapped
      exact (board.cartridge.readRam_writeRam fitted value address).trans (if_pos rfl)
  | romBank0 | romBankN | unusable | io => simp [Region.isMemory, region] at memory

/-- A write to memory is noticed in its own cell only. -/
theorem memoryByte_store_of_not_sameCell {address other : UInt16}
    (memory : (Region.of address).isMemory = true) (apart : ¬SameCell address other)
    (board : Board) (value : UInt8) :
    (board.store address value).memoryByte other = board.memoryByte other := by
  have distinct : address ≠ other := fun same => apart (.inl same)
  rw [memoryByte, memoryByte, store]
  cases region : Region.of address with
  | romBank0 | romBankN | unusable | io => simp [Region.isMemory, region] at memory
  | vram | oam | highRam =>
      cases there : Region.of other with
      | vram | oam | highRam =>
          -- another memory, or another place in the same
          first
          | rfl
          | exact Bank.read_write_of_ne _ _ fun same =>
              distinct (Region.eq_of_offset (by decide) region there same)
      | _ => rfl
  | interruptEnable =>
      cases there : Region.of other with
      | interruptEnable =>
          exact absurd (Region.eq_of_offset (by decide : 0xFFFF < 0xFFFF + 1) region there
            (by rw [Nat.mod_one, Nat.mod_one])) distinct
      | _ => rfl
  | workRam0 | workRamN | echo =>
      cases there : Region.of other with
      | workRam0 | workRamN | echo =>
          exact Bank.read_write_of_ne _ _ fun same =>
            apart (Region.sameCell_of_isWork (by rw [region]; rfl) (by rw [there]; rfl) same)
      | _ => rfl
  | externalRam =>
      cases there : Region.of other with
      | romBank0 | romBankN => exact board.cartridge.readRom_writeRam address other value
      | externalRam =>
          have elsewhere : ¬address.toNat % 0x2000 = other.toNat % 0x2000 := fun same =>
            distinct (Region.eq_of_window region there same)
          cases resolved : board.cartridge.resolveRam address with
          | none => simp only [board.cartridge.writeRam_of_unmapped resolved]
          | some place =>
              have mapped : (board.cartridge.resolveRam address).isSome = true := by
                rw [resolved]
                rfl
              exact (board.cartridge.readRam_writeRam mapped value other).trans (if_neg elsewhere)
      | _ => rfl

theorem portByte_store {address : UInt16} (memory : Region.of address ≠ .io) (board : Board)
    (value : UInt8) (other : UInt16) :
    (board.store address value).portByte other = board.portByte other := by
  obtain ⟨_, _, _, _, _, _, _, stored⟩ := store_of_memory memory board value
  rw [stored, portByte, portByte]
  cases Port.of other <;> rfl

theorem store_of_unmapped {board : Board} {address : UInt16}
    (unmapped : board.isMapped address = false) (value : UInt8) :
    board.store address value = board := by
  rw [isMapped, Bool.or_eq_false_iff, bne_eq_false_iff_eq, Option.isSome_eq_false_iff,
    Option.isNone_iff_eq_none] at unmapped
  rw [store, unmapped.1]
  simp only [board.cartridge.writeRam_of_unmapped unmapped.2]

theorem isMapped_store {address : UInt16} (memory : (Region.of address).isMemory = true)
    (board : Board) (value : UInt8) (other : UInt16) :
    (board.store address value).isMapped other = board.isMapped other := by
  rw [isMapped, isMapped, store]
  cases region : Region.of address with
  | romBank0 | romBankN | unusable | io => simp [Region.isMemory, region] at memory
  | externalRam => simp only [board.cartridge.resolveRam_writeRam]
  | _ => rfl

theorem region_ne_io {address other : UInt16} (memory : (Region.of address).isMemory = true)
    (same : SameCell address other) : Region.of other ≠ .io := by
  rcases same with rfl | ⟨above, below, rfl⟩ | ⟨above, below, _⟩
  · intro io
    rw [io] at memory
    cases memory
  · rw [ne_eq, Region.of_eq_iff, Region.first]
    grind
  · rw [ne_eq, Region.of_eq_iff, Region.first]
    grind

/-- Which byte is found where after a write to memory. -/
theorem peek_store {address : UInt16} (memory : (Region.of address).isMemory = true)
    (board : Board) (value : UInt8) (other : UInt16) :
    (board.store address value).peek other =
      if board.isMapped address = true ∧ SameCell address other then .ok value
      else board.peek other := by
  have storage : Region.of address ≠ .io := region_ne_io memory (.inl rfl)
  by_cases io : Region.of other = .io
  · rw [if_neg fun cell => region_ne_io memory cell.2 io, peek, peek, io]
    exact portByte_store storage board value other
  rw [peek_of_memory io, peek_of_memory io]
  cases mapped : board.isMapped address with
  | false => rw [store_of_unmapped mapped, if_neg (fun cell => Bool.false_ne_true cell.1)]
  | true =>
      by_cases same : SameCell address other
      · rw [if_pos ⟨rfl, same⟩, memoryByte_of_sameCell same, memoryByte_store_self memory mapped]
      · rw [if_neg (fun cell => same cell.2), memoryByte_store_of_not_sameCell memory same]

/-! ## Accesses -/

theorem outcome_read (address : UInt16) (board : Board) :
    outcome (Bus.read address) board = board.peek address := by
  rw [outcome]
  cases found : board.peek address with
  | ok value => rw [read_of_peek found]
  | error error => rw [read_of_peek_error found]

theorem write_of_memory {address : UInt16} (memory : (Region.of address).isMemory = true)
    (board : Board) (value : UInt8) :
    Bus.write address value board = .ok () (board.store address value) := by
  have taken : board.refusal address value = none := by
    rw [refusal]
    cases region : Region.of address with
    | romBank0 | romBankN | unusable => simp [Region.isMemory, region] at memory
    | _ => rfl
  rw [write_apply, taken]

/-- A word written to memory is read back. -/
theorem readWord_writeWord {board : Board} {address : UInt16}
    (low : (Region.of address).isMemory = true) (high : (Region.of (address + 1)).isMemory = true)
    (mapped : board.isMapped address = true) (mappedToo : board.isMapped (address + 1) = true)
    (word : UInt16) :
    ∃ after, Bus.writeWord address word board = .ok () after ∧
      Bus.readWord address after = .ok word after := by
  let half := board.store address (Word.low word)
  have still : half.isMapped (address + 1) = true := (isMapped_store low _ _ _).trans mappedToo
  have lowByte : (half.store (address + 1) (Word.high word)).peek address =
      .ok (Word.low word) := by
    rw [peek_store high, if_neg fun cell => not_sameCell_succ address cell.2.symm,
      peek_store low, if_pos ⟨mapped, .inl rfl⟩]
  have highByte : (half.store (address + 1) (Word.high word)).peek (address + 1) =
      .ok (Word.high word) := by
    rw [peek_store high, if_pos ⟨still, .inl rfl⟩]
  refine ⟨half.store (address + 1) (Word.high word), ?_, ?_⟩
  · rw [Bus.writeWord, bind_of_ok (write_of_memory low board _)]
    exact write_of_memory high half _
  · rw [Bus.readWord, bind_of_ok (read_of_peek lowByte), bind_of_ok (read_of_peek highByte),
      Word.ofBytes_high_low]
    rfl

/-- A write to memory always succeeds.  Its byte is then read at each address of its cell, and every
other read comes to what it came to before, at a register and at an address that refuses it, too.
Where cartridge RAM is not mapped nothing changes.  A word written to memory that is mapped is read
back. -/
theorem write_shows_in_its_cell (board : Board) {address : UInt16} (value : UInt8)
    (memory : (Region.of address).isMemory = true) :
    (∃ after, Bus.write address value board = .ok () after ∧
      (∀ other, outcome (Bus.read other) after =
        if board.isMapped address = true ∧ SameCell address other then .ok value
        else outcome (Bus.read other) board) ∧
      (board.isMapped address = false → after = board)) ∧
    ∀ word, (Region.of (address + 1)).isMemory = true → board.isMapped address = true →
      board.isMapped (address + 1) = true →
      ∃ after, Bus.writeWord address word board = .ok () after ∧
        Bus.readWord address after = .ok word after := by
  refine ⟨⟨_, write_of_memory memory board value, fun other => ?_, fun unmapped => ?_⟩, ?_⟩
  · rw [outcome_read, outcome_read]
    exact peek_store memory board value other
  · exact store_of_unmapped unmapped value
  · exact fun word high mapped mappedToo => readWord_writeWord memory high mapped mappedToo word

/-- A board with one bank of cartridge RAM, which has been enabled. -/
def withMappedRam : Board :=
  let cartridge : Cartridge :=
    { Cartridge.romOnly (Bank.filled 0) (Bank.filled 0) with
      kind := Cartridge.mbc1Ram, ram := #[Bank.filled 0xFF], mapper := .mbc1 {} }
  final (Bus.write 0x0000 0x0A) (boot cartridge {} .discard)

theorem write_shows_in_its_cell_borders :
    (∃ after, Bus.write 0xFDFF 0x5A withMappedRam = .ok () after ∧
      outcome (Bus.read 0xDDFF) after = .ok 0x5A ∧
      outcome (Bus.read 0xFE00) after = outcome (Bus.read 0xFE00) withMappedRam) ∧
    ∃ after, Bus.writeWord 0xBFFF 0x1234 withMappedRam = .ok () after ∧
      Bus.readWord 0xBFFF after = .ok 0x1234 after := by
  have echo : (Region.of 0xFDFF).isMemory = true := rfl
  have last : (Region.of 0xBFFF).isMemory = true := rfl
  obtain ⟨⟨after, ran, reads, _⟩, _⟩ := write_shows_in_its_cell withMappedRam 0x5A echo
  refine ⟨⟨after, ran, ?_, ?_⟩, ?_⟩
  · exact (reads 0xDDFF).trans (if_pos (by decide +kernel))
  · exact (reads 0xFE00).trans (if_neg (by decide +kernel))
  · exact (write_shows_in_its_cell withMappedRam 0 last).2 0x1234 rfl (by decide +kernel)
      (by decide +kernel)

end Board
end GameBoy
