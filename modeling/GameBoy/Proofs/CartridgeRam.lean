import GameBoy.Fault
import GameBoy.Proofs.BankSelection

/-!
# Cartridge RAM

Cartridge RAM is one byte for each pair of a bank and an offset.  Whatever is done to the controller
in between, a byte keeps the last value that was written while the RAM window resolved to its pair.
A bank that an address resolves to is always present.
-/

namespace GameBoy
namespace Cartridge

variable {rom : Array RomBank} {ramBanks : Nat} {kind : CartridgeKind} {cartridge : Cartridge}

/-! ## Banks that are present

The accesses of a cartridge, with the bank looked up among those present. -/

/-- The bank with a number among some banks. -/
def bankAt {size : Nat} (banks : Array (Bank size)) (bank : Nat) :
    Except MemoryError (Bank size) :=
  match banks[bank]? with
  | some found => .ok found
  | none => .error (.bankOutOfRange bank banks.size)

theorem bankAt_of_lt {size : Nat} {banks : Array (Bank size)} {bank : Nat}
    (present : bank < banks.size) (other : Bank size) :
    bankAt banks bank = .ok (banks.getD bank other) := by
  simp [bankAt, present]

/-- Look up the bank of a ROM address and read a byte. -/
def lookUpRom (cartridge : Cartridge) (address : UInt16) : Except MemoryError UInt8 := do
  let (bank, offset) := cartridge.resolveRom address
  let found ← bankAt cartridge.rom bank
  pure (found.read offset)

/-- Look up the bank of a RAM address, if there is one, and read a byte. -/
def lookUpRam (cartridge : Cartridge) (address : UInt16) : Except MemoryError UInt8 :=
  match cartridge.resolveRam address with
  | none => .ok 0xFF
  | some (bank, offset) => do
    let found ← bankAt cartridge.ram bank
    pure (found.read offset)

/-- Look up the bank of a RAM address, if there is one, and replace a byte. -/
def replaceRam (cartridge : Cartridge) (address : UInt16) (value : UInt8) :
    Except MemoryError Cartridge :=
  match cartridge.resolveRam address with
  | none => .ok cartridge
  | some (bank, offset) => do
    let found ← bankAt cartridge.ram bank
    pure { cartridge with ram := cartridge.ram.setIfInBounds bank (found.write offset value) }

theorem lookUpRom_eq (cartridge : Cartridge) (address : UInt16) :
    cartridge.lookUpRom address = .ok (cartridge.readRom address) := by
  simp only [lookUpRom, bankAt_of_lt (cartridge.resolveRom_lt address) (Bank.filled 0xFF)]
  rfl

theorem lookUpRam_eq (cartridge : Cartridge) (address : UInt16) :
    cartridge.lookUpRam address = .ok (cartridge.readRam address) := by
  rw [lookUpRam, readRam]
  cases resolved : cartridge.resolveRam address with
  | none => rfl
  | some pair =>
      simp only [bankAt_of_lt (resolveRam_lt resolved) (Bank.filled 0xFF)]
      rfl

theorem replaceRam_eq (cartridge : Cartridge) (address : UInt16) (value : UInt8) :
    cartridge.replaceRam address value = .ok (cartridge.writeRam address value) := by
  rw [replaceRam, writeRam]
  cases resolved : cartridge.resolveRam address with
  | none => rfl
  | some pair =>
      have present := resolveRam_lt resolved
      have same : cartridge.ram.setIfInBounds pair.1
            ((cartridge.ram.getD pair.1 (Bank.filled 0xFF)).write pair.2 value) =
          cartridge.ram.modify pair.1 (·.write pair.2 value) := by
        apply Array.ext_getElem?
        intro i
        rw [Array.getElem?_setIfInBounds, Array.getElem?_modify]
        by_cases hit : pair.1 = i
        · subst hit
          simp [present]
        · simp [hit]
      simp only [bankAt_of_lt present (Bank.filled 0xFF), ← same]
      rfl

/-! ## Operations -/

/-- What is done to a cartridge from outside: its controller is written, or its RAM is written or
read. -/
inductive Operation where
  | control (address : UInt16) (value : UInt8)
  | write (address : UInt16) (value : UInt8)
  | read (address : UInt16)

/-- The cartridge after an operation. -/
def operate (cartridge : Cartridge) : Operation → Cartridge
  | .control address value => cartridge.writeControl address value
  | .write address value => cartridge.writeRam address value
  | .read _ => cartridge

/-- The cartridge after a number of operations. -/
def operateAll (cartridge : Cartridge) (operations : List Operation) : Cartridge :=
  operations.foldl operate cartridge

/-- The value that an operation stores in a byte of RAM, if it does. -/
def stored (cartridge : Cartridge) (bank offset : Nat) : Operation → Option UInt8
  | .write address value =>
    if cartridge.resolveRam address = some (bank, offset) then some value else none
  | _ => none

/-- The values stored in a byte of RAM in the course of some operations, oldest first. -/
def valuesStored (bank offset : Nat) : Cartridge → List Operation → List UInt8
  | _, [] => []
  | cartridge, operation :: operations =>
    (cartridge.stored bank offset operation).toList ++
      valuesStored bank offset (cartridge.operate operation) operations

/-- A byte of RAM. -/
def ramByte (cartridge : Cartridge) (bank offset : Nat) : UInt8 :=
  (cartridge.ram.getD bank (Bank.filled 0xFF)).read offset

/-- An operation changes neither ROM nor the number of RAM banks. -/
theorem banks_operate (cartridge : Cartridge) (operation : Operation) :
    (cartridge.operate operation).rom = cartridge.rom ∧
      (cartridge.operate operation).ram.size = cartridge.ram.size := by
  cases operation with
  | control address value | read address => exact ⟨rfl, rfl⟩
  | write address value =>
      rw [operate, writeRam]
      split
      · exact ⟨rfl, rfl⟩
      · exact ⟨rfl, Array.size_modify⟩

/-- Each address of the RAM window resolves to an offset of its own. -/
theorem offset_of_resolveRam {address : UInt16} {bank offset : Nat}
    (resolved : cartridge.resolveRam address = some (bank, offset)) :
    offset = address.toNat % 0x2000 := by
  rw [resolveRam] at resolved
  split at resolved
  · cases resolved
  · obtain ⟨_, _, pair⟩ := Option.map_eq_some_iff.mp resolved
    cases pair
    rfl

/-- An operation changes a byte of RAM only by storing a value in it. -/
theorem ramByte_operate {bank offset : Nat} (present : bank < cartridge.ram.size)
    (inside : offset < 0x2000) (operation : Operation) :
    (cartridge.operate operation).ramByte bank offset =
      (cartridge.stored bank offset operation).getD (cartridge.ramByte bank offset) := by
  cases operation with
  | control address value | read address => rfl
  | write address value =>
      rw [operate, writeRam, stored]
      cases resolved : cartridge.resolveRam address with
      | none => rfl
      | some pair =>
          obtain ⟨found, place⟩ := pair
          have within : place < 0x2000 := by
            rw [offset_of_resolveRam resolved]
            exact Nat.mod_lt _ (by decide)
          simp only [ramByte, Array.getD_eq_getD_getElem?, Array.getElem?_modify]
          by_cases bankHit : found = bank
          · subst bankHit
            rw [if_pos rfl, Array.getElem?_eq_getElem present]
            by_cases hit : place = offset
            · subst hit
              simp
            · have apart : place % 0x2000 ≠ offset % 0x2000 := by omega
              simp [hit, Bank.read_write_of_ne _ value apart]
          · simp [bankHit]

theorem getLastD_toList_append {α : Type} (value : Option α) (values : List α) (default : α) :
    (value.toList ++ values).getLastD default = values.getLastD (value.getD default) := by
  cases value with
  | none => rfl
  | some first => exact List.getLastD_cons

/-- A byte of RAM holds the last value stored in it. -/
theorem ramByte_operateAll {bank offset : Nat} (present : bank < cartridge.ram.size)
    (inside : offset < 0x2000) (operations : List Operation) :
    (cartridge.operateAll operations).ramByte bank offset =
      (valuesStored bank offset cartridge operations).getLastD (cartridge.ramByte bank offset) := by
  induction operations generalizing cartridge with
  | nil => rfl
  | cons operation operations ih =>
      have still : bank < (cartridge.operate operation).ram.size := by
        rwa [(cartridge.banks_operate operation).2]
      rw [valuesStored, getLastD_toList_append, ← ramByte_operate present inside]
      exact ih still

theorem banks_operateAll (cartridge : Cartridge) (operations : List Operation) :
    (cartridge.operateAll operations).rom = cartridge.rom ∧
      (cartridge.operateAll operations).ram.size = cartridge.ram.size := by
  induction operations generalizing cartridge with
  | nil => exact ⟨rfl, rfl⟩
  | cons operation operations ih =>
      obtain ⟨rom, ram⟩ := cartridge.banks_operate operation
      obtain ⟨romLater, ramLater⟩ := ih (cartridge.operate operation)
      exact ⟨romLater.trans rom, ramLater.trans ram⟩

/-- On a cartridge that has been built, every byte of RAM holds the last value stored in it, or 0xFF
if there was none, whatever has been done to the controller meanwhile.  A read finds the byte that
the address resolves to at the time, the bank of which is present, or an open bus.  ROM and the
numbers of banks stay. -/
theorem ram_holds_last_stored (built : build rom ramBanks kind = .ok cartridge)
    (operations : List Operation) :
    let now := cartridge.operateAll operations
    let byte := fun bank offset => (valuesStored bank offset cartridge operations).getLastD 0xFF
    (∀ bank offset, bank < ramBanks → offset < 0x2000 →
      now.ram[bank]?.map (·.read offset) = some (byte bank offset)) ∧
    (∀ address, now.lookUpRam address = .ok (now.readRam address) ∧
      now.readRam address =
        match now.resolveRam address with
        | some (bank, offset) => byte bank offset
        | none => 0xFF) ∧
    (∀ address value, now.replaceRam address value = .ok (now.writeRam address value)) ∧
    (∀ address bank offset, now.resolveRam address = some (bank, offset) →
      bank < ramBanks ∧ offset = address.toNat % 0x2000) ∧
    (∀ address value, (now.writeControl address value).ram = now.ram) ∧
    now.rom = rom ∧ now.ram.size = ramBanks := by
  obtain ⟨_, rfl, empty⟩ := build_ok built
  have count : cartridge.ram.size = ramBanks := by
    rw [empty, Array.size_replicate]
  intro now byte
  obtain ⟨rom, ram⟩ := cartridge.banks_operateAll operations
  have size : now.ram.size = ramBanks := ram.trans count
  have holds {bank offset : Nat} (present : bank < ramBanks) (inside : offset < 0x2000) :
      now.ramByte bank offset = byte bank offset := by
    have cleared : cartridge.ramByte bank offset = 0xFF := by
      rw [ramByte, empty]
      simp [present]
    rw [ramByte_operateAll (count ▸ present) inside, cleared]
  have resolves {address : UInt16} {bank offset : Nat}
      (resolved : now.resolveRam address = some (bank, offset)) :
      bank < ramBanks ∧ offset = address.toNat % 0x2000 :=
    ⟨size ▸ resolveRam_lt resolved, offset_of_resolveRam resolved⟩
  refine ⟨?_, fun address => ⟨now.lookUpRam_eq address, ?_⟩, now.replaceRam_eq,
    fun _ _ _ => resolves, fun _ _ => rfl, rom, size⟩
  · intro bank offset present inside
    rw [← holds present inside, ramByte, Array.getD_eq_getD_getElem?,
      Array.getElem?_eq_getElem (size.symm ▸ present)]
    rfl
  · rw [readRam]
    cases resolved : now.resolveRam address with
    | none => rfl
    | some pair =>
        obtain ⟨present, offset⟩ := resolves resolved
        exact holds present (by omega)

/-- Write to two RAM banks in turn and, with RAM switched off, to neither. -/
def switching : List Operation :=
  [.control 0x0000 0x0A, .control 0x6000 0x01, .control 0x4000 0x02, .write 0xA000 0x22,
    .control 0x4000 0x01, .write 0xA000 0x11, .control 0x0000 0x00, .write 0xA000 0x99,
    .read 0xA000, .control 0x0000 0x0A, .control 0x4000 0x02]

theorem ram_holds_last_stored_switching : ∃ cartridge,
    build (Array.replicate 4 (Bank.filled 0)) 4 mbc1Ram = .ok cartridge ∧
      (cartridge.operateAll switching).readRam 0xA000 = 0x22 ∧
      (cartridge.operateAll switching).ram[1]?.map (·.read 0) = some 0x11 := by
  refine ⟨_, rfl, ?_⟩
  have built : build (Array.replicate 4 (Bank.filled 0)) 4 mbc1Ram = .ok _ := rfl
  obtain ⟨holds, reads, _⟩ := ram_holds_last_stored built switching
  refine ⟨(reads 0xA000).2.trans ?_, (holds 1 0 (by decide) (by decide)).trans ?_⟩
  · decide +kernel
  · decide +kernel

end Cartridge
end GameBoy
