import GameBoy.Proofs.BankSelection
import GameBoy.Proofs.Clock
import GameBoy.Proofs.Refusal
import Mathlib.Data.Nat.ModEq

/-!
# The mapped bank

Of all that is done to a board only the writes below the memories reach the bank controller, and
they alone switch the ROM bank behind the second window.  A bank number does so, and on the first
controller also the upper bits of one, which are taken through the window of the RAM bank.
-/

namespace GameBoy

open Effect

namespace ControlWindow

theorem contains_iff {window : ControlWindow} {address : UInt16} :
    window.contains address = true ↔
      window.first ≤ address.toNat ∧ address.toNat < window.past := by
  rw [contains, Bool.and_eq_true, decide_eq_true_iff, decide_eq_true_iff]

/-- The windows that select a bank lie below the memories. -/
theorem low_of_contains {window : ControlWindow} {address : UInt16} (below : window.past ≤ 0x8000)
    (within : window.contains address = true) : address < 0x8000 :=
  UInt16.lt_iff_toNat_lt.mpr (Nat.lt_of_lt_of_le (contains_iff.mp within).2 below)

/-- The two windows of a ROM bank that has nine bits are parts of that of a ROM bank. -/
theorem rom_parts {address : UInt16} (outside : rom.contains address = false) :
    romLow.contains address = false ∧ romHigh.contains address = false := by
  simp only [Bool.eq_false_iff, ne_eq, contains_iff, rom, romLow, romHigh] at *
  omega

end ControlWindow

namespace Mapper

theorem isPresent_write (mapper : Mapper) (address : UInt16) (value : UInt8) :
    (mapper.write address value).isPresent = mapper.isPresent := by
  cases mapper <;> rfl

/-- A write does not turn another controller into the first. -/
theorem exists_of_write {mapper : Mapper} {address : UInt16} {value : UInt8} {registers : Mbc1}
    (written : mapper.write address value = .mbc1 registers) :
    ∃ before, mapper = .mbc1 before := by
  cases mapper <;> cases written
  exact ⟨_, rfl⟩

open ControlWindow in
/-- Where a write outside the window of the bank number changes the bank behind the second window,
the first controller has been given other upper bits. -/
theorem romBank_write_ne_iff (mapper : Mapper) (banks : Nat) {address : UInt16}
    (outside : rom.contains address = false) (value : UInt8) :
    (mapper.write address value).romBank true % banks ≠ mapper.romBank true % banks ↔
      ram.contains address = true ∧ ∃ registers, mapper = .mbc1 registers ∧
        (value &&& 0x03).toNat * 0x20 % banks ≠ registers.high.toNat * 0x20 % banks := by
  cases mapper with
  | none => simp [write]
  | mbc1 registers =>
      simp only [write, romBank, Mbc1.write_eq, Mbc1.romBank, outside, Mapper.mbc1.injEq,
        exists_eq_left', if_true, Bool.false_eq_true, if_false]
      cases ram.contains address with
      | false => simp
      | true =>
          -- the lower bits stay as they are
          have cancel (upper lower : Nat) :
              (upper + registers.low.toNat) % banks = (lower + registers.low.toNat) % banks ↔
                upper % banks = lower % banks :=
            ⟨Nat.ModEq.add_right_cancel' _, fun same => Nat.ModEq.add_right _ same⟩
          simp [cancel]
  | mbc3 registers => simp [write, romBank, Mbc3.write_eq, Mbc3.romBank, outside]
  | mbc5 registers =>
      obtain ⟨low, high⟩ := rom_parts outside
      simp [write, romBank, Mbc5.write_eq, Mbc5.romBank, low, high]

end Mapper

namespace Board

/-- The ROM bank behind the second window. -/
def mappedBank (board : Board) : Nat :=
  board.cartridge.selectedRomBank

/-- All addresses of the second window resolve to the mapped bank. -/
theorem resolveRom_of_second (board : Board) {address : UInt16} (past : 0x4000 ≤ address)
    (below : address ≤ 0x7FFF) : (board.cartridge.resolveRom address).1 = board.mappedBank := by
  rw [UInt16.le_iff_toNat_le] at past below
  have second : 0x4000 ≤ address.toNat % 0x8000 := by
    simp at past below
    omega
  rw [Cartridge.resolveRom, decide_eq_true second]
  rfl

/-- The operation writes to the window through which a controller takes the number of a ROM bank. -/
def Operation.selectsBank : Operation → Bool
  | .write address _ => ControlWindow.rom.contains address
  | _ => false

/-- The operation gives the first controller other upper bits of the ROM bank and thereby switches
the bank. -/
def SwitchesUnseen (board : Board) : Operation → Prop
  | .write address value =>
    ControlWindow.ram.contains address = true ∧
      ∃ registers, board.cartridge.mapper = .mbc1 registers ∧
        (value &&& 0x03).toNat * 0x20 % board.cartridge.rom.size ≠
          registers.high.toNat * 0x20 % board.cartridge.rom.size
  | _ => False

/-- The bank number alone selects the bank: another controller is fitted than the first, or the
number of banks is such that the upper bits make no difference. -/
def SelectsByNumber (board : Board) : Prop :=
  ∀ registers, board.cartridge.mapper = .mbc1 registers → board.cartridge.rom.size ∣ 32

/-- All that decides which ROM bank is mapped: the controller and the number of banks. -/
def banking (board : Board) : Mapper × Nat :=
  (board.cartridge.mapper, board.cartridge.rom.size)

theorem mappedBank_eq (board : Board) :
    board.mappedBank = board.banking.1.romBank true % board.banking.2 := rfl

variable {σ : Type} (render : Renderer σ) {board : Board} {address : UInt16}

/-! ## Parts of an operation -/

theorem refusal_of_controlled (controlled : board.cartridge.mapper.isPresent = true)
    (low : address < 0x8000) (value : UInt8) : board.refusal address value = none := by
  rw [refusal]
  rcases Region.of_rom_iff.mpr low with region | region <;> simp [region, controlled]

/-- A write below the memories goes to the controller. -/
theorem operate_write_of_low (controlled : board.cartridge.mapper.isPresent = true)
    (low : address < 0x8000) (value : UInt8) (screen : σ) :
    operate render (.write address value) (board, screen) =
      (board.storeRom address value, screen) := by
  simp only [operate, final, write_apply, refusal_of_controlled controlled low value, store]
  rcases Region.of_rom_iff.mpr low with region | region <;> simp [region]

theorem banking_storeRom (controlled : board.cartridge.mapper.isPresent = true) (address : UInt16)
    (value : UInt8) :
    (board.storeRom address value).banking =
      (board.cartridge.mapper.write address value, board.cartridge.rom.size) := by
  rw [storeRom, if_pos controlled]
  simp only
  split <;> rfl

theorem banking_collect (board : Board) : board.collect.banking = board.banking := by
  obtain ⟨_, _, collected⟩ := board.collect_eq
  rw [collected]
  rfl

theorem banking_storePort (board : Board) (address : UInt16) (value : UInt8) :
    (board.storePort address value).banking = board.banking := by
  rw [storePort]
  cases Port.of address with
  | picture =>
      obtain ⟨_, stored⟩ := board.storePicture_eq address value
      rw [stored]
      rfl
  | oamDma =>
      obtain ⟨_, _, _, copied⟩ := board.oamDma_eq value
      rw [copied]
      rfl
  | _ => rfl

theorem banking_writeRam (cartridge : Cartridge) (address : UInt16) (value : UInt8) :
    (cartridge.writeRam address value).mapper = cartridge.mapper ∧
      (cartridge.writeRam address value).rom = cartridge.rom := by
  rw [Cartridge.writeRam]
  split <;> exact ⟨rfl, rfl⟩

/-- Only writes below the memories reach the controller. -/
theorem banking_store_of_high (high : ¬address < 0x8000) (value : UInt8) :
    (board.store address value).banking = board.banking := by
  rw [store]
  cases region : Region.of address with
  | romBank0 => exact absurd (Region.of_rom_iff.mp (.inl region)) high
  | romBankN => exact absurd (Region.of_rom_iff.mp (.inr region)) high
  | externalRam =>
      obtain ⟨mapper, rom⟩ := banking_writeRam board.cartridge address value
      simp only [banking, mapper, rom]
  | io => exact (banking_collect _).trans (banking_storePort board address value)
  | _ => rfl

/-! ## Operations -/

/-- What an operation makes of the controller and the number of banks. -/
def bankingAfter (banking : Mapper × Nat) : Operation → Mapper × Nat
  | .write address value =>
    if address < 0x8000 then (banking.1.write address value, banking.2) else banking
  | _ => banking

/-- No operation changes the number of banks, takes the controller away or makes another one the
first. -/
theorem bankingAfter_keeps (banking : Mapper × Nat) (operation : Operation) :
    (bankingAfter banking operation).1.isPresent = banking.1.isPresent ∧
      (bankingAfter banking operation).2 = banking.2 ∧
      ∀ registers, (bankingAfter banking operation).1 = .mbc1 registers →
        ∃ before, banking.1 = .mbc1 before := by
  have unchanged : ∀ registers, banking.1 = .mbc1 registers → ∃ before, banking.1 = .mbc1 before :=
    fun registers fitted => ⟨registers, fitted⟩
  cases operation with
  | write address value =>
      rw [bankingAfter]
      split
      · exact ⟨banking.1.isPresent_write address value, rfl, fun _ => Mapper.exists_of_write⟩
      · exact ⟨rfl, rfl, unchanged⟩
  | _ => exact ⟨rfl, rfl, unchanged⟩

theorem banking_operate (controlled : board.cartridge.mapper.isPresent = true) (screen : σ)
    (operation : Operation) :
    (operate render operation (board, screen)).1.banking =
      bankingAfter board.banking operation := by
  cases operation with
  | read address =>
      rcases read_ok_or_record address board with same | ⟨event, same⟩ <;>
        simp only [operate, same] <;> rfl
  | write address value =>
      rw [bankingAfter]
      split
      · next low =>
          rw [operate_write_of_low render controlled low]
          exact banking_storeRom controlled address value
      · next high =>
          simp only [operate, final, write_apply]
          cases board.refusal address value with
          | some error => rfl
          | none => exact banking_store_of_high high value
  | tick cycles => exact banking_collect _
  | setButton button pressed => exact banking_collect _
  | request lines => rfl

/-- The mapped bank is switched through the window of the bank number, and beyond that unseen. -/
theorem mappedBank_operate_ne_iff (controlled : board.cartridge.mapper.isPresent = true)
    (screen : σ) {operation : Operation} (unnamed : operation.selectsBank = false) :
    (operate render operation (board, screen)).1.mappedBank ≠ board.mappedBank ↔
      board.SwitchesUnseen operation := by
  rw [mappedBank_eq, mappedBank_eq, banking_operate render controlled]
  cases operation with
  | write address value =>
      rw [bankingAfter, SwitchesUnseen]
      split
      · exact Mapper.romBank_write_ne_iff _ _ unnamed value
      · next high =>
          refine iff_of_false (not_not_intro rfl) fun unseen => high ?_
          exact ControlWindow.low_of_contains (by decide) unseen.1
  | _ => exact iff_of_false (not_not_intro rfl) not_false

/-- The upper bits are taken through another window than the bank number. -/
theorem SwitchesUnseen.selectsBank {operation : Operation}
    (unseen : board.SwitchesUnseen operation) : operation.selectsBank = false := by
  cases operation with
  | write address value =>
      have above := (ControlWindow.contains_iff.mp unseen.1).1
      refine Bool.eq_false_iff.mpr fun selects => ?_
      have below := (ControlWindow.contains_iff.mp selects).2
      exact absurd (Nat.lt_of_le_of_lt above below) (by decide)
  | _ => rfl

theorem SelectsByNumber.not_switchesUnseen (byNumber : board.SelectsByNumber)
    (operation : Operation) : ¬board.SwitchesUnseen operation := by
  cases operation with
  | write address value =>
      rintro ⟨-, registers, fitted, differs⟩
      have divides := byNumber registers fitted
      rw [Nat.mod_eq_zero_of_dvd (divides.mul_left _),
        Nat.mod_eq_zero_of_dvd (divides.mul_left _)] at differs
      exact differs rfl
  | _ => exact not_false

/-! ## Histories of operations -/

theorem operateAll_concat (operations : List Operation) (operation : Operation) (now : Board × σ) :
    operateAll render (operations ++ [operation]) now =
      operate render operation (operateAll render operations now) :=
  List.foldl_concat _ _ _ _

/-- A history makes of the controller what its writes make of it. -/
theorem banking_operateAll {now : Board × σ}
    (controlled : now.1.cartridge.mapper.isPresent = true) (operations : List Operation) :
    (operateAll render operations now).1.banking =
      operations.foldl bankingAfter now.1.banking := by
  induction operations generalizing now with
  | nil => rfl
  | cons operation operations ih =>
      have first := banking_operate render controlled now.2 operation
      have stays : (operate render operation now).1.banking.1.isPresent = true := by
        rw [first, ← controlled]
        exact (bankingAfter_keeps now.1.banking operation).1
      have later := ih stays
      rw [first] at later
      exact later

theorem foldl_bankingAfter_keeps (operations : List Operation) (banking : Mapper × Nat) :
    (operations.foldl bankingAfter banking).1.isPresent = banking.1.isPresent ∧
      (operations.foldl bankingAfter banking).2 = banking.2 ∧
      ∀ registers, (operations.foldl bankingAfter banking).1 = .mbc1 registers →
        ∃ before, banking.1 = .mbc1 before := by
  induction operations generalizing banking with
  | nil => exact ⟨rfl, rfl, fun registers fitted => ⟨registers, fitted⟩⟩
  | cons operation operations ih =>
      obtain ⟨present, banks, first⟩ := bankingAfter_keeps banking operation
      obtain ⟨presentToo, banksToo, firstToo⟩ := ih (bankingAfter banking operation)
      refine ⟨presentToo.trans present, banksToo.trans banks, fun registers fitted => ?_⟩
      obtain ⟨before, between⟩ := firstToo registers fitted
      exact first before between

theorem controlled_operateAll {now : Board × σ}
    (controlled : now.1.cartridge.mapper.isPresent = true) (operations : List Operation) :
    (operateAll render operations now).1.cartridge.mapper.isPresent = true := by
  have banking := banking_operateAll render controlled operations
  change (operateAll render operations now).1.banking.1.isPresent = true
  rw [banking, (foldl_bankingAfter_keeps operations _).1]
  exact controlled

theorem selectsByNumber_operateAll {now : Board × σ}
    (controlled : now.1.cartridge.mapper.isPresent = true) (byNumber : now.1.SelectsByNumber)
    (operations : List Operation) : (operateAll render operations now).1.SelectsByNumber := by
  intro registers fitted
  obtain ⟨-, banks, first⟩ := foldl_bankingAfter_keeps operations now.1.banking
  rw [← banking_operateAll render controlled operations] at banks first
  obtain ⟨before, fittedBefore⟩ := first registers fitted
  change (operateAll render operations now).1.cartridge.rom.size =
    now.1.cartridge.rom.size at banks
  rw [banks]
  exact byNumber before fittedBefore

/-- The mapped bank follows from the writes of a history and the number of banks at its start. -/
theorem mappedBank_operateAll {now : Board × σ}
    (controlled : now.1.cartridge.mapper.isPresent = true) (operations : List Operation) :
    (operateAll render operations now).1.mappedBank =
      (operations.foldl bankingAfter now.1.banking).1.romBank true % now.1.cartridge.rom.size := by
  rw [mappedBank_eq, banking_operateAll render controlled,
    (foldl_bankingAfter_keeps operations _).2.1]
  rfl

end Board
end GameBoy
