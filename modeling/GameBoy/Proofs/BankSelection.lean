import GameBoy.Cartridge.Basic
import GameBoy.Word
import Mathlib.Data.List.Induction

/-!
# Bank selection

A bank controller is written through a few windows of addresses.  Of all that has been written to a
window only the last value counts, and these values alone decide which ROM bank stands behind each
of the two ROM windows and which RAM bank, if any, behind the RAM window.
-/

namespace GameBoy

/-- A range of addresses through which a bank controller takes one of its registers. -/
structure ControlWindow where
  first : Nat
  /-- The address behind the last one. -/
  past : Nat

namespace ControlWindow

/-- Switches RAM on and off. -/
def enable : ControlWindow := ⟨0x0000, 0x2000⟩

/-- Selects a ROM bank. -/
def rom : ControlWindow := ⟨0x2000, 0x4000⟩

/-- Selects the low byte of a ROM bank that has nine bits. -/
def romLow : ControlWindow := ⟨0x2000, 0x3000⟩

/-- Selects the highest bit of a ROM bank that has nine bits. -/
def romHigh : ControlWindow := ⟨0x3000, 0x4000⟩

/-- Selects a RAM bank or the upper bits of a ROM bank. -/
def ram : ControlWindow := ⟨0x4000, 0x6000⟩

/-- Selects the banking mode. -/
def mode : ControlWindow := ⟨0x6000, 0x10000⟩

/-- The address lies in the window. -/
def contains (window : ControlWindow) (address : UInt16) : Bool :=
  window.first ≤ address.toNat && address.toNat < window.past

end ControlWindow

/-- A value written to an address of a bank controller. -/
structure ControlWrite where
  address : UInt16
  value : UInt8

/-- The last value written to a window, or `reset` if there is none. -/
def lastWritten (writes : List ControlWrite) (window : ControlWindow) (reset : UInt8) : UInt8 :=
  ((writes.filter fun write => window.contains write.address).getLast?.map
    ControlWrite.value).getD reset

@[simp]
theorem lastWritten_concat (writes : List ControlWrite) (write : ControlWrite)
    (window : ControlWindow) (reset : UInt8) :
    lastWritten (writes ++ [write]) window reset =
      if window.contains write.address then write.value else lastWritten writes window reset := by
  by_cases inside : window.contains write.address = true <;> simp [lastWritten, inside]

/-! ## Registers

Each register has a window of its own, and a write reaches the register whose window it falls
into. -/

open ControlWindow in
theorem Mbc1.write_eq (mbc : Mbc1) (address : UInt16) (value : UInt8) :
    mbc.write address value =
      { ramEnabled := if enable.contains address then value &&& 0x0F == 0x0A else mbc.ramEnabled
        low := if rom.contains address then max (value &&& 0x1F) 1 else mbc.low
        high := if ram.contains address then value &&& 0x03 else mbc.high
        advanced := if mode.contains address then value &&& 0x01 != 0 else mbc.advanced } := by
  have bound := address.toNat_lt
  simp only [write, contains, enable, rom, ram, mode, UInt16.lt_iff_toNat_lt]
  grind

open ControlWindow in
theorem Mbc3.write_eq (mbc : Mbc3) (address : UInt16) (value : UInt8) :
    mbc.write address value =
      { ramEnabled := if enable.contains address then value &&& 0x0F == 0x0A else mbc.ramEnabled
        bank := if rom.contains address then max (value &&& 0x7F) 1 else mbc.bank
        select := if ram.contains address then value &&& 0x0F else mbc.select } := by
  cases mbc
  simp only [write, contains, enable, rom, ram, UInt16.lt_iff_toNat_lt]
  grind

open ControlWindow in
theorem Mbc5.write_eq (mbc : Mbc5) (address : UInt16) (value : UInt8) :
    mbc.write address value =
      { ramEnabled := if enable.contains address then value == 0x0A else mbc.ramEnabled
        low := if romLow.contains address then value else mbc.low
        high := if romHigh.contains address then value &&& 0x01 != 0 else mbc.high
        select :=
          if ram.contains address then value &&& (if mbc.rumble then 0x07 else 0x0F)
          else mbc.select
        rumble := mbc.rumble } := by
  cases mbc
  simp only [write, contains, enable, romLow, romHigh, ram, UInt16.lt_iff_toNat_lt]
  grind

/-- The nine bits of the ROM bank as one word. -/
def Mbc5.bankWord (mbc : Mbc5) : UInt16 :=
  mbc.low.toUInt16 ||| if mbc.high then 0x100 else 0

theorem Mbc5.bankWord_parts (mbc : Mbc5) :
    mbc.bankWord.toNat = mbc.romBank true ∧ mbc.bankWord &&& 0xFF = mbc.low.toUInt16 ∧
      mbc.bankWord &&& 0x100 = if mbc.high then 0x100 else 0 := by
  have all : ∀ high : Bool,
      let word := ({ low := mbc.low, high } : Mbc5).bankWord
      word.toNat = mbc.low.toNat + 0x100 * high.toNat ∧ word &&& 0xFF = mbc.low.toUInt16 ∧
        word &&& 0x100 = if high then 0x100 else 0 :=
    forall_byte mbc.low (by decide +kernel)
  exact all mbc.high

/-- The ninth bit, shifted to its place. -/
theorem Mbc5.ninth_eq (value : UInt8) :
    (value.toUInt16 &&& 0x01) <<< (8 : UInt16) =
      if value &&& 0x01 != 0 then (0x100 : UInt16) else 0 :=
  forall_byte value (by decide +kernel)

open ControlWindow in
/-- A write to a part of the bank number masks this part out of the word and puts in its own. -/
theorem Mbc5.bankWord_write (mbc : Mbc5) (address : UInt16) (value : UInt8) :
    (mbc.write address value).bankWord =
      if romLow.contains address then (mbc.bankWord &&& 0x100) ||| value.toUInt16
      else if romHigh.contains address then
        (mbc.bankWord &&& 0xFF) ||| (value.toUInt16 &&& 0x01) <<< (8 : UInt16)
      else mbc.bankWord := by
  obtain ⟨_, low, high⟩ := mbc.bankWord_parts
  rw [write_eq, low, high, ninth_eq]
  simp only [bankWord]
  by_cases first : romLow.contains address = true
  · have second : ¬romHigh.contains address = true := by
      simp only [contains, romLow, romHigh] at first ⊢
      grind
    rw [if_pos first, if_neg second, if_pos first, UInt16.or_comm]
  · rw [if_neg first, if_neg first]
    by_cases second : romHigh.contains address = true
    · rw [if_pos second, if_pos second]
    · rw [if_neg second, if_neg second]

theorem Mbc1.foldl_write (writes : List ControlWrite) :
    writes.foldl (fun mbc write => mbc.write write.address write.value) ({} : Mbc1) =
      { ramEnabled := lastWritten writes .enable 0 &&& 0x0F == 0x0A
        low := max (lastWritten writes .rom 0 &&& 0x1F) 1
        high := lastWritten writes .ram 0 &&& 0x03
        advanced := lastWritten writes .mode 0 &&& 0x01 != 0 } := by
  -- from the end of the list, where the last write to a window is added
  induction writes using List.reverseRecOn with
  | nil => rfl
  | append_singleton writes write ih =>
      rw [List.foldl_append, ih, List.foldl_cons, List.foldl_nil, write_eq]
      simp only [lastWritten_concat]
      congr 1 <;> split <;> rfl

theorem Mbc3.foldl_write (writes : List ControlWrite) :
    writes.foldl (fun mbc write => mbc.write write.address write.value) ({} : Mbc3) =
      { ramEnabled := lastWritten writes .enable 0 &&& 0x0F == 0x0A
        bank := max (lastWritten writes .rom 0 &&& 0x7F) 1
        select := lastWritten writes .ram 0 &&& 0x0F } := by
  induction writes using List.reverseRecOn with
  | nil => rfl
  | append_singleton writes write ih =>
      rw [List.foldl_append, ih, List.foldl_cons, List.foldl_nil, write_eq]
      simp only [lastWritten_concat]
      congr 1 <;> split <;> rfl

theorem Mbc5.foldl_write (rumble : Bool) (writes : List ControlWrite) :
    writes.foldl (fun mbc write => mbc.write write.address write.value) ({ rumble } : Mbc5) =
      { ramEnabled := lastWritten writes .enable 0 == 0x0A
        low := lastWritten writes .romLow 1
        high := lastWritten writes .romHigh 0 &&& 0x01 != 0
        select := lastWritten writes .ram 0 &&& (if rumble then 0x07 else 0x0F)
        rumble } := by
  induction writes using List.reverseRecOn with
  | nil => cases rumble <;> rfl
  | append_singleton writes write ih =>
      rw [List.foldl_append, ih, List.foldl_cons, List.foldl_nil, write_eq]
      simp only [lastWritten_concat]
      congr 1 <;> split <;> rfl

/-! ## Controllers -/

namespace Mapper

open ControlWindow in
/-- The windows of a controller. -/
def windows : Mapper → List ControlWindow
  | .none => []
  | .mbc1 _ => [enable, rom, ram, mode]
  | .mbc3 _ => [enable, rom, ram]
  | .mbc5 _ => [enable, romLow, romHigh, ram]

/-- Writes that fall into no common window may change places. -/
theorem write_comm (mapper : Mapper) {address other : UInt16} (value byte : UInt8)
    (apart : ∀ window ∈ mapper.windows, ¬(window.contains address ∧ window.contains other)) :
    (mapper.write address value).write other byte =
      (mapper.write other byte).write address value := by
  cases mapper with
  | none => rfl
  | mbc1 registers =>
      simp only [windows, List.forall_mem_cons] at apart
      simp only [write, Mbc1.write_eq]
      grind
  | mbc3 registers =>
      simp only [windows, List.forall_mem_cons] at apart
      simp only [write, Mbc3.write_eq]
      grind
  | mbc5 registers =>
      simp only [windows, List.forall_mem_cons] at apart
      simp only [write, Mbc5.write_eq]
      grind

/-- The controller after a number of writes. -/
def afterWrites (mapper : Mapper) (writes : List ControlWrite) : Mapper :=
  writes.foldl (fun mapper write => mapper.write write.address write.value) mapper

end Mapper

/-- The banks that a controller selects. -/
structure Selection where
  /-- The ROM bank behind the first window. -/
  first : Nat
  /-- The ROM bank behind the second window. -/
  second : Nat
  /-- The RAM bank, if RAM is mapped. -/
  ram : Option Nat

/-- The banks selected after a number of writes, as the last one to each window tells. -/
def CartridgeKind.selection (kind : CartridgeKind) (writes : List ControlWrite) : Selection :=
  match kind.controller with
  | .mbc1 =>
    let low := max 1 (lastWritten writes .rom 0 &&& 0x1F).toNat
    let high := (lastWritten writes .ram 0 &&& 0x03).toNat
    let advanced := lastWritten writes .mode 0 &&& 0x01 = 1
    { first := if advanced then high * 32 else 0
      second := high * 32 + low
      ram :=
        if lastWritten writes .enable 0 &&& 0x0F = 0x0A then some (if advanced then high else 0)
        else none }
  | .mbc3 =>
    let select := (lastWritten writes .ram 0 &&& 0x0F).toNat
    { first := 0
      second := max 1 (lastWritten writes .rom 0 &&& 0x7F).toNat
      ram :=
        if lastWritten writes .enable 0 &&& 0x0F = 0x0A ∧ select ≤ 3 then some select else none }
  | .mbc5 =>
    { first := 0
      second :=
        (lastWritten writes .romLow 1).toNat + 256 * (lastWritten writes .romHigh 0 &&& 0x01).toNat
      ram :=
        if lastWritten writes .enable 0 = 0x0A then
          some (lastWritten writes .ram 0 &&& (if kind.rumble then 0x07 else 0x0F)).toNat
        else none }
  | _ => { first := 0, second := 1, ram := some 0 }

theorem toNat_max (first second : UInt8) :
    (max first second).toNat = max first.toNat second.toNat := by
  simp only [max, UInt8.le_iff_toNat_le]
  split <;> rfl

theorem lowestBit_eq (value : UInt8) : value &&& 0x01 = 0 ∨ value &&& 0x01 = 1 :=
  forall_byte value (by decide +kernel)

/-- A controller that starts at power-on selects what the last writes tell. -/
theorem Mapper.selected_afterWrites {kind : CartridgeKind} {mapper : Mapper}
    (fitted : Mapper.ofKind kind = some mapper) (writes : List ControlWrite) :
    (mapper.afterWrites writes).romBank false = (kind.selection writes).first ∧
      (mapper.afterWrites writes).romBank true = (kind.selection writes).second ∧
      (mapper.afterWrites writes).ramBank = (kind.selection writes).ram := by
  rw [Mapper.ofKind] at fitted
  cases controller : kind.controller with
  | none =>
      rw [controller] at fitted
      cases fitted
      have unmoved : Mapper.none.afterWrites writes = .none := by
        induction writes with
        | nil => rfl
        | cons write writes ih => exact ih
      rw [unmoved, CartridgeKind.selection, controller]
      exact ⟨rfl, rfl, rfl⟩
  | mbc1 =>
      rw [controller] at fitted
      cases fitted
      have registers : (Mapper.mbc1 {}).afterWrites writes =
          .mbc1 (writes.foldl (fun mbc write => mbc.write write.address write.value) {}) :=
        List.foldl_hom Mapper.mbc1 fun _ _ => rfl
      rw [registers, Mbc1.foldl_write, CartridgeKind.selection, controller]
      rcases lowestBit_eq (lastWritten writes .mode 0) with bit | bit <;>
        simp [romBank, ramBank, Mbc1.romBank, Mbc1.ramBank, toNat_max, bit, Nat.max_comm 1]
  | mbc3 =>
      rw [controller] at fitted
      cases fitted
      have registers : (Mapper.mbc3 {}).afterWrites writes =
          .mbc3 (writes.foldl (fun mbc write => mbc.write write.address write.value) {}) :=
        List.foldl_hom Mapper.mbc3 fun _ _ => rfl
      rw [registers, Mbc3.foldl_write, CartridgeKind.selection, controller]
      simp [romBank, ramBank, Mbc3.romBank, Mbc3.ramBank, toNat_max, Nat.max_comm 1,
        UInt8.le_iff_toNat_le]
  | mbc5 =>
      rw [controller] at fitted
      cases fitted
      have registers : (Mapper.mbc5 { rumble := kind.rumble }).afterWrites writes =
          .mbc5 (writes.foldl (fun mbc write => mbc.write write.address write.value)
            { rumble := kind.rumble }) :=
        List.foldl_hom Mapper.mbc5 fun _ _ => rfl
      rw [registers, Mbc5.foldl_write, CartridgeKind.selection, controller]
      rcases lowestBit_eq (lastWritten writes .romHigh 0) with bit | bit <;>
        simp [romBank, ramBank, Mbc5.romBank, Mbc5.ramBank, bit]
  | mbc2 | mmm01 | mbc4 =>
      rw [controller] at fitted
      cases fitted

/-! ## Cartridges -/

namespace Cartridge

variable {rom : Array RomBank} {ramBanks : Nat} {kind : CartridgeKind} {cartridge : Cartridge}

/-- A cartridge has the banks it is built from, empty RAM and the controller of its type. -/
theorem build_ok (built : build rom ramBanks kind = .ok cartridge) :
    Mapper.ofKind kind = some cartridge.mapper ∧ cartridge.rom = rom ∧
      cartridge.ram = Array.replicate ramBanks (Bank.filled 0xFF) := by
  rw [build] at built
  split at built
  · cases fitted : Mapper.ofKind kind with
    | none => simp [fitted] at built
    | some mapper =>
        simp only [fitted] at built
        split at built
        · cases built
        · split at built
          · cases built
          · cases built
            exact ⟨rfl, rfl, rfl⟩
  · cases built

/-- The cartridge after a number of writes to its controller. -/
def afterWrites (cartridge : Cartridge) (writes : List ControlWrite) : Cartridge :=
  writes.foldl (fun cartridge write => cartridge.writeControl write.address write.value) cartridge

theorem afterWrites_eq (cartridge : Cartridge) (writes : List ControlWrite) :
    cartridge.afterWrites writes =
      { cartridge with mapper := cartridge.mapper.afterWrites writes } := by
  induction writes generalizing cartridge with
  | nil => rfl
  | cons write writes ih => exact ih (cartridge.writeControl write.address write.value)

/-- On a cartridge built from some number of ROM and RAM banks, after any writes to its controller,
an address resolves to the bank that the last write to each window selects, counted modulo the banks
present.  The order of writes that share no window does not matter. -/
theorem resolve_by_last_writes (built : build rom ramBanks kind = .ok cartridge)
    (writes : List ControlWrite) :
    let now := cartridge.afterWrites writes
    let selected := kind.selection writes
    (∀ address, now.resolveRom address =
      ((if address.toNat % 0x8000 < 0x4000 then selected.first else selected.second) % rom.size,
        address.toNat % 0x4000)) ∧
    (∀ address, now.resolveRam address =
      if ramBanks = 0 then none
      else selected.ram.map fun bank => (bank % ramBanks, address.toNat % 0x2000)) ∧
    (∀ address, (now.resolveRom address).1 < rom.size) ∧
    (∀ address bank offset, now.resolveRam address = some (bank, offset) → bank < ramBanks) ∧
    ∀ (address other : UInt16) (value byte : UInt8),
      (∀ window ∈ now.mapper.windows, ¬(window.contains address ∧ window.contains other)) →
      (now.writeControl address value).writeControl other byte =
        (now.writeControl other byte).writeControl address value := by
  obtain ⟨fitted, rfl, empty⟩ := build_ok built
  obtain ⟨first, second, ram⟩ := Mapper.selected_afterWrites fitted writes
  have size : cartridge.ram.size = ramBanks := by
    rw [empty, Array.size_replicate]
  intro now selected
  have now_eq : now = { cartridge with mapper := cartridge.mapper.afterWrites writes } :=
    cartridge.afterWrites_eq writes
  refine ⟨?_, ?_, ?_, ?_, ?_⟩
  · intro address
    have offset : address.toNat % 0x8000 % 0x4000 = address.toNat % 0x4000 := by omega
    rw [now_eq, resolveRom, offset]
    by_cases lower : address.toNat % 0x8000 < 0x4000
    · rw [if_pos lower, decide_eq_false (by omega), first]
    · rw [if_neg lower, decide_eq_true (by omega), second]
  · intro address
    rw [now_eq, resolveRam, ram]
    simp [size, Array.isEmpty, selected]
  · intro address
    rw [now_eq]
    exact resolveRom_lt _ address
  · intro address bank offset resolved
    have same : now.ram.size = ramBanks := by rw [now_eq, size]
    exact same ▸ resolveRam_lt resolved
  · intro address other value byte apart
    have swapped := now.mapper.write_comm value byte apart
    simp only [writeControl, swapped]

/-- A cartridge type with the first controller and RAM. -/
def mbc1Ram : CartridgeKind := { code := 0x02, controller := .mbc1, ram := true }

/-- Select ROM bank 97 and RAM bank 3 in the advanced mode. -/
def advancedWrites : List ControlWrite :=
  [⟨0x2000, 0x05⟩, ⟨0x6000, 0x01⟩, ⟨0x4000, 0x03⟩, ⟨0x0000, 0x0A⟩, ⟨0x3FFF, 0x20⟩]

theorem resolve_by_last_writes_advanced : ∃ cartridge,
    build (Array.replicate 72 (Bank.filled 0)) 4 mbc1Ram = .ok cartridge ∧
      let now := cartridge.afterWrites advancedWrites
      now.resolveRom 0x4000 = (25, 0) ∧ now.resolveRom 0x3FFF = (24, 0x3FFF) ∧
        now.resolveRam 0xA123 = some (3, 0x123) ∧
        (now.writeControl 0x2000 0x07).writeControl 0x4000 0x01 =
          (now.writeControl 0x4000 0x01).writeControl 0x2000 0x07 := by
  refine ⟨_, rfl, ?_⟩
  have built : build (Array.replicate 72 (Bank.filled 0)) 4 mbc1Ram = .ok _ := rfl
  obtain ⟨rom, ram, _, _, swap⟩ := resolve_by_last_writes built advancedWrites
  exact ⟨(rom 0x4000).trans rfl, (rom 0x3FFF).trans rfl, (ram 0xA123).trans rfl,
    swap 0x2000 0x4000 0x07 0x01 (by decide)⟩

end Cartridge
end GameBoy
