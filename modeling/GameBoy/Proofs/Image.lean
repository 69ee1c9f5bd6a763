import GameBoy.Machine

/-!
# Images put together from banks

An image that is the concatenation of its banks is cut into these banks again.  With a header that
asks for nothing else, an image of two banks makes a machine without a bank controller.
-/

namespace GameBoy

namespace Bank

variable {size : Nat} [BankSize size]

/-- The bank with some bytes written from an offset on. -/
def writeAll (bank : Bank size) (offset : Nat) (bytes : List UInt8) : Bank size :=
  (bytes.zipIdx offset).foldl (fun bank entry => bank.write entry.2 entry.1) bank

theorem writeAll_cons (bank : Bank size) (offset : Nat) (byte : UInt8) (bytes : List UInt8) :
    bank.writeAll offset (byte :: bytes) = (bank.write offset byte).writeAll (offset + 1) bytes :=
  rfl

/-- The bytes written are found from the offset on, and what was there before everywhere else. -/
theorem read_writeAll {other : Nat} (inside : other < size) (bank : Bank size) (offset : Nat)
    (bytes : List UInt8) (fits : offset + bytes.length ≤ size) :
    (bank.writeAll offset bytes).read other =
      if offset ≤ other then bytes.getD (other - offset) (bank.read other)
      else bank.read other := by
  induction bytes generalizing bank offset with
  | nil => simp [writeAll]
  | cons byte bytes ih =>
      rw [List.length_cons] at fits
      rw [writeAll_cons, ih _ _ (by omega), read_write, Nat.mod_eq_of_lt inside,
        Nat.mod_eq_of_lt (by omega : offset < size)]
      rcases Nat.lt_trichotomy other offset with before | rfl | behind
      · rw [if_neg (by omega), if_neg (by omega), if_neg (by omega)]
      · rw [if_neg (by omega), if_pos rfl, if_pos (Nat.le_refl other), Nat.sub_self,
          List.getD_cons_zero]
      · obtain ⟨more, rfl⟩ := Nat.exists_eq_add_of_lt behind
        have place : offset + more + 1 - offset = more + 1 := by omega
        have placeToo : offset + more + 1 - (offset + 1) = more := by omega
        rw [if_pos (by omega), if_neg (by omega), if_pos (by omega), place, placeToo,
          List.getD_cons_succ]

theorem read_writeAll_of_le {other : Nat} (inside : other < size) (bank : Bank size) (offset : Nat)
    (bytes : List UInt8) (past : offset + bytes.length ≤ other) :
    (bank.writeAll offset bytes).read other = bank.read other := by
  rw [read_writeAll inside _ _ _ (by omega), if_pos (by omega), List.getD_eq_getElem?_getD,
    List.getElem?_eq_none (by omega), Option.getD_none]

/-- A bank that is empty but for a program at the entry point. -/
def ofProgram (program : List UInt8) : RomBank :=
  writeAll (filled 0) 0x100 program

end Bank

/-- The image of a cartridge of two ROM banks. -/
def ofTwoBanks (bank0 bank1 : RomBank) : ByteArray :=
  ⟨bank0.bytes.toArray ++ bank1.bytes.toArray⟩

/-- The image of a cartridge of two ROM banks with nothing but a program. -/
def programImage (program : List UInt8) : ByteArray :=
  ofTwoBanks (Bank.ofProgram program) (Bank.filled 0)

theorem Bank.ofSlice_append {size : Nat} (front : Array UInt8) (bank : Bank size)
    (back : Array UInt8) :
    Bank.ofSlice ⟨front ++ bank.bytes.toArray ++ back⟩ front.size = bank := by
  rcases bank with ⟨bytes⟩
  rw [Bank.ofSlice]
  refine congrArg Bank.mk (Vector.ext fun i within => ?_)
  have inside : front.size + i < (ByteArray.mk (front ++ bytes.toArray ++ back)).size := by
    simp [ByteArray.size]
    omega
  rw [Vector.getElem_ofFn, dif_pos inside]
  change (front ++ bytes.toArray ++ back)[front.size + i] = bytes[i]
  simp [within]

theorem ofSlice_bank0 (bank0 bank1 : RomBank) :
    Bank.ofSlice (ofTwoBanks bank0 bank1) 0 = bank0 := by
  have split := Bank.ofSlice_append #[] bank0 bank1.bytes.toArray
  simpa [ofTwoBanks] using split

theorem ofSlice_bank1 (bank0 bank1 : RomBank) :
    Bank.ofSlice (ofTwoBanks bank0 bank1) 0x4000 = bank1 := by
  have split := Bank.ofSlice_append bank0.bytes.toArray bank1 #[]
  simpa [ofTwoBanks] using split

theorem cut_ofTwoBanks (bank0 bank1 : RomBank) :
    (Array.ofFn fun bank : Fin 2 =>
      (Bank.ofSlice (ofTwoBanks bank0 bank1) (bank.val * 0x4000) : RomBank)) = #[bank0, bank1] := by
  have first := ofSlice_bank0 bank0 bank1
  have second := ofSlice_bank1 bank0 bank1
  simp [Array.ofFn_succ, first, second]

theorem size_ofTwoBanks (bank0 bank1 : RomBank) : (ofTwoBanks bank0 bank1).size = 0x8000 := by
  simp [ofTwoBanks, ByteArray.size]

/-- A machine that has been loaded is one at power-on. -/
theorem Machine.boot_of_ofImage {image : ByteArray} {config : Config} {sink : Sink}
    {machine : Machine} (loaded : Machine.ofImage image config sink = .ok machine) :
    ∃ cartridge, machine = Machine.boot cartridge config sink := by
  rw [Machine.ofImage] at loaded
  cases parsed : RomImage.parse image with
  | error error =>
      rw [parsed] at loaded
      cases loaded
  | ok parts =>
      rw [parsed] at loaded
      cases built : Cartridge.ofImage parts with
      | error error =>
          simp only [bind, Except.bind, built] at loaded
          cases loaded
      | ok cartridge =>
          simp only [bind, Except.bind, built] at loaded
          cases loaded
          exact ⟨cartridge, rfl⟩

/-- The header asks for nothing but two ROM banks. -/
structure PlainHeader (bank : RomBank) : Prop where
  kind : bank.read 0x147 = 0
  rom : bank.read 0x148 = 0
  ram : bank.read 0x149 = 0

/-- An empty header asks for nothing.  The program ends in front of the fields that count. -/
theorem PlainHeader.ofProgram {program : List UInt8} (short : program.length ≤ 0x47) :
    PlainHeader (Bank.ofProgram program) := by
  have clear {offset : Nat} (past : 0x147 ≤ offset) (inside : offset < 0x4000) :
      (Bank.ofProgram program).read offset = 0 := by
    rw [Bank.ofProgram, Bank.read_writeAll_of_le inside _ _ _ (by omega), Bank.read_filled]
  exact ⟨clear (by omega) (by omega), clear (by omega) (by omega), clear (by omega) (by omega)⟩

theorem PlainHeader.parse {bank : RomBank} (plain : PlainHeader bank) :
    ∃ header, Header.parse bank = .ok header ∧ header.kind = .romOnly ∧ header.romBanks = 2 ∧
      header.ramBanks = 0 := by
  have kind : CartridgeKind.ofCode (bank.read 0x147) = .ok .romOnly := by
    rw [plain.kind]
    rfl
  have rom : romBankCount (bank.read 0x148) = .ok 2 := by
    rw [plain.rom]
    rfl
  have ram : ramBankCount (bank.read 0x149) = .ok 0 := by
    rw [plain.ram]
    rfl
  rw [Header.parse, kind, rom, ram]
  exact ⟨_, rfl, rfl, rfl, rfl⟩

/-- An image of two banks with a plain header makes a machine of just these banks. -/
theorem PlainHeader.ofImage {bank0 : RomBank} (plain : PlainHeader bank0) (bank1 : RomBank)
    (config : Config) (sink : Sink) :
    Machine.ofImage (ofTwoBanks bank0 bank1) config sink =
      .ok (Machine.boot (.romOnly bank0 bank1) config sink) := by
  obtain ⟨header, parsed, kind, rom, ram⟩ := plain.parse
  have header_eq : Header.parse (Bank.ofBytes (ofTwoBanks bank0 bank1)) = .ok header := by
    rw [Bank.ofBytes, ofSlice_bank0]
    exact parsed
  have banks :
      RomImage.parse (ofTwoBanks bank0 bank1) = .ok ⟨header, #[bank0, bank1]⟩ := by
    have holds : ¬0x8000 < header.romBanks * 0x4000 := by
      rw [rom]
      decide
    have cut : (Array.ofFn fun bank : Fin header.romBanks =>
        (Bank.ofSlice (ofTwoBanks bank0 bank1) (bank.val * 0x4000) : RomBank)) =
          #[bank0, bank1] := by
      rw [rom]
      exact cut_ofTwoBanks bank0 bank1
    rw [RomImage.parse, size_ofTwoBanks, if_neg (by decide), header_eq]
    simp only [if_neg holds, cut]
  have built : Cartridge.ofImage ⟨header, #[bank0, bank1]⟩ = .ok (.romOnly bank0 bank1) := by
    rw [Cartridge.ofImage, kind, ram]
    rfl
  rw [Machine.ofImage, banks]
  simp only [bind, Except.bind, built]
  rfl

end GameBoy
