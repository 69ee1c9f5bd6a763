import GameBoy.Proofs.CartridgeRam
import GameBoy.Proofs.Checked.Arithmetic
import GameBoy.Proofs.Isolation

/-!
# Checked devices

The memories and devices index their arrays, count down and shift.  Here an index is looked up where
it may be missing, and every number has a width.  A device called in its own window never overruns,
whatever its state.
-/

namespace GameBoy

open Checked

theorem Checked.bind_minus_toNat {α : Type} {address base : UInt16} (reaches : base ≤ address)
    (next : Nat → Option α) :
    (minus address.toNat base.toNat >>= next) = next (address - base).toNat := by
  rw [bind_minus (UInt16.le_iff_toNat_le.mp reaches), UInt16.toNat_sub_of_le _ _ reaches]

/-! ## Memories -/

namespace Bank

variable {size : Nat}

/-- The byte at a place, if there is one. -/
def at? (bank : Bank size) (place : Nat) : Option UInt8 :=
  bank.bytes[place]?

/-- Replace the byte at a place, if there is one. -/
def put? (bank : Bank size) (place : Nat) (value : UInt8) : Option (Bank size) :=
  if inside : place < size then some ⟨bank.bytes.set place value inside⟩ else none

/-- The byte at an offset, which is taken modulo the size. -/
def read? (bank : Bank size) (offset : Nat) : Option UInt8 := do
  bank.at? (← remainder offset size)

/-- Replace the byte at an offset, which is taken modulo the size. -/
def write? (bank : Bank size) (offset : Nat) (value : UInt8) : Option (Bank size) := do
  bank.put? (← remainder offset size) value

variable [BankSize size]

theorem at?_mod (bank : Bank size) (offset : Nat) :
    bank.at? (offset % size) = some (bank.read offset) :=
  Vector.getElem?_eq_getElem (offset_lt offset)

theorem put?_mod (bank : Bank size) (offset : Nat) (value : UInt8) :
    bank.put? (offset % size) value = some (bank.write offset value) :=
  dif_pos (offset_lt offset)

theorem at?_of_lt (bank : Bank size) {place : Nat} (inside : place < size) :
    bank.at? place = some (bank.read place) := by
  rw [← bank.at?_mod, Nat.mod_eq_of_lt inside]

theorem put?_of_lt (bank : Bank size) {place : Nat} (inside : place < size) (value : UInt8) :
    bank.put? place value = some (bank.write place value) := by
  rw [← bank.put?_mod, Nat.mod_eq_of_lt inside]

theorem read?_eq (bank : Bank size) (offset : Nat) :
    bank.read? offset = some (bank.read offset) := by
  rw [read?, bind_remainder BankSize.pos, at?_mod]

theorem write?_eq (bank : Bank size) (offset : Nat) (value : UInt8) :
    bank.write? offset value = some (bank.write offset value) := by
  rw [write?, bind_remainder BankSize.pos, put?_mod]

end Bank

/-! ## Cartridges -/

/-- The ROM bank that the first controller selects. -/
def Mbc1.romBank? (mbc : Mbc1) (second : Bool) : Option Nat := do
  let upper := mbc.high.toNat <<< (← places 64 5)
  some (if second then upper + mbc.low.toNat else if mbc.advanced then upper else 0)

/-- Write a register of the fifth controller; the ninth bit of the ROM bank is shifted to its
place. -/
def Mbc5.write? (mbc : Mbc5) (address : UInt16) (value : UInt8) : Option Mbc5 := do
  if 0x3000 ≤ address && address < 0x4000 then
    let ninth := (value.toUInt16 &&& 0x01) <<< UInt16.ofNat (← places 16 8)
    some { mbc with high := ninth != 0 }
  else
    some (mbc.write address value)

/-- The ROM bank that a controller selects. -/
def Mapper.romBank? (mapper : Mapper) (second : Bool) : Option Nat :=
  match mapper with
  | .mbc1 registers => registers.romBank? second
  | _ => some (mapper.romBank second)

/-- Write a register of a controller. -/
def Mapper.write? (mapper : Mapper) (address : UInt16) (value : UInt8) : Option Mapper :=
  match mapper with
  | .mbc5 registers => .mbc5 <$> registers.write? address value
  | _ => some (mapper.write address value)

theorem Mapper.romBank?_eq (mapper : Mapper) (second : Bool) :
    mapper.romBank? second = some (mapper.romBank second) := by
  cases mapper with
  | mbc1 registers =>
      rw [romBank?, Mbc1.romBank?, bind_places (by decide), Nat.shiftLeft_eq]
      rfl
  | _ => rfl

theorem Mbc5.write?_eq (mbc : Mbc5) (address : UInt16) (value : UInt8) :
    mbc.write? address value = some (mbc.write address value) := by
  have ninth : ((value.toUInt16 &&& 0x01) <<< (8 : UInt16) != 0) = (value &&& 0x01 != 0) := by
    rw [ninth_eq]
    cases value &&& 0x01 != 0 <;> rfl
  rw [write?]
  split
  · next inside =>
    rw [Bool.and_eq_true, decide_eq_true_eq, decide_eq_true_eq] at inside
    have above (low : UInt16) (below : low ≤ 0x3000) : ¬address < low := by grind
    rw [bind_places (by decide), write, if_neg (above 0x2000 (by decide)),
      if_neg (above 0x3000 (by decide)), if_pos inside.2]
    exact congrArg (fun high => some { mbc with high }) ninth
  · rfl

theorem Mapper.write?_eq (mapper : Mapper) (address : UInt16) (value : UInt8) :
    mapper.write? address value = some (mapper.write address value) := by
  cases mapper with
  | mbc5 registers =>
      rw [write?, registers.write?_eq]
      rfl
  | _ => rfl

namespace Cartridge

/-- The bank and offset behind a ROM address. -/
def resolveRom? (cartridge : Cartridge) (address : UInt16) : Option (Nat × Nat) := do
  let offset := address.toNat % 0x8000
  let selected ← cartridge.mapper.romBank? (0x4000 ≤ offset)
  let bank ← remainder selected cartridge.rom.size
  some (bank, offset % 0x4000)

/-- The bank and offset behind a RAM address, if RAM is fitted and mapped. -/
def resolveRam? (cartridge : Cartridge) (address : UInt16) : Option (Option (Nat × Nat)) :=
  if cartridge.ram.isEmpty then some none
  else
    match cartridge.mapper.ramBank with
    | none => some none
    | some selected => do
      let bank ← remainder selected cartridge.ram.size
      some (some (bank, address.toNat % 0x2000))

/-- Look up the bank of a ROM address and read a byte. -/
def lookUpRom? (cartridge : Cartridge) (address : UInt16) : Option (Except MemoryError UInt8) := do
  let (bank, offset) ← cartridge.resolveRom? address
  match bankAt cartridge.rom bank with
  | .ok found => .ok <$> found.read? offset
  | .error error => some (.error error)

/-- Look up the bank of a RAM address, if there is one, and read a byte. -/
def lookUpRam? (cartridge : Cartridge) (address : UInt16) : Option (Except MemoryError UInt8) := do
  match ← cartridge.resolveRam? address with
  | none => some (.ok 0xFF)
  | some (bank, offset) =>
    match bankAt cartridge.ram bank with
    | .ok found => .ok <$> found.read? offset
    | .error error => some (.error error)

/-- Look up the bank of a RAM address, if there is one, and replace a byte. -/
def replaceRam? (cartridge : Cartridge) (address : UInt16) (value : UInt8) :
    Option (Except MemoryError Cartridge) := do
  match ← cartridge.resolveRam? address with
  | none => some (.ok cartridge)
  | some (bank, offset) =>
    match bankAt cartridge.ram bank with
    | .ok found => do
      let replaced ← found.write? offset value
      some (.ok { cartridge with ram := cartridge.ram.setIfInBounds bank replaced })
    | .error error => some (.error error)

theorem resolveRom?_eq (cartridge : Cartridge) (address : UInt16) :
    cartridge.resolveRom? address = some (cartridge.resolveRom address) := by
  have fitted : 0 < cartridge.rom.size := Nat.lt_of_lt_of_le Nat.two_pos cartridge.two_le_rom
  simp only [resolveRom?, Mapper.romBank?_eq, Option.bind_eq_bind, Option.bind_some]
  exact bind_remainder fitted _

theorem resolveRam?_eq (cartridge : Cartridge) (address : UInt16) :
    cartridge.resolveRam? address = some (cartridge.resolveRam address) := by
  rw [resolveRam?, resolveRam]
  split
  · rfl
  · next fitted =>
    have some : 0 < cartridge.ram.size := Array.size_pos_iff.mpr (by simpa using fitted)
    cases cartridge.mapper.ramBank with
    | none => rfl
    | some selected => exact bind_remainder some _

theorem lookUpRom?_eq (cartridge : Cartridge) (address : UInt16) :
    cartridge.lookUpRom? address = some (cartridge.lookUpRom address) := by
  rw [lookUpRom?, resolveRom?_eq, lookUpRom]
  simp only [Option.bind_eq_bind, Option.bind_some]
  cases bankAt cartridge.rom (cartridge.resolveRom address).1 with
  | ok found =>
      simp only [Bank.read?_eq]
      rfl
  | error error => rfl

theorem lookUpRam?_eq (cartridge : Cartridge) (address : UInt16) :
    cartridge.lookUpRam? address = some (cartridge.lookUpRam address) := by
  rw [lookUpRam?, resolveRam?_eq, lookUpRam]
  simp only [Option.bind_eq_bind, Option.bind_some]
  cases cartridge.resolveRam address with
  | none => rfl
  | some resolved =>
      cases found : bankAt cartridge.ram resolved.1 with
      | ok bank =>
          simp only [found, Bank.read?_eq]
          rfl
      | error error =>
          simp only [found]
          rfl

theorem replaceRam?_eq (cartridge : Cartridge) (address : UInt16) (value : UInt8) :
    cartridge.replaceRam? address value = some (cartridge.replaceRam address value) := by
  rw [replaceRam?, resolveRam?_eq, replaceRam]
  simp only [Option.bind_eq_bind, Option.bind_some]
  cases cartridge.resolveRam address with
  | none => rfl
  | some resolved =>
      cases found : bankAt cartridge.ram resolved.1 with
      | ok bank =>
          simp only [found, Bank.write?_eq]
          rfl
      | error error =>
          simp only [found]
          rfl

end Cartridge

/-! ## Sound -/

namespace Sound

/-- The registers of the whole window below wave memory, of which those from the power register on
hold nothing. -/
def window (sound : Sound) : Vector UInt8 0x20 :=
  Vector.ofFn fun place => if inside : place.val < 0x16 then sound.registers.bytes[place.val] else 0

/-- Bits that read as set, for each register of the window. -/
def windowMasks : Vector UInt8 0x20 :=
  Vector.ofFn fun place => if inside : place.val < 0x16 then readMasks.bytes[place.val] else 0xFF

/-- The register or wave byte at an address. -/
def read? (sound : Sound) (address : UInt16) : Option UInt8 := do
  if isWave address then
    sound.wave.at? (← minus address.toNat waveBase.toNat)
  else if address = powerAddress then
    let seven := UInt8.ofNat (← places 8 7)
    let power : UInt8 := if sound.powered then 1 else 0
    some (0x70 ||| power <<< seven ||| sound.active)
  else
    let place ← minus address.toNat base.toNat
    let held ← sound.window[place]?
    let mask ← windowMasks[place]?
    some (held ||| mask)

/-- Write the register or wave byte at an address. -/
def write? (sound : Sound) (address : UInt16) (value : UInt8) : Option Sound := do
  if isWave address then
    let wave ← sound.wave.put? (← minus address.toNat waveBase.toNat) value
    some { sound with wave }
  else if isRegister address && sound.powered then
    let registers ← sound.registers.put? (← minus address.toNat base.toNat) value
    some { sound.store address value with registers }
  else
    some (sound.write address value)

theorem toNat_sub_waveBase {address : UInt16} (wave : isWave address = true) :
    waveBase ≤ address ∧ (address - waveBase).toNat < 0x10 := by
  obtain ⟨above, below⟩ := isWave_iff.mp wave
  refine ⟨above, ?_⟩
  rw [UInt16.toNat_sub_of_le address waveBase above]
  exact Nat.sub_lt_left_of_lt_add (UInt16.le_iff_toNat_le.mp above)
    (Nat.lt_succ_of_le (UInt16.le_iff_toNat_le.mp below))

theorem isRegister_iff_lt {address : UInt16} (above : base ≤ address) :
    isRegister address = true ↔ (address - base).toNat < 0x16 := by
  have first : 0xFF10 ≤ address.toNat := UInt16.le_iff_toNat_le.mp above
  have last : address ≤ 0xFF25 ↔ address.toNat ≤ 0xFF25 := UInt16.le_iff_toNat_le
  have start : base.toNat = 0xFF10 := rfl
  rw [isRegister_iff, and_iff_right (by exact above), last, UInt16.toNat_sub_of_le _ _ above, start]
  omega

theorem read?_eq (sound : Sound) {address : UInt16} (above : base ≤ address)
    (below : address < 0xFF40) : sound.read? address = some (sound.read address) := by
  rw [read?, read]
  split
  · next wave =>
    obtain ⟨reaches, inside⟩ := toNat_sub_waveBase wave
    rw [bind_minus_toNat reaches, Bank.at?_of_lt _ inside]
  split
  · cases sound.powered <;> rfl
  next unwaved _ =>
  have early : address.toNat < 0xFF30 := by
    rw [isWave_iff] at unwaved
    exact UInt16.lt_iff_toNat_lt.mp (by grind : address < 0xFF30)
  have inside : (address - base).toNat < 0x20 := by
    rw [UInt16.toNat_sub_of_le _ _ above]
    exact Nat.sub_lt_left_of_lt_add (UInt16.le_iff_toNat_le.mp above) early
  rw [bind_minus_toNat above, Vector.getElem?_eq_getElem inside,
    Vector.getElem?_eq_getElem inside, window, windowMasks, Vector.getElem_ofFn,
    Vector.getElem_ofFn]
  by_cases register : (address - base).toNat < 0x16
  · rw [if_pos ((isRegister_iff_lt above).mpr register), dif_pos register, dif_pos register]
    simp only [Bank.read, Nat.mod_eq_of_lt register]
    rfl
  · rw [if_neg (mt (isRegister_iff_lt above).mp register), dif_neg register, dif_neg register]
    rfl

theorem write?_eq (sound : Sound) (address : UInt16) (value : UInt8) :
    sound.write? address value = some (sound.write address value) := by
  rw [write?, write]
  split
  · next wave =>
    obtain ⟨reaches, inside⟩ := toNat_sub_waveBase wave
    rw [bind_minus_toNat reaches, Bank.put?_of_lt _ inside]
    rfl
  split
  · next stores =>
    rw [Bool.and_eq_true] at stores
    have above : base ≤ address := (isRegister_iff.mp stores.1).1
    have other : address ≠ powerAddress := by grind [isRegister_iff, powerAddress]
    rw [bind_minus_toNat above, Bank.put?_of_lt _ ((isRegister_iff_lt above).mp stores.1),
      if_neg other]
    rfl
  · rfl

end Sound

/-! ## The timer -/

namespace Timer

/-- The selected counter bit, shifted to its place. -/
def selectedBit? (timer : Timer) : Option UInt16 := do
  let place :=
    match (timer.tac &&& 0x03).toNat with
    | 0 => 9
    | 1 => 3
    | 2 => 5
    | _ => 7
  some (1 <<< UInt16.ofNat (← places 16 place))

/-- The signal whose falling edges TIMA counts. -/
def signal? (timer : Timer) : Option Bool := do
  let selected ← timer.selectedBit?
  some (timer.tac &&& 0x04 != 0 && timer.counter &&& selected != 0)

/-- Change the timer, and count an edge if the signal falls. -/
def update? (change : Timer → Timer) (timer : Timer) : Option Timer := do
  let before ← timer.signal?
  let changed := change timer
  let after ← changed.signal?
  some (if before && !after then changed.count else changed)

/-- Bring a pending reload one cycle closer. -/
def advanceReload? (timer : Timer) : Option Timer := do
  match timer.reloadIn with
  | none => some timer
  | some left =>
    if left ≤ 1 then some { timer with reloadIn := none, tima := timer.tma, requested := true }
    else some { timer with reloadIn := some (← minus left 1) }

/-- Advance cycle by cycle. -/
def run? : Nat → Timer → Option Timer
  | 0, timer => some timer
  | cycles + 1, timer => do
    let reloaded ← timer.advanceReload?
    let advanced ← reloaded.update? fun timer => { timer with counter := timer.counter + 1 }
    run? cycles advanced

/-- Write the register at an address. -/
def write? (timer : Timer) (address : UInt16) (value : UInt8) : Option Timer :=
  if address = dividerAddress then timer.update? fun timer => { timer with counter := 0 }
  else if address = timaAddress then some { timer with tima := value, reloadIn := none }
  else if address = tmaAddress then some { timer with tma := value }
  else timer.update? fun timer => { timer with tac := value &&& 0x07 }

theorem signal?_eq (timer : Timer) : timer.signal? = some timer.signal := by
  have selected : timer.selectedBit? = some timer.selectedBit := by
    rw [selectedBit?, selectedBit]
    match (timer.tac &&& 0x03).toNat with
    | 0 | 1 | 2 | _ + 3 => rfl
  rw [signal?, selected]
  rfl

theorem update?_eq (change : Timer → Timer) (timer : Timer) :
    timer.update? change = some (settle timer.signal (change timer)) := by
  simp only [update?, signal?_eq, Option.bind_eq_bind, Option.bind_some]
  rfl

theorem advanceReload?_eq (timer : Timer) :
    timer.advanceReload? = some timer.advanceReload := by
  rw [advanceReload?, advanceReload]
  cases timer.reloadIn with
  | none => rfl
  | some left =>
      by_cases due : left ≤ 1
      · simp only [if_pos due]
      · simp only [if_neg due]
        exact bind_minus (Nat.le_of_lt (Nat.lt_of_not_le due)) _

theorem run?_eq (cycles : Nat) (timer : Timer) : run? cycles timer = some (run cycles timer) := by
  induction cycles generalizing timer with
  | zero => rfl
  | succ cycles ih =>
      simp only [run?, advanceReload?_eq, update?_eq, ih, Option.bind_eq_bind, Option.bind_some]
      rfl

theorem write?_eq (timer : Timer) (address : UInt16) (value : UInt8) :
    timer.write? address value = some (timer.write address value) := by
  simp only [write?, write, update?_eq]
  (repeat' split) <;> rfl

end Timer

/-! ## The other devices -/

namespace Serial

/-- Append a byte to kept output; the older half can only be dropped where there is one. -/
def keep? (output : Array UInt8) (byte : UInt8) : Option (Array UInt8) := do
  if outputLimit ≤ output.size then
    let left ← minus output.size (outputLimit / 2)
    some ((output.extract (output.size - left) output.size).push byte)
  else
    some (output.push byte)

/-- Write the register at an address. -/
def write? (serial : Serial) (address : UInt16) (value : UInt8) : Option Serial := do
  if address ≠ dataAddress ∧ value &&& 0x81 = 0x81 ∧ serial.capture then
    let output ← keep? serial.output serial.data
    some { serial.transfer with output }
  else
    some (serial.write address value)

theorem keep?_eq (output : Array UInt8) (byte : UInt8) :
    keep? output byte = some (keep output byte) := by
  rw [keep?, keep]
  split
  · next full =>
    have half : outputLimit / 2 ≤ output.size := Nat.le_trans (by decide) full
    rw [bind_minus half, Nat.sub_sub_self half]
  · rfl

theorem write?_eq (serial : Serial) (address : UInt16) (value : UInt8) :
    serial.write? address value = some (serial.write address value) := by
  rw [write?, keep?_eq]
  split
  · next sends =>
    obtain ⟨control, starts, captures⟩ := sends
    rw [write, if_neg control, if_pos starts, transfer, captures]
    rfl
  · rfl

end Serial

/-- Press or release a button, whose bit is shifted to its place in the group. -/
def Joypad.setButton? (joypad : Joypad) (button : Button) (pressed : Bool) : Option Joypad := do
  let group := button.index.val / 4
  let line ← places 8 (button.index.val % 4)
  let held ←
    if inside : 4 * group + line < 8 then some (joypad.held.set (4 * group + line) pressed inside)
    else none
  some { joypad with
    held, requested := joypad.requested || (pressed && !joypad.held.get button.index) }

theorem Joypad.setButton?_eq (joypad : Joypad) (button : Button) (pressed : Bool) :
    joypad.setButton? button pressed = some (joypad.setButton button pressed) := by
  cases button <;> rfl

end GameBoy
