import GameBoy.Proofs.Isolation
import Mathlib.Algebra.BigOperators.Fin
import Mathlib.Data.List.DropRight
import Mathlib.Data.List.Induction

/-!
# The sound registers in the course of time

Everything that reads back from the sound window follows from the writes to it, oldest first.  Wave
memory keeps the last byte written.  The registers and the status take in only the writes that are
heard, those made with the power on since it last went off, so that they are clear whenever the
power is off.
-/

namespace GameBoy

namespace Sound

/-! ## Histories of writes -/

/-- A write to the sound window. -/
structure Write where
  address : UInt16
  value : UInt8
deriving DecidableEq

/-- The top bit of the value, which switches the power on and starts a channel. -/
def Write.top (write : Write) : Bool :=
  write.value &&& 0x80 != 0

/-- The write is one to the power register that leaves the power off. -/
def Write.switchesOff (write : Write) : Bool :=
  write.address == powerAddress && !write.top

/-- The sound unit after a number of writes to it as it is at first. -/
def afterWrites (writes : List Write) : Sound :=
  writes.foldl (fun sound write => sound.write write.address write.value) {}

/-- The value last written at an address. -/
def lastAt (address : UInt16) (writes : List Write) : Option UInt8 :=
  ((writes.filter (·.address == address)).getLast?).map Write.value

/-- The last write to the power register has switched the power on. -/
def isOn (writes : List Write) : Bool :=
  (lastAt powerAddress writes).any (· &&& 0x80 != 0)

/-- The writes made since the power was last switched on, that one first; none with the power
off. -/
def heard (writes : List Write) : List Write :=
  (writes.rtakeWhile (!·.switchesOff)).dropWhile (·.address != powerAddress)

/-- Address of the trigger register of a channel. -/
def triggerAddress (channel : Fin 4) : UInt16 :=
  #v[0xFF14, 0xFF19, 0xFF1E, 0xFF23][channel]

/-- The channel has been started since the power was last switched on. -/
def isTriggered (writes : List Write) (channel : Fin 4) : Bool :=
  (heard writes).any fun write => write.address == triggerAddress channel && write.top

variable (writes : List Write) (write : Write)

theorem lastAt_concat (address : UInt16) :
    lastAt address (writes ++ [write]) =
      if write.address = address then some write.value else lastAt address writes := by
  by_cases here : write.address = address <;> simp [lastAt, here]

theorem isOn_concat :
    isOn (writes ++ [write]) = if write.address = powerAddress then write.top else isOn writes := by
  rw [isOn, lastAt_concat]
  split <;> rfl

theorem heard_concat :
    heard (writes ++ [write]) =
      if write.switchesOff then []
      else if write.address = powerAddress ∨ heard writes ≠ [] then heard writes ++ [write]
      else [] := by
  rw [heard, List.rtakeWhile_concat]
  cases off : write.switchesOff with
  | true => rfl
  | false =>
      simp only [Bool.not_false, if_true, Bool.false_eq_true, if_false]
      rw [List.dropWhile_append, ← heard]
      by_cases power : write.address = powerAddress <;> cases heard writes <;> simp [power]

/-- Some write is heard if and only if the power is on. -/
theorem heard_ne_nil : heard writes ≠ [] ↔ isOn writes = true := by
  induction writes using List.reverseRecOn with
  | nil => simp [heard, isOn, lastAt]
  | append_singleton writes write ih =>
      simp only [heard_concat, isOn_concat, ih]
      by_cases power : write.address = powerAddress
      · cases top : write.top <;> simp [Write.switchesOff, power, top]
      · by_cases on : isOn writes <;> simp [Write.switchesOff, power, on]

variable {writes write}

theorem heard_of_off (off : isOn writes = false) : heard writes = [] := by
  by_contra some
  rw [← ne_eq, heard_ne_nil, off] at some
  cases some

/-- Switching the power off forgets all writes. -/
theorem heard_switchOff (off : write.switchesOff = true) : heard (writes ++ [write]) = [] := by
  rw [heard_concat, if_pos off]

/-- With the power on each write is heard. -/
theorem heard_store (stays : write.switchesOff = false) (on : isOn writes = true) :
    heard (writes ++ [write]) = heard writes ++ [write] := by
  simp [heard_concat, stays, (heard_ne_nil writes).mpr on]

/-- With the power off no write is heard but the one that switches it on. -/
theorem heard_locked (other : write.address ≠ powerAddress) (off : isOn writes = false) :
    heard (writes ++ [write]) = heard writes := by
  simp [heard_concat, other, heard_of_off off]

/-- As long as the power does not go off, no write is forgotten. -/
theorem heard_stays (stays : write.switchesOff = false) :
    heard (writes ++ [write]) = heard writes ∨
      heard (writes ++ [write]) = heard writes ++ [write] := by
  rw [heard_concat, stays]
  by_cases taken : write.address = powerAddress ∨ heard writes ≠ []
  · exact .inr (if_pos taken)
  · refine .inl ?_
    rw [not_or, not_not] at taken
    simp [taken]

theorem lastAt_heard {address : UInt16} (stays : write.switchesOff = false)
    (distinct : write.address ≠ address) :
    lastAt address (heard (writes ++ [write])) = lastAt address (heard writes) := by
  rcases heard_stays stays with same | more
  · rw [same]
  · rw [more, lastAt_concat, if_neg distinct]

theorem isTriggered_of_ne {channel : Fin 4} (stays : write.switchesOff = false)
    (distinct : write.address ≠ triggerAddress channel) :
    isTriggered (writes ++ [write]) channel = isTriggered writes channel := by
  rcases heard_stays stays with same | more
  · rw [isTriggered, same, isTriggered]
  · rw [isTriggered, more, List.any_append, isTriggered]
    simp [distinct]

/-! ## Status -/

/-- The status bits of the channels that have been started. -/
def status (started : Fin 4 → Bool) : UInt8 :=
  UInt8.ofNat (∑ channel, bif started channel then 2 ^ channel.val else 0)

theorem status_or (started others : Fin 4 → Bool) :
    status started ||| status others = status fun channel => started channel || others channel := by
  simp only [status, Fin.sum_univ_four]
  cases started 0 <;> cases started 1 <;> cases started 2 <;> cases started 3 <;>
    cases others 0 <;> cases others 1 <;> cases others 2 <;> cases others 3 <;> rfl

theorem isRegister_trigger (channel : Fin 4) : isRegister (triggerAddress channel) = true := by
  revert channel
  decide

theorem triggerBit_eq (address : UInt16) :
    triggerBit address = status fun channel => address == triggerAddress channel := by
  rw [triggerBit]
  by_cases first : address = 0xFF14
  · subst first
    rfl
  · by_cases second : address = 0xFF19
    · subst second
      rfl
    · by_cases third : address = 0xFF1E
      · subst third
        rfl
      · by_cases fourth : address = 0xFF23
        · subst fourth
          rfl
        · simp [status, Fin.sum_univ_four, triggerAddress, beq_eq_false_iff_ne.mpr, first,
            second, third, fourth]

/-- The power register as a number, bit by bit. -/
theorem toNat_power (on : Bool) (started : Fin 4 → Bool) :
    (0x70 ||| (if on then 0x80 else 0) ||| status started).toNat =
      0x70 + (if on then 0x80 else 0) +
        ∑ channel, if started channel then 2 ^ channel.val else 0 := by
  simp only [status, Fin.sum_univ_four]
  cases on <;> cases started 0 <;> cases started 1 <;> cases started 2 <;> cases started 3 <;> rfl

/-! ## What a history leaves behind -/

/-- The sound unit is as the writes have left it. -/
structure Reflects (writes : List Write) (sound : Sound) : Prop where
  wave : ∀ address, isWave address = true →
    sound.wave.read (address - waveBase).toNat = (lastAt address writes).getD 0
  registers : ∀ address, isRegister address = true →
    sound.registers.read (address - base).toNat = (lastAt address (heard writes)).getD 0
  powered : sound.powered = isOn writes
  active : sound.active = status (isTriggered writes)

/-- A register that is stored shows the value, and the others are as before. -/
theorem read_register_write {sound : Sound} {address other : UInt16} (value : UInt8)
    (stored : isRegister address = true) (observed : isRegister other = true) :
    (sound.registers.write (address - base).toNat value).read (other - base).toNat =
      if address = other then value else sound.registers.read (other - base).toNat := by
  split
  · next same =>
      rw [same]
      exact Bank.read_write_self _ _ _
  · next distinct =>
      exact Bank.read_write_of_ne _ _ fun same => distinct <|
        Bank.eq_of_offset (by decide : 0xFF25 < 0xFF10 + 0x16) (isRegister_iff.mp stored)
          (isRegister_iff.mp observed) same

namespace Reflects

variable {sound : Sound} (reflects : Reflects writes sound)

include reflects

/-- With the power off the registers and the status are clear. -/
theorem of_off (off : sound.powered = false) :
    (∀ address, isRegister address = true → sound.registers.read (address - base).toNat = 0) ∧
      sound.active = 0 := by
  have silent : heard writes = [] := heard_of_off (reflects.powered.symm.trans off)
  constructor
  · intro address register
    rw [reflects.registers address register, silent]
    rfl
  · rw [reflects.active]
    simp [status, isTriggered, silent]

/-- Writes elsewhere reach no register. -/
theorem registers_elsewhere (stays : write.switchesOff = false)
    (elsewhere : isRegister write.address = false) (address : UInt16)
    (register : isRegister address = true) :
    sound.registers.read (address - base).toNat =
      (lastAt address (heard (writes ++ [write]))).getD 0 := by
  have distinct : write.address ≠ address := fun same => by simp [same, register] at elsewhere
  rw [lastAt_heard stays distinct, reflects.registers address register]

/-- Writes elsewhere leave the power as it is. -/
theorem powered_elsewhere (elsewhere : write.address ≠ powerAddress) :
    sound.powered = isOn (writes ++ [write]) := by
  rw [isOn_concat, if_neg elsewhere, reflects.powered]

/-- Writes elsewhere start no channel. -/
theorem active_elsewhere (stays : write.switchesOff = false)
    (elsewhere : isRegister write.address = false) :
    sound.active = status (isTriggered (writes ++ [write])) := by
  have started : isTriggered (writes ++ [write]) = isTriggered writes := by
    funext channel
    have distinct : write.address ≠ triggerAddress channel :=
      fun same => by simp [same, isRegister_trigger] at elsewhere
    exact isTriggered_of_ne stays distinct
  rw [started, reflects.active]

/-- A write to wave memory. -/
theorem write_wave (wave : isWave write.address = true) :
    Reflects (writes ++ [write]) (sound.write write.address write.value) := by
  have power : write.address ≠ powerAddress := fun same => by
    rw [same] at wave
    cases wave
  have stays : write.switchesOff = false := by simp [Write.switchesOff, power]
  have elsewhere : isRegister write.address = false := by
    rw [Bool.eq_false_iff, ne_eq, isRegister_iff]
    have := isWave_iff.mp wave
    grind
  rw [Sound.write, if_pos wave]
  constructor
  case wave =>
    intro address waveToo
    rw [lastAt_concat]
    by_cases same : write.address = address
    · rw [same, if_pos rfl, Bank.read_write_self, Option.getD_some]
    · rw [if_neg same, ← reflects.wave address waveToo]
      exact Bank.read_write_of_ne _ _ fun sameOffset => same <|
        Bank.eq_of_offset (by decide : 0xFF3F < 0xFF30 + 0x10) (isWave_iff.mp wave)
          (isWave_iff.mp waveToo) sameOffset
  case registers => exact reflects.registers_elsewhere stays elsewhere
  case powered => exact reflects.powered_elsewhere power
  case active => exact reflects.active_elsewhere stays elsewhere

theorem wave_elsewhere (elsewhere : isWave write.address = false) (address : UInt16)
    (wave : isWave address = true) :
    sound.wave.read (address - waveBase).toNat = (lastAt address (writes ++ [write])).getD 0 := by
  have distinct : write.address ≠ address := fun same => by simp [same, wave] at elsewhere
  rw [lastAt_concat, if_neg distinct, reflects.wave address wave]

/-- A write to the power register. -/
theorem write_power (power : write.address = powerAddress) :
    Reflects (writes ++ [write]) (sound.write write.address write.value) := by
  have notWave : isWave write.address = false := by
    rw [power]
    rfl
  have notRegister : isRegister write.address = false := by
    rw [power]
    rfl
  have written : sound.write write.address write.value = sound.setPower write.top := by
    rw [Sound.write, if_neg (by simp [notWave]), if_pos power]
    rfl
  have isOnNow : isOn (writes ++ [write]) = write.top := by rw [isOn_concat, if_pos power]
  have waveKept := reflects.wave_elsewhere notWave
  rw [written]
  cases top : write.top with
  | true =>
      have stays : write.switchesOff = false := by simp [Write.switchesOff, top]
      have switched : sound.setPower true = { sound with powered := true } := by
        simp [setPower]
      rw [switched]
      constructor
      case wave => exact waveKept
      case registers => exact reflects.registers_elsewhere stays notRegister
      case powered => rw [isOnNow, top]
      case active => exact reflects.active_elsewhere stays notRegister
  | false =>
      have off : write.switchesOff = true := by simp [Write.switchesOff, power, top]
      have silent : heard (writes ++ [write]) = [] := heard_switchOff off
      have unstarted : status (isTriggered (writes ++ [write])) = 0 := by
        simp [status, isTriggered, silent]
      have cleared (address : UInt16) (register : isRegister address = true) :
          (sound.setPower false).registers.read (address - base).toNat = 0 := by
        cases powered : sound.powered with
        | true => simp [setPower, powered]
        | false => simpa [setPower, powered] using (reflects.of_off powered).1 address register
      have inactive : (sound.setPower false).active = 0 := by
        cases powered : sound.powered with
        | true => simp [setPower, powered]
        | false => simpa [setPower, powered] using (reflects.of_off powered).2
      obtain ⟨_, _, _, switched⟩ := sound.setPower_eq false
      constructor
      case wave =>
        rw [switched]
        exact waveKept
      case registers =>
        intro address register
        rw [cleared address register, silent]
        rfl
      case powered =>
        rw [isOnNow, top, setPower]
        split <;> rfl
      case active => rw [inactive, unstarted]

/-- A write to a register with the power on. -/
theorem write_register (register : isRegister write.address = true)
    (powered : sound.powered = true) :
    Reflects (writes ++ [write]) (sound.write write.address write.value) := by
  have bounds := isRegister_iff.mp register
  have notWave : isWave write.address = false := by
    rw [Bool.eq_false_iff, ne_eq, isWave_iff]
    grind
  have power : write.address ≠ powerAddress := by grind [powerAddress]
  have stays : write.switchesOff = false := by simp [Write.switchesOff, power]
  have on : isOn writes = true := reflects.powered.symm.trans powered
  have more : heard (writes ++ [write]) = heard writes ++ [write] := heard_store stays on
  have written :
      sound.write write.address write.value = sound.store write.address write.value := by
    simp [Sound.write, notWave, power, register, powered]
  rw [written]
  constructor
  case wave => exact reflects.wave_elsewhere notWave
  case registers =>
    intro address registerToo
    rw [more, lastAt_concat]
    refine (read_register_write write.value register registerToo).trans ?_
    split
    · rfl
    · exact reflects.registers address registerToo
  case powered => exact reflects.powered_elsewhere power
  case active =>
    have started : isTriggered (writes ++ [write]) = fun channel =>
        isTriggered writes channel || write.address == triggerAddress channel && write.top := by
      funext channel
      simp [isTriggered, more]
    rw [started, Sound.store]
    simp only
    rw [← Write.top, reflects.active]
    cases write.top with
    | true => simp only [if_true, triggerBit_eq, status_or, Bool.and_true]
    | false => simp only [Bool.false_eq_true, if_false, Bool.and_false, Bool.or_false]

/-- With the power off a register takes in nothing, and past the registers nothing is stored. -/
theorem write_ignored (notWave : isWave write.address = false)
    (power : write.address ≠ powerAddress)
    (ignored : (isRegister write.address && sound.powered) = false) :
    Reflects (writes ++ [write]) (sound.write write.address write.value) := by
  have written : sound.write write.address write.value = sound := by
    simp [Sound.write, notWave, power, ignored]
  have stays : write.switchesOff = false := by simp [Write.switchesOff, power]
  rw [written]
  cases register : isRegister write.address with
  | false =>
      constructor
      case wave => exact reflects.wave_elsewhere notWave
      case registers => exact reflects.registers_elsewhere stays register
      case powered => exact reflects.powered_elsewhere power
      case active => exact reflects.active_elsewhere stays register
  | true =>
      rw [register, Bool.true_and] at ignored
      have same : heard (writes ++ [write]) = heard writes :=
        heard_locked power (reflects.powered.symm.trans ignored)
      constructor
      case wave => exact reflects.wave_elsewhere notWave
      case registers =>
        rw [same]
        exact reflects.registers
      case powered => exact reflects.powered_elsewhere power
      case active =>
        have started : isTriggered (writes ++ [write]) = isTriggered writes := by
          funext channel
          rw [isTriggered, same, isTriggered]
        rw [started]
        exact reflects.active

/-- A write leaves behind what the history with it says. -/
theorem step : Reflects (writes ++ [write]) (sound.write write.address write.value) := by
  cases wave : isWave write.address with
  | true => exact reflects.write_wave wave
  | false =>
      by_cases power : write.address = powerAddress
      · exact reflects.write_power power
      · cases stored : isRegister write.address && sound.powered with
        | true =>
            rw [Bool.and_eq_true] at stored
            exact reflects.write_register stored.1 stored.2
        | false => exact reflects.write_ignored wave power stored

end Reflects

/-- Switching the power to what it is already changes nothing. -/
theorem setPower_powered (sound : Sound) : sound.setPower sound.powered = sound := by
  obtain ⟨registers, wave, powered, active⟩ := sound
  cases powered <;> rfl

theorem reflects_nil : Reflects [] {} where
  wave _ _ := Bank.read_filled _ _
  registers _ _ := Bank.read_filled _ _
  powered := rfl
  active := rfl

/-- After any writes the sound unit is as they say. -/
theorem reflects_afterWrites (writes : List Write) : Reflects writes (afterWrites writes) := by
  induction writes using List.reverseRecOn with
  | nil => exact reflects_nil
  | append_singleton writes write ih =>
      rw [afterWrites, List.foldl_append]
      exact ih.step

/-! ## Reading back -/

/-- The bits that always read as set in the five registers of each channel and in the two of all. -/
def setBits (address : UInt16) : UInt8 :=
  [0x80, 0x3F, 0x00, 0xFF, 0xBF,
   0xFF, 0x3F, 0x00, 0xFF, 0xBF,
   0x7F, 0xFF, 0x9F, 0xFF, 0xBF,
   0xFF, 0xFF, 0x00, 0x00, 0xBF,
   0x00, 0x00].getD (address - 0xFF10).toNat 0xFF

theorem readMasks_eq_setBits {address : UInt16} (past : 0xFF10 ≤ address)
    (below : address ≤ 0xFF25) : readMasks.read (address - 0xFF10).toNat = setBits address := by
  have all : ∀ index : Fin 0x16,
      readMasks.read index = setBits (0xFF10 + UInt16.ofNat index) := by decide +kernel
  have inside : (address - 0xFF10).toNat < 0x16 := by
    rw [UInt16.le_iff_toNat_le] at below
    rw [UInt16.toNat_sub_of_le _ _ past]
    exact Nat.lt_of_le_of_lt (Nat.sub_le_sub_right below _) (by decide)
  have here := all ⟨_, inside⟩
  rwa [UInt16.ofNat_toNat, UInt16.add_comm, UInt16.sub_add_cancel] at here

/-- Everything that reads back from the sound window, after any writes to a sound unit as it is at
first.  Wave memory shows the byte last written, whatever the power.  The power register shows three
bits that are always set, the power, and a bit for each channel that has been started with the power
on since it last went off.  A register shows its mask and the byte last written with the power on
since it last went off, and what is not a register shows all bits set.  Switching the power to what
it is already changes nothing at all. -/
theorem reads_back (writes : List Write) :
    let sound := afterWrites writes
    (∀ address, 0xFF30 ≤ address → address ≤ 0xFF3F →
      sound.read address = (lastAt address writes).getD 0) ∧
    (sound.read 0xFF26).toNat =
      0x70 + (if isOn writes then 0x80 else 0) +
        ∑ channel, (if isTriggered writes channel then 2 ^ channel.val else 0) ∧
    (∀ address, 0xFF10 ≤ address → address ≤ 0xFF25 →
      sound.read address = setBits address ||| (lastAt address (heard writes)).getD 0) ∧
    (∀ value, (value &&& 0x80 != 0) = isOn writes → sound.write 0xFF26 value = sound) ∧
    ∀ address, address = 0xFF15 ∨ address = 0xFF1F ∨ 0xFF27 ≤ address ∧ address ≤ 0xFF2F →
      sound.read address = 0xFF := by
  intro sound
  have reflects : Reflects writes sound := reflects_afterWrites writes
  have shows (address : UInt16) (past : 0xFF10 ≤ address) (below : address ≤ 0xFF25) :
      sound.read address = setBits address ||| (lastAt address (heard writes)).getD 0 := by
    have register : isRegister address = true := isRegister_iff.mpr ⟨past, below⟩
    have notWave : ¬isWave address = true := by
      rw [isWave_iff]
      grind
    have power : address ≠ powerAddress := by grind [powerAddress]
    rw [read, if_neg notWave, if_neg power, if_pos register, reflects.registers address register,
      UInt8.or_comm, base, readMasks_eq_setBits past below]
  refine ⟨fun address past below => ?_, ?_, shows, fun value same => ?_, fun address unused => ?_⟩
  · have wave : isWave address = true := isWave_iff.mpr ⟨past, below⟩
    rw [read, if_pos wave]
    exact reflects.wave address wave
  · rw [← toNat_power, ← reflects.powered, ← reflects.active]
    rfl
  · rw [← reflects.powered] at same
    change sound.setPower (value &&& 0x80 != 0) = sound
    rw [same, setPower_powered]
  · rcases unused with rfl | rfl | ⟨past, below⟩
    · rw [shows 0xFF15 (by decide) (by decide)]
      exact UInt8.neg_one_or
    · rw [shows 0xFF1F (by decide) (by decide)]
      exact UInt8.neg_one_or
    · have notWave : ¬isWave address = true := by
        rw [isWave_iff]
        grind
      have notRegister : ¬isRegister address = true := by
        rw [isRegister_iff]
        grind
      have power : address ≠ powerAddress := by grind [powerAddress]
      rw [read, if_neg notWave, if_neg power, if_neg notRegister]

/-- A history with a power cycle: the byte in wave memory outlives it, the volume does not, and the
one written with the power off is not heard. -/
theorem reads_back_powerCycle :
    let writes : List Write :=
      [⟨0xFF26, 0x80⟩, ⟨0xFF24, 0x77⟩, ⟨0xFF30, 0xAB⟩, ⟨0xFF26, 0x00⟩, ⟨0xFF24, 0x55⟩,
        ⟨0xFF26, 0xFF⟩, ⟨0xFF1E, 0x80⟩]
    let sound := afterWrites writes
    heard writes = [⟨0xFF26, 0xFF⟩, ⟨0xFF1E, 0x80⟩] ∧ sound.read 0xFF30 = 0xAB ∧
      (sound.read 0xFF26).toNat = 0xF4 ∧ sound.read 0xFF24 = 0x00 ∧
      sound.write 0xFF26 0x80 = sound := by
  intro writes sound
  obtain ⟨wave, power, register, kept, _⟩ := reads_back writes
  refine ⟨by decide, ?_, ?_, ?_, kept 0x80 (by decide)⟩
  · exact wave 0xFF30 (by decide) (by decide)
  · rw [power]
    decide
  · rw [register 0xFF24 (by decide) (by decide)]
    decide

end Sound
end GameBoy
