import GameBoy.Proofs.Storage

/-!
# Isolation of the I/O registers

A write to an I/O register is noticed at the register itself, at registers of the same device that
are known to depend on it, at the request register if the device can request an interrupt, and in
object memory if it triggers a transfer.  No other byte that can be read changes, and a register
that cannot be written changes none at all.
-/

namespace GameBoy

open Effect

/-! ## Registers -/

/-- The registers that belong to a port. -/
def Port.Owns (port : Port) (address : UInt16) : Prop :=
  match port with
  | .joypad => address = 0xFF00
  | .serial => address = 0xFF01 ∨ address = 0xFF02
  | .timer => 0xFF04 ≤ address ∧ address ≤ 0xFF07
  | .interruptRequest => address = 0xFF0F
  | .sound => 0xFF10 ≤ address ∧ address ≤ 0xFF3F
  | .picture => 0xFF40 ≤ address ∧ address ≤ 0xFF4B ∧ address ≠ 0xFF46
  | .oamDma => address = 0xFF46
  | .bootRom => address = 0xFF50
  | .vramDma => 0xFF51 ≤ address ∧ address ≤ 0xFF55
  | .unmapped =>
    address = 0xFF03 ∨ 0xFF08 ≤ address ∧ address ≤ 0xFF0E ∨
      0xFF4C ≤ address ∧ address ≤ 0xFF4F ∨ 0xFF56 ≤ address

theorem Port.owns_of {address : UInt16} {port : Port} (above : 0xFF00 ≤ address)
    (belongs : Port.of address = port) : port.Owns address := by
  rw [← belongs, Port.of]
  repeat'
    refine iteInduction (motive := fun port => Port.Owns port address) (fun here => ?_)
      fun past => ?_
  all_goals
    simp only [Owns]
    grind

/-- The register cannot be written: nothing is behind it, or it only shows something. -/
def IsReadOnly (register : UInt16) : Prop :=
  register = 0xFF03 ∨ 0xFF08 ≤ register ∧ register ≤ 0xFF0E ∨
    0xFF27 ≤ register ∧ register ≤ 0xFF2F ∨ register = 0xFF44 ∨
    0xFF4C ≤ register ∧ register ≤ 0xFF4F ∨ 0xFF51 ≤ register ∧ register ≤ 0xFF7F

/-- A write to the register may be noticed at another address: a transfer replaces the serial data,
the divider and the timer control may count TIMA, sound registers start channels and go with the
power, the display restarts, the line to compare with is compared, and object memory is filled. -/
def Disturbs (register observed : UInt16) : Prop :=
  register = 0xFF02 ∧ (observed = 0xFF01 ∨ observed = 0xFF0F) ∨
    (register = 0xFF04 ∨ register = 0xFF07) ∧ observed = 0xFF05 ∨
    (0xFF10 ≤ register ∧ register ≤ 0xFF25) ∧ observed = 0xFF26 ∨
    register = 0xFF26 ∧ (0xFF10 ≤ observed ∧ observed ≤ 0xFF25) ∨
    register = 0xFF40 ∧ (observed = 0xFF41 ∨ observed = 0xFF44 ∨ observed = 0xFF0F) ∨
    register = 0xFF45 ∧ (observed = 0xFF41 ∨ observed = 0xFF0F) ∨
    register = 0xFF46 ∧ (0xFE00 ≤ observed ∧ observed ≤ 0xFE9F)

theorem Interrupt.Lines.eq_empty {lines : Lines} (none : ∀ line, lines.contains line = false) :
    lines = {} := by
  rcases lines with ⟨vblank, stat, timer, serial, joypad⟩
  have vblankNot : vblank = false := none .vblank
  have statNot : stat = false := none .stat
  have timerNot : timer = false := none .timer
  have serialNot : serial = false := none .serial
  have joypadNot : joypad = false := none .joypad
  rw [vblankNot, statNot, timerNot, serialNot, joypadNot]

variable {register observed : UInt16}

/-! ## Devices -/

theorem Serial.read_write (distinct : observed ≠ register) (apart : ¬Disturbs register observed)
    (owned : Port.serial.Owns register) (ownedToo : Port.serial.Owns observed) (serial : Serial)
    (value : UInt8) : (serial.write register value).read observed = serial.read observed := by
  have data : register = dataAddress := by
    rw [dataAddress]
    grind [Port.Owns, Disturbs]
  have control : observed ≠ dataAddress := data ▸ distinct
  rw [write, if_pos data, read, read, if_neg control, if_neg control]

namespace Timer

theorem settle_eq (before : Bool) (timer : Timer) :
    ∃ tima reloadIn, settle before timer = { timer with tima, reloadIn } := by
  rw [settle]
  split <;> exact ⟨_, _, rfl⟩

/-- Counting an edge is noticed at TIMA only. -/
theorem read_settle (other : observed ≠ timaAddress) (before : Bool) (timer : Timer) :
    (settle before timer).read observed = timer.read observed := by
  obtain ⟨tima, reloadIn, settled⟩ := settle_eq before timer
  rw [settled]
  simp only [read, if_neg other, divider]

theorem read_write (distinct : observed ≠ register) (apart : ¬Disturbs register observed)
    (owned : Port.timer.Owns register) (ownedToo : Port.timer.Owns observed) (timer : Timer)
    (value : UInt8) : (timer.write register value).read observed = timer.read observed := by
  simp only [Port.Owns] at owned ownedToo
  simp only [Disturbs] at apart
  rw [write]
  split
  · next divider =>
      have uncounted : observed ≠ timaAddress := by grind [dividerAddress, timaAddress]
      rw [read_settle uncounted]
      simp only [read, if_neg (divider ▸ distinct), if_neg uncounted]
  · next divider =>
      split
      · next tima => simp only [read, if_neg (tima ▸ distinct), Timer.divider]
      · next tima =>
          split
          · next modulo => simp only [read, if_neg (modulo ▸ distinct), Timer.divider]
          · next modulo =>
              simp only [dividerAddress, timaAddress, tmaAddress] at divider tima modulo
              have control : register = 0xFF07 := by grind
              have uncounted : observed ≠ timaAddress := by grind [timaAddress]
              have other : observed = dividerAddress ∨ observed = tmaAddress := by
                grind [dividerAddress, tmaAddress]
              rw [read_settle uncounted]
              rcases other with rfl | rfl <;> rfl

end Timer

namespace Sound

theorem isWave_iff {address : UInt16} :
    isWave address = true ↔ 0xFF30 ≤ address ∧ address ≤ 0xFF3F := by
  rw [isWave, waveBase]
  grind

theorem isRegister_iff {address : UInt16} :
    isRegister address = true ↔ 0xFF10 ≤ address ∧ address ≤ 0xFF25 := by
  rw [isRegister, base, powerAddress]
  grind

/-- Switching the power leaves wave memory alone. -/
theorem setPower_eq (sound : Sound) (on : Bool) : ∃ registers active powered,
    sound.setPower on = { sound with registers, active, powered } := by
  rw [setPower]
  split <;> exact ⟨_, _, _, rfl⟩

theorem read_write (distinct : observed ≠ register) (apart : ¬Disturbs register observed)
    (sound : Sound) (value : UInt8) :
    (sound.write register value).read observed = sound.read observed := by
  simp only [Disturbs] at apart
  rw [write]
  split
  · next wave =>
      have kept (waveToo : isWave observed = true) :
          (sound.wave.write (register - waveBase).toNat value).read (observed - waveBase).toNat =
            sound.wave.read (observed - waveBase).toNat :=
        Bank.read_write_of_ne _ _ fun same => distinct.symm <|
          Bank.eq_of_offset (by decide : 0xFF3F < 0xFF30 + 0x10) (isWave_iff.mp wave)
            (isWave_iff.mp waveToo) same
      simp only [read]
      split
      · next waveToo => exact kept waveToo
      · rfl
  · split
    · next power =>
        obtain ⟨_, _, _, switched⟩ := sound.setPower_eq (value &&& 0x80 != 0)
        have other : isRegister observed = false := by
          rw [Bool.eq_false_iff, ne_eq, isRegister_iff]
          grind [powerAddress]
        rw [switched]
        simp only [read, other, power ▸ distinct, if_false, Bool.false_eq_true]
    · split
      · next stores =>
          rw [Bool.and_eq_true, isRegister_iff] at stores
          have power : observed ≠ powerAddress := by grind [powerAddress]
          have kept (registerToo : isRegister observed = true) :
              (sound.registers.write (register - base).toNat value).read (observed - base).toNat =
                sound.registers.read (observed - base).toNat :=
            Bank.read_write_of_ne _ _ fun same => distinct.symm <|
              Bank.eq_of_offset (by decide : 0xFF25 < 0xFF10 + 0x16) stores.1
                (isRegister_iff.mp registerToo) same
          rw [store]
          simp only [read, if_neg power]
          split
          · rfl
          · split
            · next registerToo => rw [kept registerToo]
            · rfl
      · rfl

end Sound

namespace Ppu

theorem setLcdc_eq (ppu : Ppu) (value : UInt8) : ∃ mode dots ly coincidence statRequested,
    ppu.setLcdc value =
      { ppu with lcdc := value, mode, dots, ly, coincidence, statRequested } := by
  simp only [setLcdc]
  split <;> exact ⟨_, _, _, _, _, rfl⟩

theorem setLyc_eq (ppu : Ppu) (value : UInt8) : ∃ coincidence statRequested,
    ppu.setLyc value = { ppu with lyc := value, coincidence, statRequested } := by
  simp only [setLyc]
  split <;> exact ⟨_, _, rfl⟩

theorem read_write (distinct : observed ≠ register) (apart : ¬Disturbs register observed)
    (ppu : Ppu) (value : UInt8) : (ppu.write register value).read observed = ppu.read observed := by
  by_cases member : register ∈ writable
  · simp only [writable, List.mem_cons, List.not_mem_nil, or_false] at member
    rcases member with rfl | rfl | rfl | rfl | rfl | rfl | rfl | rfl | rfl | rfl
    · obtain ⟨_, _, _, _, _, switched⟩ := ppu.setLcdc_eq value
      have stat : observed ≠ 0xFF41 := by grind [Disturbs, lcdcAddress]
      have line : observed ≠ 0xFF44 := by grind [Disturbs, lcdcAddress]
      rw [write, if_pos rfl, switched]
      simp only [read, if_neg distinct, if_neg stat, if_neg line]
    · simp [write, read, lcdcAddress, distinct]
    · simp [write, read, distinct, lcdcAddress]
      rfl
    · simp [write, read, distinct, lcdcAddress]
      rfl
    · obtain ⟨_, _, compared⟩ := ppu.setLyc_eq value
      have stat : observed ≠ 0xFF41 := by grind [Disturbs]
      change (ppu.setLyc value).read observed = _
      rw [compared]
      simp only [read, if_neg distinct, if_neg stat]
    all_goals
      simp [write, read, distinct, lcdcAddress]
      rfl
  · rw [write_of_not_mem member]

/-- The registers of the picture unit are not its memories. -/
theorem memories_write (ppu : Ppu) (address : UInt16) (value : UInt8) :
    (ppu.write address value).vram = ppu.vram ∧ (ppu.write address value).oam = ppu.oam := by
  by_cases member : address ∈ writable
  · simp only [writable, List.mem_cons, List.not_mem_nil, or_false] at member
    rcases member with rfl | rfl | rfl | rfl | rfl | rfl | rfl | rfl | rfl | rfl
    · obtain ⟨_, _, _, _, _, switched⟩ := ppu.setLcdc_eq value
      rw [write, if_pos rfl, switched]
      exact ⟨rfl, rfl⟩
    · exact ⟨rfl, rfl⟩
    · exact ⟨rfl, rfl⟩
    · exact ⟨rfl, rfl⟩
    · obtain ⟨_, _, compared⟩ := ppu.setLyc_eq value
      change (ppu.setLyc value).vram = _ ∧ (ppu.setLyc value).oam = _
      rw [compared]
      exact ⟨rfl, rfl⟩
    all_goals exact ⟨rfl, rfl⟩
  · rw [write_of_not_mem member]
    exact ⟨rfl, rfl⟩

end Ppu

/-! ## Registers of the board -/

namespace Board

/-- Collecting is noticed at the request register only. -/
theorem peek_collect (other : observed ≠ Interrupt.requestAddress) (board : Board) :
    board.collect.peek observed = board.peek observed := by
  obtain ⟨_, _, collected⟩ := board.collect_eq
  rw [collected]
  by_cases io : Region.of observed = .io
  · rw [peek, peek, io]
    simp only [portByte]
    cases port : Port.of observed with
    | interruptRequest => exact absurd ((Port.address_eq observed).1 port) other
    | _ => rfl
  · rw [peek_of_memory io, peek_of_memory io, memoryByte, memoryByte]
    cases Region.of observed <;> rfl

theorem peek_collect_of_settled {board : Board} (settled : board.raised = {})
    (observed : UInt16) : board.collect.peek observed = board.peek observed := by
  by_cases requests : observed = Interrupt.requestAddress
  · rw [requests, peek_requestAddress, peek_requestAddress, requestByte, requestByte,
      requests_collect, settled, Interrupt.Lines.union_empty]
  · exact peek_collect requests board

/-- Of the memories only object memory notices a write to a register. -/
theorem memoryByte_storePort (apart : ¬Disturbs register observed) (board : Board)
    (value : UInt8) :
    (board.storePort register value).memoryByte observed = board.memoryByte observed := by
  rw [storePort]
  cases port : Port.of register with
  | picture =>
      obtain ⟨_, stored⟩ := board.storePicture_eq register value
      obtain ⟨vram, oam⟩ := board.ppu.memories_write register value
      simp only [stored, memoryByte, Ppu.readVram, Ppu.readOam, vram, oam]
  | oamDma =>
      have trigger := (Port.address_eq register).2 port
      obtain ⟨_, _, _, copied⟩ := board.oamDma_eq value
      simp only [copied]
      rw [memoryByte, memoryByte]
      cases region : Region.of observed with
      | oam =>
          have inside := Region.of_eq_iff.mp region
          rw [Region.first, Region.last] at inside
          exact absurd (by simp [Disturbs, trigger, inside]) apart
      | _ => rfl
  | _ => rfl

/-- A register notices no write to a register of another device. -/
theorem portByte_storePort_of_ne (elsewhere : Port.of observed ≠ Port.of register) (board : Board)
    (value : UInt8) :
    (board.storePort register value).portByte observed = board.portByte observed := by
  rw [storePort, portByte, portByte]
  cases port : Port.of register with
  | picture =>
      obtain ⟨_, stored⟩ := board.storePicture_eq register value
      simp only [stored]
      cases portToo : Port.of observed <;>
        first
        | rfl
        | exact absurd (portToo.trans port.symm) elsewhere
  | oamDma =>
      obtain ⟨_, _, _, copied⟩ := board.oamDma_eq value
      simp only [copied]
      cases portToo : Port.of observed <;>
        first
        | rfl
        | exact absurd (portToo.trans port.symm) elsewhere
  | _ =>
      cases portToo : Port.of observed <;>
        first
        | rfl
        | exact absurd (portToo.trans port.symm) elsewhere

/-- A write to a register is noticed within its device only as far as registers depend on it. -/
theorem portByte_storePort (io : Region.of register = .io) (ioToo : Region.of observed = .io)
    (distinct : observed ≠ register) (apart : ¬Disturbs register observed) (board : Board)
    (value : UInt8) :
    (board.storePort register value).portByte observed = board.portByte observed := by
  by_cases portToo : Port.of observed = Port.of register
  · have owned := Port.owns_of (Region.of_eq_iff.mp io).1 rfl
    have ownedToo := Port.owns_of (Region.of_eq_iff.mp ioToo).1 portToo
    rw [storePort, portByte, portByte, portToo]
    cases port : Port.of register with
    | serial =>
        rw [port] at owned ownedToo
        exact congrArg Except.ok (Serial.read_write distinct apart owned ownedToo _ _)
    | timer =>
        rw [port] at owned ownedToo
        exact congrArg Except.ok (Timer.read_write distinct apart owned ownedToo _ _)
    | sound => exact congrArg Except.ok (Sound.read_write distinct apart _ _)
    | picture =>
        obtain ⟨_, stored⟩ := board.storePicture_eq register value
        simp only [stored]
        exact congrArg Except.ok (Ppu.read_write distinct apart _ _)
    | joypad | interruptRequest | oamDma | bootRom =>
        -- the device has one register
        rw [port] at owned ownedToo
        exact absurd (Eq.trans ownedToo (Eq.symm owned)) distinct
    | vramDma | unmapped => rfl
  · exact portByte_storePort_of_ne portToo board value

/-- No device requests anything unless that may be noticed at the request register. -/
theorem raised_storePort_of_not_disturbs {board : Board} (settled : board.raised = {})
    (io : Region.of register = .io) (apart : ¬Disturbs register Interrupt.requestAddress)
    (value : UInt8) : (board.storePort register value).raised = {} := by
  refine Interrupt.Lines.eq_empty fun line => ?_
  rw [Bool.eq_false_iff]
  intro contained
  have raises : (board.raisedBy register value).contains line = true := by
    rw [raisedBy, io]
    exact contained
  refine apart ?_
  rcases contains_raisedBy settled raises with ⟨_, rfl, _⟩ | ⟨_, rfl | rfl⟩
  · simp [Disturbs, Interrupt.requestAddress]
  · simp [Disturbs, Ppu.lcdcAddress, Interrupt.requestAddress]
  · simp [Disturbs, Interrupt.requestAddress]

/-- A write to a register is noticed there and where registers depend on it. -/
theorem peek_store_of_not_disturbs {board : Board} (settled : board.raised = {})
    (io : Region.of register = .io) (distinct : observed ≠ register)
    (apart : ¬Disturbs register observed) (value : UInt8) :
    (board.store register value).peek observed = board.peek observed := by
  have stored : (board.storePort register value).peek observed = board.peek observed := by
    by_cases ioToo : Region.of observed = .io
    · rw [peek, peek, ioToo]
      exact portByte_storePort io ioToo distinct apart board value
    · rw [peek_of_memory ioToo, peek_of_memory ioToo, memoryByte_storePort apart]
  rw [store_of_io io]
  by_cases requests : observed = Interrupt.requestAddress
  · subst requests
    have silent := raised_storePort_of_not_disturbs settled io apart value
    exact (peek_collect_of_settled silent _).trans stored
  · exact (peek_collect requests _).trans stored

theorem storePort_of_isReadOnly (readOnly : IsReadOnly register) (io : Region.of register = .io)
    (board : Board) (value : UInt8) : board.storePort register value = board := by
  have owned := Port.owns_of (Region.of_eq_iff.mp io).1 rfl
  rw [storePort]
  rw [IsReadOnly] at readOnly
  cases port : Port.of register with
  | vramDma | unmapped => rfl
  | sound =>
      rw [port] at owned
      simp only [Port.Owns] at owned
      have wave : ¬Sound.isWave register = true := by
        rw [Sound.isWave_iff]
        grind
      have power : register ≠ Sound.powerAddress := by grind [Sound.powerAddress]
      have other : Sound.isRegister register = false := by
        rw [Bool.eq_false_iff, ne_eq, Sound.isRegister_iff]
        grind
      simp only [Sound.write, if_neg wave, if_neg power, other, Bool.false_and, Bool.false_eq_true,
        if_false]
  | picture =>
      rw [port] at owned
      simp only [Port.Owns] at owned
      have line : register = 0xFF44 := by grind
      have unwritable : register ∉ Ppu.writable := by
        rw [line]
        decide
      simp only [storePicture, Ppu.write_of_not_mem unwritable, bne_self_eq_false,
        Bool.false_eq_true, if_false]
  | joypad | serial | timer | interruptRequest | oamDma | bootRom =>
      rw [port] at owned
      simp only [Port.Owns] at owned
      grind

variable {σ : Type}

/-- Whatever has been done to a board, the write to a register always succeeds and is noticed at the
register itself and where registers are known to depend on it, and at no other address.  The write
to a register that is read-only is noticed nowhere. -/
theorem register_write_is_isolated (render : Renderer σ) (cartridge : Cartridge) (config : Config)
    (sink : Sink) (screen : σ) (operations : List Operation) (register : UInt16) (value : UInt8)
    (above : 0xFF00 ≤ register) (below : register ≤ 0xFF7F) :
    let board := (operateAll render operations (boot cartridge config sink, screen)).1
    ∃ after, Bus.write register value board = .ok () after ∧
      (∀ observed, outcome (Bus.read observed) after ≠ outcome (Bus.read observed) board →
        observed = register ∨ Disturbs register observed) ∧
      (IsReadOnly register →
        ∀ observed, outcome (Bus.read observed) after = outcome (Bus.read observed) board) := by
  intro board
  have settled : board.raised = {} := raised_operateAll render operations (raised_boot _ _ _)
  have io : Region.of register = .io := Region.of_eq_iff.mpr ⟨above, below⟩
  refine ⟨board.store register value, ?_, fun observed changed => ?_, fun readOnly observed => ?_⟩
  · rw [write_apply, refusal_of_io io]
  · rw [outcome_read, outcome_read] at changed
    by_contra neither
    refine changed ?_
    obtain ⟨distinct, apart⟩ := not_or.mp neither
    exact peek_store_of_not_disturbs settled io distinct apart value
  · rw [outcome_read, outcome_read, store_of_io io, storePort_of_isReadOnly readOnly io]
    exact peek_collect_of_settled settled observed

/-- Switching the display off is noticed at the status and not at the line to compare with. -/
theorem register_write_is_isolated_lcdc :
    let cartridge := Cartridge.romOnly (Bank.filled 0) (Bank.filled 0)
    let board := (operateAll Renderer.null [.tick 100] (boot cartridge {} .discard, ())).1
    ∃ after, Bus.write 0xFF40 0x00 board = .ok () after ∧
      board.peek 0xFF41 = .ok 0x87 ∧ after.peek 0xFF41 = .ok 0x84 ∧
      outcome (Bus.read 0xFF45) after = outcome (Bus.read 0xFF45) board := by
  intro cartridge board
  obtain ⟨after, ran, noticed, _⟩ := register_write_is_isolated Renderer.null cartridge {}
    .discard () [.tick 100] 0xFF40 0x00 (by decide) (by decide)
  refine ⟨after, ran, by decide +kernel, ?_, ?_⟩
  · rw [store_of_write ran]
    decide +kernel
  · by_contra changed
    exact absurd (noticed 0xFF45 changed) (by simp [Disturbs])

end Board

end GameBoy
