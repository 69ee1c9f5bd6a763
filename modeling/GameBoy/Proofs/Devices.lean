import GameBoy.Proofs.Position
import GameBoy.Proofs.Requests
import Mathlib.Data.List.Basic

/-!
# Writes and devices

What the write of a byte does to the timer, to the picture unit and to the pending stall follows
from its address and value, whatever region the address lies in.
-/

namespace GameBoy

open Effect

namespace Timer

theorem counter_settle (before : Bool) (timer : Timer) :
    (settle before timer).counter = timer.counter := by
  rw [settle]
  split <;> rfl

theorem counter_write (timer : Timer) (address : UInt16) (value : UInt8) :
    (timer.write address value).counter =
      if address = dividerAddress then 0 else timer.counter := by
  rw [write]
  split
  · exact counter_settle _ _
  · split
    · rfl
    · split
      · rfl
      · exact counter_settle _ _

theorem counter_cycle (timer : Timer) : timer.cycle.counter = timer.counter + 1 := by
  have reloaded : timer.advanceReload.counter = timer.counter := by
    rw [advanceReload]
    split
    · rfl
    · split <;> rfl
  rw [cycle, advanceCounter, counter_settle, ← reloaded]

/-- Every cycle counts. -/
theorem counter_tick (timer : Timer) (cycles : Nat) :
    (timer.tick cycles).counter = timer.counter + UInt16.ofNat cycles := by
  rw [tick_eq_run]
  induction cycles generalizing timer with
  | zero => simp [run]
  | succ cycles ih =>
      rw [run, ih, counter_cycle, Nat.add_comm cycles 1, UInt16.ofNat_add, UInt16.add_assoc]
      rfl

end Timer

namespace Ppu

/-- The registers of the picture unit that can be written. -/
def writable : List UInt16 :=
  [lcdcAddress, 0xFF41, 0xFF42, 0xFF43, 0xFF45, 0xFF47, 0xFF48, 0xFF49, 0xFF4A, 0xFF4B]

theorem write_of_not_mem {address : UInt16} (outside : address ∉ writable) (value : UInt8)
    (ppu : Ppu) : ppu.write address value = ppu := by
  simp only [writable, List.mem_cons, List.not_mem_nil, or_false, not_or] at outside
  simp only [write, outside, if_false]

theorem place_of_writable :
    ∀ address ∈ writable, Region.of address = .io ∧ Port.of address = .picture :=
  List.forall_iff_forall_mem.mp (by decide)

theorem write_of_port {address : UInt16} (port : Port.of address ≠ .picture) (value : UInt8)
    (ppu : Ppu) : ppu.write address value = ppu :=
  write_of_not_mem (fun member => port (place_of_writable address member).2) value ppu

theorem write_of_region {address : UInt16} (region : Region.of address ≠ .io) (value : UInt8)
    (ppu : Ppu) : ppu.write address value = ppu :=
  write_of_not_mem (fun member => region (place_of_writable address member).1) value ppu

/-- The two agree in what moves and in what decides how it moves. -/
structure Agrees (ppu other : Ppu) : Prop where
  beam : ppu.beam = other.beam
  lcdc : ppu.lcdc = other.lcdc
  statSelect : ppu.statSelect = other.statSelect

theorem Agrees.lcdEnabled {ppu other : Ppu} (agrees : Agrees ppu other) :
    ppu.lcdEnabled = other.lcdEnabled := by
  rw [Ppu.lcdEnabled, agrees.lcdc, Ppu.lcdEnabled]

end Ppu

/-- The request register and the trigger of transfers are ports of a single address. -/
theorem Port.address_eq (address : UInt16) :
    (Port.of address = .interruptRequest → address = 0xFF0F) ∧
      (Port.of address = .oamDma → address = 0xFF46) := by
  rw [Port.of]
  repeat'
    refine iteInduction (motive := fun port =>
      (port = Port.interruptRequest → address = 0xFF0F) ∧ (port = .oamDma → address = 0xFF46))
      (fun here => ?_) fun _ => ?_
  -- at each end of the chain the port is known, and so is the address if the port is one of the two
  all_goals constructor <;> intro port <;> cases port <;> assumption

/-- The event is the notice of a write, and of nothing that comes about by it. -/
def Event.isNotice : Event → Bool
  | .romWriteIgnored .. | .romBankSelected .. | .oamDma .. | .lcdPower .. => true
  | .illegalOpcode .. | .interruptServiced .. | .memoryFault .. | .serialByte .. => false

namespace Board

/-- Address of the trigger of transfers into object memory. -/
def dmaAddress : UInt16 := 0xFF46

/-- Collecting touches nothing but the requests, the latches behind them and the byte last sent. -/
theorem collect_eq (board : Board) : ∃ lastSent sink,
    board.collect =
      { board with
        requests := board.requests.union board.raised
        timer := board.timer.acknowledge
        ppu := board.ppu.acknowledge
        joypad := board.joypad.acknowledge
        serial := { board.serial.acknowledge with lastSent }
        sink } := by
  simp only [collect]
  split
  · rw [reportSent]
    split <;> exact ⟨_, _, rfl⟩
  · exact ⟨_, _, rfl⟩

theorem storeRom_eq (board : Board) (address : UInt16) (value : UInt8) : ∃ cartridge sink,
    board.storeRom address value = { board with cartridge, sink } := by
  rw [storeRom]
  split
  · simp only
    split <;> exact ⟨_, _, rfl⟩
  · exact ⟨_, _, rfl⟩

theorem storePicture_eq (board : Board) (address : UInt16) (value : UInt8) : ∃ sink,
    board.storePicture address value =
      { board with ppu := board.ppu.write address value, sink } := by
  simp only [storePicture]
  split <;> exact ⟨_, rfl⟩

theorem oamDma_eq (board : Board) (value : UInt8) : ∃ oam stall sink,
    board.oamDma value =
      { board with dmaRegister := value, ppu := { board.ppu with oam }, stall, sink } :=
  ⟨_, _, _, rfl⟩

/-- A write outside the I/O region leaves the devices alone. -/
theorem store_of_memory {address : UInt16} (memory : Region.of address ≠ .io) (board : Board)
    (value : UInt8) : ∃ cartridge workRam highRam vram oam enables sink,
    board.store address value =
      { board with
        ppu := { board.ppu with vram, oam }
        cartridge, workRam, highRam, enables, sink } := by
  rw [store]
  cases region : Region.of address with
  | romBank0 | romBankN =>
      obtain ⟨_, _, stored⟩ := board.storeRom_eq address value
      exact ⟨_, _, _, _, _, _, _, stored⟩
  | io => exact absurd region memory
  | _ => exact ⟨_, _, _, _, _, _, _, rfl⟩

theorem store_of_io {address : UInt16} (io : Region.of address = .io) (board : Board)
    (value : UInt8) : board.store address value = (board.storePort address value).collect := by
  rw [store, io]

/-- A write to the divider clears the counter, and no other write touches it. -/
theorem counter_store (board : Board) (address : UInt16) (value : UInt8) :
    (board.store address value).timer.counter =
      if address = Timer.dividerAddress then 0 else board.timer.counter := by
  by_cases io : Region.of address = .io
  · obtain ⟨_, _, collected⟩ := (board.storePort address value).collect_eq
    rw [store_of_io io, collected]
    change (board.storePort address value).timer.counter = _
    by_cases divider : address = Timer.dividerAddress
    · rw [divider]
      exact Timer.counter_write board.timer Timer.dividerAddress value
    rw [if_neg divider, storePort]
    cases Port.of address with
    | timer => exact (Timer.counter_write _ _ _).trans (if_neg divider)
    | picture =>
        obtain ⟨_, stored⟩ := board.storePicture_eq address value
        rw [stored]
    | _ => rfl
  · have other : address ≠ Timer.dividerAddress := by
      rintro rfl
      exact io rfl
    obtain ⟨_, _, _, _, _, _, _, stored⟩ := store_of_memory io board value
    rw [stored, if_neg other]

/-- A write to the trigger adds a transfer to the pending stall, and no other write changes it. -/
theorem stall_store (board : Board) (address : UInt16) (value : UInt8) :
    (board.store address value).stall =
      board.stall + if address = dmaAddress then dmaStall else 0 := by
  by_cases io : Region.of address = .io
  · obtain ⟨_, _, collected⟩ := (board.storePort address value).collect_eq
    rw [store_of_io io, collected]
    change (board.storePort address value).stall = _
    by_cases trigger : address = dmaAddress
    · rw [trigger]
      rfl
    rw [if_neg trigger, storePort]
    cases port : Port.of address with
    | oamDma => exact absurd ((Port.address_eq address).2 port) trigger
    | picture =>
        obtain ⟨_, stored⟩ := board.storePicture_eq address value
        rw [stored]
        rfl
    | _ => rfl
  · have other : address ≠ dmaAddress := by
      rintro rfl
      exact io rfl
    obtain ⟨_, _, _, _, _, _, _, stored⟩ := store_of_memory io board value
    rw [stored, if_neg other]
    rfl

/-- A write moves the picture unit as the write of the register at the address does, if there is
one. -/
theorem agrees_store (board : Board) (address : UInt16) (value : UInt8) :
    Ppu.Agrees (board.store address value).ppu (board.ppu.write address value) := by
  by_cases io : Region.of address = .io
  · obtain ⟨_, _, collected⟩ := (board.storePort address value).collect_eq
    rw [store_of_io io, collected]
    change Ppu.Agrees (board.storePort address value).ppu.acknowledge _
    rw [storePort]
    cases port : Port.of address with
    | picture =>
        obtain ⟨_, stored⟩ := board.storePicture_eq address value
        simp only [stored]
        exact ⟨rfl, rfl, rfl⟩
    | oamDma =>
        obtain ⟨_, _, _, copied⟩ := board.oamDma_eq value
        rw [Ppu.write_of_port (by rw [port]; decide)]
        simp only [copied]
        exact ⟨rfl, rfl, rfl⟩
    | _ =>
        rw [Ppu.write_of_port (by rw [port]; decide)]
        exact ⟨rfl, rfl, rfl⟩
  · obtain ⟨_, _, _, _, _, _, _, stored⟩ := store_of_memory io board value
    rw [stored, Ppu.write_of_region io]
    exact ⟨rfl, rfl, rfl⟩

/-! ## Notices -/

/-- From one board to the other nothing has been reported, or one notice. -/
def Notes (board after : Board) : Prop :=
  after.sink = board.sink ∨
    ∃ event : Event, event.isNotice = true ∧ after.sink = board.sink.record event

theorem notes_storePort (board : Board) (address : UInt16) (value : UInt8) :
    Notes board (board.storePort address value) := by
  rw [storePort]
  cases Port.of address with
  | oamDma => exact .inr ⟨_, rfl, rfl⟩
  | picture =>
      simp only [storePicture]
      split
      · exact .inr ⟨_, rfl, rfl⟩
      · exact .inl rfl
  | _ => exact .inl rfl

theorem notes_storeRom (board : Board) (address : UInt16) (value : UInt8) :
    Notes board (board.storeRom address value) := by
  rw [storeRom]
  split
  · simp only
    split
    · exact .inr ⟨_, rfl, rfl⟩
    · exact .inl rfl
  · exact .inr ⟨_, rfl, rfl⟩

end Board
end GameBoy
