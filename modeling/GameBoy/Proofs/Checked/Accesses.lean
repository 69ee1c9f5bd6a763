import GameBoy.Proofs.Checked.Devices
import GameBoy.Proofs.Checked.Picture
import GameBoy.Proofs.Routing

/-!
# Checked accesses

An access finds the offset of its address in the memory or the device behind it, and a transfer into
object memory finds its addresses one after another and adds to the stall.  These accesses are those
of the board, provided that one more transfer can be added to the stall that is pending.
-/

namespace GameBoy

open Effect

/-! ## Actions whose operations are checked -/

/-- An action whose operations are checked: nothing comes of it once one of them has overrun. -/
def Checked (ε σ α : Type) : Type :=
  σ → Option (EStateM.Result ε σ α)

namespace Checked

variable {ε σ α γ : Type}

instance : Monad (Checked ε σ) where
  pure value := fun state => some (.ok value state)
  bind action next := fun state =>
    match action state with
    | some (.ok value after) => next value after
    | some (.error error after) => some (.error error after)
    | none => none

instance : MonadLift Option (Checked ε σ) where
  monadLift result := fun state => result.map fun value => .ok value state

/-- Change the state by an operation. -/
def change (operation : σ → Option σ) : Checked ε σ Unit := fun state =>
  (operation state).map fun after => .ok () after

/-- The checked action comes to what the action comes to, so none of its operations overruns. -/
def Meets (checked : Checked ε σ α) (action : EStateM ε σ α) (state : σ) : Prop :=
  checked state = some (action state)

theorem Meets.bind_apply {checked : Checked ε σ α} {action : EStateM ε σ α} {state : σ}
    (meets : checked.Meets action state) (follow : α → Checked ε σ γ) :
    (checked >>= follow) state =
      match action state with
      | .ok value after => follow value after
      | .error error after => some (.error error after) := by
  have runs : (checked >>= follow) state =
      match checked state with
      | some (.ok value after) => follow value after
      | some (.error error after) => some (.error error after)
      | none => none := rfl
  rw [Meets] at meets
  rw [runs, meets]
  cases action state <;> rfl

theorem Meets.bind {checked : Checked ε σ α} {action : EStateM ε σ α} {state : σ}
    {follow : α → Checked ε σ γ} {next : α → EStateM ε σ γ} (first : Meets checked action state)
    (rest : ∀ value after, action state = .ok value after →
      Meets (follow value) (next value) after) :
    Meets (checked >>= follow) (action >>= next) state := by
  rw [Meets, first.bind_apply, Effect.bind_apply]
  cases ran : action state with
  | ok value after => exact rest value after ran
  | error error after => rfl

/-- An operation that does not overrun goes on with its result. -/
theorem lift_bind {result : Option α} {value : α} (fits : result = some value)
    (follow : α → Checked ε σ γ) : ((result : Checked ε σ α) >>= follow) = follow value := by
  subst fits
  rfl

theorem Meets.lift {result : Option α} {value : α} {follow : α → Checked ε σ γ}
    {action : EStateM ε σ γ} {state : σ} (fits : result = some value)
    (rest : Meets (follow value) action state) :
    Meets ((result : Checked ε σ α) >>= follow) action state := by
  rw [lift_bind fits]
  exact rest

theorem Meets.change {operation : σ → Option σ} {change : σ → σ} {state : σ}
    (fits : operation state = some (change state)) :
    (Checked.change operation : Checked ε σ Unit).Meets (modify change) state := by
  rw [Meets, Checked.change, fits]
  rfl

/-- An operation that may be refused, and leaves the state alone. -/
def attempt (operation : σ → Option (Except ε α)) : Checked ε σ α := fun state =>
  (operation state).map fun
    | .ok value => .ok value state
    | .error error => .error error state

end Checked

namespace Region

/-- The address from which the offsets of a region count; the two halves of work RAM are one
memory. -/
def base : Region → UInt16
  | .workRamN => first .workRam0
  | region => region.first

/-- The offset of an address in the memory behind it. -/
def offset? (address : UInt16) : Option Nat :=
  Checked.minus address.toNat (of address).base.toNat

theorem base_le (address : UInt16) : (of address).base ≤ address := by
  have below : (of address).base ≤ (of address).first := by cases of address <;> decide
  exact UInt16.le_trans below (bounds_of address).1

theorem offset?_eq (address : UInt16) :
    offset? address = some (address - (of address).base).toNat := by
  rw [offset?, Checked.minus, if_pos (UInt16.le_iff_toNat_le.mp (base_le address)),
    UInt16.toNat_sub_of_le _ _ (base_le address)]

end Region

namespace Board

open Checked

/-! ## Reads -/

/-- The byte of an I/O register. -/
def portByte? (board : Board) (address : UInt16) : Option (Except MemoryError UInt8) :=
  match Port.of address with
  | .sound => .ok <$> board.sound.read? address
  | _ => some (board.portByte address)

/-- Look for the byte at an address. -/
def lookUp? (board : Board) (address : UInt16) : Option (Except MemoryError UInt8) := do
  match Region.of address with
  | .romBank0 | .romBankN => board.cartridge.lookUpRom? address
  | .vram => .ok <$> board.ppu.vram.read? (← Region.offset? address)
  | .externalRam => board.cartridge.lookUpRam? address
  | .workRam0 | .workRamN | .echo => .ok <$> board.workRam.at? (← Region.offset? address)
  | .oam => .ok <$> board.ppu.oam.read? (← Region.offset? address)
  | .io => board.portByte? address
  | .highRam => .ok <$> board.highRam.at? (← Region.offset? address)
  | .unusable | .interruptEnable => some (board.lookUp address)

/-- Report the error of an access that fails. -/
def reporting? {α : Type} (access : Checked MemoryError Board α) : Checked MemoryError Board α :=
  fun board =>
    match access board with
    | some (.error error after) => some (.error error (after.record (.memoryFault error)))
    | other => other

/-- Read a byte. -/
def read? (address : UInt16) : Checked MemoryError Board UInt8 :=
  reporting? (attempt fun board => board.lookUp? address)

theorem portByte?_eq (board : Board) {address : UInt16} (io : Region.of address = .io) :
    board.portByte? address = some (board.portByte address) := by
  have above : 0xFF00 ≤ address := (Region.of_eq_iff.mp io).1
  rw [portByte?, portByte]
  cases port : Port.of address with
  | sound =>
      obtain ⟨first, last⟩ := Port.owns_of above port
      have below : address < 0xFF40 := UInt16.lt_of_le_of_lt last (by decide)
      simp only [board.sound.read?_eq first below]
      rfl
  | _ => rfl

/-- Work RAM and its second view show the memory from its start. -/
theorem toNat_workRam {address : UInt16} (shows : Region.of address = .workRam0 ∨
      Region.of address = .workRamN ∨ Region.of address = .echo) :
    (address - (Region.of address).base).toNat = address.toNat % 0x2000 := by
  have bound := Region.bounds_of address
  rw [UInt16.toNat_sub_of_le _ _ (Region.base_le address)]
  simp only [UInt16.le_iff_toNat_le] at bound
  rcases shows with region | region | region
  all_goals
    simp [region, Region.base, Region.first, Region.last] at bound ⊢
    omega

theorem toNat_highRam {address : UInt16} (shows : Region.of address = .highRam) :
    (address - (Region.of address).base).toNat < 0x7F := by
  have bound := Region.bounds_of address
  rw [UInt16.toNat_sub_of_le _ _ (Region.base_le address)]
  simp only [UInt16.le_iff_toNat_le] at bound
  simp [shows, Region.base, Region.first, Region.last] at bound ⊢
  omega

theorem lookUp?_eq (board : Board) (address : UInt16) :
    board.lookUp? address = some (board.lookUp address) := by
  have found := Region.offset?_eq address
  have work := @toNat_workRam address
  have high := @toNat_highRam address
  rw [lookUp?, lookUp, memoryByte]
  cases region : Region.of address with
  | romBank0 | romBankN => exact board.cartridge.lookUpRom?_eq address
  | externalRam => exact board.cartridge.lookUpRam?_eq address
  | vram | oam =>
      rw [region] at found
      simp only [found, Option.bind_eq_bind, Option.bind_some, Bank.read?_eq]
      rfl
  | workRam0 | workRamN | echo =>
      rw [region] at found work
      rw [found, work (by simp)]
      simp only [Option.bind_eq_bind, Option.bind_some, Bank.at?_mod]
      rfl
  | highRam =>
      rw [region] at found high
      simp only [found, Option.bind_eq_bind, Option.bind_some, Bank.at?_of_lt _ (high rfl)]
      rfl
  | io => exact board.portByte?_eq region
  | unusable | interruptEnable => rfl

theorem meets_reporting {α : Type} {checked : Checked MemoryError Board α}
    {action : Access Board α} {board : Board} (meets : checked.Meets action board) :
    (reporting? checked).Meets (reporting action) board := by
  rw [Meets] at meets ⊢
  rw [reporting?, meets, reporting]
  cases action board <;> rfl

/-- No read overruns. -/
theorem meets_read (address : UInt16) (board : Board) :
    (read? address).Meets (Bus.read address) board := by
  rw [read_eq_routed]
  refine meets_reporting ?_
  rw [Meets, attempt, lookUp?_eq, routedRead]
  cases board.lookUp address <;> rfl

/-! ## Writes -/

/-- Write into the ROM windows. -/
def writeRom? (address : UInt16) (value : UInt8) : Checked MemoryError Board Unit :=
  fun board => do
    if board.cartridge.mapper.isPresent then
      let mapper ← board.cartridge.mapper.write? address value
      let board := { board with cartridge := { board.cartridge with mapper } }
      if 0x2000 ≤ address && address < 0x4000 then
        let (bank, _) ← board.cartridge.resolveRom? 0x4000
        some (.ok () (board.record (.romBankSelected bank)))
      else
        some (.ok () board)
    else
      some (routedWriteRom address value board)

/-- Write to an address outside the I/O region. -/
def writeMemory? (address : UInt16) (value : UInt8) : Checked MemoryError Board Unit :=
  fun board => do
    match Region.of address with
    | .romBank0 | .romBankN => writeRom? address value board
    | .vram =>
      let vram ← board.ppu.vram.write? (← Region.offset? address) value
      some (.ok () { board with ppu := { board.ppu with vram } })
    | .externalRam =>
      match ← board.cartridge.replaceRam? address value with
      | .ok cartridge => some (.ok () { board with cartridge })
      | .error error => some (.error error board)
    | .workRam0 | .workRamN | .echo =>
      let workRam ← board.workRam.put? (← Region.offset? address) value
      some (.ok () { board with workRam })
    | .oam =>
      let oam ← board.ppu.oam.write? (← Region.offset? address) value
      some (.ok () { board with ppu := { board.ppu with oam } })
    | .highRam =>
      let highRam ← board.highRam.put? (← Region.offset? address) value
      some (.ok () { board with highRam })
    | .unusable | .interruptEnable => some (routedWrite address value board)
    | .io => none

theorem meets_writeRom (address : UInt16) (value : UInt8) (board : Board) :
    (writeRom? address value).Meets (routedWriteRom address value) board := by
  rw [Meets, writeRom?, Mapper.write?_eq, routedWriteRom, storeRom]
  cases board.cartridge.mapper.isPresent with
  | false => rfl
  | true =>
      simp only [if_true, Option.bind_eq_bind, Option.bind_some, Cartridge.resolveRom?_eq]
      split <;> rfl

theorem meets_writeMemory {address : UInt16} (memory : Region.of address ≠ .io) (value : UInt8)
    (board : Board) : (writeMemory? address value).Meets (routedWrite address value) board := by
  have found := Region.offset?_eq address
  have work := @toNat_workRam address
  have high := @toNat_highRam address
  rw [Meets, writeMemory?, routedWrite, store]
  cases region : Region.of address with
  | romBank0 | romBankN => exact meets_writeRom address value board
  | externalRam =>
      simp only [Cartridge.replaceRam?_eq, Option.bind_eq_bind, Option.bind_some]
      cases board.cartridge.replaceRam address value <;> rfl
  | vram | oam =>
      rw [region] at found
      simp only [found, Option.bind_eq_bind, Option.bind_some, Bank.write?_eq]
      rfl
  | workRam0 | workRamN | echo =>
      rw [region] at found work
      rw [found, work (by simp)]
      simp only [Option.bind_eq_bind, Option.bind_some, Bank.put?_mod]
  | highRam =>
      rw [region] at found high
      simp only [found, Option.bind_eq_bind, Option.bind_some, Bank.put?_of_lt _ (high rfl)]
      rfl
  | io => exact absurd region memory
  | unusable | interruptEnable => rfl

/-! ## Transfers -/

/-- The first address a transfer into object memory copies from. -/
def dmaSource? (value : UInt8) : Option UInt16 := do
  let source := value.toUInt16 <<< UInt16.ofNat (← places 16 8)
  if source < 0xE000 then some source
  else some (UInt16.ofNat (← minus source.toNat 0x2000))

/-- Copy a number of bytes into object memory, which never writes an I/O register. -/
def copyBytes? (source : UInt16) : Nat → Checked MemoryError Board Unit
  | 0 => pure ()
  | count + 1 => do
    copyBytes? source count
    let origin ← fit 16 (source.toNat + count)
    let byte ← read? (UInt16.ofNat origin)
    let target ← fit 16 (0xFE00 + count)
    reporting? (writeMemory? (UInt16.ofNat target) byte)

/-- A transfer into object memory, byte by byte. -/
def transfer? (value : UInt8) : Checked MemoryError Board Unit := do
  let source ← dmaSource? value
  change fun board => some ({ board with dmaRegister := value }.record (.oamDma source))
  copyBytes? source 0xA0
  change fun board => do
    let stall ← fit 32 (board.stall + dmaStall)
    some { board with stall }

theorem dmaSource?_eq (value : UInt8) : dmaSource? value = some (dmaSource value) :=
  forall_byte value (by decide +kernel)

/-- No byte of a transfer that begins below the upper end of the address space overruns. -/
theorem meets_copyBytes {source : UInt16} (below : source.toNat ≤ 0xDF00) {count : Nat}
    (inside : count ≤ 0xA0) (board : Board) :
    (copyBytes? source count).Meets (copyBytes source count) board := by
  induction count with
  | zero => rfl
  | succ count ih =>
      have origin : UInt16.ofNat (source.toNat + count) = source + UInt16.ofNat count := by
        rw [UInt16.ofNat_add, UInt16.ofNat_toNat]
      have target : UInt16.ofNat (0xFE00 + count) = 0xFE00 + UInt16.ofNat count :=
        UInt16.ofNat_add ..
      have memory : Region.of (0xFE00 + UInt16.ofNat count) ≠ .io :=
        region_objectAddress inside ▸ nofun
      refine (ih (Nat.le_of_succ_le inside)).bind fun _ between _ => ?_
      refine .lift (if_pos (by omega)) ?_
      rw [origin]
      refine (meets_read _ between).bind fun byte after _ => .lift (if_pos (by omega)) ?_
      rw [target, write_eq_routed]
      exact meets_reporting (meets_writeMemory memory byte after)

theorem stall_afterCopies (board : Board) (source : UInt16) (count : Nat) :
    (board.afterCopies source count).stall = board.stall := by
  rw [afterCopies]

/-- A transfer overruns only if its stall cannot be added to the one that is pending. -/
theorem meets_transfer (value : UInt8) {board : Board} (room : board.stall + dmaStall < 2 ^ 32) :
    (transfer? value).Meets (transfer value) board := by
  refine .lift (dmaSource?_eq value) ?_
  refine (Meets.change rfl).bind fun _ opened begun => ?_
  refine (meets_copyBytes (dmaSource_le value) (Nat.le_refl 0xA0) opened).bind fun _ after ran => ?_
  have same : after.stall = board.stall := by
    rw [modify_apply] at begun
    rw [copyBytes_eq (dmaSource_le value) (Nat.le_refl 0xA0)] at ran
    injection begun with _ begun
    injection ran with _ copied
    rw [← copied, stall_afterCopies, ← begun]
    rfl
  refine Meets.change ?_
  rw [same]
  exact bind_fit room _

/-! ## I/O registers -/

/-- Write an I/O register other than the trigger of transfers. -/
def storePort? (address : UInt16) (value : UInt8) (board : Board) : Option Board := do
  match Port.of address with
  | .serial =>
    let serial ← board.serial.write? address value
    some { board with serial }
  | .timer =>
    let timer ← board.timer.write? address value
    some { board with timer }
  | .sound =>
    let sound ← board.sound.write? address value
    some { board with sound }
  | _ => some (board.storePort address value)

/-- Write an I/O register and collect what devices request. -/
def writePort? (address : UInt16) (value : UInt8) : Checked MemoryError Board Unit := do
  match Port.of address with
  | .oamDma => transfer? value
  | _ => change (storePort? address value)
  change fun board => some board.collect

/-- Write to the owner of an address. -/
def routedWrite? (address : UInt16) (value : UInt8) : Checked MemoryError Board Unit :=
  match Region.of address with
  | .io => writePort? address value
  | _ => writeMemory? address value

/-- Write a byte. -/
def write? (address : UInt16) (value : UInt8) : Checked MemoryError Board Unit :=
  reporting? (routedWrite? address value)

theorem storePort?_eq (address : UInt16) (value : UInt8) (board : Board) :
    storePort? address value board = some (board.storePort address value) := by
  rw [storePort?, storePort]
  cases port : Port.of address with
  | serial => rw [Serial.write?_eq]; rfl
  | timer => rw [Timer.write?_eq]; rfl
  | sound => rw [Sound.write?_eq]; rfl
  | _ => rfl

theorem meets_writePort (address : UInt16) (value : UInt8) {board : Board}
    (room : board.stall + dmaStall < 2 ^ 32) :
    (writePort? address value).Meets (routedWritePort address value) board := by
  rw [writePort?, routedWritePort]
  cases Port.of address with
  | oamDma => exact (meets_transfer value room).bind fun _ _ _ => .change rfl
  | _ => exact (Meets.change (storePort?_eq address value board)).bind fun _ _ _ => .change rfl

/-- A write overruns only if it begins a transfer whose stall cannot be added to the one that is
pending. -/
theorem meets_write (address : UInt16) (value : UInt8) {board : Board}
    (room : board.stall + dmaStall < 2 ^ 32) :
    (write? address value).Meets (Bus.write address value) board := by
  rw [write_eq_routed]
  refine meets_reporting ?_
  by_cases io : Region.of address = .io
  · have routed : routedWrite address value board = routedWritePort address value board := by
      rw [routedWrite, io]
    rw [Meets, routed, routedWrite?, io]
    exact meets_writePort address value room
  · have routed : routedWrite? address value = writeMemory? address value := by
      rw [routedWrite?]
      split
      · contradiction
      · rfl
    rw [routed]
    exact meets_writeMemory io value board

/-! ## Operations from outside -/

/-- Let time pass for the timer and the picture unit. -/
def tick? {σ : Type} (render : Renderer σ) (cycles : Nat) (board : Board) (screen : σ) :
    Option (Board × σ) := do
  let timer ← board.timer.run? cycles
  let (ppu, screen) ← board.ppu.tick? render cycles screen
  some ({ board with timer, ppu }.collect, screen)

/-- Press or release a button. -/
def setButton? (button : Button) (pressed : Bool) (board : Board) : Option Board := do
  let joypad ← board.joypad.setButton? button pressed
  some { board with joypad }.collect

theorem frames_tick {σ : Type} (render : Renderer σ) (cycles : Nat) (board : Board) (screen : σ) :
    (board.tick render cycles screen).1.ppu.frames =
      (board.ppu.tick render cycles screen).1.frames :=
  congrArg Ppu.Beam.frames (board.tick_apply render cycles screen).2.beam

/-- Time passes without overrun, as long as the frames can be counted. -/
theorem tick?_eq {board : Board} (tracked : board.ppu.Tracked) {σ : Type} (render : Renderer σ)
    {cycles : Nat} (few : cycles < 2 ^ 31) (screen : σ)
    (countable : (board.tick render cycles screen).1.ppu.frames < 2 ^ 64) :
    board.tick? render cycles screen = some (board.tick render cycles screen) := by
  rw [frames_tick] at countable
  rw [tick?, Timer.run?_eq, tracked.tick?_eq render few screen countable, tick, Timer.tick_eq_run]
  rfl

theorem setButton?_eq (button : Button) (pressed : Bool) (board : Board) :
    board.setButton? button pressed = some (board.setButton button pressed) := by
  rw [setButton?, Joypad.setButton?_eq]
  rfl

end Board
end GameBoy
