import GameBoy.Proofs.Invariant
import GameBoy.Proofs.Polling

/-!
# Interrupt requests

What a device requests is collected at once, so between two operations no device has a request left.
A dispatch computes the request register from the value it read before it pushed the return address,
and so takes back whatever the push has made a device request.  The main statement says which
requests a dispatch keeps, and when that loses one.
-/

namespace GameBoy

open Effect

namespace Interrupt.Lines

/-- The lines other than a given one. -/
def without (lines : Lines) : Interrupt → Lines
  | .vblank => { lines with vblank := false }
  | .stat => { lines with stat := false }
  | .timer => { lines with timer := false }
  | .serial => { lines with serial := false }
  | .joypad => { lines with joypad := false }

theorem contains_without (lines : Lines) (line other : Interrupt) :
    (lines.without line).contains other = (lines.contains other && other != line) := by
  cases line <;> cases other <;> simp [without, contains]

@[simp]
theorem union_empty (lines : Lines) : lines.union {} = lines := by
  simp [union]

/-- Clearing the bit of a line in the request byte removes the line. -/
theorem ofByte_clear (lines : Lines) (line : Interrupt) :
    ofByte ((0xE0 ||| lines.toByte) &&& ~~~line.mask) = lines.without line := by
  rcases lines with ⟨_ | _, _ | _, _ | _, _ | _, _ | _⟩ <;> cases line <;> decide

end Interrupt.Lines

namespace Board

/-! ## Collected requests -/

theorem raised_reportSent (board : Board) : board.reportSent.raised = board.raised := by
  rw [reportSent]
  split <;> rfl

theorem requests_reportSent (board : Board) : board.reportSent.requests = board.requests := by
  rw [reportSent]
  split <;> rfl

@[simp]
theorem raised_collect (board : Board) : board.collect.raised = {} := by
  simp only [collect]
  split
  · exact raised_reportSent _
  · rfl

@[simp]
theorem requests_collect (board : Board) :
    board.collect.requests = board.requests.union board.raised := by
  simp only [collect]
  split
  · exact requests_reportSent _
  · rfl

theorem raised_storeRom (board : Board) (address : UInt16) (value : UInt8) :
    (board.storeRom address value).raised = board.raised := by
  rw [storeRom]
  split
  · simp only
    split <;> rfl
  · rfl

/-- Nothing stays uncollected after a write. -/
theorem raised_store {board : Board} (settled : board.raised = {}) (address : UInt16)
    (value : UInt8) : (board.store address value).raised = {} := by
  rw [store]
  cases Region.of address with
  | romBank0 | romBankN => exact (raised_storeRom board address value).trans settled
  | io => exact raised_collect _
  | _ => exact settled

theorem read_ok_or_record (address : UInt16) (board : Board) :
    final (Bus.read address) board = board ∨
      ∃ event, final (Bus.read address) board = board.record event := by
  cases found : board.peek address with
  | ok value => exact .inl (final_of_ok (read_of_peek found))
  | error error => exact .inr ⟨_, final_of_error (read_of_peek_error found)⟩

theorem write_apply (board : Board) (address : UInt16) (value : UInt8) :
    Bus.write address value board =
      match board.refusal address value with
      | some error => .error error (board.record (.memoryFault error))
      | none => .ok () (board.store address value) := rfl

theorem store_of_write {board after : Board} {address : UInt16} {value : UInt8}
    (ran : Bus.write address value board = .ok () after) : after = board.store address value := by
  rw [write_apply] at ran
  cases refused : board.refusal address value with
  | some error => simp [refused] at ran
  | none =>
      rw [refused] at ran
      cases ran
      rfl

/-- No device of the board has a request left to be collected. -/
theorem invariant_settled : Bus.Invariant fun board : Board => board.raised = {} where
  read address board settled := by
    rcases read_ok_or_record address board with same | ⟨event, same⟩
    · rw [same]
      exact settled
    · rw [same]
      exact settled
  write address value board settled := by
    rw [final, write_apply]
    cases board.refusal address value with
    | some error => exact settled
    | none => exact raised_store settled address value
  takeStall _ settled := settled
  report _ _ settled := settled

theorem raised_tick {σ : Type} (render : Renderer σ) (cycles : Nat) (board : Board) (screen : σ) :
    (board.tick render cycles screen).1.raised = {} :=
  raised_collect _

theorem raised_boot (cartridge : Cartridge) (config : Config) (sink : Sink) :
    (boot cartridge config sink).raised = {} := by
  rw [boot]
  cases config.bootState <;> rfl

end Board

/-- No device of a reachable machine has a request left to be collected. -/
theorem Machine.Reachable.settled {machine : Machine} (reach : machine.Reachable) :
    machine.bus.raised = {} := by
  induction reach with
  | boot cartridge config sink => exact Board.raised_boot cartridge config sink
  | @step machine σ render screen reach ih =>
      have kept := Board.invariant_settled.step machine ih
      cases ran : Cpu.step machine with
      | ok quantum after =>
          rw [final_of_ok (Session.step_of_ok ran)]
          exact Board.raised_tick _ _ _ _
      | error fault after =>
          rw [final_of_error (Session.step_of_error ran)]
          rw [final_of_error ran] at kept
          exact kept
  | setButton button pressed reach ih => exact Board.raised_collect _
  | request lines reach ih => exact ih
  | @write machine address value reach ih =>
      exact (Board.invariant_settled.steady.write address value) machine ih

/-! ## Addresses -/

namespace Region

theorem bounds_of (address : UInt16) :
    (Region.of address).first ≤ address ∧ address ≤ (Region.of address).last := by
  rw [Region.of]
  repeat'
    refine iteInduction (motive := fun region => first region ≤ address ∧ address ≤ last region)
      (fun below => ?_) fun above => ?_
  all_goals
    rw [first, last]
    grind

/-- A region is an interval of addresses. -/
theorem of_eq_iff {address : UInt16} {region : Region} :
    Region.of address = region ↔ region.first ≤ address ∧ address ≤ region.last := by
  constructor
  · rintro rfl
    exact bounds_of address
  · rintro ⟨lower, upper⟩
    have found := bounds_of address
    generalize Region.of address = other at found
    -- no two regions overlap
    cases region <;> cases other <;> first | rfl | grind [first, last]

end Region

theorem Port.lt_of_serial {address : UInt16} (port : Port.of address = .serial) :
    address ≠ 0xFF00 ∧ address < 0xFF03 := by
  by_cases first : address = 0xFF00
  · rw [Port.of, if_pos first] at port
    cases port
  refine ⟨first, Decidable.byContradiction fun past => ?_⟩
  have never : Port.of address ≠ .serial := by
    rw [Port.of, if_neg first, if_neg past]
    repeat refine iteInduction (motive := (· ≠ Port.serial)) nofun fun _ => ?_
    nofun
  exact never port

/-! ## Requests raised by a write -/

namespace Board

/-- The lines that devices raise when the write of a byte reaches them. -/
def raisedBy (board : Board) (address : UInt16) (value : UInt8) : Interrupt.Lines :=
  match Region.of address with
  | .io => (board.storePort address value).raised
  | _ => {}

theorem raised_eq_empty_iff (board : Board) :
    board.raised = {} ↔ board.timer.requested = false ∧ board.ppu.vblankRequested = false ∧
      board.ppu.statRequested = false ∧ board.serial.requested = false ∧
      board.joypad.requested = false := by
  simp [raised, Timer.raised, Ppu.raised, Serial.raised, Joypad.raised, Interrupt.Lines.union]
  grind

theorem raised_timer (board : Board) {timer : Timer}
    (same : timer.requested = board.timer.requested) :
    { board with timer }.raised = board.raised := by
  simp only [raised, Timer.raised, same]

theorem raised_serial {board : Board} (settled : board.raised = {}) (serial : Serial) :
    { board with serial }.raised = { serial := serial.requested } := by
  obtain ⟨timer, vblank, stat, _, joypad⟩ := (raised_eq_empty_iff board).mp settled
  simp [raised, Timer.raised, Ppu.raised, Serial.raised, Joypad.raised, Interrupt.Lines.union,
    timer, vblank, stat, joypad]

theorem raised_ppu {board : Board} (settled : board.raised = {}) (ppu : Ppu) :
    { board with ppu }.raised = { vblank := ppu.vblankRequested, stat := ppu.statRequested } := by
  obtain ⟨timer, _, _, serial, joypad⟩ := (raised_eq_empty_iff board).mp settled
  simp [raised, Timer.raised, Ppu.raised, Serial.raised, Joypad.raised, Interrupt.Lines.union,
    timer, serial, joypad]

end Board

theorem Timer.requested_settle (before : Bool) (timer : Timer) :
    (settle before timer).requested = timer.requested := by
  rw [settle]
  split <;> rfl

theorem Timer.requested_write (timer : Timer) (address : UInt16) (value : UInt8) :
    (timer.write address value).requested = timer.requested := by
  rw [write]
  split
  · exact requested_settle _ _
  · split
    · rfl
    · split
      · rfl
      · exact requested_settle _ _

theorem Serial.requested_write {serial : Serial} (idle : serial.requested = false)
    {address : UInt16} {value : UInt8} (raises : (serial.write address value).requested = true) :
    address ≠ Serial.dataAddress ∧ value &&& 0x81 = 0x81 := by
  rw [Serial.write] at raises
  split at raises
  · exact absurd (idle.symm.trans raises) Bool.false_ne_true
  · next other =>
      split at raises
      · next starts => exact ⟨other, starts⟩
      · exact absurd (idle.symm.trans raises) Bool.false_ne_true

namespace Ppu

theorem vblankRequested_setLcdc (ppu : Ppu) (value : UInt8) :
    (ppu.setLcdc value).vblankRequested = ppu.vblankRequested := by
  rw [setLcdc]
  simp only
  split <;> rfl

theorem vblankRequested_write (ppu : Ppu) (address : UInt16) (value : UInt8) :
    (ppu.write address value).vblankRequested = ppu.vblankRequested := by
  by_cases lcdc : address = lcdcAddress
  · rw [write, if_pos lcdc]
    exact vblankRequested_setLcdc ppu value
  · rw [write, if_neg lcdc]
    grind [setLyc, compareLine]

theorem statRequested_write {ppu : Ppu} {address : UInt16} (lcdc : address ≠ lcdcAddress)
    (lyc : address ≠ 0xFF45) (value : UInt8) :
    (ppu.write address value).statRequested = ppu.statRequested := by
  rw [write, if_neg lcdc]
  grind

end Ppu

namespace Board

theorem contains_empty (line : Interrupt) : ({} : Interrupt.Lines).contains line = false := by
  cases line <;> rfl

theorem contains_raisedBy_serial {board : Board} (settled : board.raised = {}) {address : UInt16}
    {value : UInt8} {line : Interrupt}
    (raises :
      { board with serial := board.serial.write address value }.raised.contains line = true) :
    line = .serial ∧ address ≠ Serial.dataAddress ∧ value &&& 0x81 = 0x81 := by
  have idle : board.serial.requested = false := ((raised_eq_empty_iff board).mp settled).2.2.2.1
  rw [raised_serial settled] at raises
  cases line with
  | serial => exact ⟨rfl, Serial.requested_write idle raises⟩
  | _ => cases raises

theorem contains_raisedBy_picture {board : Board} (settled : board.raised = {}) {address : UInt16}
    {value : UInt8} {line : Interrupt}
    (raises : { board with ppu := board.ppu.write address value }.raised.contains line = true) :
    line = .stat ∧ (address = Ppu.lcdcAddress ∨ address = 0xFF45) := by
  obtain ⟨_, vblank, stat, _⟩ := (raised_eq_empty_iff board).mp settled
  rw [raised_ppu settled, Ppu.vblankRequested_write, vblank] at raises
  cases line with
  | stat =>
      refine ⟨rfl, Decidable.byContradiction fun other => ?_⟩
      obtain ⟨lcdc, lyc⟩ := not_or.mp other
      have unchanged := (Ppu.statRequested_write lcdc lyc value).trans stat
      exact absurd (unchanged.symm.trans raises) Bool.false_ne_true
  | _ => cases raises

theorem raised_oamDma (board : Board) (value : UInt8) :
    (board.oamDma value).raised = board.raised := by
  simp only [raised, oamDma, Ppu.raised]

theorem raised_storePicture (board : Board) (address : UInt16) (value : UInt8) :
    (board.storePicture address value).raised =
      { board with ppu := board.ppu.write address value }.raised := by
  simp only [storePicture]
  split <;> rfl

theorem raised_storePort {board : Board} (settled : board.raised = {}) {address : UInt16}
    (serial : Port.of address ≠ .serial) (picture : Port.of address ≠ .picture) (value : UInt8) :
    (board.storePort address value).raised = {} := by
  rw [storePort]
  cases port : Port.of address with
  | serial => exact absurd port serial
  | picture => exact absurd port picture
  | timer => exact (raised_timer board (Timer.requested_write _ _ _)).trans settled
  | oamDma => exact (raised_oamDma board value).trans settled
  | joypad | interruptRequest | sound | bootRom | vramDma | unmapped => exact settled

/-- Only the serial control register and two registers of the picture unit make a device request an
interrupt as they are written. -/
theorem contains_raisedBy {board : Board} (settled : board.raised = {}) {address : UInt16}
    {value : UInt8} {line : Interrupt}
    (raises : (board.raisedBy address value).contains line = true) :
    line = .serial ∧ address = 0xFF02 ∧ value &&& 0x81 = 0x81 ∨
      line = .stat ∧ (address = Ppu.lcdcAddress ∨ address = 0xFF45) := by
  by_cases region : Region.of address = .io
  · have raised : board.raisedBy address value = (board.storePort address value).raised := by
      rw [raisedBy, region]
    rw [raised] at raises
    by_cases serial : Port.of address = .serial
    · have stored : board.storePort address value =
          { board with serial := board.serial.write address value } := by
        rw [storePort, serial]
      rw [stored] at raises
      obtain ⟨rfl, control, starts⟩ := contains_raisedBy_serial settled raises
      obtain ⟨other, below⟩ := Port.lt_of_serial serial
      have high : 0xFF00 ≤ address := (Region.of_eq_iff.mp region).1
      rw [Serial.dataAddress] at control
      exact .inl ⟨rfl, by grind, starts⟩
    by_cases picture : Port.of address = .picture
    · have stored : board.storePort address value = board.storePicture address value := by
        rw [storePort, picture]
      rw [stored, raised_storePicture] at raises
      exact .inr (contains_raisedBy_picture settled raises)
    · rw [raised_storePort settled serial picture, contains_empty] at raises
      cases raises
  · have raised : board.raisedBy address value = {} := by
      rw [raisedBy]
      cases other : Region.of address <;> first | rfl | exact absurd other region
    rw [raised, contains_empty] at raises
    cases raises

/-- A write to the request register replaces the requests. -/
theorem requests_store_requestAddress {board : Board} (settled : board.raised = {})
    (value : UInt8) :
    (board.store Interrupt.requestAddress value).requests = Interrupt.Lines.ofByte value := by
  have stored : board.store Interrupt.requestAddress value =
      { board with requests := Interrupt.Lines.ofByte value }.collect := rfl
  have same : { board with requests := Interrupt.Lines.ofByte value }.raised = {} := settled
  rw [stored, requests_collect, same, Interrupt.Lines.union_empty]

/-- The lines that devices raise while a word is pushed below `sp`. -/
def raisedByPush (board : Board) (sp word : UInt16) : Interrupt.Lines :=
  (board.raisedBy (sp - 1) (Word.high word)).union
    ((board.store (sp - 1) (Word.high word)).raisedBy (sp - 2) (Word.low word))

end Board

/-- A dispatch removes the line it serves from the requests found before it and changes nothing
else.  So it loses a request exactly if the push of the return address raises another line that was
not requested before, which takes a stack pointer at the serial port or at the picture unit. -/
theorem requests_after_interrupt {machine : Machine} (reach : machine.Reachable) (cpu : Cpu)
    {line : Interrupt} {after : Machine}
    (ran : Cpu.step ⟨cpu, machine.bus⟩ = .ok (.interrupt line) after) :
    after.bus.requests = machine.bus.requests.without line ∧
    ((∀ other, other ≠ line →
        machine.bus.requests.contains other = true ∨
          (machine.bus.raisedByPush cpu.regs.sp cpu.regs.pc).contains other = true →
        after.bus.requests.contains other = true) ↔
      ∀ other, other ≠ line →
        (machine.bus.raisedByPush cpu.regs.sp cpu.regs.pc).contains other = true →
        machine.bus.requests.contains other = true) ∧
    ∀ other, (machine.bus.raisedByPush cpu.regs.sp cpu.regs.pc).contains other = true →
      other = .serial ∧ (cpu.regs.sp = 0xFF03 ∨ cpu.regs.sp = 0xFF04) ∨
      other = .stat ∧ (cpu.regs.sp = 0xFF41 ∨ cpu.regs.sp = 0xFF42 ∨ cpu.regs.sp = 0xFF46 ∨
        cpu.regs.sp = 0xFF47) := by
  have settled := reach.settled
  have firstSettled := Board.raised_store settled (cpu.regs.sp - 1) (Word.high cpu.regs.pc)
  have kept : after.bus.requests = machine.bus.requests.without line := by
    obtain ⟨first, second, third, high, low, clears, rfl⟩ :=
      Cpu.dispatch_ok (Machine.dispatch_of_step ran)
    cases Board.store_of_write high
    cases Board.store_of_write low
    cases Board.store_of_write clears
    -- the third write computes the register from the requests before the first
    have secondSettled := Board.raised_store firstSettled (cpu.regs.sp - 2) (Word.low cpu.regs.pc)
    exact (Board.requests_store_requestAddress secondSettled _).trans
      (Interrupt.Lines.ofByte_clear machine.bus.requests line)
  have remains (other : Interrupt) (different : other ≠ line) :
      after.bus.requests.contains other = machine.bus.requests.contains other := by
    rw [kept, Interrupt.Lines.contains_without]
    cases machine.bus.requests.contains other <;> simp [different]
  refine ⟨kept, ⟨fun all other different raised => ?_, fun known other different found => ?_⟩, ?_⟩
  · rw [← remains other different]
    exact all other different (.inr raised)
  · rw [remains other different]
    exact found.elim id (known other different)
  · intro other raised
    rw [Board.raisedByPush, Interrupt.Lines.contains_union, Bool.or_eq_true] at raised
    rcases raised with high | low
    · rcases Board.contains_raisedBy settled high with ⟨same, place, _⟩ | ⟨same, place⟩
      · exact .inl ⟨same, .inl (by grind)⟩
      · refine .inr ⟨same, ?_⟩
        rw [Ppu.lcdcAddress] at place
        grind
    · rcases Board.contains_raisedBy firstSettled low with ⟨same, place, _⟩ | ⟨same, place⟩
      · exact .inl ⟨same, .inr (by grind)⟩
      · refine .inr ⟨same, ?_⟩
        rw [Ppu.lcdcAddress] at place
        grind

/-- A machine about to serve an interrupt, with its stack at the serial port: LD SP,FF03; LD A,1;
LDH (IF),A; LDH (IE),A; EI; JP C100. -/
def serialStack : Machine :=
  (Machine.ofProgram
    [0x31, 0x03, 0xFF, 0x3E, 0x01, 0xE0, 0x0F, 0xE0, 0xFF, 0xFB, 0xC3, 0x00, 0xC1]).afterSteps 6

theorem reachable_serialStack : serialStack.Reachable :=
  .afterSteps (.boot _ _ _) 6

theorem requests_after_interrupt_serialStack :
    ∃ after, Cpu.step serialStack = .ok (.interrupt .vblank) after ∧
      after.bus.requests = serialStack.bus.requests.without .vblank :=
  ⟨_, ok_of_value? (by decide +kernel),
    (requests_after_interrupt reachable_serialStack serialStack.cpu
      (ok_of_value? (by decide +kernel))).1⟩

/-- Its push completes a serial transfer, whose request is lost. -/
theorem dispatch_loses_request :
    serialStack.Reachable ∧ ∃ after, Cpu.step serialStack = .ok (.interrupt .vblank) after ∧
      (serialStack.bus.raisedByPush serialStack.cpu.regs.sp serialStack.cpu.regs.pc).contains
        .serial = true ∧
      after.bus.requests.contains .serial = false :=
  ⟨reachable_serialStack, _, ok_of_value? (by decide +kernel), by decide +kernel, by decide +kernel⟩

end GameBoy
