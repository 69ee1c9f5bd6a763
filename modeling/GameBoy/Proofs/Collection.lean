import GameBoy.Proofs.Devices

/-!
# Collecting requests

Between two operations on the board no device holds a request back.  Each operation adds to the
request register the lines that devices raise in its course, cycle by cycle where time passes, and
only a write to the register removes any.
-/

namespace GameBoy

open Effect

namespace Interrupt.Lines

@[simp]
theorem empty_union (lines : Lines) : ({} : Lines).union lines = lines := by
  simp [union]

theorem union_assoc (first second third : Lines) :
    (first.union second).union third = first.union (second.union third) := by
  simp only [union, Bool.or_assoc]

theorem bit_or (first second : Bool) (mask : UInt8) :
    (if (first || second) then mask else 0) =
      (if first then mask else 0) ||| (if second then mask else 0) := by
  cases first <;> cases second <;> simp

theorem toByte_union (left right : Lines) :
    (left.union right).toByte = left.toByte ||| right.toByte := by
  rw [toByte, union, bit_or, bit_or, bit_or, bit_or, bit_or, toByte, toByte]
  ac_rfl

/-- Only five bits of the register exist. -/
theorem toByte_ofByte (byte : UInt8) : (ofByte byte).toByte = byte &&& 0x1F :=
  forall_byte byte (by decide +kernel)

theorem toByte_and_highBits (lines : Lines) : lines.toByte &&& 0xE0 = 0 := by
  rcases lines with ⟨_ | _, _ | _, _ | _, _ | _, _ | _⟩ <;> decide

end Interrupt.Lines

/-! ## What devices raise as time passes -/

namespace Timer

/-- The timer raises its line in the next cycle. -/
def raisesNext (timer : Timer) : Bool :=
  timer.acknowledge.cycle.requested

/-- The timer raises its line in one of a number of cycles. -/
def raisesWithin : Nat → Timer → Bool
  | 0, _ => false
  | cycles + 1, timer => timer.raisesNext || raisesWithin cycles timer.cycle

/-- A cycle forgets no request. -/
theorem requested_cycle (timer : Timer) :
    timer.cycle.requested = (timer.requested || timer.raisesNext) := by
  simp only [raisesNext, cycle, advanceCounter, requested_settle, advanceReload, acknowledge]
  cases timer.reloadIn with
  | none => simp
  | some left => by_cases due : left ≤ 1 <;> simp [due]

theorem requested_tick (timer : Timer) (cycles : Nat) :
    (timer.tick cycles).requested = (timer.requested || timer.raisesWithin cycles) := by
  rw [tick_eq_run]
  induction cycles generalizing timer with
  | zero => exact (Bool.or_false _).symm
  | succ cycles ih => rw [run, ih, requested_cycle, raisesWithin, Bool.or_assoc]

end Timer

namespace Ppu

open Interrupt

/-- The lines that the picture unit raises with the next dot. -/
def raisesNext (ppu : Ppu) : Lines :=
  ppu.acknowledge.dot.raised

/-- The lines that the picture unit raises within a number of dots. -/
def raisesWithin : Nat → Ppu → Lines
  | 0, _ => {}
  | dots + 1, ppu => ppu.raisesNext.union (raisesWithin dots ppu.dot)

theorem raised_advance (ppu : Ppu) :
    ppu.advance.raised = ppu.raised.union ppu.acknowledge.advance.raised := by
  simp only [advance, acknowledge]
  cases ppu.mode with
  | oamSearch | pixelTransfer => simp [enter, raised, Lines.union]
  | hblank =>
      by_cases blank : ppu.ly + 1 = vblankLine <;>
        simp [blank, setLine, compareLine, enter, enterVblank, raised, Lines.union, Bool.or_assoc]
  | vblank =>
      by_cases last : ppu.ly = lastLine <;>
        simp [last, setLine, compareLine, enter, raised, Lines.union, Bool.or_assoc]

/-- A dot forgets no request. -/
theorem raised_dot (ppu : Ppu) : ppu.dot.raised = ppu.raised.union ppu.raisesNext := by
  have power : ppu.acknowledge.lcdEnabled = ppu.lcdEnabled := rfl
  have ends : ppu.acknowledge.atModeEnd = ppu.atModeEnd := rfl
  rw [raisesNext, dot, dot, power, ends]
  split
  · exact (Lines.union_empty _).symm
  · split
    · exact raised_advance { ppu with dots := 0 }
    · exact (Lines.union_empty _).symm

theorem raised_tick {σ : Type} (render : Renderer σ) (dots : Nat) (screen : σ) (ppu : Ppu) :
    (ppu.tick render dots screen).1.raised = ppu.raised.union (ppu.raisesWithin dots) := by
  rw [tick_eq_run, run_eq_foldl]
  induction dots generalizing ppu with
  | zero => exact (Lines.union_empty _).symm
  | succ dots ih =>
      rw [Function.iterate_succ_apply, raisesWithin, ← Lines.union_assoc, ← raised_dot]
      exact ih ppu.dot

end Ppu

/-! ## Operations -/

namespace Board

open Interrupt (Lines)

/-- What is done to a board from outside. -/
inductive Operation where
  | read (address : UInt16)
  | write (address : UInt16) (value : UInt8)
  | tick (cycles : Nat)
  | setButton (button : Button) (pressed : Bool)
  | request (lines : Lines)

/-- The operation writes to the request register. -/
def Operation.setsRequests : Operation → Bool
  | .write address _ => address == Interrupt.requestAddress
  | _ => false

variable {σ : Type} (render : Renderer σ)

/-- Perform an operation on a board and the screen that it draws on, a refused access included. -/
def operate (operation : Operation) : Board × σ → Board × σ
  | (board, screen) =>
    match operation with
    | .read address => (final (Bus.read address) board, screen)
    | .write address value => (final (Bus.write address value) board, screen)
    | .tick cycles => board.tick render cycles screen
    | .setButton button pressed => (board.setButton button pressed, screen)
    | .request lines => (board.request lines, screen)

/-- Perform a number of operations. -/
def operateAll (operations : List Operation) (now : Board × σ) : Board × σ :=
  operations.foldl (fun now operation => operate render operation now) now

/-- The requests to which an operation adds. -/
def requestsBefore (board : Board) : Operation → Lines
  | .write address value =>
    if address = Interrupt.requestAddress then Lines.ofByte value else board.requests
  | _ => board.requests

/-- The byte of these requests: a write to the register leaves five bits of its value. -/
def byteBefore (board : Board) : Operation → UInt8
  | .write address value =>
    if address = Interrupt.requestAddress then value &&& 0x1F else board.requests.toByte
  | _ => board.requests.toByte

/-- The lines that devices raise in the course of an operation, or that it names itself. -/
def raisedDuring (board : Board) : Operation → Lines
  | .read _ => {}
  | .write address value => board.raisedBy address value
  | .tick cycles =>
    { timer := board.timer.raisesWithin cycles : Lines }.union (board.ppu.raisesWithin cycles)
  | .setButton button pressed => (board.joypad.acknowledge.setButton button pressed).raised
  | .request lines => lines

variable {board : Board}

theorem toByte_requestsBefore (board : Board) (operation : Operation) :
    (board.requestsBefore operation).toByte = board.byteBefore operation := by
  cases operation with
  | write address value =>
      rw [requestsBefore, byteBefore]
      split
      · exact Lines.toByte_ofByte value
      · rfl
  | _ => rfl

theorem requestsBefore_of_setsRequests {operation : Operation}
    (keeps : operation.setsRequests = false) : board.requestsBefore operation = board.requests := by
  cases operation with
  | write address value => exact if_neg (beq_eq_false_iff_ne.mp keeps)
  | _ => rfl

theorem requests_storePort {address : UInt16} (board : Board) (value : UInt8) :
    (board.storePort address value).requests =
      if address = Interrupt.requestAddress then Lines.ofByte value else board.requests := by
  by_cases register : address = Interrupt.requestAddress
  · rw [register]
    rfl
  rw [if_neg register, storePort]
  cases port : Port.of address with
  | interruptRequest => exact absurd ((Port.address_eq address).1 port) register
  | picture =>
      obtain ⟨_, stored⟩ := board.storePicture_eq address value
      rw [stored]
  | oamDma => simp only [oamDma]
  | _ => rfl

theorem refusal_of_io {address : UInt16} (io : Region.of address = .io) (board : Board)
    (value : UInt8) : board.refusal address value = none := by
  rw [refusal, io]

theorem raisedBy_of_memory {address : UInt16} (memory : Region.of address ≠ .io) (board : Board)
    (value : UInt8) : board.raisedBy address value = {} := by
  rw [raisedBy]
  cases region : Region.of address with
  | io => exact absurd region memory
  | _ => rfl

theorem requests_read (address : UInt16) (board : Board) :
    (final (Bus.read address) board).requests = board.requests := by
  rcases read_ok_or_record address board with same | ⟨event, same⟩
  · rw [same]
  · rw [same]
    rfl

/-- A write that is refused raises nothing and changes no request. -/
theorem requests_write (address : UInt16) (value : UInt8) (board : Board) :
    (final (Bus.write address value) board).requests =
      (board.requestsBefore (.write address value)).union (board.raisedBy address value) := by
  rw [final, write_apply, requestsBefore]
  by_cases io : Region.of address = .io
  · have raised : board.raisedBy address value = (board.storePort address value).raised := by
      rw [raisedBy, io]
    rw [refusal_of_io io, raised, ← requests_storePort, ← requests_collect, ← store_of_io io]
  · have other : address ≠ Interrupt.requestAddress := by
      rintro rfl
      exact io rfl
    rw [raisedBy_of_memory io, Lines.union_empty, if_neg other]
    cases board.refusal address value with
    | some error => rfl
    | none =>
        obtain ⟨_, _, _, _, _, _, _, stored⟩ := store_of_memory io board value
        simp only [stored]

theorem requests_tick (settled : board.raised = {}) (cycles : Nat) (screen : σ) :
    (board.tick render cycles screen).1.requests =
      board.requests.union (board.raisedDuring (.tick cycles)) := by
  obtain ⟨timer, vblank, stat, serial, joypad⟩ := (raised_eq_empty_iff board).mp settled
  have picture : board.ppu.raised = {} := by
    rw [Ppu.raised, vblank, stat]
  have drawn := board.ppu.raised_tick render cycles screen
  have counted := board.timer.requested_tick cycles
  rw [picture, Lines.empty_union] at drawn
  rw [timer, Bool.false_or] at counted
  rw [tick, requests_collect]
  simp only [raised, raisedDuring, drawn, Timer.raised, counted, Serial.raised, serial,
    Joypad.raised, joypad, Lines.union_empty]

theorem requests_setButton (settled : board.raised = {}) (button : Button) (pressed : Bool) :
    (board.setButton button pressed).requests =
      board.requests.union (board.raisedDuring (.setButton button pressed)) := by
  obtain ⟨timer, vblank, stat, serial, joypad⟩ := (raised_eq_empty_iff board).mp settled
  have drained : board.joypad.acknowledge = board.joypad := by
    rw [Joypad.acknowledge, ← joypad]
  rw [setButton, requests_collect, raisedDuring, drained]
  simp only [raised, Timer.raised, timer, Ppu.raised, vblank, stat, Serial.raised, serial,
    Lines.union_empty, Lines.empty_union]

/-- Each operation adds just what is raised in its course. -/
theorem requests_operate (settled : board.raised = {}) (screen : σ) (operation : Operation) :
    (operate render operation (board, screen)).1.requests =
      (board.requestsBefore operation).union (board.raisedDuring operation) := by
  cases operation with
  | read address => exact (requests_read address board).trans (Lines.union_empty _).symm
  | write address value => exact requests_write address value board
  | tick cycles => exact requests_tick render settled cycles screen
  | setButton button pressed => exact requests_setButton settled button pressed
  | request lines => rfl

/-- No operation leaves a request uncollected. -/
theorem raised_operate (settled : board.raised = {}) (screen : σ) (operation : Operation) :
    (operate render operation (board, screen)).1.raised = {} := by
  cases operation with
  | read address => exact invariant_settled.read address board settled
  | write address value => exact invariant_settled.write address value board settled
  | tick cycles => exact raised_tick render cycles board screen
  | setButton button pressed => exact raised_collect _
  | request lines => exact settled

theorem raised_operateAll (operations : List Operation) {now : Board × σ}
    (settled : now.1.raised = {}) : (operateAll render operations now).1.raised = {} := by
  induction operations generalizing now with
  | nil => exact settled
  | cons operation operations ih => exact ih (raised_operate render settled now.2 operation)

/-- A request stays until the register is written. -/
theorem contains_operateAll {line : Interrupt} (operations : List Operation)
    (unwritten : ∀ operation ∈ operations, operation.setsRequests = false) {now : Board × σ}
    (settled : now.1.raised = {}) (requested : now.1.requests.contains line = true) :
    (operateAll render operations now).1.requests.contains line = true := by
  induction operations generalizing now with
  | nil => exact requested
  | cons operation operations ih =>
      obtain ⟨first, others⟩ := List.forall_mem_cons.mp unwritten
      refine ih others (raised_operate render settled now.2 operation) ?_
      rw [requests_operate render settled now.2 operation, requestsBefore_of_setsRequests first,
        Lines.contains_union, requested, Bool.true_or]

/-- Between the operations on a board no device keeps a request.  The next operation leaves in the
register what was there, or the five bits that it writes to it, and with them exactly the lines
raised in its course.  These and what it has not overwritten stay until a later write to the
register. -/
theorem requests_exact (cartridge : Cartridge) (config : Config) (sink : Sink) (screen : σ)
    (operations : List Operation) (next : Operation) :
    let now := operateAll render operations (boot cartridge config sink, screen)
    let found := now.1
    let after := operate render next now
    (found.timer.requested = false ∧ found.ppu.vblankRequested = false ∧
      found.ppu.statRequested = false ∧ found.serial.requested = false ∧
      found.joypad.requested = false) ∧
    found.requests.toByte &&& 0xE0 = 0 ∧
    after.1.requests.toByte = found.byteBefore next ||| (found.raisedDuring next).toByte ∧
    ∀ line, (found.raisedDuring next).contains line = true ∨
        next.setsRequests = false ∧ found.requests.contains line = true →
      ∀ later : List Operation, (∀ operation ∈ later, operation.setsRequests = false) →
        (operateAll render later after).1.requests.contains line = true := by
  intro now found after
  have settled : found.raised = {} := raised_operateAll render operations (raised_boot _ _ _)
  have added := requests_operate render settled now.2 next
  refine ⟨(raised_eq_empty_iff found).mp settled, found.requests.toByte_and_highBits, ?_, ?_⟩
  · rw [added, Lines.toByte_union, toByte_requestsBefore]
  · intro line raised later unwritten
    refine contains_operateAll render later unwritten (raised_operate render settled now.2 next) ?_
    rw [added, Lines.contains_union]
    rcases raised with inCourse | ⟨keeps, already⟩
    · rw [inCourse, Bool.or_true]
    · rw [requestsBefore_of_setsRequests keeps, already, Bool.true_or]

end Board
end GameBoy
