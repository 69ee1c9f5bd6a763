import GameBoy.Proofs.FrameCycles
import GameBoy.Proofs.RomProgram
import GameBoy.Proofs.SerialHistory

/-!
# A program that prints

The program goes through a text in ROM, sends its bytes through the serial port one by one, and
spins once it has come to the zero behind the last of them.  How far it has come is described
instruction by instruction; each step of the machine is one step of that description and uses up its
cycles.  What carries a run is the number of cycles within which everything is sent.
-/

namespace GameBoy
namespace PrintLoop

open Effect Exec

/-! ## The program -/

/-- Print the text at 0x0200 up to the zero behind it, then spin. -/
def program : List UInt8 :=
  [0x21, 0x00, 0x02, -- LD HL,0x0200
    0x2A, -- loop: LD A,(HL+)
    0xB7, -- OR A
    0x28, 0x08, -- JR Z,done
    0xE0, 0x01, -- LDH (0x01),A
    0x3E, 0x81, -- LD A,0x81
    0xE0, 0x02, -- LDH (0x02),A
    0x18, 0xF4, -- JR loop
    0x18, 0xFE] -- done: JR done

/-- The program with a message as its text. -/
def rom (message : List UInt8) : FlatRom :=
  FlatRom.assemble program [(0x200, message ++ [0])] 0x00 0x00

section Image

variable {message : List UInt8} (fits : message.length ≤ 0x7DFF)

include fits

theorem length_text : 0x200 + (message ++ [0]).length ≤ 0x8000 := by
  rw [List.length_append, List.length_singleton]
  omega

/-- The message as it is found in ROM, with the zero behind it. -/
theorem read_text {sent left : List UInt8} (whole : sent ++ left = message) :
    (rom message).read (0x200 + sent.length) = left.headD 0 := by
  have text := length_text fits
  have short : sent.length ≤ message.length := whole ▸ (List.prefix_append sent left).length_le
  rw [rom, FlatRom.assemble, List.foldl_cons, List.foldl_nil,
    Bank.read_writeAll (by omega) _ _ _ text, if_pos (by omega), Nat.add_sub_cancel_left, ← whole]
  cases left <;> simp

theorem read_program {index : Nat} (inside : index < program.length) :
    (rom message).read (0x150 + index) = program[index] := by
  have few : index < 17 := inside
  rw [rom, FlatRom.assemble, List.foldl_cons, List.foldl_nil,
    Bank.read_writeAll (by omega) _ _ _ (length_text fits), if_neg (by omega),
    Bank.read_writeAll (by omega) _ _ _ (by decide), if_pos (by omega), Nat.add_sub_cancel_left]
  simp [inside]

theorem read_headed {offset : Nat} (front : offset < 0x150) :
    (rom message).read offset = (FlatRom.headed 0x00 0x00).read offset := by
  rw [rom, FlatRom.assemble, List.foldl_cons, List.foldl_nil,
    Bank.read_writeAll (by omega) _ _ _ (length_text fits), if_neg (by omega),
    Bank.read_writeAll (by omega) _ _ _ (by decide), if_neg (by omega)]

end Image

/-! ## Its progress -/

/-- How far the program has come.  Each constructor stands for the instruction that is executed
next, with the bytes sent before, the byte that the loop has in hand, if any, and the bytes behind
it. -/
inductive Progress where
  /-- `NOP` at the entry point. -/
  | enter (left : List UInt8)
  /-- `JP 0x0150`. -/
  | leap (left : List UInt8)
  /-- `LD HL,0x0200`. -/
  | point (left : List UInt8)
  /-- `LD A,(HL+)`. -/
  | load (sent left : List UInt8)
  /-- `OR A`. -/
  | test (sent left : List UInt8)
  /-- `JR Z,done`. -/
  | branch (sent left : List UInt8)
  /-- `LDH (0x01),A`. -/
  | hand (sent : List UInt8) (byte : UInt8) (left : List UInt8)
  /-- `LD A,0x81`. -/
  | command (sent : List UInt8) (byte : UInt8) (left : List UInt8)
  /-- `LDH (0x02),A`. -/
  | send (sent : List UInt8) (byte : UInt8) (left : List UInt8)
  /-- `JR loop`. -/
  | again (sent left : List UInt8)
  /-- `JR done`. -/
  | done (sent : List UInt8)

namespace Progress

/-- The next instruction. -/
def instruction : Progress → Instruction
  | enter _ => .nop
  | leap _ => .jp none
  | point _ => .loadPair .hl
  | load _ _ => .loadA .hlUp
  | test _ _ => .alu .or .a
  | branch _ _ => .jr (some .z)
  | hand _ _ _ | send _ _ _ => .storeHigh
  | command _ _ _ => .loadByte .a
  | again _ _ | done _ => .jr none

/-- Where its opcode lies. -/
def address : Progress → UInt16
  | enter _ => 0x0100
  | leap _ => 0x0101
  | point _ => 0x0150
  | load _ _ => 0x0153
  | test _ _ => 0x0154
  | branch _ _ => 0x0155
  | hand _ _ _ => 0x0157
  | command _ _ _ => 0x0159
  | send _ _ _ => 0x015B
  | again _ _ => 0x015D
  | done _ => 0x015F

def opcode : Progress → UInt8
  | enter _ => 0x00
  | leap _ => 0xC3
  | point _ => 0x21
  | load _ _ => 0x2A
  | test _ _ => 0xB7
  | branch _ _ => 0x28
  | hand _ _ _ | send _ _ _ => 0xE0
  | command _ _ _ => 0x3E
  | again _ _ | done _ => 0x18

/-- The bytes behind the opcode. -/
def operand : Progress → List UInt8
  | enter _ | load _ _ | test _ _ => []
  | leap _ => [0x50, 0x01]
  | point _ => [0x00, 0x02]
  | branch _ _ => [0x08]
  | hand _ _ _ => [0x01]
  | command _ _ _ => [0x81]
  | send _ _ _ => [0x02]
  | again _ _ => [0xF4]
  | done _ => [0xFE]

/-- The instruction goes ahead unless it is the branch out of the loop and there is a byte left. -/
def taken : Progress → Bool
  | branch _ (_ :: _) => false
  | _ => true

theorem ofSlot_opcode (progress : Progress) :
    Instruction.ofSlot progress.opcode.toUInt16 = progress.instruction := by
  cases progress <;> simp only [opcode, instruction] <;> rfl

theorem length_operand (progress : Progress) :
    progress.operand.length = progress.instruction.immediate.size := by
  cases progress <;> rfl

theorem isControl_instruction (progress : Progress) :
    progress.instruction.isControl = false := by
  cases progress <;> rfl

/-- The bytes sent. -/
def sent : Progress → List UInt8
  | enter _ | leap _ | point _ => []
  | load sent _ | test sent _ | branch sent _ | again sent _ | done sent => sent
  | hand sent _ _ | command sent _ _ | send sent _ _ => sent

/-- The bytes not yet sent. -/
def left : Progress → List UInt8
  | enter left | leap left | point left => left
  | load _ left | test _ left | branch _ left | again _ left => left
  | hand _ byte left | command _ byte left | send _ byte left => byte :: left
  | done _ => []

/-- The cycles of the next instruction. -/
def cost (progress : Progress) : Nat :=
  progress.instruction.cost progress.taken

/-- How far the program has come after the next instruction. -/
def next : Progress → Progress
  | enter left => leap left
  | leap left => point left
  | point left => load [] left
  | load sent left => test sent left
  | test sent left => branch sent left
  | branch sent [] => done sent
  | branch sent (byte :: left) => hand sent byte left
  | hand sent byte left => command sent byte left
  | command sent byte left => send sent byte left
  | send sent byte left => again (sent ++ [byte]) left
  | again sent left => load sent left
  | done sent => done sent

/-- The cycles within which everything is sent.  A byte takes the loop 64 of them. -/
def due : Progress → Nat
  | enter left => 64 * left.length + 32
  | leap left => 64 * left.length + 28
  | point left => 64 * left.length + 12
  | load _ left => 64 * left.length
  | test _ left => 64 * left.length - 8
  | branch _ left => 64 * left.length - 12
  | hand _ _ left => 64 * left.length + 44
  | command _ _ left => 64 * left.length + 32
  | send _ _ left => 64 * left.length + 24
  | again _ left => 64 * left.length + 12
  | done _ => 0

theorem due_next (progress : Progress) : progress.next.due ≤ progress.due - progress.cost := by
  cases progress with
  | branch sent left =>
      cases left with
      | nil => exact Nat.zero_le _
      | cons byte left =>
          have skips : cost (branch sent (byte :: left)) = 8 := rfl
          simp only [next, due, skips, List.length_cons]
          omega
  | _ =>
      simp only [next, due, cost, instruction, taken, Instruction.cost, Instruction.operandCost,
        reduceCtorEq, if_true, if_false]
      omega

/-- Nothing is sent twice or left out. -/
theorem sent_next (progress : Progress) :
    progress.next.sent ++ progress.next.left = progress.sent ++ progress.left := by
  cases progress with
  | branch sent left => cases left <;> rfl
  | send sent byte left => exact List.append_assoc sent [byte] left
  | done sent => rfl
  | _ => rfl

theorem left_of_due {progress : Progress} (late : progress.due = 0) : progress.left = [] := by
  cases progress with
  | done sent => rfl
  | load sent left | test sent left | branch sent left =>
      have none : left.length = 0 := by
        simp only [due] at late
        omega
      exact List.eq_nil_of_length_eq_zero none
  | _ =>
      simp only [due] at late
      omega

end Progress

/-! ## What it shows on the machine -/

/-- The serial port has sent just these bytes since the board was switched on with a sink, and each
of them has been reported. -/
structure Printed (cartridge : Cartridge) (sink : Sink) (sent : List UInt8) (board : Board) :
    Prop where
  cartridge : board.cartridge = cartridge
  log : board.serial.log = (true, sent.toArray)
  unsent : board.serial.lastSent = none
  unstalled : board.stall = 0
  sink : board.sink = sent.foldl (fun sink byte => sink.record (.serialByte byte)) sink

namespace Printed

variable {cartridge : Cartridge} {sink : Sink} {sent : List UInt8} {board : Board}
  (printed : Printed cartridge sink sent board)

include printed

theorem collect :
    Printed cartridge sink sent board.collect ∧
      board.collect.serial.data = board.serial.data := by
  obtain ⟨quiet, taken⟩ := Board.collect_of_unsent printed.unsent
  obtain ⟨_, _, collected⟩ := board.collect_eq
  have log := (Board.log_collect board).trans printed.log
  refine ⟨⟨?_, log, taken, ?_, quiet.trans printed.sink⟩, ?_⟩
  · rw [collected]
    exact printed.cartridge
  · rw [collected]
    exact printed.unstalled
  · rw [collected]
    rfl

theorem tick {σ : Type} (render : Renderer σ) (cycles : Nat) (screen : σ) :
    Printed cartridge sink sent (board.tick render cycles screen).1 ∧
      (board.tick render cycles screen).1.serial.data = board.serial.data := by
  rw [Board.tick_eq_passed]
  have passed : Printed cartridge sink sent (board.passed cycles) :=
    ⟨printed.cartridge, printed.log, printed.unsent, printed.unstalled, printed.sink⟩
  exact passed.collect

/-- A byte is put into the data register. -/
theorem store_data (byte : UInt8) :
    Printed cartridge sink sent (board.store Serial.dataAddress byte) ∧
      (board.store Serial.dataAddress byte).serial.data = byte := by
  let holding : Board := { board with serial := { board.serial with data := byte } }
  have stored : board.store Serial.dataAddress byte = holding.collect := rfl
  have held : Printed cartridge sink sent holding :=
    ⟨printed.cartridge, printed.log, printed.unsent, printed.unstalled, printed.sink⟩
  rw [stored]
  exact held.collect

/-- The byte in the data register is sent. -/
theorem store_control (few : sent.length < Serial.outputLimit) :
    Printed cartridge sink (sent ++ [board.serial.data])
      (board.store Serial.controlAddress 0x81) := by
  let sending : Board := { board with serial := board.serial.transfer }
  have captures : board.serial.capture = true := congrArg Prod.fst printed.log
  have output : board.serial.output = sent.toArray := congrArg Prod.snd printed.log
  have logged := Board.log_store board Serial.controlAddress 0x81 captures
  have stored : board.store Serial.controlAddress 0x81 = sending.collect :=
    board.store_transfer rfl
  obtain ⟨reported, taken, _⟩ := @Board.collect_transfer sending board.serial.data rfl rfl
  obtain ⟨_, _, collected⟩ := sending.collect_eq
  rw [Board.sends, if_pos ⟨rfl, rfl⟩, List.foldl_cons, List.foldl_nil, output, Serial.keep,
    List.size_toArray, if_neg (Nat.not_le.mpr few)] at logged
  refine ⟨?_, ?_, ?_, ?_, ?_⟩
  · rw [stored, collected]
    exact printed.cartridge
  · rw [logged, List.push_toArray]
  · rw [stored, taken]
  · rw [stored, collected]
    exact printed.unstalled
  · rw [stored, reported, List.foldl_append]
    exact congrArg (Sink.record _) printed.sink

end Printed

/-- Where the program finds the next byte. -/
def pointer (sent : List UInt8) : UInt16 :=
  UInt16.ofNat (0x200 + sent.length)

/-- What the registers hold, and the data register of the serial port. -/
def Progress.Registers (regs : Registers) (data : UInt8) : Progress → Prop
  | enter _ | leap _ | point _ | done _ => True
  | load sent _ | again sent _ => regs.hl = pointer sent
  | test sent left => regs.hl = pointer sent + 1 ∧ regs.a = left.headD 0
  | branch sent left =>
    regs.hl = pointer sent + 1 ∧ regs.a = left.headD 0 ∧ regs.flags.zero = (left.headD 0 == 0)
  | hand sent byte _ => regs.hl = pointer sent + 1 ∧ regs.a = byte
  | command sent byte _ => regs.hl = pointer sent + 1 ∧ data = byte
  | send sent byte _ => regs.hl = pointer sent + 1 ∧ regs.a = 0x81 ∧ data = byte

/-- The program has come so far on a machine with a cartridge that was switched on with a sink. -/
structure Shows (cartridge : Cartridge) (sink : Sink) (progress : Progress) (machine : Machine) :
    Prop where
  free : machine.cpu.control = .undisturbed
  pc : machine.cpu.regs.pc = progress.address
  registers : progress.Registers machine.cpu.regs machine.bus.serial.data
  printed : Printed cartridge sink progress.sent machine.bus

/-- The cartridge shows the program with a message as its text. -/
def Carries (cartridge : Cartridge) (message : List UInt8) : Prop :=
  ∀ address : UInt16, address.toNat < 0x8000 →
    cartridge.readRom address = (rom message).read address.toNat

section Step

variable {message : List UInt8} {cartridge : Cartridge} {sink : Sink} {progress : Progress}
  {machine : Machine}

theorem peek_of_carries (carries : Carries cartridge message) {board : Board}
    (fitted : board.cartridge = cartridge) {address : UInt16} {offset : Nat}
    (place : address.toNat = offset) (inside : offset < 0x8000) :
    board.peek address = .ok ((rom message).read offset) := by
  subst place
  have region : Region.of address = .romBank0 ∨ Region.of address = .romBankN := by
    rw [Region.of_eq_iff, Region.of_eq_iff]
    simp only [Region.first, Region.last, UInt16.le_iff_toNat_le]
    simp
    omega
  rw [← carries address inside, ← fitted]
  rcases region with region | region <;> rw [Board.peek, Board.memoryByte, region]

variable (fits : message.length ≤ 0x7DFF) (carries : Carries cartridge message)

include fits carries

theorem finds_code (progress : Progress) {board : Board} (fitted : board.cartridge = cartridge) :
    board.Finds progress.address (progress.opcode :: progress.operand) := by
  have entry (index : Nat) (inside : index < FlatRom.entry.length) {address : UInt16}
      (place : address.toNat = 0x100 + index) :
      board.peek address = .ok FlatRom.entry[index] := by
    have few : index < 4 := inside
    rw [peek_of_carries carries fitted place (by omega), read_headed fits (by omega),
      FlatRom.read_headed_entry]
  have code (index : Nat) (inside : index < program.length) {address : UInt16}
      (place : address.toNat = 0x150 + index) :
      board.peek address = .ok program[index] := by
    have few : index < 17 := inside
    rw [peek_of_carries carries fitted place (by omega), read_program fits]
  cases progress with
  | enter left => exact ⟨entry 0 (by decide) rfl, trivial⟩
  | leap left =>
      exact ⟨entry 1 (by decide) rfl, entry 2 (by decide) rfl, entry 3 (by decide) rfl, trivial⟩
  | point left =>
      exact ⟨code 0 (by decide) rfl, code 1 (by decide) rfl, code 2 (by decide) rfl, trivial⟩
  | load sent left => exact ⟨code 3 (by decide) rfl, trivial⟩
  | test sent left => exact ⟨code 4 (by decide) rfl, trivial⟩
  | branch sent left => exact ⟨code 5 (by decide) rfl, code 6 (by decide) rfl, trivial⟩
  | hand sent byte left => exact ⟨code 7 (by decide) rfl, code 8 (by decide) rfl, trivial⟩
  | command sent byte left => exact ⟨code 9 (by decide) rfl, code 10 (by decide) rfl, trivial⟩
  | send sent byte left => exact ⟨code 11 (by decide) rfl, code 12 (by decide) rfl, trivial⟩
  | again sent left => exact ⟨code 13 (by decide) rfl, code 14 (by decide) rfl, trivial⟩
  | done sent => exact ⟨code 15 (by decide) rfl, code 16 (by decide) rfl, trivial⟩

/-- The byte that the program comes to next, which is the zero behind the message in the end. -/
theorem peek_text {board : Board} (fitted : board.cartridge = cartridge) {sent left : List UInt8}
    (whole : sent ++ left = message) : board.peek (pointer sent) = .ok (left.headD 0) := by
  have short : sent.length ≤ message.length := whole ▸ (List.prefix_append sent left).length_le
  have place : (pointer sent).toNat = 0x200 + sent.length :=
    Nat.mod_eq_of_lt (by omega)
  rw [peek_of_carries carries fitted place (by omega), read_text fits whole]

/-- The next instruction is executed, and what it does is what the program goes on with. -/
theorem step_of_acts {acted : Machine} (shows : Shows cartridge sink progress machine)
    (met : progress.instruction.taken machine.cpu.regs.flags = progress.taken)
    (acts : perform progress.instruction progress.opcode.toUInt16 machine.cpu.regs.pc
      (progress.instruction.immediate.word progress.operand) progress.taken
      ⟨machine.cpu.skip (progress.operand.length + 1), machine.bus⟩ = .ok () acted)
    (pc : acted.cpu.regs.pc = progress.next.address)
    (registers : progress.next.Registers acted.cpu.regs acted.bus.serial.data)
    (printed : Printed cartridge sink progress.next.sent acted.bus) :
    ∃ quantum after, Cpu.step machine = .ok quantum after ∧ quantum.cycles = progress.cost ∧
      Shows cartridge sink progress.next after := by
  have found := finds_code fits carries progress shows.printed.cartridge
  rw [← shows.pc] at found
  rw [← met] at acts
  obtain ⟨steps, free⟩ := Machine.step_of_finds shows.free found progress.ofSlot_opcode
    progress.length_operand progress.isControl_instruction acts
  have collected : { acted.bus with stall := 0 } = acted.bus := by
    rw [← printed.unstalled]
  rw [collected] at steps
  refine ⟨_, acted, steps, ?_, free, pc, registers, printed⟩
  rw [Quantum.cycles, printed.unstalled, met, Nat.add_zero, Progress.cost]

omit fits carries in
theorem pointer_concat (sent : List UInt8) (byte : UInt8) :
    pointer (sent ++ [byte]) = pointer sent + 1 := by
  rw [pointer, pointer, List.length_append, List.length_singleton, ← Nat.add_assoc,
    UInt16.ofNat_add]
  rfl

/-- A step of the processor is a step of the program. -/
theorem step_of_shows (clean : 0 ∉ message) (whole : progress.sent ++ progress.left = message)
    (shows : Shows cartridge sink progress machine) :
    ∃ quantum after, Cpu.step machine = .ok quantum after ∧ quantum.cycles = progress.cost ∧
      Shows cartridge sink progress.next after := by
  have pc := shows.pc
  have registers := shows.registers
  have printed := shows.printed
  cases progress with
  | enter left =>
      refine step_of_acts fits carries shows rfl rfl ?_ trivial printed
      exact congrArg (· + 1) pc
  | leap left =>
      have target : Immediate.unsigned16.word [0x50, 0x01] = 0x0150 := by decide
      exact step_of_acts fits carries shows rfl rfl target trivial printed
  | point left =>
      have start : Immediate.unsigned16.word [0x00, 0x02] = pointer [] := by decide
      refine step_of_acts fits carries shows rfl rfl ?_ ?_ printed
      · exact congrArg (· + 3) pc
      · exact (Word.ofBytes_high_low _).trans start
  | load sent left =>
      have next : machine.cpu.regs.hl = pointer sent := registers
      have found : machine.bus.peek machine.cpu.regs.hl = .ok (left.headD 0) := by
        rw [next]
        exact peek_text fits carries printed.cartridge whole
      have acts := @Machine.perform_loadA ⟨machine.cpu.skip 1, machine.bus⟩ _ found
      refine step_of_acts fits carries shows rfl (acts _ _ _ _) ?_ ⟨?_, rfl⟩
        printed
      · exact congrArg (· + 1) pc
      · exact (Word.ofBytes_high_low _).trans (congrArg (· + 1) next)
  | test sent left =>
      obtain ⟨next, held⟩ := registers
      refine step_of_acts fits carries shows rfl rfl ?_ ⟨next, ?_, ?_⟩ printed
      · exact congrArg (· + 1) pc
      · exact UInt8.or_self.trans held
      · exact congrArg (· == 0) (UInt8.or_self.trans held)
  | branch sent left =>
      obtain ⟨next, held, zero⟩ := registers
      cases left with
      | nil =>
          -- the zero behind the message ends the loop
          have taken : (Instruction.jr (some .z)).taken machine.cpu.regs.flags = true := zero
          have target : (0x0155 : UInt16) + 2 + Word.ofSigned 0x08 = 0x015F := by decide
          refine step_of_acts fits carries shows taken rfl ?_ trivial printed
          exact (congrArg (· + 2 + Word.ofSigned 0x08) pc).trans target
      | cons byte left =>
          -- no byte of the message does
          have inside : byte ∈ message := by
            rw [← whole]
            exact List.mem_append_right sent List.mem_cons_self
          have other : byte ≠ 0 := fun same => clean (same ▸ inside)
          have taken : (Instruction.jr (some .z)).taken machine.cpu.regs.flags = false :=
            zero.trans (beq_eq_false_iff_ne.mpr other)
          refine step_of_acts fits carries shows taken rfl ?_ ⟨next, held⟩
            printed
          exact congrArg (· + 2) pc
  | hand sent byte left =>
      obtain ⟨next, held⟩ := registers
      obtain ⟨stored, data⟩ := printed.store_data machine.cpu.regs.a
      have acts := @Machine.perform_storeHigh ⟨machine.cpu.skip 2, machine.bus⟩ 0x01 true
      refine step_of_acts fits carries shows rfl (acts _ _ rfl) ?_
        ⟨next, data.trans held⟩ stored
      exact congrArg (· + 2) pc
  | command sent byte left =>
      obtain ⟨next, ready⟩ := registers
      refine step_of_acts fits carries shows rfl rfl ?_ ⟨next, rfl, ready⟩ printed
      exact congrArg (· + 2) pc
  | send sent byte left =>
      obtain ⟨next, starts, ready⟩ := registers
      have short : sent.length ≤ message.length :=
        whole ▸ (List.prefix_append sent (byte :: left)).length_le
      have few : sent.length < Serial.outputLimit :=
        Nat.lt_of_le_of_lt (Nat.le_trans short fits) (by decide)
      have stored := printed.store_control few
      rw [← starts, ready] at stored
      have acts := @Machine.perform_storeHigh ⟨machine.cpu.skip 2, machine.bus⟩ 0x02 true
      refine step_of_acts fits carries shows rfl (acts _ _ rfl) ?_
        (next.trans (pointer_concat sent byte).symm) stored
      exact congrArg (· + 2) pc
  | again sent left =>
      have next : machine.cpu.regs.hl = pointer sent := registers
      have back : (0x015D : UInt16) + 2 + Word.ofSigned 0xF4 = 0x0153 := by decide
      have kept (target : UInt16) :
          { machine.cpu.regs with pc := target }.hl = machine.cpu.regs.hl := rfl
      refine step_of_acts fits carries shows rfl rfl ?_ ((kept _).trans next)
        printed
      exact (congrArg (· + 2 + Word.ofSigned 0xF4) pc).trans back
  | done sent =>
      have back : (0x015F : UInt16) + 2 + Word.ofSigned 0xFE = 0x015F := by decide
      refine step_of_acts fits carries shows rfl rfl ?_ trivial printed
      exact (congrArg (· + 2 + Word.ofSigned 0xFE) pc).trans back

end Step

/-! ## Running it -/

/-- On the machine of a session the program has sent a part of its message, and it sends the rest
within a number of cycles. -/
def Prints {σ : Type} (cartridge : Cartridge) (sink : Sink) (message : List UInt8) (budget : Nat)
    (session : Session σ) : Prop :=
  ∃ progress : Progress, progress.sent ++ progress.left = message ∧ progress.due ≤ budget ∧
    Shows cartridge sink progress session.machine

theorem Shows.tick {σ : Type} {cartridge : Cartridge} {sink : Sink} {progress : Progress}
    {machine : Machine} (shows : Shows cartridge sink progress machine) (render : Renderer σ)
    (cycles : Nat) (screen : σ) :
    Shows cartridge sink progress ⟨machine.cpu, (machine.bus.tick render cycles screen).1⟩ := by
  obtain ⟨printed, data⟩ := shows.printed.tick render cycles screen
  refine ⟨shows.free, shows.pc, ?_, printed⟩
  rw [data]
  exact shows.registers

namespace Prints

open Session

variable {σ : Type} {render : Renderer σ} {cartridge : Cartridge} {sink : Sink}
  {message : List UInt8} {budget : Nat} {session last : Session σ} {moves : List (Move σ)}

/-- Once the cycles are used up, everything is sent. -/
theorem finished (prints : Prints cartridge sink message 0 session) :
    session.machine.serialOutput.toList = message ∧
      session.machine.bus.sink =
        message.foldl (fun sink byte => sink.record (.serialByte byte)) sink := by
  obtain ⟨progress, whole, late, shows⟩ := prints
  have all : progress.sent = message := by
    rw [← whole, Progress.left_of_due (Nat.eq_zero_of_le_zero late), List.append_nil]
  have printed := shows.printed
  rw [all] at printed
  exact ⟨congrArg (fun log => log.2.toList) printed.log, printed.sink⟩

variable (fits : message.length ≤ 0x7DFF) (clean : 0 ∉ message)
  (carries : Carries cartridge message)

include fits clean carries

theorem step (render : Renderer σ) (prints : Prints cartridge sink message budget session) :
    ∃ quantum next, Session.step render session = .ok quantum next ∧
      Prints cartridge sink message (budget - quantum.cycles) next := by
  obtain ⟨progress, whole, due, shows⟩ := prints
  obtain ⟨quantum, after, stepped, cycles, onward⟩ := step_of_shows fits carries clean whole shows
  refine ⟨quantum, _, step_of_ok stepped, progress.next, ?_, ?_, onward.tick _ _ _⟩
  · rw [progress.sent_next, whole]
  · rw [cycles]
    exact Nat.le_trans progress.due_next (Nat.sub_le_sub_right due _)

/-- Each step uses up its cycles of the budget. -/
theorem of_steps (prints : Prints cartridge sink message budget session)
    (steps : Steps render session moves last) :
    Prints cartridge sink message (budget - cyclesOf moves) last := by
  induction steps generalizing budget with
  | nil => exact prints
  | cons ran _ ih =>
      obtain ⟨quantum, next, goes, onward⟩ := prints.step fits clean carries render
      rw [ran] at goes
      cases goes
      rw [cyclesOf_cons, ← Nat.sub_sub]
      exact ih onward

theorem runFrame (prints : Prints cartridge sink message budget session)
    (orderly : session.Orderly) :
    ∃ cycles last, Session.runFrame render session = .ok cycles last ∧
      Prints cartridge sink message (budget - Machine.cyclesPerFrame) last := by
  have ends : FrameEnds render session 0 Machine.cyclesPerFrame :=
    orderly.frameEnds (by omega) (by decide)
  cases ends with
  | fails steps _ failed _ =>
      -- the program goes on from wherever the frame has come
      have onward := prints.of_steps fits clean carries steps
      obtain ⟨_, _, goes, _⟩ := onward.step fits clean carries render
      rw [failed] at goes
      cases goes
  | @covers moves last steps covered _ _ goes =>
      rw [Nat.zero_add] at covered
      obtain ⟨progress, whole, due, shows⟩ := prints.of_steps fits clean carries steps
      exact ⟨_, last, goes _ (Nat.le_refl _), progress, whole,
        Nat.le_trans due (Nat.sub_le_sub_left covered budget), shows⟩

theorem runFrames (frames : Nat) (prints : Prints cartridge sink message budget session)
    (orderly : session.Orderly) :
    ∃ cycles last, Session.runFrames render frames session = .ok cycles last ∧
      Prints cartridge sink message (budget - Machine.cyclesPerFrame * frames) last := by
  induction frames generalizing budget session with
  | zero => exact ⟨0, session, rfl, prints⟩
  | succ frames ih =>
      obtain ⟨cycles, next, ran, onward⟩ := prints.runFrame fits clean carries orderly
      have still : next.Orderly :=
        (upholds_runFrameFrom render _ (by decide)).orderly.of_ok orderly ran
      obtain ⟨rest, last, goes, ended⟩ := ih onward still
      refine ⟨cycles + rest, last, ?_, ?_⟩
      · rw [Session.runFrames, bind_of_ok ran, bind_of_ok goes]
        rfl
      · rw [Nat.mul_succ, Nat.add_comm, ← Nat.sub_sub]
        exact ended

end Prints

/-! ## From power-on -/

theorem loadable {message : List UInt8} (fits : message.length ≤ 0x7DFF) :
    RomImage.Loadable (rom message).image .romOnly 2 0 := by
  have codes := FlatRom.read_headed_codes 0x00 0x00
  have read {offset : Nat} (front : offset < 0x150) :
      RomImage.byteAt (rom message).image offset = (FlatRom.headed 0x00 0x00).read offset := by
    rw [FlatRom.byteAt_image _ (by omega), read_headed fits front]
  constructor
  · constructor
    · rw [read (by decide), codes.1]
      rfl
    · rw [read (by decide), codes.2.1]
      rfl
    · rw [read (by decide), codes.2.2]
      rfl
  · rw [FlatRom.size_image]
    decide
  · rw [FlatRom.size_image]
  · decide
  · intro _
    exact .inl rfl

theorem ofImage_rom {message : List UInt8} (fits : message.length ≤ 0x7DFF) (config : Config)
    (sink : Sink) :
    ∃ cartridge, Machine.ofImage (rom message).image config sink =
        .ok (Machine.boot cartridge config sink) ∧ Carries cartridge message := by
  obtain ⟨cartridge, loaded, _, banks, _, mapper⟩ := (loadable fits).ofImage config sink
  have plain : cartridge.mapper = .none := (Option.some.inj mapper).symm
  refine ⟨cartridge, loaded, fun address inside => ?_⟩
  rw [Cartridge.readRom_of_cut plain banks inside, FlatRom.byteAt_image _ inside]

theorem prints_boot {σ : Type} {config : Config} (booted : config.bootState = .postBoot)
    (captures : config.captureSerial = true) (cartridge : Cartridge) (sink : Sink)
    (message : List UInt8) (screen : σ) :
    Prints cartridge sink message (64 * message.length + 32)
      ⟨Machine.boot cartridge config sink, screen⟩ := by
  refine ⟨.enter message, rfl, Nat.le_refl _, ?_⟩
  rw [Machine.boot, Board.boot, booted, captures]
  exact ⟨rfl, rfl, trivial, ⟨rfl, rfl, rfl, rfl, rfl⟩⟩

open Session

/-- A message without zeros that fits into ROM is printed.  Loaded with it and switched on as the
boot ROM leaves it, the machine runs without a fault for any number of frames that have 64 cycles
for each byte and 32 cycles more, whatever is done with the picture.  It has then sent the bytes of
the message in their order and nothing else, and each of them has been reported once. -/
theorem prints_message (message : List UInt8) (clean : 0 ∉ message)
    (fits : message.length ≤ 0x7DFF) (config : Config) (booted : config.bootState = .postBoot)
    (captures : config.captureSerial = true) (sink : Sink) {σ : Type} (render : Renderer σ)
    (screen : σ) (frames : Nat) (enough : 64 * message.length + 32 ≤ 70224 * frames) :
    ∃ machine cycles last,
      Machine.ofImage (rom message).image config sink = .ok machine ∧
      runFrames render frames ⟨machine, screen⟩ = .ok cycles last ∧
      last.machine.serialOutput.toList = message ∧
      last.machine.bus.sink =
        message.foldl (fun sink byte => sink.record (.serialByte byte)) sink := by
  obtain ⟨cartridge, loaded, carries⟩ := ofImage_rom fits config sink
  have begun := prints_boot booted captures cartridge sink message screen
  obtain ⟨cycles, last, ran, ended⟩ :=
    begun.runFrames fits clean carries frames (orderly_boot cartridge config sink screen)
  have spent : 64 * message.length + 32 - Machine.cyclesPerFrame * frames = 0 :=
    Nat.sub_eq_zero_of_le enough
  rw [spent] at ended
  exact ⟨_, cycles, last, loaded, ran, ended.finished⟩

/-- Two bytes are printed within a frame. -/
theorem prints_message_hi :
    (0 ∉ [0x48, 0x69] ∧ [0x48, 0x69].length ≤ 0x7DFF ∧ 64 * [0x48, 0x69].length + 32 ≤ 70224 * 1) ∧
      ∃ machine cycles last,
        Machine.ofImage (rom [0x48, 0x69]).image {} (.recording #[]) = .ok machine ∧
        runFrames Renderer.null 1 ⟨machine, ()⟩ = .ok cycles last ∧
        last.machine.serialOutput.toList = [0x48, 0x69] ∧
        last.machine.bus.sink = .recording #[.serialByte 0x48, .serialByte 0x69] :=
  ⟨by decide, prints_message [0x48, 0x69] (by decide) (by decide) {} rfl rfl (.recording #[])
    Renderer.null () 1 (by decide)⟩

end PrintLoop
end GameBoy
