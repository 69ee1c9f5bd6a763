import GameBoy.Proofs.Breakpoint
import GameBoy.Proofs.Execution
import GameBoy.Proofs.Splitting
import GameBoy.Proofs.Storage

/-!
# Dispatch and return

With its stack in the RAM of the machine, a processor that takes interrupts dispatches the pending
line of highest priority and changes nothing but what belongs to the dispatch.  A RETI that finds
the return address still there goes back to it, and the next pending line is dispatched at once from
the same place.
-/

namespace GameBoy

open Effect Exec

/-- The lowest bit that is set in a byte. -/
def IsLowestBit (byte : UInt8) (index : Nat) : Prop :=
  byte.toNat.testBit index = true ∧ ∀ lower < index, byte.toNat.testBit lower = false

/-- RAM of the machine itself, which is always mapped. -/
def Region.isBuiltIn : Region → Bool
  | .workRam0 | .workRamN | .echo | .highRam => true
  | _ => false

theorem Region.isMemory_of_isBuiltIn {region : Region} (builtIn : region.isBuiltIn = true) :
    region.isMemory = true := by
  cases region <;> first | rfl | cases builtIn

/-- The pending line of highest priority is that of the lowest bit. -/
theorem Interrupt.highestPriority_of_pending {enable request : UInt8}
    (pending : enable &&& request &&& 0x1F ≠ 0) :
    ∃ line, highestPriority enable request = some line ∧
      IsLowestBit (enable &&& request &&& 0x1F) line.index := by
  have all (byte : UInt8) : byte &&& 0x1F ≠ 0 →
      ∃ line ∈ Interrupt.all, (Lines.ofByte byte).first? = some line ∧
        (byte &&& 0x1F).toNat.testBit line.index = true ∧
        ∀ lower < line.index, (byte &&& 0x1F).toNat.testBit lower = false :=
    forall_byte byte (by decide +kernel)
  obtain ⟨line, _, first, lowest⟩ := all _ pending
  exact ⟨line, first, lowest⟩

namespace Cpu

variable {β : Type} [Bus β]

theorem write_of_bus {address : UInt16} {value : UInt8} {system : System β} {after : β}
    (ran : Bus.write address value system.bus = .ok () after) :
    write address value system = .ok () ⟨system.cpu, after⟩ :=
  access_ok.mpr ⟨ran, rfl⟩

theorem push_of_writes {word : UInt16} {system : System β} {first second : β}
    (high : Bus.write (system.cpu.regs.sp - 1) (Word.high word) system.bus = .ok () first)
    (low : Bus.write (system.cpu.regs.sp - 2) (Word.low word) first = .ok () second) :
    push word system = .ok () ⟨system.cpu.withStack (system.cpu.regs.sp - 2), second⟩ := by
  have lowered : system.cpu.regs.sp - 1 - 1 = system.cpu.regs.sp - 2 := by grind
  rw [← lowered] at low ⊢
  let regs := system.cpu.regs
  have writesHigh : write (regs.sp - 1) (Word.high word)
      ⟨system.cpu.withStack (regs.sp - 1), system.bus⟩ =
      .ok () ⟨system.cpu.withStack (regs.sp - 1), first⟩ := write_of_bus high
  have writesLow : write (regs.sp - 1 - 1) (Word.low word)
      ⟨system.cpu.withStack (regs.sp - 1 - 1), first⟩ =
      .ok () ⟨system.cpu.withStack (regs.sp - 1 - 1), second⟩ := write_of_bus low
  exact (bind_of_ok writesHigh _).trans writesLow

/-- A dispatch whose writes succeed diverts the processor and reports so. -/
theorem dispatch_of_writes {line : Interrupt} {request : UInt8} {system : System β}
    {first second third : β}
    (high : Bus.write (system.cpu.regs.sp - 1) (Word.high system.cpu.regs.pc) system.bus =
      .ok () first)
    (low : Bus.write (system.cpu.regs.sp - 2) (Word.low system.cpu.regs.pc) first = .ok () second)
    (clears : Bus.write Interrupt.requestAddress (request &&& ~~~line.mask) second =
      .ok () third) :
    dispatch line request system =
      .ok () ⟨system.cpu.divert line,
        Bus.report (.interruptServiced line system.cpu.regs.pc) third⟩ := by
  have pushes : push system.cpu.regs.pc ⟨system.cpu.setIme false, system.bus⟩ =
      .ok () ⟨(system.cpu.setIme false).withStack (system.cpu.regs.sp - 2), second⟩ :=
    push_of_writes high low
  have writes : write Interrupt.requestAddress (request &&& ~~~line.mask)
      ⟨(system.cpu.setIme false).withStack (system.cpu.regs.sp - 2), second⟩ =
      .ok () ⟨(system.cpu.setIme false).withStack (system.cpu.regs.sp - 2), third⟩ :=
    write_of_bus clears
  exact (bind_of_ok pushes _).trans (bind_of_ok writes _)

/-- The processor where it returns to. -/
def returned (cpu : Cpu) (pc : UInt16) : Cpu :=
  { cpu with regs := { cpu.regs with pc, sp := cpu.regs.sp + 2 } }

/-- The processor back from a handler, with interrupts enabled. -/
def comeBack (cpu : Cpu) (pc : UInt16) : Cpu :=
  { (cpu.returned pc).setIme true with haltBug := false }

theorem setIme_returned_advance (cpu : Cpu) (pc : UInt16) :
    (cpu.advance.returned pc).setIme true = cpu.comeBack pc := by
  cases armed : cpu.haltBug <;> simp [advance, armed, comeBack, returned, setIme]

theorem ret_of_readWord {system : System β} {word : UInt16} {popped : β}
    (found : Bus.readWord system.cpu.regs.sp system.bus = .ok word popped) :
    ret system = .ok () ⟨system.cpu.returned word, popped⟩ := by
  have reads : access (Bus.readWord system.cpu.regs.sp) system = .ok word ⟨system.cpu, popped⟩ :=
    access_ok.mpr ⟨found, rfl⟩
  have pops : pop system =
      .ok word ⟨system.cpu.withStack (system.cpu.regs.sp + 2), popped⟩ := bind_of_ok reads _
  exact bind_of_ok pops _

/-- A RETI that finds its return address goes there and enables interrupts at once. -/
theorem execute_reti {system : System β} {word : UInt16} {fetched popped : β}
    (unlocked : system.cpu.locked = none)
    (opcode : Bus.read system.cpu.regs.pc system.bus = .ok 0xD9 fetched)
    (returns : Bus.readWord system.cpu.regs.sp fetched = .ok word popped) :
    execute system =
      .ok (.execution 0xD9 16 (Bus.takeStall popped).1)
        ⟨system.cpu.comeBack word, (Bus.takeStall popped).2⟩ := by
  let opened : System β := ⟨system.cpu.advance, fetched⟩
  have kept : opened.cpu.regs.sp = system.cpu.regs.sp := by
    simp only [opened, advance]
    split <;> rfl
  have opens : fetchSlot system = .ok 0xD9 opened := fetchSlot_of_read opcode (by decide)
  have operand : fetchImmediate (Instruction.ofSlot 0xD9).immediate opened = .ok 0 opened := rfl
  have returns : ret opened = .ok () ⟨opened.cpu.returned word, popped⟩ :=
    ret_of_readWord (kept ▸ returns)
  have acts : perform (Instruction.ofSlot 0xD9) 0xD9 system.cpu.regs.pc 0
      ((Instruction.ofSlot 0xD9).taken opened.cpu.regs.flags) opened =
      .ok () ⟨(opened.cpu.returned word).setIme true, popped⟩ := bind_of_ok returns _
  rw [execute_of_fetched unlocked opens operand, ← setIme_returned_advance]
  exact conclude_of_perform acts

end Cpu

/-! ## The stack -/

namespace Board

/-- The board after a word has been pushed below `sp`. -/
def pushed (board : Board) (sp word : UInt16) : Board :=
  (board.store (sp - 1) (Word.high word)).store (sp - 2) (Word.low word)

variable {board : Board} {address sp : UInt16}

theorem store_of_builtIn (builtIn : (Region.of address).isBuiltIn = true) (board : Board)
    (value : UInt8) : ∃ workRam highRam,
      board.store address value = { board with workRam, highRam } := by
  rw [store]
  cases region : Region.of address <;> rw [region] at builtIn <;>
    first | exact ⟨_, _, rfl⟩ | cases builtIn

theorem isMapped_of_builtIn (builtIn : (Region.of address).isBuiltIn = true) (board : Board) :
    board.isMapped address = true := by
  rw [isMapped]
  cases region : Region.of address <;> rw [region] at builtIn <;> first | rfl | cases builtIn

theorem peek_store_builtIn (builtIn : (Region.of address).isBuiltIn = true) (board : Board)
    (value : UInt8) (other : UInt16) :
    (board.store address value).peek other =
      if SameCell address other then .ok value else board.peek other := by
  rw [peek_store (Region.isMemory_of_isBuiltIn builtIn), isMapped_of_builtIn builtIn]
  simp only [true_and]

theorem not_sameCell_stack (sp : UInt16) : ¬SameCell (sp - 2) (sp - 1) := by
  have next : sp - 1 = sp - 2 + 1 := by grind
  rw [next]
  exact not_sameCell_succ _

variable (high : (Region.of (sp - 1)).isBuiltIn = true)
  (low : (Region.of (sp - 2)).isBuiltIn = true)

include high low

theorem pushed_eq (board : Board) (word : UInt16) : ∃ workRam highRam,
    board.pushed sp word = { board with workRam, highRam } := by
  obtain ⟨_, _, first⟩ := store_of_builtIn high board (Word.high word)
  rw [pushed, first]
  exact store_of_builtIn low _ _

theorem peek_pushed_high (board : Board) (word : UInt16) :
    (board.pushed sp word).peek (sp - 1) = .ok (Word.high word) := by
  rw [pushed, peek_store_builtIn low, if_neg (not_sameCell_stack sp), peek_store_builtIn high,
    if_pos (.inl rfl)]

omit high in
theorem peek_pushed_low (board : Board) (word : UInt16) :
    (board.pushed sp word).peek (sp - 2) = .ok (Word.low word) := by
  rw [pushed, peek_store_builtIn low, if_pos (.inl rfl)]

theorem peek_pushed_of_not_sameCell (apartHigh : ¬SameCell (sp - 1) address)
    (apartLow : ¬SameCell (sp - 2) address) (board : Board) (word : UInt16) :
    (board.pushed sp word).peek address = board.peek address := by
  rw [pushed, peek_store_builtIn low, if_neg apartLow, peek_store_builtIn high, if_neg apartHigh]

omit high low

/-- A settled board clears the request of a line and nothing else. -/
theorem store_clear (settled : board.raised = {}) (line : Interrupt) :
    board.store Interrupt.requestAddress (board.requestByte &&& ~~~line.mask) =
      { board with requests := board.requests.without line } := by
  have cleared := Interrupt.Lines.ofByte_clear board.requests line
  have quiet : { board with requests := board.requests.without line }.raised = {} := settled
  rw [← collect_of_settled quiet, ← cleared]
  rfl

theorem requestByte_without (board : Board) (line : Interrupt) :
    0xE0 ||| (board.requests.without line).toByte = board.requestByte &&& ~~~line.mask := by
  rw [requestByte]
  rcases board.requests with ⟨_ | _, _ | _, _ | _, _ | _, _ | _⟩ <;> cases line <;> rfl

theorem enables_collect (board : Board) : board.collect.enables = board.enables := by
  obtain ⟨_, _, collected⟩ := board.collect_eq
  rw [collected]

/-- The board after the dispatch of a line. -/
def served (board : Board) (line : Interrupt) (sp pc : UInt16) : Board :=
  { board.pushed sp pc with requests := board.requests.without line }.record
    (.interruptServiced line pc)

theorem peek_served (other : address ≠ Interrupt.requestAddress) (board : Board)
    (line : Interrupt) (sp pc : UInt16) :
    (board.served line sp pc).peek address = (board.pushed sp pc).peek address := by
  rw [peek, peek]
  cases Region.of address with
  | io =>
      simp only [portByte]
      cases port : Port.of address with
      | interruptRequest => exact absurd ((Port.address_eq address).1 port) other
      | _ => rfl
  | _ => rfl

include high low

theorem write_clear (settled : board.raised = {}) (line : Interrupt) (word : UInt16) :
    Bus.write Interrupt.requestAddress (board.requestByte &&& ~~~line.mask)
        (board.pushed sp word) =
      .ok () { board.pushed sp word with requests := board.requests.without line } := by
  obtain ⟨workRam, highRam, stacked⟩ := pushed_eq high low board word
  have quiet : { board with workRam, highRam }.raised = {} := settled
  have stored := store_clear quiet line
  rw [stacked]
  exact congrArg (EStateM.Result.ok ()) stored

end Board

namespace Machine

/-- The machine has dispatched an interrupt line and done nothing else. -/
structure Dispatched (before after : Machine) (line : Interrupt) : Prop where
  cpu : after.cpu =
    { before.cpu with
      regs :=
        { before.cpu.regs with
          pc := 0x40 + 8 * UInt16.ofNat line.index
          sp := before.cpu.regs.sp - 2
          ime := false, halted := false }
      eiPending := false, eiDelay := false }
  high : after.bus.peek (before.cpu.regs.sp - 1) = .ok (Word.high before.cpu.regs.pc)
  low : after.bus.peek (before.cpu.regs.sp - 2) = .ok (Word.low before.cpu.regs.pc)
  /-- The bit of the line is removed from the request register, and only that. -/
  request : after.bus.peek 0xFF0F = .ok (before.bus.requestByte &&& ~~~line.mask)
  elsewhere : ∀ address, address ≠ 0xFF0F → ¬SameCell (before.cpu.regs.sp - 1) address →
    ¬SameCell (before.cpu.regs.sp - 2) address →
    after.bus.peek address = before.bus.peek address
  bus : ∃ workRam highRam sink, after.bus =
    { before.bus with
      workRam, highRam, sink, requests := before.bus.requests.without line }

variable {machine : Machine} {line : Interrupt}

theorem dispatched_served (going : machine.cpu.regs.stopped = false)
    (high : (Region.of (machine.cpu.regs.sp - 1)).isBuiltIn = true)
    (low : (Region.of (machine.cpu.regs.sp - 2)).isBuiltIn = true) (line : Interrupt) :
    Dispatched machine ⟨machine.cpu.rouse.divert line,
      machine.bus.served line machine.cpu.regs.sp machine.cpu.regs.pc⟩ line := by
  have outside {address : UInt16} (builtIn : (Region.of address).isBuiltIn = true) :
      address ≠ Interrupt.requestAddress := by
    rintro rfl
    cases builtIn
  refine ⟨?_, ?_, ?_, ?_, fun address other apartHigh apartLow => ?_, ?_⟩
  · simp only [Cpu.rouse, Cpu.divert, Cpu.setIme, Cpu.withStack, going]
    rfl
  · rw [Board.peek_served (outside high), Board.peek_pushed_high high low]
  · rw [Board.peek_served (outside low), Board.peek_pushed_low low]
  · exact congrArg Except.ok (machine.bus.requestByte_without line)
  · rw [Board.peek_served other, Board.peek_pushed_of_not_sameCell high low apartHigh apartLow]
  · obtain ⟨workRam, highRam, stacked⟩ :=
      Board.pushed_eq high low machine.bus machine.cpu.regs.pc
    let event := Event.interruptServiced line machine.cpu.regs.pc
    refine ⟨workRam, highRam, machine.bus.sink.record event, ?_⟩
    simp only [Board.served, stacked]
    rfl

/-- A processor that takes interrupts and has its stack in built-in RAM dispatches the line. -/
theorem step_of_pending (settled : machine.bus.raised = {})
    (unlocked : machine.cpu.locked = none) (going : machine.cpu.regs.stopped = false)
    (enabled : machine.cpu.regs.ime = true)
    (first : Interrupt.highestPriority machine.bus.enables machine.bus.requestByte = some line)
    (high : (Region.of (machine.cpu.regs.sp - 1)).isBuiltIn = true)
    (low : (Region.of (machine.cpu.regs.sp - 2)).isBuiltIn = true) :
    ∃ after, Cpu.step machine = .ok (.interrupt line) after ∧ Dispatched machine after line := by
  have planned : machine.plan = .serve line := by
    rw [plan, waitsForButton, going, Bool.false_and, if_neg Bool.false_ne_true, Cpu.plan, first]
    exact if_pos enabled
  have dispatched : Cpu.dispatch line machine.bus.requestByte ⟨machine.cpu.rouse, machine.bus⟩ =
      .ok () ⟨machine.cpu.rouse.divert line,
        machine.bus.served line machine.cpu.regs.sp machine.cpu.regs.pc⟩ :=
    Cpu.dispatch_of_writes
      (Board.write_of_memory (Region.isMemory_of_isBuiltIn high) machine.bus _)
      (Board.write_of_memory (Region.isMemory_of_isBuiltIn low) _ _)
      (Board.write_clear high low settled line machine.cpu.regs.pc)
  exact ⟨_, (step_of_serve unlocked planned).trans (bind_of_ok dispatched _),
    dispatched_served going high low line⟩

/-- The lines that are both enabled and requested, as a byte. -/
def pendingByte (machine : Machine) : UInt8 :=
  machine.bus.enables &&& machine.bus.requestByte &&& 0x1F

/-- A RETI whose return address is still on the stack goes back there. -/
theorem step_of_reti {σ : Type} (render : Renderer σ) {later : Machine} (screen : σ) {pc : UInt16}
    (returns : Executes later 0xD9)
    (high : later.bus.peek (later.cpu.regs.sp + 1) = .ok (Word.high pc))
    (low : later.bus.peek later.cpu.regs.sp = .ok (Word.low pc)) :
    Session.step render ⟨later, screen⟩ =
      let ticked := { later.bus with stall := 0 }.tick render (16 + later.bus.stall) screen
      .ok (.execution 0xD9 16 later.bus.stall)
        ⟨⟨later.cpu.rouse.comeBack pc, ticked.1⟩, ticked.2⟩ := by
  obtain ⟨unlocked, opcode, executes⟩ := returns
  have word : Bus.readWord later.cpu.regs.sp later.bus = .ok pc later.bus := by
    rw [Bus.readWord, bind_of_ok (Board.read_of_peek low), bind_of_ok (Board.read_of_peek high),
      Word.ofBytes_high_low]
    rfl
  have ran : Cpu.step (⟨later, screen⟩ : Session σ).machine =
      .ok (.execution 0xD9 16 later.bus.stall)
        ⟨later.cpu.rouse.comeBack pc, { later.bus with stall := 0 }⟩ :=
    executes.trans (Cpu.execute_reti unlocked (Board.read_of_peek opcode) word)
  exact Session.step_of_ok ran

/-- Time disables no line and takes no request back. -/
theorem testBit_pendingByte_tick {σ : Type} (render : Renderer σ) (cycles : Nat) (screen : σ)
    (machine : Machine) (cpu : Cpu) {index : Nat}
    (pending : machine.pendingByte.toNat.testBit index = true) :
    (pendingByte ⟨cpu, (machine.bus.tick render cycles screen).1⟩).toNat.testBit index = true := by
  have enables : (machine.bus.tick render cycles screen).1.enables = machine.bus.enables :=
    Board.enables_collect _
  obtain ⟨raised, requests⟩ : ∃ raised, (machine.bus.tick render cycles screen).1.requests =
      machine.bus.requests.union raised := ⟨_, Board.requests_collect _⟩
  simp only [pendingByte, Board.requestByte, enables, requests, Interrupt.Lines.toByte_union,
    UInt8.toNat_and, UInt8.toNat_or, Nat.testBit_and, Nat.testBit_or, Bool.and_eq_true,
    Bool.or_eq_true] at pending ⊢
  obtain ⟨⟨enabled, requested⟩, within⟩ := pending
  exact ⟨⟨enabled, requested.imp id .inl⟩, within⟩

theorem pendingByte_ne_zero {machine : Machine} {index : Nat}
    (pending : machine.pendingByte.toNat.testBit index = true) : machine.pendingByte ≠ 0 := by
  intro none
  rw [none] at pending
  simp at pending

end Machine

open Machine

/-- With its stack in built-in RAM a reachable machine that takes interrupts dispatches the pending
line of the lowest bit, and changes nothing but what belongs to the dispatch.  Whenever a RETI later
finds the stack pointer and the return address as the dispatch has left them, it restores PC and SP
and enables interrupts at once.  A line that is pending then leads to a dispatch in the very next
step, of that line or of one with higher priority, and with the same return address. -/
theorem dispatch_and_return {machine : Machine} (reach : machine.Reachable)
    (unlocked : machine.cpu.locked = none) (going : machine.cpu.regs.stopped = false)
    (enabled : machine.cpu.regs.ime = true) (pending : machine.pendingByte ≠ 0)
    (high : (Region.of (machine.cpu.regs.sp - 1)).isBuiltIn = true)
    (low : (Region.of (machine.cpu.regs.sp - 2)).isBuiltIn = true) :
    ∃ line after,
      Cpu.step machine = .ok (.interrupt line) after ∧
      (Quantum.interrupt line).cycles = 20 ∧
      IsLowestBit machine.pendingByte line.index ∧
      Dispatched machine after line ∧
      ∀ {σ : Type} (render : Renderer σ) (later : Machine) (screen : σ),
        Executes later 0xD9 →
        later.cpu.regs.sp = machine.cpu.regs.sp - 2 →
        later.bus.peek (machine.cpu.regs.sp - 1) = .ok (Word.high machine.cpu.regs.pc) →
        later.bus.peek (machine.cpu.regs.sp - 2) = .ok (Word.low machine.cpu.regs.pc) →
        ∃ next drawn,
          Session.step render ⟨later, screen⟩ =
            .ok (.execution 0xD9 16 later.bus.stall) ⟨next, drawn⟩ ∧
          next.cpu =
            { later.cpu with
              regs :=
                { later.cpu.regs with
                  pc := machine.cpu.regs.pc, sp := machine.cpu.regs.sp
                  ime := true, halted := false, stopped := false }
              eiPending := false, eiDelay := false, haltBug := false } ∧
          ∀ other : Interrupt, later.pendingByte.toNat.testBit other.index = true →
            ∃ served last,
              Cpu.step next = .ok (.interrupt served) last ∧
              IsLowestBit next.pendingByte served.index ∧ served.index ≤ other.index ∧
              Dispatched next last served := by
  obtain ⟨line, first, lowest⟩ := Interrupt.highestPriority_of_pending pending
  obtain ⟨after, ran, dispatched⟩ :=
    step_of_pending reach.settled unlocked going enabled first high low
  refine ⟨line, after, ran, rfl, lowest, dispatched, ?_⟩
  intro σ render later screen returns lowered highKept lowKept
  have above : later.cpu.regs.sp + 1 = machine.cpu.regs.sp - 1 := by
    rw [lowered]
    grind
  have raised : later.cpu.regs.sp + 2 = machine.cpu.regs.sp := by
    rw [lowered]
    grind
  have back := step_of_reti render screen returns (above ▸ highKept) (lowered ▸ lowKept)
  let next : Machine :=
    ⟨later.cpu.rouse.comeBack machine.cpu.regs.pc,
      ({ later.bus with stall := 0 }.tick render (16 + later.bus.stall) screen).1⟩
  have restored : next.cpu.regs.sp = machine.cpu.regs.sp := raised
  refine ⟨next, _, back, ?_, fun other waiting => ?_⟩
  · rw [← raised]
    rfl
  · have still : next.pendingByte.toNat.testBit other.index = true :=
      testBit_pendingByte_tick render (16 + later.bus.stall) screen
        ⟨later.cpu, { later.bus with stall := 0 }⟩ next.cpu waiting
    obtain ⟨served, next_first, least⟩ :=
      Interrupt.highestPriority_of_pending (pendingByte_ne_zero still)
    have settled : next.bus.raised = {} := Board.raised_tick _ _ _ _
    have free : next.cpu.locked = none := returns.1
    obtain ⟨last, stepped, again⟩ := step_of_pending settled free rfl rfl next_first
      (restored ▸ high) (restored ▸ low)
    refine ⟨served, last, stepped, least, ?_, again⟩
    by_contra later
    exact absurd (still.symm.trans (least.2 _ (Nat.lt_of_not_le later))) (by decide)

/-- A machine with its stack in work RAM that enables and requests VBLANK and TIMER and goes on at
C200: LD SP,C100; LD A,5; LDH (IF),A; LDH (IE),A; EI; JP C200.  The first handler is RETI. -/
def twoRequests : Machine :=
  Machine.ofProgram
    ([0x31, 0x00, 0xC1, 0x3E, 0x05, 0xE0, 0x0F, 0xE0, 0xFF, 0xFB, 0xC3, 0x00, 0xC2] ++
      List.replicate 51 0x00 ++ [0xD9])

theorem dispatch_and_return_twoRequests :
    ∃ line after, Cpu.step (twoRequests.afterSteps 6) = .ok (.interrupt line) after ∧
      Dispatched (twoRequests.afterSteps 6) after line ∧
      ∃ next drawn,
        Session.step Renderer.null ⟨twoRequests.afterSteps 7, ()⟩ =
          .ok (.execution 0xD9 16 0) ⟨next, drawn⟩ ∧
        next.cpu.regs.pc = 0xC200 ∧ next.cpu.regs.sp = 0xC100 ∧
        ∃ served last, Cpu.step next = .ok (.interrupt served) last ∧
          Dispatched next last served := by
  have reach : (twoRequests.afterSteps 6).Reachable := .afterSteps (.boot _ _ _) 6
  have unlocked : (twoRequests.afterSteps 7).cpu.locked = none := by decide +kernel
  have planned : (twoRequests.afterSteps 7).plan = .run := by decide +kernel
  have opcode : (twoRequests.afterSteps 7).bus.peek (twoRequests.afterSteps 7).cpu.regs.pc =
    .ok 0xD9 := by decide +kernel
  obtain ⟨line, after, ran, _, _, dispatched, returns⟩ :=
    dispatch_and_return reach (by decide +kernel) (by decide +kernel) (by decide +kernel)
      (by decide +kernel) (by decide +kernel) (by decide +kernel)
  obtain ⟨next, drawn, back, cpu, again⟩ :=
    returns Renderer.null (twoRequests.afterSteps 7) ()
      ⟨unlocked, opcode, step_of_run unlocked planned⟩ (by decide +kernel) (by decide +kernel)
      (by decide +kernel)
  have unstalled : (twoRequests.afterSteps 7).bus.stall = 0 := by decide +kernel
  rw [unstalled] at back
  obtain ⟨served, last, stepped, _, _, second⟩ := again .timer (by decide +kernel)
  refine ⟨line, after, ran, dispatched, next, drawn, back, ?_, ?_, served, last, stepped, second⟩
  · rw [cpu]
    decide +kernel
  · rw [cpu]
    decide +kernel

end GameBoy
