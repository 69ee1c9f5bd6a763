import GameBoy.Proofs.Stack

/-!
# Nested calls

Instructions that use the stack on flat memory that refuses nothing.  Calls of which each leads to
the next are followed by as many returns, and a pair that is pushed is popped again.  What carries
the induction is that the calls within a call leave everything above their own stack alone.
-/

namespace GameBoy

open Effect Exec

/-! ## Calls and returns -/

/-- The processor is about to fetch at an address, perhaps with the halt bug, and has its stack at
another one. -/
structure Cpu.Ready (cpu : Cpu) (pc : UInt16) (armed : Bool) (sp : UInt16) (flags : Flags) :
    Prop where
  pc : cpu.regs.pc = pc
  armed : cpu.haltBug = armed
  sp : cpu.regs.sp = sp
  flags : cpu.regs.flags = flags
  unlocked : cpu.locked = none

namespace Cpu.Ready

variable {cpu : Cpu} {pc sp : UInt16} {armed : Bool} {flags : Flags}
  (ready : cpu.Ready pc armed sp flags)

include ready

theorem settleEI : cpu.settleEI.Ready pc armed sp flags := by
  obtain ⟨_, _, _, settled⟩ := cpu.settleEI_eq
  rw [settled]
  exact ⟨ready.pc, ready.armed, ready.sp, ready.flags, ready.unlocked⟩

/-- The processor once an instruction has been fetched. -/
theorem fetched (count : Nat) :
    (cpu.fetched (count + 1)).Ready (stream pc armed (count + 1)) false sp flags := by
  obtain ⟨rfl, rfl, rfl, rfl, unlocked⟩ := ready
  exact ⟨rfl, by simp [Cpu.fetched], rfl, rfl, unlocked⟩

theorem advance : cpu.advance.Ready (stream pc armed 1) false sp flags :=
  cpu.fetched_one ▸ ready.fetched 0

end Cpu.Ready

namespace Exec

variable {bus : FlatBus}

theorem fetch_flat (cpu : Cpu) (opened : bus.Open) {value : UInt8}
    (held : bus.peek cpu.regs.pc = value) :
    ∃ after : FlatBus, fetch ⟨cpu, bus⟩ = .ok value ⟨cpu.advance, after⟩ ∧
      FlatBus.Unchanged bus after := by
  obtain ⟨after, found, unchanged⟩ := FlatBus.read_of_peek opened held
  exact ⟨after, fetch_of_read found, unchanged⟩

theorem fetchImmediate_flat (cpu : Cpu) (opened : bus.Open) (word : UInt16)
    (low : bus.peek cpu.regs.pc = Word.low word)
    (high : bus.peek cpu.advance.regs.pc = Word.high word) :
    ∃ after : FlatBus,
      fetchImmediate .unsigned16 ⟨cpu, bus⟩ = .ok word ⟨cpu.advance.advance, after⟩ ∧
        FlatBus.Unchanged bus after := by
  obtain ⟨between, first, early⟩ := fetch_flat cpu opened low
  obtain ⟨after, second, late⟩ :=
    fetch_flat cpu.advance early.opened ((early.memory _).trans high)
  refine ⟨after, ?_, early.trans late⟩
  rw [fetchImmediate, bind_of_ok first, bind_of_ok second, Word.ofBytes_high_low]
  rfl

theorem call_flat (cpu : Cpu) (opened : bus.Open) (target : UInt16) :
    ∃ after : FlatBus,
      call target ⟨cpu, bus⟩ =
        .ok () ⟨{ cpu with regs := { cpu.regs with sp := cpu.regs.sp - 2, pc := target } },
          after⟩ ∧
        FlatBus.Stacked cpu.regs.sp cpu.regs.pc bus after := by
  obtain ⟨after, pushes, stacked⟩ := push_flat cpu opened cpu.regs.pc
  refine ⟨after, ?_, stacked⟩
  rw [call, bind_of_ok (registers_apply _), bind_of_ok pushes]
  rfl

theorem ret_flat (cpu : Cpu) (opened : bus.Open) (word : UInt16)
    (high : bus.peek (cpu.regs.sp + 1) = Word.high word)
    (low : bus.peek cpu.regs.sp = Word.low word) :
    ∃ after : FlatBus,
      ret ⟨cpu, bus⟩ =
        .ok () ⟨{ cpu with regs := { cpu.regs with sp := cpu.regs.sp + 2, pc := word } }, after⟩ ∧
        FlatBus.Unchanged bus after := by
  obtain ⟨after, pops, unchanged⟩ := pop_flat cpu opened word high low
  refine ⟨after, ?_, unchanged⟩
  rw [ret, bind_of_ok pops]
  rfl

end Exec

/-- A call as it lies in memory. -/
structure Call where
  opcode : UInt8
  /-- The target, unless the opcode names it. -/
  immediate : UInt16
deriving DecidableEq

namespace Call

def instruction (call : Call) : Instruction :=
  Instruction.ofSlot call.opcode.toUInt16

def bytes (call : Call) : List UInt8 :=
  call.opcode :: Instruction.immediateBytes call.instruction.immediate call.immediate

/-- Where the call leads. -/
def target (call : Call) : UInt16 :=
  match call.instruction with
  | .rst target => UInt16.ofNat (8 * target.val)
  | _ => call.immediate

/-- The opcode is one of CALL and RST, and its condition is met. -/
def isTaken (call : Call) (flags : Flags) : Bool :=
  match call.instruction with
  | .call _ | .rst _ => call.instruction.taken flags
  | _ => false

end Call

/-- The opcode is one of RET, and its condition is met. -/
def isReturn (opcode : UInt8) (flags : Flags) : Bool :=
  match Instruction.ofSlot opcode.toUInt16 with
  | .ret condition => (Instruction.ret condition).taken flags
  | _ => false

namespace Cpu

variable {system : System FlatBus}

variable {pc sp : UInt16} {armed : Bool} {flags : Flags}

/-- An instruction of a single byte is fetched and acts. -/
theorem conclude_of_code {opcode : UInt8} {instruction : Instruction}
    (ready : system.cpu.Ready pc armed sp flags) (opened : system.bus.Open)
    (code : system.bus.peek pc = opcode)
    (decoded : Instruction.ofSlot opcode.toUInt16 = instruction)
    (short : instruction.immediate = .none) (plain : opcode ≠ Opcode.escape) :
    ∃ fetched : FlatBus, FlatBus.Unchanged system.bus fetched ∧
      execute system = conclude opcode.toUInt16 pc 0 ⟨system.cpu.advance, fetched⟩ := by
  obtain ⟨fetched, reads, unchanged⟩ :=
    FlatBus.read_of_peek opened ((congrArg system.bus.peek ready.pc).trans code)
  have operand : fetchImmediate (Instruction.ofSlot opcode.toUInt16).immediate
      ⟨system.cpu.advance, fetched⟩ = .ok 0 ⟨system.cpu.advance, fetched⟩ := by
    rw [decoded, short]
    rfl
  refine ⟨fetched, unchanged, ?_⟩
  rw [← ready.pc]
  exact execute_of_fetched ready.unlocked (fetchSlot_of_read reads plain) operand

/-- An instruction that has been fetched and acts as a call. -/
theorem enters_of_begun {begun : System FlatBus} {slot start immediate target : UInt16}
    (executes : execute system = conclude slot start immediate begun)
    (acts : perform (Instruction.ofSlot slot) slot start immediate
      ((Instruction.ofSlot slot).taken begun.cpu.regs.flags) begun = call target begun)
    (unchanged : FlatBus.Unchanged system.bus begun.bus)
    (ready : begun.cpu.Ready pc armed sp flags) :
    ∃ quantum after, execute system = .ok quantum after ∧
      after.cpu.Ready target armed (sp - 2) flags ∧
      FlatBus.Stacked sp pc system.bus after.bus := by
  obtain ⟨rfl, rfl, rfl, rfl, unlocked⟩ := ready
  obtain ⟨bus, calls, stacked⟩ := call_flat begun.cpu unchanged.opened target
  exact ⟨_, _, executes.trans (conclude_of_perform (acts.trans calls)),
    Ready.settleEI ⟨rfl, rfl, rfl, rfl, unlocked⟩, stacked.settle unchanged⟩

theorem execute_call {call : Call} (ready : system.cpu.Ready pc armed sp flags)
    (opened : system.bus.Open)
    (code : ∀ index (inside : index < call.bytes.length),
      system.bus.peek (stream pc armed index) = call.bytes[index])
    (taken : call.isTaken flags = true) :
    ∃ quantum after, execute system = .ok quantum after ∧
      after.cpu.Ready call.target false (sp - 2) flags ∧
      FlatBus.Stacked sp (stream pc armed call.bytes.length) system.bus after.bus := by
  have plain : call.opcode ≠ Opcode.escape := by
    intro escape
    have illegal : call.instruction = .escape := by
      rw [Call.instruction, escape]
      rfl
    simp [Call.isTaken, illegal] at taken
  have first : system.bus.peek pc = call.opcode := by
    simpa [Call.bytes, stream_zero] using code 0 (by simp [Call.bytes])
  have decoded : Instruction.ofSlot call.opcode.toUInt16 = call.instruction := rfl
  cases instruction : call.instruction with
  | rst target =>
      rw [instruction] at decoded
      obtain ⟨fetched, unchanged, executes⟩ :=
        conclude_of_code ready opened first decoded rfl plain
      have leads : call.target = UInt16.ofNat (8 * target.val) := by
        rw [Call.target, instruction]
      have length : call.bytes.length = 1 := by
        rw [Call.bytes, instruction]
        rfl
      rw [leads, length]
      refine enters_of_begun executes ?_ unchanged ready.advance
      rw [decoded]
      rfl
  | call condition =>
      rw [instruction] at decoded
      obtain ⟨fetched, reads, early⟩ :=
        FlatBus.read_of_peek opened ((congrArg system.bus.peek ready.pc).trans first)
      have opcode := fetchSlot_of_read reads plain
      have bytes :
          call.bytes = [call.opcode, Word.low call.immediate, Word.high call.immediate] := by
        rw [Call.bytes, instruction]
        rfl
      have low : system.bus.peek system.cpu.advance.regs.pc = Word.low call.immediate := by
        rw [ready.advance.pc, code 1 (by simp [bytes])]
        simp [bytes]
      have high : system.bus.peek system.cpu.advance.advance.regs.pc =
          Word.high call.immediate := by
        rw [← fetched_one, fetched_advance, (ready.fetched 1).pc, code 2 (by simp [bytes])]
        simp [bytes]
      obtain ⟨last, loads, late⟩ := fetchImmediate_flat system.cpu.advance early.opened
        call.immediate ((early.memory _).trans low) ((early.memory _).trans high)
      have operand : fetchImmediate (Instruction.ofSlot call.opcode.toUInt16).immediate
          ⟨system.cpu.advance, fetched⟩ =
            .ok call.immediate ⟨system.cpu.fetched 3, last⟩ := by
        rw [decoded, ← advance_fetched, ← advance_fetched, fetched_one]
        exact loads
      have executes := execute_of_fetched ready.unlocked opcode operand
      have leads : call.target = call.immediate := by rw [Call.target, instruction]
      have behind := ready.fetched 2
      have goes : (Instruction.call condition).taken (system.cpu.fetched 3).regs.flags = true := by
        rw [behind.flags]
        simpa [Call.isTaken, instruction] using taken
      rw [leads, bytes]
      refine enters_of_begun executes ?_ (early.trans late) behind
      simp only [decoded, goes]
      rfl
  | _ => simp [Call.isTaken, instruction] at taken

theorem execute_ret {word : UInt16} {opcode : UInt8} (ready : system.cpu.Ready pc armed sp flags)
    (opened : system.bus.Open) (code : system.bus.peek pc = opcode)
    (taken : isReturn opcode flags = true)
    (high : system.bus.peek (sp + 1) = Word.high word)
    (low : system.bus.peek sp = Word.low word) :
    ∃ quantum after, execute system = .ok quantum after ∧
      after.cpu.Ready word false (sp + 2) flags ∧ FlatBus.Unchanged system.bus after.bus := by
  have plain : opcode ≠ Opcode.escape := by
    rintro rfl
    cases taken
  cases decoded : Instruction.ofSlot opcode.toUInt16 with
  | ret condition =>
      obtain ⟨fetched, unchanged, executes⟩ :=
        conclude_of_code ready opened code decoded rfl plain
      have behind := ready.advance
      have goes : (Instruction.ret condition).taken system.cpu.advance.regs.flags = true := by
        rw [behind.flags]
        simpa [isReturn, decoded] using taken
      obtain ⟨bus, returns, late⟩ := ret_flat system.cpu.advance unchanged.opened word
        ((unchanged.memory _).trans (behind.sp ▸ high))
        ((unchanged.memory _).trans (behind.sp ▸ low))
      have performed : perform (Instruction.ofSlot opcode.toUInt16) opcode.toUInt16
          pc 0
          ((Instruction.ofSlot opcode.toUInt16).taken system.cpu.advance.regs.flags)
          ⟨system.cpu.advance, fetched⟩ = ret ⟨system.cpu.advance, fetched⟩ := by
        simp only [decoded, goes]
        rfl
      refine ⟨_, _, executes.trans (conclude_of_perform (performed.trans returns)),
        Ready.settleEI ⟨rfl, behind.armed, ?_, behind.flags, behind.unlocked⟩,
        (unchanged.trans late).takeStall⟩
      exact congrArg (· + 2) behind.sp
  | _ => simp [isReturn, decoded] at taken

/-! ## Register pairs -/

theorem content_advance (cpu : Cpu) (cell : Cell) :
    cpu.advance.regs.content cell = cpu.regs.content cell := by
  rw [advance_eq_skip]
  cases cell <;> rfl

theorem stackPair_advance (cpu : Cpu) (pair : StackPair) :
    cpu.advance.regs.stackPair pair = cpu.regs.stackPair pair := by
  rw [advance_eq_skip]
  cases pair <;> rfl

theorem content_withStack {cell : Cell} (other : cell ≠ .sp) (cpu : Cpu) (sp : UInt16) :
    (cpu.withStack sp).regs.content cell = cpu.regs.content cell := by
  cases cell <;> first | rfl | exact absurd rfl other

/-- A pair that takes over the word of another register file holds what the other one holds. -/
theorem content_pair {pair : StackPair} {cell : Cell} (member : cell ∈ pair.cells)
    (regs others : Registers) :
    (regs.setStackPair pair (others.stackPair pair)).content cell = others.content cell := by
  cases pair <;> cases cell <;>
    first
    | exact absurd member (by decide)
    | simp [Registers.setStackPair, Registers.stackPair, Registers.setBC, Registers.bc,
        Registers.setDE, Registers.de, Registers.setHL, Registers.hl, Registers.setAF,
        Registers.af, Registers.content, Flags.ofByte_toByte]

theorem execute_push {pair : StackPair} {opcode : UInt8}
    (ready : system.cpu.Ready pc armed sp flags) (opened : system.bus.Open)
    (code : system.bus.peek pc = opcode)
    (decoded : Instruction.ofSlot opcode.toUInt16 = .push pair) :
    ∃ quantum after, execute system = .ok quantum after ∧
      after.cpu.Ready (stream pc armed 1) false (sp - 2) flags ∧
      (∀ cell ≠ Cell.sp, after.cpu.regs.content cell = system.cpu.regs.content cell) ∧
      FlatBus.Stacked sp (system.cpu.regs.stackPair pair) system.bus after.bus := by
  have plain : opcode ≠ Opcode.escape := by
    rintro rfl
    cases decoded
  obtain ⟨fetched, unchanged, executes⟩ := conclude_of_code ready opened code decoded rfl plain
  have behind := ready.advance
  obtain ⟨bus, pushes, stacked⟩ := push_flat system.cpu.advance unchanged.opened
    (system.cpu.advance.regs.stackPair pair)
  rw [behind.sp, stackPair_advance] at stacked
  have performed : perform (Instruction.ofSlot opcode.toUInt16) opcode.toUInt16 pc 0
      ((Instruction.ofSlot opcode.toUInt16).taken system.cpu.advance.regs.flags)
      ⟨system.cpu.advance, fetched⟩ =
        push (system.cpu.advance.regs.stackPair pair) ⟨system.cpu.advance, fetched⟩ := by
    rw [decoded]
    rfl
  refine ⟨_, _, executes.trans (conclude_of_perform (performed.trans pushes)), ?_,
    fun cell other => ?_, stacked.settle unchanged⟩
  · refine Ready.settleEI ⟨behind.pc, behind.armed, ?_, behind.flags, behind.unlocked⟩
    exact congrArg (· - 2) behind.sp
  · rw [content_settleEI, ← content_advance system.cpu]
    exact content_withStack other _ _

theorem execute_pop {pair : StackPair} {opcode : UInt8} {regs : Registers}
    (ready : system.cpu.Ready pc armed sp flags) (opened : system.bus.Open)
    (code : system.bus.peek pc = opcode)
    (decoded : Instruction.ofSlot opcode.toUInt16 = .pop pair)
    (high : system.bus.peek (sp + 1) = Word.high (regs.stackPair pair))
    (low : system.bus.peek sp = Word.low (regs.stackPair pair)) :
    ∃ quantum after, execute system = .ok quantum after ∧
      after.cpu.regs.pc = stream pc armed 1 ∧ after.cpu.regs.sp = sp + 2 ∧
      (∀ cell ∈ pair.cells, after.cpu.regs.content cell = regs.content cell) ∧
      (∀ cell ∉ .sp :: pair.cells, after.cpu.regs.content cell = system.cpu.regs.content cell) ∧
      FlatBus.Unchanged system.bus after.bus := by
  have plain : opcode ≠ Opcode.escape := by
    rintro rfl
    cases decoded
  obtain ⟨fetched, unchanged, executes⟩ := conclude_of_code ready opened code decoded rfl plain
  have behind := ready.advance
  obtain ⟨bus, pops, late⟩ := pop_flat system.cpu.advance unchanged.opened (regs.stackPair pair)
    ((unchanged.memory _).trans (behind.sp ▸ high)) ((unchanged.memory _).trans (behind.sp ▸ low))
  let raised := system.cpu.advance.withStack (system.cpu.advance.regs.sp + 2)
  let loaded : Cpu :=
    { raised with regs := raised.regs.setStackPair pair (regs.stackPair pair) }
  have performed : perform (Instruction.ofSlot opcode.toUInt16) opcode.toUInt16 pc 0
      ((Instruction.ofSlot opcode.toUInt16).taken system.cpu.advance.regs.flags)
      ⟨system.cpu.advance, fetched⟩ = .ok () ⟨loaded, bus⟩ := by
    rw [decoded, perform, bind_of_ok pops]
    rfl
  have home : loaded.Ready (stream pc armed 1) false (sp + 2) loaded.regs.flags := by
    have higher : raised.regs.sp = sp + 2 := congrArg (· + 2) behind.sp
    cases pair <;> exact ⟨behind.pc, behind.armed, higher, rfl, behind.unlocked⟩
  refine ⟨_, _, executes.trans (conclude_of_perform performed), home.settleEI.pc,
    home.settleEI.sp, fun cell member => ?_, fun cell outside => ?_,
    (unchanged.trans late).takeStall⟩
  · rw [content_settleEI]
    exact content_pair member _ _
  · obtain ⟨other, outside⟩ := not_or.mp fun either => outside (List.mem_cons.mpr either)
    rw [content_settleEI, ← content_advance system.cpu]
    exact (content_setStackPair outside _ _).trans (content_withStack other _ _)

/-! ## Nested calls -/

/-- Execute an instruction and return where the processor goes on. -/
def goOn {β : Type} [Bus β] : Exec β UInt16 := do
  let _ ← execute
  pure (← registers).pc

theorem goOn_of_execute {quantum : Quantum} {after : System FlatBus}
    (ran : execute system = .ok quantum after) (there : after.cpu.regs.pc = pc) :
    goOn system = .ok pc after := by
  rw [goOn, bind_of_ok ran, bind_of_ok (registers_apply after), there]
  rfl

end Cpu

namespace Call

/-- The return addresses of calls of which each leads to the next, the outermost first. -/
def backs (pc : UInt16) (armed : Bool) : List Call → List UInt16
  | [] => []
  | call :: calls => stream pc armed call.bytes.length :: backs call.target false calls

/-- Calls lie in memory so that each leads to the next and the last to a return, and behind each but
the first another return follows. -/
def Nest (holds : UInt16 → UInt8 → Prop) (flags : Flags) (pc : UInt16) (armed : Bool) :
    List Call → Prop
  | [] => True
  | call :: calls =>
    (∀ index (inside : index < call.bytes.length),
      holds (stream pc armed index) call.bytes[index]) ∧
    call.isTaken flags = true ∧ Nest holds flags call.target false calls ∧
    ∃ opcode, holds ((backs call.target false calls).headD call.target) opcode ∧
      isReturn opcode flags = true

theorem Nest.mono {holds others : UInt16 → UInt8 → Prop} {flags : Flags} {pc : UInt16}
    {armed : Bool} {calls : List Call}
    (weaker : ∀ address byte, holds address byte → others address byte)
    (nest : Nest holds flags pc armed calls) : Nest others flags pc armed calls := by
  induction calls generalizing pc armed with
  | nil => trivial
  | cons call calls ih =>
      obtain ⟨code, taken, inner, opcode, held, returns⟩ := nest
      exact ⟨fun index inside => weaker _ _ (code index inside), taken, ih inner, opcode,
        weaker _ _ held, returns⟩

/-- Calls that are clear of their stack leave room for it. -/
theorem Nest.length_le {holds : UInt16 → UInt8 → Prop} {flags : Flags} {pc sp : UInt16}
    {armed : Bool} {calls : List Call}
    (nest : Nest (fun address byte => holds address byte ∧ ¬Below sp (2 * calls.length) address)
      flags pc armed calls) : calls.length ≤ 32768 := by
  cases calls with
  | nil => exact Nat.zero_le _
  | cons call calls =>
      have clear := (nest.1 0 (Nat.zero_lt_succ _)).2
      rw [Below] at clear
      have bound := UInt16.toNat_lt (sp - 1 - stream pc armed 0)
      omega

end Call

namespace Cpu

/-- Nested calls come back in reverse order. -/
theorem gather_goOn (calls : List Call) {system : System FlatBus} {pc sp : UInt16} {armed : Bool}
    {flags : Flags} (ready : system.cpu.Ready pc armed sp flags) (opened : system.bus.Open)
    (room : calls.length ≤ 32768)
    (nest : Call.Nest (fun address byte => system.bus.peek address = byte ∧
      ¬Below sp (2 * calls.length) address) flags pc armed calls) :
    ∃ after, gather goOn (2 * calls.length) system =
        .ok (calls.map Call.target ++ (Call.backs pc armed calls).reverse) after ∧
      after.cpu.Ready ((Call.backs pc armed calls).headD pc) (armed && calls.isEmpty) sp flags ∧
      FlatBus.Balanced sp calls.length system.bus after.bus := by
  induction calls generalizing system pc sp armed with
  | nil =>
      refine ⟨system, rfl, ?_, .refl opened sp⟩
      simpa [Call.backs] using ready
  | cons call calls ih =>
      rw [List.length_cons] at room nest
      obtain ⟨code, taken, inner, opcode, ⟨held, clear⟩, returns⟩ := nest
      obtain ⟨_, called, calls_ran, there, stacked⟩ :=
        execute_call ready opened (fun index inside => (code index inside).1) taken
      have deeper : calls.length ≤ 32768 := by omega
      have below : Call.Nest (fun address byte => called.bus.peek address = byte ∧
          ¬Below (sp - 2) (2 * calls.length) address) flags call.target false calls := by
        refine inner.mono fun address byte held => ⟨?_, fun below => held.2 below.of_pushed⟩
        rw [stacked.memory address fun below => held.2 below.of_two, held.1]
      obtain ⟨middle, ran, back, balanced⟩ := ih there stacked.opened deeper below
      obtain ⟨high, low, outer⟩ := stacked.of_balanced room balanced
      have above : sp - 2 + 1 = sp - 1 := by grind
      have restored : sp - 2 + 2 = sp := by grind
      obtain ⟨_, after, returns_ran, home, unchanged⟩ :=
        execute_ret back outer.opened ((outer.memory _ clear).trans held) returns (above ▸ high) low
      rw [restored] at home
      refine ⟨after, ?_, ?_, outer.of_unchanged unchanged⟩
      · have turns : 2 * (calls.length + 1) = 1 + (2 * calls.length + 1) := by omega
        rw [List.length_cons, turns, List.map_cons, Call.backs, List.reverse_cons, List.cons_append,
          ← List.append_assoc]
        exact gather_add (gather_one (goOn_of_execute calls_ran there.pc))
          (gather_add ran (gather_one (goOn_of_execute returns_ran home.pc)))
      · simpa [Call.backs] using home

/-- A pair that is pushed and popped again comes back, and so does everything else. -/
theorem gather_push_pop {system : System FlatBus} {pair : StackPair} {pushes pops : UInt8}
    {pc sp : UInt16} {armed : Bool} {flags : Flags} (ready : system.cpu.Ready pc armed sp flags)
    (opened : system.bus.Open) (first : system.bus.peek pc = pushes)
    (second : system.bus.peek (stream pc armed 1) = pops)
    (clear : ¬Below sp 2 (stream pc armed 1))
    (push : Instruction.ofSlot pushes.toUInt16 = .push pair)
    (pop : Instruction.ofSlot pops.toUInt16 = .pop pair) :
    ∃ after, gather goOn 2 system = .ok [stream pc armed 1, stream pc armed 2] after ∧
      (∀ cell, after.cpu.regs.content cell = system.cpu.regs.content cell) ∧
      FlatBus.Balanced sp 1 system.bus after.bus := by
  obtain ⟨_, pushed, push_ran, there, kept, stacked⟩ := execute_push ready opened first push
  obtain ⟨high, low, balanced⟩ := stacked.of_balanced (by decide) (.refl stacked.opened _)
  have above : sp - 2 + 1 = sp - 1 := by grind
  have restored : sp - 2 + 2 = sp := by grind
  obtain ⟨_, after, pop_ran, back, raised, popped, other, unchanged⟩ :=
    execute_pop there stacked.opened ((balanced.memory _ clear).trans second) pop (above ▸ high) low
  rw [stream_stream _ _ 0] at back
  rw [restored] at raised
  refine ⟨after, gather_add (gather_one (goOn_of_execute push_ran there.pc))
    (gather_one (goOn_of_execute pop_ran back)), fun cell => ?_, balanced.of_unchanged unchanged⟩
  by_cases member : cell ∈ pair.cells
  · exact popped cell member
  · by_cases pointer : cell = .sp
    · subst pointer
      rw [Registers.content, Registers.content, raised, ready.sp]
    · have outside : cell ∉ .sp :: pair.cells := by simp [pointer, member]
      rw [other cell outside, kept cell pointer]

/-- On flat memory that refuses nothing the stack is last in, first out, wherever SP points and
however it wraps around.  Words that are pushed are popped in reverse order.  Calls that lie in
memory so that each leads to the next come back to behind each other in reverse order, provided that
their bytes are clear of the stack.  A pair that is pushed and popped again keeps its word, as do
all other registers and flags.  Each time SP is restored, and no byte changes but those below it
that were needed. -/
theorem stack_is_lifo (system : System FlatBus) (opened : system.bus.Open) :
    let sp := system.cpu.regs.sp
    let pc := system.cpu.regs.pc
    let armed := system.cpu.haltBug
    (∀ words : List UInt16, words.length ≤ 32768 →
      ∃ pushed after, forM words push system = .ok () pushed ∧
        gather pop words.length pushed = .ok words.reverse after ∧
        after.cpu = system.cpu ∧
        ∀ address, ¬Below sp (2 * words.length) address →
          after.bus.peek address = system.bus.peek address) ∧
    (system.cpu.locked = none →
      (∀ calls : List Call,
        Call.Nest (fun address byte => system.bus.peek address = byte ∧
          ¬Below sp (2 * calls.length) address) system.cpu.regs.flags pc armed calls →
        ∃ after, gather goOn (2 * calls.length) system =
            .ok (calls.map Call.target ++ (Call.backs pc armed calls).reverse) after ∧
          after.cpu.regs.sp = sp ∧
          ∀ address, ¬Below sp (2 * calls.length) address →
            after.bus.peek address = system.bus.peek address) ∧
      ∀ pair pushes pops, Instruction.ofSlot pushes.toUInt16 = .push pair →
        Instruction.ofSlot pops.toUInt16 = .pop pair → system.bus.peek pc = pushes →
        system.bus.peek (stream pc armed 1) = pops → ¬Below sp 2 (stream pc armed 1) →
        ∃ after, gather goOn 2 system = .ok [stream pc armed 1, stream pc armed 2] after ∧
          (∀ cell, after.cpu.regs.content cell = system.cpu.regs.content cell) ∧
          ∀ address, ¬Below sp 2 address → after.bus.peek address = system.bus.peek address) := by
  intro sp pc armed
  have begins (unlocked : system.cpu.locked = none) :
      system.cpu.Ready pc armed sp system.cpu.regs.flags := ⟨rfl, rfl, rfl, rfl, unlocked⟩
  refine ⟨fun words room => ?_, fun unlocked => ⟨fun calls nest => ?_, ?_⟩⟩
  · obtain ⟨pushed, after, pushes, pops, balanced⟩ := push_pop_words words system.cpu opened room
    exact ⟨pushed, _, pushes, pops, rfl, balanced.memory⟩
  · have room : calls.length ≤ 32768 := nest.length_le
    obtain ⟨after, ran, home, balanced⟩ := gather_goOn calls (begins unlocked) opened room nest
    exact ⟨after, ran, home.sp, balanced.memory⟩
  · intro pair pushes pops push pop first second clear
    obtain ⟨after, ran, kept, balanced⟩ :=
      gather_push_pop (begins unlocked) opened first second clear push pop
    exact ⟨after, ran, kept, balanced.memory⟩

/-- A processor whose stack wraps around.  From C100 on there is CALL C200, there RST 08 and RET,
and at 0008 RET; from C300 on there is PUSH AF and POP AF. -/
def wrapping (pc : UInt16) : System FlatBus where
  cpu := { regs := { a := 0x12, flags := { carry := true }, sp := 0x0001, pc } }
  bus := (((({} : FlatBus).load 0xC100 [0xCD, 0x00, 0xC2]).load 0xC200 [0xCF, 0xC9]).load 0x0008
    [0xC9]).load 0xC300 [0xF5, 0xF1]

theorem stack_is_lifo_wrapping :
    (∃ pushed after, forM [0x1234, 0xABCD] push (wrapping 0) = .ok () pushed ∧
      gather pop 2 pushed = .ok [0xABCD, 0x1234] after ∧ after.cpu = (wrapping 0).cpu) ∧
    (∃ after, gather goOn 4 (wrapping 0xC100) = .ok [0xC200, 0x0008, 0xC201, 0xC103] after ∧
      after.cpu.regs.sp = 0x0001) ∧
    ∃ after, gather goOn 2 (wrapping 0xC300) = .ok [0xC301, 0xC302] after ∧
      ∀ cell, after.cpu.regs.content cell = (wrapping 0xC300).cpu.regs.content cell := by
  have opened (pc : UInt16) : (wrapping pc).bus.Open := ⟨fun _ => rfl, fun _ => rfl⟩
  refine ⟨?_, ?_, ?_⟩
  · obtain ⟨pushed, after, pushes, pops, same, _⟩ :=
      (stack_is_lifo (wrapping 0) (opened 0)).1 [0x1234, 0xABCD] (by decide)
    exact ⟨pushed, after, pushes, pops, same⟩
  · have called : (wrapping 0xC100).bus.peek 0xC200 = 0xCF := by simp [wrapping, FlatBus.load]
    have inner : (wrapping 0xC100).bus.peek 0x0008 = 0xC9 := by simp [wrapping, FlatBus.load]
    have outer : (wrapping 0xC100).bus.peek 0xC201 = 0xC9 := by simp [wrapping, FlatBus.load]
    have nest : Call.Nest (fun address byte => (wrapping 0xC100).bus.peek address = byte ∧
        ¬Below 0x0001 4 address) { carry := true } 0xC100 false [⟨0xCD, 0xC200⟩, ⟨0xCF, 0⟩] := by
      refine ⟨fun index inside => ?_, rfl, ⟨fun index inside => ?_, rfl, trivial, 0xC9, ?_, rfl⟩,
        0xC9, ?_, rfl⟩
      · have bytes : Call.bytes ⟨0xCD, 0xC200⟩ = [0xCD, 0x00, 0xC2] := rfl
        simp only [bytes, List.length_cons, List.length_nil] at inside ⊢
        obtain rfl | rfl | rfl : index = 0 ∨ index = 1 ∨ index = 2 := by omega
        all_goals exact ⟨by simp [wrapping, FlatBus.load, stream], by decide⟩
      · have bytes : Call.bytes ⟨0xCF, 0⟩ = [0xCF] := rfl
        simp only [bytes, List.length_cons, List.length_nil] at inside ⊢
        obtain rfl : index = 0 := by omega
        exact ⟨called, by decide⟩
      · exact ⟨inner, by decide⟩
      · exact ⟨outer, by decide⟩
    obtain ⟨after, ran, restored, _⟩ :=
      ((stack_is_lifo (wrapping 0xC100) (opened _)).2 rfl).1 [⟨0xCD, 0xC200⟩, ⟨0xCF, 0⟩] nest
    exact ⟨after, ran, restored⟩
  · obtain ⟨after, ran, kept, _⟩ :=
      ((stack_is_lifo (wrapping 0xC300) (opened _)).2 rfl).2 .af 0xF5 0xF1 rfl rfl
        (by simp [wrapping, FlatBus.load]) (by simp [wrapping, FlatBus.load, stream]) (by decide)
    exact ⟨after, ran, kept⟩

end Cpu
end GameBoy
