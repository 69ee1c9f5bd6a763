import GameBoy.Proofs.Clock

/-!
# The stall of transfers

A transfer into object memory stalls the processor.  The instruction that starts it returns the
stall with its own cycles, but a dispatch does not collect what its push has started, and leaves it
to the instruction after it.  So no cycle of a stall is lost and none is returned twice.
-/

namespace GameBoy

open Effect Exec

namespace Board

/-- Until it is collected, the stall grows by that of a transfer with every write to the trigger. -/
theorem accounts_stall (start : Nat) : Accounts fun addresses board =>
    board.stall = start + dmaStall * addresses.count dmaAddress where
  record _ holds := holds
  store address value holds := by
    rw [stall_store, holds, List.count_append, List.count_singleton, Nat.mul_add, Nat.add_assoc]
    by_cases trigger : address = dmaAddress <;> simp [trigger]

theorem stall_collect (board : Board) : board.collect.stall = board.stall := by
  obtain ⟨_, _, collected⟩ := board.collect_eq
  rw [collected]

theorem stall_setButton (board : Board) (button : Button) (pressed : Bool) :
    (board.setButton button pressed).stall = board.stall :=
  stall_collect _

theorem stall_tick {σ : Type} (render : Renderer σ) (cycles : Nat) (board : Board) (screen : σ) :
    (board.tick render cycles screen).1.stall = board.stall :=
  stall_collect _

theorem stall_boot (cartridge : Cartridge) (config : Config) (sink : Sink) :
    (boot cartridge config sink).stall = 0 := by
  rw [boot]
  cases config.bootState <;> rfl

end Board

/-! ## One step -/

namespace Machine

/-- The stall that waits to be collected once the next step has written what it writes. -/
def stallDue (machine : Machine) : Nat :=
  machine.bus.stall + Board.dmaStall * machine.storedByStep.count Board.dmaAddress

/-- The flags decide what an instruction costs. -/
def costOf (machine : Machine) (slot : UInt16) : Nat :=
  let instruction := Instruction.ofSlot slot
  instruction.cost (instruction.taken machine.cpu.regs.flags)

theorem stall_of_execute {start : Nat} {before after : System (Taped Board)} {quantum : Quantum}
    (due : before.bus.bus.stall =
      start + Board.dmaStall * before.bus.addresses.count Board.dmaAddress)
    (ran : Cpu.execute before = .ok quantum after) :
    ∃ slot, quantum = .execution slot (costOf ⟨before.cpu, before.bus.bus⟩ slot)
        (start + Board.dmaStall * after.bus.addresses.count Board.dmaAddress) ∧
      after.bus.bus.stall = 0 := by
  have accounts := Board.accounts_stall start
  have law := law_keeps accounts.keeps_read accounts.keeps_write
  obtain ⟨_, slot, immediate, fetched, stream, acts⟩ := Cpu.execute_ok ran
  have read := (law.fetchRun (fun _ holds => holds) _).of_ok due stream
  obtain ⟨_, same⟩ := Cpu.behind_of_encoding stream
  obtain ⟨acted, performed, rfl, rfl⟩ := Cpu.conclude_ok acts
  have keeps := law.perform (Cpu.legal_of_perform performed) (fun _ _ _ _ holds => holds)
    (fun _ _ _ _ holds => holds) slot before.cpu.regs.pc immediate
  have collects : (Bus.takeStall acted.bus).1 =
      start + Board.dmaStall * acted.bus.addresses.count Board.dmaAddress :=
    (keeps _).of_ok read performed
  have flags : fetched.cpu.regs.flags = before.cpu.regs.flags := by rw [same]; rfl
  refine ⟨slot, ?_, rfl⟩
  rw [collects, flags]
  rfl

theorem stall_of_dispatch {start : Nat} {line : Interrupt} {request : UInt8}
    {before after : System (Taped Board)}
    (due : before.bus.bus.stall =
      start + Board.dmaStall * before.bus.addresses.count Board.dmaAddress)
    (ran : Cpu.dispatch line request before = .ok () after) :
    after.bus.bus.stall =
      start + Board.dmaStall * after.bus.addresses.count Board.dmaAddress := by
  have accounts := Board.accounts_stall start
  obtain ⟨first, second, third, high, low, clears, rfl⟩ := Cpu.dispatch_ok ran
  have pushed := (accounts.keeps_write _ _).of_ok ((accounts.keeps_write _ _).of_ok due high) low
  exact accounts.record _ ((accounts.keeps_write _ _).of_ok pushed clears)

theorem count_storedByStep {machine after : Machine} {quantum : Quantum}
    (ran : Cpu.step machine = .ok quantum after) {address : UInt16}
    (other : address ≠ Interrupt.requestAddress) : machine.storedByStep.count address ≤ 1 := by
  obtain ⟨writes, taped⟩ := Taped.step_of_ok ran []
  have once := Cpu.count_addresses_step taped other
  rw [storedByStep, final_of_ok taped]
  exact once

/-- Only an execution collects the stall, and it collects all that is due. -/
theorem stall_of_step {machine after : Machine} {quantum : Quantum}
    (ran : Cpu.step machine = .ok quantum after) :
    (quantum = .idle ∧ (machine.cpu.regs.stopped = true ∨ machine.cpu.regs.halted = true) ∧
        machine.storedByStep = [] ∧ after.bus.stall = machine.stallDue) ∨
      (∃ line, quantum = .interrupt line ∧ machine.cpu.regs.ime = true ∧
        after.cpu = machine.cpu.rouse.divert line ∧
        machine.storedByStep = machine.cpu.regs.stackTop ++ [Interrupt.requestAddress] ∧
        after.bus.stall = machine.stallDue) ∨
      ∃ slot, quantum = .execution slot (machine.costOf slot) machine.stallDue ∧
        after.bus.stall = 0 := by
  obtain ⟨writes, taped⟩ := Taped.step_of_ok ran []
  have stored : machine.storedByStep = writes.map Stored.address := by
    rw [storedByStep, final_of_ok taped]
    rfl
  have accounts := Board.accounts_stall machine.bus.stall
  rcases Cpu.step_after_reading accounts.keeps_read rfl taped with
    ⟨rfl, waits, _, due⟩ | ⟨line, request, bus, rfl, enabled, due, dispatched⟩ |
      ⟨bus, due, executed⟩
  · rcases Cpu.addresses_step taped with ⟨_, none⟩ | ⟨_, other, _⟩ | ⟨_, _, _, _, _, other, _⟩
    · rw [stallDue, stored]
      exact .inl ⟨rfl, waits, none, due⟩
    · cases other
    · cases other
  · rcases Cpu.addresses_step taped with ⟨other, _⟩ | ⟨_, _, pushed⟩ | ⟨_, _, _, _, _, other, _⟩
    · cases other
    · have due := stall_of_dispatch due dispatched
      obtain ⟨_, _, _, _, _, _, same⟩ := Cpu.dispatch_ok dispatched
      rw [stallDue, stored]
      exact .inr (.inl ⟨line, rfl, enabled, congrArg System.cpu same, pushed, due⟩)
    · cases other
  · obtain ⟨slot, rfl, collected⟩ := stall_of_execute due executed
    rw [stallDue, stored]
    exact .inr (.inr ⟨slot, rfl, collected⟩)

/-- A step takes no longer than the longest instruction with a transfer of its own and one that is
pending. -/
theorem cycles_le_of_step {machine after : Machine} {quantum : Quantum}
    (pending : machine.bus.stall ≤ Board.dmaStall) (ran : Cpu.step machine = .ok quantum after) :
    quantum.cycles ≤ 1304 := by
  rcases stall_of_step ran with ⟨rfl, _⟩ | ⟨line, rfl, _⟩ | ⟨slot, rfl, _⟩
  · exact (by decide : 4 ≤ 1304)
  · exact (by decide : 20 ≤ 1304)
  · have cost : machine.costOf slot ≤ 24 := Instruction.cost_le _ _
    have once : machine.storedByStep.count Board.dmaAddress ≤ 1 :=
      count_storedByStep ran (by decide)
    have due : machine.stallDue ≤ Board.dmaStall + Board.dmaStall * 1 :=
      Nat.add_le_add pending (Nat.mul_le_mul_left _ once)
    rw [Board.dmaStall] at due
    rw [Quantum.cycles]
    omega

end Machine

/-! ## Runs -/

namespace Session

variable {σ : Type} {render : Renderer σ}

/-- The cycles of a step without any stall. -/
def Move.baseCost (move : Move σ) : Nat :=
  match move.quantum with
  | .idle => 4
  | .interrupt _ => 20
  | .execution slot _ _ => move.found.machine.costOf slot

/-- The transfers that a step starts. -/
def Move.transfers (move : Move σ) : Nat :=
  move.found.machine.storedByStep.count Board.dmaAddress

/-- The step diverts to a handler, and its push starts a transfer. -/
def Move.PushesTransfer (move : Move σ) : Prop :=
  ∃ line, move.quantum = .interrupt line ∧
    Board.dmaAddress ∈ move.found.machine.cpu.regs.stackTop

/-- The last of the steps is a dispatch whose push starts a transfer. -/
def EndsInTransfer (moves : List (Move σ)) : Prop :=
  ∃ front move, moves = front ++ [move] ∧ move.PushesTransfer

theorem endsInTransfer_concat {moves : List (Move σ)} {move : Move σ} :
    EndsInTransfer (moves ++ [move]) ↔ move.PushesTransfer := by
  constructor
  · rintro ⟨front, other, same, pushes⟩
    cases List.append_inj_right' same rfl
    exact pushes
  · exact fun pushes => ⟨moves, move, rfl, pushes⟩

/-- Between two steps only the transfer of a dispatch is pending, and the next step will execute an
instruction, which collects it. -/
structure Boundary (moves : List (Move σ)) (session : Session σ) : Prop where
  pending : EndsInTransfer moves → session.machine.bus.stall = Board.dmaStall ∧
    session.machine.cpu.regs.ime = false ∧ session.machine.cpu.regs.stopped = false ∧
    session.machine.cpu.regs.halted = false
  clear : ¬EndsInTransfer moves → session.machine.bus.stall = 0

theorem count_dispatch (regs : Registers) :
    (regs.stackTop ++ [Interrupt.requestAddress]).count Board.dmaAddress =
      if Board.dmaAddress ∈ regs.stackTop then 1 else 0 := by
  have other : [Interrupt.requestAddress].count Board.dmaAddress = 0 := rfl
  rw [List.count_append, other, Nat.add_zero, List.Nodup.count regs.nodup_stackTop]

variable {moves : List (Move σ)} {session next : Session σ} {quantum : Quantum}

theorem Boundary.step (boundary : Boundary moves session)
    (ran : step render session = .ok quantum next) :
    Boundary (moves ++ [⟨session, quantum⟩]) next := by
  obtain ⟨after, stepped, rfl⟩ := step_ok ran
  have kept := after.bus.stall_tick render quantum.cycles session.screen
  rcases Machine.stall_of_step stepped with ⟨rfl, waits, none, left⟩ |
    ⟨line, rfl, enabled, diverted, pushed, left⟩ | ⟨slot, rfl, collected⟩
  · have quiet : ¬EndsInTransfer moves := by
      intro ends
      obtain ⟨_, _, going, running⟩ := boundary.pending ends
      rcases waits with stopped | halted
      · exact Bool.false_ne_true (going.symm.trans stopped)
      · exact Bool.false_ne_true (running.symm.trans halted)
    rw [Machine.stallDue, boundary.clear quiet, none] at left
    refine ⟨fun ends => ?_, fun _ => kept.trans left⟩
    obtain ⟨_, other, _⟩ := endsInTransfer_concat.mp ends
    cases other
  · have quiet : ¬EndsInTransfer moves := fun ends =>
      Bool.false_ne_true ((boundary.pending ends).2.1.symm.trans enabled)
    rw [Machine.stallDue, boundary.clear quiet, pushed, count_dispatch, Nat.zero_add] at left
    refine ⟨fun ends => ?_, fun stays => ?_⟩
    · obtain ⟨_, _, hit⟩ := endsInTransfer_concat.mp ends
      rw [if_pos hit] at left
      refine ⟨kept.trans left, ?_⟩
      simp only [diverted]
      exact ⟨rfl, rfl, rfl⟩
    · have miss : Board.dmaAddress ∉ session.machine.cpu.regs.stackTop := fun hit =>
        stays (endsInTransfer_concat.mpr ⟨line, rfl, hit⟩)
      rw [if_neg miss] at left
      exact kept.trans left
  · refine ⟨fun ends => ?_, fun _ => kept.trans collected⟩
    obtain ⟨_, other, _⟩ := endsInTransfer_concat.mp ends
    cases other

/-- What a step returns and leaves pending is what it costs, what it starts and what it found. -/
theorem stall_of_step (ran : step render session = .ok quantum next) :
    let move : Move σ := ⟨session, quantum⟩
    quantum.cycles + next.machine.bus.stall =
      move.baseCost + Board.dmaStall * move.transfers + session.machine.bus.stall := by
  obtain ⟨after, stepped, rfl⟩ := step_ok ran
  have kept := after.bus.stall_tick render quantum.cycles session.screen
  intro move
  have due : session.machine.stallDue =
      session.machine.bus.stall + Board.dmaStall * move.transfers := rfl
  simp only [kept]
  rcases Machine.stall_of_step stepped with ⟨rfl, _, _, left⟩ | ⟨line, rfl, _, _, _, left⟩ |
    ⟨slot, rfl, collected⟩
  · have base : move.baseCost = 4 := rfl
    rw [left, due, base, Quantum.cycles]
    omega
  · have base : move.baseCost = 20 := rfl
    rw [left, due, base, Quantum.cycles]
    omega
  · have base : move.baseCost = session.machine.costOf slot := rfl
    rw [collected, due, base, Quantum.cycles]
    omega

theorem Boundary.cycles_le (boundary : Boundary moves session)
    (ran : Session.step render session = .ok quantum next) : quantum.cycles ≤ 1304 := by
  obtain ⟨after, stepped, _⟩ := step_ok ran
  refine Machine.cycles_le_of_step ?_ stepped
  by_cases ends : EndsInTransfer moves
  · exact Nat.le_of_eq (boundary.pending ends).1
  · rw [boundary.clear ends]
    exact Nat.zero_le _

theorem Boundary.boot (cartridge : Cartridge) (config : Config) (sink : Sink) (screen : σ) :
    Boundary [] ⟨Machine.boot cartridge config sink, screen⟩ where
  pending := by
    rintro ⟨front, move, empty, _⟩
    exact absurd empty (by simp)
  clear _ := Board.stall_boot cartridge config sink

theorem Boundary.played {first last : Session σ} (begun : Boundary [] first)
    (played : Played render first moves last) :
    Boundary moves last ∧ ∀ move ∈ moves, 4 ≤ move.quantum.cycles ∧ move.quantum.cycles ≤ 1304 := by
  induction played with
  | start => exact ⟨begun, List.forall_mem_nil _⟩
  | step _ ran ih =>
      obtain ⟨boundary, bounded⟩ := ih
      refine ⟨boundary.step ran, List.forall_mem_append.mpr ⟨bounded, ?_⟩⟩
      exact List.forall_mem_singleton.mpr ⟨four_le_cycles ran, boundary.cycles_le ran⟩
  | @button session moves button pressed _ ih =>
      obtain ⟨boundary, bounded⟩ := ih
      have kept := session.machine.bus.stall_setButton button pressed
      refine ⟨⟨fun ends => ?_, fun stays => kept.trans (boundary.clear stays)⟩, bounded⟩
      obtain ⟨stall, masked⟩ := boundary.pending ends
      exact ⟨kept.trans stall, masked⟩

theorem Played.stall {first last : Session σ} (played : Played render first moves last) :
    cyclesOf moves + last.machine.bus.stall =
      (moves.map Move.baseCost).sum + Board.dmaStall * (moves.map Move.transfers).sum +
        first.machine.bus.stall := by
  induction played with
  | start => simp
  | @step session next quantum moves _ ran ih =>
      have one := stall_of_step ran
      simp only [cyclesOf_append, cyclesOf_cons, cyclesOf_nil, List.map_append, List.map_cons,
        List.map_nil, List.sum_append, List.sum_cons, List.sum_nil, Nat.mul_add] at one ih ⊢
      omega
  | @button session moves button pressed _ ih =>
      have kept := session.machine.bus.stall_setButton button pressed
      exact (congrArg (cyclesOf moves + ·) kept).trans ih

/-- The cycles that the steps of a loaded machine return are their costs and 640 for each transfer,
but for a transfer that is still pending.  One is pending exactly after a dispatch whose push has
started it. -/
theorem stall_conserved {image : ByteArray} {config : Config} {sink : Sink} {machine : Machine}
    (loaded : Machine.ofImage image config sink = .ok machine) {screen : σ} {last : Session σ}
    (played : Played render ⟨machine, screen⟩ moves last) :
    cyclesOf moves + last.machine.bus.stall =
      (moves.map Move.baseCost).sum + 640 * (moves.map Move.transfers).sum ∧
    (last.machine.bus.stall = 0 ∨ last.machine.bus.stall = 640) ∧
    (last.machine.bus.stall ≠ 0 ↔ EndsInTransfer moves) ∧
    ∀ move ∈ moves, 4 ≤ move.quantum.cycles ∧ move.quantum.cycles ≤ 1304 := by
  obtain ⟨cartridge, rfl⟩ := Machine.boot_of_ofImage loaded
  obtain ⟨boundary, bounded⟩ := (Boundary.boot cartridge config sink screen).played played
  refine ⟨?_, ?_, ⟨fun left => ?_, fun ends => ?_⟩, bounded⟩
  · have conserved := played.stall
    have clear : (Machine.boot cartridge config sink).bus.stall = 0 := Board.stall_boot _ _ _
    rw [clear, Nat.add_zero] at conserved
    exact conserved
  · by_cases ends : EndsInTransfer moves
    · exact .inr (boundary.pending ends).1
    · exact .inl (boundary.clear ends)
  · by_contra stays
    exact left (boundary.clear stays)
  · rw [(boundary.pending ends).1]
    decide

/-- A program whose first instruction, `LDH (46),A`, starts a transfer. -/
def transferFirst : List UInt8 := [0xE0, 0x46]

/-- The machine that the program is loaded into. -/
def transferring : Machine :=
  Machine.boot (.romOnly (Bank.ofProgram transferFirst) (Bank.filled 0)) {} .discard

theorem stall_conserved_transferring :
    Machine.ofImage (programImage transferFirst) {} .discard = .ok transferring ∧
    ∃ last, Played Renderer.null ⟨transferring, ()⟩
        ([] ++ [⟨⟨transferring, ()⟩, .execution 0xE0 12 640⟩]) last ∧
      652 + last.machine.bus.stall = 12 + 640 * 1 ∧ ¬last.machine.bus.stall ≠ 0 := by
  have loaded : Machine.ofImage (programImage transferFirst) {} .discard = .ok transferring :=
    (PlainHeader.ofProgram (by decide)).ofImage (Bank.filled 0) {} .discard
  have ran : Session.step Renderer.null ⟨transferring, ()⟩ =
      .ok (.execution 0xE0 12 640) (final (Session.step Renderer.null) ⟨transferring, ()⟩) :=
    ok_of_value? (by decide +kernel)
  have played := Played.start.step ran
  obtain ⟨conserved, _, pending, _⟩ := stall_conserved loaded played
  have cost : transferring.costOf 0xE0 = 12 := by decide +kernel
  have transfers : transferring.storedByStep.count Board.dmaAddress = 1 := by decide +kernel
  refine ⟨loaded, _, played, ?_, fun left => ?_⟩
  · simpa [Move.baseCost, Move.transfers, Quantum.cycles, cost, transfers] using conserved
  · obtain ⟨_, other, _⟩ := endsInTransfer_concat.mp (pending.mp left)
    cases other

end Session
end GameBoy
