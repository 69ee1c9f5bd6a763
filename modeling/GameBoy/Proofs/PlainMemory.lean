import GameBoy.Proofs.FlatMemory
import GameBoy.Proofs.Storage
import GameBoy.Proofs.Watching

/-!
# Plain memory

Work RAM and high RAM are memory and nothing else.  As long as a program keeps to them, it runs on a
board as on flat memory with the same bytes: the accesses, the results and the processor are the
same, and nothing else of the board changes.
-/

namespace GameBoy

open Effect Exec

/-! ## Actions that match -/

namespace Effect

variable {ε σ τ α γ : Type} {related : σ → τ → Prop}

/-- Both results are the same, and the states left are related. -/
inductive Matches (related : σ → τ → Prop) :
    EStateM.Result ε σ α → EStateM.Result ε τ α → Prop
  | ok (value : α) {state : σ} {twin : τ} (holds : related state twin) :
      Matches related (.ok value state) (.ok value twin)
  | error (error : ε) {state : σ} {twin : τ} (holds : related state twin) :
      Matches related (.error error state) (.error error twin)

theorem Matches.bind {action : EStateM ε σ α} {twin : EStateM ε τ α}
    {next : α → EStateM ε σ γ} {follow : α → EStateM ε τ γ} {state : σ} {other : τ}
    (first : Matches related (action state) (twin other))
    (rest : ∀ value {after : σ} {between : τ}, action state = .ok value after →
      related after between → Matches related (next value after) (follow value between)) :
    Matches related ((action >>= next) state) ((twin >>= follow) other) := by
  rw [bind_apply, bind_apply]
  cases ran : action state with
  | ok value after =>
      rw [ran] at first
      cases ranToo : twin other <;> rw [ranToo] at first <;> cases first
      next between holds => exact rest value ran holds
  | error error after =>
      rw [ran] at first
      cases ranToo : twin other <;> rw [ranToo] at first <;> cases first
      next between holds => exact .error error holds

theorem Matches.outcome_eq {action : EStateM ε σ α} {twin : EStateM ε τ α} {state : σ} {other : τ}
    (same : Matches related (action state) (twin other)) :
    outcome twin other = outcome action state := by
  rw [outcome, outcome]
  cases ran : action state <;> cases ranToo : twin other <;> rw [ran, ranToo] at same <;>
    cases same <;> rfl

theorem Matches.final {action : EStateM ε σ α} {twin : EStateM ε τ α} {state : σ} {other : τ}
    (same : Matches related (action state) (twin other)) :
    related (final action state) (final twin other) := by
  rw [Effect.final, Effect.final]
  cases ran : action state <;> cases ranToo : twin other <;> rw [ran, ranToo] at same <;>
    cases same <;> assumption

end Effect

/-! ## Plain addresses -/

/-- The address is one of work RAM, not of its echo, or of high RAM. -/
def IsPlain (address : UInt16) : Prop :=
  (0xC000 ≤ address ∧ address ≤ 0xDFFF) ∨ (0xFF80 ≤ address ∧ address ≤ 0xFFFE)

instance (address : UInt16) : Decidable (IsPlain address) :=
  inferInstanceAs (Decidable (_ ∨ _))

/-- The address of an access. -/
def AccessRecord.address : AccessRecord → UInt16
  | .read address _ | .readRefused address | .write address _ | .writeRefused address => address

/-- Only plain addresses have been accessed. -/
def AllPlain (accesses : Array AccessRecord) : Prop :=
  ∀ access ∈ accesses, IsPlain access.address

instance (accesses : Array AccessRecord) : Decidable (AllPlain accesses) :=
  inferInstanceAs (Decidable (∀ access ∈ accesses, IsPlain access.address))

theorem allPlain_push {accesses : Array AccessRecord} {access : AccessRecord} :
    AllPlain (accesses.push access) ↔ AllPlain accesses ∧ IsPlain access.address := by
  simp only [AllPlain, Array.mem_push]
  constructor
  · exact fun plain => ⟨fun other made => plain other (.inl made), plain access (.inr rfl)⟩
  · rintro ⟨before, last⟩ other (made | rfl)
    · exact before other made
    · exact last

/-! ## Cells -/

theorem IsPlain.isMemory {address : UInt16} (plain : IsPlain address) :
    (Region.of address).isMemory = true := by
  have found := Region.bounds_of address
  rw [IsPlain] at plain
  cases region : Region.of address <;> rw [region, Region.first, Region.last] at found <;>
    simp only [Region.isMemory] <;> grind

theorem IsPlain.region_ne_io {address : UInt16} (plain : IsPlain address) :
    Region.of address ≠ .io :=
  Board.region_ne_io plain.isMemory (.inl rfl)

/-- A cell has one plain address. -/
theorem IsPlain.eq_of_sameCell {address other : UInt16} (plain : IsPlain address)
    (plainToo : IsPlain other) (same : SameCell address other) : address = other := by
  rw [IsPlain] at plain plainToo
  rw [SameCell, IsEcho, IsEcho] at same
  grind

namespace Board

theorem isMapped_of_plain {address : UInt16} (plain : IsPlain address) (board : Board) :
    board.isMapped address = true := by
  have elsewhere : Region.of address ≠ .externalRam := by
    rw [ne_eq, Region.of_eq_iff, Region.first, Region.last]
    rw [IsPlain] at plain
    grind
  rw [isMapped, bne_iff_ne.mpr elsewhere, Bool.true_or]

/-- A write to plain memory touches nothing else. -/
theorem store_of_plain {address : UInt16} (plain : IsPlain address) (board : Board)
    (value : UInt8) :
    ∃ workRam highRam, board.store address value = { board with workRam, highRam } := by
  have found := Region.bounds_of address
  rw [IsPlain] at plain
  rw [store]
  cases region : Region.of address with
  | workRam0 | workRamN | echo | highRam => exact ⟨_, _, rfl⟩
  | romBank0 | romBankN | vram | externalRam | oam | unusable | io | interruptEnable =>
      rw [region, Region.first, Region.last] at found
      grind

/-- Plain memory shows at plain addresses and in the echo only. -/
theorem peek_of_not_plain {address : UInt16} (other : ¬IsPlain address)
    (echo : Region.of address ≠ .echo) (board : Board) (workRam : Bank 0x2000)
    (highRam : Bank 0x7F) (sink : Sink) :
    { board with workRam, highRam, sink }.peek address = board.peek address := by
  have found := Region.bounds_of address
  rw [IsPlain] at other
  rw [peek, peek, memoryByte, memoryByte]
  cases region : Region.of address with
  | echo => exact absurd region echo
  | workRam0 | workRamN | highRam =>
      rw [region, Region.first, Region.last] at found
      grind
  | io => rw [portByte, portByte]
  | romBank0 | romBankN | vram | externalRam | oam | unusable | interruptEnable => rfl

/-- The bytes of plain memory are those of the flat memory. -/
def Agrees (board : Board) (flat : FlatBus) : Prop :=
  ∀ address, IsPlain address → board.memoryByte address = flat.peek address

theorem Agrees.store {board : Board} {flat : FlatBus} (agrees : board.Agrees flat)
    {address : UInt16} (plain : IsPlain address) (value : UInt8) :
    (board.store address value).Agrees (flat.poke address value) := by
  intro other plainToo
  rw [FlatBus.peek_poke]
  by_cases same : address = other
  · subst same
    rw [if_pos rfl, memoryByte_store_self plain.isMemory (isMapped_of_plain plain board)]
  · have apart : ¬SameCell address other := fun cell => same (plain.eq_of_sameCell plainToo cell)
    rw [if_neg same, memoryByte_store_of_not_sameCell plain.isMemory apart, agrees other plainToo]

end Board

namespace FlatBus

/-- A read is kept, whatever comes of it. -/
theorem accesses_read (address : UInt16) (flat : FlatBus) : ∃ access : AccessRecord,
    access.address = address ∧
      (final (Bus.read address) flat).accesses = flat.accesses.push access := by
  change ∃ access : AccessRecord, access.address = address ∧
    (final (FlatBus.read address) flat).accesses = flat.accesses.push access
  cases refused : flat.refusesRead address with
  | true => exact ⟨.readRefused address, rfl, by simp [final, read, refused, note]⟩
  | false => exact ⟨.read address (flat.peek address), rfl, by simp [final, read, refused, note]⟩

/-- A write is kept, whatever comes of it. -/
theorem accesses_write (address : UInt16) (value : UInt8) (flat : FlatBus) :
    ∃ access : AccessRecord, access.address = address ∧
      (final (Bus.write address value) flat).accesses = flat.accesses.push access := by
  change ∃ access : AccessRecord, access.address = address ∧
    (final (FlatBus.write address value) flat).accesses = flat.accesses.push access
  cases refused : flat.refusesWrite address with
  | true => exact ⟨.writeRefused address, rfl, by simp [final, write, refused, note]⟩
  | false => exact ⟨.write address value, rfl, by simp [final, write, refused, note, poke]⟩

end FlatBus

/-- A flat memory that takes every access, and at plain addresses without a stall. -/
structure FlatBus.Simple (flat : FlatBus) : Prop extends FlatBus.Open flat where
  stallOf : ∀ address, IsPlain address → flat.stallOf address = 0
  stall : flat.stall = 0

/-! ## Following flat memory -/

/-- Hand a number of events to the sink, the first one first. -/
def Sink.recordAll (events : Array Event) (sink : Sink) : Sink :=
  events.foldl (fun sink event => sink.record event) sink

/-- The two systems do not differ in the processor, in plain memory or in what has been accessed,
and the board is that from the start but for plain memory and for what has been reported. -/
structure Alike (start : Board) (flat : System FlatBus) (twin : System (Watched Board)) : Prop where
  cpu : twin.cpu = flat.cpu
  simple : flat.bus.Simple
  accesses : twin.bus.accesses = flat.bus.accesses
  agrees : twin.bus.bus.Agrees flat.bus
  rest : ∃ workRam highRam,
    twin.bus.bus =
      { start with workRam, highRam, sink := start.sink.recordAll flat.bus.events }

/-- If an action on flat memory has kept to plain memory, it had before, and its twin on a board
that is alike comes to the same and leaves the board alike. -/
def Follows {α : Type} (start : Board) (action : Exec FlatBus α) (twin : Exec (Watched Board) α) :
    Prop :=
  ∀ flat, AllPlain (final action flat).bus.accesses →
    AllPlain flat.bus.accesses ∧ ∀ system, Alike start flat system →
      Matches (Alike start) (action flat) (twin system)

variable {start : Board}

theorem Follows.bind {α γ : Type} {action : Exec FlatBus α} {twin : Exec (Watched Board) α}
    {next : α → Exec FlatBus γ} {follow : α → Exec (Watched Board) γ}
    (first : Follows start action twin)
    (rest : ∀ value, Follows start (next value) (follow value)) :
    Follows start (action >>= next) (twin >>= follow) := by
  intro flat plain
  cases ran : action flat with
  | ok value after =>
      rw [final, bind_of_ok ran] at plain
      have begun := (rest value after plain).1
      rw [← final_of_ok ran] at begun
      obtain ⟨kept, follows⟩ := first flat begun
      refine ⟨kept, fun system alike => (follows system alike).bind fun other _ between same => ?_⟩
      rw [ran] at same
      cases same
      exact (rest value after plain).2 between
  | error fault after =>
      rw [final, bind_of_error ran] at plain
      rw [← final_of_error ran] at plain
      obtain ⟨kept, follows⟩ := first flat plain
      refine ⟨kept, fun system alike => (follows system alike).bind fun other _ between same => ?_⟩
      rw [ran] at same
      cases same

theorem bus_final_access {β : Type} {α : Type} (action : Access β α) (system : System β) :
    (final (access action) system).bus = final action system.bus := by
  rw [final, final, access_apply]
  cases action system.bus <;> rfl

theorem follows_read (address : UInt16) :
    Follows start (Exec.read address) (Exec.read address) := by
  intro flat plain
  obtain ⟨access, here, kept⟩ := FlatBus.accesses_read address flat.bus
  rw [Exec.read, bus_final_access, kept, allPlain_push, here] at plain
  refine ⟨plain.1, fun system alike => ?_⟩
  have found : system.bus.bus.peek address = .ok (flat.bus.peek address) := by
    rw [Board.peek_of_memory plain.2.region_ne_io, alike.agrees address plain.2]
  rw [Exec.read, access_apply, FlatBus.read_apply alike.simple.toOpen, Exec.read, access_apply,
    Watched.read_of_ok (Board.read_of_peek found)]
  have simple : (flat.bus.note (.read address (flat.bus.peek address))).Simple :=
    ⟨⟨alike.simple.read, alike.simple.write⟩, alike.simple.stallOf, alike.simple.stall⟩
  have accesses := congrArg (·.push (.read address (flat.bus.peek address))) alike.accesses
  exact .ok _ ⟨alike.cpu, simple, accesses, alike.agrees, alike.rest⟩

theorem follows_write (address : UInt16) (value : UInt8) :
    Follows start (Exec.write address value) (Exec.write address value) := by
  intro flat plain
  obtain ⟨access, here, kept⟩ := FlatBus.accesses_write address value flat.bus
  rw [Exec.write, bus_final_access, kept, allPlain_push, here] at plain
  refine ⟨plain.1, fun system alike => ?_⟩
  have taken := Board.write_of_memory plain.2.isMemory system.bus.bus value
  rw [Exec.write, access_apply, FlatBus.write_apply alike.simple.toOpen, Exec.write, access_apply,
    Watched.write_of_ok taken]
  have silent : flat.bus.stall + flat.bus.stallOf address = 0 := by
    rw [alike.simple.stall, alike.simple.stallOf address plain.2]
  have accesses := congrArg (·.push (.write address value)) alike.accesses
  refine .ok _ ⟨alike.cpu, ⟨⟨alike.simple.read, alike.simple.write⟩, alike.simple.stallOf, silent⟩,
    accesses, alike.agrees.store plain.2 value, ?_⟩
  obtain ⟨_, _, stored⟩ := Board.store_of_plain plain.2 system.bus.bus value
  obtain ⟨_, _, same⟩ := alike.rest
  rw [stored, same]
  exact ⟨_, _, rfl⟩

/-- An action that changes the processor alone has its twin. -/
theorem follows_modifyCpu (change : Cpu → Cpu) :
    Follows start (modifyCpu change) (modifyCpu change) := by
  refine fun flat plain => ⟨plain, fun system alike => .ok _ ?_⟩
  exact ⟨congrArg change alike.cpu, alike.simple, alike.accesses, alike.agrees, alike.rest⟩

theorem follows_takeStall (still : start.stall = 0) : Follows start takeStall takeStall := by
  refine fun flat plain => ⟨plain, fun system alike => ?_⟩
  obtain ⟨_, _, same⟩ := alike.rest
  have pending : system.bus.bus.stall = 0 := by
    rw [same]
    exact still
  have here : takeStall flat = .ok 0 ⟨flat.cpu, { flat.bus with stall := 0 }⟩ :=
    congrArg (EStateM.Result.ok · _) alike.simple.stall
  have there : takeStall system =
      .ok 0 ⟨system.cpu, ⟨{ system.bus.bus with stall := 0 }, system.bus.accesses⟩⟩ :=
    congrArg (EStateM.Result.ok · _) pending
  rw [here, there]
  refine .ok 0 ⟨alike.cpu, ⟨⟨alike.simple.read, alike.simple.write⟩, alike.simple.stallOf, rfl⟩,
    alike.accesses, alike.agrees, ?_⟩
  rw [same, ← still]
  exact ⟨_, _, rfl⟩

theorem follows_report (event : Event) : Follows start (report event) (report event) := by
  refine fun flat plain => ⟨plain, fun system alike => ?_⟩
  obtain ⟨_, _, same⟩ := alike.rest
  have reported : start.sink.recordAll (flat.bus.events.push event) =
      (start.sink.recordAll flat.bus.events).record event := by
    rw [Sink.recordAll, Array.foldl_push, Sink.recordAll]
  rw [report_apply, report_apply]
  refine .ok () ⟨alike.cpu, ⟨⟨alike.simple.read, alike.simple.write⟩, alike.simple.stallOf,
    alike.simple.stall⟩, alike.accesses, alike.agrees, ?_⟩
  refine ⟨system.bus.bus.workRam, system.bus.bus.highRam, ?_⟩
  change system.bus.bus.record event =
    { start with
      workRam := system.bus.bus.workRam
      highRam := system.bus.bus.highRam
      sink := start.sink.recordAll (flat.bus.events.push event) }
  rw [reported, Board.record, same]

/-- What the processor does on flat memory it does on a board while it keeps to plain memory. -/
theorem law_follows (still : start.stall = 0) :
    StepLaw fun _ _ (action : Exec FlatBus _) (twin : Exec (Watched Board) _) =>
      Follows start action twin where
  pure value := fun _ plain => ⟨plain, fun _ alike => .ok value alike⟩
  bind first rest := first.bind rest
  mono _ follows := follows
  registers := fun flat plain => ⟨plain, fun system alike => by
    rw [registers_apply, registers_apply, alike.cpu]
    exact .ok _ alike⟩
  read := follows_read
  write := follows_write
  modify _ _ _ := follows_modifyCpu _
  change := follows_modifyCpu
  throw fault := fun _ plain => ⟨plain, fun _ alike => .error fault alike⟩
  cpu := fun flat plain => ⟨plain, fun system alike => by
    rw [cpu_apply, cpu_apply, alike.cpu]
    exact .ok _ alike⟩
  takeStall := follows_takeStall still
  report := follows_report

/-! ## Runs -/

/-- What a number of executions come to, failed ones included, and the system after them. -/
def Cpu.executions {β : Type} [Bus β] : Nat → System β → List (Except Fault Quantum) × System β
  | 0, system => ([], system)
  | count + 1, system =>
    let rest := executions count (final execute system)
    (outcome execute system :: rest.1, rest.2)

/-- A run that keeps to plain memory goes the same way on a board. -/
theorem executions_follow (still : start.stall = 0) (count : Nat) (flat : System FlatBus)
    (plain : AllPlain (Cpu.executions count flat).2.bus.accesses) :
    AllPlain flat.bus.accesses ∧ ∀ system, Alike start flat system →
      (Cpu.executions count system).1 = (Cpu.executions count flat).1 ∧
        Alike start (Cpu.executions count flat).2 (Cpu.executions count system).2 := by
  induction count generalizing flat with
  | zero => exact ⟨plain, fun system alike => ⟨rfl, alike⟩⟩
  | succ count ih =>
      obtain ⟨between, rest⟩ := ih (final Cpu.execute flat) plain
      obtain ⟨begun, follows⟩ := (law_follows still).execute flat between
      refine ⟨begun, fun system alike => ?_⟩
      have same := follows system alike
      obtain ⟨results, last⟩ := rest _ same.final
      refine ⟨?_, last⟩
      rw [Cpu.executions, Cpu.executions, same.outcome_eq, results]

/-- Nothing that is executed notices whether it is watched. -/
theorem executions_watched (count : Nat) (system : System (Watched Board)) :
    Cpu.executions count (system.view Watched.bus) =
      ((Cpu.executions count system).1, (Cpu.executions count system).2.view Watched.bus) := by
  induction count generalizing system with
  | zero => rfl
  | succ count ih =>
      have same := Watched.sees_bus.law.execute system
      have came : outcome Cpu.execute (system.view Watched.bus) = outcome Cpu.execute system := by
        rw [outcome, outcome, same]
        cases Cpu.execute system <;> rfl
      rw [Cpu.executions, Cpu.executions, final_see same, ih, came]

/-! ## Reports -/

theorem keeps_events_read (events : Array Event) (address : UInt16) :
    Keeps (fun flat : FlatBus => flat.events = events) (Bus.read address) := by
  intro flat holds
  obtain ⟨access, _, same⟩ := FlatBus.final_read address flat
  rw [same]
  exact holds

theorem keeps_events_write (events : Array Event) (address : UInt16) (value : UInt8) :
    Keeps (fun flat : FlatBus => flat.events = events) (Bus.write address value) := by
  intro flat holds
  change (final (FlatBus.write address value) flat).events = events
  rw [final, FlatBus.write]
  cases flat.refusesWrite address <;> exact holds

/-- An instruction that is executed reports nothing. -/
theorem events_of_execute {flat after : System FlatBus} {quantum : Quantum}
    (ran : Cpu.execute flat = .ok quantum after) : after.bus.events = flat.bus.events := by
  have law := law_keeps (keeps_events_read flat.bus.events) (keeps_events_write flat.bus.events)
  obtain ⟨_, slot, immediate, fetched, stream, acts⟩ := Cpu.execute_ok ran
  obtain ⟨acted, performed, rfl, _⟩ := Cpu.conclude_ok acts
  have change (change : Cpu → Cpu) :
      Keeps (fun system : System FlatBus => system.bus.events = flat.bus.events)
        (modifyCpu change) := fun _ holds => holds
  have read := (law.fetchRun (change _) _).of_ok rfl stream
  have keeps := law.perform (Cpu.legal_of_perform performed) (fun _ _ _ => change _)
    (fun _ _ _ => change _) slot flat.cpu.regs.pc immediate
      ((Instruction.ofSlot slot).taken fetched.cpu.regs.flags)
  have kept := keeps.of_ok read performed
  exact kept

theorem events_of_executions (count : Nat) (flat : System FlatBus)
    (succeed : ∀ result ∈ (Cpu.executions count flat).1, ∃ quantum, result = .ok quantum) :
    (Cpu.executions count flat).2.bus.events = flat.bus.events := by
  induction count generalizing flat with
  | zero => rfl
  | succ count ih =>
      rw [Cpu.executions] at succeed ⊢
      obtain ⟨quantum, came⟩ := succeed _ List.mem_cons_self
      have next := ih _ fun result member => succeed result (List.mem_cons_of_mem _ member)
      rw [next]
      cases ran : Cpu.execute flat with
      | ok other after => rw [final_of_ok ran, events_of_execute ran]
      | error fault after =>
          rw [outcome, ran] at came
          cases came

/-! ## Agreement -/

/-- A board without pending stall and a flat memory hold the same bytes in plain memory.  If some
executions on the flat memory, failed ones included, access plain memory only, they make the same
accesses on the board, come to the same and leave the same processor, and both hold the same bytes
in plain memory again.  Nothing else of the board has changed, and but for the echo no other address
shows anything else; its sink has been handed the reports that the flat memory has kept, and there
are none if every execution succeeds. -/
theorem plain_runs_agree (cpu : Cpu) (board : Board) (flat : FlatBus) (still : board.stall = 0)
    (simple : flat.Simple) (fresh : flat.accesses = #[]) (silent : flat.events = #[])
    (agrees : board.Agrees flat) (count : Nat)
    (plain : AllPlain (Cpu.executions count ⟨cpu, flat⟩).2.bus.accesses) :
    let onFlat := Cpu.executions count ⟨cpu, flat⟩
    let onBoard := Cpu.executions count ⟨cpu, board⟩
    let watched := Cpu.executions count (⟨cpu, ⟨board, #[]⟩⟩ : System (Watched Board))
    onBoard.1 = onFlat.1 ∧
    onBoard.2.cpu = onFlat.2.cpu ∧
    (∀ address, IsPlain address →
      onBoard.2.bus.peek address = .ok (onFlat.2.bus.peek address)) ∧
    (∃ workRam highRam,
      onBoard.2.bus =
        { board with workRam, highRam, sink := board.sink.recordAll onFlat.2.bus.events }) ∧
    (∀ address, ¬IsPlain address → Region.of address ≠ .echo →
      onBoard.2.bus.peek address = board.peek address) ∧
    ((∀ result ∈ onFlat.1, ∃ quantum, result = .ok quantum) →
      onBoard.2.bus.sink = board.sink) ∧
    onBoard = (watched.1, watched.2.view Watched.bus) ∧
    watched.2.bus.accesses = onFlat.2.bus.accesses := by
  intro onFlat onBoard watched
  have begun : Alike board ⟨cpu, flat⟩ ⟨cpu, ⟨board, #[]⟩⟩ := by
    refine ⟨rfl, simple, fresh.symm, agrees, board.workRam, board.highRam, ?_⟩
    rw [silent]
    rfl
  obtain ⟨results, alike⟩ := (executions_follow still count _ plain).2 _ begun
  have seen : onBoard = (watched.1, watched.2.view Watched.bus) :=
    executions_watched count ⟨cpu, ⟨board, #[]⟩⟩
  obtain ⟨workRam, highRam, same⟩ := alike.rest
  have left : onBoard.2.bus =
      { board with workRam, highRam, sink := board.sink.recordAll onFlat.2.bus.events } := by
    rw [seen]
    exact same
  refine ⟨?_, ?_, fun address here => ?_, ⟨workRam, highRam, left⟩, fun address other work => ?_,
    fun succeed => ?_, seen, alike.accesses⟩
  · rw [seen]
    exact results
  · rw [seen]
    exact alike.cpu
  · rw [seen, Board.peek_of_memory here.region_ne_io]
    exact congrArg Except.ok (alike.agrees address here)
  · rw [left, Board.peek_of_not_plain other work]
  · have none : onFlat.2.bus.events = #[] := (events_of_executions count _ succeed).trans silent
    rw [left, none]
    rfl

/-- A processor in a memory full of `LD (HL),A`. -/
def storing : Cpu :=
  { regs := { pc := 0xC000, h := 0xC0, l := 0x01, a := 0x3C } }

/-- A board with every byte of plain memory an `LD (HL),A`. -/
def fullBoard : Board :=
  { Board.boot (.romOnly (Bank.filled 0) (Bank.filled 0)) {} .discard with
    workRam := Bank.filled 0x77
    highRam := Bank.filled 0x77 }

/-- A flat memory of the same bytes. -/
def fullFlat : FlatBus :=
  { memory := Bank.filled 0x77 }

theorem agrees_full : fullBoard.Agrees fullFlat := by
  intro address plain
  have full : fullFlat.peek address = 0x77 := Bank.read_filled _ _
  have found := Region.bounds_of address
  rw [IsPlain] at plain
  rw [full, Board.memoryByte]
  cases region : Region.of address with
  | workRam0 | workRamN | echo | highRam => exact Bank.read_filled 0x77 _
  | romBank0 | romBankN | vram | externalRam | oam | unusable | io | interruptEnable =>
      rw [region, Region.first, Region.last] at found
      grind

/-- Executing an instruction of one byte from flat memory. -/
theorem execute_of_opcode (cpu : Cpu) (opcode : UInt8) {flat : FlatBus} {acted : System FlatBus}
    (unlocked : cpu.locked = none) (opened : flat.Open) (found : flat.peek cpu.regs.pc = opcode)
    (plain : opcode ≠ Opcode.escape) (bare : (Instruction.ofSlot opcode.toUInt16).immediate = .none)
    (acts : perform (Instruction.ofSlot opcode.toUInt16) opcode.toUInt16 cpu.regs.pc 0
      ((Instruction.ofSlot opcode.toUInt16).taken cpu.advance.regs.flags)
      ⟨cpu.advance, flat.note (.read cpu.regs.pc opcode)⟩ = .ok () acted) :
    final Cpu.execute ⟨cpu, flat⟩ = ⟨acted.cpu.settleEI, (Bus.takeStall acted.bus).2⟩ := by
  have read := FlatBus.read_apply opened cpu.regs.pc
  rw [found] at read
  have slot : Cpu.fetchSlot ⟨cpu, flat⟩ = .ok opcode.toUInt16 _ := fetchSlot_of_read read plain
  have operand (system : System FlatBus) :
      fetchImmediate (Instruction.ofSlot opcode.toUInt16).immediate system = .ok 0 system := by
    rw [bare]
    rfl
  have executes := Cpu.execute_of_fetched unlocked slot (operand _)
  rw [final_of_ok (executes.trans (Cpu.conclude_of_perform acts))]

/-- A flat memory after the store, which has read its opcode and written its byte. -/
def FlatBus.stored (flat : FlatBus) : FlatBus :=
  { ((flat.note (.read 0xC000 0x77)).poke 0xC001 0x3C).note (.write 0xC001 0x3C) with stall := 0 }

theorem execute_storing {flat : FlatBus} (opened : flat.Open) (found : flat.peek 0xC000 = 0x77) :
    final Cpu.execute ⟨storing, flat⟩ = ⟨storing.skip 1, flat.stored⟩ := by
  have openedToo : (flat.note (.read 0xC000 0x77)).Open := ⟨opened.read, opened.write⟩
  have load : Instruction.ofSlot 0x77 = .load .atHL .a := by decide
  have target : storing.advance.regs.hl = 0xC001 := by decide
  have stores : perform (.load .atHL .a) 0x77 0xC000 0
      ((Instruction.load .atHL .a).taken storing.advance.regs.flags)
      ⟨storing.advance, flat.note (.read 0xC000 0x77)⟩ =
        access (Bus.write storing.advance.regs.hl 0x3C)
          ⟨storing.advance, flat.note (.read 0xC000 0x77)⟩ := rfl
  rw [target, access_apply, FlatBus.write_apply openedToo, ← load] at stores
  exact execute_of_opcode storing 0x77 rfl opened found (by decide) (by decide) stores

/-- The byte that has been stored is an `INC A`, and its opcode is all that is read next. -/
theorem accesses_stored {flat : FlatBus} (opened : flat.Open) :
    (final Cpu.execute ⟨storing.skip 1, flat.stored⟩).bus.accesses =
      flat.stored.accesses.push (.read 0xC001 0x3C) := by
  have openedToo : flat.stored.Open := ⟨opened.read, opened.write⟩
  have found : flat.stored.peek 0xC001 = 0x3C := (FlatBus.peek_poke _ _ _ _).trans (if_pos rfl)
  rw [execute_of_opcode (storing.skip 1) 0x3C rfl openedToo found (by decide) (by decide) rfl]
  rfl

/-- A program that overwrites its next instruction goes on with the new one. -/
theorem plain_runs_agree_storing :
    let onFlat := Cpu.executions 2 ⟨storing, fullFlat⟩
    onFlat.1 = [.ok (.execution 0x77 8 0), .ok (.execution 0x3C 4 0)] ∧
      onFlat.2.bus.peek 0xC001 = 0x3C ∧ onFlat.2.cpu.regs.a = 0x3D := by
  have opened : fullFlat.Open := ⟨fun _ => rfl, fun _ => rfl⟩
  have full (address : UInt16) : fullFlat.peek address = 0x77 := Bank.read_filled 0x77 _
  have plain : AllPlain (Cpu.executions 2 ⟨storing, fullFlat⟩).2.bus.accesses := by
    rw [Cpu.executions, Cpu.executions, Cpu.executions, execute_storing opened (full _),
      accesses_stored opened]
    decide
  intro onFlat
  obtain ⟨results, processor, bytes, _⟩ := plain_runs_agree storing fullBoard fullFlat
    (by decide +kernel) ⟨opened, fun _ _ => rfl, rfl⟩ rfl rfl agrees_full 2 plain
  refine ⟨?_, ?_, ?_⟩
  · rw [← results]
    decide +kernel
  · refine Except.ok.inj ((bytes 0xC001 (by decide)).symm.trans ?_)
    decide +kernel
  · rw [← processor]
    decide +kernel

end GameBoy
