import GameBoy.Proofs.Faults
import GameBoy.Proofs.Image
import GameBoy.Proofs.Routing
import GameBoy.Proofs.Turns

/-!
# Refused accesses

A board refuses few accesses: which ones depends on the address, on whether the cartridge has a
controller and on whether the board is strict about ROM.  A refused access is reported once and does
nothing else, and an access that is not refused reports no refusal.  So the faults of a machine are
refusals of these kinds and opcodes that the processor lacks.
-/

namespace GameBoy

namespace Effect

variable {ε σ α : Type}

/-- How an action fails, if it does. -/
def error? (action : EStateM ε σ α) (state : σ) : Option ε :=
  match action state with
  | .ok _ _ => none
  | .error error _ => some error

theorem error_of_error? {action : EStateM ε σ α} {state : σ} {error : ε}
    (failed : error? action state = some error) :
    action state = .error error (final action state) := by
  rw [error?] at failed
  rw [final]
  cases ran : action state with
  | ok value after => simp [ran] at failed
  | error first after =>
      rw [ran] at failed
      cases failed
      rfl

end Effect

open Effect

/-- The refusals of a board that is or is not strict about ROM. -/
def MemoryError.Refused (strict : Bool) : MemoryError → Prop
  | .unusable address _ => 0xFEA0 ≤ address ∧ address ≤ 0xFEFF
  | .vramDmaRead address => 0xFF51 ≤ address ∧ address ≤ 0xFF55
  | .readOnly address _ => strict = true ∧ address < 0x8000
  | .bankOutOfRange _ _ => False

/-! ## Addresses -/

theorem Region.of_rom_iff {address : UInt16} :
    Region.of address = .romBank0 ∨ Region.of address = .romBankN ↔ address < 0x8000 := by
  rw [of_eq_iff, of_eq_iff]
  simp only [first, last]
  grind

theorem Port.of_vramDma_iff {address : UInt16} :
    Port.of address = .vramDma ↔ 0xFF51 ≤ address ∧ address ≤ 0xFF55 := by
  rw [Port.of]
  repeat'
    refine iteInduction (motive := fun port =>
      port = Port.vramDma ↔ 0xFF51 ≤ address ∧ address ≤ 0xFF55) (fun here => ?_) fun past => ?_
  all_goals grind

theorem Mapper.isPresent_eq_false_iff {mapper : Mapper} :
    mapper.isPresent = false ↔ mapper = .none := by
  cases mapper <;> simp [isPresent]

namespace Board

/-- A read is refused at five registers only. -/
theorem peek_error_iff {board : Board} {address : UInt16} {error : MemoryError} :
    board.peek address = .error error ↔
      error = .vramDmaRead address ∧ 0xFF51 ≤ address ∧ address ≤ 0xFF55 := by
  by_cases io : Region.of address = .io
  · rw [← Port.of_vramDma_iff, peek, io]
    simp only [portByte]
    cases Port.of address <;> simp [eq_comm]
  · rw [peek_of_memory io]
    constructor
    · intro refused
      cases refused
    · rintro ⟨_, above, below⟩
      refine absurd ?_ io
      rw [Region.of_eq_iff, Region.first, Region.last]
      grind

/-- A write is refused where there is nothing, and at ROM that no controller guards if the board is
strict about it. -/
theorem refusal_eq_some_iff {board : Board} {address : UInt16} {value : UInt8}
    {error : MemoryError} :
    board.refusal address value = some error ↔
      error = .unusable address value ∧ 0xFEA0 ≤ address ∧ address ≤ 0xFEFF ∨
      error = .readOnly address value ∧ address < 0x8000 ∧ board.cartridge.mapper = .none ∧
        board.strictRomWrites = true := by
  have unusable : (0xFEA0 ≤ address ∧ address ≤ 0xFEFF) ↔ Region.of address = .unusable := by
    rw [Region.of_eq_iff, Region.first, Region.last]
  rw [unusable, ← Region.of_rom_iff, ← Mapper.isPresent_eq_false_iff, refusal]
  cases region : Region.of address with
  | romBank0 | romBankN =>
      cases board.strictRomWrites <;> cases board.cartridge.mapper.isPresent <;>
        simp [@eq_comm _ error]
  | _ => simp [@eq_comm _ error]

theorem read_fails_iff (board : Board) {address : UInt16} :
    (∃ error after, Bus.read address board = .error error after) ↔
      0xFF51 ≤ address ∧ address ≤ 0xFF55 := by
  cases found : board.peek address with
  | ok value =>
      rw [read_of_peek found]
      constructor
      · rintro ⟨error, after, failed⟩
        cases failed
      · intro range
        rw [peek_error_iff.mpr ⟨rfl, range⟩] at found
        cases found
  | error error =>
      rw [read_of_peek_error found]
      exact ⟨fun _ => (peek_error_iff.mp found).2, fun _ => ⟨_, _, rfl⟩⟩

theorem write_fails_iff (board : Board) {address : UInt16} {value : UInt8} :
    (∃ error after, Bus.write address value board = .error error after) ↔
      (0xFEA0 ≤ address ∧ address ≤ 0xFEFF) ∨
        (address < 0x8000 ∧ board.cartridge.mapper = .none ∧ board.strictRomWrites = true) := by
  rw [write_apply]
  cases refused : board.refusal address value with
  | none =>
      constructor
      · rintro ⟨error, after, failed⟩
        cases failed
      · rintro (nothing | strictly)
        · rw [refusal_eq_some_iff.mpr (.inl ⟨rfl, nothing⟩)] at refused
          cases refused
        · rw [refusal_eq_some_iff.mpr (.inr ⟨rfl, strictly⟩)] at refused
          cases refused
  | some error =>
      refine ⟨fun _ => ?_, fun _ => ⟨_, _, rfl⟩⟩
      exact (refusal_eq_some_iff.mp refused).imp And.right And.right

theorem after_of_read_error {board after : Board} {address : UInt16} {error : MemoryError}
    (failed : Bus.read address board = .error error after) :
    after = board.record (.memoryFault error) := by
  cases found : board.peek address with
  | ok value =>
      rw [read_of_peek found] at failed
      cases failed
  | error refused =>
      rw [read_of_peek_error found] at failed
      cases failed
      rfl

theorem after_of_write_error {board after : Board} {address : UInt16} {value : UInt8}
    {error : MemoryError} (failed : Bus.write address value board = .error error after) :
    after = board.record (.memoryFault error) := by
  rw [write_apply] at failed
  cases refused : board.refusal address value with
  | none =>
      rw [refused] at failed
      cases failed
  | some found =>
      rw [refused] at failed
      cases failed
      rfl

/-! ## Reports -/

/-- From one board to the other events have been reported, none of them a refused access. -/
def ReportsNoFault (board after : Board) : Prop :=
  ∃ events : List Event,
    after.sink = events.foldl (fun sink event => sink.record event) board.sink ∧
      ∀ error, Event.memoryFault error ∉ events

namespace ReportsNoFault

variable {board between after : Board}

theorem of_sink (same : after.sink = board.sink) : ReportsNoFault board after :=
  ⟨[], same, nofun⟩

theorem of_record {event : Event} (other : ∀ error, event ≠ .memoryFault error)
    (recorded : after.sink = board.sink.record event) : ReportsNoFault board after :=
  ⟨[event], recorded, by simpa [eq_comm] using other⟩

theorem of_notes (notes : Notes board after) : ReportsNoFault board after := by
  rcases notes with same | ⟨event, notice, recorded⟩
  · exact of_sink same
  · refine of_record (fun error fault => ?_) recorded
    rw [fault] at notice
    cases notice

theorem trans (first : ReportsNoFault board between) (second : ReportsNoFault between after) :
    ReportsNoFault board after := by
  obtain ⟨events, handed, none⟩ := first
  obtain ⟨others, later, neither⟩ := second
  refine ⟨events ++ others, ?_, fun error => ?_⟩
  · rw [later, handed, List.foldl_append]
  · simp [none error, neither error]

end ReportsNoFault

theorem reports_collect (board : Board) : ReportsNoFault board board.collect := by
  simp only [collect]
  split
  · rw [reportSent]
    split
    · exact .of_record (by simp) rfl
    · exact .of_sink rfl
  · exact .of_sink rfl

/-- A write that is not refused reports no refusal. -/
theorem reports_store (board : Board) (address : UInt16) (value : UInt8) :
    ReportsNoFault board (board.store address value) := by
  rw [store]
  cases Region.of address with
  | romBank0 | romBankN => exact .of_notes (notes_storeRom board address value)
  | io =>
      exact (ReportsNoFault.of_notes (notes_storePort board address value)).trans
        (reports_collect _)
  | _ => exact .of_sink rfl

/-! ## Strictness -/

theorem strictRomWrites_collect (board : Board) :
    board.collect.strictRomWrites = board.strictRomWrites := by
  obtain ⟨_, _, collected⟩ := board.collect_eq
  rw [collected]

theorem strictRomWrites_store (board : Board) (address : UInt16) (value : UInt8) :
    (board.store address value).strictRomWrites = board.strictRomWrites := by
  by_cases io : Region.of address = .io
  · rw [store_of_io io, strictRomWrites_collect, storePort]
    cases Port.of address with
    | picture =>
        obtain ⟨_, stored⟩ := board.storePicture_eq address value
        rw [stored]
    | oamDma => simp only [oamDma]
    | _ => rfl
  · obtain ⟨_, _, _, _, _, _, _, stored⟩ := store_of_memory io board value
    rw [stored]

/-- A board remains as strict as it is and refuses nothing else. -/
theorem confined (strict : Bool) :
    Bus.Confined (fun board : Board => board.strictRomWrites = strict)
      (MemoryError.Refused strict) where
  read address board same := by
    cases found : board.peek address with
    | ok value =>
        rw [read_of_peek found]
        exact same
    | error error =>
        rw [read_of_peek_error found]
        obtain ⟨rfl, range⟩ := peek_error_iff.mp found
        exact ⟨range, same⟩
  write address value board same := by
    rw [write_apply]
    cases refused : board.refusal address value with
    | none => exact (strictRomWrites_store board address value).trans same
    | some error =>
        refine ⟨?_, same⟩
        rcases refusal_eq_some_iff.mp refused with ⟨rfl, range⟩ | ⟨rfl, low, _, strictly⟩
        · exact range
        · exact ⟨same.symm.trans strictly, low⟩
  takeStall _ same := same
  report _ _ same := same

theorem lasting_strict (strict : Bool) : Lasting fun board => board.strictRomWrites = strict where
  read address := ((confined strict).read address).keeps
  write address value := ((confined strict).write address value).keeps
  takeStall := (confined strict).takeStall
  report := (confined strict).report
  tick _ _ _ _ same := (strictRomWrites_collect _).trans same
  setButton _ _ _ same := (strictRomWrites_collect _).trans same
  request _ _ same := same

end Board

/-! ## Machines -/

namespace Machine

/-- A machine whose board is or is not strict, and which hangs only on opcodes that it lacks. -/
abbrev Sane (strict : Bool) (machine : Machine) : Prop :=
  System.Sane (fun board : Board => board.strictRomWrites = strict) machine

variable {strict : Bool} {machine later : Machine}

theorem sane_boot (cartridge : Cartridge) (config : Config) (sink : Sink) :
    (boot cartridge config sink).Sane config.strictRomWrites := by
  constructor
  · rw [boot, Board.boot]
    cases config.bootState <;> rfl
  · intro error locked
    rw [boot] at locked
    cases state : config.bootState <;> rw [state] at locked <;> cases locked

/-- Whatever happens to a machine, it stays sane. -/
theorem Turn.sane (turn : Turn machine later) (sane : machine.Sane strict) :
    later.Sane strict := by
  have bus := Board.confined strict
  refine ⟨turn.keeps (Board.lasting_strict strict) sane.bus, ?_⟩
  cases turn with
  | step render screen =>
      have kept := bus.step.keeps machine sane
      cases ran : Cpu.step machine with
      | ok quantum after =>
          rw [final_of_ok ran] at kept
          rw [final_of_ok (Session.step_of_ok ran)]
          exact kept.lock
      | error fault after =>
          rw [final_of_error ran] at kept
          rw [final_of_error (Session.step_of_error ran)]
          exact kept.lock
  | look => exact ((bus.law.lookAhead Exec.sane_cpu).keeps machine sane).lock
  | operate render screen operation => exact sane.lock

theorem Turns.sane (turns : Turns machine later) (sane : machine.Sane strict) :
    later.Sane strict := by
  induction turns with
  | refl => exact sane
  | tail _ turn ih => exact turn.sane ih

end Machine

/-- A read is refused at five registers only, and a write only where there is nothing or at ROM
without a controller if the board is strict.  A refused access has no effect but one report, a read
none at all, and an access that is not refused reports no refusal.  It does not matter whether banks
are looked up among those present, and transfers made byte by byte.  So whatever has happened to a
machine, a step of it fails on an opcode that the processor lacks or on such a refusal. -/
theorem refusals_exact (cartridge : Cartridge) (config : Config) (sink : Sink) :
    (∀ (board : Board) (address : UInt16) (value : UInt8),
      ((∃ error after, Bus.read address board = .error error after) ↔
        0xFF51 ≤ address ∧ address ≤ 0xFF55) ∧
      ((∃ error after, Bus.write address value board = .error error after) ↔
        (0xFEA0 ≤ address ∧ address ≤ 0xFEFF) ∨
          (address < 0x8000 ∧ board.cartridge.mapper = .none ∧ board.strictRomWrites = true)) ∧
      (∀ error after, Bus.read address board = .error error after ∨
          Bus.write address value board = .error error after →
        after = board.record (.memoryFault error)) ∧
      (∀ found after, Bus.read address board = .ok found after → after = board) ∧
      (∀ after, Bus.write address value board = .ok () after → board.ReportsNoFault after) ∧
      Bus.read address board = Board.reporting (Board.routedRead address) board ∧
      Bus.write address value board = Board.reporting (Board.routedWrite address value) board) ∧
    ∀ {σ : Type} (render : Renderer σ) (later : Machine) (screen : σ) (fault : Fault)
      (after : Session σ),
      (Machine.boot cartridge config sink).Turns later →
      Session.step render ⟨later, screen⟩ = .error fault after →
      fault.Within (MemoryError.Refused config.strictRomWrites) := by
  constructor
  · intro board address value
    refine ⟨board.read_fails_iff, board.write_fails_iff, ?_, ?_, ?_,
      congrFun (Board.read_eq_routed address) board,
      congrFun (Board.write_eq_routed address value) board⟩
    · rintro error after (failed | failed)
      · exact Board.after_of_read_error failed
      · exact Board.after_of_write_error failed
    · intro found after ran
      rw [Board.read_of_peek (Board.peek_of_read ran)] at ran
      cases ran
      rfl
    · intro after ran
      rw [Board.store_of_write ran]
      exact board.reports_store address value
  · intro σ render later screen fault after turns failed
    have sane := turns.sane (Machine.sane_boot cartridge config sink)
    cases ran : Cpu.step later with
    | ok quantum next =>
        rw [Session.step_of_ok ran] at failed
        cases failed
    | error refused next =>
        rw [Session.step_of_error ran] at failed
        cases failed
        exact (Board.confined _).step.of_error sane ran

/-- A machine that is strict about ROM and soon stores into it: NOP; LD (HL),A. -/
def strictStore : Machine :=
  .boot (.romOnly (Bank.ofProgram [0x00, 0x77]) (Bank.filled 0))
    { strictRomWrites := true } .discard

theorem refusals_exact_strictStore :
    ∃ after, Session.step Renderer.null ⟨strictStore.afterSteps 1, ()⟩ =
        .error (.memory (.readOnly 0x014D 0x01)) after ∧
      (Fault.memory (.readOnly 0x014D 0x01)).Within (MemoryError.Refused true) := by
  have failed : Session.step Renderer.null ⟨strictStore.afterSteps 1, ()⟩ =
      .error (.memory (.readOnly 0x014D 0x01)) _ :=
    error_of_error? (by decide +kernel)
  have turns : strictStore.Turns (strictStore.afterSteps 1) :=
    .single (.step Renderer.null () strictStore)
  exact ⟨_, failed, (refusals_exact _ _ _).2 Renderer.null _ () _ _ turns failed⟩

end GameBoy
