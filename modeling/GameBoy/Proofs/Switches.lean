import GameBoy.Proofs.MappedBank
import GameBoy.Proofs.Reports
import Mathlib.Data.List.Destutter

/-!
# Switches of the ROM bank and of the display

A trace names the ROM bank at each write to the window of the bank number, and the power of the
display at each change of it.  The powers named are all that the display has gone through.  The last
bank named is the one mapped unless the first controller has since been given other upper bits: this
switches the bank and is not reported.
-/

namespace GameBoy

open Effect

/-- The bank of a report that a ROM bank is selected. -/
def Event.romBank? : Event → Option Nat
  | .romBankSelected bank => some bank
  | _ => none

/-- The power of a report that the display is switched. -/
def Event.lcdPower? : Event → Option Bool
  | .lcdPower enabled => some enabled
  | _ => none

namespace Board

/-- The ROM banks that the events name. -/
def romBanks (events : List Event) : List Nat :=
  events.filterMap Event.romBank?

/-- The powers of the display that the events name. -/
def lcdPowers (events : List Event) : List Bool :=
  events.filterMap Event.lcdPower?

theorem romBanks_append (events later : List Event) :
    romBanks (events ++ later) = romBanks events ++ romBanks later :=
  List.filterMap_append

theorem lcdPowers_append (events later : List Event) :
    lcdPowers (events ++ later) = lcdPowers events ++ lcdPowers later :=
  List.filterMap_append

variable {σ : Type} (render : Renderer σ) {board : Board} {address : UInt16}

/-! ## Reports of an operation -/

/-- Neither the bank nor the display concerns the serial port. -/
theorem names_serialReports (serial : Serial) :
    romBanks serial.reports = [] ∧ lcdPowers serial.reports = [] := by
  rw [Serial.reports]
  split
  · cases serial.lastSent <;> exact ⟨rfl, rfl⟩
  · exact ⟨rfl, rfl⟩

theorem reports_write_of_low (controlled : board.cartridge.mapper.isPresent = true)
    (low : address < 0x8000) (value : UInt8) :
    board.reports (.write address value) = board.romReports address value := by
  simp only [reports, refusal_of_controlled controlled low value, storeReports]
  rcases Region.of_rom_iff.mpr low with region | region <;> simp [region]

theorem romBanks_romReports (controlled : board.cartridge.mapper.isPresent = true)
    (value : UInt8) :
    romBanks (board.romReports address value) =
      if ControlWindow.rom.contains address then [(board.storeRom address value).mappedBank]
      else [] := by
  have window : ControlWindow.rom.contains address =
      (0x2000 ≤ address && address < 0x4000 : Bool) := by
    rw [Bool.eq_iff_iff, ControlWindow.contains_iff, Bool.and_eq_true, decide_eq_true_iff,
      decide_eq_true_iff, UInt16.le_iff_toNat_le, UInt16.lt_iff_toNat_lt]
    rfl
  rw [romReports, if_pos controlled, window, mappedBank_eq, banking_storeRom controlled]
  split <;> rfl

theorem romBanks_portReports (board : Board) (address : UInt16) (value : UInt8) :
    romBanks (board.portReports address value) = [] := by
  rw [portReports]
  cases Port.of address with
  | picture =>
      simp only
      split <;> rfl
  | _ => rfl

theorem romBanks_storeReports_of_high (high : ¬address < 0x8000) (value : UInt8) :
    romBanks (board.storeReports address value) = [] := by
  rw [storeReports]
  cases region : Region.of address with
  | romBank0 => exact absurd (Region.of_rom_iff.mp (.inl region)) high
  | romBankN => exact absurd (Region.of_rom_iff.mp (.inr region)) high
  | io =>
      simp only [romBanks_append, romBanks_portReports, names_serialReports, List.append_nil]
  | _ => rfl

/-- An operation names the bank mapped if it writes a bank number, and none otherwise. -/
theorem romBanks_reports (controlled : board.cartridge.mapper.isPresent = true) (screen : σ)
    (operation : Operation) :
    romBanks (board.reports operation) =
      if operation.selectsBank then [(operate render operation (board, screen)).1.mappedBank]
      else [] := by
  cases operation with
  | read address =>
      simp only [reports, Operation.selectsBank]
      cases board.peek address <;> rfl
  | write address value =>
      by_cases low : address < 0x8000
      · rw [operate_write_of_low render controlled low, reports_write_of_low controlled low]
        exact romBanks_romReports controlled value
      · have elsewhere : (Operation.write address value).selectsBank = false :=
          Bool.eq_false_iff.mpr fun selects =>
            low (ControlWindow.low_of_contains (by decide) selects)
        rw [elsewhere, reports]
        cases board.refusal address value with
        | some error => rfl
        | none => exact romBanks_storeReports_of_high low value
  | tick cycles | setButton button pressed => exact (names_serialReports _).1
  | request lines => rfl

theorem lcdPowers_storeReports (board : Board) (address : UInt16) (value : UInt8) :
    lcdPowers (board.storeReports address value) =
      if (board.ppu.write address value).lcdEnabled = board.ppu.lcdEnabled then []
      else [(board.ppu.write address value).lcdEnabled] := by
  by_cases io : Region.of address = .io
  · have told : lcdPowers (board.storeReports address value) =
        lcdPowers (board.portReports address value) := by
      simp only [storeReports, io, lcdPowers_append, names_serialReports, List.append_nil]
    rw [told, portReports]
    cases port : Port.of address with
    | picture =>
        simp only [bne_iff_ne, ne_eq, ite_not, @eq_comm _ board.ppu.lcdEnabled]
        split <;> rfl
    | _ =>
        rw [Ppu.write_of_port (by rw [port]; decide), if_pos rfl]
        rfl
  · rw [Ppu.write_of_region io, if_pos rfl, storeReports]
    cases region : Region.of address with
    | io => exact absurd region io
    | romBank0 | romBankN =>
        simp only [romReports]
        split
        · split <;> rfl
        · rfl
    | _ => rfl

theorem lcdEnabled_collect (board : Board) :
    board.collect.ppu.lcdEnabled = board.ppu.lcdEnabled := by
  obtain ⟨_, _, collected⟩ := board.collect_eq
  rw [collected]
  rfl

/-- An operation names the power of the display if it changes it, and none otherwise. -/
theorem lcdPowers_reports (board : Board) (screen : σ) (operation : Operation) :
    lcdPowers (board.reports operation) =
      if (operate render operation (board, screen)).1.ppu.lcdEnabled = board.ppu.lcdEnabled then []
      else [(operate render operation (board, screen)).1.ppu.lcdEnabled] := by
  cases operation with
  | read address =>
      have same : (operate render (.read address) (board, screen)).1.ppu = board.ppu := by
        rcases read_ok_or_record address board with same | ⟨event, same⟩ <;>
          simp only [operate, same]
        rfl
      rw [same, if_pos rfl, reports]
      cases board.peek address <;> rfl
  | write address value =>
      cases refused : board.refusal address value with
      | some error =>
          have same :
              (operate render (.write address value) (board, screen)).1.ppu = board.ppu := by
            simp only [operate, final, write_apply, refused]
            rfl
          rw [same, if_pos rfl, reports, refused]
          rfl
      | none =>
          have stored : (operate render (.write address value) (board, screen)).1 =
              board.store address value := by
            simp only [operate, final, write_apply, refused]
          have told : board.reports (.write address value) = board.storeReports address value := by
            simp only [reports, refused]
          rw [stored, told, lcdPowers_storeReports, (board.agrees_store address value).lcdEnabled]
  | tick cycles =>
      have same : (board.tick render cycles screen).1.ppu.lcdEnabled = board.ppu.lcdEnabled :=
        (lcdEnabled_collect _).trans (Ppu.lcdEnabled_tick render cycles screen board.ppu)
      rw [operate, same, if_pos rfl]
      exact (names_serialReports _).2
  | setButton button pressed =>
      have same : (board.setButton button pressed).ppu.lcdEnabled = board.ppu.lcdEnabled :=
        lcdEnabled_collect _
      rw [operate, same, if_pos rfl]
      exact (names_serialReports _).2
  | request lines => exact (if_pos rfl).symm

/-! ## Histories -/

/-- The banks named at the end of a history are those named before and by the last operation. -/
theorem romBanks_trace_concat {now : Board × σ}
    (controlled : now.1.cartridge.mapper.isPresent = true) (operations : List Operation)
    (operation : Operation) :
    romBanks (trace render (operations ++ [operation]) now) =
      romBanks (trace render operations now) ++
        if operation.selectsBank then
          [(operateAll render (operations ++ [operation]) now).1.mappedBank]
        else [] := by
  have stays := controlled_operateAll render controlled operations
  rw [trace_append, trace_singleton, romBanks_append, operateAll_concat]
  exact congrArg _ (romBanks_reports render stays (operateAll render operations now).2 operation)

/-- The last bank named is the one mapped unless it has been switched unseen since. -/
theorem last_romBank {start : Board × σ} (controlled : start.1.cartridge.mapper.isPresent = true)
    (operations : List Operation) :
    (∀ bank ∈ (romBanks (trace render operations start)).getLast?,
        bank = (operateAll render operations start).1.mappedBank) ∨
      ∃ earlier unseen later, operations = earlier ++ unseen :: later ∧
        (operateAll render earlier start).1.SwitchesUnseen unseen ∧
        ∀ operation ∈ later, operation.selectsBank = false := by
  -- from the end of the history, where a bank is named or may be switched unseen
  induction operations using List.reverseRecOn with
  | nil => exact .inl nofun
  | append_singleton operations operation ih =>
      have stays := controlled_operateAll render controlled operations
      rw [romBanks_trace_concat render controlled]
      cases selects : operation.selectsBank with
      | true =>
          left
          intro bank last
          simpa [eq_comm] using last
      | false =>
          rw [if_neg Bool.false_ne_true, List.append_nil, operateAll_concat]
          by_cases unseen : (operateAll render operations start).1.SwitchesUnseen operation
          · exact .inr ⟨operations, operation, [], rfl, unseen, nofun⟩
          · have switched := mappedBank_operate_ne_iff render stays
              (operateAll render operations start).2 selects
            have kept := not_not.mp (mt switched.mp unseen)
            refine ih.imp (fun named bank last => (named bank last).trans kept.symm) ?_
            rintro ⟨earlier, switch, later, rfl, switches, silent⟩
            refine ⟨earlier, switch, later ++ [operation], by simp, switches, ?_⟩
            simpa [or_imp, forall_and, selects] using silent

/-- The last bank named is always the one mapped just if the bank number alone selects the bank. -/
theorem last_romBank_always_iff {start : Board × σ}
    (controlled : start.1.cartridge.mapper.isPresent = true) :
    (∀ operations, ∀ bank ∈ (romBanks (trace render operations start)).getLast?,
        bank = (operateAll render operations start).1.mappedBank) ↔ start.1.SelectsByNumber := by
  constructor
  · intro named registers fitted
    -- select bank 1 and switch to bank 33
    let selecting : List Operation := [.write 0x4000 0x00, .write 0x2000 0x01]
    let switching : Operation := .write 0x4000 0x01
    have begun : start.1.banking = (.mbc1 registers, start.1.cartridge.rom.size) := by
      rw [banking, fitted]
    have names : romBanks (trace render (selecting ++ [switching]) start) =
        [1 % start.1.cartridge.rom.size] := by
      rw [romBanks_trace_concat render controlled selecting switching]
      change romBanks (trace render ([.write 0x4000 0x00] ++ [.write 0x2000 0x01]) start) ++ [] = _
      rw [romBanks_trace_concat render controlled [.write 0x4000 0x00], trace_singleton,
        romBanks_reports render controlled start.2, mappedBank_operateAll render controlled, begun]
      rfl
    have last : 1 % start.1.cartridge.rom.size = 33 % start.1.cartridge.rom.size := by
      refine (named (selecting ++ [switching]) _ ?_).trans ?_
      · rw [names]
        rfl
      · rw [mappedBank_operateAll render controlled, begun]
        rfl
    exact (Nat.modEq_iff_dvd' (by decide)).mp last
  · intro byNumber operations
    refine (last_romBank render controlled operations).resolve_right ?_
    rintro ⟨earlier, unseen, later, -, switches, -⟩
    exact (selectsByNumber_operateAll render controlled byNumber earlier).not_switchesUnseen
      unseen switches

/-! ## The display -/

/-- The power of the display at each moment of a history. -/
def powersDuring (operations : List Operation) (now : Board × σ) : List Bool :=
  (operations.scanl (fun now operation => operate render operation now) now).map
    fun moment => moment.1.ppu.lcdEnabled

theorem powersDuring_cons (operation : Operation) (operations : List Operation) (now : Board × σ) :
    powersDuring render (operation :: operations) now =
      now.1.ppu.lcdEnabled :: powersDuring render operations (operate render operation now) := by
  rw [powersDuring, List.scanl_cons, List.map_cons]
  rfl

theorem powersDuring_eq_cons (operations : List Operation) (now : Board × σ) : ∃ rest,
    powersDuring render operations now = now.1.ppu.lcdEnabled :: rest := by
  cases operations with
  | nil => exact ⟨[], rfl⟩
  | cons operation operations => exact ⟨_, powersDuring_cons render operation operations now⟩

/-- The powers named, after that at the start, are joined by the one that the next operation leaves
if it is another. -/
theorem cons_lcdPowers_trace_cons (operation : Operation) (operations : List Operation)
    (now : Board × σ) :
    now.1.ppu.lcdEnabled :: lcdPowers (trace render (operation :: operations) now) =
      let after := operate render operation now
      let later := after.1.ppu.lcdEnabled :: lcdPowers (trace render operations after)
      if after.1.ppu.lcdEnabled = now.1.ppu.lcdEnabled then later
      else now.1.ppu.lcdEnabled :: later := by
  rw [trace_cons, lcdPowers_append, lcdPowers_reports render now.1 now.2]
  by_cases same : (operate render operation now).1.ppu.lcdEnabled = now.1.ppu.lcdEnabled
  · rw [if_pos same]
    simp only [same, List.nil_append, if_true]
  · rw [if_neg same]
    simp only [if_neg same, List.singleton_append]

/-- The powers named are those the display goes through. -/
theorem cons_lcdPowers_trace (operations : List Operation) (now : Board × σ) :
    now.1.ppu.lcdEnabled :: lcdPowers (trace render operations now) =
      (powersDuring render operations now).destutter (· ≠ ·) := by
  induction operations generalizing now with
  | nil => rfl
  | cons operation operations ih =>
      have later := ih (operate render operation now)
      obtain ⟨rest, powers⟩ := powersDuring_eq_cons render operations (operate render operation now)
      rw [powers, List.destutter_cons'] at later
      rw [cons_lcdPowers_trace_cons, powersDuring_cons, powers, List.destutter_cons_cons]
      simp only [later]
      by_cases same : (operate render operation now).1.ppu.lcdEnabled = now.1.ppu.lcdEnabled
      · rw [if_pos same, if_neg (not_not_intro same.symm), same]
      · rw [if_neg same, if_pos (Ne.symm same)]

theorem getLast?_lcdPowers (operations : List Operation) (now : Board × σ) :
    (now.1.ppu.lcdEnabled :: lcdPowers (trace render operations now)).getLast? =
      some (operateAll render operations now).1.ppu.lcdEnabled := by
  induction operations generalizing now with
  | nil => rfl
  | cons operation operations ih =>
      rw [cons_lcdPowers_trace_cons]
      simp only
      split
      · exact ih _
      · exact List.getLast?_cons_cons.trans (ih _)

/-! ## Switches in a trace -/

/-- Whatever is done to a board with a bank controller, its sink is handed the trace.  In the trace
each operation names the bank mapped if it writes a bank number.  One that switches the bank and
does not name it gives the first controller other upper bits.  The last bank named is therefore the
one mapped unless such a switch has come later.  Just if the bank number alone selects the bank it
always is, and then each switch is named by the operation that makes it.  Each operation names the
power of the display if it changes it.  The powers named are those that the display goes through,
each different from the one before, and the last is the present one. -/
theorem trace_follows_switches {start : Board}
    (controlled : start.cartridge.mapper.isPresent = true) (screen : σ)
    (operations : List Operation) (next : Operation) :
    let begun := (start, screen)
    let now := operateAll render operations begun
    let after := operate render next now
    let told := trace render operations begun
    let tells := trace render [next] now
    now.1.sink = start.sink.recordList told ∧ after.1.sink = now.1.sink.recordList tells ∧
    (∀ address, 0x4000 ≤ address → address ≤ 0x7FFF →
      (now.1.cartridge.resolveRom address).1 = now.1.mappedBank) ∧
    romBanks tells = (if next.selectsBank then [after.1.mappedBank] else []) ∧
    (after.1.mappedBank ≠ now.1.mappedBank ∧ after.1.mappedBank ∉ romBanks tells ↔
      now.1.SwitchesUnseen next) ∧
    (start.SelectsByNumber → after.1.mappedBank ≠ now.1.mappedBank →
      romBanks tells = [after.1.mappedBank]) ∧
    ((∀ bank ∈ (romBanks told).getLast?, bank = now.1.mappedBank) ∨
      ∃ earlier unseen later, operations = earlier ++ unseen :: later ∧
        (operateAll render earlier begun).1.SwitchesUnseen unseen ∧
        ∀ operation ∈ later, operation.selectsBank = false) ∧
    ((∀ operations, ∀ bank ∈ (romBanks (trace render operations begun)).getLast?,
        bank = (operateAll render operations begun).1.mappedBank) ↔ start.SelectsByNumber) ∧
    lcdPowers tells =
      (if after.1.ppu.lcdEnabled = now.1.ppu.lcdEnabled then [] else [after.1.ppu.lcdEnabled]) ∧
    start.ppu.lcdEnabled :: lcdPowers told =
      (powersDuring render operations begun).destutter (· ≠ ·) ∧
    (start.ppu.lcdEnabled :: lcdPowers told).IsChain (· ≠ ·) ∧
    (start.ppu.lcdEnabled :: lcdPowers told).getLast? = some now.1.ppu.lcdEnabled := by
  intro begun now after told tells
  have fitted : begun.1.cartridge.mapper.isPresent = true := controlled
  have stays : now.1.cartridge.mapper.isPresent = true :=
    controlled_operateAll render fitted operations
  have reported : tells = now.1.reports next := trace_singleton render next now
  have named : romBanks tells = if next.selectsBank then [after.1.mappedBank] else [] := by
    rw [reported]
    exact romBanks_reports render stays now.2 next
  have switched (unnamed : next.selectsBank = false) :
      after.1.mappedBank ≠ now.1.mappedBank ↔ now.1.SwitchesUnseen next :=
    mappedBank_operate_ne_iff render stays now.2 unnamed
  have powers := cons_lcdPowers_trace render operations begun
  refine ⟨sink_operateAll render operations begun, sink_operateAll render [next] now,
    fun address => now.1.resolveRom_of_second, named, ?_, ?_,
    last_romBank render fitted operations, last_romBank_always_iff render fitted, ?_, powers, ?_,
    getLast?_lcdPowers render operations begun⟩
  · rw [named]
    cases selects : next.selectsBank with
    | true =>
        refine iff_of_false (fun unseen => unseen.2 (List.mem_singleton_self _)) fun unseen => ?_
        rw [unseen.selectsBank] at selects
        cases selects
    | false =>
        rw [if_neg Bool.false_ne_true, ← switched selects]
        exact and_iff_left (List.not_mem_nil)
  · intro byNumber differs
    have remains := selectsByNumber_operateAll render fitted byNumber operations
    cases selects : next.selectsBank with
    | true => rw [named, if_pos selects]
    | false => exact absurd ((switched selects).mp differs) (remains.not_switchesUnseen next)
  · rw [reported]
    exact lcdPowers_reports render now.1 now.2 next
  · change List.IsChain _ (begun.1.ppu.lcdEnabled :: lcdPowers told)
    rw [powers]
    exact List.isChain_destutter _ _

/-- A board with the first controller and 64 ROM banks, whose numbers need one of the upper bits. -/
def manyBanked : Board :=
  let cartridge : Cartridge :=
    { kind := { code := 0x01, controller := .mbc1 }
      rom := Array.replicate 64 (Bank.filled 0)
      ram := #[]
      mapper := .mbc1 {}
      two_le_rom := by simp }
  boot cartridge {} (.recording #[])

/-- The bank named second is still mapped when the upper bits are switched again. -/
theorem trace_follows_switches_manyBanked :
    let operations : List Operation :=
      [.write 0x2000 0x05, .write 0x4000 0x01, .write 0xFF40 0x11, .tick 100, .write 0x3FFF 0x06,
        .write 0xFF40 0x11, .write 0xFF40 0x91]
    let begun := (manyBanked, ())
    let now := operateAll Renderer.null operations begun
    let told := trace Renderer.null operations begun
    manyBanked.cartridge.mapper.isPresent = true ∧
    now.1.sink = Sink.recordList told (.recording #[]) ∧
    romBanks told = [5, 38] ∧ now.1.mappedBank = 38 ∧
    now.1.SwitchesUnseen (.write 0x5FFF 0x02) ∧
    (powersDuring Renderer.null operations begun).destutter (· ≠ ·) = [true, false, true] ∧
    now.1.ppu.lcdEnabled = true ∧
    ¬∀ operations, ∀ bank ∈ (romBanks (trace Renderer.null operations begun)).getLast?,
        bank = (operateAll Renderer.null operations begun).1.mappedBank := by
  intro operations begun now told
  have controlled : manyBanked.cartridge.mapper.isPresent = true := rfl
  have banks : romBanks told = [5, 38] := by decide +kernel
  have mapped : now.1.mappedBank = 38 := by decide +kernel
  have powers : lcdPowers told = [false, true] := by decide +kernel
  have switched : (operate Renderer.null (.write 0x5FFF 0x02) now).1.mappedBank = 6 := by
    decide +kernel
  have silent : romBanks (trace Renderer.null [.write 0x5FFF 0x02] now) = [] := by decide +kernel
  obtain ⟨handed, -, -, -, unseen, -, -, always, -, course, -, present⟩ :=
    trace_follows_switches Renderer.null controlled () operations (.write 0x5FFF 0x02)
  refine ⟨controlled, handed, banks, mapped, ?_, ?_, ?_, ?_⟩
  · refine unseen.mp ⟨?_, ?_⟩
    · rw [switched, mapped]
      decide
    · rw [silent]
      exact List.not_mem_nil
  · rw [← course, powers]
    rfl
  · rw [powers] at present
    exact (Option.some.inj present).symm
  · intro named
    exact absurd (always.mp named {} rfl) (by decide +kernel)

/-- Two writes lead from bank 1 to bank 33, and nothing is reported of the second. -/
theorem bank_switched_unseen :
    let before := operateAll Renderer.null [.write 0x2000 0x01] (manyBanked, ())
    let after := operate Renderer.null (.write 0x4000 0x01) before
    before.1.mappedBank = 1 ∧ after.1.mappedBank = 33 ∧
      before.1.sink.events = #[.romBankSelected 1] ∧
      after.1.sink.events = #[.romBankSelected 1] := by
  decide +kernel

end Board
end GameBoy
