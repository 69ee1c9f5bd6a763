import GameBoy.Proofs.Splitting

/-!
# Buttons in the course of time

The joypad is moved from two sides: the host presses and releases buttons, and writes to the joypad
register select groups.  From all that has moved it, oldest first, follow the buttons that are held
and the groups that are selected, whatever else has happened to the machine.
-/

namespace GameBoy

open Effect

/-! ## What moves the joypad -/

namespace Joypad

/-- What moves the joypad. -/
inductive Input where
  | button (button : Button) (pressed : Bool)
  /-- A write to the joypad register. -/
  | select (value : UInt8)
deriving DecidableEq

/-- Whether the input presses or releases the button, if it is one of the button. -/
def Input.press? (button : Button) : Input → Option Bool
  | .button other pressed => if other = button then some pressed else none
  | .select _ => none

/-- The value written to the register. -/
def Input.selection? : Input → Option UInt8
  | .button .. => none
  | .select value => some value

/-- The button has last been pressed, and not released since. -/
def heldAfter (inputs : List Input) (button : Button) : Bool :=
  (inputs.filterMap (Input.press? button)).getLastD false

/-- The value last written to the register; at first no group is selected. -/
def selectionAfter (inputs : List Input) : UInt8 :=
  (inputs.filterMap Input.selection?).getLastD 0x30

@[simp]
theorem heldAfter_press (inputs : List Input) (other button : Button) (pressed : Bool) :
    heldAfter (inputs ++ [.button other pressed]) button =
      if other = button then pressed else heldAfter inputs button := by
  by_cases same : other = button <;> simp [heldAfter, Input.press?, same]

@[simp]
theorem heldAfter_select (inputs : List Input) (value : UInt8) (button : Button) :
    heldAfter (inputs ++ [.select value]) button = heldAfter inputs button := by
  simp [heldAfter, Input.press?]

@[simp]
theorem selectionAfter_press (inputs : List Input) (button : Button) (pressed : Bool) :
    selectionAfter (inputs ++ [.button button pressed]) = selectionAfter inputs := by
  simp [selectionAfter, Input.selection?]

@[simp]
theorem selectionAfter_select (inputs : List Input) (value : UInt8) :
    selectionAfter (inputs ++ [.select value]) = value := by
  simp [selectionAfter, Input.selection?]

end Joypad

/-- The bit of the joypad register that selects the group of the button when it is clear. -/
def Button.groupBit : Button → UInt8
  | .right | .left | .up | .down => 0x10
  | .a | .b | .select | .start => 0x20

/-- A value written to the joypad register selects the group of the button. -/
def Button.SelectedBy (button : Button) (value : UInt8) : Prop :=
  value &&& button.groupBit = 0

instance (button : Button) (value : UInt8) : Decidable (button.SelectedBy value) :=
  inferInstanceAs (Decidable (_ = _))

theorem Button.index_inj {first second : Button} : first.index = second.index ↔ first = second := by
  cases first <;> cases second <;> decide

namespace Joypad

/-- The joypad is as the inputs have left it. -/
structure Reflects (inputs : List Input) (joypad : Joypad) : Prop where
  held : ∀ button : Button, joypad.held.get button.index = heldAfter inputs button
  select : joypad.select = selectionAfter inputs &&& 0x30

namespace Reflects

variable {inputs : List Input} {joypad : Joypad} (reflects : Reflects inputs joypad)

include reflects

theorem acknowledge : Reflects inputs joypad.acknowledge :=
  ⟨reflects.held, reflects.select⟩

theorem write (value : UInt8) : Reflects (inputs ++ [.select value]) (joypad.write value) where
  held button := by
    rw [heldAfter_select]
    exact reflects.held button
  select := by
    rw [selectionAfter_select]
    rfl

theorem setButton (button : Button) (pressed : Bool) :
    Reflects (inputs ++ [.button button pressed]) (joypad.setButton button pressed) where
  held other := by
    rw [heldAfter_press, ← reflects.held other]
    refine (Vector.getElem_set button.index.isLt other.index.isLt).trans ?_
    simp only [Fin.val_inj, Button.index_inj]
    rfl
  select := by
    rw [selectionAfter_press]
    exact reflects.select

end Reflects

theorem reflects_boot : Reflects [] {} where
  held button := by cases button <;> rfl
  select := rfl

/-! ## The lines -/

/-- The two buttons of a line. -/
theorem exists_buttons (line : Fin 4) : ∃ direction action : Button,
    (direction.index.val = line.val ∧ direction.groupBit = 0x10) ∧
      action.index.val = line.val + 4 ∧ action.groupBit = 0x20 :=
  match line with
  | 0 => ⟨.right, .a, ⟨rfl, rfl⟩, rfl, rfl⟩
  | 1 => ⟨.left, .b, ⟨rfl, rfl⟩, rfl, rfl⟩
  | 2 => ⟨.up, .select, ⟨rfl, rfl⟩, rfl, rfl⟩
  | 3 => ⟨.down, .start, ⟨rfl, rfl⟩, rfl, rfl⟩

/-- Some line is low if a button is held that belongs to a group selected. -/
theorem exists_lineLow_iff (joypad : Joypad) : (∃ line, joypad.lineLow line = true) ↔
    ∃ button : Button, joypad.held.get button.index = true ∧ button.SelectedBy joypad.select := by
  constructor
  · rintro ⟨line, low⟩
    obtain ⟨direction, action, ⟨first, directions⟩, second, actions⟩ := exists_buttons line
    simp only [lineLow, directionsSelected, actionsSelected, Bool.or_eq_true, Bool.and_eq_true,
      beq_iff_eq] at low
    rcases low with ⟨selected, held⟩ | ⟨selected, held⟩
    · refine ⟨direction, ?_, ?_⟩
      · rw [show direction.index = ⟨line, Nat.lt_add_right 4 line.isLt⟩ from Fin.ext first]
        exact held
      · rwa [Button.SelectedBy, directions]
    · refine ⟨action, ?_, ?_⟩
      · rw [show action.index = ⟨line + 4, Nat.add_lt_add_right line.isLt 4⟩ from Fin.ext second]
        exact held
      · rwa [Button.SelectedBy, actions]
  · rintro ⟨button, held, selected⟩
    refine ⟨⟨button.index.val % 4, Nat.mod_lt _ (by decide)⟩, ?_⟩
    rw [lineLow, Bool.or_eq_true, Bool.and_eq_true, Bool.and_eq_true]
    cases button with
    | right | left | up | down => exact .inl ⟨beq_iff_eq.mpr selected, held⟩
    | a | b | select | start => exact .inr ⟨beq_iff_eq.mpr selected, held⟩

theorem lines_eq_iff (joypad : Joypad) :
    joypad.lines = 0x0F ↔ ¬∃ line, joypad.lineLow line = true := by
  have some_low : (∃ line, joypad.lineLow line = true) ↔
      (joypad.lineLow 0 || joypad.lineLow 1 || joypad.lineLow 2 || joypad.lineLow 3) = true := by
    simp [Fin.exists_fin_succ, or_assoc]
  rw [some_low, lines]
  cases joypad.lineLow 0 <;> cases joypad.lineLow 1 <;> cases joypad.lineLow 2 <;>
    cases joypad.lineLow 3 <;> decide

/-- The lower half of the register is the lines. -/
theorem Reflects.read_and_nibble {inputs : List Input} {joypad : Joypad}
    (reflects : Reflects inputs joypad) : joypad.read &&& 0x0F = joypad.lines := by
  have nibble : joypad.lines &&& 0x0F = joypad.lines := by
    rw [lines]
    cases joypad.lineLow 0 <;> cases joypad.lineLow 1 <;> cases joypad.lineLow 2 <;>
      cases joypad.lineLow 3 <;> rfl
  have above : joypad.select &&& 0x0F = 0 := by
    rw [reflects.select, UInt8.and_assoc]
    exact UInt8.and_zero
  rw [read, Ppu.or_and_mask, Ppu.or_and_mask, above, nibble]
  exact UInt8.zero_or

/-- All four lines are high unless a button is held that belongs to a group selected. -/
theorem Reflects.lines_high_iff {inputs : List Input} {joypad : Joypad}
    (reflects : Reflects inputs joypad) : joypad.read &&& 0x0F = 0x0F ↔
      ¬∃ button : Button, heldAfter inputs button = true ∧
        button.SelectedBy (selectionAfter inputs) := by
  have same (button : Button) :
      button.SelectedBy joypad.select ↔ button.SelectedBy (selectionAfter inputs) := by
    rw [reflects.select, Button.SelectedBy, UInt8.and_assoc]
    cases button <;> rfl
  simp only [reflects.read_and_nibble, lines_eq_iff, exists_lineLow_iff, reflects.held, same]

end Joypad

/-! ## Boards -/

/-- What a write to the bus is for the joypad, if it goes to the joypad register. -/
def Joypad.Input.ofWrite? (address : UInt16) (value : UInt8) : Option Joypad.Input :=
  if address = Cpu.joypadAddress then some (.select value) else none

/-- What an operation from outside is for the joypad. -/
def Board.Operation.input? : Board.Operation → Option Joypad.Input
  | .write address value => Joypad.Input.ofWrite? address value
  | .setButton button pressed => some (.button button pressed)
  | .read _ | .tick _ | .request _ => none

theorem Port.eq_of_joypad {address : UInt16} (port : Port.of address = .joypad) :
    address = Cpu.joypadAddress := by
  by_contra elsewhere
  rw [Port.of, if_neg (by exact elsewhere)] at port
  repeat' split at port
  all_goals cases port

namespace Board

open Joypad

variable {inputs : List Input} {board : Board}

theorem joypad_storePort {address : UInt16} (elsewhere : address ≠ Cpu.joypadAddress)
    (board : Board) (value : UInt8) : (board.storePort address value).joypad = board.joypad := by
  rw [storePort]
  cases port : Port.of address with
  | joypad => exact absurd (Port.eq_of_joypad port) elsewhere
  | picture =>
      obtain ⟨_, stored⟩ := board.storePicture_eq address value
      rw [stored]
  | oamDma => simp only [oamDma]
  | _ => rfl

theorem reflects_collect (reflects : Reflects inputs board.joypad) :
    Reflects inputs board.collect.joypad := by
  obtain ⟨_, _, collected⟩ := board.collect_eq
  rw [collected]
  exact reflects.acknowledge

theorem reflects_tick {σ : Type} (render : Renderer σ) (cycles : Nat) (screen : σ)
    (reflects : Reflects inputs board.joypad) :
    Reflects inputs (board.tick render cycles screen).1.joypad := by
  rw [tick_eq_passed]
  exact reflects_collect reflects

theorem reflects_store (address : UInt16) (value : UInt8)
    (reflects : Reflects inputs board.joypad) :
    Reflects (inputs ++ (Input.ofWrite? address value).toList)
      (board.store address value).joypad := by
  by_cases here : address = Cpu.joypadAddress
  · subst here
    rw [store_of_io rfl]
    have written : Reflects (inputs ++ [.select value])
        (board.storePort Cpu.joypadAddress value).joypad := reflects.write value
    exact reflects_collect written
  · rw [Input.ofWrite?, if_neg here, Option.toList_none, List.append_nil]
    by_cases io : Region.of address = .io
    · rw [store_of_io io]
      apply reflects_collect
      rw [joypad_storePort here]
      exact reflects
    · obtain ⟨_, _, _, _, _, _, _, stored⟩ := store_of_memory io board value
      rw [stored]
      exact reflects

theorem reflects_read (address : UInt16) (reflects : Reflects inputs board.joypad) :
    Reflects inputs (final (Bus.read address) board).joypad := by
  rcases read_ok_or_record address board with same | ⟨event, same⟩ <;> rw [same] <;> exact reflects

/-- Every operation from outside is reflected; a write to the joypad register is never refused. -/
theorem reflects_operate {σ : Type} (render : Renderer σ) (operation : Operation) (screen : σ)
    (reflects : Reflects inputs board.joypad) :
    Reflects (inputs ++ operation.input?.toList)
      (operate render operation (board, screen)).1.joypad := by
  cases operation with
  | read address =>
      rw [Operation.input?, Option.toList_none, List.append_nil]
      exact reflects_read address reflects
  | write address value =>
      simp only [operate, final, write_apply]
      cases refused : board.refusal address value with
      | none => exact reflects_store address value reflects
      | some error =>
          have elsewhere : address ≠ Cpu.joypadAddress := by
            rintro rfl
            rw [refusal_of_io rfl] at refused
            cases refused
          rw [Operation.input?, Input.ofWrite?, if_neg elsewhere, Option.toList_none,
            List.append_nil]
          exact reflects
  | tick cycles =>
      rw [Operation.input?, Option.toList_none, List.append_nil]
      exact reflects_tick render cycles screen reflects
  | setButton button pressed =>
      let pushed : Board := { board with joypad := board.joypad.setButton button pressed }
      have moved : Reflects (inputs ++ [.button button pressed]) pushed.joypad :=
        reflects.setButton button pressed
      exact reflects_collect moved
  | request lines =>
      rw [Operation.input?, Option.toList_none, List.append_nil]
      exact reflects

/-- What the writes on a tape are for the joypad. -/
def selections (writes : List (Stored Board)) : List Input :=
  writes.flatMap fun stored => (Input.ofWrite? stored.address stored.value).toList

/-- The joypad reflects what has moved it before and the writes on the tape. -/
def Recorded (inputs : List Input) (taped : Taped Board) : Prop :=
  Reflects (inputs ++ selections taped.writes) taped.bus.joypad

theorem invariant_recorded (inputs : List Input) : Bus.Invariant (Recorded inputs) where
  read address taped recorded := by
    have found := reflects_read address recorded
    rw [final] at found
    rw [final, Taped.read_apply]
    cases ran : Bus.read address taped.bus <;> rw [ran] at found <;> exact found
  write address value taped recorded := by
    rw [final, Taped.write_apply, write_apply]
    cases taped.bus.refusal address value with
    | some error => exact recorded
    | none =>
        have stored := reflects_store address value recorded
        rw [Recorded, selections, List.flatMap_append, List.flatMap_singleton, ← List.append_assoc]
        exact stored
  takeStall _ recorded := recorded
  report _ _ recorded := recorded

end Board

/-! ## Machines -/

namespace Machine

open Joypad

/-- The machine with an empty tape beside its bus. -/
def taped (machine : Machine) : System (Taped Board) :=
  ⟨machine.cpu, ⟨machine.bus, []⟩⟩

/-- What the next step is for the joypad, failed or not. -/
def selections (machine : Machine) : List Input :=
  Board.selections (final Cpu.step machine.taped).bus.writes

theorem reflects_step {inputs : List Input} {machine : Machine}
    (reflects : Reflects inputs machine.bus.joypad) :
    Reflects (inputs ++ machine.selections) (final Cpu.step machine).bus.joypad := by
  have begun : Board.Recorded inputs machine.taped.bus := by
    rw [Board.Recorded, taped, Board.selections, List.flatMap_nil, List.append_nil]
    exact reflects
  have seen : final Cpu.step machine = (final Cpu.step machine.taped).view Taped.bus :=
    final_see (Taped.sees_bus.law.step machine.taped)
  rw [seen]
  exact (Board.invariant_recorded inputs).step machine.taped begun

/-- A step with its time leaves what the step leaves, with cycles passed unless it has failed. -/
theorem final_sessionStep {σ : Type} (render : Renderer σ) (screen : σ) (machine : Machine) :
    let after := final Cpu.step machine
    let left := (final (Session.step render) ⟨machine, screen⟩).machine
    left = after ∨ ∃ cycles, left = ⟨after.cpu, (after.bus.tick render cycles screen).1⟩ := by
  cases ran : Cpu.step machine with
  | ok quantum after =>
      rw [final_of_ok ran, final_of_ok (Session.step_of_ok ran)]
      exact .inr ⟨quantum.cycles, rfl⟩
  | error fault after =>
      rw [final_of_error ran, final_of_error (Session.step_of_error ran)]
      exact .inl rfl

/-- Looking ahead changes nothing, but a refused read is reported. -/
theorem final_nextOpcode (machine : Machine) : final nextOpcode machine = machine ∨
    ∃ event, final nextOpcode machine = ⟨machine.cpu, machine.bus.record event⟩ := by
  have looks := machine.nextOpcode_apply
  split at looks
  · cases fetched : machine.bus.peek machine.cpu.regs.pc with
    | ok opcode =>
        rw [map_of_ok (read_apply fetched)] at looks
        exact .inl (final_of_ok looks)
    | error error =>
        rw [map_of_error (read_apply_of_error fetched)] at looks
        exact .inr ⟨_, final_of_error looks⟩
  · exact .inl (final_of_ok looks)

/-- A machine that another one has become by turns, with all that has moved its joypad on the way,
oldest first. -/
inductive Handled (first : Machine) : List Input → Machine → Prop
  | start : Handled first [] first
  | step {inputs : List Input} {machine : Machine} {σ : Type} (render : Renderer σ) (screen : σ) :
      Handled first inputs machine →
      Handled first (inputs ++ machine.selections)
        (final (Session.step render) ⟨machine, screen⟩).machine
  | look {inputs : List Input} {machine : Machine} :
      Handled first inputs machine → Handled first inputs (final nextOpcode machine)
  | operate {inputs : List Input} {machine : Machine} {σ : Type} (render : Renderer σ) (screen : σ)
      (operation : Board.Operation) :
      Handled first inputs machine →
      Handled first (inputs ++ operation.input?.toList)
        ⟨machine.cpu, (Board.operate render operation (machine.bus, screen)).1⟩

namespace Handled

variable {first machine : Machine} {inputs : List Input}

theorem turns (handled : first.Handled inputs machine) : first.Turns machine := by
  induction handled with
  | start => exact .refl
  | step render screen _ ih => exact ih.tail (.step render screen _)
  | look _ ih => exact ih.tail (.look _)
  | operate render screen operation _ ih => exact ih.tail (.operate render screen operation _)

/-- The joypad is as all that has moved it has left it. -/
theorem reflects (handled : first.Handled inputs machine)
    (begun : Reflects [] first.bus.joypad) : Reflects inputs machine.bus.joypad := by
  induction handled with
  | start => exact begun
  | @step inputs machine σ render screen _ ih =>
      rcases machine.final_sessionStep render screen with same | ⟨cycles, same⟩
      · rw [same]
        exact reflects_step ih
      · rw [same]
        exact Board.reflects_tick render cycles screen (reflects_step ih)
  | @look inputs machine _ ih =>
      rcases machine.final_nextOpcode with same | ⟨event, same⟩ <;> rw [same] <;> exact ih
  | operate render screen operation _ ih => exact Board.reflects_operate render operation screen ih

end Handled
end Machine
end GameBoy
