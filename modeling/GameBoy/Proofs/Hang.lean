import GameBoy.Proofs.Breakpoint
import GameBoy.Proofs.Refusal

/-!
# Hanging

The processor hangs on the eleven opcodes that it lacks and on nothing else.  The report of the
opcode is the last thing that it does: from then on each way to drive it fails with the same error
and changes nothing, whatever happens to the board meanwhile.
-/

namespace GameBoy

open Effect

/-- The opcodes that the processor lacks. -/
def Opcode.holes : List UInt8 :=
  [0xD3, 0xDB, 0xDD, 0xE3, 0xE4, 0xEB, 0xEC, 0xED, 0xF4, 0xFC, 0xFD]

namespace Instruction

theorem ofSlot_eq_illegal_iff (opcode : UInt8) :
    ofSlot opcode.toUInt16 = .illegal ↔ opcode ∈ Opcode.holes :=
  forall_byte opcode (by decide +kernel)

theorem ofSlot_extended_ne_illegal (opcode : UInt8) :
    ofSlot (0x100 ||| opcode.toUInt16) ≠ .illegal :=
  forall_byte opcode (by decide +kernel)

theorem isIllegal_iff {instruction : Instruction} :
    instruction.isIllegal = true ↔ instruction = .illegal ∨ instruction = .escape := by
  cases instruction <;> simp [isIllegal]

end Instruction

namespace Exec

variable {α β : Type}

/-! ## Actions that do not hang the processor -/

/-- The action fails on refused accesses only. -/
def NeverHangs (action : Exec β α) : Prop :=
  ∀ system error after, action system ≠ .error (.decode error) after

theorem neverHangs_access (action : Access β α) : NeverHangs (access action) := by
  intro system error after failed
  rw [access_apply] at failed
  cases ran : action system.bus <;> rw [ran] at failed <;> cases failed

theorem neverHangs_modifyCpu (change : Cpu → Cpu) : NeverHangs (modifyCpu (β := β) change) := by
  intro system error after failed
  rw [modifyCpu_apply] at failed
  cases failed

variable [Bus β]

theorem law_neverHangs : Law fun _ _ (action : Exec β _) (_ : Exec β _) => NeverHangs action where
  pure _ := by
    intro system error after failed
    cases failed
  bind first rest := by
    intro system error after failed
    rcases bind_error.mp failed with early | ⟨value, between, _, late⟩
    · exact first system error after early
    · exact rest value between error after late
  mono _ never := never
  registers := by
    intro system error after failed
    cases failed
  read address := neverHangs_access _
  write address value := neverHangs_access _
  modify change _ _ := neverHangs_modifyCpu _

/-- An opcode that the processor has does not hang it. -/
theorem neverHangs_perform {instruction : Instruction} (legal : instruction.isIllegal = false)
    (slot start immediate : UInt16) (taken : Bool) :
    NeverHangs (perform (β := β) instruction slot start immediate taken) :=
  law_neverHangs.perform legal (fun _ _ _ => neverHangs_modifyCpu _)
    (fun _ _ _ => neverHangs_modifyCpu _) slot start immediate taken

end Exec

/-! ## Hanging -/

namespace Cpu

open Exec

variable {β : Type} [Bus β] {system : System β} {opcode : UInt8} {fetched : β}

/-- The slot fetched holds nothing just if the opcode is one that the processor lacks. -/
theorem isIllegal_of_fetchSlot
    (found : Bus.read system.cpu.regs.pc system.bus = .ok opcode fetched) {slot : UInt16}
    {after : System β} (ran : fetchSlot system = .ok slot after) :
    (Instruction.ofSlot slot).isIllegal = true ↔ opcode ∈ Opcode.holes := by
  rw [Instruction.isIllegal_iff, or_iff_left (ofSlot_of_fetchSlot ran)]
  rw [fetchSlot, bind_of_ok (fetch_of_read found)] at ran
  by_cases escaped : opcode = Opcode.escape
  · rw [if_pos escaped] at ran
    obtain ⟨low, _, _, done⟩ := bind_ok.mp ran
    cases done
    subst escaped
    exact iff_of_false (Instruction.ofSlot_extended_ne_illegal low) (by decide)
  · rw [if_neg escaped] at ran
    cases ran
    exact Instruction.ofSlot_eq_illegal_iff opcode

/-- An opcode that the processor lacks is reported, and the processor hangs. -/
theorem execute_of_hole (unlocked : system.cpu.locked = none)
    (found : Bus.read system.cpu.regs.pc system.bus = .ok opcode fetched)
    (hole : opcode ∈ Opcode.holes) :
    let error := DecodeError.illegalOpcode opcode.toUInt16 system.cpu.regs.pc
    execute system = .error (.decode error)
      ⟨{ system.cpu.advance with locked := some error },
        Bus.report (.illegalOpcode error system.cpu.advance.regs) fetched⟩ := by
  intro error
  have plain : opcode ≠ Opcode.escape := by
    rintro rfl
    exact absurd hole (by decide)
  have slot := fetchSlot_of_read found plain
  have illegal := (Instruction.ofSlot_eq_illegal_iff opcode).mpr hole
  have bare : fetchImmediate (Instruction.ofSlot opcode.toUInt16).immediate
      ⟨system.cpu.advance, fetched⟩ = .ok 0 ⟨system.cpu.advance, fetched⟩ := by
    rw [illegal]
    rfl
  rw [execute_eq_conclude, bind_of_ok (requireUnlocked_of_unlocked unlocked),
    bind_of_ok (registers_apply _), bind_of_ok slot, bind_of_ok bare, conclude, illegal]
  rfl

/-- No other opcode hangs it. -/
theorem neverHangs_of_not_hole (unlocked : system.cpu.locked = none)
    (found : Bus.read system.cpu.regs.pc system.bus = .ok opcode fetched)
    (legal : opcode ∉ Opcode.holes) (error : DecodeError) (after : System β) :
    execute system ≠ .error (.decode error) after := by
  intro ran
  rw [execute_eq_conclude, bind_of_ok (requireUnlocked_of_unlocked unlocked),
    bind_of_ok (registers_apply _)] at ran
  rcases bind_error.mp ran with failed | ⟨slot, between, decoded, rest⟩
  · exact law_neverHangs.fetchSlot (neverHangs_modifyCpu _) _ _ _ failed
  rcases bind_error.mp rest with failed | ⟨immediate, ready, _, acts⟩
  · exact law_neverHangs.fetchImmediate (neverHangs_modifyCpu _) _ _ _ _ failed
  have known : (Instruction.ofSlot slot).isIllegal = false := by
    rw [Bool.eq_false_iff, ne_eq, isIllegal_of_fetchSlot found decoded]
    exact legal
  exact neverHangs_perform known _ _ _ _ _ _ _ (conclude_error acts)

theorem lookAhead_of_locked {error : DecodeError} (locked : system.cpu.locked = some error) :
    lookAhead system = .ok none system := by
  rw [lookAhead, bind_of_ok (cpu_apply system), locked, Option.isSome_some, Bool.or_true,
    if_pos rfl]
  rfl

theorem execute_of_locked {error : DecodeError} (locked : system.cpu.locked = some error) :
    execute system = .error (.decode error) system := by
  rw [execute_eq_conclude, bind_of_error (requireUnlocked_of_locked locked)]

end Cpu

/-! ## Driving a session -/

namespace Session

variable {σ : Type} (render : Renderer σ)

/-- A way to let a session go on. -/
inductive Entry where
  /-- Execute an instruction. -/
  | execute
  /-- Advance the processor alone. -/
  | stepCpu
  | step
  | runFrame
  /-- Run for a number of frames and one more. -/
  | runFrames (more : Nat)
  | runFrameUntilBreakpoint

/-- How the session fails as it goes on, if it does, and what is left of it. -/
def enter (entry : Entry) (session : Session σ) : Option Fault × Session σ :=
  match entry with
  | .execute => ending (act Cpu.execute) session
  | .stepCpu => ending (act Cpu.step) session
  | .step => ending (step render) session
  | .runFrame => ending (runFrame render) session
  | .runFrames more => ending (runFrames render (more + 1)) session
  | .runFrameUntilBreakpoint => ending (runFrameUntilBreakpoint render) session
where
  /-- The error and the state with which an action ends. -/
  ending {α : Type} (action : EStateM Fault (Session σ) α) (session : Session σ) :
      Option Fault × Session σ :=
    (error? action session, final action session)

/-- What a host does with a session. -/
inductive Doing where
  /-- Let it go on. -/
  | enter (entry : Entry)
  /-- Operate its board. -/
  | operate (operation : Board.Operation)

/-- The operation on the board, if there is one. -/
def Doing.operation? : Doing → Option Board.Operation
  | .enter _ => none
  | .operate operation => some operation

/-- Operate the board of a session. -/
def operate (operation : Board.Operation) (session : Session σ) : Session σ :=
  let now := Board.operate render operation (session.machine.bus, session.screen)
  ⟨⟨session.machine.cpu, now.1⟩, now.2⟩

/-- The faults that the session has met each time that it was to go on, and what is left of it. -/
def drive : List Doing → Session σ → List (Option Fault) × Session σ
  | [], session => ([], session)
  | .enter entry :: doings, session =>
    let next := enter render entry session
    let rest := drive doings next.2
    (next.1 :: rest.1, rest.2)
  | .operate operation :: doings, session => drive doings (operate render operation session)

variable {session : Session σ} {error : DecodeError}

theorem step_of_locked (locked : session.machine.cpu.locked = some error) :
    step render session = .error (.decode error) session :=
  step_of_error (Cpu.step_of_locked locked)

theorem runFrame_of_locked (locked : session.machine.cpu.locked = some error) :
    runFrame render session = .error (.decode error) session := by
  change runFrameFrom render (70223 + 1) 0 session = _
  rw [runFrameFrom, if_pos (by decide), bind_of_error (step_of_locked render locked)]

theorem runFrameUntilBreakpoint_of_locked (locked : session.machine.cpu.locked = some error) :
    runFrameUntilBreakpoint render session = .error (.decode error) session := by
  change runFrameUntilBreakpointFrom render (70223 + 1) 0 session = _
  rw [untilFrom_of_lt (by decide), bind_of_error (step_of_locked render locked)]

/-- A session that hangs does not go on. -/
theorem enter_of_locked (locked : session.machine.cpu.locked = some error) (entry : Entry) :
    enter render entry session = (some (.decode error), session) := by
  have ends {α : Type} {action : EStateM Fault (Session σ) α}
      (failed : action session = .error (.decode error) session) :
      enter.ending action session = (some (.decode error), session) := by
    rw [enter.ending, error?, final, failed]
  cases entry with
  | execute => exact ends (by rw [act, Cpu.execute_of_locked locked])
  | stepCpu => exact ends (by rw [act, Cpu.step_of_locked locked])
  | step => exact ends (step_of_locked render locked)
  | runFrame => exact ends (runFrame_of_locked render locked)
  | runFrames more =>
      exact ends (by rw [runFrames, bind_of_error (runFrame_of_locked render locked)])
  | runFrameUntilBreakpoint => exact ends (runFrameUntilBreakpoint_of_locked render locked)

/-- However a session that hangs is driven, each time that it is to go on it fails with the error
that it hangs with, and what becomes of it is what the operations on its board alone make of it. -/
theorem drive_of_locked (doings : List Doing) (locked : session.machine.cpu.locked = some error) :
    (∀ fault ∈ (drive render doings session).1, fault = some (.decode error)) ∧
      (drive render doings session).2 =
        (doings.filterMap Doing.operation?).foldl
          (fun now operation => operate render operation now) session := by
  induction doings generalizing session with
  | nil => exact ⟨nofun, rfl⟩
  | cons doing doings ih =>
      cases doing with
      | enter entry =>
          obtain ⟨same, left⟩ := ih locked
          rw [drive, enter_of_locked render locked]
          exact ⟨List.forall_mem_cons.mpr ⟨rfl, same⟩, left⟩
      | operate operation =>
          exact @ih (operate render operation session) locked

/-- If it is only to go on, again and again, nothing becomes of it at all. -/
theorem drive_enter_of_locked (entries : List Entry)
    (locked : session.machine.cpu.locked = some error) :
    drive render (entries.map .enter) session =
      (List.replicate entries.length (some (.decode error)), session) := by
  induction entries with
  | nil => rfl
  | cons entry entries ih => rw [List.map_cons, drive, enter_of_locked render locked, ih]; rfl

end Session

/-- On any bus the processor fails to decode just the eleven opcodes that it lacks, names the opcode
and where it has read it, and has then fetched the opcode, reported it once and hung.  While it
hangs it does nothing on any bus, be it one that counts its accesses, nor does looking at the opcode
ahead.  A session with it fails with the same error each time that it is to go on, by whatever entry
point, and remains as it is.  Operations on the board do not change that, and have the effect that
they would have had alone. -/
theorem hangs_for_good :
    (∀ {β : Type} [Bus β] (system : System β) (opcode : UInt8) (fetched : β),
      system.cpu.locked = none → Bus.read system.cpu.regs.pc system.bus = .ok opcode fetched →
      let error := DecodeError.illegalOpcode opcode.toUInt16 system.cpu.regs.pc
      ((∃ other after, Cpu.execute system = .error (.decode other) after) ↔
        opcode ∈ Opcode.holes) ∧
      (opcode ∈ Opcode.holes → Cpu.execute system = .error (.decode error)
        ⟨{ system.cpu.advance with locked := some error },
          Bus.report (.illegalOpcode error system.cpu.advance.regs) fetched⟩)) ∧
    (∀ {β : Type} [Bus β] (system : System β) (error : DecodeError),
      system.cpu.locked = some error →
      Cpu.execute system = .error (.decode error) system ∧
        Cpu.step system = .error (.decode error) system ∧
        Cpu.lookAhead system = .ok none system) ∧
    Machine.nextOpcode = Cpu.lookAhead ∧
    ∀ {σ : Type} (render : Renderer σ) (session : Session σ) (error : DecodeError),
      session.machine.cpu.locked = some error →
      (∀ entries : List Session.Entry,
        Session.drive render (entries.map .enter) session =
          (List.replicate entries.length (some (.decode error)), session)) ∧
      ∀ doings : List Session.Doing,
        (∀ fault ∈ (Session.drive render doings session).1, fault = some (.decode error)) ∧
        (Session.drive render doings session).2 =
          (doings.filterMap Session.Doing.operation?).foldl
            (fun now operation => Session.operate render operation now) session := by
  refine ⟨?_, ?_, Machine.nextOpcode_eq_lookAhead, ?_⟩
  · intro β _ system opcode fetched unlocked found error
    refine ⟨⟨?_, fun hole => ⟨_, _, Cpu.execute_of_hole unlocked found hole⟩⟩,
      Cpu.execute_of_hole unlocked found⟩
    rintro ⟨other, after, failed⟩
    by_contra legal
    exact Cpu.neverHangs_of_not_hole unlocked found legal other after failed
  · intro β _ system error locked
    exact ⟨Cpu.execute_of_locked locked, Cpu.step_of_locked locked,
      Cpu.lookAhead_of_locked locked⟩
  · intro σ render session error locked
    exact ⟨fun entries => session.drive_enter_of_locked render entries locked,
      fun doings => session.drive_of_locked render doings locked⟩

theorem hangs_for_good_d3 :
    let machine :=
      Machine.boot (.romOnly (Bank.ofProgram [0xD3]) (Bank.filled 0)) {} (.recording #[])
    let error := DecodeError.illegalOpcode 0xD3 0x100
    ∃ after : Machine, Cpu.execute machine = .error (.decode error) after ∧
      after.bus.sink.events.size = 1 ∧
      Session.drive Renderer.null [.enter .execute, .enter .runFrame, .enter .step] ⟨after, ()⟩ =
        ([some (.decode error), some (.decode error), some (.decode error)], ⟨after, ()⟩) := by
  intro machine error
  obtain ⟨begins, _, _, lasts⟩ := hangs_for_good
  have found : Bus.read machine.cpu.regs.pc machine.bus = .ok 0xD3 machine.bus :=
    Board.read_of_peek (by decide +kernel)
  have failed := (begins machine 0xD3 machine.bus rfl found).2 (by decide)
  exact ⟨_, failed, rfl,
    (lasts Renderer.null ⟨_, ()⟩ error rfl).1 [.execute, .runFrame, .step]⟩

end GameBoy
