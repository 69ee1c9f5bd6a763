import GameBoy.Proofs.Breakpoint
import GameBoy.Proofs.Image
import GameBoy.Runner.Run
import Mathlib.Algebra.Ring.Nat

/-!
# Frames of a run

A run is a chain of frames and a frame a chain of steps.  A frame that nothing stops has used up its
cycles, so a run that ends without a verdict has emulated the cycles of its whole budget, less a
frame for every breakpoint that stopped one.
-/

namespace GameBoy
namespace Session

open Effect

/-- A step: the session that it found and what it did. -/
structure Move (σ : Type) where
  found : Session σ
  quantum : Quantum

variable {σ : Type} {render : Renderer σ}

/-- The step stops a frame. -/
def Move.stops (move : Move σ) : Bool :=
  move.found.stops move.quantum

/-- The cycles of a number of steps. -/
def cyclesOf (moves : List (Move σ)) : Nat :=
  (moves.map fun move => move.quantum.cycles).sum

@[simp]
theorem cyclesOf_nil : cyclesOf ([] : List (Move σ)) = 0 := rfl

@[simp]
theorem cyclesOf_cons (move : Move σ) (moves : List (Move σ)) :
    cyclesOf (move :: moves) = move.quantum.cycles + cyclesOf moves := by
  simp [cyclesOf]

@[simp]
theorem cyclesOf_append (front back : List (Move σ)) :
    cyclesOf (front ++ back) = cyclesOf front + cyclesOf back := by
  simp [cyclesOf]

/-- Successful steps from one session to another. -/
inductive Steps (render : Renderer σ) : Session σ → List (Move σ) → Session σ → Prop
  | nil (session : Session σ) : Steps render session [] session
  | cons {session next last : Session σ} {quantum : Quantum} {rest : List (Move σ)} :
      step render session = .ok quantum next → Steps render next rest last →
      Steps render session (⟨session, quantum⟩ :: rest) last

theorem Steps.append {first middle last : Session σ} {front back : List (Move σ)}
    (begun : Steps render first front middle) (ended : Steps render middle back last) :
    Steps render first (front ++ back) last := by
  induction begun with
  | nil => exact ended
  | cons ran _ ih => exact .cons ran (ih ended)

/-! ## The steps of a frame -/

theorem quiet_of_completed {session last : Session σ} {elapsed total fuel : Nat}
    (enough : Machine.cyclesPerFrame ≤ elapsed + fuel)
    (ran : runFrameUntilBreakpointFrom render fuel elapsed session = .ok (.completed, total) last) :
    Quiet render session elapsed last total ∧ Machine.cyclesPerFrame ≤ total := by
  induction fuel generalizing session elapsed with
  | zero =>
      cases ran
      exact ⟨.nil _ _, enough⟩
  | succ fuel ih =>
      by_cases within : elapsed < Machine.cyclesPerFrame
      · rw [untilFrom_of_lt within] at ran
        obtain ⟨quantum, next, goes, rest⟩ := bind_ok.mp ran
        have progress := four_le_cycles goes
        cases stop : session.stops quantum with
        | true =>
            rw [if_pos stop] at rest
            cases rest
        | false =>
            rw [stop, if_neg Bool.false_ne_true] at rest
            obtain ⟨quiet, covered⟩ := ih (by omega) rest
            exact ⟨.cons within goes stop quiet, covered⟩
      · rw [runFrameUntilBreakpointFrom, if_neg within] at ran
        cases ran
        exact ⟨.nil _ _, Nat.not_lt.mp within⟩

/-- Quiet steps are steps none of which stops the frame and all of which begin in time. -/
theorem Quiet.steps {session last : Session σ} {elapsed spent : Nat}
    (quiet : Quiet render session elapsed last spent) :
    ∃ moves, Steps render session moves last ∧ spent = elapsed + cyclesOf moves ∧
      moves.countP Move.stops = 0 ∧
      (moves ≠ [] → elapsed + cyclesOf moves.dropLast < Machine.cyclesPerFrame) := by
  induction quiet with
  | nil session elapsed => exact ⟨[], .nil session, rfl, rfl, fun some => absurd rfl some⟩
  | @cons session next last elapsed spent quantum early goes quiet rest ih =>
      obtain ⟨moves, steps, total, none, begin_lt⟩ := ih
      refine ⟨⟨session, quantum⟩ :: moves, .cons goes steps, ?_, ?_, fun _ => ?_⟩
      · rw [total, cyclesOf_cons, Nat.add_assoc]
      · have passes : ¬Move.stops ⟨session, quantum⟩ = true := Bool.eq_false_iff.mp quiet
        rw [List.countP_cons_of_neg passes, none]
      · cases moves with
        | nil => exact early
        | cons second others =>
            have later := begin_lt (List.cons_ne_nil second others)
            rw [List.dropLast_cons_of_ne_nil (List.cons_ne_nil second others), cyclesOf_cons,
              ← Nat.add_assoc]
            exact later

/-- A frame of a run: its steps, how it ended and where it led. -/
structure Frame (σ : Type) where
  moves : List (Move σ)
  ending : FrameEnd
  last : Session σ

/-- The frame was run from a session.  All its steps begin before its cycles have passed, it ends
with them if it is completed, and only the last step of a frame that a breakpoint ends has stopped
it. -/
structure Frame.RunsFrom (render : Renderer σ) (session : Session σ) (frame : Frame σ) : Prop where
  runs : runFrameUntilBreakpoint render session =
    .ok (frame.ending, cyclesOf frame.moves) frame.last
  steps : Steps render session frame.moves frame.last
  begins : cyclesOf frame.moves.dropLast < Machine.cyclesPerFrame
  completes : frame.ending = .completed →
    Machine.cyclesPerFrame ≤ cyclesOf frame.moves ∧ frame.moves.countP Move.stops = 0
  stopped : frame.ending = .breakpoint → frame.moves.countP Move.stops = 1

theorem Frame.exists_runsFrom {session last : Session σ} {ending : FrameEnd} {total : Nat}
    (ran : runFrameUntilBreakpoint render session = .ok (ending, total) last) :
    ∃ moves, total = cyclesOf moves ∧ Frame.RunsFrom render session ⟨moves, ending, last⟩ := by
  cases ending with
  | completed =>
      obtain ⟨quiet, covered⟩ := quiet_of_completed (Nat.le_add_left _ 0) ran
      obtain ⟨moves, steps, total_eq, none, begin_lt⟩ := quiet.steps
      rw [Nat.zero_add] at total_eq
      subst total_eq
      refine ⟨moves, rfl, ran, steps, ?_, fun _ => ⟨covered, none⟩, nofun⟩
      by_cases empty : moves = []
      · rw [empty]
        exact Nat.succ_pos _
      · have early := begin_lt empty
        rwa [Nat.zero_add] at early
  | breakpoint =>
      obtain ⟨before, spent, quantum, quiet, within, goes, stop, total_eq⟩ := quiet_of_stop ran
      obtain ⟨moves, steps, spent_eq, none, _⟩ := quiet.steps
      rw [Nat.zero_add] at spent_eq
      subst spent_eq
      have whole : total = cyclesOf (moves ++ [⟨before, quantum⟩]) := by
        rw [total_eq, cyclesOf_append, cyclesOf_cons, cyclesOf_nil, Nat.add_zero]
      subst whole
      refine ⟨moves ++ [⟨before, quantum⟩], rfl, ran, steps.append (.cons goes (.nil last)), ?_,
        nofun, fun _ => ?_⟩
      · rw [List.dropLast_concat]
        exact within
      · have stops : Move.stops ⟨before, quantum⟩ = true := stop
        rw [List.countP_append, none, List.countP_singleton, if_pos stops]

/-- Frames that follow one another. -/
inductive Frames (render : Renderer σ) : Session σ → List (Frame σ) → Session σ → Prop
  | nil (session : Session σ) : Frames render session [] session
  | cons {session last : Session σ} {frame : Frame σ} {rest : List (Frame σ)} :
      frame.RunsFrom render session → Frames render frame.last rest last →
      Frames render session (frame :: rest) last

/-- The steps of all frames. -/
def movesOf (frames : List (Frame σ)) : List (Move σ) :=
  frames.flatMap Frame.moves

@[simp]
theorem movesOf_cons (frame : Frame σ) (frames : List (Frame σ)) :
    movesOf (frame :: frames) = frame.moves ++ movesOf frames := rfl

theorem Frames.steps {session last : Session σ} {frames : List (Frame σ)}
    (chain : Frames render session frames last) : Steps render session (movesOf frames) last := by
  induction chain with
  | nil session => exact .nil session
  | cons runs _ ih => exact runs.steps.append ih

/-- Every frame has either used up its cycles or been stopped by one step. -/
theorem Frames.cycles {session last : Session σ} {frames : List (Frame σ)}
    (chain : Frames render session frames last) :
    ∃ completed, frames.length = completed + (movesOf frames).countP Move.stops ∧
      completed * Machine.cyclesPerFrame ≤ cyclesOf (movesOf frames) := by
  induction chain with
  | nil => exact ⟨0, rfl, Nat.zero_le _⟩
  | @cons session last frame rest runs _ ih =>
      obtain ⟨completed, counted, spent⟩ := ih
      rw [movesOf_cons, List.length_cons, List.countP_append, cyclesOf_append, counted]
      cases ending : frame.ending with
      | completed =>
          obtain ⟨covered, none⟩ := runs.completes ending
          refine ⟨completed + 1, ?_, ?_⟩
          · omega
          · rw [Nat.succ_mul]
            omega
      | breakpoint =>
          have one := runs.stopped ending
          exact ⟨completed, by omega, by omega⟩

end Session

/-! ## The frames of a run -/

namespace Verdict

theorem ofSerial_ne_timeout (output : List UInt8) : ofSerial output ≠ some .timeout := by
  rw [ofSerial]
  split
  · nofun
  · split <;> nofun

theorem ofRegisters_ne_timeout (regs : Registers) : ofRegisters regs ≠ some .timeout := by
  simp only [ofRegisters]
  split
  · nofun
  · split <;> nofun

theorem or_ne_timeout {first second : Option Verdict} (one : first ≠ some .timeout)
    (other : second ≠ some .timeout) : first.or second ≠ some .timeout := by
  cases first with
  | none => exact other
  | some verdict => exact one

end Verdict

namespace Runner

open Session

/-- The verdict visible at the end of a frame. -/
def verdictOf (frame : Frame Unit) : Option Verdict :=
  verdictAfter frame.ending frame.last.machine

/-- A run without fault is a chain of frames.  No frame but the last has a verdict; that one has the
verdict of the run unless the frames have run out. -/
theorem runFrom_ok {frames cycles left : Nat} {session : Session Unit} {outcome : Outcome}
    (ran : (runFrom frames cycles left session).1 = .ok outcome) :
    ∃ history last, Frames Renderer.null session history last ∧
      outcome.frames = frames + history.length ∧
      outcome.cycles = cycles + cyclesOf (movesOf history) ∧
      ((outcome.verdict = .timeout ∧ history.length = left ∧
          ∀ frame ∈ history, verdictOf frame = none) ∨
        ∃ front frame, history = front ++ [frame] ∧ history.length ≤ left ∧
          (∀ earlier ∈ front, verdictOf earlier = none) ∧
          verdictOf frame = some outcome.verdict) := by
  induction left generalizing frames cycles session with
  | zero =>
      cases ran
      exact ⟨[], session, .nil session, rfl, rfl, .inl ⟨rfl, rfl, List.forall_mem_nil _⟩⟩
  | succ left ih =>
      rw [runFrom] at ran
      cases result : runFrameUntilBreakpoint Renderer.null session with
      | error fault after =>
          rw [result] at ran
          cases ran
      | ok ended last =>
          obtain ⟨ending, spent⟩ := ended
          obtain ⟨moves, rfl, runs⟩ := Frame.exists_runsFrom result
          rw [result] at ran
          simp only at ran
          cases seen : verdictAfter ending last.machine with
          | some verdict =>
              rw [seen] at ran
              cases ran
              let frame : Frame Unit := ⟨moves, ending, last⟩
              have chain : Frames Renderer.null session [frame] last := .cons runs (.nil last)
              have ends := List.forall_mem_nil fun earlier : Frame Unit => verdictOf earlier = none
              refine ⟨[frame], last, chain, rfl, ?_, .inr ⟨[], frame, rfl, ?_, ends, seen⟩⟩
              · rw [movesOf_cons, cyclesOf_append]
                rfl
              · exact Nat.le_add_left 1 left
          | none =>
              rw [seen] at ran
              obtain ⟨history, final, chain, counted, spent, verdict⟩ := ih ran
              let frame : Frame Unit := ⟨moves, ending, last⟩
              have longer : Frames Renderer.null session (frame :: history) final :=
                .cons runs chain
              have unseen : verdictOf frame = none := seen
              refine ⟨frame :: history, final, longer, ?_, ?_, ?_⟩
              · rw [counted, List.length_cons]
                omega
              · rw [spent, movesOf_cons, cyclesOf_append, Nat.add_assoc]
              · rcases verdict with ⟨expired, length, none⟩ | ⟨front, other, rfl, fits, none, found⟩
                · refine .inl ⟨expired, by rw [List.length_cons, length], ?_⟩
                  exact List.forall_mem_cons.mpr ⟨unseen, none⟩
                · refine .inr ⟨frame :: front, other, rfl, Nat.succ_le_succ fits, ?_, found⟩
                  exact List.forall_mem_cons.mpr ⟨unseen, none⟩

theorem ok_of_toOption {ε α : Type} {result : Except ε α} {value : α}
    (returned : result.toOption = some value) : result = .ok value := by
  cases result with
  | error error => cases returned
  | ok other =>
      cases returned
      rfl

theorem runFrom_of_run {image : ByteArray} {budget : Nat} {outcome : Outcome}
    (ran : (run image budget).1 = .ok outcome) :
    ∃ machine, Machine.ofImage image {} (.logging #[]) = .ok machine ∧
      (runFrom 0 0 budget ⟨machine, ()⟩).1 = .ok outcome := by
  rw [run] at ran
  cases loaded : Machine.ofImage image {} (.logging #[]) with
  | error error =>
      rw [loaded] at ran
      cases ran
  | ok machine =>
      rw [loaded] at ran
      refine ⟨machine, rfl, ?_⟩
      simp only [runMachine] at ran
      split at ran
      · exact ran
      · exact ran

theorem run_of_plainHeader {bank0 : RomBank} (plain : PlainHeader bank0) (bank1 : RomBank)
    (budget : Nat) :
    (run (ofTwoBanks bank0 bank1) budget).1 =
      (runFrom 0 0 budget ⟨Machine.boot (.romOnly bank0 bank1) {} (.logging #[]), ()⟩).1 := by
  rw [run, plain.ofImage]
  simp only [runMachine]
  split <;> rfl

theorem verdictAfter_ne_timeout (ending : FrameEnd) (machine : Machine) :
    verdictAfter ending machine ≠ some .timeout := by
  cases ending with
  | completed => exact Verdict.ofSerial_ne_timeout _
  | breakpoint =>
      exact Verdict.or_ne_timeout (Verdict.ofRegisters_ne_timeout _) (Verdict.ofSerial_ne_timeout _)

/-- A run that ends without a verdict has begun all its frames.  As many of them as no breakpoint
has stopped have used up their cycles, so without such breakpoints the budget has been emulated. -/
theorem cycles_of_timeout {image : ByteArray} {budget : Nat} {outcome : Outcome}
    (ran : (run image budget).1 = .ok outcome) (expired : outcome.verdict = .timeout) :
    outcome.frames = budget ∧ ∃ machine moves last completed,
      Machine.ofImage image {} (.logging #[]) = .ok machine ∧
      Steps Renderer.null ⟨machine, ()⟩ moves last ∧ outcome.cycles = cyclesOf moves ∧
      budget = completed + moves.countP Move.stops ∧
      completed * Machine.cyclesPerFrame ≤ outcome.cycles ∧
      (moves.countP Move.stops = 0 → budget * Machine.cyclesPerFrame ≤ outcome.cycles) := by
  obtain ⟨machine, loaded, ran⟩ := runFrom_of_run ran
  obtain ⟨history, last, chain, counted, spent, ⟨_, length, _⟩ | ⟨_, frame, _, _, _, found⟩⟩ :=
    runFrom_ok ran
  · obtain ⟨completed, frames, covered⟩ := chain.cycles
    rw [Nat.zero_add] at counted spent
    rw [length] at counted frames
    rw [← spent] at covered
    refine ⟨counted, machine, movesOf history, last, completed, loaded, chain.steps, spent, frames,
      covered, fun none => ?_⟩
    rw [none, Nat.add_zero] at frames
    rwa [frames]
  · rw [expired] at found
    exact absurd found (verdictAfter_ne_timeout _ _)

/-- What is computed of the run of a program is what the run gives. -/
theorem run_programImage {program : List UInt8} (short : program.length ≤ 0x47) {budget : Nat}
    {outcome : Outcome}
    (ends : (runFrom 0 0 budget ⟨Machine.boot
      (.romOnly (Bank.ofProgram program) (Bank.filled 0)) {} (.logging #[]), ()⟩).1.toOption =
        some outcome) :
    (run (programImage program) budget).1 = .ok outcome := by
  rw [programImage, run_of_plainHeader (.ofProgram short)]
  exact ok_of_toOption ends

/-- A program that passes a breakpoint before it loads the registers that mean that it has passed,
and stops at a second one. -/
def twoBreakpoints : List UInt8 :=
  [0x40, 0x06, 3, 0x0E, 5, 0x16, 8, 0x1E, 13, 0x26, 21, 0x2E, 34, 0x40, 0x18, 0xFE]

theorem run_twoBreakpoints :
    (run (programImage twoBreakpoints) 1).1 = .ok ⟨.timeout, 1, #[], 4⟩ :=
  run_programImage (by decide) (by decide +kernel)

theorem cycles_of_timeout_twoBreakpoints : ∃ machine moves last,
    Machine.ofImage (programImage twoBreakpoints) {} (.logging #[]) = .ok machine ∧
      Steps Renderer.null ⟨machine, ()⟩ moves last ∧ cyclesOf moves = 4 ∧
      moves.countP Move.stops = 1 := by
  obtain ⟨_, machine, moves, last, completed, loaded, steps, spent, counted, covered, _⟩ :=
    cycles_of_timeout run_twoBreakpoints rfl
  have none : completed = 0 := by
    have few : completed * 70224 ≤ 4 := covered
    omega
  rw [none, Nat.zero_add] at counted
  exact ⟨machine, moves, last, loaded, steps, spent.symm, counted.symm⟩

/-- The first breakpoint uses up the only frame after four cycles.  The second is reached a mere 52
cycles later, but in a second frame. -/
theorem timeout_after_four_cycles :
    (run (programImage twoBreakpoints) 1).1 = .ok ⟨.timeout, 1, #[], 4⟩ ∧
      4 < 1 * Machine.cyclesPerFrame ∧
      (run (programImage twoBreakpoints) 2).1 = .ok ⟨.passed, 2, #[], 56⟩ :=
  ⟨run_twoBreakpoints, by decide, run_programImage (by decide) (by decide +kernel)⟩

end Runner
end GameBoy
