import GameBoy.Proofs.Checked.Runs
import GameBoy.Proofs.Splitting

/-!
# The cycles of a frame

A step takes at least four cycles and no more than a long instruction with two transfers, so the
steps of a frame run out, and the last of them does not carry the frame far beyond its end.  Where
the display stays on, the moments that pass decide which lines are handed out and how many frames
are counted.
-/

namespace GameBoy

open Effect

/-! ## Counting moments -/

namespace Ppu

/-- The pixel transfers that have ended after a number of dots. -/
def transfersBy (elapsed : Nat) : Nat :=
  elapsed / 70224 * 144 + min 144 ((elapsed % 70224 + 204) / 456)

/-- The vertical blanks that have started after a number of dots. -/
def blanksBy (elapsed : Nat) : Nat :=
  (elapsed + 4560) / 70224

/-- Visible lines that follow one another, the first one after the last. -/
def consecutive (start count : Nat) : List Nat :=
  (List.range' start count).map (· % 144)

theorem consecutive_add (start first second : Nat) :
    consecutive start (first + second) =
      consecutive start first ++ consecutive (start + first) second := by
  rw [consecutive, ← List.range'_append_1, List.map_append, consecutive, consecutive]

theorem length_consecutive (start count : Nat) : (consecutive start count).length = count := by
  rw [consecutive, List.length_map, List.length_range']

theorem mem_consecutive {start count line : Nat} (round : 144 ≤ count) (visible : line < 144) :
    line ∈ consecutive start count := by
  rw [consecutive, List.mem_map]
  refine ⟨start + (line + 144 - start % 144) % 144, ?_, by omega⟩
  rw [List.mem_range'_1]
  omega

theorem transfersBy_succ (elapsed : Nat) :
    transfersBy (elapsed + 1) =
      transfersBy elapsed + if TransferEnds (elapsed + 1) then 1 else 0 := by
  simp only [transfersBy, transferEnds_iff, lineAt]
  split <;> omega

/-- The next line to be handed out is known from the number of lines before. -/
theorem lineAt_of_transferEnds {elapsed : Nat} (ends : TransferEnds (elapsed + 1)) :
    lineAt (elapsed + 1) = transfersBy elapsed % 144 := by
  rw [transferEnds_iff] at ends
  rw [lineAt] at ends ⊢
  rw [transfersBy]
  omega

theorem map_lineAt_moments (elapsed : Nat) :
    (moments TransferEnds elapsed).map lineAt = consecutive 0 (transfersBy elapsed) := by
  induction elapsed with
  | zero => simp [moments, transferEnds_iff, consecutive, transfersBy]
  | succ elapsed ih =>
      rw [moments_succ, List.map_append, ih, transfersBy_succ]
      by_cases ends : TransferEnds (elapsed + 1)
      · rw [if_pos ends, if_pos ends, consecutive_add, List.map_singleton,
          lineAt_of_transferEnds ends, Nat.zero_add]
        rfl
      · rw [if_neg ends, if_neg ends, List.map_nil, List.append_nil, Nat.add_zero]

theorem length_moments_blankStarts (elapsed : Nat) :
    (moments BlankStarts elapsed).length = blanksBy elapsed := by
  induction elapsed with
  | zero => simp [moments, blankStarts_iff, blanksBy]
  | succ elapsed ih =>
      rw [moments_succ, List.length_append, ih, blanksBy, blanksBy]
      by_cases starts : BlankStarts (elapsed + 1)
      · rw [if_pos starts, List.length_singleton]
        rw [blankStarts_iff] at starts
        omega
      · rw [if_neg starts, List.length_nil]
        rw [blankStarts_iff] at starts
        omega

theorem transfersBy_add {dots : Nat} (frame : 70224 ≤ dots) (elapsed : Nat) :
    transfersBy elapsed + 144 ≤ transfersBy (elapsed + dots) := by
  rw [transfersBy, transfersBy]
  omega

theorem blanksBy_add {dots : Nat} (frame : 70224 ≤ dots) (few : dots < 70224 + 1304)
    (elapsed : Nat) :
    blanksBy (elapsed + dots) = blanksBy elapsed + 1 ∨
      blanksBy (elapsed + dots) = blanksBy elapsed + 2 := by
  rw [blanksBy, blanksBy]
  omega

/-! ## Observing a frame -/

namespace Observed

variable {now : Observed}

theorem tick_eq (now : Observed) (dots : Nat) :
    now.tick dots =
      { now with
        ppu := dot^[dots] now.ppu
        drawn := now.drawn ++ linesWithin dots now.ppu
        elapsed := now.elapsed + dots } := by
  simp only [tick, tick_eq_run, run_eq_foldl, foldl_recorder]

theorem Counts.tick (enabled : now.ppu.lcdEnabled = true) (counts : now.Counts) (dots : Nat) :
    (now.tick dots).Counts := by
  induction dots with
  | zero =>
      rw [tick_eq, linesWithin, List.append_nil]
      exact counts
  | succ dots ih =>
      have still : (now.tick dots).ppu.lcdEnabled = true := by
        rw [ppu_tick now Renderer.null dots (), lcdEnabled_tick, enabled]
      rw [tick_add]
      exact ih.dot still

/-- The observation goes on with a picture unit that stands at the same place. -/
theorem Counts.replace (counts : now.Counts) {ppu : Ppu} (inFrame : ppu.beam.InFrame)
    (position : ppu.beam.position = now.ppu.beam.position) (frames : ppu.frames = now.ppu.frames) :
    { now with ppu }.Counts :=
  ⟨inFrame, position.trans counts.position_eq, counts.drawn_eq, frames.trans counts.frames_eq⟩

/-- What has been handed out and counted between two observations, the second of them a frame and
at most a long step after the first. -/
theorem Counts.covers {later : Observed} {dots : Nat} {lines : List LineContext}
    (begun : now.Counts) (ended : later.Counts) (elapsed : later.elapsed = now.elapsed + dots)
    (drawn : later.drawn = now.drawn ++ lines) (since : later.framesBefore = now.framesBefore)
    (frame : 70224 ≤ dots) (few : dots < 70224 + 1304) :
    (∃ start count, 144 ≤ count ∧
      lines.map (fun context => context.line.toNat) = consecutive start count) ∧
    (later.ppu.frames = now.ppu.frames + 1 ∨ later.ppu.frames = now.ppu.frames + 2) := by
  constructor
  · have more := transfersBy_add frame now.elapsed
    obtain ⟨count, total⟩ := Nat.exists_eq_add_of_le (Nat.le_of_add_right_le more)
    refine ⟨transfersBy now.elapsed, count, by omega, ?_⟩
    have all := ended.drawn_eq
    rw [drawn, List.map_append, begun.drawn_eq, map_lineAt_moments, map_lineAt_moments, elapsed,
      total, consecutive_add, Nat.zero_add] at all
    exact List.append_cancel_left all
  · have before := begun.frames_eq
    have after := ended.frames_eq
    rw [length_moments_blankStarts] at before after
    rw [elapsed, since] at after
    rcases blanksBy_add frame few now.elapsed with once | twice
    · exact .inl (by omega)
    · exact .inr (by omega)

end Observed

end Ppu

namespace Session

variable {σ : Type} {render : Renderer σ} {session next last : Session σ} {quantum : Quantum}
  {moves : List (Move σ)}

/-! ## The lines of a run -/

/-- The lines handed out as the board catches up with a step. -/
def Move.lines (move : Move σ) : List LineContext :=
  Ppu.linesWithin move.quantum.cycles (final Cpu.step move.found.machine).bus.ppu

/-- The lines handed out in the course of a number of steps. -/
def linesOf (moves : List (Move σ)) : List LineContext :=
  moves.flatMap Move.lines

@[simp]
theorem linesOf_cons (move : Move σ) (moves : List (Move σ)) :
    linesOf (move :: moves) = move.lines ++ linesOf moves := rfl

/-- The renderer is called for these lines, in their order. -/
theorem Steps.screen_eq (steps : Steps render session moves last) :
    last.screen = (linesOf moves).foldl render session.screen := by
  induction steps with
  | nil session => rfl
  | cons ran _ ih =>
      obtain ⟨after, stepped, rfl⟩ := step_ok ran
      rw [ih, linesOf_cons, List.foldl_append, Move.lines, final_of_ok stepped,
        Board.tick_eq_passed]

/-- The display is on between the steps. -/
def StaysOn (moves : List (Move σ)) (last : Session σ) : Prop :=
  (∀ move ∈ moves, move.found.machine.bus.ppu.lcdEnabled = true) ∧
    last.machine.bus.ppu.lcdEnabled = true

/-- Observe the picture unit of a session that some lines have been handed out on the way to. -/
def observe (now : Ppu.Observed) (cycles : Nat) (lines : List LineContext) (next : Session σ) :
    Ppu.Observed :=
  { now with
    ppu := next.machine.bus.ppu
    drawn := now.drawn ++ lines
    elapsed := now.elapsed + cycles }

/-- A step with the display on is observed as the passing of its cycles. -/
theorem counts_step {now : Ppu.Observed} (counts : now.Counts)
    (here : now.ppu = session.machine.bus.ppu) (tracked : session.machine.bus.ppu.Tracked)
    (on : session.machine.bus.ppu.lcdEnabled = true) (ran : step render session = .ok quantum next)
    (still : next.machine.bus.ppu.lcdEnabled = true) :
    (observe now quantum.cycles (Move.lines ⟨session, quantum⟩) next).Counts := by
  obtain ⟨after, stepped, rfl⟩ := step_ok ran
  have agrees := (after.bus.tick_apply render quantum.cycles session.screen).2
  have enabled : after.bus.ppu.lcdEnabled = true := by
    rw [← Ppu.lcdEnabled_tick render quantum.cycles session.screen, ← agrees.lcdEnabled]
    exact still
  have kept := Board.invariant_tracked.step session.machine tracked
  have counted := (Board.invariant_frames session.frames).step session.machine rfl
  rw [final_of_ok stepped] at kept counted
  have placed := (Machine.clock_of_step stepped).2 enabled
  rw [if_pos on, ← here] at placed
  -- the processor moves nothing, time moves the beam, and collecting requests moves nothing again
  have acted : { now with ppu := after.bus.ppu }.Counts :=
    counts.replace (kept.inFrame enabled) placed (by rw [counted, here]; rfl)
  have passed := acted.tick enabled quantum.cycles
  rw [Ppu.fst_tick] at agrees
  rw [Ppu.Observed.tick_eq] at passed
  rw [observe, Move.lines, final_of_ok stepped]
  refine passed.replace ?_ (congrArg Ppu.Beam.position agrees.beam)
    (congrArg Ppu.Beam.frames agrees.beam)
  rw [agrees.beam]
  exact passed.inFrame

theorem StaysOn.of_steps (on : StaysOn moves last) (steps : Steps render session moves last) :
    session.machine.bus.ppu.lcdEnabled = true := by
  cases steps with
  | nil => exact on.2
  | cons => exact on.1 _ List.mem_cons_self

theorem Steps.counts (steps : Steps render session moves last) {now : Ppu.Observed}
    (counts : now.Counts) (here : now.ppu = session.machine.bus.ppu) (orderly : session.Orderly)
    (on : StaysOn moves last) : (observe now (cyclesOf moves) (linesOf moves) last).Counts := by
  induction steps generalizing now with
  | nil session =>
      rw [observe, ← here, linesOf, List.flatMap_nil, List.append_nil]
      exact counts
  | @cons session next last quantum rest ran steps ih =>
      obtain ⟨first, others⟩ := List.forall_mem_cons.mp on.1
      have onward : StaysOn rest last := ⟨others, on.2⟩
      have stepped := counts_step counts here orderly.tracked first ran (onward.of_steps steps)
      have later := ih stepped rfl ((upholds_step render).orderly.of_ok orderly ran) onward
      simp only [observe, linesOf_cons, cyclesOf_cons, List.append_assoc, Nat.add_assoc] at later ⊢
      exact later

/-- Steps that take a frame and at most a long step more hand out every line and count one frame or
two, if the display stays on. -/
theorem Steps.covers (steps : Steps render session moves last) (orderly : session.Orderly)
    (on : StaysOn moves last) (frame : 70224 ≤ cyclesOf moves)
    (few : cyclesOf moves < 70224 + 1304) :
    (∃ start count, 144 ≤ count ∧
      (linesOf moves).map (fun context => context.line.toNat) = Ppu.consecutive start count) ∧
    (last.frames = session.frames + 1 ∨ last.frames = session.frames + 2) := by
  obtain ⟨now, here, consistent⟩ := orderly.tracked
  have begun : now.Counts := consistent.on (by rw [here]; exact on.of_steps steps)
  have ended := steps.counts begun here orderly on
  obtain ⟨lines, frames⟩ := begun.covers ended rfl rfl rfl frame few
  rw [here] at frames
  exact ⟨lines, frames⟩

/-! ## The steps of a frame -/

/-- How the loop of a frame ends, given enough fuel for four cycles a step. -/
inductive FrameEnds (render : Renderer σ) (session : Session σ) (elapsed fuel : Nat) : Prop
  | fails {moves : List (Move σ)} {before after : Session σ} {fault : Fault} :
      Steps render session moves before → elapsed + cyclesOf moves < Machine.cyclesPerFrame →
      step render before = .error fault after →
      (∀ more, fuel ≤ more → runFrameFrom render more elapsed session = .error fault after) →
      FrameEnds render session elapsed fuel
  | covers {moves : List (Move σ)} {last : Session σ} :
      Steps render session moves last → Machine.cyclesPerFrame ≤ elapsed + cyclesOf moves →
      elapsed + cyclesOf moves < Machine.cyclesPerFrame + 1304 →
      (moves ≠ [] → elapsed + cyclesOf moves.dropLast < Machine.cyclesPerFrame) →
      (∀ more, fuel ≤ more →
        runFrameFrom render more elapsed session = .ok (elapsed + cyclesOf moves) last) →
      FrameEnds render session elapsed fuel

theorem runFrameFrom_of_le {elapsed : Nat} (passed : Machine.cyclesPerFrame ≤ elapsed) (fuel : Nat)
    (session : Session σ) : runFrameFrom render fuel elapsed session = .ok elapsed session := by
  cases fuel with
  | zero => rfl
  | succ fuel =>
      rw [runFrameFrom, if_neg (Nat.not_lt.mpr passed)]
      rfl

theorem runFrameFrom_of_ok {elapsed fuel : Nat} (early : elapsed < Machine.cyclesPerFrame)
    (ran : step render session = .ok quantum next) :
    runFrameFrom render (fuel + 1) elapsed session =
      runFrameFrom render fuel (elapsed + quantum.cycles) next := by
  rw [runFrameFrom, if_pos early, bind_of_ok ran]

/-- One step more at the beginning. -/
theorem FrameEnds.cons {elapsed fuel : Nat} (early : elapsed < Machine.cyclesPerFrame)
    (ran : step render session = .ok quantum next)
    (ends : FrameEnds render next (elapsed + quantum.cycles) fuel) :
    FrameEnds render session elapsed (fuel + 1) := by
  have onward {result : EStateM.Result Fault (Session σ) Nat}
      (goes : ∀ more, fuel ≤ more →
        runFrameFrom render more (elapsed + quantum.cycles) next = result) (more : Nat)
      (enough : fuel + 1 ≤ more) : runFrameFrom render more elapsed session = result := by
    obtain ⟨rest, rfl⟩ := Nat.exists_eq_add_of_le' (Nat.le_of_add_left_le enough)
    rw [runFrameFrom_of_ok early ran]
    exact goes rest (Nat.le_of_succ_le_succ enough)
  cases ends with
  | fails steps within failed goes =>
      rw [Nat.add_assoc, ← cyclesOf_cons ⟨session, quantum⟩] at within
      exact .fails (.cons ran steps) within failed (onward goes)
  | @covers moves last steps covered few begins goes =>
      rw [Nat.add_assoc, ← cyclesOf_cons ⟨session, quantum⟩] at covered few goes
      refine .covers (.cons ran steps) covered few (fun _ => ?_) (onward goes)
      cases moves with
      | nil => exact early
      | cons second others =>
          have later := begins (List.cons_ne_nil second others)
          rw [List.dropLast_cons_of_ne_nil (List.cons_ne_nil second others), cyclesOf_cons,
            ← Nat.add_assoc]
          exact later

/-- From an orderly session on, the loop of a frame ends.  Each step uses up one unit of the fuel
and at least four of the cycles that are left. -/
theorem Orderly.frameEnds (orderly : session.Orderly) {elapsed fuel : Nat}
    (enough : Machine.cyclesPerFrame ≤ elapsed + 4 * fuel)
    (few : elapsed < Machine.cyclesPerFrame + 1304) : FrameEnds render session elapsed fuel := by
  induction fuel generalizing session elapsed with
  | zero =>
      exact .covers (.nil session) enough few (fun some => absurd rfl some) fun more _ =>
        runFrameFrom_of_le enough more session
  | succ fuel ih =>
      by_cases early : elapsed < Machine.cyclesPerFrame
      · cases ran : step render session with
        | ok quantum next =>
            have upholds := upholds_step render
            have longer := four_le_cycles ran
            have shorter := upholds.returns session quantum next orderly ran
            exact .cons early ran
              (ih (upholds.orderly.of_ok orderly ran) (by omega) (by omega))
        | error fault after =>
            refine .fails (.nil session) early ran fun more enough => ?_
            obtain ⟨rest, rfl⟩ := Nat.exists_eq_add_of_le' (Nat.le_of_add_left_le enough)
            rw [runFrameFrom, if_pos early, bind_of_error ran]
      · have passed := Nat.not_lt.mp early
        exact .covers (.nil session) passed few (fun some => absurd rfl some) fun more _ =>
          runFrameFrom_of_le passed more session

/-! ## Machines that a host drives -/

theorem keeps_orderly_runFrames (render : Renderer σ) (frames : Nat) :
    Keeps Orderly (runFrames render frames) := by
  induction frames with
  | zero => exact .pure 0
  | succ frames ih =>
      have first : Keeps Orderly (runFrame render) :=
        (upholds_runFrameFrom render _ (by decide)).orderly
      exact first.bind fun cycles => ih.bind fun rest => .pure (cycles + rest)

end Session

/-- A machine that another one has become as a host let it step, run for a frame, for some frames or
up to a breakpoint, and pressed and released buttons.  Calls may have failed, and each may have
drawn on a screen of its own. -/
inductive Machine.Driven (first : Machine) : Machine → Prop
  | start : Driven first first
  | call {machine : Machine} {σ : Type} (render : Renderer σ) (screen : σ) (call : Session.Call) :
      Driven first machine →
      Driven first (Session.drive render [call.doing] ⟨machine, screen⟩).2.machine
  | runFrames {machine : Machine} {σ : Type} (render : Renderer σ) (screen : σ) (frames : Nat) :
      Driven first machine →
      Driven first (final (Session.runFrames render frames) ⟨machine, screen⟩).machine

theorem Machine.Driven.orderly {first machine : Machine} {σ : Type} (driven : first.Driven machine)
    (orderly : Session.Orderly ⟨first, ()⟩) (screen : σ) : Session.Orderly ⟨machine, screen⟩ := by
  have unseen : Session.Orderly ⟨machine, ()⟩ := by
    induction driven with
    | start => exact orderly
    | @call machine σ render screen call _ ih =>
        have found : Session.Orderly ⟨machine, screen⟩ := ⟨ih.tracked, ih.pending⟩
        have made : (Session.drive render [call.doing] ⟨machine, screen⟩).2.Orderly :=
          (Session.fits_make found call).orderly
        exact ⟨made.tracked, made.pending⟩
    | @runFrames machine σ render screen frames _ ih =>
        have found : Session.Orderly ⟨machine, screen⟩ := ⟨ih.tracked, ih.pending⟩
        have made := Session.keeps_orderly_runFrames render frames _ found
        exact ⟨made.tracked, made.pending⟩
  exact ⟨unseen.tracked, unseen.pending⟩

open Session

/-- Whatever image is loaded and whatever a host has done since, running the machine for a frame
ends: its result is the same from 17556 steps on.  Either a step fails that began before the cycles
of a frame had passed, or the cycles are counted up to the first step that reaches the end of the
frame, fewer than 1304 beyond it, and the renderer has been called for the lines that the steps hand
out.  If the display is on between the steps, and so throughout, since a step writes to LCD control
once at most, these lines follow one another around the picture, every one of it is among them, and
one frame or two have been counted. -/
theorem runFrame_covers {image : ByteArray} {config : Config} {sink : Sink}
    {first machine : Machine}
    (loaded : Machine.ofImage image config sink = .ok first) (driven : first.Driven machine)
    {σ : Type} (render : Renderer σ) (screen : σ) :
    let session : Session σ := ⟨machine, screen⟩
    (∀ fuel, 17556 ≤ fuel →
      runFrameFrom render fuel 0 session = runFrame render session) ∧
    ((∃ moves before fault after, Steps render session moves before ∧ cyclesOf moves < 70224 ∧
        step render before = .error fault after ∧
        runFrame render session = .error fault after) ∨
      ∃ moves last, Steps render session moves last ∧
        runFrame render session = .ok (cyclesOf moves) last ∧
        70224 ≤ cyclesOf moves ∧ cyclesOf moves < 70224 + 1304 ∧
        cyclesOf moves.dropLast < 70224 ∧
        last.screen = (linesOf moves).foldl render screen ∧
        ((∀ move ∈ moves, move.found.machine.bus.ppu.lcdEnabled = true) →
          last.machine.bus.ppu.lcdEnabled = true →
          let lines := (linesOf moves).map fun context => context.line.toNat
          (∀ line < 144, line ∈ lines) ∧
          (∃ start, lines = (List.range' start lines.length).map (· % 144)) ∧
          (last.frames = session.frames + 1 ∨ last.frames = session.frames + 2))) := by
  intro session
  obtain ⟨cartridge, rfl⟩ := Machine.boot_of_ofImage loaded
  have orderly : session.Orderly := driven.orderly (orderly_boot cartridge config sink ()) screen
  have ends : FrameEnds render session 0 17556 :=
    orderly.frameEnds (by decide) (by decide)
  cases ends with
  | @fails moves before after fault steps within failed goes =>
      have ran : runFrame render session = .error fault after := goes _ (by decide)
      rw [Nat.zero_add] at within
      exact ⟨fun fuel enough => (goes fuel enough).trans ran.symm,
        .inl ⟨moves, before, fault, after, steps, within, failed, ran⟩⟩
  | @covers moves last steps covered few begins goes =>
      rw [Nat.zero_add] at covered few goes
      simp only [Nat.zero_add] at begins
      have ran : runFrame render session = .ok (cyclesOf moves) last := goes _ (by decide)
      have some : moves ≠ [] := by
        rintro rfl
        cases covered
      refine ⟨fun fuel enough => (goes fuel enough).trans ran.symm, .inr ⟨moves, last, steps, ran,
        covered, few, begins some, steps.screen_eq, fun on still => ?_⟩⟩
      obtain ⟨⟨start, count, round, lines⟩, counted⟩ :=
        steps.covers orderly ⟨on, still⟩ covered few
      refine ⟨fun line visible => ?_, ⟨start, ?_⟩, counted⟩
      · rw [lines]
        exact Ppu.mem_consecutive round visible
      · rw [lines, Ppu.length_consecutive]
        rfl

/-! ## A machine asleep -/

theorem Board.read_joypad_tick {σ : Type} (render : Renderer σ) (cycles : Nat) (board : Board)
    (screen : σ) : (board.tick render cycles screen).1.joypad.read = board.joypad.read := by
  obtain ⟨_, _, collected⟩ := (board.passed cycles).collect_eq
  rw [Board.tick_eq_passed, collected]
  rfl

/-- The processor waits for a button and the display is on. -/
structure Session.Asleep {σ : Type} (session : Session σ) : Prop where
  unlocked : session.machine.cpu.locked = none
  waits : session.machine.waitsForButton = true
  on : session.machine.bus.ppu.lcdEnabled = true

namespace Session.Asleep

variable {σ : Type} {render : Renderer σ} {session last : Session σ} {moves : List (Move σ)}

theorem step (asleep : session.Asleep) (render : Renderer σ) :
    ∃ next, Session.step render session = .ok .idle next ∧ next.Asleep := by
  have planned : session.machine.plan = .wait := if_pos asleep.waits
  refine ⟨_, step_of_ok (Machine.step_of_wait asleep.unlocked planned), asleep.unlocked, ?_, ?_⟩
  · have waits := asleep.waits
    rw [Machine.waitsForButton, Bool.and_eq_true] at waits
    rw [Machine.waitsForButton, Board.read_joypad_tick, waits.2, asleep.waits]
    rfl
  · rw [(session.machine.bus.tick_apply render _ session.screen).2.lcdEnabled, Ppu.lcdEnabled_tick]
    exact asleep.on

theorem of_steps (asleep : session.Asleep) (steps : Steps render session moves last) :
    (∀ move ∈ moves, move.found.Asleep) ∧ last.Asleep := by
  induction steps with
  | nil => exact ⟨List.forall_mem_nil _, asleep⟩
  | cons ran _ ih =>
      obtain ⟨other, goes, still⟩ := asleep.step render
      rw [ran] at goes
      cases goes
      obtain ⟨others, ended⟩ := ih still
      exact ⟨List.forall_mem_cons.mpr ⟨asleep, others⟩, ended⟩

end Session.Asleep

/-- A program that stops. -/
def stopFirst : List UInt8 := [0x10, 0x00]

/-- The machine that the program is loaded into. -/
def stopping : Machine :=
  Machine.boot (.romOnly (Bank.ofProgram stopFirst) (Bank.filled 0)) {} .discard

/-- The machine after its first step. -/
def stopped : Machine :=
  (drive Renderer.null [Call.step.doing] ⟨stopping, ()⟩).2.machine

/-- A machine asleep draws the whole picture. -/
theorem runFrame_covers_stopped :
    Machine.ofImage (programImage stopFirst) {} .discard = .ok stopping ∧
      stopping.Driven stopped ∧
      ∃ cycles last, runFrame Renderer.recorder ⟨stopped, []⟩ = .ok cycles last ∧
        70224 ≤ cycles ∧ ∀ line < 144, ∃ context ∈ last.screen, context.line.toNat = line := by
  have loaded : Machine.ofImage (programImage stopFirst) {} .discard = .ok stopping :=
    (PlainHeader.ofProgram (by decide)).ofImage (Bank.filled 0) {} .discard
  have driven : stopping.Driven stopped := .call Renderer.null () .step .start
  have asleep : Asleep (⟨stopped, []⟩ : Session (List LineContext)) := by
    constructor <;> decide +kernel
  refine ⟨loaded, driven, ?_⟩
  obtain ⟨_, ⟨moves, before, fault, after, steps, _, failed, _⟩ |
    ⟨moves, last, steps, ran, covered, _, _, drawn, picture⟩⟩ :=
      runFrame_covers loaded driven Renderer.recorder []
  · obtain ⟨next, goes, _⟩ := (asleep.of_steps steps).2.step Renderer.recorder
    rw [failed] at goes
    cases goes
  · obtain ⟨found, ended⟩ := asleep.of_steps steps
    obtain ⟨all, _⟩ := picture (fun move member => (found move member).on) ended.on
    rw [Ppu.foldl_recorder, List.nil_append] at drawn
    refine ⟨cyclesOf moves, last, ran, covered, fun line visible => ?_⟩
    rw [drawn]
    exact List.mem_map.mp (all line visible)

end GameBoy
