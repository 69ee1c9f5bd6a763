import GameBoy.Proofs.Turns

/-!
# Splitting time

Time may pass on a board in one portion or in several: the devices, the requests and the lines drawn
are the same.  In several portions the requests are collected earlier, which makes no difference,
since no device looks at a request that it has raised.  The picture unit may as well pass from mode
to mode.
-/

namespace GameBoy

open Effect

/-! ## The timer -/

namespace Timer

theorem acknowledge_settle (before : Bool) (timer : Timer) :
    (settle before timer).acknowledge = settle before timer.acknowledge := by
  have same : timer.acknowledge.signal = timer.signal := rfl
  rw [settle, settle, same]
  split <;> rfl

theorem acknowledge_advanceReload (timer : Timer) :
    timer.acknowledge.advanceReload.acknowledge = timer.advanceReload.acknowledge := by
  cases pending : timer.reloadIn with
  | none => simp [advanceReload, acknowledge, pending]
  | some left => by_cases due : left ≤ 1 <;> simp [advanceReload, acknowledge, pending, due]

/-- Whether a request has been collected makes no difference to the rest of a cycle. -/
theorem acknowledge_cycle (timer : Timer) :
    timer.acknowledge.cycle.acknowledge = timer.cycle.acknowledge := by
  have counted (timer : Timer) :
      timer.advanceCounter.acknowledge = timer.acknowledge.advanceCounter :=
    acknowledge_settle _ _
  rw [cycle, cycle, counted, counted, acknowledge_advanceReload]

theorem acknowledge_run (timer : Timer) (cycles : Nat) :
    (run cycles timer.acknowledge).acknowledge = (run cycles timer).acknowledge := by
  induction cycles generalizing timer with
  | zero => rfl
  | succ cycles ih => rw [run, run, ← ih, acknowledge_cycle, ih]

theorem raisesWithin_acknowledge (timer : Timer) (cycles : Nat) :
    timer.acknowledge.raisesWithin cycles = timer.raisesWithin cycles := by
  induction cycles generalizing timer with
  | zero => rfl
  | succ cycles ih =>
      have next : timer.acknowledge.raisesNext = timer.raisesNext := rfl
      rw [raisesWithin, raisesWithin, next, ← ih, acknowledge_cycle, ih]

end Timer

/-! ## The picture unit -/

namespace Ppu

variable {σ : Type} {ppu : Ppu}

/-- What entering a mode and moving to a line keep related, going on keeps related. -/
theorem advance_related (related : Ppu → Ppu → Prop)
    (enters : ∀ mode {first second}, related first second →
      related (first.enter mode) (second.enter mode))
    (moves : ∀ line {first second}, related first second →
      related (first.setLine line) (second.setLine line))
    (blanks : ∀ {first second}, related first second → related first.enterVblank second.enterVblank)
    {first second : Ppu} (mode : first.mode = second.mode) (line : first.ly = second.ly)
    (holds : related first second) : related first.advance second.advance := by
  rw [advance, advance, mode, line]
  cases second.mode with
  | oamSearch | pixelTransfer => exact enters _ holds
  | hblank =>
      by_cases blank : second.ly + 1 = vblankLine
      · simp only
        rw [if_pos (by exact blank), if_pos (by exact blank)]
        exact blanks (moves _ holds)
      · simp only
        rw [if_neg (by exact blank), if_neg (by exact blank)]
        exact enters _ (moves _ holds)
  | vblank =>
      by_cases last : second.ly = lastLine
      · simp only
        rw [if_pos last, if_pos last]
        exact enters _ (moves _ holds)
      · simp only
        rw [if_neg last, if_neg last]
        exact moves _ holds

theorem acknowledge_advance (ppu : Ppu) :
    ppu.acknowledge.advance.acknowledge = ppu.advance.acknowledge := by
  apply advance_related fun first second => first.acknowledge = second.acknowledge
  · intro mode _ _ same
    exact congrArg (fun ppu : Ppu => { ppu with mode }) same
  · intro line _ _ same
    exact congrArg (fun ppu : Ppu => { ppu with ly := line, coincidence := line == ppu.lyc }) same
  · intro _ _ same
    exact congrArg (fun ppu : Ppu => { ppu with mode := .vblank, frames := ppu.frames + 1 }) same
  · rfl
  · rfl
  · rfl

/-- Whether requests have been collected makes no difference to the rest of a dot. -/
theorem acknowledge_dot (ppu : Ppu) : ppu.acknowledge.dot.acknowledge = ppu.dot.acknowledge := by
  have power : ppu.acknowledge.lcdEnabled = ppu.lcdEnabled := rfl
  have ends : ppu.acknowledge.atModeEnd = ppu.atModeEnd := rfl
  rw [dot, dot, power, ends]
  split
  · rfl
  · split
    · exact acknowledge_advance { ppu with dots := 0 }
    · rfl

theorem acknowledge_dots (ppu : Ppu) (dots : Nat) :
    (dot^[dots] ppu.acknowledge).acknowledge = (dot^[dots] ppu).acknowledge := by
  induction dots generalizing ppu with
  | zero => rfl
  | succ dots ih =>
      rw [Function.iterate_succ_apply, Function.iterate_succ_apply, ← ih, acknowledge_dot, ih]

theorem linesWithin_acknowledge (ppu : Ppu) (dots : Nat) :
    linesWithin dots ppu.acknowledge = linesWithin dots ppu := by
  induction dots generalizing ppu with
  | zero => rfl
  | succ dots ih =>
      have ends : ppu.acknowledge.completesLine = ppu.completesLine := rfl
      have line : ppu.acknowledge.lineContext = ppu.lineContext := rfl
      rw [linesWithin, linesWithin, ends, line, ← ih ppu.acknowledge.dot, acknowledge_dot, ih]

theorem raisesWithin_acknowledge (ppu : Ppu) (dots : Nat) :
    ppu.acknowledge.raisesWithin dots = ppu.raisesWithin dots := by
  induction dots generalizing ppu with
  | zero => rfl
  | succ dots ih =>
      have next : ppu.acknowledge.raisesNext = ppu.raisesNext := rfl
      rw [raisesWithin, raisesWithin, next, ← ih ppu.acknowledge.dot, acknowledge_dot, ih]

theorem linesWithin_add (ppu : Ppu) (first second : Nat) :
    linesWithin (first + second) ppu =
      linesWithin first ppu ++ linesWithin second (dot^[first] ppu) := by
  induction first generalizing ppu with
  | zero => simp [linesWithin]
  | succ first ih =>
      rw [Nat.succ_add, linesWithin, ih, linesWithin, Function.iterate_succ_apply,
        List.append_assoc]

/-! ## From mode to mode -/

theorem dots_advance (ppu : Ppu) : ppu.advance.dots = ppu.dots := by
  rw [advance]
  cases ppu.mode with
  | oamSearch | pixelTransfer => rfl
  | hblank | vblank =>
      simp only
      split <;> rfl

/-- The picture unit with its dots replaced. -/
def withDots (ppu : Ppu) (dots : Nat) : Ppu :=
  { ppu with dots }

@[simp]
theorem dots_withDots (ppu : Ppu) (dots : Nat) : (ppu.withDots dots).dots = dots := rfl

/-- Pass from mode to mode while the dots counted fill the current one. -/
def passModes (render : Renderer σ) (ppu : Ppu) (screen : σ) : Ppu × σ :=
  if ppu.mode.duration ≤ ppu.dots then
    passModes render (ppu.withDots (ppu.dots - ppu.mode.duration)).advance
      (if ppu.mode = .pixelTransfer then render screen ppu.lineContext else screen)
  else (ppu, screen)
termination_by ppu.dots
decreasing_by
  have filled := ppu.mode.duration_pos
  rw [dots_advance, dots_withDots]
  omega

/-- Let a number of dots pass at once, mode by mode. -/
def tickByModes (render : Renderer σ) (dots : Nat) (ppu : Ppu) (screen : σ) : Ppu × σ :=
  if ppu.lcdEnabled then passModes render (ppu.withDots (ppu.dots + dots)) screen
  else (ppu, screen)

/-- Going on does not look at the dots. -/
theorem advance_withDots (ppu : Ppu) (dots : Nat) :
    (ppu.withDots dots).advance = (ppu.withDots 0).advance.withDots dots := by
  apply advance_related fun first second => first = second.withDots dots
  · rintro mode _ _ rfl
    rfl
  · rintro line _ _ rfl
    rfl
  · rintro _ _ rfl
    rfl
  · rfl
  · rfl
  · rfl

theorem tick_eq_passModes (render : Renderer σ) (dots : Nat) (screen : σ)
    (enabled : ppu.lcdEnabled = true) (inside : ppu.dots < ppu.mode.duration) :
    ppu.tick render dots screen = passModes render (ppu.withDots (ppu.dots + dots)) screen := by
  induction total : ppu.dots + dots using Nat.strong_induction_on generalizing ppu dots screen with
  | h total ih =>
      subst total
      rw [passModes]
      by_cases reaches : ppu.mode.duration ≤ ppu.dots + dots
      · -- the rest is spent in the next mode, which is entered with no dots
        have filled := ppu.mode.duration_pos
        let fresh := (ppu.withDots 0).advance
        let rest := ppu.dots + dots - ppu.mode.duration
        let drawn := if ppu.mode = .pixelTransfer then render screen ppu.lineContext else screen
        have on : fresh.lcdEnabled = true := by
          rw [lcdEnabled, (registers_advance _).1]
          exact enabled
        have empty : fresh.dots = 0 := dots_advance _
        have enters : ppu.tick render dots screen = fresh.tick render rest drawn :=
          tick_of_reaches render screen enabled inside reaches
        have passes : fresh.tick render rest drawn =
            passModes render (fresh.withDots (fresh.dots + rest)) drawn :=
          ih _ (by omega) rest drawn on (by rw [empty]; exact fresh.mode.duration_pos) rfl
        rw [if_pos (by exact reaches), enters, passes, empty, Nat.zero_add, ← advance_withDots]
        rfl
      · rw [if_neg (by exact reaches), tick_eq_run,
          run_of_lt render enabled (Nat.lt_of_not_le reaches)]
        rfl

/-- A picture unit that has been left to itself passes dot by dot or mode by mode alike. -/
theorem Tracked.tick_eq_tickByModes (tracked : ppu.Tracked) (render : Renderer σ) (dots : Nat)
    (screen : σ) : ppu.tick render dots screen = ppu.tickByModes render dots screen := by
  obtain ⟨now, rfl, consistent⟩ := tracked
  rw [tickByModes]
  cases power : now.ppu.lcdEnabled with
  | false => rw [tick_eq_run, run_of_off render dots power, if_neg Bool.false_ne_true]
  | true =>
      rw [if_pos rfl]
      exact tick_eq_passModes render dots screen power (consistent.on power).inFrame.dots_lt

end Ppu

/-! ## The board -/

namespace Board

variable {σ : Type} (render : Renderer σ) {board : Board}

/-- Where neither the serial port nor the joypad has a request, collecting leaves both alone. -/
theorem collect_of_idle (board : Board) (serial : board.serial.requested = false)
    (joypad : board.joypad.requested = false) :
    board.collect =
      { board with
        requests := board.requests.union board.raised
        timer := board.timer.acknowledge
        ppu := board.ppu.acknowledge } := by
  have quiet : board.raised.serial = false := by
    simp [raised, Timer.raised, Ppu.raised, Serial.raised, Joypad.raised, Interrupt.Lines.union,
      serial]
  have port : board.serial.acknowledge = board.serial := by
    rw [Serial.acknowledge, ← serial]
  have buttons : board.joypad.acknowledge = board.joypad := by
    rw [Joypad.acknowledge, ← joypad]
  simp only [collect, quiet, port, buttons, Bool.false_eq_true, if_false]

/-- The board after some cycles, with nothing collected yet. -/
def passed (board : Board) (cycles : Nat) : Board :=
  { board with timer := Timer.run cycles board.timer, ppu := Ppu.dot^[cycles] board.ppu }

theorem tick_eq_passed (board : Board) (cycles : Nat) (screen : σ) :
    board.tick render cycles screen =
      ((board.passed cycles).collect, (Ppu.linesWithin cycles board.ppu).foldl render screen) := by
  have drawn := (Ppu.tick_eq_run render cycles board.ppu screen).trans (Ppu.run_eq_foldl ..)
  rw [tick, drawn, Timer.tick_eq_run]
  rfl

theorem passed_passed (board : Board) (first second : Nat) :
    (board.passed first).passed second = board.passed (first + second) := by
  have drawn : Ppu.dot^[first + second] board.ppu =
      Ppu.dot^[second] (Ppu.dot^[first] board.ppu) := by
    rw [Nat.add_comm, Function.iterate_add_apply]
  simp only [passed, Timer.run_add, drawn]

theorem raised_passed (board : Board) (cycles : Nat) :
    (board.passed cycles).raised =
      board.raised.union (board.raisedDuring (.tick cycles)) := by
  have counted := board.timer.requested_tick cycles
  have drawn := board.ppu.raised_tick Renderer.null cycles ()
  rw [Timer.tick_eq_run] at counted
  rw [Ppu.fst_tick] at drawn
  simp only [raised, passed, Timer.raised, counted, drawn, raisedDuring, Interrupt.Lines.union]
  simp [Bool.or_assoc, Bool.or_comm, Bool.or_left_comm]

/-- It makes no difference to collect before time passes. -/
theorem collect_passed (board : Board) (serial : board.serial.requested = false)
    (joypad : board.joypad.requested = false) (cycles : Nat) :
    (board.collect.passed cycles).collect = (board.passed cycles).collect := by
  have collected := board.collect_of_idle serial joypad
  have before : board.collect.raisedDuring (.tick cycles) = board.raisedDuring (.tick cycles) := by
    rw [collected, raisedDuring, raisedDuring, Timer.raisesWithin_acknowledge,
      Ppu.raisesWithin_acknowledge]
  have requested :
      (board.collect.passed cycles).requests.union (board.collect.passed cycles).raised =
        (board.passed cycles).requests.union (board.passed cycles).raised := by
    change board.collect.requests.union _ = board.requests.union _
    rw [raised_passed, raised_collect, Interrupt.Lines.empty_union, before, raised_passed,
      requests_collect, Interrupt.Lines.union_assoc]
  have idle : (board.collect.passed cycles).serial.requested = false := by
    rw [collected]
    exact serial
  have released : (board.collect.passed cycles).joypad.requested = false := by
    rw [collected]
    exact joypad
  have later := collect_of_idle (board.passed cycles) serial joypad
  rw [collect_of_idle _ idle released, later, requested, collected]
  simp only [passed, Timer.acknowledge_run, Ppu.acknowledge_dots]

/-- The lines drawn later do not depend on what has been collected. -/
theorem linesWithin_tick (serial : board.serial.requested = false)
    (joypad : board.joypad.requested = false) (first second : Nat) (screen : σ) :
    Ppu.linesWithin second (board.tick render first screen).1.ppu =
      Ppu.linesWithin second (Ppu.dot^[first] board.ppu) := by
  rw [tick_eq_passed, collect_of_idle (board.passed first) serial joypad]
  exact Ppu.linesWithin_acknowledge _ second

/-- Two portions of time have the effect of their sum. -/
theorem tick_add (serial : board.serial.requested = false)
    (joypad : board.joypad.requested = false) (first second : Nat) (screen : σ) :
    (board.tick render first screen).1.tick render second (board.tick render first screen).2 =
      board.tick render (first + second) screen := by
  have lines := linesWithin_tick render serial joypad first second screen
  rw [tick_eq_passed render board] at lines ⊢
  rw [tick_eq_passed, tick_eq_passed, lines,
    collect_passed (board.passed first) serial joypad, passed_passed,
    ← List.foldl_append, ← Ppu.linesWithin_add]

/-- Where nothing is left to collect, collecting does nothing. -/
theorem collect_of_settled (settled : board.raised = {}) : board.collect = board := by
  obtain ⟨timer, vblank, stat, serial, joypad⟩ := (raised_eq_empty_iff board).mp settled
  have counted : board.timer.acknowledge = board.timer := by
    rw [Timer.acknowledge, ← timer]
  have drawn : board.ppu.acknowledge = board.ppu := by
    have same : ({ board.ppu with vblankRequested := false, statRequested := false } : Ppu) =
        { board.ppu with
          vblankRequested := board.ppu.vblankRequested
          statRequested := board.ppu.statRequested } := by
      rw [vblank, stat]
    exact same
  rw [board.collect_of_idle serial joypad, settled, Interrupt.Lines.union_empty, counted, drawn]

theorem tick_zero (settled : board.raised = {}) (screen : σ) :
    board.tick render 0 screen = (board, screen) := by
  rw [tick_eq_passed]
  exact congrArg (·, screen) (collect_of_settled settled)

/-- Any number of portions have the effect of their sum. -/
theorem foldl_tick (settled : board.raised = {}) (portions : List Nat) (screen : σ) :
    portions.foldl (fun now cycles => now.1.tick render cycles now.2) (board, screen) =
      board.tick render portions.sum screen := by
  induction portions generalizing board screen with
  | nil => exact (tick_zero render settled screen).symm
  | cons cycles portions ih =>
      -- a tick ends with everything collected, so the next portion starts settled again
      obtain ⟨_, _, _, serial, joypad⟩ := (raised_eq_empty_iff board).mp settled
      rw [List.foldl_cons, List.sum_cons, ← tick_add render serial joypad]
      exact ih (raised_tick render cycles board screen) _

/-- Whatever has happened to a machine, two portions of time have the effect of their sum on its
board, and so do any number of portions: the board is the same, and the renderer is called for the
same lines.  The picture unit passes dot by dot or mode by mode alike. -/
theorem portions_of_time (cartridge : Cartridge) (config : Config) (sink : Sink) (later : Machine)
    (turns : (Machine.boot cartridge config sink).Turns later) (screen : σ) :
    let found := later.bus
    (∀ first second,
      (found.tick render first screen).1.tick render second (found.tick render first screen).2 =
        found.tick render (first + second) screen) ∧
    (∀ portions : List Nat,
      portions.foldl (fun now cycles => now.1.tick render cycles now.2) (found, screen) =
        found.tick render portions.sum screen) ∧
    (∀ cycles, (found.tick render cycles screen).2 =
      (Ppu.linesWithin cycles found.ppu).foldl render screen) ∧
    (∀ first second, Ppu.linesWithin (first + second) found.ppu =
      Ppu.linesWithin first found.ppu ++
        Ppu.linesWithin second (found.tick render first screen).1.ppu) ∧
    ∀ cycles, found.ppu.tick render cycles screen = found.ppu.tickByModes render cycles screen := by
  intro found
  have settled : found.raised = {} := turns.keep lasting_settled (raised_boot _ _ _)
  have tracked : found.ppu.Tracked :=
    turns.keep lasting_tracked (Machine.Reachable.boot cartridge config sink).tracked
  obtain ⟨_, _, _, serial, joypad⟩ := (raised_eq_empty_iff found).mp settled
  refine ⟨?_, ?_, ?_, ?_, ?_⟩
  · intro first second
    exact tick_add render serial joypad first second screen
  · intro portions
    exact foldl_tick render settled portions screen
  · intro cycles
    rw [tick_eq_passed]
  · intro first second
    rw [linesWithin_tick render serial joypad, Ppu.linesWithin_add]
  · intro cycles
    exact tracked.tick_eq_tickByModes render cycles screen

/-- A machine in the object search of its first line. -/
def searching : Machine :=
  (Machine.boot (.romOnly (Bank.filled 0) (Bank.filled 0)) {} .discard).afterSteps 1

theorem portions_of_time_searching :
    (searching.bus.tick Renderer.recorder 100 []).1.tick Renderer.recorder 200
        (searching.bus.tick Renderer.recorder 100 []).2 =
      searching.bus.tick Renderer.recorder 300 [] := by
  have turns : Machine.Turns (Machine.boot (.romOnly (Bank.filled 0) (Bank.filled 0)) {} .discard)
      searching :=
    .single (.step Renderer.null () _)
  exact (portions_of_time Renderer.recorder _ _ _ searching turns []).1 100 200

end Board
end GameBoy
