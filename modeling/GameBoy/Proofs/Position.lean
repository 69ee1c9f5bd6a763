import GameBoy.Config
import GameBoy.Ppu.Registers
import Mathlib.Logic.Function.Iterate

/-!
# The position of the picture unit

While the display is on, line, mode and dots together count the dots that have passed since it was
switched on, modulo a frame.  A line is handed out whenever the count passes the end of a pixel
transfer, and a frame is counted whenever it passes the start of the vertical blank.  While the
display is off nothing moves.
-/

namespace GameBoy

/-- First dot of a mode within a line. -/
def PpuMode.start : PpuMode → Nat
  | .oamSearch | .vblank => 0
  | .pixelTransfer => 80
  | .hblank => 252

theorem PpuMode.duration_pos (mode : PpuMode) : 0 < mode.duration := by
  cases mode <;> decide

/-- Keeps every line, oldest first. -/
def Renderer.recorder : Renderer (List LineContext) := fun lines line => lines ++ [line]

namespace Ppu

/-! ## Moments -/

/-- After this many dots the pixel transfer of a line ends. -/
def TransferEnds (moment : Nat) : Prop :=
  ∃ line frame, line < 144 ∧ moment = line * 456 + 252 + 70224 * frame

/-- After this many dots a vertical blank starts. -/
def BlankStarts (moment : Nat) : Prop :=
  ∃ frame, moment = 144 * 456 + 70224 * frame

/-- The line that the picture unit is on after a number of dots. -/
def lineAt (moment : Nat) : Nat :=
  moment % 70224 / 456

theorem lineAt_of_lt {line column : Nat} (line_le : line ≤ 153) (column_lt : column < 456) :
    lineAt (line * 456 + column) = line ∧ (line * 456 + column) % 70224 % 456 = column := by
  have whole : (line * 456 + column) % 70224 = line * 456 + column :=
    Nat.mod_eq_of_lt (by omega)
  rw [lineAt, whole]
  omega

theorem transferEnds_iff (moment : Nat) :
    TransferEnds moment ↔ lineAt moment < 144 ∧ moment % 70224 % 456 = 252 := by
  rw [TransferEnds, lineAt]
  constructor
  · rintro ⟨line, frame, visible, rfl⟩
    omega
  · rintro ⟨visible, place⟩
    exact ⟨moment % 70224 / 456, moment / 70224, visible, by omega⟩

theorem transferEnds_congr {moment other : Nat} (same : moment % 70224 = other % 70224) :
    TransferEnds moment ↔ TransferEnds other := by
  rw [transferEnds_iff, transferEnds_iff, lineAt, lineAt, same]

theorem blankStarts_iff (moment : Nat) : BlankStarts moment ↔ moment % 70224 = 144 * 456 := by
  rw [BlankStarts]
  constructor
  · rintro ⟨frame, rfl⟩
    omega
  · intro place
    exact ⟨moment / 70224, by omega⟩

instance : DecidablePred TransferEnds := fun moment =>
  decidable_of_iff _ (transferEnds_iff moment).symm

instance : DecidablePred BlankStarts := fun moment =>
  decidable_of_iff _ (blankStarts_iff moment).symm

/-- The moments of one kind within a number of dots, in order. -/
def moments (kind : Nat → Prop) [DecidablePred kind] (elapsed : Nat) : List Nat :=
  (List.range (elapsed + 1)).filter (kind ·)

theorem moments_succ (kind : Nat → Prop) [DecidablePred kind] (elapsed : Nat) :
    moments kind (elapsed + 1) =
      moments kind elapsed ++ if kind (elapsed + 1) then [elapsed + 1] else [] := by
  rw [moments, List.range_succ, List.filter_append, moments]
  by_cases passed : kind (elapsed + 1) <;> simp [passed]

/-! ## The beam -/

/-- What moves in the picture unit while the display is on. -/
structure Beam where
  mode : PpuMode
  line : UInt8
  dots : Nat
  frames : Nat

namespace Beam

/-- Dots since the start of the frame. -/
def position (beam : Beam) : Nat :=
  beam.line.toNat * 456 + beam.mode.start + beam.dots

/-- Line, mode and dots fit together. -/
structure InFrame (beam : Beam) : Prop where
  dots_lt : beam.dots < beam.mode.duration
  line_le : beam.line.toNat ≤ 153
  vblank_iff : beam.mode = .vblank ↔ 144 ≤ beam.line.toNat

/-- The beam at the start of the next mode, or of the next line of the vertical blank. -/
def next (beam : Beam) : Beam :=
  match beam.mode with
  | .oamSearch => { beam with mode := .pixelTransfer, dots := 0 }
  | .pixelTransfer => { beam with mode := .hblank, dots := 0 }
  | .hblank =>
    if beam.line + 1 = vblankLine then ⟨.vblank, beam.line + 1, 0, beam.frames + 1⟩
    else ⟨.oamSearch, beam.line + 1, 0, beam.frames⟩
  | .vblank =>
    if beam.line = lastLine then ⟨.oamSearch, 0, 0, beam.frames⟩
    else ⟨.vblank, beam.line + 1, 0, beam.frames⟩

/-- The next dot is the last one of the current mode. -/
def AtModeEnd (beam : Beam) : Prop :=
  beam.dots + 1 = beam.mode.duration

instance (beam : Beam) : Decidable beam.AtModeEnd :=
  inferInstanceAs (Decidable (_ = _))

/-- The beam one dot later. -/
def dot (beam : Beam) : Beam :=
  if beam.AtModeEnd then beam.next else { beam with dots := beam.dots + 1 }

variable {beam : Beam}

theorem toNat_succ (inFrame : beam.InFrame) : (beam.line + 1).toNat = beam.line.toNat + 1 := by
  have within := inFrame.line_le
  rw [UInt8.toNat_add]
  exact Nat.mod_eq_of_lt (by simp; omega)

/-- The beam after a dot stands one dot further in the frame and has counted the frame exactly if a
vertical blank starts there. -/
structure MovesTo (before after : Beam) : Prop where
  inFrame : after.InFrame
  position_eq : after.position = (before.position + 1) % 70224
  counts : (before.position + 1) % 70224 = 144 * 456 → after.frames = before.frames + 1
  keeps : (before.position + 1) % 70224 ≠ 144 * 456 → after.frames = before.frames

/-- Within a mode a dot counts as a dot and nothing else. -/
theorem InFrame.movesTo_of_inside (inFrame : beam.InFrame) (inside : ¬beam.AtModeEnd) :
    beam.MovesTo { beam with dots := beam.dots + 1 } := by
  obtain ⟨dots_lt, line_le, vblank_iff⟩ := inFrame
  rcases beam with ⟨mode, line, dots, frames⟩
  simp only [AtModeEnd] at *
  have dot_lt : dots + 1 < mode.duration := by omega
  have place : line.toNat * 456 + mode.start + (dots + 1) < 70224 ∧
      line.toNat * 456 + mode.start + (dots + 1) ≠ 144 * 456 := by
    cases mode <;>
      simp only [PpuMode.duration, PpuMode.start, reduceCtorEq, true_iff, false_iff] at * <;> omega
  refine ⟨⟨dot_lt, line_le, vblank_iff⟩, ?_, ?_, fun _ => rfl⟩ <;> simp only [position] <;> omega

/-- Within a line one mode follows another. -/
theorem movesTo_of_line {mode next : PpuMode} {line : UInt8} {dots frames : Nat}
    (visible : line.toNat < 144) (ends : dots + 1 = mode.duration)
    (adjoins : next.start = mode.start + mode.duration) (within : next.start < 456)
    (different : next ≠ .vblank) :
    MovesTo ⟨mode, line, dots, frames⟩ ⟨next, line, 0, frames⟩ where
  inFrame := ⟨next.duration_pos, by simp only; omega, by simp [different]; omega⟩
  position_eq := by
    simp only [position]
    omega
  counts place := by
    simp only [position] at place
    omega
  keeps _ := rfl

/-- A line ends and the next one begins. -/
theorem movesTo_of_next_line {mode next : PpuMode} {line after : UInt8}
    {dots frames framesAfter : Nat} (succ : after.toNat = line.toNat + 1)
    (line_lt : line.toNat < 153)
    (ends : mode.start + dots + 1 = 456) (begins : next.start = 0)
    (vblank_iff : next = .vblank ↔ 144 ≤ line.toNat + 1)
    (counted : framesAfter = if line.toNat = 143 then frames + 1 else frames) :
    MovesTo ⟨mode, line, dots, frames⟩ ⟨next, after, 0, framesAfter⟩ where
  inFrame := ⟨next.duration_pos, by simp only; omega, by simp only [succ]; exact vblank_iff⟩
  position_eq := by
    simp only [position]
    omega
  counts place := by
    simp only [position] at place
    rw [counted, if_pos (by omega)]
  keeps place := by
    simp only [position] at place
    rw [counted, if_neg (by omega)]

/-- The dot that ends a mode leads to the start of the next one. -/
theorem InFrame.movesTo_next (inFrame : beam.InFrame) (ends : beam.AtModeEnd) :
    beam.MovesTo beam.next := by
  have succ := toNat_succ inFrame
  obtain ⟨_, line_le, vblank_iff⟩ := inFrame
  rcases beam with ⟨mode, line, dots, frames⟩
  simp only [AtModeEnd] at *
  cases mode with
  | oamSearch | pixelTransfer =>
      have visible : ¬144 ≤ line.toNat := fun blank => nomatch vblank_iff.mpr blank
      exact movesTo_of_line (by omega) ends rfl (by decide) nofun
  | hblank =>
      have visible : ¬144 ≤ line.toNat := fun blank => nomatch vblank_iff.mpr blank
      have ends : PpuMode.start .hblank + dots + 1 = 456 := by
        simp only [PpuMode.start, PpuMode.duration] at ends ⊢
        omega
      by_cases blank : line + 1 = vblankLine
      · have line_eq : line.toNat + 1 = 144 := succ.symm.trans (congrArg UInt8.toNat blank)
        rw [next, if_pos blank]
        exact movesTo_of_next_line succ (by omega) ends rfl (by simp; omega)
          (by rw [if_pos (by omega)])
      · have line_ne : line.toNat + 1 ≠ 144 := fun same =>
          blank (UInt8.toNat_inj.mp (succ.trans same))
        rw [next, if_neg blank]
        exact movesTo_of_next_line succ (by omega) ends rfl (by simp; omega)
          (by rw [if_neg (by omega)])
  | vblank =>
      have blank : 144 ≤ line.toNat := vblank_iff.mp rfl
      have ends : PpuMode.start .vblank + dots + 1 = 456 := by
        simp only [PpuMode.start, PpuMode.duration] at ends ⊢
        omega
      by_cases last : line = lastLine
      · have line_eq : line.toNat = 153 := congrArg UInt8.toNat last
        rw [next, if_pos last]
        refine ⟨⟨PpuMode.duration_pos _, Nat.zero_le _, by simp⟩, ?_, fun place => ?_, fun _ => rfl⟩
        · have whole : line.toNat * 456 + PpuMode.start .vblank + dots + 1 = 70224 := by omega
          simp only [position, whole]
          rfl
        · simp only [position, line_eq] at place
          omega
      · have line_ne : line.toNat ≠ 153 := fun same => last (UInt8.toNat_inj.mp same)
        rw [next, if_neg last]
        exact movesTo_of_next_line succ (by omega) ends rfl (by simp; omega)
          (by rw [if_neg (by omega)])

theorem InFrame.movesTo_dot (inFrame : beam.InFrame) : beam.MovesTo beam.dot := by
  rw [dot]
  by_cases ends : beam.AtModeEnd
  · rw [if_pos ends]
    exact inFrame.movesTo_next ends
  · rw [if_neg ends]
    exact inFrame.movesTo_of_inside ends

/-- The dot that ends the pixel transfer of a line is the one that completes the line. -/
theorem InFrame.transferEnds_iff (inFrame : beam.InFrame) :
    TransferEnds (beam.position + 1) ↔ beam.mode = .pixelTransfer ∧ beam.AtModeEnd := by
  obtain ⟨dots_lt, line_le, vblank_iff⟩ := inFrame
  rcases beam with ⟨mode, line, dots, frames⟩
  simp only [AtModeEnd, position] at *
  by_cases ends : mode.start + (dots + 1) = 456
  · have next_line : line.toNat * 456 + mode.start + dots + 1 = (line.toNat + 1) * 456 := by omega
    have column : (line.toNat + 1) * 456 % 70224 % 456 = 0 := by
      rw [Nat.mod_mod_of_dvd _ (by decide : 456 ∣ 70224), Nat.mul_mod_left]
    rw [Ppu.transferEnds_iff, next_line, column]
    constructor
    · rintro ⟨_, place⟩
      cases place
    · rintro ⟨rfl, last⟩
      simp only [PpuMode.start, PpuMode.duration] at ends last
      omega
  · have within : mode.start + (dots + 1) < 456 := by
      cases mode <;> simp only [PpuMode.duration, PpuMode.start] at * <;> omega
    obtain ⟨line_eq, column⟩ := lineAt_of_lt line_le within
    simp only [← Nat.add_assoc] at line_eq column
    rw [Ppu.transferEnds_iff, line_eq, column]
    cases mode <;>
      simp only [PpuMode.duration, PpuMode.start, reduceCtorEq, true_iff, false_iff, true_and,
        false_and, iff_false] at * <;> omega

theorem InFrame.lineAt_of_transferEnds (inFrame : beam.InFrame)
    (ends : TransferEnds (beam.position + 1)) : lineAt (beam.position + 1) = beam.line.toNat := by
  obtain ⟨transfers, last⟩ := inFrame.transferEnds_iff.mp ends
  have place : beam.position + 1 = beam.line.toNat * 456 + 252 := by
    rw [AtModeEnd, transfers] at last
    rw [position, transfers, PpuMode.start, Nat.add_assoc, last, Nat.add_assoc]
    rfl
  rw [place]
  exact (lineAt_of_lt inFrame.line_le (by decide)).1

end Beam

/-! ## The picture unit follows the beam -/

/-- The moving part of the picture unit. -/
def beam (ppu : Ppu) : Beam :=
  ⟨ppu.mode, ppu.ly, ppu.dots, ppu.frames⟩

variable {ppu : Ppu}

theorem beam_advance (ppu : Ppu) : { ppu with dots := 0 }.advance.beam = ppu.beam.next := by
  rw [advance, Beam.next]
  cases mode : ppu.mode with
  | oamSearch | pixelTransfer =>
      simp only [beam, mode]
      rfl
  | hblank =>
      simp only [beam, mode]
      by_cases blank : ppu.ly + 1 = vblankLine
      · rw [if_pos blank, if_pos (by exact blank)]
        rfl
      · rw [if_neg blank, if_neg (by exact blank)]
        rfl
  | vblank =>
      simp only [beam, mode]
      by_cases last : ppu.ly = lastLine
      · rw [if_pos last, if_pos last]
        rfl
      · rw [if_neg last, if_neg last]
        rw [← mode]
        rfl

theorem registers_advance (ppu : Ppu) :
    ppu.advance.lcdc = ppu.lcdc ∧ ppu.advance.statSelect = ppu.statSelect := by
  rw [advance]
  cases ppu.mode with
  | oamSearch | pixelTransfer => exact ⟨rfl, rfl⟩
  | hblank | vblank =>
      simp only
      split <;> exact ⟨rfl, rfl⟩

theorem registers_dot (ppu : Ppu) :
    ppu.dot.lcdc = ppu.lcdc ∧ ppu.dot.statSelect = ppu.statSelect := by
  rw [dot]
  split
  · exact ⟨rfl, rfl⟩
  · split
    · exact registers_advance _
    · exact ⟨rfl, rfl⟩

theorem lcdEnabled_dot (ppu : Ppu) : ppu.dot.lcdEnabled = ppu.lcdEnabled := by
  rw [lcdEnabled, lcdEnabled, (registers_dot ppu).1]

theorem atModeEnd_iff (ppu : Ppu) : ppu.atModeEnd = true ↔ ppu.beam.AtModeEnd :=
  beq_iff_eq

theorem beam_dot (enabled : ppu.lcdEnabled = true) : ppu.dot.beam = ppu.beam.dot := by
  rw [dot, enabled, Bool.not_true, if_neg Bool.false_ne_true, Beam.dot]
  by_cases ends : ppu.beam.AtModeEnd
  · rw [if_pos ((atModeEnd_iff ppu).mpr ends), if_pos ends, beam_advance]
  · rw [if_neg (mt (atModeEnd_iff ppu).mp ends), if_neg ends]
    rfl

theorem completesLine_iff (enabled : ppu.lcdEnabled = true) (inFrame : ppu.beam.InFrame) :
    ppu.completesLine = true ↔ TransferEnds (ppu.beam.position + 1) := by
  rw [inFrame.transferEnds_iff, completesLine, enabled, Bool.true_and, Bool.and_eq_true,
    decide_eq_true_iff, atModeEnd_iff]
  rfl

/-! ## Lines handed out -/

/-- The lines handed out within a number of dots. -/
def linesWithin : Nat → Ppu → List LineContext
  | 0, _ => []
  | dots + 1, ppu =>
    (if ppu.completesLine then [ppu.lineContext] else []) ++ linesWithin dots ppu.dot

/-- A renderer is called for these lines and has no influence on the picture unit. -/
theorem run_eq_foldl {σ : Type} (render : Renderer σ) (dots : Nat) (ppu : Ppu) (screen : σ) :
    run render dots ppu screen = (dot^[dots] ppu, (linesWithin dots ppu).foldl render screen) := by
  induction dots generalizing ppu screen with
  | zero => rfl
  | succ dots ih =>
      rw [run, ih, linesWithin, List.foldl_append, Function.iterate_succ_apply]
      cases ppu.completesLine <;> rfl

theorem foldl_recorder (lines drawn : List LineContext) :
    lines.foldl Renderer.recorder drawn = drawn ++ lines := by
  induction lines generalizing drawn with
  | nil => simp
  | cons line lines ih => simp [ih, Renderer.recorder]

/-- Passing the end of a mode is entering the next one and spending there what is left. -/
theorem tick_of_reaches {σ : Type} (render : Renderer σ) {dots : Nat} (screen : σ)
    (enabled : ppu.lcdEnabled = true) (inside : ppu.dots < ppu.mode.duration)
    (reaches : ppu.mode.duration ≤ ppu.dots + dots) :
    ppu.tick render dots screen =
      { ppu with dots := 0 }.advance.tick render (ppu.dots + dots - ppu.mode.duration)
        (if ppu.mode = PpuMode.pixelTransfer then render screen ppu.lineContext else screen) := by
  obtain ⟨before, last⟩ : ∃ before, ppu.dots + before + 1 = ppu.mode.duration :=
    ⟨ppu.mode.duration - 1 - ppu.dots, by omega⟩
  obtain ⟨rest, rfl⟩ : ∃ rest, dots = before + (rest + 1) := ⟨dots - before - 1, by omega⟩
  have left : ppu.dots + (before + (rest + 1)) - ppu.mode.duration = rest := by omega
  let late := { ppu with dots := ppu.dots + before }
  have ends : late.atModeEnd = true := beq_iff_eq.mpr last
  have on : late.lcdEnabled = true := enabled
  have leads : late.dot = { ppu with dots := 0 }.advance := by
    rw [dot, on, Bool.not_true, if_neg Bool.false_ne_true, if_pos ends]
  have draws : late.completesLine = decide (ppu.mode = .pixelTransfer) := by
    rw [completesLine, on, ends, Bool.true_and, Bool.and_true]
  rw [tick_eq_run, tick_eq_run, left, run_add, run_of_lt render enabled (by omega)]
  change run render (rest + 1) late screen = _
  rw [run, leads, draws]
  simp only [decide_eq_true_eq]
  rfl

/-! ## Observing the picture unit -/

/-- What is done to the picture unit: a register is written or time passes. -/
inductive Action where
  | write (address : UInt16) (value : UInt8)
  | tick (dots : Nat)

/-- A picture unit and what has been observed of it since the display was last switched on. -/
structure Observed where
  ppu : Ppu
  /-- Dots that have passed. -/
  elapsed : Nat := 0
  /-- Lines handed out, oldest first. -/
  drawn : List LineContext := []
  /-- Frames counted before. -/
  framesBefore : Nat := 0

namespace Observed

/-- Write a register; switching the display on begins a new observation. -/
def write (address : UInt16) (value : UInt8) (now : Observed) : Observed :=
  let ppu := now.ppu.write address value
  if !now.ppu.lcdEnabled && ppu.lcdEnabled then { ppu, framesBefore := now.ppu.frames }
  else { now with ppu }

/-- Let time pass. -/
def tick (dots : Nat) (now : Observed) : Observed :=
  let (ppu, drawn) := now.ppu.tick Renderer.recorder dots now.drawn
  { now with ppu, drawn, elapsed := now.elapsed + dots }

/-- Do something to the picture unit. -/
def act (now : Observed) : Action → Observed
  | .write address value => now.write address value
  | .tick dots => now.tick dots

/-- A picture unit at power-on after a number of actions. -/
def after (boot : BootState) (actions : List Action) : Observed :=
  let ppu : Ppu :=
    match boot with
    | .zeroed => {}
    | .postBoot => postBoot
  actions.foldl act { ppu }

/-- The observation agrees with the count of dots. -/
structure Counts (now : Observed) : Prop where
  inFrame : now.ppu.beam.InFrame
  position_eq : now.ppu.beam.position = now.elapsed % 70224
  drawn_eq :
    now.drawn.map (fun context => context.line.toNat) =
      (moments TransferEnds now.elapsed).map lineAt
  frames_eq : now.ppu.frames = now.framesBefore + (moments BlankStarts now.elapsed).length

/-- What holds of every observation. -/
structure Consistent (now : Observed) : Prop where
  on : now.ppu.lcdEnabled = true → now.Counts
  off : now.ppu.lcdEnabled = false → now.ppu.mode = .hblank ∧ now.ppu.ly = 0 ∧ now.ppu.dots = 0
  select : now.ppu.statSelect &&& 0x03 = 0

variable {now : Observed}

theorem tick_one (now : Observed) :
    now.tick 1 =
      { now with
        ppu := now.ppu.dot
        drawn := if now.ppu.completesLine then now.drawn ++ [now.ppu.lineContext] else now.drawn
        elapsed := now.elapsed + 1 } := by
  simp only [tick, tick_eq_run, run]
  rfl

theorem tick_add (first second : Nat) (now : Observed) :
    now.tick (first + second) = (now.tick first).tick second := by
  simp only [tick, Ppu.tick_add, Nat.add_assoc]

theorem tick_of_off (off : now.ppu.lcdEnabled = false) (dots : Nat) :
    now.tick dots = { now with elapsed := now.elapsed + dots } := by
  simp only [tick, tick_eq_run, run_of_off _ dots off]

theorem Counts.dot (enabled : now.ppu.lcdEnabled = true) (counts : now.Counts) :
    (now.tick 1).Counts := by
  obtain ⟨inFrame, position_eq, drawn_eq, frames_eq⟩ := counts
  have moves := inFrame.movesTo_dot
  have place : (now.ppu.beam.position + 1) % 70224 = (now.elapsed + 1) % 70224 := by omega
  have beam_eq := beam_dot enabled
  rw [tick_one]
  refine ⟨beam_eq ▸ moves.inFrame, (beam_eq ▸ moves.position_eq).trans place, ?_, ?_⟩
  · simp only [moments_succ, ← transferEnds_congr place]
    by_cases ends : TransferEnds (now.ppu.beam.position + 1)
    · have completes := (completesLine_iff enabled inFrame).mpr ends
      have line : lineAt (now.elapsed + 1) = now.ppu.ly.toNat := by
        rw [lineAt, ← place]
        exact inFrame.lineAt_of_transferEnds ends
      rw [if_pos completes, if_pos ends, List.map_append, List.map_append, drawn_eq,
        List.map_singleton, List.map_singleton, line]
      rfl
    · have goes := mt (completesLine_iff enabled inFrame).mp ends
      rw [if_neg goes, if_neg ends, List.append_nil, drawn_eq]
  · simp only [moments_succ, List.length_append, blankStarts_iff, ← place]
    have frames : now.ppu.dot.frames = now.ppu.beam.dot.frames := congrArg Beam.frames beam_eq
    by_cases starts : (now.ppu.beam.position + 1) % 70224 = 144 * 456
    · rw [if_pos starts, frames, moves.counts starts]
      change now.ppu.frames + 1 = _
      rw [frames_eq, Nat.add_assoc]
      rfl
    · rw [if_neg starts, frames, moves.keeps starts]
      exact frames_eq

theorem Consistent.dot (consistent : now.Consistent) : (now.tick 1).Consistent := by
  cases power : now.ppu.lcdEnabled with
  | false =>
      rw [tick_of_off power]
      exact ⟨fun on => absurd (power.symm.trans on) Bool.false_ne_true, consistent.off,
        consistent.select⟩
  | true =>
      have counts := (consistent.on power).dot power
      rw [tick_one] at counts ⊢
      have still := (lcdEnabled_dot now.ppu).trans power
      refine ⟨fun _ => counts, fun off => absurd (off.symm.trans still) Bool.false_ne_true, ?_⟩
      simp only [registers_dot]
      exact consistent.select

theorem Consistent.tick (consistent : now.Consistent) (dots : Nat) :
    (now.tick dots).Consistent := by
  induction dots with
  | zero =>
      have same : now.tick 0 = now := by
        simp only [Observed.tick, tick_eq_run]
        rfl
      rw [same]
      exact consistent
  | succ dots ih =>
      rw [tick_add]
      exact ih.dot

/-- A write to a register other than LCD control moves nothing. -/
theorem beam_write_of_ne {address : UInt16} (other : address ≠ lcdcAddress) (value : UInt8)
    (ppu : Ppu) :
    (ppu.write address value).beam = ppu.beam ∧ (ppu.write address value).lcdc = ppu.lcdc ∧
      ((ppu.write address value).statSelect = ppu.statSelect ∨
        (ppu.write address value).statSelect = value &&& 0x78) := by
  rw [Ppu.write, if_neg other]
  grind [setLyc, compareLine, beam]

/-- A change of the picture unit that moves nothing keeps the agreement. -/
theorem Consistent.of_beam (consistent : now.Consistent) {ppu : Ppu}
    (power : ppu.lcdEnabled = now.ppu.lcdEnabled) (same : ppu.beam = now.ppu.beam)
    (select : ppu.statSelect &&& 0x03 = 0) : { now with ppu }.Consistent where
  on enabled := by
    obtain ⟨inFrame, position_eq, drawn_eq, frames_eq⟩ :=
      consistent.on (power.symm.trans enabled)
    exact ⟨same ▸ inFrame, same ▸ position_eq, drawn_eq,
      (congrArg Beam.frames same).trans frames_eq⟩
  off disabled := by
    obtain ⟨mode, line, dots⟩ := consistent.off (power.symm.trans disabled)
    exact ⟨(congrArg Beam.mode same).trans mode, (congrArg Beam.line same).trans line,
      (congrArg Beam.dots same).trans dots⟩
  select := select

/-- Switching the display on begins a frame. -/
theorem consistent_of_fresh {ppu : Ppu} (on : ppu.lcdEnabled = true)
    (fresh : ppu.beam = ⟨.oamSearch, 0, 0, ppu.frames⟩) (select : ppu.statSelect &&& 0x03 = 0) :
    ({ ppu, framesBefore := ppu.frames } : Observed).Consistent where
  on _ := by
    refine ⟨?_, ?_, by simp [moments, transferEnds_iff], by simp [moments, blankStarts_iff]⟩
    · rw [fresh]
      exact ⟨PpuMode.duration_pos _, Nat.zero_le _, by simp⟩
    · simp [fresh, Beam.position, PpuMode.start]
  off off := absurd (off.symm.trans on) Bool.false_ne_true
  select := select

theorem write_of_steady {address : UInt16} {value : UInt8} {ppu : Ppu}
    (stored : now.ppu.write address value = ppu)
    (steady : (!now.ppu.lcdEnabled && ppu.lcdEnabled) = false) :
    now.write address value = { now with ppu } := by
  simp only [Observed.write, stored, steady, Bool.false_eq_true, if_false]

theorem Consistent.setLcdc (consistent : now.Consistent) (value : UInt8) :
    (now.write lcdcAddress value).Consistent := by
  have stored : now.ppu.write lcdcAddress value = now.ppu.setLcdc value := if_pos rfl
  have select := consistent.select
  rw [Ppu.setLcdc] at stored
  cases before : now.ppu.lcdEnabled with
  | false =>
      cases later : { now.ppu with lcdc := value }.lcdEnabled with
      | false =>
          simp only [before, later] at stored
          rw [write_of_steady stored (by rw [later, Bool.and_false])]
          exact consistent.of_beam (later.trans before.symm) rfl select
      | true =>
          simp only [before, later] at stored
          have on : (now.ppu.write lcdcAddress value).lcdEnabled = true := by
            rw [stored]
            exact later
          simp only [Observed.write, before, on, Bool.not_false, Bool.and_true, if_true]
          rw [stored] at on ⊢
          exact consistent_of_fresh on rfl select
  | true =>
      cases later : { now.ppu with lcdc := value }.lcdEnabled with
      | false =>
          simp only [before, later] at stored
          rw [write_of_steady stored (by rw [before]; rfl)]
          exact ⟨fun on => absurd (later.symm.trans on) Bool.false_ne_true,
            fun _ => ⟨rfl, rfl, rfl⟩, select⟩
      | true =>
          simp only [before, later] at stored
          rw [write_of_steady stored (by rw [before]; rfl)]
          exact consistent.of_beam (later.trans before.symm) rfl select

theorem Consistent.write (consistent : now.Consistent) (address : UInt16) (value : UInt8) :
    (now.write address value).Consistent := by
  by_cases lcdc : address = lcdcAddress
  · subst lcdc
    exact consistent.setLcdc value
  · obtain ⟨same, kept, select⟩ := beam_write_of_ne lcdc value now.ppu
    have power : (now.ppu.write address value).lcdEnabled = now.ppu.lcdEnabled := by
      rw [lcdEnabled, kept, lcdEnabled]
    rw [write_of_steady rfl (by rw [power, Bool.not_and_self])]
    refine consistent.of_beam power same ?_
    rcases select with unchanged | written
    · rw [unchanged]
      exact consistent.select
    · rw [written, UInt8.and_assoc]
      exact UInt8.and_zero

theorem consistent_after (boot : BootState) (actions : List Action) :
    (after boot actions).Consistent := by
  have start : ∀ (now : Observed), now.Consistent → (actions.foldl act now).Consistent := by
    induction actions with
    | nil => exact fun _ consistent => consistent
    | cons action actions ih =>
        intro now consistent
        refine ih (now.act action) ?_
        cases action with
        | write address value => exact consistent.write address value
        | tick dots => exact consistent.tick dots
  refine start _ ?_
  cases boot with
  | zeroed => exact ⟨nofun, fun _ => ⟨rfl, rfl, rfl⟩, rfl⟩
  | postBoot => exact consistent_of_fresh rfl rfl rfl

end Observed

theorem or_and_mask (first second mask : UInt8) :
    (first ||| second) &&& mask = first &&& mask ||| second &&& mask :=
  UInt8.toBitVec_inj.mp BitVec.and_or_distrib_right

/-- While the display is on, line, mode and dots count the dots since it was switched on, the lines
handed out are those whose pixel transfer has ended, and the frames counted are those whose vertical
blank has started.  While it is off, the picture unit stands still. -/
theorem position_counts_dots (boot : BootState) (actions : List Action) :
    let now := Observed.after boot actions
    (now.ppu.lcdEnabled = true →
      now.ppu.ly.toNat * 456 + now.ppu.mode.start + now.ppu.dots = now.elapsed % 70224 ∧
      now.ppu.dots < now.ppu.mode.duration ∧
      (now.ppu.mode = .vblank ↔ 144 ≤ now.ppu.ly.toNat ∧ now.ppu.ly.toNat ≤ 153) ∧
      now.drawn.map (fun context => context.line.toNat) =
        (moments TransferEnds now.elapsed).map lineAt ∧
      now.ppu.frames = now.framesBefore + (moments BlankStarts now.elapsed).length) ∧
    (now.ppu.lcdEnabled = false →
      now.ppu.ly = 0 ∧ now.ppu.dots = 0 ∧ now.ppu.mode.bits = 0 ∧ now.ppu.stat &&& 0x03 = 0 ∧
      ∀ {σ : Type} (render : Renderer σ) (dots : Nat) (screen : σ),
        now.ppu.tick render dots screen = (now.ppu, screen)) ∧
    ∀ {σ : Type} (render : Renderer σ) (dots : Nat) (screen : σ), ∃ lines,
      (now.tick dots).drawn = now.drawn ++ lines ∧
      now.ppu.tick render dots screen = ((now.tick dots).ppu, lines.foldl render screen) := by
  intro now
  have consistent : now.Consistent := Observed.consistent_after boot actions
  refine ⟨fun on => ?_, fun off => ?_, fun render dots screen => ?_⟩
  · obtain ⟨inFrame, position_eq, drawn_eq, frames_eq⟩ := consistent.on on
    exact ⟨position_eq, inFrame.dots_lt,
      inFrame.vblank_iff.trans ⟨fun blank => ⟨blank, inFrame.line_le⟩, And.left⟩, drawn_eq,
      frames_eq⟩
  · obtain ⟨mode, line, dots⟩ := consistent.off off
    refine ⟨line, dots, by rw [mode]; rfl, ?_, fun render dots screen => ?_⟩
    · have select := consistent.select
      rw [stat, off, or_and_mask, or_and_mask, or_and_mask, select, if_neg Bool.false_ne_true]
      cases now.ppu.coincidence <;> rfl
    · rw [tick_eq_run, run_of_off render dots off]
  · refine ⟨linesWithin dots now.ppu, ?_, ?_⟩
    · simp only [Observed.tick, tick_eq_run, run_eq_foldl, foldl_recorder]
    · simp only [Observed.tick, tick_eq_run, run_eq_foldl]

end Ppu
end GameBoy
