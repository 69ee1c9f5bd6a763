import GameBoy.Ppu.Basic

/-!
# Picture timing

Time passes dot by dot.  The last dot of a mode leads into the next mode, and the last dot of the
pixel transfer hands out the line as it stands.  While the display is off no time passes.
-/

namespace GameBoy
namespace Ppu

/-- The STAT select bit for entering a mode. -/
def modeSelect : PpuMode → UInt8
  | .hblank => 0x08
  | .vblank => 0x10
  | .oamSearch => 0x20
  | .pixelTransfer => 0

/-- Enter a mode, requesting STAT if that cause is selected. -/
def enter (ppu : Ppu) (mode : PpuMode) : Ppu :=
  { ppu with
    mode
    statRequested := ppu.statRequested || ppu.statSelect &&& modeSelect mode != 0 }

/-- Compare the lines, requesting STAT on a fresh match if that cause is selected. -/
def compareLine (ppu : Ppu) : Ppu :=
  let found := ppu.ly == ppu.lyc
  { ppu with
    coincidence := found
    statRequested :=
      ppu.statRequested || (found && !ppu.coincidence && ppu.statSelect &&& 0x40 != 0) }

/-- Move to a line. -/
def setLine (ppu : Ppu) (line : UInt8) : Ppu :=
  { ppu with ly := line }.compareLine

/-- Enter the vertical blank. -/
def enterVblank (ppu : Ppu) : Ppu :=
  { ppu with frames := ppu.frames + 1, vblankRequested := true }.enter .vblank

/-- Go on from the end of the current mode. -/
def advance (ppu : Ppu) : Ppu :=
  match ppu.mode with
  | .oamSearch => ppu.enter .pixelTransfer
  | .pixelTransfer => ppu.enter .hblank
  | .hblank =>
    let ppu := ppu.setLine (ppu.ly + 1)
    if ppu.ly = vblankLine then ppu.enterVblank else ppu.enter .oamSearch
  | .vblank =>
    if ppu.ly = lastLine then (ppu.setLine 0).enter .oamSearch else ppu.setLine (ppu.ly + 1)

/-- The next dot is the last one of the current mode. -/
def atModeEnd (ppu : Ppu) : Bool :=
  ppu.dots + 1 == ppu.mode.duration

/-- Let one dot pass. -/
def dot (ppu : Ppu) : Ppu :=
  if !ppu.lcdEnabled then ppu
  else if ppu.atModeEnd then { ppu with dots := 0 }.advance
  else { ppu with dots := ppu.dots + 1 }

/-- The next dot completes the pixel transfer of a line. -/
def completesLine (ppu : Ppu) : Bool :=
  ppu.lcdEnabled && ppu.mode = .pixelTransfer && ppu.atModeEnd

/-- Let dots pass one by one, drawing each line whose pixel transfer completes. -/
def run {σ : Type} (render : Renderer σ) : Nat → Ppu → σ → Ppu × σ
  | 0, ppu, screen => (ppu, screen)
  | dots + 1, ppu, screen =>
    run render dots ppu.dot (if ppu.completesLine then render screen ppu.lineContext else screen)

theorem run_add {σ : Type} (render : Renderer σ) (first second : Nat) (ppu : Ppu) (screen : σ) :
    run render (first + second) ppu screen =
      run render second (run render first ppu screen).1 (run render first ppu screen).2 := by
  induction first generalizing ppu screen with
  | zero => simp [run]
  | succ first ih => simp only [Nat.succ_add, run, ih]

/-- Let a number of dots pass, at once where the display is off or they stay within the current
mode. -/
def tick {σ : Type} (render : Renderer σ) (dots : Nat) (ppu : Ppu) (screen : σ) : Ppu × σ :=
  if !ppu.lcdEnabled then (ppu, screen)
  else if ppu.dots + dots < ppu.mode.duration then
    ({ ppu with dots := ppu.dots + dots }, screen)
  else run render dots ppu screen

theorem run_of_off {σ : Type} (render : Renderer σ) (dots : Nat) {ppu : Ppu}
    (off : ppu.lcdEnabled = false) (screen : σ) : run render dots ppu screen = (ppu, screen) := by
  induction dots with
  | zero => rfl
  | succ dots ih => simp [run, dot, completesLine, off, ih]

theorem run_of_lt {σ : Type} (render : Renderer σ) {dots : Nat} {ppu : Ppu}
    (enabled : ppu.lcdEnabled) (within : ppu.dots + dots < ppu.mode.duration) (screen : σ) :
    run render dots ppu screen = ({ ppu with dots := ppu.dots + dots }, screen) := by
  induction dots generalizing ppu with
  | zero => rfl
  | succ dots ih =>
    have before : ppu.atModeEnd = false := by
      simp only [atModeEnd, beq_eq_false_iff_ne]
      omega
    have step : ppu.dot = { ppu with dots := ppu.dots + 1 } := by
      simp [dot, enabled, before]
    have undrawn : ppu.completesLine = false := by
      simp [completesLine, before]
    have rest : ppu.dots + 1 + dots < ppu.mode.duration := by omega
    simp only [run, undrawn, step, Bool.false_eq_true, ↓reduceIte]
    rw [@ih { ppu with dots := ppu.dots + 1 } enabled rest]
    simp [Nat.add_assoc, Nat.add_comm 1]

theorem tick_eq_run {σ : Type} (render : Renderer σ) (dots : Nat) (ppu : Ppu) (screen : σ) :
    ppu.tick render dots screen = run render dots ppu screen := by
  cases enabled : ppu.lcdEnabled with
  | false => simp [tick, enabled, run_of_off render dots enabled]
  | true =>
    by_cases within : ppu.dots + dots < ppu.mode.duration
    · simp [tick, enabled, within, run_of_lt render enabled within]
    · simp [tick, enabled, within]

theorem tick_add {σ : Type} (render : Renderer σ) (first second : Nat) (ppu : Ppu) (screen : σ) :
    ppu.tick render (first + second) screen =
      (ppu.tick render first screen).1.tick render second (ppu.tick render first screen).2 := by
  simp only [tick_eq_run, run_add]

/-- Write LCD control.  Switching the display off discards the current line, and switching it on
starts a frame. -/
def setLcdc (ppu : Ppu) (value : UInt8) : Ppu :=
  let next := { ppu with lcdc := value }
  match ppu.lcdEnabled, next.lcdEnabled with
  | true, false => { next with mode := .hblank, dots := 0, ly := 0 }
  | false, true => { next with mode := .oamSearch, dots := 0, coincidence := false }.setLine 0
  | _, _ => next

/-- The picture unit as the boot ROM leaves it, at the start of a frame. -/
def postBoot : Ppu :=
  (setLcdc { bgp := 0xFC } 0x91).acknowledge

end Ppu
end GameBoy
