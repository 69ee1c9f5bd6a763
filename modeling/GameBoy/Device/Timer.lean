import GameBoy.Interrupt

/-!
# Timer

A 16-bit counter advances every cycle and its upper byte is the divider.  TIMA counts the falling
edges of one selected counter bit gated by the enable bit, whatever makes that signal fall.  An
overflow leaves TIMA at zero for four cycles, after which it is reloaded and an interrupt requested.
-/

namespace GameBoy

/-- The timer. -/
structure Timer where
  /-- Cycles since power-on or the last divider write. -/
  counter : UInt16 := 0
  tima : UInt8 := 0
  /-- Value that TIMA is reloaded with. -/
  tma : UInt8 := 0
  /-- Enable bit and counter bit selection. -/
  tac : UInt8 := 0
  /-- Cycles until a pending overflow reloads TIMA. -/
  reloadIn : Option Nat := none
  /-- A reload has not been signalled yet. -/
  requested : Bool := false
deriving DecidableEq

namespace Timer

/-- The timer as the boot ROM leaves it. -/
def postBoot : Timer :=
  { counter := 0xABCC, tac := 0xF8 }

/-- Address of the divider. -/
def dividerAddress : UInt16 := 0xFF04

/-- Address of TIMA. -/
def timaAddress : UInt16 := 0xFF05

/-- Address of TMA. -/
def tmaAddress : UInt16 := 0xFF06

/-- The selected counter bit. -/
def selectedBit (timer : Timer) : UInt16 :=
  match (timer.tac &&& 0x03).toNat with
  | 0 => 0x0200
  | 1 => 0x0008
  | 2 => 0x0020
  | _ => 0x0080

/-- The signal whose falling edges TIMA counts. -/
def signal (timer : Timer) : Bool :=
  timer.tac &&& 0x04 != 0 && timer.counter &&& timer.selectedBit != 0

/-- Count one edge. -/
def count (timer : Timer) : Timer :=
  { timer with
    tima := timer.tima + 1
    reloadIn := if timer.tima = 0xFF then some 4 else timer.reloadIn }

/-- Count an edge if the signal was high before a change and is low after it. -/
def settle (before : Bool) (timer : Timer) : Timer :=
  if before && !timer.signal then timer.count else timer

/-- Bring a pending reload one cycle closer. -/
def advanceReload (timer : Timer) : Timer :=
  match timer.reloadIn with
  | none => timer
  | some left =>
    if left ≤ 1 then { timer with reloadIn := none, tima := timer.tma, requested := true }
    else { timer with reloadIn := some (left - 1) }

/-- Advance the counter. -/
def advanceCounter (timer : Timer) : Timer :=
  settle timer.signal { timer with counter := timer.counter + 1 }

/-- Advance by one cycle. -/
def cycle (timer : Timer) : Timer :=
  timer.advanceReload.advanceCounter

/-- Advance cycle by cycle. -/
def run : Nat → Timer → Timer
  | 0, timer => timer
  | cycles + 1, timer => run cycles timer.cycle

theorem run_add (first second : Nat) (timer : Timer) :
    run (first + second) timer = run second (run first timer) := by
  induction first generalizing timer with
  | zero => simp [run]
  | succ first ih => simp [Nat.succ_add, run, ih]

/-- Nothing but the counter moves: TIMA does not count and no reload is pending. -/
def isQuiet (timer : Timer) : Bool :=
  timer.tac &&& 0x04 == 0 && timer.reloadIn == none

/-- Advance by a number of cycles, at once where only the counter moves. -/
def tick (cycles : Nat) (timer : Timer) : Timer :=
  if timer.isQuiet then { timer with counter := timer.counter + UInt16.ofNat cycles }
  else run cycles timer

theorem run_of_isQuiet {timer : Timer} (quiet : timer.isQuiet) (cycles : Nat) :
    run cycles timer = { timer with counter := timer.counter + UInt16.ofNat cycles } := by
  simp only [isQuiet, Bool.and_eq_true, beq_iff_eq] at quiet
  obtain ⟨disabled, unpending⟩ := quiet
  induction cycles generalizing timer with
  | zero => simp [run]
  | succ cycles ih =>
    have step : timer.cycle = { timer with counter := timer.counter + 1 } := by
      simp [cycle, advanceReload, advanceCounter, settle, signal, unpending, disabled]
    rw [run, step, @ih { timer with counter := timer.counter + 1 } disabled unpending]
    simp [UInt16.ofNat_add, UInt16.add_assoc, UInt16.add_comm (UInt16.ofNat cycles)]

theorem tick_eq_run (cycles : Nat) (timer : Timer) : timer.tick cycles = run cycles timer := by
  unfold tick
  split
  · next quiet => exact (run_of_isQuiet quiet cycles).symm
  · rfl

theorem tick_add (first second : Nat) (timer : Timer) :
    timer.tick (first + second) = (timer.tick first).tick second := by
  simp only [tick_eq_run, run_add]

/-- The upper byte of the counter. -/
def divider (timer : Timer) : UInt8 :=
  (timer.counter >>> 8).toUInt8

/-- The register at an address as read. -/
def read (timer : Timer) (address : UInt16) : UInt8 :=
  if address = dividerAddress then timer.divider
  else if address = timaAddress then timer.tima
  else if address = tmaAddress then timer.tma
  else timer.tac ||| 0xF8

/-- Write the register at an address.  Any write clears the counter through the divider, and a write
to TIMA calls off a pending reload. -/
def write (timer : Timer) (address : UInt16) (value : UInt8) : Timer :=
  if address = dividerAddress then settle timer.signal { timer with counter := 0 }
  else if address = timaAddress then { timer with tima := value, reloadIn := none }
  else if address = tmaAddress then { timer with tma := value }
  else settle timer.signal { timer with tac := value &&& 0x07 }

/-- The interrupt lines raised and not yet collected. -/
def raised (timer : Timer) : Interrupt.Lines :=
  { timer := timer.requested }

/-- Forget the raised lines once they are collected. -/
def acknowledge (timer : Timer) : Timer :=
  { timer with requested := false }

end Timer
end GameBoy
