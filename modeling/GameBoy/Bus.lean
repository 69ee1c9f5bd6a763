import GameBoy.Event

/-!
# Buses

What the processor sees of the machine: byte accesses that may be refused, stall cycles that an
access may have caused, and a place to report events to.  A refused access keeps whatever it had
changed before it failed.
-/

namespace GameBoy

/-- A bus access, which changes the bus and may be refused. -/
abbrev Access (β : Type) := EStateM MemoryError β

/-- A state that answers the processor's accesses. -/
class Bus (β : Type) where
  /-- Read a byte. -/
  read (address : UInt16) : Access β UInt8
  /-- Write a byte. -/
  write (address : UInt16) (value : UInt8) : Access β Unit
  /-- Collect the cycles for which accesses since the last collection stall the processor. -/
  takeStall (bus : β) : Nat × β := (0, bus)
  /-- Report an event. -/
  report (event : Event) (bus : β) : β := bus

namespace Bus

variable {β : Type} [Bus β]

/-- Read a word, low byte first. -/
def readWord (address : UInt16) : Access β UInt16 := do
  let low ← read address
  let high ← read (address + 1)
  pure (Word.ofBytes high low)

/-- Write a word, low byte first. -/
def writeWord (address : UInt16) (word : UInt16) : Access β Unit := do
  write address (Word.low word)
  write (address + 1) (Word.high word)

end Bus
end GameBoy
