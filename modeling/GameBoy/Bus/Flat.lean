import GameBoy.Bank
import GameBoy.Bus

/-!
# Flat memory

A bus that is 64 KiB of memory and nothing else.  Chosen addresses refuse reads or writes, chosen
writes stall the processor, and every access and event is kept, so that a single instruction can be
watched.  The plain variant has neither stalls nor events.
-/

namespace GameBoy

/-- One access to a bus and how it ended. -/
inductive AccessRecord where
  | read (address : UInt16) (value : UInt8)
  | readRefused (address : UInt16)
  | write (address : UInt16) (value : UInt8)
  | writeRefused (address : UInt16)
deriving DecidableEq

/-- A bus over 64 KiB of memory. -/
structure FlatBus where
  memory : Bank 0x10000 := Bank.filled 0
  /-- Addresses that refuse to be read. -/
  refusesRead : UInt16 → Bool := fun _ => false
  /-- Addresses that refuse to be written. -/
  refusesWrite : UInt16 → Bool := fun _ => false
  /-- Stall cycles caused by a write to an address. -/
  stallOf : UInt16 → Nat := fun _ => 0
  /-- Stall cycles not yet collected. -/
  stall : Nat := 0
  /-- The accesses so far, oldest first. -/
  accesses : Array AccessRecord := #[]
  /-- The events reported so far, oldest first. -/
  events : Array Event := #[]

namespace FlatBus

/-- The byte at an address. -/
def peek (bus : FlatBus) (address : UInt16) : UInt8 :=
  bus.memory.read address.toNat

/-- Replace the byte at an address. -/
def poke (bus : FlatBus) (address : UInt16) (value : UInt8) : FlatBus :=
  { bus with memory := bus.memory.write address.toNat value }

/-- Replace the bytes from an address on, wrapping past the last one. -/
def load (bus : FlatBus) (address : UInt16) : List UInt8 → FlatBus
  | [] => bus
  | value :: rest => (bus.poke address value).load (address + 1) rest

/-- Keep an access. -/
def note (bus : FlatBus) (access : AccessRecord) : FlatBus :=
  { bus with accesses := bus.accesses.push access }

/-- Read a byte. -/
def read (address : UInt16) : Access FlatBus UInt8 := fun bus =>
  if bus.refusesRead address then
    .error (.vramDmaRead address) (bus.note (.readRefused address))
  else
    let value := bus.peek address
    .ok value (bus.note (.read address value))

/-- Write a byte. -/
def write (address : UInt16) (value : UInt8) : Access FlatBus Unit := fun bus =>
  if bus.refusesWrite address then
    .error (.unusable address value) (bus.note (.writeRefused address))
  else
    let stall := bus.stall + bus.stallOf address
    .ok () { (bus.poke address value).note (.write address value) with stall }

instance : Bus FlatBus where
  read := read
  write := write
  takeStall bus := (bus.stall, { bus with stall := 0 })
  report event bus := { bus with events := bus.events.push event }

@[simp]
theorem peek_poke (bus : FlatBus) (address other : UInt16) (value : UInt8) :
    (bus.poke address value).peek other = if address = other then value else bus.peek other := by
  simp only [peek, poke, Bank.read_write, Nat.mod_eq_of_lt (UInt16.toNat_lt _), UInt16.toNat_inj]

end FlatBus

/-- A flat bus without stalls and events. -/
structure PlainBus where
  flat : FlatBus

namespace PlainBus

/-- Access the memory. -/
def access {α : Type} (action : Access FlatBus α) : Access PlainBus α := fun bus =>
  match action bus.flat with
  | .ok value flat => .ok value ⟨flat⟩
  | .error error flat => .error error ⟨flat⟩

instance : Bus PlainBus where
  read address := access (FlatBus.read address)
  write address value := access (FlatBus.write address value)

end PlainBus
end GameBoy
