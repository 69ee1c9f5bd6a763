import GameBoy.Interrupt

/-!
# Serial port

Nothing is connected to the port.  A transfer on the internal clock completes at once: the byte
leaves, an idle line is shifted in, and an interrupt is requested.  The bytes sent are kept up to a
limit, at which the older half is dropped.
-/

namespace GameBoy

/-- The serial port. -/
structure Serial where
  /-- Data register. -/
  data : UInt8 := 0
  /-- Control register. -/
  control : UInt8 := 0
  /-- Keep the bytes sent. -/
  capture : Bool := true
  /-- The bytes sent and kept, oldest first. -/
  output : Array UInt8 := #[]
  /-- The last byte sent, until it is taken. -/
  lastSent : Option UInt8 := none
  /-- A transfer has not been signalled yet. -/
  requested : Bool := false
deriving DecidableEq

namespace Serial

/-- Number of bytes at which the older half of the output is dropped. -/
def outputLimit : Nat := 0x10000

/-- Address of the data register. -/
def dataAddress : UInt16 := 0xFF01

/-- The register at an address as read. -/
def read (serial : Serial) (address : UInt16) : UInt8 :=
  if address = dataAddress then serial.data else serial.control ||| 0x7E

/-- Append a byte to kept output. -/
def keep (output : Array UInt8) (byte : UInt8) : Array UInt8 :=
  if outputLimit ≤ output.size then
    (output.extract (outputLimit / 2) output.size).push byte
  else
    output.push byte

/-- Complete a transfer. -/
def transfer (serial : Serial) : Serial :=
  { serial with
    data := 0xFF
    control := 0x01
    output := if serial.capture then keep serial.output serial.data else serial.output
    lastSent := some serial.data
    requested := true }

/-- Write the register at an address. -/
def write (serial : Serial) (address : UInt16) (value : UInt8) : Serial :=
  if address = dataAddress then { serial with data := value }
  else if value &&& 0x81 = 0x81 then serial.transfer
  else { serial with control := value &&& 0x81 }

/-- Forget the bytes kept. -/
def clearOutput (serial : Serial) : Serial :=
  { serial with output := #[] }

/-- Forget the last byte sent. -/
def takeSent (serial : Serial) : Serial :=
  { serial with lastSent := none }

/-- The interrupt lines raised and not yet collected. -/
def raised (serial : Serial) : Interrupt.Lines :=
  { serial := serial.requested }

/-- Forget the raised lines once they are collected. -/
def acknowledge (serial : Serial) : Serial :=
  { serial with requested := false }

end Serial
end GameBoy
