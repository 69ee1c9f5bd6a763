import GameBoy.Text.Hex

/-!
# Faults

The ways in which emulation stops: the instruction stream may hold an opcode that the processor
does not have, and the bus may refuse an access.
-/

namespace GameBoy

/-- A failure to decode the instruction stream. -/
inductive DecodeError where
  /-- A hole of the instruction set; slots of the extended page count from 0x100. -/
  | illegalOpcode (slot pc : UInt16)
  /-- The escape byte met as an instruction of its own. -/
  | malformedEscape (pc : UInt16)
deriving DecidableEq

/-- The wording of a decode error. -/
def DecodeError.message : DecodeError → String
  | .illegalOpcode slot pc =>
    "illegal opcode 0x" ++ Hex.digits 3 slot.toNat ++ " at PC=0x" ++ Hex.word pc
  | .malformedEscape pc => "malformed 0xCB escape at PC=0x" ++ Hex.word pc

/-- A bus access that was refused. -/
inductive MemoryError where
  /-- A write to addresses behind which there is nothing. -/
  | unusable (address : UInt16) (value : UInt8)
  /-- A read of a video-memory transfer register, which this model lacks. -/
  | vramDmaRead (address : UInt16)
  /-- A write to memory that cannot be written. -/
  | readOnly (address : UInt16) (value : UInt8)
  /-- A bank number past the banks present, which no cartridge of this library resolves to. -/
  | bankOutOfRange (bank count : Nat)
deriving DecidableEq

/-- The wording of a memory error. -/
def MemoryError.message : MemoryError → String
  | .unusable address value =>
    "write of 0x" ++ Hex.byte value ++ " into unusable region at 0x" ++ Hex.word address
  | .vramDmaRead address => "read from VRAM-DMA register 0x" ++ Hex.word address
  | .readOnly address value =>
    "write of 0x" ++ Hex.byte value ++ " into read-only ROM at 0x" ++ Hex.word address
  | .bankOutOfRange bank count => s!"bank {bank} out of range ({count} banks present)"

/-- Whatever stops the processor. -/
inductive Fault where
  | decode (error : DecodeError)
  | memory (error : MemoryError)
deriving DecidableEq

/-- The wording of a fault is that of its cause. -/
def Fault.message : Fault → String
  | .decode error => error.message
  | .memory error => error.message

end GameBoy
