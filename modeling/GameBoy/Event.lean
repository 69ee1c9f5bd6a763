import GameBoy.Cpu.Registers
import GameBoy.Fault
import GameBoy.Interrupt
import GameBoy.Log

/-!
# Diagnostic events

What an observer may want to know about a run.  An event says what happened in the machine; its log
record says it in words.
-/

namespace GameBoy

/-- Something worth reporting. -/
inductive Event where
  /-- The processor locked up, with the registers as they were after the opcode was fetched. -/
  | illegalOpcode (error : DecodeError) (registers : Registers)
  /-- An interrupt was taken and will return to the given address. -/
  | interruptServiced (line : Interrupt) (returnPc : UInt16)
  /-- A bus access failed. -/
  | memoryFault (error : MemoryError)
  /-- A write to the ROM of a cartridge without bank controller. -/
  | romWriteIgnored (address : UInt16) (value : UInt8)
  /-- The bank controller took a ROM bank number. -/
  | romBankSelected (bank : Nat)
  /-- A transfer into object memory began. -/
  | oamDma (source : UInt16)
  /-- The display was switched. -/
  | lcdPower (enabled : Bool)
  /-- A byte left through the serial port. -/
  | serialByte (byte : UInt8)
deriving DecidableEq

/-- The event in words. -/
def Event.logRecord : Event → LogRecord
  | .illegalOpcode error registers =>
    ⟨.error, "GB CPU locked: " ++ error.message ++ " (SP=0x" ++ Hex.word registers.sp ++
      " AF=0x" ++ Hex.word registers.af ++ " BC=0x" ++ Hex.word registers.bc ++
      " DE=0x" ++ Hex.word registers.de ++ " HL=0x" ++ Hex.word registers.hl ++ ")"⟩
  | .interruptServiced line returnPc =>
    ⟨.debug, "GB CPU interrupt Interrupt(" ++ line.name ++ "): vector=0x" ++
      Hex.word line.vector ++ " return=0x" ++ Hex.word returnPc⟩
  | .memoryFault error => ⟨.error, "GB bus fault: " ++ error.message⟩
  | .romWriteIgnored address value =>
    ⟨.trace, "GB cart: ignored ROM write 0x" ++ Hex.byte value ++ " -> 0x" ++ Hex.word address⟩
  | .romBankSelected bank => ⟨.trace, s!"GB cart: ROM bank {bank} selected"⟩
  | .oamDma source => ⟨.trace, "GB DMA: OAM copy from 0x" ++ Hex.word source⟩
  | .lcdPower enabled => ⟨.debug, s!"GB PPU: LCD enabled={enabled}"⟩
  | .serialByte byte => ⟨.trace, "GB serial: 0x" ++ Hex.byte byte⟩

/-- Where events go. -/
inductive Sink where
  /-- Nothing is kept. -/
  | discard
  /-- The events are kept, oldest first. -/
  | recording (events : Array Event)
  /-- The events are put into words, oldest first. -/
  | logging (records : Array LogRecord)

namespace Sink

/-- Hand an event to the sink. -/
def record (event : Event) : Sink → Sink
  | .discard => .discard
  | .recording events => .recording (events.push event)
  | .logging records => .logging (records.push event.logRecord)

/-- The events kept. -/
def events : Sink → Array Event
  | .recording events => events
  | _ => #[]

/-- The log records kept. -/
def logRecords : Sink → Array LogRecord
  | .logging records => records
  | _ => #[]

end Sink

end GameBoy
