import GameBoy.Bus.Flat
import GameBoy.Cpu.Basic
import GameBoy.Ppu.Basic

/-!
# Traces

One-line texts of the processor, of bus accesses and of drawn lines, for watching a machine at work.
-/

namespace GameBoy

/-- A letter if the condition holds, else a dash. -/
def traceMark (letter : Char) (holds : Bool) : String :=
  String.singleton (if holds then letter else '-')

/-- The flags as letters. -/
def Flags.trace (flags : Flags) : String :=
  traceMark 'Z' flags.zero ++ traceMark 'N' flags.subtract ++ traceMark 'H' flags.halfCarry ++
    traceMark 'C' flags.carry

/-- The register file in one line. -/
def Registers.trace (regs : Registers) : String :=
  "AF=" ++ Hex.word regs.af ++ " BC=" ++ Hex.word regs.bc ++ " DE=" ++ Hex.word regs.de ++
    " HL=" ++ Hex.word regs.hl ++ " SP=" ++ Hex.word regs.sp ++ " PC=" ++ Hex.word regs.pc ++
    " " ++ regs.flags.trace ++ " " ++ traceMark 'i' regs.ime ++ traceMark 'h' regs.halted ++
    traceMark 's' regs.stopped

/-- The processor in one line. -/
def Cpu.trace (cpu : Cpu) : String :=
  cpu.regs.trace ++ traceMark 'L' cpu.locked.isSome

/-- An access in one line. -/
def AccessRecord.trace : AccessRecord → String
  | .read address value => "R " ++ Hex.word address ++ " " ++ Hex.byte value
  | .readRefused address => "R " ++ Hex.word address ++ " fault"
  | .write address value => "W " ++ Hex.word address ++ " " ++ Hex.byte value
  | .writeRefused address => "W " ++ Hex.word address ++ " fault"

/-- The sum of the bytes in a bank. -/
def Bank.sum {size : Nat} (bank : Bank size) : Nat :=
  bank.bytes.foldl (fun sum value => sum + value.toNat) 0

/-- A bank named by its size. -/
def Bank.trace {size : Nat} (_ : Bank size) : String :=
  "Bank<0x" ++ Hex.digits 1 size ++ ">"

/-- A drawn line but for its number. -/
def LineContext.trace (context : LineContext) : String :=
  "lcdc=" ++ Hex.byte context.lcdc ++ " stat=" ++ Hex.byte context.stat ++
    " scy=" ++ Hex.byte context.scy ++ " scx=" ++ Hex.byte context.scx ++
    " bgp=" ++ Hex.byte context.bgp ++ " obp0=" ++ Hex.byte context.obp0 ++
    " obp1=" ++ Hex.byte context.obp1 ++ " wy=" ++ Hex.byte context.wy ++
    " wx=" ++ Hex.byte context.wx ++ " vram=" ++ toString context.vram.sum ++
    " oam=" ++ toString context.oam.sum

/-- Consecutive lines drawn alike. -/
structure LineRun where
  first : UInt8
  last : UInt8
  text : String
deriving DecidableEq

/-- The run in one line. -/
def LineRun.trace (run : LineRun) : String :=
  toString run.first.toNat ++ "-" ++ toString run.last.toNat ++ " " ++ run.text

/-- A screen that keeps the lines drawn, newest run first. -/
abbrev LineLog := List LineRun

/-- Keep a line, as part of the newest run if it continues it. -/
def LineLog.draw : Renderer LineLog := fun log context =>
  let text := context.trace
  match log with
  | newest :: older =>
    if newest.text = text && newest.last.toNat + 1 = context.line.toNat then
      { newest with last := context.line } :: older
    else
      ⟨context.line, context.line, text⟩ :: log
  | [] => [⟨context.line, context.line, text⟩]

end GameBoy
