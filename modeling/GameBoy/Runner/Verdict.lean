import GameBoy.Cpu.Registers

/-!
# Verdicts of test programs

A test program reports over the serial port, in words or in a signature of six bytes, or by holding
the signature in its registers at a software breakpoint.
-/

namespace GameBoy

/-- How a test program's run ended. -/
inductive Verdict where
  | passed
  | failed
  /-- The frames ran out before the program reported. -/
  | timeout
deriving DecidableEq

namespace Verdict

/-- The name of a verdict. -/
def name : Verdict → String
  | .passed => "Passed"
  | .failed => "Failed"
  | .timeout => "Timeout"

/-- The signature of success. -/
def passSignature : List UInt8 := [3, 5, 8, 13, 21, 34]

/-- The signature of failure. -/
def failSignature : List UInt8 := List.replicate 6 0x42

/-- The word for success, as sent. -/
def passWord : List UInt8 := "Passed".toList.map fun char => UInt8.ofNat char.toNat

/-- The word for failure, as sent. -/
def failWord : List UInt8 := "Failed".toList.map fun char => UInt8.ofNat char.toNat

/-- The bytes occur in the output without a gap. -/
def occursIn (bytes : List UInt8) : List UInt8 → Bool
  | [] => bytes.isEmpty
  | head :: rest => bytes.isPrefixOf (head :: rest) || occursIn bytes rest

/-- The verdict in serial output; success outweighs failure. -/
def ofSerial (output : List UInt8) : Option Verdict :=
  if occursIn passWord output || occursIn passSignature output then some .passed
  else if occursIn failWord output || occursIn failSignature output then some .failed
  else none

/-- The verdict held in the registers. -/
def ofRegisters (regs : Registers) : Option Verdict :=
  let held := [regs.b, regs.c, regs.d, regs.e, regs.h, regs.l]
  if held = passSignature then some .passed
  else if held = failSignature then some .failed
  else none

end Verdict
end GameBoy
