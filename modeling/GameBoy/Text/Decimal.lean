/-!
# Decimal numbers of 32 bits

A number is an optional plus sign and at least one ASCII digit.  Digits are taken from the left and
the first one that is no digit, or that takes the number past 32 bits, decides the error; at one
digit the former wins.
-/

namespace GameBoy
namespace Decimal

/-- Why a text is no 32-bit number. -/
inductive ParseError where
  /-- There is nothing to read. -/
  | empty
  /-- A character is no digit, or a sign stands alone. -/
  | invalidDigit
  /-- The number needs more than 32 bits. -/
  | overflow
deriving DecidableEq

/-- The wording of a parse error. -/
def ParseError.message : ParseError → String
  | .empty => "cannot parse integer from empty string"
  | .invalidDigit => "invalid digit found in string"
  | .overflow => "number too large to fit in target type"

/-- The value of an ASCII digit. -/
def digit? (char : Char) : Option Nat :=
  if char.isDigit then some (char.toNat - '0'.toNat) else none

/-- Continue a number with further digits. -/
def extend : Nat → List Char → Except ParseError Nat
  | value, [] => .ok value
  | value, char :: rest =>
    match digit? char with
    | none => .error .invalidDigit
    | some digit =>
      let next := value * 10 + digit
      if next < 0x100000000 then extend next rest else .error .overflow

/-- Read a whole text as a number of 32 bits. -/
def parse (text : String) : Except ParseError Nat :=
  match text.toList with
  | [] => .error .empty
  | ['+'] => .error .invalidDigit
  | '+' :: rest => extend 0 rest
  | chars => extend 0 chars

end Decimal
end GameBoy
