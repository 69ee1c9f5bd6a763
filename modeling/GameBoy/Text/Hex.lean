/-!
# Hexadecimal text

Numbers in messages are upper-case hexadecimal, padded with zeros to a fixed width that wider
numbers exceed.
-/

namespace GameBoy
namespace Hex

/-- Lower-case digits of `number`, padded on the left to at least `width`. -/
def lowerDigits (width number : Nat) : List Char :=
  (Nat.toDigits 16 number).leftpad width '0'

/-- Upper-case digits of `number`, padded on the left to at least `width`. -/
def digits (width number : Nat) : String :=
  String.ofList ((lowerDigits width number).map Char.toUpper)

/-- A byte as two upper-case digits. -/
def byte (value : UInt8) : String :=
  digits 2 value.toNat

/-- A word as four upper-case digits. -/
def word (value : UInt16) : String :=
  digits 4 value.toNat

end Hex
end GameBoy
