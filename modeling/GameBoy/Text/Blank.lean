/-!
# Blank characters

The blank characters are those with the Unicode property White_Space.
-/

namespace GameBoy

/-- The character has the property White_Space. -/
def isBlank (char : Char) : Bool :=
  let code := char.toNat
  (0x09 ≤ code && code ≤ 0x0D) || code == 0x20 || code == 0x85 || code == 0xA0 ||
    code == 0x1680 || (0x2000 ≤ code && code ≤ 0x200A) || code == 0x2028 || code == 0x2029 ||
    code == 0x202F || code == 0x205F || code == 0x3000

/-- The characters without the blanks at their end. -/
def trimBlanksRight (chars : List Char) : List Char :=
  (chars.reverse.dropWhile isBlank).reverse

end GameBoy
