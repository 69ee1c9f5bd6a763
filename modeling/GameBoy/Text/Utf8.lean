/-!
# Lossy UTF-8

Bytes are read as UTF-8 by an automaton that holds what the current character still needs.  A byte
that cannot continue the character ends it with one replacement character and is then read afresh,
so every maximal broken sequence becomes exactly one replacement character.
-/

namespace GameBoy
namespace Utf8

/-- A character whose first bytes have been read. -/
structure Partial where
  /-- Continuation bytes still owed, less one. -/
  owed : Nat
  /-- Least next byte that can continue the character. -/
  least : UInt8
  /-- Greatest next byte that can continue the character. -/
  greatest : UInt8
  /-- Code point bits read so far. -/
  bits : Nat

/-- What the first byte of a character announces. -/
inductive Lead where
  /-- A character of one byte. -/
  | single (char : Char)
  /-- The start of a longer character. -/
  | longer (rest : Partial)
  /-- A byte that starts no character. -/
  | invalid

/-- Classify the first byte of a character. -/
def lead (byte : UInt8) : Lead :=
  let bits := byte.toNat
  if byte < 0x80 then .single (Char.ofNat bits)
  else if byte < 0xC2 then .invalid
  else if byte < 0xE0 then .longer ⟨0, 0x80, 0xBF, bits % 0x20⟩
  else if byte = 0xE0 then .longer ⟨1, 0xA0, 0xBF, 0⟩
  else if byte = 0xED then .longer ⟨1, 0x80, 0x9F, 0xD⟩
  else if byte < 0xF0 then .longer ⟨1, 0x80, 0xBF, bits % 0x10⟩
  else if byte = 0xF0 then .longer ⟨2, 0x90, 0xBF, 0⟩
  else if byte < 0xF4 then .longer ⟨2, 0x80, 0xBF, bits % 0x08⟩
  else if byte = 0xF4 then .longer ⟨2, 0x80, 0x8F, 4⟩
  else .invalid

/-- The replacement character. -/
def replacement : Char := Char.ofNat 0xFFFD

/-- Read the bytes, continuing a character that is partly read. -/
def charsFrom : Option Partial → List UInt8 → List Char
  | none, [] => []
  | some _, [] => [replacement]
  | pending, byte :: rest =>
    let afresh (_ : Unit) : List Char :=
      match lead byte with
      | .single char => char :: charsFrom none rest
      | .longer needed => charsFrom (some needed) rest
      | .invalid => replacement :: charsFrom none rest
    match pending with
    | none => afresh ()
    | some needed =>
      if needed.least ≤ byte ∧ byte ≤ needed.greatest then
        let bits := needed.bits * 0x40 + byte.toNat % 0x40
        match needed.owed with
        | 0 => Char.ofNat bits :: charsFrom none rest
        | owed + 1 => charsFrom (some ⟨owed, 0x80, 0xBF, bits⟩) rest
      else
        replacement :: afresh ()

/-- The characters of a byte string, with each broken sequence replaced. -/
def chars (bytes : List UInt8) : List Char :=
  charsFrom none bytes

/-- The text of a byte string, with each broken sequence replaced. -/
def decodeLossy (bytes : List UInt8) : String :=
  String.ofList (chars bytes)

end Utf8
end GameBoy
