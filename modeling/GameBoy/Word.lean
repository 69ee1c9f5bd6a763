/-!
# Bytes and words

A word is two bytes.  In a register pair the first register is the high byte; in memory the low
byte comes first.
-/

namespace GameBoy

/-- What holds of all strings of eight bits holds of every byte. -/
@[elab_as_elim]
theorem forall_byte {motive : UInt8 → Prop} (byte : UInt8)
    (all : ∀ bits : BitVec 8, motive ⟨bits⟩) : motive byte :=
  all byte.toBitVec

namespace Word

/-- The word with the given high and low bytes. -/
def ofBytes (high low : UInt8) : UInt16 :=
  high.toUInt16 <<< 8 ||| low.toUInt16

/-- The high byte of a word. -/
def high (word : UInt16) : UInt8 :=
  (word >>> 8).toUInt8

/-- The low byte of a word. -/
def low (word : UInt16) : UInt8 :=
  word.toUInt8

/-- The word congruent to a byte read as a two's complement number. -/
def ofSigned (byte : UInt8) : UInt16 :=
  if byte < 0x80 then byte.toUInt16 else byte.toUInt16 ||| 0xFF00

@[simp]
theorem high_ofBytes (high low : UInt8) : Word.high (ofBytes high low) = high := by
  apply UInt8.toBitVec_inj.mp
  simp only [Word.high, ofBytes, UInt16.toBitVec_toUInt8, UInt16.toBitVec_shiftRight,
    UInt16.toBitVec_or, UInt16.toBitVec_shiftLeft, UInt8.toBitVec_toUInt16]
  ext i _
  simp
  grind

@[simp]
theorem low_ofBytes (high low : UInt8) : Word.low (ofBytes high low) = low := by
  apply UInt8.toBitVec_inj.mp
  simp only [Word.low, ofBytes]
  ext i _
  simp

theorem ofBytes_high_low (word : UInt16) : ofBytes (Word.high word) (Word.low word) = word := by
  apply UInt16.toBitVec_inj.mp
  simp only [ofBytes, Word.high, Word.low, UInt16.toBitVec_or, UInt16.toBitVec_shiftLeft,
    UInt8.toBitVec_toUInt16, UInt16.toBitVec_toUInt8, UInt16.toBitVec_shiftRight]
  ext i _
  simp
  grind

@[simp]
theorem low_toUInt16 (byte : UInt8) : Word.low byte.toUInt16 = byte :=
  UInt8.toUInt8_toUInt16 byte

end Word
end GameBoy
