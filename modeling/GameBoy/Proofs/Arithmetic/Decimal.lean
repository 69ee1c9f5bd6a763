import GameBoy.Proofs.Arithmetic.Binary

/-!
# Addition and subtraction of decimal digits

A byte holds two decimal digits.  An addition or subtraction of two such bytes leaves a binary
result, which DAA makes decimal again from what the flags tell about it; the carry that DAA leaves
is one of the decimal numbers.
-/

namespace GameBoy

open Effect

namespace Alu

/-- Each nibble of the byte is a decimal digit. -/
def IsDecimal (byte : UInt8) : Prop :=
  byte.toNat % 16 ≤ 9 ∧ byte.toNat / 16 ≤ 9

instance (byte : UInt8) : Decidable (IsDecimal byte) :=
  inferInstanceAs (Decidable (_ ∧ _))

/-- The number that the two digits of a byte make. -/
def digits (byte : UInt8) : ℕ :=
  10 * (byte.toNat / 16) + byte.toNat % 16

/-- The number whose pairs of digits these are, the lowest one first. -/
def decimal (bytes : List UInt8) : ℕ :=
  number 100 digits bytes

/-- An operation of the first byte of a pair, in A, with the second one, and DAA. -/
def correctBytes (op : AluOp) (pair : UInt8 × UInt8) (flags : Flags) : UInt8 × Flags :=
  let (a, flags) := combine op pair.1 pair.2 flags
  daa a flags

/-- ADD on the lowest pair of bytes and ADC on the others, each with DAA. -/
def decimalAddition (flags : Flags) (pairs : List (UInt8 × UInt8)) :
    List (Stage (UInt8 × UInt8)) :=
  chainFrom (correctBytes .add) (correctBytes .adc) flags pairs

/-- SUB on the lowest pair of bytes and SBC on the others, each with DAA. -/
def decimalSubtraction (flags : Flags) (pairs : List (UInt8 × UInt8)) :
    List (Stage (UInt8 × UInt8)) :=
  chainFrom (correctBytes .sub) (correctBytes .sbc) flags pairs

theorem decimalAddition_cons (flags : Flags) (pair : UInt8 × UInt8)
    (pairs : List (UInt8 × UInt8)) :
    decimalAddition flags (pair :: pairs) = chain (correctBytes .adc) {} (pair :: pairs) :=
  chainFrom_eq rfl

theorem decimalSubtraction_cons (flags : Flags) (pair : UInt8 × UInt8)
    (pairs : List (UInt8 × UInt8)) :
    decimalSubtraction flags (pair :: pairs) = chain (correctBytes .sbc) {} (pair :: pairs) :=
  chainFrom_eq rfl

theorem digits_lt {byte : UInt8} (valid : IsDecimal byte) : digits byte < 100 := by
  obtain ⟨low, high⟩ := valid
  rw [digits]
  omega

theorem decimal_lt {bytes : List UInt8} (valid : ∀ byte ∈ bytes, IsDecimal byte) :
    decimal bytes < 100 ^ bytes.length := by
  rw [← List.length_map digits]
  exact Nat.ofDigits_lt_base_pow_length (by decide)
    (List.forall_mem_map.mpr fun byte here => digits_lt (valid byte here))

/-! ## Correction of one byte -/

/-- DAA corrects the high digit. -/
def correctsHigh (a : UInt8) (flags : Flags) : Bool :=
  flags.carry || (!flags.subtract && a > 0x99)

/-- DAA corrects the low digit. -/
def correctsLow (a : UInt8) (flags : Flags) : Bool :=
  flags.halfCarry || (!flags.subtract && a &&& 0x0F > 0x09)

theorem toNat_decimalAdjustment (a : UInt8) (flags : Flags) :
    (decimalAdjustment a flags).toNat =
      96 * (correctsHigh a flags).toNat + 6 * (correctsLow a flags).toNat := by
  rw [decimalAdjustment, ← correctsHigh, ← correctsLow]
  cases correctsHigh a flags <;> cases correctsLow a flags <;> rfl

/-- The carry that DAA leaves says whether it has corrected the high digit. -/
theorem carry_daa (a : UInt8) (flags : Flags) :
    (daa a flags).2.carry = correctsHigh a flags := by
  rw [Bool.eq_iff_iff]
  change decide (0x60 ≤ decimalAdjustment a flags) = true ↔ _
  rw [decide_eq_true_iff, UInt8.le_iff_toNat_le, toNat_decimalAdjustment]
  cases correctsHigh a flags <;> cases correctsLow a flags <;> decide

theorem toNat_daa_of_sum (a : UInt8) (flags : Flags) (up : flags.subtract = false) :
    (daa a flags).1.toNat =
      (a.toNat + (96 * (correctsHigh a flags).toNat + 6 * (correctsLow a flags).toNat)) % 256 := by
  rw [daa, up]
  dsimp only
  rw [if_neg Bool.false_ne_true, UInt8.toNat_add, toNat_decimalAdjustment]

theorem toNat_daa_of_difference (a : UInt8) (flags : Flags) (down : flags.subtract = true) :
    (daa a flags).1.toNat =
      (256 - (96 * (correctsHigh a flags).toNat + 6 * (correctsLow a flags).toNat) + a.toNat) %
        256 := by
  rw [daa, down]
  dsimp only
  rw [if_pos rfl, UInt8.toNat_sub, toNat_decimalAdjustment]

theorem toNat_and_nibble (byte : UInt8) : (byte &&& 0x0F).toNat = byte.toNat % 16 := by
  rw [UInt8.toNat_and]
  exact Nat.and_two_pow_sub_one_eq_mod _ 4

theorem correctsLow_iff (a : UInt8) (flags : Flags) :
    correctsLow a flags = true ↔
      flags.halfCarry = true ∨ flags.subtract = false ∧ 9 < a.toNat % 16 := by
  simp only [correctsLow, Bool.or_eq_true, Bool.and_eq_true, Bool.not_eq_true', decide_eq_true_iff,
    gt_iff_lt, UInt8.lt_iff_toNat_lt, toNat_and_nibble]
  rfl

theorem correctsHigh_iff (a : UInt8) (flags : Flags) :
    correctsHigh a flags = true ↔
      flags.carry = true ∨ flags.subtract = false ∧ 153 < a.toNat := by
  simp only [correctsHigh, Bool.or_eq_true, Bool.and_eq_true, Bool.not_eq_true',
    decide_eq_true_iff, gt_iff_lt, UInt8.lt_iff_toNat_lt]
  rfl

section Digits

variable {left right : UInt8} (carry : Bool)

/-- After an addition DAA corrects the low digit where the low digits make ten or more. -/
theorem correctsLow_add (first : IsDecimal left) (second : IsDecimal right) :
    correctsLow (add left right carry).1 (add left right carry).2 = true ↔
      9 < left.toNat % 16 + right.toNat % 16 + carry.toNat := by
  have bit := Bool.toNat_le carry
  rw [correctsLow_iff, toNat_add_fst]
  simp only [add, decide_eq_true_iff, true_and]
  simp only [IsDecimal] at first second
  omega

/-- After an addition DAA corrects the high digit where the digits make a hundred or more. -/
theorem correctsHigh_add (first : IsDecimal left) (second : IsDecimal right) :
    correctsHigh (add left right carry).1 (add left right carry).2 = true ↔
      99 < digits left + digits right + carry.toNat := by
  have bit := Bool.toNat_le carry
  rw [correctsHigh_iff, toNat_add_fst]
  simp only [add, decide_eq_true_iff, true_and, digits]
  simp only [IsDecimal] at first second
  omega

/-- After a subtraction DAA corrects the low digit where the low digits have borrowed. -/
theorem correctsLow_sub (left right : UInt8) (carry : Bool) :
    correctsLow (sub left right carry).1 (sub left right carry).2 = true ↔
      left.toNat % 16 < right.toNat % 16 + carry.toNat := by
  rw [correctsLow_iff]
  simp [sub]

/-- After a subtraction DAA corrects the high digit where the digits have borrowed. -/
theorem correctsHigh_sub (first : IsDecimal left) (second : IsDecimal right) :
    correctsHigh (sub left right carry).1 (sub left right carry).2 = true ↔
      digits left < digits right + carry.toNat := by
  have bit := Bool.toNat_le carry
  rw [correctsHigh_iff]
  simp only [sub, decide_eq_true_iff, Bool.true_eq_false, false_and, or_false, digits]
  simp only [IsDecimal] at first second
  omega

/-- DAA makes a sum of digits decimal, and what it carries is a hundred. -/
theorem daa_add (first : IsDecimal left) (second : IsDecimal right) :
    let after := daa (add left right carry).1 (add left right carry).2
    IsDecimal after.1 ∧
      digits after.1 + 100 * after.2.carry.toNat =
        digits left + digits right + carry.toNat := by
  have bit := Bool.toNat_le carry
  have low := correctsLow_add carry first second
  have high := correctsHigh_add carry first second
  have value := toNat_daa_of_sum (add left right carry).1 (add left right carry).2 rfl
  rw [toNat_add_fst] at value
  simp only [carry_daa, IsDecimal, digits] at first second high value ⊢
  cases ten : correctsLow (add left right carry).1 (add left right carry).2 <;>
    cases hundred : correctsHigh (add left right carry).1 (add left right carry).2 <;>
    simp only [ten, hundred, Bool.toNat_true, Bool.toNat_false, Bool.false_eq_true, true_iff,
      false_iff] at value low high ⊢ <;>
    omega

/-- DAA makes a difference of digits decimal, and what it borrows is a hundred. -/
theorem daa_sub (first : IsDecimal left) (second : IsDecimal right) :
    let after := daa (sub left right carry).1 (sub left right carry).2
    IsDecimal after.1 ∧
      digits left + 100 * after.2.carry.toNat =
        digits after.1 + digits right + carry.toNat := by
  have bit := Bool.toNat_le carry
  have low := correctsLow_sub left right carry
  have high := correctsHigh_sub carry first second
  have value := toNat_daa_of_difference (sub left right carry).1 (sub left right carry).2 rfl
  have balance := balance_sub left right carry
  -- After a subtraction nothing but the borrow itself has DAA correct the high digit.
  have borrow : (sub left right carry).2.carry =
      correctsHigh (sub left right carry).1 (sub left right carry).2 := by
    rw [correctsHigh, Bool.or_eq_left_iff_imp.mpr (by simp [sub])]
  rw [borrow] at balance
  simp only [carry_daa, IsDecimal, digits] at first second high value ⊢
  cases ten : correctsLow (sub left right carry).1 (sub left right carry).2 <;>
    cases hundred : correctsHigh (sub left right carry).1 (sub left right carry).2 <;>
    simp only [ten, hundred, Bool.toNat_true, Bool.toNat_false, Bool.false_eq_true, true_iff,
      false_iff] at value low high balance ⊢ <;>
    omega

end Digits

/-- DAA leaves digits alone where neither of them has carried. -/
theorem daa_of_isDecimal {a : UInt8} {flags : Flags} (valid : IsDecimal a)
    (half : flags.halfCarry = false) (carry : flags.carry = false) :
    daa a flags = (a, { flags with zero := a == 0 }) := by
  have low : correctsLow a flags = false := by
    rw [Bool.eq_false_iff, Ne, correctsLow_iff, half]
    rintro (⟨⟨⟩⟩ | ⟨-, above⟩)
    exact absurd valid.1 (by omega)
  have high : correctsHigh a flags = false := by
    rw [Bool.eq_false_iff, Ne, correctsHigh_iff, carry]
    rintro (⟨⟨⟩⟩ | ⟨-, above⟩)
    obtain ⟨small, digit⟩ := valid
    omega
  have none : decimalAdjustment a flags = 0 := by
    rw [← UInt8.toNat_inj, toNat_decimalAdjustment, low, high]
    rfl
  simp only [daa, none, UInt8.sub_zero, UInt8.add_zero, ite_self]
  rw [half, carry]
  rfl

/-! ## Several bytes -/

section Several

variable {pairs : List (UInt8 × UInt8)}

theorem isDecimal_chain (op : AluOp) (flags : Flags)
    (correct : ∀ pair ∈ pairs, ∀ flags, IsDecimal (correctBytes op pair flags).1) :
    ∀ byte ∈ (chain (correctBytes op) flags pairs).map Stage.byte, IsDecimal byte :=
  List.forall_mem_map.mpr (forall_chain correct)

theorem decimal_chain_lt (op : AluOp) (flags : Flags)
    (correct : ∀ pair ∈ pairs, ∀ flags, IsDecimal (correctBytes op pair flags).1) :
    decimal ((chain (correctBytes op) flags pairs).map Stage.byte) < 100 ^ pairs.length := by
  have below := decimal_lt (isDecimal_chain op flags correct)
  rwa [List.length_map, length_chain] at below

end Several

section Several

variable (flags : Flags) {lowest : UInt8 × UInt8} {others : List (UInt8 × UInt8)}
  (valid : ∀ pair ∈ lowest :: others, IsDecimal pair.1 ∧ IsDecimal pair.2)

include valid

/-- Addition leaves the digits of the sum of the numbers, as far as there are digits. -/
theorem decimal_addition :
    let pairs := lowest :: others
    let sums := decimalAddition flags pairs
    let total := decimal (pairs.map Prod.fst) + decimal (pairs.map Prod.snd)
    (∀ byte ∈ sums.map Stage.byte, IsDecimal byte) ∧
      decimal (sums.map Stage.byte) = total % 100 ^ pairs.length ∧
      ((flagsAfter flags sums).carry = true ↔ 100 ^ pairs.length ≤ total) := by
  have step pair (here : pair ∈ lowest :: others) (flags : Flags) :=
    daa_add flags.carry (valid pair here).1 (valid pair here).2
  have correct pair here flags := (step pair here flags).1
  have balance := number_sums (correctBytes .adc) {}
    fun pair here flags => (step pair here flags).2
  dsimp only
  rw [decimalAddition_cons, flagsAfter_chain_cons]
  exact ⟨isDecimal_chain .adc {} correct, settle_sum (decimal_chain_lt .adc {} correct) balance⟩

/-- Subtraction leaves the digits of the difference of the numbers, and a borrow if it is below
zero. -/
theorem decimal_subtraction :
    let pairs := lowest :: others
    let differences := decimalSubtraction flags pairs
    let minuend := decimal (pairs.map Prod.fst)
    let subtrahend := decimal (pairs.map Prod.snd)
    (∀ byte ∈ differences.map Stage.byte, IsDecimal byte) ∧
      (decimal (differences.map Stage.byte) : ℤ) =
        ((minuend : ℤ) - subtrahend) % (100 ^ pairs.length : ℕ) ∧
      ((flagsAfter flags differences).carry = true ↔ minuend < subtrahend) := by
  have step pair (here : pair ∈ lowest :: others) (flags : Flags) :=
    daa_sub flags.carry (valid pair here).1 (valid pair here).2
  have correct pair here flags := (step pair here flags).1
  have balance := number_differences (correctBytes .sbc) {}
    fun pair here flags => (step pair here flags).2
  dsimp only
  rw [decimalSubtraction_cons, flagsAfter_chain_cons]
  exact ⟨isDecimal_chain .sbc {} correct,
    settle_difference (decimal_chain_lt .sbc {} correct) balance⟩

end Several

/-! ## Instructions -/

section Instructions

variable {β : Type} [Bus β] {system found : System β} {value : UInt8}
  (slot start immediate correctionSlot correctionStart none : UInt16) (taken always : Bool)

/-- An arithmetic instruction and DAA take A, the byte of the operand and the flags for a stage. -/
theorem perform_alu_daa (op : AluOp) {source : Operand}
    (read : Exec.readOperand source system = .ok value found) :
    (do Exec.perform (.alu op source) slot start immediate taken
        Exec.perform .daa correctionSlot correctionStart none always : Exec β Unit) system =
      .ok () (found.withStage
        (Stage.of (correctBytes op) found.cpu.regs.flags (found.cpu.regs.a, value))) := by
  rw [bind_of_ok (perform_alu slot start immediate taken op read)]
  rfl

theorem perform_aluByte_daa (op : AluOp) (system : System β) :
    (do Exec.perform (.aluByte op) slot start immediate taken
        Exec.perform .daa correctionSlot correctionStart none always : Exec β Unit) system =
      .ok () (system.withStage
        (Stage.of (correctBytes op) system.cpu.regs.flags
          (system.cpu.regs.a, Word.low immediate))) := rfl

/-- The instruction DAA leaves digits in A alone where neither of them has carried. -/
theorem perform_daa_of_isDecimal (valid : IsDecimal system.cpu.regs.a)
    (half : system.cpu.regs.flags.halfCarry = false)
    (carry : system.cpu.regs.flags.carry = false) :
    Exec.perform .daa slot start immediate taken system =
      .ok () { system with cpu.regs.flags.zero := system.cpu.regs.a == 0 } := by
  rw [Exec.perform, Exec.modifyRegisters_apply, daa_of_isDecimal valid half carry]

end Instructions

/-- Addition and subtraction of pairs of digits from the lowest up, with DAA after each, are those
of the decimal numbers, up to their number of digits; the last carry is what the digits cannot hold,
and the instructions are the stages of these chains.  DAA leaves digits that have not carried
alone. -/
theorem decimal_arithmetic (flags : Flags) (lowest : UInt8 × UInt8)
    (others : List (UInt8 × UInt8))
    (valid : ∀ pair ∈ lowest :: others, IsDecimal pair.1 ∧ IsDecimal pair.2) :
    let pairs := lowest :: others
    let modulus := 100 ^ pairs.length
    let x := decimal (pairs.map Prod.fst)
    let y := decimal (pairs.map Prod.snd)
    let sums := decimalAddition flags pairs
    let differences := decimalSubtraction flags pairs
    ((∀ byte ∈ sums.map Stage.byte, IsDecimal byte) ∧
      decimal (sums.map Stage.byte) = (x + y) % modulus ∧
      ((flagsAfter flags sums).carry = true ↔ modulus ≤ x + y)) ∧
    ((∀ byte ∈ differences.map Stage.byte, IsDecimal byte) ∧
      (decimal (differences.map Stage.byte) : ℤ) = ((x : ℤ) - y) % modulus ∧
      ((flagsAfter flags differences).carry = true ↔ x < y)) ∧
    ∀ {β : Type} [Bus β] (slot start immediate correctionSlot correctionStart none : UInt16)
      (taken always : Bool) (system : System β),
      (∀ op source value found, Exec.readOperand source system = .ok value found →
        (do Exec.perform (.alu op source) slot start immediate taken
            Exec.perform .daa correctionSlot correctionStart none always : Exec β Unit) system =
          .ok () (found.withStage
            (Stage.of (correctBytes op) found.cpu.regs.flags (found.cpu.regs.a, value)))) ∧
      (∀ op,
        (do Exec.perform (.aluByte op) slot start immediate taken
            Exec.perform .daa correctionSlot correctionStart none always : Exec β Unit) system =
          .ok () (system.withStage
            (Stage.of (correctBytes op) system.cpu.regs.flags
              (system.cpu.regs.a, Word.low immediate)))) ∧
      (IsDecimal system.cpu.regs.a → system.cpu.regs.flags.halfCarry = false →
        system.cpu.regs.flags.carry = false →
        Exec.perform .daa slot start immediate taken system =
          .ok () { system with cpu.regs.flags.zero := system.cpu.regs.a == 0 }) := by
  intro pairs modulus x y sums differences
  refine ⟨decimal_addition flags valid, decimal_subtraction flags valid, ?_⟩
  intro β _ slot start immediate correctionSlot correctionStart none taken always system
  exact ⟨fun op _ _ _ read => perform_alu_daa slot start immediate correctionSlot correctionStart
      none taken always op read,
    fun op => perform_aluByte_daa slot start immediate correctionSlot correctionStart none taken
      always op system,
    fun valid half carry => perform_daa_of_isDecimal slot start immediate taken valid half carry⟩

/-- The sum of 1999 and 8045 is 44 with a carry, and their difference is 3954 with a borrow. -/
theorem decimal_arithmetic_borrowing :
    let pairs : List (UInt8 × UInt8) := [(0x99, 0x45), (0x19, 0x80)]
    (decimal ((decimalAddition {} pairs).map Stage.byte) = 44 ∧
      (flagsAfter {} (decimalAddition {} pairs)).carry = true) ∧
    ((decimal ((decimalSubtraction {} pairs).map Stage.byte) : ℤ) = 3954 ∧
      (flagsAfter {} (decimalSubtraction {} pairs)).carry = true) := by
  obtain ⟨⟨-, total, carry⟩, ⟨-, difference, borrow⟩, -⟩ :=
    decimal_arithmetic {} (0x99, 0x45) [(0x19, 0x80)]
      (List.forall_mem_cons.mpr ⟨by decide, List.forall_mem_singleton.mpr (by decide)⟩)
  exact ⟨⟨total, carry.mpr (by decide)⟩, difference.trans (by decide), borrow.mpr (by decide)⟩

end Alu
end GameBoy
