import GameBoy.Proofs.Arithmetic.Chain

/-!
# Addition and subtraction of several bytes

Bytes are added or subtracted from the lowest up, and the carry flag links each operation to the
next.  The main statement says that this is the arithmetic of the numbers that the bytes make, and
what the flags say about them at every byte.
-/

namespace GameBoy

open Effect

namespace Alu

/-- An operation of the first byte of a pair, in A, with the second one. -/
def combineBytes (op : AluOp) (pair : UInt8 × UInt8) (flags : Flags) : UInt8 × Flags :=
  combine op pair.1 pair.2 flags

/-- ADD on the lowest pair of bytes and ADC on the others. -/
def addition (flags : Flags) (pairs : List (UInt8 × UInt8)) : List (Stage (UInt8 × UInt8)) :=
  chainFrom (combineBytes .add) (combineBytes .adc) flags pairs

/-- SUB on the lowest pair of bytes and SBC on the others. -/
def subtraction (flags : Flags) (pairs : List (UInt8 × UInt8)) : List (Stage (UInt8 × UInt8)) :=
  chainFrom (combineBytes .sub) (combineBytes .sbc) flags pairs

theorem addition_cons (flags : Flags) (pair : UInt8 × UInt8) (pairs : List (UInt8 × UInt8)) :
    addition flags (pair :: pairs) = chain (combineBytes .adc) {} (pair :: pairs) :=
  chainFrom_eq rfl

theorem subtraction_cons (flags : Flags) (pair : UInt8 × UInt8) (pairs : List (UInt8 × UInt8)) :
    subtraction flags (pair :: pairs) = chain (combineBytes .sbc) {} (pair :: pairs) :=
  chainFrom_eq rfl

/-! ## One byte -/

/-- The sum with the carry that it leaves is the sum of the operands and the carry that it finds. -/
theorem balance_add (left right : UInt8) (carryIn : Bool) :
    (add left right carryIn).1.toNat + 256 * (add left right carryIn).2.carry.toNat =
      left.toNat + right.toNat + carryIn.toNat := by
  have first : left.toNat < 256 := left.toNat_lt
  have second : right.toNat < 256 := right.toNat_lt
  have carry : carryIn.toNat ≤ 1 := Bool.toNat_le carryIn
  by_cases exceeds : left.toNat + right.toNat + carryIn.toNat > 255 <;>
    simp only [add, UInt8.toNat_add, toNat_carryBit, exceeds, decide_true, decide_false,
      Bool.toNat_true, Bool.toNat_false] <;>
    omega

theorem toNat_add_fst (left right : UInt8) (carryIn : Bool) :
    (add left right carryIn).1.toNat = (left.toNat + right.toNat + carryIn.toNat) % 256 := by
  rw [add, UInt8.toNat_add, UInt8.toNat_add, toNat_carryBit, Nat.mod_add_mod]

/-- A difference with the subtrahend and the borrow that it finds is the minuend, with the borrow
that it leaves. -/
theorem balance_sub (left right : UInt8) (borrowIn : Bool) :
    left.toNat + 256 * (sub left right borrowIn).2.carry.toNat =
      (sub left right borrowIn).1.toNat + right.toNat + borrowIn.toNat := by
  have first : left.toNat < 256 := left.toNat_lt
  have second : right.toNat < 256 := right.toNat_lt
  have borrow : borrowIn.toNat ≤ 1 := Bool.toNat_le borrowIn
  by_cases borrows : left.toNat < right.toNat + borrowIn.toNat <;>
    simp only [sub, UInt8.toNat_sub, toNat_carryBit, borrows, decide_true, decide_false,
      Bool.toNat_true, Bool.toNat_false] <;>
    omega

/-- Subtraction takes back what addition with the same carry has added. -/
theorem sub_add (left right : UInt8) (carry : Bool) :
    (sub (add left right carry).1 right carry).1 = left := by
  simp only [sub, add]
  rw [UInt8.add_assoc, UInt8.add_comm right, ← UInt8.add_assoc, UInt8.add_sub_cancel,
    UInt8.add_sub_cancel]

/-- Subtraction takes back the carry that addition with the same carry has left. -/
theorem borrow_sub_add (left right : UInt8) (carry : Bool) :
    (sub (add left right carry).1 right carry).2.carry = (add left right carry).2.carry := by
  have small : left.toNat < 256 := left.toNat_lt
  have balance := balance_add left right carry
  generalize (add left right carry).1 = result at balance ⊢
  cases carries : (add left right carry).2.carry <;>
    simp only [carries, Bool.toNat_true, Bool.toNat_false] at balance <;>
    simp only [sub, decide_eq_true_eq, decide_eq_false_iff_not] <;>
    omega

/-! ## Several bytes -/

section Several

variable {pairs : List (UInt8 × UInt8)} {flags : Flags}

/-- Additions with carry balance sum and carry against the operands. -/
theorem binary_adc_chain (flags : Flags) (pairs : List (UInt8 × UInt8)) :
    let sums := chain (combineBytes .adc) flags pairs
    binary (sums.map Stage.byte) +
        256 ^ pairs.length * (flagsAfter flags sums).carry.toNat =
      binary (pairs.map Prod.fst) + binary (pairs.map Prod.snd) + flags.carry.toNat :=
  number_sums (combineBytes .adc) flags fun pair _ flags => balance_add pair.1 pair.2 flags.carry

/-- Subtractions with borrow balance the minuend against difference, subtrahend and borrow. -/
theorem binary_sbc_chain (flags : Flags) (pairs : List (UInt8 × UInt8)) :
    let differences := chain (combineBytes .sbc) flags pairs
    binary (pairs.map Prod.fst) +
        256 ^ pairs.length * (flagsAfter flags differences).carry.toNat =
      binary (differences.map Stage.byte) + binary (pairs.map Prod.snd) + flags.carry.toNat :=
  number_differences (combineBytes .sbc) flags
    fun pair _ flags => balance_sub pair.1 pair.2 flags.carry

/-- Subtracting with borrow from what was added with the same carry restores the bytes. -/
theorem map_byte_sbc_adc (pairs : List (UInt8 × UInt8)) {flags later : Flags}
    (same : later.carry = flags.carry) :
    (chain (combineBytes .sbc) later
        (((chain (combineBytes .adc) flags pairs).map Stage.byte).zip
          (pairs.map Prod.snd))).map Stage.byte = pairs.map Prod.fst := by
  induction pairs generalizing flags later with
  | nil => rfl
  | cons pair pairs ih =>
      simp only [chain, List.map_cons, List.zip_cons_cons]
      -- The chains leave the same carry here, which is what the others need of them.
      rw [ih]
      · simp only [Stage.of, combineBytes, combine, same, sub_add]
      · simp only [Stage.of, combineBytes, combine, same, borrow_sub_add]

theorem binary_chain_lt (operation : UInt8 × UInt8 → Flags → UInt8 × Flags) (flags : Flags)
    (pairs : List (UInt8 × UInt8)) :
    binary ((chain operation flags pairs).map Stage.byte) < 256 ^ pairs.length := by
  have below := binary_lt ((chain operation flags pairs).map Stage.byte)
  rwa [List.length_map, length_chain] at below

variable (flags) (lowest : UInt8 × UInt8) (others : List (UInt8 × UInt8))

/-- Addition leaves the sum of the numbers, as far as their bytes hold it. -/
theorem binary_addition :
    let pairs := lowest :: others
    let sums := addition flags pairs
    let total := binary (pairs.map Prod.fst) + binary (pairs.map Prod.snd)
    binary (sums.map Stage.byte) = total % 256 ^ pairs.length ∧
      ((flagsAfter flags sums).carry = true ↔ 256 ^ pairs.length ≤ total) := by
  dsimp only
  rw [addition_cons, flagsAfter_chain_cons]
  exact settle_sum (binary_chain_lt (combineBytes .adc) {} _)
    (binary_adc_chain {} (lowest :: others))

/-- Subtraction leaves the difference of the numbers, and a borrow if it is below zero. -/
theorem binary_subtraction :
    let pairs := lowest :: others
    let differences := subtraction flags pairs
    let minuend := binary (pairs.map Prod.fst)
    let subtrahend := binary (pairs.map Prod.snd)
    (binary (differences.map Stage.byte) : ℤ) =
        ((minuend : ℤ) - subtrahend) % (256 ^ pairs.length : ℕ) ∧
      ((flagsAfter flags differences).carry = true ↔ minuend < subtrahend) := by
  dsimp only
  rw [subtraction_cons, flagsAfter_chain_cons]
  exact settle_difference (binary_chain_lt (combineBytes .sbc) {} _)
    (binary_sbc_chain {} (lowest :: others))

/-- Subtracting what was added restores the bytes. -/
theorem subtraction_addition (later : Flags) :
    let pairs := lowest :: others
    let sums := (addition flags pairs).map Stage.byte
    (subtraction later (sums.zip (pairs.map Prod.snd))).map Stage.byte = pairs.map Prod.fst := by
  dsimp only
  rw [addition_cons, ← map_byte_sbc_adc (lowest :: others) (Eq.refl (Flags.carry {}))]
  exact congrArg _ (subtraction_cons later _ _)

/-! ## The flags at every byte -/

/-- What a stage says about its byte: the direction, whether it is zero, and the half carry. -/
def Stage.Tells (stage : Stage (UInt8 × UInt8)) (subtract : Bool) (half : Prop) : Prop :=
  stage.flags.subtract = subtract ∧ (stage.flags.zero = true ↔ stage.byte = 0) ∧
    (stage.flags.halfCarry = true ↔ half)

/-- The low nibble of the byte at a place, and all bytes below it, carry into the high nibble. -/
theorem half_of_sums {place : ℕ} {low first second : ℕ} {left right : UInt8} {carry : Bool}
    (small : low < 256 ^ place)
    (balance : low + 256 ^ place * carry.toNat = first + second) :
    left.toNat % 16 + right.toNat % 16 + carry.toNat > 15 ↔
      256 ^ place * 16 ≤
        first + 256 ^ place * (left.toNat % 16) +
          (second + 256 ^ place * (right.toNat % 16)) := by
  have total : first + 256 ^ place * (left.toNat % 16) +
      (second + 256 ^ place * (right.toNat % 16)) =
        low + 256 ^ place * (left.toNat % 16 + right.toNat % 16 + carry.toNat) := by
    linear_combination -balance
  have below : low + 256 ^ place * (left.toNat % 16 + right.toNat % 16 + carry.toNat) <
      256 ^ place * 16 ↔ left.toNat % 16 + right.toNat % 16 + carry.toNat < 16 := below_iff small
  rw [total]
  omega

theorem half_of_differences {place : ℕ} {low first second : ℕ} {left right : UInt8} {borrow : Bool}
    (small : low < 256 ^ place)
    (balance : first + 256 ^ place * borrow.toNat = low + second) :
    left.toNat % 16 < right.toNat % 16 + borrow.toNat ↔
      first + 256 ^ place * (left.toNat % 16) < second + 256 ^ place * (right.toNat % 16) := by
  rw [← below_iff small, mul_add]
  omega

theorem binary_map_mod {place : ℕ} {pair : UInt8 × UInt8} (found : pairs[place]? = some pair)
    (read : UInt8 × UInt8 → UInt8) :
    binary (pairs.map read) % (256 ^ place * 16) =
      binary ((pairs.take place).map read) + 256 ^ place * ((read pair).toNat % 16) := by
  have here : (pairs.map read)[place]? = some (read pair) := by
    rw [List.getElem?_map, found, Option.map_some]
  rw [binary_mod here, List.map_take]

/-- The stages of an addition say what their operands and those below them amount to. -/
theorem tells_of_addition {place : ℕ} {stage : Stage (UInt8 × UInt8)}
    (here : (addition flags (lowest :: others))[place]? = some stage) :
    let pairs := lowest :: others
    let modulus := 256 ^ place * 16
    stage.Tells false
      (modulus ≤
        binary (pairs.map Prod.fst) % modulus + binary (pairs.map Prod.snd) % modulus) := by
  rw [addition_cons] at here
  obtain ⟨pair, found, before, rfl⟩ := stage_of_chain here
  have balance := binary_adc_chain {} ((lowest :: others).take place)
  have small := binary_chain_lt (combineBytes .adc) {} ((lowest :: others).take place)
  rw [before] at balance small
  dsimp only
  rw [binary_map_mod found Prod.fst, binary_map_mod found Prod.snd]
  exact ⟨rfl, beq_iff_eq, decide_eq_true_iff.trans (half_of_sums small balance)⟩

/-- The stages of a subtraction say what their operands and those below them amount to. -/
theorem tells_of_subtraction {place : ℕ} {stage : Stage (UInt8 × UInt8)}
    (here : (subtraction flags (lowest :: others))[place]? = some stage) :
    let pairs := lowest :: others
    let modulus := 256 ^ place * 16
    stage.Tells true
      (binary (pairs.map Prod.fst) % modulus < binary (pairs.map Prod.snd) % modulus) := by
  rw [subtraction_cons] at here
  obtain ⟨pair, found, before, rfl⟩ := stage_of_chain here
  have balance := binary_sbc_chain {} ((lowest :: others).take place)
  have small := binary_chain_lt (combineBytes .sbc) {} ((lowest :: others).take place)
  rw [before] at balance small
  dsimp only
  rw [binary_map_mod found Prod.fst, binary_map_mod found Prod.snd]
  exact ⟨rfl, beq_iff_eq, decide_eq_true_iff.trans (half_of_differences small balance)⟩

end Several

/-! ## Words -/

theorem binary_word (word : UInt16) : binary [Word.low word, Word.high word] = word.toNat := by
  have low : (Word.low word).toNat = word.toNat % 256 := UInt16.toNat_toUInt8 word
  have high : (Word.high word).toNat = word.toNat / 256 := by
    have small : word.toNat < 65536 := word.toNat_lt
    rw [Word.high, UInt16.toNat_toUInt8, UInt16.toNat_shiftRight, Nat.shiftRight_eq_div_pow]
    exact Nat.mod_eq_of_lt (by simp; omega)
  simp only [binary, number, List.map_cons, List.map_nil, Nat.ofDigits_cons, Nat.ofDigits_nil, low,
    high]
  omega

/-- The sum of two words is the sum of their bytes, and the carries out of bits 11 and 15 are those
of the high bytes. -/
theorem addWord_eq_addition (left right : UInt16) (flags : Flags) :
    let pairs := [(Word.low left, Word.low right), (Word.high left, Word.high right)]
    let sums := addition flags pairs
    let (word, after) := addWord left right flags
    [Word.low word, Word.high word] = sums.map Stage.byte ∧
      after.halfCarry = (flagsAfter flags sums).halfCarry ∧
      after.carry = (flagsAfter flags sums).carry := by
  intro pairs sums
  obtain ⟨total, carry⟩ := binary_addition flags (Word.low left, Word.low right)
    [(Word.high left, Word.high right)]
  have second : sums[1]? = some _ := rfl
  have tells := tells_of_addition flags _ _ second
  simp only [List.map_cons, List.map_nil, binary_word] at total carry tells
  refine ⟨binary_inj rfl ?_, ?_, ?_⟩
  · rw [binary_word, total]
    simp [UInt16.toNat_add]
  · rw [Bool.eq_iff_iff, decide_eq_true_iff]
    refine Iff.trans ?_ tells.2.2.symm
    norm_num
    omega
  · rw [Bool.eq_iff_iff, decide_eq_true_iff]
    refine Iff.trans ?_ carry.symm
    norm_num
    omega

/-! ## Instructions -/

section Instructions

variable {β : Type} [Bus β] {system found : System β} {value : UInt8}
  (slot start immediate : UInt16) (taken : Bool)

/-- An arithmetic instruction takes A, the byte of its operand and the flags for a stage. -/
theorem perform_alu (op : AluOp) {source : Operand}
    (read : Exec.readOperand source system = .ok value found) :
    Exec.perform (.alu op source) slot start immediate taken system =
      .ok () (found.withStage
        (Stage.of (combineBytes op) found.cpu.regs.flags (found.cpu.regs.a, value))) := by
  rw [Exec.perform, bind_of_ok read]
  rfl

theorem perform_aluByte (op : AluOp) (system : System β) :
    Exec.perform (.aluByte op) slot start immediate taken system =
      .ok () (system.withStage
        (Stage.of (combineBytes op) system.cpu.regs.flags
          (system.cpu.regs.a, Word.low immediate))) := rfl

/-- ADD HL leaves in HL and in the flags what the addition of its two bytes leaves. -/
theorem perform_addHL (pair : Pair) (system : System β) :
    ∃ after, Exec.perform (.addHL pair) slot start immediate taken system = .ok () after ∧
      let regs := system.cpu.regs
      let word := regs.pair pair
      let sums := addition regs.flags [(regs.l, Word.low word), (regs.h, Word.high word)]
      [after.cpu.regs.l, after.cpu.regs.h] = sums.map Stage.byte ∧
        after.cpu.regs.flags.halfCarry = (flagsAfter regs.flags sums).halfCarry ∧
        after.cpu.regs.flags.carry = (flagsAfter regs.flags sums).carry := by
  refine ⟨_, rfl, ?_⟩
  have same := addWord_eq_addition system.cpu.regs.hl (system.cpu.regs.pair pair)
    system.cpu.regs.flags
  rwa [Registers.hl, Word.low_ofBytes, Word.high_ofBytes] at same

end Instructions

/-- Addition and subtraction of bytes from the lowest up are those of the numbers that the bytes
make, up to their number of bytes; the last carry is what the bytes cannot hold, a subtraction takes
back an addition, the flags at every byte tell its direction, whether it is zero and whether its low
nibble carries or borrows, and the instructions on A and on HL are the stages of these chains. -/
theorem binary_arithmetic (flags later : Flags) (lowest : UInt8 × UInt8)
    (others : List (UInt8 × UInt8)) :
    let pairs := lowest :: others
    let modulus := 256 ^ pairs.length
    let x := binary (pairs.map Prod.fst)
    let y := binary (pairs.map Prod.snd)
    let sums := addition flags pairs
    let differences := subtraction flags pairs
    (binary (sums.map Stage.byte) = (x + y) % modulus ∧
      ((flagsAfter flags sums).carry = true ↔ modulus ≤ x + y)) ∧
    ((binary (differences.map Stage.byte) : ℤ) = ((x : ℤ) - y) % modulus ∧
      ((flagsAfter flags differences).carry = true ↔ x < y)) ∧
    (subtraction later ((sums.map Stage.byte).zip (pairs.map Prod.snd))).map Stage.byte =
      pairs.map Prod.fst ∧
    (∀ (place : ℕ) (stage : Stage (UInt8 × UInt8)), sums[place]? = some stage →
      stage.Tells false (256 ^ place * 16 ≤
        x % (256 ^ place * 16) + y % (256 ^ place * 16))) ∧
    (∀ (place : ℕ) (stage : Stage (UInt8 × UInt8)), differences[place]? = some stage →
      stage.Tells true (x % (256 ^ place * 16) < y % (256 ^ place * 16))) ∧
    (∀ {β : Type} [Bus β] (slot start immediate : UInt16) (taken : Bool) (system : System β),
      (∀ op source value found, Exec.readOperand source system = .ok value found →
        Exec.perform (.alu op source) slot start immediate taken system =
          .ok () (found.withStage
            (Stage.of (combineBytes op) found.cpu.regs.flags (found.cpu.regs.a, value)))) ∧
      (∀ op, Exec.perform (.aluByte op) slot start immediate taken system =
        .ok () (system.withStage
          (Stage.of (combineBytes op) system.cpu.regs.flags
            (system.cpu.regs.a, Word.low immediate)))) ∧
      ∀ pair, ∃ after, Exec.perform (.addHL pair) slot start immediate taken system =
          .ok () after ∧
        let regs := system.cpu.regs
        let word := regs.pair pair
        let sums := addition regs.flags [(regs.l, Word.low word), (regs.h, Word.high word)]
        [after.cpu.regs.l, after.cpu.regs.h] = sums.map Stage.byte ∧
          after.cpu.regs.flags.halfCarry = (flagsAfter regs.flags sums).halfCarry ∧
          after.cpu.regs.flags.carry = (flagsAfter regs.flags sums).carry) := by
  intro pairs modulus x y sums differences
  refine ⟨binary_addition flags lowest others, binary_subtraction flags lowest others,
    subtraction_addition flags lowest others later,
    fun _ _ here => tells_of_addition flags lowest others here,
    fun _ _ here => tells_of_subtraction flags lowest others here, ?_⟩
  intro β _ slot start immediate taken system
  exact ⟨fun op _ _ _ read => perform_alu slot start immediate taken op read,
    fun op => perform_aluByte slot start immediate taken op system,
    fun pair => perform_addHL slot start immediate taken pair system⟩

/-- The sum of 12FF and ED01 is zero, with a carry out of the word and one out of bit 11. -/
theorem binary_arithmetic_overflow :
    let pairs : List (UInt8 × UInt8) := [(0xFF, 0x01), (0x12, 0xED)]
    let sums := addition {} pairs
    binary (sums.map Stage.byte) = 0 ∧ (flagsAfter {} sums).carry = true ∧
      (flagsAfter {} sums).halfCarry = true := by
  obtain ⟨⟨total, carry⟩, -, -, tells, -⟩ :=
    binary_arithmetic {} {} (0xFF, 0x01) [(0x12, 0xED)]
  exact ⟨total, carry.mpr (by decide), (tells 1 _ rfl).2.2.mpr (by decide)⟩

end Alu
end GameBoy
