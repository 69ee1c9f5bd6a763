import GameBoy.Proofs.Arithmetic.Chain
import Mathlib.Data.Nat.Bitwise

/-!
# Shifts and rotations of several bytes

A number of several bytes is shifted byte by byte, to the left from the lowest byte up and to the
right from the highest one down, and the carry flag hands the bit that leaves one byte to the next.
-/

namespace GameBoy

open Effect

namespace Alu

/-- A shift or rotation of a byte with the carry among the flags. -/
def shiftByte (op : ShiftOp) (byte : UInt8) (flags : Flags) : UInt8 × Flags :=
  shift op byte flags.carry

/-- SLA on the lowest byte, which is the first, and RL on the others. -/
def shiftLeft (flags : Flags) (bytes : List UInt8) : List (Stage UInt8) :=
  chainFrom (shiftByte .sla) (shiftByte .rl) flags bytes

/-- A shift of the highest byte, which is the last, and RR on the others, down to the lowest. -/
def shiftRight (op : ShiftOp) (flags : Flags) (bytes : List UInt8) : List (Stage UInt8) :=
  chainFrom (shiftByte op) (shiftByte .rr) flags bytes.reverse

/-! ## One byte -/

theorem eq_of_toNat_eq {first second : Bool} (same : first.toNat = second.toNat) :
    first = second := by
  cases first <;> cases second <;> first | rfl | cases same

section Bits

variable {byte mask : UInt8} (index : ℕ)

/-- A byte has a bit in common with the mask of the bit if the bit is set. -/
theorem and_ne_zero (single : mask.toNat = 2 ^ index) :
    (byte &&& mask != 0) = byte.toNat.testBit index := by
  have masked : (byte &&& mask).toNat = (byte.toNat.testBit index).toNat * 2 ^ index := by
    rw [UInt8.toNat_and, single, Nat.and_two_pow]
  rw [Bool.eq_iff_iff, bne_iff_ne, Ne, ← UInt8.toNat_inj, masked]
  cases byte.toNat.testBit index <;> simp

theorem toNat_and_ne_zero (single : mask.toNat = 2 ^ index) :
    (byte &&& mask != 0).toNat = byte.toNat / 2 ^ index % 2 := by
  rw [and_ne_zero index single, Nat.toNat_testBit]

end Bits

theorem toNat_carryBit_shiftLeft (carry : Bool) :
    (carryBit carry <<< 7).toNat = 2 ^ 7 * carry.toNat := by
  cases carry <;> rfl

/-- The top bit of a byte alone is its carry in the place of the top bit. -/
theorem and_top (byte : UInt8) : byte &&& (0x80 : UInt8) = carryBit (byte &&& 0x80 != 0) <<< 7 := by
  rw [← UInt8.toNat_inj, toNat_carryBit_shiftLeft, and_ne_zero 7 rfl, UInt8.toNat_and,
    mul_comm]
  exact Nat.and_two_pow byte.toNat 7

/-- RL doubles the byte and takes in the carry. -/
theorem balance_rl (byte : UInt8) (carryIn : Bool) :
    (shift .rl byte carryIn).1.toNat + 256 * (shift .rl byte carryIn).2.carry.toNat =
      2 * byte.toNat + carryIn.toNat := by
  have small : byte.toNat < 256 := byte.toNat_lt
  have bit : carryIn.toNat < 2 ^ 1 := Bool.toNat_lt carryIn
  have doubled : (byte <<< 1).toNat = 2 ^ 1 * (byte.toNat % 128) := by
    rw [UInt8.toNat_shiftLeft, Nat.shiftLeft_eq]
    simp
    omega
  have value : (shift .rl byte carryIn).1.toNat = 2 ^ 1 * (byte.toNat % 128) + carryIn.toNat := by
    simp only [shift, shiftValue]
    rw [UInt8.toNat_or, toNat_carryBit, doubled, Nat.two_pow_add_eq_or_of_lt bit]
  have out : (shift .rl byte carryIn).2.carry.toNat = byte.toNat / 2 ^ 7 % 2 :=
    toNat_and_ne_zero _ rfl
  rw [value, out]
  omega

/-- RR halves the byte with the carry above it. -/
theorem balance_rr (byte : UInt8) (carryIn : Bool) :
    2 * (shift .rr byte carryIn).1.toNat + (shift .rr byte carryIn).2.carry.toNat =
      byte.toNat + 256 * carryIn.toNat := by
  have small : byte.toNat / 2 < 2 ^ 7 := by
    have below : byte.toNat < 256 := byte.toNat_lt
    omega
  have halved : (byte >>> 1).toNat = byte.toNat / 2 := by
    rw [UInt8.toNat_shiftRight, Nat.shiftRight_eq_div_pow]
    rfl
  have value : (shift .rr byte carryIn).1.toNat = 2 ^ 7 * carryIn.toNat + byte.toNat / 2 := by
    simp only [shift, shiftValue]
    rw [UInt8.toNat_or, toNat_carryBit_shiftLeft, halved, Nat.two_pow_add_eq_or_of_lt small,
      Nat.or_comm]
  have out : (shift .rr byte carryIn).2.carry.toNat = byte.toNat / 2 ^ 0 % 2 :=
    toNat_and_ne_zero _ rfl
  rw [value, out]
  omega

/-- RLC and RRC take each other back, and SWAP takes back itself. -/
theorem shift_shift {op back : ShiftOp} (byte : UInt8) (carry later : Bool)
    (opposite : (op, back) ∈ [(.rlc, .rrc), (.rrc, .rlc), (.swap, .swap)]) :
    (shift back (shift op byte carry).1 later).1 = byte := by
  simp only [List.mem_cons, Prod.mk.injEq, List.not_mem_nil, or_false] at opposite
  apply UInt8.toBitVec_inj.mp
  rcases opposite with ⟨rfl, rfl⟩ | ⟨rfl, rfl⟩ | ⟨rfl, rfl⟩ <;>
  · simp only [shift, shiftValue, UInt8.toBitVec_or, UInt8.toBitVec_shiftLeft,
      UInt8.toBitVec_shiftRight]
    ext i _
    simp
    grind

/-! ## Several bytes -/

theorem ofDigits_map_mul {α : Type} (base factor : ℕ) (value : α → ℕ) (list : List α) :
    Nat.ofDigits base (list.map fun one => factor * value one) =
      factor * Nat.ofDigits base (list.map value) := by
  rw [Nat.mul_ofDigits, List.map_map]
  rfl

theorem pow_length_eq {bytes : List UInt8} (some : bytes ≠ []) :
    256 ^ bytes.length = 2 * 2 ^ (8 * bytes.length - 1) := by
  have positive := List.length_pos_iff.mpr some
  rw [← pow_succ', show 256 = 2 ^ 8 from rfl, ← pow_mul]
  congr 1
  omega

/-- The top bit of a number says whether it is in the upper half of its range. -/
theorem testBit_top {bytes : List UInt8} (some : bytes ≠ []) :
    (binary bytes).testBit (8 * bytes.length - 1) = true ↔
      256 ^ bytes.length ≤ 2 * binary bytes := by
  have small := binary_lt bytes
  rw [pow_length_eq some] at small ⊢
  rw [Nat.testBit_eq_decide_div_mod_eq, decide_eq_true_iff]
  generalize 2 ^ (8 * bytes.length - 1) = half at small ⊢
  rcases lt_or_ge (binary bytes) half with below | above
  · rw [Nat.div_eq_of_lt below]
    omega
  · rw [Nat.div_eq_of_lt_le (k := 1) (by omega) (by omega)]
    omega

/-- The top bit of the highest byte is that of the number. -/
theorem top_of_highest {bytes others : List UInt8} {highest : UInt8}
    (down : bytes.reverse = highest :: others) :
    (highest &&& 0x80 != 0) = true ↔ 256 ^ bytes.length ≤ 2 * binary bytes := by
  have small := highest.toNat_lt
  have rest := binary_lt others.reverse
  obtain rfl : bytes = others.reverse ++ [highest] := by
    rw [← List.reverse_cons, ← down, List.reverse_reverse]
  have split : binary (others.reverse ++ [highest]) =
      binary others.reverse + 256 ^ others.reverse.length * highest.toNat := by
    simp only [binary, number, List.map_append, Nat.ofDigits_append, List.length_map,
      List.map_singleton, Nat.ofDigits_singleton]
  have below : 2 * binary others.reverse + 2 * 256 ^ others.reverse.length * highest.toNat <
      2 * 256 ^ others.reverse.length * 128 ↔ highest.toNat < 128 :=
    below_iff (Nat.mul_lt_mul_of_pos_left rest (by decide))
  rw [and_ne_zero 7 rfl, Nat.testBit_eq_decide_div_mod_eq, decide_eq_true_iff, split,
    List.length_append, List.length_singleton, pow_succ 256]
  simp only [mul_assoc] at below
  omega

/-- A half with its remainder. -/
theorem halve {half number : ℕ} {carry : Bool} (balance : 2 * half + carry.toNat = number) :
    half = number / 2 ∧ carry = number.testBit 0 := by
  have bit := Bool.toNat_le carry
  refine ⟨by omega, eq_of_toNat_eq ?_⟩
  rw [Nat.toNat_testBit]
  omega

/-- A half of a number with its sign in front of it is the half of the signed number. -/
theorem bmod_halve {half number middle : ℕ} {sign carry : Bool} (small : number < 2 * middle)
    (upper : sign = true ↔ 2 * middle ≤ 2 * number)
    (balance : 2 * half + carry.toNat = number + 2 * middle * sign.toNat) :
    Int.bmod half (2 * middle) = Int.bmod number (2 * middle) / 2 := by
  have bit := Bool.toNat_le carry
  cases sign with
  | false =>
      simp only [Bool.false_eq_true, false_iff, Bool.toNat_false] at upper balance
      rw [Int.bmod_eq_of_le (by omega) (by omega), Int.bmod_eq_of_le (by omega) (by omega)]
      omega
  | true =>
      simp only [true_iff, Bool.toNat_true] at upper balance
      rw [← Int.sub_bmod_right half, ← Int.sub_bmod_right number,
        Int.bmod_eq_of_le (by omega) (by omega), Int.bmod_eq_of_le (by omega) (by omega)]
      omega

section Several

variable (flags : Flags) (bytes : List UInt8)

/-- Rotations to the left double the number and take in the carry. -/
theorem binary_rl_chain :
    let rotated := chain (shiftByte .rl) flags bytes
    binary (rotated.map Stage.byte) +
        256 ^ bytes.length * (flagsAfter flags rotated).carry.toNat =
      2 * binary bytes + flags.carry.toNat := by
  have total := ofDigits_chain (shiftByte .rl) flags (fun stage => stage.byte.toNat)
    (fun stage => 2 * stage.item.toNat)
    fun byte (_ : byte ∈ bytes) flags => balance_rl byte flags.carry
  dsimp only at total ⊢
  rw [ofDigits_map_mul, ofDigits_map_number Stage.byte, map_item_chain UInt8.toNat] at total
  exact total

/-- Rotations to the right halve the number with the carry above it. -/
theorem binary_rr_chain :
    let rotated := chain (shiftByte .rr) flags bytes.reverse
    2 * binary (rotated.map Stage.byte).reverse + (flagsAfter flags rotated).carry.toNat =
      binary bytes + 256 ^ bytes.length * flags.carry.toNat := by
  have total := ofDigits_reverse_chain (shiftByte .rr) flags
    (fun stage => 2 * stage.byte.toNat) (fun stage => stage.item.toNat)
    fun byte (_ : byte ∈ bytes.reverse) flags => balance_rr byte flags.carry
  dsimp only at total ⊢
  rw [ofDigits_map_mul, ofDigits_map_number Stage.byte, ofDigits_map_number Stage.item,
    List.map_reverse, List.map_reverse, items_chain, List.reverse_reverse,
    List.length_reverse] at total
  exact total

theorem length_rotated (op : ShiftOp) :
    ((chain (shiftByte op) flags bytes.reverse).map Stage.byte).reverse.length = bytes.length := by
  rw [List.length_reverse, List.length_map, length_chain, List.length_reverse]

/-- Rotating to the right takes back what rotating to the left has done. -/
theorem rr_chain_rl_chain :
    let ups := chain (shiftByte .rl) flags bytes
    let between := flagsAfter flags ups
    let downs := chain (shiftByte .rr) between (ups.map Stage.byte).reverse
    (downs.map Stage.byte).reverse = bytes ∧ (flagsAfter between downs).carry = flags.carry := by
  intro ups between downs
  have length : (ups.map Stage.byte).length = bytes.length := by
    rw [List.length_map, length_chain]
  have up : binary (ups.map Stage.byte) + 256 ^ bytes.length * between.carry.toNat =
      2 * binary bytes + flags.carry.toNat := binary_rl_chain flags bytes
  have down : 2 * binary (downs.map Stage.byte).reverse +
      (flagsAfter between downs).carry.toNat =
        binary (ups.map Stage.byte) + 256 ^ bytes.length * between.carry.toNat := by
    rw [← length]
    exact binary_rr_chain between (ups.map Stage.byte)
  have first := Bool.toNat_le flags.carry
  have last := Bool.toNat_le (flagsAfter between downs).carry
  refine ⟨binary_inj ?_ (by omega), eq_of_toNat_eq (by omega)⟩
  rw [length_rotated, length]

variable {bytes}

/-- A shift to the left doubles the number and hands out its top bit. -/
theorem binary_shiftLeft (some : bytes ≠ []) :
    let shifted := shiftLeft flags bytes
    binary (shifted.map Stage.byte) = 2 * binary bytes % 256 ^ bytes.length ∧
      (flagsAfter flags shifted).carry = (binary bytes).testBit (8 * bytes.length - 1) := by
  obtain ⟨lowest, others, rfl⟩ := List.exists_cons_of_ne_nil some
  have start : shiftByte .sla lowest flags = shiftByte .rl lowest {} := by
    simp [shiftByte, shift, shiftValue, shiftCarry, carryBit]
  dsimp only
  rw [shiftLeft, chainFrom_eq start, flagsAfter_chain_cons]
  have small := binary_lt ((chain (shiftByte .rl) {} (lowest :: others)).map Stage.byte)
  rw [List.length_map, length_chain] at small
  obtain ⟨value, carry⟩ := settle_sum small (binary_rl_chain {} (lowest :: others))
  refine ⟨value, ?_⟩
  rw [Bool.eq_iff_iff, carry, testBit_top some]
  exact Iff.rfl

/-- A shift to the right as an unsigned number halves it and hands out its lowest bit. -/
theorem binary_shiftRight_srl (some : bytes ≠ []) :
    let shifted := shiftRight .srl flags bytes
    binary (shifted.map Stage.byte).reverse = binary bytes / 2 ∧
      (flagsAfter flags shifted).carry = (binary bytes).testBit 0 := by
  obtain ⟨highest, others, down⟩ := List.exists_cons_of_ne_nil (List.reverse_ne_nil_iff.mpr some)
  have start : shiftByte .srl highest flags = shiftByte .rr highest {} := by
    simp [shiftByte, shift, shiftValue, shiftCarry, carryBit]
  have total := binary_rr_chain {} bytes
  dsimp only at total ⊢
  rw [shiftRight, down, chainFrom_eq start, flagsAfter_chain_cons, ← down]
  exact halve total

/-- A shift to the right as a two's complement number halves it and hands out its lowest bit. -/
theorem binary_shiftRight_sra (some : bytes ≠ []) :
    let shifted := shiftRight .sra flags bytes
    let modulus := 256 ^ bytes.length
    Int.bmod (binary (shifted.map Stage.byte).reverse) modulus =
        Int.bmod (binary bytes) modulus / 2 ∧
      (flagsAfter flags shifted).carry = (binary bytes).testBit 0 := by
  obtain ⟨highest, others, down⟩ := List.exists_cons_of_ne_nil (List.reverse_ne_nil_iff.mpr some)
  have start : shiftByte .sra highest flags =
      shiftByte .rr highest { carry := highest &&& 0x80 != 0 } := by
    simp only [shiftByte, shift, shiftValue, shiftCarry]
    rw [← and_top]
  have total := binary_rr_chain { carry := highest &&& 0x80 != 0 } bytes
  dsimp only at total ⊢
  rw [shiftRight, down, chainFrom_eq start, flagsAfter_chain_cons, ← down]
  have small := binary_lt bytes
  have upper := top_of_highest down
  rw [pow_length_eq some] at total small upper ⊢
  refine ⟨bmod_halve small upper total, ?_⟩
  rw [(halve total).2, Nat.testBit_zero, Nat.testBit_zero, mul_assoc, Nat.add_mul_mod_self_left]

end Several

/-! ## Instructions -/

/-- A shift or rotation takes the byte of its operand and the flags for a stage, and writes the byte
of the stage back. -/
theorem perform_shift {β : Type} [Bus β] {system found : System β} {value : UInt8}
    {target : Operand} (slot start immediate : UInt16) (taken : Bool) (op : ShiftOp)
    (read : Exec.readOperand target system = .ok value found) :
    let stage := Stage.of (shiftByte op) found.cpu.regs.flags value
    Exec.perform (.shift op target) slot start immediate taken system =
      Exec.writeOperand target stage.byte { found with cpu.regs.flags := stage.flags } := by
  rw [Exec.perform, bind_of_ok read]
  rfl

/-- A shift of bytes doubles or halves the number that they make, as an unsigned number or as one in
two's complement, and hands out the bit that it drops; rotations to the right take back rotations to
the left with the carry, on a byte RLC, RRC and SWAP have inverses, and the instructions are the
stages of these chains. -/
theorem shifts_and_rotations (flags : Flags) (bytes : List UInt8) (some : bytes ≠ []) :
    let x := binary bytes
    let modulus := 256 ^ bytes.length
    let left := shiftLeft flags bytes
    let unsigned := shiftRight .srl flags bytes
    let signed := shiftRight .sra flags bytes
    let ups := chain (shiftByte .rl) flags bytes
    let between := flagsAfter flags ups
    let downs := chain (shiftByte .rr) between (ups.map Stage.byte).reverse
    (binary (left.map Stage.byte) = 2 * x % modulus ∧
      (flagsAfter flags left).carry = x.testBit (8 * bytes.length - 1)) ∧
    (binary (unsigned.map Stage.byte).reverse = x / 2 ∧
      (flagsAfter flags unsigned).carry = x.testBit 0) ∧
    (Int.bmod (binary (signed.map Stage.byte).reverse) modulus = Int.bmod x modulus / 2 ∧
      (flagsAfter flags signed).carry = x.testBit 0) ∧
    ((downs.map Stage.byte).reverse = bytes ∧ (flagsAfter between downs).carry = flags.carry) ∧
    (∀ op back byte carry later, (op, back) ∈ [(.rlc, .rrc), (.rrc, .rlc), (.swap, .swap)] →
      (shift back (shift op byte carry).1 later).1 = byte) ∧
    ∀ {β : Type} [Bus β] (slot start immediate : UInt16) (taken : Bool) (op : ShiftOp)
      (target : Operand) (system found : System β) (value : UInt8),
      Exec.readOperand target system = .ok value found →
        let stage := Stage.of (shiftByte op) found.cpu.regs.flags value
        Exec.perform (.shift op target) slot start immediate taken system =
          Exec.writeOperand target stage.byte { found with cpu.regs.flags := stage.flags } := by
  intro x modulus left unsigned signed ups between downs
  refine ⟨binary_shiftLeft flags some, binary_shiftRight_srl flags some,
    binary_shiftRight_sra flags some, rr_chain_rl_chain flags bytes,
    fun op back byte carry later => shift_shift byte carry later, ?_⟩
  intro β _ slot start immediate taken op target system found value
  exact perform_shift slot start immediate taken op

/-- The word 8001 doubles to 2, and halves to 4000 or to C000 with its sign, each with a carry. -/
theorem shifts_and_rotations_8001 :
    let bytes : List UInt8 := [0x01, 0x80]
    (binary ((shiftLeft {} bytes).map Stage.byte) = 2 ∧
      (flagsAfter {} (shiftLeft {} bytes)).carry = true) ∧
    (binary ((shiftRight .srl {} bytes).map Stage.byte).reverse = 0x4000 ∧
      (flagsAfter {} (shiftRight .srl {} bytes)).carry = true) ∧
    Int.bmod (binary ((shiftRight .sra {} bytes).map Stage.byte).reverse) (256 ^ bytes.length) =
      -0x4000 := by
  obtain ⟨⟨doubled, top⟩, ⟨halved, lowest⟩, ⟨signed, -⟩, -⟩ :=
    shifts_and_rotations {} [0x01, 0x80] (by decide)
  exact ⟨⟨doubled, top⟩, ⟨halved, lowest⟩, signed.trans (by decide)⟩

end Alu
end GameBoy
