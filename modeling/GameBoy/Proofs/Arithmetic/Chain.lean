import GameBoy.Proofs.Actions
import Mathlib.Data.List.Basic
import Mathlib.Data.Nat.Digits.Defs
import Mathlib.Tactic.LinearCombination

/-!
# Chains of operations

A number of several bytes is worked on byte by byte, and each operation finds the flags that the one
before it has left.  If every operation balances its byte and the carry that it leaves against its
operands and the carry that it finds, then the whole chain balances one number against another.
-/

namespace GameBoy
namespace Alu

variable {ι : Type}

/-- What the operation on an item has left. -/
structure Stage (ι : Type) where
  item : ι
  byte : UInt8
  flags : Flags

/-- The operation on an item that finds the flags. -/
def Stage.of (operation : ι → Flags → UInt8 × Flags) (flags : Flags) (item : ι) : Stage ι :=
  ⟨item, (operation item flags).1, (operation item flags).2⟩

/-- The operation on one item after another, the first of which finds the flags. -/
def chain (operation : ι → Flags → UInt8 × Flags) : Flags → List ι → List (Stage ι)
  | _, [] => []
  | flags, item :: items =>
    let stage := Stage.of operation flags item
    stage :: chain operation stage.flags items

/-- A chain that begins with an operation of its own. -/
def chainFrom (first rest : ι → Flags → UInt8 × Flags) (flags : Flags) : List ι → List (Stage ι)
  | [] => []
  | item :: items =>
    let stage := Stage.of first flags item
    stage :: chain rest stage.flags items

/-- The flags after a chain that found some flags. -/
def flagsAfter (flags : Flags) (stages : List (Stage ι)) : Flags :=
  (stages.map Stage.flags).getLastD flags

@[simp]
theorem flagsAfter_nil (flags : Flags) : flagsAfter flags ([] : List (Stage ι)) = flags := rfl

@[simp]
theorem flagsAfter_cons (flags : Flags) (stage : Stage ι) (stages : List (Stage ι)) :
    flagsAfter flags (stage :: stages) = flagsAfter stage.flags stages := by
  rw [flagsAfter, List.map_cons, List.getLastD_cons, flagsAfter]

section Chains

variable {operation first : ι → Flags → UInt8 × Flags} {flags : Flags} {items : List ι}

theorem items_chain (operation : ι → Flags → UInt8 × Flags) (flags : Flags) (items : List ι) :
    (chain operation flags items).map Stage.item = items := by
  induction items generalizing flags with
  | nil => rfl
  | cons item items ih => rw [chain, List.map_cons, ih, Stage.of]

theorem map_item_chain {α : Type} (read : ι → α) :
    (chain operation flags items).map (fun stage => read stage.item) = items.map read := by
  have mapped := congrArg (List.map read) (items_chain operation flags items)
  rwa [List.map_map] at mapped

theorem length_chain (operation : ι → Flags → UInt8 × Flags) (flags : Flags) (items : List ι) :
    (chain operation flags items).length = items.length := by
  rw [← List.length_map Stage.item, items_chain]

/-- Every stage of a chain is the operation on its item, with the flags after the stages before. -/
theorem stage_of_chain {place : ℕ} {stage : Stage ι}
    (here : (chain operation flags items)[place]? = some stage) :
    ∃ item, items[place]? = some item ∧ (items.take place).length = place ∧
      stage = Stage.of operation (flagsAfter flags (chain operation flags (items.take place)))
        item := by
  induction items generalizing flags place with
  | nil => cases here
  | cons item items ih =>
      cases place with
      | zero => exact ⟨item, rfl, rfl, (Option.some.inj here).symm⟩
      | succ place =>
          obtain ⟨later, found, before, same⟩ := ih here
          refine ⟨later, found, congrArg (· + 1) before, ?_⟩
          rw [same, List.take_succ_cons, chain, flagsAfter_cons]

/-- What holds of the operation on each item holds of each stage. -/
theorem forall_chain {property : Stage ι → Prop}
    (each : ∀ item ∈ items, ∀ flags, property (Stage.of operation flags item)) :
    ∀ stage ∈ chain operation flags items, property stage := by
  induction items generalizing flags with
  | nil => exact List.forall_mem_nil _
  | cons item items ih =>
      obtain ⟨here, others⟩ := List.forall_mem_cons.mp each
      exact List.forall_mem_cons.mpr ⟨here flags, ih others⟩

/-- Where the first operation does what the others do on other flags, the chain is theirs. -/
theorem chainFrom_eq {clear : Flags} {item : ι} (same : first item flags = operation item clear) :
    chainFrom first operation flags (item :: items) = chain operation clear (item :: items) := by
  simp only [chainFrom, chain, Stage.of, same]

theorem flagsAfter_chain_cons (flags other : Flags) (item : ι) :
    flagsAfter flags (chain operation other (item :: items)) =
      flagsAfter other (chain operation other (item :: items)) := by
  rw [chain, flagsAfter_cons, flagsAfter_cons]

/-! ## Balance -/

/-- From the lowest item up: a balance of each stage is one of the numbers that the stages make. -/
theorem ofDigits_chain {base : ℕ} (operation : ι → Flags → UInt8 × Flags) (flags : Flags)
    (left right : Stage ι → ℕ)
    (balance : ∀ item ∈ items, ∀ flags : Flags,
      let stage := Stage.of operation flags item
      left stage + base * stage.flags.carry.toNat = right stage + flags.carry.toNat) :
    let stages := chain operation flags items
    Nat.ofDigits base (stages.map left) +
        base ^ items.length * (flagsAfter flags stages).carry.toNat =
      Nat.ofDigits base (stages.map right) + flags.carry.toNat := by
  induction items generalizing flags with
  | nil => simp [chain]
  | cons item items ih =>
      obtain ⟨here, others⟩ := List.forall_mem_cons.mp balance
      have first := here flags
      have rest := ih (Stage.of operation flags item).flags others
      dsimp only at first rest ⊢
      simp only [chain, List.map_cons, Nat.ofDigits_cons, flagsAfter_cons, List.length_cons,
        pow_succ]
      -- The carry between the first item and the others stands on both sides.
      linear_combination first + base * rest

/-- From the highest item down: the carry that a stage finds is the highest part of its operand. -/
theorem ofDigits_reverse_chain {base : ℕ} (operation : ι → Flags → UInt8 × Flags)
    (flags : Flags) (left right : Stage ι → ℕ)
    (balance : ∀ item ∈ items, ∀ flags : Flags,
      let stage := Stage.of operation flags item
      left stage + stage.flags.carry.toNat = right stage + base * flags.carry.toNat) :
    let stages := chain operation flags items
    Nat.ofDigits base (stages.reverse.map left) + (flagsAfter flags stages).carry.toNat =
      Nat.ofDigits base (stages.reverse.map right) +
        base ^ items.length * flags.carry.toNat := by
  induction items generalizing flags with
  | nil => simp [chain]
  | cons item items ih =>
      obtain ⟨here, others⟩ := List.forall_mem_cons.mp balance
      have first := here flags
      have rest := ih (Stage.of operation flags item).flags others
      dsimp only at first rest ⊢
      simp only [chain, List.reverse_cons, List.map_append, Nat.ofDigits_append,
        List.map_singleton, Nat.ofDigits_singleton, flagsAfter_cons, List.length_cons, pow_succ,
        List.length_map, List.length_reverse, length_chain]
      -- The first item is the highest digit here, above all those that the rest makes.
      linear_combination base ^ items.length * first + rest

end Chains

theorem ofDigits_map_add {α : Type} (base : ℕ) (first second : α → ℕ) (list : List α) :
    Nat.ofDigits base (list.map fun one => first one + second one) =
      Nat.ofDigits base (list.map first) + Nat.ofDigits base (list.map second) := by
  induction list with
  | nil => rfl
  | cons one list ih =>
      simp only [List.map_cons, Nat.ofDigits_cons, ih]
      ring

/-! ## Numbers of bytes -/

/-- The number whose digits in a base the bytes stand for, the lowest one first. -/
def number (base : ℕ) (digit : UInt8 → ℕ) (bytes : List UInt8) : ℕ :=
  Nat.ofDigits base (bytes.map digit)

theorem ofDigits_map_number {base : ℕ} {digit : UInt8 → ℕ} {α : Type} (read : α → UInt8)
    (list : List α) :
    Nat.ofDigits base (list.map fun one => digit (read one)) =
      number base digit (list.map read) := by
  rw [number, List.map_map]
  rfl

section Pairs

variable {base : ℕ} {digit : UInt8 → ℕ} {operation : UInt8 × UInt8 → Flags → UInt8 × Flags}
  {flags : Flags} {pairs : List (UInt8 × UInt8)}

theorem ofDigits_chain_item (read : UInt8 × UInt8 → UInt8) :
    Nat.ofDigits base ((chain operation flags pairs).map fun stage => digit (read stage.item)) =
      number base digit (pairs.map read) := by
  rw [map_item_chain fun pair => digit (read pair), ofDigits_map_number]

/-- Where each operation leaves the sum of its operands and of the carry that it finds, the chain
leaves the sum of the numbers. -/
theorem number_sums (operation : UInt8 × UInt8 → Flags → UInt8 × Flags) (flags : Flags)
    (balance : ∀ pair ∈ pairs, ∀ flags : Flags,
      digit (operation pair flags).1 + base * (operation pair flags).2.carry.toNat =
        digit pair.1 + digit pair.2 + flags.carry.toNat) :
    let sums := chain operation flags pairs
    number base digit (sums.map Stage.byte) +
        base ^ pairs.length * (flagsAfter flags sums).carry.toNat =
      number base digit (pairs.map Prod.fst) + number base digit (pairs.map Prod.snd) +
        flags.carry.toNat := by
  have total := ofDigits_chain operation flags (fun stage => digit stage.byte)
    (fun stage => digit stage.item.1 + digit stage.item.2) balance
  dsimp only at total ⊢
  rw [ofDigits_map_add, ofDigits_map_number Stage.byte, ofDigits_chain_item Prod.fst,
    ofDigits_chain_item Prod.snd] at total
  exact total

/-- Where each operation leaves the difference of its operands and of the borrow that it finds, the
chain leaves the difference of the numbers. -/
theorem number_differences (operation : UInt8 × UInt8 → Flags → UInt8 × Flags) (flags : Flags)
    (balance : ∀ pair ∈ pairs, ∀ flags : Flags,
      digit pair.1 + base * (operation pair flags).2.carry.toNat =
        digit (operation pair flags).1 + digit pair.2 + flags.carry.toNat) :
    let differences := chain operation flags pairs
    number base digit (pairs.map Prod.fst) +
        base ^ pairs.length * (flagsAfter flags differences).carry.toNat =
      number base digit (differences.map Stage.byte) + number base digit (pairs.map Prod.snd) +
        flags.carry.toNat := by
  have total := ofDigits_chain operation flags (fun stage => digit stage.item.1)
    (fun stage => digit stage.byte + digit stage.item.2) balance
  dsimp only at total ⊢
  rw [ofDigits_map_add, ofDigits_map_number Stage.byte, ofDigits_chain_item Prod.fst,
    ofDigits_chain_item Prod.snd] at total
  exact total

end Pairs

/-- The number whose bytes these are, the lowest one first. -/
def binary (bytes : List UInt8) : ℕ :=
  number 256 UInt8.toNat bytes

theorem toNat_carryBit (carry : Bool) : (carryBit carry).toNat = carry.toNat := by
  cases carry <;> rfl

theorem forall_digit_lt (bytes : List UInt8) : ∀ digit ∈ bytes.map UInt8.toNat, digit < 256 :=
  List.forall_mem_map.mpr fun byte _ => byte.toNat_lt

theorem binary_lt (bytes : List UInt8) : binary bytes < 256 ^ bytes.length := by
  rw [← List.length_map UInt8.toNat]
  exact Nat.ofDigits_lt_base_pow_length (by decide) (forall_digit_lt bytes)

theorem binary_inj {first second : List UInt8} (length : first.length = second.length)
    (same : binary first = binary second) : first = second := by
  refine List.map_injective_iff.2 (fun _ _ => UInt8.toNat_inj.mp) ?_
  exact Nat.ofDigits_inj_of_len_eq (by decide) (by simpa using length) (forall_digit_lt first)
    (forall_digit_lt second) same

/-- The low nibble of a byte and the bytes below it. -/
theorem binary_mod {bytes : List UInt8} {place : ℕ} {byte : UInt8}
    (here : bytes[place]? = some byte) :
    binary bytes % (256 ^ place * 16) =
      binary (bytes.take place) + 256 ^ place * (byte.toNat % 16) := by
  obtain ⟨inside, rfl⟩ := List.getElem?_eq_some_iff.mp here
  have split : bytes.drop place = bytes[place] :: bytes.drop (place + 1) :=
    List.drop_eq_getElem_cons inside
  rw [binary, number, Nat.mod_mul,
    Nat.ofDigits_mod_pow_eq_ofDigits_take place (by decide) _ (forall_digit_lt bytes),
    Nat.ofDigits_div_pow_eq_ofDigits_drop place (by decide) _ (forall_digit_lt bytes),
    ← List.map_take, ← List.map_drop, split, List.map_cons, Nat.ofDigits_cons, binary, number]
  congr 2
  omega

/-! ## Settling a balance -/

theorem below_iff {result modulus low high : ℕ} (small : result < modulus) :
    result + modulus * low < modulus * high ↔ low < high := by
  constructor
  · intro below
    exact Nat.lt_of_mul_lt_mul_left (Nat.lt_of_le_of_lt (Nat.le_add_left _ result) below)
  · intro lower
    have whole : modulus * (low + 1) ≤ modulus * high := Nat.mul_le_mul_left modulus lower
    rw [Nat.mul_succ] at whole
    omega

/-- A result below the modulus is the total without what the carry stands for. -/
theorem settle_sum {result total modulus : ℕ} {carry : Bool} (small : result < modulus)
    (balance : result + modulus * carry.toNat = total) :
    result = total % modulus ∧ (carry = true ↔ modulus ≤ total) := by
  subst balance
  cases carry with
  | false => simp [Nat.mod_eq_of_lt small, small]
  | true => simp [Nat.mod_eq_of_lt small]

/-- A result below the modulus is the difference, with the modulus borrowed if the carry says so. -/
theorem settle_difference {result minuend subtrahend modulus : ℕ} {borrow : Bool}
    (small : result < modulus)
    (balance : minuend + modulus * borrow.toNat = result + subtrahend) :
    (result : ℤ) = ((minuend : ℤ) - subtrahend) % modulus ∧
      (borrow = true ↔ minuend < subtrahend) := by
  cases borrow with
  | false =>
      have difference : (minuend : ℤ) - subtrahend = result := by
        simp at balance
        omega
      rw [difference, Int.emod_eq_of_lt (by omega) (by omega)]
      simp at balance ⊢
      omega
  | true =>
      have difference : (minuend : ℤ) - subtrahend = result - modulus := by
        simp at balance
        omega
      rw [difference, Int.sub_emod_right, Int.emod_eq_of_lt (by omega) (by omega)]
      simp at balance ⊢
      omega

end Alu

/-! ## Stages as instructions -/

/-- The system with what a stage has left in A and in the flags. -/
def System.withStage {β ι : Type} (system : System β) (stage : Alu.Stage ι) : System β :=
  { system with
    cpu.regs := { system.cpu.regs with a := stage.byte, flags := stage.flags } }

end GameBoy
