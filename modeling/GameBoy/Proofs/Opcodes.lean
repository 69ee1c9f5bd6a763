import GameBoy.Proofs.Fetch

/-!
# The opcode table

The table says of each slot, in numbers alone, how many bytes its instruction has, under which flags
it goes ahead, how many cycles it takes and where it leads.  The instructions that the slots decode
to agree with it.
-/

namespace GameBoy

/-- Where an instruction leads when it goes ahead. -/
inductive Course where
  /-- To the instruction behind it. -/
  | onward
  /-- To an address relative to the one behind it. -/
  | relative
  /-- To the address in its last two bytes. -/
  | absolute
  /-- To the address in HL. -/
  | pointed
  /-- To the address in its last two bytes, and back in the end. -/
  | call
  /-- To a fixed address, and back in the end. -/
  | restart (target : UInt16)
  /-- To the address on the stack. -/
  | back
deriving DecidableEq

namespace Slot

/-- A slot of one of the two pages, the second counted from 0x100.  The escape byte stands for the
second page and is not a slot. -/
def Valid (slot : UInt16) : Prop :=
  slot < 0x200 ∧ slot ≠ 0xCB

instance (slot : UInt16) : Decidable (Valid slot) :=
  inferInstanceAs (Decidable (_ ∧ _))

/-- A slot that holds an instruction. -/
def Legal (slot : UInt16) : Prop :=
  Valid slot ∧
    slot.toNat ∉ [0xD3, 0xDB, 0xDD, 0xE3, 0xE4, 0xEB, 0xEC, 0xED, 0xF4, 0xFC, 0xFD]

instance (slot : UInt16) : Decidable (Legal slot) :=
  inferInstanceAs (Decidable (_ ∧ _))

/-! ## The table -/

/-- The entry for a slot of the first page in a table with a row for each upper half of a byte and a
column for each lower half. -/
def entry (table : List (List Nat)) (slot : UInt16) : Nat :=
  (table.getD (slot.toNat / 16) []).getD (slot.toNat % 16) 0

/-- The numbers of bytes of the instructions on the first page. -/
def lengths : List (List Nat) :=
  [[1, 3, 1, 1, 1, 1, 2, 1, 3, 1, 1, 1, 1, 1, 2, 1],
   [2, 3, 1, 1, 1, 1, 2, 1, 2, 1, 1, 1, 1, 1, 2, 1],
   [2, 3, 1, 1, 1, 1, 2, 1, 2, 1, 1, 1, 1, 1, 2, 1],
   [2, 3, 1, 1, 1, 1, 2, 1, 2, 1, 1, 1, 1, 1, 2, 1]] ++
  List.replicate 8 (List.replicate 16 1) ++
  [[1, 1, 3, 3, 3, 1, 2, 1, 1, 1, 3, 1, 3, 3, 2, 1],
   [1, 1, 3, 1, 3, 1, 2, 1, 1, 1, 3, 1, 3, 1, 2, 1],
   [2, 1, 1, 1, 1, 1, 2, 1, 2, 1, 3, 1, 1, 1, 2, 1],
   [2, 1, 1, 1, 1, 1, 2, 1, 2, 1, 3, 1, 1, 1, 2, 1]]

/-- The number of bytes of the instruction in a slot. -/
def length (slot : UInt16) : Nat :=
  if slot < 0x100 then entry lengths slot else 2

/-- The bytes of the instruction in a slot: an opcode with the bytes of an immediate word as far as
it has them, low byte first, or the escape byte and an opcode. -/
def bytes (slot immediate : UInt16) : List UInt8 :=
  if slot < 0x100 then
    [slot.toUInt8, immediate.toUInt8, (immediate >>> 8).toUInt8].take (length slot)
  else
    [0xCB, slot.toUInt8]

/-- The instruction in a slot goes ahead under the flags. -/
def goesAhead (slot : UInt16) (flags : Flags) : Bool :=
  if slot.toNat ∈ [0x20, 0xC0, 0xC2, 0xC4] then !flags.zero
  else if slot.toNat ∈ [0x28, 0xC8, 0xCA, 0xCC] then flags.zero
  else if slot.toNat ∈ [0x30, 0xD0, 0xD2, 0xD4] then !flags.carry
  else if slot.toNat ∈ [0x38, 0xD8, 0xDA, 0xDC] then flags.carry
  else true

/-- The cycles of the instructions on the first page that go ahead. -/
def costs : List (List Nat) :=
  [[4, 12, 8, 8, 4, 4, 8, 4, 20, 8, 8, 8, 4, 4, 8, 4],
   [4, 12, 8, 8, 4, 4, 8, 4, 12, 8, 8, 8, 4, 4, 8, 4],
   [12, 12, 8, 8, 4, 4, 8, 4, 12, 8, 8, 8, 4, 4, 8, 4],
   [12, 12, 8, 8, 12, 12, 12, 4, 12, 8, 8, 8, 4, 4, 8, 4],
   [4, 4, 4, 4, 4, 4, 8, 4, 4, 4, 4, 4, 4, 4, 8, 4],
   [4, 4, 4, 4, 4, 4, 8, 4, 4, 4, 4, 4, 4, 4, 8, 4],
   [4, 4, 4, 4, 4, 4, 8, 4, 4, 4, 4, 4, 4, 4, 8, 4],
   [8, 8, 8, 8, 8, 8, 4, 8, 4, 4, 4, 4, 4, 4, 8, 4],
   [4, 4, 4, 4, 4, 4, 8, 4, 4, 4, 4, 4, 4, 4, 8, 4],
   [4, 4, 4, 4, 4, 4, 8, 4, 4, 4, 4, 4, 4, 4, 8, 4],
   [4, 4, 4, 4, 4, 4, 8, 4, 4, 4, 4, 4, 4, 4, 8, 4],
   [4, 4, 4, 4, 4, 4, 8, 4, 4, 4, 4, 4, 4, 4, 8, 4],
   [20, 12, 16, 16, 24, 16, 8, 16, 20, 16, 16, 4, 24, 24, 8, 16],
   [20, 12, 16, 4, 24, 16, 8, 16, 20, 16, 16, 4, 24, 4, 8, 16],
   [12, 12, 8, 4, 4, 16, 8, 16, 16, 4, 16, 4, 4, 4, 8, 16],
   [12, 12, 8, 4, 4, 16, 8, 16, 12, 8, 16, 4, 4, 4, 8, 16]]

/-- The cycles of the instruction in a slot when it goes ahead or not. -/
def cost (slot : UInt16) (goes : Bool) : Nat :=
  if !goes && slot.toNat ∈ [0x20, 0x28, 0x30, 0x38, 0xC0, 0xC8, 0xD0, 0xD8] then 8
  else if !goes && slot.toNat ∈ [0xC2, 0xCA, 0xD2, 0xDA, 0xC4, 0xCC, 0xD4, 0xDC] then 12
  else if slot < 0x100 then entry costs slot
  else if slot.toNat % 8 ≠ 6 then 8
  else if slot.toNat / 64 = 5 then 12
  else 16

/-- Where the instruction in a slot leads. -/
def course (slot : UInt16) : Course :=
  if slot.toNat ∈ [0x18, 0x20, 0x28, 0x30, 0x38] then .relative
  else if slot.toNat ∈ [0xC3, 0xC2, 0xCA, 0xD2, 0xDA] then .absolute
  else if slot = 0xE9 then .pointed
  else if slot.toNat ∈ [0xCD, 0xC4, 0xCC, 0xD4, 0xDC] then .call
  else if slot.toNat ∈ [0xC7, 0xCF, 0xD7, 0xDF, 0xE7, 0xEF, 0xF7, 0xFF] then .restart (slot - 0xC7)
  else if slot.toNat ∈ [0xC9, 0xD9, 0xC0, 0xC8, 0xD0, 0xD8] then .back
  else .onward

/-- The word to be added for a byte read as a two's complement number. -/
def displacement (offset : UInt8) : UInt16 :=
  if offset < 0x80 then offset.toUInt16 else offset.toUInt16 - 0x100

theorem ofSigned_eq_displacement (offset : UInt8) : Word.ofSigned offset = displacement offset :=
  forall_byte offset (by decide +kernel)

/-! ## Agreement -/

/-- What holds of each number below 0x200 holds of every slot. -/
@[elab_as_elim]
theorem forall_slot {motive : UInt16 → Prop} {slot : UInt16} (inside : slot < 0x200)
    (all : ∀ index : Fin 0x200, motive (UInt16.ofNat index)) : motive slot := by
  have here := all ⟨slot.toNat, inside⟩
  rwa [UInt16.ofNat_toNat] at here

end Slot

/-- Where an instruction leads. -/
def Instruction.course : Instruction → Course
  | .jr _ => .relative
  | .jp _ => .absolute
  | .jpHL => .pointed
  | .call _ => .call
  | .rst target => .restart (UInt16.ofNat (8 * target.val))
  | .ret _ | .reti => .back
  | _ => .onward

namespace Slot

variable {slot : UInt16}

theorem isIllegal_ofSlot (inside : slot < 0x200) :
    (Instruction.ofSlot slot).isIllegal = !decide (Legal slot) :=
  forall_slot inside (by decide +kernel)

theorem isIllegal_ofSlot_of_legal (legal : Legal slot) :
    (Instruction.ofSlot slot).isIllegal = false := by
  rw [isIllegal_ofSlot legal.1.1, decide_eq_true legal]
  rfl

theorem legal_of_isIllegal (valid : Valid slot)
    (known : (Instruction.ofSlot slot).isIllegal = false) : Legal slot := by
  rw [isIllegal_ofSlot valid.1, Bool.not_eq_false'] at known
  exact of_decide_eq_true known

theorem ofSlot_eq_halt_iff (inside : slot < 0x200) :
    Instruction.ofSlot slot = .halt ↔ slot = 0x76 :=
  forall_slot inside (by decide +kernel)

theorem course_ofSlot (inside : slot < 0x200) :
    (Instruction.ofSlot slot).course = course slot :=
  forall_slot inside (by decide +kernel)

theorem taken_ofSlot (inside : slot < 0x200) (flags : Flags) :
    (Instruction.ofSlot slot).taken flags = goesAhead slot flags := by
  have all : ∀ zero carry : Bool,
      (Instruction.ofSlot slot).taken { zero, carry } = goesAhead slot { zero, carry } :=
    forall_slot inside (by decide +kernel)
  refine Eq.trans ?_ (all flags.zero flags.carry)
  rw [Instruction.taken, Instruction.taken]
  cases (Instruction.ofSlot slot).condition? with
  | none => rfl
  | some condition => cases condition <;> rfl

theorem cost_ofSlot (inside : slot < 0x200) (flags : Flags) :
    let instruction := Instruction.ofSlot slot
    instruction.cost (instruction.taken flags) = cost slot (goesAhead slot flags) := by
  have all : ∀ zero carry : Bool, (Instruction.ofSlot slot).cost (goesAhead slot { zero, carry }) =
      cost slot (goesAhead slot { zero, carry }) :=
    forall_slot inside (by decide +kernel)
  intro instruction
  rw [taken_ofSlot inside]
  exact all flags.zero flags.carry

theorem cost_mem (inside : slot < 0x200) (goes : Bool) :
    cost slot goes ∈ [4, 8, 12, 16, 20, 24] := by
  revert goes
  exact forall_slot inside (by decide +kernel)

/-! ## Bytes -/

theorem size_ofSlot (inside : slot < 0x200) :
    (Instruction.slotBytes slot).length + (Instruction.ofSlot slot).immediate.size = length slot :=
  forall_slot inside (by decide +kernel)

theorem encoding_eq_bytes (inside : slot < 0x200) (immediate : UInt16) :
    Instruction.encoding slot immediate = bytes slot immediate := by
  have size := size_ofSlot inside
  rw [Instruction.encoding, bytes, ← size, Instruction.slotBytes]
  by_cases first : slot < 0x100
  · rw [if_pos first, if_pos first]
    cases (Instruction.ofSlot slot).immediate <;> rfl
  · rw [Instruction.slotBytes, length, if_neg first, if_neg first] at size
    have bare : (Instruction.ofSlot slot).immediate.size = 0 := by simpa using size
    rw [if_neg first, if_neg first]
    cases kind : (Instruction.ofSlot slot).immediate with
    | none => rfl
    | signed8 | unsigned8 | unsigned16 =>
        rw [kind] at bare
        cases bare

theorem length_bytes (inside : slot < 0x200) (immediate : UInt16) :
    (bytes slot immediate).length = length slot := by
  rw [← encoding_eq_bytes inside, Instruction.encoding, List.length_append,
    Instruction.immediateBytes_length, size_ofSlot inside]

/-- The bytes of a slot settle as much of the immediate as the instruction has. -/
theorem immediateBytes_of_bytes (inside : slot < 0x200) {immediate word : UInt16}
    (same : bytes slot word = bytes slot immediate) :
    let kind := (Instruction.ofSlot slot).immediate
    Instruction.immediateBytes kind word = Instruction.immediateBytes kind immediate := by
  rw [← encoding_eq_bytes inside, ← encoding_eq_bytes inside] at same
  exact List.append_cancel_left same

/-- A slot is its opcode, on the first page or on the second. -/
theorem eq_toUInt8 (inside : slot < 0x200) :
    slot = if slot < 0x100 then slot.toUInt8.toUInt16 else 0x100 ||| slot.toUInt8.toUInt16 :=
  forall_slot inside (by decide +kernel)

/-- The first byte is the opcode of the slot, or the escape byte before it. -/
theorem split_bytes (valid : Valid slot) {immediate : UInt16} {first : UInt8} {rest : List UInt8}
    (split : bytes slot immediate = first :: rest) :
    (first ≠ 0xCB ∧ slot = first.toUInt16) ∨
      (first = 0xCB ∧ ∃ opcode : UInt8, rest = [opcode] ∧ slot = 0x100 ||| opcode.toUInt16) := by
  have whole := eq_toUInt8 valid.1
  rw [bytes] at split
  by_cases page : slot < 0x100
  · rw [if_pos page] at split whole
    cases size : length slot with
    | zero => rw [size] at split; cases split
    | succ more =>
        rw [size, List.take_succ_cons] at split
        cases split
        refine .inl ⟨fun escape => valid.2 ?_, whole⟩
        rw [whole, escape]
        rfl
  · rw [if_neg page] at split whole
    cases split
    exact .inr ⟨rfl, _, rfl, whole⟩

end Slot

namespace Exec

open Effect

/-- A slot that has been fetched is one of the two pages. -/
theorem valid_of_fetchSlot {β : Type} [Bus β] {system after : System β} {slot : UInt16}
    (ran : Cpu.fetchSlot system = .ok slot after) : Slot.Valid slot := by
  obtain ⟨opcode, between, _, rest⟩ := bind_ok.mp ran
  by_cases escaped : opcode = Opcode.escape
  · rw [if_pos escaped] at rest
    obtain ⟨low, _, _, done⟩ := bind_ok.mp rest
    cases done
    exact forall_byte low (by decide +kernel)
  · rw [if_neg escaped] at rest
    cases rest
    revert escaped
    exact forall_byte opcode (by decide +kernel)

end Exec

end GameBoy
