import GameBoy.Proofs.FlatMemory

/-!
# The stack

A word that is pushed lies in the two bytes below the stack pointer.  What is done between a push
and its pop may use the bytes below; as long as it leaves the others alone, the pop finds the word
that was pushed.  On flat memory that refuses nothing, words that are pushed are therefore popped in
reverse order, wherever the stack lies and however it wraps around.
-/

namespace GameBoy

open Effect Exec

/-! ## The bytes below the stack pointer -/

/-- The address is one of a number of bytes below the stack pointer. -/
def Below (sp : UInt16) (count : Nat) (address : UInt16) : Prop :=
  (sp - 1 - address).toNat < count

instance (sp : UInt16) (count : Nat) (address : UInt16) : Decidable (Below sp count address) :=
  inferInstanceAs (Decidable (_ < _))

section Below

variable {sp address : UInt16} {words : Nat}

theorem below_two : Below sp 2 address ↔ address = sp - 1 ∨ address = sp - 2 := by
  constructor
  · intro below
    have offset : sp - 1 - address = 0 ∨ sp - 1 - address = 1 := by
      rw [Below] at below
      rw [← UInt16.toNat_inj, ← UInt16.toNat_inj]
      change _ = 0 ∨ _ = 1
      omega
    rcases offset with first | second
    · exact .inl (by grind)
    · exact .inr (by grind)
  · rintro (rfl | rfl)
    · rw [Below, UInt16.sub_self]
      decide
    · have offset : sp - 1 - (sp - 2) = 1 := by grind
      rw [Below, offset]
      decide

/-- The bytes below a word on the stack are further below the place where it was pushed. -/
theorem Below.of_pushed (below : Below (sp - 2) (2 * words) address) :
    Below sp (2 * (words + 1)) address := by
  rw [Below] at below ⊢
  have shifted : sp - 1 - address = (sp - 2 - 1 - address) + 2 := by grind
  rw [shifted, UInt16.toNat_add]
  change (_ + 2) % 65536 < _
  omega

theorem Below.of_two (below : Below sp 2 address) : Below sp (2 * (words + 1)) address := by
  rw [Below] at below ⊢
  omega

/-- Words pushed later do not reach the one pushed first, not even around the address space. -/
theorem not_below_pushed (room : words + 1 ≤ 32768) (below : Below sp 2 address) :
    ¬Below (sp - 2) (2 * words) address := by
  rw [Below]
  rcases below_two.mp below with rfl | rfl
  · have : sp - 2 - 1 - (sp - 1) = 65534 := by grind
    rw [this]
    change ¬65534 < _
    omega
  · have : sp - 2 - 1 - (sp - 2) = 65535 := by grind
    rw [this]
    change ¬65535 < _
    omega

end Below

/-! ## Memory with a stack -/

namespace FlatBus

/-- The bus, which refuses nothing, holds what another one holds. -/
structure Unchanged (before after : FlatBus) : Prop where
  opened : after.Open
  memory : ∀ address, after.peek address = before.peek address

theorem Unchanged.trans {before between after : FlatBus} (early : Unchanged before between)
    (late : Unchanged between after) : Unchanged before after :=
  ⟨late.opened, fun address => (late.memory address).trans (early.memory address)⟩

theorem Unchanged.takeStall {before after : FlatBus} (unchanged : Unchanged before after) :
    Unchanged before (Bus.takeStall after).2 :=
  ⟨⟨unchanged.opened.read, unchanged.opened.write⟩, unchanged.memory⟩

/-- The bus, which refuses nothing, holds what another one holds but for some bytes below the stack
pointer. -/
structure Balanced (sp : UInt16) (words : Nat) (before after : FlatBus) : Prop where
  opened : after.Open
  memory : ∀ address, ¬Below sp (2 * words) address → after.peek address = before.peek address

/-- A word has been put below the stack pointer. -/
structure Stacked (sp word : UInt16) (before after : FlatBus) : Prop extends
    Balanced sp 1 before after where
  high : after.peek (sp - 1) = Word.high word
  low : after.peek (sp - 2) = Word.low word

variable {sp word : UInt16} {words : Nat} {before stacked after : FlatBus}

theorem Balanced.refl (opened : before.Open) (sp : UInt16) : Balanced sp 0 before before :=
  ⟨opened, fun _ _ => rfl⟩

theorem Balanced.of_unchanged (balanced : Balanced sp words before stacked)
    (unchanged : Unchanged stacked after) : Balanced sp words before after :=
  ⟨unchanged.opened, fun address outside =>
    (unchanged.memory address).trans (balanced.memory address outside)⟩

/-- Whatever is done below a word on the stack, the word is still there. -/
theorem Stacked.of_balanced (room : words + 1 ≤ 32768) (pushed : Stacked sp word before stacked)
    (balanced : Balanced (sp - 2) words stacked after) :
    after.peek (sp - 1) = Word.high word ∧ after.peek (sp - 2) = Word.low word ∧
      Balanced sp (words + 1) before after := by
  refine ⟨?_, ?_, balanced.opened, fun address outside => ?_⟩
  · rw [balanced.memory _ (not_below_pushed room (below_two.mpr (.inl rfl))), pushed.high]
  · rw [balanced.memory _ (not_below_pushed room (below_two.mpr (.inr rfl))), pushed.low]
  · have deeper : ¬Below (sp - 2) (2 * words) address := fun below => outside below.of_pushed
    have other : ¬Below sp 2 address := fun below => outside below.of_two
    rw [balanced.memory address deeper, pushed.memory address other]

theorem of_write (opened : before.Open) {address : UInt16} {value : UInt8}
    (ran : Bus.write address value before = .ok () after) :
    after.Open ∧
      ∀ other, after.peek other = if address = other then value else before.peek other := by
  have written := (write_apply opened address value).symm.trans ran
  cases written
  exact ⟨⟨opened.read, opened.write⟩, fun other => peek_poke before address other value⟩

theorem stacked_of_writes (opened : before.Open)
    (high : Bus.write (sp - 1) (Word.high word) before = .ok () stacked)
    (low : Bus.write (sp - 2) (Word.low word) stacked = .ok () after) :
    Stacked sp word before after := by
  have apart : sp - 2 ≠ sp - 1 := by grind
  obtain ⟨between, first⟩ := of_write opened high
  obtain ⟨ended, second⟩ := of_write between low
  refine ⟨⟨ended, fun address outside => ?_⟩, ?_, ?_⟩
  · obtain ⟨notHigh, notLow⟩ := not_or.mp fun either => outside (below_two.mpr either)
    rw [second, if_neg (Ne.symm notLow), first, if_neg (Ne.symm notHigh)]
  · rw [second, if_neg apart, first, if_pos rfl]
  · rw [second, if_pos rfl]

/-- Fetching before a push and collecting stall cycles after it change nothing in memory. -/
theorem Stacked.settle {fetched : FlatBus} (pushed : Stacked sp word fetched after)
    (unchanged : Unchanged before fetched) :
    Stacked sp word before (Bus.takeStall after).2 where
  opened := ⟨pushed.opened.read, pushed.opened.write⟩
  memory address outside := (pushed.memory address outside).trans (unchanged.memory address)
  high := pushed.high
  low := pushed.low

theorem read_of_peek (opened : before.Open) {address : UInt16} {value : UInt8}
    (held : before.peek address = value) :
    ∃ after, Bus.read address before = .ok value after ∧ Unchanged before after := by
  rw [← held]
  exact ⟨_, read_apply opened address, ⟨opened.read, opened.write⟩, fun _ => rfl⟩

theorem readWord_of_peek (opened : before.Open) (high : before.peek (sp + 1) = Word.high word)
    (low : before.peek sp = Word.low word) :
    ∃ after, Bus.readWord sp before = .ok word after ∧ Unchanged before after := by
  obtain ⟨between, first, early⟩ := read_of_peek opened low
  obtain ⟨after, second, late⟩ := read_of_peek early.opened ((early.memory _).trans high)
  refine ⟨after, ?_, early.trans late⟩
  rw [Bus.readWord, bind_of_ok first, bind_of_ok second, Word.ofBytes_high_low]
  rfl

end FlatBus

/-! ## Pushing and popping -/

namespace Exec

variable {β : Type}

/-- Do an action a number of times and list what it returns. -/
def gather {α : Type} (action : Exec β α) : Nat → Exec β (List α)
  | 0 => pure []
  | count + 1 => do
    let value ← action
    let rest ← gather action count
    pure (value :: rest)

theorem gather_add {α : Type} {action : Exec β α} {system between after : System β}
    {first second : Nat} {front back : List α}
    (begun : gather action first system = .ok front between)
    (ended : gather action second between = .ok back after) :
    gather action (first + second) system = .ok (front ++ back) after := by
  induction first generalizing system front with
  | zero =>
      cases begun
      simpa using ended
  | succ first ih =>
      obtain ⟨value, middle, done, rest⟩ := bind_ok.mp begun
      obtain ⟨values, _, remaining, rest⟩ := bind_ok.mp rest
      cases rest
      rw [Nat.succ_add, gather, bind_of_ok done, bind_of_ok (ih remaining)]
      rfl

theorem gather_one {α : Type} {action : Exec β α} {system after : System β} {value : α}
    (ran : action system = .ok value after) : gather action 1 system = .ok [value] after := by
  rw [gather, bind_of_ok ran]
  rfl

variable {bus : FlatBus}

theorem push_flat (cpu : Cpu) (opened : bus.Open) (word : UInt16) :
    ∃ after : FlatBus,
      push word ⟨cpu, bus⟩ = .ok () ⟨cpu.withStack (cpu.regs.sp - 2), after⟩ ∧
        FlatBus.Stacked cpu.regs.sp word bus after := by
  obtain ⟨_, after, ran, _⟩ :=
    (law_succeeds FlatBus.succeeds_read FlatBus.succeeds_write).push word ⟨cpu, bus⟩ opened
  obtain ⟨between, high, low, lowered⟩ := Cpu.push_ok ran
  refine ⟨after.bus, ?_, FlatBus.stacked_of_writes opened high low⟩
  rw [ran, ← lowered]

theorem pop_flat (cpu : Cpu) (opened : bus.Open) (word : UInt16)
    (high : bus.peek (cpu.regs.sp + 1) = Word.high word)
    (low : bus.peek cpu.regs.sp = Word.low word) :
    ∃ after : FlatBus,
      pop ⟨cpu, bus⟩ = .ok word ⟨cpu.withStack (cpu.regs.sp + 2), after⟩ ∧
        FlatBus.Unchanged bus after := by
  obtain ⟨after, reads, unchanged⟩ := FlatBus.readWord_of_peek opened high low
  refine ⟨after, ?_, unchanged⟩
  have popped : access (Bus.readWord cpu.regs.sp) ⟨cpu, bus⟩ = .ok word ⟨cpu, after⟩ :=
    access_ok.mpr ⟨reads, rfl⟩
  rw [pop, bind_of_ok (registers_apply _), bind_of_ok popped]
  rfl

/-- Words that are pushed are popped in reverse order. -/
theorem push_pop_words (words : List UInt16) (cpu : Cpu) (opened : bus.Open)
    (room : words.length ≤ 32768) :
    ∃ (pushed : System FlatBus) (after : FlatBus),
      forM words push ⟨cpu, bus⟩ = .ok () pushed ∧
        gather pop words.length pushed = .ok words.reverse ⟨cpu, after⟩ ∧
        FlatBus.Balanced cpu.regs.sp words.length bus after := by
  induction words generalizing cpu bus with
  | nil => exact ⟨⟨cpu, bus⟩, bus, rfl, rfl, .refl opened _⟩
  | cons word words ih =>
      rw [List.length_cons] at room
      obtain ⟨stacked, pushes, below⟩ := push_flat cpu opened word
      let lowered := cpu.withStack (cpu.regs.sp - 2)
      have deeper : words.length ≤ 32768 := by omega
      obtain ⟨pushed, inner, more, pops, balanced⟩ := ih lowered below.opened deeper
      obtain ⟨high, low, outer⟩ := below.of_balanced room balanced
      have above : cpu.regs.sp - 2 + 1 = cpu.regs.sp - 1 := by grind
      have back : cpu.regs.sp - 2 + 2 = cpu.regs.sp := by grind
      obtain ⟨after, popped, unchanged⟩ :=
        pop_flat lowered balanced.opened word (above ▸ high) low
      refine ⟨pushed, after, ?_, ?_, outer.of_unchanged unchanged⟩
      · rw [List.forM_cons, bind_of_ok pushes]
        exact more
      · have restored : lowered.withStack (cpu.regs.sp - 2 + 2) = cpu := by
          rw [back]
          rfl
        rw [List.reverse_cons, List.length_cons, ← restored]
        exact gather_add pops (gather_one popped)

end Exec

end GameBoy
