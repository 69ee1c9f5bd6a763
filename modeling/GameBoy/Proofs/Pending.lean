import GameBoy.Proofs.Refusal
import GameBoy.Proofs.Stall

/-!
# The stall that is pending

A step that fails may have written before it failed, and what it has caused is not collected.  But
the stall does not grow by it: where one byte of a word begins a transfer, the other one is never
refused.  So at most one transfer is pending between two steps, whether they succeed or not.
-/

namespace GameBoy

open Effect Exec

/-! ## Failing actions -/

namespace Effect

variable {ε σ α γ : Type}

/-- An action that fails where the property holds leaves it behind. -/
def FailsWith (property : σ → Prop) (action : EStateM ε σ α) : Prop :=
  ∀ state error after, property state → action state = .error error after → property after

variable {property : σ → Prop} {action : EStateM ε σ α} {next : α → EStateM ε σ γ}

theorem Keeps.failsWith (keeps : Keeps property action) : FailsWith property action :=
  fun _ _ _ holds failed => keeps.of_error holds failed

theorem FailsWith.after (first : Keeps property action)
    (rest : ∀ value, FailsWith property (next value)) : FailsWith property (action >>= next) := by
  intro state error after holds failed
  rcases bind_error.mp failed with early | ⟨value, between, ran, late⟩
  · exact first.of_error holds early
  · exact rest value between error after (first.of_ok holds ran) late

theorem FailsWith.before (first : FailsWith property action)
    (rest : ∀ value state error after, next value state ≠ .error error after) :
    FailsWith property (action >>= next) := by
  intro state error after holds failed
  rcases bind_error.mp failed with early | ⟨value, between, _, late⟩
  · exact first state error after holds early
  · exact absurd late (rest value between error after)

end Effect

/-! ## Two bytes of a word -/

/-- Where the second of two writes is refused, the first one has begun no transfer unless the second
is to the last page, which refuses nothing. -/
theorem Board.stall_of_refused {first second : UInt16} {value other : UInt8}
    {board between after : Board} {error : MemoryError}
    (near : first = dmaAddress → 0xFF00 ≤ second)
    (ran : Bus.write first value board = .ok () between)
    (failed : Bus.write second other between = .error error after) : after.stall = board.stall := by
  have apart : first ≠ dmaAddress := by
    intro trigger
    have last := near trigger
    rcases (write_fails_iff between).mp ⟨error, after, failed⟩ with nothing | rom <;> grind
  have stored : between = board.store first value := by
    rw [write_apply] at ran
    cases refused : board.refusal first value <;> rw [refused] at ran <;> cases ran
    rfl
  rw [after_of_write_error failed, stored]
  exact (stall_store board first value).trans (by rw [if_neg apart, Nat.add_zero])

/-! ## Failing steps -/

namespace Exec

/-- At most so many cycles of a stall are pending. -/
def Owes (most : Nat) (machine : Machine) : Prop :=
  machine.bus.stall ≤ most

variable {most : Nat}

theorem law_owes (most : Nat) :
    StepLaw fun _ count (action : Exec Board _) (_ : Exec Board _) =>
      count = 0 → Keeps (Owes most) action :=
  @law_still Board _ (fun board => board.stall ≤ most)
    (fun address board few => by
      rcases Board.read_ok_or_record address board with same | ⟨event, same⟩ <;> rw [same] <;>
        exact few)
    (fun _ _ => Nat.zero_le most) fun _ _ few => few

theorem failsWith_modifyCpu (change : Cpu → Cpu) :
    FailsWith (Owes most) (modifyCpu change : Exec Board Unit) :=
  ((law_owes most).change change rfl).failsWith

/-- A write that is refused begins no transfer. -/
theorem failsWith_write (address : UInt16) (value : UInt8) :
    FailsWith (Owes most) (write address value : Exec Board Unit) := by
  intro machine fault after owes failed
  rw [write, access_apply] at failed
  cases ran : Bus.write address value machine.bus with
  | ok _ bus => simp [ran] at failed
  | error error bus =>
      rw [ran] at failed
      cases failed
      rw [Board.after_of_write_error ran]
      exact owes

theorem failsWith_push (word : UInt16) : FailsWith (Owes most) (push word : Exec Board Unit) := by
  refine .after ((law_owes most).change _ rfl) fun _ machine fault after owes failed => ?_
  rw [bind_of_ok (registers_apply _)] at failed
  rcases bind_error.mp failed with early | ⟨_, between, first, rest⟩
  · exact failsWith_write _ _ machine fault after owes early
  obtain ⟨ran, same⟩ := access_ok.mp first
  rw [bind_of_ok (modifyRegisters_apply _ _), bind_of_ok (registers_apply _), write, access_apply,
    same] at rest
  cases second : Bus.write (machine.cpu.regs.sp - 1) (Word.low word) between.bus with
  | ok _ bus => simp [second] at rest
  | error error bus =>
      simp only [second] at rest
      cases rest
      have kept := Board.stall_of_refused (by grind [Board.dmaAddress]) ran second
      exact Nat.le_trans (Nat.le_of_eq kept) owes

theorem failsWith_writeWord (address word : UInt16) :
    FailsWith (Owes most) (access (Bus.writeWord address word) : Exec Board Unit) := by
  intro machine fault after owes failed
  rw [access_apply] at failed
  cases ran : Bus.writeWord address word machine.bus with
  | ok _ bus => simp [ran] at failed
  | error error bus =>
      rw [ran] at failed
      cases failed
      rcases bind_error.mp ran with early | ⟨_, between, first, second⟩
      · rw [Owes, Board.after_of_write_error early]
        exact owes
      · have kept := Board.stall_of_refused (by grind [Board.dmaAddress]) first second
        exact Nat.le_trans (Nat.le_of_eq kept) owes

theorem failsWith_call (target : UInt16) :
    FailsWith (Owes most) (call target : Exec Board Unit) :=
  .after keeps_registers fun regs => (failsWith_push regs.pc).before fun _ _ _ _ => nofun

theorem failsWith_perform (instruction : Instruction) (slot start immediate : UInt16)
    (taken : Bool) :
    FailsWith (Owes most) (perform instruction slot start immediate taken : Exec Board Unit) := by
  have law := law_owes most
  have reads (source : Operand) := law.readOperand source rfl
  have writes (target : Operand) (value : UInt8) :
      FailsWith (Owes most) (writeOperand target value : Exec Board Unit) := by
    cases target with
    | atHL => exact .after keeps_registers fun _ => failsWith_write _ _
    | _ =>
        rw [writeOperand]
        exact failsWith_modifyCpu _
  cases instruction with
  | storeA pointer =>
      exact .after (law.follow pointer rfl) fun _ => .after keeps_registers fun _ =>
        failsWith_write _ _
  | storeSP => exact .after keeps_registers fun _ => failsWith_writeWord _ _
  | inc target | dec target | shift op target =>
      exact .after (reads target) fun _ => .after keeps_registers fun _ =>
        .after (law.setFlags _ rfl) fun _ => writes target _
  | loadByte target => exact writes target _
  | load target source => exact .after (reads source) fun _ => writes target _
  | call condition =>
      cases taken with
      | false => exact (Keeps.pure ()).failsWith
      | true => exact failsWith_call immediate
  | rst target => exact failsWith_call _
  | push pair => exact .after keeps_registers fun _ => failsWith_push _
  | storeHigh | storeHighC | storeAt =>
      exact .after keeps_registers fun _ => failsWith_write _ _
  | res index target | set index target =>
      exact .after (reads target) fun _ => writes target _
  | _ => exact (law.perform _ slot start immediate taken rfl).failsWith

theorem failsWith_conclude (slot start immediate : UInt16) :
    FailsWith (Owes most) (Cpu.conclude slot start immediate : Exec Board Quantum) :=
  .after keeps_registers fun _ => (failsWith_perform _ _ _ _ _).before fun _ _ _ _ => nofun

theorem failsWith_execute : FailsWith (Owes most) (Cpu.execute : Exec Board Quantum) := by
  have law := law_owes most
  rw [Cpu.execute_eq_conclude]
  refine .after (law.requireUnlocked rfl) fun _ => .after keeps_registers fun regs => ?_
  refine .after (law.fetchSlot (law.change _) rfl) fun slot => ?_
  refine .after (law.fetchImmediate (law.change _) _ rfl) fun immediate => ?_
  exact failsWith_conclude slot regs.pc immediate

/-- Once the return address has been pushed a dispatch no longer fails. -/
theorem failsWith_dispatch (line : Interrupt) (request : UInt8) :
    FailsWith (Owes most) (Cpu.dispatch line request : Exec Board Unit) := by
  refine .after ((law_owes most).change _ rfl) fun _ => .after keeps_registers fun regs => ?_
  refine (failsWith_push regs.pc).before fun _ machine fault after failed => ?_
  rcases bind_error.mp failed with refused | ⟨_, _, _, rest⟩
  · rw [write, access_apply] at refused
    cases ran : Bus.write Interrupt.requestAddress (request &&& ~~~line.mask) machine.bus with
    | ok _ bus => simp [ran] at refused
    | error error bus =>
        rcases (Board.write_fails_iff machine.bus).mp ⟨error, bus, ran⟩ with nothing | rom
        · exact absurd nothing (by decide)
        · exact absurd rom.1 (by decide)
  · cases rest

/-- No stall is added by a step that fails. -/
theorem failsWith_step : FailsWith (Owes most) (Cpu.step : Exec Board Quantum) := by
  have law := law_owes most
  rw [Cpu.step_eq_proceed]
  refine .after (law.requireUnlocked rfl) fun _ => .after (law.staysStopped rfl) fun stays => ?_
  cases stays with
  | true => exact (Keeps.pure _).failsWith
  | false =>
      rw [if_neg Bool.false_ne_true, Cpu.proceed_eq_carryOut]
      refine .after (law.poll rfl) fun polled => .after keeps_cpu fun cpu => ?_
      cases cpu.plan polled.1 polled.2 with
      | wait => exact (Keeps.pure _).failsWith
      | serve line =>
          refine .after (law.change _ rfl) fun _ => ?_
          exact (failsWith_dispatch line polled.2).before fun _ _ _ _ => nofun
      | run => exact .after (law.change _ rfl) fun _ => failsWith_execute

end Exec

/-- A step that fails does not set the master enable. -/
theorem Cpu.ime_of_step_error {β : Type} [Bus β] {system after : System β} {fault : Fault}
    (masked : system.cpu.regs.ime = false) (failed : Cpu.step system = .error fault after) :
    after.cpu.regs.ime = false := by
  rcases Cpu.step_error failed with ⟨stopped, _, same⟩ | ⟨enabled, _⟩ | ⟨_, executed⟩
  · rw [same]
    exact masked
  · exact absurd (masked.symm.trans enabled) Bool.false_ne_true
  · rcases Cpu.control_execute_of_error executed with same | ⟨_, same⟩
    · rw [same]
      exact masked
    · exact (congrArg Control.ime same).trans masked

namespace Machine

/-- At most one transfer is pending, and then interrupts are disabled. -/
structure Pending (machine : Machine) : Prop where
  stall_le : machine.bus.stall ≤ Board.dmaStall
  masked : machine.bus.stall ≠ 0 → machine.cpu.regs.ime = false

variable {machine : Machine}

theorem pending_boot (cartridge : Cartridge) (config : Config) (sink : Sink) :
    (boot cartridge config sink).Pending := by
  have clear : (boot cartridge config sink).bus.stall = 0 := Board.stall_boot cartridge config sink
  exact ⟨clear ▸ Nat.zero_le _, fun left => absurd clear left⟩

theorem Pending.of_eq (pending : machine.Pending) {after : Machine}
    (stall : after.bus.stall = machine.bus.stall)
    (ime : after.cpu.regs.ime = machine.cpu.regs.ime) : after.Pending where
  stall_le := stall ▸ pending.stall_le
  masked := by
    rw [stall, ime]
    exact pending.masked

/-- A step keeps it so, whether it succeeds or not. -/
theorem keeps_pending_step : Keeps Pending (Cpu.step : Exec Board Quantum) := by
  intro machine pending
  cases ran : Cpu.step machine with
  | ok quantum after =>
      rw [final_of_ok ran]
      rcases stall_of_step ran with ⟨rfl, _, none, left⟩ | ⟨line, rfl, enabled, same, _, left⟩ |
        ⟨_, rfl, collected⟩
      · rw [stallDue, none] at left
        refine pending.of_eq left ?_
        rcases Cpu.step_cases ran with ⟨_, _, stopped, same⟩ | ⟨_, other, _⟩ | ⟨_, executed⟩
        · rw [same]
          rfl
        · cases other
        · obtain ⟨_, _, _, _, other, _⟩ := Cpu.control_execute executed
          cases other
      · have clear : machine.bus.stall = 0 := by
          by_contra found
          exact Bool.false_ne_true ((pending.masked found).symm.trans enabled)
        have once : machine.storedByStep.count Board.dmaAddress ≤ 1 :=
          count_storedByStep ran (by decide)
        rw [stallDue, clear, Nat.zero_add] at left
        refine ⟨left ▸ Nat.mul_le_mul_left Board.dmaStall once, fun _ => ?_⟩
        rw [same]
        rfl
      · exact ⟨collected ▸ Nat.zero_le _, fun left => absurd collected left⟩
  | error fault after =>
      rw [final_of_error ran]
      have few : after.bus.stall ≤ machine.bus.stall :=
        failsWith_step machine fault after (Nat.le_refl machine.bus.stall) ran
      refine ⟨Nat.le_trans few pending.stall_le, fun left => ?_⟩
      have found : machine.bus.stall ≠ 0 := fun clear => left (Nat.eq_zero_of_le_zero (clear ▸ few))
      exact Cpu.ime_of_step_error (pending.masked found) ran

end Machine
end GameBoy
