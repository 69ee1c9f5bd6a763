import GameBoy.Proofs.Invariant

/-!
# Recording writes

A tape beside the bus records every write that the bus takes.  The processor acts on a bus with a
tape as it does on the bus alone, and in a step of some number of cycles it writes at most a quarter
as many bytes.
-/

namespace GameBoy

open Effect

/-! ## Seeing one state as another -/

namespace Effect

variable {ε σ τ α : Type}

/-- A result with the state it leaves seen through a function. -/
def see (view : σ → τ) : EStateM.Result ε σ α → EStateM.Result ε τ α
  | .ok value after => .ok value (view after)
  | .error error after => .error error (view after)

/-- What is left behind is seen as what the other action leaves behind. -/
theorem final_see {view : σ → τ} {action : EStateM ε σ α} {twin : EStateM ε τ α} {state : σ}
    (same : twin (view state) = see view (action state)) :
    final twin (view state) = view (final action state) := by
  rw [final, final, same]
  cases action state <;> rfl

end Effect

/-- A system with its bus seen through a function. -/
def System.view {β γ : Type} (view : γ → β) (system : System γ) : System β :=
  ⟨system.cpu, view system.bus⟩

/-- Seen through the function, the operations of one bus are those of another. -/
structure Bus.View {β γ : Type} [Bus β] [Bus γ] (view : γ → β) : Prop where
  read : ∀ address bus, Bus.read address (view bus) = see view (Bus.read address bus)
  write : ∀ address value bus,
    Bus.write address value (view bus) = see view (Bus.write address value bus)
  takeStall : ∀ bus, Bus.takeStall (view bus) =
    ((Bus.takeStall bus).1, view (Bus.takeStall bus).2)
  report : ∀ event bus, Bus.report event (view bus) = view (Bus.report event bus)

theorem Exec.access_view {α β γ : Type} {view : γ → β} {action : Access γ α} {twin : Access β α}
    {system : System γ} (same : twin (view system.bus) = see view (action system.bus)) :
    access twin (system.view view) = see (System.view view) (access action system) := by
  rw [access_apply, access_apply]
  simp only [System.view, same]
  cases action system.bus <;> rfl

namespace Bus.View

open Exec

variable {β γ : Type} [Bus β] [Bus γ] {view : γ → β}

/-- The processor does the same on both buses. -/
theorem law (sees : Bus.View view) :
    StepLaw fun _ _ (action : Exec γ _) (twin : Exec β _) =>
      ∀ system, twin (system.view view) = see (System.view view) (action system) where
  pure _ _ := rfl
  bind := by
    intro _ _ _ _ action twin next follow first rest system
    rw [bind_apply, bind_apply, first]
    cases action system with
    | ok value after => exact rest value after
    | error error after => rfl
  mono _ same := same
  registers _ := rfl
  read address system := access_view (sees.read address system.bus)
  write address value system := access_view (sees.write address value system.bus)
  modify _ _ _ _ := rfl
  change _ _ := rfl
  throw _ _ := rfl
  cpu _ := rfl
  takeStall system := by
    rw [takeStall_apply, takeStall_apply]
    simp only [System.view, sees.takeStall, see]
  report event system := by
    rw [report_apply, report_apply]
    simp only [System.view, sees.report, see]

end Bus.View

/-! ## Tapes -/

/-- A write that a bus took, with the bus that it met. -/
structure Stored (β : Type) where
  met : β
  address : UInt16
  value : UInt8

/-- A bus with a tape of the writes that it took, oldest first. -/
structure Taped (β : Type) where
  bus : β
  writes : List (Stored β) := []

namespace Taped

variable {β : Type} [Bus β]

instance : Bus (Taped β) where
  read address taped :=
    match Bus.read address taped.bus with
    | .ok value bus => .ok value { taped with bus }
    | .error error bus => .error error { taped with bus }
  write address value taped :=
    match Bus.write address value taped.bus with
    | .ok () bus => .ok () ⟨bus, taped.writes ++ [⟨taped.bus, address, value⟩]⟩
    | .error error bus => .error error { taped with bus }
  takeStall taped :=
    let (cycles, bus) := Bus.takeStall taped.bus
    (cycles, { taped with bus })
  report event taped := { taped with bus := Bus.report event taped.bus }

theorem read_apply (address : UInt16) (taped : Taped β) :
    Bus.read address taped =
      match Bus.read address taped.bus with
      | .ok value bus => .ok value { taped with bus }
      | .error error bus => .error error { taped with bus } := rfl

theorem write_apply (address : UInt16) (value : UInt8) (taped : Taped β) :
    Bus.write address value taped =
      match Bus.write address value taped.bus with
      | .ok () bus => .ok () ⟨bus, taped.writes ++ [⟨taped.bus, address, value⟩]⟩
      | .error error bus => .error error { taped with bus } := rfl

theorem sees_bus : Bus.View (Taped.bus : Taped β → β) where
  read address taped := by
    rw [read_apply]
    cases Bus.read address taped.bus <;> rfl
  write address value taped := by
    rw [write_apply]
    cases Bus.write address value taped.bus <;> rfl
  takeStall _ := rfl
  report _ _ := rfl

omit [Bus β] in
/-- What an action does on a bus its twin does with a tape beside the bus. -/
theorem twin_of_ok {α : Type} {action : Exec β α} {twin : Exec (Taped β) α}
    (sees : ∀ system, action (system.view bus) = see (System.view bus) (twin system))
    {system after : System β} {value : α} (ran : action system = .ok value after)
    (writes : List (Stored β)) :
    ∃ more, twin ⟨system.cpu, ⟨system.bus, writes⟩⟩ =
      .ok value ⟨after.cpu, ⟨after.bus, more⟩⟩ := by
  let taped : System (Taped β) := ⟨system.cpu, ⟨system.bus, writes⟩⟩
  have same : action (taped.view bus) = see (System.view bus) (twin taped) := sees taped
  rw [show taped.view bus = system from rfl, ran] at same
  cases result : twin taped with
  | ok other last =>
      rw [result] at same
      cases same
      exact ⟨last.bus.writes, rfl⟩
  | error fault last =>
      rw [result] at same
      cases same

/-- A step does not notice the tape. -/
theorem step_of_ok {system after : System β} {quantum : Quantum}
    (ran : Cpu.step system = .ok quantum after) (writes : List (Stored β)) :
    ∃ more, Cpu.step (⟨system.cpu, ⟨system.bus, writes⟩⟩ : System (Taped β)) =
      .ok quantum ⟨after.cpu, ⟨after.bus, more⟩⟩ :=
  twin_of_ok sees_bus.law.step ran writes

/-! ## Counting writes -/

/-- An action writes at most as many bytes as its grade says. -/
theorem law_count :
    Exec.StepLaw fun _ count (action : Exec (Taped β) _) (_ : Exec (Taped β) _) =>
      ∀ system, (final action system).bus.writes.length ≤ system.bus.writes.length + count where
  pure _ _ := Nat.le_refl _
  bind := by
    intro _ _ _ _ action _ next _ first rest system
    have begun := first system
    cases ran : action system with
    | ok value after =>
        have ended := rest value after
        rw [final_of_ok ran] at begun
        rw [final, bind_of_ok ran]
        rw [final] at ended
        omega
    | error error after =>
        rw [final_of_error ran] at begun
        rw [final, bind_of_error ran]
        exact Nat.le_trans begun (by omega)
  mono fewer counts system := Nat.le_trans (counts system) (Nat.add_le_add_left fewer _)
  registers _ := Nat.le_refl _
  read address system := by
    rw [Exec.read, final, Exec.access_apply, read_apply]
    cases Bus.read address system.bus.bus <;> exact Nat.le_refl _
  write address value system := by
    rw [Exec.write, final, Exec.access_apply, write_apply]
    cases Bus.write address value system.bus.bus with
    | ok _ bus => simp
    | error error bus => exact Nat.le_succ _
  modify _ _ _ _ := Nat.le_refl _
  change _ _ := Nat.le_refl _
  throw _ _ := Nat.le_refl _
  cpu _ := Nat.le_refl _
  takeStall _ := Nat.le_refl _
  report _ _ := Nat.le_refl _

theorem writes_of_execute {system after : System (Taped β)} {quantum : Quantum}
    (ran : Cpu.execute system = .ok quantum after) :
    ∃ count, after.bus.writes.length ≤ system.bus.writes.length + count ∧
      4 * count ≤ quantum.cycles ∧ count ≤ 3 := by
  obtain ⟨_, slot, immediate, fetched, stream, acts⟩ := Cpu.execute_ok ran
  have reads := law_count.toLaw.fetchRun (law_count.change _)
    (Instruction.encoding slot immediate).length system
  have writes := law_count.conclude slot system.cpu.regs.pc immediate fetched
  rw [final_of_ok stream] at reads
  rw [final_of_ok acts] at writes
  obtain ⟨_, _, _, rfl⟩ := Cpu.conclude_ok acts
  refine ⟨(Instruction.ofSlot slot).writes, by omega, ?_, ?_⟩
  · exact Nat.le_trans (Instruction.writes_le_cost _ _) (Nat.le_add_right _ _)
  · exact Nat.le_succ_of_le (Instruction.writes_le_two _)

/-- A step writes at most three bytes and takes four cycles for each. -/
theorem writes_of_step {system after : System (Taped β)} {quantum : Quantum}
    (ran : Cpu.step system = .ok quantum after) :
    ∃ count, after.bus.writes.length ≤ system.bus.writes.length + count ∧
      4 * count ≤ quantum.cycles ∧ count ≤ 3 := by
  obtain ⟨_, ⟨waits, rfl⟩ | ⟨woken, enable, request, polled, waits, reads, carried⟩⟩ :=
    Cpu.step_ok ran
  · have waited := law_count.staysStopped system
    rw [final_of_ok waits] at waited
    exact ⟨0, waited, Nat.zero_le _, Nat.zero_le _⟩
  have waited := law_count.staysStopped system
  have looked := law_count.toLaw.poll woken
  rw [final_of_ok waits] at waited
  rw [final_of_ok reads] at looked
  rcases Cpu.carryOut_ok carried with ⟨rfl, _, rfl⟩ | ⟨line, rfl, _, _, dispatched⟩ | executed
  · exact ⟨0, by omega, Nat.zero_le _, Nat.zero_le _⟩
  · have writes := law_count.dispatch line request ⟨polled.cpu.wake, polled.bus⟩
    rw [final_of_ok dispatched] at writes
    exact ⟨3, by simp only at writes; omega, (by decide : 12 ≤ 20), Nat.le_refl 3⟩
  · obtain ⟨count, writes, cycles, few⟩ := writes_of_execute executed
    exact ⟨count, by simp only at writes; omega, cycles, few⟩

end Taped
end GameBoy
