import GameBoy.Cpu.Step

/-!
# Actions

An action is a chain of smaller ones on a common state, any of which may end it.  This file reads a
chain back link by link, and shows that a property that every link keeps holds wherever the chain
ends.
-/

namespace GameBoy
namespace Effect

variable {ε σ α γ : Type}

/-- The state that an action leaves, whether it fails or not. -/
def final (action : EStateM ε σ α) (state : σ) : σ :=
  match action state with
  | .ok _ after => after
  | .error _ after => after

theorem final_of_ok {action : EStateM ε σ α} {state after : σ} {value : α}
    (ran : action state = .ok value after) : final action state = after := by
  rw [final, ran]

theorem final_of_error {action : EStateM ε σ α} {state after : σ} {error : ε}
    (ran : action state = .error error after) : final action state = after := by
  rw [final, ran]

/-- What an action returns, if it does not fail. -/
def value? (action : EStateM ε σ α) (state : σ) : Option α :=
  match action state with
  | .ok value _ => some value
  | .error _ _ => none

theorem ok_of_value? {action : EStateM ε σ α} {state : σ} {value : α}
    (returned : value? action state = some value) :
    action state = .ok value (final action state) := by
  rw [value?] at returned
  rw [final]
  cases ran : action state with
  | ok first after =>
      rw [ran] at returned
      cases returned
      rfl
  | error error after => simp [ran] at returned

/-- What an action comes to: the value that it returns, or the error that it fails with. -/
def outcome (action : EStateM ε σ α) (state : σ) : Except ε α :=
  match action state with
  | .ok value _ => .ok value
  | .error error _ => .error error

/-! ## Links of a chain -/

theorem bind_apply (action : EStateM ε σ α) (next : α → EStateM ε σ γ) (state : σ) :
    (action >>= next) state =
      match action state with
      | .ok value after => next value after
      | .error error after => .error error after := by
  change EStateM.run (action >>= next) state = _
  rw [EStateM.run_bind, EStateM.run]
  cases action state <;> rfl

theorem bind_of_ok {action : EStateM ε σ α} {state after : σ} {value : α}
    (ran : action state = .ok value after) (next : α → EStateM ε σ γ) :
    (action >>= next) state = next value after := by
  rw [bind_apply, ran]

theorem bind_of_error {action : EStateM ε σ α} {state after : σ} {error : ε}
    (ran : action state = .error error after) (next : α → EStateM ε σ γ) :
    (action >>= next) state = .error error after := by
  rw [bind_apply, ran]

theorem bind_ok {action : EStateM ε σ α} {next : α → EStateM ε σ γ} {state after : σ} {value : γ} :
    (action >>= next) state = .ok value after ↔
      ∃ first between, action state = .ok first between ∧ next first between = .ok value after := by
  rw [bind_apply]
  cases action state with
  | ok first between =>
      constructor
      · exact fun ran => ⟨first, between, rfl, ran⟩
      · rintro ⟨_, _, ⟨⟩, ran⟩
        exact ran
  | error error between => simp

theorem bind_error {action : EStateM ε σ α} {next : α → EStateM ε σ γ} {state after : σ}
    {error : ε} :
    (action >>= next) state = .error error after ↔
      action state = .error error after ∨
        ∃ first between, action state = .ok first between ∧
          next first between = .error error after := by
  rw [bind_apply]
  cases action state with
  | ok first between =>
      constructor
      · exact fun ran => .inr ⟨first, between, rfl, ran⟩
      · rintro (⟨⟨⟩⟩ | ⟨_, _, ⟨⟩, ran⟩)
        exact ran
  | error error between => simp

theorem map_of_ok {action : EStateM ε σ α} {state after : σ} {value : α}
    (ran : action state = .ok value after) (f : α → γ) :
    (f <$> action) state = .ok (f value) after := by
  rw [map_eq_pure_bind, bind_of_ok ran]
  rfl

theorem map_of_error {action : EStateM ε σ α} {state after : σ} {error : ε}
    (ran : action state = .error error after) (f : α → γ) :
    (f <$> action) state = .error error after := by
  rw [map_eq_pure_bind, bind_of_error ran]

/-! ## Kept properties -/

/-- The action keeps the property, whatever comes of it. -/
def Keeps (property : σ → Prop) (action : EStateM ε σ α) : Prop :=
  ∀ state, property state → property (final action state)

namespace Keeps

variable {property : σ → Prop}

theorem pure (value : α) : Keeps property (pure value : EStateM ε σ α) :=
  fun _ holds => holds

theorem throw (error : ε) : Keeps property (throw error : EStateM ε σ α) :=
  fun _ holds => holds

theorem bind {action : EStateM ε σ α} {next : α → EStateM ε σ γ} (first : Keeps property action)
    (rest : ∀ value, Keeps property (next value)) : Keeps property (action >>= next) := by
  intro state holds
  have middle := first state holds
  cases ran : action state with
  | ok value after =>
      rw [final_of_ok ran] at middle
      rw [final, bind_of_ok ran]
      exact rest value after middle
  | error error after =>
      rw [final_of_error ran] at middle
      rw [final, bind_of_error ran]
      exact middle

theorem of_ok {action : EStateM ε σ α} {state after : σ} {value : α}
    (keeps : Keeps property action) (holds : property state)
    (ran : action state = .ok value after) : property after :=
  final_of_ok ran ▸ keeps state holds

theorem of_error {action : EStateM ε σ α} {state after : σ} {error : ε}
    (keeps : Keeps property action) (holds : property state)
    (ran : action state = .error error after) : property after :=
  final_of_error ran ▸ keeps state holds

end Keeps

/-! ## Success -/

/-- From a state with the property the action succeeds and leads to such a state. -/
def Succeeds (property : σ → Prop) (action : EStateM ε σ α) : Prop :=
  ∀ state, property state → ∃ value after, action state = .ok value after ∧ property after

theorem Succeeds.bind {property : σ → Prop} {action : EStateM ε σ α} {next : α → EStateM ε σ γ}
    (first : Succeeds property action) (rest : ∀ value, Succeeds property (next value)) :
    Succeeds property (action >>= next) := by
  intro state holds
  obtain ⟨value, between, ran, holds⟩ := first state holds
  obtain ⟨last, after, goes, holds⟩ := rest value between holds
  exact ⟨last, after, (bind_of_ok ran next).trans goes, holds⟩

end Effect

/-! ## Actions of the processor -/

namespace Exec

open Effect

variable {α β γ : Type}

@[simp]
theorem pure_apply (value : α) (system : System β) :
    (pure value : Exec β α) system = .ok value system := rfl

@[simp]
theorem cpu_apply (system : System β) : (cpu : Exec β Cpu) system = .ok system.cpu system := rfl

@[simp]
theorem registers_apply (system : System β) :
    (registers : Exec β Registers) system = .ok system.cpu.regs system := rfl

@[simp]
theorem modifyCpu_apply (change : Cpu → Cpu) (system : System β) :
    modifyCpu change system = .ok () { system with cpu := change system.cpu } := rfl

@[simp]
theorem modifyRegisters_apply (change : Registers → Registers) (system : System β) :
    modifyRegisters change system =
      .ok () { system with cpu := { system.cpu with regs := change system.cpu.regs } } := rfl

theorem access_apply (action : Access β α) (system : System β) :
    access action system =
      match action system.bus with
      | .ok value bus => .ok value ⟨system.cpu, bus⟩
      | .error error bus => .error (.memory error) ⟨system.cpu, bus⟩ := rfl

theorem access_bind (first : Access β α) (rest : α → Access β γ) :
    access (first >>= rest) = access first >>= fun value => access (rest value) := by
  funext system
  rw [access_apply, bind_apply, bind_apply, access_apply]
  cases first system.bus <;> rfl

theorem access_ok {action : Access β α} {system after : System β} {value : α} :
    access action system = .ok value after ↔
      action system.bus = .ok value after.bus ∧ after.cpu = system.cpu := by
  rcases after with ⟨cpu, bus⟩
  rw [access_apply]
  cases action system.bus with
  | ok first changed =>
      constructor
      · rintro ⟨⟩
        exact ⟨rfl, rfl⟩
      · rintro ⟨⟨⟩, rfl⟩
        rfl
  | error error changed => simp

theorem cpu_final_access (action : Access β α) (system : System β) :
    (final (access action) system).cpu = system.cpu := by
  rw [final, access_apply]
  cases action system.bus <;> rfl

theorem takeStall_apply [Bus β] (system : System β) :
    takeStall system =
      .ok (Bus.takeStall system.bus).1 ⟨system.cpu, (Bus.takeStall system.bus).2⟩ := rfl

theorem report_apply [Bus β] (event : Event) (system : System β) :
    report event system = .ok () ⟨system.cpu, Bus.report event system.bus⟩ := rfl

theorem keeps_cpu {property : System β → Prop} : Keeps property (cpu : Exec β Cpu) :=
  fun _ holds => holds

theorem keeps_registers {property : System β → Prop} :
    Keeps property (registers : Exec β Registers) :=
  fun _ holds => holds

end Exec
end GameBoy
