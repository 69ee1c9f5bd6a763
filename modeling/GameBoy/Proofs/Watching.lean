import GameBoy.Bus.Flat
import GameBoy.Proofs.Tape

/-!
# Watching a bus

A watched bus keeps every access that is made to it, as flat memory does.  Whatever acts on it acts
on the bus within as if nobody watched.
-/

namespace GameBoy

open Effect

/-- A bus with the accesses made to it so far, oldest first. -/
structure Watched (β : Type) where
  bus : β
  accesses : Array AccessRecord := #[]

namespace Watched

variable {β : Type} [Bus β]

instance : Bus (Watched β) where
  read address watched :=
    match Bus.read address watched.bus with
    | .ok value bus => .ok value ⟨bus, watched.accesses.push (.read address value)⟩
    | .error error bus => .error error ⟨bus, watched.accesses.push (.readRefused address)⟩
  write address value watched :=
    match Bus.write address value watched.bus with
    | .ok () bus => .ok () ⟨bus, watched.accesses.push (.write address value)⟩
    | .error error bus => .error error ⟨bus, watched.accesses.push (.writeRefused address)⟩
  takeStall watched :=
    let (cycles, bus) := Bus.takeStall watched.bus
    (cycles, { watched with bus })
  report event watched := { watched with bus := Bus.report event watched.bus }

theorem read_apply (address : UInt16) (watched : Watched β) :
    Bus.read address watched =
      match Bus.read address watched.bus with
      | .ok value bus => .ok value ⟨bus, watched.accesses.push (.read address value)⟩
      | .error error bus =>
        .error error ⟨bus, watched.accesses.push (.readRefused address)⟩ := rfl

theorem write_apply (address : UInt16) (value : UInt8) (watched : Watched β) :
    Bus.write address value watched =
      match Bus.write address value watched.bus with
      | .ok () bus => .ok () ⟨bus, watched.accesses.push (.write address value)⟩
      | .error error bus =>
        .error error ⟨bus, watched.accesses.push (.writeRefused address)⟩ := rfl

theorem read_of_ok {address : UInt16} {bus after : β} {value : UInt8}
    (ran : Bus.read address bus = .ok value after) (accesses : Array AccessRecord) :
    Bus.read address (⟨bus, accesses⟩ : Watched β) =
      .ok value ⟨after, accesses.push (.read address value)⟩ := by
  rw [read_apply, ran]

theorem write_of_ok {address : UInt16} {value : UInt8} {bus after : β}
    (ran : Bus.write address value bus = .ok () after) (accesses : Array AccessRecord) :
    Bus.write address value (⟨bus, accesses⟩ : Watched β) =
      .ok () ⟨after, accesses.push (.write address value)⟩ := by
  rw [write_apply, ran]

/-- Nothing that is watched notices it. -/
theorem sees_bus : Bus.View (Watched.bus : Watched β → β) where
  read address watched := by
    rw [read_apply]
    cases Bus.read address watched.bus <;> rfl
  write address value watched := by
    rw [write_apply]
    cases Bus.write address value watched.bus <;> rfl
  takeStall _ := rfl
  report _ _ := rfl

end Watched
end GameBoy
