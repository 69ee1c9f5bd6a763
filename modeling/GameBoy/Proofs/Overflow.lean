import GameBoy.Proofs.Devices
import Mathlib.Data.Nat.Bitwise
import Mathlib.Order.Monotone.Basic

/-!
# Overflows of the timer

While nothing writes its registers, an enabled timer counts one edge for each period of its counter.
The cycles of its overflows are therefore known beforehand, and with them its whole state after any
number of cycles.
-/

namespace GameBoy
namespace Timer

/-- TIMA counts the edges of the selected counter bit. -/
def isEnabled (timer : Timer) : Bool :=
  timer.tac &&& 0x04 != 0

/-- Cycles from one edge of the selected counter bit to the next. -/
def period (timer : Timer) : Nat :=
  match (timer.tac &&& 0x03).toNat with
  | 0 => 1024
  | 1 => 16
  | 2 => 64
  | _ => 256

/-- Edges of the selected counter bit within a number of cycles. -/
def edges (timer : Timer) (cycles : Nat) : Nat :=
  (timer.counter.toNat + cycles) / timer.period - timer.counter.toNat / timer.period

/-- Edges up to an overflow, the first one being number zero: TIMA has to be filled up once, and
then again from its reloaded value for each further overflow. -/
def overflowCount (timer : Timer) (index : Nat) : Nat :=
  (256 - timer.tima.toNat) + index * (256 - timer.tma.toNat)

/-- A number of edges is reached in a cycle and not before. -/
def Reaches (timer : Timer) (count cycle : Nat) : Prop :=
  timer.edges cycle = count ∧ ∀ earlier < cycle, timer.edges earlier < count

/-- TIMA passes from its greatest value to zero in a cycle. -/
def OverflowsAt (timer : Timer) (cycle : Nat) : Prop :=
  ∃ earlier, cycle = earlier + 1 ∧ (timer.tick earlier).tima = 0xFF ∧ (timer.tick cycle).tima = 0

theorem two_bits (value : UInt8) :
    value &&& 0x03 = 0 ∨ value &&& 0x03 = 1 ∨ value &&& 0x03 = 2 ∨ value &&& 0x03 = 3 := by
  have small : (value &&& 0x03).toNat ≤ 3 := by
    rw [UInt8.toNat_and]
    exact Nat.and_le_right
  simp only [← UInt8.toNat_inj, UInt8.reduceToNat]
  omega

theorem period_mem (timer : Timer) : timer.period ∈ [16, 64, 256, 1024] := by
  rw [period]
  rcases two_bits timer.tac with selected | selected | selected | selected <;>
    simp [selected]

theorem sixteen_le_period (timer : Timer) : 16 ≤ timer.period := by
  have known := timer.period_mem
  simp only [List.mem_cons, List.not_mem_nil, or_false] at known
  omega

/-- The selected bit is high in the second half of each period. -/
theorem selected_iff (timer : Timer) (counter : UInt16) :
    (counter &&& timer.selectedBit != 0) = true ↔
      timer.period ≤ 2 * (counter.toNat % timer.period) := by
  have found (place : Nat) (bit : UInt16) (single : bit.toNat = 2 ^ place) :
      (counter &&& bit != 0) = true ↔ counter.toNat / 2 ^ place % 2 = 1 := by
    have masked : (counter &&& bit).toNat = (counter.toNat.testBit place).toNat * 2 ^ place := by
      rw [UInt16.toNat_and, single, Nat.and_two_pow]
    rw [bne_iff_ne, ne_eq, ← UInt16.toNat_inj, masked, Nat.testBit_eq_decide_div_mod_eq]
    by_cases high : counter.toNat / 2 ^ place % 2 = 1 <;> simp [high]
  rw [period, selectedBit]
  rcases two_bits timer.tac with selected | selected | selected | selected <;>
    rw [selected]
  · simp only [UInt8.reduceToNat]
    rw [found 9 0x0200 rfl]
    omega
  · simp only [UInt8.reduceToNat]
    rw [found 3 0x0008 rfl]
    omega
  · simp only [UInt8.reduceToNat]
    rw [found 5 0x0020 rfl]
    omega
  · simp only [UInt8.reduceToNat]
    rw [found 7 0x0080 rfl]
    omega

/-- The signal falls when the counter completes a period. -/
theorem falls_iff (timer : Timer) (enabled : timer.isEnabled) :
    (timer.signal && !{ timer with counter := timer.counter + 1 }.signal) = true ↔
      timer.period ∣ timer.counter.toNat + 1 := by
  have high (other : Timer) (same : other.tac = timer.tac) :
      other.signal = true ↔ timer.period ≤ 2 * (other.counter.toNat % timer.period) := by
    rw [← timer.selected_iff]
    simp only [signal, selectedBit, same, Bool.and_eq_true]
    exact and_iff_right enabled
  rw [Bool.and_eq_true, Bool.not_eq_true', ← Bool.not_eq_true, high timer rfl,
    high { timer with counter := timer.counter + 1 } rfl, UInt16.toNat_add, UInt16.toNat_one]
  have known := timer.period_mem
  have bound := timer.counter.toNat_lt
  simp only [List.mem_cons, List.not_mem_nil, or_false] at known
  rcases known with known | known | known | known <;> rw [known] <;> omega

theorem edges_eq (timer : Timer) (cycles : Nat) :
    timer.edges cycles = (timer.counter.toNat % timer.period + cycles) / timer.period := by
  have positive := timer.sixteen_le_period
  have whole := Nat.div_add_mod timer.counter.toNat timer.period
  rw [edges]
  conv_lhs => rw [← whole, Nat.add_assoc, Nat.mul_add_div (by omega)]
  rw [whole, Nat.add_sub_cancel_left]

theorem edges_mono (timer : Timer) {fewer more : Nat} (le : fewer ≤ more) :
    timer.edges fewer ≤ timer.edges more := by
  rw [edges_eq, edges_eq]
  exact Nat.div_le_div_right (by omega)

theorem edges_zero (timer : Timer) : timer.edges 0 = 0 := by
  rw [edges, Nat.add_zero, Nat.sub_self]

theorem edges_succ (timer : Timer) (cycles : Nat) :
    timer.edges (cycles + 1) = timer.edges cycles +
      if timer.period ∣ timer.counter.toNat + cycles + 1 then 1 else 0 := by
  have begun : timer.counter.toNat / timer.period ≤
      (timer.counter.toNat + cycles) / timer.period := Nat.div_le_div_right (by omega)
  rw [edges, edges, ← Nat.add_assoc, Nat.succ_div]
  omega

theorem overflowCount_pos (timer : Timer) (index : Nat) : 0 < timer.overflowCount index := by
  have bound := timer.tima.toNat_lt
  rw [overflowCount]
  omega

theorem overflowCount_succ (timer : Timer) (index : Nat) :
    timer.overflowCount (index + 1) = timer.overflowCount index + (256 - timer.tma.toNat) := by
  simp only [overflowCount, Nat.succ_mul, Nat.add_assoc]

theorem overflowCount_strictMono (timer : Timer) : StrictMono timer.overflowCount :=
  strictMono_nat_of_lt_succ fun index => by
    have bound := timer.tma.toNat_lt
    rw [overflowCount_succ]
    omega

namespace Reaches

variable {timer : Timer} {count other cycle later : Nat}

theorem lt_iff (reached : timer.Reaches count cycle) (next : timer.Reaches other later) :
    cycle < later ↔ count < other := by
  refine ⟨fun before => reached.1 ▸ next.2 cycle before, fun fewer => ?_⟩
  by_contra after
  have counted := timer.edges_mono (Nat.le_of_not_lt after)
  rw [reached.1, next.1] at counted
  omega

theorem eq_of_eq (reached : timer.Reaches count cycle) (next : timer.Reaches count later) :
    cycle = later := by
  have forth := reached.lt_iff next
  have back := next.lt_iff reached
  omega

/-- The cycle in which a number of edges is reached. -/
theorem iff_add_eq (positive : 0 < count) : timer.Reaches count cycle ↔
    timer.counter.toNat % timer.period + cycle = count * timer.period := by
  have wide := timer.sixteen_le_period
  have phase := Nat.mod_lt timer.counter.toNat (Nat.lt_of_lt_of_le (by omega) wide)
  have fewer_iff (cycle : Nat) : timer.edges cycle < count ↔
      timer.counter.toNat % timer.period + cycle < count * timer.period := by
    rw [edges_eq, Nat.div_lt_iff_lt_mul (by omega)]
  constructor
  · rintro ⟨reached, first⟩
    have enough := (fewer_iff cycle).not.mp (by omega)
    cases cycle with
    | zero =>
        rw [edges_zero] at reached
        omega
    | succ earlier =>
        have missing := (fewer_iff earlier).mp (first earlier (by omega))
        omega
  · intro placed
    refine ⟨?_, fun earlier before => (fewer_iff earlier).mpr (by omega)⟩
    rw [edges_eq, placed, Nat.mul_div_cancel _ (by omega)]

theorem exists_of_pos (timer : Timer) (positive : 0 < count) :
    ∃ cycle, timer.Reaches count cycle := by
  have wide := timer.sixteen_le_period
  have phase := Nat.mod_lt timer.counter.toNat (Nat.lt_of_lt_of_le (by omega) wide)
  have whole : timer.period ≤ count * timer.period := Nat.le_mul_of_pos_left _ positive
  exact ⟨count * timer.period - timer.counter.toNat % timer.period,
    (iff_add_eq positive).mpr (by omega)⟩

/-- No further edge comes soon after one. -/
theorem edges_of_lt (reached : timer.Reaches count cycle) (positive : 0 < count)
    (after : cycle ≤ later) (soon : later < cycle + 16) : timer.edges later = count := by
  have wide := timer.sixteen_le_period
  have placed := (iff_add_eq positive).mp reached
  rw [edges_eq]
  refine Nat.div_eq_of_lt_le (by omega) ?_
  rw [Nat.succ_mul]
  omega

theorem of_succ (fewer : timer.edges cycle < count) (reached : timer.edges (cycle + 1) = count) :
    timer.Reaches count (cycle + 1) :=
  ⟨reached, fun _ before =>
    (timer.edges_mono (Nat.le_of_lt_succ before)).trans_lt fewer⟩

end Reaches

/-- The state of a timer that has been left alone for a number of cycles and has reloaded TIMA a
number of times.  It counts up to the next overflow, or waits for the reload after it. -/
structure Stands (timer : Timer) (cycles reloads : Nat) (now : Timer) : Prop where
  counter : now.counter = timer.counter + UInt16.ofNat cycles
  tma : now.tma = timer.tma
  tac : now.tac = timer.tac
  requested : now.requested = decide (0 < reloads)
  reloaded : ∀ index < reloads, ∀ overflow, timer.Reaches (timer.overflowCount index) overflow →
    overflow + 4 ≤ cycles
  phase :
    (now.reloadIn = none ∧ now.tima.toNat + timer.overflowCount reloads =
      256 + timer.edges cycles) ∨
    ∃ overflow left, timer.Reaches (timer.overflowCount reloads) overflow ∧
      now.reloadIn = some left ∧ now.tima = 0 ∧ 0 < left ∧ left ≤ 4 ∧ cycles + left = overflow + 4

theorem stands_zero {timer : Timer} (settled : timer.reloadIn = none)
    (unrequested : timer.requested = false) : Stands timer 0 0 timer where
  counter := by simp
  tma := rfl
  tac := rfl
  requested := unrequested
  reloaded := by simp
  phase := by
    have bound := timer.tima.toNat_lt
    refine .inl ⟨settled, ?_⟩
    rw [overflowCount, edges_zero]
    omega

namespace Stands

variable {timer now : Timer} {cycles reloads : Nat}

/-- A cycle brings a pending reload closer and counts an edge if there is one. -/
theorem cycle_eq (stands : Stands timer cycles reloads now) (enabled : timer.isEnabled) :
    (timer.edges (cycles + 1) = timer.edges cycles ∧
      now.cycle = { now.advanceReload with counter := timer.counter + UInt16.ofNat (cycles + 1) }) ∨
    (timer.edges (cycles + 1) = timer.edges cycles + 1 ∧
      now.cycle =
        count { now.advanceReload with counter := timer.counter + UInt16.ofNat (cycles + 1) }) := by
  have kept : now.advanceReload.tac = timer.tac ∧ now.advanceReload.counter = now.counter := by
    rw [advanceReload, ← stands.tac]
    split
    · exact ⟨rfl, rfl⟩
    · split <;> exact ⟨rfl, rfl⟩
  have same : now.advanceReload.period = timer.period := by
    rw [period, period, kept.1]
  have falls := now.advanceReload.falls_iff (by rw [isEnabled, kept.1]; exact enabled)
  have moved : now.advanceReload.counter + 1 =
      timer.counter + UInt16.ofNat (cycles + 1) := by
    rw [kept.2, stands.counter, UInt16.ofNat_add, UInt16.add_assoc]
    rfl
  have edge : timer.period ∣ now.advanceReload.counter.toNat + 1 ↔
      timer.period ∣ timer.counter.toNat + cycles + 1 := by
    have known := timer.period_mem
    rw [kept.2, stands.counter, UInt16.toNat_add, UInt16.toNat_ofNat']
    simp only [List.mem_cons, List.not_mem_nil, or_false] at known
    rcases known with known | known | known | known <;> rw [known] <;> omega
  rw [same, edge] at falls
  rw [cycle, advanceCounter, settle, edges_succ]
  by_cases divides : timer.period ∣ timer.counter.toNat + cycles + 1
  · rw [if_pos (falls.mpr divides), if_pos divides, moved]
    exact .inr ⟨rfl, rfl⟩
  · rw [if_neg fun high => divides (falls.mp high), if_neg divides, moved]
    exact .inl ⟨rfl, rfl⟩

theorem le_of_reaches (stands : Stands timer cycles reloads now) {index : Nat}
    (reached : timer.Reaches (timer.overflowCount index) (cycles + 1)) : reloads ≤ index := by
  by_contra fewer
  have earlier := stands.reloaded index (by omega) _ reached
  omega

theorem not_reaches (unchanged : timer.edges (cycles + 1) = timer.edges cycles) (index : Nat) :
    ¬timer.Reaches (timer.overflowCount index) (cycles + 1) := by
  intro reached
  have fewer := reached.2 cycles (by omega)
  rw [← reached.1, unchanged] at fewer
  omega

theorem cycle_of_counting (stands : Stands timer cycles reloads now) (enabled : timer.isEnabled)
    (settled : now.reloadIn = none)
    (filled : now.tima.toNat + timer.overflowCount reloads = 256 + timer.edges cycles) :
    Stands timer (cycles + 1) reloads now.cycle ∧
      (now.tima = 0xFF ∧ now.cycle.tima = 0 ↔
        ∃ index, timer.Reaches (timer.overflowCount index) (cycles + 1)) := by
  have ready : now.advanceReload = now := by rw [advanceReload, settled]
  have bound := now.tima.toNat_lt
  have reloaded (index : Nat) (fewer : index < reloads) (overflow : Nat)
      (reached : timer.Reaches (timer.overflowCount index) overflow) : overflow + 4 ≤ cycles + 1 :=
    Nat.le_succ_of_le (stands.reloaded index fewer overflow reached)
  obtain ⟨unchanged, after⟩ | ⟨counted, after⟩ := ready ▸ stands.cycle_eq enabled
  · rw [after]
    refine ⟨⟨rfl, stands.tma, stands.tac, stands.requested, reloaded,
      .inl ⟨settled, by rw [unchanged]; exact filled⟩⟩, ?_⟩
    constructor
    · rintro ⟨full, empty⟩
      exact absurd (full.symm.trans empty) (by decide)
    · rintro ⟨index, reached⟩
      exact absurd reached (not_reaches unchanged index)
  · rw [after]
    by_cases full : now.tima = 0xFF
    · have enough : timer.edges cycles + 1 = timer.overflowCount reloads := by
        have greatest : now.tima.toNat = 255 := by rw [full]; rfl
        omega
      have reached : timer.Reaches (timer.overflowCount reloads) (cycles + 1) :=
        .of_succ (by omega) (by omega)
      refine ⟨⟨rfl, stands.tma, stands.tac, stands.requested, reloaded, .inr
        ⟨cycles + 1, 4, reached, ?_, ?_, by omega, by omega, rfl⟩⟩, fun _ => ⟨_, reached⟩,
        fun _ => ⟨full, ?_⟩⟩
      · simp [count, full]
      · simp [count, full]
      · simp [count, full]
    · have missing : now.tima.toNat ≠ 255 := fun greatest => full (UInt8.toNat_inj.mp greatest)
      refine ⟨⟨rfl, stands.tma, stands.tac, stands.requested, reloaded, .inl ⟨?_, ?_⟩⟩,
        fun changed => absurd changed.1 full, ?_⟩
      · simp [count, full, settled]
      · rw [counted, count, UInt8.toNat_add, UInt8.toNat_one]
        simp only
        omega
      · rintro ⟨index, reached⟩
        have later := timer.overflowCount_strictMono.monotone (stands.le_of_reaches reached)
        have enough := reached.1
        omega

theorem cycle_of_waiting (stands : Stands timer cycles reloads now) (enabled : timer.isEnabled)
    {overflow left : Nat} (reached : timer.Reaches (timer.overflowCount reloads) overflow)
    (pending : now.reloadIn = some left) (empty : now.tima = 0) (positive : 0 < left)
    (soon : left ≤ 4) (placed : cycles + left = overflow + 4) :
    (∃ reloads, Stands timer (cycles + 1) reloads now.cycle) ∧
      ¬∃ index, timer.Reaches (timer.overflowCount index) (cycles + 1) := by
  have same : timer.edges cycles = timer.overflowCount reloads :=
    reached.edges_of_lt (timer.overflowCount_pos _) (by omega) (by omega)
  have next : timer.edges (cycles + 1) = timer.overflowCount reloads :=
    reached.edges_of_lt (timer.overflowCount_pos _) (by omega) (by omega)
  obtain ⟨unchanged, after⟩ | ⟨counted, _⟩ := stands.cycle_eq enabled
  · refine ⟨?_, fun ⟨index, overflowed⟩ => not_reaches unchanged index overflowed⟩
    rw [after, advanceReload, pending]
    by_cases due : left ≤ 1
    · simp only [if_pos due]
      refine ⟨reloads + 1, rfl, stands.tma, stands.tac, by simp, ?_, .inl ⟨rfl, ?_⟩⟩
      · intro index fewer last reachedLast
        obtain before | rfl := Nat.lt_succ_iff_lt_or_eq.mp fewer
        · exact Nat.le_succ_of_le (stands.reloaded index before last reachedLast)
        · have known := reachedLast.eq_of_eq reached
          omega
      · have bound := timer.tma.toNat_lt
        rw [stands.tma, overflowCount_succ, next]
        simp only
        omega
    · simp only [if_neg due]
      refine ⟨reloads, rfl, stands.tma, stands.tac, stands.requested, ?_, .inr
        ⟨overflow, left - 1, reached, rfl, empty, by omega, by omega, by omega⟩⟩
      exact fun index fewer last reachedLast =>
        Nat.le_succ_of_le (stands.reloaded index fewer last reachedLast)
  · omega

theorem cycle (stands : Stands timer cycles reloads now) (enabled : timer.isEnabled) :
    (∃ reloads, Stands timer (cycles + 1) reloads now.cycle) ∧
      (now.tima = 0xFF ∧ now.cycle.tima = 0 ↔
        ∃ index, timer.Reaches (timer.overflowCount index) (cycles + 1)) := by
  obtain ⟨settled, filled⟩ | ⟨overflow, left, reached, pending, empty, positive, soon, placed⟩ :=
    stands.phase
  · obtain ⟨next, overflows⟩ := stands.cycle_of_counting enabled settled filled
    exact ⟨⟨reloads, next⟩, overflows⟩
  · obtain ⟨next, never⟩ :=
      stands.cycle_of_waiting enabled reached pending empty positive soon placed
    exact ⟨next, fun changed => absurd (empty.symm.trans changed.1) (by decide),
      fun overflowed => absurd overflowed never⟩

end Stands

variable {timer : Timer}

theorem tick_succ (timer : Timer) (cycles : Nat) :
    timer.tick (cycles + 1) = (timer.tick cycles).cycle := by
  rw [tick_add, tick_eq_run 1]
  rfl

theorem stands_tick (settled : timer.reloadIn = none) (unrequested : timer.requested = false)
    (enabled : timer.isEnabled) (cycles : Nat) :
    ∃ reloads, Stands timer cycles reloads (timer.tick cycles) := by
  induction cycles with
  | zero =>
      rw [tick_eq_run]
      exact ⟨0, stands_zero settled unrequested⟩
  | succ cycles ih =>
      obtain ⟨reloads, stands⟩ := ih
      rw [tick_succ]
      exact (stands.cycle enabled).1

theorem overflowsAt_iff (settled : timer.reloadIn = none) (unrequested : timer.requested = false)
    (enabled : timer.isEnabled) (cycle : Nat) :
    timer.OverflowsAt cycle ↔ ∃ index, timer.Reaches (timer.overflowCount index) cycle := by
  cases cycle with
  | zero =>
      refine ⟨fun ⟨_, impossible, _⟩ => by omega, fun ⟨index, reached⟩ => ?_⟩
      have positive := timer.overflowCount_pos index
      rw [← reached.1, edges_zero] at positive
      omega
  | succ earlier =>
      obtain ⟨reloads, stands⟩ := stands_tick settled unrequested enabled earlier
      rw [← (stands.cycle enabled).2, OverflowsAt, ← tick_succ]
      constructor
      · rintro ⟨_, same, full, empty⟩
        obtain rfl := Nat.succ_inj.mp same
        exact ⟨full, empty⟩
      · exact fun changed => ⟨earlier, rfl, changed⟩

theorem Stands.reloads_pos {now : Timer} {cycles reloads index overflow : Nat}
    (stands : Stands timer cycles reloads now)
    (reached : timer.Reaches (timer.overflowCount index) overflow)
    (early : overflow + 4 ≤ cycles) : 0 < reloads := by
  by_contra unreloaded
  obtain rfl : reloads = 0 := by omega
  have first := timer.overflowCount_strictMono.monotone index.zero_le
  obtain ⟨_, filled⟩ | ⟨waiting, left, waits, _, _, positive, _, placed⟩ := stands.phase
  · have bound := now.tima.toNat_lt
    have passed := timer.edges_mono (show overflow ≤ cycles by omega)
    rw [reached.1] at passed
    omega
  · have fewer := (reached.lt_iff waits).mp (by omega)
    omega

theorem Stands.tima_of_last {now : Timer} {cycles reloads index last : Nat}
    (stands : Stands timer cycles reloads now)
    (reached : timer.Reaches (timer.overflowCount index) last) (within : last ≤ cycles)
    (final : ∀ index cycle, cycle ≤ cycles → timer.Reaches (timer.overflowCount index) cycle →
      cycle ≤ last) :
    now.tima.toNat =
      if cycles < last + 4 then 0
      else timer.tma.toNat + (timer.edges cycles - timer.edges last) := by
  have passed : timer.overflowCount index ≤ timer.edges cycles := by
    rw [← reached.1]
    exact timer.edges_mono within
  obtain ⟨_, filled⟩ | ⟨overflow, left, waiting, _, empty, positive, soon, placed⟩ := stands.phase
  · have bound := now.tima.toNat_lt
    have fewer : index < reloads := timer.overflowCount_strictMono.lt_iff_lt.mp (by omega)
    -- the overflow of the latest reload is not after the last one, so it is the last one
    obtain ⟨latest, rfl⟩ := Nat.exists_eq_succ_of_ne_zero (Nat.ne_zero_of_lt fewer)
    obtain ⟨overflow, reloaded⟩ := Reaches.exists_of_pos timer (timer.overflowCount_pos latest)
    have early := stands.reloaded latest (Nat.lt_succ_self latest) overflow reloaded
    have before := final latest overflow (by omega) reloaded
    obtain same | earlier := Nat.eq_or_lt_of_le (Nat.le_of_lt_succ fewer)
    · subst same
      have known := reached.eq_of_eq reloaded
      have reload := timer.tma.toNat_lt
      rw [overflowCount_succ] at filled
      rw [if_neg (by omega), reached.1]
      omega
    · have later := (reached.lt_iff reloaded).mpr (timer.overflowCount_strictMono earlier)
      omega
  · have before := final reloads overflow (by omega) waiting
    have counted := waiting.edges_of_lt (timer.overflowCount_pos _)
      (show overflow ≤ cycles by omega) (by omega)
    have order := timer.edges_mono before
    rw [reached.1, waiting.1] at order
    have known : last = overflow :=
      reached.eq_of_eq (Nat.le_antisymm (counted ▸ passed) order ▸ waiting)
    rw [if_pos (by omega), empty]
    rfl

/-- What is known of a timer after a number of cycles without a write to its registers. -/
structure Counted (timer : Timer) (cycles : Nat) (now : Timer) : Prop where
  counter : now.counter.toNat = (timer.counter.toNat + cycles) % 65536
  tma : now.tma = timer.tma
  tac : now.tac = timer.tac
  /-- TIMA overflows exactly where the edges suffice. -/
  overflows : ∀ cycle, timer.OverflowsAt cycle ↔
    ∃ index, timer.Reaches (timer.overflowCount index) cycle
  filling : (∀ cycle ≤ cycles, ¬timer.OverflowsAt cycle) →
    now.tima.toNat = timer.tima.toNat + timer.edges cycles
  refilling : ∀ last ≤ cycles, timer.OverflowsAt last →
    (∀ cycle ≤ cycles, timer.OverflowsAt cycle → cycle ≤ last) →
    now.tima.toNat =
      if cycles < last + 4 then 0
      else timer.tma.toNat + (timer.edges cycles - timer.edges last)
  requested : now.requested = true ↔ ∃ overflow, timer.OverflowsAt overflow ∧ overflow + 4 ≤ cycles

theorem toNat_counter_tick (timer : Timer) (cycles : Nat) :
    (timer.tick cycles).counter.toNat = (timer.counter.toNat + cycles) % 65536 := by
  rw [counter_tick, UInt16.toNat_add, UInt16.toNat_ofNat', Nat.add_mod_mod]

theorem counted_tick (settled : timer.reloadIn = none) (unrequested : timer.requested = false)
    (enabled : timer.isEnabled) (cycles : Nat) : Counted timer cycles (timer.tick cycles) := by
  have overflows := overflowsAt_iff settled unrequested enabled
  obtain ⟨reloads, stands⟩ := stands_tick settled unrequested enabled cycles
  refine ⟨toNat_counter_tick timer cycles, stands.tma, stands.tac, overflows, fun never => ?_,
    fun last within overflowed final => ?_, ?_⟩
  · obtain ⟨_, filled⟩ | ⟨overflow, left, waiting, _, _, _, soon, placed⟩ := stands.phase
    · cases reloads with
      | zero =>
          have bound := timer.tima.toNat_lt
          rw [overflowCount] at filled
          omega
      | succ latest =>
          obtain ⟨overflow, reloaded⟩ :=
            Reaches.exists_of_pos timer (timer.overflowCount_pos latest)
          have early := stands.reloaded latest (Nat.lt_succ_self latest) overflow reloaded
          exact absurd ((overflows overflow).mpr ⟨latest, reloaded⟩) (never overflow (by omega))
    · exact absurd ((overflows overflow).mpr ⟨reloads, waiting⟩) (never overflow (by omega))
  · obtain ⟨index, reached⟩ := (overflows last).mp overflowed
    exact stands.tima_of_last reached within fun index cycle before reached =>
      final cycle before ((overflows cycle).mpr ⟨index, reached⟩)
  · rw [stands.requested, decide_eq_true_iff]
    constructor
    · intro reloaded
      obtain ⟨overflow, reached⟩ := Reaches.exists_of_pos timer (timer.overflowCount_pos 0)
      exact ⟨overflow, (overflows overflow).mpr ⟨0, reached⟩,
        stands.reloaded 0 reloaded overflow reached⟩
    · rintro ⟨overflow, overflowed, early⟩
      obtain ⟨index, reached⟩ := (overflows overflow).mp overflowed
      exact stands.reloads_pos reached early

/-- An enabled timer that is left alone follows the edges of its counter, and a disabled one only
moves its counter. -/
theorem tick_of_settled (settled : timer.reloadIn = none) (unrequested : timer.requested = false)
    (cycles : Nat) :
    (timer.isEnabled = true →
      timer.period ∈ [16, 64, 256, 1024] ∧ Counted timer cycles (timer.tick cycles)) ∧
    (timer.isEnabled = false →
      (timer.tick cycles).counter.toNat = (timer.counter.toNat + cycles) % 65536 ∧
      timer.tick cycles = { timer with counter := timer.counter + UInt16.ofNat cycles }) := by
  refine ⟨fun enabled => ⟨timer.period_mem, counted_tick settled unrequested enabled cycles⟩,
    fun disabled => ⟨toNat_counter_tick timer cycles, ?_⟩⟩
  have quiet : timer.isQuiet = true := by
    rw [isQuiet, settled, Bool.and_eq_true]
    exact ⟨by simpa [isEnabled] using disabled, rfl⟩
  rw [tick, if_pos quiet]

/-- At the fastest rate an overflow in cycle 16 has reloaded TIMA and requested in cycle 20. -/
theorem tick_of_settled_reload :
    let timer : Timer := { tima := 0xFF, tma := 0xF0, tac := 0x05 }
    (timer.reloadIn = none ∧ timer.requested = false ∧ timer.isEnabled = true) ∧
      Counted timer 20 (timer.tick 20) ∧ timer.OverflowsAt 16 ∧
      (timer.tick 20).requested = true := by
  intro timer
  have settled : timer.reloadIn = none ∧ timer.requested = false := ⟨rfl, rfl⟩
  have enabled : timer.isEnabled = true := by decide
  have counted : Counted timer 20 (timer.tick 20) :=
    ((tick_of_settled settled.1 settled.2 20).1 enabled).2
  have overflowed : timer.OverflowsAt 16 := ⟨15, rfl, by decide +kernel, by decide +kernel⟩
  exact ⟨⟨settled.1, settled.2, enabled⟩, counted, overflowed,
    counted.requested.mpr ⟨16, overflowed, by decide⟩⟩

end Timer
end GameBoy
