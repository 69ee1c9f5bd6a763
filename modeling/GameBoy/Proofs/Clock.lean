import GameBoy.Proofs.Devices
import GameBoy.Proofs.Footprint
import GameBoy.Proofs.Frames

/-!
# One clock

The timer and the picture unit advance by exactly the cycles that the steps of the processor take,
whatever these steps are.  Only a write to the divider sets the counter back, and only a write to
LCD control sets the picture unit back.
-/

namespace GameBoy

open Effect

/-! ## The picture unit between steps -/

namespace Ppu

/-- The picture unit stands where a consistent observation of it says. -/
def Tracked (ppu : Ppu) : Prop :=
  ∃ now : Observed, now.ppu = ppu ∧ now.Consistent

variable {ppu : Ppu} {value : UInt8}

theorem tracked_boot (boot : BootState) : Tracked (Observed.after boot []).ppu :=
  ⟨_, rfl, Observed.consistent_after boot []⟩

theorem Tracked.of_agrees {other : Ppu} (tracked : other.Tracked) (agrees : Agrees ppu other) :
    ppu.Tracked := by
  obtain ⟨now, rfl, consistent⟩ := tracked
  refine ⟨{ now with ppu }, rfl, consistent.of_beam agrees.lcdEnabled agrees.beam ?_⟩
  rw [agrees.statSelect]
  exact consistent.select

theorem Tracked.write (tracked : ppu.Tracked) (address : UInt16) (value : UInt8) :
    (ppu.write address value).Tracked := by
  obtain ⟨now, rfl, consistent⟩ := tracked
  refine ⟨now.write address value, ?_, consistent.write address value⟩
  simp only [Observed.write]
  split <;> rfl

theorem fst_tick {σ : Type} (render : Renderer σ) (dots : Nat) (screen : σ) (ppu : Ppu) :
    (ppu.tick render dots screen).1 = dot^[dots] ppu := by
  rw [tick_eq_run, run_eq_foldl]

theorem lcdEnabled_tick {σ : Type} (render : Renderer σ) (dots : Nat) (screen : σ) (ppu : Ppu) :
    (ppu.tick render dots screen).1.lcdEnabled = ppu.lcdEnabled := by
  rw [fst_tick]
  induction dots generalizing ppu with
  | zero => rfl
  | succ dots ih => rw [Function.iterate_succ_apply, ih, lcdEnabled_dot]

theorem ppu_tick (now : Observed) {σ : Type} (render : Renderer σ) (dots : Nat) (screen : σ) :
    (now.tick dots).ppu = (now.ppu.tick render dots screen).1 := by
  rw [fst_tick, ← fst_tick Renderer.recorder dots now.drawn]
  rfl

theorem Tracked.tick (tracked : ppu.Tracked) {σ : Type} (render : Renderer σ) (dots : Nat)
    (screen : σ) : (ppu.tick render dots screen).1.Tracked := by
  obtain ⟨now, rfl, consistent⟩ := tracked
  exact ⟨now.tick dots, ppu_tick now render dots screen, consistent.tick dots⟩

theorem Tracked.inFrame (tracked : ppu.Tracked) (on : ppu.lcdEnabled = true) :
    ppu.beam.InFrame := by
  obtain ⟨now, rfl, consistent⟩ := tracked
  exact (consistent.on on).inFrame

theorem Tracked.position_lt (tracked : ppu.Tracked) (on : ppu.lcdEnabled = true) :
    ppu.beam.position < 70224 := by
  obtain ⟨now, rfl, consistent⟩ := tracked
  rw [(consistent.on on).position_eq]
  exact Nat.mod_lt _ (by decide)

/-- While the display is on, every dot that passes moves the position by one. -/
theorem Tracked.position_tick (tracked : ppu.Tracked) (on : ppu.lcdEnabled = true) {σ : Type}
    (render : Renderer σ) (dots : Nat) (screen : σ) :
    (ppu.tick render dots screen).1.beam.position = (ppu.beam.position + dots) % 70224 := by
  obtain ⟨now, rfl, consistent⟩ := tracked
  have same := ppu_tick now render dots screen
  have still : (now.tick dots).ppu.lcdEnabled = true := by
    rw [same, lcdEnabled_tick, on]
  have begun := (consistent.on on).position_eq
  have ended := ((consistent.tick dots).on still).position_eq
  change _ = (now.elapsed + dots) % 70224 at ended
  rw [← same, ended, begun, Nat.mod_add_mod]

theorem lcdEnabled_setLcdc (ppu : Ppu) (value : UInt8) :
    (ppu.setLcdc value).lcdEnabled = { ppu with lcdc := value }.lcdEnabled := by
  rw [setLcdc]
  cases ppu.lcdEnabled <;> cases later : { ppu with lcdc := value }.lcdEnabled <;> exact later

theorem position_setLcdc (on : (ppu.setLcdc value).lcdEnabled = true) :
    (ppu.setLcdc value).beam.position = if ppu.lcdEnabled then ppu.beam.position else 0 := by
  rw [lcdEnabled_setLcdc] at on
  cases before : ppu.lcdEnabled with
  | true =>
      simp only [setLcdc, before, on]
      rfl
  | false =>
      simp only [setLcdc, before, on]
      simp [setLine, compareLine, beam, Beam.position, PpuMode.start]

/-- A write that leaves the display on keeps the position, or begins a frame by switching it on. -/
theorem position_write {address : UInt16} (on : (ppu.write address value).lcdEnabled = true) :
    (ppu.write address value).beam.position =
      if ppu.lcdEnabled then ppu.beam.position else 0 := by
  by_cases lcdc : address = lcdcAddress
  · have stored : ppu.write address value = ppu.setLcdc value := if_pos lcdc
    rw [stored] at on ⊢
    exact position_setLcdc on
  · obtain ⟨same, kept, _⟩ := Observed.beam_write_of_ne lcdc value ppu
    have power : ppu.lcdEnabled = true := by
      rwa [lcdEnabled, kept] at on
    rw [same, if_pos power]

/-- A picture unit after writes to some addresses, where `start` was the one before them.  If one of
them has switched it off, a second one may have switched it on again. -/
structure Swept (start : Ppu) (addresses : List UInt16) (ppu : Ppu) : Prop where
  unwritten : lcdcAddress ∉ addresses → ppu.beam = start.beam ∧ ppu.lcdc = start.lcdc
  position : addresses.count lcdcAddress ≤ 1 → ppu.lcdEnabled = true →
    ppu.beam.position = if start.lcdEnabled then start.beam.position else 0

theorem Swept.refl (start : Ppu) : Swept start [] start where
  unwritten _ := ⟨rfl, rfl⟩
  position _ on := by rw [if_pos on]

theorem Swept.write {start : Ppu} {addresses : List UInt16} (swept : Swept start addresses ppu)
    (address : UInt16) (value : UInt8) :
    Swept start (addresses ++ [address]) (ppu.write address value) := by
  by_cases lcdc : address = lcdcAddress
  · subst lcdc
    refine ⟨fun absent => absurd (by simp) absent, fun once on => ?_⟩
    have absent : lcdcAddress ∉ addresses := by
      rw [List.count_append, List.count_singleton_self] at once
      exact List.count_eq_zero.mp (by omega)
    obtain ⟨beam, lcdc⟩ := swept.unwritten absent
    rw [position_write on, beam, lcdEnabled, lcdc, lcdEnabled]
  · obtain ⟨same, kept, _⟩ := Observed.beam_write_of_ne lcdc value ppu
    refine ⟨fun absent => ?_, fun once on => ?_⟩
    · obtain ⟨beam, lcdc⟩ := swept.unwritten fun member => absent (List.mem_append_left _ member)
      exact ⟨same.trans beam, kept.trans lcdc⟩
    · rw [List.count_append, List.count_singleton, if_neg (by simpa using lcdc)] at once
      rw [lcdEnabled, kept] at on
      rw [same]
      exact swept.position once on

theorem Swept.of_agrees {start other : Ppu} {addresses : List UInt16}
    (swept : Swept start addresses other) (agrees : Agrees ppu other) :
    Swept start addresses ppu where
  unwritten absent := by
    rw [agrees.beam, agrees.lcdc]
    exact swept.unwritten absent
  position once on := by
    rw [agrees.beam]
    exact swept.position once (agrees.lcdEnabled.symm.trans on)

end Ppu

/-! ## Steps -/

namespace Board

theorem invariant_tracked : Bus.Invariant fun board : Board => board.ppu.Tracked where
  read address board tracked := by
    rcases read_ok_or_record address board with same | ⟨event, same⟩
    · rw [same]
      exact tracked
    · rw [same]
      exact tracked
  write address value board tracked := by
    rw [final, write_apply]
    cases board.refusal address value with
    | some error => exact tracked
    | none => exact (tracked.write address value).of_agrees (board.agrees_store address value)
  takeStall _ tracked := tracked
  report _ _ tracked := tracked

theorem tick_apply {σ : Type} (render : Renderer σ) (cycles : Nat) (board : Board) (screen : σ) :
    (board.tick render cycles screen).1.timer.counter =
        board.timer.counter + UInt16.ofNat cycles ∧
      Ppu.Agrees (board.tick render cycles screen).1.ppu
        (board.ppu.tick render cycles screen).1 := by
  obtain ⟨_, _, collected⟩ := collect_eq
    { board with
      timer := board.timer.tick cycles
      ppu := (board.ppu.tick render cycles screen).1 }
  have ticked : (board.tick render cycles screen).1 =
      { board with
        timer := board.timer.tick cycles
        ppu := (board.ppu.tick render cycles screen).1 }.collect := rfl
  rw [ticked, collected]
  exact ⟨Timer.counter_tick board.timer cycles, rfl, rfl, rfl⟩

theorem setButton_apply (button : Button) (pressed : Bool) (board : Board) :
    (board.setButton button pressed).timer.counter = board.timer.counter ∧
      Ppu.Agrees (board.setButton button pressed).ppu board.ppu := by
  obtain ⟨_, _, collected⟩ :=
    collect_eq { board with joypad := board.joypad.setButton button pressed }
  rw [setButton, collected]
  exact ⟨rfl, rfl, rfl, rfl⟩

/-- A property of a board and of the addresses that have been written to it. -/
structure Accounts (property : List UInt16 → Board → Prop) : Prop where
  record : ∀ {addresses : List UInt16} {board : Board} (event : Event),
    property addresses board → property addresses (board.record event)
  store : ∀ {addresses : List UInt16} {board : Board} (address : UInt16) (value : UInt8),
    property addresses board → property (addresses ++ [address]) (board.store address value)

namespace Accounts

variable {property : List UInt16 → Board → Prop} (accounts : Accounts property)

include accounts

theorem keeps_read (address : UInt16) :
    Keeps (fun taped : Taped Board => property taped.addresses taped.bus) (Bus.read address) := by
  intro taped holds
  rw [final, Taped.read_apply]
  have same := read_ok_or_record address taped.bus
  rw [final] at same
  cases ran : Bus.read address taped.bus <;> rw [ran] at same
  all_goals
    rcases same with rfl | ⟨event, rfl⟩
    · exact holds
    · exact accounts.record event holds

theorem keeps_write (address : UInt16) (value : UInt8) :
    Keeps (fun taped : Taped Board => property taped.addresses taped.bus)
      (Bus.write address value) := by
  intro taped holds
  rw [final, Taped.write_apply, write_apply]
  cases taped.bus.refusal address value with
  | some error => exact accounts.record _ holds
  | none =>
      have stored := accounts.store address value holds
      rw [Taped.addresses, List.map_append]
      exact stored

theorem invariant (collected : ∀ {addresses : List UInt16} {board : Board},
      property addresses board → property addresses { board with stall := 0 }) :
    Bus.Invariant fun taped : Taped Board => property taped.addresses taped.bus where
  read := accounts.keeps_read
  write := accounts.keeps_write
  takeStall _ holds := collected holds
  report event _ holds := accounts.record event holds

end Accounts

/-- The counter goes back to zero with a write to the divider. -/
theorem accounts_counter (start : UInt16) : Accounts fun addresses board =>
    board.timer.counter = if Timer.dividerAddress ∈ addresses then 0 else start where
  record _ holds := holds
  store address value holds := by
    rw [counter_store, holds]
    by_cases divider : address = Timer.dividerAddress
    · simp [divider]
    · have other : Timer.dividerAddress ≠ address := Ne.symm divider
      simp [divider, other]

theorem accounts_swept (start : Ppu) : Accounts fun addresses board =>
    Ppu.Swept start addresses board.ppu where
  record _ swept := swept
  store address value swept :=
    (swept.write address value).of_agrees (agrees_store _ address value)

end Board

namespace Machine

/-- The addresses that the next step writes to, in order. -/
def storedByStep (machine : Machine) : List UInt16 :=
  let taped : System (Taped Board) := ⟨machine.cpu, ⟨machine.bus, []⟩⟩
  (final Cpu.step taped).bus.addresses

/-- What the counter and the position are once the processor has acted and before time passes. -/
theorem clock_of_step {machine after : Machine} {quantum : Quantum}
    (ran : Cpu.step machine = .ok quantum after) :
    after.bus.timer.counter =
        (if Timer.dividerAddress ∈ machine.storedByStep then 0 else machine.bus.timer.counter) ∧
      (after.bus.ppu.lcdEnabled = true → after.bus.ppu.beam.position =
        if machine.bus.ppu.lcdEnabled then machine.bus.ppu.beam.position else 0) := by
  obtain ⟨writes, taped⟩ := Taped.step_of_ok ran []
  let start : System (Taped Board) := ⟨machine.cpu, ⟨machine.bus, []⟩⟩
  have counted := ((Board.accounts_counter machine.bus.timer.counter).invariant id).step start rfl
  have swept := ((Board.accounts_swept machine.bus.ppu).invariant id).step start (.refl _)
  have once := Cpu.count_addresses_step taped (by decide : Ppu.lcdcAddress ≠ _)
  rw [storedByStep, final_of_ok taped]
  rw [final_of_ok taped] at counted swept
  exact ⟨counted, swept.position once⟩

theorem Reachable.tracked {machine : Machine} (reach : machine.Reachable) :
    machine.bus.ppu.Tracked := by
  induction reach with
  | boot cartridge config sink =>
      have tracked := Ppu.tracked_boot config.bootState
      rw [Machine.boot, Board.boot]
      cases boot : config.bootState <;> rw [boot] at tracked <;> exact tracked
  | @step machine σ render screen reach ih =>
      have kept := Board.invariant_tracked.step machine ih
      cases ran : Cpu.step machine with
      | ok quantum after =>
          rw [final_of_ok ran] at kept
          rw [final_of_ok (Session.step_of_ok ran)]
          have ticked := (after.bus.tick_apply render quantum.cycles screen).2
          exact (kept.tick render quantum.cycles screen).of_agrees ticked
      | error fault after =>
          rw [final_of_error ran] at kept
          rw [final_of_error (Session.step_of_error ran)]
          exact kept
  | @setButton machine button pressed reach ih =>
      exact ih.of_agrees (machine.bus.setButton_apply button pressed).2
  | request lines reach ih => exact ih
  | @write machine address value reach ih =>
      exact (Board.invariant_tracked.steady.write address value) machine ih

end Machine

/-! ## Runs -/

namespace Session

variable {σ : Type} {render : Renderer σ} {first last session next : Session σ}
  {moves : List (Move σ)} {quantum : Quantum}

/-- Successful steps from one session to another, with buttons pressed and released in between. -/
inductive Played (render : Renderer σ) (first : Session σ) : List (Move σ) → Session σ → Prop
  | start : Played render first [] first
  | step {session next : Session σ} {quantum : Quantum} {moves : List (Move σ)} :
      Played render first moves session → Session.step render session = .ok quantum next →
      Played render first (moves ++ [⟨session, quantum⟩]) next
  | button {session : Session σ} {moves : List (Move σ)} (button : Button) (pressed : Bool) :
      Played render first moves session →
      Played render first moves ⟨session.machine.setButton button pressed, session.screen⟩

theorem reachable_step (reach : session.machine.Reachable)
    (ran : step render session = .ok quantum next) : next.machine.Reachable := by
  have stepped := Machine.Reachable.step render session.screen reach
  rwa [show (⟨session.machine, session.screen⟩ : Session σ) = session from rfl,
    final_of_ok ran] at stepped

theorem Played.reachable (reach : first.machine.Reachable)
    (played : Played render first moves last) : last.machine.Reachable := by
  induction played with
  | start => exact reach
  | step _ ran ih => exact reachable_step ih ran
  | button button pressed _ ih => exact .setButton button pressed ih

/-- A step that takes some cycles advances the counter by just as many, from zero if it writes the
divider, and if it leaves the display on, it advances the position by as many, from the start of a
frame if it switches the display on. -/
theorem clock_of_step (reach : session.machine.Reachable)
    (ran : step render session = .ok quantum next) :
    next.machine.bus.timer.counter =
        (if Timer.dividerAddress ∈ session.machine.storedByStep then 0
          else session.machine.bus.timer.counter) + UInt16.ofNat quantum.cycles ∧
      (next.machine.bus.ppu.lcdEnabled = true → next.machine.bus.ppu.beam.position =
        ((if session.machine.bus.ppu.lcdEnabled then session.machine.bus.ppu.beam.position else 0) +
          quantum.cycles) % 70224) := by
  obtain ⟨after, stepped, rfl⟩ := step_ok ran
  obtain ⟨counted, placed⟩ := Machine.clock_of_step stepped
  obtain ⟨counter, agrees⟩ := after.bus.tick_apply render quantum.cycles session.screen
  have kept := Board.invariant_tracked.step session.machine reach.tracked
  rw [final_of_ok stepped] at kept
  refine ⟨by rw [← counted]; exact counter, fun on => ?_⟩
  have still : after.bus.ppu.lcdEnabled = true := by
    rw [← Ppu.lcdEnabled_tick render quantum.cycles session.screen, ← agrees.lcdEnabled]
    exact on
  rw [← placed still]
  exact (congrArg Ppu.Beam.position agrees.beam).trans (kept.position_tick still _ _ _)

theorem Played.counter (played : Played render first moves last)
    (reach : first.machine.Reachable)
    (kept : ∀ move ∈ moves, Timer.dividerAddress ∉ move.found.machine.storedByStep) :
    last.machine.bus.timer.counter =
      first.machine.bus.timer.counter + UInt16.ofNat (cyclesOf moves) := by
  induction played with
  | start => simp
  | @step session next quantum moves played ran ih =>
      have counted := (clock_of_step (played.reachable reach) ran).1
      have unwritten := kept ⟨session, quantum⟩ (List.mem_append_right _ List.mem_cons_self)
      have earlier := ih fun move member => kept move (List.mem_append_left _ member)
      rw [counted, if_neg unwritten, earlier, cyclesOf_append, cyclesOf_cons, cyclesOf_nil,
        Nat.add_zero, UInt16.ofNat_add, UInt16.add_assoc]
  | @button session moves button pressed played ih =>
      exact (session.machine.bus.setButton_apply button pressed).1.trans (ih kept)

theorem Played.position (played : Played render first moves last)
    (reach : first.machine.Reachable)
    (kept : ∀ move ∈ moves, move.found.machine.bus.ppu.lcdEnabled = true)
    (on : last.machine.bus.ppu.lcdEnabled = true) :
    last.machine.bus.ppu.beam.position =
      (first.machine.bus.ppu.beam.position + cyclesOf moves) % 70224 := by
  induction played with
  | start => rw [cyclesOf_nil, Nat.add_zero, Nat.mod_eq_of_lt (reach.tracked.position_lt on)]
  | @step session next quantum moves played ran ih =>
      have placed := (clock_of_step (played.reachable reach) ran).2 on
      have before := kept ⟨session, quantum⟩ (List.mem_append_right _ List.mem_cons_self)
      have earlier := ih (fun move member => kept move (List.mem_append_left _ member)) before
      rw [placed, if_pos before, earlier, Nat.mod_add_mod, cyclesOf_append, cyclesOf_cons,
        cyclesOf_nil, Nat.add_zero, Nat.add_assoc]
  | @button session moves button pressed played ih =>
      have agrees := (session.machine.bus.setButton_apply button pressed).2
      rw [← ih kept (agrees.lcdEnabled.symm.trans on)]
      exact congrArg Ppu.Beam.position agrees.beam

theorem Played.found (played : Played render first moves last) (reach : first.machine.Reachable) :
    ∀ move ∈ moves, move.found.machine.Reachable ∧
      ∃ next, Session.step render move.found = .ok move.quantum next := by
  induction played with
  | start => exact List.forall_mem_nil _
  | @step session next quantum moves played ran ih =>
      refine List.forall_mem_append.mpr ⟨ih, List.forall_mem_singleton.mpr ?_⟩
      exact ⟨played.reachable reach, next, ran⟩
  | button button pressed _ ih => exact ih

/-- From a reachable machine on, the timer and the picture unit count the cycles that the steps
return: the counter as long as no step writes to the divider, the position in the frame as long as
the display is on between the steps.  In any case each step is counted once by each of the two. -/
theorem one_clock (reach : first.machine.Reachable) (played : Played render first moves last) :
    ((∀ move ∈ moves, Timer.dividerAddress ∉ move.found.machine.storedByStep) →
      last.machine.bus.timer.counter.toNat =
        (first.machine.bus.timer.counter.toNat + cyclesOf moves) % 65536) ∧
    ((∀ move ∈ moves, move.found.machine.bus.ppu.lcdEnabled = true) →
      last.machine.bus.ppu.lcdEnabled = true →
      last.machine.bus.ppu.beam.position =
        (first.machine.bus.ppu.beam.position + cyclesOf moves) % 70224) ∧
    ∀ move ∈ moves, ∃ next, Session.step render move.found = .ok move.quantum next ∧
      next.machine.bus.timer.counter =
        (if Timer.dividerAddress ∈ move.found.machine.storedByStep then 0
          else move.found.machine.bus.timer.counter) + UInt16.ofNat move.quantum.cycles ∧
      (next.machine.bus.ppu.lcdEnabled = true → next.machine.bus.ppu.beam.position =
        ((if move.found.machine.bus.ppu.lcdEnabled then
            move.found.machine.bus.ppu.beam.position
          else 0) + move.quantum.cycles) % 70224) := by
  refine ⟨fun kept => ?_, played.position reach, fun move member => ?_⟩
  · rw [played.counter reach kept, UInt16.toNat_add, UInt16.toNat_ofNat', Nat.add_mod_mod]
  · obtain ⟨found, next, ran⟩ := played.found reach move member
    exact ⟨next, ran, clock_of_step found ran⟩

/-- A machine that executes nothing but NOP. -/
def idling : Session Unit :=
  ⟨Machine.boot (.romOnly (Bank.filled 0) (Bank.filled 0)) {} .discard, ()⟩

/-- The machine after its first step. -/
def idlingOn : Session Unit :=
  final (Session.step Renderer.null) idling

theorem one_clock_idling : ∃ last, Played Renderer.null idling
    ([] ++ [⟨idling, .execution 0 4 0⟩] ++ [⟨idlingOn, .execution 0 4 0⟩]) last ∧
      last.machine.bus.timer.counter.toNat = 0xABD4 ∧ last.machine.bus.ppu.beam.position = 8 := by
  have begun : Session.step Renderer.null idling = .ok (.execution 0 4 0) idlingOn :=
    ok_of_value? (by decide +kernel)
  have goes : Session.step Renderer.null idlingOn =
      .ok (.execution 0 4 0) (final (Session.step Renderer.null) idlingOn) :=
    ok_of_value? (by decide +kernel)
  have played := (Played.start.step begun).step goes
  obtain ⟨counter, position, _⟩ := one_clock (.boot _ _ _) played
  refine ⟨_, played, ?_, ?_⟩
  · exact (counter (by decide +kernel)).trans (by decide +kernel)
  · exact (position (by decide +kernel) (by decide +kernel)).trans (by decide +kernel)

end Session
end GameBoy
