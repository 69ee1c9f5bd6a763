import GameBoy.Proofs.Checked.Steps
import GameBoy.Proofs.Hang

/-!
# Checked runs

A host lets a machine step, lets it run for a frame or up to a breakpoint, and presses and releases
buttons.  Between its calls the picture unit stands where a display left to itself would stand, and
at most one transfer is pending.  From there no call overruns, as long as the frames can be counted,
and each call leads there again.
-/

namespace GameBoy

open Effect Exec Checked

/-! ## Frames are counted up -/

theorem Ppu.frames_write (ppu : Ppu) (address : UInt16) (value : UInt8) :
    (ppu.write address value).frames = ppu.frames := by
  by_cases lcdc : address = lcdcAddress
  · rw [lcdc, write, if_pos rfl, setLcdc]
    split <;> rfl
  · exact congrArg Beam.frames (Observed.beam_write_of_ne lcdc value ppu).1

/-- The processor does not touch the number of frames. -/
theorem Board.invariant_frames (frames : Nat) :
    Bus.Invariant fun board : Board => board.ppu.frames = frames where
  read address board same := by
    rcases read_ok_or_record address board with kept | ⟨event, kept⟩ <;> rw [kept] <;> exact same
  write address value board same := by
    rw [final, write_apply]
    cases board.refusal address value with
    | some error => exact same
    | none =>
        exact (congrArg Ppu.Beam.frames (board.agrees_store address value).beam).trans
          ((board.ppu.frames_write address value).trans same)
  takeStall _ same := same
  report _ _ same := same

namespace Session

variable {α γ σ : Type}

/-- The frames that the picture unit of a session has counted. -/
def frames (session : Session σ) : Nat :=
  session.machine.bus.ppu.frames

/-- The picture unit stands where it would stand if left to itself, and at most one transfer is
pending. -/
structure Orderly (session : Session σ) : Prop where
  tracked : session.machine.bus.ppu.Tracked
  pending : session.machine.Pending

/-! ## Calls whose operations are checked -/

/-- Act on the processor and on a board whose operations are checked. -/
def act? (action : Exec Guarded α) : Checked Fault (Session σ) α := fun session =>
  match action (session.machine.view .intact) with
  | .ok value ⟨cpu, .intact board⟩ => some (.ok value ⟨⟨cpu, board⟩, session.screen⟩)
  | .error fault ⟨cpu, .intact board⟩ => some (.error fault ⟨⟨cpu, board⟩, session.screen⟩)
  | .ok _ ⟨_, .overrun⟩ | .error _ ⟨_, .overrun⟩ => none

variable (render : Renderer σ)

/-- Let time pass for the board. -/
def tick? (cycles : Nat) : Checked Fault (Session σ) Unit :=
  change fun session => do
    let (board, screen) ← session.machine.bus.tick? render cycles session.screen
    some ⟨⟨session.machine.cpu, board⟩, screen⟩

/-- Advance the processor by one step and let the rest of the machine catch up. -/
def step? : Checked Fault (Session σ) Quantum := do
  let quantum ← act? Cpu.step?
  tick? render quantum.cycles
  pure quantum

/-- Step until a frame's cycles have passed since `elapsed` was zero, and count them. -/
def runFrameFrom? : Nat → Nat → Checked Fault (Session σ) Nat
  | 0, elapsed => pure elapsed
  | fuel + 1, elapsed => do
    if elapsed < Machine.cyclesPerFrame then
      let quantum ← step? render
      let counted ← fit 32 (elapsed + quantum.cycles)
      runFrameFrom? fuel counted
    else
      pure elapsed

/-- Run for one frame and count the cycles. -/
def runFrame? : Checked Fault (Session σ) Nat :=
  runFrameFrom? render Machine.cyclesPerFrame 0

/-- Step until a frame's cycles have passed since `elapsed` was zero or a software breakpoint has
been executed, and count the cycles. -/
def runFrameUntilBreakpointFrom? : Nat → Nat → Checked Fault (Session σ) (FrameEnd × Nat)
  | 0, elapsed => pure (.completed, elapsed)
  | fuel + 1, elapsed => do
    if elapsed < Machine.cyclesPerFrame then
      let opcode ← act? Cpu.lookAhead?
      let quantum ← step? render
      let counted ← fit 32 (elapsed + quantum.cycles)
      if opcode = some Machine.softwareBreakpoint then
        pure (.breakpoint, counted)
      else
        runFrameUntilBreakpointFrom? fuel counted
    else
      pure (.completed, elapsed)

/-- Run for one frame, but stop right after a software breakpoint; count the cycles. -/
def runFrameUntilBreakpoint? : Checked Fault (Session σ) (FrameEnd × Nat) :=
  runFrameUntilBreakpointFrom? render Machine.cyclesPerFrame 0

/-! ## What a call can be relied on for -/

/-- From an orderly session the action leads to an orderly one, counts frames up only, returns what
it should, and does not overrun as long as the frames can be counted. -/
structure Upholds (returns : α → Prop) (action : EStateM Fault (Session σ) α)
    (checked : Checked Fault (Session σ) α) : Prop where
  orderly : Keeps Orderly action
  frames_le : ∀ session, session.Orderly → session.frames ≤ (final action session).frames
  returns : ∀ session value after, session.Orderly → action session = .ok value after →
    returns value
  meets : ∀ session, session.Orderly → (final action session).frames < 2 ^ 64 →
    checked.Meets action session

namespace Upholds

variable {returns : α → Prop} {gives : γ → Prop} {action : EStateM Fault (Session σ) α}
  {checked : Checked Fault (Session σ) α} {next : α → EStateM Fault (Session σ) γ}
  {follow : α → Checked Fault (Session σ) γ}

theorem pure {value : α} (returned : returns value) :
    Upholds returns (pure value : EStateM Fault (Session σ) α) (pure value) where
  orderly := .pure value
  frames_le _ _ := Nat.le_refl _
  returns session other after _ ran := by
    cases ran
    exact returned
  meets _ _ _ := rfl

theorem bind (first : Upholds returns action checked)
    (rest : ∀ value, returns value → Upholds gives (next value) (follow value)) :
    Upholds gives (action >>= next) (checked >>= follow) := by
  have between {session after : Session σ} {value : α} (orderly : session.Orderly)
      (ran : action session = .ok value after) :
      after.Orderly ∧ Upholds gives (next value) (follow value) :=
    ⟨first.orderly.of_ok orderly ran,
      rest value (first.returns session value after orderly ran)⟩
  -- the rest counts frames up, so they can be counted after the first action if they can in the end
  have fewer {session : Session σ} (orderly : session.Orderly) :
      (final action session).frames ≤ (final (action >>= next) session).frames := by
    cases ran : action session with
    | ok value after =>
        obtain ⟨orderly, upholds⟩ := between orderly ran
        rw [final_of_ok ran, final, bind_of_ok ran]
        exact upholds.frames_le after orderly
    | error fault after => rw [final_of_error ran, final, bind_of_error ran]
  constructor
  · intro session orderly
    cases ran : action session with
    | ok value after =>
        obtain ⟨orderly, upholds⟩ := between orderly ran
        rw [final, bind_of_ok ran]
        exact upholds.orderly after orderly
    | error fault after =>
        rw [final, bind_of_error ran]
        exact first.orderly.of_error orderly ran
  · intro session orderly
    exact Nat.le_trans (first.frames_le session orderly) (fewer orderly)
  · intro session value after orderly ran
    obtain ⟨_, middle, begun, ended⟩ := bind_ok.mp ran
    obtain ⟨orderly, upholds⟩ := between orderly begun
    exact upholds.returns middle value after orderly ended
  · intro session orderly countable
    have counted := Nat.lt_of_le_of_lt (fewer orderly) countable
    refine (first.meets session orderly counted).bind fun value after ran => ?_
    obtain ⟨orderly, upholds⟩ := between orderly ran
    rw [final, bind_of_ok ran] at countable
    exact upholds.meets after orderly countable

theorem lift {result : Option α} {value : α} {action : EStateM Fault (Session σ) γ}
    (fits : result = some value) (rest : Upholds gives action (follow value)) :
    Upholds gives action ((result : Checked Fault (Session σ) α) >>= follow) := by
  rw [lift_bind fits]
  exact rest

end Upholds

/-! ## Calls -/

theorem meets_act {count : Nat} {action : Exec Board α} {checked : Exec Guarded α}
    (mirrors : Mirrors count action checked) (session : Session σ)
    (room : session.machine.bus.stall + Board.dmaStall * count < 2 ^ 31) :
    (act? checked).Meets (act action) session := by
  rw [Meets, act?, (mirrors session.machine room).1, act]
  cases action session.machine <;> rfl

theorem final_act (action : Exec Board α) (session : Session σ) :
    final (act action) session = ⟨final action session.machine, session.screen⟩ := by
  rw [final, act, final]
  cases action session.machine <;> rfl

theorem Orderly.room {session : Session σ} (orderly : session.Orderly) {count : Nat}
    (few : count ≤ 5) : session.machine.bus.stall + Board.dmaStall * count < 2 ^ 31 := by
  have pending := orderly.pending.stall_le
  have most := Nat.mul_le_mul_left Board.dmaStall few
  rw [Board.dmaStall] at pending most ⊢
  omega

/-- The processor steps. -/
theorem upholds_act_step :
    Upholds (fun quantum => quantum.cycles ≤ 1304) (act Cpu.step : EStateM Fault (Session σ) _)
      (act? Cpu.step?) where
  orderly session orderly := by
    rw [final_act]
    exact ⟨Board.invariant_tracked.step session.machine orderly.tracked,
      Machine.keeps_pending_step session.machine orderly.pending⟩
  frames_le session _ := by
    rw [final_act]
    exact Nat.le_of_eq ((Board.invariant_frames session.frames).step session.machine rfl).symm
  returns session quantum after orderly ran := by
    rw [act] at ran
    cases stepped : Cpu.step session.machine with
    | ok other machine =>
        simp only [stepped] at ran
        cases ran
        exact Machine.cycles_le_of_step orderly.pending.stall_le stepped
    | error fault machine => simp [stepped] at ran
  meets session orderly _ := meets_act Mirrors.step session (orderly.room (Nat.le_refl 5))

/-- Looking at the opcode ahead changes nothing, or fails as the step would. -/
theorem final_look (session : Session σ) :
    final (act Machine.nextOpcode) session = session ∨
      final (act Machine.nextOpcode) session = final (act Cpu.step) session := by
  rw [final_act, final_act]
  cases looked : Machine.nextOpcode session.machine with
  | ok found after =>
      rw [final_of_ok looked, (Machine.nextOpcode_ok looked).1]
      exact .inl rfl
  | error fault after =>
      rw [final_of_error looked, final_of_error (Machine.nextOpcode_error looked)]
      exact .inr rfl

theorem upholds_act_look :
    Upholds (fun _ => True) (act Machine.nextOpcode : EStateM Fault (Session σ) _)
      (act? Cpu.lookAhead?) where
  orderly session orderly := by
    rcases final_look session with same | same <;> rw [same]
    · exact orderly
    · exact upholds_act_step.orderly session orderly
  frames_le session orderly := by
    rcases final_look session with same | same <;> rw [same]
    exact upholds_act_step.frames_le session orderly
  returns _ _ _ _ _ := trivial
  meets session orderly _ := meets_act Mirrors.lookAhead session (orderly.room (Nat.zero_le 5))

/-- The rest of the machine catches up. -/
theorem upholds_tick (render : Renderer σ) {cycles : Nat} (few : cycles ≤ 1304) :
    Upholds (fun _ => True) (tick render cycles) (tick? render cycles) where
  orderly session orderly :=
    ⟨Board.lasting_tracked.tick render cycles session.machine.bus session.screen orderly.tracked,
      orderly.pending.of_eq (Board.stall_tick ..) rfl⟩
  frames_le session _ := by
    have later := session.machine.bus.frames_tick render cycles session.screen
    exact Nat.le_trans (Ppu.frames_le_tick ..) (Nat.le_of_eq later.symm)
  returns _ _ _ _ _ := trivial
  meets session orderly countable := by
    have short : cycles < 2 ^ 31 := by omega
    rw [Meets, tick?, change, Board.tick?_eq orderly.tracked render short session.screen countable]
    rfl

theorem upholds_step (render : Renderer σ) :
    Upholds (fun quantum => quantum.cycles ≤ 1304) (step render) (step? render) :=
  upholds_act_step.bind fun _ few => (upholds_tick render few).bind fun _ _ => .pure few

theorem upholds_runFrameFrom (render : Renderer σ) (fuel : Nat) {elapsed : Nat}
    (few : elapsed < Machine.cyclesPerFrame + 1304) :
    Upholds (fun _ => True) (runFrameFrom render fuel elapsed)
      (runFrameFrom? render fuel elapsed) := by
  induction fuel generalizing elapsed with
  | zero => exact .pure trivial
  | succ fuel ih =>
      rw [runFrameFrom, runFrameFrom?]
      split
      · next early =>
        refine (upholds_step render).bind fun quantum short => ?_
        have bound : elapsed + quantum.cycles < Machine.cyclesPerFrame + 1304 := by omega
        exact .lift (if_pos (Nat.lt_trans bound (by decide))) (ih bound)
      · exact .pure trivial

theorem upholds_runFrameUntilBreakpointFrom (render : Renderer σ) (fuel : Nat) {elapsed : Nat}
    (few : elapsed < Machine.cyclesPerFrame + 1304) :
    Upholds (fun _ => True) (runFrameUntilBreakpointFrom render fuel elapsed)
      (runFrameUntilBreakpointFrom? render fuel elapsed) := by
  induction fuel generalizing elapsed with
  | zero => exact .pure trivial
  | succ fuel ih =>
      rw [runFrameUntilBreakpointFrom, runFrameUntilBreakpointFrom?]
      split
      · next early =>
        refine upholds_act_look.bind fun opcode _ => ?_
        refine (upholds_step render).bind fun quantum short => ?_
        have bound : elapsed + quantum.cycles < Machine.cyclesPerFrame + 1304 := by omega
        refine .lift (if_pos (Nat.lt_trans bound (by decide))) ?_
        split
        · exact .pure trivial
        · exact ih bound
      · exact .pure trivial

/-- A call that a host makes. -/
inductive Call where
  | step
  | runFrame
  | runFrameUntilBreakpoint
  | setButton (button : Button) (pressed : Bool)

/-- What the host does by the call. -/
def Call.doing : Call → Doing
  | .step => .enter .step
  | .runFrame => .enter .runFrame
  | .runFrameUntilBreakpoint => .enter .runFrameUntilBreakpoint
  | .setButton button pressed => .operate (.setButton button pressed)

section Driving

variable (render : Renderer σ)

/-- How the session fails as a call lets it go on, if it does, and what is left of it. -/
def make? (call : Call) (session : Session σ) : Option (List (Option Fault) × Session σ) :=
  match call with
  | .step => ending? (step? render)
  | .runFrame => ending? (runFrame? render)
  | .runFrameUntilBreakpoint => ending? (runFrameUntilBreakpoint? render)
  | .setButton button pressed => do
    let board ← session.machine.bus.setButton? button pressed
    some ([], ⟨⟨session.machine.cpu, board⟩, session.screen⟩)
where
  /-- The error and the state with which a checked action ends. -/
  ending? {α : Type} (checked : Checked Fault (Session σ) α) :
      Option (List (Option Fault) × Session σ) := do
    match ← checked session with
    | .ok _ after => some ([none], after)
    | .error fault after => some ([some fault], after)

/-- The faults that the session has met each time that it was to go on, and what is left of it. -/
def drive? : List Call → Session σ → Option (List (Option Fault) × Session σ)
  | [], session => some ([], session)
  | call :: calls, session => do
    let (faults, next) ← make? render call session
    let (rest, last) ← drive? calls next
    some (faults ++ rest, last)

/-- What was made of the session is orderly, has counted frames up only, and is what comes of the
checked calls as long as the frames can be counted. -/
structure Fits (session : Session σ) (made : List (Option Fault) × Session σ)
    (checked : Option (List (Option Fault) × Session σ)) : Prop where
  orderly : made.2.Orderly
  frames_le : session.frames ≤ made.2.frames
  same : made.2.frames < 2 ^ 64 → checked = some made

variable {render} {session : Session σ} (orderly : session.Orderly)

include orderly

theorem fits_ending {returns : α → Prop} {action : EStateM Fault (Session σ) α}
    {checked : Checked Fault (Session σ) α} (upholds : Upholds returns action checked) :
    Fits session ([error? action session], final action session)
      (make?.ending? session checked) where
  orderly := upholds.orderly session orderly
  frames_le := upholds.frames_le session orderly
  same countable := by
    have meets := upholds.meets session orderly countable
    rw [Meets] at meets
    rw [make?.ending?, meets, error?, final]
    cases action session <;> rfl

theorem fits_make (call : Call) :
    Fits session (drive render [call.doing] session) (make? render call session) := by
  cases call with
  | step => exact fits_ending orderly (upholds_step render)
  | runFrame => exact fits_ending orderly (upholds_runFrameFrom render _ (by decide))
  | runFrameUntilBreakpoint =>
      exact fits_ending orderly (upholds_runFrameUntilBreakpointFrom render _ (by decide))
  | setButton button pressed =>
      have agrees := (session.machine.bus.setButton_apply button pressed).2
      refine ⟨⟨orderly.tracked.of_agrees agrees, ?_⟩, ?_, fun _ => ?_⟩
      · exact orderly.pending.of_eq (Board.stall_setButton ..) rfl
      · exact Nat.le_of_eq (congrArg Ppu.Beam.frames agrees.beam).symm
      · rw [make?, Board.setButton?_eq]
        rfl

omit orderly in
theorem drive_cons (render : Renderer σ) (doing : Doing) (doings : List Doing)
    (session : Session σ) :
    drive render (doing :: doings) session =
      let made := drive render [doing] session
      (made.1 ++ (drive render doings made.2).1, (drive render doings made.2).2) := by
  cases doing <;> rfl

/-- One call after another fits. -/
theorem fits_drive (calls : List Call) :
    Fits session (drive render (calls.map Call.doing) session) (drive? render calls session) := by
  induction calls generalizing session with
  | nil => exact ⟨orderly, Nat.le_refl _, fun _ => rfl⟩
  | cons call calls ih =>
      have first : Fits session (drive render [call.doing] session) (make? render call session) :=
        fits_make orderly call
      have rest := ih first.orderly
      rw [List.map_cons, drive_cons]
      refine ⟨rest.orderly, Nat.le_trans first.frames_le rest.frames_le, fun countable => ?_⟩
      rw [drive?, first.same (Nat.lt_of_le_of_lt rest.frames_le countable)]
      exact congrArg (· >>= _) (rest.same countable)

end Driving

theorem orderly_boot (cartridge : Cartridge) (config : Config) (sink : Sink) (screen : σ) :
    Orderly ⟨Machine.boot cartridge config sink, screen⟩ where
  tracked := (Machine.Reachable.boot cartridge config sink).tracked
  pending := Machine.pending_boot cartridge config sink

end Session

/-- Whatever image is loaded, whatever the configuration and whatever a host then calls, no
operation of the machine overruns as long as the frames can be counted: every sum, difference and
product fits its width, every shift is by fewer places than there are, no divisor is zero, and every
index is inside its array.  So the calls come to what they come to without the checks, faults
included. -/
theorem runs_never_overrun {image : ByteArray} {config : Config} {sink : Sink} {machine : Machine}
    (loaded : Machine.ofImage image config sink = .ok machine) {σ : Type} (render : Renderer σ)
    (screen : σ) (calls : List Session.Call)
    (countable : (Session.drive render (calls.map Session.Call.doing)
      ⟨machine, screen⟩).2.machine.bus.ppu.frames < 2 ^ 64) :
    Session.drive? render calls ⟨machine, screen⟩ =
      some (Session.drive render (calls.map Session.Call.doing) ⟨machine, screen⟩) := by
  obtain ⟨cartridge, rfl⟩ := Machine.boot_of_ofImage loaded
  have orderly := Session.orderly_boot cartridge config sink screen
  exact (Session.fits_drive orderly calls).same countable

/-- A program that calls the last restart vector. -/
def restartFirst : List UInt8 := [0xFF]

/-- The machine that the program is loaded into. -/
def restarting : Machine :=
  Machine.boot (.romOnly (Bank.ofProgram restartFirst) (Bank.filled 0)) {} .discard

theorem runs_never_overrun_restarting :
    let calls : List Session.Call := [.step, .setButton .a true, .step]
    let run := Session.drive Renderer.null (calls.map Session.Call.doing) ⟨restarting, ()⟩
    Machine.ofImage (programImage restartFirst) {} .discard = .ok restarting ∧
      run.2.machine.bus.ppu.frames < 2 ^ 64 ∧
      Session.drive? Renderer.null calls ⟨restarting, ()⟩ = some run := by
  intro calls run
  have loaded : Machine.ofImage (programImage restartFirst) {} .discard = .ok restarting :=
    (PlainHeader.ofProgram (by decide)).ofImage (Bank.filled 0) {} .discard
  have countable : run.2.machine.bus.ppu.frames < 2 ^ 64 := by decide +kernel
  exact ⟨loaded, countable, runs_never_overrun loaded Renderer.null () calls countable⟩

end GameBoy
