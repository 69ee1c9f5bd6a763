import GameBoy.Proofs.Frames
import GameBoy.Proofs.SerialLog

/-!
# Serial verdicts

The output is looked at once a frame and may have lost its older half by then.  No verdict is lost
with it: a signature that was not there a frame ago ends among the bytes sent since, and far more
bytes are kept than one frame can send.
-/

namespace GameBoy

/-! ## Signatures -/

namespace Verdict

theorem occursIn_iff (bytes output : List UInt8) :
    occursIn bytes output = true ↔ bytes <:+: output := by
  induction output with
  | nil => rw [occursIn, List.isEmpty_iff, List.infix_nil]
  | cons head rest ih =>
      rw [occursIn, Bool.or_eq_true, List.isPrefixOf_iff_prefix, ih, List.infix_cons_iff]

/-- What has come up with the last bytes is found in every end that reaches far enough back. -/
theorem infix_of_suffix {α : Type} {needle before recent kept : List α}
    (occurs : needle <:+: before ++ recent) (absent : ¬needle <:+: before)
    (suffix : kept <:+ before ++ recent) (long : recent.length + needle.length ≤ kept.length + 1) :
    needle <:+: kept := by
  obtain ⟨front, back, whole⟩ := occurs
  have ends : needle ++ back <:+ before ++ recent := ⟨front, by rw [← whole, List.append_assoc]⟩
  have late : back.length < recent.length := by
    refine Decidable.byContradiction fun early => absent ?_
    have recent_suffix : recent <:+ back :=
      List.suffix_of_suffix_length_le (List.suffix_append before recent)
        ((List.suffix_append needle back).trans ends) (Nat.not_lt.mp early)
    obtain ⟨middle, rfl⟩ := recent_suffix
    rw [← List.append_assoc] at whole
    exact ⟨front, middle, List.append_cancel_right whole⟩
  have reaches : needle ++ back <:+ kept := by
    refine List.suffix_of_suffix_length_le ends suffix ?_
    rw [List.length_append]
    omega
  exact (List.prefix_append needle back).isInfix.trans reaches.isInfix

/-- Most bytes that can be sent after a look at the output without any risk for a signature. -/
def safeCount : Nat := Serial.outputLimit / 2 - 5

theorem occursIn_kept {needle before recent : List UInt8} {output : Array UInt8}
    (log : Serial.IsLog (before ++ recent) output) (few : recent.length ≤ safeCount)
    (short : needle.length ≤ 6) (absent : occursIn needle before = false) :
    occursIn needle output.toList = occursIn needle (before ++ recent) := by
  rw [← Bool.coe_iff_coe, occursIn_iff, occursIn_iff]
  constructor
  · exact fun occurs => occurs.trans log.suffix.isInfix
  · intro occurs
    rcases log.full with all | long
    · rwa [all]
    · refine infix_of_suffix occurs ?_ log.suffix ?_
      · rw [← occursIn_iff, absent]
        exact Bool.false_ne_true
      · have size : output.toList.length = output.size := Array.length_toList
        rw [safeCount, Serial.outputLimit] at few
        rw [Serial.outputLimit] at long
        omega

theorem absent_of_ofSerial {output : List UInt8} (unseen : ofSerial output = none) :
    occursIn passWord output = false ∧ occursIn passSignature output = false ∧
      occursIn failWord output = false ∧ occursIn failSignature output = false := by
  rw [ofSerial] at unseen
  grind

/-- If there was no verdict a while ago, what is kept since shows the same verdict as all that was
sent. -/
theorem ofSerial_kept {before recent : List UInt8} {output : Array UInt8}
    (log : Serial.IsLog (before ++ recent) output) (few : recent.length ≤ safeCount)
    (unseen : ofSerial before = none) :
    ofSerial output.toList = ofSerial (before ++ recent) := by
  obtain ⟨passWord_absent, pass_absent, failWord_absent, fail_absent⟩ := absent_of_ofSerial unseen
  rw [ofSerial, ofSerial, occursIn_kept log few (by decide) passWord_absent,
    occursIn_kept log few (by decide) pass_absent,
    occursIn_kept log few (by decide) failWord_absent,
    occursIn_kept log few (by decide) fail_absent]

end Verdict

/-! ## What a frame sends -/

namespace Session

open Effect

variable {σ : Type} {render : Renderer σ}

/-- The bytes that a number of steps send. -/
def sentBy (moves : List (Move σ)) : List UInt8 :=
  moves.flatMap fun move => move.found.machine.sentByStep

@[simp]
theorem sentBy_nil : sentBy ([] : List (Move σ)) = [] := rfl

@[simp]
theorem sentBy_cons (move : Move σ) (moves : List (Move σ)) :
    sentBy (move :: moves) = move.found.machine.sentByStep ++ sentBy moves := rfl

@[simp]
theorem sentBy_append (front back : List (Move σ)) :
    sentBy (front ++ back) = sentBy front ++ sentBy back :=
  List.flatMap_append

/-- The session keeps its output, which is what is kept of the bytes sent. -/
structure Logs (sent : List UInt8) (session : Session σ) : Prop where
  captures : session.machine.bus.serial.capture = true
  isLog : Serial.IsLog sent session.machine.bus.serial.output

/-- The step sends at most three bytes and takes four cycles for each. -/
structure Move.Modest (move : Move σ) : Prop where
  cycles : 4 * move.found.machine.sentByStep.length ≤ move.quantum.cycles
  few : move.found.machine.sentByStep.length ≤ 3

theorem Logs.step {sent : List UInt8} {session next : Session σ} {quantum : Quantum}
    (logs : Logs sent session) (ran : step render session = .ok quantum next) :
    Logs (sent ++ session.machine.sentByStep) next ∧ Move.Modest ⟨session, quantum⟩ := by
  obtain ⟨after, stepped, rfl⟩ := step_ok ran
  obtain ⟨appended, cycles, few⟩ := Machine.log_of_step logs.captures stepped
  have log := (Board.log_tick render quantum.cycles after.bus session.screen).trans appended
  have captures := congrArg Prod.fst log
  have output := congrArg Prod.snd log
  have keeps := logs.isLog.foldl_keep session.machine.sentByStep
  exact ⟨⟨captures, (congrArg (Serial.IsLog _) output).mpr keeps⟩, cycles, few⟩

theorem Logs.steps {sent : List UInt8} {session last : Session σ} {moves : List (Move σ)}
    (steps : Steps render session moves last) (logs : Logs sent session) :
    Logs (sent ++ sentBy moves) last ∧ ∀ move ∈ moves, move.Modest := by
  induction steps generalizing sent with
  | nil session =>
      rw [sentBy_nil, List.append_nil]
      exact ⟨logs, List.forall_mem_nil _⟩
  | cons ran _ ih =>
      obtain ⟨next, modest⟩ := logs.step ran
      obtain ⟨last, others⟩ := ih next
      rw [List.append_assoc] at last
      exact ⟨last, List.forall_mem_cons.mpr ⟨modest, others⟩⟩

theorem sentBy_le_cyclesOf {moves : List (Move σ)} (modest : ∀ move ∈ moves, move.Modest) :
    4 * (sentBy moves).length ≤ cyclesOf moves := by
  induction moves with
  | nil => exact Nat.le_refl 0
  | cons move moves ih =>
      obtain ⟨first, others⟩ := List.forall_mem_cons.mp modest
      have rest := ih others
      have begun := first.cycles
      rw [sentBy_cons, List.length_append, cyclesOf_cons]
      omega

/-- Between two looks at the output a frame sends too few bytes to hide a signature. -/
theorem Frame.RunsFrom.sentBy_le {session : Session σ} {frame : Frame σ}
    (runs : frame.RunsFrom render session) (modest : ∀ move ∈ frame.moves, move.Modest) :
    (sentBy frame.moves).length ≤ Verdict.safeCount := by
  have begins := runs.begins
  rcases List.eq_nil_or_concat frame.moves with empty | ⟨front, move, split⟩
  · rw [empty]
    exact Nat.zero_le _
  · rw [List.concat_eq_append] at split
    rw [split] at modest begins ⊢
    rw [List.dropLast_concat] at begins
    have early := sentBy_le_cyclesOf fun move inside =>
      modest move (List.mem_append_left _ inside)
    have late := (modest move (List.mem_append_right _ (List.mem_singleton_self move))).few
    rw [Machine.cyclesPerFrame] at begins
    rw [sentBy_append, sentBy_cons, sentBy_nil, List.append_nil, List.length_append,
      Verdict.safeCount, Serial.outputLimit]
    omega

end Session

/-! ## The verdict of a run -/

namespace Runner

open Session

/-- The verdict at the end of the last of some frames, with nothing lost of what was sent in them or
before. -/
def verdictOfAll (sent : List UInt8) (front : List (Frame Unit)) (frame : Frame Unit) :
    Option Verdict :=
  let held :=
    match frame.ending with
    | .breakpoint => Verdict.ofRegisters frame.last.machine.cpu.regs
    | .completed => none
  held.or (Verdict.ofSerial (sent ++ sentBy (movesOf (front ++ [frame]))))

theorem unseen_of_verdictOfAll {sent : List UInt8} {front : List (Frame Unit)}
    {frame : Frame Unit} (unseen : verdictOfAll sent front frame = none) :
    Verdict.ofSerial (sent ++ sentBy (movesOf (front ++ [frame]))) = none :=
  (Option.or_eq_none_iff.mp unseen).2

/-- While no signature has come up, a frame ends with the verdict that it would have with nothing
lost. -/
theorem verdictOf_eq {sent : List UInt8} {session : Session Unit} {frame : Frame Unit}
    (runs : frame.RunsFrom Renderer.null session) (logs : Logs sent session)
    (unseen : Verdict.ofSerial sent = none) :
    verdictOf frame = verdictOfAll sent [] frame ∧
      Logs (sent ++ sentBy frame.moves) frame.last := by
  obtain ⟨last, modest⟩ := logs.steps runs.steps
  have same := Verdict.ofSerial_kept last.isLog (runs.sentBy_le modest) unseen
  have moves : movesOf ([] ++ [frame]) = frame.moves := List.append_nil _
  refine ⟨?_, last⟩
  rw [verdictOf, verdictOfAll, moves, ← same]
  cases frame.ending with
  | completed => rfl
  | breakpoint => rfl

theorem verdictOfAll_cons (sent : List UInt8) (first : Frame Unit) (front : List (Frame Unit))
    (frame : Frame Unit) :
    verdictOfAll sent (first :: front) frame =
      verdictOfAll (sent ++ sentBy first.moves) front frame := by
  rw [verdictOfAll, verdictOfAll, List.cons_append, movesOf_cons, sentBy_append, List.append_assoc]

/-- Up to the first verdict the frames of a run end with the verdicts that they would have with
nothing lost. -/
theorem verdictOf_eq_verdictOfAll {sent : List UInt8} {session last : Session Unit}
    {history : List (Frame Unit)} (chain : Frames Renderer.null session history last)
    (logs : Logs sent session) (unseen : Verdict.ofSerial sent = none)
    {front back : List (Frame Unit)} {frame : Frame Unit} (split : history = front ++ frame :: back)
    (before : ∀ earlier ∈ front, verdictOf earlier = none) :
    verdictOf frame = verdictOfAll sent front frame := by
  induction chain generalizing sent front with
  | nil => exact absurd split (by simp)
  | @cons session last first rest runs chain ih =>
      obtain ⟨same, later⟩ := verdictOf_eq runs logs unseen
      cases front with
      | nil =>
          cases split
          exact same
      | cons other front =>
          cases split
          obtain ⟨none, others⟩ := List.forall_mem_cons.mp before
          have still := unseen_of_verdictOfAll (same.symm.trans none)
          rw [List.nil_append, movesOf_cons, sentBy_append] at still
          rw [verdictOfAll_cons]
          exact ih later (by simpa [movesOf] using still) rfl others

/-! ## What shows a verdict -/

/-- `Passed` or the first six Fibonacci numbers are among the bytes, without a gap. -/
def TellsSuccess (sent : List UInt8) : Prop :=
  [0x50, 0x61, 0x73, 0x73, 0x65, 0x64] <:+: sent ∨ [3, 5, 8, 13, 21, 34] <:+: sent

/-- `Failed` or six times 0x42 is among the bytes, without a gap. -/
def TellsFailure (sent : List UInt8) : Prop :=
  [0x46, 0x61, 0x69, 0x6C, 0x65, 0x64] <:+: sent ∨
    [0x42, 0x42, 0x42, 0x42, 0x42, 0x42] <:+: sent

/-- B, C, D, E, H and L as a frame has left them. -/
def heldBy (frame : Frame Unit) : List UInt8 :=
  let regs := frame.last.machine.cpu.regs
  [regs.b, regs.c, regs.d, regs.e, regs.h, regs.l]

/-- The frame has ended at a breakpoint with the first six Fibonacci numbers in the registers. -/
def HoldsSuccess (frame : Frame Unit) : Prop :=
  frame.ending = .breakpoint ∧ heldBy frame = [3, 5, 8, 13, 21, 34]

/-- The frame has ended at a breakpoint with six times 0x42 in the registers. -/
def HoldsFailure (frame : Frame Unit) : Prop :=
  frame.ending = .breakpoint ∧ heldBy frame = [0x42, 0x42, 0x42, 0x42, 0x42, 0x42]

/-- The end of the frame shows the verdict, with what has been sent up to it.  The registers at a
breakpoint outweigh what has been sent, and in this success outweighs failure. -/
def Shows (sent : List UInt8) (frame : Frame Unit) : Verdict → Prop
  | .passed => HoldsSuccess frame ∨ ¬HoldsFailure frame ∧ TellsSuccess sent
  | .failed => HoldsFailure frame ∨ ¬HoldsSuccess frame ∧ ¬TellsSuccess sent ∧ TellsFailure sent
  | .timeout => False

theorem tellsSuccess_iff (sent : List UInt8) :
    (Verdict.occursIn Verdict.passWord sent || Verdict.occursIn Verdict.passSignature sent) = true ↔
      TellsSuccess sent := by
  rw [Bool.or_eq_true, Verdict.occursIn_iff, Verdict.occursIn_iff]
  exact Iff.rfl

theorem tellsFailure_iff (sent : List UInt8) :
    (Verdict.occursIn Verdict.failWord sent || Verdict.occursIn Verdict.failSignature sent) = true ↔
      TellsFailure sent := by
  rw [Bool.or_eq_true, Verdict.occursIn_iff, Verdict.occursIn_iff]
  exact Iff.rfl

open Classical in
theorem heldVerdict_eq (frame : Frame Unit) :
    (match frame.ending with
      | .breakpoint => Verdict.ofRegisters frame.last.machine.cpu.regs
      | .completed => none) =
      if HoldsSuccess frame then some .passed
      else if HoldsFailure frame then some .failed
      else none := by
  cases ending : frame.ending with
  | completed => simp [HoldsSuccess, HoldsFailure, ending]
  | breakpoint =>
      simp only [HoldsSuccess, HoldsFailure, ending, true_and]
      rfl

theorem ofSerial_eq (sent : List UInt8) [Decidable (TellsSuccess sent)]
    [Decidable (TellsFailure sent)] :
    Verdict.ofSerial sent =
      if TellsSuccess sent then some .passed
      else if TellsFailure sent then some .failed
      else none := by
  rw [Verdict.ofSerial]
  simp only [tellsSuccess_iff, tellsFailure_iff]

theorem HoldsSuccess.not_holdsFailure {frame : Frame Unit} (success : HoldsSuccess frame) :
    ¬HoldsFailure frame := by
  intro failure
  have same := success.2.symm.trans failure.2
  exact absurd same (by decide)

open Classical in
/-- The verdict with nothing lost of what was sent is the one that the frame shows. -/
theorem verdictOfAll_eq_some_iff {front : List (Frame Unit)} {frame : Frame Unit}
    {verdict : Verdict} :
    verdictOfAll [] front frame = some verdict ↔
      Shows (sentBy (movesOf (front ++ [frame]))) frame verdict := by
  rw [verdictOfAll, List.nil_append, heldVerdict_eq, ofSerial_eq]
  by_cases success : HoldsSuccess frame
  · cases verdict <;> simp [Shows, success, success.not_holdsFailure]
  by_cases failure : HoldsFailure frame
  · cases verdict <;> simp [Shows, success, failure]
  by_cases told : TellsSuccess (sentBy (movesOf (front ++ [frame])))
  · cases verdict <;> simp [Shows, success, failure, told]
  · cases verdict <;> simp [Shows, success, failure, told]

/-- No frame ends with a verdict in the registers or in all that was sent up to then. -/
def NeverSeen (history : List (Frame Unit)) : Prop :=
  ∀ front frame back, history = front ++ frame :: back → ∀ verdict,
    ¬Shows (sentBy (movesOf (front ++ [frame]))) frame verdict

/-- The last frame is the first to end with a verdict in the registers or in all that was sent up to
then. -/
def FirstSeen (history : List (Frame Unit)) (verdict : Verdict) : Prop :=
  ∃ front frame, history = front ++ [frame] ∧ NeverSeen front ∧
    Shows (sentBy (movesOf (front ++ [frame]))) frame verdict

theorem neverSeen_iff {history : List (Frame Unit)} :
    NeverSeen history ↔ ∀ front frame back, history = front ++ frame :: back →
      verdictOfAll [] front frame = none := by
  simp only [NeverSeen, ← verdictOfAll_eq_some_iff, Option.eq_none_iff_forall_ne_some, ne_eq]

theorem FirstSeen.not_neverSeen {history : List (Frame Unit)} {verdict : Verdict}
    (seen : FirstSeen history verdict) : ¬NeverSeen history := by
  intro never
  obtain ⟨front, frame, split, _, shows⟩ := seen
  exact never front frame [] split verdict shows

theorem logs_ofImage {image : ByteArray} {sink : Sink} {machine : Machine}
    (loaded : Machine.ofImage image {} sink = .ok machine) :
    Logs [] (⟨machine, ()⟩ : Session Unit) := by
  obtain ⟨_, rfl⟩ := Machine.boot_of_ofImage loaded
  exact ⟨rfl, Serial.isLog_nil⟩

/-- A run ends as if nothing of what was sent had been lost: with the first frame at whose end there
is a verdict in the registers or in all bytes sent since power-on, and with that verdict, or without
one exactly if there is no such frame in the budget. -/
theorem run_ends_at_first_verdict {image : ByteArray} {budget : Nat} {outcome : Outcome}
    (ran : (run image budget).1 = .ok outcome) :
    ∃ machine history last, Machine.ofImage image {} (.logging #[]) = .ok machine ∧
      Frames Renderer.null ⟨machine, ()⟩ history last ∧
      outcome.frames = history.length ∧ outcome.frames ≤ budget ∧
      (FirstSeen history outcome.verdict ∨
        outcome.verdict = .timeout ∧ outcome.frames = budget ∧ NeverSeen history) ∧
      (outcome.verdict = .timeout ↔ NeverSeen history) := by
  obtain ⟨machine, loaded, ran⟩ := runFrom_of_run ran
  obtain ⟨history, last, chain, counted, _, ends⟩ := runFrom_ok ran
  rw [Nat.zero_add] at counted
  have same {front back : List (Frame Unit)} {frame : Frame Unit} :=
    @verdictOf_eq_verdictOfAll [] _ last history chain (logs_ofImage loaded) rfl front back frame
  refine ⟨machine, history, last, loaded, chain, counted, ?_⟩
  rcases ends with ⟨expired, length, none⟩ | ⟨front, frame, split, fits, none, found⟩
  · have never : NeverSeen history := by
      refine neverSeen_iff.mpr fun front frame back split => ?_
      rw [split] at none
      rw [← same split fun earlier inside => none earlier (List.mem_append_left _ inside)]
      exact none frame (List.mem_append_right _ List.mem_cons_self)
    have all : outcome.frames = budget := counted.trans length
    exact ⟨Nat.le_of_eq all, .inr ⟨expired, all, never⟩, fun _ => never, fun _ => expired⟩
  · have never : NeverSeen front := by
      refine neverSeen_iff.mpr fun before earlier after cut => ?_
      have whole : history = before ++ earlier :: (after ++ [frame]) := by
        rw [split, cut, List.append_assoc, List.cons_append]
      rw [cut] at none
      rw [← same whole fun other inside => none other (List.mem_append_left _ inside)]
      exact none earlier (List.mem_append_right _ List.mem_cons_self)
    have shows := verdictOfAll_eq_some_iff.mp ((same split none).symm.trans found)
    have first : FirstSeen history outcome.verdict := ⟨front, frame, split, never, shows⟩
    refine ⟨counted ▸ fits, .inl first, fun expired => ?_, fun never => ?_⟩
    · rw [expired] at shows
      exact shows.elim
    · exact absurd never first.not_neverSeen

/-- A program that sends the bytes of a message and stops at a breakpoint. -/
def sending (message : List UInt8) : List UInt8 :=
  (message.flatMap fun byte => [0x3E, byte, 0xE0, 0x01, 0x3E, 0x81, 0xE0, 0x02]) ++
    [Machine.softwareBreakpoint]

/-- A program that loads 0x42 into B, C, D, E, H and L. -/
def loadingFailure : List UInt8 :=
  [0x06, 0x42, 0x0E, 0x42, 0x16, 0x42, 0x1E, 0x42, 0x26, 0x42, 0x2E, 0x42]

theorem run_sending_passSignature :
    (run (programImage (sending [3, 5, 8, 13, 21, 34])) 1).1 =
      .ok ⟨.passed, 1, #[3, 5, 8, 13, 21, 34], 244⟩ :=
  run_programImage (by decide) (by decide +kernel)

theorem run_loadingFailure_sending_passSignature :
    (run (programImage (loadingFailure ++ sending [3, 5, 8, 13, 21, 34])) 1).1 =
      .ok ⟨.failed, 1, #[3, 5, 8, 13, 21, 34], 292⟩ :=
  run_programImage (by decide) (by decide +kernel)

/-- What is sent shows success unless the registers show failure at the breakpoint. -/
theorem run_ends_at_first_verdict_passSignature :
    (∃ machine history last,
      Machine.ofImage (programImage (sending [3, 5, 8, 13, 21, 34])) {} (.logging #[]) =
          .ok machine ∧
        Frames Renderer.null ⟨machine, ()⟩ history last ∧ history.length = 1 ∧
        FirstSeen history .passed) ∧
    ∃ machine history last,
      Machine.ofImage (programImage (loadingFailure ++ sending [3, 5, 8, 13, 21, 34])) {}
          (.logging #[]) = .ok machine ∧
        Frames Renderer.null ⟨machine, ()⟩ history last ∧ history.length = 1 ∧
        FirstSeen history .failed := by
  constructor
  · obtain ⟨machine, history, last, loaded, chain, length, _, first | ⟨expired, _⟩, _⟩ :=
      run_ends_at_first_verdict run_sending_passSignature
    · exact ⟨machine, history, last, loaded, chain, length.symm, first⟩
    · cases expired
  · obtain ⟨machine, history, last, loaded, chain, length, _, first | ⟨expired, _⟩, _⟩ :=
      run_ends_at_first_verdict run_loadingFailure_sending_passSignature
    · exact ⟨machine, history, last, loaded, chain, length.symm, first⟩
    · cases expired

end Runner
end GameBoy
