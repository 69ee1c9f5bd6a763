import GameBoy.Proofs.Requests
import GameBoy.Proofs.Tape

/-!
# The serial output

A byte is sent by a write to the serial control register.  The output of a machine is what is kept
of the bytes sent: the last of them, and all of them until there are too many.
-/

namespace GameBoy

open Effect

/-! ## What is kept -/

namespace Serial

/-- The output is what is kept of the bytes sent: all of them, or more than half of the limit. -/
structure IsLog (sent : List UInt8) (output : Array UInt8) : Prop where
  suffix : output.toList <:+ sent
  full : output.toList = sent ∨ outputLimit / 2 < output.size

theorem isLog_nil : IsLog [] #[] :=
  ⟨List.suffix_rfl, .inl rfl⟩

/-- One more byte is sent. -/
theorem IsLog.keep {sent : List UInt8} {output : Array UInt8} (log : IsLog sent output)
    (byte : UInt8) : IsLog (sent ++ [byte]) (keep output byte) := by
  rw [Serial.keep]
  split
  · next reached =>
    refine ⟨?_, .inr ?_⟩
    · have drops : (output.extract (outputLimit / 2) output.size).toList =
          output.toList.drop (outputLimit / 2) := by
        have whole : (output.toList.drop (outputLimit / 2)).length ≤
            output.size - outputLimit / 2 := by simp
        simp [List.take_of_length_le whole]
      rw [Array.toList_push, drops]
      obtain ⟨front, whole⟩ := (List.drop_suffix (outputLimit / 2) output.toList).trans log.suffix
      exact ⟨front, by rw [← List.append_assoc, whole]⟩
    · simp only [Array.size_push, Array.size_extract, outputLimit] at *
      omega
  · refine ⟨?_, ?_⟩
    · obtain ⟨front, whole⟩ := log.suffix
      exact ⟨front, by rw [Array.toList_push, ← List.append_assoc, whole]⟩
    · rcases log.full with all | long
      · exact .inl (by rw [Array.toList_push, all])
      · exact .inr (by rw [Array.size_push]; omega)

theorem IsLog.foldl_keep {sent : List UInt8} {output : Array UInt8} (log : IsLog sent output)
    (bytes : List UInt8) : IsLog (sent ++ bytes) (bytes.foldl Serial.keep output) := by
  induction bytes generalizing sent output with
  | nil => rwa [List.append_nil]
  | cons byte bytes ih =>
      have longer := ih (log.keep byte)
      rwa [List.append_assoc, List.singleton_append] at longer

/-- The part of the port that a transfer appends to. -/
def log (serial : Serial) : Bool × Array UInt8 :=
  (serial.capture, serial.output)

/-- Address of the control register. -/
def controlAddress : UInt16 := 0xFF02

end Serial

/-! ## Bytes sent -/

namespace Board

/-- The bytes that a write sends. -/
def sends (board : Board) (address : UInt16) (value : UInt8) : List UInt8 :=
  if address = Serial.controlAddress ∧ value &&& 0x81 = 0x81 then [board.serial.data] else []

theorem log_collect (board : Board) : board.collect.serial.log = board.serial.log := by
  simp only [collect]
  split
  · rw [reportSent]
    split <;> rfl
  · rfl

theorem serial_storeRom (board : Board) (address : UInt16) (value : UInt8) :
    (board.storeRom address value).serial = board.serial := by
  rw [storeRom]
  split
  · simp only
    split <;> rfl
  · rfl

theorem log_storePort {board : Board} {address : UInt16} (other : address ≠ Serial.controlAddress)
    (above : 0xFF00 ≤ address) (value : UInt8) :
    (board.storePort address value).serial.log = board.serial.log := by
  rw [storePort]
  cases port : Port.of address with
  | serial =>
      obtain ⟨past, below⟩ := Port.lt_of_serial port
      have data : address = Serial.dataAddress := by
        rw [Serial.controlAddress] at other
        rw [Serial.dataAddress]
        grind
      rw [Serial.write, if_pos data]
      rfl
  | picture =>
      rw [storePicture]
      simp only
      split <;> rfl
  | oamDma => simp only [oamDma]
  | joypad | timer | interruptRequest | sound | bootRom | vramDma | unmapped => rfl

theorem log_store_of_ne {board : Board} {address : UInt16}
    (other : address ≠ Serial.controlAddress) (value : UInt8) :
    (board.store address value).serial.log = board.serial.log := by
  rw [store]
  cases region : Region.of address with
  | romBank0 | romBankN => exact congrArg Serial.log (serial_storeRom board address value)
  | io => exact (log_collect _).trans (log_storePort other (Region.of_eq_iff.mp region).1 value)
  | _ => rfl

/-- A write that is not refused appends what it sends. -/
theorem log_store (board : Board) (address : UInt16) (value : UInt8)
    (captures : board.serial.capture = true) :
    (board.store address value).serial.log =
      (true, (board.sends address value).foldl Serial.keep board.serial.output) := by
  have unchanged : board.serial.log = (true, board.serial.output) := by
    rw [Serial.log, captures]
  rw [sends]
  by_cases control : address = Serial.controlAddress
  · subst control
    have stored : (board.store Serial.controlAddress value).serial.log =
        (board.serial.write Serial.controlAddress value).log :=
      log_collect _
    rw [stored, Serial.write, if_neg (by decide)]
    by_cases starts : value &&& 0x81 = 0x81
    · rw [if_pos starts, if_pos ⟨rfl, starts⟩, Serial.transfer, Serial.log, captures]
      rfl
    · rw [if_neg starts, if_neg (fun both => starts both.2)]
      exact unchanged
  · rw [if_neg (fun both => control both.1), log_store_of_ne control]
    exact unchanged

/-- The bytes that the writes on a tape have sent. -/
def sentOn (writes : List (Stored Board)) : List UInt8 :=
  writes.flatMap fun write => write.met.sends write.address write.value

theorem length_sentOn_le (writes : List (Stored Board)) :
    (sentOn writes).length ≤ writes.length := by
  induction writes with
  | nil => exact Nat.le_refl 0
  | cons write writes ih =>
      have one : (write.met.sends write.address write.value).length ≤ 1 := by
        rw [sends]
        split
        · exact Nat.le_refl 1
        · exact Nat.zero_le 1
      rw [sentOn, List.flatMap_cons, List.length_append, List.length_cons]
      rw [sentOn] at ih
      omega

/-- What the output shows is what was sent by the writes on the tape. -/
theorem invariant_sentOn (start : Array UInt8) :
    Bus.Invariant fun taped : Taped Board =>
      taped.bus.serial.log = (true, (sentOn taped.writes).foldl Serial.keep start) where
  read address taped holds := by
    rw [final, Taped.read_apply]
    have same := read_ok_or_record address taped.bus
    rw [final] at same
    cases ran : Bus.read address taped.bus <;> rw [ran] at same <;>
      rcases same with rfl | ⟨event, rfl⟩ <;> exact holds
  write address value taped holds := by
    rw [final, Taped.write_apply, write_apply]
    cases taped.bus.refusal address value with
    | some error => exact holds
    | none =>
        have captures : taped.bus.serial.capture = true := congrArg Prod.fst holds
        have output := congrArg Prod.snd holds
        change taped.bus.serial.output = _ at output
        simp only
        rw [log_store _ _ _ captures, output, sentOn, sentOn, List.flatMap_append,
          List.foldl_append]
        simp
  takeStall _ holds := holds
  report _ _ holds := holds

theorem log_tick {σ : Type} (render : Renderer σ) (cycles : Nat) (board : Board) (screen : σ) :
    (board.tick render cycles screen).1.serial.log = board.serial.log :=
  log_collect _

end Board

namespace Machine

/-- The bytes that the next step sends. -/
def sentByStep (machine : Machine) : List UInt8 :=
  let taped : System (Taped Board) := ⟨machine.cpu, ⟨machine.bus, []⟩⟩
  Board.sentOn (final Cpu.step taped).bus.writes

/-- A step appends what it sends to the output.  It sends at most three bytes and takes four cycles
for each. -/
theorem log_of_step {machine after : Machine} {quantum : Quantum}
    (captures : machine.bus.serial.capture = true) (ran : Cpu.step machine = .ok quantum after) :
    after.bus.serial.log =
        (true, machine.sentByStep.foldl Serial.keep machine.bus.serial.output) ∧
      4 * machine.sentByStep.length ≤ quantum.cycles ∧ machine.sentByStep.length ≤ 3 := by
  obtain ⟨writes, taped⟩ := Taped.step_of_ok ran []
  have sent : machine.sentByStep = Board.sentOn writes := by
    rw [sentByStep, final_of_ok taped]
  have begun : machine.bus.serial.log = (true, machine.bus.serial.output) := by
    rw [Serial.log, captures]
  have ended := (Board.invariant_sentOn machine.bus.serial.output).step.of_ok begun taped
  obtain ⟨count, most, cycles, few⟩ := Taped.writes_of_step taped
  have fewer := Board.length_sentOn_le writes
  simp only [List.length_nil, Nat.zero_add] at most
  rw [sent]
  exact ⟨ended, by omega, by omega⟩

end Machine
end GameBoy
