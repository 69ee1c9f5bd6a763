import GameBoy.Proofs.SerialLog
import GameBoy.Proofs.Turns
import Mathlib.Data.List.Induction

/-!
# The history of the serial port

Whatever is done to a board, each byte that it sends is reported once, by the write that sends it.
The output grows with the bytes sent up to the limit, and from then on between just over half of the
limit and all of it.  Nothing else depends on whether bytes are kept.
-/

namespace GameBoy

open Effect

/-! ## Length of the output -/

namespace Serial

/-- The length of the output once a number of bytes have been sent. -/
def lengthAfter (sent : Nat) : Nat :=
  if sent ≤ outputLimit then sent
  else outputLimit / 2 + 1 + (sent - (outputLimit + 1)) % (outputLimit / 2)

theorem size_keep (output : Array UInt8) (byte : UInt8) :
    (keep output byte).size =
      if outputLimit ≤ output.size then output.size - outputLimit / 2 + 1 else output.size + 1 := by
  rw [keep]
  split
  · rw [Array.size_push, Array.size_extract, Nat.min_self]
  · rw [Array.size_push]

/-- The length of the output depends on the number of bytes only. -/
theorem size_foldl_keep (bytes : List UInt8) :
    (bytes.foldl keep #[]).size = lengthAfter bytes.length := by
  induction bytes using List.reverseRecOn with
  | nil => rfl
  | append_singleton bytes byte ih =>
      rw [List.foldl_append, List.foldl_cons, List.foldl_nil, size_keep, ih, List.length_append,
        List.length_singleton]
      simp only [lengthAfter, outputLimit]
      grind

theorem lengthAfter_le (sent : Nat) : lengthAfter sent ≤ outputLimit := by
  rw [lengthAfter]
  split
  · assumption
  · simp only [outputLimit]
    omega

end Serial

/-! ## Reports -/

/-- The byte of a report of the serial port. -/
def Event.serialByte? : Event → Option UInt8
  | .serialByte byte => some byte
  | _ => none

namespace Board

/-- From one board to the other events have been reported, of the serial port those of the given
bytes. -/
def ReportsSent (sent : List UInt8) (board after : Board) : Prop :=
  ∃ events : List Event,
    after.sink = events.foldl (fun sink event => sink.record event) board.sink ∧
      events.filterMap Event.serialByte? = sent

namespace ReportsSent

variable {sent later : List UInt8} {board between after : Board}

theorem of_sink (same : after.sink = board.sink) : ReportsSent [] board after :=
  ⟨[], same, rfl⟩

theorem of_record {event : Event} (other : event.serialByte? = none)
    (recorded : after.sink = board.sink.record event) : ReportsSent [] board after :=
  ⟨[event], recorded, by rw [List.filterMap_cons_none other, List.filterMap_nil]⟩

theorem of_notes (notes : Notes board after) : ReportsSent [] board after := by
  rcases notes with same | ⟨event, notice, recorded⟩
  · exact of_sink same
  · refine of_record ?_ recorded
    cases event <;> first | rfl | cases notice

theorem trans (first : ReportsSent sent board between) (second : ReportsSent later between after) :
    ReportsSent (sent ++ later) board after := by
  obtain ⟨events, handed, sends⟩ := first
  obtain ⟨others, handedToo, sendsToo⟩ := second
  exact ⟨events ++ others, by rw [handedToo, handed, List.foldl_append],
    by rw [List.filterMap_append, sends, sendsToo]⟩

end ReportsSent

/-! ## Writes -/

/-- A transfer ends with the operation that makes it: the byte is reported, and the line
requested. -/
theorem collect_transfer {board : Board} {byte : UInt8} (sent : board.serial.lastSent = some byte)
    (requested : board.serial.requested = true) :
    board.collect.sink = board.sink.record (.serialByte byte) ∧
      board.collect.serial.lastSent = none ∧ board.collect.requests.serial = true := by
  have raised : board.raised.serial = true := by
    simp [Board.raised, Interrupt.Lines.union, Serial.raised, requested]
  have line : board.collect.requests.serial = true := by
    rw [requests_collect, Interrupt.Lines.union, raised, Bool.or_true]
  refine ⟨?_, ?_, line⟩ <;>
    simp [collect, raised, reportSent, Serial.acknowledge, sent, record, Serial.takeSent]

/-- Without a byte to report collecting reports nothing. -/
theorem collect_of_unsent {board : Board} (unsent : board.serial.lastSent = none) :
    board.collect.sink = board.sink ∧ board.collect.serial.lastSent = none := by
  simp only [collect]
  split
  · simp [reportSent, Serial.acknowledge, unsent]
  · exact ⟨rfl, unsent⟩

/-- The write that starts a transfer. -/
theorem store_transfer (board : Board) {value : UInt8} (starts : value &&& 0x81 = 0x81) :
    board.store Serial.controlAddress value =
      { board with serial := board.serial.transfer }.collect := by
  have io : Region.of Serial.controlAddress = .io := rfl
  have port : Port.of Serial.controlAddress = .serial := rfl
  have written : board.serial.write Serial.controlAddress value = board.serial.transfer := by
    rw [Serial.write, if_neg (by decide), if_pos starts]
  rw [store_of_io io, storePort, port]
  simp only [written]

/-- No other write reaches the latch of the byte sent. -/
theorem lastSent_storePort {board : Board} {address : UInt16} {value : UInt8}
    (idle : ¬(address = Serial.controlAddress ∧ value &&& 0x81 = 0x81))
    (above : 0xFF00 ≤ address) :
    (board.storePort address value).serial.lastSent = board.serial.lastSent := by
  rw [storePort]
  cases port : Port.of address with
  | serial =>
      obtain ⟨past, below⟩ := Port.lt_of_serial port
      simp only [Serial.write]
      split
      · rfl
      · next data =>
          have control : address = Serial.controlAddress := by
            rw [Serial.dataAddress] at data
            rw [Serial.controlAddress]
            grind
          rw [if_neg fun starts => idle ⟨control, starts⟩]
  | picture =>
      obtain ⟨_, stored⟩ := board.storePicture_eq address value
      rw [stored]
  | oamDma =>
      obtain ⟨_, _, _, copied⟩ := board.oamDma_eq value
      rw [copied]
  | _ => rfl

/-- A write reports what it sends and leaves the latch empty. -/
theorem reportsSent_store {board : Board} (unsent : board.serial.lastSent = none)
    (address : UInt16) (value : UInt8) :
    ReportsSent (board.sends address value) board (board.store address value) ∧
      (board.store address value).serial.lastSent = none := by
  rw [sends]
  split
  · next transfers =>
      obtain ⟨rfl, starts⟩ := transfers
      rw [board.store_transfer starts]
      let sending : Board := { board with serial := board.serial.transfer }
      have latched : sending.serial.lastSent = some board.serial.data := rfl
      obtain ⟨reported, taken, _⟩ := collect_transfer latched rfl
      exact ⟨⟨[.serialByte board.serial.data], reported, rfl⟩, taken⟩
  · next idle =>
      rw [store]
      cases region : Region.of address with
      | romBank0 | romBankN =>
          refine ⟨.of_notes (notes_storeRom board address value), ?_⟩
          simp only [serial_storeRom, unsent]
      | io =>
          have still := (lastSent_storePort idle (Region.of_eq_iff.mp region).1).trans unsent
          obtain ⟨silent, taken⟩ := collect_of_unsent still
          have noted := ReportsSent.of_notes (notes_storePort board address value)
          exact ⟨noted.trans (.of_sink silent), taken⟩
      | _ => exact ⟨.of_sink rfl, unsent⟩

/-- A write that is refused sends nothing. -/
theorem sends_of_refusal {board : Board} {address : UInt16} {value : UInt8} {error : MemoryError}
    (refused : board.refusal address value = some error) : board.sends address value = [] := by
  rw [sends, if_neg]
  rintro ⟨rfl, _⟩
  rw [refusal_of_io rfl] at refused
  cases refused

/-! ## Operations -/

variable {σ : Type} (render : Renderer σ)

/-- The bytes that an operation sends. -/
def sentDuring (board : Board) : Operation → List UInt8
  | .write address value => board.sends address value
  | _ => []

/-- The bytes that a number of operations send, in order. -/
def bytesSent : List Operation → Board × σ → List UInt8
  | [], _ => []
  | operation :: operations, now =>
    now.1.sentDuring operation ++ bytesSent operations (operate render operation now)

/-- An operation reports what it sends and leaves the latch empty. -/
theorem reportsSent_operate {board : Board}
    (unsent : board.serial.lastSent = none) (screen : σ) (operation : Operation) :
    ReportsSent (board.sentDuring operation) board (operate render operation (board, screen)).1 ∧
      (operate render operation (board, screen)).1.serial.lastSent = none := by
  cases operation with
  | read address =>
      simp only [operate, sentDuring]
      cases found : board.peek address with
      | ok value =>
          rw [final_of_ok (read_of_peek found)]
          exact ⟨.of_sink rfl, unsent⟩
      | error error =>
          rw [final_of_error (read_of_peek_error found)]
          exact ⟨.of_record rfl rfl, unsent⟩
  | write address value =>
      simp only [operate, sentDuring, final, write_apply]
      cases refused : board.refusal address value with
      | none => exact reportsSent_store unsent address value
      | some error =>
          rw [sends_of_refusal refused]
          exact ⟨.of_record rfl rfl, unsent⟩
  | tick cycles =>
      let ticked : Board :=
        { board with
          timer := board.timer.tick cycles, ppu := (board.ppu.tick render cycles screen).1 }
      have still : ticked.serial.lastSent = none := unsent
      obtain ⟨silent, taken⟩ := collect_of_unsent still
      exact ⟨.of_sink silent, taken⟩
  | setButton button pressed =>
      let pushed : Board := { board with joypad := board.joypad.setButton button pressed }
      have still : pushed.serial.lastSent = none := unsent
      obtain ⟨silent, taken⟩ := collect_of_unsent still
      exact ⟨.of_sink silent, taken⟩
  | request lines => exact ⟨.of_sink rfl, unsent⟩

/-- An operation appends what it sends to the output. -/
theorem log_operate {board : Board} (captures : board.serial.capture = true) (screen : σ)
    (operation : Operation) :
    (operate render operation (board, screen)).1.serial.log =
      (true, (board.sentDuring operation).foldl Serial.keep board.serial.output) := by
  have unchanged : board.serial.log = (true, board.serial.output) := by
    rw [Serial.log, captures]
  cases operation with
  | read address =>
      refine Eq.trans ?_ unchanged
      rcases read_ok_or_record address board with same | ⟨event, same⟩ <;> simp only [operate, same]
      rfl
  | write address value =>
      simp only [operate, sentDuring, final, write_apply]
      cases refused : board.refusal address value with
      | none => exact log_store board address value captures
      | some error =>
          rw [sends_of_refusal refused]
          exact unchanged
  | tick cycles => exact (log_tick render cycles board screen).trans unchanged
  | setButton button pressed => exact (log_collect _).trans unchanged
  | request lines => exact unchanged

theorem reportsSent_operateAll (operations : List Operation) {now : Board × σ}
    (unsent : now.1.serial.lastSent = none) :
    ReportsSent (bytesSent render operations now) now.1 (operateAll render operations now).1 ∧
      (operateAll render operations now).1.serial.lastSent = none := by
  induction operations generalizing now with
  | nil => exact ⟨.of_sink rfl, unsent⟩
  | cons operation operations ih =>
      obtain ⟨reported, taken⟩ := reportsSent_operate render unsent now.2 operation
      obtain ⟨later, last⟩ := ih taken
      exact ⟨reported.trans later, last⟩

theorem log_operateAll (operations : List Operation) {now : Board × σ}
    (captures : now.1.serial.capture = true) :
    (operateAll render operations now).1.serial.log =
      (true, (bytesSent render operations now).foldl Serial.keep now.1.serial.output) := by
  induction operations generalizing now with
  | nil => rw [← captures]; rfl
  | cons operation operations ih =>
      have first := log_operate render captures now.2 operation
      have later := ih (congrArg Prod.fst first)
      have output := congrArg Prod.snd first
      simp only [Serial.log] at output
      rw [bytesSent, List.foldl_append, ← output]
      exact later

/-! ## Boards that keep no bytes -/

/-- The board without the bytes kept, which keeps none from then on. -/
def muted (board : Board) : Board :=
  { board with serial := { board.serial with capture := false, output := #[] } }

theorem collect_muted (board : Board) : board.muted.collect = board.collect.muted := by
  have raised : board.muted.raised = board.raised := rfl
  simp only [collect, raised]
  split
  · simp only [reportSent, muted, Serial.acknowledge]
    split <;> rfl
  · rfl

theorem storePicture_muted (board : Board) (address : UInt16) (value : UInt8) :
    board.muted.storePicture address value = (board.storePicture address value).muted := by
  cases switched : board.ppu.lcdEnabled != (board.ppu.write address value).lcdEnabled <;>
    simp only [storePicture, muted, switched] <;> rfl

theorem storePort_muted (board : Board) (address : UInt16) (value : UInt8) :
    board.muted.storePort address value = (board.storePort address value).muted := by
  rw [storePort, storePort]
  cases Port.of address with
  | serial =>
      simp only [muted, Serial.write]
      split
      · rfl
      · split <;> rfl
  | picture =>
      exact storePicture_muted board address value
  | _ => rfl

theorem storeRom_muted (board : Board) (address : UInt16) (value : UInt8) :
    board.muted.storeRom address value = (board.storeRom address value).muted := by
  cases present : board.cartridge.mapper.isPresent <;>
    cases selects : (0x2000 ≤ address && address < 0x4000 : Bool) <;>
    simp only [storeRom, muted, present, selects] <;> rfl

theorem store_muted (board : Board) (address : UInt16) (value : UInt8) :
    board.muted.store address value = (board.store address value).muted := by
  rw [store, store]
  cases Region.of address with
  | romBank0 | romBankN => exact storeRom_muted board address value
  | io => simp only [storePort_muted, collect_muted]
  | _ => rfl

theorem peek_muted (board : Board) (address : UInt16) :
    board.muted.peek address = board.peek address := by
  rw [peek, peek]
  cases Region.of address with
  | io =>
      simp only [portByte]
      cases Port.of address <;> rfl
  | _ =>
      simp only [memoryByte]
      cases Region.of address <;> rfl

/-- A guest cannot tell whether bytes are kept. -/
theorem sees_muted : Bus.View muted where
  read address board := by
    cases found : board.peek address with
    | ok value => rw [read_of_peek found, read_of_peek ((peek_muted _ _).trans found), see]
    | error error =>
        rw [read_of_peek_error found, read_of_peek_error ((peek_muted _ _).trans found), see]
        rfl
  write address value board := by
    have same : board.muted.refusal address value = board.refusal address value := rfl
    rw [write_apply, write_apply, same]
    cases board.refusal address value with
    | some error => rfl
    | none => simp only [store_muted, see]
  takeStall _ := rfl
  report _ _ := rfl

theorem operate_muted (board : Board) (screen : σ) (operation : Operation) :
    operate render operation (board.muted, screen) =
      ((operate render operation (board, screen)).1.muted,
        (operate render operation (board, screen)).2) := by
  cases operation with
  | read address =>
      exact congrArg (·, screen) (final_see (sees_muted.read address board))
  | write address value =>
      exact congrArg (·, screen) (final_see (sees_muted.write address value board))
  | tick cycles =>
      let ticked : Board :=
        { board with
          timer := board.timer.tick cycles, ppu := (board.ppu.tick render cycles screen).1 }
      exact congrArg (·, (board.ppu.tick render cycles screen).2) (collect_muted ticked)
  | setButton button pressed =>
      let pushed : Board := { board with joypad := board.joypad.setButton button pressed }
      exact congrArg (·, screen) (collect_muted pushed)
  | request lines => rfl

theorem operateAll_muted (operations : List Operation) (now : Board × σ) :
    operateAll render operations (now.1.muted, now.2) =
      ((operateAll render operations now).1.muted, (operateAll render operations now).2) := by
  induction operations generalizing now with
  | nil => rfl
  | cons operation operations ih => 
      have first := operate_muted render now.1 now.2 operation
      have later := ih (operate render operation now)
      rw [← first] at later
      exact later

theorem boot_muted (cartridge : Cartridge) (config : Config) (sink : Sink) :
    boot cartridge { config with captureSerial := false } sink =
      (boot cartridge config sink).muted := by
  cases state : config.bootState <;> simp only [boot, muted, state]

/-! ## Histories -/

theorem lastSent_boot (cartridge : Cartridge) (config : Config) (sink : Sink) :
    (boot cartridge config sink).serial.lastSent = none := by
  rw [boot]
  cases config.bootState <;> rfl

theorem log_boot (cartridge : Cartridge) (config : Config) (sink : Sink) :
    (boot cartridge config sink).serial.log = (config.captureSerial, #[]) := by
  rw [boot]
  cases config.bootState <;> rfl

theorem sink_boot (cartridge : Cartridge) (config : Config) (sink : Sink) :
    (boot cartridge config sink).sink = sink := by
  rw [boot]
  cases config.bootState <;> rfl

/-- The output of a board that keeps bytes is a suffix of all bytes sent, of a length that depends
on their number only. -/
theorem output_operateAll (cartridge : Cartridge) {config : Config}
    (captures : config.captureSerial = true) (sink : Sink) (screen : σ)
    (operations : List Operation) :
    let start := (boot cartridge config sink, screen)
    let output := (operateAll render operations start).1.serial.output
    Serial.IsLog (bytesSent render operations start) output ∧
      output.size = Serial.lengthAfter (bytesSent render operations start).length := by
  intro start output
  have begun : start.1.serial.log = (true, #[]) := by
    rw [← captures]
    exact log_boot cartridge config sink
  have empty : start.1.serial.output = #[] := congrArg Prod.snd begun
  have kept := congrArg Prod.snd (log_operateAll render operations (congrArg Prod.fst begun))
  rw [empty] at kept
  have found : output = (bytesSent render operations start).foldl Serial.keep #[] := kept
  rw [found]
  exact ⟨Serial.isLog_nil.foldl_keep _, Serial.size_foldl_keep _⟩

/-- Whatever is done to a board from its start on, the reports of the serial port are the bytes
sent, in order, and the write that sends a byte reports it and requests the interrupt.  The output
is a suffix of the bytes sent: all of them up to the limit, from then on of a length that grows from
just over half of the limit to the limit again and again.  If the board keeps no bytes, its output
is empty, and nothing else differs. -/
theorem serial_history (cartridge : Cartridge) (config : Config) (sink : Sink) (screen : σ)
    (operations : List Operation) :
    let start := (boot cartridge config sink, screen)
    let now := operateAll render operations start
    let sent := bytesSent render operations start
    let output := now.1.serial.output
    (∃ events : List Event, now.1.sink = events.foldl (fun sink event => sink.record event) sink ∧
      events.filterMap Event.serialByte? = sent) ∧
    (∀ value, value &&& 0x81 = 0x81 →
      let after := operate render (.write 0xFF02 value) now
      after.1.sink = now.1.sink.record (.serialByte now.1.serial.data) ∧
        after.1.requests.contains .serial = true) ∧
    (config.captureSerial = true →
      output.toList <:+ sent ∧
      (sent.length ≤ 65536 → output.toList = sent) ∧
      (65536 < sent.length → output.size = 32769 + (sent.length - 65537) % 32768) ∧
      output.size ≤ 65536 ∧
      ∀ recent, recent <:+ sent → recent.length ≤ 32769 → recent <:+ output.toList) ∧
    operateAll render operations
        (boot cartridge { config with captureSerial := false } sink, screen) =
      ({ now.1 with serial := { now.1.serial with capture := false, output := #[] } }, now.2) := by
  intro start now sent output
  have unsent : start.1.serial.lastSent = none := lastSent_boot cartridge config sink
  obtain ⟨⟨events, handed, reported⟩, taken⟩ := reportsSent_operateAll render operations unsent
  refine ⟨⟨events, ?_, reported⟩, fun value starts => ?_, fun captures => ?_, ?_⟩
  · rw [← sink_boot cartridge config sink]
    exact handed
  · have stored : (operate render (.write 0xFF02 value) now).1 =
        now.1.store Serial.controlAddress value := rfl
    let sending : Board := { now.1 with serial := now.1.serial.transfer }
    have latched : sending.serial.lastSent = some now.1.serial.data := rfl
    obtain ⟨recorded, _, requested⟩ := collect_transfer latched rfl
    simp only
    rw [stored, now.1.store_transfer starts]
    exact ⟨recorded, requested⟩
  · obtain ⟨⟨suffix, full⟩, size⟩ :=
      output_operateAll render cartridge captures sink screen operations
    have few (short : sent.length ≤ 65536) : output.size = sent.length :=
      size.trans (if_pos short)
    have many (long : 65536 < sent.length) :
        output.size = 32769 + (sent.length - 65537) % 32768 :=
      size.trans (if_neg (Nat.not_le.mpr long))
    refine ⟨suffix, fun short => ?_, many, ?_, ?_⟩
    · exact suffix.eq_of_length (few short)
    · rw [size]
      exact Serial.lengthAfter_le _
    · intro recent last short
      refine List.suffix_of_suffix_length_le last suffix ?_
      rcases full with all | long
      · rw [all]
        exact last.length_le
      · exact Nat.le_trans short long
  · rw [boot_muted]
    exact operateAll_muted render operations start

/-- The second of two transfers sends the idle line that the first has shifted in. -/
theorem serial_history_twoTransfers :
    let cartridge := Cartridge.romOnly (Bank.filled 0) (Bank.filled 0)
    let operations : List Operation :=
      [.write 0xFF01 0x41, .write 0xFF02 0x81, .tick 4, .write 0xFF02 0x01, .write 0xFF02 0xFF]
    let start := (boot cartridge {} (.recording #[]), ())
    let now := operateAll Renderer.null operations start
    bytesSent Renderer.null operations start = [0x41, 0xFF] ∧
      (∃ events : List Event,
        now.1.sink = events.foldl (fun sink event => sink.record event) (.recording #[]) ∧
          events.filterMap Event.serialByte? = [0x41, 0xFF]) ∧
      now.1.serial.output.toList = [0x41, 0xFF] := by
  intro cartridge operations start now
  have sends : bytesSent Renderer.null operations start = [0x41, 0xFF] := by decide +kernel
  have few : (bytesSent Renderer.null operations start).length ≤ 65536 := by
    rw [sends]
    decide
  obtain ⟨⟨events, handed, reported⟩, _, kept, _⟩ :=
    serial_history Renderer.null cartridge {} (.recording #[]) () operations
  exact ⟨sends, ⟨events, handed, reported.trans sends⟩, ((kept rfl).2.1 few).trans sends⟩

end Board
end GameBoy
