import GameBoy.Proofs.Collection

/-!
# Reports

Each operation on a board reports its own events, whatever the sink is, and nothing else depends on
the sink.  A recording sink therefore holds, operation by operation, what any other sink is handed:
the trace of the operations.
-/

namespace GameBoy

open Effect

/-! ## Sinks -/

namespace Sink

/-- Hand a number of events to the sink, the first one first. -/
def recordList (events : List Event) (sink : Sink) : Sink :=
  events.foldl (fun sink event => sink.record event) sink

theorem recordList_append (events later : List Event) (sink : Sink) :
    sink.recordList (events ++ later) = (sink.recordList events).recordList later :=
  List.foldl_append

/-- A recording sink keeps all that it is handed. -/
theorem events_recordList_recording (events : List Event) (kept : Array Event) :
    ((recording kept).recordList events).events.toList = kept.toList ++ events := by
  induction events generalizing kept with
  | nil => exact (List.append_nil _).symm
  | cons event events ih =>
      have longer := ih (kept.push event)
      rwa [Array.toList_push, List.append_assoc] at longer

end Sink

/-- What the port reports once it is served: the byte of a completed transfer. -/
def Serial.reports (serial : Serial) : List Event :=
  if serial.requested then serial.lastSent.toList.map Event.serialByte else []

namespace Board

/-- The board with another sink. -/
def withSink (sink : Sink) (board : Board) : Board :=
  { board with sink }

/-- The change reports these events, and the sink has no other part in it. -/
def Reports (events : List Event) (change : Board → Board) (board : Board) : Prop :=
  ∀ sink, change (board.withSink sink) = (change board).withSink (sink.recordList events)

namespace Reports

variable {events later : List Event} {change next : Board → Board} {board : Board}

theorem comp (first : Reports events change board) (second : Reports later next (change board)) :
    Reports (events ++ later) (fun board => next (change board)) board := by
  intro sink
  simp only [first sink, second (sink.recordList events), Sink.recordList_append]

end Reports

/-! ## Reports of the parts -/

theorem raised_serial_eq (board : Board) : board.raised.serial = board.serial.requested := by
  simp only [raised, Interrupt.Lines.union, Timer.raised, Ppu.raised, Serial.raised, Joypad.raised,
    Bool.false_or, Bool.or_false]

theorem collect_withSink (board : Board) : Reports board.serial.reports collect board := by
  intro sink
  have same : (board.withSink sink).raised = board.raised := rfl
  simp only [collect, same, raised_serial_eq, Serial.reports]
  split
  · simp only [reportSent, Serial.acknowledge, withSink]
    cases board.serial.lastSent <;> rfl
  · rfl

/-- What a write into the ROM windows reports. -/
def romReports (board : Board) (address : UInt16) (value : UInt8) : List Event :=
  if board.cartridge.mapper.isPresent then
    if 0x2000 ≤ address && address < 0x4000 then
      [.romBankSelected (board.cartridge.writeControl address value).selectedRomBank]
    else []
  else [.romWriteIgnored address value]

theorem storeRom_withSink (board : Board) (address : UInt16) (value : UInt8) :
    Reports (board.romReports address value) (·.storeRom address value) board := by
  intro sink
  cases present : board.cartridge.mapper.isPresent <;>
    cases selects : (0x2000 ≤ address && address < 0x4000 : Bool) <;>
    simp only [storeRom, romReports, withSink, present, selects] <;> rfl

/-- What a write to a register reports by itself. -/
def portReports (board : Board) (address : UInt16) (value : UInt8) : List Event :=
  match Port.of address with
  | .picture =>
    let after := (board.ppu.write address value).lcdEnabled
    if board.ppu.lcdEnabled != after then [.lcdPower after] else []
  | .oamDma => [.oamDma (dmaSource value)]
  | _ => []

theorem storePort_withSink (board : Board) (address : UInt16) (value : UInt8) :
    Reports (board.portReports address value) (·.storePort address value) board := by
  intro sink
  simp only [storePort, portReports]
  cases Port.of address with
  | picture =>
      cases switched : board.ppu.lcdEnabled != (board.ppu.write address value).lcdEnabled <;>
        simp only [storePicture, withSink, switched] <;> rfl
  | _ => rfl

/-- What a write reports that is not refused. -/
def storeReports (board : Board) (address : UInt16) (value : UInt8) : List Event :=
  match Region.of address with
  | .romBank0 | .romBankN => board.romReports address value
  | .io => board.portReports address value ++ (board.storePort address value).serial.reports
  | _ => []

theorem store_withSink (board : Board) (address : UInt16) (value : UInt8) :
    Reports (board.storeReports address value) (·.store address value) board := by
  simp only [Reports, store, storeReports]
  cases Region.of address with
  | romBank0 | romBankN => exact board.storeRom_withSink address value
  | io => exact (board.storePort_withSink address value).comp (collect_withSink _)
  | _ => exact fun _ => rfl

/-! ## Operations -/

variable {σ : Type} (render : Renderer σ)

/-- What an operation reports. -/
def reports (board : Board) : Operation → List Event
  | .read address =>
    match board.peek address with
    | .ok _ => []
    | .error error => [.memoryFault error]
  | .write address value =>
    match board.refusal address value with
    | some error => [.memoryFault error]
    | none => board.storeReports address value
  | .tick _ | .setButton .. => board.serial.reports
  | .request _ => []

theorem peek_withSink (board : Board) (sink : Sink) (address : UInt16) :
    (board.withSink sink).peek address = board.peek address := by
  simp only [peek, portByte, memoryByte, withSink]

theorem operate_withSink (board : Board) (screen : σ) (operation : Operation) (sink : Sink) :
    operate render operation (board.withSink sink, screen) =
      ((operate render operation (board, screen)).1.withSink
          (sink.recordList (board.reports operation)),
        (operate render operation (board, screen)).2) := by
  cases operation with
  | read address =>
      have found := board.peek_withSink sink address
      simp only [operate, reports]
      cases peeked : board.peek address with
      | ok value =>
          rw [final_of_ok (read_of_peek peeked), final_of_ok (read_of_peek (found.trans peeked))]
          rfl
      | error error =>
          rw [final_of_error (read_of_peek_error peeked),
            final_of_error (read_of_peek_error (found.trans peeked))]
          rfl
  | write address value =>
      have same : (board.withSink sink).refusal address value = board.refusal address value := rfl
      simp only [operate, reports, final, write_apply, same]
      cases board.refusal address value with
      | some error => rfl
      | none => exact congrArg (·, screen) (board.store_withSink address value sink)
  | tick cycles =>
      let ticked : Board :=
        { board with
          timer := board.timer.tick cycles, ppu := (board.ppu.tick render cycles screen).1 }
      exact congrArg (·, (board.ppu.tick render cycles screen).2) (ticked.collect_withSink sink)
  | setButton button pressed =>
      let pushed : Board := { board with joypad := board.joypad.setButton button pressed }
      exact congrArg (·, screen) (pushed.collect_withSink sink)
  | request lines => rfl

/-- What a recording sink holds when some operations are done that found it empty. -/
def trace (operations : List Operation) (now : Board × σ) : List Event :=
  (operateAll render operations (now.1.withSink (.recording #[]), now.2)).1.sink.events.toList

theorem exists_reports (operations : List Operation) (now : Board × σ) : ∃ events, ∀ sink,
    operateAll render operations (now.1.withSink sink, now.2) =
      ((operateAll render operations now).1.withSink (sink.recordList events),
        (operateAll render operations now).2) := by
  induction operations generalizing now with
  | nil => exact ⟨[], fun _ => rfl⟩
  | cons operation operations ih =>
      obtain ⟨events, later⟩ := ih (operate render operation now)
      refine ⟨now.1.reports operation ++ events, fun sink => ?_⟩
      rw [Sink.recordList_append]
      exact (congrArg (operateAll render operations)
        (now.1.operate_withSink render now.2 operation sink)).trans (later _)

/-- Any sink is handed the trace, and is without influence on anything else. -/
theorem operateAll_withSink (operations : List Operation) (now : Board × σ) (sink : Sink) :
    operateAll render operations (now.1.withSink sink, now.2) =
      ((operateAll render operations now).1.withSink
          (sink.recordList (trace render operations now)),
        (operateAll render operations now).2) := by
  obtain ⟨events, handed⟩ := exists_reports render operations now
  have same : trace render operations now = events := by
    rw [trace, handed]
    exact Sink.events_recordList_recording events #[]
  rw [handed, same]

theorem sink_operateAll (operations : List Operation) (now : Board × σ) :
    (operateAll render operations now).1.sink =
      now.1.sink.recordList (trace render operations now) :=
  congrArg (fun after => after.1.sink) (operateAll_withSink render operations now now.1.sink)

/-- The trace grows at its end. -/
theorem trace_append (operations later : List Operation) (now : Board × σ) :
    trace render (operations ++ later) now =
      trace render operations now ++ trace render later (operateAll render operations now) := by
  rw [trace, operateAll, List.foldl_append]
  change (operateAll render later (operateAll render operations
    (now.1.withSink (.recording #[]), now.2))).1.sink.events.toList = _
  rw [operateAll_withSink render operations, operateAll_withSink render later,
    withSink, ← Sink.recordList_append, Sink.events_recordList_recording]
  rfl

theorem trace_singleton (operation : Operation) (now : Board × σ) :
    trace render [operation] now = now.1.reports operation := by
  change (operate render operation
    (now.1.withSink (.recording #[]), now.2)).1.sink.events.toList = _
  rw [operate_withSink, withSink, Sink.events_recordList_recording]
  rfl

theorem trace_cons (operation : Operation) (operations : List Operation) (now : Board × σ) :
    trace render (operation :: operations) now =
      now.1.reports operation ++ trace render operations (operate render operation now) := by
  rw [← trace_singleton render]
  exact trace_append render [operation] operations now

end Board
end GameBoy
