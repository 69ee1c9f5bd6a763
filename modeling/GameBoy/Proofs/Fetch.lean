import GameBoy.Proofs.Actions

/-!
# The instruction stream

Fetching an instruction reads the bytes of its encoding one after another and then lets it act.  The
main statement reads an execution back as such a run of fetches.  Without the halt bug the bytes lie
at consecutive addresses, and PC ends up past the last of them.
-/

namespace GameBoy

namespace Cpu

/-- The processor with PC moved on by a number of bytes. -/
def skip (cpu : Cpu) (count : Nat) : Cpu :=
  { cpu with regs := { cpu.regs with pc := cpu.regs.pc + UInt16.ofNat count } }

@[simp]
theorem skip_zero (cpu : Cpu) : cpu.skip 0 = cpu := by
  simp [skip]

theorem skip_skip (cpu : Cpu) (first second : Nat) :
    (cpu.skip first).skip second = cpu.skip (first + second) := by
  simp [skip, UInt16.add_assoc, UInt16.ofNat_add]

theorem advance_of_haltBug_eq_false {cpu : Cpu} (clear : cpu.haltBug = false) :
    cpu.advance = cpu.skip 1 := by
  simp [advance, clear, skip]

end Cpu

/-- Where PC stands when a number of bytes have been fetched.  The halt bug makes the first of them
be fetched twice. -/
def stream (pc : UInt16) (armed : Bool) (count : Nat) : UInt16 :=
  pc + UInt16.ofNat (if armed then count - 1 else count)

theorem stream_zero (pc : UInt16) (armed : Bool) : stream pc armed 0 = pc := by
  cases armed <;> simp [stream]

theorem stream_stream (pc : UInt16) (armed : Bool) (count : Nat) :
    stream (stream pc armed 1) false (count + 1) = stream pc armed (count + 2) := by
  cases armed with
  | true => simp [stream]
  | false =>
      have more : count + 2 = 1 + (count + 1) := by omega
      simp only [stream, Bool.false_eq_true, if_false]
      rw [more, UInt16.ofNat_add 1 (count + 1), UInt16.add_assoc]

theorem stream_succ (pc : UInt16) (armed : Bool) (count : Nat) :
    stream pc armed (count + 2) = stream pc armed (count + 1) + 1 := by
  cases armed <;> simp [stream, UInt16.ofNat_add, UInt16.add_assoc]

/-- The processor once a number of bytes have been fetched. -/
def Cpu.fetched (cpu : Cpu) (count : Nat) : Cpu :=
  { cpu with
    regs := { cpu.regs with pc := stream cpu.regs.pc cpu.haltBug count }
    haltBug := cpu.haltBug && count == 0 }

theorem Cpu.fetched_zero (cpu : Cpu) : cpu.fetched 0 = cpu := by
  simp [fetched, stream_zero]

theorem Cpu.fetched_one (cpu : Cpu) : cpu.fetched 1 = cpu.advance := by
  cases armed : cpu.haltBug with
  | true => simp [fetched, stream, advance, armed]
  | false =>
      rw [advance_of_haltBug_eq_false armed]
      simp [fetched, stream, skip, armed]

theorem Cpu.advance_fetched (cpu : Cpu) (count : Nat) :
    (cpu.fetched count).advance = cpu.fetched (count + 1) := by
  cases count with
  | zero => rw [fetched_zero, fetched_one]
  | succ count =>
      have clear : (cpu.fetched (count + 1)).haltBug = false := by simp [fetched]
      rw [advance_of_haltBug_eq_false clear]
      simp only [fetched, skip, stream_succ]
      simp

theorem Cpu.fetched_advance (cpu : Cpu) (count : Nat) :
    cpu.advance.fetched count = cpu.fetched (count + 1) := by
  induction count with
  | zero => rw [fetched_zero, fetched_one]
  | succ count ih => rw [← advance_fetched, ih, advance_fetched]

/-- Read a number of bytes from consecutive addresses, each of them once. -/
def Bus.readRun {β : Type} [Bus β] (address : UInt16) : Nat → Access β (List UInt8)
  | 0 => pure []
  | count + 1 => do
    let value ← Bus.read address
    let rest ← readRun (address + 1) count
    pure (value :: rest)

namespace Instruction

/-- The opcode bytes of a slot. -/
def slotBytes (slot : UInt16) : List UInt8 :=
  if slot < 0x100 then [Word.low slot] else [Opcode.escape, Word.low slot]

/-- The immediate bytes of an instruction, low byte first. -/
def immediateBytes (kind : Immediate) (immediate : UInt16) : List UInt8 :=
  match kind with
  | .none => []
  | .signed8 | .unsigned8 => [Word.low immediate]
  | .unsigned16 => [Word.low immediate, Word.high immediate]

/-- The bytes of an instruction: opcode bytes and immediate bytes. -/
def encoding (slot immediate : UInt16) : List UInt8 :=
  slotBytes slot ++ immediateBytes (ofSlot slot).immediate immediate

theorem slotBytes_toUInt16 (opcode : UInt8) : slotBytes opcode.toUInt16 = [opcode] := by
  have first : opcode.toUInt16 < 0x100 := by
    rw [UInt16.lt_iff_toNat_lt, UInt8.toNat_toUInt16]
    exact opcode.toNat_lt
  rw [slotBytes, if_pos first, Word.low_toUInt16]

theorem slotBytes_extended (opcode : UInt8) :
    slotBytes (0x100 ||| opcode.toUInt16) = [Opcode.escape, opcode] := by
  have second : ¬(0x100 ||| opcode.toUInt16) < 0x100 := by
    rw [UInt16.lt_iff_toNat_lt, UInt16.toNat_or]
    exact Nat.not_lt.mpr Nat.left_le_or
  rw [slotBytes, if_neg second]
  congr 2
  apply UInt8.toBitVec_inj.mp
  simp only [Word.low]
  ext i _
  simp

theorem eq_of_slotBytes {slot : UInt16} {opcode : UInt8} {rest : List UInt8}
    (bytes : slotBytes slot = opcode :: rest) (plain : opcode ≠ Opcode.escape) :
    slot = opcode.toUInt16 := by
  rw [slotBytes] at bytes
  split at bytes
  · next first =>
      cases bytes
      apply UInt16.toNat_inj.mp
      rw [UInt16.lt_iff_toNat_lt] at first
      rw [UInt8.toNat_toUInt16, Word.low, UInt16.toNat_toUInt8]
      exact (Nat.mod_eq_of_lt first).symm
  · cases bytes
    exact absurd rfl plain

theorem slotBytes_length_pos (slot : UInt16) : 0 < (slotBytes slot).length := by
  rw [slotBytes]
  split <;> simp

theorem encoding_length_pos (slot immediate : UInt16) : 0 < (encoding slot immediate).length := by
  rw [encoding, List.length_append]
  exact Nat.add_pos_left (slotBytes_length_pos slot) _

theorem immediateBytes_length (kind : Immediate) (immediate : UInt16) :
    (immediateBytes kind immediate).length = kind.size := by
  cases kind <;> rfl

theorem eq_of_immediateBytes {immediate word : UInt16}
    (same : immediateBytes .unsigned16 word = immediateBytes .unsigned16 immediate) :
    word = immediate := by
  obtain ⟨low, rest⟩ := List.cons_eq_cons.mp same
  rw [← Word.ofBytes_high_low word, ← Word.ofBytes_high_low immediate, low,
    List.head_eq_of_cons_eq rest]

end Instruction

namespace Exec

open Effect

variable {β : Type} [Bus β]

/-- Fetch a number of bytes. -/
def fetchRun : Nat → Exec β (List UInt8)
  | 0 => pure []
  | count + 1 => do
    let value ← fetch
    let rest ← fetchRun count
    pure (value :: rest)

theorem fetch_apply (system : System β) :
    fetch system =
      match Bus.read system.cpu.regs.pc system.bus with
      | .ok value bus => .ok value ⟨system.cpu.advance, bus⟩
      | .error error bus => .error (.memory error) ⟨system.cpu, bus⟩ := by
  rw [fetch, bind_of_ok (registers_apply system), bind_apply, read, access_apply]
  cases Bus.read system.cpu.regs.pc system.bus <;> rfl

theorem fetch_of_read {system : System β} {opcode : UInt8} {fetched : β}
    (found : Bus.read system.cpu.regs.pc system.bus = .ok opcode fetched) :
    fetch system = .ok opcode ⟨system.cpu.advance, fetched⟩ := by
  rw [fetch_apply, found]

theorem fetchSlot_of_read {system : System β} {opcode : UInt8} {fetched : β}
    (found : Bus.read system.cpu.regs.pc system.bus = .ok opcode fetched)
    (plain : opcode ≠ Opcode.escape) :
    Cpu.fetchSlot system = .ok opcode.toUInt16 ⟨system.cpu.advance, fetched⟩ := by
  rw [Cpu.fetchSlot, bind_of_ok (fetch_of_read found), if_neg plain]
  rfl

theorem fetchRun_one {system after : System β} {value : UInt8}
    (fetched : fetch system = .ok value after) : fetchRun 1 system = .ok [value] after := by
  rw [fetchRun, bind_of_ok fetched]
  rfl

theorem fetchRun_succ {system between after : System β} {count : Nat} {value : UInt8}
    {rest : List UInt8} (fetched : fetch system = .ok value between)
    (remaining : fetchRun count between = .ok rest after) :
    fetchRun (count + 1) system = .ok (value :: rest) after := by
  rw [fetchRun, bind_of_ok fetched, bind_of_ok remaining]
  rfl

theorem fetchRun_add {system between after : System β} {first second : Nat}
    {front back : List UInt8} (begun : fetchRun first system = .ok front between)
    (ended : fetchRun second between = .ok back after) :
    fetchRun (first + second) system = .ok (front ++ back) after := by
  induction first generalizing system front with
  | zero =>
      cases begun
      simpa using ended
  | succ first ih =>
      obtain ⟨value, middle, fetched, rest⟩ := bind_ok.mp begun
      obtain ⟨values, _, remaining, rest⟩ := bind_ok.mp rest
      cases rest
      rw [Nat.succ_add]
      exact fetchRun_succ fetched (ih remaining)

/-- Without the halt bug, fetching is reading consecutive addresses and skipping what was read. -/
theorem readRun_of_fetchRun {system after : System β} {count : Nat} {values : List UInt8}
    (clear : system.cpu.haltBug = false) (ran : fetchRun count system = .ok values after) :
    Bus.readRun system.cpu.regs.pc count system.bus = .ok values after.bus ∧
      after.cpu = system.cpu.skip count := by
  induction count generalizing system values with
  | zero =>
      cases ran
      exact ⟨rfl, (Cpu.skip_zero _).symm⟩
  | succ count ih =>
      obtain ⟨value, between, fetched, rest⟩ := bind_ok.mp ran
      obtain ⟨rest, last, remaining, done⟩ := bind_ok.mp rest
      cases done
      rw [fetch_apply] at fetched
      cases read : Bus.read system.cpu.regs.pc system.bus with
      | error error bus => simp [read] at fetched
      | ok first bus =>
          rw [read] at fetched
          cases fetched
          have moved : system.cpu.advance = system.cpu.skip 1 :=
            Cpu.advance_of_haltBug_eq_false clear
          obtain ⟨reads, skipped⟩ := ih (by rw [moved]; exact clear) remaining
          rw [moved] at reads skipped
          change Bus.readRun (system.cpu.regs.pc + 1) count bus = _ at reads
          constructor
          · rw [Bus.readRun, bind_of_ok read, bind_of_ok reads]
            rfl
          · rw [skipped, Cpu.skip_skip, Nat.add_comm]

theorem cpu_of_fetchRun {system after : System β} {count : Nat} {values : List UInt8}
    (ran : fetchRun count system = .ok values after) : after.cpu = system.cpu.fetched count := by
  induction count generalizing system values with
  | zero =>
      cases ran
      exact (Cpu.fetched_zero _).symm
  | succ count ih =>
      obtain ⟨value, between, fetched, rest⟩ := bind_ok.mp ran
      obtain ⟨rest, last, remaining, done⟩ := bind_ok.mp rest
      cases done
      rw [fetch_apply] at fetched
      cases read : Bus.read system.cpu.regs.pc system.bus with
      | error error bus => simp [read] at fetched
      | ok first bus =>
          rw [read] at fetched
          cases fetched
          exact (ih remaining).trans (Cpu.fetched_advance system.cpu count)

theorem haltBug_advance (cpu : Cpu) : cpu.advance.haltBug = false := by
  rw [Cpu.advance]
  split
  · rfl
  · exact Bool.eq_false_iff.mpr (by assumption)

/-- Fetching reads one byte where PC stands and the others from where the first byte leaves PC. -/
theorem readRun_of_fetchRun_succ {system after : System β} {count : Nat} {values : List UInt8}
    (ran : fetchRun (count + 1) system = .ok values after) :
    ∃ first rest between, values = first :: rest ∧
      Bus.read system.cpu.regs.pc system.bus = .ok first between ∧
      Bus.readRun system.cpu.advance.regs.pc count between = .ok rest after.bus ∧
      after.cpu = system.cpu.advance.skip count := by
  obtain ⟨value, between, fetched, tail⟩ := bind_ok.mp ran
  obtain ⟨rest, last, remaining, done⟩ := bind_ok.mp tail
  cases done
  rw [fetch_apply] at fetched
  cases read : Bus.read system.cpu.regs.pc system.bus with
  | error error bus => simp [read] at fetched
  | ok first bus =>
      rw [read] at fetched
      cases fetched
      obtain ⟨reads, skipped⟩ := readRun_of_fetchRun (haltBug_advance system.cpu) remaining
      exact ⟨value, rest, bus, rfl, rfl, reads, skipped⟩

/-! ## Decoding -/

theorem fetchSlot_ok {system after : System β} {slot : UInt16}
    (ran : Cpu.fetchSlot system = .ok slot after) :
    fetchRun (Instruction.slotBytes slot).length system =
      .ok (Instruction.slotBytes slot) after := by
  obtain ⟨opcode, between, fetched, rest⟩ := bind_ok.mp ran
  by_cases escaped : opcode = Opcode.escape
  · rw [if_pos escaped] at rest
    obtain ⟨low, _, second, done⟩ := bind_ok.mp rest
    cases done
    rw [Instruction.slotBytes_extended, ← escaped]
    exact fetchRun_succ fetched (fetchRun_one second)
  · rw [if_neg escaped] at rest
    cases rest
    rw [Instruction.slotBytes_toUInt16]
    exact fetchRun_one fetched

theorem fetchImmediate_ok {kind : Immediate} {system after : System β} {immediate : UInt16}
    (ran : fetchImmediate kind system = .ok immediate after) :
    fetchRun kind.size system = .ok (Instruction.immediateBytes kind immediate) after := by
  cases kind with
  | none =>
      cases ran
      rfl
  | signed8 | unsigned8 =>
      obtain ⟨value, _, fetched, done⟩ := bind_ok.mp ran
      cases done
      rw [Instruction.immediateBytes, Word.low_toUInt16]
      exact fetchRun_one fetched
  | unsigned16 =>
      obtain ⟨low, between, first, rest⟩ := bind_ok.mp ran
      obtain ⟨high, _, second, done⟩ := bind_ok.mp rest
      cases done
      rw [Instruction.immediateBytes, Word.low_ofBytes, Word.high_ofBytes]
      exact fetchRun_succ first (fetchRun_one second)

theorem fetchRun_encoding {slot immediate : UInt16} {system between after : System β}
    (opcode : Cpu.fetchSlot system = .ok slot between)
    (operand :
      fetchImmediate (Instruction.ofSlot slot).immediate between = .ok immediate after) :
    fetchRun (Instruction.encoding slot immediate).length system =
      .ok (Instruction.encoding slot immediate) after := by
  rw [Instruction.encoding, List.length_append, Instruction.immediateBytes_length]
  exact fetchRun_add (fetchSlot_ok opcode) (fetchImmediate_ok operand)

/-! ## Fetches that fail -/

/-- A number of bytes have been fetched, and the next fetch has failed. -/
def StopsFetching (system : System β) (fault : Fault) (after : System β) : Prop :=
  ∃ values between, fetchRun values.length system = .ok values between ∧
    fetch between = .error fault after

theorem stopsFetching_of_fetch {system after : System β} {fault : Fault}
    (failed : fetch system = .error fault after) : StopsFetching system fault after :=
  ⟨[], system, rfl, failed⟩

theorem StopsFetching.after {system between after : System β} {fault : Fault}
    {front : List UInt8} (begun : fetchRun front.length system = .ok front between)
    (stops : StopsFetching between fault after) : StopsFetching system fault after := by
  obtain ⟨back, last, ended, failed⟩ := stops
  refine ⟨front ++ back, last, ?_, failed⟩
  rw [List.length_append]
  exact fetchRun_add begun ended

theorem fetchSlot_error {system after : System β} {fault : Fault}
    (failed : Cpu.fetchSlot system = .error fault after) : StopsFetching system fault after := by
  rcases bind_error.mp failed with first | ⟨opcode, between, fetched, rest⟩
  · exact stopsFetching_of_fetch first
  · have begun : fetchRun [opcode].length system = .ok [opcode] between := fetchRun_one fetched
    refine .after begun ?_
    by_cases escaped : opcode = Opcode.escape
    · rw [if_pos escaped] at rest
      rcases bind_error.mp rest with second | ⟨_, _, _, done⟩
      · exact stopsFetching_of_fetch second
      · cases done
    · rw [if_neg escaped] at rest
      cases rest

theorem fetchImmediate_error {kind : Immediate} {system after : System β} {fault : Fault}
    (failed : fetchImmediate kind system = .error fault after) :
    StopsFetching system fault after := by
  cases kind with
  | none => cases failed
  | signed8 | unsigned8 =>
      rcases bind_error.mp failed with first | ⟨_, _, _, done⟩
      · exact stopsFetching_of_fetch first
      · cases done
  | unsigned16 =>
      rcases bind_error.mp failed with first | ⟨low, between, fetched, rest⟩
      · exact stopsFetching_of_fetch first
      · have begun : fetchRun [low].length system = .ok [low] between := fetchRun_one fetched
        refine .after begun ?_
        rcases bind_error.mp rest with second | ⟨_, _, _, done⟩
        · exact stopsFetching_of_fetch second
        · cases done

end Exec

namespace Cpu

open Effect Exec

variable {β : Type}

theorem requireUnlocked_apply (system : System β) :
    requireUnlocked system =
      match system.cpu.locked with
      | some error => .error (.decode error) system
      | none => .ok () system := by
  rw [requireUnlocked, bind_of_ok (cpu_apply system)]
  cases system.cpu.locked <;> rfl

theorem requireUnlocked_of_unlocked {system : System β} (unlocked : system.cpu.locked = none) :
    requireUnlocked system = .ok () system := by
  rw [requireUnlocked_apply, unlocked]

theorem requireUnlocked_of_locked {system : System β} {error : DecodeError}
    (locked : system.cpu.locked = some error) :
    requireUnlocked system = .error (.decode error) system := by
  rw [requireUnlocked_apply, locked]

theorem requireUnlocked_ok {system after : System β}
    (ran : requireUnlocked system = .ok () after) : after = system ∧ system.cpu.locked = none := by
  rw [requireUnlocked_apply] at ran
  cases locked : system.cpu.locked with
  | some error => simp [locked] at ran
  | none =>
      rw [locked] at ran
      cases ran
      exact ⟨rfl, rfl⟩

theorem requireUnlocked_error {system after : System β} {fault : Fault}
    (ran : requireUnlocked system = .error fault after) : after = system := by
  rw [requireUnlocked_apply] at ran
  cases locked : system.cpu.locked <;> rw [locked] at ran <;> cases ran
  rfl

variable [Bus β]

/-- Let an instruction act once all its bytes have been fetched. -/
def conclude (slot start immediate : UInt16) : Exec β Quantum := do
  let instruction := Instruction.ofSlot slot
  let taken := instruction.taken (← registers).flags
  perform instruction slot start immediate taken
  modifyCpu settleEI
  let stall ← takeStall
  pure (.execution slot (instruction.cost taken) stall)

theorem execute_eq_conclude :
    (execute : Exec β Quantum) =
      requireUnlocked >>= fun _ => registers >>= fun regs => fetchSlot >>= fun slot =>
        fetchImmediate (Instruction.ofSlot slot).immediate >>= fun immediate =>
          conclude slot regs.pc immediate := rfl

theorem conclude_ok {slot start immediate : UInt16} {system after : System β} {quantum : Quantum}
    (ran : conclude slot start immediate system = .ok quantum after) :
    let instruction := Instruction.ofSlot slot
    let taken := instruction.taken system.cpu.regs.flags
    ∃ acted, perform instruction slot start immediate taken system = .ok () acted ∧
      after = ⟨acted.cpu.settleEI, (Bus.takeStall acted.bus).2⟩ ∧
      quantum = .execution slot (instruction.cost taken) (Bus.takeStall acted.bus).1 := by
  obtain ⟨_, _, reads, rest⟩ := bind_ok.mp ran
  cases reads
  obtain ⟨_, acted, performed, rest⟩ := bind_ok.mp rest
  cases rest
  exact ⟨acted, performed, rfl, rfl⟩

theorem conclude_error {slot start immediate : UInt16} {system after : System β} {fault : Fault}
    (ran : conclude slot start immediate system = .error fault after) :
    perform (Instruction.ofSlot slot) slot start immediate
      ((Instruction.ofSlot slot).taken system.cpu.regs.flags) system = .error fault after := by
  rcases bind_error.mp ran with failed | ⟨_, _, reads, rest⟩
  · cases failed
  · cases reads
    rcases bind_error.mp rest with failed | ⟨_, _, _, rest⟩
    · exact failed
    · cases rest

/-- An executed instruction was fetched, slot and immediate, and then acted. -/
theorem execute_ok_fetched {system after : System β} {quantum : Quantum}
    (ran : execute system = .ok quantum after) :
    system.cpu.locked = none ∧ ∃ slot immediate opened fetched,
      fetchSlot system = .ok slot opened ∧
        fetchImmediate (Instruction.ofSlot slot).immediate opened = .ok immediate fetched ∧
        conclude slot system.cpu.regs.pc immediate fetched = .ok quantum after := by
  rw [execute_eq_conclude] at ran
  obtain ⟨_, _, unlocked, rest⟩ := bind_ok.mp ran
  obtain ⟨rfl, free⟩ := requireUnlocked_ok unlocked
  rw [bind_of_ok (registers_apply _)] at rest
  obtain ⟨slot, opened, opcode, rest⟩ := bind_ok.mp rest
  obtain ⟨immediate, fetched, operand, acts⟩ := bind_ok.mp rest
  exact ⟨free, slot, immediate, opened, fetched, opcode, operand, acts⟩

/-- An executed instruction was fetched byte by byte and then acted. -/
theorem execute_ok {system after : System β} {quantum : Quantum}
    (ran : execute system = .ok quantum after) :
    system.cpu.locked = none ∧ ∃ slot immediate fetched,
      fetchRun (Instruction.encoding slot immediate).length system =
          .ok (Instruction.encoding slot immediate) fetched ∧
        conclude slot system.cpu.regs.pc immediate fetched = .ok quantum after := by
  obtain ⟨free, slot, immediate, opened, fetched, opcode, operand, acts⟩ := execute_ok_fetched ran
  exact ⟨free, slot, immediate, fetched, fetchRun_encoding opcode operand, acts⟩

/-- An instruction that fails is refused because the processor hangs, fails while it is fetched, or
was fetched and fails when it acts. -/
theorem execute_error {system after : System β} {fault : Fault}
    (failed : execute system = .error fault after) :
    (∃ error, fault = .decode error ∧ after = system) ∨ StopsFetching system fault after ∨
      ∃ slot immediate fetched,
        fetchRun (Instruction.encoding slot immediate).length system =
            .ok (Instruction.encoding slot immediate) fetched ∧
          perform (Instruction.ofSlot slot) slot system.cpu.regs.pc immediate
            ((Instruction.ofSlot slot).taken fetched.cpu.regs.flags) fetched =
              .error fault after := by
  rw [execute_eq_conclude] at failed
  rcases bind_error.mp failed with hangs | ⟨_, _, unlocked, rest⟩
  · rw [requireUnlocked_apply] at hangs
    cases locked : system.cpu.locked with
    | none => simp [locked] at hangs
    | some error =>
        rw [locked] at hangs
        cases hangs
        exact .inl ⟨error, rfl, rfl⟩
  · obtain ⟨rfl, _⟩ := requireUnlocked_ok unlocked
    rw [bind_of_ok (registers_apply _)] at rest
    refine .inr ?_
    rcases bind_error.mp rest with early | ⟨slot, between, opcode, rest⟩
    · exact .inl (fetchSlot_error early)
    rcases bind_error.mp rest with late | ⟨immediate, fetched, operand, acts⟩
    · exact .inl (.after (fetchSlot_ok opcode) (fetchImmediate_error late))
    · exact .inr ⟨slot, immediate, fetched, fetchRun_encoding opcode operand, conclude_error acts⟩

end Cpu
end GameBoy
