import GameBoy.Proofs.Clock
import GameBoy.Proofs.Collection

/-!
# Causes of the picture interrupts

While the display is on, the result of the last comparison always tells whether the lines are equal,
and so a comparison finds a fresh match just where the line to compare with begins.  The requests of
a picture unit are then known from the dots that pass and from the causes that are selected.
-/

namespace GameBoy
namespace Ppu

open Interrupt

/-- The picture units that writes of registers and memory, time and the collection of requests lead
to. -/
inductive Reached : Ppu → Prop
  | zeroed : Reached {}
  | postBoot : Reached postBoot
  | write {ppu : Ppu} (address : UInt16) (value : UInt8) :
      Reached ppu → Reached (ppu.write address value)
  | store {ppu : Ppu} (vram : Bank 0x2000) (oam : Bank 0xA0) :
      Reached ppu → Reached { ppu with vram, oam }
  | tick {ppu : Ppu} {σ : Type} (render : Renderer σ) (dots : Nat) (screen : σ) :
      Reached ppu → Reached (ppu.tick render dots screen).1
  | acknowledge {ppu : Ppu} : Reached ppu → Reached ppu.acknowledge

/-- The picture unit comes by a place of the frame within a number of dots. -/
def Crosses (ppu : Ppu) (dots place : Nat) : Prop :=
  ∃ passed, 0 < passed ∧ passed ≤ dots ∧ (ppu.beam.position + passed) % 70224 = place

/-- A selected cause of the STAT interrupt is at a place of the frame. -/
def StatCause (ppu : Ppu) (place : Nat) : Prop :=
  (ppu.statSelect &&& 0x08 ≠ 0 ∧ ∃ line < 144, place = line * 456 + 252) ∨
  (ppu.statSelect &&& 0x10 ≠ 0 ∧ place = 144 * 456) ∨
  (ppu.statSelect &&& 0x20 ≠ 0 ∧ ∃ line < 144, place = line * 456) ∨
  (ppu.statSelect &&& 0x40 ≠ 0 ∧ place = ppu.lyc.toNat * 456)

/-! ## The comparison of the lines -/

/-- The result of the last comparison is up to date. -/
def Matched (ppu : Ppu) : Prop :=
  ppu.lcdEnabled = true → ppu.coincidence = (ppu.ly == ppu.lyc)

variable {ppu : Ppu}

theorem Matched.advance (matched : ppu.Matched) : ppu.advance.Matched := by
  rw [Ppu.advance]
  cases ppu.mode with
  | oamSearch | pixelTransfer => exact matched
  | hblank | vblank =>
      simp only
      split <;> exact fun _ => rfl

theorem Matched.dot (matched : ppu.Matched) : ppu.dot.Matched := by
  rw [Ppu.dot]
  split
  · exact matched
  · split
    · have reset : Matched { ppu with dots := 0 } := matched
      exact reset.advance
    · exact matched

theorem Matched.tick (matched : ppu.Matched) {σ : Type} (render : Renderer σ) (dots : Nat)
    (screen : σ) : (ppu.tick render dots screen).1.Matched := by
  rw [fst_tick]
  induction dots generalizing ppu with
  | zero => exact matched
  | succ dots ih => exact ih matched.dot

theorem Matched.setLcdc (matched : ppu.Matched) (value : UInt8) : (ppu.setLcdc value).Matched := by
  rw [Ppu.setLcdc]
  cases before : ppu.lcdEnabled with
  | false =>
      cases later : { ppu with lcdc := value }.lcdEnabled with
      | false => exact fun on => absurd (later.symm.trans on) Bool.false_ne_true
      | true => exact fun _ => rfl
  | true =>
      cases later : { ppu with lcdc := value }.lcdEnabled with
      | false => exact fun on => absurd (later.symm.trans on) Bool.false_ne_true
      | true => exact fun _ => matched before

theorem matched_setLyc (ppu : Ppu) (value : UInt8) : (ppu.setLyc value).Matched := by
  cases on : ppu.lcdEnabled with
  | false =>
      rw [Ppu.setLyc, on, if_neg Bool.false_ne_true]
      exact fun enabled => absurd (on.symm.trans enabled) Bool.false_ne_true
  | true =>
      rw [Ppu.setLyc, on, if_pos rfl]
      exact fun _ => rfl

theorem Matched.write (matched : ppu.Matched) (address : UInt16) (value : UInt8) :
    (ppu.write address value).Matched := by
  rw [Ppu.write]
  split
  · exact matched.setLcdc value
  repeat' split
  all_goals first | exact matched | exact ppu.matched_setLyc value

/-! ## Requests of a single dot -/

theorem raisesNext_of_inside (inside : ¬ppu.beam.AtModeEnd) : ppu.raisesNext = {} := by
  have ends : ppu.acknowledge.atModeEnd = false :=
    Bool.eq_false_iff.mpr (mt (atModeEnd_iff ppu).mp inside)
  rw [raisesNext, dot, ends]
  split <;> rfl

theorem raisesNext_of_end (on : ppu.lcdEnabled = true) (ends : ppu.beam.AtModeEnd) :
    ppu.raisesNext = { ppu.acknowledge with dots := 0 }.advance.raised := by
  have last : ppu.acknowledge.atModeEnd = true := (atModeEnd_iff ppu).mpr ends
  have power : ppu.acknowledge.lcdEnabled = true := on
  rw [raisesNext, dot, power, Bool.not_true, if_neg Bool.false_ne_true, if_pos last]

/-- Within a mode there is neither the start of a line nor that of a blank. -/
theorem Beam.InFrame.place_of_inside {beam : Beam} (inFrame : beam.InFrame)
    (inside : ¬beam.AtModeEnd) (line : Nat) :
    (beam.position + 1) % 70224 ≠ line * 456 ∧
      (line < 144 → (beam.position + 1) % 70224 ≠ line * 456 + 252) := by
  obtain ⟨dots_lt, line_le, vblank_iff⟩ := inFrame
  rcases beam with ⟨mode, current, dots, frames⟩
  simp only [AtModeEnd, Beam.position] at *
  cases mode <;>
    simp only [PpuMode.duration, PpuMode.start, reduceCtorEq, true_iff, false_iff] at * <;> omega

/-- On moving to another line the comparison finds a fresh match if it finds one at all. -/
theorem fresh_iff (on : ppu.lcdEnabled = true) (matched : ppu.Matched) {line : UInt8}
    (moved : line ≠ ppu.ly) :
    (line == ppu.lyc && !ppu.coincidence && ppu.statSelect &&& 0x40 != 0) = true ↔
      ppu.statSelect &&& 0x40 ≠ 0 ∧ line = ppu.lyc := by
  rw [matched on]
  by_cases same : line = ppu.lyc
  · have different : ppu.ly ≠ ppu.lyc := fun equal => moved (same.trans equal.symm)
    simp [same, different]
  · simp [same]

theorem statCause_of_transfer {line : Nat} (visible : line < 144) :
    ppu.StatCause (line * 456 + 252) ↔ ppu.statSelect &&& 0x08 ≠ 0 := by
  refine ⟨?_, fun selected => .inl ⟨selected, line, visible, rfl⟩⟩
  rintro (⟨selected, _⟩ | ⟨_, place⟩ | ⟨_, other, _, place⟩ | ⟨_, place⟩)
  · exact selected
  all_goals omega

theorem statCause_of_line (line : UInt8) :
    ppu.StatCause (line.toNat * 456) ↔
      (ppu.statSelect &&& 0x40 ≠ 0 ∧ line = ppu.lyc) ∨
      (ppu.statSelect &&& 0x10 ≠ 0 ∧ line = vblankLine) ∨
      (ppu.statSelect &&& 0x20 ≠ 0 ∧ line.toNat < 144) := by
  have named (other : UInt8) : line.toNat * 456 = other.toNat * 456 ↔ line = other := by
    rw [Nat.mul_right_cancel_iff (by decide), UInt8.toNat_inj]
  rw [← named ppu.lyc, ← named vblankLine]
  constructor
  · rintro (⟨_, other, _, place⟩ | ⟨selected, place⟩ | ⟨selected, other, visible, place⟩ | compared)
    · omega
    · exact .inr (.inl ⟨selected, place⟩)
    · exact .inr (.inr ⟨selected, by omega⟩)
    · exact .inl compared
  · rintro (compared | ⟨selected, place⟩ | ⟨selected, visible⟩)
    · exact .inr (.inr (.inr compared))
    · exact .inr (.inl ⟨selected, place⟩)
    · exact .inr (.inr (.inl ⟨selected, _, visible, rfl⟩))

theorem stat_of_line (on : ppu.lcdEnabled = true) (matched : ppu.Matched) {line : UInt8}
    (moved : line ≠ ppu.ly) {entering : Bool}
    (enters : entering = true ↔
      (ppu.statSelect &&& 0x10 ≠ 0 ∧ line = vblankLine) ∨
      (ppu.statSelect &&& 0x20 ≠ 0 ∧ line.toNat < 144)) :
    (false || (line == ppu.lyc && !ppu.coincidence && ppu.statSelect &&& 0x40 != 0) ||
      entering) = true ↔ ppu.StatCause (line.toNat * 456) := by
  rw [Bool.false_or, Bool.or_eq_true, fresh_iff on matched moved, enters, statCause_of_line]

/-- The end of a mode requests what begins there. -/
theorem raised_advance_iff (on : ppu.lcdEnabled = true) (inFrame : ppu.beam.InFrame)
    (matched : ppu.Matched) :
    let raised := { ppu.acknowledge with dots := 0 }.advance.raised
    (raised.vblank = true ↔ ppu.beam.next.position = 144 * 456) ∧
      (raised.stat = true ↔ ppu.StatCause ppu.beam.next.position) := by
  have succ : (ppu.ly + 1).toNat = ppu.ly.toNat + 1 := Beam.toNat_succ inFrame
  have moved : ppu.ly + 1 ≠ ppu.ly := fun same => by
    rw [same] at succ
    omega
  have line_le : ppu.ly.toNat ≤ 153 := inFrame.line_le
  have vblank_iff : ppu.mode = .vblank ↔ 144 ≤ ppu.ly.toNat := inFrame.vblank_iff
  have visible (outside : ppu.mode ≠ .vblank) : ppu.ly.toNat < 144 :=
    Nat.lt_of_not_le (mt vblank_iff.mpr outside)
  cases mode : ppu.mode with
  | oamSearch =>
      have visible := visible (by simp [mode])
      simp only [advance, acknowledge, mode, enter, raised, modeSelect, Beam.next, Beam.position,
        PpuMode.start, beam]
      refine ⟨iff_of_false Bool.false_ne_true fun place => by omega, ⟨by simp, ?_⟩⟩
      rintro (⟨_, _, _, place⟩ | ⟨_, place⟩ | ⟨_, _, _, place⟩ | ⟨_, place⟩) <;> omega
  | pixelTransfer =>
      have visible := visible (by simp [mode])
      simp only [advance, acknowledge, mode, enter, raised, modeSelect, Beam.next, Beam.position,
        PpuMode.start, beam]
      refine ⟨iff_of_false Bool.false_ne_true fun place => by omega, ?_⟩
      rw [Nat.add_zero, statCause_of_transfer visible, Bool.false_or, bne_iff_ne]
  | hblank =>
      have visible := visible (by simp [mode])
      simp only [advance, acknowledge, mode, setLine, compareLine, raised, Beam.next, beam]
      by_cases blank : ppu.ly + 1 = vblankLine
      · have beyond : ¬vblankLine.toNat < 144 := by decide
        simp only [if_pos blank, enterVblank, enter, modeSelect, Beam.position, PpuMode.start,
          Nat.add_zero]
        refine ⟨iff_of_true trivial (by rw [blank]; rfl), stat_of_line on matched moved ?_⟩
        simp only [blank, beyond, bne_iff_ne, and_true, and_false, or_false]
      · have other : (ppu.ly + 1).toNat ≠ 144 := fun same => blank (UInt8.toNat_inj.mp same)
        have next : (ppu.ly + 1).toNat < 144 := by omega
        simp only [if_neg blank, enter, modeSelect, Beam.position, PpuMode.start, Nat.add_zero]
        refine ⟨iff_of_false Bool.false_ne_true (by omega), stat_of_line on matched moved ?_⟩
        simp only [blank, next, bne_iff_ne, and_true, and_false, false_or]
  | vblank =>
      have blank := vblank_iff.mp mode
      simp only [advance, acknowledge, mode, setLine, compareLine, raised, Beam.next, beam]
      by_cases last : ppu.ly = lastLine
      · have wrapped : 0 ≠ ppu.ly := by rw [last]; decide
        simp only [if_pos last, enter, modeSelect, Beam.position, PpuMode.start, Nat.add_zero]
        refine ⟨iff_of_false Bool.false_ne_true (by decide), stat_of_line on matched wrapped ?_⟩
        simp [vblankLine]
      · have other : ppu.ly.toNat ≠ 153 := fun same => last (UInt8.toNat_inj.mp same)
        have beyond : ¬(ppu.ly + 1).toNat < 144 := by omega
        have different : ppu.ly + 1 ≠ vblankLine := fun same => by
          rw [same] at succ
          exact absurd succ (show (144 : Nat) ≠ _ by omega)
        have nothing : false = true ↔
            (ppu.statSelect &&& 0x10 ≠ 0 ∧ ppu.ly + 1 = vblankLine) ∨
            (ppu.statSelect &&& 0x20 ≠ 0 ∧ (ppu.ly + 1).toNat < 144) :=
          iff_of_false Bool.false_ne_true (by
            rintro (⟨_, same⟩ | ⟨_, early⟩)
            · exact different same
            · exact beyond early)
        simp only [if_neg last, Beam.position, PpuMode.start, Nat.add_zero]
        refine ⟨iff_of_false Bool.false_ne_true (by omega), ?_⟩
        rw [← stat_of_line on matched moved nothing, Bool.or_false]

theorem raisesNext_iff (on : ppu.lcdEnabled = true) (inFrame : ppu.beam.InFrame)
    (matched : ppu.Matched) :
    (ppu.raisesNext.vblank = true ↔ (ppu.beam.position + 1) % 70224 = 144 * 456) ∧
      (ppu.raisesNext.stat = true ↔ ppu.StatCause ((ppu.beam.position + 1) % 70224)) := by
  by_cases ends : ppu.beam.AtModeEnd
  · rw [raisesNext_of_end on ends, ← (inFrame.movesTo_next ends).position_eq]
    exact raised_advance_iff on inFrame matched
  · rw [raisesNext_of_inside ends]
    have nowhere := inFrame.place_of_inside ends
    refine ⟨⟨nofun, fun place => absurd place (nowhere 144).1⟩, ⟨nofun, ?_⟩⟩
    rintro (⟨_, line, visible, place⟩ | ⟨_, place⟩ | ⟨_, line, _, place⟩ | ⟨_, place⟩)
    · exact absurd place ((nowhere line).2 visible)
    · exact absurd place (nowhere 144).1
    · exact absurd place (nowhere line).1
    · exact absurd place (nowhere _).1

/-! ## Requests within a number of dots -/

theorem lyc_advance (ppu : Ppu) : ppu.advance.lyc = ppu.lyc := by
  rw [advance]
  cases ppu.mode with
  | oamSearch | pixelTransfer => rfl
  | hblank | vblank =>
      simp only
      split <;> rfl

theorem lyc_dot (ppu : Ppu) : ppu.dot.lyc = ppu.lyc := by
  rw [dot]
  split
  · rfl
  · split
    · exact lyc_advance _
    · rfl

theorem statCause_dot (ppu : Ppu) : ppu.dot.StatCause = ppu.StatCause := by
  unfold StatCause
  rw [(registers_dot ppu).2, lyc_dot]

theorem crosses_succ (on : ppu.lcdEnabled = true) (inFrame : ppu.beam.InFrame) (dots place : Nat) :
    ppu.Crosses (dots + 1) place ↔
      (ppu.beam.position + 1) % 70224 = place ∨ ppu.dot.Crosses dots place := by
  have moved : ppu.dot.beam.position = (ppu.beam.position + 1) % 70224 := by
    rw [beam_dot on]
    exact inFrame.movesTo_dot.position_eq
  rw [Crosses, Crosses, moved]
  constructor
  · rintro ⟨passed, positive, within, reached⟩
    obtain rfl | later := Nat.eq_or_lt_of_le positive
    · exact .inl reached
    · refine .inr ⟨passed - 1, by omega, by omega, ?_⟩
      rw [← reached, Nat.mod_add_mod, Nat.add_assoc, Nat.add_sub_cancel' positive]
  · rintro (next | ⟨passed, positive, within, reached⟩)
    · exact ⟨1, by omega, by omega, next⟩
    · refine ⟨passed + 1, by omega, by omega, ?_⟩
      rw [← reached, Nat.mod_add_mod, Nat.add_assoc, Nat.add_comm passed]

/-- What is raised in the course of time is what lies at the places that are crossed. -/
theorem raisesWithin_iff (on : ppu.lcdEnabled = true) (inFrame : ppu.beam.InFrame)
    (matched : ppu.Matched) (dots : Nat) :
    ((ppu.raisesWithin dots).vblank = true ↔ ppu.Crosses dots (144 * 456)) ∧
      ((ppu.raisesWithin dots).stat = true ↔
        ∃ place, ppu.StatCause place ∧ ppu.Crosses dots place) := by
  induction dots generalizing ppu with
  | zero =>
      exact ⟨⟨nofun, fun ⟨_, _, _, _⟩ => by omega⟩, ⟨nofun, fun ⟨_, _, _, _, _, _⟩ => by omega⟩⟩
  | succ dots ih =>
      have moved : ppu.dot.beam.InFrame := by
        rw [beam_dot on]
        exact inFrame.movesTo_dot.inFrame
      obtain ⟨vblank, stat⟩ := ih ((lcdEnabled_dot ppu).trans on) moved matched.dot
      obtain ⟨vblankNext, statNext⟩ := raisesNext_iff on inFrame matched
      simp only [raisesWithin, Lines.union, Bool.or_eq_true, vblank, stat, vblankNext, statNext,
        crosses_succ on inFrame, statCause_dot, and_or_left, exists_or, true_and]
      simp only [exists_eq_right']

/-! ## Everything that can happen -/

theorem and_of_within {value cover mask : UInt8} (within : value &&& cover = value)
    (apart : cover &&& mask = 0) : value &&& mask = 0 := by
  rw [← within, UInt8.and_assoc, apart, UInt8.and_zero]

/-- Apart from its highest bit and the mode, the status register shows the selected causes and the
result of the last comparison. -/
theorem stat_and {mask : UInt8} (apart : 0x83 &&& mask = 0) (ppu : Ppu) :
    ppu.stat &&& mask =
      ppu.statSelect &&& mask ||| (if ppu.coincidence then 0x04 else 0) &&& mask := by
  have top : 0x80 &&& mask = 0 := and_of_within (by decide) apart
  have mode : (if ppu.lcdEnabled then ppu.mode.bits else 0) &&& mask = 0 := by
    refine and_of_within ?_ apart
    cases ppu.lcdEnabled <;> cases ppu.mode <;> rfl
  rw [stat, or_and_mask, or_and_mask, or_and_mask, top, mode, UInt8.or_zero, UInt8.zero_or]

theorem stat_and_select {mask : UInt8} (apart : 0x87 &&& mask = 0) (ppu : Ppu) :
    ppu.stat &&& mask = ppu.statSelect &&& mask := by
  have outside : 0x83 &&& mask = 0 := and_of_within (by decide) apart
  have unmatched : (if ppu.coincidence then 0x04 else 0) &&& mask = 0 := by
    refine and_of_within ?_ apart
    cases ppu.coincidence <;> rfl
  rw [stat_and outside, unmatched, UInt8.or_zero]

theorem statSelect_write (address : UInt16) (value : UInt8) (ppu : Ppu) :
    (ppu.write address value).statSelect = ppu.statSelect ∨
      (ppu.write address value).statSelect = value &&& 0x78 := by
  by_cases lcdc : address = lcdcAddress
  · have stored : ppu.write address value = ppu.setLcdc value := if_pos lcdc
    rw [stored, setLcdc]
    split <;> exact .inl rfl
  · exact (Observed.beam_write_of_ne lcdc value ppu).2.2

theorem statSelect_tick {σ : Type} (render : Renderer σ) (dots : Nat) (screen : σ) (ppu : Ppu) :
    (ppu.tick render dots screen).1.statSelect = ppu.statSelect := by
  rw [fst_tick]
  induction dots generalizing ppu with
  | zero => rfl
  | succ dots ih => rw [Function.iterate_succ_apply, ih, (registers_dot ppu).2]

namespace Reached

theorem tracked (reached : ppu.Reached) : ppu.Tracked := by
  induction reached with
  | zeroed => exact tracked_boot .zeroed
  | postBoot => exact tracked_boot .postBoot
  | write address value _ ih => exact ih.write address value
  | store vram oam _ ih => exact ih.of_agrees ⟨rfl, rfl, rfl⟩
  | tick render dots screen _ ih => exact ih.tick render dots screen
  | acknowledge _ ih => exact ih.of_agrees ⟨rfl, rfl, rfl⟩

theorem matched (reached : ppu.Reached) : ppu.Matched := by
  induction reached with
  | zeroed => exact nofun
  | postBoot => exact fun _ => rfl
  | write address value _ ih => exact ih.write address value
  | store vram oam _ ih => exact ih
  | tick render dots screen _ ih => exact ih.tick render dots screen
  | acknowledge _ ih => exact ih

theorem select (reached : ppu.Reached) : ppu.statSelect &&& 0x04 = 0 := by
  induction reached with
  | zeroed | postBoot => rfl
  | @write ppu address value _ ih =>
      rcases statSelect_write address value ppu with same | written
      · rw [same]
        exact ih
      · rw [written, UInt8.and_assoc]
        exact UInt8.and_zero
  | @tick ppu _ render dots screen _ ih =>
      rw [statSelect_tick]
      exact ih
  | store vram oam _ ih => exact ih
  | acknowledge _ ih => exact ih

theorem stat_match (reached : ppu.Reached) (on : ppu.lcdEnabled = true) :
    ppu.stat &&& 0x04 ≠ 0 ↔ ppu.ly = ppu.lyc := by
  rw [stat_and rfl, reached.select, reached.matched on, UInt8.zero_or]
  by_cases same : ppu.ly = ppu.lyc <;> simp [same]

theorem dot (reached : ppu.Reached) : ppu.dot.Reached := by
  have next := reached.tick Renderer.null 1 ()
  rwa [fst_tick] at next

/-- Every line is handed out with the result of its comparison. -/
theorem stat_match_of_mem (reached : ppu.Reached) (on : ppu.lcdEnabled = true) {dots : Nat}
    {context : LineContext} (drawn : context ∈ linesWithin dots ppu) :
    context.stat &&& 0x04 ≠ 0 ↔ context.line = ppu.lyc := by
  induction dots generalizing ppu with
  | zero => exact absurd drawn List.not_mem_nil
  | succ dots ih =>
      rw [linesWithin, List.mem_append] at drawn
      rcases drawn with here | later
      · have current : context = ppu.lineContext := by
          cases completes : ppu.completesLine <;> simp [completes] at here
          exact here
        rw [current]
        exact reached.stat_match on
      · rw [← lyc_dot]
        exact ih reached.dot ((lcdEnabled_dot ppu).trans on) later

/-- A write of the line to compare with requests on a fresh match only. -/
theorem statRequested_write (reached : ppu.Reached) (drained : ppu.statRequested = false)
    (value : UInt8) :
    (ppu.write 0xFF45 value).statRequested = true ↔
      ppu.lcdEnabled = true ∧ ppu.statSelect &&& 0x40 ≠ 0 ∧ ppu.ly ≠ ppu.lyc ∧ ppu.ly = value := by
  have stored : ppu.write 0xFF45 value = ppu.setLyc value := rfl
  rw [stored, setLyc]
  cases on : ppu.lcdEnabled with
  | false => simp [drained]
  | true =>
      simp only [if_true, compareLine, drained, reached.matched on, Bool.false_or,
        Bool.and_eq_true, beq_iff_eq, Bool.not_eq_true', beq_eq_false_iff_ne, bne_iff_ne, true_and]
      rw [and_comm, and_comm (a := ppu.ly = value)]

/-- Time requests what lies at the places that are crossed, and nothing else. -/
theorem requested_tick (reached : ppu.Reached) (on : ppu.lcdEnabled = true)
    (drained : ppu.raised = {}) {σ : Type} (render : Renderer σ) (dots : Nat) (screen : σ) :
    ((ppu.tick render dots screen).1.vblankRequested = true ↔ ppu.Crosses dots (144 * 456)) ∧
      ((ppu.tick render dots screen).1.statRequested = true ↔
        ∃ place, ppu.StatCause place ∧ ppu.Crosses dots place) := by
  have raised := raised_tick render dots screen ppu
  rw [drained, Lines.empty_union] at raised
  have found := raisesWithin_iff on (reached.tracked.inFrame on) reached.matched dots
  rw [← raised] at found
  exact found

end Reached

theorem statCause_crossed (ppu : Ppu) (dots : Nat) :
    (∃ place, ppu.StatCause place ∧ ppu.Crosses dots place) ↔
      (ppu.stat &&& 0x08 ≠ 0 ∧ ∃ line < 144, ppu.Crosses dots (line * 456 + 252)) ∨
      (ppu.stat &&& 0x10 ≠ 0 ∧ ppu.Crosses dots (144 * 456)) ∨
      (ppu.stat &&& 0x20 ≠ 0 ∧ ∃ line < 144, ppu.Crosses dots (line * 456)) ∨
      (ppu.stat &&& 0x40 ≠ 0 ∧ ppu.Crosses dots (ppu.lyc.toNat * 456)) := by
  rw [stat_and_select rfl, stat_and_select rfl, stat_and_select rfl, stat_and_select rfl]
  constructor
  · rintro ⟨_, ⟨selected, line, visible, rfl⟩ | ⟨selected, rfl⟩ | ⟨selected, line, visible, rfl⟩ |
      ⟨selected, rfl⟩, crossed⟩
    · exact .inl ⟨selected, line, visible, crossed⟩
    · exact .inr (.inl ⟨selected, crossed⟩)
    · exact .inr (.inr (.inl ⟨selected, line, visible, crossed⟩))
    · exact .inr (.inr (.inr ⟨selected, crossed⟩))
  · rintro (⟨selected, line, visible, crossed⟩ | ⟨selected, crossed⟩ |
      ⟨selected, line, visible, crossed⟩ | ⟨selected, crossed⟩)
    · exact ⟨_, .inl ⟨selected, line, visible, rfl⟩, crossed⟩
    · exact ⟨_, .inr (.inl ⟨selected, rfl⟩), crossed⟩
    · exact ⟨_, .inr (.inr (.inl ⟨selected, line, visible, rfl⟩)), crossed⟩
    · exact ⟨_, .inr (.inr (.inr ⟨selected, rfl⟩)), crossed⟩

/-- While the display is on, the status register tells at every point whether the lines are equal.
From there time requests VBLANK just if it crosses the start of line 144, and STAT just if it
crosses the start of a selected blank, of a visible line if these are selected, or of the line to
compare with if that is selected.  A write of that line requests STAT just if it turns a mismatch
into a match. -/
theorem requests_at_causes (reached : ppu.Reached) :
    (ppu.lcdEnabled = true →
      (ppu.read 0xFF41 &&& 0x04 ≠ 0 ↔ ppu.read 0xFF44 = ppu.read 0xFF45) ∧
      ∀ dots, ∀ context ∈ linesWithin dots ppu,
        (context.stat &&& 0x04 ≠ 0 ↔ context.line = ppu.lyc)) ∧
    (ppu.lcdEnabled = true → ppu.raised = {} →
      ∀ {σ : Type} (render : Renderer σ) (dots : Nat) (screen : σ),
        let after := (ppu.tick render dots screen).1
        (after.vblankRequested = true ↔ ppu.Crosses dots (144 * 456)) ∧
        (after.statRequested = true ↔
          (ppu.stat &&& 0x08 ≠ 0 ∧ ∃ line < 144, ppu.Crosses dots (line * 456 + 252)) ∨
          (ppu.stat &&& 0x10 ≠ 0 ∧ ppu.Crosses dots (144 * 456)) ∨
          (ppu.stat &&& 0x20 ≠ 0 ∧ ∃ line < 144, ppu.Crosses dots (line * 456)) ∨
          (ppu.stat &&& 0x40 ≠ 0 ∧ ppu.Crosses dots (ppu.lyc.toNat * 456)))) ∧
    (ppu.raised = {} → ∀ value,
      ((ppu.write 0xFF45 value).vblankRequested = false) ∧
      ((ppu.write 0xFF45 value).statRequested = true ↔
        ppu.lcdEnabled = true ∧ ppu.stat &&& 0x40 ≠ 0 ∧ ppu.ly ≠ ppu.lyc ∧ ppu.ly = value)) := by
  refine ⟨fun on => ⟨reached.stat_match on, fun dots context => reached.stat_match_of_mem on⟩,
    fun on drained σ render dots screen => ?_, fun drained value => ?_⟩
  · rw [← statCause_crossed]
    exact reached.requested_tick on drained render dots screen
  · have latches : ppu.vblankRequested = false ∧ ppu.statRequested = false := by
      simpa [raised] using drained
    rw [stat_and_select rfl]
    exact ⟨(vblankRequested_write _ _ _).trans latches.1,
      reached.statRequested_write latches.2 value⟩

/-- With line 1 to compare with, the first line after power-on ends in a request. -/
theorem requests_at_causes_lineCompare :
    let ppu := (postBoot.write 0xFF41 0x40).write 0xFF45 1
    (ppu.Reached ∧ ppu.lcdEnabled = true ∧ ppu.raised = {}) ∧
      ∀ {σ : Type} (render : Renderer σ) (screen : σ),
        (ppu.tick render 456 screen).1.statRequested = true := by
  intro ppu
  have reached : ppu.Reached := (Reached.postBoot.write _ _).write _ _
  have on : ppu.lcdEnabled = true := by decide
  have drained : ppu.raised = {} := by decide
  refine ⟨⟨reached, on, drained⟩, fun render screen => ?_⟩
  have requested := (((requests_at_causes reached).2.1 on drained render 456 screen).2).mpr
  exact requested (.inr (.inr (.inr ⟨by decide, 456, by decide, by decide, by decide +kernel⟩)))

end Ppu
end GameBoy
