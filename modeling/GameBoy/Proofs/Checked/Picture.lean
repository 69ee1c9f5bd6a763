import GameBoy.Proofs.Checked.Arithmetic
import GameBoy.Proofs.Splitting

/-!
# Checked picture timing

The picture unit counts dots, lines and frames.  It passes from mode to mode while the dots counted
fill the current one; lines and frames are counted up, and dots are counted up by the cycles that
pass and down by the modes that they fill.  From a position within a frame none of this overruns,
as long as the frames can be counted.
-/

namespace GameBoy
namespace Ppu

open Checked

variable {σ : Type} {ppu : Ppu}

/-- The number of the line after the current one. -/
def nextLine? (ppu : Ppu) : Option Nat :=
  fit 8 (ppu.ly.toNat + 1)

/-- Go on from the end of the current mode. -/
def advance? (ppu : Ppu) : Option Ppu := do
  match ppu.mode with
  | .oamSearch => some (ppu.enter .pixelTransfer)
  | .pixelTransfer => some (ppu.enter .hblank)
  | .hblank =>
    let ppu := ppu.setLine (UInt8.ofNat (← ppu.nextLine?))
    if ppu.ly = vblankLine then
      let frames ← fit 64 (ppu.frames + 1)
      some ({ ppu with frames, vblankRequested := true }.enter .vblank)
    else
      some (ppu.enter .oamSearch)
  | .vblank =>
    if (← ppu.nextLine?) = 154 then
      some ((ppu.setLine 0).enter .oamSearch)
    else
      some (ppu.setLine (UInt8.ofNat (← ppu.nextLine?)))

/-- Take the dots of the current mode away and go on. -/
def leave? (ppu : Ppu) : Option Ppu := do
  let rest ← minus ppu.dots ppu.mode.duration
  (ppu.withDots rest).advance?

theorem dots_advance? {next : Ppu} (went : ppu.advance? = some next) : next.dots = ppu.dots := by
  rw [advance?] at went
  cases mode : ppu.mode with
  | oamSearch | pixelTransfer =>
      simp only [mode] at went
      cases went
      rfl
  | hblank =>
      simp only [mode] at went
      obtain ⟨line, _, rest⟩ := Option.bind_eq_some_iff.mp went
      split at rest
      · obtain ⟨frames, _, done⟩ := Option.bind_eq_some_iff.mp rest
        cases done
        rfl
      · cases rest
        rfl
  | vblank =>
      simp only [mode] at went
      obtain ⟨line, _, rest⟩ := Option.bind_eq_some_iff.mp went
      split at rest
      · cases rest
        rfl
      · obtain ⟨line, _, done⟩ := Option.bind_eq_some_iff.mp rest
        cases done
        rfl

theorem dots_leave? {next : Ppu} (left : ppu.leave? = some next) : next.dots < ppu.dots := by
  obtain ⟨rest, fewer, went⟩ := Option.bind_eq_some_iff.mp left
  have filled := ppu.mode.duration_pos
  rw [minus] at fewer
  split at fewer
  · next reaches =>
    cases fewer
    rw [dots_advance? went, dots_withDots]
    omega
  · cases fewer

/-- Pass from mode to mode while the dots counted fill the current one. -/
def passModes? (render : Renderer σ) (ppu : Ppu) (screen : σ) : Option (Ppu × σ) :=
  if ppu.mode.duration ≤ ppu.dots then
    match _ : ppu.leave? with
    | some next =>
      passModes? render next
        (if ppu.mode = .pixelTransfer then render screen ppu.lineContext else screen)
    | none => none
  else
    some (ppu, screen)
termination_by ppu.dots
decreasing_by exact dots_leave? (by assumption)

/-- Let a number of dots pass. -/
def tick? (render : Renderer σ) (dots : Nat) (ppu : Ppu) (screen : σ) : Option (Ppu × σ) := do
  if ppu.lcdEnabled then
    let counted ← fit 32 (ppu.dots + dots)
    passModes? render (ppu.withDots counted) screen
  else
    some (ppu, screen)

/-! ## Frames are counted up -/

theorem frames_le_advance (ppu : Ppu) : ppu.frames ≤ ppu.advance.frames := by
  rw [advance]
  cases ppu.mode with
  | oamSearch | pixelTransfer => exact Nat.le_refl _
  | hblank =>
      simp only
      split
      · exact Nat.le_succ _
      · exact Nat.le_refl _
  | vblank =>
      simp only
      split <;> exact Nat.le_refl _

theorem frames_le_dots (ppu : Ppu) (dots : Nat) : ppu.frames ≤ (dot^[dots] ppu).frames := by
  induction dots generalizing ppu with
  | zero => exact Nat.le_refl _
  | succ dots ih =>
      rw [Function.iterate_succ_apply]
      refine Nat.le_trans ?_ (ih _)
      rw [dot]
      split
      · exact Nat.le_refl _
      · split
        · exact frames_le_advance { ppu with dots := 0 }
        · exact Nat.le_refl _

theorem frames_le_tick (render : Renderer σ) (dots : Nat) (ppu : Ppu) (screen : σ) :
    ppu.frames ≤ (ppu.tick render dots screen).1.frames := by
  rw [fst_tick]
  exact ppu.frames_le_dots dots

/-! ## Nothing overruns -/

theorem advance?_eq (line : ppu.ly.toNat ≤ 153) (countable : ppu.advance.frames < 2 ^ 64) :
    ppu.advance? = some ppu.advance := by
  have next : ppu.nextLine? = some (ppu.ly.toNat + 1) := if_pos (by omega)
  have succ : UInt8.ofNat (ppu.ly.toNat + 1) = ppu.ly + 1 := by
    rw [UInt8.ofNat_add, UInt8.ofNat_toNat]
    rfl
  rw [advance?]
  rw [advance] at countable ⊢
  cases mode : ppu.mode with
  | oamSearch | pixelTransfer => rfl
  | hblank =>
      simp only [mode, next, succ, Option.bind_eq_bind, Option.bind_some] at countable ⊢
      split
      · next blank =>
        rw [if_pos blank] at countable
        exact bind_fit countable _
      · rfl
  | vblank =>
      simp only [next, succ, Option.bind_eq_bind, Option.bind_some]
      have last : ppu.ly.toNat + 1 = 154 ↔ ppu.ly = lastLine := by
        rw [← UInt8.toNat_inj, Nat.succ_inj]
        rfl
      by_cases ends : ppu.ly = lastLine
      · rw [if_pos ends, if_pos (last.mpr ends)]
      · rw [if_neg ends, if_neg (mt last.mp ends)]

/-- Going on leads from one position in a frame to another. -/
theorem inFrame_advance (inFrame : ppu.beam.InFrame) : (ppu.withDots 0).advance.beam.InFrame := by
  -- where the beam goes next does not depend on its dots, so they may be taken to fill the mode
  let full : Beam := { ppu.beam with dots := ppu.mode.duration - 1 }
  have filled := ppu.mode.duration_pos
  have last : full.InFrame :=
    ⟨by simp only [full, beam]; omega, inFrame.line_le, inFrame.vblank_iff⟩
  have ends : full.AtModeEnd := Nat.succ_pred_eq_of_pos filled
  have leads : (ppu.withDots 0).advance.beam = full.next := beam_advance ppu
  rw [leads]
  exact (last.movesTo_next ends).inFrame

theorem frames_le_passModes (render : Renderer σ) (ppu : Ppu) (screen : σ) :
    ppu.frames ≤ (passModes render ppu screen).1.frames := by
  induction ppu, screen using passModes.induct render with
  | case1 ppu screen reaches ih =>
      rw [passModes, if_pos reaches]
      exact Nat.le_trans (ppu.withDots (ppu.dots - ppu.mode.duration)).frames_le_advance ih
  | case2 ppu screen stays =>
      rw [passModes, if_neg stays]

theorem passModes?_eq (render : Renderer σ) (inFrame : ppu.beam.InFrame) (dots : Nat) (screen : σ)
    (countable : (passModes render (ppu.withDots dots) screen).1.frames < 2 ^ 64) :
    passModes? render (ppu.withDots dots) screen =
      some (passModes render (ppu.withDots dots) screen) := by
  induction dots using Nat.strong_induction_on generalizing ppu screen with
  | h dots ih =>
      rw [passModes] at countable ⊢
      rw [passModes?]
      split
      · next reaches =>
        -- what is left is spent in the next mode, which is entered with no dots
        let rest := dots - ppu.mode.duration
        let fresh := (ppu.withDots 0).advance
        let drawn := if ppu.mode = .pixelTransfer then render screen ppu.lineContext else screen
        have next : (ppu.withDots rest).advance = fresh.withDots rest := advance_withDots ppu rest
        have passes : (passModes render (ppu.withDots rest).advance drawn).1.frames < 2 ^ 64 := by
          rwa [if_pos reaches] at countable
        have goes : (ppu.withDots rest).advance? = some (fresh.withDots rest) :=
          next ▸ advance?_eq inFrame.line_le
            (Nat.lt_of_le_of_lt (frames_le_passModes render _ drawn) passes)
        have leaves : (ppu.withDots dots).leave? = some (fresh.withDots rest) :=
          (bind_minus reaches _).trans goes
        have fewer : rest < dots := Nat.sub_lt_of_pos_le ppu.mode.duration_pos reaches
        rw [next] at passes
        split
        · next after left =>
          obtain rfl : after = fresh.withDots rest := Option.some.inj (left.symm.trans leaves)
          calc
            _ = some (passModes render (fresh.withDots rest) drawn) :=
              ih rest fewer (inFrame_advance inFrame) drawn passes
            _ = some (passModes render (ppu.withDots rest).advance drawn) := by rw [next]
        · next left =>
          rw [leaves] at left
          cases left
      · rfl

/-- A picture unit that has been left to itself lets a step's worth of dots pass without overrun. -/
theorem Tracked.tick?_eq (tracked : ppu.Tracked) (render : Renderer σ) {dots : Nat}
    (few : dots < 2 ^ 31) (screen : σ)
    (countable : (ppu.tick render dots screen).1.frames < 2 ^ 64) :
    ppu.tick? render dots screen = some (ppu.tick render dots screen) := by
  rw [tracked.tick_eq_tickByModes] at countable ⊢
  obtain ⟨now, rfl, consistent⟩ := tracked
  rw [tick?]
  rw [tickByModes] at countable ⊢
  split
  · next power =>
    have inFrame := (consistent.on power).inFrame
    have within : now.ppu.dots < now.ppu.mode.duration := inFrame.dots_lt
    have short : now.ppu.mode.duration ≤ 456 := by cases now.ppu.mode <;> decide
    rw [if_pos power] at countable
    rw [bind_fit (by omega)]
    exact passModes?_eq render inFrame _ screen countable
  · rfl

end Ppu
end GameBoy
