import Mathlib.Data.Nat.Notation
import Mathlib.Logic.ExistsUnique

/-! # Scanning a raster

Frames of lines of pixels, one pixel after another. The column, the line and
the frame are the digits of the number of pixels scanned so far.
-/

namespace Raster

/-- In each frame every pixel is scanned exactly once. -/
theorem existsUnique_pixel {width height x y : ℕ} (hx : x < width) (hy : y < height)
    (frame : ℕ) :
    ∃! scanned, scanned / (width * height) = frame ∧ scanned % width = x ∧
      scanned / width % height = y := by
  refine ⟨width * (height * frame + y) + x, ?_, ?_⟩
  · have hline : (width * (height * frame + y) + x) / width = height * frame + y := by
      rw [Nat.mul_add_div (Nat.zero_lt_of_lt hx), Nat.div_eq_of_lt hx, Nat.add_zero]
    refine ⟨?_, ?_, ?_⟩
    · rw [← Nat.div_div_eq_div_mul, hline, Nat.mul_add_div (Nat.zero_lt_of_lt hy),
        Nat.div_eq_of_lt hy, Nat.add_zero]
    · rw [Nat.mul_add_mod, Nat.mod_eq_of_lt hx]
    · rw [hline, Nat.mul_add_mod, Nat.mod_eq_of_lt hy]
  · rintro scanned ⟨hframe, hcolumn, hline⟩
    rw [← Nat.div_div_eq_div_mul] at hframe
    rw [← hframe, ← hline, Nat.div_add_mod, ← hcolumn, Nat.div_add_mod]

/-- And in reading order. -/
theorem lt_iff_of_frame {width height scanned later : ℕ} (hwidth : 0 < width)
    (hframe : scanned / (width * height) = later / (width * height)) :
    scanned < later ↔
      scanned / width % height < later / width % height ∨
        (scanned / width % height = later / width % height ∧
          scanned % width < later % width) := by
  rw [← Nat.div_div_eq_div_mul, ← Nat.div_div_eq_div_mul] at hframe
  have hline := Nat.div_add_mod (scanned / width) height
  have hline' := Nat.div_add_mod (later / width) height
  have hcolumn := Nat.div_add_mod scanned width
  have hcolumn' := Nat.div_add_mod later width
  have hlt := Nat.mod_lt scanned hwidth
  have hlt' := Nat.mod_lt later hwidth
  rw [hframe] at hline
  rcases Nat.lt_trichotomy (scanned / width) (later / width) with hless | hsame | hmore
  · have hbelow : width * (scanned / width) + width ≤ width * (later / width) := by
      rw [← Nat.mul_succ]
      exact Nat.mul_le_mul_left width hless
    omega
  · rw [hsame] at hcolumn ⊢
    omega
  · have hbelow : width * (later / width) + width ≤ width * (scanned / width) := by
      rw [← Nat.mul_succ]
      exact Nat.mul_le_mul_left width hmore
    omega

end Raster
