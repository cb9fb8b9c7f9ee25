import Galaga.Game.Scripted
import Galaga.Game.Sprites

/-! # The formation does not collide with itself

Ships of one column share a phase of the path and are eighty rows apart. Ships
of different columns are on the same leg of the path, fifty columns apart, or
on consecutive legs: there the one ahead is thirty rows lower, except on the
ticks of its drop, when it has not come back far enough yet.
-/

namespace Galaga

namespace InvaderPath

/-- Two phases less than five columns apart are clear of each other in X or
have rows thirty apart. -/
theorem column_or_descent_apart {phase ahead : ℕ} (hlow : 50 ≤ ahead) (hhigh : ahead ≤ 250) :
    column phase + 30 ≤ column (phase + ahead) ∨ column (phase + ahead) + 30 ≤ column phase ∨
      descent (phase + ahead) = descent phase + 30 := by
  have hsame : phase / 610 = (phase + ahead) / 610 ∨ phase / 610 + 1 = (phase + ahead) / 610 := by
    omega
  unfold column descent
  rcases hsame with hleg | hleg
  · split_ifs <;> omega
  · -- the phase ahead has passed a wall
    by_cases hdropping : (phase + ahead) % 610 < 3
    · split_ifs <;> omega
    · right
      right
      omega

end InvaderPath

section Formation

open InvaderPath

variable {row row' : Fin 3} {col col' : Fin 6} {n : ℕ}

theorem formation_square (hrow : formationRow row col n ≤ 410) :
    (formation row col n).square =
      ⟨column (50 * col + 50 + n), formationRow row col n, 30, 30⟩ := by
  simp only [EnemyShip.square, formation_yPos hrow]
  rw [formation, EnemyShip.onPath_xPos_toNat]
  rfl

theorem formationRow_eq (row : Fin 3) (col : Fin 6) (n : ℕ) :
    formationRow row col n + 30 = 80 * row + descent (50 * col + 50 + n) := by
  have hstarted := thirty_le_descent (show 3 ≤ 50 * (col : ℕ) + 50 + n by omega)
  unfold formationRow
  omega

/-- Ships of different columns. -/
theorem formation_disjoint_of_lt (hcol : col < col') (hrow : formationRow row col n ≤ 410)
    (hrow' : formationRow row' col' n ≤ 410) :
    Disjoint (formation row col n).square.pixels (formation row' col' n).square.pixels := by
  have hlt : (col : ℕ) < col' := hcol
  have hahead : 50 * (col' : ℕ) + 50 + n = 50 * col + 50 + n + 50 * (col' - col) := by omega
  have hapart : column (50 * col + 50 + n) + 30 ≤ column (50 * col' + 50 + n) ∨
      column (50 * col' + 50 + n) + 30 ≤ column (50 * col + 50 + n) ∨
        descent (50 * col' + 50 + n) = descent (50 * col + 50 + n) + 30 := by
    rw [hahead]
    exact column_or_descent_apart (by omega) (by omega)
  rw [formation_square hrow, formation_square hrow']
  -- either the columns are apart, or the one ahead is thirty rows lower
  rcases hapart with hleft | hright | hlower
  · exact Raster.Rect.disjoint_of_left hleft
  · exact (Raster.Rect.disjoint_of_left hright).symm
  · have hheight := formationRow_eq row col n
    have hheight' := formationRow_eq row' col' n
    -- thirty rows within a row of ships, at least fifty between rows
    by_cases hbelow : row ≤ row'
    · have hle : (row : ℕ) ≤ row' := hbelow
      apply Raster.Rect.disjoint_of_above
      change formationRow row col n + 30 ≤ formationRow row' col' n
      omega
    · have hlt' : (row' : ℕ) < row := not_le.mp hbelow
      apply Disjoint.symm
      apply Raster.Rect.disjoint_of_above
      change formationRow row' col' n + 30 ≤ formationRow row col n
      omega

/-- Ships of one column. -/
theorem formation_disjoint_of_row_lt (hlt : row < row') (hrow : formationRow row col n ≤ 410)
    (hrow' : formationRow row' col n ≤ 410) :
    Disjoint (formation row col n).square.pixels (formation row' col n).square.pixels := by
  have hlt' : (row : ℕ) < row' := hlt
  rw [formation_square hrow, formation_square hrow']
  apply Raster.Rect.disjoint_of_above
  change formationRow row col n + 30 ≤ formationRow row' col n
  unfold formationRow
  omega

theorem formation_disjoint (hne : (row, col) ≠ (row', col'))
    (hrow : formationRow row col n ≤ 410) (hrow' : formationRow row' col' n ≤ 410) :
    Disjoint (formation row col n).square.pixels (formation row' col' n).square.pixels := by
  rcases lt_trichotomy col col' with hlt | rfl | hgt
  · exact formation_disjoint_of_lt hlt hrow hrow'
  · rcases lt_trichotomy row row' with hlt | rfl | hgt
    · exact formation_disjoint_of_row_lt hlt hrow hrow'
    · exact absurd rfl hne
    · exact (formation_disjoint_of_row_lt hgt hrow' hrow).symm
  · exact (formation_disjoint_of_lt hgt hrow' hrow).symm

end Formation

namespace Core

variable {core : Core} {n : ℕ}

theorem Playing.formation_of_live (hplaying : core.Playing n) {row : Fin 3} {col : Fin 6}
    (hlive : (core.enemy row col).enemyHit = false) :
    core.enemy row col = formation row col n ∧ formationRow row col n ≤ 410 := by
  refine (hplaying.enemies row col).resolve_right fun hwreck => ?_
  rw [hwreck.enemyHit] at hlive
  cases hlive

end Core

namespace Run

/-- In play no two live ships share a pixel, and the ships of a column move as
one, eighty rows apart. -/
theorem live_formation_never_collides (run : Run) (n : ℕ) (hstate : (run.core n).state = .play)
    (row row' : Fin 3) (col col' : Fin 6) (hne : (row, col) ≠ (row', col'))
    (hlive : ((run.core n).enemy row col).enemyHit = false)
    (hlive' : ((run.core n).enemy row' col').enemyHit = false) :
    Disjoint ((run.core n).enemy row col).square.pixels
        ((run.core n).enemy row' col').square.pixels ∧
      (col = col' →
        ((run.core n).enemy row col).xPos = ((run.core n).enemy row' col').xPos ∧
        ((run.core n).enemy row col).xMotion = ((run.core n).enemy row' col').xMotion ∧
        ((run.core n).enemy row col).yPos.toNat + 80 * (row' : ℕ) =
          ((run.core n).enemy row' col').yPos.toNat + 80 * (row : ℕ)) := by
  obtain ⟨m, _, hplaying⟩ := (run.inv n).play hstate
  obtain ⟨hship, hrow⟩ := hplaying.formation_of_live hlive
  obtain ⟨hship', hrow'⟩ := hplaying.formation_of_live hlive'
  rw [hship, hship']
  refine ⟨formation_disjoint hne hrow hrow', ?_⟩
  rintro rfl
  refine ⟨rfl, rfl, ?_⟩
  rw [formation_yPos hrow, formation_yPos hrow']
  have hheight := formationRow_eq row col m
  have hheight' := formationRow_eq row' col m
  omega

/-- The first 320 frames without a shot: the last column has turned back. -/
def untouched : List Keycode := List.replicate 320 0#8

theorem alive_untouched : (PlayFrame.opening.plays untouched).alive = PlayFrame.opening.alive := by
  decide +kernel

/-- It then passes thirty rows below the column before it. -/
theorem last_columns_apart :
    Disjoint (((scripted (untouched ++ [])).core (1 + 4 * untouched.length)).enemy 0
          4).square.pixels
        (((scripted (untouched ++ [])).core (1 + 4 * untouched.length)).enemy 0
          5).square.pixels := by
  have hsome : (PlayFrame.opening.plays untouched).alive ≠ [] := by
    rw [alive_untouched]
    decide
  have hplay := scripted_play [] (by decide +kernel) hsome
  have hlive : ∀ row col, (((scripted (untouched ++ [])).core
      (1 + 4 * untouched.length)).enemy row col).enemyHit = false := by
    intro row col
    rw [hplay, Bool.eq_false_iff, ne_eq, PlayFrame.enemyHit_toCore_iff, not_not, alive_untouched]
    simp [PlayFrame.opening, List.pair_mem_product]
  exact (live_formation_never_collides _ _ (by rw [hplay]; rfl) 0 0 4 5 (by decide) (hlive 0 4)
    (hlive 0 5)).1

end Run

end Galaga
