import Galaga.Game.Sprites
import Galaga.Motion.Overlap

/-! # The hit test and the drawn rectangles

The hit controllers look for an end of the laser between the ends of the ship,
bounds included, where the drawing logic leaves the far bounds out. So they
report a laser that only touches the ship, and they miss a laser that reaches
past it both above and below.
-/

namespace Galaga

namespace HitController

/-- The laser reaches past the ship above and below, and crosses its columns. -/
def Spans (shipX shipY laserX laserY : ℕ) : Prop :=
  (laserY < shipY ∧ shipY + 30 < laserY + 49) ∧ shipX < laserX + 20 ∧ laserX < shipX + 30

/-- An end of the laser is on a row of the ship, or on the row below it. -/
def EndInRows (shipY laserY : ℕ) : Prop :=
  (shipY ≤ laserY ∧ laserY ≤ shipY + 30) ∨ (shipY ≤ laserY + 49 ∧ laserY + 49 ≤ shipY + 30)

/-- The laser ends where the ship begins, or begins where it ends, beside it or
above or below it. -/
def Abuts (shipX shipY laserX laserY : ℕ) : Prop :=
  ((laserX + 20 = shipX ∨ laserX = shipX + 30) ∧ EndInRows shipY laserY) ∨
    ((laserY + 49 = shipY ∨ laserY = shipY + 30) ∧ shipX ≤ laserX + 20 ∧ laserX ≤ shipX + 30)

instance (shipX shipY laserX laserY : ℕ) : Decidable (Spans shipX shipY laserX laserY) :=
  inferInstanceAs (Decidable (_ ∧ _))

instance (shipY laserY : ℕ) : Decidable (EndInRows shipY laserY) :=
  inferInstanceAs (Decidable (_ ∨ _))

instance (shipX shipY laserX laserY : ℕ) : Decidable (Abuts shipX shipY laserX laserY) :=
  inferInstanceAs (Decidable (_ ∨ _))

/-- The laser and a square sprite at the given positions are drawn over each
other. -/
def SharesPixel (size shipX shipY laserX laserY : Coord) : Prop :=
  ((Drawing.rect laserX laserY UserLaser.xSize UserLaser.ySize).pixels ∩
    (Drawing.rect shipX shipY size size).pixels).Nonempty

variable {shipX shipY laserX laserY : Coord}

theorem sharesPixel_iff :
    SharesPixel 30#10 shipX shipY laserX laserY ↔
      (shipX.toNat < laserX.toNat + 20 ∧ laserX.toNat < shipX.toNat + 30) ∧
        (shipY.toNat < laserY.toNat + 49 ∧ laserY.toNat < shipY.toNat + 30) := by
  unfold SharesPixel
  rw [Raster.Rect.inter_nonempty_iff]
  simp only [Drawing.rect, UserLaser.xSize, UserLaser.ySize, BitVec.toNat_ofNat]
  omega

/-- Where no sum wraps, the hit test is decided by the closed columns and the
ends of the laser. -/
theorem temp_iff_of_bounded (hshipX : shipX.toNat ≤ 610) (hshipY : shipY.toNat ≤ 410)
    (hlaserX : laserX.toNat ≤ 610) (hlaserY : laserY.toNat ≤ 441) :
    temp shipX shipY laserX laserY = true ↔
      (shipX.toNat ≤ laserX.toNat + 20 ∧ laserX.toNat ≤ shipX.toNat + 30) ∧
        EndInRows shipY.toNat laserY.toNat := by
  rw [temp_iff, overlap_iff]
  unfold EndInRows
  omega

/-- Either hit test agrees with the picture exactly if the laser neither spans
the ship nor abuts on it. -/
theorem temp_exact_iff (hshipX : shipX.toNat ≤ 610) (hshipY : shipY.toNat ≤ 410)
    (hlaserX : laserX.toNat ≤ 610) (hlaserY : laserY.toNat ≤ 441) :
    ((temp shipX shipY laserX laserY = true ↔
        SharesPixel EnemyShip.size shipX shipY laserX laserY) ↔
      ¬ Spans shipX.toNat shipY.toNat laserX.toNat laserY.toNat ∧
        ¬ Abuts shipX.toNat shipY.toNat laserX.toNat laserY.toNat) ∧
    ((HitControllerBoss.temp shipX shipY laserX laserY = true ↔
        SharesPixel Boss.size shipX shipY laserX laserY) ↔
      ¬ Spans shipX.toNat shipY.toNat laserX.toNat laserY.toNat ∧
        ¬ Abuts shipX.toNat shipY.toNat laserX.toNat laserY.toNat) := by
  have hexact : (temp shipX shipY laserX laserY = true ↔
      SharesPixel 30#10 shipX shipY laserX laserY) ↔
        ¬ Spans shipX.toNat shipY.toNat laserX.toNat laserY.toNat ∧
          ¬ Abuts shipX.toNat shipY.toNat laserX.toNat laserY.toNat := by
    rw [sharesPixel_iff, temp_iff_of_bounded hshipX hshipY hlaserX hlaserY]
    unfold Spans Abuts EndInRows
    omega
  exact ⟨hexact, by rw [HitControllerBoss.temp_eq]; exact hexact⟩

/-- A shot that flies into the middle of a ship from below. -/
theorem temp_exact_of_approach :
    HitController.temp 300#10 100#10 305#10 129#10 = true ↔
      SharesPixel EnemyShip.size 300#10 100#10 305#10 129#10 :=
  (temp_exact_iff (by decide) (by decide) (by decide) (by decide)).1.mpr
    ⟨by decide, by decide⟩

/-- A laser over the whole height of a ship is missed, and one in the column
beside it is reported. -/
theorem temp_inexact :
    ¬ (HitController.temp 300#10 100#10 305#10 90#10 = true ↔
        SharesPixel EnemyShip.size 300#10 100#10 305#10 90#10) ∧
      ¬ (HitController.temp 300#10 100#10 330#10 100#10 = true ↔
        SharesPixel EnemyShip.size 300#10 100#10 330#10 100#10) := by
  have hsize : EnemyShip.size = 30#10 := rfl
  rw [hsize, sharesPixel_iff, sharesPixel_iff]
  decide

end HitController

end Galaga
