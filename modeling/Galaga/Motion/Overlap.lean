import Galaga.Model.Boss

/-! # When the hit tests cannot fire

The two hit controllers have the same test. It is silent for a ship that is
wholly above the laser or wholly to its right, as long as the laser's own sums
do not wrap.
-/

namespace Galaga

/-- The hit test in terms of the numbers that the wrapped sums denote. -/
theorem overlap_iff (shipX shipY laserX laserY : Coord) :
    overlap 30#10 20#10 49#10 shipX shipY laserX laserY = true ↔
      ((shipX.toNat ≤ laserX.toNat ∧ laserX.toNat ≤ (shipX.toNat + 30) % 1024) ∨
        (shipX.toNat ≤ (laserX.toNat + 20) % 1024 ∧
          (laserX.toNat + 20) % 1024 ≤ (shipX.toNat + 30) % 1024)) ∧
      ((shipY.toNat ≤ laserY.toNat ∧ laserY.toNat ≤ (shipY.toNat + 30) % 1024) ∨
        (shipY.toNat ≤ (laserY.toNat + 49) % 1024 ∧
          (laserY.toNat + 49) % 1024 ≤ (shipY.toNat + 30) % 1024)) := by
  simp [overlap, BitVec.le_def]

theorem HitControllerBoss.temp_eq (shipX shipY laserX laserY : Coord) :
    HitControllerBoss.temp shipX shipY laserX laserY =
      HitController.temp shipX shipY laserX laserY := rfl

theorem HitController.temp_iff (shipX shipY laserX laserY : Coord) :
    HitController.temp shipX shipY laserX laserY = true ↔
      overlap 30#10 20#10 49#10 shipX shipY laserX laserY = true := Iff.rfl

/-- A ship above the laser's top row is not hit. -/
theorem HitController.temp_eq_false_of_above {shipX shipY laserX laserY : Coord}
    (habove : shipY.toNat + 30 < laserY.toNat) (hbottom : laserY.toNat + 49 < 1024) :
    HitController.temp shipX shipY laserX laserY = false := by
  rw [Bool.eq_false_iff, ne_eq, HitController.temp_iff, overlap_iff]
  omega

/-- A ship to the right of the laser's last column is not hit. -/
theorem HitController.temp_eq_false_of_right {shipX shipY laserX laserY : Coord}
    (hright : laserX.toNat + 20 < shipX.toNat) :
    HitController.temp shipX shipY laserX laserY = false := by
  have hbound := shipX.isLt
  rw [Bool.eq_false_iff, ne_eq, HitController.temp_iff, overlap_iff]
  omega

end Galaga
