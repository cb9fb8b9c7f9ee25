import Galaga.Model.Drawing
import Galaga.Raster.Painter

/-! # Where the sprites are drawn

The rectangles of the four kinds of sprites, and what the drawing logic computes
about them on the screen: its wrapping comparisons are membership in the
rectangle, and its truncated address is the row-major index.
-/

namespace Galaga

open Raster

namespace Drawing

/-- The rectangle of a sprite, in the numbers that its registers stand for. -/
def rect (x y width height : Coord) : Rect ℕ where
  left := x.toNat
  top := y.toNat
  width := width.toNat
  height := height.toNat

variable {x y width height drawX drawY : Coord}

/-- A sum that wraps is past every scan position that is far enough from the
end of the 10-bit range. -/
theorem inside_iff (hx : drawX.toNat + width.toNat < 1024)
    (hy : drawY.toNat + height.toNat < 1024) :
    inside x y width height drawX drawY = true ↔
      (drawX.toNat, drawY.toNat) ∈ (rect x y width height).pixels := by
  simp only [inside, Bool.and_eq_true, decide_eq_true_eq, BitVec.le_def, BitVec.lt_def,
    BitVec.toNat_add, Rect.mem_pixels, rect]
  omega

/-- In the rectangle the address does not lose a bit. -/
theorem address_toNat {bits : ℕ} (hbits : 10 ≤ bits) (hsize : height.toNat * width.toNat ≤ 2 ^ bits)
    (hmem : (drawX.toNat, drawY.toNat) ∈ (rect x y width height).pixels) :
    (address bits x y width drawX drawY).toNat =
      (rect x y width height).index drawX.toNat drawY.toNat := by
  have hindex := Rect.index_lt hmem
  obtain ⟨⟨hleft, _⟩, htop, _⟩ := Rect.mem_pixels.mp hmem
  have hwide : ∀ coord : Coord, (coord.setWidth bits).toNat = coord.toNat := by
    intro coord
    rw [BitVec.toNat_setWidth]
    exact Nat.mod_eq_of_lt (coord.isLt.trans_le (Nat.pow_le_pow_right (by decide) hbits))
  have hcolumn : (drawX.setWidth bits - x.setWidth bits).toNat = drawX.toNat - x.toNat := by
    rw [BitVec.toNat_sub_of_le, hwide, hwide]
    rw [BitVec.le_def, hwide, hwide]
    exact hleft
  have hrow : (drawY.setWidth bits - y.setWidth bits).toNat = drawY.toNat - y.toNat := by
    rw [BitVec.toNat_sub_of_le, hwide, hwide]
    rw [BitVec.le_def, hwide, hwide]
    exact htop
  unfold address
  rw [BitVec.toNat_add, BitVec.toNat_mul, hrow, hcolumn, hwide, Nat.mod_add_mod]
  exact Nat.mod_eq_of_lt (hindex.trans_le hsize)

end Drawing

/-- The square of the player's ship. -/
def UserShip.square (ship : UserShip) : Rect ℕ := Drawing.rect ship.xPos ship.yPos size size

/-- The square that a ship is drawn in. -/
def EnemyShip.square (ship : EnemyShip) : Raster.Rect ℕ where
  left := ship.xPos.toNat
  top := ship.yPos.toNat
  width := EnemyShip.size.toNat
  height := EnemyShip.size.toNat

/-- The square of the boss. -/
def Boss.square (boss : Boss) : Rect ℕ := Drawing.rect boss.xPos boss.yPos size size

/-- The rectangle of the laser. -/
def UserLaser.rect (laser : UserLaser) : Rect ℕ :=
  Drawing.rect laser.xPos laser.yPos xSize ySize

end Galaga
