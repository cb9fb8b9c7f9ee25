import Mathlib.Data.Set.Lattice
import Mathlib.Order.CompletePartialOrder
import Mathlib.Order.Interval.Set.Disjoint

/-! # Rectangles on a raster

Rectangles of pixels given by their upper left corner and their extents, over
any ordered type of coordinates.
-/

namespace Raster

/-- A rectangle of pixels. -/
structure Rect (α : Type*) where
  left : α
  top : α
  width : α
  height : α

namespace Rect

variable {α : Type*} [LinearOrder α] [Add α]

/-- The pixels of a rectangle. The columns and rows at its far ends are not
part of it. -/
def pixels (rect : Rect α) : Set (α × α) :=
  Set.Ico rect.left (rect.left + rect.width) ×ˢ Set.Ico rect.top (rect.top + rect.height)

theorem mem_pixels {rect : Rect α} {x y : α} :
    (x, y) ∈ rect.pixels ↔
      (rect.left ≤ x ∧ x < rect.left + rect.width) ∧
        (rect.top ≤ y ∧ y < rect.top + rect.height) :=
  Iff.rfl

/-- Rectangles with no common column are disjoint. -/
theorem disjoint_of_left {rect other : Rect α} (hleft : rect.left + rect.width ≤ other.left) :
    Disjoint rect.pixels other.pixels := by
  refine Set.disjoint_left.mpr ?_
  rintro ⟨x, y⟩ hrect hother
  have hbefore := (mem_pixels.mp hrect).1.2
  have hafter := (mem_pixels.mp hother).1.1
  exact absurd (hbefore.trans_le hleft) (not_lt.mpr hafter)

/-- Rectangles with no common row are disjoint. -/
theorem disjoint_of_above {rect other : Rect α} (habove : rect.top + rect.height ≤ other.top) :
    Disjoint rect.pixels other.pixels := by
  refine Set.disjoint_left.mpr ?_
  rintro ⟨x, y⟩ hrect hother
  have hbefore := (mem_pixels.mp hrect).2.2
  have hafter := (mem_pixels.mp hother).2.1
  exact absurd (hbefore.trans_le habove) (not_lt.mpr hafter)

/-- Rectangles share a pixel if they share a column and a row. -/
theorem inter_nonempty_iff {rect other : Rect α} :
    (rect.pixels ∩ other.pixels).Nonempty ↔
      max rect.left other.left < min (rect.left + rect.width) (other.left + other.width) ∧
        max rect.top other.top < min (rect.top + rect.height) (other.top + other.height) := by
  unfold pixels
  rw [Set.prod_inter_prod, Set.prod_nonempty_iff, Set.Ico_inter_Ico, Set.Ico_inter_Ico,
    Set.nonempty_Ico, Set.nonempty_Ico]

end Rect

end Raster
