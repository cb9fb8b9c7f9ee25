import Galaga.Raster.Rect
import Mathlib.Algebra.Order.Ring.Nat
import Mathlib.Tactic.SplitIfs

/-! # Painting in layers

A picture of layers, the first of them in front. A layer fills a rectangle with
a texture in row-major order, some of whose texels may be transparent.
-/

namespace Raster

namespace Rect

instance {α : Type*} [LinearOrder α] [Add α] (rect : Rect α) (x y : α) :
    Decidable ((x, y) ∈ rect.pixels) :=
  decidable_of_iff _ mem_pixels.symm

/-- The row-major index of a pixel of the rectangle. -/
def index (rect : Rect ℕ) (x y : ℕ) : ℕ := (y - rect.top) * rect.width + (x - rect.left)

theorem index_lt {rect : Rect ℕ} {x y : ℕ} (hmem : (x, y) ∈ rect.pixels) :
    rect.index x y < rect.height * rect.width := by
  obtain ⟨⟨hleft, hright⟩, htop, hbottom⟩ := mem_pixels.mp hmem
  have hrow : y - rect.top + 1 ≤ rect.height := by omega
  calc rect.index x y < (y - rect.top) * rect.width + rect.width := by
        unfold index
        omega
    _ = (y - rect.top + 1) * rect.width := by rw [Nat.add_mul, Nat.one_mul]
    _ ≤ rect.height * rect.width := Nat.mul_le_mul_right _ hrow

end Rect

/-- A rectangle, whether it is shown at all, and its texture by index. -/
structure Layer (γ : Type*) where
  rect : Rect ℕ
  shown : Bool
  texel : ℕ → Option γ

variable {γ : Type*}

/-- The color that a layer has at a pixel, if it has one there. -/
def Layer.color (layer : Layer γ) (x y : ℕ) : Option γ :=
  if layer.shown = true ∧ (x, y) ∈ layer.rect.pixels then layer.texel (layer.rect.index x y)
  else none

/-- The color of the first layer that has one. -/
def paint (background : γ) (layers : List (Layer γ)) (x y : ℕ) : γ :=
  (layers.findSome? fun layer => layer.color x y).getD background

@[simp] theorem paint_nil (background : γ) (x y : ℕ) : paint background [] x y = background := rfl

theorem paint_cons (background : γ) (layer : Layer γ) (layers : List (Layer γ)) (x y : ℕ) :
    paint background (layer :: layers) x y =
      (layer.color x y).getD (paint background layers x y) := by
  unfold paint
  rw [List.findSome?_cons]
  cases layer.color x y <;> rfl

/-- A priority chain paints, if each of its tests says where a layer has a
color. -/
theorem paint_cons_of_test {background color : γ} {layer : Layer γ} {test : Bool} {x y : ℕ}
    (hlayer : layer.color x y = if test then some color else none) (layers : List (Layer γ)) :
    paint background (layer :: layers) x y =
      if test then color else paint background layers x y := by
  rw [paint_cons, hlayer]
  cases test <;> rfl

/-- Layers with the same color at a pixel can replace each other there. -/
theorem paint_congr {background : γ} {ι : Type*} {layer other : ι → Layer γ} {x y : ℕ}
    (order : List ι) (hsame : ∀ i, (layer i).color x y = (other i).color x y) :
    paint background (order.map layer) x y = paint background (order.map other) x y := by
  induction order with
  | nil => rfl
  | cons i order ih => rw [List.map_cons, List.map_cons, paint_cons, paint_cons, hsame, ih]

end Raster
