import Galaga.Raster.Painter

/-! # Bitmaps

Rows of bits as pictures of one color: the top row first, and in each row the
leftmost pixel in the highest bit. Whatever lies outside of them is not lit.
-/

namespace Raster

/-- Rows of a fixed width. -/
abbrev Bitmap (width : ℕ) := List (BitVec width)

namespace Bitmap

variable {width : ℕ} (bitmap : Bitmap width)

/-- The pixel in the given row and column is lit. -/
def lit (row col : ℕ) : Bool := bitmap[row]?.any fun bits => bits.getMsbD col

theorem lit_of_width_le {row col : ℕ} (hcol : width ≤ col) : bitmap.lit row col = false := by
  unfold lit
  cases bitmap[row]? with
  | none => rfl
  | some bits => simp [BitVec.getMsbD, hcol]

theorem lit_of_length_le {row col : ℕ} (hrow : bitmap.length ≤ row) :
    bitmap.lit row col = false := by
  rw [lit, List.getElem?_eq_none hrow]
  rfl

/-- The same bit counted from the right. -/
theorem lit_eq_getLsbD {row col : ℕ} (hcol : col < width) :
    bitmap.lit row col = bitmap[row]?.any fun bits => bits.getLsbD (width - 1 - col) := by
  simp [lit, BitVec.getMsbD, hcol]

variable {γ : Type*} (color : γ)

/-- The bitmap as a layer, whose texels are those that are lit. -/
def layer (left top : ℕ) : Layer γ where
  rect := ⟨left, top, width, bitmap.length⟩
  shown := true
  texel := fun index => if bitmap.lit (index / width) (index % width) then some color else none

theorem layer_color {left top x y : ℕ} (hleft : left ≤ x) (htop : top ≤ y) :
    (bitmap.layer color left top).color x y =
      if bitmap.lit (y - top) (x - left) then some color else none := by
  by_cases hmem : (x, y) ∈ (⟨left, top, width, bitmap.length⟩ : Rect ℕ).pixels
  · obtain ⟨⟨_, hright⟩, _, _⟩ := Rect.mem_pixels.mp hmem
    dsimp only at hright
    have hcol : x - left < width := by omega
    have hrow : ((y - top) * width + (x - left)) / width = y - top := by
      rw [Nat.mul_comm, Nat.mul_add_div (by omega), Nat.div_eq_of_lt hcol, Nat.add_zero]
    have hmod : ((y - top) * width + (x - left)) % width = x - left := by
      rw [Nat.mul_comm, Nat.mul_add_mod, Nat.mod_eq_of_lt hcol]
    rw [Layer.color, if_pos ⟨rfl, hmem⟩]
    simp only [layer, Rect.index, hrow, hmod]
  · have hdark : bitmap.lit (y - top) (x - left) = false := by
      rw [Rect.mem_pixels] at hmem
      dsimp only at hmem
      by_cases hright : x < left + width
      · exact bitmap.lit_of_length_le (by omega)
      · exact bitmap.lit_of_width_le (by omega)
    rw [Layer.color, if_neg fun hlayer => hmem hlayer.2, hdark]
    rfl

/-- Left of the bitmap and above it the layer has no color. -/
theorem layer_color_of_outside {left top x y : ℕ} (houtside : x < left ∨ y < top) :
    (bitmap.layer color left top).color x y = none := by
  rw [Layer.color, if_neg]
  rintro ⟨_, hmem⟩
  have hpixel := Rect.mem_pixels.mp hmem
  dsimp only [layer] at hpixel
  omega

end Bitmap

end Raster
