import Galaga.Game.Scripted
import Galaga.Game.Sprites

/-! # The picture of a fight is painted

On a scan position that rests for two cycles the color assignment shows the
first layer with a texel there: the priority chain, the wrapping comparisons,
the truncated addresses and the registered memories come to no more than that.
-/

namespace Galaga

open Raster

/-- The contents of a sprite memory as a texture. -/
def texture (mem : ℕ → Rgb) (index : ℕ) : Option Rgb :=
  if mem index = Drawing.background then none else some (spriteColor (mem index))

theorem readMemory_of_toNat {width last index : ℕ} {readAddress : BitVec width} (mem : ℕ → Rgb)
    (haddress : readAddress.toNat = index) (hlast : index ≤ last) :
    readMemory mem last readAddress = mem index := by
  unfold readMemory
  rw [haddress, if_pos hlast]

/-- The color of a layer, from the test and the texel that the drawing logic
works with. -/
theorem color_eq_of_texel {layer : Layer Rgb} {mem : ℕ → Rgb} {data : Rgb} {inside : Bool}
    {x y : ℕ} (htexture : layer.texel = texture mem)
    (hinside : inside = true ↔ layer.shown = true ∧ (x, y) ∈ layer.rect.pixels)
    (hdata : inside = true → data = mem (layer.rect.index x y)) :
    layer.color x y =
      if (if inside then if data = Drawing.background then false else true else false) then
        some (spriteColor data)
      else none := by
  unfold Layer.color
  cases hcase : inside with
  | false =>
      rw [if_neg fun hlayer => by rw [hinside.mpr hlayer] at hcase; cases hcase]
      rfl
  | true =>
      rw [if_pos (hinside.mp hcase), htexture, hdata hcase, texture]
      by_cases hkey : mem (layer.rect.index x y) = Drawing.background <;> simp [hkey]

namespace Core

/-- The layer of each drawable module. -/
def layer (memory : SpriteMemory) (core : Core) : ModuleName → Layer Rgb
  | .userShip => ⟨core.ship.square, true, texture memory.ship⟩
  | .enemyShip row col =>
      ⟨(core.enemy row col).square, !(core.enemy row col).enemyHit, texture memory.enemy⟩
  | .boss => ⟨core.boss.square, !core.boss.enemyHit, texture memory.enemy⟩
  | .userLaser => ⟨core.laser.rect, core.laser.spacePressed, texture memory.laser⟩

/-- The modules that are drawn in a fight, from front to back. -/
def paintOrder : State → List ModuleName
  | .play =>
      .userShip :: .userLaser ::
        (List.product (List.finRange 3) (List.finRange 6)).map
          fun target => .enemyShip target.1 target.2
  | .bossFight => [.boss, .userShip, .userLaser]
  | _ => []

/-- What the screen should show at a pixel. -/
def picture (memory : SpriteMemory) (core : Core) (x y : ℕ) : Rgb :=
  paint screenColor ((paintOrder core.state).map (core.layer memory)) x y

theorem formation_order :
    ((List.product (List.finRange 3) (List.finRange 6)).map
      fun target => ModuleName.enemyShip target.1 target.2) =
      [.enemyShip 0 0, .enemyShip 0 1, .enemyShip 0 2, .enemyShip 0 3, .enemyShip 0 4,
        .enemyShip 0 5, .enemyShip 1 0, .enemyShip 1 1, .enemyShip 1 2, .enemyShip 1 3,
        .enemyShip 1 4, .enemyShip 1 5, .enemyShip 2 0, .enemyShip 2 1, .enemyShip 2 2,
        .enemyShip 2 3, .enemyShip 2 4, .enemyShip 2 5] := rfl

section OnScreen

variable {drawX drawY : Coord} (hX : drawX.toNat < 800) (hY : drawY.toNat < 525)
include hX hY

/-- A 30 by 30 sprite, whose eleven-bit address loses a bit at the memory. -/
theorem enemySprite_color (mem : ℕ → Rgb) (x y : Coord) (enemyHit : Bool) :
    let inside := Drawing.inside x y 30#10 30#10 drawX drawY && !enemyHit
    let data := EnemyRAM.read mem
      ((if inside then Drawing.address 11 x y 30#10 drawX drawY else 0#11).setWidth 10)
    (⟨Drawing.rect x y 30#10 30#10, !enemyHit, texture mem⟩ : Layer Rgb).color
        drawX.toNat drawY.toNat =
      if (if inside then if data = Drawing.background then false else true else false) then
        some (spriteColor data)
      else none := by
  intro inside data
  have hmembers : Drawing.inside x y 30#10 30#10 drawX drawY = true ↔
      (drawX.toNat, drawY.toNat) ∈ (Drawing.rect x y 30#10 30#10).pixels := by
    apply Drawing.inside_iff <;> simp only [BitVec.toNat_ofNat] <;> omega
  have hinside : inside = true ↔ (!enemyHit) = true ∧
      (drawX.toNat, drawY.toNat) ∈ (Drawing.rect x y 30#10 30#10).pixels := by
    rw [Bool.and_eq_true, hmembers, and_comm]
  refine color_eq_of_texel rfl hinside fun hin => ?_
  have hmem := (hinside.mp hin).2
  have hindex := (Rect.index_lt hmem).trans_eq (show _ = 900 from rfl)
  have haddress : (Drawing.address 11 x y 30#10 drawX drawY).toNat =
      (Drawing.rect x y 30#10 30#10).index drawX.toNat drawY.toNat :=
    Drawing.address_toNat (by decide) (by decide) hmem
  refine readMemory_of_toNat mem ?_ hindex.le
  rw [if_pos hin, BitVec.toNat_setWidth, haddress]
  exact Nat.mod_eq_of_lt (hindex.trans (by decide))

theorem userShip_color (memory : SpriteMemory) (core : Core) :
    (core.layer memory .userShip).color drawX.toNat drawY.toNat =
      if core.isDrawn (core.load memory drawX drawY) drawX drawY .userShip then
        some (spriteColor (core.load memory drawX drawY .userShip))
      else none := by
  have hmembers : core.ship.inside drawX drawY = true ↔
      (drawX.toNat, drawY.toNat) ∈ core.ship.square.pixels := by
    apply Drawing.inside_iff <;> simp only [UserShip.size, BitVec.toNat_ofNat] <;> omega
  have hinside : core.ship.inside drawX drawY = true ↔
      true = true ∧ (drawX.toNat, drawY.toNat) ∈ core.ship.square.pixels :=
    hmembers.trans (and_iff_right rfl).symm
  refine color_eq_of_texel rfl hinside fun hin => ?_
  have hmem := hmembers.mp hin
  have hindex := (Rect.index_lt hmem).trans_eq (show _ = 1600 from rfl)
  refine readMemory_of_toNat _ ?_ hindex.le
  rw [UserShip.addr, if_pos hin]
  exact Drawing.address_toNat (by decide) (by decide) hmem

/-- The laser has a ten-bit address, and is hidden where it is not fired. -/
theorem userLaser_color (memory : SpriteMemory) (core : Core) :
    (core.layer memory .userLaser).color drawX.toNat drawY.toNat =
      if core.isDrawn (core.load memory drawX drawY) drawX drawY .userLaser then
        some (spriteColor (core.load memory drawX drawY .userLaser))
      else none := by
  have hmembers : core.laser.inside drawX drawY = true ↔
      (drawX.toNat, drawY.toNat) ∈ core.laser.rect.pixels := by
    apply Drawing.inside_iff <;>
      simp only [UserLaser.xSize, UserLaser.ySize, BitVec.toNat_ofNat] <;> omega
  have hload : core.laser.inside drawX drawY = true →
      core.load memory drawX drawY .userLaser =
        memory.laser (core.laser.rect.index drawX.toNat drawY.toNat) := by
    intro hin
    have hmem := hmembers.mp hin
    have hindex := (Rect.index_lt hmem).trans_eq (show _ = 980 from rfl)
    refine readMemory_of_toNat _ ?_ hindex.le
    rw [UserLaser.addr, if_pos hin]
    exact Drawing.address_toNat (by decide) (by decide) hmem
  cases hfired : core.laser.spacePressed with
  | true =>
      have hinside : core.laser.inside drawX drawY = true ↔
          core.laser.spacePressed = true ∧
            (drawX.toNat, drawY.toNat) ∈ core.laser.rect.pixels :=
        hmembers.trans (and_iff_right hfired).symm
      refine (color_eq_of_texel rfl hinside hload).trans ?_
      simp only [isDrawn, UserLaser.isLaser, hfired, Bool.and_true]
  | false =>
      have hhidden :
          core.isDrawn (core.load memory drawX drawY) drawX drawY .userLaser = false := by
        simp [isDrawn, UserLaser.isLaser, hfired]
      rw [hhidden, Layer.color, if_neg]
      · rfl
      · rintro ⟨hshown, _⟩
        exact absurd (hfired.symm.trans hshown) Bool.false_ne_true

/-- Every module's drawing logic is its layer. -/
theorem layer_color (memory : SpriteMemory) (core : Core) (owner : ModuleName) :
    (core.layer memory owner).color drawX.toNat drawY.toNat =
      if core.isDrawn (core.load memory drawX drawY) drawX drawY owner then
        some (spriteColor (core.load memory drawX drawY owner))
      else none := by
  cases owner with
  | userShip => exact userShip_color hX hY memory core
  | enemyShip row col =>
      exact enemySprite_color hX hY memory.enemy (core.enemy row col).xPos
        (core.enemy row col).yPos (core.enemy row col).enemyHit
  | boss =>
      exact enemySprite_color hX hY memory.enemy core.boss.xPos core.boss.yPos core.boss.enemyHit
  | userLaser => exact userLaser_color hX hY memory core

/-- The priority chain of a fight paints the layers in order. -/
theorem colorData_fighting (memory : SpriteMemory) (logos : Logos) {core : Core}
    (hstate : core.Fighting) :
    core.colorData logos (core.load memory drawX drawY) drawX drawY =
      core.picture memory drawX.toNat drawY.toNat := by
  have hchain : ∀ owner layers,
      paint screenColor (core.layer memory owner :: layers) drawX.toNat drawY.toNat =
        if core.isDrawn (core.load memory drawX drawY) drawX drawY owner then
          spriteColor (core.load memory drawX drawY owner)
        else paint screenColor layers drawX.toNat drawY.toNat :=
    fun owner => paint_cons_of_test (layer_color hX hY memory core owner)
  unfold picture
  rcases hstate with hplay | hfight
  · rw [hplay]
    simp only [colorData, hplay, paintOrder, formation_order]
    simp only [List.map_cons, List.map_nil, hchain, paint_nil]
  · rw [hfight]
    simp only [colorData, hfight]
    simp only [paintOrder, List.map_cons, List.map_nil, hchain, paint_nil]

end OnScreen

end Core

namespace Display

/-- If a cycle of a fight leaves the game registers alone, and the scan
position rests as well, the next cycle shows the picture. -/
theorem colorData_eq_picture (memory : SpriteMemory) (logos : Logos) (input : Input)
    {display : Display} {drawX drawY : Coord} (hX : drawX.toNat < 800) (hY : drawY.toNat < 525)
    (hstate : display.game.core.Fighting)
    (hrests : (display.step memory input drawX drawY).game.core = display.game.core) :
    (display.step memory input drawX drawY).colorData logos drawX drawY =
      display.game.core.picture memory drawX.toNat drawY.toNat := by
  unfold colorData
  rw [hrests]
  exact Core.colorData_fighting hX hY memory logos hstate

/-- The game registers of the opening of play, between two ticks. -/
def opening : Display := ⟨⟨PlayFrame.opening.toCore, fun _ => ⟨false, false⟩⟩, fun _ => 0#24⟩

theorem opening_rests (memory : SpriteMemory) (drawX drawY : Coord) :
    (opening.step memory ⟨false, false, 0#8⟩ drawX drawY).game.core = opening.game.core := by
  have hinv := (Run.scripted []).inv 1
  rw [Run.scripted_core_one] at hinv
  exact PlayFrame.rests_toCore (by decide) (by decide) hinv (by decide) (by decide)

/-- A pixel of the ship, whose memory holds one color: red and green change
places. -/
theorem colorData_opening :
    (opening.step ⟨fun _ => 0x112233#24, fun _ => 0#24, fun _ => 0#24⟩ ⟨false, false, 0#8⟩ 325#10
        460#10).colorData ⟨false, false, false, false, false⟩ 325#10 460#10 = 0x221133#24 :=
  (colorData_eq_picture _ _ _ (by decide) (by decide) (Or.inl rfl)
    (opening_rests _ _ _)).trans (by decide)

end Display

end Galaga
