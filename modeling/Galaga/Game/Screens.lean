import Galaga.Game.Picture
import Galaga.Model.Logos
import Galaga.Raster.Bitmap

/-! # The screens

The tests of the logo modules include one column and one row too many, and the
arithmetic on the scan position wraps. Nothing of this is seen: each logo is its
bitmap. With the logos in front, the picture of every screen is painted.
-/

namespace Galaga

open Raster

section Window

variable {width : ℕ}

theorem romBit_eq_some_true_iff (rom : Bitmap width) (addr index : ℕ) :
    romBit rom addr index = some true ↔ (rom[addr]?.any fun bits => bits.getLsbD index) = true := by
  unfold romBit
  cases rom[addr]? with
  | none => simp
  | some data =>
      rw [Option.bind_some, Option.any_some, BitVec.getLsbD_eq_getElem?_getD]
      cases data[index]? <;> simp

/-- A row that is dark, or not there at all. -/
def darkRow (rom : Bitmap width) (row : ℕ) : Bool := rom[row]?.all fun bits => bits == 0

theorem romBit_of_darkRow {rom : Bitmap width} {addr : ℕ} (hdark : darkRow rom addr = true)
    (index : ℕ) : romBit rom addr index ≠ some true := by
  rw [Ne, romBit_eq_some_true_iff]
  unfold darkRow at hdark
  cases hrow : rom[addr]? with
  | none => simp
  | some bits =>
      rw [hrow, Option.all_some, beq_iff_eq] at hdark
      simp [hdark]

/-- The bit that is counted down from `last`, in the columns of the window. -/
theorem romBit_of_column {rom : Bitmap width} {left last drawX : Coord} {first : ℕ} (addr : ℕ)
    (hfirst : first + width = left.toNat + last.toNat + 1) (hwidth : width ≤ last.toNat + 1)
    (hleft : left ≤ drawX) (hright : drawX.toNat ≤ left.toNat + last.toNat + 1)
    (hshort : last.toNat < 512) :
    romBit rom addr (last - (drawX - left)).toNat = some true ↔
      first ≤ drawX.toNat ∧ rom.lit addr (drawX.toNat - first) = true := by
  have hle : left.toNat ≤ drawX.toNat := hleft
  have hdraw := drawX.isLt
  have hindex : (last - (drawX - left)).toNat =
      (1024 + last.toNat + left.toNat - drawX.toNat) % 1024 := by
    simp only [BitVec.toNat_sub]
    omega
  rw [romBit_eq_some_true_iff, hindex]
  by_cases hcol : first ≤ drawX.toNat ∧ drawX.toNat < first + width
  · rw [Bitmap.lit_eq_getLsbD _ (show drawX.toNat - first < width by omega)]
    have hsame : (1024 + last.toNat + left.toNat - drawX.toNat) % 1024 =
        width - 1 - (drawX.toNat - first) := by omega
    rw [hsame]
    exact (and_iff_right hcol.1).symm
  · -- one of the columns that the window has on either side
    have houtside : width ≤ (1024 + last.toNat + left.toNat - drawX.toNat) % 1024 := by omega
    constructor
    · intro hbit
      cases hrow : rom[addr]? with
      | none => simp [hrow] at hbit
      | some bits => simp [hrow, BitVec.getLsbD_of_ge _ _ houtside] at hbit
    · rintro ⟨hlow, hlit⟩
      rw [Bitmap.lit_of_width_le _ (show width ≤ drawX.toNat - first by omega)] at hlit
      cases hlit

/-- A logo module shows its bitmap, if the rows of its window that the address
does not reach are dark where it wraps to. -/
theorem logo_iff {rom : Bitmap width} {addrBits : ℕ} {left right top bottom last : Coord}
    (first upper : ℕ) (hfirst : first + width = left.toNat + last.toNat + 1)
    (hupper : top.toNat = upper) (hwidth : width ≤ last.toNat + 1) (hshort : last.toNat < 512)
    (hright : left.toNat + last.toNat ≤ right.toNat ∧ right.toNat ≤ left.toNat + last.toNat + 1)
    (hbottom : upper + rom.length ≤ bottom.toNat + 1) (haddr : rom.length ≤ 2 ^ addrBits)
    (hdark : ∀ row ≤ bottom.toNat - upper, rom.length ≤ row →
      darkRow rom (row % 2 ^ addrBits) = true) (drawX drawY : Coord) :
    logo rom addrBits left right top bottom last drawX drawY = true ↔
      first ≤ drawX.toNat ∧ upper ≤ drawY.toNat ∧
        rom.lit (drawY.toNat - upper) (drawX.toNat - first) = true := by
  subst hupper
  have hX := drawX.isLt
  have hY := drawY.isLt
  have hdecide : ∀ p : Prop, [Decidable p] → ((if p then true else false) = true ↔ p) := by
    intro p _
    split <;> simp_all
  unfold logo
  by_cases hwindow : left ≤ drawX ∧ drawX ≤ right ∧ top ≤ drawY ∧ drawY ≤ bottom
  · obtain ⟨hleft, hxright, htop, hybottom⟩ := hwindow
    rw [if_pos ⟨hleft, hxright, htop, hybottom⟩, hdecide]
    have hxle : drawX.toNat ≤ right.toNat := hxright
    have htople : top.toNat ≤ drawY.toNat := htop
    have hyle : drawY.toNat ≤ bottom.toNat := hybottom
    have haddress : ((drawY - top).setWidth addrBits).toNat =
        (drawY.toNat - top.toNat) % 2 ^ addrBits := by
      rw [BitVec.toNat_setWidth, BitVec.toNat_sub_of_le htop]
    rw [haddress]
    by_cases hrow : drawY.toNat - top.toNat < rom.length
    · rw [Nat.mod_eq_of_lt (hrow.trans_le haddr),
        romBit_of_column _ hfirst hwidth hleft (by omega) hshort]
      exact ⟨fun h => ⟨h.1, htople, h.2⟩, fun h => ⟨h.1, h.2.2⟩⟩
    · have hwraps := hdark (drawY.toNat - top.toNat) (by omega) (not_lt.mp hrow)
      rw [Bitmap.lit_of_length_le _ (not_lt.mp hrow)]
      simp [romBit_of_darkRow hwraps]
  · rw [if_neg hwindow]
    simp only [BitVec.le_def] at hwindow
    constructor
    · intro hfalse
      cases hfalse
    · rintro ⟨hlow, htople, hlit⟩
      by_cases hcol : drawX.toNat - first < width
      · have hpast : rom.length ≤ drawY.toNat - top.toNat := by omega
        rw [Bitmap.lit_of_length_le _ hpast] at hlit
        cases hlit
      · rw [Bitmap.lit_of_width_le _ (not_lt.mp hcol)] at hlit
        cases hlit

end Window

/-- The logos. -/
inductive Logo where
  | galaga
  | pressStart
  | gameover
  | youWin
  | boss
deriving DecidableEq, Repr

namespace Logo

/-- The output of the logo's module. -/
def isShown (logos : Logos) : Logo → Bool
  | galaga => logos.isGalaga
  | pressStart => logos.isPressStart
  | gameover => logos.isGameover
  | youWin => logos.isYouWin
  | boss => logos.isBoss

def width : Logo → ℕ
  | galaga => 96
  | pressStart => 55
  | gameover => 128
  | youWin => 112
  | boss => 64

def bitmap : (logo : Logo) → Bitmap logo.width
  | galaga => galagaRom
  | pressStart => pressStartRom
  | gameover => gameoverRom
  | youWin => youWinRom
  | boss => bossRom

/-- The first column. The window of `press_start_logo` starts one before it. -/
def left : Logo → ℕ
  | galaga => 272
  | pressStart => 294
  | gameover => 256
  | youWin => 264
  | boss => 288

/-- The first row. -/
def top : Logo → ℕ
  | pressStart => 253
  | _ => 232

/-- The logo as a layer of the picture. -/
def layer (logo : Logo) : Layer Rgb := logo.bitmap.layer logoColor logo.left logo.top

variable (logo : Logo) (drawX drawY : Coord)

theorem isShown_iff_lit :
    logo.isShown (Logos.shown drawX drawY) = true ↔
      logo.left ≤ drawX.toNat ∧ logo.top ≤ drawY.toNat ∧
        logo.bitmap.lit (drawY.toNat - logo.top) (drawX.toNat - logo.left) = true := by
  cases logo with
  | galaga =>
      exact logo_iff 272 232 rfl rfl (by decide) (by decide) (by decide) (by decide) (by decide)
        (by decide +kernel) drawX drawY
  | pressStart =>
      exact logo_iff 294 253 rfl rfl (by decide) (by decide) (by decide) (by decide) (by decide)
        (by decide +kernel) drawX drawY
  | gameover =>
      exact logo_iff 256 232 rfl rfl (by decide) (by decide) (by decide) (by decide) (by decide)
        (by decide +kernel) drawX drawY
  | youWin =>
      exact logo_iff 264 232 rfl rfl (by decide) (by decide) (by decide) (by decide) (by decide)
        (by decide +kernel) drawX drawY
  | boss =>
      exact logo_iff 288 232 rfl rfl (by decide) (by decide) (by decide) (by decide) (by decide)
        (by decide +kernel) drawX drawY

/-- At every scan position the output of a logo module is the pixel of its
bitmap, and outside of the bitmap's rectangle there is none. -/
theorem isShown_iff_bitmap :
    logo.isShown (Logos.shown drawX drawY) = true ↔
      (drawX.toNat, drawY.toNat) ∈ logo.layer.rect.pixels ∧
        logo.bitmap.lit (drawY.toNat - logo.layer.rect.top)
          (drawX.toNat - logo.layer.rect.left) = true := by
  rw [isShown_iff_lit, Rect.mem_pixels]
  dsimp only [layer, Bitmap.layer]
  constructor
  · rintro ⟨hleft, htop, hlit⟩
    refine ⟨⟨⟨hleft, ?_⟩, htop, ?_⟩, hlit⟩
    · by_contra hright
      rw [Bitmap.lit_of_width_le _ (by omega)] at hlit
      cases hlit
    · by_contra hbottom
      rw [Bitmap.lit_of_length_le _ (by omega)] at hlit
      cases hlit
  · rintro ⟨⟨⟨hleft, _⟩, htop, _⟩, hlit⟩
    exact ⟨hleft, htop, hlit⟩

theorem layer_color :
    logo.layer.color drawX.toNat drawY.toNat =
      if logo.isShown (Logos.shown drawX drawY) then some logoColor else none := by
  have hshown := logo.isShown_iff_lit drawX drawY
  by_cases hinside : logo.left ≤ drawX.toNat ∧ logo.top ≤ drawY.toNat
  · rw [layer, Bitmap.layer_color _ _ hinside.1 hinside.2]
    simp only [hshown, hinside.1, hinside.2, true_and]
  · rw [layer, Bitmap.layer_color_of_outside _ _ (by omega), if_neg]
    rw [hshown]
    exact fun h => hinside ⟨h.1, h.2.1⟩

end Logo

/-- What can be seen. -/
inductive Drawable where
  | logo (logo : Logo)
  | sprite (owner : ModuleName)
deriving DecidableEq, Repr

namespace Core

/-- What is drawn on each screen, from front to back. -/
def drawables : State → List Drawable
  | .start => [.logo .galaga, .logo .pressStart, .sprite .userShip]
  | .bossLogo => [.logo .boss, .logo .pressStart]
  | .gameover => [.logo .gameover, .logo .pressStart]
  | .win => [.logo .youWin, .logo .pressStart]
  | .play => (paintOrder .play).map .sprite
  | .bossFight => (paintOrder .bossFight).map .sprite

def drawableLayer (memory : SpriteMemory) (core : Core) : Drawable → Layer Rgb
  | .logo logo => logo.layer
  | .sprite owner => core.layer memory owner

/-- What the screen should show at a pixel, in every state. -/
def screen (memory : SpriteMemory) (core : Core) (x y : ℕ) : Rgb :=
  paint screenColor ((drawables core.state).map (core.drawableLayer memory)) x y

theorem screen_of_fighting (memory : SpriteMemory) {core : Core} (hstate : core.Fighting)
    (x y : ℕ) : core.screen memory x y = core.picture memory x y := by
  unfold screen picture
  rcases hstate with hplay | hfight
  · rw [hplay, drawables, List.map_map]
    rfl
  · rw [hfight, drawables, List.map_map]
    rfl

/-- The color assignment paints the screen, logos in front. -/
theorem colorData_screen (memory : SpriteMemory) (core : Core) {drawX drawY : Coord}
    (hX : drawX.toNat < 800) (hY : drawY.toNat < 525) :
    core.colorData (Logos.shown drawX drawY) (core.load memory drawX drawY) drawX drawY =
      core.screen memory drawX.toNat drawY.toNat := by
  by_cases hfighting : core.Fighting
  · rw [screen_of_fighting memory hfighting]
    exact colorData_fighting hX hY memory _ hfighting
  have hlogo : ∀ logo layers, paint screenColor (core.drawableLayer memory (.logo logo) :: layers)
      drawX.toNat drawY.toNat =
        if logo.isShown (Logos.shown drawX drawY) then logoColor
        else paint screenColor layers drawX.toNat drawY.toNat :=
    fun logo => paint_cons_of_test (logo.layer_color drawX drawY)
  have hship : paint screenColor [core.drawableLayer memory (.sprite .userShip)]
      drawX.toNat drawY.toNat =
        if core.isDrawn (core.load memory drawX drawY) drawX drawY .userShip then
          spriteColor (core.load memory drawX drawY .userShip)
        else screenColor :=
    paint_cons_of_test (userShip_color hX hY memory core) []
  unfold screen
  cases hstate : core.state with
  | start =>
      simp only [colorData, hstate, drawables, List.map_cons, List.map_nil, hlogo, hship]
      rfl
  | play => exact absurd (Or.inl hstate) hfighting
  | bossLogo =>
      simp only [colorData, hstate, drawables, List.map_cons, List.map_nil, hlogo, paint_nil]
      rfl
  | bossFight => exact absurd (Or.inr hstate) hfighting
  | gameover =>
      simp only [colorData, hstate, drawables, List.map_cons, List.map_nil, hlogo, paint_nil]
      rfl
  | win =>
      simp only [colorData, hstate, drawables, List.map_cons, List.map_nil, hlogo, paint_nil]
      rfl

section Unmoved

variable {core later : Core} (hunmoved : core.Unmoved later)
include hunmoved

theorem Unmoved.isDrawn_eq (data : ModuleName → Rgb) (drawX drawY : Coord) :
    later.isDrawn data drawX drawY = core.isDrawn data drawX drawY := by
  funext owner
  cases owner with
  | userShip => rw [isDrawn, isDrawn, hunmoved.ship]
  | enemyShip row col =>
      rw [isDrawn, isDrawn]
      cases hhit : (core.enemy row col).enemyHit with
      | false => rw [hunmoved.enemies row col hhit]
      | true =>
          have hhit' := hunmoved.hits row col
          rw [hhit] at hhit'
          simp [EnemyShip.isEnemyShip, EnemyShip.inside, hhit, hhit']
  | boss => rw [isDrawn, isDrawn, hunmoved.boss]
  | userLaser => rw [isDrawn, isDrawn, hunmoved.laser]

/-- The colors are those of the game as it was, on the screen that comes next. -/
theorem Unmoved.colorData_eq (logos : Logos) (data : ModuleName → Rgb) (drawX drawY : Coord) :
    later.colorData logos data drawX drawY =
      { core with state := later.state }.colorData logos data drawX drawY := by
  have hdrawn := hunmoved.isDrawn_eq data drawX drawY
  unfold colorData
  rw [hdrawn]
  rfl

theorem Unmoved.layer_color_eq (memory : SpriteMemory) (drawable : Drawable) (x y : ℕ) :
    (later.drawableLayer memory drawable).color x y =
      (core.drawableLayer memory drawable).color x y := by
  cases drawable with
  | logo logo => rfl
  | sprite owner =>
      simp only [drawableLayer]
      cases owner with
      | userShip => rw [layer, layer, hunmoved.ship]
      | enemyShip row col =>
          rw [layer, layer]
          cases hhit : (core.enemy row col).enemyHit with
          | false => rw [hunmoved.enemies row col hhit, hhit]
          | true =>
              rw [hunmoved.hits row col, hhit]
              simp [Layer.color]
      | boss => rw [layer, layer, hunmoved.boss]
      | userLaser => rw [layer, layer, hunmoved.laser]

/-- And so is the screen. -/
theorem Unmoved.screen_eq (memory : SpriteMemory) (x y : ℕ) :
    later.screen memory x y = { core with state := later.state }.screen memory x y := by
  unfold screen
  exact paint_congr _ fun drawable => hunmoved.layer_color_eq memory drawable x y

/-- With the texels that were addressed in the cycle before. -/
theorem Unmoved.colorData_screen (memory : SpriteMemory) {drawX drawY : Coord}
    (hX : drawX.toNat < 800) (hY : drawY.toNat < 525) :
    later.colorData (Logos.shown drawX drawY) (core.load memory drawX drawY) drawX drawY =
      later.screen memory drawX.toNat drawY.toNat := by
  rw [hunmoved.screen_eq, hunmoved.colorData_eq]
  exact Core.colorData_screen memory _ hX hY

end Unmoved

theorem Unmoved.refl (core : Core) : core.Unmoved core :=
  ⟨rfl, rfl, rfl, fun _ _ => rfl, fun _ _ _ => rfl⟩

theorem Unmoved.trans {core later latest : Core} (hfirst : core.Unmoved later)
    (hsecond : later.Unmoved latest) : core.Unmoved latest where
  ship := hsecond.ship.trans hfirst.ship
  laser := hsecond.laser.trans hfirst.laser
  boss := hsecond.boss.trans hfirst.boss
  hits := fun row col => (hsecond.hits row col).trans (hfirst.hits row col)
  enemies := fun row col hlive =>
    (hsecond.enemies row col ((hfirst.hits row col).trans hlive)).trans
      (hfirst.enemies row col hlive)

end Core

namespace Display

/-- If the scan position rests for a cycle in which nothing moves, whether or
not the game goes on to another screen, the next cycle shows that screen. -/
theorem colorData_eq_screen (memory : SpriteMemory) (input : Input) {display : Display}
    {drawX drawY : Coord} (hX : drawX.toNat < 800) (hY : drawY.toNat < 525)
    (hunmoved : display.game.core.Unmoved (display.step memory input drawX drawY).game.core) :
    (display.step memory input drawX drawY).colorData (Logos.shown drawX drawY) drawX drawY =
      (display.step memory input drawX drawY).game.core.screen memory drawX.toNat
        drawY.toNat :=
  hunmoved.colorData_screen memory hX hY

/-- The start screen, one cycle after a reset. -/
def title : Display :=
  ⟨⟨Core.resetRegs.next false 0#8, fun _ => ⟨false, false⟩⟩, fun _ => 0#24⟩

/-- Enter on the start screen: a pixel of the title gives way to the
background. -/
theorem colorData_title :
    (title.step ⟨fun _ => 0#24, fun _ => 0#24, fun _ => 0#24⟩ ⟨false, false, keyEnter⟩ 276#10
        234#10).colorData (Logos.shown 276#10 234#10) 276#10 234#10 = screenColor := by
  have hnot : ¬ Core.resetRegs.Fighting := by simp [Core.Fighting, Core.resetRegs]
  have hcalm := Core.inv_reset.calm_next_of_not_fighting 0#8 hnot
  have hunmoved := hcalm.unmoved (Core.inv_reset.next false 0#8 (by simp)) keyEnter
  exact (colorData_eq_screen _ _ (by decide) (by decide) hunmoved).trans (by decide +kernel)

end Display

end Galaga
