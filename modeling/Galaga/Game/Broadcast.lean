import Galaga.Game.Screens
import Galaga.Game.Tearing
import Galaga.Model.Pins
import Galaga.Raster.Scan

/-! # What the monitor sees

The pins of the VGA connector over a whole run. The converter takes a pixel over
with each rising edge of `VGA_CLK`, which is the second cycle of the pixel: by
then the sprite memories have caught up with the scan position.
-/

namespace Galaga

/-- The color mapper only splits the color. -/
theorem ColorMapper.rgb_eq (colorData : Rgb) :
    rgb (vgaR colorData) (vgaG colorData) (vgaB colorData) = colorData := by
  rw [rgb, vgaR, vgaG, vgaB, BitVec.extractLsb'_append_extractLsb'_eq_extractLsb' (by rfl),
    BitVec.extractLsb'_append_extractLsb'_eq_extractLsb' (by rfl)]
  exact BitVec.extractLsb'_eq_self

namespace BoardRun

open VgaController

variable (board : BoardRun)

/-- The frame that is scanned in cycle `n`, counted from the reset. -/
def frame (n : ℕ) : ℕ := (n - board.held + board.phase) / 840000

/-- A pixel is taken over by the converter at the end of cycle `n`. -/
def Latches (frame x y n : ℕ) : Prop :=
  board.held ≤ n ∧ board.frame n = frame ∧ (board.input n).vgaClk = true ∧
    (board.state n).vga.drawX.toNat = x ∧ (board.state n).vga.drawY.toNat = y

theorem scanned_drawX_toNat (edges : ℕ) : (scanned edges).drawX.toNat = edges % 800 := by
  simp only [drawX, scanned, BitVec.toNat_ofNat]
  omega

theorem latches_iff {frame x y k : ℕ} :
    board.Latches frame x y (board.held + k) ↔
      (k + board.phase) % 2 = 1 ∧ (k + board.phase) / 2 / (800 * 525) = frame ∧
        (k + board.phase) / 2 % 800 = x ∧ (k + board.phase) / 2 / 800 % 525 = y := by
  have hframe : board.frame (board.held + k) = (k + board.phase) / 2 / (800 * 525) := by
    rw [BoardRun.frame, Nat.add_sub_cancel_left]
    omega
  rw [Latches, hframe, board.vgaClk_eq, board.vga_eq, scanned_drawX_toNat, scanned_drawY_toNat,
    decide_eq_true_eq]
  constructor
  · rintro ⟨_, hframe, hclk, hx, hy⟩
    exact ⟨hclk, hframe, hx, hy⟩
  · rintro ⟨hclk, hframe, hx, hy⟩
    exact ⟨Nat.le_add_right _ _, hframe, hclk, hx, hy⟩

/-- In each frame every pixel is taken over exactly once. -/
theorem existsUnique_latches {x y : ℕ} (hx : x < 800) (hy : y < 525) (frame : ℕ) :
    ∃! n, board.Latches frame x y n := by
  have hphase : board.phase ≤ 1 := Bool.toNat_le _
  obtain ⟨scanned, hscanned, hunique⟩ := Raster.existsUnique_pixel hx hy frame
  have hcycle : 2 * scanned + 1 - board.phase + board.phase = 2 * scanned + 1 := by omega
  have hhalf : (2 * scanned + 1) / 2 = scanned := by omega
  refine ⟨board.held + (2 * scanned + 1 - board.phase), ?_, ?_⟩
  · dsimp only
    rw [latches_iff, hcycle, hhalf]
    exact ⟨by omega, hscanned⟩
  · intro n hlatches
    obtain ⟨k, rfl⟩ := Nat.exists_eq_add_of_le hlatches.1
    rw [latches_iff] at hlatches
    have hsame := hunique _ hlatches.2
    omega

/-- The pins of the connector as functions of the time: a line is 1600 cycles
long, with a pulse of 192, and a frame 525 lines, with a pulse of two of them.
Each pixel of the raster is taken over once in a frame, in reading order. -/
theorem video_signal :
    (∀ k, 2 ≤ k + board.phase →
      let vga := (board.state (board.held + k)).vga
      let column := (k + board.phase) % 1600 / 2
      let line := (k + board.phase) % 840000 / 1600
      (vga.vgaHs = false ↔ 656 ≤ column ∧ column < 752) ∧
        (vga.vgaVs = false ↔ line = 490 ∨ line = 491) ∧
        (vga.vgaBlankN = true ↔ column < 640 ∧ line < 480) ∧
        vga.drawX.toNat = column ∧ vga.drawY.toNat = line) ∧
      (∀ frame, ∀ x < 800, ∀ y < 525, ∃! n, board.Latches frame x y n) ∧
      ∀ frame x y x' y' m n, board.Latches frame x y m → board.Latches frame x' y' n →
        (m < n ↔ y < y' ∨ (y = y' ∧ x < x')) := by
  refine ⟨?_, fun frame x hx y hy => board.existsUnique_latches hx hy frame, ?_⟩
  · intro k hrun
    have hcolumn : (k + board.phase) % 1600 / 2 = (k + board.phase) / 2 % 800 := by omega
    have hline : (k + board.phase) % 840000 / 1600 = (k + board.phase) / 2 / 800 % 525 := by omega
    have hstarted : 0 < (k + board.phase) / 2 := by omega
    dsimp only
    rw [hcolumn, hline, board.vga_eq, scanned_drawX_toNat, scanned_drawY_toNat]
    refine ⟨?_, ?_, ?_, rfl, rfl⟩
    · simp [scanned, hstarted]
    · rw [scanned_vgaVs_eq_false_iff]
      omega
    · simp [scanned, hstarted]
  · intro frame x y x' y' m n hm hn
    obtain ⟨k, rfl⟩ := Nat.exists_eq_add_of_le hm.1
    obtain ⟨l, rfl⟩ := Nat.exists_eq_add_of_le hn.1
    rw [latches_iff] at hm hn
    obtain ⟨hclk, hframe, rfl, rfl⟩ := hm
    obtain ⟨hclk', hframe', rfl, rfl⟩ := hn
    rw [← Raster.lt_iff_of_frame (by omega) (hframe.trans hframe'.symm)]
    omega

section Drawn

variable {k : ℕ} (hline : 800 ≤ (k + board.phase) / 2)
  (hdrawn : board.line (board.held + k) < 480)
include hline hdrawn

/-- The last tick is more than three cycles ago. -/
theorem calm_of_drawn : (board.core (board.held + k)).Calm := by
  have hphase : board.phase ≤ 1 := Bool.toNat_le _
  obtain ⟨before, rfl⟩ : ∃ before, k = before + 3 := ⟨k - 3, by omega⟩
  apply board.run.calm_of_idle
  intro i hi
  have hidle := board.idle_of_line_lt (3 - i) hline hdrawn (by omega)
  rw [show before + 3 - (3 - i) = before + i by omega] at hidle
  exact hidle

theorem unmoved_of_drawn :
    (board.core (board.held + k)).Unmoved (board.core (board.held + k + 1)) := by
  have hidle := board.idle_of_line_lt 0 hline hdrawn (by omega)
  have hunmoved := (board.calm_of_drawn hline hdrawn).unmoved (board.run.inv k)
    (board.run.keycode k)
  change (board.run.core k).Unmoved (board.run.core (k + 1))
  rw [board.run.core_succ]
  change board.run.tick k = false at hidle
  rw [hidle]
  exact hunmoved

end Drawn

/-- Nothing moves between the first cycle of a frame and any cycle in which it
is drawn. -/
theorem unmoved_of_frame {frame start k : ℕ} (hlater : 0 < frame)
    (hstart : start + board.phase = 840000 * frame) (hle : start ≤ k)
    (hdrawn : k + board.phase ≤ 840000 * frame + 768000) :
    (board.core (board.held + start)).Unmoved (board.core (board.held + k)) := by
  apply Clocked.stretch_rule
    (fun k => (board.core (board.held + start)).Unmoved (board.core (board.held + k))) hle
    (Core.Unmoved.refl _)
  intro k hlow hhigh hbefore
  refine hbefore.trans (board.unmoved_of_drawn (by omega) ?_)
  rw [board.line_eq]
  omega

end BoardRun

namespace ScreenRun

open BoardRun VgaController

variable (run : ScreenRun)

/-- The second cycle of a pixel shows it, if nothing moves in the first. -/
theorem colorData_of_latched {k : ℕ} (hclk : (k + 1 + run.phase) % 2 = 1)
    (hunmoved : (run.core (run.held + k)).Unmoved (run.core (run.held + (k + 1)))) :
    run.colorData (run.held + (k + 1)) =
      (run.core (run.held + (k + 1))).screen run.memory ((k + 1 + run.phase) / 2 % 800)
        ((k + 1 + run.phase) / 2 / 800 % 525) := by
  have hsame : (k + run.phase) / 2 = (k + 1 + run.phase) / 2 := by omega
  have hX := scanned_drawX_toNat ((k + 1 + run.phase) / 2)
  have hY := scanned_drawY_toNat ((k + 1 + run.phase) / 2)
  have hdata : run.data (run.held + (k + 1)) =
      (run.core (run.held + k)).load run.memory (scanned ((k + 1 + run.phase) / 2)).drawX
        (scanned ((k + 1 + run.phase) / 2)).drawY := by
    rw [← Nat.add_assoc, run.dataNext, run.vga_eq, hsame]
    rfl
  rw [colorData, run.vga_eq, hdata, ← hX, ← hY]
  apply hunmoved.colorData_screen run.memory
  · rw [hX]
    exact Nat.mod_lt _ (by omega)
  · rw [hY]
    exact Nat.mod_lt _ (by omega)

/-- From the second frame on a frame is the picture of the game in its first
cycle, up to the screen that is shown: every visible pixel is taken over exactly
once, with blanking off and in the color of that picture. -/
theorem frame_shows_one_game (before : ℕ) :
    ∃ m ≥ run.held, run.frame m = before + 1 ∧
      (∀ k ≥ run.held, run.frame k = before + 1 → m ≤ k) ∧ ∀ x < 640, ∀ y < 480, ∃ n,
      (∀ k, run.Latches (before + 1) x y k ↔ k = n) ∧ (run.state n).vga.vgaBlankN = true ∧
        rgb (run.vgaR n) (run.vgaG n) (run.vgaB n) =
          { run.core m with state := (run.core n).state }.screen run.memory x y := by
  have hphase : run.phase ≤ 1 := Bool.toNat_le _
  obtain ⟨start, hstart⟩ : ∃ start, start + run.phase = 840000 * (before + 1) :=
    ⟨840000 * (before + 1) - run.phase, by omega⟩
  refine ⟨run.held + start, Nat.le_add_right _ _, ?_, ?_, ?_⟩
  · rw [BoardRun.frame, Nat.add_sub_cancel_left, hstart]
    omega
  · intro k hheld hlater
    rw [BoardRun.frame] at hlater
    omega
  intro x hx y hy
  have hx' : x < 800 := by omega
  have hy' : y < 525 := by omega
  obtain ⟨n, hlatches, hunique⟩ := run.existsUnique_latches hx' hy' (before + 1)
  refine ⟨n, fun m => ⟨hunique m, fun h => h ▸ hlatches⟩, ?_⟩
  obtain ⟨l, rfl⟩ := Nat.exists_eq_add_of_le hlatches.1
  rw [run.latches_iff] at hlatches
  obtain ⟨hclk, hframe, hcolumn, hline⟩ := hlatches
  -- the pixel's first cycle
  obtain ⟨k, rfl⟩ : ∃ k, l = k + 1 := ⟨l - 1, by omega⟩
  constructor
  · rw [run.vga_eq]
    simp only [scanned, hcolumn, hline, hx, hy, decide_true, Bool.and_true]
    exact decide_eq_true (by omega)
  · have hfirst := run.unmoved_of_drawn (k := k) (by omega) (by rw [run.line_eq]; omega)
    have hpixel := run.colorData_of_latched hclk hfirst
    rw [vgaR, vgaG, vgaB, ColorMapper.rgb_eq, hpixel, hcolumn, hline]
    have hunmoved := run.unmoved_of_frame (k := k + 1) (Nat.succ_pos before) hstart (by omega)
      (by omega)
    exact hunmoved.screen_eq run.memory x y

end ScreenRun

end Galaga
