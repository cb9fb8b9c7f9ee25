import Galaga.Game.Calm
import Galaga.Model.Lab8

/-! # No tearing

The scan counters in closed form, the frame tick in terms of them, and the
consequence: the only tick of a frame falls in line 492, and the cascade it
starts is over long before the first line is drawn again.
-/

namespace Galaga

namespace VgaController

/-- The registers after so many edges of `VGA_CLK` since the reset. -/
def scanned (edges : ℕ) : VgaController where
  vgaHs := decide (0 < edges) && !(decide (656 ≤ edges % 800) && decide (edges % 800 < 752))
  vgaVs := decide (0 < edges) &&
    !(decide (490 ≤ edges / 800 % 525) && decide (edges / 800 % 525 < 492))
  vgaBlankN := decide (0 < edges) &&
    (decide (edges % 800 < 640) && decide (edges / 800 % 525 < 480))
  hCounter := BitVec.ofNat 10 (edges % 800)
  vCounter := BitVec.ofNat 10 (edges / 800 % 525)

theorem scanned_zero : scanned 0 = resetRegs := rfl

theorem scanned_hCounterIn (edges : ℕ) :
    (scanned edges).hCounterIn = BitVec.ofNat 10 ((edges + 1) % 800) := by
  simp only [hCounterIn, scanned, hTotal, ← BitVec.toNat_inj, BitVec.toNat_add,
    BitVec.toNat_ofNat]
  split_ifs <;> simp only [BitVec.toNat_add, BitVec.toNat_ofNat] <;> omega

theorem scanned_vCounterIn (edges : ℕ) :
    (scanned edges).vCounterIn = BitVec.ofNat 10 ((edges + 1) / 800 % 525) := by
  simp only [vCounterIn, scanned, hTotal, vTotal, ← BitVec.toNat_inj, BitVec.toNat_add,
    BitVec.toNat_ofNat]
  split_ifs <;> simp only [BitVec.toNat_add, BitVec.toNat_ofNat] <;> omega

theorem step_scanned (edges : ℕ) : (scanned edges).step false = scanned (edges + 1) := by
  have hcolumn : (BitVec.ofNat 10 ((edges + 1) % 800)).toNat = (edges + 1) % 800 := by
    rw [BitVec.toNat_ofNat]
    omega
  have hline : (BitVec.ofNat 10 ((edges + 1) / 800 % 525)).toNat = (edges + 1) / 800 % 525 := by
    rw [BitVec.toNat_ofNat]
    omega
  simp only [step, Bool.false_eq_true, if_false, scanned_hCounterIn, scanned_vCounterIn,
    BitVec.le_def, BitVec.lt_def, hcolumn, hline, BitVec.toNat_ofNat]
  simp [scanned]

theorem scanned_vgaVs_eq_false_iff (edges : ℕ) :
    (scanned edges).vgaVs = false ↔
      edges = 0 ∨ edges / 800 % 525 = 490 ∨ edges / 800 % 525 = 491 := by
  simp only [scanned, Bool.and_eq_false_iff, decide_eq_false_iff_not, Bool.not_eq_false',
    Bool.and_eq_true, decide_eq_true_eq]
  omega

theorem scanned_drawY_toNat (edges : ℕ) : (scanned edges).drawY.toNat = edges / 800 % 525 := by
  simp only [drawY, scanned, BitVec.toNat_ofNat]
  omega

/-- The vertical pulse ends with the first edge after the reset and with the
first pixel of line 492. -/
theorem vgaVs_rises_iff (edges : ℕ) :
    ((scanned edges).vgaVs = false ∧ (scanned (edges + 1)).vgaVs = true) ↔
      edges = 0 ∨ (edges + 1) % 420000 = 393600 := by
  rw [← Bool.not_eq_false (scanned (edges + 1)).vgaVs, scanned_vgaVs_eq_false_iff,
    scanned_vgaVs_eq_false_iff]
  omega

end VgaController

namespace BoardRun

open Galaga.Core VgaController

variable (board : BoardRun)

/-- The game on the board, from the release of the reset on. -/
def run : Run where
  state := fun k => (board.state (board.held + k)).game
  frameClk := fun k => (board.state (board.held + k)).vga.vgaVs
  keycode := fun k => (board.input (board.held + k)).keycode
  start := by
    have hseveral := board.several
    obtain ⟨last, hlast⟩ : ∃ last, board.held = last + 1 :=
      Nat.exists_eq_succ_of_ne_zero (by omega)
    refine ⟨(board.state last).game,
      ⟨(board.state last).resetH, (board.state last).vga.vgaVs, (board.input last).keycode⟩,
      ?_, ?_⟩
    · change (board.state last).resetH = true
      rw [board.resetH]
      simp [hlast]
    · rw [Nat.add_zero, hlast, board.next]
      rfl
  next := fun k => by
    have hreleased : (board.state (board.held + k)).resetH = false := by
      rw [board.resetH]
      simp
    rw [← Nat.add_assoc, board.next, Lab8.step, hreleased]

/-- One if `VGA_CLK` rises with the first edge after the release. -/
def phase : ℕ := (board.input board.held).vgaClk.toNat

theorem vgaClk_eq (k : ℕ) :
    (board.input (board.held + k)).vgaClk = decide ((k + board.phase) % 2 = 1) := by
  induction k with
  | zero =>
      unfold phase
      cases (board.input board.held).vgaClk <;> simp
  | succ k ih =>
      rw [← Nat.add_assoc, board.everySecond, ih, ← decide_not]
      congr 1
      apply propext
      omega

/-- The last edge of `VGA_CLK` in reset clears the counters. -/
theorem vga_held : (board.state board.held).vga = scanned 0 := by
  have hseveral := board.several
  obtain ⟨last, hlast⟩ : ∃ last, board.held = last + 2 := ⟨board.held - 2, by omega⟩
  have hheld : ∀ n < last + 2, (board.state n).resetH = true := by
    intro n hn
    rw [board.resetH, hlast]
    simpa using hn
  have hfirst := hheld last (by omega)
  have hsecond := hheld (last + 1) (by omega)
  have hclk := board.everySecond last
  -- one of any two adjacent edges is an edge of `VGA_CLK`
  rw [hlast, board.next, Lab8.step, hsecond, board.next, Lab8.step, hfirst]
  cases h : (board.input last).vgaClk with
  | true =>
      rw [h] at hclk
      simp [hclk, VgaController.step, scanned_zero]
  | false =>
      rw [h] at hclk
      simp [hclk, VgaController.step, scanned_zero]

/-- The scan position `k` cycles after the release. -/
theorem vga_eq (k : ℕ) :
    (board.state (board.held + k)).vga = scanned ((k + board.phase) / 2) := by
  induction k with
  | zero =>
      have hphase : (0 + board.phase) / 2 = 0 := by
        have hle := Bool.toNat_le (board.input board.held).vgaClk
        unfold phase
        omega
      rw [hphase]
      exact board.vga_held
  | succ k ih =>
      have hreleased : (board.state (board.held + k)).resetH = false := by
        rw [board.resetH]
        simp
      rw [← Nat.add_assoc, board.next, Lab8.step, hreleased, ih, board.vgaClk_eq]
      by_cases hedge : (k + board.phase) % 2 = 1
      · have hedges : (k + 1 + board.phase) / 2 = (k + board.phase) / 2 + 1 := by omega
        simp only [hedge, decide_true, if_true, step_scanned, hedges]
      · have hedges : (k + 1 + board.phase) / 2 = (k + board.phase) / 2 := by omega
        simp [hedge, hedges]

theorem line_eq (k : ℕ) :
    board.line (board.held + k) = (k + board.phase) / 2 / 800 % 525 := by
  rw [line, board.vga_eq, scanned_drawY_toNat]

/-- After the first line a cycle is a frame tick exactly if it is the second
one of the first pixel of line 492. -/
theorem tick_iff {k : ℕ} (hline : 800 ≤ (k + board.phase) / 2) :
    board.tick (board.held + k) = true ↔ (k + board.phase) % 840000 = 787201 := by
  obtain ⟨j, rfl⟩ : ∃ j, k = j + 2 := ⟨k - 2, by
    have hphase : board.phase ≤ 1 := Bool.toNat_le _
    omega⟩
  have htick : board.tick (board.held + (j + 2)) =
      ((board.state (board.held + (j + 1))).vga.vgaVs &&
        !(board.state (board.held + j)).vga.vgaVs) := board.run.tick_add_two j
  rw [htick, board.vga_eq, board.vga_eq, Bool.and_eq_true, Bool.not_eq_true', and_comm]
  by_cases hedge : (j + board.phase) % 2 = 1
  · have hedges : (j + 1 + board.phase) / 2 = (j + board.phase) / 2 + 1 := by omega
    rw [hedges, vgaVs_rises_iff]
    omega
  · have hedges : (j + 1 + board.phase) / 2 = (j + board.phase) / 2 := by omega
    rw [hedges]
    constructor
    · rintro ⟨hlow, hhigh⟩
      rw [hlow] at hhigh
      cases hhigh
    · omega

/-- Ticks and the cycles in which they can still have an effect fall in line
492. -/
theorem idle_of_line_lt {k : ℕ} (i : ℕ) (hline : 800 ≤ (k + board.phase) / 2)
    (hdrawn : board.line (board.held + k) < 480) (hi : i ≤ 3) :
    board.tick (board.held + (k - i)) = false := by
  rw [board.line_eq] at hdrawn
  rw [Bool.eq_false_iff]
  intro htick
  by_cases hearly : 800 ≤ (k - i + board.phase) / 2
  · rw [board.tick_iff hearly] at htick
    omega
  · -- the first cycles of line 1
    obtain ⟨j, hj⟩ : ∃ j, k - i = j + 2 := ⟨k - i - 2, by
      have hphase : board.phase ≤ 1 := Bool.toNat_le _
      omega⟩
    have hrise : board.tick (board.held + (j + 2)) =
        ((board.state (board.held + (j + 1))).vga.vgaVs &&
          !(board.state (board.held + j)).vga.vgaVs) := board.run.tick_add_two j
    rw [hj, hrise, Bool.and_eq_true, Bool.not_eq_true', board.vga_eq j,
      scanned_vgaVs_eq_false_iff] at htick
    have hphase : board.phase ≤ 1 := Bool.toNat_le _
    omega

/-- Any stretch as long as a frame has exactly one tick. -/
theorem existsUnique_tick {k : ℕ} (hline : 800 ≤ (k + board.phase) / 2) :
    ∃! t, board.held + k ≤ t ∧ t < board.held + k + 2 * (800 * 525) ∧ board.tick t = true := by
  have hahead : ∃ j < 840000, (k + j + board.phase) % 840000 = 787201 := by
    refine ⟨(787201 + 840000 - (k + board.phase) % 840000) % 840000,
      Nat.mod_lt _ (by omega), ?_⟩
    omega
  obtain ⟨j, hj, htick⟩ := hahead
  refine ⟨board.held + (k + j), ⟨by omega, by omega, ?_⟩, ?_⟩
  · rw [board.tick_iff (by omega)]
    exact htick
  · rintro t ⟨hlow, hhigh, htick'⟩
    obtain ⟨j', rfl⟩ := Nat.exists_eq_add_of_le hlow
    rw [Nat.add_assoc, board.tick_iff (by omega)] at htick'
    omega

/-- Without reset, once the first line has been scanned, nothing visible changes
while a line is drawn, and each frame of 800 by 525 pixels has exactly one
tick, in the vertical blanking. -/
theorem no_tearing {m n : ℕ} (hreleased : board.held ≤ m) (hscanned : board.line m ≠ 0)
    (hn : m ≤ n) :
    (board.line n < 480 → (board.core n).Unmoved (board.core (n + 1))) ∧
      (∃! t, n ≤ t ∧ t < n + 2 * (800 * 525) ∧ board.tick t = true) ∧
      (board.tick n = true → board.line n = 492) := by
  obtain ⟨l, rfl⟩ := Nat.exists_eq_add_of_le hreleased
  obtain ⟨more, rfl⟩ := Nat.exists_eq_add_of_le hn
  rw [board.line_eq] at hscanned
  rw [Nat.add_assoc]
  have hline : 800 ≤ (l + more + board.phase) / 2 := by omega
  refine ⟨fun hdrawn => ?_, ?_, fun htick => ?_⟩
  · -- the last tick is more than three cycles ago
    have hcalm : (board.run.core (l + more)).Calm := by
      have hphase : board.phase ≤ 1 := Bool.toNat_le _
      obtain ⟨before, hbefore⟩ : ∃ before, l + more = before + 3 := ⟨l + more - 3, by omega⟩
      rw [hbefore]
      apply board.run.calm_of_idle
      intro i hi
      have hidle := board.idle_of_line_lt (3 - i) hline hdrawn (by omega)
      rw [hbefore, show before + 3 - (3 - i) = before + i by omega] at hidle
      exact hidle
    have hidle := board.idle_of_line_lt 0 hline hdrawn (by omega)
    have hunmoved := hcalm.unmoved (board.run.inv (l + more)) (board.run.keycode (l + more))
    change (board.run.core (l + more)).Unmoved (board.run.core (l + more + 1))
    rw [board.run.core_succ]
    change board.run.tick (l + more) = false at hidle
    rw [hidle]
    exact hunmoved
  · exact board.existsUnique_tick hline
  · rw [board.tick_iff hline] at htick
    rw [board.line_eq]
    omega

/-- The board after the shortest reset, with a key code for each cycle. -/
def ofKeys (keycode : ℕ → Keycode) : BoardRun where
  state := fun n => Nat.rec ⟨true, resetRegs, ⟨Core.resetRegs, fun _ => ⟨false, false⟩⟩⟩
    (fun m board => board.step ⟨decide (1 ≤ m), m % 2 == 0, keycode m⟩) n
  input := fun n => ⟨decide (1 ≤ n), n % 2 == 0, keycode n⟩
  held := 2
  several := le_rfl
  resetH := fun n => by
    match n with
    | 0 => rfl
    | n + 1 =>
        change (!decide (1 ≤ n)) = decide (n + 1 < 2)
        rw [← decide_not]
        congr 1
        apply propext
        omega
  everySecond := fun n => by
    rw [Bool.eq_iff_iff, Bool.not_eq_true', beq_iff_eq, beq_eq_false_iff_ne]
    omega
  next := fun _ => rfl

/-- With Space held, the second line is drawn without a change. -/
theorem no_tearing_second_line :
    ((ofKeys fun _ => keySpace).line 1602 < 480 →
        ((ofKeys fun _ => keySpace).core 1602).Unmoved
          ((ofKeys fun _ => keySpace).core (1602 + 1))) ∧
      (∃! t, 1602 ≤ t ∧ t < 1602 + 2 * (800 * 525) ∧
        (ofKeys fun _ => keySpace).tick t = true) ∧
      ((ofKeys fun _ => keySpace).tick 1602 = true →
        (ofKeys fun _ => keySpace).line 1602 = 492) := by
  have hline : (ofKeys fun _ => keySpace).line 1602 = 1 :=
    (ofKeys fun _ => keySpace).line_eq 1600
  exact no_tearing (ofKeys fun _ => keySpace) (show 2 ≤ 1602 by omega) (by rw [hline]; decide)
    le_rfl

end BoardRun

end Galaga
