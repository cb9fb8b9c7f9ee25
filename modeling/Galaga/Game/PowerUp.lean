import Galaga.Game.Tearing

/-! # After a reset

No reset reaches the edge detectors, and the scan counters are reset by edges of
`VGA_CLK` only. All the same nothing of what the registers held at power-up is
left when the reset is released, one cycle later at the latest.
-/

namespace Galaga.BoardRun

open VgaController

variable (board : BoardRun)

theorem detector_succ (n : ℕ) (owner : ModuleName) :
    (board.state (n + 1)).game.detector owner =
      ((board.state n).game.detector owner).step (board.state n).vga.vgaVs := by
  rw [board.next]
  rfl

theorem resetH_of_le {n : ℕ} (hreleased : board.held ≤ n) : (board.state n).resetH = false := by
  rw [board.resetH]
  simpa using hreleased

/-- The vertical pulse does not rise in reset. -/
theorem vgaVs_of_held {n : ℕ} (hheld : n < board.held) :
    ((board.state (n + 1)).vga.vgaVs && !(board.state n).vga.vgaVs) = false := by
  have hreset : (board.state n).resetH = true := by
    rw [board.resetH]
    exact decide_eq_true hheld
  rw [board.next, Lab8.step, hreset]
  dsimp only
  split
  · rfl
  · exact Bool.and_not_self _

/-- There is no tick in the first two cycles after the release. -/
theorem not_tick_of_lt_two {k : ℕ} (hk : k < 2) : board.run.tick k = false := by
  have hseveral := board.several
  obtain ⟨n, hn⟩ : ∃ n, board.held + k = n + 2 := ⟨board.held + k - 2, by omega⟩
  change ((board.state (board.held + k)).game.detector .userShip).frameClkRisingEdge = false
  rw [hn, detector_succ, EdgeDetector.step_rising, detector_succ]
  by_cases hheld : n < board.held
  · -- the pulse did not rise at the edge before
    by_cases hlast : n + 1 = board.held
    · have hlow : (board.state board.held).vga.vgaVs = false := by
        rw [board.vga_held]
        rfl
      rw [hlast, hlow, Bool.false_and]
    · exact board.vgaVs_of_held hheld
  · omega

/-- The edge detectors two cycles after the release. -/
theorem detector_eq (k : ℕ) (owner : ModuleName) :
    (board.state (board.held + k + 1)).game.detector owner =
      ⟨(scanned ((k + board.phase) / 2)).vgaVs,
        (scanned ((k + board.phase) / 2)).vgaVs &&
          !(scanned ((k - 1 + board.phase) / 2)).vgaVs⟩ := by
  rw [detector_succ, board.vga_eq]
  have hphase : board.phase ≤ 1 := Bool.toNat_le _
  cases k with
  | zero =>
      have hstart : (0 + board.phase) / 2 = 0 := by omega
      rw [hstart]
      rfl
  | succ k =>
      rw [← Nat.add_assoc, detector_succ, board.vga_eq]
      rfl

variable {board} {other : BoardRun} (hphase : board.phase = other.phase)
  (hkeys : ∀ k, (board.input (board.held + k)).keycode = (other.input (other.held + k)).keycode)
include hphase hkeys

theorem core_eq_of_keys (k : ℕ) : board.run.core k = other.run.core k := by
  induction k with
  | zero => rw [Run.core_zero, Run.core_zero]
  | succ k ih =>
      have hkey : board.run.keycode k = other.run.keycode k := hkeys k
      have htick : board.run.tick k = other.run.tick k := by
        by_cases hk : k < 2
        · rw [board.not_tick_of_lt_two hk, other.not_tick_of_lt_two hk]
        · obtain ⟨n, rfl⟩ : ∃ n, k = n + 2 := ⟨k - 2, by omega⟩
          have hclk : ∀ m, board.run.frameClk m = other.run.frameClk m := by
            intro m
            change (board.state (board.held + m)).vga.vgaVs =
              (other.state (other.held + m)).vga.vgaVs
            rw [board.vga_eq, other.vga_eq, hphase]
          rw [Run.tick_add_two, Run.tick_add_two, hclk, hclk]
      rw [Run.core_succ, Run.core_succ, ih, htick, hkey]

/-- Two boards that are given the same keys after the reset have the same
registers from the cycle after the release on, whatever they held before it
and however long it was. -/
theorem reset_erases_past (k : ℕ) :
    board.state (board.held + k + 1) = other.state (other.held + k + 1) := by
  have hcore : (board.state (board.held + k + 1)).game.core =
      (other.state (other.held + k + 1)).game.core := core_eq_of_keys hphase hkeys (k + 1)
  have hvga : (board.state (board.held + k + 1)).vga =
      (other.state (other.held + k + 1)).vga := by
    rw [Nat.add_assoc, Nat.add_assoc, board.vga_eq, other.vga_eq, hphase]
  have hdetector : (board.state (board.held + k + 1)).game.detector =
      (other.state (other.held + k + 1)).game.detector := by
    funext owner
    rw [board.detector_eq, other.detector_eq, hphase]
  have hresetH := board.resetH_of_le (Nat.le_succ_of_le (Nat.le_add_right board.held k))
  have hresetH' := other.resetH_of_le (Nat.le_succ_of_le (Nat.le_add_right other.held k))
  calc board.state (board.held + k + 1)
      = ⟨false, (board.state (board.held + k + 1)).vga,
          ⟨(board.state (board.held + k + 1)).game.core,
            (board.state (board.held + k + 1)).game.detector⟩⟩ := by rw [← hresetH]
    _ = other.state (other.held + k + 1) := by rw [hvga, hcore, hdetector, ← hresetH']

omit hphase hkeys

/-- The board after the shortest reset, from these registers. -/
def ofPowerUp (vga : VgaController) (game : Game) (keycode : ℕ → Keycode) : BoardRun :=
  { ofKeys keycode with
    state := fun n => Nat.rec ⟨true, vga, game⟩
      (fun m board => board.step ((ofKeys keycode).input m)) n
    resetH := fun n => by
      cases n with
      | zero => rfl
      | succ n => exact (ofKeys keycode).resetH (n + 1)
    next := fun _ => rfl }

/-- Pulses that were high and detectors that had seen them are forgotten. -/
theorem reset_erases_past_of_high :
    (ofKeys fun _ => keySpace).state (2 + 5 + 1) =
      (ofPowerUp ⟨true, true, true, 700#10, 491#10⟩
        ⟨Core.resetRegs, fun _ => ⟨true, true⟩⟩ fun _ => keySpace).state (2 + 5 + 1) :=
  reset_erases_past rfl (fun _ => rfl) 5

end Galaga.BoardRun
