import Mathlib.Data.Fintype.Basic

/-! # Signals shared by every hardware module

Coordinates, key codes, and the two-register edge detector that each drawable
module keeps for itself.
-/

namespace Galaga

/-- A screen coordinate, a motion or a size: `logic [9:0]`, added and
subtracted modulo 1024 and compared unsigned. -/
abbrev Coord := BitVec 10

/-- The key code exported by the NIOS II system: `logic [7:0]`. -/
abbrev Keycode := BitVec 8

/-- A (go left). -/
def keyA : Keycode := 0x04#8

/-- D (go right). -/
def keyD : Keycode := 0x07#8

/-- Enter (move to the next screen). -/
def keyEnter : Keycode := 0x28#8

/-- Space (shoot the laser). -/
def keySpace : Keycode := 0x2C#8

/-- The registers `frame_clk_delayed` and `frame_clk_rising_edge`. No reset
reaches them. -/
structure EdgeDetector where
  frameClkDelayed : Bool
  frameClkRisingEdge : Bool
deriving DecidableEq, Repr

/-- One `Clk` edge of the detector: a rising edge of `frame_clk` is reported
in the cycle after it was sampled. -/
def EdgeDetector.step (frameClk : Bool) (detector : EdgeDetector) : EdgeDetector where
  frameClkDelayed := frameClk
  frameClkRisingEdge := frameClk && !detector.frameClkDelayed

@[simp] theorem EdgeDetector.step_rising (frameClk : Bool) (detector : EdgeDetector) :
    (detector.step frameClk).frameClkRisingEdge = (frameClk && !detector.frameClkDelayed) := rfl

/-- A detector of a `frame_clk` that rises in every other cycle. -/
def EdgeDetector.alternating (n : ℕ) : EdgeDetector where
  frameClkDelayed := n % 2 == 1
  frameClkRisingEdge := n % 2 == 1

theorem EdgeDetector.alternating_succ (n : ℕ) :
    alternating (n + 1) = (alternating n).step (n % 2 == 0) := by
  have hdelayed : ((n + 1) % 2 == 1) = (n % 2 == 0) := by
    rw [Bool.eq_iff_iff, beq_iff_eq, beq_iff_eq]
    omega
  have hrising : ((n + 1) % 2 == 1) = (n % 2 == 0 && !(n % 2 == 1)) := by
    rw [Bool.eq_iff_iff, Bool.and_eq_true, Bool.not_eq_true', beq_iff_eq, beq_iff_eq,
      beq_eq_false_iff_ne]
    omega
  exact congrArg₂ mk hdelayed hrising

end Galaga
