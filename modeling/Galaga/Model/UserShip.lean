import Galaga.Model.Basic

/-! # The player's ship: `user_ship.sv`

A `UserShip.Run` is a run of the module on its own: it starts at the `Clk` edge
of a reset and has no further reset.
-/

namespace Galaga

/-- The position and motion registers of `user_ship`. -/
structure UserShip where
  xPos : Coord
  yPos : Coord
  xMotion : Coord
  yMotion : Coord
deriving DecidableEq, Repr

namespace UserShip

def xCenter : Coord := 320#10
def xMin : Coord := 0#10
def xMax : Coord := 639#10
def yMax : Coord := 479#10
def xStep : Coord := 2#10
def size : Coord := 40#10

/-- The registers while `Reset` is high. -/
def resetRegs : UserShip where
  xPos := xCenter
  yPos := yMax - size
  xMotion := xStep
  yMotion := 0#10

/-- The `unique case` on the key code. -/
def keyMotion (keycode : Keycode) : Coord :=
  if keycode = keyA then ~~~xStep + 1#10
  else if keycode = keyD then xStep
  else 0#10

/-- The edge tests, which override the motion chosen by the key. -/
def xMotionIn (keycode : Keycode) (ship : UserShip) : Coord :=
  if xMax ≤ ship.xPos + size then ~~~xStep + 1#10
  else if ship.xPos ≤ xMin then xStep
  else keyMotion keycode

/-- The `always_comb` block: the position moves by the old motion. -/
def next (frameClkRisingEdge : Bool) (keycode : Keycode) (ship : UserShip) : UserShip :=
  if frameClkRisingEdge then
    { xPos := ship.xPos + ship.xMotion
      yPos := ship.yPos + ship.yMotion
      xMotion := xMotionIn keycode ship
      yMotion := 0#10 }
  else ship

/-- One `Clk` edge of the register block. -/
def step (reset frameClkRisingEdge : Bool) (keycode : Keycode) (ship : UserShip) : UserShip :=
  if reset then resetRegs else ship.next frameClkRisingEdge keycode

/-- A run of `user_ship` with arbitrary `frame_clk` and `keycode`. No reset
reaches the edge detector, so it starts anywhere. -/
structure Run where
  ship : ℕ → UserShip
  detector : ℕ → EdgeDetector
  frameClk : ℕ → Bool
  keycode : ℕ → Keycode
  start : ∃ (before : UserShip) (edge : Bool) (key : Keycode), ship 0 = before.step true edge key
  next : ∀ n, ship (n + 1) = (ship n).step false (detector n).frameClkRisingEdge (keycode n)
  sample : ∀ n, detector (n + 1) = (detector n).step (frameClk n)

/-- Cycle `n` is a frame tick. -/
def Run.tick (run : Run) (n : ℕ) : Bool := (run.detector n).frameClkRisingEdge

end UserShip

end Galaga
