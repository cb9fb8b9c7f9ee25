import Galaga.Model.Basic

/-! # The player's laser: `laser.sv` -/

namespace Galaga

/-- The registers of `user_laser`. -/
structure UserLaser where
  xPos : Coord
  yPos : Coord
  yMotion : Coord
  spacePressed : Bool
deriving DecidableEq, Repr

namespace UserLaser

def xCenter : Coord := 320#10
def yMax : Coord := 479#10
def yStep : Coord := 4#10

/-- The registers while `Reset` is high. -/
def resetRegs : UserLaser where
  xPos := xCenter
  yPos := yMax
  yMotion := 0#10
  spacePressed := false

/-- The laser under the ship, waiting for Space. -/
def parked (userX userY : Coord) : UserLaser where
  xPos := userX + 5#10
  yPos := userY + 2#10
  yMotion := 0#10
  spacePressed := false

/-- The laser brought back to the ship after a hit or at the end of a flight.
It keeps the upward motion. -/
def relaunched (userX userY : Coord) (spacePressed : Bool) : UserLaser where
  xPos := userX + 8#10
  yPos := userY + 2#10
  yMotion := ~~~yStep + 1#10
  spacePressed := spacePressed

/-- The frame-tick branch before the key is looked at. `old_X_Pos` still has
its default, the laser's own X, where it is read. -/
def frameMove (keycode : Keycode) (userX userY : Coord) (laser : UserLaser) : UserLaser :=
  if laser.spacePressed then
    if yMax ≤ laser.yPos ∧ keycode = keySpace then relaunched userX userY true
    else if yMax ≤ laser.yPos then { laser with spacePressed := false }
    else
      { xPos := laser.xPos
        yPos := laser.yPos + laser.yMotion
        yMotion := ~~~yStep + 1#10
        spacePressed := true }
  else parked userX userY

/-- The `always_comb` block. -/
def next (play bossFight laserHit frameClkRisingEdge : Bool) (keycode : Keycode)
    (userX userY : Coord) (laser : UserLaser) : UserLaser :=
  if play = false ∧ bossFight = false then parked userX userY
  else if laserHit ∧ keycode = keySpace then relaunched userX userY true
  else if laserHit then relaunched userX userY false
  else if frameClkRisingEdge then
    if keycode = keySpace then
      { laser.frameMove keycode userX userY with spacePressed := true }
    else laser.frameMove keycode userX userY
  else laser

/-- One `Clk` edge of the register block. -/
def step (reset play bossFight laserHit frameClkRisingEdge : Bool) (keycode : Keycode)
    (userX userY : Coord) (laser : UserLaser) : UserLaser :=
  if reset then resetRegs
  else laser.next play bossFight laserHit frameClkRisingEdge keycode userX userY

end UserLaser

end Galaga
