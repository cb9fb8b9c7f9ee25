import Mathlib.Data.Fin.VecNotation
import Galaga.Model.Basic

/-! # The enemies: `hit_controller.sv`, `enemy-ship.sv` and `eship_row.sv`

An `EnemyShip.Run` is a run of one `enemy_ship` on its own, with everything that
the game feeds it left free.
-/

namespace Galaga

/-- The overlap test that `hit_controller` and `hit_controller_boss` both
spell out: in each axis one end of the laser, bounds included, lies between
the ends of the ship. Every sum wraps at 10 bits. -/
def overlap (shipSize laserXSize laserYSize shipX shipY laserX laserY : Coord) : Bool :=
  ((decide (shipX ≤ laserX) && decide (laserX ≤ shipX + shipSize)) ||
    (decide (shipX ≤ laserX + laserXSize) && decide (laserX + laserXSize ≤ shipX + shipSize))) &&
  ((decide (shipY ≤ laserY) && decide (laserY ≤ shipY + shipSize)) ||
    (decide (shipY ≤ laserY + laserYSize) && decide (laserY + laserYSize ≤ shipY + shipSize)))

namespace HitController

def enemyShipSize : Coord := 30#10
def laserXSize : Coord := 20#10
def laserYSize : Coord := 49#10

/-- The combinational `temp`, which also drives `laser_hit`. -/
def temp (shipX shipY laserX laserY : Coord) : Bool :=
  overlap enemyShipSize laserXSize laserYSize shipX shipY laserX laserY

/-- The `enemy_hit` register outside reset. -/
def next (done temp enemyHit : Bool) : Bool :=
  if done then false
  else if enemyHit = false then temp
  else true

end HitController

/-- The registers of one `enemy_ship`, with the `enemy_hit` register of its
hit controller. -/
structure EnemyShip where
  xPos : Coord
  yPos : Coord
  xMotion : Coord
  yMotion : Coord
  enemyHit : Bool
deriving DecidableEq, Repr

namespace EnemyShip

def xMin : Coord := 0#10
def xMax : Coord := 639#10
def yMax : Coord := 479#10
def xStep : Coord := 1#10
def yStep : Coord := 1#10
def size : Coord := 30#10
def userShipSize : Coord := 40#10

/-- The lowest row an enemy may reach, at which it ends the game. -/
def bottomRow : Coord := yMax - userShipSize - size

/-- The home registers, taken in reset and whenever the ship is not in play. -/
def home (enemyXPos enemyYPos : Coord) (enemyHit : Bool) : EnemyShip where
  xPos := enemyXPos
  yPos := enemyYPos
  xMotion := xStep
  yMotion := 0#10
  enemyHit := enemyHit

/-- The `gameover` output. -/
def gameover (play : Bool) (ship : EnemyShip) : Bool :=
  play && decide (bottomRow ≤ ship.yPos)

/-- The overlap of this ship with the laser, whatever the ship's state. -/
def laserHitTemp (laserX laserY : Coord) (ship : EnemyShip) : Bool :=
  HitController.temp ship.xPos ship.yPos laserX laserY

/-- The `laser_hit` output. -/
def laserHit (play : Bool) (laserX laserY : Coord) (ship : EnemyShip) : Bool :=
  ship.laserHitTemp laserX laserY && play

/-- The `count` output. -/
def count (ship : EnemyShip) : BitVec 5 :=
  if ship.enemyHit then 1#5 else 0#5

/-- `enemy_ship_X_Motion_in` at a frame tick. -/
def xMotionIn (ship : EnemyShip) : Coord :=
  if xMax ≤ ship.xPos + size then ~~~yStep + 1#10
  else if ship.xPos ≤ xMin + 1#10 then xStep
  else ship.xMotion

/-- `enemy_ship_Y_Motion_in` at a frame tick. -/
def yMotionIn (ship : EnemyShip) : Coord :=
  if xMax ≤ ship.xPos + size then 10#10
  else if ship.xPos ≤ xMin + 1#10 then 10#10
  else 0#10

/-- The position and motion part of the `always_comb` block. The bottom row is
tested before `enemy_hit`, and both before the frame tick. -/
def next (enemyXPos enemyYPos : Coord) (play frameClkRisingEdge : Bool) (ship : EnemyShip) :
    EnemyShip :=
  if play = false then home enemyXPos enemyYPos ship.enemyHit
  else if bottomRow ≤ ship.yPos then home enemyXPos enemyYPos ship.enemyHit
  else if ship.enemyHit then
    { ship with xPos := 639#10, yPos := 0#10, xMotion := 0#10, yMotion := 0#10 }
  else if frameClkRisingEdge then
    { ship with
      xPos := ship.xPos + ship.xMotion
      yPos := ship.yPos + ship.yMotion
      xMotion := ship.xMotionIn
      yMotion := ship.yMotionIn }
  else ship

/-- One `Clk` edge of the ship and of its hit controller. -/
def step (enemyXPos enemyYPos : Coord) (reset play done frameClkRisingEdge : Bool)
    (laserX laserY : Coord) (ship : EnemyShip) : EnemyShip :=
  if reset then home enemyXPos enemyYPos false
  else
    { ship.next enemyXPos enemyYPos play frameClkRisingEdge with
      enemyHit := HitController.next done (ship.laserHitTemp laserX laserY) ship.enemyHit }

/-- The inputs of `enemy_ship`, apart from the frame tick. -/
structure Input where
  reset : Bool
  play : Bool
  done : Bool
  laserX : Coord
  laserY : Coord
deriving DecidableEq, Repr

/-- A run of `enemy_ship` with the given home, from arbitrary registers and with
arbitrary inputs. -/
structure Run (enemyXPos enemyYPos : Coord) where
  ship : ℕ → EnemyShip
  detector : ℕ → EdgeDetector
  frameClk : ℕ → Bool
  input : ℕ → Input
  next : ∀ n, ship (n + 1) =
    (ship n).step enemyXPos enemyYPos (input n).reset (input n).play (input n).done
      (detector n).frameClkRisingEdge (input n).laserX (input n).laserY
  sample : ∀ n, detector (n + 1) = (detector n).step (frameClk n)

/-- Cycle `n` is a frame tick. -/
def Run.tick {enemyXPos enemyYPos : Coord} (run : Run enemyXPos enemyYPos) (n : ℕ) : Bool :=
  (run.detector n).frameClkRisingEdge

end EnemyShip

/-- One row of six enemy ships. -/
abbrev EshipRow := Fin 6 → EnemyShip

namespace EshipRow

/-- The home column of each of the six ships. -/
def enemyXPos : Fin 6 → Coord := ![50#10, 100#10, 150#10, 200#10, 250#10, 300#10]

def gameover (play : Bool) (row : EshipRow) : Bool :=
  (row 0).gameover play || (row 1).gameover play || (row 2).gameover play ||
    (row 3).gameover play || (row 4).gameover play || (row 5).gameover play

def scoreRow (row : EshipRow) : BitVec 5 :=
  (row 0).count + (row 1).count + (row 2).count + (row 3).count + (row 4).count + (row 5).count

def laserHitRow (play : Bool) (laserX laserY : Coord) (row : EshipRow) : Bool :=
  (row 0).laserHit play laserX laserY || (row 1).laserHit play laserX laserY ||
    (row 2).laserHit play laserX laserY || (row 3).laserHit play laserX laserY ||
    (row 4).laserHit play laserX laserY || (row 5).laserHit play laserX laserY

/-- The registers of a row in reset. -/
def resetRegs (yOffset : Coord) : EshipRow :=
  fun col => EnemyShip.home (enemyXPos col) yOffset false

/-- One `Clk` edge of a row. Each ship has its own edge detector. -/
def step (yOffset : Coord) (reset play done : Bool) (frameClkRisingEdge : Fin 6 → Bool)
    (laserX laserY : Coord) (row : EshipRow) : EshipRow :=
  fun col => (row col).step (enemyXPos col) yOffset reset play done (frameClkRisingEdge col)
    laserX laserY

end EshipRow

end Galaga
