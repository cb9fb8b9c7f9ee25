import Galaga.Model.EnemyShip

/-! # The boss: `boss.sv` and `hit_controller_boss.sv` -/

namespace Galaga

namespace HitControllerBoss

def enemyShipSize : Coord := 30#10
def laserXSize : Coord := 20#10
def laserYSize : Coord := 49#10

/-- The combinational `temp`, which also drives `laser_hit`. -/
def temp (shipX shipY laserX laserY : Coord) : Bool :=
  overlap enemyShipSize laserXSize laserYSize shipX shipY laserX laserY

/-- The `enemy_hit` register outside reset. Unlike the enemies' controller it
is held at zero outside the boss fight. -/
def next (bossFight done temp enemyHit : Bool) : Bool :=
  if bossFight then
    if done then false
    else if enemyHit = false then temp
    else true
  else false

end HitControllerBoss

/-- The registers of `boss`, with the `enemy_hit` register of its hit
controller. -/
structure Boss where
  xPos : Coord
  yPos : Coord
  xMotion : Coord
  yMotion : Coord
  enemyHit : Bool
deriving DecidableEq, Repr

namespace Boss

def xCenter : Coord := 320#10
def xMin : Coord := 0#10
def xMax : Coord := 639#10
def yMin : Coord := 0#10
def yMax : Coord := 479#10
def xStep : Coord := 5#10
def size : Coord := 30#10
def userShipSize : Coord := 40#10

/-- The lowest row the boss may reach, at which it ends the game. -/
def bottomRow : Coord := yMax - userShipSize - size

/-- The registers taken in reset and outside the boss fight. -/
def home (enemyHit : Bool) : Boss where
  xPos := xCenter
  yPos := yMin
  xMotion := xStep
  yMotion := 0#10
  enemyHit := enemyHit

/-- The `gameover` output. -/
def gameover (bossFight : Bool) (boss : Boss) : Bool :=
  bossFight && decide (bottomRow ≤ boss.yPos)

/-- The overlap of the boss with the laser, whatever the boss's state. -/
def laserHitTemp (laserX laserY : Coord) (boss : Boss) : Bool :=
  HitControllerBoss.temp boss.xPos boss.yPos laserX laserY

/-- The `laser_hit` output. -/
def laserHit (bossFight : Bool) (laserX laserY : Coord) (boss : Boss) : Bool :=
  boss.laserHitTemp laserX laserY && bossFight

/-- The `count` output. -/
def count (boss : Boss) : BitVec 5 :=
  if boss.enemyHit then 1#5 else 0#5

/-- `boss_X_Motion_in` at a frame tick: away from the walls Space reverses
the boss. -/
def xMotionIn (keycode : Keycode) (boss : Boss) : Coord :=
  if xMax ≤ boss.xPos + size then ~~~xStep + 1#10
  else if boss.xPos ≤ xMin + 1#10 then xStep
  else if keycode = keySpace then ~~~boss.xMotion + 1#10
  else boss.xMotion

/-- `boss_Y_Motion_in` at a frame tick. -/
def yMotionIn (keycode : Keycode) (boss : Boss) : Coord :=
  if xMax ≤ boss.xPos + size then 10#10
  else if boss.xPos ≤ xMin + 1#10 then 10#10
  else if keycode = keySpace then 2#10
  else 0#10

/-- The position and motion part of the `always_comb` block. -/
def next (bossFight frameClkRisingEdge : Bool) (keycode : Keycode) (boss : Boss) : Boss :=
  if bossFight = false then home boss.enemyHit
  else if bottomRow ≤ boss.yPos then home boss.enemyHit
  else if boss.enemyHit then
    { boss with xPos := 639#10, yPos := 0#10, xMotion := 0#10, yMotion := 0#10 }
  else if frameClkRisingEdge then
    { boss with
      xPos := boss.xPos + boss.xMotion
      yPos := boss.yPos + boss.yMotion
      xMotion := boss.xMotionIn keycode
      yMotion := boss.yMotionIn keycode }
  else boss

/-- One `Clk` edge of the boss and of its hit controller. -/
def step (reset bossFight done frameClkRisingEdge : Bool) (keycode : Keycode)
    (laserX laserY : Coord) (boss : Boss) : Boss :=
  if reset then home false
  else
    { boss.next bossFight frameClkRisingEdge keycode with
      enemyHit := HitControllerBoss.next bossFight done (boss.laserHitTemp laserX laserY)
        boss.enemyHit }

end Boss

end Galaga
