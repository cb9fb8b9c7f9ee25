import Galaga.Model.GameController
import Mathlib.Algebra.Order.Ring.Nat

/-! # The picture: `ram.sv`, the drawing logic and the color assignment

Every drawable module has its own copy of a sprite memory, whose output is a
register: the texel that a module shows was addressed in the cycle before.
-/

namespace Galaga

/-- A texel or a color: `logic [23:0]`. -/
abbrev Rgb := BitVec 24

/-- The contents of the three sprite memories, by address. -/
structure SpriteMemory where
  ship : ℕ → Rgb
  enemy : ℕ → Rgb
  laser : ℕ → Rgb

/-- What a sprite memory loads into `data_out`: black for an address past its
last one. -/
def readMemory {width : ℕ} (mem : ℕ → Rgb) (last : ℕ) (readAddress : BitVec width) : Rgb :=
  if readAddress.toNat ≤ last then mem readAddress.toNat else 0#24

def ShipRAM.read (mem : ℕ → Rgb) (readAddress : BitVec 11) : Rgb := readMemory mem 1600 readAddress

def EnemyRAM.read (mem : ℕ → Rgb) (readAddress : BitVec 10) : Rgb := readMemory mem 900 readAddress

def LaserRAM.read (mem : ℕ → Rgb) (readAddress : BitVec 10) : Rgb := readMemory mem 980 readAddress

namespace Drawing

/-- The texels that are not drawn. -/
def background : Rgb := 0x002000#24

/-- The scan position is in the rectangle. The sums wrap at 10 bits. -/
def inside (x y width height drawX drawY : Coord) : Bool :=
  decide (x ≤ drawX) && decide (drawX < x + width) &&
    decide (y ≤ drawY) && decide (drawY < y + height)

/-- The address of the texel under the scan position, computed at the width of
the variable that takes it. -/
def address (bits : ℕ) (x y width drawX drawY : Coord) : BitVec bits :=
  (drawY.setWidth bits - y.setWidth bits) * width.setWidth bits +
    (drawX.setWidth bits - x.setWidth bits)

end Drawing

open Drawing

section Modules

variable (data : Rgb) (drawX drawY : Coord)

namespace UserShip

variable (ship : UserShip)

def inside : Bool := Drawing.inside ship.xPos ship.yPos size size drawX drawY

/-- `user_ship_addr` -/
def addr : BitVec 11 :=
  if ship.inside drawX drawY then address 11 ship.xPos ship.yPos size drawX drawY else 0#11

/-- `is_user_ship` -/
def isUserShip : Bool :=
  if ship.inside drawX drawY then
    if data = background then false else true
  else false

end UserShip

namespace EnemyShip

variable (ship : EnemyShip)

def inside : Bool :=
  Drawing.inside ship.xPos ship.yPos size size drawX drawY && !ship.enemyHit

/-- `enemy_ship_addr` -/
def addr : BitVec 11 :=
  if ship.inside drawX drawY then address 11 ship.xPos ship.yPos size drawX drawY else 0#11

/-- `is_enemy_ship` -/
def isEnemyShip : Bool :=
  if ship.inside drawX drawY then
    if data = background then false else true
  else false

end EnemyShip

namespace Boss

variable (boss : Boss)

def inside : Bool :=
  Drawing.inside boss.xPos boss.yPos size size drawX drawY && !boss.enemyHit

/-- `boss_addr` -/
def addr : BitVec 11 :=
  if boss.inside drawX drawY then address 11 boss.xPos boss.yPos size drawX drawY else 0#11

/-- `is_boss` -/
def isBoss : Bool :=
  if boss.inside drawX drawY then
    if data = background then false else true
  else false

end Boss

namespace UserLaser

variable (laser : UserLaser)

def xSize : Coord := 20#10
def ySize : Coord := 49#10

def inside : Bool := Drawing.inside laser.xPos laser.yPos xSize ySize drawX drawY

/-- `laser_addr` -/
def addr : BitVec 10 :=
  if laser.inside drawX drawY then address 10 laser.xPos laser.yPos xSize drawX drawY else 0#10

/-- `is_laser` -/
def isLaser : Bool :=
  if laser.inside drawX drawY then
    if data = background then false else true && laser.spacePressed
  else false

end UserLaser

end Modules

/-- Red, green and blue: `color_data`. -/
def rgb (red green blue : BitVec 8) : Rgb := red ++ green ++ blue

/-- The color of a texel. The memories hold green before red. -/
def spriteColor (data : Rgb) : Rgb :=
  rgb (data.extractLsb' 8 8) (data.extractLsb' 16 8) (data.extractLsb' 0 8)

def screenColor : Rgb := rgb 0x20#8 0x00#8 0x00#8

def logoColor : Rgb := rgb 0xFF#8 0xFF#8 0xFF#8

/-- The outputs of the logo modules at the scan position. -/
structure Logos where
  isGalaga : Bool
  isPressStart : Bool
  isGameover : Bool
  isYouWin : Bool
  isBoss : Bool

namespace Core

/-- What the sprite memory of each module loads. The memory of the enemies and
of the boss takes ten bits of their eleven-bit address. -/
def load (memory : SpriteMemory) (drawX drawY : Coord) (core : Core) : ModuleName → Rgb
  | .userShip => ShipRAM.read memory.ship (core.ship.addr drawX drawY)
  | .enemyShip row col =>
      EnemyRAM.read memory.enemy (((core.enemy row col).addr drawX drawY).setWidth 10)
  | .boss => EnemyRAM.read memory.enemy ((core.boss.addr drawX drawY).setWidth 10)
  | .userLaser => LaserRAM.read memory.laser (core.laser.addr drawX drawY)

/-- The `is_…` output of each drawable module. -/
def isDrawn (data : ModuleName → Rgb) (drawX drawY : Coord) (core : Core) : ModuleName → Bool
  | .userShip => core.ship.isUserShip (data .userShip) drawX drawY
  | .enemyShip row col => (core.enemy row col).isEnemyShip (data (.enemyShip row col)) drawX drawY
  | .boss => core.boss.isBoss (data .boss) drawX drawY
  | .userLaser => core.laser.isLaser (data .userLaser) drawX drawY

-- Rows and columns of the formation are written as numerals below.
local instance neZero_rows : NeZero 3 := ⟨by decide⟩
local instance neZero_cols : NeZero 6 := ⟨by decide⟩

/-- The color assignment. -/
def colorData (logos : Logos) (data : ModuleName → Rgb) (drawX drawY : Coord) (core : Core) : Rgb :=
  let drawn := core.isDrawn data drawX drawY
  match core.state with
  | .start =>
      if logos.isGalaga then logoColor
      else if logos.isPressStart then logoColor
      else if drawn .userShip then spriteColor (data .userShip)
      else screenColor
  | .play =>
      if drawn .userShip then spriteColor (data .userShip)
      else if drawn .userLaser then spriteColor (data .userLaser)
      else if drawn (.enemyShip 0 0) then spriteColor (data (.enemyShip 0 0))
      else if drawn (.enemyShip 0 1) then spriteColor (data (.enemyShip 0 1))
      else if drawn (.enemyShip 0 2) then spriteColor (data (.enemyShip 0 2))
      else if drawn (.enemyShip 0 3) then spriteColor (data (.enemyShip 0 3))
      else if drawn (.enemyShip 0 4) then spriteColor (data (.enemyShip 0 4))
      else if drawn (.enemyShip 0 5) then spriteColor (data (.enemyShip 0 5))
      else if drawn (.enemyShip 1 0) then spriteColor (data (.enemyShip 1 0))
      else if drawn (.enemyShip 1 1) then spriteColor (data (.enemyShip 1 1))
      else if drawn (.enemyShip 1 2) then spriteColor (data (.enemyShip 1 2))
      else if drawn (.enemyShip 1 3) then spriteColor (data (.enemyShip 1 3))
      else if drawn (.enemyShip 1 4) then spriteColor (data (.enemyShip 1 4))
      else if drawn (.enemyShip 1 5) then spriteColor (data (.enemyShip 1 5))
      else if drawn (.enemyShip 2 0) then spriteColor (data (.enemyShip 2 0))
      else if drawn (.enemyShip 2 1) then spriteColor (data (.enemyShip 2 1))
      else if drawn (.enemyShip 2 2) then spriteColor (data (.enemyShip 2 2))
      else if drawn (.enemyShip 2 3) then spriteColor (data (.enemyShip 2 3))
      else if drawn (.enemyShip 2 4) then spriteColor (data (.enemyShip 2 4))
      else if drawn (.enemyShip 2 5) then spriteColor (data (.enemyShip 2 5))
      else screenColor
  | .bossLogo =>
      if logos.isBoss then logoColor
      else if logos.isPressStart then logoColor
      else screenColor
  | .bossFight =>
      if drawn .boss then spriteColor (data .boss)
      else if drawn .userShip then spriteColor (data .userShip)
      else if drawn .userLaser then spriteColor (data .userLaser)
      else screenColor
  | .gameover =>
      if logos.isGameover then logoColor
      else if logos.isPressStart then logoColor
      else screenColor
  | .win =>
      if logos.isYouWin then logoColor
      else if logos.isPressStart then logoColor
      else screenColor

end Core

/-- All registers of `game_controller`, the outputs of the sprite memories
among them. -/
structure Display where
  game : Game
  data : ModuleName → Rgb

namespace Display

/-- One `Clk` edge of `game_controller`. The memories have no reset. -/
def step (memory : SpriteMemory) (input : Input) (drawX drawY : Coord) (display : Display) :
    Display where
  game := display.game.step input
  data := display.game.core.load memory drawX drawY

/-- The output `color_data`. -/
def colorData (logos : Logos) (drawX drawY : Coord) (display : Display) : Rgb :=
  display.game.core.colorData logos display.data drawX drawY

end Display

end Galaga
