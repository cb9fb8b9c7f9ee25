import Galaga.Model.Boss
import Galaga.Model.UserLaser
import Galaga.Model.UserShip

/-! # The game: `signal_controller.sv` and `game_controller.sv`

`Core` holds the game registers of all modules, `Game` adds the edge detector
of each of the twenty-one modules that has one. A `Run` starts at the `Clk`
edge of a reset and has no further reset.
-/

namespace Galaga

/-- The `enum` of `signal_controller`. -/
inductive State where
  | start
  | play
  | bossLogo
  | bossFight
  | gameover
  | win
deriving DecidableEq, Repr

namespace State

/-- The next state logic. -/
def next (keycode : Keycode) (died killedAll1 killedAll2 : Bool) : State → State
  | start => if keycode = keyEnter then play else start
  | play => if died then gameover else if killedAll1 then bossLogo else play
  | bossLogo => if keycode = keyEnter then bossFight else bossLogo
  | bossFight => if died then gameover else if killedAll2 then win else bossFight
  | gameover => if keycode = keyEnter then start else gameover
  | win => if keycode = keyEnter then start else win

/-- One `Clk` edge of the state register. -/
def step (reset : Bool) (keycode : Keycode) (died killedAll1 killedAll2 : Bool) (state : State) :
    State :=
  if reset then start else state.next keycode died killedAll1 killedAll2

end State

/-- The modules of `game_controller` that hold an edge detector. -/
inductive ModuleName where
  | userShip
  | enemyShip (row : Fin 3) (col : Fin 6)
  | boss
  | userLaser
deriving DecidableEq, Repr

/-- The game registers. -/
@[ext]
structure Core where
  state : State
  ship : UserShip
  rows : Fin 3 → EshipRow
  boss : Boss
  laser : UserLaser

/-- The inputs of `game_controller` that its registers depend on. -/
structure Input where
  reset : Bool
  frameClk : Bool
  keycode : Keycode
deriving DecidableEq, Repr

namespace Core

/-- The `y_offset` of each row. -/
def yOffset : Fin 3 → Coord := ![0#10, 80#10, 160#10]

section Signals

variable (core : Core)

/-- The enemy in column `col` of row `row`. -/
def enemy (row : Fin 3) (col : Fin 6) : EnemyShip := core.rows row col

/-- The output `play` of `signal_controller`. -/
def play : Bool := core.state == State.play

/-- The output `boss_fight` of `signal_controller`. -/
def bossFight : Bool := core.state == State.bossFight

def score : BitVec 5 :=
  (core.rows 0).scoreRow + (core.rows 1).scoreRow + (core.rows 2).scoreRow + core.boss.count

def killedAll1 : Bool := core.score == 0x12#5

def killedAll2 : Bool := core.score == 0x13#5

def died : Bool :=
  (core.rows 0).gameover core.play || (core.rows 1).gameover core.play ||
    (core.rows 2).gameover core.play || core.boss.gameover core.bossFight

def done : Bool := core.died || core.score == 0x13#5

def laserHit : Bool :=
  (core.rows 0).laserHitRow core.play core.laser.xPos core.laser.yPos ||
    (core.rows 1).laserHitRow core.play core.laser.xPos core.laser.yPos ||
    (core.rows 2).laserHitRow core.play core.laser.xPos core.laser.yPos ||
    core.boss.laserHit core.bossFight core.laser.xPos core.laser.yPos

end Signals

/-- One `Clk` edge of all game registers. Each module reads its own edge
detector. -/
def step (reset : Bool) (keycode : Keycode) (frameClkRisingEdge : ModuleName → Bool) (core : Core) :
    Core where
  state := core.state.step reset keycode core.died core.killedAll1 core.killedAll2
  ship := core.ship.step reset (frameClkRisingEdge .userShip) keycode
  rows := fun row => (core.rows row).step (yOffset row) reset core.play core.done
    (fun col => frameClkRisingEdge (.enemyShip row col)) core.laser.xPos core.laser.yPos
  boss := core.boss.step reset core.bossFight core.done (frameClkRisingEdge .boss) keycode
    core.laser.xPos core.laser.yPos
  laser := core.laser.step reset core.play core.bossFight core.laserHit
    (frameClkRisingEdge .userLaser) keycode core.ship.xPos core.ship.yPos

/-- The registers while `Reset` is high. -/
def resetRegs : Core where
  state := .start
  ship := UserShip.resetRegs
  rows := fun row => EshipRow.resetRegs (yOffset row)
  boss := Boss.home false
  laser := UserLaser.resetRegs

/-- A cycle without reset in which all detectors agree. -/
def next (tick : Bool) (keycode : Keycode) (core : Core) : Core :=
  core.step false keycode (fun _ => tick)

@[simp] theorem step_reset (keycode : Keycode) (frameClkRisingEdge : ModuleName → Bool)
    (core : Core) : core.step true keycode frameClkRisingEdge = resetRegs := rfl

end Core

/-- All registers that the game depends on. -/
structure Game where
  core : Core
  detector : ModuleName → EdgeDetector

namespace Game

/-- One `Clk` edge of `game_controller`. -/
def step (input : Input) (game : Game) : Game where
  core := game.core.step input.reset input.keycode
    (fun owner => (game.detector owner).frameClkRisingEdge)
  detector := fun owner => (game.detector owner).step input.frameClk

/-- The current cycle is a frame tick. The ship's detector stands for all: they
agree in every cycle in which anything else depends on them. -/
def tick (game : Game) : Bool := (game.detector .userShip).frameClkRisingEdge

end Game

/-- A run of `game_controller`: a reset edge, from whatever the registers held
before, and then cycles with arbitrary `frame_clk` and `keycode`. -/
structure Run where
  state : ℕ → Game
  frameClk : ℕ → Bool
  keycode : ℕ → Keycode
  start : ∃ game input, input.reset = true ∧ state 0 = Game.step input game
  next : ∀ n, state (n + 1) = (state n).step ⟨false, frameClk n, keycode n⟩

namespace Run

/-- The game registers in cycle `n`. -/
def core (run : Run) (n : ℕ) : Core := (run.state n).core

/-- Cycle `n` is a frame tick. -/
def tick (run : Run) (n : ℕ) : Bool := (run.state n).tick

end Run

end Galaga
