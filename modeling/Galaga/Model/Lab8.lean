import Galaga.Model.GameController

/-! # The board: `VGA_controller.sv` and its composition with the game in `lab8.sv`

Of `lab8.sv` only what drives the game registers is here: the reset register,
the scan counters and the key code exported by the NIOS II system.
-/

namespace Galaga

/-- The registers of `VGA_controller`. -/
structure VgaController where
  vgaHs : Bool
  vgaVs : Bool
  vgaBlankN : Bool
  hCounter : Coord
  vCounter : Coord
deriving DecidableEq, Repr

namespace VgaController

def hTotal : Coord := 800#10
def vTotal : Coord := 525#10

/-- The registers in reset. -/
def resetRegs : VgaController where
  vgaHs := false
  vgaVs := false
  vgaBlankN := false
  hCounter := 0#10
  vCounter := 0#10

def hCounterIn (vga : VgaController) : Coord :=
  if vga.hCounter + 1#10 = hTotal then 0#10 else vga.hCounter + 1#10

def vCounterIn (vga : VgaController) : Coord :=
  if vga.hCounter + 1#10 = hTotal then
    if vga.vCounter + 1#10 = vTotal then 0#10 else vga.vCounter + 1#10
  else vga.vCounter

/-- One rising edge of `VGA_CLK`. The synchronisation pulses and the blanking
indicator belong to the new counters. -/
def step (reset : Bool) (vga : VgaController) : VgaController :=
  if reset then resetRegs
  else
    { vgaHs := !(decide (656#10 ≤ vga.hCounterIn) && decide (vga.hCounterIn < 752#10))
      vgaVs := !(decide (490#10 ≤ vga.vCounterIn) && decide (vga.vCounterIn < 492#10))
      vgaBlankN := decide (vga.hCounterIn < 640#10) && decide (vga.vCounterIn < 480#10)
      hCounter := vga.hCounterIn
      vCounter := vga.vCounterIn }

/-- The output `DrawX`. -/
def drawX (vga : VgaController) : Coord := vga.hCounter

/-- The output `DrawY`. -/
def drawY (vga : VgaController) : Coord := vga.vCounter

end VgaController

/-- The registers of the board. -/
structure Lab8 where
  resetH : Bool
  vga : VgaController
  game : Game

/-- The inputs of the board in one `Clk` cycle: the push button `KEY[0]`, which
is low when pressed, whether `VGA_CLK` rises with this edge, and the key code. -/
structure Lab8Input where
  key0 : Bool
  vgaClk : Bool
  keycode : Keycode

/-- One `Clk` edge. The game sees `VGA_VS` as its `frame_clk`, as it was before
the edge. -/
def Lab8.step (input : Lab8Input) (board : Lab8) : Lab8 where
  resetH := !input.key0
  vga := if input.vgaClk then board.vga.step board.resetH else board.vga
  game := board.game.step ⟨board.resetH, board.vga.vgaVs, input.keycode⟩

/-- A run of the board from arbitrary registers: the reset register is high
for the first `held` cycles and low from then on, and `VGA_CLK` rises with every
second edge. -/
structure BoardRun where
  state : ℕ → Lab8
  input : ℕ → Lab8Input
  held : ℕ
  several : 2 ≤ held
  resetH : ∀ n, (state n).resetH = decide (n < held)
  everySecond : ∀ n, (input (n + 1)).vgaClk = !(input n).vgaClk
  next : ∀ n, state (n + 1) = (state n).step (input n)

namespace BoardRun

variable (board : BoardRun) (n : ℕ)

/-- The game registers in cycle `n`. -/
def core : Core := (board.state n).game.core

/-- Cycle `n` is a frame tick. -/
def tick : Bool := (board.state n).game.tick

/-- The line scanned in cycle `n`. -/
def line : ℕ := (board.state n).vga.drawY.toNat

end BoardRun

end Galaga
