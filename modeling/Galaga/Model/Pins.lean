import Galaga.Model.Lab8
import Galaga.Model.Logos

/-! # The pins: `Color_Mapper.sv`, `HexDriver.sv` and the outputs of `lab8.sv` -/

namespace Galaga

namespace ColorMapper

variable (colorData : Rgb)

/-- `VGA_R` -/
def vgaR : BitVec 8 := colorData.extractLsb' 16 8

/-- `VGA_G` -/
def vgaG : BitVec 8 := colorData.extractLsb' 8 8

/-- `VGA_B` -/
def vgaB : BitVec 8 := colorData.extractLsb' 0 8

end ColorMapper

/-- The `unique case`: the seven segments of a digit, each lit when its bit is
low. All sixteen values have a case, so the default is never taken. -/
def HexDriver.out0 (in0 : BitVec 4) : BitVec 7 :=
  if in0 = 0b0000#4 then 0b1000000#7
  else if in0 = 0b0001#4 then 0b1111001#7
  else if in0 = 0b0010#4 then 0b0100100#7
  else if in0 = 0b0011#4 then 0b0110000#7
  else if in0 = 0b0100#4 then 0b0011001#7
  else if in0 = 0b0101#4 then 0b0010010#7
  else if in0 = 0b0110#4 then 0b0000010#7
  else if in0 = 0b0111#4 then 0b1111000#7
  else if in0 = 0b1000#4 then 0b0000000#7
  else if in0 = 0b1001#4 then 0b0010000#7
  else if in0 = 0b1010#4 then 0b0001000#7
  else if in0 = 0b1011#4 then 0b0000011#7
  else if in0 = 0b1100#4 then 0b1000110#7
  else if in0 = 0b1101#4 then 0b0100001#7
  else if in0 = 0b1110#4 then 0b0000110#7
  else 0b0001110#7

namespace Lab8

/-- The low digit of the score. The literals of the source have 32 bits. -/
def ones (score : BitVec 5) : BitVec 4 := (score.setWidth 32 % 10#32).setWidth 4

/-- Its high digit. -/
def tens (score : BitVec 5) : BitVec 4 := (score.setWidth 32 / 10#32 % 10#32).setWidth 4

variable (board : Lab8)

/-- The display `HEX0`. -/
def hex0 : BitVec 7 := HexDriver.out0 (ones board.game.core.score)

/-- The display `HEX1`. -/
def hex1 : BitVec 7 := HexDriver.out0 (tens board.game.core.score)

end Lab8

/-- A run of the board with the outputs of its sprite memories. -/
structure ScreenRun extends BoardRun where
  memory : SpriteMemory
  data : ℕ → ModuleName → Rgb
  dataNext : ∀ n, data (n + 1) =
    (state n).game.core.load memory (state n).vga.drawX (state n).vga.drawY

namespace ScreenRun

variable (run : ScreenRun) (n : ℕ)

/-- The input of the color mapper. -/
def colorData : Rgb :=
  (run.core n).colorData (Logos.shown (run.state n).vga.drawX (run.state n).vga.drawY) (run.data n)
    (run.state n).vga.drawX (run.state n).vga.drawY

/-- The pins `VGA_R`. -/
def vgaR : BitVec 8 := ColorMapper.vgaR (run.colorData n)

/-- The pins `VGA_G`. -/
def vgaG : BitVec 8 := ColorMapper.vgaG (run.colorData n)

/-- The pins `VGA_B`. -/
def vgaB : BitVec 8 := ColorMapper.vgaB (run.colorData n)

end ScreenRun

end Galaga
