import Galaga.Model.Drawing

/-! # The logos: `sprite_rom.sv` and `galaga_logo.sv`

The rows of the memories are written as in the source, one bit for a pixel.
-/

namespace Galaga

/-! ## The memories -/

/-- `galaga_rom` -/
def galagaRom : List (BitVec 96) :=
  [0b000000000000000000000000000000000000000000000000000000000000000000000000000000000000000000000000#96,
    0b000000000000000000000000000000000000000000000000000000000000000000000000000000000000000000000000#96,
    0b000011111111000000000011000000001111111100000000000000110000000000001111111100000000001100000000#96,
    0b001111000011110000001111110000000011110000000000000011111100000000111100001111000000111111000000#96,
    0b111100000000110000111100111100000011110000000000001111001111000011110000000011000011110011110000#96,
    0b111100000000000011110000001111000011110000000000111100000011110011110000000000001111000000111100#96,
    0b111100000000000011110000001111000011110000000000111100000011110011110000000000001111000000111100#96,
    0b111100111111110011111111111111000011110000000000111111111111110011110011111111001111111111111100#96,
    0b111100000011110011110000001111000011110000000000111100000011110011110000001111001111000000111100#96,
    0b111100000011110011110000001111000011110000000000111100000011110011110000001111001111000000111100#96,
    0b001111000011110011110000001111000011110000001100111100000011110000111100001111001111000000111100#96,
    0b000011111100110011110000001111001111111111111100111100000011110000001111110011001111000000111100#96,
    0b000000000000000000000000000000000000000000000000000000000000000000000000000000000000000000000000#96,
    0b000000000000000000000000000000000000000000000000000000000000000000000000000000000000000000000000#96,
    0b000000000000000000000000000000000000000000000000000000000000000000000000000000000000000000000000#96,
    0b000000000000000000000000000000000000000000000000000000000000000000000000000000000000000000000000#96]

/-- `gameover_rom` -/
def gameoverRom : List (BitVec 128) :=
  [0b00000000000000000000000000000000000000000000000000000000000000000000000000000000000000000000000000000000000000000000000000000000#128,
    0b00000000000000000000000000000000000000000000000000000000000000000000000000000000000000000000000000000000000000000000000000000000#128,
    0b00001111111100000000001100000000111100000000111111111111111111000011111111110000111100000000111111111111111111001111111111110000#128,
    0b00111100001111000000111111000000111111000011111100111100001111001111000000111100111100000000111100111100001111000011110000111100#128,
    0b11110000000011000011110011110000111111111111111100111100000011001111000000111100111100000000111100111100000011000011110000111100#128,
    0b11110000000000001111000000111100111111111111111100111100110000001111000000111100111100000000111100111100110000000011110000111100#128,
    0b11110000000000001111000000111100111100111100111100111111110000001111000000111100111100000000111100111111110000000011111111110000#128,
    0b11110011111111001111111111111100111100000000111100111100110000001111000000111100111100000000111100111100110000000011110000111100#128,
    0b11110000001111001111000000111100111100000000111100111100000000001111000000111100111100000000111100111100000000000011110000111100#128,
    0b11110000001111001111000000111100111100000000111100111100000011001111000000111100001111000011110000111100000011000011110000111100#128,
    0b00111100001111001111000000111100111100000000111100111111001111001111000000111100000011111111000000111111001111000011110000111100#128,
    0b00001111110011001111000000111100111100000000111111111111111111000011111111110000000000111100000011111111111111001111110000111110#128,
    0b00000000000000000000000000000000000000000000000000000000000000000000000000000000000000000000000000000000000000000000000000000000#128,
    0b00000000000000000000000000000000000000000000000000000000000000000000000000000000000000000000000000000000000000000000000000000000#128,
    0b00000000000000000000000000000000000000000000000000000000000000000000000000000000000000000000000000000000000000000000000000000000#128,
    0b00000000000000000000000000000000000000000000000000000000000000000000000000000000000000000000000000000000000000000000000000000000#128]

/-- `press_start_rom` -/
def pressStartRom : List (BitVec 55) :=
  [0b1111011100111100111001110000001111010001111111111011100#55,
    0b1001010010100001000010000000001000011001001001000010010#55,
    0b1111011100111000111001110000001110010101001001110011100#55,
    0b1000010100100000000100001000001000010011001001000010100#55,
    0b1000010010111100111001110000001111010001001001111010010#55]

/-- `you_win_rom` -/
def youWinRom : List (BitVec 112) :=
  [0b0000000000000000000000000000000000000000000000000000000000000000000000000000000000000000000000000000000000000000#112,
    0b0000000000000000000000000000000000000000000000000000000000000000000000000000000000000000000000000000000000000000#112,
    0b1111000000001110100111111111100011110000000011110000000000000000111100000000111100001111111100001111000000111100#112,
    0b1111000000001110111110000001111011110000000011110000000000000000111100000000111100000011110000001111110000111100#112,
    0b1111000000001110111110000001111011110000000011110000000000000000111100000000111100000011110000001111111000111100#112,
    0b0011110000111100011110000001111011110000000011110000000000000000111100000000111100000011110000001111111111111100#112,
    0b0000111111110000011110000001111011110000000011110000000000000000111100011000111100000011110000001111001111111100#112,
    0b0000001111000000011110000001111011110000000011110000000000000000111100111100111100000011110000001111000011111100#112,
    0b0000001111000000011110000001111011110000000011110000000000000000111111111111111100000011110000001111000000111100#112,
    0b0000001111000000011110000001111001111000000111100000000000000000111111111111111100000011110000001111000000111100#112,
    0b0000001111000000011110000001111000111111111111000000000000000000111111000011111100000011110000001111000000111100#112,
    0b0000111111110000000111111111100000001111111100000000000000000000111100000000111100001111111100001111000000111100#112,
    0b0000000000000000000000000000000000000000000000000000000000000000000000000000000000000000000000000000000000000000#112,
    0b0000000000000000000000000000000000000000000000000000000000000000000000000000000000000000000000000000000000000000#112,
    0b0000000000000000000000000000000000000000000000000000000000000000000000000000000000000000000000000000000000000000#112,
    0b0000000000000000000000000000000000000000000000000000000000000000000000000000000000000000000000000000000000000000#112]

/-- `boss_rom` -/
def bossRom : List (BitVec 64) :=
  [0b0000000000000000000000000000000000000000000000000000000000000000#64,
    0b0000000000000000000000000000000000000000000000000000000000000000#64,
    0b0111111111111000000111111111100000111111111100000011111111110000#64,
    0b0001111000011110011110000001111011110000001111001111000000111100#64,
    0b0001111000011110011110000001111011110000001111001111000000111100#64,
    0b0001111000011110011110000001111000111100000000000011110000000000#64,
    0b0001111111111000011110000001111000001111110000000000111111000000#64,
    0b0001111000011110011110000001111000000000111100000000000011110000#64,
    0b0001111000011110011110000001111000000000001111000000000000111100#64,
    0b0001111000011110011110000001111011110000001111001111000000111100#64,
    0b0001111000011110011110000001111011110000001111001111000000111100#64,
    0b0111111111111000000111111111100000111111111100000011111111110000#64,
    0b0000000000000000000000000000000000000000000000000000000000000000#64,
    0b0000000000000000000000000000000000000000000000000000000000000000#64,
    0b0000000000000000000000000000000000000000000000000000000000000000#64,
    0b0000000000000000000000000000000000000000000000000000000000000000#64]

/-! ## The logo modules -/

/-- The bit of a memory's output that a logo module looks at. It is unknown past
the last row, and past the last bit of a row: `press_start_logo` connects 56
bits to an output of 55. -/
def romBit {width : ℕ} (rom : List (BitVec width)) (addr index : ℕ) : Option Bool :=
  rom[addr]?.bind fun data => data[index]?

/-- What all logo modules spell out: the tests of the window, bounds included,
the row taken to the width of `addr`, and the column counted down from `last`
at 10 bits. An unknown bit is not equal to one. -/
def logo {width : ℕ} (rom : List (BitVec width)) (addrBits : ℕ)
    (left right top bottom last drawX drawY : Coord) : Bool :=
  if left ≤ drawX ∧ drawX ≤ right ∧ top ≤ drawY ∧ drawY ≤ bottom then
    if romBit rom ((drawY - top).setWidth addrBits).toNat (last - (drawX - left)).toNat =
      some true then true else false
  else false

section Modules

variable (drawX drawY : Coord)

def GalagaLogo.isGalaga : Bool := logo galagaRom 4 272#10 368#10 232#10 248#10 95#10 drawX drawY

def GameoverLogo.isGameover : Bool :=
  logo gameoverRom 4 256#10 384#10 232#10 248#10 127#10 drawX drawY

def PressStartLogo.isPressStart : Bool :=
  logo pressStartRom 3 293#10 348#10 253#10 258#10 55#10 drawX drawY

def YouWinLogo.isYouWin : Bool := logo youWinRom 4 264#10 376#10 232#10 248#10 111#10 drawX drawY

def BossLogo.isBoss : Bool := logo bossRom 4 288#10 352#10 232#10 248#10 63#10 drawX drawY

/-- The logo modules of `game_controller` at the scan position. -/
def Logos.shown : Logos where
  isGalaga := GalagaLogo.isGalaga drawX drawY
  isPressStart := PressStartLogo.isPressStart drawX drawY
  isGameover := GameoverLogo.isGameover drawX drawY
  isYouWin := YouWinLogo.isYouWin drawX drawY
  isBoss := BossLogo.isBoss drawX drawY

end Modules

end Galaga
