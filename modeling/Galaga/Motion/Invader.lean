import Galaga.Model.EnemyShip

/-! # The path of an invader

A live ship runs along a triangle wave between columns 0 and 610 and drops by
ten rows on each of the three ticks after it touches a wall. The phase counts
ticks from an imaginary start at column 0, so a ship at home in column `x` has
phase `x`.
-/

namespace Galaga

namespace InvaderPath

/-- The triangle wave of period 1220 and amplitude 610. -/
def column (phase : ℕ) : ℕ :=
  if phase % 1220 ≤ 610 then phase % 1220 else 1220 - phase % 1220

/-- Thirty rows for each completed wall contact and ten for each tick of the
current one, up to three. The count starts with the contact at phase 0. -/
def descent (phase : ℕ) : ℕ := 30 * (phase / 610) + 10 * min 3 (phase % 610)

theorem column_le (phase : ℕ) : column phase ≤ 610 := by
  unfold column
  split <;> omega

theorem descent_succ (phase : ℕ) :
    descent (phase + 1) = descent phase + if phase % 610 < 3 then 10 else 0 := by
  have hdiv := Nat.div_add_mod phase 610
  have hdiv' := Nat.div_add_mod (phase + 1) 610
  have hmod := Nat.mod_lt phase (show 0 < 610 by omega)
  have hmod' := Nat.mod_lt (phase + 1) (show 0 < 610 by omega)
  unfold descent
  split_ifs <;> omega

theorem descent_mono {phase later : ℕ} (hle : phase ≤ later) : descent phase ≤ descent later := by
  unfold descent
  omega

/-- From phase 3 on the initial contact is over, so `homeY` is where a ship
starts. -/
theorem thirty_le_descent {phase : ℕ} (hphase : 3 ≤ phase) : 30 ≤ descent phase := by
  have hstart : descent 3 = 30 := by decide
  exact hstart ▸ descent_mono hphase

end InvaderPath

namespace EnemyShip

open InvaderPath

/-- The registers of a ship whose home row is `homeY`, at a phase of the path. -/
def onPath (homeY phase : ℕ) (enemyHit : Bool) : EnemyShip where
  xPos := BitVec.ofNat 10 (column phase)
  yPos := BitVec.ofNat 10 (homeY + descent phase - 30)
  xMotion := if phase % 1220 < 610 then 1#10 else 1023#10
  yMotion := if phase % 610 < 3 then 10#10 else 0#10
  enemyHit := enemyHit

/-- A ship out of the game, parked in the upper right corner. -/
def parkedAway : EnemyShip where
  xPos := 639#10
  yPos := 0#10
  xMotion := 0#10
  yMotion := 0#10
  enemyHit := true

theorem home_eq_onPath {homeX homeY : ℕ} (hleft : 3 ≤ homeX) (hright : homeX < 610)
    (enemyHit : Bool) :
    home (BitVec.ofNat 10 homeX) (BitVec.ofNat 10 homeY) enemyHit =
      onPath homeY homeX enemyHit := by
  have hcolumn : column homeX = homeX := by
    unfold column
    split <;> omega
  have hdescent : homeY + descent homeX - 30 = homeY := by
    unfold descent
    omega
  have hrising : homeX % 1220 < 610 := by omega
  have hclear : ¬ homeX % 610 < 3 := by omega
  simp only [home, onPath, hcolumn, hdescent, hrising, hclear, if_true, if_false]
  rfl

@[simp] theorem onPath_xPos_toNat (homeY phase : ℕ) (enemyHit : Bool) :
    (onPath homeY phase enemyHit).xPos.toNat = column phase := by
  have hle := column_le phase
  simp only [onPath, BitVec.toNat_ofNat]
  omega

theorem onPath_yPos_toNat {homeY phase : ℕ} (enemyHit : Bool)
    (hbound : homeY + descent phase - 30 < 1024) :
    (onPath homeY phase enemyHit).yPos.toNat = homeY + descent phase - 30 := by
  simp only [onPath, BitVec.toNat_ofNat]
  omega

theorem bottomRow_le_iff (ship : EnemyShip) : bottomRow ≤ ship.yPos ↔ 409 ≤ ship.yPos.toNat := by
  simp [bottomRow, yMax, userShipSize, size, BitVec.le_def]

theorem atRightWall_iff (ship : EnemyShip) :
    xMax ≤ ship.xPos + size ↔ 609 ≤ ship.xPos.toNat ∧ ship.xPos.toNat ≤ 993 := by
  have hbound := ship.xPos.isLt
  simp only [xMax, size, BitVec.le_def, BitVec.toNat_add, BitVec.toNat_ofNat]
  omega

theorem atLeftWall_iff (ship : EnemyShip) :
    ship.xPos ≤ xMin + 1#10 ↔ ship.xPos.toNat ≤ 1 := by
  simp [xMin, BitVec.le_def]

/-- One tick moves a live ship one phase along its path. The walls are seen at
the current position, while the motion registers already hold the step to it. -/
theorem next_onPath {homeX homeY : Coord} {row phase : ℕ} (hphase : 3 ≤ phase)
    (habove : row + descent phase - 30 < 409) :
    (onPath row phase false).next homeX homeY true true = onPath row (phase + 1) false := by
  have hbottom : ¬ bottomRow ≤ (onPath row phase false).yPos := by
    rw [bottomRow_le_iff, onPath_yPos_toNat _ (by omega)]
    omega
  have hstarted := thirty_le_descent hphase
  have hright := atRightWall_iff (onPath row phase false)
  have hleft := atLeftWall_iff (onPath row phase false)
  rw [onPath_xPos_toNat] at hright hleft
  have hhit : (onPath row phase false).enemyHit = false := rfl
  simp only [next, Bool.true_eq_false, Bool.false_eq_true, if_false, hbottom, hhit, if_true,
    xMotionIn, yMotionIn, hright, hleft]
  simp only [onPath, mk.injEq, ← BitVec.toNat_inj, BitVec.toNat_add, and_true]
  refine ⟨?_, ?_, ?_, ?_⟩
  -- the two positions take the step that the old motions hold
  · unfold column
    split_ifs <;> simp only [BitVec.toNat_ofNat] <;> omega
  · rw [descent_succ]
    split_ifs <;> simp only [BitVec.toNat_ofNat] <;> omega
  -- the two motions look at the walls from the old position
  · unfold column
    split_ifs <;> first | rfl | omega
  · unfold column
    split_ifs <;> first | rfl | omega

end EnemyShip

end Galaga
