import Galaga.Model.Boss
import Mathlib.Tactic.SplitIfs

/-! # How the boss roams

The boss moves by five columns a tick and its motion register acts one tick
late. It overshoots to 615 on the right and wraps to 1019 on the left, and is
turned back from both.
-/

namespace Galaga.Boss

/-- The register values of a live boss during the fight. -/
structure Roaming (boss : Boss) : Prop where
  live : boss.enemyHit = false
  column : (boss.xPos.toNat ≤ 610 ∧ boss.xPos.toNat % 5 = 0 ∧
      (boss.xMotion.toNat = 5 ∨ boss.xMotion.toNat = 1019)) ∨
    (boss.xPos.toNat = 615 ∧ boss.xMotion.toNat = 1019) ∨
    (boss.xPos.toNat = 1019 ∧ boss.xMotion.toNat = 5)
  drop : boss.yMotion.toNat ≤ 10
  height : boss.yPos.toNat ≤ 418

theorem roaming_home : Roaming (home false) := by
  constructor <;> decide

theorem bottomRow_le_iff (boss : Boss) : bottomRow ≤ boss.yPos ↔ 409 ≤ boss.yPos.toNat := by
  simp [bottomRow, yMax, userShipSize, size, BitVec.le_def]

theorem atRightWall_iff (boss : Boss) :
    xMax ≤ boss.xPos + size ↔ 609 ≤ boss.xPos.toNat ∧ boss.xPos.toNat ≤ 993 := by
  have hbound := boss.xPos.isLt
  simp only [xMax, size, BitVec.le_def, BitVec.toNat_add, BitVec.toNat_ofNat]
  omega

theorem atLeftWall_iff (boss : Boss) : boss.xPos ≤ xMin + 1#10 ↔ boss.xPos.toNat ≤ 1 := by
  simp [xMin, BitVec.le_def]

/-- The horizontal motion chosen at a tick, in numbers. -/
theorem xMotionIn_toNat (keycode : Keycode) (boss : Boss) :
    (boss.xMotionIn keycode).toNat =
      if 609 ≤ boss.xPos.toNat ∧ boss.xPos.toNat ≤ 993 then 1019
      else if boss.xPos.toNat ≤ 1 then 5
      else if keycode = keySpace then (1024 - boss.xMotion.toNat) % 1024
      else boss.xMotion.toNat := by
  have hneg : ~~~boss.xMotion + 1#10 = -boss.xMotion := (BitVec.neg_eq_not_add boss.xMotion).symm
  simp only [xMotionIn, atRightWall_iff, atLeftWall_iff, hneg]
  split_ifs
  · rfl
  · rfl
  · exact BitVec.toNat_neg _
  · rfl

/-- The vertical motion chosen at a tick, in numbers. -/
theorem yMotionIn_toNat (keycode : Keycode) (boss : Boss) :
    (boss.yMotionIn keycode).toNat =
      if 609 ≤ boss.xPos.toNat ∧ boss.xPos.toNat ≤ 993 then 10
      else if boss.xPos.toNat ≤ 1 then 10
      else if keycode = keySpace then 2
      else 0 := by
  simp only [yMotionIn, atRightWall_iff, atLeftWall_iff]
  split_ifs <;> rfl

/-- A frame tick of a live boss above the bottom row. -/
theorem next_tick {boss : Boss} (hlive : boss.enemyHit = false) (habove : boss.yPos.toNat < 409)
    (keycode : Keycode) :
    boss.next true true keycode =
      { boss with
        xPos := boss.xPos + boss.xMotion
        yPos := boss.yPos + boss.yMotion
        xMotion := boss.xMotionIn keycode
        yMotion := boss.yMotionIn keycode } := by
  have hbottom : ¬ bottomRow ≤ boss.yPos := by
    rw [bottomRow_le_iff]
    omega
  simp [next, hbottom, hlive]

theorem Roaming.next_tick {boss : Boss} (hroaming : boss.Roaming)
    (habove : boss.yPos.toNat < 409) (keycode : Keycode) :
    (boss.next true true keycode).Roaming := by
  obtain ⟨hlive, hcolumn, hdrop, _⟩ := hroaming
  rw [Boss.next_tick hlive habove]
  refine ⟨hlive, ?_, ?_, ?_⟩
  · simp only [BitVec.toNat_add, xMotionIn_toNat]
    rcases hcolumn with ⟨hle, hmod, hm | hm⟩ | ⟨hpos, hm⟩ | ⟨hpos, hm⟩
    · -- moving right: the sum does not wrap
      have hsum : (boss.xPos.toNat + boss.xMotion.toNat) % 1024 = boss.xPos.toNat + 5 := by omega
      rw [hsum, hm]
      split_ifs <;> omega
    · -- moving left: only column 0 wraps
      by_cases hzero : boss.xPos.toNat = 0
      · rw [hzero, hm]
        split_ifs <;> omega
      · have hsum : (boss.xPos.toNat + boss.xMotion.toNat) % 1024 = boss.xPos.toNat - 5 := by
          omega
        rw [hsum, hm]
        split_ifs <;> omega
    · rw [hpos, hm]
      simp
    · rw [hpos, hm]
      split_ifs <;> simp
  · simp only [yMotionIn_toNat]
    split_ifs <;> omega
  · simp only [BitVec.toNat_add]
    omega

end Galaga.Boss
