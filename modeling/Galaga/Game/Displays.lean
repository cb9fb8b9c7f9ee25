import Galaga.Game.Outcome
import Galaga.Game.Tearing
import Galaga.Model.Pins

/-! # The score on the displays

The two displays show the number of hit registers that are set, in decimal.
-/

namespace Galaga

open scoped BigOperators

/-- The digit that the segments of a display show. -/
def HexDriver.digit (segments : BitVec 7) : Option ℕ :=
  (List.range 16).find? fun digit => HexDriver.out0 (BitVec.ofNat 4 digit) == segments

/-- No two digits look the same. -/
theorem HexDriver.digit_out0 : ∀ in0 : BitVec 4, digit (out0 in0) = some in0.toNat := by
  decide +kernel

namespace Core

/-- The number of enemies destroyed, the boss among them. -/
def destroyed (core : Core) : ℕ :=
  (∑ row, ∑ col, (core.enemy row col).enemyHit.toNat) + core.boss.enemyHit.toNat

theorem score_toNat_eq_destroyed (core : Core) : core.score.toNat = core.destroyed :=
  core.score_toNat

theorem destroyed_le (core : Core) : core.destroyed ≤ 19 := by
  have hrows : ∑ row, ∑ col, (core.enemy row col).enemyHit.toNat ≤ ∑ _row : Fin 3, 6 :=
    Finset.sum_le_sum fun row _ => sum_hits_le (core.rows row)
  have hboss := Bool.toNat_le core.boss.enemyHit
  have hsum : ∑ _row : Fin 3, 6 = 18 := rfl
  unfold destroyed
  omega

end Core

namespace Lab8

theorem ones_toNat : ∀ score : BitVec 5, (ones score).toNat = score.toNat % 10 := by
  decide +kernel

theorem tens_toNat : ∀ score : BitVec 5, (tens score).toNat = score.toNat / 10 := by
  decide +kernel

variable (board : Lab8)

theorem digit_hex0 : HexDriver.digit board.hex0 = some (board.game.core.destroyed % 10) := by
  rw [hex0, HexDriver.digit_out0, ones_toNat, Core.score_toNat_eq_destroyed]

theorem digit_hex1 : HexDriver.digit board.hex1 = some (board.game.core.destroyed / 10) := by
  rw [hex1, HexDriver.digit_out0, tens_toNat, Core.score_toNat_eq_destroyed]

end Lab8

namespace BoardRun

variable (board : BoardRun)

/-- In every cycle the displays show the number of enemies destroyed, at most
nineteen, and it never falls while a game is going on. -/
theorem displays_show_score (n : ℕ) :
    (∃ tens ones, HexDriver.digit (board.state n).hex1 = some tens ∧
      HexDriver.digit (board.state n).hex0 = some ones ∧ tens ≤ 1 ∧ ones ≤ 9 ∧
        10 * tens + ones = (board.core n).destroyed) ∧
      (board.held ≤ n → (board.core n).InGame → (board.core (n + 1)).InGame →
        (board.core n).destroyed ≤ (board.core (n + 1)).destroyed) := by
  have hbound := (board.core n).destroyed_le
  refine ⟨⟨(board.core n).destroyed / 10, (board.core n).destroyed % 10,
    (board.state n).digit_hex1, (board.state n).digit_hex0, by omega, by omega, by omega⟩, ?_⟩
  intro hreleased hgame hgame'
  obtain ⟨k, rfl⟩ := Nat.exists_eq_add_of_le hreleased
  have hinv := board.run.inv k
  have hnext : board.core (board.held + k + 1) =
      (board.run.core k).next (board.run.tick k) (board.run.keycode k) := board.run.core_succ k
  rw [hnext] at hgame' ⊢
  have hdone := hinv.done_of_inGame hgame hgame'
  rw [← Core.score_toNat_eq_destroyed, ← Core.score_toNat_eq_destroyed]
  -- a boss that is hit ends the game
  refine Core.score_le_of_hits (fun row col hhit => ?_) fun hhit => ?_
  · exact ((board.run.core k).next_enemyHit_iff _ _ row col).mpr ⟨hdone, Or.inl hhit⟩
  · have hwin := (hinv.next_of_bossHit hhit (board.run.tick k) (board.run.keycode k)).1
    simp [Core.InGame, hwin] at hgame'

end BoardRun

end Galaga
