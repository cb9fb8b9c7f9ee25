import Galaga.Game.Scripted

/-! # Victory and defeat

A completed kill is never turned into a defeat although `signal_controller`
tests `died` first. The one state in which the score says that all enemies are
destroyed and the game is lost all the same is the landing of the boss.
-/

namespace Galaga.Run

open Galaga.Core

/-- Winning and losing exclude each other, apart from a boss that lands: then
all enemies are destroyed, but `killed_all1` is not looked at any more. A kill
that completes a fight always ends it in the player's favour. -/
theorem outcomes_exclude_each_other (run : Run) (n : ℕ) :
    (∀ row col, ((run.core n).enemy row col).enemyHit = true →
      ((run.core n).enemy row col).gameover (run.core n).play = false) ∧
    ((run.core n).boss.enemyHit = true →
      (run.core n).boss.gameover (run.core n).bossFight = false) ∧
    ¬ ((run.core n).died = true ∧ (run.core n).killedAll2 = true) ∧
    ((run.core n).died = true ∧ (run.core n).killedAll1 = true →
      (run.core n).state = .bossFight ∧ (run.core n).boss.enemyHit = false) ∧
    ((run.core n).state = .play → (run.core n).killedAll1 = true →
      (run.core (n + 1)).state = .bossLogo) ∧
    ((run.core n).state = .bossFight → (run.core n).killedAll2 = true →
      (run.core (n + 1)).state = .win) := by
  have hinv := run.inv n
  have hlive : (run.core n).died = true → (run.core n).boss.enemyHit = false := by
    intro hdied
    rw [Bool.eq_false_iff]
    intro hhit
    rw [hinv.died_of_bossHit hhit] at hdied
    cases hdied
  refine ⟨fun row col hhit => hinv.gameover_of_destroyed hhit,
    hinv.boss_gameover_of_destroyed, ?_, ?_, ?_, ?_⟩
  · rintro ⟨hdied, hkilled⟩
    rw [killedAll2_eq_false (hlive hdied)] at hkilled
    cases hkilled
  · rintro ⟨hdied, hkilled⟩
    refine ⟨?_, hlive hdied⟩
    rcases (run.core n).died_iff.mp hdied with ⟨hplay, _⟩ | ⟨hfight, _⟩
    · rw [hinv.died_of_killedAll1 hplay hkilled] at hdied
      cases hdied
    · exact hfight
  · intro hplay hkilled
    rw [run.core_succ, next_state, hinv.died_of_killedAll1 hplay hkilled, hkilled, hplay]
    simp [State.next]
  · intro hfight hkilled
    have hhit := ((run.core n).killedAll2_iff.mp hkilled).2
    rw [run.core_succ]
    exact (hinv.next_of_bossHit hhit _ _).1

/-- The landing of the boss is reached, so `died` and `killed_all1` do not
exclude each other. -/
theorem defeat_with_all_enemies_destroyed :
    ¬ ∀ (run : Run) (n : ℕ), ¬ ((run.core n).died = true ∧
      ((run.core n).killedAll1 = true ∨ (run.core n).killedAll2 = true)) := by
  intro hnever
  apply hnever (scripted defeatScript) (1 + 4 * defeat.length + 1)
  rw [scripted_landing]
  exact ⟨landing.toCore.died_iff.mpr (Or.inr ⟨rfl, by decide⟩),
    Or.inl (BossFrame.killedAll1_toCore rfl)⟩

end Galaga.Run
