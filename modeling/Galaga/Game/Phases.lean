import Galaga.Game.Scripted
import Mathlib.Data.List.GetD

/-! # Phases and score

Whether the enemies are destroyed follows from the phase of the game alone. A
script that beats the boss goes through all of them.
-/

namespace Galaga

section Victory

/-- One shot at the boss, in the frame in which its way down leads into it. -/
def victory : List Keycode := List.replicate 68 0#8 ++ keySpace :: List.replicate 88 0#8

/-- The shot is one tick below the boss. -/
def lastShot : BossFrame where
  ship := walked
  shot := .flying ⟨87, by decide⟩
  laserX := 249#10
  boss := ⟨225#10, 62#10, 1019#10, 0#10, false⟩

theorem length_fight_victory : (fight victory).length = 2127 := by
  rw [fight_eq_append, List.length_append, length_conquest_walk]
  simp [victory]

theorem plays_victory : duelOpening.plays victory = some lastShot := by
  decide +kernel

/-- The shot reaches the boss in this cycle. -/
theorem scripted_lastShot :
    (Run.scripted (fight victory)).core 8510 = (lastShot.ticked 0#8).toCore := by
  have htick := scripted_fight_tick plays_victory rfl []
  rw [List.append_nil, length_fight_victory] at htick
  exact htick

/-- In the next one the boss is destroyed. -/
theorem scripted_bossHit :
    ((Run.scripted (fight victory)).core 8511).state = .bossFight ∧
      ((Run.scripted (fight victory)).core 8511).boss.enemyHit = true := by
  have hidle := Run.scripted_core_idle (fight victory) 2127 1 (by omega) (by omega)
  rw [List.getD_eq_default _ _ length_fight_victory.le] at hidle
  change (Run.scripted (fight victory)).core 8511 =
    ((Run.scripted (fight victory)).core 8510).next false 0#8 at hidle
  rw [hidle, scripted_lastShot]
  decide +kernel

end Victory

namespace Run

open Galaga.Core

variable (run : Run) (n : ℕ)

/-- Phase and score agree in every cycle: all enemies are destroyed on the way
to the boss and during its fight, the boss's register is set for the one cycle
that wins the fight, and the score never falls while a game goes on. -/
theorem phase_agrees_with_score :
    ((run.core n).state = .bossLogo →
      (∀ row col, ((run.core n).enemy row col).enemyHit = true) ∧
        (run.core n).boss.enemyHit = false ∧ (run.core n).score = 18#5) ∧
    ((run.core n).state = .bossFight →
      (∀ row col, ((run.core n).enemy row col).enemyHit = true) ∧
        ((run.core n).boss.enemyHit = true →
          (run.core n).score = 19#5 ∧ (run.core (n + 1)).state = .win)) ∧
    ((run.core n).boss.enemyHit = true →
      (run.core n).state = .bossFight ∧ (run.core (n + 1)).boss.enemyHit = false) ∧
    ((run.core n).state = .win →
      (∀ row col, ((run.core n).enemy row col).enemyHit = false) ∧
        (run.core n).boss.enemyHit = false) ∧
    ((run.core n).InGame → (run.core (n + 1)).InGame →
      (∀ row col, ((run.core n).enemy row col).enemyHit = true →
        ((run.core (n + 1)).enemy row col).enemyHit = true) ∧
        (run.core n).score ≤ (run.core (n + 1)).score) := by
  have hinv := run.inv n
  rw [run.core_succ]
  refine ⟨?_, ?_, ?_, ?_, ?_⟩
  · intro hlogo
    obtain ⟨hall, hboss⟩ := hinv.bossLogo hlogo
    have hlive : (run.core n).boss.enemyHit = false := by rw [hboss]; rfl
    exact ⟨hall, hlive, score_of_killedAll1 hlive hall⟩
  · intro hfight
    have hall := (hinv.bossFight hfight).destroyed
    exact ⟨hall, fun hhit =>
      ⟨score_of_killedAll2 hhit hall, (hinv.next_of_bossHit hhit _ _).1⟩⟩
  · intro hhit
    exact ⟨hinv.state_of_bossHit hhit, (hinv.next_of_bossHit hhit _ _).2⟩
  · intro hwin
    obtain ⟨hhome, hboss, _⟩ := hinv.win hwin
    refine ⟨fun row col => ?_, hboss⟩
    rw [hhome row col]
    rfl
  · intro hgame hgame'
    have hdone := hinv.done_of_inGame hgame hgame'
    have hkeep : ∀ row col, ((run.core n).enemy row col).enemyHit = true →
        (((run.core n).next (run.tick n) (run.keycode n)).enemy row col).enemyHit = true := by
      intro row col hhit
      exact ((run.core n).next_enemyHit_iff _ _ row col).mpr ⟨hdone, Or.inl hhit⟩
    refine ⟨hkeep, score_le_of_hits hkeep fun hhit => ?_⟩
    have hwin := (hinv.next_of_bossHit hhit (run.tick n) (run.keycode n)).1
    simp [InGame, hwin] at hgame'

/-- The score along the way to a victory: on the logo, with the boss destroyed,
and on the screen of the winner. -/
theorem phase_agrees_with_score_scripted :
    ((scripted (fight victory)).core 7877).score = 18#5 ∧
      ((scripted (fight victory)).core 7877).score ≤ ((scripted (fight victory)).core 7878).score ∧
      ((scripted (fight victory)).core 8511).score = 19#5 ∧
      ((scripted (fight victory)).core 8512).state = .win ∧
      (((scripted (fight victory)).core 8512).enemy 0 0).enemyHit = false ∧
      ((scripted (fight victory)).core 8512).boss.enemyHit = false := by
  have hlogo : ((scripted (fight victory)).core 7877).state = .bossLogo := by
    rw [scripted_logo]
    rfl
  have hopened : ((scripted (fight victory)).core 7878).state = .bossFight := by
    rw [scripted_duel]
    rfl
  obtain ⟨hfight, hhit⟩ := scripted_bossHit
  obtain ⟨hbefore, _, _, _, hgrows⟩ := phase_agrees_with_score (scripted (fight victory)) 7877
  obtain ⟨_, hfought, _, _, _⟩ := phase_agrees_with_score (scripted (fight victory)) 8511
  obtain ⟨hscore, hwin⟩ := (hfought hfight).2 hhit
  obtain ⟨_, _, _, hover, _⟩ := phase_agrees_with_score (scripted (fight victory)) 8512
  obtain ⟨hhome, hboss⟩ := hover hwin
  exact ⟨(hbefore hlogo).2.2, (hgrows (Or.inr (Or.inl hlogo)) (Or.inr (Or.inr hopened))).2,
    hscore, hwin, hhome 0 0, hboss⟩

end Run

end Galaga
