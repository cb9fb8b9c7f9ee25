import Galaga.Game.Reachable

/-! # Score and outcome

What the score says about the enemies, that nothing that has been destroyed
raises `gameover`, and how a fight is won.
-/

namespace Galaga

namespace Core

open scoped BigOperators

/-- A game is going on: the phases in which the score counts. -/
def InGame (core : Core) : Prop :=
  core.state = .play ∨ core.state = .bossLogo ∨ core.state = .bossFight

variable {core : Core}

theorem Inv.state_of_bossHit (hinv : core.Inv) (hhit : core.boss.enemyHit = true) :
    core.state = .bossFight := by
  have hhome : core.boss ≠ Boss.home false := by
    intro hboss
    rw [hboss] at hhit
    cases hhit
  cases hstate : core.state with
  | bossFight => rfl
  | start => exact absurd (hinv.start hstate).2 hhome
  | play =>
      obtain ⟨n, _, hplaying⟩ := hinv.play hstate
      exact absurd hplaying.boss hhome
  | bossLogo => exact absurd (hinv.bossLogo hstate).2 hhome
  | gameover => exact absurd (hinv.gameover hstate) hhome
  | win =>
      rw [(hinv.win hstate).2.1] at hhit
      cases hhit

/-- A destroyed enemy is above the bottom row while it is in play. -/
theorem Inv.destroyed_above (hinv : core.Inv) (hstate : core.state = .play) {row : Fin 3}
    {col : Fin 6} (hhit : (core.enemy row col).enemyHit = true) :
    (core.enemy row col).yPos.toNat < 409 := by
  obtain ⟨n, _, hplaying⟩ := hinv.play hstate
  rcases hplaying.enemies row col with ⟨hlive, _⟩ | hwreck
  · rw [hlive] at hhit
    cases hhit
  · exact hwreck.above

theorem Inv.destroyed_boss_above (hinv : core.Inv) (hhit : core.boss.enemyHit = true) :
    core.boss.yPos.toNat < 409 := by
  rcases (hinv.bossFight (hinv.state_of_bossHit hhit)).boss with hroaming | ⟨_, habove, _⟩
  · rw [hroaming.live] at hhit
    cases hhit
  · exact habove

/-- No destroyed enemy raises `gameover`. -/
theorem Inv.gameover_of_destroyed (hinv : core.Inv) {row : Fin 3} {col : Fin 6}
    (hhit : (core.enemy row col).enemyHit = true) :
    (core.enemy row col).gameover core.play = false := by
  rw [Bool.eq_false_iff]
  intro hover
  rw [EnemyShip.gameover, Bool.and_eq_true, core.play_iff, decide_eq_true_eq,
    EnemyShip.bottomRow_le_iff] at hover
  have habove := hinv.destroyed_above hover.1 hhit
  omega

/-- Nor does a destroyed boss. -/
theorem Inv.boss_gameover_of_destroyed (hinv : core.Inv) (hhit : core.boss.enemyHit = true) :
    core.boss.gameover core.bossFight = false := by
  rw [Bool.eq_false_iff]
  intro hover
  rw [Boss.gameover, Bool.and_eq_true, decide_eq_true_eq, Boss.bottomRow_le_iff] at hover
  have habove := hinv.destroyed_boss_above hhit
  omega

/-- With all enemies destroyed play is not being lost. -/
theorem Inv.died_of_killedAll1 (hinv : core.Inv) (hstate : core.state = .play)
    (hkilled : core.killedAll1 = true) : core.died = false := by
  obtain ⟨n, _, hplaying⟩ := hinv.play hstate
  have hall := (core.killedAll1_iff hplaying.boss_live).mp hkilled
  exact died_eq_false_of_play hstate fun row col => hinv.destroyed_above hstate (hall row col)

/-- With the boss destroyed its fight is not being lost. -/
theorem Inv.died_of_bossHit (hinv : core.Inv) (hhit : core.boss.enemyHit = true) :
    core.died = false :=
  died_eq_false_of_bossFight (hinv.state_of_bossHit hhit) (hinv.destroyed_boss_above hhit)

section Score

theorem score_of_killedAll1 (hboss : core.boss.enemyHit = false)
    (hall : ∀ row col, (core.enemy row col).enemyHit = true) : core.score = 18#5 := by
  have hkilled := (core.killedAll1_iff hboss).mpr hall
  rw [killedAll1, beq_iff_eq] at hkilled
  exact hkilled

theorem score_of_killedAll2 (hboss : core.boss.enemyHit = true)
    (hall : ∀ row col, (core.enemy row col).enemyHit = true) : core.score = 19#5 := by
  have hkilled := core.killedAll2_iff.mpr ⟨hall, hboss⟩
  rw [killedAll2, beq_iff_eq] at hkilled
  exact hkilled

/-- The score grows with the hit registers. -/
theorem score_le_of_hits {later : Core}
    (henemies : ∀ row col, (core.enemy row col).enemyHit = true →
      (later.enemy row col).enemyHit = true)
    (hboss : core.boss.enemyHit = true → later.boss.enemyHit = true) :
    core.score ≤ later.score := by
  rw [BitVec.le_def, score_toNat_eq_sum, score_toNat_eq_sum]
  refine Nat.add_le_add ?_ (Bool.toNat_le_toNat hboss)
  exact Finset.sum_le_sum fun target _ => Bool.toNat_le_toNat (henemies target.1 target.2)

end Score

/-- Nothing clears the hit registers while the game goes on. -/
theorem Inv.done_of_inGame (hinv : core.Inv) {tick : Bool} {keycode : Keycode}
    (hgame : core.InGame) (hgame' : (core.next tick keycode).InGame) : core.done = false := by
  have hlost : core.died = true → core.state ≠ .bossLogo →
      (core.next tick keycode).state = .gameover := by
    intro hdied hlogo
    rw [next_state, hdied]
    rcases hgame with hstate | hstate | hstate
    · simp [hstate, State.next]
    · exact absurd hstate hlogo
    · simp [hstate, State.next]
  have hnot : (core.next tick keycode).state ≠ .gameover := by
    rintro hover
    simp [InGame, hover] at hgame'
  -- what clears the registers also ends the game in the same cycle
  rcases hgame with hstate | hstate | hstate
  · obtain ⟨n, _, hplaying⟩ := hinv.play hstate
    apply hplaying.done
    rw [Bool.eq_false_iff]
    exact fun hdied => hnot (hlost hdied (by simp [hstate]))
  · obtain ⟨_, hboss⟩ := hinv.bossLogo hstate
    exact done_of_bossLogo hstate hboss
  · have hdied : core.died = false := by
      rw [Bool.eq_false_iff]
      exact fun hdied => hnot (hlost hdied (by simp [hstate]))
    refine done_eq_false hdied ?_
    rw [Bool.eq_false_iff]
    intro hkilled
    have hwin : (core.next tick keycode).state = .win := by
      rw [next_state, hdied, hkilled, hstate]
      simp [State.next]
    simp [InGame, hwin] at hgame'

/-- A destroyed boss ends its fight: the game is won, and the register is
cleared. -/
theorem Inv.next_of_bossHit (hinv : core.Inv) (hhit : core.boss.enemyHit = true) (tick : Bool)
    (keycode : Keycode) :
    (core.next tick keycode).state = .win ∧
      (core.next tick keycode).boss.enemyHit = false := by
  have hfight := hinv.state_of_bossHit hhit
  have hkilled := core.killedAll2_iff.mpr ⟨(hinv.bossFight hfight).destroyed, hhit⟩
  constructor
  · rw [next_state, hinv.died_of_bossHit hhit, hkilled, hfight]
    simp [State.next]
  · rw [Bool.eq_false_iff, ne_eq, next_bossHit_iff, core.done_iff.mpr (Or.inr hkilled)]
    simp

end Core

end Galaga
