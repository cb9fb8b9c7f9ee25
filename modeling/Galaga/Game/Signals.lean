import Galaga.Model.GameController
import Galaga.Motion.Boss
import Galaga.Motion.Invader
import Mathlib.Algebra.BigOperators.Fin
import Mathlib.Algebra.Order.BigOperators.Group.Finset

/-! # The wires of the game controller

`died`, `laser_hit` and the score as statements about ships, and what each
module's registers become in a cycle without reset.
-/

namespace Galaga

/-- A ship with another value of its hit register. -/
def EnemyShip.withHit (ship : EnemyShip) (enemyHit : Bool) : EnemyShip :=
  { ship with enemyHit := enemyHit }

/-- A boss with another value of its hit register. -/
def Boss.withHit (boss : Boss) (enemyHit : Bool) : Boss :=
  { boss with enemyHit := enemyHit }

section WithHit

variable (ship : EnemyShip) (boss : Boss) (enemyHit : Bool)

@[simp] theorem EnemyShip.withHit_self : ship.withHit ship.enemyHit = ship := rfl

@[simp] theorem EnemyShip.withHit_yPos : (ship.withHit enemyHit).yPos = ship.yPos := rfl

@[simp] theorem Boss.withHit_self : boss.withHit boss.enemyHit = boss := rfl

@[simp] theorem Boss.withHit_yPos : (boss.withHit enemyHit).yPos = boss.yPos := rfl

end WithHit

namespace Core

open scoped BigOperators

variable (core : Core)

theorem play_iff : core.play = true ↔ core.state = .play := by
  simp [play]

theorem bossFight_iff : core.bossFight = true ↔ core.state = .bossFight := by
  simp [bossFight]

theorem play_eq_false_iff : core.play = false ↔ core.state ≠ .play := by
  simp [play]

theorem bossFight_eq_false_iff : core.bossFight = false ↔ core.state ≠ .bossFight := by
  simp [bossFight]

/-- `play` or `boss_fight`: the laser is live. -/
def Fighting : Prop := core.state = .play ∨ core.state = .bossFight

/-- The laser's hit test passes for the enemy at `row`, `col`. -/
def Touched (row : Fin 3) (col : Fin 6) : Prop :=
  (core.enemy row col).laserHitTemp core.laser.xPos core.laser.yPos = true

/-- The laser's hit test passes for the boss. -/
def BossTouched : Prop := core.boss.laserHitTemp core.laser.xPos core.laser.yPos = true

instance (row : Fin 3) (col : Fin 6) : Decidable (core.Touched row col) :=
  inferInstanceAs (Decidable (_ = true))

instance : Decidable core.BossTouched := inferInstanceAs (Decidable (_ = true))

theorem exists_row_iff (holds : Fin 3 → Prop) :
    (∃ row, holds row) ↔ (holds 0 ∨ holds 1) ∨ holds 2 := by
  simp [Fin.exists_fin_succ, or_assoc]

theorem exists_col_iff (holds : Fin 6 → Prop) :
    (∃ col, holds col) ↔
      ((((holds 0 ∨ holds 1) ∨ holds 2) ∨ holds 3) ∨ holds 4) ∨ holds 5 := by
  simp [Fin.exists_fin_succ, or_assoc]

theorem gameover_row_iff (play : Bool) (row : EshipRow) :
    row.gameover play = true ↔ ∃ col, (row col).gameover play = true := by
  rw [exists_col_iff]
  simp only [EshipRow.gameover, Bool.or_eq_true]

theorem laserHitRow_iff (play : Bool) (laserX laserY : Coord) (row : EshipRow) :
    row.laserHitRow play laserX laserY = true ↔
      ∃ col, (row col).laserHit play laserX laserY = true := by
  rw [exists_col_iff]
  simp only [EshipRow.laserHitRow, Bool.or_eq_true]

/-- The game is lost when a ship in play, or the boss in its fight, is at the
bottom row. -/
theorem died_iff :
    core.died = true ↔
      (core.state = .play ∧ ∃ row col, 409 ≤ (core.enemy row col).yPos.toNat) ∨
        (core.state = .bossFight ∧ 409 ≤ core.boss.yPos.toNat) := by
  have hrow : ∀ row : Fin 3, (core.rows row).gameover core.play = true ↔
      core.state = .play ∧ ∃ col, 409 ≤ (core.enemy row col).yPos.toNat := by
    intro row
    rw [gameover_row_iff]
    simp only [EnemyShip.gameover, Bool.and_eq_true, play_iff, decide_eq_true_eq,
      EnemyShip.bottomRow_le_iff, enemy, exists_and_left]
  have hboss : core.boss.gameover core.bossFight = true ↔
      core.state = .bossFight ∧ 409 ≤ core.boss.yPos.toNat := by
    simp only [Boss.gameover, Bool.and_eq_true, bossFight_iff, decide_eq_true_eq,
      Boss.bottomRow_le_iff]
  simp only [died, Bool.or_eq_true, hboss]
  rw [← exists_row_iff fun row => (core.rows row).gameover core.play = true]
  simp only [hrow, exists_and_left]

/-- The laser is stopped by any enemy in play, or by the boss in its fight,
that its hit test passes for, destroyed or not. -/
theorem laserHit_iff :
    core.laserHit = true ↔
      (core.state = .play ∧ ∃ row col, core.Touched row col) ∨
        (core.state = .bossFight ∧ core.BossTouched) := by
  have hrow : ∀ row : Fin 3,
      (core.rows row).laserHitRow core.play core.laser.xPos core.laser.yPos = true ↔
        core.state = .play ∧ ∃ col, core.Touched row col := by
    intro row
    rw [laserHitRow_iff]
    simp only [EnemyShip.laserHit, Bool.and_eq_true, play_iff, Touched, enemy, and_comm,
      exists_and_left]
  have hboss : core.boss.laserHit core.bossFight core.laser.xPos core.laser.yPos = true ↔
      core.state = .bossFight ∧ core.BossTouched := by
    simp only [Boss.laserHit, Bool.and_eq_true, bossFight_iff, BossTouched, and_comm]
  simp only [laserHit, Bool.or_eq_true, hboss]
  rw [← exists_row_iff fun row =>
    (core.rows row).laserHitRow core.play core.laser.xPos core.laser.yPos = true]
  simp only [hrow, exists_and_left]

section NotYet

variable {core}

/-- Unless the game is lost, every ship in play is above the bottom row. -/
theorem enemy_above (hstate : core.state = .play) (hdied : core.died = false) (row : Fin 3)
    (col : Fin 6) : (core.enemy row col).yPos.toNat < 409 := by
  by_contra hlanded
  have hlost := core.died_iff.mpr (Or.inl ⟨hstate, row, col, by omega⟩)
  rw [hdied] at hlost
  cases hlost

theorem boss_above (hstate : core.state = .bossFight) (hdied : core.died = false) :
    core.boss.yPos.toNat < 409 := by
  by_contra hlanded
  have hlost := core.died_iff.mpr (Or.inr ⟨hstate, by omega⟩)
  rw [hdied] at hlost
  cases hlost

theorem died_eq_false_of_play (hstate : core.state = .play)
    (habove : ∀ row col, (core.enemy row col).yPos.toNat < 409) : core.died = false := by
  rw [Bool.eq_false_iff]
  intro hdied
  rcases core.died_iff.mp hdied with ⟨_, row, col, hlanded⟩ | ⟨hfight, _⟩
  · exact absurd hlanded (not_le.mpr (habove row col))
  · rw [hstate] at hfight
    cases hfight

theorem died_eq_false_of_bossFight (hstate : core.state = .bossFight)
    (habove : core.boss.yPos.toNat < 409) : core.died = false := by
  rw [Bool.eq_false_iff]
  intro hdied
  rcases core.died_iff.mp hdied with ⟨hplay, _⟩ | ⟨_, hlanded⟩
  · rw [hstate] at hplay
    cases hplay
  · exact absurd hlanded (not_le.mpr habove)

theorem died_eq_false_of_not_fighting (hstate : ¬ core.Fighting) : core.died = false := by
  rw [Bool.eq_false_iff]
  intro hdied
  rcases core.died_iff.mp hdied with ⟨hplay, _⟩ | ⟨hfight, _⟩
  · exact hstate (Or.inl hplay)
  · exact hstate (Or.inr hfight)

theorem untouched_of_no_hit (hstate : core.state = .play) (hhit : core.laserHit = false)
    (row : Fin 3) (col : Fin 6) : ¬ core.Touched row col := by
  intro htouched
  have hlaser := core.laserHit_iff.mpr (Or.inl ⟨hstate, row, col, htouched⟩)
  rw [hhit] at hlaser
  cases hlaser

theorem boss_untouched_of_no_hit (hstate : core.state = .bossFight)
    (hhit : core.laserHit = false) : ¬ core.BossTouched := by
  intro htouched
  have hlaser := core.laserHit_iff.mpr (Or.inr ⟨hstate, htouched⟩)
  rw [hhit] at hlaser
  cases hlaser

end NotYet

section Score

theorem EnemyShip.count_toNat (ship : EnemyShip) : ship.count.toNat = ship.enemyHit.toNat := by
  unfold EnemyShip.count
  cases ship.enemyHit <;> rfl

theorem scoreRow_toNat (row : EshipRow) :
    row.scoreRow.toNat = ∑ col, (row col).enemyHit.toNat := by
  have hbit : ∀ col, (row col).enemyHit.toNat ≤ 1 := fun col => Bool.toNat_le _
  have h0 := hbit 0
  have h1 := hbit 1
  have h2 := hbit 2
  have h3 := hbit 3
  have h4 := hbit 4
  have h5 := hbit 5
  simp only [EshipRow.scoreRow, BitVec.toNat_add, EnemyShip.count_toNat, Fin.sum_univ_six]
  omega

theorem sum_hits_le (row : EshipRow) : ∑ col, (row col).enemyHit.toNat ≤ 6 := by
  calc ∑ col, (row col).enemyHit.toNat ≤ ∑ _col : Fin 6, 1 :=
        Finset.sum_le_sum fun col _ => Bool.toNat_le _
    _ = 6 := rfl

/-- Nineteen bits at most, so the five-bit sum does not wrap. -/
theorem score_toNat :
    core.score.toNat =
      (∑ row, ∑ col, (core.enemy row col).enemyHit.toNat) + core.boss.enemyHit.toNat := by
  have h0 := sum_hits_le (core.rows 0)
  have h1 := sum_hits_le (core.rows 1)
  have h2 := sum_hits_le (core.rows 2)
  have hboss : core.boss.count.toNat = core.boss.enemyHit.toNat := by
    unfold Boss.count
    cases core.boss.enemyHit <;> rfl
  have hb := Bool.toNat_le core.boss.enemyHit
  simp only [score, BitVec.toNat_add, scoreRow_toNat, hboss, Fin.sum_univ_three, enemy]
  omega

/-- The score as one sum over the formation. -/
theorem score_toNat_eq_sum :
    core.score.toNat =
      (∑ target : Fin 3 × Fin 6, (core.enemy target.1 target.2).enemyHit.toNat) +
        core.boss.enemyHit.toNat := by
  rw [score_toNat, Fintype.sum_prod_type]

theorem sum_hits_eq_iff (row : EshipRow) :
    ∑ col, (row col).enemyHit.toNat = 6 ↔ ∀ col, (row col).enemyHit = true := by
  have hfull : ∑ col, (row col).enemyHit.toNat = ∑ _col : Fin 6, 1 ↔
      ∀ col ∈ Finset.univ, (row col).enemyHit.toNat = 1 :=
    Finset.sum_eq_sum_iff_of_le fun col _ => Bool.toNat_le _
  simpa using hfull

/-- The score with the boss alive is 18 exactly when all enemies are destroyed. -/
theorem killedAll1_iff (hboss : core.boss.enemyHit = false) :
    core.killedAll1 = true ↔ ∀ row col, (core.enemy row col).enemyHit = true := by
  have h0 := sum_hits_le (core.rows 0)
  have h1 := sum_hits_le (core.rows 1)
  have h2 := sum_hits_le (core.rows 2)
  have hscore := core.score_toNat
  simp only [hboss, Bool.toNat_false, Fin.sum_univ_three, enemy] at hscore
  have hrows : (∀ row col, (core.enemy row col).enemyHit = true) ↔
      ∀ row : Fin 3, ∑ col, (core.rows row col).enemyHit.toNat = 6 :=
    forall_congr' fun row => (sum_hits_eq_iff (core.rows row)).symm
  rw [hrows, killedAll1, beq_iff_eq, ← BitVec.toNat_inj, hscore]
  simp only [Fin.forall_fin_succ]
  simp
  omega

/-- The score is 19 exactly when all enemies and the boss are destroyed. -/
theorem killedAll2_iff :
    core.killedAll2 = true ↔
      (∀ row col, (core.enemy row col).enemyHit = true) ∧ core.boss.enemyHit = true := by
  have h0 := sum_hits_le (core.rows 0)
  have h1 := sum_hits_le (core.rows 1)
  have h2 := sum_hits_le (core.rows 2)
  have hscore := core.score_toNat
  simp only [Fin.sum_univ_three, enemy] at hscore
  have hrows : (∀ row col, (core.enemy row col).enemyHit = true) ↔
      ∀ row : Fin 3, ∑ col, (core.rows row col).enemyHit.toNat = 6 :=
    forall_congr' fun row => (sum_hits_eq_iff (core.rows row)).symm
  rw [hrows, killedAll2, beq_iff_eq, ← BitVec.toNat_inj, hscore]
  simp only [Fin.forall_fin_succ]
  cases core.boss.enemyHit <;> simp <;> omega

theorem done_iff : core.done = true ↔ core.died = true ∨ core.killedAll2 = true := by
  simp [done, killedAll2]

section Live

variable {core}

theorem killedAll1_eq_false (hboss : core.boss.enemyHit = false) {row : Fin 3} {col : Fin 6}
    (hlive : (core.enemy row col).enemyHit = false) : core.killedAll1 = false := by
  rw [Bool.eq_false_iff, ne_eq, core.killedAll1_iff hboss]
  intro hall
  have hhit := hall row col
  rw [hlive] at hhit
  cases hhit

/-- A live boss keeps the score below 19. -/
theorem killedAll2_eq_false (hlive : core.boss.enemyHit = false) : core.killedAll2 = false := by
  rw [Bool.eq_false_iff, ne_eq, killedAll2_iff, hlive]
  rintro ⟨_, hhit⟩
  cases hhit

theorem done_eq_false (hdied : core.died = false) (hkilled : core.killedAll2 = false) :
    core.done = false := by
  rw [Bool.eq_false_iff, ne_eq, done_iff, hdied, hkilled]
  simp

theorem died_of_not_done (hdone : core.done = false) : core.died = false := by
  rw [Bool.eq_false_iff]
  intro hdied
  rw [core.done_iff.mpr (Or.inl hdied)] at hdone
  cases hdone

theorem killedAll2_of_not_done (hdone : core.done = false) : core.killedAll2 = false := by
  rw [Bool.eq_false_iff]
  intro hkilled
  rw [core.done_iff.mpr (Or.inr hkilled)] at hdone
  cases hdone

theorem done_of_bossLogo (hstate : core.state = .bossLogo) (hboss : core.boss = Boss.home false) :
    core.done = false := by
  apply done_eq_false
  · exact died_eq_false_of_not_fighting (by simp [Fighting, hstate])
  · exact killedAll2_eq_false (by rw [hboss]; rfl)

end Live

end Score

section Next

variable (tick : Bool) (keycode : Keycode)

/-- The home registers of the enemy at `row`, `col`. -/
def homeShip (row : Fin 3) (col : Fin 6) (enemyHit : Bool) : EnemyShip :=
  EnemyShip.home (EshipRow.enemyXPos col) (yOffset row) enemyHit

theorem next_state :
    (core.next tick keycode).state =
      core.state.next keycode core.died core.killedAll1 core.killedAll2 := rfl

theorem next_laser :
    (core.next tick keycode).laser =
      core.laser.next core.play core.bossFight core.laserHit tick keycode
        core.ship.xPos core.ship.yPos := rfl

/-- A hit register is set by the hit test, keeps its value, and is cleared by
`done` before anything else. -/
theorem next_enemyHit_iff (row : Fin 3) (col : Fin 6) :
    ((core.next tick keycode).enemy row col).enemyHit = true ↔
      core.done = false ∧ ((core.enemy row col).enemyHit = true ∨ core.Touched row col) := by
  change HitController.next core.done
    ((core.enemy row col).laserHitTemp core.laser.xPos core.laser.yPos)
    (core.enemy row col).enemyHit = true ↔ _
  unfold HitController.next Touched
  cases core.done <;> cases (core.enemy row col).enemyHit <;> simp

/-- A live enemy that is not touched lives on. -/
theorem next_enemy_live {row : Fin 3} {col : Fin 6}
    (hlive : (core.enemy row col).enemyHit = false) (huntouched : ¬ core.Touched row col) :
    ((core.next tick keycode).enemy row col).enemyHit = false := by
  rw [Bool.eq_false_iff, ne_eq, next_enemyHit_iff, hlive]
  simp [huntouched]

/-- The boss's register is moreover zero outside its fight. -/
theorem next_bossHit_iff :
    (core.next tick keycode).boss.enemyHit = true ↔
      core.state = .bossFight ∧ core.done = false ∧
        (core.boss.enemyHit = true ∨ core.BossTouched) := by
  change HitControllerBoss.next core.bossFight core.done
    (core.boss.laserHitTemp core.laser.xPos core.laser.yPos) core.boss.enemyHit = true ↔ _
  rw [← bossFight_iff]
  unfold HitControllerBoss.next BossTouched
  cases core.bossFight <;> cases core.done <;> cases core.boss.enemyHit <;> simp

theorem next_boss_live (hlive : core.boss.enemyHit = false) (huntouched : ¬ core.BossTouched) :
    (core.next tick keycode).boss.enemyHit = false := by
  rw [Bool.eq_false_iff, ne_eq, next_bossHit_iff, hlive]
  simp [huntouched]

section Enemy

variable (row : Fin 3) (col : Fin 6)

theorem next_enemy :
    (core.next tick keycode).enemy row col =
      ((core.enemy row col).next (EshipRow.enemyXPos col) (yOffset row) core.play tick).withHit
        ((core.next tick keycode).enemy row col).enemyHit := rfl

/-- Outside play every enemy goes home. -/
theorem next_enemy_of_not_play (hstate : core.state ≠ .play) :
    (core.next tick keycode).enemy row col =
      homeShip row col ((core.next tick keycode).enemy row col).enemyHit := by
  refine (core.next_enemy tick keycode row col).trans ?_
  rw [EnemyShip.next, if_pos (core.play_eq_false_iff.mpr hstate)]
  rfl

/-- A ship in play at the bottom row goes home. -/
theorem next_enemy_landed (hstate : core.state = .play)
    (hlanded : 409 ≤ (core.enemy row col).yPos.toNat) :
    (core.next tick keycode).enemy row col =
      homeShip row col ((core.next tick keycode).enemy row col).enemyHit := by
  have hplay : ¬ core.play = false := by simp [core.play_iff.mpr hstate]
  refine (core.next_enemy tick keycode row col).trans ?_
  rw [EnemyShip.next, if_neg hplay, if_pos ((EnemyShip.bottomRow_le_iff _).mpr hlanded)]
  rfl

/-- A destroyed ship in play is parked in the corner. -/
theorem next_enemy_destroyed (hstate : core.state = .play)
    (habove : (core.enemy row col).yPos.toNat < 409)
    (hhit : (core.enemy row col).enemyHit = true) :
    (core.next tick keycode).enemy row col =
      EnemyShip.parkedAway.withHit ((core.next tick keycode).enemy row col).enemyHit := by
  have hplay : ¬ core.play = false := by simp [core.play_iff.mpr hstate]
  have hbottom : ¬ EnemyShip.bottomRow ≤ (core.enemy row col).yPos := by
    rw [EnemyShip.bottomRow_le_iff]
    omega
  refine (core.next_enemy tick keycode row col).trans ?_
  rw [EnemyShip.next, if_neg hplay, if_neg hbottom, if_pos hhit]
  rfl

/-- A live ship in play stays where it is between ticks. -/
theorem next_enemy_idle (hstate : core.state = .play)
    (habove : (core.enemy row col).yPos.toNat < 409)
    (hhit : (core.enemy row col).enemyHit = false) :
    (core.next false keycode).enemy row col =
      (core.enemy row col).withHit ((core.next false keycode).enemy row col).enemyHit := by
  have hplay : ¬ core.play = false := by simp [core.play_iff.mpr hstate]
  have hbottom : ¬ EnemyShip.bottomRow ≤ (core.enemy row col).yPos := by
    rw [EnemyShip.bottomRow_le_iff]
    omega
  refine (core.next_enemy false keycode row col).trans ?_
  rw [EnemyShip.next, if_neg hplay, if_neg hbottom, hhit]
  rfl

/-- A live ship in play moves at a tick. -/
theorem next_enemy_tick (hstate : core.state = .play) :
    (core.next true keycode).enemy row col =
      ((core.enemy row col).next (EshipRow.enemyXPos col) (yOffset row) true true).withHit
        ((core.next true keycode).enemy row col).enemyHit := by
  refine (core.next_enemy true keycode row col).trans ?_
  rw [core.play_iff.mpr hstate]

end Enemy

theorem next_boss :
    (core.next tick keycode).boss =
      (core.boss.next core.bossFight tick keycode).withHit
        (core.next tick keycode).boss.enemyHit := rfl

/-- Outside the fight the boss goes home, alive. -/
theorem next_boss_of_not_fight (hstate : core.state ≠ .bossFight) :
    (core.next tick keycode).boss = Boss.home false := by
  have hlive : (core.next tick keycode).boss.enemyHit = false := by
    rw [Bool.eq_false_iff, ne_eq, next_bossHit_iff]
    exact fun h => hstate h.1
  rw [next_boss, hlive, Boss.next, if_pos (core.bossFight_eq_false_iff.mpr hstate)]
  rfl

/-- A boss at the bottom row goes home, and its hit register is cleared. -/
theorem next_boss_landed (hstate : core.state = .bossFight)
    (hlanded : 409 ≤ core.boss.yPos.toNat) :
    (core.next tick keycode).boss = Boss.home false := by
  have hfight : ¬ core.bossFight = false := by simp [core.bossFight_iff.mpr hstate]
  have hdone : core.done = true :=
    core.done_iff.mpr (Or.inl (core.died_iff.mpr (Or.inr ⟨hstate, hlanded⟩)))
  have hlive : (core.next tick keycode).boss.enemyHit = false := by
    rw [Bool.eq_false_iff, ne_eq, next_bossHit_iff, hdone]
    exact fun h => Bool.noConfusion h.2.1
  rw [next_boss, hlive, Boss.next, if_neg hfight, if_pos ((Boss.bottomRow_le_iff _).mpr hlanded)]
  rfl

/-- A live boss stays where it is between ticks. -/
theorem next_boss_idle (hstate : core.state = .bossFight) (habove : core.boss.yPos.toNat < 409)
    (hhit : core.boss.enemyHit = false) :
    (core.next false keycode).boss =
      core.boss.withHit (core.next false keycode).boss.enemyHit := by
  have hfight : ¬ core.bossFight = false := by simp [core.bossFight_iff.mpr hstate]
  have hbottom : ¬ Boss.bottomRow ≤ core.boss.yPos := by
    rw [Boss.bottomRow_le_iff]
    omega
  refine (core.next_boss false keycode).trans ?_
  rw [Boss.next, if_neg hfight, if_neg hbottom, hhit]
  rfl

/-- The boss moves at a tick of its fight. -/
theorem next_boss_tick (hstate : core.state = .bossFight) :
    (core.next true keycode).boss =
      (core.boss.next true true keycode).withHit (core.next true keycode).boss.enemyHit := by
  refine (core.next_boss true keycode).trans ?_
  rw [core.bossFight_iff.mpr hstate]

end Next

end Core

end Galaga
