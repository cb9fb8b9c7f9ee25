import Galaga.Game.Signals
import Galaga.Motion.Overlap
import Galaga.Motion.Shot
import Galaga.Motion.UserShip
import Mathlib.Tactic.FinCases

/-! # The joint invariant of the game registers

`Core.Inv` says, state by state, where the ships, the boss and the laser can
be. It is kept by every cycle whose frame ticks find the game quiet, and after
a cycle without a tick the game is quiet: a hit or a landing shows in the one
cycle that follows a tick and nowhere else.
-/

namespace Galaga

open InvaderPath

theorem enemyXPos_eq (col : Fin 6) : EshipRow.enemyXPos col = BitVec.ofNat 10 (50 * col + 50) := by
  fin_cases col <;> rfl

theorem yOffset_eq (row : Fin 3) : Core.yOffset row = BitVec.ofNat 10 (80 * row) := by
  fin_cases row <;> rfl

/-- The live ship at `row`, `col` after `n` ticks of play. -/
def formation (row : Fin 3) (col : Fin 6) (n : ℕ) : EnemyShip :=
  EnemyShip.onPath (80 * row) (50 * col + 50 + n) false

/-- The Y position of that ship. -/
def formationRow (row : Fin 3) (col : Fin 6) (n : ℕ) : ℕ :=
  80 * row + descent (50 * col + 50 + n) - 30

theorem formation_yPos {row : Fin 3} {col : Fin 6} {n : ℕ} (hrow : formationRow row col n ≤ 410) :
    (formation row col n).yPos.toNat = formationRow row col n :=
  EnemyShip.onPath_yPos_toNat _ (Nat.lt_of_le_of_lt hrow (by decide))

theorem homeShip_eq (row : Fin 3) (col : Fin 6) (enemyHit : Bool) :
    Core.homeShip row col enemyHit = (formation row col 0).withHit enemyHit := by
  have hcol := col.isLt
  rw [Core.homeShip, enemyXPos_eq, yOffset_eq,
    EnemyShip.home_eq_onPath (by omega) (by omega)]
  rfl

theorem formationRow_zero_le : ∀ row col, formationRow row col 0 ≤ 410 := by
  decide

theorem homeShip_yPos_le (row : Fin 3) (col : Fin 6) (enemyHit : Bool) :
    (Core.homeShip row col enemyHit).yPos.toNat ≤ 160 := by
  have hrow := row.isLt
  simp only [Core.homeShip, EnemyShip.home, yOffset_eq, BitVec.toNat_ofNat]
  exact (Nat.mod_le _ _).trans (by omega)

/-- All rows of the path are multiples of ten, so a ship that is above the
bottom row is at 400 at most and lands on 410 exactly. -/
theorem formationRow_succ_le {row : Fin 3} {col : Fin 6} {n : ℕ}
    (habove : formationRow row col n < 409) : formationRow row col (n + 1) ≤ 410 := by
  have hstep := descent_succ (50 * col + 50 + n)
  have hstarted := thirty_le_descent (show 3 ≤ 50 * (col : ℕ) + 50 + n by omega)
  have hten : descent (50 * col + 50 + n) % 10 = 0 := by
    unfold descent
    omega
  have hsucc : 50 * (col : ℕ) + 50 + (n + 1) = 50 * col + 50 + n + 1 := by omega
  unfold formationRow at *
  rw [hsucc, hstep]
  split_ifs <;> omega

theorem formation_next {row : Fin 3} {col : Fin 6} {n : ℕ} (homeX homeY : Coord)
    (habove : formationRow row col n < 409) :
    (formation row col n).next homeX homeY true true = formation row col (n + 1) :=
  EnemyShip.next_onPath (by omega) habove

/-- A destroyed ship during play: in the corner, or, for one cycle, where it
was hit, while the laser is already back at the ship. -/
def Wreck (laser : UserLaser) (ship : EnemyShip) : Prop :=
  ship = EnemyShip.parkedAway ∨
    (ship.enemyHit = true ∧ ship.yPos.toNat < 409 ∧ laser.yPos.toNat = 441)

theorem Wreck.enemyHit {laser : UserLaser} {ship : EnemyShip} (hwreck : Wreck laser ship) :
    ship.enemyHit = true := by
  rcases hwreck with rfl | ⟨hhit, _, _⟩
  · rfl
  · exact hhit

theorem Wreck.above {laser : UserLaser} {ship : EnemyShip} (hwreck : Wreck laser ship) :
    ship.yPos.toNat < 409 := by
  rcases hwreck with rfl | ⟨_, habove, _⟩
  · decide
  · exact habove

/-- A wreck never stops the laser. -/
theorem Wreck.untouched {laser : UserLaser} {ship : EnemyShip} (hwreck : Wreck laser ship)
    (hmuzzle : laser.xPos.toNat ≤ 610) : ship.laserHitTemp laser.xPos laser.yPos = false := by
  rcases hwreck with rfl | ⟨_, habove, hlaser⟩
  · apply HitController.temp_eq_false_of_right
    change laser.xPos.toNat + 20 < 639
    omega
  · apply HitController.temp_eq_false_of_above <;> omega

namespace Core

/-- Nothing is stopping the laser and nothing has landed. -/
structure Quiet (core : Core) : Prop where
  laserHit : core.laserHit = false
  died : core.died = false

/-- Play after `n` ticks: each ship is on its path, at 410 at the lowest, or is
a wreck. -/
structure Playing (core : Core) (n : ℕ) : Prop where
  enemies : ∀ row col,
    (core.enemy row col = formation row col n ∧ formationRow row col n ≤ 410) ∨
      Wreck core.laser (core.enemy row col)
  boss : core.boss = Boss.home false

/-- The boss fight: all enemies stay destroyed, and the boss roams or has just
been hit. -/
structure BossFighting (core : Core) : Prop where
  destroyed : ∀ row col, (core.enemy row col).enemyHit = true
  boss : core.boss.Roaming ∨
    (core.boss.enemyHit = true ∧ core.boss.yPos.toNat < 409 ∧ core.laser.yPos.toNat = 441)

/-- The joint invariant. -/
structure Inv (core : Core) : Prop where
  ship : core.ship.Reached
  laser : ∃ shot : Shot, core.laser = shot.toLaser core.laser.xPos ∧
    (shot = .unset → core.state = .start)
  muzzle : 3 ≤ core.laser.xPos.toNat ∧ core.laser.xPos.toNat ≤ 610
  start : core.state = .start →
    (∀ row col, core.enemy row col = homeShip row col (core.enemy row col).enemyHit) ∧
      core.boss = Boss.home false
  play : core.state = .play → ∃ n ≤ 8492, core.Playing n
  bossLogo : core.state = .bossLogo →
    (∀ row col, (core.enemy row col).enemyHit = true) ∧ core.boss = Boss.home false
  bossFight : core.state = .bossFight → core.BossFighting
  gameover : core.state = .gameover → core.boss = Boss.home false
  win : core.state = .win →
    (∀ row col, core.enemy row col = homeShip row col false) ∧ core.boss.enemyHit = false ∧
      437 ≤ core.laser.yPos.toNat ∧ core.laser.yPos.toNat ≤ 441

section Step

variable {core : Core}

theorem Playing.boss_live {n : ℕ} (hplaying : core.Playing n) : core.boss.enemyHit = false := by
  rw [hplaying.boss]
  rfl

theorem Playing.done {n : ℕ} (hplaying : core.Playing n) (hdied : core.died = false) :
    core.done = false :=
  done_eq_false hdied (killedAll2_eq_false hplaying.boss_live)

/-- In play only live ships are hit or land. -/
theorem Playing.touched_live {n : ℕ} (hplaying : core.Playing n)
    (hmuzzle : core.laser.xPos.toNat ≤ 610) {row : Fin 3} {col : Fin 6}
    (htouched : core.Touched row col) :
    core.enemy row col = formation row col n ∧ formationRow row col n ≤ 410 := by
  refine (hplaying.enemies row col).resolve_right fun hwreck => ?_
  rw [Touched, hwreck.untouched hmuzzle] at htouched
  cases htouched

theorem Playing.landed_live {n : ℕ} (hplaying : core.Playing n) {row : Fin 3} {col : Fin 6}
    (hlanded : 409 ≤ (core.enemy row col).yPos.toNat) :
    core.enemy row col = formation row col n ∧ formationRow row col n ≤ 410 := by
  refine (hplaying.enemies row col).resolve_right fun hwreck => ?_
  have habove := hwreck.above
  omega

/-- One cycle of play that is not lost. A ship hit in it is a wreck in the next
cycle, where it stands, because the same cycle brings the laser back. -/
theorem Playing.next {n : ℕ} (hplaying : core.Playing n) (hstate : core.state = .play)
    (hship : core.ship.Reached) (hdied : core.died = false) (tick : Bool)
    (hquiet : tick = true → core.Quiet) (keycode : Keycode) :
    (core.next tick keycode).Playing (n + tick.toNat) := by
  have hdone := hplaying.done hdied
  have habove := enemy_above hstate hdied
  refine ⟨?_, core.next_boss_of_not_fight tick keycode (by simp [hstate])⟩
  intro row col
  have hhit := core.next_enemyHit_iff tick keycode row col
  rcases hplaying.enemies row col with ⟨hlive, hrow⟩ | hwreck
  -- a live ship moves at a tick and can be hit in any other cycle
  · have hrow' : formationRow row col n < 409 := by
      rw [← formation_yPos hrow, ← hlive]
      exact habove row col
    have hfresh : (core.enemy row col).enemyHit = false := by rw [hlive]; rfl
    cases tick with
    | true =>
        have huntouched := untouched_of_no_hit hstate (hquiet rfl).laserHit row col
        have hstay := core.next_enemy_live true keycode hfresh huntouched
        left
        rw [core.next_enemy_tick keycode row col hstate, hstay, hlive,
          formation_next _ _ hrow']
        exact ⟨rfl, formationRow_succ_le hrow'⟩
    | false =>
        rw [core.next_enemy_idle keycode row col hstate (habove row col) hfresh]
        by_cases htouched : core.Touched row col
        · right
          right
          refine ⟨hhit.mpr ⟨hdone, Or.inr htouched⟩, habove row col, ?_⟩
          rw [next_laser, core.laserHit_iff.mpr (Or.inl ⟨hstate, row, col, htouched⟩),
            UserLaser.next_hit (Or.inl (core.play_iff.mpr hstate)) hship.muzzle.2.2,
            Shot.toLaser_yPos_toNat, Shot.onHit_row]
        · left
          rw [core.next_enemy_live false keycode hfresh htouched, hlive]
          exact ⟨rfl, hrow⟩
  · -- a wreck is in the corner from the second cycle on
    right
    left
    rw [core.next_enemy_destroyed tick keycode row col hstate (habove row col) hwreck.enemyHit,
      hhit.mpr ⟨hdone, Or.inl hwreck.enemyHit⟩]
    rfl

/-- Until the fight is won the boss is alive. -/
theorem BossFighting.boss_live (hfighting : core.BossFighting)
    (hkilled : core.killedAll2 = false) : core.boss.enemyHit = false := by
  rw [Bool.eq_false_iff]
  intro hhit
  have hall := core.killedAll2_iff.mpr ⟨hfighting.destroyed, hhit⟩
  rw [hkilled] at hall
  cases hall

theorem BossFighting.roaming_of_live (hfighting : core.BossFighting)
    (hlive : core.boss.enemyHit = false) : core.boss.Roaming := by
  rcases hfighting.boss with hroaming | ⟨hhit, _, _⟩
  · exact hroaming
  · rw [hlive] at hhit
    cases hhit

/-- One cycle of the boss fight that neither side wins. -/
theorem BossFighting.next (hfighting : core.BossFighting) (hstate : core.state = .bossFight)
    (hship : core.ship.Reached) (hdied : core.died = false) (hkilled : core.killedAll2 = false)
    (tick : Bool) (hquiet : tick = true → core.Quiet) (keycode : Keycode) :
    (core.next tick keycode).BossFighting := by
  have hdone := done_eq_false hdied hkilled
  have habove := boss_above hstate hdied
  have hlive := hfighting.boss_live hkilled
  have hroaming := hfighting.roaming_of_live hlive
  refine ⟨fun row col => ?_, ?_⟩
  · exact (core.next_enemyHit_iff tick keycode row col).mpr
      ⟨hdone, Or.inl (hfighting.destroyed row col)⟩
  · cases tick with
    | true =>
        have huntouched := boss_untouched_of_no_hit hstate (hquiet rfl).laserHit
        have hstay := core.next_boss_live true keycode hlive huntouched
        have hnext := hroaming.next_tick habove keycode
        left
        rw [core.next_boss_tick keycode hstate, hstay, ← hnext.live, Boss.withHit_self]
        exact hnext
    | false =>
        rw [core.next_boss_idle keycode hstate habove hlive]
        by_cases htouched : core.BossTouched
        · right
          have hhit := (core.next_bossHit_iff false keycode).mpr
            ⟨hstate, hdone, Or.inr htouched⟩
          refine ⟨hhit, habove, ?_⟩
          -- the hit that this cycle registers also brings the laser back
          rw [next_laser, core.laserHit_iff.mpr (Or.inr ⟨hstate, htouched⟩),
            UserLaser.next_hit (Or.inr (core.bossFight_iff.mpr hstate)) hship.muzzle.2.2,
            Shot.toLaser_yPos_toNat, Shot.onHit_row]
        · left
          rw [core.next_boss_live false keycode hlive htouched, ← hlive, Boss.withHit_self]
          exact hroaming

end Step

end Core

end Galaga
