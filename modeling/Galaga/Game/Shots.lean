import Galaga.Game.Formation
import Galaga.Game.Outcome
import Galaga.Game.Scripted

/-! # What a shot destroys

No destroyed ship ever stops the laser, so every shot that is stopped destroys
something. The hit controllers do not look at `space_pressed` and nothing
arbitrates between them. A shot that has left the screen therefore still
destroys a ship that moves into it while it is retired, and a shot between two
columns destroys a ship of each.
-/

namespace Galaga

namespace Core

variable {core : Core}

section Destroyed

/-- A destroyed enemy does not stop the laser. -/
theorem Inv.untouched_of_destroyed (hinv : core.Inv) (hstate : core.state = .play) {row : Fin 3}
    {col : Fin 6} (hhit : (core.enemy row col).enemyHit = true) : ¬ core.Touched row col := by
  obtain ⟨n, _, hplaying⟩ := hinv.play hstate
  intro htouched
  rw [(hplaying.touched_live hinv.muzzle.2 htouched).1] at hhit
  cases hhit

/-- Nor does a destroyed boss. -/
theorem Inv.boss_untouched_of_destroyed (hinv : core.Inv) (hhit : core.boss.enemyHit = true) :
    ¬ core.BossTouched := by
  intro htouched
  rcases (hinv.bossFight (hinv.state_of_bossHit hhit)).boss with
    hroaming | ⟨_, habove, hlaunch⟩
  · rw [hroaming.live] at hhit
    cases hhit
  · rw [BossTouched, boss_untouched_of_launch hlaunch habove] at htouched
    cases htouched

/-- The score grows when a register is set and none is cleared. -/
theorem score_lt_of_hits {later : Core}
    (henemies : ∀ row col, (core.enemy row col).enemyHit = true →
      (later.enemy row col).enemyHit = true)
    (hboss : core.boss.enemyHit = true → later.boss.enemyHit = true)
    (hsome : (∃ row col, (core.enemy row col).enemyHit = false ∧
      (later.enemy row col).enemyHit = true) ∨
        (core.boss.enemyHit = false ∧ later.boss.enemyHit = true)) :
    core.score < later.score := by
  have hkeep : ∀ target ∈ (Finset.univ : Finset (Fin 3 × Fin 6)),
      (core.enemy target.1 target.2).enemyHit.toNat ≤
        (later.enemy target.1 target.2).enemyHit.toNat :=
    fun target _ => Bool.toNat_le_toNat (henemies target.1 target.2)
  rw [BitVec.lt_def, score_toNat_eq_sum, score_toNat_eq_sum]
  rcases hsome with ⟨row, col, hbefore, hafter⟩ | ⟨hbefore, hafter⟩
  · refine Nat.add_lt_add_of_lt_of_le ?_ (Bool.toNat_le_toNat hboss)
    refine Finset.sum_lt_sum hkeep ⟨(row, col), Finset.mem_univ _, ?_⟩
    rw [hbefore, hafter]
    exact Nat.zero_lt_one
  · refine Nat.add_lt_add_of_le_of_lt (Finset.sum_le_sum hkeep) ?_
    rw [hbefore, hafter]
    exact Nat.zero_lt_one

/-- While nothing is cleared, a stopped laser sets a register. -/
theorem Inv.kill_of_laserHit (hinv : core.Inv) (hlaser : core.laserHit = true)
    (hdone : core.done = false) (tick : Bool) (keycode : Keycode) :
    (∃ row col, (core.enemy row col).enemyHit = false ∧
      ((core.next tick keycode).enemy row col).enemyHit = true) ∨
        (core.boss.enemyHit = false ∧ (core.next tick keycode).boss.enemyHit = true) := by
  rcases core.laserHit_iff.mp hlaser with ⟨hstate, row, col, htouched⟩ | ⟨hstate, htouched⟩
  · left
    refine ⟨row, col, ?_, (core.next_enemyHit_iff _ _ row col).mpr ⟨hdone, Or.inr htouched⟩⟩
    rw [Bool.eq_false_iff]
    exact fun hhit => hinv.untouched_of_destroyed hstate hhit htouched
  · right
    refine ⟨?_, (core.next_bossHit_iff _ _).mpr ⟨hstate, hdone, Or.inr htouched⟩⟩
    rw [Bool.eq_false_iff]
    exact fun hhit => hinv.boss_untouched_of_destroyed hhit htouched

end Destroyed

section Ghost

/-- The hit test at the position that the next tick gives a ship. -/
def MetByEnemy (laser : UserLaser) (ship : EnemyShip) : Prop :=
  HitController.temp (ship.xPos + ship.xMotion) (ship.yPos + ship.yMotion) laser.xPos
    laser.yPos = true

def MetByBoss (laser : UserLaser) (boss : Boss) : Prop :=
  HitControllerBoss.temp (boss.xPos + boss.xMotion) (boss.yPos + boss.yMotion) laser.xPos
    laser.yPos = true

/-- A tick that retires a shot above the screen and at the same time moves a
live target to where that shot is. -/
def GhostShot (tick : Bool) (keycode : Keycode) (core : Core) : Prop :=
  tick = true ∧ keycode ≠ keySpace ∧ core.laser.spacePressed = true ∧
    UserLaser.yMax ≤ core.laser.yPos ∧
    ((core.state = .play ∧ ∃ row col, (core.enemy row col).enemyHit = false ∧
      MetByEnemy core.laser (core.enemy row col)) ∨
        (core.state = .bossFight ∧ core.boss.enemyHit = false ∧ MetByBoss core.laser core.boss))

/-- A register that is set in this cycle was hit by a fired shot. -/
def OnlyFiredKills (core later : Core) : Prop :=
  (core.state = .play → ∀ row col, (core.enemy row col).enemyHit = false →
    (later.enemy row col).enemyHit = true → core.laser.spacePressed = true) ∧
  (core.state = .bossFight → core.boss.enemyHit = false → later.boss.enemyHit = true →
    core.laser.spacePressed = true)

theorem retired_iff {shot : Shot} (hlaser : core.laser = shot.toLaser core.laser.xPos) :
    (core.laser.spacePressed = true ∧ UserLaser.yMax ≤ core.laser.yPos) ↔
      shot = .flying 111 := by
  rw [← Shot.fired_and_past_iff, hlaser, BitVec.le_def, Shot.toLaser_yPos_toNat]
  rfl

/-- The retired shot stays where it was, above the screen. -/
theorem next_laser_of_retired (hship : core.ship.Reached) (hstate : core.Fighting)
    (hlaser : core.laser = (Shot.flying 111).toLaser core.laser.xPos)
    (hhit : core.laserHit = false) {keycode : Keycode} (hkey : keycode ≠ keySpace) :
    (core.next true keycode).laser = Shot.spent.toLaser core.laser.xPos := by
  have hspace : (keycode == keySpace) = false := by simpa using hkey
  rw [next_laser_of_tick hship hstate hlaser hhit keycode, hspace]
  rfl

theorem yPos_of_retired (hlaser : core.laser = (Shot.flying 111).toLaser core.laser.xPos) :
    core.laser.yPos = 1021#10 := by
  rw [hlaser]
  rfl

/-- Where a tick takes a live enemy. -/
theorem next_enemy_position (hstate : core.state = .play) {row : Fin 3} {col : Fin 6}
    (habove : (core.enemy row col).yPos.toNat < 409)
    (hlive : (core.enemy row col).enemyHit = false) (keycode : Keycode) :
    ((core.next true keycode).enemy row col).xPos =
        (core.enemy row col).xPos + (core.enemy row col).xMotion ∧
      ((core.next true keycode).enemy row col).yPos =
        (core.enemy row col).yPos + (core.enemy row col).yMotion := by
  have hbottom : ¬ EnemyShip.bottomRow ≤ (core.enemy row col).yPos := by
    rw [EnemyShip.bottomRow_le_iff]
    omega
  rw [core.next_enemy_tick keycode row col hstate]
  simp [EnemyShip.next, EnemyShip.withHit, hbottom, hlive]

/-- Where a tick takes a live boss. -/
theorem next_boss_position (hstate : core.state = .bossFight)
    (habove : core.boss.yPos.toNat < 409) (hlive : core.boss.enemyHit = false)
    (keycode : Keycode) :
    (core.next true keycode).boss.xPos = core.boss.xPos + core.boss.xMotion ∧
      (core.next true keycode).boss.yPos = core.boss.yPos + core.boss.yMotion := by
  rw [core.next_boss_tick keycode hstate, Boss.next_tick hlive habove]
  exact ⟨rfl, rfl⟩

/-- A ship that meets a shot above the screen is itself in its first rows, so
no ship is near the bottom. -/
theorem formationRow_lt_of_top {row : Fin 3} {col : Fin 6} {n : ℕ}
    (htop : formationRow row col n ≤ 46) (row' : Fin 3) (col' : Fin 6) :
    formationRow row' col' n < 409 := by
  have hlow := formationRow_eq row col n
  have hlow' := formationRow_eq row' col' n
  have hlast : InvaderPath.descent (50 * col' + 50 + n) ≤
      InvaderPath.descent (50 * col + 50 + n + 250) := InvaderPath.descent_mono (by omega)
  have hspread : InvaderPath.descent (50 * col + 50 + n + 250) ≤
      InvaderPath.descent (50 * col + 50 + n) + 60 := by
    unfold InvaderPath.descent
    omega
  omega

theorem row_le_of_temp_above {shipX shipY laserX : Coord} (hship : shipY.toNat ≤ 418)
    (htemp : HitController.temp shipX shipY laserX 1021#10 = true) : shipY.toNat ≤ 46 := by
  rw [HitController.temp_iff, overlap_iff] at htemp
  have hrows := htemp.2
  simp at hrows
  omega

/-- A tick is on time for a ghost shot's kill: nothing is landing after it. -/
theorem Playing.died_of_top {n : ℕ} (hplaying : core.Playing n) (hstate : core.state = .play)
    {row : Fin 3} {col : Fin 6} (htop : formationRow row col n ≤ 46) : core.died = false := by
  apply died_eq_false_of_play hstate
  intro row' col'
  rcases hplaying.enemies row' col' with ⟨hship, hrow⟩ | hwreck
  · rw [hship, formation_yPos hrow]
    exact formationRow_lt_of_top htop row' col'
  · exact hwreck.above

section Unfired

variable {keycode : Keycode}

/-- The cycle after a ghost shot over an enemy is one in which a shot that is
not in flight is about to destroy it. -/
theorem Inv.unfired_enemy (hinv : core.Inv) (hquiet : core.Quiet) (hkey : keycode ≠ keySpace)
    (hlaser : core.laser = (Shot.flying 111).toLaser core.laser.xPos)
    (hstate : core.state = .play) {row : Fin 3} {col : Fin 6}
    (hlive : (core.enemy row col).enemyHit = false)
    (hmet : MetByEnemy core.laser (core.enemy row col)) :
    (core.next true keycode).state = .play ∧
      ((core.next true keycode).enemy row col).enemyHit = false ∧
      (core.next true keycode).Touched row col ∧ (core.next true keycode).done = false ∧
      (core.next true keycode).laser.spacePressed = false := by
  obtain ⟨n, _, hplaying⟩ := hinv.play hstate
  have habove := enemy_above hstate hquiet.died row col
  have hplaying' : (core.next true keycode).Playing (n + 1) :=
    hplaying.next hstate hinv.ship hquiet.died true (fun _ => hquiet) keycode
  have hremain := killedAll1_eq_false hplaying.boss_live hlive
  have hstate' : (core.next true keycode).state = .play := by
    rw [next_state, hquiet.died, hremain, hstate]
    rfl
  have hlaser' := next_laser_of_retired hinv.ship (Or.inl hstate) hlaser hquiet.laserHit hkey
  have hlive' := core.next_enemy_live true keycode hlive
    (untouched_of_no_hit hstate hquiet.laserHit row col)
  obtain ⟨hx, hy⟩ := next_enemy_position hstate habove hlive keycode
  have hyLaser := yPos_of_retired hlaser
  have htouched : (core.next true keycode).Touched row col := by
    rw [Touched, EnemyShip.laserHitTemp, hlaser', hx, hy]
    rw [MetByEnemy, hyLaser] at hmet
    exact hmet
  refine ⟨hstate', hlive', htouched, ?_, by rw [hlaser']; rfl⟩
  obtain ⟨hship', hrow'⟩ := hplaying'.formation_of_live hlive'
  have htop : formationRow row col (n + 1) ≤ 46 := by
    rw [Touched, EnemyShip.laserHitTemp, hlaser', hship'] at htouched
    rw [← formation_yPos hrow']
    exact row_le_of_temp_above (by rw [formation_yPos hrow']; omega) htouched
  exact hplaying'.done (hplaying'.died_of_top hstate' htop)

/-- The same for the boss. -/
theorem Inv.unfired_boss (hinv : core.Inv) (hquiet : core.Quiet) (hkey : keycode ≠ keySpace)
    (hlaser : core.laser = (Shot.flying 111).toLaser core.laser.xPos)
    (hstate : core.state = .bossFight) (hlive : core.boss.enemyHit = false)
    (hmet : MetByBoss core.laser core.boss) :
    (core.next true keycode).state = .bossFight ∧
      (core.next true keycode).boss.enemyHit = false ∧
      (core.next true keycode).BossTouched ∧ (core.next true keycode).done = false ∧
      (core.next true keycode).laser.spacePressed = false := by
  have habove := boss_above hstate hquiet.died
  have hremain := killedAll2_eq_false hlive
  have hstate' : (core.next true keycode).state = .bossFight := by
    rw [next_state, hquiet.died, hremain, hstate]
    rfl
  have hlaser' := next_laser_of_retired hinv.ship (Or.inr hstate) hlaser hquiet.laserHit hkey
  have hlive' := core.next_boss_live true keycode hlive
    (boss_untouched_of_no_hit hstate hquiet.laserHit)
  obtain ⟨hx, hy⟩ := next_boss_position hstate habove hlive keycode
  have hyLaser := yPos_of_retired hlaser
  have htouched : (core.next true keycode).BossTouched := by
    rw [BossTouched, Boss.laserHitTemp, hlaser', hx, hy]
    rw [MetByBoss, hyLaser] at hmet
    exact hmet
  have hfighting' : (core.next true keycode).BossFighting :=
    (hinv.bossFight hstate).next hstate hinv.ship hquiet.died hremain true (fun _ => hquiet)
      keycode
  have hroaming' := hfighting'.roaming_of_live hlive'
  refine ⟨hstate', hlive', htouched, ?_, by rw [hlaser']; rfl⟩
  have htop : (core.next true keycode).boss.yPos.toNat ≤ 46 := by
    rw [BossTouched, Boss.laserHitTemp, HitControllerBoss.temp_eq, hlaser'] at htouched
    exact row_le_of_temp_above hroaming'.height htouched
  apply done_eq_false
  · exact died_eq_false_of_bossFight hstate' (by omega)
  · exact killedAll2_eq_false hlive'

/-- A shot that is not in flight but touches a target has just been retired. -/
theorem Inv.retired_of_unfired_hit (hinv : core.Inv) {tick : Bool}
    (hquiet : tick = true → core.Quiet) (hstate : core.Fighting)
    (hhit' : (core.next tick keycode).laserHit = true)
    (hrow' : (core.next tick keycode).laser.yPos.toNat ≠ 441)
    (hunfired : (core.next tick keycode).laser.spacePressed = false) :
    tick = true ∧ keycode ≠ keySpace ∧
      core.laser = (Shot.flying 111).toLaser core.laser.xPos := by
  cases tick with
  | false =>
      rw [hinv.next_laserHit keycode] at hhit'
      cases hhit'
  | true =>
      obtain ⟨shot, hlaser, _⟩ := hinv.laser
      have hlaser' := next_laser_of_tick hinv.ship hstate hlaser (hquiet rfl).laserHit keycode
      rw [hlaser', Shot.toLaser_yPos_toNat] at hrow'
      rw [hlaser', Shot.toLaser_spacePressed] at hunfired
      have hspent : shot.onTick (keycode == keySpace) = .spent := by
        apply Shot.eq_spent _ hunfired
        rcases Shot.row_of_not_fired hunfired with h441 | h1021 | hunset
        · exact absurd h441 hrow'
        · exact h1021
        · exact absurd hunset (Shot.onTick_ne_unset _ _)
      obtain ⟨hshot, hspace⟩ := Shot.onTick_eq_spent_iff.mp hspent
      rw [hshot] at hlaser
      exact ⟨rfl, by simpa using hspace, hlaser⟩

theorem Inv.ghost_of_unfired_enemy (hinv : core.Inv) {tick : Bool}
    (hquiet : tick = true → core.Quiet) (hstate' : (core.next tick keycode).state = .play)
    {row : Fin 3} {col : Fin 6} (hlive' : ((core.next tick keycode).enemy row col).enemyHit = false)
    (htouched : (core.next tick keycode).Touched row col)
    (hunfired : (core.next tick keycode).laser.spacePressed = false) :
    GhostShot tick keycode core := by
  have hinv' := hinv.next tick keycode hquiet
  obtain ⟨n, _, hplaying'⟩ := hinv'.play hstate'
  have hrow' : (core.next tick keycode).laser.yPos.toNat ≠ 441 := by
    intro hlaunch
    obtain ⟨hship', hrow'⟩ := hplaying'.formation_of_live hlive'
    have hheight := formation_yPos hrow'
    rw [Touched, untouched_of_launch (by omega) (by rw [hship', hheight]; omega)] at htouched
    cases htouched
  rcases State.next_eq_play hstate' with hstart | ⟨hstate, hdied, _⟩
  · -- in the first cycle of play the laser is parked
    have hnot : ¬ core.Fighting := by simp [Fighting, hstart]
    exact absurd (next_laser_row_of_not_fighting hinv.ship hnot tick keycode) hrow'
  · have hhit' := (core.next tick keycode).laserHit_iff.mpr (Or.inl ⟨hstate', row, col, htouched⟩)
    obtain ⟨rfl, hkey, hlaser⟩ :=
      hinv.retired_of_unfired_hit hquiet (Or.inl hstate) hhit' hrow' hunfired
    obtain ⟨hfired, hpast⟩ := (retired_iff hlaser).mpr rfl
    obtain ⟨m, _, hplaying⟩ := hinv.play hstate
    have hlive : (core.enemy row col).enemyHit = false := by
      rw [Bool.eq_false_iff]
      intro hhit
      have hkeep := (core.next_enemyHit_iff true keycode row col).mpr
        ⟨hplaying.done hdied, Or.inl hhit⟩
      rw [hlive'] at hkeep
      cases hkeep
    refine ⟨rfl, hkey, hfired, hpast, Or.inl ⟨hstate, row, col, hlive, ?_⟩⟩
    obtain ⟨hx, hy⟩ :=
      next_enemy_position hstate (enemy_above hstate hdied row col) hlive keycode
    have hlaser' :=
      next_laser_of_retired hinv.ship (Or.inl hstate) hlaser (hquiet rfl).laserHit hkey
    rw [Touched, EnemyShip.laserHitTemp, hlaser', hx, hy] at htouched
    rw [MetByEnemy, yPos_of_retired hlaser]
    exact htouched

theorem Inv.ghost_of_unfired_boss (hinv : core.Inv) {tick : Bool}
    (hquiet : tick = true → core.Quiet) (hstate' : (core.next tick keycode).state = .bossFight)
    (hlive' : (core.next tick keycode).boss.enemyHit = false)
    (htouched : (core.next tick keycode).BossTouched)
    (habove' : (core.next tick keycode).boss.yPos.toNat < 409)
    (hunfired : (core.next tick keycode).laser.spacePressed = false) :
    GhostShot tick keycode core := by
  have hrow' : (core.next tick keycode).laser.yPos.toNat ≠ 441 := by
    intro hlaunch
    rw [BossTouched, boss_untouched_of_launch hlaunch habove'] at htouched
    cases htouched
  rcases State.next_eq_bossFight hstate' with hlogo | ⟨hstate, hdied, hkilled⟩
  · have hnot : ¬ core.Fighting := by simp [Fighting, hlogo]
    exact absurd (next_laser_row_of_not_fighting hinv.ship hnot tick keycode) hrow'
  · have hhit' := (core.next tick keycode).laserHit_iff.mpr (Or.inr ⟨hstate', htouched⟩)
    obtain ⟨rfl, hkey, hlaser⟩ :=
      hinv.retired_of_unfired_hit hquiet (Or.inr hstate) hhit' hrow' hunfired
    obtain ⟨hfired, hpast⟩ := (retired_iff hlaser).mpr rfl
    have hlive := (hinv.bossFight hstate).boss_live hkilled
    refine ⟨rfl, hkey, hfired, hpast, Or.inr ⟨hstate, hlive, ?_⟩⟩
    obtain ⟨hx, hy⟩ := next_boss_position hstate (boss_above hstate hdied) hlive keycode
    have hlaser' :=
      next_laser_of_retired hinv.ship (Or.inr hstate) hlaser (hquiet rfl).laserHit hkey
    rw [BossTouched, Boss.laserHitTemp, hlaser', hx, hy] at htouched
    rw [MetByBoss, yPos_of_retired hlaser]
    exact htouched

end Unfired

end Ghost

end Core

namespace Run

open Galaga.Core

/-- A shot is stopped by live targets only, and destroys one. -/
theorem shot_consumed_only_by_kill (run : Run) (n : ℕ) :
    ((run.core n).laserHit = true → (run.core n).done = false →
      ((∃ row col, ((run.core n).enemy row col).enemyHit = false ∧
        ((run.core (n + 1)).enemy row col).enemyHit = true) ∨
          ((run.core n).boss.enemyHit = false ∧ (run.core (n + 1)).boss.enemyHit = true)) ∧
        (run.core n).score < (run.core (n + 1)).score) ∧
    (∀ row col, ((run.core n).enemy row col).enemyHit = true →
      ((run.core n).enemy row col).laserHit (run.core n).play (run.core n).laser.xPos
        (run.core n).laser.yPos = false) ∧
    ((run.core n).boss.enemyHit = true →
      (run.core n).boss.laserHit (run.core n).bossFight (run.core n).laser.xPos
        (run.core n).laser.yPos = false) := by
  have hinv := run.inv n
  refine ⟨fun hlaser hdone => ?_, fun row col hhit => ?_, fun hhit => ?_⟩
  · have hkill := hinv.kill_of_laserHit hlaser hdone (run.tick n) (run.keycode n)
    rw [run.core_succ]
    refine ⟨hkill, score_lt_of_hits ?_ ?_ hkill⟩
    · intro row col hhit
      exact ((run.core n).next_enemyHit_iff _ _ row col).mpr ⟨hdone, Or.inl hhit⟩
    · intro hhit
      exact ((run.core n).next_bossHit_iff _ _).mpr
        ⟨hinv.state_of_bossHit hhit, hdone, Or.inl hhit⟩
  · rw [Bool.eq_false_iff]
    intro hlaser
    rw [EnemyShip.laserHit, Bool.and_eq_true, (run.core n).play_iff] at hlaser
    exact hinv.untouched_of_destroyed hlaser.2 hhit hlaser.1
  · rw [Bool.eq_false_iff]
    intro hlaser
    rw [Boss.laserHit, Bool.and_eq_true] at hlaser
    exact hinv.boss_untouched_of_destroyed hhit hlaser.1

/-- The first shot of `firstShot` is stopped by the ship that it destroys, and by
no wreck. -/
theorem shot_consumed_only_by_kill_firstShot :
    ((scripted firstShot).core 258).laserHit = true ∧
      ((scripted firstShot).core 258).score < ((scripted firstShot).core (258 + 1)).score ∧
      (((scripted firstShot).core 259).enemy 2 4).enemyHit = true ∧
      (((scripted firstShot).core 259).enemy 2 4).laserHit ((scripted firstShot).core 259).play
        ((scripted firstShot).core 259).laser.xPos ((scripted firstShot).core 259).laser.yPos =
          false := by
  have hlaser : ((scripted firstShot).core 258).laserHit = true := by
    rw [scripted_firstHit]
    exact laserHit_firstHit
  have hdone : ((scripted firstShot).core 258).done = false := by
    rw [scripted_firstHit]
    exact PlayFrame.done_toCore (by decide)
  have hkilled := scripted_firstKill.2
  exact ⟨hlaser, ((shot_consumed_only_by_kill (scripted firstShot) 258).1 hlaser hdone).2,
    hkilled, (shot_consumed_only_by_kill (scripted firstShot) 259).2.1 2 4 hkilled⟩

section Fired

variable (run : Run) {n : ℕ}

/-- After a ghost shot something is destroyed by a shot that is not in flight. -/
theorem unfired_kill_of_ghost (hghost : GhostShot (run.tick n) (run.keycode n) (run.core n)) :
    ¬ OnlyFiredKills (run.core (n + 1)) (run.core (n + 1 + 1)) := by
  obtain ⟨htick, hkey, hfired, hpast, htarget⟩ := hghost
  intro hkills
  have hinv := run.inv n
  have hquiet := run.quiet_of_tick n htick
  obtain ⟨shot, hlaser, _⟩ := hinv.laser
  have hretired := (retired_iff hlaser).mp ⟨hfired, hpast⟩
  rw [hretired] at hlaser
  rw [run.core_succ (n + 1)] at hkills
  rcases htarget with ⟨hstate, row, col, hlive, hmet⟩ | ⟨hstate, hlive, hmet⟩
  · obtain ⟨hstate', hlive', htouched, hdone, hunfired⟩ :=
      hinv.unfired_enemy hquiet hkey hlaser hstate hlive hmet
    rw [← htick, ← run.core_succ] at hstate' hlive' htouched hdone hunfired
    have hkill := hkills.1 hstate' row col hlive'
      (((run.core (n + 1)).next_enemyHit_iff _ _ row col).mpr ⟨hdone, Or.inr htouched⟩)
    rw [hunfired] at hkill
    cases hkill
  · obtain ⟨hstate', hlive', htouched, hdone, hunfired⟩ :=
      hinv.unfired_boss hquiet hkey hlaser hstate hlive hmet
    rw [← htick, ← run.core_succ] at hstate' hlive' htouched hdone hunfired
    have hkill := hkills.2 hstate' hlive'
      (((run.core (n + 1)).next_bossHit_iff _ _).mpr ⟨hstate', hdone, Or.inr htouched⟩)
    rw [hunfired] at hkill
    cases hkill

/-- Without one nothing is. -/
theorem only_fired_of_no_ghost
    (hnone : ¬ GhostShot (run.tick n) (run.keycode n) (run.core n)) :
    OnlyFiredKills (run.core (n + 1)) (run.core (n + 1 + 1)) := by
  have hinv := run.inv n
  have hquiet := run.quiet_of_tick n
  refine ⟨fun hstate row col hlive hkilled => ?_, fun hstate hlive hkilled => ?_⟩
  · by_contra hunfired
    rw [run.core_succ (n + 1), next_enemyHit_iff, hlive] at hkilled
    have htouched := hkilled.2.resolve_left Bool.false_ne_true
    rw [Bool.not_eq_true] at hunfired
    rw [run.core_succ n] at hstate hlive htouched hunfired
    exact hnone (hinv.ghost_of_unfired_enemy hquiet hstate hlive htouched hunfired)
  · by_contra hunfired
    rw [run.core_succ (n + 1), next_bossHit_iff, hlive] at hkilled
    have htouched := hkilled.2.2.resolve_left Bool.false_ne_true
    have habove := boss_above hstate (died_of_not_done hkilled.2.1)
    rw [Bool.not_eq_true] at hunfired
    rw [run.core_succ n] at hstate hlive htouched hunfired habove
    exact hnone (hinv.ghost_of_unfired_boss hquiet hstate hlive htouched habove hunfired)

/-- Only a shot in flight destroys anything, in exactly the runs without a
ghost shot. -/
theorem only_fired_shots_kill_iff :
    (∀ n, OnlyFiredKills (run.core n) (run.core (n + 1))) ↔
      ∀ n, ¬ GhostShot (run.tick n) (run.keycode n) (run.core n) := by
  constructor
  · exact fun hkills n hghost => run.unfired_kill_of_ghost hghost (hkills (n + 1))
  · intro hnone n
    cases n with
    | zero =>
        -- the start screen
        rw [run.core_zero]
        constructor <;> exact fun hstate => absurd hstate (by decide)
    | succ n => exact run.only_fired_of_no_ghost (hnone n)

end Fired

/-- A single shot that leaves the screen just before the last column comes back
over it. -/
def missedShot : List Keycode := List.replicate 459 0#8 ++ keySpace :: List.replicate 112 0#8

theorem hits_missedShot :
    (0, 5) ∈ ((PlayFrame.opening.plays missedShot).ticked 0#8).hits ∧
      ((PlayFrame.opening.plays missedShot).ticked 0#8).shot = .spent := by
  decide +kernel

theorem alive_missedShot : (PlayFrame.opening.plays missedShot).alive ≠ [] := by
  decide +kernel

theorem length_missedShot : missedShot.length < 5000 := by
  decide +kernel

/-- It destroys a ship after its flight has ended. -/
theorem retired_shot_kills :
    ¬ OnlyFiredKills ((scripted (missedShot ++ [0#8])).core (1 + 4 * missedShot.length + 1))
      ((scripted (missedShot ++ [0#8])).core (1 + 4 * missedShot.length + 2)) := by
  have htick := scripted_play_tick [] 0#8 length_missedShot alive_missedShot
  have hkill := scripted_kill [] 0#8 length_missedShot alive_missedShot hits_missedShot.1
  rw [htick] at hkill ⊢
  intro honly
  have hfired := honly.1 rfl 0 5 hkill.1 hkill.2
  rw [PlayFrame.toCore_spacePressed, hits_missedShot.2] at hfired
  cases hfired

end Run

end Galaga
