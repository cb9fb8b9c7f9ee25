import Galaga.Clocked.Trace
import Galaga.Game.Invariant

/-! # The invariant along a run

Each cycle keeps `Core.Inv`, each cycle without a tick ends in a quiet state,
and ticks are never adjacent, so every run keeps the invariant and finds the
game quiet at every tick.
-/

namespace Galaga

namespace State

variable {keycode : Keycode} {died killedAll1 killedAll2 : Bool} {state : State}

theorem next_eq_start (h : state.next keycode died killedAll1 killedAll2 = start) :
    state = start ∨ state = gameover ∨ state = win := by
  cases state <;> simp only [next] at h <;> split_ifs at h <;> simp_all

theorem next_eq_play (h : state.next keycode died killedAll1 killedAll2 = play) :
    state = start ∨ (state = play ∧ died = false ∧ killedAll1 = false) := by
  cases state <;> simp only [next] at h <;> split_ifs at h <;> simp_all

theorem next_eq_bossLogo (h : state.next keycode died killedAll1 killedAll2 = bossLogo) :
    (state = play ∧ died = false ∧ killedAll1 = true) ∨ state = bossLogo := by
  cases state <;> simp only [next] at h <;> split_ifs at h <;> simp_all

theorem next_eq_bossFight (h : state.next keycode died killedAll1 killedAll2 = bossFight) :
    state = bossLogo ∨ (state = bossFight ∧ died = false ∧ killedAll2 = false) := by
  cases state <;> simp only [next] at h <;> split_ifs at h <;> simp_all

theorem next_eq_gameover (h : state.next keycode died killedAll1 killedAll2 = gameover) :
    (state = play ∧ died = true) ∨ (state = bossFight ∧ died = true) ∨ state = gameover := by
  cases state <;> simp only [next] at h <;> split_ifs at h <;> simp_all

theorem next_eq_win (h : state.next keycode died killedAll1 killedAll2 = win) :
    (state = bossFight ∧ died = false ∧ killedAll2 = true) ∨ state = win := by
  cases state <;> simp only [next] at h <;> split_ifs at h <;> simp_all

end State

namespace Core

variable {core : Core}

/-- Outside the fights the laser is parked under the ship. -/
theorem next_laser_of_not_fighting (hship : core.ship.Reached) (hstate : ¬ core.Fighting)
    (tick : Bool) (keycode : Keycode) :
    (core.next tick keycode).laser = Shot.parked.toLaser (core.ship.xPos + 5#10) := by
  have hplay : core.play = false :=
    core.play_eq_false_iff.mpr fun h => hstate (Or.inl h)
  have hfight : core.bossFight = false :=
    core.bossFight_eq_false_iff.mpr fun h => hstate (Or.inr h)
  rw [next_laser, hplay, hfight, UserLaser.next_no_fight hship.muzzle.2.2]

theorem fighting_gate (hstate : core.Fighting) : core.play = true ∨ core.bossFight = true :=
  hstate.imp core.play_iff.mpr core.bossFight_iff.mpr

/-- A hit in a fight brings the laser back to the ship. -/
theorem next_laser_of_hit (hship : core.ship.Reached) (hstate : core.Fighting)
    (hhit : core.laserHit = true) (tick : Bool) (keycode : Keycode) :
    (core.next tick keycode).laser =
      (Shot.onHit (keycode == keySpace)).toLaser (core.ship.xPos + 8#10) := by
  rw [next_laser, hhit, UserLaser.next_hit (fighting_gate hstate) hship.muzzle.2.2]

/-- A tick of a fight without a hit moves the shot. -/
theorem next_laser_of_tick (hship : core.ship.Reached) (hstate : core.Fighting) {shot : Shot}
    (hlaser : core.laser = shot.toLaser core.laser.xPos) (hhit : core.laserHit = false)
    (keycode : Keycode) :
    (core.next true keycode).laser =
      (shot.onTick (keycode == keySpace)).toLaser
        (shot.columnOnTick (keycode == keySpace) core.ship.xPos core.laser.xPos) := by
  rw [next_laser, hhit]
  conv_lhs => rw [hlaser]
  rw [UserLaser.next_tick_toLaser (fighting_gate hstate) hship.muzzle.2.2]

/-- Between ticks and without a hit the laser stands still. -/
theorem next_laser_of_idle (hstate : core.Fighting) (hhit : core.laserHit = false)
    (keycode : Keycode) : (core.next false keycode).laser = core.laser := by
  rw [next_laser, hhit, UserLaser.next_idle (fighting_gate hstate)]

theorem next_laser_row_of_hit (hship : core.ship.Reached) (hstate : core.Fighting)
    (hhit : core.laserHit = true) (tick : Bool) (keycode : Keycode) :
    (core.next tick keycode).laser.yPos.toNat = 441 := by
  rw [next_laser_of_hit hship hstate hhit tick keycode, Shot.toLaser_yPos_toNat, Shot.onHit_row]

/-- The laser of the next cycle is again a shot, in a column the ship can have
put it in. -/
theorem Inv.next_shot (hinv : core.Inv) (tick : Bool) (keycode : Keycode) :
    ∃ shot : Shot, shot ≠ .unset ∧
      (core.next tick keycode).laser = shot.toLaser (core.next tick keycode).laser.xPos ∧
      3 ≤ (core.next tick keycode).laser.xPos.toNat ∧
      (core.next tick keycode).laser.xPos.toNat ≤ 610 := by
  have hmuzzle := hinv.ship.muzzle
  by_cases hstate : core.Fighting
  · obtain ⟨shot, hlaser, hunset⟩ := hinv.laser
    have hset : shot ≠ .unset := by
      rintro rfl
      rcases hstate with h | h <;> simp [hunset rfl] at h
    cases hhit : core.laserHit with
    | true =>
        rw [next_laser_of_hit hinv.ship hstate hhit tick keycode]
        exact ⟨Shot.onHit _, Shot.onHit_ne_unset _, rfl, hmuzzle.2.1⟩
    | false =>
        cases tick with
        | true =>
            rw [next_laser_of_tick hinv.ship hstate hlaser hhit keycode]
            refine ⟨shot.onTick _, Shot.onTick_ne_unset _ _, rfl, ?_⟩
            rw [Shot.toLaser_xPos]
            rcases shot.columnOnTick_cases (keycode == keySpace) core.ship.xPos
              core.laser.xPos with hx | hx | hx <;> rw [hx]
            · exact hmuzzle.1
            · exact hmuzzle.2.1
            · exact hinv.muzzle
        | false =>
            rw [next_laser_of_idle hstate hhit keycode]
            exact ⟨shot, hset, hlaser, hinv.muzzle⟩
  · rw [next_laser_of_not_fighting hinv.ship hstate tick keycode]
    exact ⟨.parked, by simp, rfl, hmuzzle.1⟩

/-- A laser at the ship touches no enemy above the bottom of the path. -/
theorem untouched_of_launch {laser : UserLaser} {ship : EnemyShip}
    (hlaser : 437 ≤ laser.yPos.toNat ∧ laser.yPos.toNat ≤ 441)
    (hship : ship.yPos.toNat + 30 < laser.yPos.toNat) :
    ship.laserHitTemp laser.xPos laser.yPos = false :=
  HitController.temp_eq_false_of_above hship (by omega)

theorem boss_untouched_of_launch {laser : UserLaser} {boss : Boss}
    (hlaser : laser.yPos.toNat = 441) (hboss : boss.yPos.toNat < 409) :
    boss.laserHitTemp laser.xPos laser.yPos = false := by
  unfold Boss.laserHitTemp
  rw [HitControllerBoss.temp_eq]
  exact HitController.temp_eq_false_of_above (by omega) (by omega)

/-- The row of the laser while nothing is being fought. -/
theorem next_laser_row_of_not_fighting (hship : core.ship.Reached) (hstate : ¬ core.Fighting)
    (tick : Bool) (keycode : Keycode) : (core.next tick keycode).laser.yPos.toNat = 441 := by
  rw [next_laser_of_not_fighting hship hstate tick keycode, Shot.toLaser_yPos_toNat]
  rfl

/-- From the start screen play begins with every ship at home. -/
theorem Inv.playing_of_start (hinv : core.Inv) (hstate : core.state = .start) (tick : Bool)
    (keycode : Keycode) : (core.next tick keycode).Playing 0 := by
  have hnot : ¬ core.Fighting := by simp [Fighting, hstate]
  refine ⟨fun row col => ?_, core.next_boss_of_not_fight tick keycode (by simp [hstate])⟩
  have hhome := core.next_enemy_of_not_play tick keycode row col (by simp [hstate])
  have hrow := homeShip_yPos_le row col ((core.next tick keycode).enemy row col).enemyHit
  cases hhit : ((core.next tick keycode).enemy row col).enemyHit with
  | true =>
      refine Or.inr (Or.inr ⟨hhit, ?_, next_laser_row_of_not_fighting hinv.ship hnot tick keycode⟩)
      rw [hhome]
      omega
  | false =>
      left
      rw [hhit, homeShip_eq] at hhome
      exact ⟨hhome, formationRow_zero_le row col⟩

/-- In a play cycle after a cycle without a tick, a live ship was already there
and alive, so it was neither touched nor landed. -/
theorem Playing.live_before {n : ℕ} (hplaying : core.Playing n) (hdied : core.died = false)
    {keycode : Keycode} {row : Fin 3} {col : Fin 6}
    (hlive : (core.next false keycode).enemy row col = formation row col n) :
    core.enemy row col = formation row col n ∧ ¬ core.Touched row col := by
  have hfresh : ¬ ((core.next false keycode).enemy row col).enemyHit = true := by
    rw [hlive]
    exact Bool.false_ne_true
  rw [next_enemyHit_iff, hplaying.done hdied] at hfresh
  simp only [true_and, not_or] at hfresh
  refine ⟨?_, hfresh.2⟩
  rcases hplaying.enemies row col with hbefore | hwreck
  · exact hbefore.1
  · exact absurd hwreck.enemyHit hfresh.1

section Quiet

variable (hinv : core.Inv) (keycode : Keycode)
include hinv

/-- No enemy is touched in play after a cycle without a tick. -/
theorem Inv.next_untouched (hstate' : (core.next false keycode).state = .play) (row : Fin 3)
    (col : Fin 6) : ¬ (core.next false keycode).Touched row col := by
  intro htouched
  rcases State.next_eq_play hstate' with hstate | ⟨hstate, hdied, _⟩
  · -- play begins with the ships at home and the laser parked
    have hnot : ¬ core.Fighting := by simp [Fighting, hstate]
    have hlaunch := next_laser_row_of_not_fighting hinv.ship hnot false keycode
    have hrow := homeShip_yPos_le row col ((core.next false keycode).enemy row col).enemyHit
    rw [← core.next_enemy_of_not_play false keycode row col (by simp [hstate])] at hrow
    rw [Touched, untouched_of_launch (by omega) (by omega)] at htouched
    cases htouched
  · obtain ⟨n, _, hplaying⟩ := hinv.play hstate
    have hplaying' : (core.next false keycode).Playing n :=
      hplaying.next hstate hinv.ship hdied false (by simp) keycode
    obtain ⟨_, _, _, hmuzzle⟩ := hinv.next_shot false keycode
    obtain ⟨hlive, hrow⟩ := hplaying'.touched_live hmuzzle.2 htouched
    obtain ⟨hbefore, huntouched⟩ := hplaying.live_before hdied hlive
    -- the ship has not moved, so the laser would have to have come to it
    cases hwas : core.laserHit with
    | true =>
        have hlaunch := next_laser_row_of_hit hinv.ship (Or.inl hstate) hwas false keycode
        have hship' : ((core.next false keycode).enemy row col).yPos.toNat ≤ 410 := by
          rw [hlive, formation_yPos hrow]
          exact hrow
        rw [Touched, untouched_of_launch (by omega) (by omega)] at htouched
        cases htouched
    | false =>
        apply huntouched
        rw [Touched, hlive, next_laser_of_idle (Or.inl hstate) hwas keycode, ← hbefore] at htouched
        exact htouched

/-- Nor is the boss in its fight. -/
theorem Inv.next_boss_untouched (hstate' : (core.next false keycode).state = .bossFight) :
    ¬ (core.next false keycode).BossTouched := by
  intro htouched
  rcases State.next_eq_bossFight hstate' with hstate | ⟨hstate, hdied, hkilled⟩
  · have hnot : ¬ core.Fighting := by simp [Fighting, hstate]
    have hlaunch := next_laser_row_of_not_fighting hinv.ship hnot false keycode
    have hhome := core.next_boss_of_not_fight false keycode (by simp [hstate])
    rw [BossTouched, boss_untouched_of_launch hlaunch (by rw [hhome]; decide)] at htouched
    cases htouched
  · have hfighting := hinv.bossFight hstate
    have hlive := hfighting.boss_live hkilled
    have habove := boss_above hstate hdied
    have hidle := core.next_boss_idle keycode hstate habove hlive
    have habove' : (core.next false keycode).boss.yPos.toNat < 409 := by
      rw [hidle]
      exact habove
    cases hwas : core.laserHit with
    | true =>
        have hlaunch := next_laser_row_of_hit hinv.ship (Or.inr hstate) hwas false keycode
        rw [BossTouched, boss_untouched_of_launch hlaunch habove'] at htouched
        cases htouched
    | false =>
        apply boss_untouched_of_no_hit hstate hwas
        rw [BossTouched, hidle, next_laser_of_idle (Or.inr hstate) hwas keycode] at htouched
        exact htouched

theorem Inv.next_laserHit : (core.next false keycode).laserHit = false := by
  rw [Bool.eq_false_iff]
  intro hhit
  rcases (core.next false keycode).laserHit_iff.mp hhit with
    ⟨hstate', row, col, htouched⟩ | ⟨hstate', htouched⟩
  · exact hinv.next_untouched keycode hstate' row col htouched
  · exact hinv.next_boss_untouched keycode hstate' htouched

theorem Inv.next_died : (core.next false keycode).died = false := by
  have hship := hinv.ship
  rw [Bool.eq_false_iff]
  intro hdied'
  rcases (core.next false keycode).died_iff.mp hdied' with
    ⟨hstate', row, col, hlanded⟩ | ⟨hstate', hlanded⟩
  · rcases State.next_eq_play hstate' with hstate | ⟨hstate, hdied, _⟩
    · have hrow := homeShip_yPos_le row col ((core.next false keycode).enemy row col).enemyHit
      rw [← core.next_enemy_of_not_play false keycode row col (by simp [hstate])] at hrow
      omega
    · obtain ⟨n, _, hplaying⟩ := hinv.play hstate
      have hplaying' : (core.next false keycode).Playing n :=
        hplaying.next hstate hship hdied false (by simp) keycode
      obtain ⟨hlive, _⟩ := hplaying'.landed_live hlanded
      obtain ⟨hbefore, _⟩ := hplaying.live_before hdied hlive
      -- it was in the same place before, where it would have ended the game
      rw [hlive, ← hbefore] at hlanded
      have hlost := core.died_iff.mpr (Or.inl ⟨hstate, row, col, hlanded⟩)
      rw [hdied] at hlost
      cases hlost
  · rcases State.next_eq_bossFight hstate' with hstate | ⟨hstate, hdied, hkilled⟩
    · rw [core.next_boss_of_not_fight false keycode (by simp [hstate])] at hlanded
      exact absurd hlanded (by decide)
    · have habove := boss_above hstate hdied
      have hlive := (hinv.bossFight hstate).boss_live hkilled
      rw [core.next_boss_idle keycode hstate habove hlive] at hlanded
      rw [Boss.withHit_yPos] at hlanded
      omega

/-- After a cycle without a tick the game is quiet. -/
theorem Inv.next_quiet : (core.next false keycode).Quiet :=
  ⟨hinv.next_laserHit keycode, hinv.next_died keycode⟩

end Quiet

/-- A live ship on its path has flown at most 8491 ticks before it lands. -/
theorem ticks_le_of_above {row : Fin 3} {col : Fin 6} {n : ℕ}
    (habove : formationRow row col n < 409) : n ≤ 8491 := by
  by_contra hlate
  have hlow : InvaderPath.descent 8542 ≤ InvaderPath.descent (50 * (col : ℕ) + 50 + n) :=
    InvaderPath.descent_mono (by omega)
  have hvalue : InvaderPath.descent 8542 = 440 := by decide
  unfold formationRow at habove
  omega

/-- While play goes on some ship is alive, so the number of ticks is bounded. -/
theorem Playing.ticks_le {n : ℕ} (hplaying : core.Playing n) (hstate : core.state = .play)
    (hdied : core.died = false) (hleft : core.killedAll1 = false) : n ≤ 8491 := by
  have hsome : ∃ row col, (core.enemy row col).enemyHit = false := by
    by_contra hnone
    have hall := (core.killedAll1_iff hplaying.boss_live).mpr
      fun row col => by
        rw [← Bool.not_eq_false]
        exact fun hlive => hnone ⟨row, col, hlive⟩
    rw [hleft] at hall
    cases hall
  obtain ⟨row, col, hfresh⟩ := hsome
  rcases hplaying.enemies row col with ⟨hlive, hrow⟩ | hwreck
  · apply ticks_le_of_above
    rw [← formation_yPos hrow, ← hlive]
    exact enemy_above hstate hdied row col
  · rw [hwreck.enemyHit] at hfresh
    cases hfresh

section Preservation

variable (tick : Bool) (keycode : Keycode)

theorem start_of_next (hstate' : (core.next tick keycode).state = .start) :
    (∀ row col, (core.next tick keycode).enemy row col =
      homeShip row col ((core.next tick keycode).enemy row col).enemyHit) ∧
      (core.next tick keycode).boss = Boss.home false := by
  have hbefore := State.next_eq_start hstate'
  have hplay : core.state ≠ .play := by rcases hbefore with h | h | h <;> simp [h]
  have hfight : core.state ≠ .bossFight := by rcases hbefore with h | h | h <;> simp [h]
  exact ⟨fun row col => core.next_enemy_of_not_play tick keycode row col hplay,
    core.next_boss_of_not_fight tick keycode hfight⟩

theorem gameover_of_next (hstate' : (core.next tick keycode).state = .gameover) :
    (core.next tick keycode).boss = Boss.home false := by
  rcases State.next_eq_gameover hstate' with ⟨hstate, _⟩ | ⟨hstate, hdied⟩ | hstate
  · exact core.next_boss_of_not_fight tick keycode (by simp [hstate])
  · apply core.next_boss_landed tick keycode hstate
    rcases core.died_iff.mp hdied with ⟨hplay, _⟩ | ⟨_, hlanded⟩
    · rw [hstate] at hplay
      cases hplay
    · exact hlanded
  · exact core.next_boss_of_not_fight tick keycode (by simp [hstate])

section Invariant

variable (hinv : core.Inv)
include hinv

theorem Inv.bossLogo_of_next (hstate' : (core.next tick keycode).state = .bossLogo) :
    (∀ row col, ((core.next tick keycode).enemy row col).enemyHit = true) ∧
      (core.next tick keycode).boss = Boss.home false := by
  rcases State.next_eq_bossLogo hstate' with ⟨hstate, hdied, hkilled⟩ | hstate
  · obtain ⟨n, _, hplaying⟩ := hinv.play hstate
    have hall := (core.killedAll1_iff hplaying.boss_live).mp hkilled
    exact ⟨fun row col => (core.next_enemyHit_iff tick keycode row col).mpr
      ⟨hplaying.done hdied, Or.inl (hall row col)⟩,
      core.next_boss_of_not_fight tick keycode (by simp [hstate])⟩
  · obtain ⟨hall, hboss⟩ := hinv.bossLogo hstate
    have hdone := done_of_bossLogo hstate hboss
    exact ⟨fun row col => (core.next_enemyHit_iff tick keycode row col).mpr
      ⟨hdone, Or.inl (hall row col)⟩,
      core.next_boss_of_not_fight tick keycode (by simp [hstate])⟩

/-- The laser of the cycle after the boss was hit is still at the ship. -/
theorem Inv.next_laser_row_of_launch (hstate : core.state = .bossFight)
    (hlaunch : core.laser.yPos.toNat = 441) :
    437 ≤ (core.next tick keycode).laser.yPos.toNat ∧
      (core.next tick keycode).laser.yPos.toNat ≤ 441 := by
  obtain ⟨shot, hlaser, _⟩ := hinv.laser
  have hrow : shot.row = 441 := by rw [← hlaunch, hlaser, Shot.toLaser_yPos_toNat]
  cases hhit : core.laserHit with
  | true =>
      rw [next_laser_row_of_hit hinv.ship (Or.inr hstate) hhit tick keycode]
      omega
  | false =>
      cases tick with
      | true =>
          rw [next_laser_of_tick hinv.ship (Or.inr hstate) hlaser hhit keycode,
            Shot.toLaser_yPos_toNat]
          exact Shot.row_onTick_of_launch hrow _
      | false =>
          rw [next_laser_of_idle (Or.inr hstate) hhit keycode]
          omega

/-- Winning clears all hit registers, and the laser is too low to set one of
them again. -/
theorem Inv.win_of_next (hstate' : (core.next tick keycode).state = .win) :
    (∀ row col, (core.next tick keycode).enemy row col = homeShip row col false) ∧
      (core.next tick keycode).boss.enemyHit = false ∧
      437 ≤ (core.next tick keycode).laser.yPos.toNat ∧
      (core.next tick keycode).laser.yPos.toNat ≤ 441 := by
  rcases State.next_eq_win hstate' with ⟨hstate, _, hkilled⟩ | hstate
  · have hdone : core.done = true := core.done_iff.mpr (Or.inr hkilled)
    have hplay : core.state ≠ .play := by simp [hstate]
    refine ⟨fun row col => ?_, ?_, ?_⟩
    · have hcleared : ((core.next tick keycode).enemy row col).enemyHit = false := by
        rw [Bool.eq_false_iff, ne_eq, next_enemyHit_iff, hdone]
        simp
      rw [core.next_enemy_of_not_play tick keycode row col hplay, hcleared]
    · rw [Bool.eq_false_iff, ne_eq, next_bossHit_iff, hdone]
      simp
    · -- the cycle that won the fight is the second one after the hit
      apply hinv.next_laser_row_of_launch tick keycode hstate
      rcases (hinv.bossFight hstate).boss with hroaming | ⟨_, _, hlaunch⟩
      · rw [killedAll2_eq_false hroaming.live] at hkilled
        cases hkilled
      · exact hlaunch
  · obtain ⟨hhome, _, hlow, hhigh⟩ := hinv.win hstate
    have hplay : core.state ≠ .play := by simp [hstate]
    have hnot : ¬ core.Fighting := by simp [Fighting, hstate]
    have hlaunch := next_laser_row_of_not_fighting hinv.ship hnot tick keycode
    refine ⟨fun row col => ?_, ?_, by omega⟩
    · have hrow := homeShip_yPos_le row col false
      have huntouched : ¬ core.Touched row col := by
        rw [Touched, hhome row col, untouched_of_launch ⟨hlow, hhigh⟩ (by omega)]
        exact Bool.false_ne_true
      have hlive : (core.enemy row col).enemyHit = false := by
        rw [hhome row col]
        rfl
      have hcleared := core.next_enemy_live tick keycode hlive huntouched
      rw [core.next_enemy_of_not_play tick keycode row col hplay, hcleared]
    · rw [core.next_boss_of_not_fight tick keycode (by simp [hstate])]
      rfl

variable (hquiet : tick = true → core.Quiet)
include hquiet

theorem Inv.play_of_next (hstate' : (core.next tick keycode).state = .play) :
    ∃ n ≤ 8492, (core.next tick keycode).Playing n := by
  rcases State.next_eq_play hstate' with hstate | ⟨hstate, hdied, hleft⟩
  · exact ⟨0, by omega, hinv.playing_of_start hstate tick keycode⟩
  · obtain ⟨n, _, hplaying⟩ := hinv.play hstate
    have hbound := hplaying.ticks_le hstate hdied hleft
    have htick := Bool.toNat_le tick
    exact ⟨n + tick.toNat, by omega, hplaying.next hstate hinv.ship hdied tick hquiet keycode⟩

theorem Inv.bossFight_of_next (hstate' : (core.next tick keycode).state = .bossFight) :
    (core.next tick keycode).BossFighting := by
  rcases State.next_eq_bossFight hstate' with hstate | ⟨hstate, hdied, hkilled⟩
  · obtain ⟨hall, hboss⟩ := hinv.bossLogo hstate
    have hdone := done_of_bossLogo hstate hboss
    refine ⟨fun row col => (core.next_enemyHit_iff tick keycode row col).mpr
      ⟨hdone, Or.inl (hall row col)⟩, Or.inl ?_⟩
    rw [core.next_boss_of_not_fight tick keycode (by simp [hstate])]
    exact Boss.roaming_home
  · exact (hinv.bossFight hstate).next hstate hinv.ship hdied hkilled tick hquiet keycode

/-- A cycle keeps the invariant, provided the game is quiet if it is a tick. -/
theorem Inv.next : (core.next tick keycode).Inv := by
  obtain ⟨shot, hset, hlaser, hmuzzle⟩ := hinv.next_shot tick keycode
  exact
    { ship := hinv.ship.next tick keycode
      laser := ⟨shot, hlaser, fun hunset => absurd hunset hset⟩
      muzzle := hmuzzle
      start := start_of_next tick keycode
      play := hinv.play_of_next tick keycode hquiet
      bossLogo := hinv.bossLogo_of_next tick keycode
      bossFight := hinv.bossFight_of_next tick keycode hquiet
      gameover := gameover_of_next tick keycode
      win := hinv.win_of_next tick keycode }

end Invariant

end Preservation

theorem inv_reset : resetRegs.Inv where
  ship := UserShip.reached_reset
  laser := ⟨.unset, rfl, fun _ => rfl⟩
  muzzle := by decide
  start := fun _ => ⟨fun _ _ => rfl, rfl⟩
  play := fun h => absurd h (by decide)
  bossLogo := fun h => absurd h (by decide)
  bossFight := fun h => absurd h (by decide)
  gameover := fun h => absurd h (by decide)
  win := fun h => absurd h (by decide)

/-- On the start screen no module's frame tick matters except the ship's. -/
theorem step_of_start (hstate : core.state = .start) (keycode : Keycode)
    (frameClkRisingEdge : ModuleName → Bool) :
    core.step false keycode frameClkRisingEdge =
      core.next (frameClkRisingEdge .userShip) keycode := by
  have hplay : core.play = false := core.play_eq_false_iff.mpr (by simp [hstate])
  have hfight : core.bossFight = false := core.bossFight_eq_false_iff.mpr (by simp [hstate])
  simp only [Core.next, Core.step, hplay, hfight]
  rfl

end Core

namespace Game

/-- What the detectors agree on: all have sampled the same `frame_clk`, so that
no tick follows a tick, and outside the start screen all report the same. -/
structure Synced (game : Game) : Prop where
  delayed : ∀ owner, (game.detector owner).frameClkDelayed =
    (game.detector .userShip).frameClkDelayed
  rising : ∀ owner, (game.detector owner).frameClkRisingEdge = true →
    (game.detector owner).frameClkDelayed = true
  agree : game.core.state = .start ∨
    ∀ owner, (game.detector owner).frameClkRisingEdge = game.tick

/-- A cycle of a synced game is a cycle of its registers with one tick for all. -/
theorem Synced.core_step {game : Game} (hsynced : game.Synced) (frameClk : Bool)
    (keycode : Keycode) :
    (game.step ⟨false, frameClk, keycode⟩).core = game.core.next game.tick keycode := by
  rcases hsynced.agree with hstate | hagree
  · exact Core.step_of_start hstate keycode fun owner =>
      (game.detector owner).frameClkRisingEdge
  · simp only [Game.step, hagree]
    rfl

theorem synced_reset (game : Game) {input : Input} (hreset : input.reset = true) :
    (game.step input).Synced where
  delayed := fun _ => rfl
  rising := fun owner hrising => by
    simp only [Game.step, EdgeDetector.step_rising, Bool.and_eq_true] at hrising
    exact hrising.1
  agree := Or.inl (by simp [Game.step, hreset, Core.resetRegs])

theorem Synced.step {game : Game} (hsynced : game.Synced) (input : Input) :
    (game.step input).Synced where
  delayed := fun _ => rfl
  rising := fun owner hrising => by
    simp only [Game.step, EdgeDetector.step_rising, Bool.and_eq_true] at hrising
    exact hrising.1
  agree := Or.inr fun owner => by
    simp only [tick, Game.step, EdgeDetector.step_rising, hsynced.delayed owner]

/-- No tick follows a tick. -/
theorem Synced.not_tick_step {game : Game} (hsynced : game.Synced) (input : Input)
    (htick : game.tick = true) : (game.step input).tick = false := by
  have hdelayed := hsynced.rising .userShip htick
  simp [tick, Game.step, hdelayed]

end Game

namespace Run

variable (run : Run) (n : ℕ)

theorem synced : (run.state n).Synced := by
  induction n with
  | zero =>
      obtain ⟨game, input, hreset, hstart⟩ := run.start
      rw [hstart]
      exact game.synced_reset hreset
  | succ n ih =>
      rw [run.next]
      exact ih.step _

/-- Each cycle of a run steps the game registers, with one tick for all modules. -/
theorem core_succ : run.core (n + 1) = (run.core n).next (run.tick n) (run.keycode n) := by
  change (run.state (n + 1)).core = _
  rw [run.next, (run.synced n).core_step]
  rfl

theorem core_zero : run.core 0 = Core.resetRegs := by
  obtain ⟨game, input, hreset, hstart⟩ := run.start
  change (run.state 0).core = _
  rw [hstart, Game.step, hreset, Core.step_reset]

theorem not_tick_succ (htick : run.tick n = true) : run.tick (n + 1) = false := by
  change (run.state (n + 1)).tick = false
  rw [run.next]
  exact (run.synced n).not_tick_step _ htick

/-- A tick is a rising edge of `frame_clk`, one cycle late. -/
theorem tick_add_two :
    run.tick (n + 2) = (run.frameClk (n + 1) && !run.frameClk n) := by
  change (run.state (n + 1 + 1)).tick = _
  rw [run.next (n + 1), run.next n]
  rfl

/-- The run as a trace of the game registers. -/
def trace : Clocked.Trace Core.next where
  state := run.core
  tick := run.tick
  key := run.keycode
  step := run.core_succ

/-- Every cycle satisfies the invariant, and every tick finds the game quiet. -/
theorem inv_and_quiet : (run.core n).Inv ∧ (run.tick n = true → (run.core n).Quiet) := by
  refine run.trace.inv_and_guard run.not_tick_succ ?_ ?_ ?_ n
  · change (run.core 0).Inv ∧ (run.core 0).Quiet
    rw [run.core_zero]
    exact ⟨Core.inv_reset, by decide, by decide⟩
  · intro tick keycode core hinv hquiet
    exact hinv.next tick keycode hquiet
  · intro keycode core hinv
    exact hinv.next_quiet keycode

theorem inv : (run.core n).Inv := (run.inv_and_quiet n).1

theorem quiet_of_tick (htick : run.tick n = true) : (run.core n).Quiet :=
  (run.inv_and_quiet n).2 htick

end Run

end Galaga
