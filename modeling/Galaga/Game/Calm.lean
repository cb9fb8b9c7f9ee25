import Galaga.Game.Outcome

/-! # Between two ticks

A frame tick can start a short cascade: a hit, the hit register, the next
screen, the ships going home, the laser being parked. `Core.Calm` says that it
is over. From then on, and until the next tick, only the screen changes.
-/

namespace Galaga.Core

/-- The laser is under the ship. -/
def LaserParked (core : Core) : Prop :=
  core.laser = Shot.parked.toLaser (core.ship.xPos + 5#10)

/-- No cascade is going on. -/
structure Calm (core : Core) : Prop where
  play : core.state = .play → core.Quiet ∧ (core.killedAll1 = true → core.LaserParked)
  bossFight : core.state = .bossFight → core.Quiet ∧ core.boss.enemyHit = false
  idle : ¬ core.Fighting → core.LaserParked ∧ core.boss = Boss.home false ∧
    ∀ row col, (core.enemy row col).enemyHit = false → core.enemy row col = homeShip row col false

/-- Everything that is seen on the screen, and every hit register, is the same. -/
structure Unmoved (core later : Core) : Prop where
  ship : later.ship = core.ship
  laser : later.laser = core.laser
  boss : later.boss = core.boss
  hits : ∀ row col, (later.enemy row col).enemyHit = (core.enemy row col).enemyHit
  enemies : ∀ row col, (core.enemy row col).enemyHit = false →
    later.enemy row col = core.enemy row col

variable {core : Core}

theorem Unmoved.killedAll1 {later : Core} (hunmoved : core.Unmoved later) :
    later.killedAll1 = core.killedAll1 := by
  have hscore : later.score = core.score := by
    rw [← BitVec.toNat_inj, score_toNat, score_toNat, hunmoved.boss]
    simp only [hunmoved.hits]
  rw [Core.killedAll1, hscore]
  rfl

theorem LaserParked.row (hparked : core.LaserParked) : core.laser.yPos.toNat = 441 := by
  rw [hparked, Shot.toLaser_yPos_toNat]
  rfl

theorem done_of_calm (hinv : core.Inv) (hcalm : core.Calm) : core.done = false := by
  cases hstate : core.state with
  | play =>
      obtain ⟨n, _, hplaying⟩ := hinv.play hstate
      exact hplaying.done (hcalm.play hstate).1.died
  | bossFight =>
      obtain ⟨hquiet, hlive⟩ := hcalm.bossFight hstate
      exact done_eq_false hquiet.died (killedAll2_eq_false hlive)
  | _ =>
      have hnot : ¬ core.Fighting := by simp [Fighting, hstate]
      have hboss := (hcalm.idle hnot).2.1
      have hlive : core.boss.enemyHit = false := by rw [hboss]; rfl
      exact done_eq_false (died_eq_false_of_not_fighting hnot) (killedAll2_eq_false hlive)

/-- Nothing that is at home touches a parked laser. -/
theorem homeShip_untouched {laser : UserLaser} (hrow : laser.yPos.toNat = 441) (row : Fin 3)
    (col : Fin 6) (enemyHit : Bool) :
    (homeShip row col enemyHit).laserHitTemp laser.xPos laser.yPos = false := by
  have hheight := homeShip_yPos_le row col enemyHit
  exact untouched_of_launch (by omega) (by omega)

/-- In a calm state no live enemy is being hit. -/
theorem Calm.untouched (hcalm : core.Calm) {row : Fin 3} {col : Fin 6}
    (hstate : core.state ≠ .bossFight) (hlive : (core.enemy row col).enemyHit = false) :
    ¬ core.Touched row col := by
  by_cases hplay : core.state = .play
  · exact untouched_of_no_hit hplay (hcalm.play hplay).1.laserHit row col
  · obtain ⟨hparked, _, hhome⟩ := hcalm.idle (by simp [Fighting, hplay, hstate])
    rw [Touched, hhome row col hlive, homeShip_untouched hparked.row]
    exact Bool.false_ne_true

/-- A calm state keeps its hit registers. -/
theorem Calm.next_hits (hinv : core.Inv) (hcalm : core.Calm) (keycode : Keycode) (row : Fin 3)
    (col : Fin 6) :
    ((core.next false keycode).enemy row col).enemyHit = (core.enemy row col).enemyHit := by
  cases hhit : (core.enemy row col).enemyHit with
  | true =>
      exact (core.next_enemyHit_iff false keycode row col).mpr
        ⟨done_of_calm hinv hcalm, Or.inl hhit⟩
  | false =>
      have hstate : core.state ≠ .bossFight := by
        intro hfight
        rw [(hinv.bossFight hfight).destroyed row col] at hhit
        cases hhit
      exact core.next_enemy_live false keycode hhit (hcalm.untouched hstate hhit)

/-- A cycle without a tick leaves a calm state as it is, up to the screen shown
and to ships that are out of the game. -/
theorem Calm.unmoved (hinv : core.Inv) (hcalm : core.Calm) (keycode : Keycode) :
    core.Unmoved (core.next false keycode) := by
  refine ⟨rfl, ?_, ?_, fun row col => hcalm.next_hits hinv keycode row col, ?_⟩
  · by_cases hstate : core.Fighting
    · have hquiet : core.Quiet :=
        hstate.elim (fun h => (hcalm.play h).1) fun h => (hcalm.bossFight h).1
      exact next_laser_of_idle hstate hquiet.laserHit keycode
    · rw [next_laser_of_not_fighting hinv.ship hstate false keycode]
      exact (hcalm.idle hstate).1.symm
  · by_cases hfight : core.state = .bossFight
    · obtain ⟨hquiet, hlive⟩ := hcalm.bossFight hfight
      have hlive' := core.next_boss_live false keycode hlive
        (boss_untouched_of_no_hit hfight hquiet.laserHit)
      rw [core.next_boss_idle keycode hfight (boss_above hfight hquiet.died) hlive, hlive',
        ← hlive, Boss.withHit_self]
    · rw [core.next_boss_of_not_fight false keycode hfight]
      by_cases hplay : core.state = .play
      · obtain ⟨n, _, hplaying⟩ := hinv.play hplay
        exact hplaying.boss.symm
      · exact (hcalm.idle (by simp [Fighting, hplay, hfight])).2.1.symm
  · intro row col hlive
    have hlive' : ((core.next false keycode).enemy row col).enemyHit = false := by
      rw [hcalm.next_hits hinv keycode row col, hlive]
    by_cases hplay : core.state = .play
    · rw [core.next_enemy_idle keycode row col hplay
        (enemy_above hplay (hcalm.play hplay).1.died row col) hlive, hlive', ← hlive,
        EnemyShip.withHit_self]
    · have hfight : core.state ≠ .bossFight := by
        intro hfight
        rw [(hinv.bossFight hfight).destroyed row col] at hlive
        cases hlive
      rw [core.next_enemy_of_not_play false keycode row col hplay, hlive']
      exact ((hcalm.idle (by simp [Fighting, hplay, hfight])).2.2 row col hlive).symm

section Onset

variable (hinv : core.Inv) (keycode : Keycode)
include hinv

/-- The start screen, the logo and the two ends are calm after one cycle,
whichever screen comes next. -/
theorem Inv.calm_next_of_not_fighting (hstate : ¬ core.Fighting) :
    (core.next false keycode).Calm := by
  have hquiet := hinv.next_quiet keycode
  have hparked : (core.next false keycode).LaserParked :=
    next_laser_of_not_fighting hinv.ship hstate false keycode
  have hplay : core.state ≠ .play := fun h => hstate (Or.inl h)
  have hfight : core.state ≠ .bossFight := fun h => hstate (Or.inr h)
  have hboss := core.next_boss_of_not_fight false keycode hfight
  refine ⟨fun _ => ⟨hquiet, fun _ => hparked⟩, fun _ => ⟨hquiet, by rw [hboss]; rfl⟩,
    fun _ => ⟨hparked, hboss, fun row col hlive => ?_⟩⟩
  rw [core.next_enemy_of_not_play false keycode row col hplay, hlive]

/-- Play is calm after a cycle that leaves ships to destroy. -/
theorem Inv.calm_next_of_play (hplay' : (core.next false keycode).state = .play)
    (hremain : (core.next false keycode).killedAll1 = false) : (core.next false keycode).Calm where
  play := fun _ => ⟨hinv.next_quiet keycode, fun hkilled => by
    rw [hremain] at hkilled
    cases hkilled⟩
  bossFight := fun hfight => by rw [hplay'] at hfight; cases hfight
  idle := fun hnot => absurd (Or.inl hplay') hnot

theorem Inv.calm_next_of_bossFight (hfight' : (core.next false keycode).state = .bossFight)
    (hlive : (core.next false keycode).boss.enemyHit = false) : (core.next false keycode).Calm where
  play := fun hplay => by rw [hfight'] at hplay; cases hplay
  bossFight := fun _ => ⟨hinv.next_quiet keycode, hlive⟩
  idle := fun hnot => absurd (Or.inr hfight') hnot

/-- With all ships destroyed and the laser parked the logo comes up calm. -/
theorem Inv.calm_next_of_last_kill (hcalm : core.Calm) (hplay : core.state = .play)
    (hkilled : core.killedAll1 = true) : (core.next false keycode).Calm := by
  obtain ⟨hquiet, hparked⟩ := hcalm.play hplay
  obtain ⟨n, _, hplaying⟩ := hinv.play hplay
  have hunmoved := hcalm.unmoved hinv keycode
  have hall := (core.killedAll1_iff hplaying.boss_live).mp hkilled
  have hlogo : (core.next false keycode).state = .bossLogo := by
    rw [next_state, hquiet.died, hkilled, hplay]
    rfl
  refine ⟨fun h => ?_, fun h => ?_, fun _ => ⟨?_, ?_, fun row col hlive => ?_⟩⟩
  · rw [hlogo] at h
    cases h
  · rw [hlogo] at h
    cases h
  · rw [LaserParked, hunmoved.laser, hunmoved.ship]
    exact hparked hkilled
  · rw [hunmoved.boss, hplaying.boss]
  · -- no ship is left to go home
    rw [hunmoved.hits, hall row col] at hlive
    cases hlive

/-- Calm lasts until the next tick. -/
theorem Inv.calm_next (hcalm : core.Calm) : (core.next false keycode).Calm := by
  have hunmoved := hcalm.unmoved hinv keycode
  by_cases hstate : core.Fighting
  · rcases hstate with hplay | hfight
    · cases hkilled : core.killedAll1 with
      | true => exact hinv.calm_next_of_last_kill keycode hcalm hplay hkilled
      | false =>
          apply hinv.calm_next_of_play keycode
          · rw [next_state, (hcalm.play hplay).1.died, hkilled, hplay]
            rfl
          · rw [hunmoved.killedAll1, hkilled]
    · obtain ⟨hquiet, hlive⟩ := hcalm.bossFight hfight
      apply hinv.calm_next_of_bossFight keycode
      · rw [next_state, hquiet.died, killedAll2_eq_false hlive, hfight]
        rfl
      · rw [hunmoved.boss, hlive]
  · exact hinv.calm_next_of_not_fighting keycode hstate

/-- A cascade that is not over after one cycle leaves the fight within two. -/
theorem Inv.calm_or_leaves (keycode' : Keycode) :
    (core.next false keycode).Calm ∨ ¬ (core.next false keycode).Fighting ∨
      ¬ ((core.next false keycode).next false keycode').Fighting := by
  have hinv' : (core.next false keycode).Inv := hinv.next false keycode (by simp)
  have hquiet' := hinv.next_quiet keycode
  by_cases hstate' : (core.next false keycode).Fighting
  · rcases hstate' with hplay' | hfight'
    · cases hkilled : (core.next false keycode).killedAll1 with
      | false => exact Or.inl (hinv.calm_next_of_play keycode hplay' hkilled)
      | true =>
          -- the last ship has been destroyed
          right
          right
          have hlogo : ((core.next false keycode).next false keycode').state = .bossLogo := by
            rw [next_state, hquiet'.died, hkilled, hplay']
            rfl
          simp [Fighting, hlogo]
    · cases hhit : (core.next false keycode).boss.enemyHit with
      | false => exact Or.inl (hinv.calm_next_of_bossFight keycode hfight' hhit)
      | true =>
          right
          right
          have hwin := (hinv'.next_of_bossHit hhit false keycode').1
          simp [Fighting, hwin]
  · exact Or.inr (Or.inl hstate')

/-- So after three cycles without a tick the game is calm. -/
theorem Inv.calm_after_three (keycode' keycode'' : Keycode) :
    (((core.next false keycode).next false keycode').next false keycode'').Calm := by
  have hinv' : (core.next false keycode).Inv := hinv.next false keycode (by simp)
  have hinv'' : ((core.next false keycode).next false keycode').Inv :=
    hinv'.next false keycode' (by simp)
  rcases hinv.calm_or_leaves keycode keycode' with hcalm | hleft | hleft
  · exact hinv''.calm_next keycode'' (hinv'.calm_next keycode' hcalm)
  · exact hinv''.calm_next keycode'' (hinv'.calm_next_of_not_fighting keycode' hleft)
  · exact hinv''.calm_next_of_not_fighting keycode'' hleft

end Onset

end Galaga.Core

namespace Galaga.Run

/-- In a run the game is calm after three cycles that are no ticks. -/
theorem calm_of_idle (run : Run) {n : ℕ} (hidle : ∀ i < 3, run.tick (n + i) = false) :
    (run.core (n + 3)).Calm := by
  have hfirst := hidle 0 (by omega)
  have hsecond := hidle 1 (by omega)
  have hthird := hidle 2 (by omega)
  rw [Nat.add_zero] at hfirst
  rw [run.core_succ (n + 2), run.core_succ (n + 1), run.core_succ n, hfirst, hsecond, hthird]
  exact (run.inv n).calm_after_three _ _ _

end Galaga.Run
