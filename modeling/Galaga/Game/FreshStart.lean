import Galaga.Game.Scripted

/-! # What a lost game leaves behind

`done` clears the hit registers in the cycle in which the game is lost. The
landed ships are at home one cycle later, and the laser is parked one cycle
after that. In between the hit controllers, which nothing gates, test the homes
against a laser that is still flying. A register set then is not cleared again
before the next game.
-/

namespace Galaga

namespace Core

/-- The state in which a game is to start: nothing destroyed, everything at
home. -/
structure Fresh (core : Core) : Prop where
  enemies : ∀ row col, core.enemy row col = homeShip row col false
  boss : core.boss = Boss.home false
  score : core.score = 0#5

/-- The game is lost while the laser flies over the home of a ship that goes
home in this cycle: in play a ship at the bottom row, in the boss fight any. -/
def StaleOverlap (core : Core) : Prop :=
  core.died = true ∧ core.laserHit = false ∧
    ∃ row col, (core.state = .play → 409 ≤ (core.enemy row col).yPos.toNat) ∧
      (homeShip row col false).laserHitTemp core.laser.xPos core.laser.yPos = true

/-- Between two games no hit register is set or about to be set. -/
def Cleared (core : Core) : Prop :=
  core.state = .start ∨ core.state = .gameover ∨ core.state = .win →
    ∀ row col, (core.enemy row col).enemyHit = false ∧ ¬ core.Touched row col

variable {core : Core}

theorem cleared_reset : resetRegs.Cleared := by
  have huntouched : ∀ row col, ¬ resetRegs.Touched row col := by decide
  exact fun _ row col => ⟨rfl, huntouched row col⟩

/-- The laser's hit test does not read the hit register. -/
theorem homeShip_laserHitTemp (row : Fin 3) (col : Fin 6) (enemyHit : Bool) (x y : Coord) :
    (homeShip row col enemyHit).laserHitTemp x y = (homeShip row col false).laserHitTemp x y := rfl

section Between

variable (tick : Bool) (keycode : Keycode)

/-- Where nothing is set or touched nothing gets set, and one cycle later the
laser is parked. -/
theorem cleared_of_between (hship : core.ship.Reached) (hstate : ¬ core.Fighting)
    (hclear : ∀ row col, (core.enemy row col).enemyHit = false ∧ ¬ core.Touched row col)
    (row : Fin 3) (col : Fin 6) :
    ((core.next tick keycode).enemy row col).enemyHit = false ∧
      ¬ (core.next tick keycode).Touched row col := by
  obtain ⟨hlive, huntouched⟩ := hclear row col
  have hplay : core.state ≠ .play := fun h => hstate (Or.inl h)
  have hlaunch := next_laser_row_of_not_fighting hship hstate tick keycode
  constructor
  · exact core.next_enemy_live tick keycode hlive huntouched
  · rw [Touched, core.next_enemy_of_not_play tick keycode row col hplay,
      homeShip_untouched hlaunch]
    exact Bool.false_ne_true

/-- Losing clears every hit register. -/
theorem next_enemyHit_of_died (hdied : core.died = true) (row : Fin 3) (col : Fin 6) :
    ((core.next tick keycode).enemy row col).enemyHit = false := by
  rw [Bool.eq_false_iff, ne_eq, next_enemyHit_iff, core.done_iff.mpr (Or.inl hdied)]
  simp

/-- Where the ships can be in the cycle after play was lost. -/
theorem next_enemy_height (hstate : core.state = .play) (row : Fin 3) (col : Fin 6) :
    ((core.next false keycode).enemy row col).yPos.toNat ≤ 410 := by
  by_cases hlanded : 409 ≤ (core.enemy row col).yPos.toNat
  · rw [core.next_enemy_landed false keycode row col hstate hlanded]
    have hheight := homeShip_yPos_le row col ((core.next false keycode).enemy row col).enemyHit
    omega
  · have habove : (core.enemy row col).yPos.toNat < 409 := not_le.mp hlanded
    cases hwas : (core.enemy row col).enemyHit with
    | true =>
        rw [core.next_enemy_destroyed false keycode row col hstate habove hwas,
          EnemyShip.withHit_yPos]
        decide
    | false =>
        rw [core.next_enemy_idle keycode row col hstate habove hwas, EnemyShip.withHit_yPos]
        omega

/-- In the cycle after play was lost the ships that landed are at home, and the
others untouched as before. -/
theorem Inv.untouched_after_play (hinv : core.Inv) (hstate : core.state = .play)
    (hdied : core.died = true) (hnone : ¬ core.StaleOverlap) (row : Fin 3) (col : Fin 6) :
    ¬ (core.next false keycode).Touched row col := by
  cases hhit : core.laserHit with
  | true =>
      -- the laser is back at the ship
      have hlaunch := next_laser_row_of_hit hinv.ship (Or.inl hstate) hhit false keycode
      have hheight := next_enemy_height keycode hstate row col
      rw [Touched, untouched_of_launch (by omega) (by omega)]
      exact Bool.false_ne_true
  | false =>
      have hlaser := next_laser_of_idle (Or.inl hstate) hhit keycode
      by_cases hlanded : 409 ≤ (core.enemy row col).yPos.toNat
      · rw [Touched, core.next_enemy_landed false keycode row col hstate hlanded, hlaser,
          homeShip_laserHitTemp]
        exact fun htemp => hnone ⟨hdied, hhit, row, col, fun _ => hlanded, htemp⟩
      · have habove : (core.enemy row col).yPos.toNat < 409 := not_le.mp hlanded
        cases hwas : (core.enemy row col).enemyHit with
        | true =>
            have haway : Wreck core.laser EnemyShip.parkedAway := Or.inl rfl
            rw [Touched, core.next_enemy_destroyed false keycode row col hstate habove hwas, hlaser]
            change ¬ EnemyShip.parkedAway.laserHitTemp core.laser.xPos core.laser.yPos = true
            rw [haway.untouched hinv.muzzle.2]
            exact Bool.false_ne_true
        | false =>
            rw [Touched, core.next_enemy_idle keycode row col hstate habove hwas, hlaser]
            exact untouched_of_no_hit hstate hhit row col

/-- In the cycle after the boss fight was lost all enemies are at home. -/
theorem Inv.untouched_after_bossFight (hinv : core.Inv) (hstate : core.state = .bossFight)
    (hdied : core.died = true) (hnone : ¬ core.StaleOverlap) (row : Fin 3) (col : Fin 6) :
    ¬ (core.next false keycode).Touched row col := by
  have hplay : core.state ≠ .play := by simp [hstate]
  have hhome := core.next_enemy_of_not_play false keycode row col hplay
  cases hhit : core.laserHit with
  | true =>
      have hlaunch := next_laser_row_of_hit hinv.ship (Or.inr hstate) hhit false keycode
      rw [Touched, hhome, homeShip_untouched hlaunch]
      exact Bool.false_ne_true
  | false =>
      have hlaser := next_laser_of_idle (Or.inr hstate) hhit keycode
      rw [Touched, hhome, hlaser, homeShip_laserHitTemp]
      exact fun htemp => hnone ⟨hdied, hhit, row, col, fun h => absurd h hplay, htemp⟩

/-- Between two games everything stays cleared, unless the first one ended with
a stale overlap. -/
theorem Cleared.next (hinv : core.Inv) (hcleared : core.Cleared) (hnone : ¬ core.StaleOverlap)
    (hquiet : tick = true → core.Quiet) : (core.next tick keycode).Cleared := by
  have hbetween : core.state = .start ∨ core.state = .gameover ∨ core.state = .win →
      ∀ row col, ((core.next tick keycode).enemy row col).enemyHit = false ∧
        ¬ (core.next tick keycode).Touched row col := by
    intro hstate row col
    refine cleared_of_between tick keycode hinv.ship ?_ (hcleared hstate) row col
    rcases hstate with h | h | h <;> simp [Fighting, h]
  have hidle : core.died = true → tick = false := by
    intro hdied
    rw [Bool.eq_false_iff]
    intro htick
    rw [(hquiet htick).died] at hdied
    cases hdied
  rintro (hstart' | hover' | hwin')
  · apply hbetween
    rcases State.next_eq_start hstart' with h | h | h
    · exact Or.inl h
    · exact Or.inr (Or.inl h)
    · exact Or.inr (Or.inr h)
  · rcases State.next_eq_gameover hover' with ⟨hstate, hdied⟩ | ⟨hstate, hdied⟩ | hstate
    · rw [hidle hdied]
      exact fun row col => ⟨next_enemyHit_of_died false keycode hdied row col,
        hinv.untouched_after_play keycode hstate hdied hnone row col⟩
    · rw [hidle hdied]
      exact fun row col => ⟨next_enemyHit_of_died false keycode hdied row col,
        hinv.untouched_after_bossFight keycode hstate hdied hnone row col⟩
    · exact hbetween (Or.inr (Or.inl hstate))
  · -- a victory clears the registers under a laser that is back at the ship
    obtain ⟨hhome, _, hlow, hhigh⟩ := hinv.win_of_next tick keycode hwin'
    intro row col
    have hheight := homeShip_yPos_le row col false
    refine ⟨by rw [hhome row col]; rfl, ?_⟩
    rw [Touched, hhome row col, untouched_of_launch ⟨hlow, hhigh⟩ (by omega)]
    exact Bool.false_ne_true

/-- Outside the fights nothing is cleared, so what is set or touched gets set. -/
theorem Inv.next_enemyHit_of_not_fighting (hinv : core.Inv) (hstate : ¬ core.Fighting)
    {row : Fin 3} {col : Fin 6}
    (hhit : (core.enemy row col).enemyHit = true ∨ core.Touched row col) :
    ((core.next tick keycode).enemy row col).enemyHit = true := by
  have hdied := died_eq_false_of_not_fighting hstate
  have hremain : core.killedAll2 = false := by
    rw [Bool.eq_false_iff]
    intro hkilled
    exact hstate (Or.inr (hinv.state_of_bossHit (core.killedAll2_iff.mp hkilled).2))
  exact (core.next_enemyHit_iff tick keycode row col).mpr
    ⟨done_eq_false hdied hremain, hhit⟩

/-- The game over screen with a register set or about to be set. -/
def Spoiled (core : Core) : Prop :=
  core.state = .gameover ∧
    ∃ row col, (core.enemy row col).enemyHit = true ∨ core.Touched row col

/-- The ship that goes home in a stale overlap is touched there. -/
theorem StaleOverlap.spoiled_next (hstale : core.StaleOverlap) :
    (core.next false keycode).Spoiled := by
  obtain ⟨hdied, hhit, row, col, hlanded, htemp⟩ := hstale
  refine ⟨?_, row, col, Or.inr ?_⟩
  · rw [next_state, hdied]
    rcases core.died_iff.mp hdied with ⟨hstate, _⟩ | ⟨hstate, _⟩
    · simp [hstate, State.next]
    · simp [hstate, State.next]
  · rcases core.died_iff.mp hdied with ⟨hstate, _⟩ | ⟨hstate, _⟩
    · rw [Touched, core.next_enemy_landed false keycode row col hstate (hlanded hstate),
        next_laser_of_idle (Or.inl hstate) hhit, homeShip_laserHitTemp]
      exact htemp
    · have hplay : core.state ≠ .play := by simp [hstate]
      rw [Touched, core.next_enemy_of_not_play false keycode row col hplay,
        next_laser_of_idle (Or.inr hstate) hhit, homeShip_laserHitTemp]
      exact htemp

theorem Spoiled.next (hinv : core.Inv) (hspoiled : core.Spoiled) (hkey : keycode ≠ keyEnter) :
    (core.next tick keycode).Spoiled := by
  obtain ⟨hstate, row, col, hhit⟩ := hspoiled
  refine ⟨?_, row, col, Or.inl ?_⟩
  · simp [next_state, hstate, State.next, hkey]
  · exact hinv.next_enemyHit_of_not_fighting tick keycode (by simp [Fighting, hstate]) hhit

theorem Spoiled.next_enter (hinv : core.Inv) (hspoiled : core.Spoiled)
    (hkey : keycode = keyEnter) :
    (core.next tick keycode).state = .start ∧ ¬ (core.next tick keycode).Fresh := by
  obtain ⟨hstate, row, col, hhit⟩ := hspoiled
  refine ⟨by simp [next_state, hstate, State.next, hkey], fun hfresh => ?_⟩
  have hset := hinv.next_enemyHit_of_not_fighting tick keycode (by simp [Fighting, hstate]) hhit
  rw [hfresh.enemies row col] at hset
  cases hset

end Between

theorem score_eq_zero (henemies : ∀ row col, (core.enemy row col).enemyHit = false)
    (hboss : core.boss.enemyHit = false) : core.score = 0#5 := by
  rw [← BitVec.toNat_inj, score_toNat, hboss]
  simp [henemies]

theorem Cleared.fresh_of_start (hinv : core.Inv) (hcleared : core.Cleared)
    (hstate : core.state = .start) : core.Fresh := by
  obtain ⟨hhome, hboss⟩ := hinv.start hstate
  have hlive := fun row col => (hcleared (Or.inl hstate) row col).1
  refine ⟨fun row col => ?_, hboss, score_eq_zero hlive (by rw [hboss]; rfl)⟩
  rw [hhome row col, hlive row col]

theorem Cleared.fresh_of_play (hinv : core.Inv) (hcleared : core.Cleared)
    (hstate : core.state = .start) (tick : Bool) (keycode : Keycode) :
    (core.next tick keycode).Fresh := by
  have hlive : ∀ row col, ((core.next tick keycode).enemy row col).enemyHit = false := by
    intro row col
    exact (cleared_of_between tick keycode hinv.ship (by simp [Fighting, hstate])
      (hcleared (Or.inl hstate)) row col).1
  have hboss := core.next_boss_of_not_fight tick keycode (by simp [hstate])
  refine ⟨fun row col => ?_, hboss, score_eq_zero hlive (by rw [hboss]; rfl)⟩
  rw [core.next_enemy_of_not_play tick keycode row col (by simp [hstate]), hlive row col]

end Core

namespace Run

open Galaga.Core

theorem cleared_of_no_staleOverlap (run : Run) (n : ℕ)
    (hnone : ∀ m < n, ¬ (run.core m).StaleOverlap) : (run.core n).Cleared := by
  induction n with
  | zero =>
      rw [run.core_zero]
      exact cleared_reset
  | succ n ih =>
      rw [run.core_succ]
      have hcleared := ih fun m hm => hnone m (by omega)
      exact hcleared.next _ _ (run.inv n) (hnone n (by omega)) (run.quiet_of_tick n)

/-- A stale overlap spoils the game over screen for as long as it is shown. -/
theorem spoiled_of_staleOverlap (run : Run) {m : ℕ} (hstale : (run.core m).StaleOverlap) (len : ℕ)
    (hwait : ∀ i < len, run.keycode (m + 1 + i) ≠ keyEnter) :
    (run.core (m + 1 + len)).Spoiled := by
  induction len with
  | zero =>
      have hidle : run.tick m = false := by
        rw [Bool.eq_false_iff]
        intro htick
        have hdied := hstale.1
        rw [(run.quiet_of_tick m htick).died] at hdied
        cases hdied
      rw [Nat.add_zero, run.core_succ, hidle]
      exact hstale.spoiled_next _
  | succ len ih =>
      have hspoiled := ih fun i hi => hwait i (by omega)
      rw [← Nat.add_assoc, run.core_succ]
      exact hspoiled.next _ _ (run.inv _) (hwait len (by omega))

/-- Every game starts fresh, on the start screen and in the first cycle of
play, in exactly the runs in which Enter never follows a stale overlap. -/
theorem every_game_starts_fresh_iff (run : Run) :
    (∀ n, ((run.core n).state = .start → (run.core n).Fresh) ∧
      ((run.core n).state ≠ .play → (run.core (n + 1)).state = .play →
        (run.core (n + 1)).Fresh)) ↔
      ∀ m n, m < n → (run.core m).StaleOverlap → run.keycode n ≠ keyEnter := by
  constructor
  · intro hfresh m n hlt hstale
    -- otherwise the first Enter after the overlap opens a spoiled start screen
    induction n using Nat.strong_induction_on with
    | _ n ih =>
        intro henter
        obtain ⟨len, rfl⟩ := Nat.exists_eq_add_of_le (Nat.succ_le_of_lt hlt)
        have hspoiled := run.spoiled_of_staleOverlap hstale len fun i hi =>
          ih (m + 1 + i) (by omega) (by omega)
        obtain ⟨hstart, hstained⟩ := hspoiled.next_enter
          (run.tick (m + 1 + len)) _ (run.inv _) henter
        rw [← run.core_succ] at hstart hstained
        exact hstained ((hfresh (m + 1 + len + 1)).1 hstart)
  · intro hwait n
    -- a start screen is only reached by Enter, so no overlap came before it
    have hcleared : (run.core n).state = .start → (run.core n).Cleared := by
      intro hstart
      refine run.cleared_of_no_staleOverlap n fun m hm hstale => ?_
      obtain ⟨len, rfl⟩ := Nat.exists_eq_add_of_le (Nat.succ_le_of_lt hm)
      have hspoiled := run.spoiled_of_staleOverlap hstale len fun i _ =>
        hwait m (m + 1 + i) (by omega) hstale
      rw [hspoiled.1] at hstart
      cases hstart
    refine ⟨fun hstart => (hcleared hstart).fresh_of_start (run.inv n) hstart,
      fun hstate hplay' => ?_⟩
    rw [run.core_succ] at hplay' ⊢
    rcases State.next_eq_play hplay' with hstart | ⟨hplay, _⟩
    · exact (hcleared hstart).fresh_of_play (run.inv n) hstart _ _
    · exact absurd hplay hstate

/-- The game that the boss wins leaves a hit register set on the next start
screen. -/
theorem stale_game_start :
    ((scripted defeatScript).core (1 + 4 * (defeat.length + 1) + 1)).state = .start ∧
      ¬ ((scripted defeatScript).core (1 + 4 * (defeat.length + 1) + 1)).Fresh := by
  obtain ⟨hstate, hhit⟩ := scripted_restart
  refine ⟨hstate, fun hfresh => ?_⟩
  rw [hfresh.enemies 1 4] at hhit
  cases hhit

end Run

end Galaga
