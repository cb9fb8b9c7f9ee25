import Galaga.Game.Flight
import Galaga.Motion.BossPath

/-! # A boss that is not shot at

If no tick of the boss fight samples Space, the fight is on rails: the boss
follows its path and the laser never leaves the ship, whatever else is pressed.
The fight then lasts 2044 ticks and is lost.
-/

namespace Galaga

/-- The fight after `count` ticks without Space. -/
structure Core.Unprovoked (core : Core) (count : ℕ) : Prop where
  state : core.state = .bossFight
  boss : core.boss = Boss.onPath (65 + count)
  laser : core.laser = Shot.parked.toLaser core.laser.xPos

namespace Core

variable {core : Core} {count : ℕ}

theorem Unprovoked.yPos_toNat (halone : core.Unprovoked count) (hcount : count ≤ 2044) :
    core.boss.yPos.toNat = BossPath.descent (65 + count) - 20 := by
  rw [halone.boss]
  exact Boss.onPath_yPos_toNat (by omega)

theorem Unprovoked.above (halone : core.Unprovoked count) (hcount : count < 2044) :
    core.boss.yPos.toNat < 409 := by
  have hbelow := (BossPath.descent_lt_iff (65 + count)).mpr (by omega)
  have hstarted := BossPath.twenty_le_descent (show 3 ≤ 65 + count by omega)
  rw [halone.yPos_toNat hcount.le]
  omega

theorem Unprovoked.live (halone : core.Unprovoked count) : core.boss.enemyHit = false := by
  rw [halone.boss]
  rfl

/-- The laser waits at the ship, far below the boss. -/
theorem Unprovoked.untouched (halone : core.Unprovoked count) (hcount : count < 2044) :
    ¬ core.BossTouched := by
  have hrow : core.laser.yPos.toNat = 441 := by
    rw [halone.laser, Shot.toLaser_yPos_toNat]
    rfl
  rw [BossTouched, boss_untouched_of_launch hrow (halone.above hcount)]
  exact Bool.false_ne_true

theorem Unprovoked.quiet (halone : core.Unprovoked count) (hcount : count < 2044) :
    core.Quiet := by
  constructor
  · rw [Bool.eq_false_iff, ne_eq, laserHit_iff]
    rintro (⟨hplay, _⟩ | ⟨_, htouched⟩)
    · cases hplay.symm.trans halone.state
    · exact halone.untouched hcount htouched
  · exact died_eq_false_of_bossFight halone.state (halone.above hcount)

/-- One cycle, a tick or not. -/
theorem Unprovoked.next (halone : core.Unprovoked count) (hcount : count < 2044)
    (hship : core.ship.Reached) {tick : Bool} {keycode : Keycode}
    (hkey : tick = true → keycode ≠ keySpace) :
    (core.next tick keycode).Unprovoked (count + tick.toNat) := by
  obtain ⟨hlaserHit, hdied⟩ := halone.quiet hcount
  have hlive' := core.next_boss_live tick keycode halone.live (halone.untouched hcount)
  have hstate' : (core.next tick keycode).state = .bossFight := by
    rw [next_state, halone.state, hdied, killedAll2_eq_false halone.live]
    rfl
  cases tick with
  | false =>
      have hlaser' := next_laser_of_idle (Or.inr halone.state) hlaserHit keycode
      refine ⟨hstate', ?_, ?_⟩
      · rw [next_boss_idle _ _ halone.state (halone.above hcount) halone.live, hlive', halone.boss]
        rfl
      · rw [hlaser']
        exact halone.laser
  | true =>
      have hspace : (keycode == keySpace) = false := by simpa using hkey rfl
      have hpath : (Boss.onPath (65 + count)).next true true keycode =
          Boss.onPath (65 + (count + 1)) :=
        Boss.next_onPath (by omega) (by omega) (hkey rfl)
      refine ⟨hstate', ?_, ?_⟩
      · rw [next_boss_tick _ _ halone.state, hlive', halone.boss, hpath]
        rfl
      · rw [next_laser_of_tick hship (Or.inr halone.state) halone.laser hlaserHit keycode, hspace]
        rfl

/-- The fight opens with the boss at home and the laser at the ship. -/
theorem Inv.unprovoked_of_opening (hinv : core.Inv) (hbefore : core.state ≠ .bossFight)
    {tick : Bool} {keycode : Keycode} (hopens : (core.next tick keycode).state = .bossFight) :
    (core.next tick keycode).Unprovoked 0 := by
  have hlogo : core.state = .bossLogo := by
    rcases State.next_eq_bossFight hopens with hlogo | ⟨hstate, _⟩
    · exact hlogo
    · exact absurd hstate hbefore
  refine ⟨hopens, ?_, ?_⟩
  · rw [next_boss_of_not_fight _ _ _ hbefore]
    exact Boss.home_eq_onPath
  · have hnot : ¬ core.Fighting := by simp [Fighting, hlogo]
    rw [next_laser_of_not_fighting hinv.ship hnot]
    rfl

end Core

namespace Run

variable (run : Run)

/-- No tick among the `len` cycles from `start` on samples Space. -/
def HoldsFire (start len : ℕ) : Prop :=
  ∀ i < len, run.tick (start + i) = true → run.keycode (start + i) ≠ keySpace

variable {run} {start : ℕ} (hbefore : (run.core start).state ≠ .bossFight)
  (hopens : (run.core (start + 1)).state = .bossFight)
include hbefore hopens

/-- Up to its last tick, the fight is where the count of its ticks says. -/
theorem unprovoked_of_holdsFire {len : ℕ} (hholds : run.HoldsFire (start + 1) len)
    (hcount : run.ticks (start + 1) len < 2044) :
    (run.core (start + 1 + len)).Unprovoked (run.ticks (start + 1) len) := by
  refine run.trace.ticks_rule (fun i count => count < 2044 →
    (run.core (start + 1 + i)).Unprovoked count) ?_ ?_ hcount
  · intro _
    rw [run.core_succ] at hopens
    rw [Nat.add_zero, run.core_succ]
    exact (run.inv start).unprovoked_of_opening hbefore hopens
  · intro i hi count ih hcount'
    have hlow := (Nat.le_add_right count _).trans_lt hcount'
    rw [← Nat.add_assoc, run.core_succ]
    exact (ih hlow).next hlow (run.inv _).ship (hholds i hi)

/-- A boss that is not shot at follows its path for 2043 ticks, with the laser
at the ship all the time, and the tick after them lands it. -/
theorem boss_alone_lands {len : ℕ} (hholds : run.HoldsFire (start + 1) len)
    (hcount : run.ticks (start + 1) len < 2044) :
    (run.core (start + 1 + len)).state = .bossFight ∧
      (run.core (start + 1 + len)).boss = Boss.onPath (65 + run.ticks (start + 1) len) ∧
      (run.core (start + 1 + len)).laser.spacePressed = false ∧
      (run.HoldsFire (start + 1) (len + 1) →
        ((run.core (start + 1 + len + 2)).state = .gameover ↔
          run.tick (start + 1 + len) = true ∧ run.ticks (start + 1) len = 2043)) := by
  have halone := unprovoked_of_holdsFire hbefore hopens hholds hcount
  refine ⟨halone.state, halone.boss, ?_, fun hholds' => ?_⟩
  · rw [halone.laser]
    rfl
  have hnext := halone.next hcount (run.inv _).ship (hholds' len (Nat.lt_succ_self len))
  rw [← run.core_succ] at hnext
  have hlast : (run.core (start + 1 + len + 2)).state = .gameover ↔
      (run.core (start + 1 + len + 1)).died = true := by
    rw [run.core_succ, Core.next_state, hnext.state, Core.killedAll2_eq_false hnext.live]
    simp [State.next]
  have hlanded : (run.core (start + 1 + len + 1)).died = true ↔
      409 ≤ (run.core (start + 1 + len + 1)).boss.yPos.toNat := by
    simp [Core.died_iff, hnext.state]
  have hbelow := BossPath.descent_lt_iff
    (65 + (run.ticks (start + 1) len + (run.tick (start + 1 + len)).toNat))
  have hlastTick := Bool.toNat_le (run.tick (start + 1 + len))
  rw [hlast, hlanded, hnext.yPos_toNat (by omega), ← Bool.toNat_eq_one]
  omega

omit hbefore hopens in
/-- No key is pressed in the fight of this script. -/
theorem holdsFire_scripted (len : ℕ) : (Run.scripted (fight [])).HoldsFire 7878 len := by
  intro i _ _
  have hkey : (Run.scripted (fight [])).keycode (7877 + i + 1) =
      (fight []).getD ((7877 + i) / 4) 0#8 := rfl
  rw [show 7878 + i = 7877 + i + 1 by omega, hkey, fight_getD [] (by omega)]
  cases (7877 + i) / 4 - 1969 with
  | zero => decide
  | succ frame =>
      change (0#8 : Keycode) ≠ keySpace
      decide

omit hbefore hopens in
/-- The fight of this script is lost with its tick 2044. -/
theorem boss_alone_lands_scripted :
    ((Run.scripted (fight [])).core (7878 + 8175)).state = .bossFight ∧
      ((Run.scripted (fight [])).core (7878 + 8175)).boss = Boss.onPath (65 + 2043) ∧
      ((Run.scripted (fight [])).core (7878 + 8175)).laser.spacePressed = false ∧
      ((Run.scripted (fight [])).core (7878 + 8175 + 2)).state = .gameover := by
  have hbefore : ((Run.scripted (fight [])).core 7877).state ≠ .bossFight := by
    rw [scripted_logo]
    decide
  have hopens : ((Run.scripted (fight [])).core (7877 + 1)).state = .bossFight := by
    rw [scripted_duel]
    rfl
  have hcount : (Run.scripted (fight [])).ticks 7878 8175 = 2043 :=
    scripted_ticks (fight []) 7878 8175
  have hlast : (Run.scripted (fight [])).tick (7878 + 8175) = true :=
    scripted_tick (fight []) (7878 + 8175)
  obtain ⟨hstate, hboss, hlaser, hlost⟩ := boss_alone_lands hbefore hopens
    (holdsFire_scripted 8175) (show (Run.scripted (fight [])).ticks 7878 8175 < 2044 by omega)
  have hpath := hboss.trans (congrArg (fun count => Boss.onPath (65 + count)) hcount)
  exact ⟨hstate, hpath, hlaser, (hlost (holdsFire_scripted 8176)).mpr ⟨hlast, hcount⟩⟩

end Run

end Galaga
