import Galaga.Game.Scripted

/-! # The boss at the edges of the screen

The wall tests replace the motion one tick after the boss has reached the wall
column, so a boss that reaches it takes one more step outwards.
-/

namespace Galaga

/-- The next tick takes the boss off the screen: it is in the last column of
its way and still moves outwards. -/
def Boss.Overruns (boss : Boss) : Prop :=
  (boss.xPos = 610#10 ∧ boss.xMotion = 5#10) ∨ (boss.xPos = 0#10 ∧ boss.xMotion = 1019#10)

@[simp] theorem Boss.withHit_xPos (boss : Boss) (enemyHit : Bool) :
    (boss.withHit enemyHit).xPos = boss.xPos := rfl

/-- On the screen a tick keeps a roaming boss there, unless it is about to
leave. -/
theorem Boss.Roaming.onScreen_next_iff {boss : Boss} (hroaming : boss.Roaming)
    (habove : boss.yPos.toNat < 409) (hon : boss.xPos.toNat ≤ 610) (keycode : Keycode) :
    (boss.next true true keycode).xPos.toNat ≤ 610 ↔ ¬ boss.Overruns := by
  have hcolumn := hroaming.column
  rw [Boss.next_tick hroaming.live habove]
  change (boss.xPos + boss.xMotion).toNat ≤ 610 ↔ _
  unfold Overruns
  rw [BitVec.toNat_add]
  simp only [← BitVec.toNat_inj, BitVec.toNat_ofNat]
  rcases hcolumn with ⟨_, hmod, hm | hm⟩ | ⟨hpos, hm⟩ | ⟨hpos, hm⟩
  · rw [hm, Nat.mod_eq_of_lt (by omega)]
    omega
  · -- moving left: only column 0 wraps
    rcases Nat.eq_zero_or_pos boss.xPos.toNat with hzero | hpos
    · omega
    · have hsum : (boss.xPos.toNat + boss.xMotion.toNat) % 1024 = boss.xPos.toNat - 5 := by
        omega
      omega
  · omega
  · omega

namespace Run

variable (run : Run)

/-- While it is fought, the live boss is on the screen. -/
def BossOnScreen : Prop :=
  ∀ n, (run.core n).bossFight = true → (run.core n).boss.enemyHit = false →
    (run.core n).boss.xPos.toNat ≤ 610

section Step

variable {run} {n : ℕ} (hstate : (run.core n).state = .bossFight)
  (hlive : (run.core n).boss.enemyHit = false)
include hstate hlive

theorem boss_roaming : (run.core n).boss.Roaming :=
  ((run.inv n).bossFight hstate).roaming_of_live hlive

/-- A tick leaves the boss alive and in its fight, and moves it. -/
theorem bossFight_tick (htick : run.tick n = true) :
    (run.core (n + 1)).bossFight = true ∧ (run.core (n + 1)).boss.enemyHit = false ∧
      (run.core (n + 1)).boss.xPos =
        ((run.core n).boss.next true true (run.keycode n)).xPos := by
  have hquiet := run.quiet_of_tick n htick
  have huntouched := Core.boss_untouched_of_no_hit hstate hquiet.laserHit
  rw [run.core_succ, htick]
  refine ⟨?_, Core.next_boss_live _ true _ hlive huntouched, ?_⟩
  · rw [Core.bossFight_iff, Core.next_state, hstate, hquiet.died, Core.killedAll2_eq_false hlive]
    rfl
  · rw [Core.next_boss_tick _ _ hstate, Boss.withHit_xPos]

end Step

/-- The boss comes on at home, and only a tick that finds it about to leave
takes it off the screen. -/
theorem boss_column_of_safe (hsafe : ∀ n, run.tick n = true → (run.core n).state = .bossFight →
    (run.core n).boss.enemyHit = false → ¬ (run.core n).boss.Overruns) : run.BossOnScreen := by
  intro n
  induction n with
  | zero =>
      intro hfight
      rw [run.core_zero] at hfight
      cases hfight
  | succ n ih =>
      intro hfight' _
      rw [Core.bossFight_iff, run.core_succ] at hfight'
      rcases State.next_eq_bossFight hfight' with hlogo | ⟨hstate, hdied, hkilled⟩
      · -- the fight begins with the boss at home
        rw [run.core_succ, Core.next_boss_of_not_fight _ _ _ (by simp [hlogo])]
        decide
      · have hlive := ((run.inv n).bossFight hstate).boss_live hkilled
        have habove := Core.boss_above hstate hdied
        have hcolumn := ih ((run.core n).bossFight_iff.mpr hstate) hlive
        cases htick : run.tick n with
        | true =>
            rw [(bossFight_tick hstate hlive htick).2.2,
              (boss_roaming hstate hlive).onScreen_next_iff habove hcolumn]
            exact hsafe n htick hstate hlive
        | false =>
            rw [run.core_succ, htick, Core.next_boss_idle _ _ hstate habove hlive]
            exact hcolumn

/-- The boss stays on the screen exactly if no tick of its fight finds it in
the last column and moving outwards. -/
theorem bossOnScreen_iff :
    run.BossOnScreen ↔ ∀ n, run.tick n = true → (run.core n).state = .bossFight →
      (run.core n).boss.enemyHit = false → ¬ (run.core n).boss.Overruns := by
  constructor
  · intro hon n htick hstate hlive
    obtain ⟨hfight', hlive', hx⟩ := bossFight_tick hstate hlive htick
    have habove := Core.boss_above hstate (run.quiet_of_tick n htick).died
    have hcolumn := hon n ((run.core n).bossFight_iff.mpr hstate) hlive
    rw [← (boss_roaming hstate hlive).onScreen_next_iff habove hcolumn (run.keycode n), ← hx]
    exact hon (n + 1) hfight' hlive'
  · exact run.boss_column_of_safe

end Run

section Counterexample

/-- After fifty-nine ticks without a key the boss has passed the right wall. -/
def straying : BossFrame where
  ship := walked
  shot := .parked
  laserX := 249#10
  boss := ⟨615#10, 0#10, 1019#10, 10#10, false⟩

theorem plays_straying : duelOpening.plays (List.replicate 59 0#8) = some straying := by
  decide +kernel

theorem not_bossOnScreen : ¬ ∀ run : Run, run.BossOnScreen := by
  intro hall
  have hcore := scripted_fight plays_straying []
  have hon := hall (Run.scripted (fight (List.replicate 59 0#8) ++ []))
    (1 + 4 * (fight (List.replicate 59 0#8)).length)
  rw [hcore] at hon
  exact absurd (hon rfl rfl) (by decide)

end Counterexample

end Galaga
