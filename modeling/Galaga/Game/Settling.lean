import Galaga.Game.Calm

/-! # The game settles between frames

With a constant key the screens that follow each other without a tick are few,
so a game left alone is at rest within six cycles.
-/

namespace Galaga

open Clocked.Trace

namespace Core

/-- Where a destroyed ship ends up: in the corner in play, at home otherwise. -/
def Tidy (core : Core) : Prop :=
  ∀ row col, (core.enemy row col).enemyHit = true →
    core.enemy row col =
      if core.state = .play then EnemyShip.parkedAway else homeShip row col true

variable {core : Core} {keycode : Keycode}

/-- A calm cycle that neither enters nor leaves play puts the destroyed ships
where they belong. -/
theorem Calm.tidy_next (hinv : core.Inv) (hcalm : core.Calm) (keycode : Keycode)
    (hsame : core.state = .play ↔ (core.next false keycode).state = .play) :
    (core.next false keycode).Tidy := by
  intro row col hhit'
  have hhit : (core.enemy row col).enemyHit = true := by
    rw [← hcalm.next_hits hinv keycode row col, hhit']
  by_cases hplay : core.state = .play
  · rw [if_pos (hsame.mp hplay), core.next_enemy_destroyed false keycode row col hplay
      (enemy_above hplay (hcalm.play hplay).1.died row col) hhit, hhit']
    rfl
  · rw [if_neg fun h => hplay (hsame.mpr h),
      core.next_enemy_of_not_play false keycode row col hplay, hhit']

/-- A calm and tidy game rests unless its screen changes. -/
theorem Calm.at_rest (hinv : core.Inv) (hcalm : core.Calm) (htidy : core.Tidy)
    (hstate : (core.next false keycode).state = core.state) :
    core.next false keycode = core := by
  have hunmoved := hcalm.unmoved hinv keycode
  have htidy' := hcalm.tidy_next hinv keycode (by rw [hstate])
  apply Core.ext
  · exact hstate
  · exact hunmoved.ship
  · funext row col
    change (core.next false keycode).enemy row col = core.enemy row col
    cases hhit : (core.enemy row col).enemyHit with
    | false => exact hunmoved.enemies row col hhit
    | true => rw [htidy' row col (by rw [hunmoved.hits, hhit]), hstate, htidy row col hhit]
  · exact hunmoved.boss
  · exact hunmoved.laser

section Screens

/-- A calm game changes its screen by the keys, or because all enemies were
destroyed. -/
theorem Calm.next_state (hinv : core.Inv) (hcalm : core.Calm) (keycode : Keycode) :
    (core.next false keycode).state = core.state.next keycode false core.killedAll1 false := by
  have hdone := done_of_calm hinv hcalm
  rw [Core.next_state, died_of_not_done hdone, killedAll2_of_not_done hdone]

/-- If the screen changes at most once, and not from or to play, a calm game
rests after one cycle. -/
theorem Calm.rests_one (hinv : core.Inv) (hcalm : core.Calm) (state : State)
    (hnext : core.state.next keycode false core.killedAll1 false = state)
    (hsame : core.state = .play ↔ state = .play)
    (hstays : state.next keycode false core.killedAll1 false = state) :
    RestsIn Core.next keycode 1 core := by
  have hinv' : (core.next false keycode).Inv := hinv.next false keycode (by simp)
  have hcalm' := hinv.calm_next keycode hcalm
  have hstate' := hcalm.next_state hinv keycode
  rw [hnext] at hstate'
  have htidy' := hcalm.tidy_next hinv keycode (by rw [hstate', hsame])
  rw [RestsIn, Function.iterate_one]
  refine hcalm'.at_rest hinv' htidy' ?_
  rw [hcalm'.next_state hinv' keycode, (hcalm.unmoved hinv keycode).killedAll1, hstate', hstays]

theorem Calm.rests_of_boss (hinv : core.Inv) (hcalm : core.Calm)
    (hstate : core.state = .bossLogo ∨ core.state = .bossFight) :
    RestsIn Core.next keycode 1 core := by
  rcases hstate with hlogo | hfight
  · by_cases hkey : keycode = keyEnter
    · apply hcalm.rests_one hinv .bossFight <;> simp [State.next, hlogo, hkey]
    · apply hcalm.rests_one hinv .bossLogo <;> simp [State.next, hlogo, hkey]
  · apply hcalm.rests_one hinv .bossFight <;> simp [State.next, hfight]

theorem Calm.rests_of_play (hinv : core.Inv) (hcalm : core.Calm) (hstate : core.state = .play) :
    RestsIn Core.next keycode 2 core := by
  cases hkilled : core.killedAll1 with
  | false =>
      refine (RestsIn.mono ?_ (Nat.le_succ 1))
      apply hcalm.rests_one hinv .play <;> simp [State.next, hstate, hkilled]
  | true =>
      have hlogo : (core.next false keycode).state = .bossLogo := by
        simp [hcalm.next_state hinv keycode, hstate, hkilled, State.next]
      exact ((hinv.calm_next keycode hcalm).rests_of_boss
        (hinv.next false keycode (by simp)) (Or.inl hlogo)).after

theorem Calm.rests_of_start (hinv : core.Inv) (hcalm : core.Calm)
    (hstate : core.state = .start) : RestsIn Core.next keycode 3 core := by
  by_cases hkey : keycode = keyEnter
  · have hplay : (core.next false keycode).state = .play := by
      rw [hcalm.next_state hinv keycode, hstate]
      simp [State.next, hkey]
    exact ((hinv.calm_next keycode hcalm).rests_of_play
      (hinv.next false keycode (by simp)) hplay).after
  · refine (RestsIn.mono ?_ (show 1 ≤ 3 by omega))
    apply hcalm.rests_one hinv .start <;> simp [State.next, hstate, hkey]

/-- On the two end screens Enter starts the longest chain. -/
theorem Calm.rests_of_end (hinv : core.Inv) (hcalm : core.Calm)
    (hstate : core.state = .gameover ∨ core.state = .win) (hkey : keycode ≠ keyEnter) :
    RestsIn Core.next keycode 1 core := by
  rcases hstate with hover | hwin
  · apply hcalm.rests_one hinv .gameover <;> simp [State.next, hover, hkey]
  · apply hcalm.rests_one hinv .win <;> simp [State.next, hwin, hkey]

/-- A game that is not being fought rests within four cycles: it is calm after
the first, and at most three screens follow. -/
theorem Inv.rests_of_not_fighting (hinv : core.Inv) (hstate : ¬ core.Fighting) :
    RestsIn Core.next keycode 4 core := by
  have hinv' : (core.next false keycode).Inv := hinv.next false keycode (by simp)
  have hcalm' := hinv.calm_next_of_not_fighting keycode hstate
  have hnext := core.next_state false keycode
  apply RestsIn.after
  cases hscreen : core.state with
  | play => exact absurd (Or.inl hscreen) hstate
  | bossFight => exact absurd (Or.inr hscreen) hstate
  | start =>
      by_cases hkey : keycode = keyEnter
      · -- Enter stays pressed but play does not look at it
        have hplay : (core.next false keycode).state = .play := by
          rw [hnext, hscreen]
          simp [State.next, hkey]
        exact (hcalm'.rests_of_play hinv' hplay).mono (by omega)
      · apply hcalm'.rests_of_start hinv'
        rw [hnext, hscreen]
        simp [State.next, hkey]
  | bossLogo =>
      refine (hcalm'.rests_of_boss hinv' ?_).mono (by omega)
      rw [hnext, hscreen]
      by_cases hkey : keycode = keyEnter <;> simp [State.next, hkey]
  | gameover =>
      by_cases hkey : keycode = keyEnter
      · apply hcalm'.rests_of_start hinv'
        rw [hnext, hscreen]
        simp [State.next, hkey]
      · refine (hcalm'.rests_of_end hinv' (Or.inl ?_) hkey).mono (by omega)
        rw [hnext, hscreen]
        simp [State.next, hkey]
  | win =>
      by_cases hkey : keycode = keyEnter
      · apply hcalm'.rests_of_start hinv'
        rw [hnext, hscreen]
        simp [State.next, hkey]
      · refine (hcalm'.rests_of_end hinv' (Or.inr ?_) hkey).mono (by omega)
        rw [hnext, hscreen]
        simp [State.next, hkey]

theorem Calm.rests_in_four (hinv : core.Inv) (hcalm : core.Calm) :
    RestsIn Core.next keycode 4 core := by
  by_cases hstate : core.Fighting
  · rcases hstate with hplay | hfight
    · exact (hcalm.rests_of_play hinv hplay).mono (by omega)
    · exact (hcalm.rests_of_boss hinv (Or.inr hfight)).mono (by omega)
  · exact hinv.rests_of_not_fighting hstate

/-- From any state of the invariant the game rests within six cycles. -/
theorem Inv.settles_in_six (hinv : core.Inv) : SettlesIn Core.next 6 core := by
  intro keycode
  have hinv' : (core.next false keycode).Inv := hinv.next false keycode (by simp)
  have hinv'' : ((core.next false keycode).next false keycode).Inv :=
    hinv'.next false keycode (by simp)
  rcases hinv.calm_or_leaves keycode keycode with hcalm | hleft | hleft
  · exact (hcalm.rests_in_four hinv').after.mono (by omega)
  · exact (hinv'.rests_of_not_fighting hleft).after.mono (by omega)
  · exact (hinv''.rests_of_not_fighting hleft).after.after

end Screens

/-- After a reset one cycle is enough: nothing has been hit. -/
theorem settles_reset : SettlesIn Core.next 1 resetRegs := by
  intro keycode
  have hinv' : (resetRegs.next false keycode).Inv := inv_reset.next false keycode (by simp)
  have hcalm' : (resetRegs.next false keycode).Calm :=
    inv_reset.calm_next_of_not_fighting keycode (by simp [Fighting, resetRegs])
  have huntouched : ∀ row col, ¬ resetRegs.Touched row col := by decide
  have hfresh : ∀ row col, ((resetRegs.next false keycode).enemy row col).enemyHit = false := by
    exact fun row col => resetRegs.next_enemy_live false keycode rfl (huntouched row col)
  have hremain : (resetRegs.next false keycode).killedAll1 = false := by
    have hboss := resetRegs.next_boss_of_not_fight false keycode (by decide)
    have hbossLive : (resetRegs.next false keycode).boss.enemyHit = false := by
      rw [hboss]
      rfl
    exact killedAll1_eq_false hbossLive (hfresh 0 0)
  rw [RestsIn, Function.iterate_one]
  apply hcalm'.at_rest hinv'
  · intro row col hhit
    rw [hfresh row col] at hhit
    cases hhit
  · rw [hcalm'.next_state hinv' keycode, hremain, Core.next_state]
    by_cases hkey : keycode = keyEnter <;> simp [State.next, resetRegs, hkey]

end Core

namespace Run

open Galaga.Core

/-- With a constant key and no further rising edge of `frame_clk` nothing
changes after eight cycles. A rising edge on the way when the cycles are
counted from `n` is still reported in cycle `n` or `n + 1`. -/
theorem at_rest_after_eight (run : Run) {n : ℕ}
    (hkey : ∀ m ≥ n, run.keycode m = run.keycode n)
    (hclk : ∀ m ≥ n, ¬ (run.frameClk m = false ∧ run.frameClk (m + 1) = true)) (k : ℕ) :
    run.core (n + 8 + k) = run.core (n + 8) := by
  have hidle : ∀ i, run.tick (n + 2 + i) = false := by
    intro i
    have htick := run.tick_add_two (n + i)
    have hedge := hclk (n + i) (by omega)
    rw [show n + 2 + i = n + i + 2 by omega, htick]
    cases hlow : run.frameClk (n + i) with
    | true => simp
    | false =>
        cases hhigh : run.frameClk (n + i + 1) with
        | true => exact absurd ⟨hlow, hhigh⟩ hedge
        | false => rfl
  -- the last rising edge is reported by cycle n + 1 at the latest
  have hlater : ∀ len, run.core (n + 2 + len) =
      (Core.next false (run.keycode n))^[len] (run.core (n + 2)) := by
    intro len
    exact run.trace.state_add_of_idle (fun i _ => hidle i) fun i _ => hkey _ (by omega)
  have hrests := (run.inv (n + 2)).settles_in_six (run.keycode n)
  rw [show n + 8 + k = n + 2 + (6 + k) by omega, hlater, hrests.iterate k, ← hlater]

end Run

end Galaga
