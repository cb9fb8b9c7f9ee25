import Galaga.Game.Scripted

/-! # Neither fight goes on forever

In play the number of ticks is a coordinate of the path that every live ship
follows, and the path ends at the bottom row. In the boss fight progress is the
depth the boss has reached, and within one depth the way it has come towards the
next wall.
-/

namespace Galaga

namespace Boss

/-- The number of ticks until the boss sees the wall it is heading for. -/
def toWall (boss : Boss) : ℕ :=
  if boss.xMotion.toNat = 5 then
    if boss.xPos.toNat = 1019 then 123 else (610 - boss.xPos.toNat) / 5
  else boss.xPos.toNat / 5

/-- Turning back by Space costs at most 121 ticks of the way to the next wall, and
brings the boss two rows down. -/
def progress (boss : Boss) : ℕ :=
  62 * (boss.yPos.toNat + boss.yMotion.toNat) + (123 - boss.toWall)

@[simp] theorem progress_withHit (boss : Boss) (enemyHit : Bool) :
    (boss.withHit enemyHit).progress = boss.progress := rfl

theorem Roaming.progress_le {boss : Boss} (hroaming : boss.Roaming) : boss.progress ≤ 26659 := by
  have hdrop := hroaming.drop
  have hheight := hroaming.height
  unfold progress
  omega

/-- Every tick is progress, whatever the key. -/
theorem Roaming.progress_next {boss : Boss} (hroaming : boss.Roaming)
    (habove : boss.yPos.toNat < 409) (keycode : Keycode) :
    boss.progress + 1 ≤ (boss.next true true keycode).progress := by
  obtain ⟨hlive, hcolumn, hdrop, _⟩ := hroaming
  have hrow : (boss.yPos.toNat + boss.yMotion.toNat) % 1024 =
      boss.yPos.toNat + boss.yMotion.toNat := by omega
  rw [Boss.next_tick hlive habove]
  simp only [progress, toWall, BitVec.toNat_add, xMotionIn_toNat, yMotionIn_toNat, hrow]
  rcases hcolumn with ⟨hle, hmod, hm | hm⟩ | ⟨hpos, hm⟩ | ⟨hpos, hm⟩
  -- where the motion turns, the boss is also two or ten rows lower
  · -- moving right
    have hsum : (boss.xPos.toNat + boss.xMotion.toNat) % 1024 = boss.xPos.toNat + 5 := by omega
    rw [hsum, hm]
    split_ifs <;> omega
  · -- moving left, where only column 0 wraps
    by_cases hzero : boss.xPos.toNat = 0
    · rw [hzero, hm]
      split_ifs <;> omega
    · have hsum : (boss.xPos.toNat + boss.xMotion.toNat) % 1024 = boss.xPos.toNat - 5 := by omega
      rw [hsum, hm]
      split_ifs <;> omega
  · rw [hpos, hm]
    split_ifs <;> omega
  · rw [hpos, hm]
    split_ifs <;> first | contradiction | omega

end Boss

namespace Core

variable {core : Core}

theorem died_of_next_play {tick : Bool} {keycode : Keycode} (hstate : core.state = .play)
    (hstate' : (core.next tick keycode).state = .play) :
    core.died = false ∧ core.killedAll1 = false := by
  rcases State.next_eq_play hstate' with hstart | ⟨_, hgoesOn⟩
  · rw [hstate] at hstart
    cases hstart
  · exact hgoesOn

theorem died_of_next_bossFight {tick : Bool} {keycode : Keycode}
    (hstate : core.state = .bossFight) (hstate' : (core.next tick keycode).state = .bossFight) :
    core.died = false ∧ core.killedAll2 = false := by
  rcases State.next_eq_bossFight hstate' with hlogo | ⟨_, hgoesOn⟩
  · rw [hstate] at hlogo
    cases hlogo
  · exact hgoesOn

end Core

namespace Run

open Galaga.Core

variable (run : Run)

/-- Play with `count` ticks behind it is on a path that has not ended. -/
theorem exists_exit_play {start len : ℕ} (hstart : (run.core start).state = .play)
    (hmany : 8493 < run.trace.ticks start len) :
    ∃ i < len, (∀ j ≤ i, (run.core (start + j)).state = .play) ∧
      (run.core (start + i + 1)).state ≠ .play ∧ run.trace.ticks start (i + 1) ≤ 8493 := by
  obtain ⟨n, _, hplaying⟩ := (run.inv start).play hstart
  refine run.trace.exists_exit (fun core => core.state = .play)
    (fun count core => core.Playing (n + count) ∧ count ≤ 8492)
    ⟨hplaying, Nat.zero_le _⟩ hstart ?_ (fun _ _ h => h.2) hmany
  intro m count hstate hstate' ⟨hplaying, _⟩
  change (run.core (m + 1)).state = .play at hstate'
  change (run.core (m + 1)).Playing (n + (count + (run.tick m).toNat)) ∧ _
  rw [run.core_succ] at hstate' ⊢
  obtain ⟨hdied, hleft⟩ := died_of_next_play hstate hstate'
  have hticks := hplaying.ticks_le hstate hdied hleft
  have htick := Bool.toNat_le (run.tick m)
  refine ⟨?_, ?_⟩
  · rw [← Nat.add_assoc]
    exact hplaying.next hstate (run.inv m).ship hdied _ (run.quiet_of_tick m) _
  · change count + (run.tick m).toNat ≤ 8492
    omega

/-- The boss fight with `count` ticks behind it has made that much progress. -/
theorem exists_exit_bossFight {start len : ℕ} (hstart : (run.core start).state = .bossFight)
    (hmany : 26660 < run.trace.ticks start len) :
    ∃ i < len, (∀ j ≤ i, (run.core (start + j)).state = .bossFight) ∧
      (run.core (start + i + 1)).state ≠ .bossFight ∧
      run.trace.ticks start (i + 1) ≤ 26660 := by
  refine run.trace.exists_exit (fun core => core.state = .bossFight)
    (fun count core => count ≤ core.boss.progress ∧ count ≤ 26659)
    ⟨Nat.zero_le _, Nat.zero_le _⟩ hstart ?_ (fun _ _ h => h.2) hmany
  intro m count hstate hstate' ⟨hcount, hbound⟩
  change (run.core (m + 1)).state = .bossFight at hstate'
  change count + (run.tick m).toNat ≤ (run.core (m + 1)).boss.progress ∧
    count + (run.tick m).toNat ≤ 26659
  rw [run.core_succ] at hstate' ⊢
  obtain ⟨hdied, hkilled⟩ := died_of_next_bossFight hstate hstate'
  have hfighting := (run.inv m).bossFight hstate
  have hroaming := hfighting.roaming_of_live (hfighting.boss_live hkilled)
  have habove := boss_above hstate hdied
  cases htick : run.tick m with
  | true =>
      have hnext := hroaming.progress_next habove (run.keycode m)
      have hmost := (hroaming.next_tick habove (run.keycode m)).progress_le
      rw [(run.core m).next_boss_tick _ hstate, Boss.progress_withHit]
      simp only [Bool.toNat_true]
      change count ≤ (run.core m).boss.progress at hcount
      omega
  | false =>
      rw [(run.core m).next_boss_idle _ hstate habove hroaming.live, Boss.progress_withHit]
      exact ⟨hcount, hbound⟩

/-- Neither fight goes on forever: after so many ticks, counted from any cycle
of the fight, it has been left, by a defeat or by a victory. -/
theorem neither_fight_goes_on_forever (start len : ℕ) :
    ((run.core start).state = .play → 9000 ≤ run.trace.ticks start len →
      ∃ i < len, (∀ j ≤ i, (run.core (start + j)).state = .play) ∧
        ((run.core (start + i + 1)).state = .gameover ∨
          (run.core (start + i + 1)).state = .bossLogo) ∧
        run.trace.ticks start (i + 1) < 9000) ∧
    ((run.core start).state = .bossFight → 30000 ≤ run.trace.ticks start len →
      ∃ i < len, (∀ j ≤ i, (run.core (start + j)).state = .bossFight) ∧
        ((run.core (start + i + 1)).state = .gameover ∨
          (run.core (start + i + 1)).state = .win) ∧
        run.trace.ticks start (i + 1) < 30000) := by
  refine ⟨fun hstart hmany => ?_, fun hstart hmany => ?_⟩
  · have hlong : 8493 < run.trace.ticks start len := by omega
    obtain ⟨i, hi, hinside, hexit, hticks⟩ := run.exists_exit_play hstart hlong
    refine ⟨i, hi, hinside, ?_, by omega⟩
    rw [run.core_succ, next_state, hinside i le_rfl] at hexit ⊢
    simp only [State.next] at hexit ⊢
    split_ifs at hexit ⊢ <;> simp_all
  · have hlong : 26660 < run.trace.ticks start len := by omega
    obtain ⟨i, hi, hinside, hexit, hticks⟩ := run.exists_exit_bossFight hstart hlong
    refine ⟨i, hi, hinside, ?_, by omega⟩
    rw [run.core_succ, next_state, hinside i le_rfl] at hexit ⊢
    simp only [State.next] at hexit ⊢
    split_ifs at hexit ⊢ <;> simp_all

/-- A formation and a boss that are reached, and left. -/
theorem neither_fight_goes_on_forever_scripted :
    (∃ i < 36000, ((scripted (fight [])).core (1 + i + 1)).state = .gameover ∨
        ((scripted (fight [])).core (1 + i + 1)).state = .bossLogo) ∧
      ∃ i < 120000, ((scripted (fight [])).core (7878 + i + 1)).state = .gameover ∨
        ((scripted (fight [])).core (7878 + i + 1)).state = .win := by
  have hplay : ((scripted (fight [])).core 1).state = .play := by
    rw [scripted_core_one]
    rfl
  have hfight : ((scripted (fight [])).core 7878).state = .bossFight := by
    rw [scripted_duel]
    rfl
  have hfirst : (scripted (fight [])).trace.ticks 1 36000 = 9000 :=
    scripted_ticks (fight []) 1 36000
  have hsecond : (scripted (fight [])).trace.ticks 7878 120000 = 30000 :=
    scripted_ticks (fight []) 7878 120000
  obtain ⟨i, hi, _, hleft, _⟩ :=
    (neither_fight_goes_on_forever (scripted (fight [])) 1 36000).1 hplay hfirst.ge
  obtain ⟨j, hj, _, hleft', _⟩ :=
    (neither_fight_goes_on_forever (scripted (fight [])) 7878 120000).2 hfight hsecond.ge
  exact ⟨⟨i, hi, hleft⟩, j, hj, hleft'⟩

end Run

end Galaga
