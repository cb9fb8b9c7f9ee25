import Galaga.Clocked.Trace
import Galaga.Motion.Invader

/-! # Runs of an invader

From the cycle in which play begins, and for as long as it is neither hit nor
at the bottom row, a ship is on its path, one phase for each frame tick.
-/

namespace Galaga.EnemyShip

open InvaderPath

theorem gameover_iff (ship : EnemyShip) : ship.gameover true = true ↔ 409 ≤ ship.yPos.toNat := by
  simp [gameover, bottomRow_le_iff]

theorem row_lt_of_not_gameover {ship : EnemyShip} (habove : ship.gameover true = false) :
    ship.yPos.toNat < 409 := by
  by_contra hlanded
  rw [ship.gameover_iff.mpr (not_lt.mp hlanded)] at habove
  cases habove

/-- A cycle outside play takes the ship home. -/
theorem step_of_not_play {enemyXPos enemyYPos laserX laserY : Coord} {done tick : Bool}
    (ship : EnemyShip) :
    ship.step enemyXPos enemyYPos false false done tick laserX laserY =
      home enemyXPos enemyYPos
        (ship.step enemyXPos enemyYPos false false done tick laserX laserY).enemyHit := rfl

/-- A cycle of play that finds and leaves a ship alive moves it at a tick and
only then. -/
theorem step_of_live {enemyXPos enemyYPos laserX laserY : Coord} {done tick : Bool}
    {ship : EnemyShip} (habove : ship.gameover true = false) (hlive : ship.enemyHit = false)
    (hlive' : (ship.step enemyXPos enemyYPos false true done tick laserX laserY).enemyHit =
      false) :
    ship.step enemyXPos enemyYPos false true done tick laserX laserY =
      if tick then ship.next enemyXPos enemyYPos true true else ship := by
  have hbottom : ¬ bottomRow ≤ ship.yPos := by
    rw [bottomRow_le_iff]
    exact not_le.mpr (row_lt_of_not_gameover habove)
  have hstep : ship.step enemyXPos enemyYPos false true done tick laserX laserY =
      { ship.next enemyXPos enemyYPos true tick with
        enemyHit :=
          (ship.step enemyXPos enemyYPos false true done tick laserX laserY).enemyHit } := rfl
  have hsame : ∀ later : EnemyShip, later.enemyHit = false →
      { later with enemyHit := false } = later := by
    rintro ⟨_, _, _, _, _⟩ rfl
    rfl
  rw [hstep, hlive']
  cases tick with
  | true =>
      apply hsame
      simp [next, hbottom, hlive]
  | false =>
      have hidle : ship.next enemyXPos enemyYPos true false = ship := by
        simp [next, hbottom, hlive]
      rw [hidle]
      exact hsame ship hlive

/-- The path drops by tens. -/
theorem descent_mod_ten (phase : ℕ) : descent phase % 10 = 0 := by
  unfold descent
  omega

namespace Run

variable {enemyXPos enemyYPos : Coord} (run : Run enemyXPos enemyYPos)

/-- One cycle, with the frame tick and the other inputs. -/
def cycle (enemyXPos enemyYPos : Coord) (tick : Bool) (input : Input) (ship : EnemyShip) :
    EnemyShip :=
  ship.step enemyXPos enemyYPos input.reset input.play input.done tick input.laserX input.laserY

/-- The run as a trace of the registers. -/
def trace : Clocked.Trace (cycle enemyXPos enemyYPos) where
  state := run.ship
  tick := run.tick
  key := run.input
  step := run.next

/-- The number of frame ticks in the `len` cycles from `start` on. -/
def ticks (start len : ℕ) : ℕ := run.trace.ticks start len

/-- After the cycle `before`, which is not one of play, play goes on for `len`
cycles, the ship is not hit, and it does not end the game before they are over. -/
structure InPlay (before len : ℕ) : Prop where
  enters : (run.input before).reset = true ∨ (run.input before).play = false
  play : ∀ i < len, (run.input (before + 1 + i)).reset = false ∧
    (run.input (before + 1 + i)).play = true
  live : ∀ i ≤ len, (run.ship (before + 1 + i)).enemyHit = false
  above : ∀ i < len, (run.ship (before + 1 + i)).gameover true = false

variable {run} {before len : ℕ}

theorem InPlay.take (hplay : run.InPlay before len) {i : ℕ} (hi : i ≤ len) :
    run.InPlay before i where
  enters := hplay.enters
  play := fun j hj => hplay.play j (hj.trans_le hi)
  live := fun j hj => hplay.live j (hj.trans hi)
  above := fun j hj => hplay.above j (hj.trans_le hi)

/-- Play begins with the ship at home. -/
theorem InPlay.home (hplay : run.InPlay before len) :
    run.ship (before + 1) = EnemyShip.home enemyXPos enemyYPos false := by
  have hlive := hplay.live 0 (Nat.zero_le _)
  rw [Nat.add_zero, run.next] at hlive
  rw [run.next]
  cases hreset : (run.input before).reset with
  | true => rfl
  | false =>
      have hidle : (run.input before).play = false := by
        rcases hplay.enters with hreset' | hidle
        · rw [hreset] at hreset'
          cases hreset'
        · exact hidle
      rw [hreset, hidle] at hlive
      rw [hidle, step_of_not_play, hlive]

/-- One cycle of play. -/
theorem InPlay.ship_succ (hplay : run.InPlay before len) {i : ℕ} (hi : i < len) :
    run.ship (before + 1 + i + 1) =
      if run.tick (before + 1 + i) then
        (run.ship (before + 1 + i)).next enemyXPos enemyYPos true true
      else run.ship (before + 1 + i) := by
  have hlive' := hplay.live (i + 1) hi
  obtain ⟨hreset, hon⟩ := hplay.play i hi
  rw [← Nat.add_assoc, run.next, hreset, hon] at hlive'
  rw [run.next, hreset, hon, step_of_live (hplay.above i hi) (hplay.live i hi.le) hlive']
  rfl

section Path

variable (hleft : 3 ≤ enemyXPos.toNat) (hright : enemyXPos.toNat ≤ 608)
  (htop : enemyYPos.toNat ≤ 408)
include hleft hright htop

/-- The registers follow the path, which is above the bottom row before the
last tick and so at most ten rows below it after that. -/
theorem InPlay.ship_eq (hplay : run.InPlay before len) :
    run.ship (before + 1 + len) =
        onPath enemyYPos.toNat (enemyXPos.toNat + run.ticks (before + 1) len) false ∧
      enemyYPos.toNat + descent (enemyXPos.toNat + run.ticks (before + 1) len) - 30 ≤ 418 := by
  refine run.trace.ticks_rule (fun i count => run.ship (before + 1 + i) =
    onPath enemyYPos.toNat (enemyXPos.toNat + count) false ∧
      enemyYPos.toNat + descent (enemyXPos.toNat + count) - 30 ≤ 418) ?_ ?_
  · have hhome : EnemyShip.home (BitVec.ofNat 10 enemyXPos.toNat)
        (BitVec.ofNat 10 enemyYPos.toNat) false = onPath enemyYPos.toNat enemyXPos.toNat false :=
      home_eq_onPath hleft (by omega) false
    rw [BitVec.ofNat_toNat, BitVec.setWidth_eq, BitVec.ofNat_toNat, BitVec.setWidth_eq] at hhome
    refine ⟨hplay.home.trans hhome, ?_⟩
    have hstart : descent (enemyXPos.toNat + 0) = 30 := by
      unfold descent
      omega
    omega
  · rintro i hi count ⟨hship, hrow⟩
    have habove := row_lt_of_not_gameover (hplay.above i hi)
    rw [hship, onPath_yPos_toNat _ (by omega)] at habove
    have hstep := hplay.ship_succ hi
    change run.ship (before + 1 + i + 1) = _ ∧ _
    cases htick : run.tick (before + 1 + i) with
    | false =>
        have hcount : (run.trace.tick (before + 1 + i)).toNat = 0 := by
          rw [show run.trace.tick (before + 1 + i) = false from htick]
          rfl
        rw [hstep, htick, hcount]
        exact ⟨hship, hrow⟩
    | true =>
        have hcount : (run.trace.tick (before + 1 + i)).toNat = 1 := by
          rw [show run.trace.tick (before + 1 + i) = true from htick]
          rfl
        have hdrop := descent_succ (enemyXPos.toNat + count)
        rw [hstep, htick, hcount, hship, if_pos rfl, next_onPath (by omega) habove, ← Nat.add_assoc]
        refine ⟨rfl, ?_⟩
        rw [hdrop]
        split_ifs <;> omega

theorem InPlay.yPos_eq (hplay : run.InPlay before len) :
    (run.ship (before + 1 + len)).yPos.toNat + 30 =
      enemyYPos.toNat + descent (enemyXPos.toNat + run.ticks (before + 1) len) := by
  obtain ⟨hship, hrow⟩ := hplay.ship_eq hleft hright htop
  have hstarted := thirty_le_descent
    (show 3 ≤ enemyXPos.toNat + run.ticks (before + 1) len by omega)
  rw [hship, onPath_yPos_toNat _ (by omega)]
  omega

/-- A ship never goes up. -/
theorem InPlay.yPos_mono (hplay : run.InPlay before len) {i : ℕ} (hi : i ≤ len) :
    (run.ship (before + 1 + i)).yPos.toNat ≤ (run.ship (before + 1 + len)).yPos.toNat := by
  have hearlier := (hplay.take hi).yPos_eq hleft hright htop
  have hlater := hplay.yPos_eq hleft hright htop
  have hticks : run.ticks (before + 1) i ≤ run.ticks (before + 1) len :=
    run.trace.ticks_mono _ hi
  have hdescent := descent_mono
    (show enemyXPos.toNat + run.ticks (before + 1) i ≤
      enemyXPos.toNat + run.ticks (before + 1) len by omega)
  omega

/-- From a home row that is a multiple of ten a ship lands on row 410. -/
theorem InPlay.landing_row (hplay : run.InPlay before len) (hten : enemyYPos.toNat % 10 = 0)
    (hlanded : 409 ≤ (run.ship (before + 1 + len)).yPos.toNat) :
    (run.ship (before + 1 + len)).yPos.toNat = 410 := by
  have hbound := (hplay.ship_eq hleft hright htop).2
  have hrow := hplay.yPos_eq hleft hright htop
  have hmod := descent_mod_ten (enemyXPos.toNat + run.ticks (before + 1) len)
  omega

/-- The exact trajectory: after each tick the ship is on the triangle wave and
has dropped thirty rows for each wall. It stays on the screen, never goes up,
and ends the game in the first cycle that finds it at row 409 or below, which
for the homes of the game is row 410. -/
theorem trajectory (hplay : run.InPlay before len) :
    (run.ship (before + 1 + len)).xPos.toNat =
        column (enemyXPos.toNat + run.ticks (before + 1) len) ∧
      (run.ship (before + 1 + len)).xPos.toNat ≤ 610 ∧
      (run.ship (before + 1 + len)).yPos.toNat + 30 =
        enemyYPos.toNat + descent (enemyXPos.toNat + run.ticks (before + 1) len) ∧
      (∀ i ≤ len, (run.ship (before + 1 + i)).yPos.toNat ≤
        (run.ship (before + 1 + len)).yPos.toNat) ∧
      ((run.ship (before + 1 + len)).gameover true = true ↔
        409 ≤ (run.ship (before + 1 + len)).yPos.toNat) ∧
      (enemyYPos ∈ [0#10, 80#10, 160#10] → 409 ≤ (run.ship (before + 1 + len)).yPos.toNat →
        (run.ship (before + 1 + len)).yPos.toNat = 410) := by
  have hx : (run.ship (before + 1 + len)).xPos.toNat =
      column (enemyXPos.toNat + run.ticks (before + 1) len) := by
    rw [(hplay.ship_eq hleft hright htop).1, onPath_xPos_toNat]
  refine ⟨hx, hx ▸ column_le _, hplay.yPos_eq hleft hright htop,
    fun i hi => hplay.yPos_mono hleft hright htop hi, gameover_iff _, fun hhome => ?_⟩
  apply hplay.landing_row hleft hright htop
  simp only [List.mem_cons, List.not_mem_nil, or_false] at hhome
  rcases hhome with rfl | rfl | rfl <;> decide

end Path

/-- The first ship of the first row in a game without shots, with a tick in
every other cycle. -/
def opening : Run 50#10 0#10 where
  ship := fun n => Nat.rec (EnemyShip.home 50#10 0#10 false)
    (fun m ship => ship.step 50#10 0#10 false (decide (0 < m)) false (m % 2 == 1) 325#10 441#10) n
  detector := EdgeDetector.alternating
  frameClk := fun n => n % 2 == 0
  input := fun n => ⟨false, decide (0 < n), false, 325#10, 441#10⟩
  next := fun _ => rfl
  sample := EdgeDetector.alternating_succ

/-- Three ticks from home. -/
theorem trajectory_opening : (opening.ship 6).xPos.toNat = 53 := by
  have hplay : opening.InPlay 0 5 := ⟨Or.inr rfl, by decide, by decide, by decide⟩
  exact (trajectory (by decide) (by decide) (by decide) hplay).1

end Run

end Galaga.EnemyShip
