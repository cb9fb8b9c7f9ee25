import Galaga.Game.Flight
import Galaga.Game.HitTest
import Galaga.Game.OneShot

/-! # No shot passes through a ship

The hit test misses a laser that reaches past a ship above and below. A shot
that comes from below is never in that position. A ship can come into it from
the side, though: then it has just entered the columns of the shot, so it
stays over them until the lower end of the shot has come to it. That takes at
most four ticks.
-/

namespace Galaga

namespace InvaderPath

variable {phase muzzle row age : ℕ}

/-- The row of a ship at a phase of its path. -/
def height (row phase : ℕ) : ℕ := 80 * row + descent phase - 30

/-- A laser and a ship with these columns and top rows are drawn over each
other. -/
def Shares (x y muzzle : ℕ) (top : ℤ) : Prop :=
  (x < muzzle + 20 ∧ muzzle < x + 30) ∧ (y < top + 49 ∧ top < y + 30)

theorem column_succ (phase : ℕ) :
    column (phase + 1) ≤ column phase + 1 ∧ column phase ≤ column (phase + 1) + 1 := by
  unfold column
  split_ifs <;> omega

theorem height_succ (row : ℕ) (hphase : 3 ≤ phase) :
    height row (phase + 1) = height row phase ∨ height row (phase + 1) = height row phase + 10 := by
  have hstarted := thirty_le_descent hphase
  unfold height
  rw [descent_succ]
  split_ifs <;> omega

section Overlap

variable (hstarted : age + 50 ≤ phase) (hvisible : age ≤ 110)
  (hrow : height row phase ≤ 410)
  (hshares : Shares (column phase) (height row phase) muzzle (flightTop age))
  (hbefore : ∀ j ≤ age, ¬ Meets (column (phase - j)) (height row (phase - j)) muzzle
    (flightTop (age - j)))
include hstarted hvisible hrow hshares hbefore

/-- The shot ends above and below the ship, and it does not end near its top. -/
theorem ends_apart : 8 ≤ age ∧ flightTop age + 5 ≤ height row phase ∧
    height row phase + 30 < flightTop age + 49 ∧
      flightTop age + 4 < height row (phase - 1) := by
  obtain ⟨hcolumns, hrows⟩ := hshares
  have hnow := hbefore 0 (Nat.zero_le _)
  have hlast := hbefore 1
  obtain ⟨before, rfl⟩ : ∃ before, phase = before + 1 := ⟨phase - 1, by omega⟩
  have hcolumn := column_succ before
  have hheight := height_succ row (show 3 ≤ before by omega)
  rw [Nat.add_sub_cancel] at hlast ⊢
  unfold Meets at hnow hlast
  rw [Nat.sub_zero, Nat.sub_zero] at hnow
  unfold flightTop at *
  omega

/-- It is not at the top of the screen yet. -/
theorem age_le (hmuzzle : muzzle ≤ 610) : age ≤ 107 := by
  obtain ⟨hcolumns, hrows⟩ := hshares
  obtain ⟨hage, habove, hbelow, hlast⟩ :=
    ends_apart hstarted hvisible hrow ⟨hcolumns, hrows⟩ hbefore
  by_contra hlate
  -- the ship would have to be in its first drop after a wall
  have hdrop : phase = 611 ∨ phase = 612 := by
    unfold height descent flightTop at *
    omega
  have hbefore₂ := hbefore 2 (by omega)
  have hbefore₃ := hbefore 3 (by omega)
  have hcolumn₀ : column 609 = 609 := by decide
  have hcolumn₁ : column 610 = 610 := by decide
  have hcolumn₂ : column 612 = 608 := by decide
  rcases hdrop with rfl | rfl
  · unfold height descent flightTop at *
    omega
  · rw [hcolumn₂] at hcolumns
    simp only [Nat.reduceSub, hcolumn₀, hcolumn₁] at hbefore₂ hbefore₃
    unfold Meets at hbefore₂ hbefore₃
    unfold height descent flightTop at *
    omega

/-- It stays over the shot for four ticks, because it has just come. -/
theorem columns_ahead (hlow : 3 ≤ muzzle) (hhigh : muzzle ≤ 610) {t : ℕ} (ht : t ≤ 4) :
    column (phase + t) ≤ muzzle + 20 ∧ muzzle ≤ column (phase + t) + 30 := by
  obtain ⟨hage, habove, hbelow, hlast⟩ :=
    ends_apart hstarted hvisible hrow hshares hbefore
  obtain ⟨hcolumns, hrows⟩ := hshares
  by_cases hwall : phase % 610 < 8
  · -- it has just turned at a wall
    clear hbefore
    unfold column at *
    split_ifs at * <;> omega
  · have hsame : height row (phase - 5) = height row phase := by
      unfold height descent
      omega
    have hout : ¬ (column (phase - 5) ≤ muzzle + 20 ∧ muzzle ≤ column (phase - 5) + 30) := by
      intro hover
      refine hbefore 5 (by omega) ⟨hover, ?_⟩
      rw [hsame]
      unfold flightTop at *
      omega
    clear hbefore
    unfold column at *
    split_ifs at * <;> omega

end Overlap

/-- So within four ticks the shot meets it. -/
theorem exists_meets (hstarted : age + 50 ≤ phase) (hvisible : age ≤ 110) (hlow : 3 ≤ muzzle)
    (hhigh : muzzle ≤ 610) (hrow : height row phase ≤ 410)
    (hshares : Shares (column phase) (height row phase) muzzle (flightTop age))
    (hbefore : ∀ j ≤ age, ¬ Meets (column (phase - j)) (height row (phase - j)) muzzle
      (flightTop (age - j))) :
    ∃ t ≤ 4, Meets (column (phase + t)) (height row (phase + t)) muzzle (flightTop (age + t)) := by
  have hearly := age_le hstarted hvisible hrow hshares hbefore hhigh
  obtain ⟨hage, habove, hbelow, _⟩ := ends_apart hstarted hvisible hrow hshares hbefore
  by_contra hnone
  have hmissed : ∀ t ≤ 4, ¬ ((height row (phase + t) ≤ flightTop (age + t) ∧
      flightTop (age + t) ≤ height row (phase + t) + 30) ∨
        (height row (phase + t) ≤ flightTop (age + t) + 49 ∧
          flightTop (age + t) + 49 ≤ height row (phase + t) + 30)) := by
    intro t ht hrows
    exact hnone ⟨t, ht,
      columns_ahead hstarted hvisible hrow hshares hbefore hlow hhigh ht, hrows⟩
  have htop : ∀ t ≤ 4, flightTop (age + t) = flightTop age - 4 * t := by
    intro t ht
    unfold flightTop
    omega
  have hheight₂ : height row (phase + 2) = height row (phase + 1) ∨
      height row (phase + 2) = height row (phase + 1) + 10 := height_succ row (by omega)
  have hheight₃ : height row (phase + 3) = height row (phase + 2) ∨
      height row (phase + 3) = height row (phase + 2) + 10 := height_succ row (by omega)
  have hheight₄ : height row (phase + 4) = height row (phase + 3) ∨
      height row (phase + 4) = height row (phase + 3) + 10 := height_succ row (by omega)
  have hheight₁ := height_succ row (show 3 ≤ phase by omega)
  have hmissed₁ := hmissed 1 (by decide)
  have hmissed₂ := hmissed 2 (by decide)
  have hmissed₃ := hmissed 3 (by decide)
  have hmissed₄ := hmissed 4 (by decide)
  rw [htop _ (by decide)] at hmissed₁ hmissed₂ hmissed₃ hmissed₄
  push_cast at hmissed₁ hmissed₂ hmissed₃ hmissed₄
  omega

end InvaderPath

namespace Shot

/-- A shot that climbs and is not at the end of its flight. -/
theorem onTick_of_age {shot : Shot} (hpos : 0 < shot.age) (hmore : shot.age < 111) (space : Bool)
    (userX x : Coord) :
    (shot.onTick space).age = shot.age + 1 ∧ shot.columnOnTick space userX x = x := by
  cases shot with
  | flying climbed =>
      have hroom : climbed.val + 1 < 112 := by
        simp only [age] at hmore
        omega
      simp only [onTick, columnOnTick, hroom, dite_true, if_true]
      exact ⟨rfl, trivial⟩
  | spent => exact absurd hmore (by decide)
  | unset | parked | loaded | recoiled => exact absurd hpos (by decide)

end Shot

namespace Core

open InvaderPath

variable {core : Core} {row : Fin 3} {col : Fin 6}

/-- The laser is drawn over a live ship. -/
def Overlaps (core : Core) (row : Fin 3) (col : Fin 6) : Prop :=
  core.state = .play ∧ (core.enemy row col).enemyHit = false ∧
    HitController.SharesPixel EnemyShip.size (core.enemy row col).xPos (core.enemy row col).yPos
      core.laser.xPos core.laser.yPos

/-- A live ship, and a shot of this age in this column. -/
structure Crossing (core : Core) (row : Fin 3) (col : Fin 6) (ticks age : ℕ) (muzzle : Coord) :
    Prop where
  playing : core.Playing ticks
  live : (core.enemy row col).enemyHit = false
  laser : ∃ shot : Shot, shot.age = age ∧ core.laser = shot.toLaser muzzle

section Step

variable {ticks age : ℕ} {muzzle : Coord} (hinv : core.Inv) (hstate : core.state = .play)
  (hquiet : core.laserHit = false) (hcrossing : core.Crossing row col ticks age muzzle)
  (hpos : 0 < age)
include hinv hstate hquiet hcrossing hpos

/-- They have not met if nothing stops the laser. -/
theorem Crossing.missed :
    ¬ Meets (column (50 * col + 50 + ticks)) (formationRow row col ticks) muzzle.toNat
      (flightTop age) := by
  obtain ⟨hplaying, hlive, shot, rfl, hlaser⟩ := hcrossing
  have hset : shot ≠ .unset := by
    rintro rfl
    exact absurd hpos (by decide)
  have htop : core.laser.top = flightTop shot.age := by rw [hlaser, Shot.top_toLaser hset]
  have hmuzzle : core.laser.xPos = muzzle := by rw [hlaser, Shot.toLaser_xPos]
  intro hmeets
  rw [← hmuzzle] at hmeets
  have hreach := (hplaying.inReach_iff htop hlive).mpr hmeets
  exact untouched_of_no_hit hstate hquiet row col
    ((hinv.touched_iff_inReach hstate hlive).mpr hreach)

/-- One cycle of play. -/
theorem Crossing.next (hdied : core.died = false) (hmore : age < 111) (tick : Bool)
    (hgame : tick = true → core.Quiet) (keycode : Keycode) :
    (core.next tick keycode).Crossing row col (ticks + tick.toNat) (age + tick.toNat) muzzle := by
  obtain ⟨hplaying, hlive, shot, rfl, hlaser⟩ := hcrossing
  have hself : core.laser = shot.toLaser core.laser.xPos := by
    rw [hlaser, Shot.toLaser_xPos]
  refine ⟨hplaying.next hstate hinv.ship hdied tick hgame keycode, ?_, ?_⟩
  · rw [Bool.eq_false_iff, ne_eq, next_enemyHit_iff, hlive]
    rintro ⟨_, hfalse | htouched⟩
    · cases hfalse
    · exact untouched_of_no_hit hstate hquiet row col htouched
  · cases tick with
    | true =>
        obtain ⟨hage, hcolumn⟩ :=
          shot.onTick_of_age hpos hmore (keycode == keySpace) core.ship.xPos core.laser.xPos
        refine ⟨_, hage, ?_⟩
        rw [next_laser_of_tick hinv.ship (Or.inl hstate) hself hquiet keycode, hcolumn, hlaser,
          Shot.toLaser_xPos]
    | false => exact ⟨shot, rfl, (next_laser_of_idle (Or.inl hstate) hquiet keycode).trans hlaser⟩

end Step

/-- Where the laser is drawn over a live ship, the shot is on its way. -/
theorem Overlaps.shares (hoverlaps : core.Overlaps row col) {ticks : ℕ} {shot : Shot}
    (hplaying : core.Playing ticks) (hsweep : core.Sweeping shot ticks) :
    shot.age ≤ 110 ∧ height row (50 * col + 50 + ticks) ≤ 410 ∧
      Shares (column (50 * col + 50 + ticks)) (height row (50 * col + 50 + ticks))
        core.laser.xPos.toNat (flightTop shot.age) := by
  obtain ⟨_, hlive, hshares⟩ := hoverlaps
  obtain ⟨hship, hrow⟩ := hplaying.formation_of_live hlive
  have hheight : formationRow row col ticks = height row (50 * col + 50 + ticks) := rfl
  rw [EnemyShip.size, HitController.sharesPixel_iff, hship, formation_yPos hrow, formation,
    EnemyShip.onPath_xPos_toNat, hheight] at hshares
  rw [hheight] at hrow
  have htop := hsweep.top
  unfold UserLaser.top at htop
  rw [if_pos (by omega)] at htop
  refine ⟨?_, hrow, hshares.1, ?_⟩
  · unfold flightTop at htop
    omega
  · rw [← htop]
    omega

end Core

theorem PlayFrame.laserHit_of_no_hits {frame : PlayFrame} (hearly : frame.ticks ≤ 5000)
    (hinv : frame.toCore.Inv) (hnone : frame.hits = []) : frame.toCore.laserHit = false := by
  rw [Bool.eq_false_iff]
  intro hhit
  exact (laserHit_toCore_iff hearly hinv.muzzle.2).mp hhit hnone

namespace Run

open Galaga.Core InvaderPath

variable (run : Run) {n : ℕ} {row : Fin 3} {col : Fin 6}

/-- Up to the overlap the shot has not met the ship. -/
theorem missed_before (hlive : ((run.core n).enemy row col).enemyHit = false)
    (hstate : (run.core n).state = .play) (hquiet : (run.core n).laserHit = false) {ticks : ℕ}
    {shot : Shot} (hplaying : (run.core n).Playing ticks)
    (hsweep : (run.core n).Sweeping shot ticks) :
    ∀ j ≤ shot.age, ¬ Meets (column (50 * col + 50 + ticks - j))
      (height row (50 * col + 50 + ticks - j)) (run.core n).laser.xPos.toNat
      (flightTop (shot.age - j)) := by
  intro j hj
  rcases Nat.eq_zero_or_pos j with rfl | hpos
  · intro hmeets
    have hreach := (hplaying.inReach_iff hsweep.top hlive).mpr hmeets
    exact untouched_of_no_hit hstate hquiet row col
      (((run.inv n).touched_iff_inReach hstate hlive).mpr hreach)
  · have hstarted := hsweep.started
    have hphase : 50 * (col : ℕ) + 50 + (ticks - j) = 50 * col + 50 + ticks - j := by omega
    have hheight : formationRow row col (ticks - j) = height row (50 * col + 50 + ticks - j) := by
      rw [← hphase]
      rfl
    rw [← hheight]
    exact hsweep.fresh row col hlive j hpos hj

/-- A shot that is drawn over a live ship is stopped within four ticks, if play
goes on. -/
theorem ticks_le_of_overlaps (hoverlaps : (run.core n).Overlaps row col) {len : ℕ}
    (hgoes : ∀ i ≤ len, (run.core (n + i)).state = .play ∧ (run.core (n + i)).laserHit = false) :
    run.ticks n len ≤ 3 := by
  obtain ⟨ticks, shot, hplaying, hsweep⟩ := run.exists_sweeping n hoverlaps.1
  obtain ⟨hvisible, hrow, hshares⟩ := hoverlaps.shares hplaying hsweep
  have hstarted := hsweep.started
  have hphase : shot.age + 50 ≤ 50 * (col : ℕ) + 50 + ticks := by omega
  have hmuzzle := (run.inv n).muzzle
  have hbefore := run.missed_before hoverlaps.2.1 hoverlaps.1 (hgoes 0 (Nat.zero_le _)).2
    hplaying hsweep
  have hage := (ends_apart hphase hvisible hrow hshares hbefore).1
  have hearly := age_le hphase hvisible hrow hshares hbefore hmuzzle.2
  obtain ⟨meeting, hfour, hmeets⟩ :=
    exists_meets hphase hvisible hmuzzle.1 hmuzzle.2 hrow hshares hbefore
  -- up to the meeting the shot climbs and the ship is on its path
  have hahead : run.ticks n len < meeting ∧ (run.core (n + len)).Crossing row col
      (ticks + run.ticks n len) (shot.age + run.ticks n len) (run.core n).laser.xPos := by
    refine run.trace.ticks_rule (fun i count => count < meeting ∧
      (run.core (n + i)).Crossing row col (ticks + count) (shot.age + count)
        (run.core n).laser.xPos) ⟨?_, hplaying, hoverlaps.2.1, shot, rfl, hsweep.laser⟩ ?_
    · rw [Nat.pos_iff_ne_zero]
      rintro rfl
      exact hbefore 0 (Nat.zero_le _) hmeets
    · rintro i hi count ⟨hcount, hcrossing⟩
      obtain ⟨hstate, hquiet⟩ := hgoes i hi.le
      obtain ⟨hstate', hquiet'⟩ := hgoes (i + 1) hi
      have hinv' := run.inv (n + (i + 1))
      rw [← Nat.add_assoc, run.core_succ] at hstate' hquiet' hinv' ⊢
      have hdied : (run.core (n + i)).died = false := by
        rcases State.next_eq_play hstate' with hstart | ⟨_, hdied, _⟩
        · rw [hstate] at hstart
          cases hstart
        · exact hdied
      have hnext := hcrossing.next (run.inv _) hstate hquiet (by omega) hdied (by omega)
        (run.tick (n + i)) (run.quiet_of_tick _) (run.keycode (n + i))
      rw [Nat.add_assoc ticks, Nat.add_assoc shot.age] at hnext
      change count + (run.tick (n + i)).toNat < meeting ∧ _
      refine ⟨lt_of_le_of_ne ?_ ?_, hnext⟩
      · have htick := Bool.toNat_le (run.tick (n + i))
        omega
      · intro hnow
        have hmissed := hnext.missed hinv' hstate' hquiet' (by omega)
        have hheight : formationRow row col (ticks + meeting) =
            height row (50 * col + 50 + ticks + meeting) := by
          rw [Nat.add_assoc _ ticks]
          rfl
        rw [hnow, hheight, ← Nat.add_assoc] at hmissed
        exact hmissed hmeets
  omega

section Entering

variable {done : List Keycode} (rest : List Keycode) {keycode : Keycode}

/-- After a tick that reaches no ship a scripted frame stands still. -/
theorem scripted_missed (hlen : done.length < 5000)
    (hremain : (PlayFrame.opening.plays done).alive ≠ [])
    (hnone : ((PlayFrame.opening.plays done).ticked keycode).hits = []) {i : ℕ} (hi : i < 4) :
    (scripted (done ++ keycode :: rest)).core (1 + 4 * done.length + 1 + i) =
      ((PlayFrame.opening.plays done).ticked keycode).toCore := by
  have htick := scripted_play_tick rest keycode hlen hremain
  have hremain' : ((PlayFrame.opening.plays done).ticked keycode).alive ≠ [] := hremain
  induction i with
  | zero => exact htick
  | succ i ih =>
      have hidle := scripted_core_idle (done ++ keycode :: rest) done.length (i + 1)
        (Nat.succ_pos i) (by omega)
      have hinv := (scripted (done ++ keycode :: rest)).inv (1 + 4 * done.length + 1)
      rw [htick] at hinv
      have hcycle : 1 + 4 * done.length + 1 + (i + 1) = 1 + 4 * done.length + (i + 1) + 1 := by
        omega
      rw [hcycle, hidle, ← Nat.add_assoc, Nat.add_right_comm _ i 1, ih (by omega)]
      refine PlayFrame.rests_toCore ?_ hremain' hinv hinv.muzzle.2 hnone
      change (PlayFrame.opening.plays done).ticks + 1 ≤ 5000
      rw [PlayFrame.plays_ticks]
      change 0 + done.length + 1 ≤ 5000
      omega

/-- A shot to the right of the formation. When it is at the height of the middle
row, the last ship of the row comes into its columns. -/
def approach : List Keycode :=
  List.replicate 63 keyD ++ List.replicate 299 0#8 ++ keySpace :: List.replicate 85 0#8

def entering : PlayFrame where
  ticks := 448
  ship := ⟨448#10, 439#10, 0#10, 0#10⟩
  shot := .flying ⟨84, by decide⟩
  laserX := 453#10
  alive := List.product (List.finRange 3) (List.finRange 6)

theorem plays_approach : PlayFrame.opening.plays approach = entering := by
  decide +kernel

theorem overlaps_entering : entering.toCore.Overlaps 1 5 := by
  have hmem : ((1, 5) : Fin 3 × Fin 6) ∈ entering.alive := by decide
  refine ⟨rfl, PlayFrame.live_toCore_of_mem hmem, ?_⟩
  rw [PlayFrame.enemy_toCore_of_mem hmem, EnemyShip.size, HitController.sharesPixel_iff]
  decide +kernel

/-- For three more frames the shot misses it. -/
theorem missed_approach : ∀ more < 3,
    ((PlayFrame.opening.plays (approach ++ List.replicate more 0#8)).ticked 0#8).hits = [] ∧
      (PlayFrame.opening.plays (approach ++ List.replicate more 0#8)).alive ≠ [] := by
  decide +kernel

theorem length_approach : approach.length = 448 := by
  decide +kernel

theorem scripted_entering :
    (scripted (approach ++ List.replicate 3 0#8)).core (1 + 4 * 448) = entering.toCore := by
  have hremain : (PlayFrame.opening.plays approach).alive ≠ [] := by
    rw [plays_approach]
    decide
  have hplay := scripted_play (List.replicate 3 0#8) (by rw [length_approach]; decide) hremain
  rw [length_approach, plays_approach] at hplay
  exact hplay

/-- The script with three more frames. -/
theorem scripted_approach {i : ℕ} (hi : i ≤ 9) :
    ((scripted (approach ++ List.replicate 3 0#8)).core (1 + 4 * 448 + i)).state = .play ∧
      ((scripted (approach ++ List.replicate 3 0#8)).core (1 + 4 * 448 + i)).laserHit = false := by
  rcases Nat.eq_zero_or_pos i with rfl | hpos
  · refine ⟨?_, (scripted_quiet _ 448).laserHit⟩
    rw [Nat.add_zero, scripted_entering]
    rfl
  · obtain ⟨more, r, hmore, hr, rfl⟩ : ∃ more r, more < 3 ∧ r < 4 ∧ i = 4 * more + 1 + r :=
      ⟨(i - 1) / 4, (i - 1) % 4, by omega, by omega, by omega⟩
    obtain ⟨hnone, hremain⟩ := missed_approach more hmore
    have hrest : List.replicate 3 0#8 =
        List.replicate more 0#8 ++ 0#8 :: List.replicate (2 - more) 0#8 := by
      obtain rfl | rfl | rfl : more = 0 ∨ more = 1 ∨ more = 2 := by omega
      all_goals rfl
    have hscript : approach ++ List.replicate 3 0#8 =
        (approach ++ List.replicate more 0#8) ++ 0#8 :: List.replicate (2 - more) 0#8 := by
      rw [List.append_assoc, ← hrest]
    have hlength : (approach ++ List.replicate more 0#8).length = 448 + more := by
      rw [List.length_append, length_approach, List.length_replicate]
    have hcycle : 1 + 4 * 448 + (4 * more + 1 + r) =
        1 + 4 * (approach ++ List.replicate more 0#8).length + 1 + r := by
      rw [hlength]
      omega
    have hinv := (scripted (approach ++ List.replicate 3 0#8)).inv
      (1 + 4 * 448 + (4 * more + 1 + r))
    have hcore := scripted_missed (List.replicate (2 - more) 0#8) (by rw [hlength]; omega)
      hremain hnone hr
    have hearly : ((PlayFrame.opening.plays (approach ++ List.replicate more 0#8)).ticked
        0#8).ticks ≤ 5000 := by
      change (PlayFrame.opening.plays _).ticks + 1 ≤ 5000
      rw [PlayFrame.plays_ticks, hlength]
      change 0 + (448 + more) + 1 ≤ 5000
      omega
    rw [hscript, hcycle, hcore] at hinv ⊢
    exact ⟨rfl, PlayFrame.laserHit_of_no_hits hearly hinv hnone⟩

theorem ticks_approach :
    (scripted (approach ++ List.replicate 3 0#8)).ticks (1 + 4 * 448) 9 = 3 := by
  unfold ticks Clocked.Trace.ticks
  have htick : ∀ m, (scripted (approach ++ List.replicate 3 0#8)).trace.tick m = (m % 4 == 1) :=
    scripted_tick _
  simp only [htick]
  decide

end Entering

/-- The largest number of ticks in a stretch of play that begins with the shot
drawn over a live ship and in which nothing stops it. -/
theorem no_shot_passes_through :
    IsGreatest {ticks | ∃ (run : Run) (n len : ℕ) (row : Fin 3) (col : Fin 6),
      (run.core n).Overlaps row col ∧
        (∀ i ≤ len, (run.core (n + i)).state = .play ∧ (run.core (n + i)).laserHit = false) ∧
          ticks = run.ticks n len} 3 := by
  constructor
  · refine ⟨scripted (approach ++ List.replicate 3 0#8), 1 + 4 * 448, 9, 1, 5, ?_,
      fun i hi => scripted_approach hi, ticks_approach.symm⟩
    rw [scripted_entering]
    exact overlaps_entering
  · rintro ticks ⟨run, n, len, row, col, hoverlaps, hgoes, rfl⟩
    exact run.ticks_le_of_overlaps hoverlaps hgoes

end Run

end Galaga
