import Galaga.Game.Scripted

/-! # The flight of a shot

A shot is launched from under the ship with the motion still zero, or by a hit
or at the end of another flight with the motion already upwards. From there on
it climbs by four rows a tick, and its flight ends when its row has wrapped.
-/

namespace Galaga

/-- The rows of a flight, by the number of steps up. -/
def flightRow (climbed : ℕ) : ℕ := if climbed ≤ 110 then 441 - 4 * climbed else 1021

theorem Shot.row_flying (climbed : Fin 112) : (flying climbed).row = flightRow climbed := by
  have hclimbed := climbed.isLt
  unfold flightRow
  simp only [row]
  split_ifs <;> omega

/-- The shot after so many ticks of a flight that waits for `wait` of them. -/
def Shot.AfterTicks (wait ticks : ℕ) (shot : Shot) : Prop :=
  (shot = loaded ∧ ticks < wait) ∨ ∃ climbed : Fin 112, shot = flying climbed ∧
    ticks = wait + climbed

theorem Shot.AfterTicks.row {wait ticks : ℕ} {shot : Shot}
    (hshot : shot.AfterTicks wait ticks) :
    shot.row = flightRow (ticks - wait) ∧ ticks + 1 ≤ wait + 112 := by
  rcases hshot with ⟨rfl, hless⟩ | ⟨climbed, rfl, rfl⟩
  · have hzero : ticks - wait = 0 := by omega
    rw [hzero]
    exact ⟨rfl, by omega⟩
  · have hclimbed := climbed.isLt
    rw [row_flying, Nat.add_sub_cancel_left]
    exact ⟨rfl, by omega⟩

theorem Shot.AfterTicks.fired {wait ticks : ℕ} {shot : Shot}
    (hshot : shot.AfterTicks wait ticks) : shot.fired = true := by
  rcases hshot with ⟨rfl, _⟩ | ⟨climbed, rfl, _⟩
  · rfl
  · rfl

theorem Shot.AfterTicks.end_iff {wait ticks : ℕ} {shot : Shot}
    (hshot : shot.AfterTicks wait ticks) : shot = flying 111 ↔ ticks + 1 = wait + 112 := by
  rcases hshot with ⟨rfl, hless⟩ | ⟨climbed, rfl, rfl⟩
  · simp only [reduceCtorEq, false_iff]
    omega
  · rw [flying.injEq, Fin.ext_iff]
    change climbed.val = 111 ↔ _
    omega

theorem Shot.afterTicks_loaded : loaded.AfterTicks 1 0 := Or.inl ⟨rfl, Nat.zero_lt_one⟩

theorem Shot.afterTicks_flying : (flying 0).AfterTicks 0 0 := Or.inr ⟨0, rfl, rfl⟩

/-- A tick that fires the laser from rest, or again at the end of a flight. -/
theorem Shot.exists_afterTicks_onTick {shot : Shot} {space : Bool}
    (hrest : shot.fired = false ∨ shot = flying 111) (hfired : (shot.onTick space).fired = true) :
    ∃ wait ≤ 1, (shot.onTick space).AfterTicks wait 0 := by
  have hidle : (if space then loaded else parked).fired = true →
      ∃ wait ≤ 1, (if space then loaded else parked).AfterTicks wait 0 := by
    intro hfired
    cases space with
    | true => exact ⟨1, le_rfl, afterTicks_loaded⟩
    | false => cases hfired
  cases shot with
  | unset => exact hidle hfired
  | parked => exact hidle hfired
  | recoiled => exact hidle hfired
  | spent => exact hidle hfired
  | loaded => simp [fired] at hrest
  | flying climbed =>
      have hend : climbed = 111 := by simpa [fired] using hrest
      subst hend
      cases space with
      | true => exact ⟨0, Nat.zero_le _, afterTicks_flying⟩
      | false => cases hfired

/-- A tick that does not end the flight takes it one step further, in the same
column. -/
theorem Shot.AfterTicks.onTick {wait ticks : ℕ} (hwait : wait ≤ 1) {shot : Shot}
    (hshot : shot.AfterTicks wait ticks) (hmore : shot ≠ flying 111) (space : Bool)
    (userX x : Coord) :
    (shot.onTick space).AfterTicks wait (ticks + 1) ∧ shot.columnOnTick space userX x = x := by
  rcases hshot with ⟨rfl, hless⟩ | ⟨climbed, rfl, rfl⟩
  · refine ⟨Or.inr ⟨0, rfl, ?_⟩, rfl⟩
    rw [Fin.val_zero]
    omega
  · have hroom : climbed.val + 1 < 112 := by
      have hclimbed := climbed.isLt
      by_contra hfull
      exact hmore (congrArg flying (Fin.ext (by simp; omega)))
    refine ⟨Or.inr ⟨⟨climbed.val + 1, hroom⟩, ?_, by simp only; omega⟩, ?_⟩
    · simp only [Shot.onTick, hroom, dite_true]
    · simp only [columnOnTick, hroom, if_true]

namespace Core

/-- This tick ends the flight of the shot: it is past the bottom edge, where
its row has wrapped. -/
def Retires (tick : Bool) (core : Core) : Prop :=
  tick = true ∧ core.laser.spacePressed = true ∧ 479 ≤ core.laser.yPos.toNat

theorem retires_iff {core : Core} {shot : Shot} (hlaser : core.laser = shot.toLaser core.laser.xPos)
    (tick : Bool) : core.Retires tick ↔ tick = true ∧ shot = .flying 111 := by
  unfold Retires
  rw [hlaser, Shot.toLaser_yPos_toNat, Shot.toLaser_spacePressed, Shot.fired_and_past_iff]

end Core

namespace Run

open Galaga.Core

variable (run : Run)

/-- Cycle `s` launches a shot: the laser is fired after it, and was not fired
before, or was stopped or retired in it. -/
def Launches (s : ℕ) : Prop :=
  (run.core (s + 1)).laser.spacePressed = true ∧
    ((run.core s).laser.spacePressed = false ∨ (run.core s).laserHit = true ∨
      (run.core s).Retires (run.tick s))

/-- For `len` cycles after the launch in cycle `s` the fight goes on, and the
shot is neither stopped nor retired. -/
def InFlight (s len : ℕ) : Prop :=
  ∀ i < len, (run.core (s + 1 + i)).Fighting ∧ (run.core (s + 1 + i)).laserHit = false ∧
    ¬ (run.core (s + 1 + i)).Retires (run.tick (s + 1 + i))

/-- The number of frame ticks in the `len` cycles from `start` on. -/
def ticks (start len : ℕ) : ℕ := run.trace.ticks start len

/-- The laser after `len` cycles of a flight that waits for `wait` ticks. -/
structure FlightAt (wait s len : ℕ) : Prop where
  column : (run.core (s + 1 + len)).laser.xPos = (run.core (s + 1)).laser.xPos
  fired : (run.core (s + 1 + len)).laser.spacePressed = true
  row : (run.core (s + 1 + len)).laser.yPos.toNat =
    flightRow (run.ticks (s + 1) len - wait)
  short : run.ticks (s + 1) len + 1 ≤ wait + 112
  retires : (run.core (s + 1 + len)).Retires (run.tick (s + 1 + len)) ↔
    run.tick (s + 1 + len) = true ∧ run.ticks (s + 1) len + 1 = wait + 112
  ends : (run.core (s + 1 + len)).Fighting →
    (run.core (s + 1 + len)).Retires (run.tick (s + 1 + len)) →
      if run.keycode (s + 1 + len) = keySpace then
        (run.core (s + 1 + len + 1)).laser.spacePressed = true ∧
          (run.core (s + 1 + len + 1)).laser.xPos =
            (run.core (s + 1 + len)).ship.xPos + 8#10 ∧
          (run.core (s + 1 + len + 1)).laser.yPos = 441#10
      else (run.core (s + 1 + len + 1)).laser.spacePressed = false

variable {run} {s : ℕ}

/-- A launch leaves a shot that waits for a tick or is already climbing. -/
theorem launched_shot (hlaunch : run.Launches s) :
    ∃ wait ≤ 1, ∃ shot : Shot, shot.AfterTicks wait 0 ∧
      (run.core (s + 1)).laser = shot.toLaser (run.core (s + 1)).laser.xPos := by
  obtain ⟨hfired, hbefore⟩ := hlaunch
  have hship := (run.inv s).ship
  obtain ⟨shot, hlaser, _⟩ := (run.inv s).laser
  rw [run.core_succ] at hfired ⊢
  by_cases hstate : (run.core s).Fighting
  · cases hhit : (run.core s).laserHit with
    | true =>
        have hnext := next_laser_of_hit hship hstate hhit (run.tick s) (run.keycode s)
        rw [hnext] at hfired ⊢
        cases hspace : run.keycode s == keySpace with
        | true => exact ⟨0, Nat.zero_le _, .flying 0, Shot.afterTicks_flying, rfl⟩
        | false =>
            rw [hspace] at hfired
            cases hfired
    | false =>
        rw [hhit, retires_iff hlaser] at hbefore
        cases htick : run.tick s with
        | true =>
            have hnext := next_laser_of_tick hship hstate hlaser hhit (run.keycode s)
            have hrest : shot.fired = false ∨ shot = .flying 111 := by
              rw [hlaser] at hbefore
              simpa [htick] using hbefore
            rw [htick, hnext] at hfired
            rw [hnext]
            obtain ⟨wait, hwait, hafter⟩ := Shot.exists_afterTicks_onTick hrest hfired
            exact ⟨wait, hwait, _, hafter, rfl⟩
        | false =>
            -- nothing fires between ticks
            rw [htick, next_laser_of_idle hstate hhit] at hfired
            rw [htick, hfired] at hbefore
            simp at hbefore
  · rw [next_laser_of_not_fighting hship hstate] at hfired
    cases hfired

/-- The flight refines the shot machine. -/
theorem flying_shot {wait : ℕ} (hwait : wait ≤ 1) {shot : Shot} (hshot : shot.AfterTicks wait 0)
    (hlaser : (run.core (s + 1)).laser = shot.toLaser (run.core (s + 1)).laser.xPos) {len : ℕ}
    (hflight : run.InFlight s len) :
    ∃ shot : Shot, shot.AfterTicks wait (run.ticks (s + 1) len) ∧
      (run.core (s + 1 + len)).laser = shot.toLaser (run.core (s + 1)).laser.xPos := by
  refine run.trace.ticks_rule (fun i count => ∃ shot : Shot, shot.AfterTicks wait count ∧
    (run.core (s + 1 + i)).laser = shot.toLaser (run.core (s + 1)).laser.xPos) ?_ ?_
  · exact ⟨shot, hshot, hlaser⟩
  · rintro i hi count ⟨shot, hafter, hhere⟩
    obtain ⟨hstate, hhit, hgoes⟩ := hflight i hi
    have hself : (run.core (s + 1 + i)).laser =
        shot.toLaser (run.core (s + 1 + i)).laser.xPos := by
      rw [hhere, Shot.toLaser_xPos]
    rw [retires_iff hself] at hgoes
    rw [← Nat.add_assoc, run.core_succ]
    change ∃ shot : Shot, shot.AfterTicks wait (count + (run.tick (s + 1 + i)).toNat) ∧ _
    cases htick : run.tick (s + 1 + i) with
    | true =>
        have hmore : shot ≠ .flying 111 := fun hend => hgoes ⟨htick, hend⟩
        obtain ⟨hnext, hcolumn⟩ := hafter.onTick hwait hmore
          (run.keycode (s + 1 + i) == keySpace) (run.core (s + 1 + i)).ship.xPos
          (run.core (s + 1 + i)).laser.xPos
        refine ⟨_, hnext, ?_⟩
        rw [next_laser_of_tick (run.inv _).ship hstate hself hhit, hcolumn, hhere,
          Shot.toLaser_xPos]
    | false => exact ⟨shot, hafter, (next_laser_of_idle hstate hhit _).trans hhere⟩

/-- Every shot flies straight up, on the rows of `flightRow` and no others,
and ends after at most 113 ticks. -/
theorem shot_flight (hlaunch : run.Launches s) :
    ∃ wait ≤ 1, ∀ len, run.InFlight s len → run.FlightAt wait s len := by
  obtain ⟨wait, hwait, shot, hshot, hlaser⟩ := launched_shot hlaunch
  refine ⟨wait, hwait, fun len hflight => ?_⟩
  obtain ⟨shot', hafter, hhere⟩ := flying_shot hwait hshot hlaser hflight
  have hself : (run.core (s + 1 + len)).laser =
      shot'.toLaser (run.core (s + 1 + len)).laser.xPos := by
    rw [hhere, Shot.toLaser_xPos]
  obtain ⟨hrow, hshort⟩ := hafter.row
  refine ⟨?_, ?_, ?_, hshort, ?_, fun hstate hretires => ?_⟩
  · rw [hhere, Shot.toLaser_xPos]
  · rw [hhere, Shot.toLaser_spacePressed, hafter.fired]
  · rw [hhere, Shot.toLaser_yPos_toNat, hrow]
  · rw [retires_iff hself, hafter.end_iff]
  · obtain ⟨htick, hend⟩ := (retires_iff hself _).mp hretires
    have hhit := (run.quiet_of_tick _ htick).laserHit
    rw [run.core_succ, htick, next_laser_of_tick (run.inv _).ship hstate hself hhit, hend]
    split
    next hkey =>
      rw [hkey]
      exact ⟨rfl, rfl, rfl⟩
    next hkey =>
      have hspace : (run.keycode (s + 1 + len) == keySpace) = false := by simpa using hkey
      rw [hspace]
      rfl

/-- A single press of Space in the first frame of a game. -/
theorem launches_firstShot : (scripted firstShot).Launches 1 := by
  have hfirst : (scripted firstShot).core (2 + 0) = (PlayFrame.opening.ticked keySpace).toCore :=
    scripted_calm firstShot (by decide) (by decide) firstShot_calm (by decide)
  refine ⟨?_, Or.inl ?_⟩
  · rw [hfirst]
    rfl
  · rw [scripted_core_one]
    rfl

/-- Its shot flies for sixty-four frames. -/
theorem inFlight_firstShot : (scripted firstShot).InFlight 1 256 := by
  have hgoes : ∀ f < 64, ((PlayFrame.opening.plays (firstShot.take f)).ticked
      (firstShot.getD f 0#8)).shot ≠ .flying 111 := by
    decide +kernel
  intro i hi
  have hframe : i / 4 < 64 := by omega
  have hinv := (scripted firstShot).inv (2 + i)
  rw [scripted_calm firstShot (by decide) (by decide) firstShot_calm hi] at hinv ⊢
  refine ⟨Or.inl rfl, ?_, fun hretires => hgoes _ hframe ((retires_iff rfl _).mp hretires).2⟩
  have hticks : ((PlayFrame.opening.plays (firstShot.take (i / 4))).ticked
      (firstShot.getD (i / 4) 0#8)).ticks ≤ 5000 := by
    change (PlayFrame.opening.plays (firstShot.take (i / 4))).ticks + 1 ≤ 5000
    have hlength := List.length_take_le (i / 4) firstShot
    rw [PlayFrame.plays_ticks]
    change 0 + (firstShot.take (i / 4)).length + 1 ≤ 5000
    omega
  rw [Bool.eq_false_iff, ne_eq, PlayFrame.laserHit_toCore_iff hticks hinv.muzzle.2, not_not]
  exact (firstShot_calm _ hframe).2

theorem shot_flight_firstShot : ∃ wait ≤ 1, (scripted firstShot).FlightAt wait 1 256 := by
  obtain ⟨wait, hwait, hflight⟩ := shot_flight launches_firstShot
  exact ⟨wait, hwait, hflight 256 inFlight_firstShot⟩

end Run

end Galaga
