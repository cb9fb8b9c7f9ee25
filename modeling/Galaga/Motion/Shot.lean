import Galaga.Model.UserLaser
import Mathlib.Tactic.SplitIfs

/-! # The life of a shot

What the registers of `user_laser` say about the shot, apart from its column:
a small machine with one state for each height of a flight. The laser refines
it at every tick and at every hit.
-/

namespace Galaga

/-- The state of the shot. A flight has 112 heights, the last of them one step
above the top of the screen. -/
inductive Shot where
  /-- The registers of a reset, never seen in play. -/
  | unset
  /-- Under the ship, waiting for Space. -/
  | parked
  /-- Space was pressed; the motion register is still zero. -/
  | loaded
  /-- Brought back by a hit while Space was not held. -/
  | recoiled
  /-- In flight, after so many steps up. -/
  | flying (climbed : Fin 112)
  /-- The flight ended above the screen and Space was not held. -/
  | spent
deriving DecidableEq, Repr

namespace Shot

/-- The top row of the laser. -/
def row : Shot → ℕ
  | unset => 479
  | parked | loaded | recoiled => 441
  | flying climbed => (1465 - 4 * climbed.val) % 1024
  | spent => 1021

/-- The motion register is zero until the first tick of a flight. -/
def moving : Shot → Bool
  | unset | parked | loaded => false
  | recoiled | flying _ | spent => true

/-- The register `space_pressed`. -/
def fired : Shot → Bool
  | loaded | flying _ => true
  | unset | parked | recoiled | spent => false

/-- The registers of the laser for a shot in column `x`. -/
def toLaser (x : Coord) (shot : Shot) : UserLaser where
  xPos := x
  yPos := BitVec.ofNat 10 shot.row
  yMotion := if shot.moving then 1020#10 else 0#10
  spacePressed := shot.fired

/-- A hit brings the shot back to the ship, and fires it again if Space is
held. -/
def onHit (space : Bool) : Shot :=
  if space then flying 0 else recoiled

/-- A frame tick without a hit. -/
def onTick (space : Bool) : Shot → Shot
  | unset | parked | recoiled | spent => if space then loaded else parked
  | loaded => flying 0
  | flying climbed =>
      if h : climbed.val + 1 < 112 then flying ⟨climbed.val + 1, h⟩
      else if space then flying 0
      else spent

/-- The column after a frame tick without a hit: a flying shot keeps its own. -/
def columnOnTick (space : Bool) (userX x : Coord) : Shot → Coord
  | unset | parked | recoiled | spent => userX + 5#10
  | loaded => x
  | flying climbed =>
      if climbed.val + 1 < 112 then x
      else if space then userX + 8#10
      else x

theorem row_lt (shot : Shot) : shot.row < 1024 := by
  cases shot with
  | flying climbed => exact Nat.mod_lt _ (by decide)
  | _ => decide

@[simp] theorem toLaser_xPos (x : Coord) (shot : Shot) : (shot.toLaser x).xPos = x := rfl

@[simp] theorem toLaser_spacePressed (x : Coord) (shot : Shot) :
    (shot.toLaser x).spacePressed = shot.fired := rfl

theorem toLaser_yPos_toNat (x : Coord) (shot : Shot) : (shot.toLaser x).yPos.toNat = shot.row := by
  simp only [toLaser, BitVec.toNat_ofNat]
  exact Nat.mod_eq_of_lt shot.row_lt

/-- Without a shot in flight the laser is at the ship or above the screen. -/
theorem row_of_not_fired {shot : Shot} (hfired : shot.fired = false) :
    shot.row = 441 ∨ shot.row = 1021 ∨ shot = unset := by
  cases shot with
  | loaded => cases hfired
  | flying climbed => cases hfired
  | unset => exact Or.inr (Or.inr rfl)
  | parked => exact Or.inl rfl
  | recoiled => exact Or.inl rfl
  | spent => exact Or.inr (Or.inl rfl)

@[simp] theorem onHit_row (space : Bool) : (onHit space).row = 441 := by
  cases space <;> rfl

/-- A tick takes a laser at the ship at most one step up. -/
theorem row_onTick_of_launch {shot : Shot} (hrow : shot.row = 441) (space : Bool) :
    437 ≤ (shot.onTick space).row ∧ (shot.onTick space).row ≤ 441 := by
  cases shot with
  | unset => exact absurd hrow (by decide)
  | spent => exact absurd hrow (by decide)
  | parked => cases space <;> decide
  | recoiled => cases space <;> decide
  | loaded => cases space <;> decide
  | flying climbed =>
      have hstart : climbed = 0 := by
        apply Fin.ext
        have hclimbed := climbed.isLt
        simp only [row] at hrow
        simp only [Fin.val_zero]
        omega
      subst hstart
      cases space <;> decide

theorem onHit_ne_unset (space : Bool) : onHit space ≠ unset := by
  cases space <;> simp [onHit]

theorem onTick_ne_unset (space : Bool) (shot : Shot) : shot.onTick space ≠ unset := by
  cases shot with
  | loaded => simp [onTick]
  | flying climbed =>
      simp only [onTick]
      split_ifs <;> simp
  | _ =>
      simp only [onTick]
      split_ifs <;> simp

theorem columnOnTick_cases (space : Bool) (userX x : Coord) (shot : Shot) :
    shot.columnOnTick space userX x = userX + 5#10 ∨
      shot.columnOnTick space userX x = userX + 8#10 ∨ shot.columnOnTick space userX x = x := by
  cases shot with
  | loaded => exact Or.inr (Or.inr rfl)
  | flying climbed =>
      simp only [columnOnTick]
      split_ifs <;> simp
  | _ => exact Or.inl rfl

theorem row_le_or {shot : Shot} (hset : shot ≠ .unset) : shot.row ≤ 441 ∨ shot.row = 1021 := by
  cases shot with
  | unset => exact absurd rfl hset
  | flying climbed =>
      have hclimbed := climbed.isLt
      simp only [row]
      omega
  | parked => exact Or.inl le_rfl
  | loaded => exact Or.inl le_rfl
  | recoiled => exact Or.inl le_rfl
  | spent => exact Or.inr rfl

theorem eq_spent {shot : Shot} (hrow : shot.row = 1021) (hfired : shot.fired = false) :
    shot = .spent := by
  cases shot with
  | spent => rfl
  | flying climbed => cases hfired
  | unset => exact absurd hrow (by decide)
  | parked => exact absurd hrow (by decide)
  | loaded => cases hfired
  | recoiled => exact absurd hrow (by decide)

/-- A shot is retired above the screen, unless Space fires it again. -/
theorem onTick_eq_spent_iff {space : Bool} {shot : Shot} :
    shot.onTick space = .spent ↔ shot = .flying 111 ∧ space = false := by
  cases shot with
  | flying climbed =>
      have hclimbed := climbed.isLt
      simp only [onTick]
      split_ifs with hmore hspace
      · simp only [flying.injEq, false_iff, not_and]
        rintro rfl
        exact absurd hmore (by decide)
      · simp [hspace]
      · have hend : climbed = 111 := Fin.ext (by simp; omega)
        simp [hend, hspace]
  | loaded => simp [onTick]
  | unset => cases space <;> simp [onTick]
  | parked => cases space <;> simp [onTick]
  | recoiled => cases space <;> simp [onTick]
  | spent => cases space <;> simp [onTick]

theorem fired_and_past_iff {shot : Shot} :
    shot.fired = true ∧ 479 ≤ shot.row ↔ shot = .flying 111 := by
  cases shot with
  | flying climbed =>
      have hclimbed := climbed.isLt
      simp only [fired, row, true_and, flying.injEq]
      rw [Fin.ext_iff]
      simp
      omega
  | unset => simp [fired]
  | parked => simp [fired]
  | loaded => simp [fired, row]
  | recoiled => simp [fired]
  | spent => simp [fired]

end Shot

namespace UserLaser

open Shot

theorem parked_eq {userX userY : Coord} (huserY : userY + 2#10 = 441#10) :
    UserLaser.parked userX userY = Shot.parked.toLaser (userX + 5#10) := by
  simp only [UserLaser.parked, huserY]
  rfl

theorem relaunched_eq {userX userY : Coord} (huserY : userY + 2#10 = 441#10) (space : Bool) :
    relaunched userX userY space = (onHit space).toLaser (userX + 8#10) := by
  simp only [relaunched, huserY]
  cases space <;> rfl

/-- The laser of a shot in flight is past the bottom edge exactly at the end of
the flight, where its row has wrapped. -/
theorem yMax_le_flying_iff (x : Coord) (climbed : Fin 112) :
    yMax ≤ ((flying climbed).toLaser x).yPos ↔ ¬ climbed.val + 1 < 112 := by
  have hclimbed := climbed.isLt
  rw [BitVec.le_def, toLaser_yPos_toNat]
  simp only [yMax, row, BitVec.toNat_ofNat]
  omega

/-- A step up of a shot below the end of its flight. -/
theorem flying_yPos_add {climbed : Fin 112} (h : climbed.val + 1 < 112) :
    BitVec.ofNat 10 (flying climbed).row + 1020#10 =
      BitVec.ofNat 10 (flying ⟨climbed.val + 1, h⟩).row := by
  apply BitVec.eq_of_toNat_eq
  simp only [row, BitVec.toNat_add, BitVec.toNat_ofNat]
  omega

/-- A laser without a shot in flight is parked by the frame-tick branch. -/
theorem frameMove_of_not_fired {userX userY : Coord} (huserY : userY + 2#10 = 441#10)
    (keycode : Keycode) (x : Coord) {shot : Shot} (hfired : shot.fired = false) :
    (shot.toLaser x).frameMove keycode userX userY = Shot.parked.toLaser (userX + 5#10) := by
  simp only [frameMove, toLaser_spacePressed, hfired, Bool.false_eq_true, if_false,
    parked_eq huserY]

/-- The first tick of a shot from the parked position only starts the motion. -/
theorem frameMove_loaded (keycode : Keycode) (userX userY x : Coord) :
    (Shot.loaded.toLaser x).frameMove keycode userX userY = (Shot.flying 0).toLaser x := by
  have hbelow : ¬ yMax ≤ (Shot.loaded.toLaser x).yPos := by
    simp only [toLaser, row]
    decide
  simp only [frameMove, toLaser_spacePressed, fired, if_true, hbelow, false_and, if_false]
  rfl

theorem frameMove_flying {userX userY : Coord} (huserY : userY + 2#10 = 441#10)
    (keycode : Keycode) (x : Coord) (climbed : Fin 112) :
    ((Shot.flying climbed).toLaser x).frameMove keycode userX userY =
      ((Shot.flying climbed).onTick (keycode == keySpace)).toLaser
        ((Shot.flying climbed).columnOnTick (keycode == keySpace) userX x) := by
  have htop := yMax_le_flying_iff x climbed
  simp only [frameMove, toLaser_spacePressed, fired, if_true, htop, onTick, columnOnTick,
    beq_iff_eq]
  by_cases h : climbed.val + 1 < 112
  · simp only [h, not_true, false_and, if_false, dite_true, if_true]
    simp only [toLaser, moving, if_true, flying_yPos_add h]
    rfl
  · have hend : climbed = 111 := Fin.ext (by have := climbed.isLt; simp; omega)
    simp only [h, not_false_iff, true_and, dite_false, if_false, if_true]
    -- the row has wrapped: this is the end of the flight
    by_cases hkey : keycode = keySpace
    · simp only [hkey, if_true, relaunched_eq huserY]
      rfl
    · simp only [hkey, if_false, hend]
      rfl

/-- At a frame tick without a hit the laser refines the shot. -/
theorem next_tick_toLaser {play bossFight : Bool} (hfight : play = true ∨ bossFight = true)
    {userX userY : Coord} (huserY : userY + 2#10 = 441#10) (keycode : Keycode) (x : Coord)
    (shot : Shot) :
    (shot.toLaser x).next play bossFight false true keycode userX userY =
      (shot.onTick (keycode == keySpace)).toLaser
        (shot.columnOnTick (keycode == keySpace) userX x) := by
  have hgate : ¬ (play = false ∧ bossFight = false) := by
    rintro ⟨hplay, hboss⟩
    simp [hplay, hboss] at hfight
  have hspace : (keycode == keySpace) = decide (keycode = keySpace) := rfl
  simp only [next, hgate, if_false, Bool.false_eq_true, false_and, if_true]
  -- without a shot in flight the laser is parked, and Space only marks it as fired
  have hrest : ∀ shot : Shot, shot.fired = false →
      (if keycode = keySpace then
        { (shot.toLaser x).frameMove keycode userX userY with spacePressed := true }
      else (shot.toLaser x).frameMove keycode userX userY) =
        (if keycode == keySpace then Shot.loaded else Shot.parked).toLaser (userX + 5#10) := by
    intro shot hfired
    rw [frameMove_of_not_fired huserY keycode x hfired, hspace]
    by_cases hkey : keycode = keySpace
    · simp only [hkey, decide_true, if_true]
      rfl
    · simp only [hkey, decide_false, if_false, Bool.false_eq_true]
  cases shot with
  | unset => exact hrest _ rfl
  | parked => exact hrest _ rfl
  | recoiled => exact hrest _ rfl
  | spent => exact hrest _ rfl
  | loaded =>
      rw [frameMove_loaded]
      split <;> rfl
  | flying climbed =>
      rw [frameMove_flying huserY]
      split
      next hkey =>
        simp only [hkey, beq_self_eq_true, onTick, columnOnTick]
        split_ifs <;> rfl
      next => rfl

/-- A hit during a fight brings the laser back to the ship at once. -/
theorem next_hit {play bossFight : Bool} (hfight : play = true ∨ bossFight = true)
    {userX userY : Coord} (huserY : userY + 2#10 = 441#10) (tick : Bool) (keycode : Keycode)
    (laser : UserLaser) :
    laser.next play bossFight true tick keycode userX userY =
      (onHit (keycode == keySpace)).toLaser (userX + 8#10) := by
  have hgate : ¬ (play = false ∧ bossFight = false) := by
    rintro ⟨hplay, hboss⟩
    simp [hplay, hboss] at hfight
  simp only [next, hgate, if_false, true_and, if_true]
  by_cases hkey : keycode = keySpace
  · simp only [hkey, if_true, relaunched_eq huserY, beq_self_eq_true]
  · have hbeq : (keycode == keySpace) = false := by simpa using hkey
    simp only [hkey, if_false, relaunched_eq huserY, hbeq]

/-- Between ticks and without a hit the laser does not change during a fight. -/
theorem next_idle {play bossFight : Bool} (hfight : play = true ∨ bossFight = true)
    (userX userY : Coord) (keycode : Keycode) (laser : UserLaser) :
    laser.next play bossFight false false keycode userX userY = laser := by
  have hgate : ¬ (play = false ∧ bossFight = false) := by
    rintro ⟨hplay, hboss⟩
    simp [hplay, hboss] at hfight
  simp only [next, hgate, if_false, Bool.false_eq_true, false_and]

/-- Outside the fights the laser is parked in every cycle. -/
theorem next_no_fight {userX userY : Coord} (huserY : userY + 2#10 = 441#10)
    (laserHit tick : Bool) (keycode : Keycode) (laser : UserLaser) :
    laser.next false false laserHit tick keycode userX userY =
      Shot.parked.toLaser (userX + 5#10) := by
  simp only [next, and_self, if_true, parked_eq huserY]

end UserLaser

end Galaga
