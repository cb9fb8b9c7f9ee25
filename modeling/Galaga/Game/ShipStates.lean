import Galaga.Game.Scripted

/-! # The states of the player's ship

The invariant of the ship is exact: for each of its states there are keys that
bring the ship there.
-/

namespace Galaga

namespace UserShip

/-- Some keys, one for each tick, bring the ship here from the reset. -/
def Driven (ship : UserShip) : Prop :=
  ∃ keys : List Keycode, keys.foldl (fun ship keycode => ship.next true keycode) resetRegs = ship

variable {ship : UserShip}

theorem Driven.next (hdriven : ship.Driven) (keycode : Keycode) :
    (ship.next true keycode).Driven := by
  obtain ⟨keys, rfl⟩ := hdriven
  exact ⟨keys ++ [keycode], by rw [List.foldl_append]; rfl⟩

/-- The ship in its row, with a motion. -/
def moving (column : ℕ) (xMotion : Coord) : UserShip where
  xPos := BitVec.ofNat 10 column
  yPos := 439#10
  xMotion := xMotion
  yMotion := 0#10

/-- A tick away from the edges moves the ship and takes over the key's motion. -/
theorem next_moving {column : ℕ} (later : ℕ) {xMotion : Coord}
    (hlow : 0 < column) (hhigh : column < 599)
    (hlater : (column + xMotion.toNat) % 1024 = later % 1024) (keycode : Keycode) :
    (moving column xMotion).next true keycode = moving later (keyMotion keycode) := by
  have hcolumn : (moving column xMotion).xPos.toNat = column := by
    change (BitVec.ofNat 10 column).toNat = column
    rw [BitVec.toNat_ofNat]
    omega
  have hmotion : xMotionIn keycode (moving column xMotion) = keyMotion keycode := by
    rw [xMotionIn_eq, hcolumn, if_neg (by omega), if_neg (by omega)]
  have hx : BitVec.ofNat 10 column + xMotion = BitVec.ofNat 10 later := by
    rw [← BitVec.toNat_inj, BitVec.toNat_add, BitVec.toNat_ofNat, BitVec.toNat_ofNat]
    omega
  simp only [UserShip.next, if_true, hmotion]
  simp only [moving, hx]
  rfl

/-- With D the ship gets to each column on the right, moving to the right. -/
theorem driven_right (k : ℕ) (hk : k ≤ 139) : (moving (322 + 2 * k) 2#10).Driven := by
  induction k with
  | zero => exact ⟨[keyD], by decide⟩
  | succ k ih =>
      have hnext := (ih (by omega)).next keyD
      rw [next_moving (322 + 2 * (k + 1)) (by omega) (by omega) (by simp; omega)] at hnext
      exact hnext

/-- With A to each column on the left, moving to the left. -/
theorem driven_left (k : ℕ) (hk : k ≤ 161) : (moving (322 - 2 * k) 1022#10).Driven := by
  induction k with
  | zero => exact ⟨[keyA], by decide⟩
  | succ k ih =>
      have hnext := (ih (by omega)).next keyA
      rw [next_moving (322 - 2 * (k + 1)) (by omega) (by omega) (by simp; omega)] at hnext
      exact hnext

/-- Any motion is that of a key. -/
theorem exists_keyMotion {xMotion : Coord}
    (hmotion : xMotion = 0#10 ∨ xMotion = 2#10 ∨ xMotion = 1022#10) :
    ∃ keycode, keyMotion keycode = xMotion := by
  rcases hmotion with rfl | rfl | rfl
  · exact ⟨0#8, rfl⟩
  · exact ⟨keyD, rfl⟩
  · exact ⟨keyA, by decide⟩

/-- A column on the screen is entered from its neighbour, with any key. -/
theorem driven_of_column {column : ℕ} (heven : column % 2 = 0) (hhigh : column ≤ 600)
    (keycode : Keycode) : (moving column (keyMotion keycode)).Driven := by
  rcases (show column ≤ 320 ∨ column = 322 ∨ 324 ≤ column by omega) with hleft | rfl | hright
  · obtain ⟨k, hk⟩ : ∃ k, column + 2 * (k + 1) = 322 := ⟨(320 - column) / 2, by omega⟩
    have hnext := (driven_left k (by omega)).next keycode
    rw [next_moving column (by omega) (by omega) (by simp; omega)] at hnext
    exact hnext
  · refine ⟨[keycode], ?_⟩
    change (moving 320 2#10).next true keycode = _
    exact next_moving 322 (by omega) (by omega) rfl keycode
  · obtain ⟨k, rfl⟩ : ∃ k, column = 324 + 2 * k := ⟨(column - 324) / 2, by omega⟩
    have hnext := (driven_right k (by omega)).next keycode
    rw [next_moving (324 + 2 * k) (by omega) (by omega) (by simp; omega)] at hnext
    exact hnext

/-- Every state of the invariant. -/
theorem Reached.driven (hship : ship.Reached) : ship.Driven := by
  obtain ⟨xPos, yPos, xMotion, yMotion⟩ := ship
  obtain ⟨rfl, rfl, heven, hcolumn⟩ := hship
  have hmoving : (⟨xPos, 439#10, xMotion, 0#10⟩ : UserShip) = moving xPos.toNat xMotion := by
    rw [moving, BitVec.ofNat_toNat, BitVec.setWidth_eq]
  rcases hcolumn with ⟨hhigh, hmotion⟩ | ⟨rfl, rfl⟩ | ⟨rfl, rfl⟩
  · obtain ⟨keycode, rfl⟩ := exists_keyMotion hmotion
    rw [hmoving]
    exact driven_of_column heven hhigh keycode
  · -- one step past the right edge
    have hedge : (moving 600 2#10).Driven := driven_of_column (by decide) le_rfl keyD
    exact hedge.next 0#8
  · have hedge : (moving 0 1022#10).Driven := driven_of_column (by decide) (by decide) keyA
    exact hedge.next 0#8

end UserShip

namespace Run

theorem ship_frame (core : Core) (keycode : Keycode) :
    (core.frame keycode).ship = core.ship.next true keycode := rfl

theorem ship_frames (core : Core) (keys : List Keycode) :
    (core.frames keys).ship =
      keys.foldl (fun ship keycode => ship.next true keycode) core.ship := by
  induction keys generalizing core with
  | nil => rfl
  | cons keycode keys ih =>
      rw [Core.frames_cons, ih, ship_frame]
      rfl

/-- The states of the ship in all runs are those of its invariant, no fewer. -/
theorem ship_states_exact (ship : UserShip) :
    (∃ (run : Run) (n : ℕ), (run.core n).ship = ship) ↔ ship.Reached := by
  constructor
  · rintro ⟨run, n, rfl⟩
    exact (run.inv n).ship
  · intro hship
    obtain ⟨keys, rfl⟩ := hship.driven
    refine ⟨scripted keys, 1 + 4 * keys.length, ?_⟩
    have hcore := scripted_core keys []
    rw [List.append_nil] at hcore
    rw [hcore, ship_frames]
    rfl

end Run

end Galaga
