import Galaga.Model.UserShip

/-! # Where the player's ship can be

The edge tests replace the motion one tick too late, so the ship overshoots to
602 on the right and wraps to 1022 on the left before it turns back.
-/

namespace Galaga.UserShip

/-- The register values that the ship can take. -/
structure Reached (ship : UserShip) : Prop where
  yPos : ship.yPos = 439#10
  yMotion : ship.yMotion = 0#10
  even : ship.xPos.toNat % 2 = 0
  column : (ship.xPos.toNat ≤ 600 ∧
      (ship.xMotion = 0#10 ∨ ship.xMotion = 2#10 ∨ ship.xMotion = 1022#10)) ∨
    (ship.xPos = 602#10 ∧ ship.xMotion = 1022#10) ∨
    (ship.xPos = 1022#10 ∧ ship.xMotion = 2#10)

theorem reached_reset : Reached resetRegs := by
  constructor <;> decide

theorem keyMotion_cases (keycode : Keycode) :
    keyMotion keycode = 0#10 ∨ keyMotion keycode = 2#10 ∨ keyMotion keycode = 1022#10 := by
  unfold keyMotion
  split
  · exact Or.inr (Or.inr (by decide))
  · split
    · exact Or.inr (Or.inl rfl)
    · exact Or.inl rfl

/-- The motion chosen at a tick, as a condition on the position alone where an
edge decides it. -/
theorem xMotionIn_eq (keycode : Keycode) (ship : UserShip) :
    xMotionIn keycode ship =
      if 599 ≤ ship.xPos.toNat ∧ ship.xPos.toNat ≤ 983 then 1022#10
      else if ship.xPos.toNat = 0 then 2#10
      else keyMotion keycode := by
  have hbound := ship.xPos.isLt
  have hright : xMax ≤ ship.xPos + size ↔
      599 ≤ ship.xPos.toNat ∧ ship.xPos.toNat ≤ 983 := by
    simp only [xMax, size, BitVec.le_def, BitVec.toNat_add, BitVec.toNat_ofNat]
    omega
  have hleft : ship.xPos ≤ xMin ↔ ship.xPos.toNat = 0 := by
    simp only [xMin, BitVec.le_def, BitVec.toNat_ofNat]
    omega
  simp only [xMotionIn, hright, hleft]
  rfl

theorem Reached.next {ship : UserShip} (hship : ship.Reached) (tick : Bool) (keycode : Keycode) :
    (ship.next tick keycode).Reached := by
  obtain ⟨hy, hyMotion, heven, hcolumn⟩ := hship
  cases tick with
  | false => exact ⟨hy, hyMotion, heven, hcolumn⟩
  | true =>
      have hkey := keyMotion_cases keycode
      have hx : (ship.xPos + ship.xMotion).toNat =
          (ship.xPos.toNat + ship.xMotion.toNat) % 1024 := BitVec.toNat_add _ _
      have hmotion := xMotionIn_eq keycode ship
      refine ⟨?_, rfl, ?_, ?_⟩
      · simp [UserShip.next, hy, hyMotion]
      · -- every motion is even, and so is 1024
        simp only [UserShip.next, if_true, hx]
        rcases hcolumn with ⟨_, hm | hm | hm⟩ | ⟨hpos, hm⟩ | ⟨hpos, hm⟩ <;>
          simp only [hm, BitVec.toNat_ofNat] <;> omega
      · simp only [UserShip.next, if_true, hx, hmotion, ← BitVec.toNat_inj, BitVec.toNat_ofNat]
        simp only [← BitVec.toNat_inj, BitVec.toNat_ofNat] at hcolumn hkey
        split_ifs with hright hleft
        · simp
          omega
        · simp
          omega
        · -- away from the edges, where two steps do not leave the screen
          omega

/-- Where the laser is put by the ship, whichever of the two offsets is used. -/
theorem Reached.muzzle {ship : UserShip} (hship : ship.Reached) :
    (3 ≤ (ship.xPos + 5#10).toNat ∧ (ship.xPos + 5#10).toNat ≤ 610) ∧
      (3 ≤ (ship.xPos + 8#10).toNat ∧ (ship.xPos + 8#10).toNat ≤ 610) ∧
      ship.yPos + 2#10 = 441#10 := by
  obtain ⟨hy, _, _, hcolumn⟩ := hship
  simp only [← BitVec.toNat_inj, BitVec.toNat_add, BitVec.toNat_ofNat] at hcolumn ⊢
  rw [hy]
  refine ⟨?_, ?_, rfl⟩ <;> omega

end Galaga.UserShip
