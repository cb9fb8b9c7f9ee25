import Galaga.Clocked.Trace
import Galaga.Motion.UserShip
import Mathlib.Data.List.Count

/-! # Runs of the player's ship

The motion register acts one tick late. So a key pressed close to an edge takes
the ship past it, and the motion that the reset leaves behind moves the ship
before any key does.
-/

namespace Galaga.UserShip

theorem next_idle (keycode : Keycode) (ship : UserShip) : ship.next false keycode = ship := rfl

/-- The next tick takes the ship off the screen. -/
def Overruns (ship : UserShip) : Prop :=
  (ship.xPos = 600#10 ∧ ship.xMotion = 2#10) ∨ (ship.xPos = 0#10 ∧ ship.xMotion = 1022#10)

instance (ship : UserShip) : Decidable ship.Overruns := inferInstanceAs (Decidable (_ ∨ _))

/-- `X + 40 >= 639` or `X = 0`, in numbers. -/
def AtEdge (ship : UserShip) : Prop := 639 ≤ ship.xPos.toNat + 40 ∨ ship.xPos.toNat = 0

instance (ship : UserShip) : Decidable ship.AtEdge := inferInstanceAs (Decidable (_ ∨ _))

/-- A motion as a signed number of columns. -/
theorem motion_toInt {motion : Coord} (hmotion : motion = 0#10 ∨ motion = 2#10 ∨ motion = 1022#10) :
    motion.toInt = if motion = 2#10 then 2 else if motion = 1022#10 then -2 else 0 := by
  rcases hmotion with rfl | rfl | rfl <;> decide

namespace Reached

variable {ship : UserShip}

theorem motion_cases (hship : ship.Reached) :
    ship.xMotion = 0#10 ∨ ship.xMotion = 2#10 ∨ ship.xMotion = 1022#10 := by
  rcases hship.column with ⟨_, hmotion⟩ | ⟨_, hmotion⟩ | ⟨_, hmotion⟩
  · exact hmotion
  · exact Or.inr (Or.inr hmotion)
  · exact Or.inr (Or.inl hmotion)

/-- On the screen a tick stays on it, and does not wrap, unless the ship is
about to leave. -/
theorem onScreen_next_iff (hship : ship.Reached) (hon : ship.xPos.toNat ≤ 600)
    (keycode : Keycode) :
    (ship.next true keycode).xPos.toNat ≤ 600 ↔ ¬ ship.Overruns := by
  have heven := hship.even
  have hbound := ship.xPos.isLt
  have hmotion := hship.motion_cases
  change (ship.xPos + ship.xMotion).toNat ≤ 600 ↔ _
  unfold Overruns
  rw [BitVec.toNat_add]
  simp only [← BitVec.toNat_inj, BitVec.toNat_ofNat] at hmotion ⊢
  omega

/-- Away from the edges the position moves by the motion, as a signed number. -/
theorem xPos_next_of_not_atEdge (hship : ship.Reached) (hedge : ¬ ship.AtEdge)
    (keycode : Keycode) :
    ((ship.next true keycode).xPos.toNat : ℤ) = ship.xPos.toNat + ship.xMotion.toInt ∧
      (ship.next true keycode).xMotion = keyMotion keycode := by
  have heven := hship.even
  unfold AtEdge at hedge
  constructor
  · change ((ship.xPos + ship.xMotion).toNat : ℤ) = _
    rw [BitVec.toNat_add]
    rcases hship.motion_cases with hmotion | hmotion | hmotion <;> rw [hmotion] <;>
      simp only [BitVec.toNat_ofNat, BitVec.toInt] <;> omega
  · change xMotionIn keycode ship = _
    rw [xMotionIn_eq, if_neg (by omega), if_neg (by omega)]

end Reached

/-- D is pressed one step before the right edge is seen, in a move to the
right, or A one step before the left edge in a move to the left. -/
def Pushes (keycode : Keycode) (ship : UserShip) : Prop :=
  (ship.xPos = 598#10 ∧ ship.xMotion = 2#10 ∧ keycode = keyD) ∨
    (ship.xPos = 2#10 ∧ ship.xMotion = 1022#10 ∧ keycode = keyA)

theorem keyMotion_eq_right_iff (keycode : Keycode) : keyMotion keycode = 2#10 ↔ keycode = keyD := by
  unfold keyMotion
  split_ifs with hA hD
  · subst hA
    decide
  · exact iff_of_true rfl hD
  · exact iff_of_false (by decide) hD

theorem keyMotion_eq_left_iff (keycode : Keycode) :
    keyMotion keycode = 1022#10 ↔ keycode = keyA := by
  unfold keyMotion
  split_ifs with hA hD
  · exact iff_of_true rfl hA
  · subst hD
    decide
  · exact iff_of_false (by decide) hA

/-- Nothing else makes a ship on the screen leave at the tick after next. -/
theorem Reached.overruns_next_iff {ship : UserShip} (hship : ship.Reached)
    (hon : ship.xPos.toNat ≤ 600) (keycode : Keycode) :
    (ship.next true keycode).Overruns ↔ ship.Pushes keycode := by
  have heven := hship.even
  have hright := keyMotion_eq_right_iff keycode
  have hleft := keyMotion_eq_left_iff keycode
  have hkey := keyMotion_cases keycode
  have hmotion := hship.motion_cases
  have hx : (ship.next true keycode).xPos.toNat =
      (ship.xPos.toNat + ship.xMotion.toNat) % 1024 := BitVec.toNat_add _ _
  have hm : (ship.next true keycode).xMotion = xMotionIn keycode ship := rfl
  unfold Overruns Pushes
  rw [hm, xMotionIn_eq, ← hright, ← hleft]
  simp only [← BitVec.toNat_inj, BitVec.toNat_ofNat] at hmotion hkey hx ⊢
  rw [hx]
  split_ifs with hedge hzero
  · simp only [BitVec.toNat_ofNat]
    omega
  · simp only [BitVec.toNat_ofNat]
    omega
  · omega

namespace Run

variable (run : Run)

/-- The run as a trace of the registers. -/
def trace : Clocked.Trace UserShip.next where
  state := run.ship
  tick := run.tick
  key := run.keycode
  step := run.next

theorem ship_succ (n : ℕ) :
    run.ship (n + 1) = (run.ship n).next (run.tick n) (run.keycode n) := run.next n

theorem ship_zero : run.ship 0 = resetRegs := by
  obtain ⟨before, edge, key, hstart⟩ := run.start
  rw [hstart]
  rfl

theorem reached (n : ℕ) : (run.ship n).Reached := by
  induction n with
  | zero =>
      rw [run.ship_zero]
      exact reached_reset
  | succ n ih =>
      rw [run.ship_succ]
      exact ih.next _ _

/-- All columns of the ship are on the screen in every cycle, and no tick wraps
its position below 0. -/
def OnScreen : Prop :=
  ∀ n, (run.ship n).xPos.toNat ≤ 600 ∧
    (run.tick n = true → 0 ≤ ((run.ship n).xPos.toNat : ℤ) + (run.ship n).xMotion.toInt)

/-- The ship stays on the screen if no tick finds it about to leave. -/
theorem onScreen_iff_not_overruns :
    run.OnScreen ↔ ∀ n, run.tick n = true → ¬ (run.ship n).Overruns := by
  constructor
  · intro hon n htick
    rw [← (run.reached n).onScreen_next_iff (hon n).1 (run.keycode n), ← htick, ← run.ship_succ]
    exact (hon (n + 1)).1
  · intro hsafe
    have hcolumn : ∀ n, (run.ship n).xPos.toNat ≤ 600 := by
      intro n
      induction n with
      | zero =>
          rw [run.ship_zero]
          decide
      | succ n ih =>
          rw [run.ship_succ]
          cases htick : run.tick n with
          | true => exact ((run.reached n).onScreen_next_iff ih _).mpr (hsafe n htick)
          | false => exact ih
    intro n
    refine ⟨hcolumn n, fun htick => ?_⟩
    have hsafe' := hsafe n htick
    have heven := (run.reached n).even
    rw [motion_toInt (run.reached n).motion_cases]
    unfold Overruns at hsafe'
    simp only [← BitVec.toNat_inj, BitVec.toNat_ofNat] at hsafe' ⊢
    split_ifs <;> omega

/-- A push is followed by a tick off the screen, if by any tick. -/
theorem exists_overrun_of_pushes {m n : ℕ} (hon : (run.ship m).xPos.toNat ≤ 600) (hlt : m < n)
    (hm : run.tick m = true) (hn : run.tick n = true)
    (hpush : (run.ship m).Pushes (run.keycode m)) :
    ∃ later, run.tick later = true ∧ (run.ship later).Overruns := by
  obtain ⟨later, hafter, htick, hidle⟩ := run.trace.exists_next_tick hlt hn
  refine ⟨later, htick, ?_⟩
  have hrests : run.ship later = run.ship (m + 1) :=
    run.trace.state_eq_of_idle next_idle hafter hidle
  rw [hrests, run.ship_succ, hm]
  exact ((run.reached m).overruns_next_iff hon _).mpr hpush

/-- A ship that is about to leave the screen was pushed by an earlier tick, if
no earlier push was followed by a tick. -/
theorem pushed_of_overruns (hkeys : ∀ m n, m < n → run.tick m = true → run.tick n = true →
    ¬ (run.ship m).Pushes (run.keycode m)) (n : ℕ) :
    (run.ship n).xPos.toNat ≤ 600 ∧ ((run.ship n).Overruns →
      ∃ m < n, run.tick m = true ∧ (run.ship m).Pushes (run.keycode m)) := by
  induction n with
  | zero =>
      rw [run.ship_zero]
      exact ⟨by decide, fun hover => absurd hover (by decide)⟩
  | succ n ih =>
      obtain ⟨hon, hpushed⟩ := ih
      rw [run.ship_succ]
      cases htick : run.tick n with
      | false =>
          refine ⟨hon, fun hover => ?_⟩
          obtain ⟨m, hm, hcause⟩ := hpushed hover
          exact ⟨m, Nat.lt_succ_of_lt hm, hcause⟩
      | true =>
          have hsafe : ¬ (run.ship n).Overruns := by
            intro hover
            obtain ⟨m, hm, hmtick, hpush⟩ := hpushed hover
            exact hkeys m n hm hmtick htick hpush
          refine ⟨((run.reached n).onScreen_next_iff hon _).mpr hsafe, fun hover => ?_⟩
          exact ⟨n, Nat.lt_succ_self n, htick, ((run.reached n).overruns_next_iff hon _).mp hover⟩

/-- The ship stays on the screen exactly if no tick pushes it over an edge
before the last one. -/
theorem onScreen_iff :
    run.OnScreen ↔ ∀ m n, m < n → run.tick m = true → run.tick n = true →
      ¬ (run.ship m).Pushes (run.keycode m) := by
  constructor
  · intro hscreen m n hlt hm hn hpush
    obtain ⟨later, htick, hover⟩ :=
      run.exists_overrun_of_pushes (hscreen m).1 hlt hm hn hpush
    exact run.onScreen_iff_not_overruns.mp hscreen later htick hover
  · intro hkeys
    rw [run.onScreen_iff_not_overruns]
    intro n htick hover
    obtain ⟨m, hm, hmtick, hpush⟩ := (run.pushed_of_overruns hkeys n).2 hover
    exact hkeys m n hm hmtick htick hpush

/-- The run in which a key is held and every other cycle is a tick. -/
def held (keycode : Keycode) : Run where
  ship := fun n => Nat.rec resetRegs
    (fun m ship => ship.next (m % 2 == 1) keycode) n
  detector := EdgeDetector.alternating
  frameClk := fun n => n % 2 == 0
  keycode := fun _ => keycode
  start := ⟨resetRegs, false, keycode, rfl⟩
  next := fun _ => rfl
  sample := EdgeDetector.alternating_succ

/-- With D held the ship passes the right edge at its 141st tick. -/
theorem not_onScreen : ¬ ∀ run : Run, run.OnScreen := by
  intro hall
  have hleft : ((held keyD).ship 282).xPos = 602#10 := by decide +kernel
  have hon := (hall (held keyD) 282).1
  rw [hleft] at hon
  exact absurd hon (by decide)

section Keys

/-- The balance of the keys to the right and to the left, in columns. -/
def balance (keys : List Keycode) : ℤ := 2 * keys.count keyD - 2 * keys.count keyA

theorem balance_concat (keys : List Keycode) (keycode : Keycode) :
    balance (keys ++ [keycode]) = balance keys + (keyMotion keycode).toInt := by
  have hother : keyA ≠ keyD := by decide
  have hleft : (~~~xStep + 1#10).toInt = -2 := by decide
  have hright : xStep.toInt = 2 := by decide
  have hnone : (0#10 : Coord).toInt = 0 := by decide
  simp only [balance, List.count_append, List.count_singleton, beq_iff_eq, keyMotion]
  by_cases hA : keycode = keyA
  · rw [if_neg fun hD => hother (hA.symm.trans hD), if_pos hA, if_pos hA, hleft]
    omega
  · rw [if_neg hA, if_neg hA]
    by_cases hD : keycode = keyD
    · rw [if_pos hD, if_pos hD, hright]
      omega
    · rw [if_neg hD, if_neg hD, hnone]
      omega

/-- What the keys sampled so far say about the ship: the next motion is the
last key's, and the first motion is the one that the reset left behind. -/
structure Follows (keys : List Keycode) (ship : UserShip) : Prop where
  reached : ship.Reached
  ahead : (ship.xPos.toNat : ℤ) + ship.xMotion.toInt = 322 + balance keys
  here : ship.xPos.toNat = if keys = [] then 320 else 322 + balance keys.dropLast

theorem Follows.next_tick {keys : List Keycode} {ship : UserShip} (hship : Follows keys ship)
    (hedge : ¬ ship.AtEdge) (keycode : Keycode) :
    Follows (keys ++ [keycode]) (ship.next true keycode) := by
  obtain ⟨hx, hmotion⟩ := hship.reached.xPos_next_of_not_atEdge hedge keycode
  refine ⟨hship.reached.next true keycode, ?_, ?_⟩
  · rw [hx, hmotion, hship.ahead, balance_concat]
    omega
  · rw [hx, hship.ahead, List.dropLast_concat, if_neg (by simp)]

/-- The keys that `user_ship` samples at the ticks before cycle `n`. -/
def keys (n : ℕ) : List Keycode := run.trace.sampled n

variable {n : ℕ} (hfree : ∀ m < n, run.tick m = true → ¬ (run.ship m).AtEdge)
include hfree

theorem follows : Follows (run.keys n) (run.ship n) := by
  apply run.trace.sampled_rule Follows fun _ _ => rfl
  · change Follows [] (run.ship 0)
    rw [run.ship_zero]
    exact ⟨reached_reset, by decide, by decide⟩
  · intro m hm htick hship
    exact hship.next_tick (hfree m hm htick) _

/-- As long as no tick finds the ship at an edge, the ship is two columns right
of where the keys put it, from the first tick on. -/
theorem moves_by_keys_iff :
    (((run.ship n).xPos.toNat : ℤ) =
          320 + 2 * (run.keys n).dropLast.count keyD - 2 * (run.keys n).dropLast.count keyA ∧
        (run.ship n).yPos = 439#10 ↔
      run.keys n = []) ∧
    (run.keys n ≠ [] →
      ((run.ship n).xPos.toNat : ℤ) =
          322 + 2 * (run.keys n).dropLast.count keyD - 2 * (run.keys n).dropLast.count keyA ∧
        (run.ship n).yPos = 439#10) := by
  have hfollows := run.follows hfree
  have hhere := hfollows.here
  have hy := hfollows.reached.yPos
  unfold balance at hhere
  by_cases hkeys : run.keys n = []
  · rw [if_pos hkeys] at hhere
    rw [hkeys]
    simp [hhere, hy]
  · rw [if_neg hkeys] at hhere
    refine ⟨iff_of_false ?_ hkeys, fun _ => ⟨by omega, hy⟩⟩
    rintro ⟨hx, _⟩
    omega

end Keys

/-- After two ticks with A held the first of them has acted, from two columns
further right. -/
theorem moves_by_keys_of_held :
    ((held keyA).ship 4).xPos.toNat = (320 : ℤ) ∧ ((held keyA).ship 4).yPos = 439#10 := by
  have hfree : ∀ m < 4, (held keyA).tick m = true → ¬ ((held keyA).ship m).AtEdge := by decide
  exact ((held keyA).moves_by_keys_iff hfree).2 (by decide)

/-- With no key pressed at all the first tick moves the ship. -/
theorem moves_without_keys :
    (∀ m < 2, (held 0#8).tick m = true → ¬ ((held 0#8).ship m).AtEdge) ∧
      (held 0#8).keys 2 = [0#8] ∧
      ¬ ((((held 0#8).ship 2).xPos.toNat : ℤ) =
        320 + 2 * ((held 0#8).keys 2).dropLast.count keyD -
          2 * ((held 0#8).keys 2).dropLast.count keyA) := by
  decide

end Run

end Galaga.UserShip
