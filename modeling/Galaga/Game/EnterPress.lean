import Galaga.Clocked.Press
import Galaga.Game.Scripted

/-! # One press of Enter

The state register looks at the key code in every cycle, and nothing remembers
that Enter was held before. So a press that lasts moves on through every screen
that it finds.
-/

namespace Galaga

/-- The screens that wait for Enter. -/
def State.Waits (state : State) : Prop := state ≠ .play ∧ state ≠ .bossFight

instance (state : State) : Decidable state.Waits := inferInstanceAs (Decidable (_ ∧ _))

namespace Run

open Clocked

variable (run : Run)

/-- Enter is held in cycle `n`. -/
def EnterHeld (n : ℕ) : Prop := run.keycode n = keyEnter

/-- The cycles in which Enter moves to the next screen. -/
def enterDriven : Set ℕ :=
  {n | ((run.core n).state = .start ∧ (run.core (n + 1)).state = .play) ∨
    ((run.core n).state = .bossLogo ∧ (run.core (n + 1)).state = .bossFight) ∨
    ((run.core n).state = .gameover ∧ (run.core (n + 1)).state = .start) ∨
    ((run.core n).state = .win ∧ (run.core (n + 1)).state = .start)}

/-- A press of Enter moves at most one screen further, and from an outcome it
leads to the start screen until Enter is released and pressed again. -/
structure OneScreenPerPress : Prop where
  once : OncePerPress run.EnterHeld run.enterDriven
  stays : ∀ n, (run.core n).state = .gameover ∨ (run.core n).state = .win → run.EnterHeld n →
    ∀ m > n, (∀ i j, n < i → i < j → j < m → ¬ run.EnterHeld i → ¬ run.EnterHeld j) →
      (run.core m).state = .start

/-- The presses are short: one on the screen of an outcome lasts a single
cycle, and one that begins a fight is over before the fight is. -/
structure ShortPresses : Prop where
  outcome : ∀ n, (run.core n).state = .gameover ∨ (run.core n).state = .win → run.EnterHeld n →
    ¬ run.EnterHeld (n + 1)
  fight : ∀ n, (run.core n).state = .start ∨ (run.core n).state = .bossLogo → run.EnterHeld n →
    ∀ m > n, (run.core m).state.Waits → ∃ i, n < i ∧ i ≤ m ∧ ¬ run.EnterHeld i

variable {run}

theorem mem_enterDriven_iff {n : ℕ} :
    n ∈ run.enterDriven ↔ (run.core n).state.Waits ∧ run.EnterHeld n := by
  change (_ ∧ (run.core (n + 1)).state = _) ∨ _ ↔ _
  unfold EnterHeld State.Waits
  rw [run.core_succ, Core.next_state]
  cases (run.core n).state <;> simp [State.next]

theorem state_succ_of_outcome {n : ℕ}
    (hstate : (run.core n).state = .gameover ∨ (run.core n).state = .win)
    (hheld : run.EnterHeld n) : (run.core (n + 1)).state = .start := by
  rw [run.core_succ, Core.next_state, hheld]
  rcases hstate with hstate | hstate <;> rw [hstate] <;> rfl

theorem state_succ_of_start {n : ℕ} (hstate : (run.core n).state = .start)
    (hreleased : ¬ run.EnterHeld n) : (run.core (n + 1)).state = .start := by
  rw [run.core_succ, Core.next_state, hstate]
  exact if_neg hreleased

/-- Between two screens that one press moves on from, the press was too long. -/
theorem ShortPresses.released (hshort : run.ShortPresses) {m n : ℕ} (hlt : m < n)
    (hm : m ∈ run.enterDriven) (hn : n ∈ run.enterDriven) :
    ∃ i, m ≤ i ∧ i ≤ n ∧ ¬ run.EnterHeld i := by
  obtain ⟨hwaits, hheld⟩ := mem_enterDriven_iff.mp hm
  have hwaits' := (mem_enterDriven_iff.mp hn).1
  cases hstate : (run.core m).state with
  | play => exact absurd hstate hwaits.1
  | bossFight => exact absurd hstate hwaits.2
  | gameover => exact ⟨m + 1, Nat.le_succ m, hlt, hshort.outcome m (Or.inl hstate) hheld⟩
  | win => exact ⟨m + 1, Nat.le_succ m, hlt, hshort.outcome m (Or.inr hstate) hheld⟩
  | start =>
      obtain ⟨i, hlow, hhigh, hnot⟩ := hshort.fight m (Or.inl hstate) hheld n hlt hwaits'
      exact ⟨i, hlow.le, hhigh, hnot⟩
  | bossLogo =>
      obtain ⟨i, hlow, hhigh, hnot⟩ := hshort.fight m (Or.inr hstate) hheld n hlt hwaits'
      exact ⟨i, hlow.le, hhigh, hnot⟩

/-- After a press of a single cycle on the screen of an outcome, the start
screen stays until the next press. -/
theorem ShortPresses.stays (hshort : run.ShortPresses) {n : ℕ}
    (hstate : (run.core n).state = .gameover ∨ (run.core n).state = .win)
    (hheld : run.EnterHeld n) {m : ℕ} (hlt : n < m)
    (hsingle : ∀ i j, n < i → i < j → j < m → ¬ run.EnterHeld i → ¬ run.EnterHeld j) :
    (run.core m).state = .start := by
  have hreleased := hshort.outcome n hstate hheld
  induction m, hlt using Nat.le_induction with
  | base => exact state_succ_of_outcome hstate hheld
  | succ m hle ih =>
      have hbefore := ih fun i j hi hij hj => hsingle i j hi hij (Nat.lt_succ_of_lt hj)
      refine state_succ_of_start hbefore ?_
      rcases Nat.eq_or_lt_of_le hle with rfl | hlater
      · exact hreleased
      · exact hsingle (n + 1) m (Nat.lt_succ_self n) hlater (Nat.lt_succ_self m) hreleased

theorem waits_of_outcome {state : State} (hstate : state = .gameover ∨ state = .win) :
    state.Waits := by
  rcases hstate with rfl | rfl <;> decide

theorem waits_of_opening {state : State} (hstate : state = .start ∨ state = .bossLogo) :
    state.Waits := by
  rcases hstate with rfl | rfl <;> decide

/-- A press that is too long moves on twice. -/
theorem shortPresses_of_once (honce : OncePerPress run.EnterHeld run.enterDriven) :
    run.ShortPresses := by
  rw [oncePerPress_iff] at honce
  constructor
  · intro n hstate hheld hheld'
    have hstart := state_succ_of_outcome hstate hheld
    have hnext : n + 1 ∈ run.enterDriven :=
      mem_enterDriven_iff.mpr ⟨by rw [hstart]; decide, hheld'⟩
    obtain ⟨i, hlow, hhigh, hnot⟩ := honce n (n + 1) (Nat.lt_succ_self n)
      (mem_enterDriven_iff.mpr ⟨waits_of_outcome hstate, hheld⟩) hnext
    rcases Nat.le_succ_iff.mp hhigh with hi | rfl
    · rw [le_antisymm hi hlow] at hnot
      exact hnot hheld
    · exact hnot hheld'
  · intro n hstate hheld m hlt hwaits
    by_contra hnone
    push Not at hnone
    obtain ⟨i, hlow, hhigh, hnot⟩ := honce n m hlt
      (mem_enterDriven_iff.mpr ⟨waits_of_opening hstate, hheld⟩)
      (mem_enterDriven_iff.mpr ⟨hwaits, hnone m hlt le_rfl⟩)
    rcases Nat.eq_or_lt_of_le hlow with rfl | hlater
    · exact hnot hheld
    · exact hnot (hnone i hlater hhigh)

/-- Presses move one screen at a time exactly if they are short. -/
theorem oneScreenPerPress_iff (run : Run) : run.OneScreenPerPress ↔ run.ShortPresses := by
  constructor
  · intro hone
    exact shortPresses_of_once hone.once
  · intro hshort
    refine ⟨?_, fun n hstate hheld m hlt hsingle => hshort.stays hstate hheld hlt hsingle⟩
    rw [oncePerPress_iff]
    exact fun m n hlt hm hn => hshort.released hlt hm hn

end Run

section Counterexample

/-- The frame that holds Enter on the game over screen leaves it, and leaves
the start screen as well. -/
theorem scripted_reopened :
    ((Run.scripted defeatScript).core (1 + 4 * (defeat.length + 1))).state = .gameover ∧
      (Run.scripted defeatScript).EnterHeld (1 + 4 * (defeat.length + 1)) ∧
      ((Run.scripted defeatScript).core (1 + 4 * (defeat.length + 1) + 2)).state = .play := by
  have hkey : (Run.scripted defeatScript).keycode (1 + 4 * (defeat.length + 1) + 0) =
      keyEnter := by
    rw [Run.scripted_keycode defeatScript (by omega), defeatScript_enter]
  rw [Nat.add_zero] at hkey
  refine ⟨?_, hkey, ?_⟩
  · rw [scripted_gameover]
    decide +kernel
  · rw [Run.scripted_core_idle defeatScript (defeat.length + 1) 1 (by omega) (by omega),
      Run.scripted_core_tick, defeatScript_enter, scripted_gameover]
    decide +kernel

/-- Enter, held for a frame on the game over screen, opens the next game. -/
theorem not_oneScreenPerPress : ¬ ∀ run : Run, run.OneScreenPerPress := by
  intro hall
  obtain ⟨hstate, hheld, hplay⟩ := scripted_reopened
  have hstart := (hall (Run.scripted defeatScript)).stays _ (Or.inl hstate) hheld
    (1 + 4 * (defeat.length + 1) + 2) (by omega) fun i j hi hij hj => absurd hij (by omega)
  rw [hplay] at hstart
  cases hstart

end Counterexample

end Galaga
