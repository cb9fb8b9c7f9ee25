import Mathlib.Data.Set.Subsingleton
import Mathlib.Order.Basic

/-! # Presses of a key that is sampled as a level

A signal over the cycles, and its presses: the longest stretches of cycles in
which it is held, finite or not.
-/

namespace Clocked

variable (held : ℕ → Prop)

/-- A press can begin in this cycle: the signal was not held before. -/
def Begins (start : ℕ) : Prop := ∀ before, start = before + 1 → ¬ held before

/-- The cycles of the press that begins in cycle `start`. -/
def press (start : ℕ) : Set ℕ := {n | start ≤ n ∧ ∀ i, start ≤ i → i ≤ n → held i}

/-- An event happens at most once in each press. -/
def OncePerPress (event : Set ℕ) : Prop :=
  ∀ start, Begins held start → (press held start ∩ event).Subsingleton

variable {held} {event : Set ℕ}

/-- Every cycle in which the signal is held is in a press. -/
theorem exists_begins {n : ℕ} (hheld : held n) :
    ∃ start ≤ n, Begins held start ∧ n ∈ press held start := by
  induction n with
  | zero =>
      refine ⟨0, le_rfl, fun _ hsucc => absurd hsucc (by simp), le_rfl, fun i _ hi => ?_⟩
      rw [Nat.le_zero.mp hi]
      exact hheld
  | succ n ih =>
      by_cases hbefore : held n
      · obtain ⟨start, hle, hbegins, _, hall⟩ := ih hbefore
        refine ⟨start, Nat.le_succ_of_le hle, hbegins, Nat.le_succ_of_le hle, ?_⟩
        intro i hlow hhigh
        rcases Nat.le_succ_iff.mp hhigh with hi | rfl
        · exact hall i hlow hi
        · exact hheld
      · refine ⟨n + 1, le_rfl, fun before hsucc => ?_, le_rfl, fun i hlow hhigh => ?_⟩
        · rw [← Nat.succ_injective hsucc]
          exact hbefore
        · rw [le_antisymm hhigh hlow]
          exact hheld

/-- Twice in a press means twice without a release in between. -/
theorem oncePerPress_iff :
    OncePerPress held event ↔
      ∀ m n, m < n → m ∈ event → n ∈ event → ∃ i, m ≤ i ∧ i ≤ n ∧ ¬ held i := by
  constructor
  · intro honce m n hlt hm hn
    by_contra hnone
    push Not at hnone
    obtain ⟨start, hle, hbegins, _, hall⟩ := exists_begins (hnone m le_rfl hlt.le)
    have hlater : n ∈ press held start := by
      refine ⟨hle.trans hlt.le, fun i hlow hhigh => ?_⟩
      rcases le_total i m with hi | hi
      · exact hall i hlow hi
      · exact hnone i hi hhigh
    exact hlt.ne (honce start hbegins ⟨⟨hle, hall⟩, hm⟩ ⟨hlater, hn⟩)
  · rintro hreleased start - m ⟨⟨hlowm, hallm⟩, hm⟩ n ⟨⟨hlown, halln⟩, hn⟩
    rcases lt_trichotomy m n with hlt | rfl | hlt
    · obtain ⟨i, hlow, hhigh, hnot⟩ := hreleased m n hlt hm hn
      exact absurd (halln i (hlowm.trans hlow) hhigh) hnot
    · rfl
    · obtain ⟨i, hlow, hhigh, hnot⟩ := hreleased n m hlt hn hm
      exact absurd (hallm i (hlown.trans hlow) hhigh) hnot

end Clocked
