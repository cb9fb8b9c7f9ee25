import Galaga.Clocked.Trace
import Mathlib.Order.Filter.AtTopBot.Basic

/-! # A cell that several parties write

One memory cell over time. Whoever writes it overwrites what it held, so a value
reaches a reader only if the reader comes first.
-/

namespace Clocked

open Filter

/-- What a cell holds, and what each step writes to it. -/
structure Cell (α : Type*) where
  value : ℕ → α
  written : ℕ → Option α
  next : ∀ n, value (n + 1) = (written n).getD (value n)

namespace Cell

variable {α : Type*} (cell : Cell α)

theorem value_eq_of_unwritten {n m : ℕ} (hle : n ≤ m)
    (hnone : ∀ k, n ≤ k → k < m → cell.written k = none) : cell.value m = cell.value n := by
  apply stretch_rule (fun k => cell.value k = cell.value n) hle rfl
  intro k hlow hhigh hsame
  rw [cell.next, hnone k hlow hhigh]
  exact hsame

/-- A cell holds what was last written to it, if anything was. -/
theorem exists_last (n : ℕ) :
    (∀ k < n, cell.written k = none) ∧ cell.value n = cell.value 0 ∨
      ∃ m < n, cell.written m = some (cell.value n) ∧
        ∀ k, m < k → k < n → cell.written k = none := by
  induction n with
  | zero => exact Or.inl ⟨fun _ hk => absurd hk (Nat.not_lt_zero _), rfl⟩
  | succ n ih =>
      have hnext := cell.next n
      cases hwritten : cell.written n with
      | some value =>
          right
          rw [hwritten] at hnext
          refine ⟨n, Nat.lt_succ_self n, hwritten.trans (congrArg some hnext.symm), ?_⟩
          intro k hlow hhigh
          exact absurd (Nat.le_of_lt_succ hhigh) (Nat.not_le_of_lt hlow)
      | none =>
          rw [hwritten] at hnext
          have hquiet : ∀ k < n + 1, ¬ k < n → cell.written k = none := by
            intro k hhigh hlast
            rw [Nat.eq_of_lt_succ_of_not_lt hhigh hlast, hwritten]
          rcases ih with ⟨hnone, hvalue⟩ | ⟨m, hm, hlast, hnone⟩
          · left
            refine ⟨fun k hk => ?_, hnext.trans hvalue⟩
            by_cases hearlier : k < n
            · exact hnone k hearlier
            · exact hquiet k hk hearlier
          · right
            refine ⟨m, Nat.lt_succ_of_lt hm, hlast.trans (congrArg some hnext.symm), ?_⟩
            intro k hlow hhigh
            by_cases hearlier : k < n
            · exact hnone k hlow hearlier
            · exact hquiet k hhigh hearlier

/-- A cell shows a value again and again if that is written again and again, or
if it was the last one that was written. -/
theorem frequently_value_iff (value : α) :
    (∃ᶠ n in atTop, cell.value n = value) ↔
      (∃ᶠ n in atTop, cell.written n = some value) ∨
        ∃ n, cell.value n = value ∧ ∀ m ≥ n, cell.written m = none := by
  constructor
  · intro hoften
    by_cases hquiet : ∃ n, ∀ m ≥ n, cell.written m = none
    · obtain ⟨start, hnone⟩ := hquiet
      obtain ⟨n, hn, hvalue⟩ := frequently_atTop.mp hoften start
      exact Or.inr ⟨n, hvalue, fun m hm => hnone m (hn.trans hm)⟩
    · left
      push Not at hquiet
      rw [frequently_atTop]
      intro start
      obtain ⟨k, hk, hwritten⟩ := hquiet start
      obtain ⟨n, hn, hvalue⟩ := frequently_atTop.mp hoften (k + 1)
      rcases cell.exists_last n with ⟨hnone, _⟩ | ⟨m, hm, hlast, hnone⟩
      · exact absurd (hnone k hn) hwritten
      · rw [hvalue] at hlast
        refine ⟨m, ?_, hlast⟩
        by_contra hearly
        exact hwritten (hnone k (by omega) hn)
  · rintro (hoften | ⟨n, hvalue, hnone⟩)
    · rw [frequently_atTop] at hoften ⊢
      intro start
      obtain ⟨n, hn, hwritten⟩ := hoften start
      refine ⟨n + 1, hn.trans (Nat.le_succ n), ?_⟩
      rw [cell.next, hwritten]
      rfl
    · rw [frequently_atTop]
      intro start
      refine ⟨max n start, le_max_right _ _, ?_⟩
      rw [cell.value_eq_of_unwritten (le_max_left n start) fun k hk _ => hnone k hk, hvalue]

/-- What step `n` writes is read in step `m`, before anything else is written. -/
structure Received (reads : ℕ → Prop) (n m : ℕ) : Prop where
  later : n < m
  reads : reads m
  unwritten : ∀ k, n < k → k < m → cell.written k = none

variable {cell} {reads : ℕ → Prop} {n m : ℕ}

/-- A reader that comes in time sees what was written. -/
theorem Received.value_eq (hreceived : cell.Received reads n m) {value : α}
    (hwritten : cell.written n = some value) : cell.value m = value := by
  rw [cell.value_eq_of_unwritten hreceived.later hreceived.unwritten, cell.next, hwritten]
  rfl

/-- The next writer comes after the reader, unless it is the reader. -/
theorem Received.lt_of_written (hreceived : cell.Received reads n m) {k : ℕ} (hlater : n < k)
    (hwritten : cell.written k ≠ none) (hother : ¬ reads k) : m < k := by
  rcases Nat.lt_trichotomy m k with hlt | rfl | hlt
  · exact hlt
  · exact absurd hreceived.reads hother
  · exact absurd (hreceived.unwritten k hlater hlt) hwritten

end Cell

end Clocked
