import Galaga.Clocked.Trace
import Mathlib.Tactic.ByContra

/-! # Lists of work

A party that works off a list, one item in each of its own steps, while other
steps go on around it. What it takes up when the list is done is left open.
-/

namespace Clocked

variable {α : Type*} {todo : ℕ → List α} {advance : ℕ → Bool}

/-- The list is worked off from its head, as long as it has items left. -/
structure Works (todo : ℕ → List α) (advance : ℕ → Bool) : Prop where
  stall : ∀ n, advance n = false → todo (n + 1) = todo n
  pop : ∀ n head rest, advance n = true → todo n = head :: rest → rest ≠ [] → todo (n + 1) = rest

namespace Works

variable (hworks : Works todo advance)
include hworks

/-- An item stays on the list until its turn comes. -/
theorem mem_succ {n : ℕ} {item : α} (hmem : item ∈ todo n)
    (hturn : advance n = true → (todo n).head? ≠ some item) : item ∈ todo (n + 1) := by
  cases hadvance : advance n with
  | false =>
      rw [hworks.stall n hadvance]
      exact hmem
  | true =>
      cases hcase : todo n with
      | nil =>
          rw [hcase] at hmem
          cases hmem
      | cons head rest =>
          rw [hcase] at hmem
          rcases List.mem_cons.mp hmem with rfl | hlater
          · refine absurd ?_ (hturn hadvance)
            rw [hcase]
            rfl
          · rw [hworks.pop n head rest hadvance hcase (List.ne_nil_of_mem hlater)]
            exact hlater

/-- Everything on a list gets its turn, if the list is worked off in the end. -/
theorem exists_turn_of_done {item : α} (hmem : item ∈ todo 0) {last : ℕ}
    (hend : todo last = []) : ∃ n, advance n = true ∧ (todo n).head? = some item := by
  by_contra hnever
  have hstays : ∀ n, item ∈ todo n := by
    intro n
    induction n with
    | zero => exact hmem
    | succ n ih => exact hworks.mem_succ ih fun hadvance hturn => hnever ⟨n, hadvance, hturn⟩
  have hleft := hstays last
  rw [hend] at hleft
  cases hleft

theorem todo_eq_of_stalled {n m : ℕ} (hle : n ≤ m)
    (hstalled : ∀ k, n ≤ k → k < m → advance k = false) : todo m = todo n := by
  apply stretch_rule (fun k => todo k = todo n) hle rfl
  intro k hlow hhigh hsame
  rw [hworks.stall k (hstalled k hlow hhigh), hsame]

/-- Everything on a list gets its turn, if the party never stops taking steps. -/
theorem exists_turn_of_fair (hfair : ∀ n, ∃ m ≥ n, advance m = true) {n : ℕ} {item : α}
    (hmem : item ∈ todo n) :
    ∃ m ≥ n, advance m = true ∧ (todo m).head? = some item := by
  induction hlist : todo n generalizing n with
  | nil =>
      rw [hlist] at hmem
      cases hmem
  | cons head rest ih =>
      obtain ⟨_, hsome, hstep⟩ := hfair n
      obtain ⟨turn, hle, hadvance, hnone⟩ :=
        exists_first (fun m => advance m = true) hsome hstep
      have hhere : todo turn = head :: rest := by
        rw [← hlist]
        apply hworks.todo_eq_of_stalled hle
        intro k hlow hhigh
        exact Bool.eq_false_iff.mpr (hnone k hlow hhigh)
      rw [hlist] at hmem
      rcases List.mem_cons.mp hmem with rfl | hlater
      · refine ⟨_, hle, hadvance, ?_⟩
        rw [hhere]
        rfl
      · have hpop := hworks.pop _ head rest hadvance hhere (List.ne_nil_of_mem hlater)
        have hstill := hlater
        rw [← hpop] at hstill
        obtain ⟨m, hm, hturn⟩ := ih hstill hpop
        exact ⟨m, Nat.le_trans hle (Nat.le_of_succ_le hm), hturn⟩

end Works

end Clocked
