import Galaga.Clocked.Work
import Mathlib.Data.List.Flatten
import Mathlib.Data.List.Infix

/-! # Records of a program of calls

A party that performs a program of actions on its state, an action at a time
with any pauses, and an observer of the changes of that state. If every call of
the program leaves the state idle again and is observed as what it stands for,
the observer's record is the sequence of the calls.
-/

namespace Clocked

section Record

variable {σ α β γ : Type*} (apply : σ → α → σ) (observe : σ → σ → List β)

/-- What is observed of a list of actions, from a state on. -/
def record : σ → List α → List β
  | _, [] => []
  | s, action :: rest => observe s (apply s action) ++ record (apply s action) rest

variable {apply observe}

theorem record_append (s : σ) (first rest : List α) :
    record apply observe s (first ++ rest) =
      record apply observe s first ++ record apply observe (first.foldl apply s) rest := by
  induction first generalizing s with
  | nil => rfl
  | cons action first ih =>
      rw [List.cons_append, record, record, List.append_assoc, List.foldl_cons, ih]

section Calls

variable {idle : σ → Prop} {actions : γ → List α} {seen : γ → List β}
  (hidle : ∀ s call, idle s → idle ((actions call).foldl apply s))
include hidle

/-- A program of calls leaves the state idle. -/
theorem idle_foldl_flatMap {s : σ} (hs : idle s) (calls : List γ) :
    idle ((calls.flatMap actions).foldl apply s) := by
  induction calls generalizing s with
  | nil => exact hs
  | cons call calls ih =>
      rw [List.flatMap_cons, List.foldl_append]
      exact ih (hidle s call hs)

theorem record_flatMap
    (hseen : ∀ s call, idle s → record apply observe s (actions call) = seen call) {s : σ}
    (hs : idle s) (calls : List γ) :
    record apply observe s (calls.flatMap actions) = calls.flatMap seen := by
  induction calls generalizing s with
  | nil => rfl
  | cons call calls ih =>
      rw [List.flatMap_cons, List.flatMap_cons, record_append, hseen s call hs,
        ih (hidle s call hs)]

end Calls

/-- An action of a program belongs to one of its calls. -/
theorem exists_call_of_split {actions : γ → List α} {calls : List γ} {done rest : List α}
    {action : α} (hsplit : calls.flatMap actions = done ++ action :: rest) :
    ∃ before call later taken left, calls = before ++ call :: later ∧
      actions call = taken ++ action :: left ∧ done = before.flatMap actions ++ taken ∧
      rest = left ++ later.flatMap actions := by
  induction calls generalizing done with
  | nil => simp at hsplit
  | cons call calls ih =>
      rw [List.flatMap_cons, List.append_eq_append_iff] at hsplit
      rcases hsplit with ⟨more, rfl, hlater⟩ | ⟨left, hcall, hrest⟩
      · obtain ⟨before, other, later, taken, left, rfl, hother, rfl, rfl⟩ := ih hlater
        refine ⟨call :: before, other, later, taken, left, rfl, hother, ?_, rfl⟩
        rw [List.flatMap_cons, List.append_assoc]
      · cases left with
        | nil =>
            -- the action opens the next call
            obtain ⟨before, other, later, taken, left, rfl, hother, htaken, rfl⟩ :=
              ih (show calls.flatMap actions = [] ++ action :: rest from hrest.symm)
            refine ⟨call :: before, other, later, taken, left, rfl, hother, ?_, rfl⟩
            rw [List.flatMap_cons, List.append_assoc, ← htaken, hcall, List.append_nil,
              List.append_nil]
        | cons head left =>
            cases hrest
            exact ⟨[], call, calls, done, left, rfl, hcall, rfl, rfl⟩

end Record

/-- A program that is worked off in a run, with the state it acts on. -/
structure Performs {σ α : Type*} (apply : σ → α → σ) (state : ℕ → σ) (todo : ℕ → List α)
    (advance : ℕ → Bool) : Prop where
  rest : ∀ n, advance n = false → state (n + 1) = state n ∧ todo (n + 1) = todo n
  ended : ∀ n, todo n = [] → state (n + 1) = state n ∧ todo (n + 1) = []
  act : ∀ n action later, advance n = true → todo n = action :: later →
    state (n + 1) = apply (state n) action ∧ todo (n + 1) = later

namespace Performs

variable {σ α β : Type*} {apply : σ → α → σ} {state : ℕ → σ} {todo : ℕ → List α}
  {advance : ℕ → Bool} (hperforms : Performs apply state todo advance)
include hperforms

/-- A cycle performs the first action on the list, or none. -/
theorem step_cases (n : ℕ) :
    (state (n + 1) = state n ∧ todo (n + 1) = todo n) ∨
      (advance n = true ∧ ∃ action, todo n = action :: todo (n + 1) ∧
        state (n + 1) = apply (state n) action) := by
  cases hadvance : advance n with
  | false => exact Or.inl (hperforms.rest n hadvance)
  | true =>
      cases htodo : todo n with
      | nil =>
          obtain ⟨hstate, htodo'⟩ := hperforms.ended n htodo
          exact Or.inl ⟨hstate, htodo'⟩
      | cons action later =>
          obtain ⟨hstate, rfl⟩ := hperforms.act n action later hadvance htodo
          exact Or.inr ⟨rfl, action, rfl, hstate⟩

theorem todo_succ (n : ℕ) : todo (n + 1) = (todo n).drop (advance n).toNat := by
  cases hadvance : advance n with
  | false => exact (hperforms.rest n hadvance).2
  | true =>
      cases htodo : todo n with
      | nil => exact (hperforms.ended n htodo).2
      | cons action later => exact (hperforms.act n action later hadvance htodo).2

/-- What has been done so far, and what is observed of it. -/
theorem history {observe : σ → σ → List β} (hsame : ∀ s, observe s s = []) (n : ℕ) :
    ∃ done, todo 0 = done ++ todo n ∧ state n = done.foldl apply (state 0) ∧
      (List.range n).flatMap (fun k => observe (state k) (state (k + 1))) =
        record apply observe (state 0) done := by
  induction n with
  | zero => exact ⟨[], rfl, rfl, rfl⟩
  | succ n ih =>
      obtain ⟨done, htodo, hstate, hseen⟩ := ih
      rw [List.range_succ, List.flatMap_append, hseen, List.flatMap_singleton]
      rcases hperforms.step_cases n with ⟨hstate', htodo'⟩ | ⟨_, action, htodo', hstate'⟩
      · refine ⟨done, ?_, ?_, ?_⟩
        · rw [htodo', htodo]
        · rw [hstate', hstate]
        · rw [hstate', hsame, List.append_nil]
      · refine ⟨done ++ [action], ?_, ?_, ?_⟩
        · rw [htodo, htodo', List.append_assoc, List.singleton_append]
        · rw [hstate', hstate, List.foldl_append, List.foldl_cons, List.foldl_nil]
        · rw [record_append, ← hstate, record, record, List.append_nil, hstate']

end Performs

end Clocked
