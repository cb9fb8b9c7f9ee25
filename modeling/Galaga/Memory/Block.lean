import Mathlib.Data.Nat.Notation
import Mathlib.Logic.Function.Basic

/-! # Blocks and linked lists in a memory

A memory is a function from addresses to words. A block is a list of words
stored at the addresses of a sequence; a linked list is followed from node to
node up to an end mark. A party that writes a memory may be interfered with by
another one, which keeps to words of its own.
-/

namespace Memory

section Block

variable {Address Word : Type*} [DecidableEq Address]

/-- The words, stored one after another at the addresses of a sequence. -/
def store (memory : Address → Word) (address : ℕ → Address) : List Word → Address → Word
  | [] => memory
  | word :: words =>
      store (Function.update memory (address 0) word) (fun i => address (i + 1)) words

variable {memory : Address → Word} {address : ℕ → Address} {words : List Word}

/-- A store leaves the words outside of the block alone. -/
theorem store_of_outside {other : Address} (hother : ∀ i < words.length, other ≠ address i) :
    store memory address words other = memory other := by
  induction words generalizing memory address with
  | nil => rfl
  | cons word words ih =>
      have hrest : ∀ i < words.length, other ≠ address (i + 1) :=
        fun i hi => hother (i + 1) (Nat.succ_lt_succ hi)
      rw [store, ih hrest, Function.update_of_ne (hother 0 (Nat.succ_pos _))]

/-- A block at addresses that differ can be read back. -/
theorem store_getElem
    (hinjective : ∀ i j, i < words.length → j < words.length → address i = address j → i = j)
    {i : ℕ} (hi : i < words.length) : store memory address words (address i) = words[i] := by
  induction words generalizing memory address i with
  | nil => cases hi
  | cons word words ih =>
      have hrest : ∀ i j, i < words.length → j < words.length →
          address (i + 1) = address (j + 1) → i = j := by
        intro i j hi hj heq
        exact Nat.succ.inj
          (hinjective (i + 1) (j + 1) (Nat.succ_lt_succ hi) (Nat.succ_lt_succ hj) heq)
      cases i with
      | zero =>
          rw [store, store_of_outside, Function.update_self]
          · rfl
          · intro j hj heq
            have hzero := hinjective 0 (j + 1) (Nat.succ_pos _) (Nat.succ_lt_succ hj) heq
            cases hzero
      | succ i => exact ih hrest (Nat.lt_of_succ_lt_succ hi)

end Block

section List

variable {Address Node : Type*} [DecidableEq Address] (node : Address → Node)
  (next : Node → Address) (stop : Address)

/-- The nodes of a linked list with their addresses, if it ends within a number
of nodes. -/
def follow : ℕ → Address → Option (List (Address × Node))
  | 0, address => if address = stop then some [] else none
  | fuel + 1, address =>
      if address = stop then some []
      else (follow fuel (next (node address))).map ((address, node address) :: ·)

variable {node next stop}

/-- A list of one node. -/
theorem follow_single {fuel : ℕ} {address : Address} (hmore : address ≠ stop)
    (hlast : next (node address) = stop) :
    follow node next stop (fuel + 1) address = some [(address, node address)] := by
  have hstop : follow node next stop fuel stop = some [] := by
    cases fuel <;> exact if_pos rfl
  rw [follow, if_neg hmore, hlast, hstop]
  rfl

/-- A list depends on its own nodes only. -/
theorem follow_congr {other : Address → Node} {fuel : ℕ} {address : Address}
    {nodes : List (Address × Node)} (hfollow : follow other next stop fuel address = some nodes)
    (hsame : ∀ entry ∈ nodes, node entry.1 = other entry.1) :
    follow node next stop fuel address = some nodes := by
  induction fuel generalizing address nodes with
  | zero => exact hfollow
  | succ fuel ih =>
      rw [follow] at hfollow ⊢
      split at hfollow
      next hstop =>
        rw [if_pos hstop]
        exact hfollow
      next hmore =>
        rw [if_neg hmore]
        rw [Option.map_eq_some_iff] at hfollow
        obtain ⟨rest, hrest, rfl⟩ := hfollow
        have hhead := hsame (address, other address) List.mem_cons_self
        rw [hhead, ih hrest fun entry hentry => hsame entry (List.mem_cons_of_mem _ hentry)]
        rfl

end List

section Interference

variable {σ Call : Type*} (access : Call → σ → σ) (environment : σ → σ → Prop)

/-- The calls of a program, with steps of the environment before, between and
after them. -/
inductive Interleaved : List Call → σ → σ → Prop
  | done {s} : Interleaved [] s s
  | access {call calls s later} (hrest : Interleaved calls (access call s) later) :
      Interleaved (call :: calls) s later
  | interfere {calls s s' later} (hstep : environment s s') (hrest : Interleaved calls s' later) :
      Interleaved calls s later

variable {access environment}

/-- A program may run without interference. -/
theorem Interleaved.alone (calls : List Call) (s : σ) :
    Interleaved access environment calls s (calls.foldl (fun t call => access call t) s) := by
  induction calls generalizing s with
  | nil => exact .done
  | cons call calls ih => exact .access (ih (access call s))

/-- What the calls preserve and the environment does not break relates the run
with interference to the run without it. -/
theorem Interleaved.rule (agrees : σ → σ → Prop)
    (haccess : ∀ call s t, agrees s t → agrees (access call s) (access call t))
    (hstep : ∀ s s' t, environment s s' → agrees s t → agrees s' t) {calls : List Call}
    {s later t : σ} (hruns : Interleaved access environment calls s later) (hagrees : agrees s t) :
    agrees later (calls.foldl (fun t call => access call t) t) := by
  induction hruns generalizing t with
  | done => exact hagrees
  | access _ ih => exact ih (haccess _ _ _ hagrees)
  | interfere hstep' _ ih => exact ih (hstep _ _ _ hstep' hagrees)

end Interference

end Memory
