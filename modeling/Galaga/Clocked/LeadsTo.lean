import Galaga.Clocked.Trace
import Mathlib.Order.Filter.AtTopBot.Basic

/-! # What happens again and again

Properties of the cycles of a run: one that is always followed by another, and
one that never comes to an end.
-/

namespace Clocked

open Filter

/-- A cycle with `p` is one with `q`, or has one with `q` after it. -/
def LeadsTo (p q : ℕ → Prop) : Prop := ∀ n, p n → ∃ m ≥ n, q m

namespace LeadsTo

variable {p q r : ℕ → Prop}

theorem of_imp (himp : ∀ n, p n → q n) : LeadsTo p q := fun n hp => ⟨n, le_rfl, himp n hp⟩

theorem trans (hfirst : LeadsTo p q) (hsecond : LeadsTo q r) : LeadsTo p r := by
  intro n hp
  obtain ⟨m, hm, hq⟩ := hfirst n hp
  obtain ⟨l, hl, hr⟩ := hsecond m hq
  exact ⟨l, hm.trans hl, hr⟩

theorem or (hleft : LeadsTo p r) (hright : LeadsTo q r) : LeadsTo (fun n => p n ∨ q n) r :=
  fun n hpq => hpq.elim (hleft n) (hright n)

/-- What waits for a turn that comes again and again does not wait in vain. -/
theorem of_turn {turn : ℕ → Prop} (hoften : ∃ᶠ n in atTop, turn n)
    (hstays : ∀ n, p n → ¬ turn n → p (n + 1)) (hmoves : ∀ n, p n → turn n → q (n + 1)) :
    LeadsTo p q := by
  intro n hp
  obtain ⟨m, hm, hturn⟩ := frequently_atTop.mp hoften n
  obtain ⟨first, hfrom, hfirst, hnone⟩ := exists_first turn hm hturn
  have hwaits : p first := by
    apply stretch_rule p hfrom hp
    intro k hlow hhigh hk
    exact hstays k hk (hnone k hlow hhigh)
  exact ⟨first + 1, by omega, hmoves first hwaits hfirst⟩

theorem frequently (hleads : LeadsTo p q) (hoften : ∃ᶠ n in atTop, p n) : ∃ᶠ n in atTop, q n := by
  rw [frequently_atTop] at hoften ⊢
  intro n
  obtain ⟨m, hm, hp⟩ := hoften n
  obtain ⟨l, hl, hq⟩ := hleads m hp
  exact ⟨l, hm.trans hl, hq⟩

end LeadsTo

/-- What comes again and again does not depend on where the count begins. -/
theorem frequently_add_iff (p : ℕ → Prop) (start : ℕ) :
    (∃ᶠ n in atTop, p n) ↔ ∃ᶠ k in atTop, p (start + k) := by
  conv_lhs => rw [← map_add_atTop_eq_nat start, frequently_map]
  simp only [Nat.add_comm]

/-- What comes again and again to one who goes through a sequence in his own time,
without leaving anything out and without an end, is what comes again and again in
the sequence. -/
theorem frequently_comp_iff (p : ℕ → Prop) {reached : ℕ → ℕ}
    (hnext : ∀ n, reached (n + 1) = reached n ∨ reached (n + 1) = reached n + 1)
    (hon : ∀ place, ∃ n, place ≤ reached n) :
    (∃ᶠ n in atTop, p (reached n)) ↔ ∃ᶠ place in atTop, p place := by
  have hmono : Monotone reached := by
    refine monotone_nat_of_le_succ fun n => ?_
    rcases hnext n with hsame | hmore <;> omega
  constructor
  · exact (tendsto_atTop_atTop_of_monotone hmono hon).frequently
  · intro hoften
    rw [frequently_atTop] at hoften ⊢
    intro start
    obtain ⟨place, hplace, hp⟩ := hoften (reached start + 1)
    obtain ⟨n, hn⟩ := hon place
    obtain ⟨first, _, hfirst, hbefore⟩ := exists_first (fun n => place ≤ reached n) n.zero_le hn
    have hlater : start < first := by
      by_contra hearly
      have hle := hmono (Nat.le_of_not_lt hearly)
      omega
    refine ⟨first, hlater.le, ?_⟩
    obtain ⟨last, rfl⟩ : ∃ last, first = last + 1 := ⟨first - 1, by omega⟩
    have hshort := hbefore last last.zero_le (Nat.lt_succ_self last)
    have hexact : reached (last + 1) = place := by
      rcases hnext last with hsame | hmore <;> omega
    rw [hexact]
    exact hp

/-- Between two properties that exclude each other and both come again and
again there is a change from one to the other again and again. -/
theorem frequently_change {p q : ℕ → Prop} (hp : ∃ᶠ n in atTop, p n) (hq : ∃ᶠ n in atTop, q n)
    (hexclude : ∀ n, p n → ¬ q n) : ∃ᶠ n in atTop, ¬ q n ∧ q (n + 1) := by
  rw [frequently_atTop] at hp hq ⊢
  intro n
  obtain ⟨m, hm, hpm⟩ := hp n
  obtain ⟨l, hl, hql⟩ := hq m
  obtain ⟨first, hfrom, hfirst, hnone⟩ := exists_first q hl hql
  have hlater : first ≠ m := by
    rintro rfl
    exact hexclude first hpm hfirst
  obtain ⟨before, rfl⟩ : ∃ before, first = before + 1 := ⟨first - 1, by omega⟩
  exact ⟨before, by omega, hnone before (by omega) (Nat.lt_succ_self before), hfirst⟩

/-- A system that climbs a bounded rank, unless it waits or comes to `p`, comes
to `p` again and again or waits forever. -/
theorem frequently_or_settles {σ : Type*} {state : ℕ → σ} {p : σ → Prop} (rank : σ → ℕ)
    {bound : ℕ} (hbound : ∀ n, rank (state n) ≤ bound)
    (hstep : ∀ n, p (state (n + 1)) ∨ rank (state n) < rank (state (n + 1)) ∨
      state (n + 1) = state n) :
    (∃ᶠ n in atTop, p (state n)) ∨ ∃ n, ∀ m ≥ n, state m = state n := by
  by_cases hoften : ∃ᶠ n in atTop, p (state n)
  · exact Or.inl hoften
  right
  rw [not_frequently, eventually_atTop] at hoften
  obtain ⟨start, hnever⟩ := hoften
  have hclimb : ∀ k, rank (state (start + k)) < rank (state (start + k + 1)) ∨
      state (start + k + 1) = state (start + k) := fun k =>
    (hstep (start + k)).resolve_left (hnever _ (by omega))
  have hmono : Monotone fun k => rank (state (start + k)) := by
    refine monotone_nat_of_le_succ fun k => ?_
    rcases hclimb k with hmore | hsame
    · exact hmore.le
    · exact (congrArg rank hsame).ge
  obtain ⟨final, k, hfinal⟩ := converges_of_monotone_of_bounded hmono fun k => hbound (start + k)
  refine ⟨start + k, fun m hm => ?_⟩
  -- from here on the rank has no room left
  induction m, hm using Nat.le_induction with
  | base => rfl
  | succ m hm ih =>
      obtain ⟨i, rfl⟩ := Nat.exists_eq_add_of_le (show start ≤ m by omega)
      rcases hclimb i with hmore | hsame
      · have hnow := hfinal i (by omega)
        have hnext := hfinal (i + 1) (by omega)
        rw [← Nat.add_assoc] at hnext
        omega
      · exact hsame.trans ih

/-- Any number of ticks comes, if ticks come again and again. -/
theorem Trace.exists_ticks {σ κ : Type*} {next : Bool → κ → σ → σ} (trace : Trace next)
    (hoften : ∃ᶠ n in atTop, trace.tick n = true) (start count : ℕ) :
    ∃ len, count ≤ trace.ticks start len := by
  induction count with
  | zero => exact ⟨0, Nat.zero_le _⟩
  | succ count ih =>
      obtain ⟨len, hcount⟩ := ih
      obtain ⟨n, hn, htick⟩ := frequently_atTop.mp hoften (start + len)
      obtain ⟨more, rfl⟩ := Nat.exists_eq_add_of_le hn
      refine ⟨len + more + 1, ?_⟩
      have hmono := trace.ticks_mono start (Nat.le_add_right len more)
      rw [trace.ticks_succ, ← Nat.add_assoc, htick, Bool.toNat_true]
      omega

end Clocked
