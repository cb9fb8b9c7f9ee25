import Mathlib.Data.Nat.Count
import Mathlib.Logic.Function.Iterate

/-! # Traces of a clocked system

A synchronous system whose registers see, in each clock cycle, an enable bit
and a key. Cycles with the enable bit are ticks. The rules here carry an
invariant along a trace, count the ticks of a stretch of it and collect the keys
they sample, and compare two traces that differ only in how long they wait
between ticks.
-/

namespace Clocked

/-- Induction over a stretch of cycles. -/
theorem stretch_rule (p : ℕ → Prop) {n m : ℕ} (hle : n ≤ m) (hbase : p n)
    (hnext : ∀ k, n ≤ k → k < m → p k → p (k + 1)) : p m := by
  induction m, hle using Nat.le_induction with
  | base => exact hbase
  | succ m hle ih =>
      apply hnext m hle (Nat.lt_succ_self m)
      exact ih fun k hlow hhigh => hnext k hlow (Nat.lt_succ_of_lt hhigh)

/-- The first cycle from `n` on with a property that some cycle from `n` on has. -/
theorem exists_first (p : ℕ → Prop) {n m : ℕ} (hle : n ≤ m) (hm : p m) :
    ∃ first ≥ n, p first ∧ ∀ k, n ≤ k → k < first → ¬ p k := by
  classical
  have hsome : ∃ k, n ≤ k ∧ p k := ⟨m, hle, hm⟩
  obtain ⟨hfrom, hfirst⟩ := Nat.find_spec hsome
  refine ⟨_, hfrom, hfirst, ?_⟩
  intro k hlow hhigh hk
  exact Nat.find_min hsome hhigh ⟨hlow, hk⟩

/-- The registers, the enable bit and the key in every cycle. -/
structure Trace {σ κ : Type*} (next : Bool → κ → σ → σ) where
  state : ℕ → σ
  tick : ℕ → Bool
  key : ℕ → κ
  step : ∀ n, state (n + 1) = next (tick n) (key n) (state n)

namespace Trace

variable {σ κ : Type*} {next : Bool → κ → σ → σ} (trace : Trace next)

/-- An invariant that a tick keeps only where a guard holds. Every cycle
without a tick establishes the guard, so it is enough that no tick follows a
tick. -/
theorem inv_and_guard {inv guard : σ → Prop}
    (halone : ∀ n, trace.tick n = true → trace.tick (n + 1) = false)
    (hinit : inv (trace.state 0) ∧ guard (trace.state 0))
    (hnext : ∀ tick key s, inv s → (tick = true → guard s) → inv (next tick key s))
    (hidle : ∀ key s, inv s → guard (next false key s)) (n : ℕ) :
    inv (trace.state n) ∧ (trace.tick n = true → guard (trace.state n)) := by
  induction n with
  | zero => exact ⟨hinit.1, fun _ => hinit.2⟩
  | succ n ih =>
      rw [trace.step]
      refine ⟨hnext _ _ _ ih.1 ih.2, fun htick => ?_⟩
      cases hbefore : trace.tick n with
      | true =>
          rw [halone n hbefore] at htick
          cases htick
      | false => exact hidle _ _ ih.1

section Counting

/-- The number of ticks in the `len` cycles from `start` on. -/
def ticks (start len : ℕ) : ℕ := Nat.count (fun i => trace.tick (start + i) = true) len

theorem ticks_succ (start len : ℕ) :
    trace.ticks start (len + 1) =
      trace.ticks start len + (trace.tick (start + len)).toNat := by
  rw [ticks, Nat.count_succ]
  cases trace.tick (start + len) <;> rfl

theorem ticks_mono (start : ℕ) {len later : ℕ} (hle : len ≤ later) :
    trace.ticks start len ≤ trace.ticks start later :=
  Nat.count_monotone _ hle

/-- Induction over a stretch of cycles with the number of its ticks. -/
theorem ticks_rule {start len : ℕ} (holds : ℕ → ℕ → Prop) (hbase : holds 0 0)
    (hnext : ∀ i < len, ∀ count, holds i count →
      holds (i + 1) (count + (trace.tick (start + i)).toNat)) :
    holds len (trace.ticks start len) := by
  induction len with
  | zero => exact hbase
  | succ len ih =>
      rw [ticks_succ]
      apply hnext len (Nat.lt_succ_self len)
      exact ih fun i hi => hnext i (Nat.lt_succ_of_lt hi)

/-- The last tick before a cycle that has ticks before it. -/
theorem exists_last_tick {n count : ℕ} (hcount : trace.ticks 0 n = count + 1) :
    ∃ m < n, trace.tick m = true ∧ trace.ticks 0 m = count ∧
      ∀ i, m < i → i < n → trace.tick i = false := by
  induction n with
  | zero => cases hcount
  | succ n ih =>
      rw [ticks_succ, Nat.zero_add] at hcount
      cases hlast : trace.tick n with
      | true =>
          rw [hlast] at hcount
          refine ⟨n, Nat.lt_succ_self n, hlast, Nat.succ_injective hcount, ?_⟩
          intro i hlow hhigh
          omega
      | false =>
          rw [hlast] at hcount
          obtain ⟨m, hm, htick, hbefore, hquiet⟩ := ih hcount
          refine ⟨m, Nat.lt_succ_of_lt hm, htick, hbefore, ?_⟩
          intro i hlow hhigh
          rcases Nat.lt_succ_iff_lt_or_eq.mp hhigh with hi | hi
          · exact hquiet i hlow hi
          · rw [hi, hlast]

theorem not_tick_of_ticks_eq_zero {n i : ℕ} (hcount : trace.ticks 0 n = 0) (hi : i < n) :
    trace.tick i = false := by
  rw [Bool.eq_false_iff]
  intro htick
  have hsucc := trace.ticks_succ 0 i
  have hmono := trace.ticks_mono 0 (Nat.succ_le_of_lt hi)
  rw [Nat.succ_eq_add_one, hsucc, hcount, Nat.zero_add, htick] at hmono
  simp at hmono

theorem ticks_eq_of_idle {n m : ℕ} (hle : n ≤ m)
    (hidle : ∀ i, n ≤ i → i < m → trace.tick i = false) :
    trace.ticks 0 m = trace.ticks 0 n := by
  refine le_antisymm (not_lt.mp fun hmore => ?_) (trace.ticks_mono 0 hle)
  obtain ⟨i, ⟨hlow, hhigh⟩, htick⟩ := Nat.exists_of_count_lt_count hmore
  rw [Nat.zero_add, hidle i hlow hhigh] at htick
  cases htick

/-- The first tick after a cycle that has ticks after it. -/
theorem exists_next_tick {m n : ℕ} (hlt : m < n) (htick : trace.tick n = true) :
    ∃ later > m, trace.tick later = true ∧ ∀ i, m < i → i < later → trace.tick i = false := by
  obtain ⟨later, hafter, hfound, hnone⟩ :=
    exists_first (fun i => trace.tick i = true) (Nat.succ_le_of_lt hlt) htick
  refine ⟨later, hafter, hfound, ?_⟩
  intro i hlow hhigh
  exact Bool.eq_false_iff.mpr (hnone i hlow hhigh)

end Counting

section Resting

variable (hrest : ∀ key s, next false key s = s)
include hrest

/-- If nothing moves between ticks, a stretch without ticks is a single state. -/
theorem state_eq_of_idle {m n : ℕ} (hle : m ≤ n)
    (hidle : ∀ i, m ≤ i → i < n → trace.tick i = false) : trace.state n = trace.state m := by
  apply stretch_rule (fun i => trace.state i = trace.state m) hle rfl
  intro i hlow hhigh hsame
  rw [trace.step, hidle i hlow hhigh, hrest, hsame]

end Resting

section Sampling

/-- The keys that the ticks of the first cycles sample, in order. -/
def sampled : ℕ → List κ
  | 0 => []
  | n + 1 => if trace.tick n then sampled n ++ [trace.key n] else sampled n

theorem sampled_succ_of_tick {n : ℕ} (htick : trace.tick n = true) :
    trace.sampled (n + 1) = trace.sampled n ++ [trace.key n] :=
  if_pos htick

theorem sampled_succ_of_idle {n : ℕ} (hidle : trace.tick n = false) :
    trace.sampled (n + 1) = trace.sampled n :=
  if_neg (by rw [hidle]; exact Bool.false_ne_true)

/-- If nothing moves between ticks, an invariant of the state and of the keys
sampled so far is kept by the ticks alone. -/
theorem sampled_rule (holds : List κ → σ → Prop) (hrest : ∀ key s, next false key s = s)
    (hbase : holds [] (trace.state 0)) {n : ℕ}
    (hnext : ∀ m < n, trace.tick m = true → holds (trace.sampled m) (trace.state m) →
      holds (trace.sampled m ++ [trace.key m]) (next true (trace.key m) (trace.state m))) :
    holds (trace.sampled n) (trace.state n) := by
  induction n with
  | zero => exact hbase
  | succ n ih =>
      have hbefore := ih fun m hm => hnext m (Nat.lt_succ_of_lt hm)
      rw [trace.step]
      cases htick : trace.tick n with
      | true =>
          rw [trace.sampled_succ_of_tick htick]
          exact hnext n (Nat.lt_succ_self n) htick hbefore
      | false =>
          rw [trace.sampled_succ_of_idle htick, hrest]
          exact hbefore

end Sampling

section Exit

variable (inside : σ → Prop) (holds : ℕ → σ → Prop) {bound start : ℕ}

/-- What is kept inside a region, together with the number of ticks since it
was entered. -/
theorem holds_of_stretch (hbase : holds 0 (trace.state start))
    (hstep : ∀ n count, inside (trace.state n) → inside (trace.state (n + 1)) →
      holds count (trace.state n) →
      holds (count + (trace.tick n).toNat) (trace.state (n + 1)))
    {len : ℕ} (hinside : ∀ i ≤ len, inside (trace.state (start + i))) :
    holds (trace.ticks start len) (trace.state (start + len)) := by
  apply trace.ticks_rule (fun i count => holds count (trace.state (start + i))) hbase
  intro i hi count hcount
  exact hstep (start + i) count (hinside i hi.le) (hinside (i + 1) hi) hcount

/-- If that bounds the number of ticks, the region is left in time. -/
theorem exists_exit (hbase : holds 0 (trace.state start)) (hstart : inside (trace.state start))
    (hstep : ∀ n count, inside (trace.state n) → inside (trace.state (n + 1)) →
      holds count (trace.state n) →
      holds (count + (trace.tick n).toNat) (trace.state (n + 1)))
    (hbound : ∀ count s, holds count s → count ≤ bound) {len : ℕ}
    (hmany : bound + 1 < trace.ticks start len) :
    ∃ i < len, (∀ j ≤ i, inside (trace.state (start + j))) ∧
      ¬ inside (trace.state (start + i + 1)) ∧ trace.ticks start (i + 1) ≤ bound + 1 := by
  have hstretch : ∀ m, (∀ j ≤ m, inside (trace.state (start + j))) →
      trace.ticks start (m + 1) ≤ bound + 1 := by
    intro m hinside
    have hticks := hbound _ _ (trace.holds_of_stretch inside holds hbase hstep hinside)
    have hlast := Bool.toNat_le (trace.tick (start + m))
    rw [ticks_succ]
    omega
  have hleft : ∃ j, ¬ inside (trace.state (start + j)) := by
    by_contra hstays
    push Not at hstays
    have hticks := hstretch len fun j _ => hstays j
    have hmono := trace.ticks_mono start (Nat.le_add_right len 1)
    omega
  classical
  -- the first cycle outside
  obtain ⟨i, hi⟩ : ∃ i, Nat.find hleft = i + 1 := by
    refine Nat.exists_eq_succ_of_ne_zero fun hzero => ?_
    have hout := Nat.find_spec hleft
    rw [hzero] at hout
    exact hout hstart
  have hinside : ∀ j ≤ i, inside (trace.state (start + j)) := by
    intro j hj
    exact not_not.mp (Nat.find_min hleft (by omega))
  refine ⟨i, ?_, hinside, ?_, hstretch i hinside⟩
  · by_contra hlong
    have hmono := trace.ticks_mono start (show len ≤ i + 1 by omega)
    have hticks := hstretch i hinside
    omega
  · have hout := Nat.find_spec hleft
    rw [hi] at hout
    exact hout

end Exit

section Settling

/-- Without ticks and with a constant key the idle step is iterated. -/
theorem state_add_of_idle {n len : ℕ} {key : κ}
    (hidle : ∀ i < len, trace.tick (n + i) = false)
    (hkey : ∀ i < len, trace.key (n + i) = key) :
    trace.state (n + len) = (next false key)^[len] (trace.state n) := by
  induction len with
  | zero => rfl
  | succ len ih =>
      rw [Function.iterate_succ_apply', ← Nat.add_assoc, trace.step,
        hidle len (Nat.lt_succ_self len), hkey len (Nat.lt_succ_self len)]
      rw [ih (fun i hi => hidle i (Nat.lt_succ_of_lt hi))
        fun i hi => hkey i (Nat.lt_succ_of_lt hi)]

/-- With this key the idle step comes to rest within `len` cycles. -/
def RestsIn (next : Bool → κ → σ → σ) (key : κ) (len : ℕ) (s : σ) : Prop :=
  next false key ((next false key)^[len] s) = (next false key)^[len] s

/-- With any key. -/
def SettlesIn (next : Bool → κ → σ → σ) (len : ℕ) (s : σ) : Prop :=
  ∀ key, RestsIn next key len s

theorem RestsIn.iterate {key : κ} {len : ℕ} {s : σ} (hrests : RestsIn next key len s)
    (more : ℕ) : (next false key)^[len + more] s = (next false key)^[len] s := by
  rw [Nat.add_comm, Function.iterate_add_apply]
  exact Function.iterate_fixed hrests more

theorem RestsIn.mono {key : κ} {len later : ℕ} {s : σ} (hrests : RestsIn next key len s)
    (hle : len ≤ later) : RestsIn next key later s := by
  obtain ⟨more, rfl⟩ := Nat.exists_eq_add_of_le hle
  rw [RestsIn, hrests.iterate more]
  exact hrests

/-- One cycle more, spent before coming to rest. -/
theorem RestsIn.after {key : κ} {len : ℕ} {s : σ}
    (hrests : RestsIn next key len (next false key s)) :
    RestsIn next key (len + 1) s := by
  rw [RestsIn, Function.iterate_succ_apply]
  exact hrests

section Keyed

variable {key : ℕ → κ} (hkey : ∀ n, trace.key n = key (trace.ticks 0 n))
include hkey

/-- Up to the first tick only the first key is seen. -/
theorem state_of_first_stretch {n : ℕ} (hcount : trace.ticks 0 n = 0) :
    trace.state n = (next false (key 0))^[n] (trace.state 0) := by
  have hidle : ∀ i < n, trace.tick (0 + i) = false := by
    intro i hi
    rw [Nat.zero_add]
    exact trace.not_tick_of_ticks_eq_zero hcount hi
  rw [← trace.state_add_of_idle hidle, Nat.zero_add]
  intro i hi
  have hbefore := trace.ticks_mono 0 hi.le
  rw [Nat.zero_add, hkey, Nat.le_zero.mp (hbefore.trans hcount.le)]

/-- From one tick to the next only one key is seen. -/
theorem state_of_stretch {m n count gap : ℕ} (hcount : trace.ticks 0 n = count)
    (hidle : ∀ i, m < i → i < n → trace.tick i = false) (hroom : m + 1 + gap ≤ n) :
    ∃ more, trace.state n = (next false (key count))^[gap + more] (trace.state (m + 1)) := by
  obtain ⟨more, rfl⟩ := Nat.exists_eq_add_of_le hroom
  refine ⟨more, ?_⟩
  rw [Nat.add_assoc]
  apply trace.state_add_of_idle
  · exact fun i hi => hidle _ (by omega) (by omega)
  · intro i hi
    rw [hkey, ← hcount]
    congr 1
    refine (trace.ticks_eq_of_idle (by omega) fun j hlow hhigh => ?_).symm
    exact hidle j (by omega) hhigh

end Keyed

/-- Two traces with the same first key meet at their first ticks, once the idle
step has come to rest. -/
theorem eq_at_first_ticks (trace other : Trace next) {key : ℕ → κ}
    (hkey : ∀ n, trace.key n = key (trace.ticks 0 n))
    (hkey' : ∀ n, other.key n = key (other.ticks 0 n))
    (hinit : trace.state 0 = other.state 0) (htick : trace.tick 0 = other.tick 0)
    (hfirst : SettlesIn next 1 (trace.state 0)) {n n' : ℕ} (hn : trace.tick n = true)
    (hn' : other.tick n' = true) (hcount : trace.ticks 0 n = 0) (hcount' : other.ticks 0 n' = 0) :
    trace.state n = other.state n' := by
  rw [trace.state_of_first_stretch hkey hcount, other.state_of_first_stretch hkey' hcount', ← hinit]
  -- either the first cycle is the first tick of both, or of neither
  cases n with
  | zero =>
      cases n' with
      | zero => rfl
      | succ n' =>
          have hnone := other.not_tick_of_ticks_eq_zero hcount' (Nat.succ_pos n')
          rw [← htick, hn] at hnone
          cases hnone
  | succ n =>
      cases n' with
      | zero =>
          have hnone := trace.not_tick_of_ticks_eq_zero hcount (Nat.succ_pos n)
          rw [htick, hn'] at hnone
          cases hnone
      | succ n' => rw [Nat.add_comm n, Nat.add_comm n', (hfirst _).iterate, (hfirst _).iterate]

/-- A system that is given the same key for each of its ticks and time to
settle after each of them is in the same state at the same tick, however long
it waits. -/
theorem eq_at_ticks (trace other : Trace next) {key : ℕ → κ} (gap : ℕ)
    (hkey : ∀ n, trace.key n = key (trace.ticks 0 n))
    (hkey' : ∀ n, other.key n = key (other.ticks 0 n))
    (hinit : trace.state 0 = other.state 0) (htick : trace.tick 0 = other.tick 0)
    (hfirst : SettlesIn next 1 (trace.state 0))
    (hlater : ∀ n, trace.tick n = true → SettlesIn next gap (trace.state (n + 1)))
    (hgap : ∀ m n, m < n → trace.tick m = true → trace.tick n = true → m + 1 + gap ≤ n)
    (hgap' : ∀ m n, m < n → other.tick m = true → other.tick n = true → m + 1 + gap ≤ n)
    {n n' : ℕ} (hn : trace.tick n = true) (hn' : other.tick n' = true)
    (hsame : trace.ticks 0 n = other.ticks 0 n') : trace.state n = other.state n' := by
  -- by induction on the number of ticks before the two cycles
  generalize hcount : trace.ticks 0 n = count at hsame
  induction count generalizing n n' with
  | zero =>
      exact trace.eq_at_first_ticks other hkey hkey' hinit htick hfirst hn hn' hcount hsame.symm
  | succ count ih =>
      obtain ⟨m, hm, hmtick, hmcount, hmidle⟩ := trace.exists_last_tick hcount
      obtain ⟨m', hm', hmtick', hmcount', hmidle'⟩ := other.exists_last_tick hsame.symm
      have hbefore := ih hmtick hmtick' hmcount hmcount'.symm
      have hstart : trace.state (m + 1) = other.state (m' + 1) := by
        rw [trace.step, other.step, hmtick, hmtick', hkey, hkey', hmcount, hmcount', hbefore]
      obtain ⟨more, hstate⟩ :=
        trace.state_of_stretch hkey hcount hmidle (hgap m n hm hmtick hn)
      obtain ⟨more', hstate'⟩ :=
        other.state_of_stretch hkey' hsame.symm hmidle' (hgap' m' n' hm' hmtick' hn')
      have hrests := hlater m hmtick (key (count + 1))
      rw [hstate, hstate', ← hstart, hrests.iterate, hrests.iterate]

end Settling

end Trace

end Clocked
