import Galaga.Game.Scripted
import Mathlib.Data.List.GetD
import Mathlib.Data.Nat.ModEq

/-! # The pace of the frames

A game left alone settles, so two runs that get the same key for every frame
agree at every tick, however long the frames are. The first two sections build
runs at a given pace, and a run whose clock stops while a ship is being hit.
-/

namespace Galaga

open Clocked.Trace

namespace Run

open Galaga.Core

section Paced

variable (gap : ℕ) (key : ℕ → Keycode)

/-- A frame every `gap` cycles, from cycle 1 on, and a key for each of them. -/
def paced : Run := .ofInputs (fun n => n % gap == 0) fun n => key ((n + gap - 2) / gap)

variable {gap} (hgap : 2 ≤ gap)
include hgap

theorem succ_mod_eq_one_iff (n : ℕ) : (n + 1) % gap = 1 ↔ n % gap = 0 := by
  have hone : 1 % gap = 1 := Nat.mod_eq_of_lt hgap
  constructor
  · intro hmod
    have hsame : n + 1 ≡ 0 + 1 [MOD gap] := by rw [Nat.ModEq, hmod, Nat.zero_add, hone]
    have hzero : n % gap = 0 % gap := hsame.add_right_cancel' 1
    rw [hzero, Nat.zero_mod]
  · intro hmod
    rw [Nat.add_mod, hmod, Nat.zero_add, Nat.mod_mod, hone]

theorem paced_tick (n : ℕ) : (paced gap key).tick n = (n % gap == 1) := by
  match n with
  | 0 =>
      rw [Nat.zero_mod]
      rfl
  | 1 =>
      have hfirst : (paced gap key).tick 1 = (0 % gap == 0 && true) := rfl
      rw [hfirst, Nat.zero_mod, Nat.mod_eq_of_lt hgap]
      rfl
  | n + 2 =>
      rw [tick_add_two]
      change ((n + 1) % gap == 0 && !(n % gap == 0)) = _
      rw [Bool.eq_iff_iff]
      simp only [Bool.and_eq_true, beq_iff_eq, Bool.not_eq_true', beq_eq_false_iff_ne]
      rw [succ_mod_eq_one_iff hgap (n + 1), and_iff_left_iff_imp]
      intro hrises hbefore
      rw [← succ_mod_eq_one_iff hgap n, hrises] at hbefore
      cases hbefore

/-- The number of the frame is the number of ticks before it. -/
theorem paced_ticks (n : ℕ) : (paced gap key).trace.ticks 0 n = (n + gap - 2) / gap := by
  induction n with
  | zero =>
      have hsmall : 0 + gap - 2 < gap := by omega
      rw [Nat.div_eq_of_lt hsmall]
      rfl
  | succ n ih =>
      have htick : (paced gap key).trace.tick (0 + n) = (n % gap == 1) := by
        rw [Nat.zero_add]
        exact paced_tick key hgap n
      have hnext : n + 1 + gap - 2 = n + gap - 2 + 1 := by omega
      have hrises := succ_mod_eq_one_iff hgap (n + gap - 2 + 1)
      rw [show n + gap - 2 + 1 + 1 = n + gap by omega, Nat.add_mod_right,
        ← Nat.dvd_iff_mod_eq_zero] at hrises
      rw [(paced gap key).trace.ticks_succ, ih, htick, hnext, Nat.succ_div]
      by_cases hlast : n % gap = 1
      · rw [if_pos (hrises.mp hlast), hlast]
        rfl
      · rw [if_neg fun hdvd => hlast (hrises.mpr hdvd), beq_eq_false_iff_ne.mpr hlast]
        rfl

/-- The keys go by frames. -/
theorem paced_keycode (n : ℕ) :
    (paced gap key).keycode n = key ((paced gap key).trace.ticks 0 n) := by
  rw [paced_ticks key hgap]
  rfl

theorem paced_apart {m n : ℕ} (hlt : m < n) (hm : (paced gap key).tick m = true)
    (hn : (paced gap key).tick n = true) : m + gap ≤ n := by
  rw [paced_tick key hgap, beq_iff_eq] at hm hn
  have hsame : m ≡ n [MOD gap] := hm.trans hn.symm
  exact hsame.add_le_of_lt hlt

end Paced

/-- Enter, and then the first shot. -/
def shotKey (frame : ℕ) : Keycode := (keyEnter :: firstShot).getD frame 0#8

section Halted

/-- The clock stops with the tick on which the first shot reaches its ship. -/
def halted : Run := .ofInputs (fun n => n < 257 && n % 4 == 0) (scriptKey firstShot)

/-- What a run does depends only on the inputs it has had. -/
theorem ofInputs_state_congr {frameClk frameClk' : ℕ → Bool} {keycode keycode' : ℕ → Keycode}
    {n : ℕ} (hclk : ∀ m < n, frameClk m = frameClk' m)
    (hkey : ∀ m < n, keycode m = keycode' m) :
    (Run.ofInputs frameClk keycode).state n = (Run.ofInputs frameClk' keycode').state n := by
  induction n with
  | zero => rfl
  | succ n ih =>
      have hstate := ih (fun m hm => hclk m (Nat.lt_succ_of_lt hm))
        fun m hm => hkey m (Nat.lt_succ_of_lt hm)
      rw [Run.next, Run.next, hstate]
      change Game.step ⟨false, frameClk n, keycode n⟩ _ =
        Game.step ⟨false, frameClk' n, keycode' n⟩ _
      rw [hclk n (Nat.lt_succ_self n), hkey n (Nat.lt_succ_self n)]

theorem halted_core {n : ℕ} (hn : n < 260) : halted.core n = (scripted firstShot).core n := by
  have hstate : halted.state n = (scripted firstShot).state n := by
    refine ofInputs_state_congr (fun m hm => ?_) fun _ _ => rfl
    rw [Bool.eq_iff_iff]
    simp only [Bool.and_eq_true, decide_eq_true_eq, beq_iff_eq]
    omega
  exact congrArg Game.core hstate

theorem halted_keycode {n : ℕ} (hn : 256 ≤ n) : halted.keycode n = 0#8 := by
  obtain ⟨later, rfl⟩ := Nat.exists_eq_add_of_le hn
  rw [show 256 + later = 255 + later + 1 by omega]
  change firstShot.getD ((255 + later) / 4) 0#8 = 0#8
  rw [show (255 + later) / 4 = (251 + later) / 4 + 1 by omega, firstShot, List.getD_cons_succ,
    List.getD_eq_getElem?_getD, List.getElem?_getD_replicate_default_eq]

theorem halted_hit : (halted.core 258).laserHit = true := by
  rw [halted_core (by omega), scripted_firstHit]
  exact laserHit_firstHit

end Halted

/-- The game settles between two ticks, and only the key of each frame
matters. -/
theorem settles_between_ticks :
    (∀ (run : Run) (n : ℕ), (∀ m ≥ n, run.keycode m = run.keycode n) →
      (∀ m ≥ n, ¬ (run.frameClk m = false ∧ run.frameClk (m + 1) = true)) →
      ∀ k, run.core (n + 8 + k) = run.core (n + 8)) ∧
    (∀ (run other : Run) (key : ℕ → Keycode), run.state 0 = other.state 0 →
      (∀ n, run.keycode n = key (run.trace.ticks 0 n)) →
      (∀ n, other.keycode n = key (other.trace.ticks 0 n)) →
      (∀ m n, m < n → run.tick m = true → run.tick n = true → m + 8 ≤ n) →
      (∀ m n, m < n → other.tick m = true → other.tick n = true → m + 8 ≤ n) →
      ∀ n n', run.tick n = true → other.tick n' = true →
        run.trace.ticks 0 n = other.trace.ticks 0 n' → run.core n = other.core n') := by
  refine ⟨fun run n hkey hclk k => run.at_rest_after_eight hkey hclk k, ?_⟩
  intro run other key hinit hkey hkey' hapart hapart' n n' hn hn' hsame
  refine eq_at_ticks run.trace other.trace 7 hkey hkey' ?_ ?_ ?_ ?_ hapart hapart' hn hn' hsame
  · exact congrArg Game.core hinit
  · exact congrArg Game.tick hinit
  · change SettlesIn Core.next 1 (run.core 0)
    rw [run.core_zero]
    exact settles_reset
  · intro m _ keycode
    exact ((run.inv (m + 1)).settles_in_six keycode).mono (by omega)

/-- The first shot at a ship, with the clock stopped, and with frames of eight
cycles and of a whole screen. -/
theorem settles_between_ticks_paced :
    ((halted.core 258).laserHit = true ∧ halted.core 1264 = halted.core 264) ∧
      (paced 8 shotKey).core 801 = (paced 840000 shotKey).core 84000001 := by
  obtain ⟨hrests, hagree⟩ := settles_between_ticks
  refine ⟨⟨halted_hit, hrests halted 256 ?_ ?_ 1000⟩, ?_⟩
  · intro m hm
    exact (halted_keycode hm).trans (halted_keycode le_rfl).symm
  · rintro m hm ⟨_, hrises⟩
    have hearly : m + 1 < 257 := by
      change (decide (m + 1 < 257) && (m + 1) % 4 == 0) = true at hrises
      rw [Bool.and_eq_true, decide_eq_true_eq] at hrises
      exact hrises.1
    omega
  · apply hagree (paced 8 shotKey) (paced 840000 shotKey) shotKey rfl
    · exact paced_keycode shotKey (by omega)
    · exact paced_keycode shotKey (by omega)
    · exact fun m n hlt hm hn => paced_apart shotKey (by omega) hlt hm hn
    · intro m n hlt hm hn
      have hapart := paced_apart shotKey (by omega) hlt hm hn
      omega
    · rw [paced_tick shotKey (by omega)]
      rfl
    · rw [paced_tick shotKey (by omega)]
      rfl
    · rw [paced_ticks shotKey (by omega), paced_ticks shotKey (by omega)]

end Run

end Galaga
