import Galaga.Clocked.LeadsTo
import Galaga.Game.Endgame
import Galaga.Game.EnterPress
import Galaga.Game.Tearing

/-! # Games without end

The scan delivers frame ticks for ever, so every fight ends by itself. All other
screens wait for Enter.
-/

namespace Galaga

open Filter Clocked

namespace Run

variable (run : Run)

/-- A state of the state machine, as a property of the cycles. -/
def In (state : State) (n : ℕ) : Prop := (run.core n).state = state

/-- A game is over. -/
def Over (n : ℕ) : Prop := run.In .gameover n ∨ run.In .win n

theorem state_succ (n : ℕ) :
    (run.core (n + 1)).state = (run.core n).state.next (run.keycode n) (run.core n).died
      (run.core n).killedAll1 (run.core n).killedAll2 := by
  rw [run.core_succ, Core.next_state]

section Waiting

variable (henter : ∃ᶠ n in atTop, run.EnterHeld n)
include henter

/-- A screen that waits for Enter is left for the one that comes next. -/
theorem leadsTo_of_waiting {state after : State}
    (hnext : ∀ keycode died killedAll1 killedAll2,
      state.next keycode died killedAll1 killedAll2 =
        if keycode = keyEnter then after else state) :
    LeadsTo (run.In state) (run.In after) := by
  apply LeadsTo.of_turn henter
  · intro n hstate hkey
    change (run.core (n + 1)).state = state
    rw [state_succ, show (run.core n).state = state from hstate, hnext]
    exact if_neg hkey
  · intro n hstate hkey
    change (run.core (n + 1)).state = after
    rw [state_succ, show (run.core n).state = state from hstate, hnext]
    exact if_pos hkey

end Waiting

section Fighting

variable (hticks : ∃ᶠ n in atTop, run.tick n = true)
include hticks

theorem play_leadsTo : LeadsTo (run.In .play) fun n => run.In .gameover n ∨ run.In .bossLogo n := by
  intro start hstart
  obtain ⟨len, hmany⟩ := run.trace.exists_ticks hticks start 8494
  obtain ⟨i, _, hinside, hexit, _⟩ := run.exists_exit_play hstart hmany
  refine ⟨start + i + 1, by omega, ?_⟩
  change (run.core (start + i + 1)).state = .gameover ∨ (run.core (start + i + 1)).state = .bossLogo
  rw [state_succ, hinside i le_rfl] at hexit ⊢
  simp only [State.next] at hexit ⊢
  split_ifs at hexit ⊢ <;> simp_all

theorem bossFight_leadsTo : LeadsTo (run.In .bossFight) run.Over := by
  intro start hstart
  obtain ⟨len, hmany⟩ := run.trace.exists_ticks hticks start 26661
  obtain ⟨i, _, hinside, hexit, _⟩ := run.exists_exit_bossFight hstart hmany
  refine ⟨start + i + 1, by omega, ?_⟩
  change (run.core (start + i + 1)).state = .gameover ∨ (run.core (start + i + 1)).state = .win
  rw [state_succ, hinside i le_rfl] at hexit ⊢
  simp only [State.next] at hexit ⊢
  split_ifs at hexit ⊢ <;> simp_all

end Fighting

/-- With Enter and with ticks every screen leads to the end of a game, -/
theorem leadsTo_over (henter : ∃ᶠ n in atTop, run.EnterHeld n)
    (hticks : ∃ᶠ n in atTop, run.tick n = true) : LeadsTo (fun _ => True) run.Over := by
  have hlogo : LeadsTo (run.In .bossLogo) run.Over :=
    (run.leadsTo_of_waiting henter fun _ _ _ _ => rfl).trans (run.bossFight_leadsTo hticks)
  have hplay : LeadsTo (run.In .play) run.Over :=
    (run.play_leadsTo hticks).trans ((LeadsTo.of_imp fun _ => Or.inl).or hlogo)
  have hstart : LeadsTo (run.In .start) run.Over :=
    (run.leadsTo_of_waiting henter fun _ _ _ _ => rfl).trans hplay
  intro n _
  cases hstate : (run.core n).state with
  | start => exact hstart n hstate
  | play => exact hplay n hstate
  | bossLogo => exact hlogo n hstate
  | bossFight => exact run.bossFight_leadsTo hticks n hstate
  | gameover => exact ⟨n, le_rfl, Or.inl hstate⟩
  | win => exact ⟨n, le_rfl, Or.inr hstate⟩

/-- and the end of a game to the next. -/
theorem over_leadsTo_start (henter : ∃ᶠ n in atTop, run.EnterHeld n) :
    LeadsTo run.Over (run.In .start) :=
  (run.leadsTo_of_waiting henter fun _ _ _ _ => rfl).or
    (run.leadsTo_of_waiting henter fun _ _ _ _ => rfl)

/-- The start screen is reached by Enter only. -/
theorem enter_of_start {n : ℕ} (hbefore : ¬ run.In .start n) (hafter : run.In .start (n + 1)) :
    run.EnterHeld n := by
  change (run.core (n + 1)).state = .start at hafter
  rw [state_succ] at hafter
  by_contra hkey
  change ¬ run.keycode n = keyEnter at hkey
  rcases State.next_eq_start hafter with hstart | hover | hwin
  · exact hbefore hstart
  · rw [hover, State.next, if_neg hkey] at hafter
    cases hafter
  · rw [hwin, State.next, if_neg hkey] at hafter
    cases hafter

end Run

namespace BoardRun

variable (board : BoardRun)

/-- The scan never stops. -/
theorem frequently_tick : ∃ᶠ k in atTop, board.run.tick k = true := by
  rw [frequently_atTop]
  intro k
  have hline : 800 ≤ (k + 1600 + board.phase) / 2 := by omega
  obtain ⟨t, ⟨hlow, _, htick⟩, _⟩ := board.existsUnique_tick hline
  obtain ⟨more, rfl⟩ := Nat.exists_eq_add_of_le hlow
  refine ⟨k + 1600 + more, by omega, ?_⟩
  rw [Nat.add_assoc] at htick
  exact htick

/-- A new game after the end of one has been asked for. -/
theorem frequently_enter
    (hover : ∃ᶠ n in atTop, (board.core n).state = .gameover ∨ (board.core n).state = .win)
    (hstart : ∃ᶠ n in atTop, (board.core n).state = .start) :
    ∃ᶠ n in atTop, (board.input n).keycode = keyEnter := by
  rw [frequently_add_iff _ board.held] at hover hstart ⊢
  change ∃ᶠ k in atTop, board.run.Over k at hover
  change ∃ᶠ k in atTop, board.run.In .start k at hstart
  have hexclude : ∀ k, board.run.Over k → ¬ board.run.In .start k := by
    rintro k (hstate | hstate) hsame
    · cases hstate.symm.trans hsame
    · cases hstate.symm.trans hsame
  refine (frequently_change hover hstart hexclude).mono ?_
  rintro k ⟨hbefore, hafter⟩
  exact board.run.enter_of_start hbefore hafter

/-- A board that is asked again and again goes on. -/
theorem frequently_over_and_start
    (henter : ∃ᶠ n in atTop, (board.input n).keycode = keyEnter) :
    (∃ᶠ n in atTop, (board.core n).state = .gameover ∨ (board.core n).state = .win) ∧
      ∃ᶠ n in atTop, (board.core n).state = .start := by
  rw [frequently_add_iff _ board.held] at henter
  change ∃ᶠ k in atTop, board.run.EnterHeld k at henter
  have hover := (board.run.leadsTo_over henter board.frequently_tick).frequently
    (frequently_atTop.mpr fun n => ⟨n, le_rfl, trivial⟩)
  have hstart := (board.run.over_leadsTo_start henter).frequently hover
  rw [frequently_add_iff (fun n => (board.core n).state = .gameover ∨ _) board.held,
    frequently_add_iff (fun n => (board.core n).state = .start) board.held]
  exact ⟨hover, hstart⟩

/-- Games end again and again, and new ones begin again and again, exactly if
Enter is pressed again and again. -/
theorem games_go_on_iff :
    ((∃ᶠ n in atTop, (board.core n).state = .gameover ∨ (board.core n).state = .win) ∧
      ∃ᶠ n in atTop, (board.core n).state = .start) ↔
        ∃ᶠ n in atTop, (board.input n).keycode = keyEnter :=
  ⟨fun hgames => board.frequently_enter hgames.1 hgames.2, board.frequently_over_and_start⟩

end BoardRun

end Galaga
