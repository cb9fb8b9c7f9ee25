import Galaga.Game.Forever
import Galaga.Usb.Report

/-! # What the keyboard reports and what becomes of the game

`lab8.sv` joins the software and the game by the register of the PIO `keycode`:
`main` writes it and the game looks at it in every cycle. The processor is never
reset, and how long it takes over a place of `main` is left open.
-/

namespace Galaga

open Filter Clocked

/-- The board with the software that runs on it. -/
structure Machine where
  board : BoardRun
  usb : UsbSystem
  /-- The place of `main` that the processor has reached in a cycle. -/
  reached : ℕ → ℕ
  next : ∀ n, reached (n + 1) = reached n ∨ reached (n + 1) = reached n + 1
  goesOn : ∀ place, ∃ n, place ≤ reached n
  /-- The register of the PIO is zero until it is written. -/
  powerUp : (usb.main 0).keycodeBase = 0#8
  keycode : ∀ n, (board.input n).keycode = (usb.main (reached n)).keycodeBase

namespace Machine

variable (machine : Machine)

/-- The keys that the game sees again and again are those that are reported again
and again, and the last one that is reported. -/
theorem frequently_keycode_iff {code : BitVec 8} (hkey : code ≠ 0#8) :
    (∃ᶠ n in atTop, (machine.board.input n).keycode = code) ↔
      (∃ᶠ j in atTop, machine.usb.Reports j code) ∨
        ∃ j, machine.usb.Reports j code ∧
          ∀ m > j + 1, (machine.usb.main m).place ≠ .keycode := by
  have hstart : (machine.usb.main 0).keycodeBase ≠ code := by
    rw [machine.powerUp]
    exact hkey.symm
  simp only [machine.keycode]
  rw [frequently_comp_iff (fun n => (machine.usb.main n).keycodeBase = code) machine.next
    machine.goesOn]
  exact UsbSystem.frequently_keycodeBase_iff hstart

/-- Games end again and again, and new ones begin again and again, exactly if the
keyboard reports Enter again and again, or as the last key of all. -/
theorem games_go_on_iff_reported :
    ((∃ᶠ n in atTop, (machine.board.core n).state = .gameover ∨
        (machine.board.core n).state = .win) ∧
      ∃ᶠ n in atTop, (machine.board.core n).state = .start) ↔
      (∃ᶠ j in atTop, machine.usb.Reports j keyEnter) ∨
        ∃ j, machine.usb.Reports j keyEnter ∧
          ∀ m > j + 1, (machine.usb.main m).place ≠ .keycode := by
  have hkey : keyEnter ≠ 0#8 := by decide
  rw [← machine.frequently_keycode_iff hkey]
  constructor
  · rintro ⟨hover, hstart⟩
    exact machine.board.frequently_enter hover hstart
  · exact machine.board.frequently_over_and_start

/-- The board with the keyboard of `enumerated`. -/
def enumerated : Machine where
  board := BoardRun.ofKeys fun n => (UsbSystem.enumerated.main n).keycodeBase
  usb := UsbSystem.enumerated
  reached := id
  next _ := Or.inr rfl
  goesOn place := ⟨place, le_rfl⟩
  powerUp := rfl
  keycode _ := rfl

/-- A single report of Enter with nothing after it is enough. -/
theorem games_go_on_iff_reported_enumerated :
    (∃ᶠ n in atTop, (enumerated.board.core n).state = .gameover ∨
        (enumerated.board.core n).state = .win) ∧
      ∃ᶠ n in atTop, (enumerated.board.core n).state = .start := by
  refine enumerated.games_go_on_iff_reported.mpr (Or.inr ⟨33, ?_, ?_⟩)
  · exact UsbSystem.written_iff_reports.mp (by decide +kernel)
  · intro m hm hplace
    rcases Nat.lt_or_ge m 38 with hsoon | hlate
    · have hpath : ∀ m < 38, 34 < m → (UsbSystem.enumerated.main m).place ≠ .keycode := by
        decide +kernel
      exact hpath m hsoon hm hplace
    · cases (UsbSystem.waits_enumerated hlate).symm.trans hplace

end Machine

end Galaga
