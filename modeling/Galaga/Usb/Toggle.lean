import Galaga.Model.UsbKeyboard
import Mathlib.Algebra.Group.Nat.Even
import Mathlib.Data.Nat.Count

/-! # The data toggle of the keyboard polls

`toggle` counts the polls since `main` began, and its parity selects the control
word. Nothing resets it when the keyboard is enumerated again, while the
keyboard itself then starts over with DATA0.
-/

namespace Galaga

namespace UsbMain

/-- The control word of the descriptor that is written at a place of the
polling loop. -/
def ControlWord (main : UsbMain) (word : BitVec 16) : Prop :=
  main.calls[4]? = some (.write hpiData word)

/-- The control word that goes with a count of polls. -/
def toggleWord (count : ℕ) : BitVec 16 := if count % 2 = 1 then 0x0001 else 0x0041

theorem toggleWord_ofNat (count : ℕ) :
    (if BitVec.ofNat 8 count % 2#8 ≠ 0#8 then 0x0001 else 0x0041) = toggleWord count := by
  have hparity : BitVec.ofNat 8 count % 2#8 ≠ 0#8 ↔ count % 2 = 1 := by
    rw [Ne, ← BitVec.toNat_inj, BitVec.toNat_umod, BitVec.toNat_ofNat]
    show ¬count % 2 ^ 8 % 2 = 0 ↔ count % 2 = 1
    omega
  rw [toggleWord]
  exact if_congr hparity rfl rfl

theorem controlWord_poll {main : UsbMain} (hplace : main.place = .poll) :
    main.ControlWord (if (main.toggle + 1#8) % 2#8 ≠ 0#8 then 0x0001 else 0x0041) := by
  rw [ControlWord, calls, hplace]
  rfl

theorem controlWord_resubmit {main : UsbMain} (hplace : main.place = .resubmit) :
    main.ControlWord (if main.toggle % 2#8 ≠ 0#8 then 0x0001 else 0x0041) := by
  rw [ControlWord, calls, hplace]
  rfl

theorem ControlWord.unique {main : UsbMain} {word other : BitVec 16}
    (hword : main.ControlWord word) (hother : main.ControlWord other) : word = other := by
  have hcalls := hword.symm.trans hother
  injection hcalls with hcall
  injection hcall

/-- The top of the polling loop is the only place that counts. -/
theorem toggle_step (value : BitVec 16) (main : UsbMain) :
    (main.step value).toggle = main.toggle + if main.place = .poll then 1#8 else 0#8 := by
  obtain ⟨place, toggle, dataSize, hotPlugCount, ctlReg, noDevice, keycodeBase⟩ := main
  cases place with
  | poll => rfl
  | _ =>
      rw [if_neg (by simp), BitVec.add_zero]
      simp only [step]
      repeat' split
      all_goals rfl

namespace Run

variable (run : Run)

/-- The polls before step `n`. -/
def polls (n : ℕ) : ℕ := Nat.count (fun k => (run.main k).place = .poll) n

theorem polls_succ (n : ℕ) :
    run.polls (n + 1) = run.polls n + if (run.main n).place = .poll then 1 else 0 :=
  Nat.count_succ _ n

theorem polls_eq {m n : ℕ} (hle : m ≤ n)
    (hnone : ∀ k, m ≤ k → k < n → (run.main k).place ≠ .poll) : run.polls n = run.polls m := by
  refine le_antisymm (not_lt.mp fun hmore => ?_) (Nat.count_monotone _ hle)
  obtain ⟨k, ⟨hlow, hhigh⟩, hpoll⟩ := Nat.exists_of_count_lt_count hmore
  exact hnone k hlow hhigh hpoll

/-- The eight bits of `toggle` are the number of polls, across every replug. -/
theorem toggle_eq (n : ℕ) : (run.main n).toggle = BitVec.ofNat 8 (run.polls n) := by
  induction n with
  | zero => exact run.toggle
  | succ n ih =>
      rw [run.next, toggle_step, ih, polls_succ]
      split
      · exact (BitVec.ofNat_add _ _).symm
      · simp

theorem controlWord_of_poll {n : ℕ} (hplace : (run.main n).place = .poll) :
    (run.main n).ControlWord (toggleWord (run.polls n + 1)) := by
  have hword := controlWord_poll hplace
  rw [run.toggle_eq n, ← BitVec.ofNat_add,
    toggleWord_ofNat] at hword
  exact hword

theorem controlWord_of_resubmit {n : ℕ} (hplace : (run.main n).place = .resubmit) :
    (run.main n).ControlWord (toggleWord (run.polls n)) := by
  have hword := controlWord_resubmit hplace
  rw [run.toggle_eq n, toggleWord_ofNat] at hword
  exact hword

/-- `n` is the first poll after a pass of the label `USB_HOT_PLUG` at `m`. -/
structure FirstPoll (m n : ℕ) : Prop where
  after : m ≤ n
  hotPlug : (run.main m).place = .usbHotPlug
  poll : (run.main n).place = .poll
  none : ∀ k, m ≤ k → k < n → (run.main k).place ≠ .poll

/-- `m` is the latest poll before `n`. -/
structure LatestPoll (m n : ℕ) : Prop where
  after : m < n
  poll : (run.main m).place = .poll
  none : ∀ k, m < k → k < n → (run.main k).place ≠ .poll

/-- The label is not passed between two places. -/
def SameSession (m n : ℕ) : Prop :=
  ∀ k, m < k → k < n → (run.main k).place ≠ .usbHotPlug

theorem LatestPoll.polls_eq {run : Run} {m n : ℕ} (hlatest : run.LatestPoll m n) :
    run.polls n = run.polls m + 1 := by
  have hlater := Run.polls_eq run hlatest.after hlatest.none
  rw [hlater, polls_succ, if_pos hlatest.poll]

/-- A poll that is sent again keeps its control word. -/
theorem controlWord_of_latestPoll {m n : ℕ} (hlatest : run.LatestPoll m n)
    (hplace : (run.main n).place = .resubmit) :
    ∃ word, (run.main m).ControlWord word ∧ (run.main n).ControlWord word := by
  have hword := run.controlWord_of_resubmit hplace
  rw [hlatest.polls_eq] at hword
  exact ⟨_, run.controlWord_of_poll hlatest.poll, hword⟩

/-- Each poll takes the other word, also where `toggle` wraps, and also across a
replug, where a new session should begin with DATA0. -/
theorem alternate_of_latestPoll {m n : ℕ} (hlatest : run.LatestPoll m n)
    (hplace : (run.main n).place = .poll) :
    (run.main m).ControlWord 0x0001 ∧ (run.main n).ControlWord 0x0041 ∨
      (run.main m).ControlWord 0x0041 ∧ (run.main n).ControlWord 0x0001 := by
  have hearlier := run.controlWord_of_poll hlatest.poll
  have hlater := run.controlWord_of_poll hplace
  rw [hlatest.polls_eq] at hlater
  rcases Nat.mod_two_eq_zero_or_one (run.polls m) with heven | hodd
  · left
    rw [toggleWord, if_pos (by omega)] at hearlier
    rw [toggleWord, if_neg (by omega)] at hlater
    exact ⟨hearlier, hlater⟩
  · right
    rw [toggleWord, if_neg (by omega)] at hearlier
    rw [toggleWord, if_pos (by omega)] at hlater
    exact ⟨hearlier, hlater⟩

/-- The polls keep the toggle of a keyboard that expects DATA0 after every
enumeration, and the other word for each poll from there on. -/
structure DataToggle : Prop where
  first : ∀ m n, run.FirstPoll m n → (run.main n).ControlWord 0x0001
  resubmitted : ∀ m n, run.LatestPoll m n → (run.main n).place = .resubmit →
    ∃ word, (run.main m).ControlWord word ∧ (run.main n).ControlWord word
  alternating : ∀ m n, run.LatestPoll m n → run.SameSession m n → (run.main n).place = .poll →
    (run.main m).ControlWord 0x0001 ∧ (run.main n).ControlWord 0x0041 ∨
      (run.main m).ControlWord 0x0041 ∧ (run.main n).ControlWord 0x0001

/-- The first poll after an enumeration is right exactly if the polls before it
are even in number. -/
theorem controlWord_first_iff {m n : ℕ} (hfirst : run.FirstPoll m n) :
    (run.main n).ControlWord 0x0001 ↔ Even (run.polls n) := by
  have hword := run.controlWord_of_poll hfirst.poll
  rw [Nat.even_iff]
  constructor
  · intro hdata0
    have heq := hdata0.unique hword
    rw [toggleWord] at heq
    split at heq
    next hodd => omega
    next => exact absurd heq (by decide)
  · intro heven
    rw [toggleWord, if_pos (by omega)] at hword
    exact hword

/-- The toggle is kept just when every enumeration finds an even number of polls
made so far. -/
theorem dataToggle_iff : run.DataToggle ↔ ∀ m n, run.FirstPoll m n → Even (run.polls n) := by
  constructor
  · intro hkept m n hfirst
    exact (run.controlWord_first_iff hfirst).mp (hkept.first m n hfirst)
  · intro heven
    exact
      { first := fun m n hfirst => (run.controlWord_first_iff hfirst).mpr (heven m n hfirst)
        resubmitted := fun m n => run.controlWord_of_latestPoll
        alternating := fun m n hlatest _ => run.alternate_of_latestPoll hlatest }

/-- What `main` reads from the label up to the polling loop, if all goes well. -/
def enumerated : List (BitVec 16) :=
  let done : List (BitVec 16) := [0x0010, 0x1000, 0x0003]
  [0x0010, commAck, commAck, 0x1000] ++ done ++ done ++ done ++ done ++ done ++ [0x0008] ++
    done ++ done ++ done ++ done

/-- One poll, after which the keyboard is removed and inserted again. -/
def pollAndReplug : List (BitVec 16) :=
  [0x0010, 0x1000, 0x0000, 0x0000, 0x0000, 0x0000, 0x0000, 0x0000, 0x0000, 0x0000, 0x0000, 0x1000]

def replugged : Run where
  main n :=
    n.rec ⟨.usbHotPlug, 0#8, 0#8, 0#8, 0#16, 0#16, 0#8⟩
      fun n main => main.step ((enumerated ++ pollAndReplug ++ enumerated).getD n 0)
  value n := (enumerated ++ pollAndReplug ++ enumerated).getD n 0
  place := rfl
  toggle := rfl
  next _ := rfl

/-- A keyboard that is replugged after one poll is met with DATA1. -/
theorem not_dataToggle :
    replugged.FirstPoll 44 76 ∧ (replugged.main 76).ControlWord 0x0041 ∧
      ¬ replugged.DataToggle := by
  have hpath : ∀ k < 76, 44 ≤ k → (replugged.main k).place ≠ .poll := by decide +kernel
  have hfirst : replugged.FirstPoll 44 76 :=
    { after := by decide
      hotPlug := by decide +kernel
      poll := by decide +kernel
      none := fun k hle hlt => hpath k hlt hle }
  have hdata1 : (replugged.main 76).ControlWord 0x0041 := by
    unfold ControlWord
    decide +kernel
  refine ⟨hfirst, hdata1, fun hkept => ?_⟩
  have heq := (hkept.first 44 76 hfirst).unique hdata1
  exact absurd heq (by decide)

end Run

end UsbMain

end Galaga
