import Galaga.Clocked.Cell
import Galaga.Clocked.LeadsTo
import Galaga.Usb.Enumeration
import Galaga.Usb.Submission

/-! # From the report to the keycode port

The report of the keyboard is in the memory of the chip when `main` finds there
that the poll is complete. `main` clears the message, reads one word of the
report and sends its lower byte to the keycode port, which keeps it until the
next poll is complete.
-/

namespace Galaga

open Clocked Filter

/-- A poll is submitted here, for the first time or again. -/
def MainPlace.SubmitsPoll (place : MainPlace) : Prop := place = .poll ∨ place = .resubmit

/-- The wait for the completion of a poll. -/
def MainPlace.AwaitsPoll (place : MainPlace) : Prop :=
  place = .waitPollDone ∨ place = .waitPollDoneLoop

namespace UsbMain

/-- The wait follows a submission that the chip has answered. -/
theorem awaitsPoll_of_step {value : BitVec 16} {main : UsbMain}
    (hwaits : (main.step value).place.AwaitsPoll) :
    main.place.AwaitsPoll ∨ main.place.SubmitsPoll := by
  obtain ⟨place, toggle, dataSize, hotPlugCount, ctlReg, noDevice, keycodeBase⟩ := main
  cases place with
  | poll => exact Or.inr (Or.inl rfl)
  | resubmit => exact Or.inr (Or.inr rfl)
  | waitPollDone => exact Or.inl (Or.inl rfl)
  | waitPollDoneLoop => exact Or.inl (Or.inr rfl)
  | tdControl request =>
      simp only [step] at hwaits
      split at hwaits
      next => rcases hwaits with hplace | hplace <;> cases hplace
      next => cases request <;> rcases hwaits with hplace | hplace <;> cases hplace
  | _ =>
      simp only [step] at hwaits
      repeat' split at hwaits
      all_goals rcases hwaits with hplace | hplace <;> cases hplace

/-- Every place ends with a read. -/
theorem exists_read (main : UsbMain) : ∃ port, main.calls.getLast? = some (.read port) := by
  obtain ⟨place, toggle, dataSize, hotPlugCount, ctlReg, noDevice, keycodeBase⟩ := main
  cases place with
  | request request => exact ⟨hpiStatus, List.getLast?_concat⟩
  | _ => exact ⟨_, rfl⟩

/-- In the wait `main` reads the message register. -/
theorem calls_of_awaitsPoll {main : UsbMain} (hwaits : main.place.AwaitsPoll) (chip : HpiChip) :
    main.calls.getLast? = some (.read hpiData) ∧
      (main.calls.dropLast.foldl (fun chip call => chip.access call) chip).address =
        hpiSie1MsgAdr := by
  rw [calls]
  rcases hwaits with hplace | hplace <;> rw [hplace] <;> exact ⟨rfl, rfl⟩

/-- After the wait it clears the register and reads a word of the report. -/
theorem calls_of_keycode {main : UsbMain} (hplace : main.place = .keycode) (chip : HpiChip) :
    main.calls.getLast? = some (.read hpiData) ∧
      main.calls.dropLast.foldl (fun chip call => chip.access call) chip =
        ⟨0x051E, Function.update chip.memory hpiSie1MsgAdr 0⟩ := by
  rw [calls, hplace]
  exact ⟨rfl, rfl⟩

namespace Run

variable (run : Run)

/-- The wait began with a submission. -/
theorem exists_submission {n : ℕ} (hwaits : (run.main n).place.AwaitsPoll) :
    ∃ m < n, (run.main m).place.SubmitsPoll ∧
      ∀ k, m < k → k ≤ n → (run.main k).place.AwaitsPoll := by
  induction n with
  | zero =>
      rw [run.place] at hwaits
      rcases hwaits with hplace | hplace <;> cases hplace
  | succ n ih =>
      have hstep := hwaits
      rw [run.next] at hstep
      rcases awaitsPoll_of_step hstep with hbefore | hsubmits
      · obtain ⟨m, hm, hsubmits, hbetween⟩ := ih hbefore
        refine ⟨m, Nat.lt_succ_of_lt hm, hsubmits, fun k hlow hhigh => ?_⟩
        rcases Nat.le_or_eq_of_le_succ hhigh with hk | rfl
        · exact hbetween k hlow hk
        · exact hwaits
      · refine ⟨n, Nat.lt_succ_self n, hsubmits, fun k hlow hhigh => ?_⟩
        obtain rfl := le_antisymm hhigh hlow
        exact hwaits

/-- The keycode port over the run. -/
def keycodePort : Cell (BitVec 8) where
  value n := (run.main n).keycodeBase
  written n :=
    if (run.main n).place = .keycode then some ((run.value n &&& 0xFF).setWidth 8) else none
  next n := by
    rw [run.next, keycodeBase_step]
    split <;> rfl

end Run

end UsbMain

namespace UsbSystem

variable {system : UsbSystem}

/-- The last call of a place leaves the memory as it is, but for the words of the
chip. -/
theorem memory_of_read (system : UsbSystem) {n : ℕ} {a : BitVec 16}
    (hanswers : ¬ system.answers n a) :
    (system.chip (n + 1)).memory a = (system.asked n).memory a := by
  have hagrees := HpiChip.agrees_of_interleaved (system.lastCall n)
  obtain ⟨port, hlast⟩ := (system.main n).exists_read
  rw [hlast] at hagrees
  rw [hagrees.memory a hanswers]
  change (HpiChip.access (.read port) _).memory a = _
  rw [HpiChip.access]
  split <;> rfl

/-- The address of the chip when `main` reads is the one that it has set. -/
theorem address_asked (system : UsbSystem) (n : ℕ) :
    (system.asked n).address = ((system.main n).calls.dropLast.foldl
      (fun chip call => chip.access call) (system.chip n)).address := by
  have hcalled := HpiChip.agrees_of_interleaved (system.calls n)
  have hasked := HpiChip.agrees_of_interleaved (system.waits n)
  exact hasked.address.trans hcalled.address

/-- The value read in the wait is the message. -/
theorem value_of_awaitsPoll (system : UsbSystem) {n : ℕ}
    (hwaits : (system.main n).place.AwaitsPoll) :
    system.value n = (system.asked n).memory hpiSie1MsgAdr := by
  obtain ⟨hlast, haddress⟩ := UsbMain.calls_of_awaitsPoll hwaits (system.chip n)
  rw [system.data n hlast, HpiChip.data, system.address_asked, haddress]

/-- The value read after it is a word of the report, with the clear of the
message before. -/
theorem value_of_keycode (system : UsbSystem) {n : ℕ}
    (hplace : (system.main n).place = .keycode) :
    system.value n = (system.asked n).memory 0x051E ∧
      (¬ system.free n 0x051E → ¬ system.answers n 0x051E →
        (system.asked n).memory 0x051E = (system.chip n).memory 0x051E) := by
  have hcalled := HpiChip.agrees_of_interleaved (system.calls n)
  have hasked := HpiChip.agrees_of_interleaved (system.waits n)
  obtain ⟨hlast, hchip⟩ := UsbMain.calls_of_keycode hplace (system.chip n)
  constructor
  · rw [system.data n hlast, HpiChip.data, system.address_asked, hchip]
  · intro hfree hanswers
    have hother : 0x051E#16 ≠ hpiSie1MsgAdr := by decide
    rw [hchip] at hcalled
    rw [hasked.memory _ hanswers]
    change (system.called n).memory _ = _
    rw [hcalled.memory _ hfree]
    exact Function.update_of_ne hother 0 (system.chip n).memory

/-- A poll that reports a key. Its last submission is at `i`, where the chip finds
a descriptor whose data are at `0x051C`; at `j` `main` finds the completion, and
next it reads the third byte of the data. That is what was there with the
completion, if the chip has left it alone since. -/
structure Report (system : UsbSystem) (i j : ℕ) (code : BitVec 8) : Prop where
  before : i < j
  submits : (system.main i).place.SubmitsPoll
  descriptor : system.LeavesAlone i →
    (system.called i).memory husbSie1PCurrentTdPtr = 0x0500 ∧
      ∃ td, Td.list (system.called i).memory 0x0500 = some [(0x0500, td)] ∧ td.base = 0x051C
  waits : ∀ k, i < k → k ≤ j → (system.main k).place.AwaitsPoll
  complete : (system.asked j).memory hpiSie1MsgAdr = husbTdListDone
  read : (system.main (j + 1)).place = .keycode
  code : ((system.asked (j + 1)).memory 0x051E).setWidth 8 = code
  untouched : ¬ system.answers j 0x051E → ¬ system.free (j + 1) 0x051E →
    ¬ system.answers (j + 1) 0x051E →
      (system.asked (j + 1)).memory 0x051E = (system.asked j).memory 0x051E

/-- The poll that is found complete at `j` reports a key. -/
def Reports (system : UsbSystem) (j : ℕ) (code : BitVec 8) : Prop :=
  ∃ i, system.Report i j code

/-- Nothing is written before the first report. -/
theorem exists_eq_succ_of_written {n : ℕ} {code : BitVec 8}
    (hwritten : system.keycodePort.written n = some code) : ∃ j, n = j + 1 := by
  cases n with
  | zero =>
      change (if (system.main 0).place = .keycode then _ else _) = _ at hwritten
      rw [system.place] at hwritten
      cases hwritten
  | succ j => exact ⟨j, rfl⟩

theorem keycodePort_written_eq_none_iff {n : ℕ} :
    system.keycodePort.written n = none ↔ (system.main n).place ≠ .keycode := by
  change (if (system.main n).place = .keycode then _ else _) = _ ↔ _
  split
  next hplace => exact iff_of_false (by simp) fun hother => hother hplace
  next hplace => exact iff_of_true rfl hplace

theorem keycodePort_written_of_keycode {n : ℕ} (hplace : (system.main n).place = .keycode) :
    system.keycodePort.written n = some (((system.asked n).memory 0x051E).setWidth 8) := by
  change (if (system.main n).place = .keycode then _ else _) = _
  rw [if_pos hplace, (system.value_of_keycode hplace).1, BitVec.setWidth_and]
  exact congrArg some BitVec.and_allOnes

/-- What is written to the keycode port is what has been reported. -/
theorem written_iff_reports {j : ℕ} {code : BitVec 8} :
    system.keycodePort.written (j + 1) = some code ↔ system.Reports j code := by
  constructor
  · intro hwritten
    have hplace : (system.main (j + 1)).place = .keycode := by
      by_contra hother
      rw [keycodePort_written_eq_none_iff.mpr hother] at hwritten
      cases hwritten
    have hport := keycodePort_written_of_keycode hplace
    have hstep := hplace
    rw [system.next] at hstep
    obtain ⟨hwaits, hvalue⟩ := UsbMain.polled_of_keycode hstep
    obtain ⟨i, hbefore, hsubmits, hbetween⟩ := system.toRun.exists_submission hwaits
    have hcomplete := system.value_of_awaitsPoll hwaits
    obtain ⟨_, hframe⟩ := system.value_of_keycode hplace
    refine ⟨i, ?_⟩
    exact
      { before := hbefore
        submits := hsubmits
        descriptor := fun halone => by
          obtain ⟨hpointer, hlist⟩ := halone.list_poll hsubmits
          exact ⟨hpointer, _, hlist, rfl⟩
        waits := hbetween
        complete := hcomplete.symm.trans hvalue
        read := hplace
        code := Option.some.inj (hport.symm.trans hwritten)
        untouched := fun hafter hfree hanswers =>
          (hframe hfree hanswers).trans (system.memory_of_read hafter) }
  · rintro ⟨i, hreport⟩
    rw [keycodePort_written_of_keycode hreport.read, hreport.code]

/-- At any time the keycode port shows the key of the latest report. -/
theorem keycode_port_shows_report (system : UsbSystem) (n : ℕ) :
    (∀ k < n, (system.main k).place ≠ .keycode) ∧
        (system.main n).keycodeBase = (system.main 0).keycodeBase ∨
      ∃ j, system.Reports j (system.main n).keycodeBase ∧ j + 1 < n ∧
        ∀ k, j + 1 < k → k < n → (system.main k).place ≠ .keycode := by
  rcases system.keycodePort.exists_last n with ⟨hquiet, hvalue⟩ | ⟨m, hm, hwritten, hquiet⟩
  · exact Or.inl ⟨fun k hk => keycodePort_written_eq_none_iff.mp (hquiet k hk), hvalue⟩
  · right
    obtain ⟨j, rfl⟩ := exists_eq_succ_of_written hwritten
    refine ⟨j, written_iff_reports.mp hwritten, hm, fun k hlow hhigh => ?_⟩
    exact keycodePort_written_eq_none_iff.mp (hquiet k hlow hhigh)

/-- The first poll of `enumerated`. -/
theorem keycode_port_shows_report_enumerated : ∃ j, enumerated.Reports j 0x28 := by
  have hport : (enumerated.main 35).keycodeBase = 0x28 := by decide +kernel
  rcases enumerated.keycode_port_shows_report 35 with ⟨hquiet, _⟩ | ⟨j, hreports, _⟩
  · exact absurd (show (enumerated.main 34).place = .keycode by decide +kernel)
      (hquiet 34 (by decide))
  · rw [hport] at hreports
    exact ⟨j, hreports⟩

/-- A key that is not at the port from the start is there again and again if it is
reported again and again, or if it is the last one that is reported. -/
theorem frequently_keycodeBase_iff {code : BitVec 8}
    (hstart : (system.main 0).keycodeBase ≠ code) :
    (∃ᶠ n in atTop, (system.main n).keycodeBase = code) ↔
      (∃ᶠ j in atTop, system.Reports j code) ∨
        ∃ j, system.Reports j code ∧ ∀ m > j + 1, (system.main m).place ≠ .keycode := by
  have hcell := system.keycodePort.frequently_value_iff code
  rw [frequently_add_iff (fun n => system.keycodePort.written n = some code) 1] at hcell
  simp only [Nat.add_comm 1, written_iff_reports] at hcell
  refine hcell.trans (or_congr_right ⟨?_, ?_⟩)
  · rintro ⟨n, hvalue, hnone⟩
    rcases system.keycodePort.exists_last n with ⟨_, hsame⟩ | ⟨m, hm, hwritten, hquiet⟩
    · exact absurd (hsame.symm.trans hvalue) hstart
    · obtain ⟨j, rfl⟩ := exists_eq_succ_of_written hwritten
      rw [hvalue] at hwritten
      refine ⟨j, written_iff_reports.mp hwritten, fun k hk => ?_⟩
      rw [← keycodePort_written_eq_none_iff]
      rcases Nat.lt_or_ge k n with hbefore | hlater
      · exact hquiet k hk hbefore
      · exact hnone k hlater
  · rintro ⟨j, hreports, hnone⟩
    refine ⟨j + 2, ?_, fun m hm => keycodePort_written_eq_none_iff.mpr (hnone m hm)⟩
    rw [system.keycodePort.next, written_iff_reports.mpr hreports]
    rfl

/-- After its answer to the first poll that keyboard is silent. -/
theorem waits_enumerated {n : ℕ} (hn : 38 ≤ n) :
    (enumerated.main n).place = .waitPollDoneLoop := by
  induction n, hn using Nat.le_induction with
  | base => decide +kernel
  | succ n hn ih =>
      have hsilent : keyboardReplies n = [] := by
        rw [keyboardReplies, if_neg (by omega), if_neg (by omega)]
      have hvalue : enumerated.value n = 0 := by
        rw [enumerated.value_of_awaitsPoll (Or.inr ih)]
        change (written (keyboardReplies n)
          (calledBy (enumerated.main n) (written (frameWrites n) (enumerated.chip n)))).memory _ = 0
        rw [hsilent, calledBy, UsbMain.calls, ih]
        rfl
      rw [enumerated.next, UsbMain.step, ih, hvalue]
      rfl

end UsbSystem

end Galaga
