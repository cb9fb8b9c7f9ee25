import Galaga.Clocked.LeadsTo
import Galaga.Usb.Enumeration

/-! # When `main` stops working

`main` reads the chip in loops until it answers, and counts in two more. Apart
from that it goes forward, to the label `USB_HOT_PLUG` or to the next keycode.
So it comes to one of these again and again, unless the chip leaves one of its
reads unanswered for ever.
-/

namespace Galaga

/-- The loops in which `main` waits for the chip or for the keyboard. -/
def MainPlace.waits : MainPlace → Bool
  | sie1Init | insertDevice | request _ | waitTdListDoneLoop _ | retryCntWait | resubmit
  | waitPollDoneLoop | removed => true
  | _ => false

/-- What the read of such a loop has to show before `main` goes on. -/
def MainPlace.Answer (value noDevice : BitVec 16) : MainPlace → Prop
  | sie1Init => value &&& 0xFFFF ≠ 0
  | insertDevice | removed => value &&& noDevice ≠ 0
  | request _ | retryCntWait | resubmit => UsbMain.hasMessage value = true
  | waitTdListDoneLoop _ | waitPollDoneLoop => value = husbTdListDone
  | _ => True

namespace UsbMain

/-- The label, and the place that writes the keycode port. -/
def AtMilestone (main : UsbMain) : Prop := main.place = .usbHotPlug ∨ main.place = .keycode

/-- Where a request stands in the enumeration: it has four places. -/
def requestRank : UsbRequest → ℕ
  | .setAddress => 11
  | .getDeviceDesc1 => 15
  | .getDeviceDesc2 => 19
  | .getConfigDesc1 => 23
  | .getConfigDesc2 => 27
  | .setConfig => 32
  | .classRequest => 36
  | .getHidDesc => 40
  | .getReportDesc => 44

/-- How far `main` has come since the last milestone. -/
def rank (main : UsbMain) : ℕ :=
  match main.place with
  | .usbHotPlug | .keycode => 0
  | .sie1Init => 1
  | .sie1Ack => 2
  | .husbReset => 3
  | .detect => 4
  | .detectRetry => 5 + main.hotPlugCount.toNat
  | .insertDevice => 10
  | .request request => requestRank request
  | .waitTdListDone request => requestRank request + 1
  | .waitTdListDoneLoop request => requestRank request + 2
  | .tdControl request => requestRank request + 3
  | .dataSize => 31
  | .getRetryCnt => 48
  | .retryCntClear => 49
  | .retryCntWait => 50
  | .retryCntControl => 51
  | .mailboxError => 52
  | .checkDevice => 53
  | .checkRetry => 54 + main.hotPlugCount.toNat
  | .removed => 61
  | .poll => 62
  | .resubmit => 63
  | .waitPollDone => 64
  | .waitPollDoneLoop => 65

/-- The counting loops count no further than their bounds. -/
def Counts (main : UsbMain) : Prop :=
  (main.place = .detectRetry → main.hotPlugCount.toNat < 5) ∧
    (main.place = .checkRetry → main.hotPlugCount.toNat < 7)

theorem requestRank_le (request : UsbRequest) : requestRank request ≤ 44 := by
  cases request <;> decide

/-- After a request that succeeds `main` is further on. -/
theorem rank_next (request : UsbRequest) (main : UsbMain) :
    requestRank request + 3 < { main with place := request.next }.rank := by
  cases request <;> simp [UsbRequest.next, rank, requestRank]

theorem rank_le {main : UsbMain} (hcounts : main.Counts) : main.rank ≤ 65 := by
  obtain ⟨place, toggle, dataSize, hotPlugCount, ctlReg, noDevice, keycodeBase⟩ := main
  cases place with
  | detectRetry =>
      have hcount := hcounts.1 rfl
      simp only [rank] at hcount ⊢
      omega
  | checkRetry =>
      have hcount := hcounts.2 rfl
      simp only [rank] at hcount ⊢
      omega
  | request request | waitTdListDone request | waitTdListDoneLoop request | tdControl request =>
      have hrequest := requestRank_le request
      simp only [rank]
      omega
  | _ => simp [rank]

/-- Only an unanswered read leaves `main` as it is. -/
theorem step_eq_self_iff (value : BitVec 16) (main : UsbMain) :
    main.step value = main ↔
      main.place.waits = true ∧ ¬ main.place.Answer value main.noDevice := by
  obtain ⟨place, toggle, dataSize, hotPlugCount, ctlReg, noDevice, keycodeBase⟩ := main
  cases place with
  | tdControl request => cases request <;> simp only [step] <;> split <;>
      simp [UsbRequest.next, MainPlace.waits]
  | _ =>
      simp only [step]
      repeat' split
      all_goals simp_all [MainPlace.waits, MainPlace.Answer, present]

theorem Counts.step {main : UsbMain} (hcounts : main.Counts) (value : BitVec 16) :
    (main.step value).Counts := by
  obtain ⟨place, toggle, dataSize, hotPlugCount, ctlReg, noDevice, keycodeBase⟩ := main
  cases place with
  | tdControl request =>
      simp only [UsbMain.step]
      split
      · simp [Counts]
      · cases request <;> simp [Counts, UsbRequest.next]
  | detectRetry =>
      simp only [UsbMain.step]
      split_ifs with hpresent hmore
      · simp [Counts]
      · exact ⟨fun _ => hmore, fun hplace => absurd hplace (by simp)⟩
      · simp [Counts]
  | checkRetry =>
      simp only [UsbMain.step]
      split_ifs with hpresent hmore
      · simp [Counts]
      · exact ⟨fun hplace => absurd hplace (by simp), fun _ => hmore⟩
      · simp [Counts]
  | _ =>
      simp only [UsbMain.step]
      repeat' split
      all_goals simp [Counts]

/-- A step comes to a milestone, or nearer to one, or waits. -/
theorem step_forward {main : UsbMain} (hcounts : main.Counts) (value : BitVec 16) :
    (main.step value).AtMilestone ∨ main.rank < (main.step value).rank ∨
      main.step value = main := by
  obtain ⟨place, toggle, dataSize, hotPlugCount, ctlReg, noDevice, keycodeBase⟩ := main
  cases place with
  | tdControl request =>
      right
      left
      have hrequest := requestRank_le request
      simp only [step]
      split
      · simp only [rank]
        omega
      · exact rank_next request
          ⟨.poll, toggle, dataSize, hotPlugCount, ctlReg, noDevice, keycodeBase⟩
  | detectRetry =>
      right
      left
      have hcount := hcounts.1 rfl
      simp only [step]
      split_ifs <;> simp only [rank, requestRank, BitVec.toNat_add, BitVec.toNat_ofNat] at * <;>
        omega
  | checkRetry =>
      right
      left
      have hcount := hcounts.2 rfl
      simp only [step]
      split_ifs <;> simp only [rank, BitVec.toNat_add, BitVec.toNat_ofNat] at * <;> omega
  | _ =>
      simp only [step]
      repeat' split
      all_goals simp [AtMilestone, rank, requestRank]

namespace Run

open Filter

variable (run : Run)

theorem counts (n : ℕ) : (run.main n).Counts := by
  induction n with
  | zero =>
      constructor <;> intro hplace <;> rw [run.place] at hplace <;> cases hplace
  | succ n ih =>
      rw [run.next]
      exact ih.step _

theorem frequently_milestone_or_settles :
    (∃ᶠ n in atTop, (run.main n).AtMilestone) ∨ ∃ n, ∀ m ≥ n, run.main m = run.main n := by
  apply Clocked.frequently_or_settles rank fun n => rank_le (run.counts n)
  intro n
  rw [run.next]
  exact step_forward (run.counts n) (run.value n)

/-- `main` passes neither the label nor the place that writes the keycode for
ever, exactly if it comes to a loop whose read is never answered. -/
theorem stuck_iff :
    (¬ (∃ᶠ n in atTop, (run.main n).place = .usbHotPlug) ∧
        ¬ ∃ᶠ n in atTop, (run.main n).place = .keycode) ↔
      ∃ n, (run.main n).place.waits = true ∧ ∀ m ≥ n, run.main m = run.main n ∧
        ¬ (run.main n).place.Answer (run.value m) (run.main n).noDevice := by
  constructor
  · rintro ⟨hlabel, hkeycode⟩
    have hnever : ¬ ∃ᶠ n in atTop, (run.main n).AtMilestone := fun hoften =>
      (frequently_or_distrib.mp hoften).elim hlabel hkeycode
    obtain ⟨n, hsettled⟩ := run.frequently_milestone_or_settles.resolve_left hnever
    have hstays : ∀ m ≥ n, (run.main n).step (run.value m) = run.main n := by
      intro m hm
      have hnext := run.next m
      rw [hsettled m hm, hsettled (m + 1) (by omega)] at hnext
      exact hnext.symm
    refine ⟨n, ((step_eq_self_iff _ _).mp (hstays n le_rfl)).1, fun m hm => ?_⟩
    exact ⟨hsettled m hm, ((step_eq_self_iff _ _).mp (hstays m hm)).2⟩
  · rintro ⟨n, hwaits, hsettled⟩
    have hnever : ∀ place : MainPlace, place.waits = false →
        ¬ ∃ᶠ m in atTop, (run.main m).place = place := by
      intro place hgoes hoften
      obtain ⟨m, hm, hplace⟩ := frequently_atTop.mp hoften n
      rw [(hsettled m hm).1] at hplace
      rw [hplace, hgoes] at hwaits
      cases hwaits
    exact ⟨hnever _ rfl, hnever _ rfl⟩

end Run

end UsbMain

end Galaga
