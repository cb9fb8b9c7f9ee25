import Galaga.Model.UsbKeyboard

/-! # The order of the enumeration

`main` sends its nine requests one after another and starts over at the label
`USB_HOT_PLUG` when one of them fails. So whenever it polls the keyboard, all of
them have been completed since the label, in order, and nothing but a completed
poll writes the keycode port.
-/

namespace Galaga

/-- The requests in the order in which the keyboard needs them. -/
def UsbRequest.enumeration : List UsbRequest :=
  [setAddress, getDeviceDesc1, getDeviceDesc2, getConfigDesc1, getConfigDesc2, setConfig,
    classRequest, getHidDesc, getReportDesc]

/-- The requests before this one. -/
def UsbRequest.earlier (request : UsbRequest) : List UsbRequest :=
  enumeration.takeWhile (· ≠ request)

/-- The polling loop, with the test whether the keyboard is still there. -/
def MainPlace.polls : MainPlace → Bool
  | poll | resubmit | waitPollDone | waitPollDoneLoop | keycode | checkDevice | checkRetry
  | removed => true
  | _ => false

/-- The requests that are completed at a place; `none` where the enumeration is
given up or begins. -/
def MainPlace.completed : MainPlace → Option (List UsbRequest)
  | usbHotPlug | getRetryCnt | retryCntClear | retryCntWait | retryCntControl => none
  | sie1Init | sie1Ack | husbReset | mailboxError | detect | detectRetry | insertDevice => some []
  | request current | waitTdListDone current | waitTdListDoneLoop current
  | tdControl current => some current.earlier
  | dataSize => some UsbRequest.setConfig.earlier
  | _ => some UsbRequest.enumeration

theorem MainPlace.completed_of_polls {place : MainPlace} (hpolls : place.polls = true) :
    place.completed = some UsbRequest.enumeration := by
  cases place <;> first | rfl | cases hpolls

/-- After a request that succeeds the enumeration goes on with the next one. -/
theorem UsbRequest.completed_next (request : UsbRequest) :
    request.next.completed = some (request.earlier ++ [request]) := by
  cases request <;> decide

namespace UsbMain

/-- The requests completed since the label, after a place that has read `value`. -/
def complete (value : BitVec 16) (main : UsbMain) (requests : List UsbRequest) :
    List UsbRequest :=
  match main.place with
  | .usbHotPlug => []
  | .tdControl request => if value = 0x03 then requests ++ [request] else requests
  | _ => requests

/-- One place keeps the account. -/
theorem completed_step {main : UsbMain} {requests : List UsbRequest}
    (hcompleted : ∀ done, main.place.completed = some done → requests = done)
    (value : BitVec 16) {done : List UsbRequest}
    (hdone : (main.step value).place.completed = some done) :
    main.complete value requests = done := by
  obtain ⟨place, toggle, dataSize, hotPlugCount, ctlReg, noDevice, keycodeBase⟩ := main
  cases place with
  | usbHotPlug =>
      simp only [step] at hdone
      split at hdone <;> exact Option.some.inj hdone
  | tdControl request =>
      have hsame := hcompleted _ rfl
      simp only [step] at hdone
      simp only [complete]
      split at hdone
      next => cases hdone
      next hvalue =>
        rw [request.completed_next] at hdone
        rw [if_pos (Decidable.not_not.mp hvalue), hsame]
        exact Option.some.inj hdone
  | getRetryCnt =>
      simp only [step] at hdone
      split at hdone <;> cases hdone
  | retryCntClear =>
      simp only [step] at hdone
      split at hdone <;> cases hdone
  | retryCntWait =>
      simp only [step] at hdone
      split at hdone <;> cases hdone
  | retryCntControl => cases hdone
  | _ =>
      have hsame := hcompleted _ rfl
      simp only [step] at hdone
      change requests = done
      rw [hsame]
      repeat' split at hdone
      all_goals first | exact Option.some.inj hdone | cases hdone

/-- The keycode port is written at one place. -/
theorem keycodeBase_step (value : BitVec 16) (main : UsbMain) :
    (main.step value).keycodeBase =
      if main.place = .keycode then (value &&& 0xFF).setWidth 8 else main.keycodeBase := by
  obtain ⟨place, toggle, dataSize, hotPlugCount, ctlReg, noDevice, keycodeBase⟩ := main
  cases place with
  | keycode => rfl
  | _ =>
      simp only [step]
      repeat' split
      all_goals first | rfl | contradiction

/-- That place follows the completion of a poll. -/
theorem polled_of_keycode {value : BitVec 16} {main : UsbMain}
    (hplace : (main.step value).place = .keycode) :
    (main.place = .waitPollDone ∨ main.place = .waitPollDoneLoop) ∧ value = husbTdListDone := by
  obtain ⟨place, toggle, dataSize, hotPlugCount, ctlReg, noDevice, keycodeBase⟩ := main
  cases place with
  | waitPollDone =>
      simp only [step] at hplace
      split at hplace
      next => cases hplace
      next hvalue => exact ⟨Or.inl rfl, Decidable.not_not.mp hvalue⟩
  | waitPollDoneLoop =>
      simp only [step] at hplace
      split at hplace
      next => cases hplace
      next hvalue => exact ⟨Or.inr rfl, Decidable.not_not.mp hvalue⟩
  | tdControl request =>
      simp only [step] at hplace
      split at hplace
      next => cases hplace
      next => cases request <;> cases hplace
  | _ =>
      simp only [step] at hplace
      repeat' split at hplace
      all_goals cases hplace

namespace Run

variable (run : Run)

/-- The requests completed since the latest pass of the label. -/
def completed : ℕ → List UsbRequest
  | 0 => []
  | n + 1 => (run.main n).complete (run.value n) (completed n)

theorem completed_eq {n : ℕ} {done : List UsbRequest}
    (hdone : (run.main n).place.completed = some done) : run.completed n = done := by
  induction n generalizing done with
  | zero =>
      rw [run.place] at hdone
      cases hdone
  | succ n ih =>
      rw [run.next] at hdone
      exact completed_step (fun _ => ih) _ hdone

/-- Each request is sent when those before it are completed, the keyboard is
polled when all of them are, and a change of the keycode port shows that a poll
of the enumerated keyboard has been completed. -/
theorem enumerated_before_polled (n : ℕ) :
    (∀ request, (run.main n).place = .request request → run.completed n = request.earlier) ∧
      ((run.main n).place.polls = true → run.completed n = UsbRequest.enumeration) ∧
      ((run.main (n + 1)).keycodeBase ≠ (run.main n).keycodeBase →
        (run.main (n + 1)).keycodeBase = (run.value n &&& 0xFF).setWidth 8 ∧
          run.completed n = UsbRequest.enumeration ∧
          ∃ m, n = m + 1 ∧ (run.main m).place.polls = true ∧ run.value m = husbTdListDone) := by
  refine ⟨fun request hplace => ?_, fun hpolls => ?_, fun hchanged => ?_⟩
  · apply run.completed_eq
    rw [hplace]
    rfl
  · exact run.completed_eq (MainPlace.completed_of_polls hpolls)
  rw [run.next, keycodeBase_step] at hchanged ⊢
  by_cases hplace : (run.main n).place = .keycode
  · rw [if_pos hplace]
    have hcompleted : run.completed n = UsbRequest.enumeration := by
      apply run.completed_eq
      rw [hplace]
      rfl
    refine ⟨rfl, hcompleted, ?_⟩
    cases n with
    | zero => cases run.place.symm.trans hplace
    | succ m =>
        rw [run.next] at hplace
        obtain ⟨hwait, hvalue⟩ := polled_of_keycode hplace
        refine ⟨m, rfl, ?_, hvalue⟩
        rcases hwait with hwait | hwait <;> rw [hwait] <;> rfl
  · rw [if_neg hplace] at hchanged
    exact absurd rfl hchanged

end Run

end UsbMain

end Galaga
