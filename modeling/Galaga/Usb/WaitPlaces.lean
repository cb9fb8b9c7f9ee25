import Galaga.Model.UsbWait

/-! # The wait inside `main`

`main` is cut at its reads, and so its places of a wait are those of
`UsbWaitTDListDone` only up to the point where an iteration begins. Access by
access they make the same calls, and they leave the loop on the same value.
-/

namespace Galaga

open IoCall

/-- The calls of a place, as those that come next in the wait. -/
def UsbWait.follow (value : BitVec 16) : List IoCall → UsbWait → Option UsbWait
  | [], wait => some wait
  | call :: calls, wait =>
      if wait.todo.head? = some call then (wait.step value).follow value calls else none

/-- The places of a wait: the read before the loop, those inside it, and the
place after it, which begins with the last clear. -/
inductive WaitPhase where
  | first
  | loop
  | done
deriving DecidableEq, Repr

def MainPlace.waitPhase : MainPlace → Option WaitPhase
  | .waitTdListDone _ | .waitPollDone => some .first
  | .waitTdListDoneLoop _ | .waitPollDoneLoop => some .loop
  | .tdControl _ | .keycode => some .done
  | _ => none

/-- How far the wait has come when `main` is at a place of it. -/
inductive WaitPhase.Matches : WaitPhase → UsbWait → Prop
  | first {value} : Matches .first ⟨value, UsbWait.body⟩
  | loop {value} (hother : value ≠ husbTdListDone) :
      Matches .loop ⟨value, usbWrite hpiSie1MsgAdr 0⟩
  | done : Matches .done ⟨husbTdListDone, usbWrite hpiSie1MsgAdr 0⟩

/-- The phase after a read that found `value`. -/
def WaitPhase.after (value : BitVec 16) : WaitPhase :=
  if value ≠ husbTdListDone then .loop else .done

theorem WaitPhase.waitPhase_after (value : BitVec 16) {again out : MainPlace}
    (hagain : again.waitPhase = some .loop) (hout : out.waitPhase = some .done) :
    (if value ≠ husbTdListDone then again else out).waitPhase = some (after value) := by
  unfold after
  split
  · exact hagain
  · exact hout

namespace UsbWait

theorem follow_first (usbCtlVal value : BitVec 16) :
    (⟨usbCtlVal, body⟩ : UsbWait).follow value (usbRead hpiSie1MsgAdr) =
      some ⟨value, usbWrite hpiSie1MsgAdr 0⟩ := rfl

/-- The clear of one iteration and the read of the next. -/
theorem follow_loop {usbCtlVal : BitVec 16} (hother : usbCtlVal ≠ husbTdListDone)
    (value : BitVec 16) :
    (⟨usbCtlVal, usbWrite hpiSie1MsgAdr 0⟩ : UsbWait).follow value
        (usbWrite hpiSie1MsgAdr 0 ++ usbRead hpiSie1MsgAdr) =
      some ⟨value, usbWrite hpiSie1MsgAdr 0⟩ := by
  simp [follow, step, hother, usbWrite, usbRead, body]

/-- The last clear, after which the function returns. -/
theorem follow_done (value : BitVec 16) :
    (⟨husbTdListDone, usbWrite hpiSie1MsgAdr 0⟩ : UsbWait).follow value
      (usbWrite hpiSie1MsgAdr 0) = some ⟨husbTdListDone, []⟩ := rfl

end UsbWait

namespace UsbMain

variable {main : UsbMain}

theorem calls_of_first (hphase : main.place.waitPhase = some .first) :
    main.calls = usbRead hpiSie1MsgAdr := by
  obtain ⟨place, toggle, dataSize, hotPlugCount, ctlReg, noDevice, keycodeBase⟩ := main
  cases place with
  | waitTdListDone request => rfl
  | waitPollDone => rfl
  | _ => cases hphase

theorem calls_of_loop (hphase : main.place.waitPhase = some .loop) :
    main.calls = usbWrite hpiSie1MsgAdr 0 ++ usbRead hpiSie1MsgAdr := by
  obtain ⟨place, toggle, dataSize, hotPlugCount, ctlReg, noDevice, keycodeBase⟩ := main
  cases place with
  | waitTdListDoneLoop request => rfl
  | waitPollDoneLoop => rfl
  | _ => cases hphase

theorem calls_of_done (hphase : main.place.waitPhase = some .done) :
    usbWrite hpiSie1MsgAdr 0 <+: main.calls := by
  obtain ⟨place, toggle, dataSize, hotPlugCount, ctlReg, noDevice, keycodeBase⟩ := main
  cases place with
  | tdControl request => exact List.prefix_append _ _
  | keycode => exact List.prefix_append _ _
  | _ => cases hphase

/-- A place of the wait is left by the test of the loop. -/
theorem waitPhase_step {phase : WaitPhase} (hphase : main.place.waitPhase = some phase)
    (hwaits : phase ≠ .done) (value : BitVec 16) :
    (main.step value).place.waitPhase = some (.after value) := by
  obtain ⟨place, toggle, dataSize, hotPlugCount, ctlReg, noDevice, keycodeBase⟩ := main
  cases place with
  | waitTdListDone request => exact WaitPhase.waitPhase_after value rfl rfl
  | waitTdListDoneLoop request => exact WaitPhase.waitPhase_after value rfl rfl
  | waitPollDone => exact WaitPhase.waitPhase_after value rfl rfl
  | waitPollDoneLoop => exact WaitPhase.waitPhase_after value rfl rfl
  | tdControl request =>
      cases hphase
      exact absurd rfl hwaits
  | keycode =>
      cases hphase
      exact absurd rfl hwaits
  | _ => cases hphase

/-- One place of `main` is a stretch of the wait. -/
theorem follow_step {phase : WaitPhase} (hphase : main.place.waitPhase = some phase)
    (hwaits : phase ≠ .done) {wait : UsbWait} (hmatches : phase.Matches wait)
    (value : BitVec 16) :
    wait.follow value main.calls = some ⟨value, usbWrite hpiSie1MsgAdr 0⟩ := by
  cases hmatches with
  | first =>
      rw [calls_of_first hphase]
      exact UsbWait.follow_first _ value
  | loop hother =>
      rw [calls_of_loop hphase]
      exact UsbWait.follow_loop hother value
  | done => exact absurd rfl hwaits

namespace Run

variable (run : Run)

/-- The wait over the calls of `len` places from `start` on. -/
def along (start : ℕ) (wait : UsbWait) : ℕ → Option UsbWait
  | 0 => some wait
  | len + 1 =>
      (along start wait len).bind
        (UsbWait.follow (run.value (start + len)) (run.main (start + len)).calls)

variable {run} {start len : ℕ}
  (hfirst : (run.main start).place.waitPhase = some .first)
include hfirst

/-- As long as no completion is read, `main` stays at the places of the wait, and
its calls are those of `UsbWaitTDListDone`. -/
theorem along_wait (usbCtlVal : BitVec 16)
    (hother : ∀ i < len, run.value (start + i) ≠ husbTdListDone) :
    run.along start ⟨usbCtlVal, UsbWait.body⟩ (len + 1) =
        some ⟨run.value (start + len), usbWrite hpiSie1MsgAdr 0⟩ ∧
      (run.main (start + len + 1)).place.waitPhase =
        some (.after (run.value (start + len))) := by
  induction len with
  | zero =>
      refine ⟨follow_step hfirst (by decide) .first _, ?_⟩
      rw [run.next]
      exact waitPhase_step hfirst (by decide) _
  | succ len ih =>
      obtain ⟨halong, hphase⟩ := ih fun i hi => hother i (Nat.lt_succ_of_lt hi)
      have hloop := hother len (Nat.lt_succ_self len)
      rw [WaitPhase.after, if_pos hloop] at hphase
      constructor
      · rw [along, halong, Option.bind_some]
        exact follow_step hphase (by decide) (.loop hloop) _
      · rw [run.next]
        exact waitPhase_step hphase (by decide) _

/-- With the first completion that is read `main` leaves the wait, and the next
two calls complete `UsbWaitTDListDone`. -/
theorem along_returns (usbCtlVal : BitVec 16)
    (hother : ∀ i < len, run.value (start + i) ≠ husbTdListDone)
    (hdone : run.value (start + len) = husbTdListDone) :
    usbWrite hpiSie1MsgAdr 0 <+: (run.main (start + len + 1)).calls ∧
      (run.along start ⟨usbCtlVal, UsbWait.body⟩ (len + 1)).bind
          (UsbWait.follow (run.value (start + len + 1)) (usbWrite hpiSie1MsgAdr 0)) =
        some ⟨husbTdListDone, []⟩ := by
  obtain ⟨halong, hphase⟩ := along_wait hfirst usbCtlVal hother
  rw [hdone] at halong hphase
  refine ⟨calls_of_done hphase, ?_⟩
  rw [halong]
  exact UsbWait.follow_done _

end Run

end UsbMain

end Galaga
