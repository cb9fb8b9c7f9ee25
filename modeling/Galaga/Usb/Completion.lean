import Galaga.Clocked.Cell
import Galaga.Clocked.Work
import Galaga.Model.UsbWait

/-! # Lost completions

The host clears the message register in every iteration of its wait, whatever it
has read there. A completion that is posted between the read and the clear is
gone, and the wait has no end.
-/

namespace Galaga

open Clocked IoCall

namespace WaitState

variable {posting : Posting}

/-- How far an iteration has come, and where the address of the chip points. -/
inductive Stage : WaitState → Prop
  | selectRead {value chip} : Stage ⟨⟨value, UsbWait.body⟩, chip⟩
  | readData {value chip} (haddress : chip.address = hpiSie1MsgAdr) :
      Stage ⟨⟨value, [read hpiData, write hpiAddr hpiSie1MsgAdr, write hpiData 0]⟩, chip⟩
  | selectClear {value chip} :
      Stage ⟨⟨value, [write hpiAddr hpiSie1MsgAdr, write hpiData 0]⟩, chip⟩
  | clearData {value chip} (haddress : chip.address = hpiSie1MsgAdr) :
      Stage ⟨⟨value, [write hpiData 0]⟩, chip⟩
  | returned {value chip} : Stage ⟨⟨value, []⟩, chip⟩

/-- After the last access of an iteration the loop tests its condition. -/
theorem step_of_last (value data : BitVec 16) (port : BitVec 8) (zero : BitVec 16) :
    (⟨value, [write port zero]⟩ : UsbWait).step data =
      ⟨value, if value ≠ husbTdListDone then UsbWait.body else []⟩ := by
  simp [UsbWait.step]

theorem Stage.step {s : WaitState} (hstage : s.Stage) (event : HpiEvent) :
    (s.step posting event).Stage := by
  cases event with
  | post message =>
      cases hstage with
      | selectRead => exact .selectRead
      | readData haddress => exact .readData haddress
      | selectClear => exact .selectClear
      | clearData haddress => exact .clearData haddress
      | returned => exact .returned
  | access =>
      cases hstage with
      | selectRead => exact .readData rfl
      | readData haddress => exact .selectClear
      | selectClear => exact .clearData rfl
      | clearData haddress =>
          change Stage ⟨UsbWait.step _ _, _⟩
          rw [step_of_last]
          split
          · exact .selectRead
          · exact .returned
      | returned => exact .returned

/-- An event leaves in the message register what it writes there, or else what
was there before. -/
theorem memory_step (event : HpiEvent) (s : WaitState) :
    (s.step posting event).chip.memory hpiSie1MsgAdr =
      (s.written posting event).getD (s.chip.memory hpiSie1MsgAdr) := by
  unfold step written
  cases event with
  | post message => simp only [HpiChip.post, Function.update_self, Option.getD_some]
  | access =>
      cases s.call with
      | none => rfl
      | some call =>
          cases call with
          | read port =>
              simp only [HpiChip.access]
              split <;> rfl
          | write port data =>
              simp only [HpiChip.access]
              by_cases haddr : port = hpiAddr
              · have hother : port ≠ hpiData := by
                  rw [haddr]
                  decide
                rw [if_pos haddr, if_neg fun hboth => hother hboth.1]
                rfl
              · rw [if_neg haddr]
                by_cases hdata : port = hpiData
                · by_cases haddress : s.chip.address = hpiSie1MsgAdr
                  · rw [if_pos hdata, if_pos ⟨hdata, haddress⟩, haddress]
                    simp only [Function.update_self, Option.getD_some]
                  · rw [if_pos hdata, if_neg fun hboth => haddress hboth.2]
                    simp only [Function.update_of_ne (Ne.symm haddress), Option.getD_none]
                · rw [if_neg hdata, if_neg fun hboth => hdata hboth.1]
                  rfl

theorem written_of_clear {value : BitVec 16} {chip : HpiChip}
    (haddress : chip.address = hpiSie1MsgAdr) :
    written posting .access ⟨⟨value, [write hpiData 0]⟩, chip⟩ = some 0 :=
  if_pos ⟨rfl, haddress⟩

/-- Until its read an iteration writes nothing to the message register. -/
theorem Stage.written_of_ahead {s : WaitState} (hstage : s.Stage)
    (hahead : read hpiData ∈ s.wait.todo) : s.written posting .access = none := by
  cases hstage with
  | selectRead => rfl
  | readData haddress => rfl
  | selectClear => simp at hahead
  | clearData haddress => simp at hahead
  | returned => cases hahead

/-- After its read an iteration does not read again without writing to the
message register. -/
theorem Stage.not_ahead_step {s : WaitState} (hstage : s.Stage) {event : HpiEvent}
    (hpast : read hpiData ∉ s.wait.todo) (hunwritten : s.written posting event = none) :
    read hpiData ∉ (s.step posting event).wait.todo := by
  cases event with
  | post message => exact hpast
  | access =>
      cases hstage with
      | selectRead => exact absurd (List.mem_cons_of_mem _ List.mem_cons_self) hpast
      | readData haddress => exact absurd List.mem_cons_self hpast
      | selectClear =>
          change read hpiData ∉ [write hpiData 0]
          simp
      | clearData haddress =>
          rw [written_of_clear haddress] at hunwritten
          cases hunwritten
      | returned => exact hpast

/-- The read that is about to take place is one of the message register. -/
theorem Stage.reads_of_call {s : WaitState} (hstage : s.Stage)
    (hcall : s.call = some (read hpiData)) : s.Reads := by
  refine ⟨hcall, ?_⟩
  cases hstage with
  | readData haddress => exact haddress
  | _ => cases hcall

/-- The completion has been read, and the iteration is past its read. -/
structure Finishing (s : WaitState) : Prop where
  done : s.wait.usbCtlVal = husbTdListDone
  past : read hpiData ∉ s.wait.todo

theorem Stage.finishing_step {s : WaitState} (hstage : s.Stage) (hfinishing : s.Finishing)
    (event : HpiEvent) : (s.step posting event).Finishing := by
  obtain ⟨hdone, hpast⟩ := hfinishing
  cases event with
  | post message => exact ⟨hdone, hpast⟩
  | access =>
      cases hstage with
      | selectRead => exact absurd (List.mem_cons_of_mem _ List.mem_cons_self) hpast
      | readData haddress => exact absurd List.mem_cons_self hpast
      | selectClear =>
          refine ⟨hdone, ?_⟩
          change read hpiData ∉ [write hpiData 0]
          simp
      | clearData haddress =>
          refine ⟨hdone, ?_⟩
          change read hpiData ∉ (UsbWait.step _ _).todo
          rw [step_of_last, if_neg fun hother => hother hdone]
          exact List.not_mem_nil
      | returned => exact ⟨hdone, hpast⟩

/-- A read that finds the completion leaves the clear to be done. -/
theorem Stage.step_of_done {s : WaitState} (hstage : s.Stage) (hreads : s.Reads)
    (hdone : s.chip.memory hpiSie1MsgAdr = husbTdListDone) :
    (s.step posting .access).Finishing ∧ write hpiData 0 ∈ (s.step posting .access).wait.todo := by
  obtain ⟨hcall, haddress⟩ := hreads
  cases hstage with
  | readData =>
      refine ⟨⟨?_, ?_⟩, List.mem_cons_of_mem _ List.mem_cons_self⟩
      · rw [← hdone, ← haddress]
        rfl
      · change read hpiData ∉ [write hpiAddr hpiSie1MsgAdr, write hpiData 0]
        simp
  | _ => cases hcall

/-- The clear after the completion is the last access. -/
theorem Stage.returned_of_finishing {s : WaitState} (hstage : s.Stage)
    (hfinishing : s.Finishing) (hcall : s.call = some (write hpiData 0)) :
    (s.step posting .access).wait.todo = [] := by
  cases hstage with
  | clearData haddress =>
      change (UsbWait.step _ _).todo = []
      rw [step_of_last, if_neg fun hother => hother hfinishing.done]
  | selectRead => cases hcall
  | selectClear => cases hcall
  | _ => cases hcall

/-- The completion is neither in the message register nor already read. -/
structure Missing (s : WaitState) : Prop where
  register : s.chip.memory hpiSie1MsgAdr ≠ husbTdListDone
  todo : s.wait.todo ≠ []
  unread : s.wait.usbCtlVal ≠ husbTdListDone ∨ read hpiData ∈ s.wait.todo

/-- Nothing but another completion brings a missing one back. -/
theorem Stage.missing_step {s : WaitState} (hstage : s.Stage) (hmissing : s.Missing)
    {event : HpiEvent} (hother : event ≠ .post .tdListDone) : (s.step posting event).Missing := by
  obtain ⟨hregister, htodo, hunread⟩ := hmissing
  cases event with
  | post message =>
      refine ⟨?_, htodo, hunread⟩
      rw [memory_step]
      exact posting.other _ _ fun hsame => hother (congrArg HpiEvent.post hsame)
  | access =>
      cases hstage with
      | selectRead => exact ⟨hregister, List.cons_ne_nil _ _, Or.inr List.mem_cons_self⟩
      | readData haddress =>
          refine ⟨hregister, List.cons_ne_nil _ _, Or.inl ?_⟩
          change HpiChip.memory _ (HpiChip.address _) ≠ husbTdListDone
          rw [haddress]
          exact hregister
      | selectClear =>
          refine ⟨hregister, List.cons_ne_nil _ _, Or.inl ?_⟩
          exact hunread.resolve_right (by simp)
      | clearData haddress =>
          rename_i value chip
          have hother : value ≠ husbTdListDone := hunread.resolve_right (by simp)
          refine ⟨?_, ?_, Or.inl hother⟩
          · rw [memory_step, written_of_clear haddress]
            change (0 : BitVec 16) ≠ husbTdListDone
            decide
          · change (UsbWait.step _ _).todo ≠ []
            rw [step_of_last, if_pos hother]
            exact List.cons_ne_nil _ _
      | returned => exact absurd rfl htodo

end WaitState

namespace WaitRun

variable (run : WaitRun)

theorem stage (n : ℕ) : (run.state n).Stage := by
  induction n with
  | zero =>
      have hstart := run.start
      revert hstart
      generalize run.state 0 = s
      intro hstart
      obtain ⟨⟨value, todo⟩, chip⟩ := s
      subst hstart
      exact .selectRead
  | succ n ih =>
      rw [run.next]
      exact ih.step (run.event n)

/-- The message register over the run. -/
def register : Cell (BitVec 16) where
  value n := (run.state n).chip.memory hpiSie1MsgAdr
  written n := (run.state n).written run.posting (run.event n)
  next n := by rw [run.next, WaitState.memory_step]

theorem works :
    Works (fun n => (run.state n).wait.todo) (fun n => decide (run.event n = .access)) where
  stall n hstall := by
    cases hevent : run.event n with
    | access => simp [hevent] at hstall
    | post message =>
        rw [run.next, hevent]
        rfl
  pop n head rest hadvance htodo hrest := by
    have hevent : run.event n = .access := of_decide_eq_true hadvance
    rw [run.next, hevent]
    simp [WaitState.step, WaitState.call, UsbWait.step, htodo, hrest]

theorem exists_turn {n : ℕ} {call : IoCall} (hmem : call ∈ (run.state n).wait.todo) :
    ∃ m ≥ n, run.event m = .access ∧ (run.state m).call = some call := by
  have hfair : ∀ n, ∃ m ≥ n, decide (run.event m = .access) = true := by
    intro n
    obtain ⟨m, hm, hevent⟩ := run.fair n
    exact ⟨m, hm, decide_eq_true hevent⟩
  obtain ⟨m, hm, hadvance, hcall⟩ := run.works.exists_turn_of_fair hfair hmem
  exact ⟨m, hm, of_decide_eq_true hadvance, hcall⟩

/-- A completion that is posted during the wait is read before anything else is
written to the message register, and the wait comes to its end. -/
structure NothingLost : Prop where
  received : ∀ n, run.Waits n → run.event n = .post .tdListDone →
    ∃ m, run.register.Received run.Reads n m ∧ run.register.value m = husbTdListDone
  returns : ∀ n, run.Waits n → run.event n = .post .tdListDone → ∃ m > n, ¬ run.Waits m

/-- A completion that is posted during the wait finds the iteration still ahead
of its read, no other message follows it up to then, and none is left in the
register that would be mixed with it. -/
structure InTime : Prop where
  ahead : ∀ n, run.Waits n → run.event n = .post .tdListDone →
    read hpiData ∈ (run.state n).wait.todo
  whole : ∀ n, run.Waits n → run.event n = .post .tdListDone →
    run.posting.word (run.register.value n) .tdListDone = husbTdListDone
  alone : ∀ n m message, n < m → run.Waits n → run.event n = .post .tdListDone →
    run.event m = .post message → ∃ k, n < k ∧ k < m ∧ run.Reads k

variable {run} {n : ℕ}

theorem written_of_post {message : SieMessage} (hpost : run.event n = .post message) :
    run.register.written n = some (run.posting.word (run.register.value n) message) := by
  change (run.state n).written run.posting (run.event n) = _
  rw [hpost]
  rfl

/-- As long as nothing is read, an iteration that is ahead of its read stays so. -/
theorem ahead_of_not_reads {m : ℕ} (hle : n ≤ m)
    (hahead : read hpiData ∈ (run.state n).wait.todo)
    (hnone : ∀ k, n ≤ k → k < m → ¬ run.Reads k) : read hpiData ∈ (run.state m).wait.todo := by
  apply stretch_rule (fun k => read hpiData ∈ (run.state k).wait.todo) hle hahead
  intro k hlow hhigh hstill
  apply run.works.mem_succ hstill
  intro hadvance hcall
  refine hnone k hlow hhigh ⟨of_decide_eq_true hadvance, ?_⟩
  exact (run.stage k).reads_of_call hcall

/-- As long as nothing is written, an iteration that is past its read does not
read. -/
theorem not_ahead_of_unwritten {m : ℕ} (hle : n ≤ m)
    (hpast : read hpiData ∉ (run.state n).wait.todo)
    (hnone : ∀ k, n ≤ k → k < m → run.register.written k = none) :
    read hpiData ∉ (run.state m).wait.todo := by
  apply stretch_rule (fun k => read hpiData ∉ (run.state k).wait.todo) hle hpast
  intro k hlow hhigh hstill
  rw [run.next]
  exact (run.stage k).not_ahead_step hstill (hnone k hlow hhigh)

theorem Reads.ahead (hreads : run.Reads n) : read hpiData ∈ (run.state n).wait.todo :=
  List.mem_of_mem_head? hreads.2.1

/-- What is received was posted ahead of the read. -/
theorem ahead_of_received {m : ℕ} {message : SieMessage} (hpost : run.event n = .post message)
    (hreceived : run.register.Received run.Reads n m) :
    read hpiData ∈ (run.state n).wait.todo := by
  by_contra hpast
  have hstill : read hpiData ∉ (run.state (n + 1)).wait.todo := by
    rw [run.next, hpost]
    exact hpast
  exact not_ahead_of_unwritten hreceived.later hstill hreceived.unwritten hreceived.reads.ahead

/-- A completion posted in time is received by the next read. -/
theorem received_of_inTime (htime : run.InTime) (hwaits : run.Waits n)
    (hpost : run.event n = .post .tdListDone) :
    ∃ m, run.register.Received run.Reads n m ∧ run.register.value m = husbTdListDone := by
  have hahead := htime.ahead n hwaits hpost
  obtain ⟨turn, hle, hevent, hcall⟩ := run.exists_turn hahead
  have hread : run.Reads turn := ⟨hevent, (run.stage turn).reads_of_call hcall⟩
  have hlater : n < turn := by
    refine Nat.lt_of_le_of_ne hle ?_
    rintro rfl
    rw [hpost] at hevent
    cases hevent
  obtain ⟨first, hafter, hreads, hfirst⟩ := exists_first run.Reads hlater hread
  suffices hreceived : run.register.Received run.Reads n first by
    refine ⟨first, hreceived, ?_⟩
    rw [hreceived.value_eq (written_of_post hpost)]
    exact htime.whole n hwaits hpost
  refine ⟨hafter, hreads, ?_⟩
  intro k hlow hhigh
  have hnone : ∀ i, n + 1 ≤ i → i < k → ¬ run.Reads i := by
    intro i hi hik
    exact hfirst i hi (Nat.lt_trans hik hhigh)
  have hstill : read hpiData ∈ (run.state (n + 1)).wait.todo := by
    rw [run.next, hpost]
    exact hahead
  change (run.state k).written run.posting (run.event k) = none
  cases hother : run.event k with
  | access => exact (run.stage k).written_of_ahead (ahead_of_not_reads hlow hstill hnone)
  | post message =>
      obtain ⟨i, hni, hik, hreads'⟩ := htime.alone n k message hlow hwaits hpost hother
      exact absurd hreads' (hnone i hni hik)

theorem finishing_of_finishing {m : ℕ} (hle : n ≤ m) (hfinishing : (run.state n).Finishing) :
    (run.state m).Finishing := by
  apply stretch_rule (fun k => (run.state k).Finishing) hle hfinishing
  intro k _ _ hstill
  rw [run.next]
  exact (run.stage k).finishing_step hstill (run.event k)

/-- Once the completion is read, the function returns. -/
theorem returns_of_received {m : ℕ} (hreceived : run.register.Received run.Reads n m)
    (hdone : run.register.value m = husbTdListDone) : ∃ last > n, ¬ run.Waits last := by
  obtain ⟨hevent, hreads⟩ := hreceived.reads
  obtain ⟨hfinishing, hclear⟩ := (run.stage m).step_of_done hreads hdone
  rw [← hevent, ← run.next] at hfinishing hclear
  obtain ⟨last, hle, hlast, hcall⟩ := run.exists_turn hclear
  have hreturned : ((run.state last).step run.posting .access).wait.todo = [] :=
    (run.stage last).returned_of_finishing (finishing_of_finishing hle hfinishing) hcall
  rw [← hlast, ← run.next] at hreturned
  refine ⟨last + 1, ?_, fun hwaits => hwaits hreturned⟩
  exact Nat.lt_succ_of_lt (Nat.lt_of_lt_of_le hreceived.later (Nat.le_of_succ_le hle))

/-- No completion is lost exactly if all of them come in time. -/
theorem nothingLost_iff (run : WaitRun) : run.NothingLost ↔ run.InTime := by
  constructor
  · intro hlost
    constructor
    · intro n hwaits hpost
      obtain ⟨m, hreceived, _⟩ := hlost.received n hwaits hpost
      exact ahead_of_received hpost hreceived
    · intro n hwaits hpost
      obtain ⟨m, hreceived, hdone⟩ := hlost.received n hwaits hpost
      rw [← hdone, hreceived.value_eq (written_of_post hpost)]
    · intro n m message hlt hwaits hpost hother
      obtain ⟨k, hreceived, _⟩ := hlost.received n hwaits hpost
      refine ⟨k, hreceived.later, ?_, hreceived.reads⟩
      apply hreceived.lt_of_written hlt
      · rw [written_of_post hother]
        exact Option.some_ne_none _
      · intro hread
        rw [Reads, hother] at hread
        cases hread.1
  · intro htime
    constructor
    · intro n hwaits hpost
      exact received_of_inTime htime hwaits hpost
    · intro n hwaits hpost
      obtain ⟨m, hreceived, hdone⟩ := received_of_inTime htime hwaits hpost
      exact returns_of_received hreceived hdone

/-- A wait whose completion is missing never ends without another one. -/
theorem waits_of_missing {m : ℕ} (hle : n ≤ m) (hmissing : (run.state n).Missing)
    (hnone : ∀ k, n ≤ k → k < m → run.event k ≠ .post .tdListDone) : run.Waits m := by
  have hstill : (run.state m).Missing := by
    apply stretch_rule (fun k => (run.state k).Missing) hle hmissing
    intro k hlow hhigh hstill
    rw [run.next]
    exact (run.stage k).missing_step hstill (hnone k hlow hhigh)
  exact hstill.todo

/-- A device has been inserted when the wait begins. The completion comes after
the host has read that, and before it clears it. -/
def insertedFirst : WaitRun where
  posting := .replace
  state n :=
    n.rec ⟨⟨0#16, UsbWait.body⟩, ⟨0#16, fun _ => SieMessage.aInsFs.word⟩⟩ fun n s =>
      s.step .replace (if n = 2 then .post .tdListDone else .access)
  event n := if n = 2 then .post .tdListDone else .access
  start := rfl
  next _ := rfl
  fair n := ⟨n + 3, Nat.le_add_right n 3, if_neg (by omega)⟩

/-- The host clears the only message of the chip unread, and waits forever. -/
theorem not_nothingLost :
    insertedFirst.event 2 = .post .tdListDone ∧ (∀ n ≠ 2, insertedFirst.event n = .access) ∧
      (∀ n, insertedFirst.Waits n) ∧ ¬ insertedFirst.NothingLost := by
  have halone : ∀ n ≠ 2, insertedFirst.event n = .access := fun n hn => if_neg hn
  have hmissing : (insertedFirst.state 5).Missing :=
    { register := by decide
      todo := by decide
      unread := by decide }
  have hwaits : ∀ n, insertedFirst.Waits n := by
    intro n
    rcases Nat.lt_or_ge n 5 with hsoon | hlate
    · have hfirst : ∀ k < 5, insertedFirst.Waits k := by decide
      exact hfirst n hsoon
    · refine waits_of_missing hlate hmissing fun k hk _ => ?_
      rw [halone k (by omega)]
      decide
  refine ⟨rfl, halone, hwaits, fun hlost => ?_⟩
  obtain ⟨last, _, hreturned⟩ := hlost.returns 2 (hwaits 2) rfl
  exact hreturned (hwaits last)

end WaitRun

end Galaga
