import Galaga.Model.UsbKeyboard
import Mathlib.Logic.Function.Basic

/-! # Waiting for a completion: `UsbWaitTDListDone` and the chip

The chip leaves its messages in the message register of SIE1, which is a word of
its memory. The host reads and clears the same word through the HPI port, with
an access for the address and one for the data, and the chip may post a message
between any two accesses. Whether a message replaces the word there or sets bits
of it is left open.
-/

namespace Galaga

/-- The messages for the host in `lcp_cmd.h`. -/
inductive SieMessage where
  | tdListDone
  | sof
  | aRmv
  | aInsFs
  | aInsLs
  | aWakeUp
  | bRmv
  | bInsFs
  | bInsLs
  | bWakeUp
deriving DecidableEq, Repr

def SieMessage.word : SieMessage → BitVec 16
  | tdListDone => husbTdListDone
  | sof => 0x2000
  | aRmv => 0x0001
  | aInsFs => 0x0002
  | aInsLs => 0x0004
  | aWakeUp => 0x0008
  | bRmv => 0x0010
  | bInsFs => 0x0020
  | bInsLs => 0x0040
  | bWakeUp => 0x0080

/-- What a message makes of the word in the register. Only a completion can make it
the word of a completion. -/
structure Posting where
  word : BitVec 16 → SieMessage → BitVec 16
  other : ∀ before message, message ≠ .tdListDone → word before message ≠ husbTdListDone

namespace Posting

theorem word_ne_of_other {message : SieMessage} (hother : message ≠ .tdListDone) :
    message.word ≠ husbTdListDone := by
  cases message with
  | tdListDone => exact absurd rfl hother
  | _ => decide

/-- A message replaces the one before it. -/
def replace : Posting where
  word _ message := message.word
  other _ _ := word_ne_of_other

/-- A message sets its bit. -/
def setBit : Posting where
  word before message := before ||| message.word
  other before message hother := by
    intro hdone
    have hbit : (before ||| message.word) &&& message.word = message.word := by
      ext i
      simp +contextual
    rw [hdone] at hbit
    revert hbit
    cases message with
    | tdListDone => exact absurd rfl hother
    | _ => decide

end Posting

/-- The chip behind its HPI port. -/
structure HpiChip where
  address : BitVec 16
  memory : BitVec 16 → BitVec 16

namespace HpiChip

/-- The word at `HPI_DATA`. -/
def data (chip : HpiChip) : BitVec 16 := chip.memory chip.address

/-- An access of the host. Each one to `HPI_DATA` moves on to the next word. The
mailbox and the status are not in the memory. -/
def access (call : IoCall) (chip : HpiChip) : HpiChip :=
  match call with
  | .write port data =>
      if port = hpiAddr then { chip with address := data }
      else if port = hpiData then
        { address := chip.address + 2#16
          memory := Function.update chip.memory chip.address data }
      else chip
  | .read port => if port = hpiData then { chip with address := chip.address + 2#16 } else chip

/-- The chip posts a message. -/
def post (posting : Posting) (message : SieMessage) (chip : HpiChip) : HpiChip :=
  { chip with
    memory := Function.update chip.memory hpiSie1MsgAdr
      (posting.word (chip.memory hpiSie1MsgAdr) message) }

end HpiChip

/-- `UsbWaitTDListDone` under way: its variable, and the accesses to come in this
iteration of its loop. -/
structure UsbWait where
  usbCtlVal : BitVec 16
  todo : List IoCall
deriving DecidableEq, Repr

namespace UsbWait

/-- The accesses before the loop, and those of its body. -/
def body : List IoCall := usbRead hpiSie1MsgAdr ++ usbWrite hpiSie1MsgAdr 0

/-- One access, with the value that it reads if it is a read. The loop tests its
condition after the last access of an iteration; with no accesses left the
function has returned. -/
def step (value : BitVec 16) (wait : UsbWait) : UsbWait :=
  match wait.todo with
  | [] => wait
  | call :: rest =>
      let usbCtlVal :=
        match call with
        | .read _ => value
        | .write _ _ => wait.usbCtlVal
      { usbCtlVal := usbCtlVal
        todo := if rest = [] ∧ usbCtlVal ≠ husbTdListDone then body else rest }

end UsbWait

/-- An access of the host, or a message of the chip. -/
inductive HpiEvent where
  | access
  | post (message : SieMessage)
deriving DecidableEq, Repr

/-- The host in `UsbWaitTDListDone`, and the chip. -/
structure WaitState where
  wait : UsbWait
  chip : HpiChip

namespace WaitState

/-- The next access of the host. -/
def call (s : WaitState) : Option IoCall := s.wait.todo.head?

def step (posting : Posting) (event : HpiEvent) (s : WaitState) : WaitState :=
  match event with
  | .access =>
      match s.call with
      | none => s
      | some call => { wait := s.wait.step s.chip.data, chip := s.chip.access call }
  | .post message => { s with chip := s.chip.post posting message }

/-- The next access reads the message register. -/
def Reads (s : WaitState) : Prop :=
  s.call = some (.read hpiData) ∧ s.chip.address = hpiSie1MsgAdr

instance (s : WaitState) : Decidable s.Reads := inferInstanceAs (Decidable (_ ∧ _))

/-- What an event writes to the message register. -/
def written (posting : Posting) (event : HpiEvent) (s : WaitState) : Option (BitVec 16) :=
  match event, s.call with
  | .post message, _ => some (posting.word (s.chip.memory hpiSie1MsgAdr) message)
  | .access, some (.write port data) =>
      if port = hpiData ∧ s.chip.address = hpiSie1MsgAdr then some data else none
  | .access, _ => none

end WaitState

/-- A run from a call of `UsbWaitTDListDone` on, with any messages between any two
accesses. The host always gets on to its next access. -/
structure WaitRun where
  posting : Posting
  state : ℕ → WaitState
  event : ℕ → HpiEvent
  start : (state 0).wait.todo = UsbWait.body
  next : ∀ n, state (n + 1) = (state n).step posting (event n)
  fair : ∀ n, ∃ m ≥ n, event m = .access

namespace WaitRun

variable (run : WaitRun)

/-- The function has not returned yet. -/
def Waits (n : ℕ) : Prop := (run.state n).wait.todo ≠ []

instance (n : ℕ) : Decidable (run.Waits n) := inferInstanceAs (Decidable (_ ≠ _))

/-- Event `n` is the host's read of the message register. -/
def Reads (n : ℕ) : Prop := run.event n = .access ∧ (run.state n).Reads

end WaitRun

end Galaga
