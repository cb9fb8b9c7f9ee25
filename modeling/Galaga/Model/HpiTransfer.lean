import Galaga.Memory.Block
import Galaga.Model.UsbWait

/-! # Transfer descriptors

A submission leaves a linked list of descriptors in the memory of the chip, six
words each, and the address of the first one at `HUSB_SIE1_pCurrentTDPtr`. While
`main` writes it the chip may write to the memory as well.
-/

namespace Galaga

/-- The packets of the descriptors. -/
inductive UsbToken where
  | setup
  | deviceToHost
  | hostToDevice
deriving DecidableEq, Repr

/-- A transfer descriptor. -/
structure Td where
  base : BitVec 16
  length : BitVec 16
  /-- The device address, the packet and the endpoint. -/
  pid : BitVec 16
  control : BitVec 16
  retry : BitVec 16
  next : BitVec 16
deriving DecidableEq, Repr

namespace Td

/-- The descriptor at an address. -/
def read (memory : BitVec 16 → BitVec 16) (address : BitVec 16) : Td where
  base := memory address
  length := memory (address + 2#16)
  pid := memory (address + 4#16)
  control := memory (address + 6#16)
  retry := memory (address + 8#16)
  next := memory (address + 10#16)

def device (td : Td) : BitVec 16 := td.pid >>> 8

def endpoint (td : Td) : BitVec 16 := td.pid &&& 0x000F

def token (td : Td) : Option UsbToken :=
  match (td.pid >>> 4 &&& 0x000F).toNat with
  | 0xD => some .setup
  | 0x9 => some .deviceToHost
  | 0x1 => some .hostToDevice
  | _ => none

/-- The packet is a DATA1. -/
def data1 (td : Td) : Bool := td.control &&& 0x0040 ≠ 0

/-- The list of descriptors from an address on. -/
def list (memory : BitVec 16 → BitVec 16) (address : BitVec 16) :
    Option (List (BitVec 16 × Td)) :=
  Memory.follow (read memory) next 0 11 address

end Td

/-- Descriptors that make up a control transfer on endpoint 0 of a device, of at
most `length` bytes into memory from an address on: a request, the data in
packets that begin with DATA1 and alternate, and a status packet the other way. -/
structure ControlTransfer (device : BitVec 16) (length start : ℕ) (setup : Td) (data : List Td)
    (status : Td) : Prop where
  endpoint : ∀ td ∈ setup :: data ++ [status], td.device = device ∧ td.endpoint = 0
  setup : setup.token = some .setup ∧ setup.length = 8 ∧ setup.data1 = false
  packets : ∀ td ∈ data, td.token = some .deviceToHost
  alternates : data.map Td.data1 = (List.range data.length).map (· % 2 == 0)
  /-- The packets lie one after another in the memory. -/
  gapless : ∀ pair ∈ data.zip data.tail, pair.2.base = pair.1.base + pair.1.length
  separate : ∀ td ∈ data, start ≤ td.base.toNat
  fits : data.foldl (fun sum td => sum + td.length.toNat) 0 ≤ length
  status : status.token = some (if data = [] then .deviceToHost else .hostToDevice) ∧
    status.length = 0 ∧ status.data1 = true

/-- The words that calls write to `HPI_DATA`. -/
def IoCall.dataWords (calls : List IoCall) : List (BitVec 16) :=
  calls.filterMap fun
    | .write port data => if port = hpiData then some data else none
    | .read _ => none

/-- The words of a request, without the pointer to them. -/
def UsbRequest.words (request : UsbRequest) : List (BitVec 16) :=
  (IoCall.dataWords request.calls).dropLast

/-- The address of the device that a request is for. -/
def UsbRequest.device : UsbRequest → BitVec 16
  | setAddress => 0
  | _ => 2

/-- The words that are submitted at a place. -/
def UsbMain.tdWords (main : UsbMain) : List (BitVec 16) :=
  match main.place with
  | .request request => request.words
  | .poll => interruptTd (main.toggle + 1#8) main.dataSize
  | .resubmit => interruptTd main.toggle main.dataSize
  | _ => []

namespace HpiChip

/-- A write of the chip to one of the free words of its memory. -/
def Writes (free : BitVec 16 → Prop) (chip later : HpiChip) : Prop :=
  ∃ address value, free address ∧
    later = { chip with memory := Function.update chip.memory address value }

theorem writes_post (posting : Posting) (chip : HpiChip) (message : SieMessage) :
    Writes (· = hpiSie1MsgAdr) chip (chip.post posting message) :=
  ⟨_, _, rfl, rfl⟩

end HpiChip

/-- `main` with the chip, whose memory it shares. What the mailbox and the status
hold is left open. -/
structure UsbSystem extends UsbMain.Run where
  /-- The chip when `main` comes to a place. -/
  chip : ℕ → HpiChip
  /-- The chip when `main` has made all calls there but the last. -/
  called : ℕ → HpiChip
  /-- The chip when `main` makes the last one, the read that decides where it goes on. -/
  asked : ℕ → HpiChip
  /-- The words that the chip may write up to the last call but one. -/
  free : ℕ → BitVec 16 → Prop
  /-- The words that it may write from then on. -/
  answers : ℕ → BitVec 16 → Prop
  calls : ∀ n, Memory.Interleaved HpiChip.access (HpiChip.Writes (free n))
    (main n).calls.dropLast (chip n) (called n)
  waits : ∀ n, Memory.Interleaved HpiChip.access (HpiChip.Writes (answers n)) []
    (called n) (asked n)
  lastCall : ∀ n, Memory.Interleaved HpiChip.access (HpiChip.Writes (answers n))
    (main n).calls.getLast?.toList (asked n) (chip (n + 1))
  data : ∀ n, (main n).calls.getLast? = some (.read hpiData) → value n = (asked n).data

/-- Until it has been given the pointer to a submission, the chip leaves the words
of it and the pointer alone. -/
def UsbSystem.LeavesAlone (system : UsbSystem) (n : ℕ) : Prop :=
  ∀ a, system.free n a → a ≠ husbSie1PCurrentTdPtr ∧
    2 * (system.main n).tdWords.length ≤ (a - 0x0500).toNat

end Galaga
