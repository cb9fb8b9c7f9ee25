import Galaga.Clocked.Cell
import Galaga.Model.HpiTransfer
import Mathlib.Tactic.NormNum

/-! # What the chip finds in its memory

If the chip leaves the words of a submission alone until `main` gives it the
pointer to them, it then finds a well-formed list there: a control transfer for
each request of the enumeration, and for each poll a single packet. All else that
`main` writes on the way is the pointer.
-/

namespace Galaga

open Memory

namespace HpiChip

/-- The same memory and address, apart from the free words. -/
structure Agrees (free : BitVec 16 → Prop) (chip other : HpiChip) : Prop where
  address : chip.address = other.address
  memory : ∀ a, ¬ free a → chip.memory a = other.memory a

variable {free : BitVec 16 → Prop} {chip other later : HpiChip}

theorem Agrees.refl (chip : HpiChip) : Agrees free chip chip := ⟨rfl, fun _ _ => rfl⟩

/-- An access does the same to both. -/
theorem Agrees.access (call : IoCall) (hagrees : Agrees free chip other) :
    Agrees free (chip.access call) (other.access call) := by
  obtain ⟨haddress, hmemory⟩ := hagrees
  cases call with
  | read port =>
      simp only [HpiChip.access]
      split
      · exact ⟨by rw [haddress], hmemory⟩
      · exact ⟨haddress, hmemory⟩
  | write port data =>
      simp only [HpiChip.access]
      split
      · exact ⟨rfl, hmemory⟩
      · split
        · refine ⟨by rw [haddress], fun a ha => ?_⟩
          change Function.update chip.memory chip.address data a =
            Function.update other.memory other.address data a
          rw [haddress]
          by_cases hsame : a = other.address
          · rw [hsame, Function.update_self, Function.update_self]
          · rw [Function.update_of_ne hsame, Function.update_of_ne hsame, hmemory a ha]
        · exact ⟨haddress, hmemory⟩

theorem Agrees.of_writes (hwrites : Writes free chip later) (hagrees : Agrees free chip other) :
    Agrees free later other := by
  obtain ⟨address, value, hfree, rfl⟩ := hwrites
  refine ⟨hagrees.address, fun a ha => ?_⟩
  have hne : a ≠ address := by
    rintro rfl
    exact ha hfree
  rw [← hagrees.memory a ha]
  exact Function.update_of_ne hne _ _

/-- The chip's writes make no difference outside of its words. -/
theorem agrees_of_interleaved {calls : List IoCall}
    (hruns : Interleaved HpiChip.access (Writes free) calls chip later) :
    Agrees free later (calls.foldl (fun chip call => chip.access call) chip) :=
  hruns.rule (Agrees free) (fun call _ _ => Agrees.access call) (fun _ _ _ => Agrees.of_writes)
    (Agrees.refl chip)

/-- The addresses of a block that begins at `start`. -/
def block (start : BitVec 16) (i : ℕ) : BitVec 16 := start + BitVec.ofNat 16 (2 * i)

theorem block_add_two (start : BitVec 16) :
    block (start + 2#16) = fun i => block start (i + 1) := by
  funext i
  unfold block
  rw [Nat.mul_succ, Nat.add_comm (2 * i), BitVec.ofNat_add, BitVec.add_assoc]

/-- A sequence of writes to `HPI_DATA`. -/
theorem foldl_words (words : List (BitVec 16)) (chip : HpiChip) :
    (words.map (IoCall.write hpiData)).foldl (fun chip call => chip.access call) chip =
      { address := block chip.address words.length
        memory := store chip.memory (block chip.address) words } := by
  induction words generalizing chip with
  | nil => simp [block, store]
  | cons word words ih =>
      rw [List.map_cons, List.foldl_cons, ih]
      have hnext : chip.access (.write hpiData word) =
          ⟨chip.address + 2#16, Function.update chip.memory chip.address word⟩ := rfl
      have hzero : block chip.address 0 = chip.address := by simp [block]
      rw [hnext, block_add_two, store, hzero, List.length_cons]

/-- A submission. -/
theorem foldl_submitTdList (words : List (BitVec 16)) (chip : HpiChip) :
    ((submitTdList words).foldl (fun chip call => chip.access call) chip).memory =
      Function.update (store chip.memory (block 0x0500) words) husbSie1PCurrentTdPtr 0x0500 := by
  rw [submitTdList, List.cons_append, List.foldl_cons, List.foldl_append, foldl_words]
  rfl

variable {words : List (BitVec 16)}

theorem block_injective {start : BitVec 16} {i j : ℕ} (hi : i < 0x8000) (hj : j < 0x8000)
    (hsame : block start i = block start j) : i = j := by
  have hoffset : BitVec.ofNat 16 (2 * i) = BitVec.ofNat 16 (2 * j) :=
    (BitVec.add_right_inj start).mp hsame
  rw [← BitVec.toNat_inj, BitVec.toNat_ofNat, BitVec.toNat_ofNat] at hoffset
  omega

/-- The words of a block that begins at `start` and has room above it. -/
theorem store_block {memory : BitVec 16 → BitVec 16} {start : BitVec 16}
    (hroom : words.length < 0x8000) {i : ℕ} (hi : i < words.length) :
    store memory (block start) words (block start i) = words[i] :=
  store_getElem (fun _ _ hi hj => block_injective (hi.trans hroom) (hj.trans hroom)) hi

theorem store_block_outside {memory : BitVec 16 → BitVec 16} {start a : BitVec 16}
    (houtside : 2 * words.length ≤ (a - start).toNat) :
    store memory (block start) words a = memory a := by
  apply store_of_outside
  rintro i hi rfl
  have hoffset : block start i - start = BitVec.ofNat 16 (2 * i) := by
    rw [block, BitVec.add_comm, BitVec.add_sub_cancel]
  rw [hoffset, BitVec.toNat_ofNat] at houtside
  have hmod := Nat.mod_le (2 * i) (2 ^ 16)
  omega

end HpiChip

/-- A memory with nothing but these words. -/
def image (words : List (BitVec 16)) : BitVec 16 → BitVec 16 :=
  store (fun _ => 0) (HpiChip.block 0x0500) words

/-- Nodes that lie in the block of a submission. -/
def Td.Inside (words : List (BitVec 16)) (nodes : List (BitVec 16 × Td)) : Prop :=
  ∀ node ∈ nodes, ∃ i < words.length, i + 6 ≤ words.length ∧ node.1 = HpiChip.block 0x0500 i

namespace UsbRequest

variable (request : UsbRequest)

theorem calls_eq : request.calls = submitTdList request.words := by
  cases request <;> rfl

theorem words_ne_nil : request.words ≠ [] := by
  cases request <;> decide

theorem length_words_le : request.words.length ≤ 64 := by
  cases request <;> decide

/-- The nodes of a request, first to last. -/
def nodes : List (BitVec 16 × Td) := (Td.list (image request.words) 0x0500).getD []

def tds : List Td := request.nodes.map Prod.snd

def setupTd : Td := request.tds.headD ⟨0, 0, 0, 0, 0, 0⟩

def dataTds : List Td := request.tds.tail.dropLast

def statusTd : Td := request.tds.getLastD ⟨0, 0, 0, 0, 0, 0⟩

theorem list_image : Td.list (image request.words) 0x0500 = some request.nodes := by
  cases request <;> decide +kernel

theorem nodes_inside : Td.Inside request.words request.nodes := by
  unfold Td.Inside
  cases request <;> decide +kernel

theorem map_nodes : request.nodes.map Prod.snd =
    request.setupTd :: (request.dataTds ++ [request.statusTd]) := by
  cases request <;> decide +kernel

theorem setupTd_base : request.setupTd.base = HpiChip.block 0x0500 6 := by
  cases request <;> decide +kernel

/-- The words of a request are a control transfer. -/
theorem controlTransfer :
    ControlTransfer request.device (image request.words (request.setupTd.base + 6#16)).toNat
      (0x0500 + 2 * request.words.length) request.setupTd request.dataTds request.statusTd where
  endpoint := by cases request <;> decide +kernel
  setup := by cases request <;> decide +kernel
  packets := by cases request <;> decide +kernel
  alternates := by cases request <;> decide +kernel
  gapless := by cases request <;> decide +kernel
  separate := by cases request <;> decide +kernel
  fits := by cases request <;> decide +kernel
  status := by cases request <;> decide +kernel

end UsbRequest

section Reading

variable {memory : BitVec 16 → BitVec 16} {words : List (BitVec 16)}

theorem image_block (hroom : words.length ≤ 64) {i : ℕ} (hi : i < words.length) :
    image words (HpiChip.block 0x0500 i) = words[i] :=
  HpiChip.store_block (by omega) hi

theorem HpiChip.block_add (start : BitVec 16) (i k : ℕ) :
    block start i + BitVec.ofNat 16 (2 * k) = block start (i + k) := by
  rw [block, block, BitVec.add_assoc, ← BitVec.ofNat_add, Nat.mul_add]

/-- A list of the words alone is the list in any memory that holds them. -/
theorem Td.list_of_words (hroom : words.length ≤ 64)
    (hwords : ∀ (i : ℕ) (hi : i < words.length), memory (HpiChip.block 0x0500 i) = words[i])
    {nodes : List (BitVec 16 × Td)} (himage : Td.list (image words) 0x0500 = some nodes)
    (hinside : Td.Inside words nodes) : Td.list memory 0x0500 = some nodes := by
  apply follow_congr himage
  intro node hnode
  obtain ⟨i, _, hfits, haddress⟩ := hinside node hnode
  have hword : ∀ k < 6, memory (node.1 + BitVec.ofNat 16 (2 * k)) =
      image words (node.1 + BitVec.ofNat 16 (2 * k)) := by
    intro k hk
    rw [haddress, HpiChip.block_add, hwords (i + k) (by omega), image_block hroom (by omega)]
  have hfirst := hword 0 (by omega)
  rw [Nat.mul_zero, BitVec.add_zero] at hfirst
  rw [Td.read, Td.read, mk.injEq]
  exact ⟨hfirst, hword 1 (by omega), hword 2 (by omega), hword 3 (by omega), hword 4 (by omega),
    hword 5 (by omega)⟩

end Reading

namespace UsbMain

variable {main : UsbMain}

/-- A place that submits words does so before it reads the status. -/
theorem dropLast_calls (hwords : main.tdWords ≠ []) :
    main.calls.dropLast = submitTdList main.tdWords := by
  obtain ⟨place, toggle, dataSize, hotPlugCount, ctlReg, noDevice, keycodeBase⟩ := main
  cases place with
  | request request =>
      change (request.calls ++ [IoCall.read hpiStatus]).dropLast = submitTdList request.words
      rw [List.dropLast_concat, request.calls_eq]
  | poll => rfl
  | resubmit => rfl
  | _ => exact absurd rfl hwords

theorem length_tdWords_le (main : UsbMain) : main.tdWords.length ≤ 64 := by
  obtain ⟨place, toggle, dataSize, hotPlugCount, ctlReg, noDevice, keycodeBase⟩ := main
  cases place with
  | request request => exact request.length_words_le
  | _ => exact Nat.le_of_ble_eq_true rfl

end UsbMain

namespace UsbSystem

variable {system : UsbSystem}

/-- What is in the memory when a submission is complete. -/
theorem LeavesAlone.submitted {n : ℕ} (halone : system.LeavesAlone n)
    (hwords : (system.main n).tdWords ≠ []) :
    (system.called n).memory husbSie1PCurrentTdPtr = 0x0500 ∧
      (∀ (i : ℕ) (hi : i < (system.main n).tdWords.length),
        (system.called n).memory (HpiChip.block 0x0500 i) = (system.main n).tdWords[i]) ∧
      ∀ a, ¬ system.free n a → a ≠ husbSie1PCurrentTdPtr →
        2 * (system.main n).tdWords.length ≤ (a - 0x0500).toNat →
          (system.called n).memory a = (system.chip n).memory a := by
  have hagrees := HpiChip.agrees_of_interleaved (system.calls n)
  rw [UsbMain.dropLast_calls hwords] at hagrees
  have hmemory := hagrees.memory
  rw [HpiChip.foldl_submitTdList] at hmemory
  have hroom := (system.main n).length_tdWords_le
  refine ⟨?_, fun i hi => ?_, fun a hfree hptr houtside => ?_⟩
  · rw [hmemory _ fun hfree => (halone _ hfree).1 rfl, Function.update_self]
  · have hoffset : (HpiChip.block 0x0500 i - 0x0500).toNat = 2 * i := by
      rw [HpiChip.block, BitVec.add_comm, BitVec.add_sub_cancel, BitVec.toNat_ofNat]
      exact Nat.mod_eq_of_lt (by omega)
    have hptr : HpiChip.block 0x0500 i ≠ husbSie1PCurrentTdPtr := by
      intro hsame
      rw [hsame] at hoffset
      have hfar : (husbSie1PCurrentTdPtr - 0x0500).toNat = 64688 := by decide
      omega
    rw [hmemory, Function.update_of_ne hptr, HpiChip.store_block (by omega) hi]
    intro hfree
    have houtside := (halone _ hfree).2
    omega
  · rw [hmemory a hfree, Function.update_of_ne hptr, HpiChip.store_block_outside houtside]

/-- Each request of the enumeration is submitted as a control transfer, to the
device address 0 for the first and to the new address for the others. -/
theorem request_is_control_transfer {n : ℕ} {request : UsbRequest}
    (hplace : (system.main n).place = .request request) (halone : system.LeavesAlone n) :
    (system.called n).memory husbSie1PCurrentTdPtr = 0x0500 ∧
      (∃ nodes setup data status, Td.list (system.called n).memory 0x0500 = some nodes ∧
        nodes.map Prod.snd = setup :: (data ++ [status]) ∧
        ControlTransfer request.device ((system.called n).memory (setup.base + 6#16)).toNat
          (0x0500 + 2 * request.words.length) setup data status) ∧
      ∀ a, ¬ system.free n a → a ≠ husbSie1PCurrentTdPtr →
        2 * request.words.length ≤ (a - 0x0500).toNat →
          (system.called n).memory a = (system.chip n).memory a := by
  have hwords : (system.main n).tdWords = request.words := by rw [UsbMain.tdWords, hplace]
  have hsome : (system.main n).tdWords ≠ [] := by
    rw [hwords]
    exact request.words_ne_nil
  obtain ⟨hpointer, hmemory, hframe⟩ := halone.submitted hsome
  simp only [hwords] at hmemory hframe
  have hroom := request.length_words_le
  refine ⟨hpointer, ⟨request.nodes, request.setupTd, request.dataTds, request.statusTd,
    Td.list_of_words hroom hmemory request.list_image request.nodes_inside, request.map_nodes,
    ?_⟩, hframe⟩
  have hlength : 10 ≤ request.words.length := by cases request <;> decide
  have hfield : (system.called n).memory (request.setupTd.base + 6#16) =
      image request.words (request.setupTd.base + 6#16) := by
    rw [request.setupTd_base]
    have hnine := HpiChip.block_add 0x0500 6 3
    change HpiChip.block 0x0500 6 + 6#16 = HpiChip.block 0x0500 9 at hnine
    rw [hnine, hmemory 9 (by omega), image_block hroom (by omega)]
  rw [hfield]
  exact request.controlTransfer

end UsbSystem

/-- The requests after the one in which `main` asks for the size of a packet. -/
def UsbRequest.sized : UsbRequest → Bool
  | setConfig | classRequest | getHidDesc | getReportDesc => true
  | _ => false

def MainPlace.sized : MainPlace → Bool
  | request current | waitTdListDone current | waitTdListDoneLoop current
  | tdControl current => current.sized
  | poll | resubmit | waitPollDone | waitPollDoneLoop | keycode | checkDevice | checkRetry
  | removed => true
  | _ => false

namespace UsbMain

/-- `data_size` is set at one place. -/
theorem dataSize_step (value : BitVec 16) (main : UsbMain) :
    (main.step value).dataSize =
      if main.place = .dataSize then (value &&& 0x0FF).setWidth 8 else main.dataSize := by
  obtain ⟨place, toggle, dataSize, hotPlugCount, ctlReg, noDevice, keycodeBase⟩ := main
  cases place with
  | dataSize => rfl
  | _ =>
      simp only [step]
      repeat' split
      all_goals first | rfl | contradiction

/-- Only that place leads to those after it. -/
theorem sized_of_step {value : BitVec 16} {main : UsbMain}
    (hsized : (main.step value).place.sized = true) :
    main.place.sized = true ∨ main.place = .dataSize := by
  obtain ⟨place, toggle, dataSize, hotPlugCount, ctlReg, noDevice, keycodeBase⟩ := main
  cases place with
  | dataSize => exact Or.inr rfl
  | tdControl request =>
      simp only [step] at hsized
      split at hsized
      next => cases hsized
      next => cases request <;> first | exact Or.inl rfl | cases hsized
  | _ =>
      simp only [step] at hsized
      repeat' split at hsized
      all_goals first | exact Or.inl hsized | cases hsized

/-- The chip is asked for a word that `main` has just written itself. -/
theorem foldl_dataSize {main : UsbMain} (hplace : main.place = .dataSize) (chip : HpiChip) :
    let later := main.calls.dropLast.foldl (fun chip call => chip.access call) chip
    later.address = 0x057C ∧ later.memory 0x057C = 0x0008 := by
  rw [calls, hplace]
  exact ⟨rfl, rfl⟩

namespace Run

variable (run : Run)

/-- `data_size` over the run. -/
def dataSize : Clocked.Cell (BitVec 8) where
  value n := (run.main n).dataSize
  written n :=
    if (run.main n).place = .dataSize then some ((run.value n &&& 0x0FF).setWidth 8) else none
  next n := by
    rw [run.next, dataSize_step]
    split <;> rfl

theorem exists_dataSize {n : ℕ} (hsized : (run.main n).place.sized = true) :
    ∃ m < n, (run.main m).place = .dataSize := by
  induction n with
  | zero =>
      rw [run.place] at hsized
      cases hsized
  | succ n ih =>
      rw [run.next] at hsized
      rcases sized_of_step hsized with hbefore | hplace
      · obtain ⟨m, hm, hplace⟩ := ih hbefore
        exact ⟨m, Nat.lt_succ_of_lt hm, hplace⟩
      · exact ⟨n, Nat.lt_succ_self n, hplace⟩

/-- Where `main` has set `data_size` when it is at one of those places. -/
theorem exists_last_dataSize {n : ℕ} (hsized : (run.main n).place.sized = true) :
    ∃ m < n, (run.main m).place = .dataSize ∧
      (∀ k, m < k → k < n → (run.main k).place ≠ .dataSize) ∧
      (run.main n).dataSize = (run.value m &&& 0x0FF).setWidth 8 := by
  have hunwritten : ∀ k, run.dataSize.written k = none → (run.main k).place ≠ .dataSize := by
    intro k hnone hplace
    change (if (run.main k).place = .dataSize then _ else _) = _ at hnone
    rw [if_pos hplace] at hnone
    cases hnone
  rcases run.dataSize.exists_last n with ⟨hnone, _⟩ | ⟨m, hm, hwritten, hnone⟩
  · obtain ⟨m, hm, hplace⟩ := run.exists_dataSize hsized
    exact absurd hplace (hunwritten m (hnone m hm))
  · refine ⟨m, hm, ?_⟩
    change (if (run.main m).place = .dataSize then _ else _) = _ at hwritten
    split at hwritten
    next hplace =>
      exact ⟨hplace, fun k hlow hhigh => hunwritten k (hnone k hlow hhigh),
        (Option.some.inj hwritten).symm⟩
    next => cases hwritten

end Run

/-- The descriptor of a poll. -/
def interruptNode (toggle dataSize : BitVec 8) : Td :=
  ⟨0x051C, 0x000F &&& dataSize.setWidth 16, 0x0291,
    if toggle % 2#8 ≠ 0#8 then 0x0001 else 0x0041, 0x0013, 0x0000⟩

theorem interruptNode_spec (toggle dataSize : BitVec 8) :
    let td := interruptNode toggle dataSize
    td.token = some .deviceToHost ∧ td.device = 2 ∧ td.endpoint = 1 ∧
      td.length = 0x000F &&& dataSize.setWidth 16 ∧ td.data1 = (toggle % 2#8 == 0#8) ∧
      td.base = 0x051C := by
  have hpid : ∀ td : Td, td.pid = 0x0291 →
      td.token = some .deviceToHost ∧ td.device = 2 ∧ td.endpoint = 1 := by
    intro td hpid
    rw [Td.token, Td.device, Td.endpoint, hpid]
    decide
  obtain ⟨htoken, hdevice, hendpoint⟩ := hpid (interruptNode toggle dataSize) rfl
  refine ⟨htoken, hdevice, hendpoint, rfl, ?_, rfl⟩
  unfold interruptNode
  by_cases hodd : toggle % 2#8 ≠ 0#8
  · rw [if_pos hodd, beq_eq_false_iff_ne.mpr hodd]
    change decide ((0x0001 : BitVec 16) &&& 0x0040 ≠ 0) = false
    decide
  · rw [if_neg hodd, Decidable.not_not.mp hodd]
    change decide ((0x0041 : BitVec 16) &&& 0x0040 ≠ 0) = true
    decide

/-- A memory that holds the words of a poll holds its descriptor. -/
theorem list_of_interruptTd {memory : BitVec 16 → BitVec 16} {toggle dataSize : BitVec 8}
    (hwords : ∀ (i : ℕ) (hi : i < (interruptTd toggle dataSize).length),
      memory (HpiChip.block 0x0500 i) = (interruptTd toggle dataSize)[i]) :
    Td.list memory 0x0500 = some [(0x0500, interruptNode toggle dataSize)] := by
  have hread : Td.read memory 0x0500 = interruptNode toggle dataSize := by
    rw [Td.read, interruptNode, Td.mk.injEq]
    have hword : ∀ (i : ℕ) (hi : i < 6), memory (HpiChip.block 0x0500 i) =
        (interruptTd toggle dataSize)[i] := hwords
    exact ⟨hword 0 (by decide), hword 1 (by decide), hword 2 (by decide), hword 3 (by decide),
      hword 4 (by decide), hword 5 (by decide)⟩
  rw [Td.list, follow_single (by decide) (by rw [hread]; rfl), hread]

end UsbMain

namespace UsbSystem

variable {system : UsbSystem}

/-- What `main` takes for the size of a packet. -/
theorem value_of_dataSize (system : UsbSystem) {n : ℕ}
    (hplace : (system.main n).place = .dataSize) :
    system.value n = (system.asked n).memory 0x057C ∧
      (¬ system.free n 0x057C → ¬ system.answers n 0x057C → system.value n = 0x0008) := by
  have hcalled := HpiChip.agrees_of_interleaved (system.calls n)
  have hasked := HpiChip.agrees_of_interleaved (system.waits n)
  obtain ⟨haddress, hword⟩ := UsbMain.foldl_dataSize hplace (system.chip n)
  have hlast : (system.main n).calls.getLast? = some (.read hpiData) := by
    rw [UsbMain.calls, hplace]
    rfl
  have hvalue : system.value n = (system.asked n).memory 0x057C := by
    rw [system.data n hlast, HpiChip.data, hasked.address]
    change (system.asked n).memory (system.called n).address = _
    rw [hcalled.address, haddress]
  refine ⟨hvalue, fun hfree hanswers => ?_⟩
  rw [hvalue, hasked.memory _ hanswers]
  change (system.called n).memory _ = _
  rw [hcalled.memory _ hfree, hword]

/-- What the chip finds after a poll is its descriptor. -/
theorem LeavesAlone.list_poll {n : ℕ} (halone : system.LeavesAlone n)
    (hplace : (system.main n).place = .poll ∨ (system.main n).place = .resubmit) :
    (system.called n).memory husbSie1PCurrentTdPtr = 0x0500 ∧
      Td.list (system.called n).memory 0x0500 =
        some [(0x0500, UsbMain.interruptNode (system.main (n + 1)).toggle
          (system.main n).dataSize)] := by
  have hwords : (system.main n).tdWords =
      interruptTd (system.main (n + 1)).toggle (system.main n).dataSize := by
    rw [system.next, UsbMain.tdWords]
    rcases hplace with hplace | hplace <;> simp only [hplace, UsbMain.step]
  have hsome : (system.main n).tdWords ≠ [] := by
    rw [hwords]
    exact List.cons_ne_nil _ _
  obtain ⟨hpointer, hmemory, _⟩ := halone.submitted hsome
  simp only [hwords] at hmemory
  exact ⟨hpointer, UsbMain.list_of_interruptTd hmemory⟩

/-- Each poll is submitted as one packet from endpoint 1 of the keyboard, with the
toggle of `main`, next to the descriptor and not over it. Its size is what `main`
found in an endpoint descriptor that it had just written itself. -/
theorem poll_is_interrupt_transfer {n : ℕ}
    (hplace : (system.main n).place = .poll ∨ (system.main n).place = .resubmit)
    (halone : system.LeavesAlone n) :
    (system.called n).memory husbSie1PCurrentTdPtr = 0x0500 ∧
      (∃ td, Td.list (system.called n).memory 0x0500 = some [(0x0500, td)] ∧
        td.token = some .deviceToHost ∧ td.device = 2 ∧ td.endpoint = 1 ∧
        td.length = 0x000F &&& (system.main n).dataSize.setWidth 16 ∧
        td.data1 = ((system.main (n + 1)).toggle % 2#8 == 0#8) ∧ td.base = 0x051C) ∧
      ∃ m < n, (system.main m).place = .dataSize ∧
        (∀ k, m < k → k < n → (system.main k).place ≠ .dataSize) ∧
        (system.main n).dataSize = ((system.asked m).memory 0x057C).setWidth 8 ∧
        (¬ system.free m 0x057C → ¬ system.answers m 0x057C → (system.main n).dataSize = 8#8) := by
  have hsized : (system.main n).place.sized = true := by
    rcases hplace with hplace | hplace <;> rw [hplace] <;> rfl
  obtain ⟨hpointer, hlist⟩ := halone.list_poll hplace
  obtain ⟨m, hm, hset, hnone, hsize⟩ := system.toRun.exists_last_dataSize hsized
  obtain ⟨hvalue, height⟩ := system.value_of_dataSize hset
  refine ⟨hpointer, ⟨_, hlist, UsbMain.interruptNode_spec _ _⟩, m, hm, hset, hnone, ?_,
    fun hfree hanswers => ?_⟩
  · rw [hsize, hvalue, BitVec.setWidth_and]
    exact BitVec.and_allOnes
  · rw [hsize, height hfree hanswers]
    rfl

section Script

/-- The chip after writes of its own. -/
def written (writes : List (BitVec 16 × BitVec 16)) (chip : HpiChip) : HpiChip :=
  writes.foldl (fun chip write =>
    { chip with memory := Function.update chip.memory write.1 write.2 }) chip

/-- The chip after the calls of a place but the last. -/
def calledBy (main : UsbMain) (chip : HpiChip) : HpiChip :=
  main.calls.dropLast.foldl (fun chip call => chip.access call) chip

/-- What `main` reads then; `status` is for the mailbox and the status. -/
def answer (status : BitVec 16) (main : UsbMain) (chip : HpiChip) : BitVec 16 :=
  if main.calls.getLast? = some (.read hpiData) then chip.data else status

variable (status : ℕ → BitVec 16) (writes replies : ℕ → List (BitVec 16 × BitVec 16))

/-- The passes of `main` from the label on, with writes of the chip before the calls
of each place and before the last of them. -/
def passes (n : ℕ) : UsbMain × HpiChip :=
  n.rec (⟨.usbHotPlug, 0#8, 0#8, 0#8, 0#16, 0#16, 0#8⟩, ⟨0, fun _ => 0⟩) fun n s =>
    let asked := written (replies n) (calledBy s.1 (written (writes n) s.2))
    (s.1.step (answer (status n) s.1 asked),
      s.1.calls.getLast?.toList.foldl (fun chip call => chip.access call) asked)

theorem interleaved_written (list : List (BitVec 16 × BitVec 16)) {free : BitVec 16 → Prop}
    (hfree : ∀ write ∈ list, free write.1) (calls : List IoCall) (chip : HpiChip) :
    Interleaved HpiChip.access (HpiChip.Writes free) calls chip
      (calls.foldl (fun chip call => chip.access call) (written list chip)) := by
  induction list generalizing chip with
  | nil => exact Interleaved.alone calls chip
  | cons write list ih =>
      have hrest := ih (fun later hlater => hfree later (List.mem_cons_of_mem _ hlater))
        { chip with memory := Function.update chip.memory write.1 write.2 }
      exact .interfere ⟨write.1, write.2, hfree write List.mem_cons_self, rfl⟩ hrest

/-- The system of a script. -/
def ofScript : UsbSystem where
  main n := (passes status writes replies n).1
  value n := answer (status n) (passes status writes replies n).1
    (written (replies n) (calledBy (passes status writes replies n).1
      (written (writes n) (passes status writes replies n).2)))
  place := rfl
  toggle := rfl
  next _ := rfl
  chip n := (passes status writes replies n).2
  called n := calledBy (passes status writes replies n).1
    (written (writes n) (passes status writes replies n).2)
  asked n := written (replies n) (calledBy (passes status writes replies n).1
    (written (writes n) (passes status writes replies n).2))
  free n a := ∃ write ∈ writes n, write.1 = a
  answers n a := ∃ write ∈ replies n, write.1 = a
  calls _ := interleaved_written _ (fun write hwrite => ⟨write, hwrite, rfl⟩) _ _
  waits _ := interleaved_written _ (fun write hwrite => ⟨write, hwrite, rfl⟩) _ _
  lastCall _ := Interleaved.alone _ _
  data _ hlast := if_pos hlast

/-- The frame counter of the chip, and the line on which it shows the keyboard. -/
def frameWrites (n : ℕ) : List (BitVec 16 × BitVec 16) :=
  [(0xC092, BitVec.ofNat 16 n), (usb1CtlReg, aDmStat)]

/-- A keyboard that answers every request of the enumeration, and the first poll with
Enter. Its results are in the memory before `main` sees the flag. -/
def keyboardReplies (n : ℕ) : List (BitVec 16 × BitVec 16) :=
  if n = 32 then
    [(0x051C, 0x0000), (0x051E, 0x0028), (0x0508, 0x0003), (hpiSie1MsgAdr, husbTdListDone)]
  else if 4 ≤ n ∧ n < 19 ∧ n % 3 = 1 ∨ 20 ≤ n ∧ n < 32 ∧ n % 3 = 2 then
    [(0x0508, 0x0003), (hpiSie1MsgAdr, husbTdListDone)]
  else []

def enumerated : UsbSystem :=
  ofScript (fun n => if n = 1 ∨ n = 2 then commAck else hpiStatusSie1MsgFlag) frameWrites
    keyboardReplies

theorem free_enumerated {n : ℕ} {a : BitVec 16} (hfree : enumerated.free n a) :
    a = 0xC092 ∨ a = usb1CtlReg := by
  obtain ⟨write, hwrite, rfl⟩ := hfree
  change write ∈ [((0xC092 : BitVec 16), BitVec.ofNat 16 n), (usb1CtlReg, aDmStat)] at hwrite
  rw [List.mem_pair] at hwrite
  rcases hwrite with rfl | rfl
  · exact Or.inl rfl
  · exact Or.inr rfl

theorem leavesAlone_enumerated (n : ℕ) : enumerated.LeavesAlone n := by
  intro a hfree
  have hroom := (enumerated.main n).length_tdWords_le
  have hfar : a ≠ husbSie1PCurrentTdPtr ∧ 128 ≤ (a - 0x0500).toNat := by
    rcases free_enumerated hfree with rfl | rfl <;> decide
  exact ⟨hfar.1, by omega⟩

/-- It never answers into the word where `main` reads the size of a packet. -/
theorem keyboardReplies_ne (n : ℕ) : ∀ reply ∈ keyboardReplies n, reply.1 ≠ 0x057C := by
  intro reply hreply
  unfold keyboardReplies at hreply
  split_ifs at hreply
  · simp only [List.mem_cons, List.not_mem_nil, or_false] at hreply
    rcases hreply with rfl | rfl | rfl | rfl <;> decide
  · simp only [List.mem_cons, List.not_mem_nil, or_false] at hreply
    rcases hreply with rfl | rfl <;> decide
  · cases hreply

/-- The request for the report descriptor. -/
theorem request_is_control_transfer_enumerated :
    ∃ nodes setup data status, Td.list (enumerated.called 29).memory 0x0500 = some nodes ∧
      nodes.map Prod.snd = setup :: (data ++ [status]) ∧
      ControlTransfer 2 ((enumerated.called 29).memory (setup.base + 6#16)).toNat
        (0x0500 + 2 * UsbRequest.getReportDesc.words.length) setup data status :=
  (request_is_control_transfer
    (show (enumerated.main 29).place = .request .getReportDesc by decide +kernel)
    (leavesAlone_enumerated 29)).2.1

/-- The first poll. -/
theorem poll_is_interrupt_transfer_enumerated :
    ∃ td, Td.list (enumerated.called 32).memory 0x0500 = some [(0x0500, td)] ∧
      td.length = 8 := by
  have hplace : (enumerated.main 32).place = .poll := by decide +kernel
  obtain ⟨_, ⟨td, hlist, _, _, _, hlength, _⟩, m, hm, _, _, _, height⟩ :=
    poll_is_interrupt_transfer (Or.inl hplace) (leavesAlone_enumerated 32)
  have hsize : (enumerated.main 32).dataSize = 8#8 := by
    apply height
    · intro hfree
      rcases free_enumerated hfree with hsame | hsame <;> revert hsame <;> decide
    · rintro ⟨reply, hreply, hsame⟩
      exact keyboardReplies_ne m reply hreply hsame
  rw [hsize] at hlength
  exact ⟨td, hlist, hlength⟩

end Script

end UsbSystem

end Galaga
