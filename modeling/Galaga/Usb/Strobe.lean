import Galaga.Clocked.Work
import Galaga.Model.HpiIoIntf

/-! # The write strobe and the bus

The strobes, the address and the data go through registers, but the bus is
driven by the unregistered request. So the bus is let go one cycle before the
write strobe ends.
-/

namespace Galaga

/-- An access takes the head off the list. -/
theorem Nios.todo_step (advance : Bool) (fromSwDataIn : BitVec 16) (nios : Nios) :
    (nios.step advance fromSwDataIn).todo = if advance then nios.todo.tail else nios.todo := by
  obtain ⟨ports, temp, current, todo⟩ := nios
  cases advance <;> cases todo <;> rfl

theorem Nios.step_of_todo {nios : Nios} {call : IoCall} {access : PioAccess}
    {rest : List (IoCall × PioAccess)} (htodo : nios.todo = (call, access) :: rest)
    (fromSwDataIn : BitVec 16) :
    nios.step true fromSwDataIn =
      { ports := nios.ports.access access
        temp := if access = .loadData then fromSwDataIn else nios.temp
        current := some call
        todo := rest } := by
  simp only [Nios.step, htodo]

/-- Only an access can request the write strobe. -/
theorem Nios.unrequested_step {nios : Nios} (hw : nios.ports.fromSwW = true)
    (htodo : ∀ item ∈ nios.todo, item.2 ≠ .otgHpiW false) (advance : Bool)
    (fromSwDataIn : BitVec 16) : (nios.step advance fromSwDataIn).ports.fromSwW = true := by
  obtain ⟨ports, temp, current, todo⟩ := nios
  cases advance with
  | false => exact hw
  | true =>
      cases todo with
      | nil => exact hw
      | cons item rest =>
          obtain ⟨call, access⟩ := item
          have hhead := htodo (call, access) List.mem_cons_self
          cases access with
          | otgHpiW level =>
              cases level with
              | false => exact absurd rfl hhead
              | true => rfl
          | _ => exact hw

namespace HpiRun

open IoCall

/-- How far a call has come: the accesses that remain, what the ports hold, and
what the registers have taken over from them. -/
inductive Stage : Nios → HpiIoIntf → Prop
  | between {ports temp current calls intf} (hw : ports.fromSwW = true)
      (hr : ports.fromSwR = true) (hwr : intf.otgWrN = true) (hrd : intf.otgRdN = true) :
      Stage ⟨ports, temp, current, program calls⟩ intf
  | writeSelected {ports temp address data calls intf} (hw : ports.fromSwW = true)
      (hr : ports.fromSwR = true) (hcs : ports.fromSwCs = false) (hwr : intf.otgWrN = true)
      (hrd : intf.otgRdN = true) :
      Stage ⟨ports, temp, some (write address data),
        (write address data, .otgHpiAddress address) :: (write address data, .otgHpiData data) ::
          (write address data, .otgHpiW false) :: (write address data, .otgHpiW true) ::
          (write address data, .otgHpiCs true) :: program calls⟩ intf
  | writeAddressed {ports temp address data calls intf} (hw : ports.fromSwW = true)
      (hr : ports.fromSwR = true) (hcs : ports.fromSwCs = false)
      (haddress : ports.fromSwAddress = address.setWidth 2) (hwr : intf.otgWrN = true)
      (hrd : intf.otgRdN = true) :
      Stage ⟨ports, temp, some (write address data),
        (write address data, .otgHpiData data) :: (write address data, .otgHpiW false) ::
          (write address data, .otgHpiW true) :: (write address data, .otgHpiCs true) ::
          program calls⟩ intf
  | writeLoaded {ports temp address data calls intf} (hw : ports.fromSwW = true)
      (hr : ports.fromSwR = true) (hcs : ports.fromSwCs = false)
      (haddress : ports.fromSwAddress = address.setWidth 2) (hdata : ports.fromSwDataOut = data)
      (hwr : intf.otgWrN = true) (hrd : intf.otgRdN = true) :
      Stage ⟨ports, temp, some (write address data),
        (write address data, .otgHpiW false) :: (write address data, .otgHpiW true) ::
          (write address data, .otgHpiCs true) :: program calls⟩ intf
  | writeStrobed {ports temp address data calls intf} (hw : ports.fromSwW = false)
      (hr : ports.fromSwR = true) (hcs : ports.fromSwCs = false)
      (haddress : ports.fromSwAddress = address.setWidth 2) (hdata : ports.fromSwDataOut = data)
      (haddr : intf.otgAddr = address.setWidth 2) (hbuffer : intf.fromSwDataOutBuffer = data)
      (hrd : intf.otgRdN = true) :
      Stage ⟨ports, temp, some (write address data),
        (write address data, .otgHpiW true) :: (write address data, .otgHpiCs true) ::
          program calls⟩ intf
  | writeReleased {ports temp address data calls intf} (hw : ports.fromSwW = true)
      (hr : ports.fromSwR = true) (haddress : ports.fromSwAddress = address.setWidth 2)
      (haddr : intf.otgAddr = address.setWidth 2) (hrd : intf.otgRdN = true) :
      Stage ⟨ports, temp, some (write address data),
        (write address data, .otgHpiCs true) :: program calls⟩ intf
  | readSelected {ports temp address calls intf} (hw : ports.fromSwW = true)
      (hr : ports.fromSwR = true) (hwr : intf.otgWrN = true) (hrd : intf.otgRdN = true) :
      Stage ⟨ports, temp, some (read address),
        (read address, .otgHpiAddress address) :: (read address, .otgHpiR false) ::
          (read address, .loadData) :: (read address, .otgHpiR true) ::
          (read address, .otgHpiCs true) :: program calls⟩ intf
  | readAddressed {ports temp address calls intf} (hw : ports.fromSwW = true)
      (hr : ports.fromSwR = true) (hwr : intf.otgWrN = true) (hrd : intf.otgRdN = true) :
      Stage ⟨ports, temp, some (read address),
        (read address, .otgHpiR false) :: (read address, .loadData) ::
          (read address, .otgHpiR true) :: (read address, .otgHpiCs true) :: program calls⟩ intf
  | readStrobed {ports temp address calls intf} (hw : ports.fromSwW = true)
      (hwr : intf.otgWrN = true) :
      Stage ⟨ports, temp, some (read address),
        (read address, .loadData) :: (read address, .otgHpiR true) ::
          (read address, .otgHpiCs true) :: program calls⟩ intf
  | readLoaded {ports temp address calls intf} (hw : ports.fromSwW = true)
      (hwr : intf.otgWrN = true) :
      Stage ⟨ports, temp, some (read address),
        (read address, .otgHpiR true) :: (read address, .otgHpiCs true) :: program calls⟩ intf
  | readReleased {ports temp address calls intf} (hw : ports.fromSwW = true)
      (hr : ports.fromSwR = true) (hwr : intf.otgWrN = true) :
      Stage ⟨ports, temp, some (read address),
        (read address, .otgHpiCs true) :: program calls⟩ intf

/-- A cycle without an access leaves the stage, and one with an access leads to
the next. -/
theorem Stage.step {nios : Nios} {intf : HpiIoIntf} (hstage : Stage nios intf) (advance : Bool)
    (chip : BitVec 16) :
    Stage (nios.step advance intf.fromSwDataIn) (intf.step false nios.ports chip) := by
  cases hstage with
  | between hw hr hwr hrd =>
      rename_i calls
      cases advance with
      | false => exact .between hw hr hw hr
      | true =>
          cases calls with
          | nil => exact .between hw hr hw hr
          | cons call calls =>
              cases call with
              | write address data => exact .writeSelected hw hr rfl hw hr
              | read address => exact .readSelected hw hr hw hr
  | writeSelected hw hr hcs hwr hrd =>
      cases advance with
      | false => exact .writeSelected hw hr hcs hw hr
      | true => exact .writeAddressed hw hr hcs rfl hw hr
  | writeAddressed hw hr hcs haddress hwr hrd =>
      cases advance with
      | false => exact .writeAddressed hw hr hcs haddress hw hr
      | true => exact .writeLoaded hw hr hcs haddress rfl hw hr
  | writeLoaded hw hr hcs haddress hdata hwr hrd =>
      cases advance with
      | false => exact .writeLoaded hw hr hcs haddress hdata hw hr
      | true => exact .writeStrobed rfl hr hcs haddress hdata haddress hdata hr
  | writeStrobed hw hr hcs haddress hdata haddr hbuffer hrd =>
      cases advance with
      | false => exact .writeStrobed hw hr hcs haddress hdata haddress hdata hr
      | true => exact .writeReleased rfl hr haddress haddress hr
  | writeReleased hw hr haddress haddr hrd =>
      cases advance with
      | false => exact .writeReleased hw hr haddress haddress hr
      | true => exact .between hw hr hw hr
  | readSelected hw hr hwr hrd =>
      cases advance with
      | false => exact .readSelected hw hr hw hr
      | true => exact .readAddressed hw hr hw hr
  | readAddressed hw hr hwr hrd =>
      cases advance with
      | false => exact .readAddressed hw hr hw hr
      | true => exact .readStrobed hw hw
  | readStrobed hw hwr =>
      cases advance with
      | false => exact .readStrobed hw hw
      | true => exact .readLoaded hw hw
  | readLoaded hw hwr =>
      cases advance with
      | false => exact .readLoaded hw hw
      | true => exact .readReleased hw rfl hw
  | readReleased hw hr hwr =>
      cases advance with
      | false => exact .readReleased hw hr hw
      | true => exact .between hw hr hw hr

/-- While the write strobe is low the address is that of the write under way,
and the bus carries its data exactly as long as the request is still there. -/
theorem Stage.bus_of_strobe {nios : Nios} {intf : HpiIoIntf} (hstage : Stage nios intf)
    (hwr : intf.otgWrN = false) :
    ∃ address data, nios.current = some (write address data) ∧
      intf.otgAddr = address.setWidth 2 ∧
      intf.otgData nios.ports = if nios.ports.fromSwW = false then some data else none := by
  cases hstage with
  | writeStrobed hw hr hcs haddress hdata haddr hbuffer hrd =>
      refine ⟨_, _, rfl, haddr, ?_⟩
      rw [HpiIoIntf.otgData, hbuffer]
  | writeReleased hw hr haddress haddr hrd =>
      refine ⟨_, _, rfl, haddr, ?_⟩
      simp [HpiIoIntf.otgData, hw]
  | _ => simp_all

/-- The bus is free while the read strobe is low. -/
theorem Stage.bus_of_readStrobe {nios : Nios} {intf : HpiIoIntf} (hstage : Stage nios intf)
    (hrd : intf.otgRdN = false) : intf.otgData nios.ports = none := by
  have hreleased : nios.ports.fromSwW = true := by
    cases hstage <;> simp_all
  simp [HpiIoIntf.otgData, hreleased]

/-- The request and the chip select are low when the write is about to let go
of its request. -/
theorem Stage.requested_of_release {nios : Nios} {intf : HpiIoIntf} (hstage : Stage nios intf)
    {address : BitVec 8} {data : BitVec 16} {rest : List (IoCall × PioAccess)}
    (htodo : nios.todo = (write address data, .otgHpiW true) :: rest) :
    nios.ports.fromSwW = false ∧ nios.ports.fromSwCs = false := by
  cases hstage with
  | writeStrobed hw hr hcs => exact ⟨hw, hcs⟩
  | between =>
      rename_i calls _ _ _ _
      cases calls with
      | nil => cases htodo
      | cons call calls => cases call <;> cases htodo
  | _ => cases htodo

variable (run : HpiRun)

theorem stage (n : ℕ) : Stage (run.nios n) (run.intf n) := by
  induction n with
  | zero =>
      have hstart := run.start
      have hidle := run.idle
      revert hstart hidle
      generalize run.nios 0 = nios
      intro hstart hidle
      obtain ⟨ports, temp, current, todo⟩ := nios
      subst hstart
      exact .between hidle.w hidle.r hidle.wrN hidle.rdN
  | succ n ih =>
      rw [run.niosNext, run.intfNext]
      exact ih.step (run.advance n) (run.chip n)

/-- The software works off its list of accesses. -/
theorem works : Clocked.Works (fun n => (run.nios n).todo) run.advance where
  stall n hstall := by rw [run.niosNext, Nios.todo_step, hstall, if_neg Bool.false_ne_true]
  pop n head rest hadvance htodo _ := by
    rw [run.niosNext, Nios.todo_step, hadvance, if_pos rfl, htodo, List.tail_cons]

/-- In every cycle with chip select and write strobe the bus carries the data
and the address of the write under way, and nothing is driven while the chip is
being read. -/
structure DataOnBus : Prop where
  write : ∀ n, (run.intf n).otgCsN = false → (run.intf n).otgWrN = false →
    ∃ address data, (run.nios n).current = some (write address data) ∧
      run.otgData n = some data ∧ (run.intf n).otgAddr = address.setWidth 2
  read : ∀ n, (run.intf n).otgRdN = false → run.otgData n = none

/-- In every strobe cycle the address is right, and the bus carries the data
until the request is taken back. -/
theorem otgData_of_strobe {n : ℕ} (hwr : (run.intf n).otgWrN = false) :
    ∃ address data, (run.nios n).current = some (write address data) ∧
      (run.intf n).otgAddr = address.setWidth 2 ∧
      run.otgData n = if (run.nios n).ports.fromSwW = false then some data else none :=
  (run.stage n).bus_of_strobe hwr

/-- Every write ends in a cycle with chip select and write strobe, but without
its data. -/
theorem exists_strobe_without_data {address : BitVec 8} {data : BitVec 16}
    (hcall : write address data ∈ run.calls) :
    ∃ n, (run.intf n).otgCsN = false ∧ (run.intf n).otgWrN = false ∧ run.otgData n = none := by
  have hmem : (write address data, .otgHpiW true) ∈ (run.nios 0).todo := by
    rw [run.start]
    refine List.mem_flatMap.mpr ⟨_, hcall, ?_⟩
    simp [accesses]
  obtain ⟨last, hlast⟩ := run.finishes
  obtain ⟨n, hadvance, hturn⟩ := run.works.exists_turn_of_done hmem hlast
  obtain ⟨rest, htodo⟩ := List.head?_eq_some_iff.mp hturn
  obtain ⟨hw, hcs⟩ := (run.stage n).requested_of_release htodo
  refine ⟨n + 1, ?_⟩
  rw [otgData, run.niosNext n, run.intfNext n, hadvance, Nios.step_of_todo htodo]
  exact ⟨hcs, hw, rfl⟩

/-- Without a write in the sequence nothing ever requests the write strobe. -/
theorem wrN_of_reads (hreads : ∀ call ∈ run.calls, ∃ address, call = read address) (n : ℕ) :
    (run.intf n).otgWrN = true := by
  have hquiet : (run.nios n).ports.fromSwW = true ∧ (run.intf n).otgWrN = true ∧
      ∀ item ∈ (run.nios n).todo, item.2 ≠ .otgHpiW false := by
    induction n with
    | zero =>
        refine ⟨run.idle.w, run.idle.wrN, ?_⟩
        rw [run.start]
        intro item hitem
        obtain ⟨call, hcall, haccess⟩ := List.mem_flatMap.mp hitem
        obtain ⟨address, rfl⟩ := hreads call hcall
        obtain ⟨access, haccesses, rfl⟩ := List.mem_map.mp haccess
        rintro rfl
        simp [accesses] at haccesses
    | succ n ih =>
        obtain ⟨hw, -, htodo⟩ := ih
        rw [run.niosNext, run.intfNext]
        refine ⟨Nios.unrequested_step hw htodo _ _, hw, ?_⟩
        intro item hitem
        rw [Nios.todo_step] at hitem
        split at hitem
        · exact htodo item (List.mem_of_mem_tail hitem)
        · exact htodo item hitem
  exact hquiet.2.1

/-- The data is on the bus for every write strobe just when nothing is written. -/
theorem dataOnBus_iff : run.DataOnBus ↔ ∀ call ∈ run.calls, ∃ address, call = read address := by
  constructor
  · intro honBus call hcall
    cases call with
    | read address => exact ⟨address, rfl⟩
    | write address data =>
        obtain ⟨n, hcs, hwr, hfree⟩ := run.exists_strobe_without_data hcall
        obtain ⟨_, _, -, hdriven, -⟩ := honBus.write n hcs hwr
        rw [hfree] at hdriven
        cases hdriven
  · intro hreads
    refine ⟨?_, fun n hrd => (run.stage n).bus_of_readStrobe hrd⟩
    intro n _ hwr
    rw [run.wrN_of_reads hreads n] at hwr
    cases hwr

/-- One write, with a store in every cycle, after `IO_init`. -/
def oneWrite (n : ℕ) : Nios × HpiIoIntf :=
  n.rec
    (⟨ioInit.foldl HpiPorts.access ⟨0#2, 0#16, true, true, true, true⟩, 0#16, none,
        program [write 2#8 0x1234#16]⟩, HpiIoIntf.resetRegs)
    fun _ state =>
      (state.1.step true state.2.fromSwDataIn, state.2.step false state.1.ports 0#16)

/-- The run of `oneWrite`. -/
def ofOneWrite : HpiRun where
  calls := [write 2#8 0x1234#16]
  nios n := (oneWrite n).1
  intf n := (oneWrite n).2
  advance _ := true
  chip _ := 0#16
  idle := by constructor <;> rfl
  start := rfl
  niosNext _ := rfl
  intfNext _ := rfl
  finishes := ⟨6, rfl⟩

/-- Five cycles after its first store the write strobe is still low, and the bus
is not driven any more. -/
theorem not_dataOnBus : ¬∀ run : HpiRun, run.DataOnBus := by
  intro honBus
  obtain ⟨_, _, -, hdriven, -⟩ := (honBus ofOneWrite).write 5 rfl rfl
  cases hdriven

end HpiRun

end Galaga
