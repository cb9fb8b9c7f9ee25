import Galaga.Clocked.Record
import Galaga.Usb.Strobe
import Mathlib.Tactic.IntervalCases

/-! # Calls and strobes

Every call of the software reaches the chip as one strobe, in order, whatever
pauses the software makes. The data of a write and of a read depend on the pauses:
the bus must still be driven when the write strobe begins, and the word that
`IO_read` loads was on the bus one cycle earlier.
-/

namespace Galaga

open Clocked

/-- The beginning of a strobe: the address, and for a write what
`hpi_io_intf` drives onto the bus. -/
inductive HpiStrobe where
  | write (address : BitVec 2) (bus : Option (BitVec 16))
  | read (address : BitVec 2)
deriving DecidableEq, Repr

/-- A write strobe without its data. -/
def HpiStrobe.unloaded : HpiStrobe → HpiStrobe
  | write address _ => write address none
  | read address => read address

/-- The strobe that a call asks for. -/
def IoCall.strobe : IoCall → HpiStrobe
  | write address data => .write (address.setWidth 2) (some data)
  | read address => .read (address.setWidth 2)

/-- The strobes that begin from one cycle to the next, for a selected chip. -/
def HpiIoIntf.strobes (before after : HpiIoIntf) (bus : Option (BitVec 16)) : List HpiStrobe :=
  if after.otgCsN then []
  else
    (if before.otgWrN && !after.otgWrN then [.write after.otgAddr bus] else []) ++
      if before.otgRdN && !after.otgRdN then [.read after.otgAddr] else []

/-- The strobes that are requested from one cycle to the next. -/
def HpiPorts.requests (before after : HpiPorts) : List HpiStrobe :=
  if after.fromSwCs then []
  else
    (if before.fromSwW && !after.fromSwW then
      [.write after.fromSwAddress (some after.fromSwDataOut)] else []) ++
      if before.fromSwR && !after.fromSwR then [.read after.fromSwAddress] else []

namespace HpiPorts

/-- An item of a program, performed. -/
def perform (ports : HpiPorts) (item : IoCall × PioAccess) : HpiPorts := ports.access item.2

/-- No call is under way. -/
structure Idle (ports : HpiPorts) : Prop where
  r : ports.fromSwR = true
  w : ports.fromSwW = true
  cs : ports.fromSwCs = true

theorem requests_self (ports : HpiPorts) : ports.requests ports = [] := by
  simp [requests]

end HpiPorts

namespace IoCall

/-- The accesses of a call, marked with it. -/
def items (call : IoCall) : List (IoCall × PioAccess) :=
  call.accesses.map fun access => (call, access)

variable {ports : HpiPorts} (call : IoCall)

theorem idle_foldl_items (hidle : ports.Idle) :
    (call.items.foldl HpiPorts.perform ports).Idle := by
  obtain ⟨hr, hw, _⟩ := hidle
  cases call with
  | write address data => exact ⟨hr, rfl, rfl⟩
  | read address => exact ⟨rfl, hw, rfl⟩

/-- A call requests its strobe and no other. -/
theorem record_items (hidle : ports.Idle) :
    record HpiPorts.perform HpiPorts.requests ports call.items = [call.strobe] := by
  obtain ⟨address, dataOut, r, w, cs, reset⟩ := ports
  obtain ⟨rfl, rfl, rfl⟩ := hidle
  cases call <;> rfl

theorem exists_take_drop {taken left : List (IoCall × PioAccess)}
    (hsplit : call.items = taken ++ left) :
    ∃ k ≤ 6, taken = call.items.take k ∧ left = call.items.drop k := by
  have hlength : call.items.length = 6 := by cases call <;> rfl
  refine ⟨taken.length, ?_, ?_, ?_⟩
  · rw [← hlength, hsplit, List.length_append]
    exact Nat.le_add_right _ _
  · rw [hsplit, List.take_left]
  · rw [hsplit, List.drop_left]

/-- While a read request is up, the read has its load to make, or is about to
take the request back. -/
theorem left_of_reading (hidle : ports.Idle) {taken left : List (IoCall × PioAccess)}
    (hsplit : call.items = taken ++ left)
    (hr : (taken.foldl HpiPorts.perform ports).fromSwR = false) :
    left = [(call, .loadData), (call, .otgHpiR true), (call, .otgHpiCs true)] ∨
      left = [(call, .otgHpiR true), (call, .otgHpiCs true)] := by
  obtain ⟨portAddress, dataOut, r, w, cs, reset⟩ := ports
  obtain ⟨rfl, rfl, rfl⟩ := hidle
  obtain ⟨k, hk, rfl, rfl⟩ := exists_take_drop call hsplit
  cases call with
  | write address data => interval_cases k <;> cases hr
  | read address =>
      rcases (show k = 3 ∨ k = 4 ∨ k ≠ 3 ∧ k ≠ 4 by omega) with rfl | rfl | hother
      · exact Or.inl rfl
      · exact Or.inr rfl
      · interval_cases k <;> first | omega | cases hr

/-- The ports when a read makes its load. -/
structure Selects (address : BitVec 8) (ports : HpiPorts) : Prop where
  r : ports.fromSwR = false
  cs : ports.fromSwCs = false
  address : ports.fromSwAddress = address.setWidth 2

theorem selects_of_load {taken left : List (IoCall × PioAccess)} {address : BitVec 8}
    {other : IoCall} (hsplit : call.items = taken ++ (other, .loadData) :: left)
    (hother : other = read address) :
    Selects address (taken.foldl HpiPorts.perform ports) := by
  obtain ⟨k, hk, rfl, hleft⟩ := exists_take_drop call hsplit
  subst hother
  cases call with
  | write address data => interval_cases k <;> cases hleft
  | read address =>
      rcases (show k = 3 ∨ k ≠ 3 by omega) with rfl | hother
      · cases hleft
        exact ⟨rfl, rfl, rfl⟩
      · interval_cases k <;> first | omega | cases hleft

/-- A read selects the chip before it requests its strobe. -/
theorem cs_of_request {taken left : List (IoCall × PioAccess)} {other : IoCall}
    (hsplit : call.items = taken ++ (other, .otgHpiR false) :: left) :
    (taken.foldl HpiPorts.perform ports).fromSwCs = false := by
  obtain ⟨k, hk, rfl, hleft⟩ := exists_take_drop call hsplit
  cases call with
  | write address data => interval_cases k <;> cases hleft
  | read address =>
      rcases (show k = 2 ∨ k ≠ 2 by omega) with rfl | hother
      · rfl
      · interval_cases k <;> first | omega | cases hleft

end IoCall

namespace HpiRun

variable (run : HpiRun)

/-- The strobes that begin from cycle `n` to the next. -/
def strobe (n : ℕ) : List HpiStrobe :=
  (run.intf n).strobes (run.intf (n + 1)) (run.otgData (n + 1))

/-- The strobes of the first `n` cycles. -/
def strobes (n : ℕ) : List HpiStrobe := (List.range n).flatMap run.strobe

/-- The requests of the first `n` cycles. -/
def requested (n : ℕ) : List HpiStrobe :=
  (List.range n).flatMap fun k => (run.nios k).ports.requests (run.nios (k + 1)).ports

theorem performs : Performs HpiPorts.perform (fun n => (run.nios n).ports)
    (fun n => (run.nios n).todo) run.advance where
  rest n hadvance := by
    rw [run.niosNext, hadvance]
    exact ⟨rfl, rfl⟩
  ended n htodo := by
    rw [run.niosNext]
    revert htodo
    generalize run.nios n = nios
    intro htodo
    obtain ⟨ports, temp, current, todo⟩ := nios
    subst htodo
    cases run.advance n <;> exact ⟨rfl, rfl⟩
  act n item later hadvance htodo := by
    rw [run.niosNext, hadvance, Nios.step_of_todo htodo]
    exact ⟨rfl, rfl⟩

theorem ports_idle : (run.nios 0).ports.Idle := ⟨run.idle.r, run.idle.w, run.idle.cs⟩

/-- The requests so far are those of the accesses that have been made. -/
theorem history (n : ℕ) : ∃ done, run.calls.flatMap IoCall.items = done ++ (run.nios n).todo ∧
    (run.nios n).ports = done.foldl HpiPorts.perform (run.nios 0).ports ∧
      run.requested n = record HpiPorts.perform HpiPorts.requests (run.nios 0).ports done := by
  obtain ⟨done, htodo, hports, hseen⟩ := run.performs.history HpiPorts.requests_self n
  refine ⟨done, ?_, hports, hseen⟩
  rw [← htodo, run.start]
  rfl

theorem record_calls :
    record HpiPorts.perform HpiPorts.requests (run.nios 0).ports
      (run.calls.flatMap IoCall.items) = run.calls.map IoCall.strobe := by
  rw [record_flatMap (fun _ call => call.idle_foldl_items) (fun _ call => call.record_items)
    run.ports_idle]
  exact List.flatMap_pure_eq_map IoCall.strobe run.calls

theorem requested_prefix (n : ℕ) : run.requested n <+: run.calls.map IoCall.strobe := by
  obtain ⟨done, hsplit, _, hseen⟩ := run.history n
  rw [hseen, ← run.record_calls, hsplit, record_append]
  exact List.prefix_append _ _

theorem requested_of_done {n : ℕ} (hdone : (run.nios n).todo = []) :
    run.requested n = run.calls.map IoCall.strobe := by
  obtain ⟨done, hsplit, _, hseen⟩ := run.history n
  rw [hdone, List.append_nil] at hsplit
  rw [hseen, ← run.record_calls, hsplit]

theorem todo_of_done {last n : ℕ} (hdone : (run.nios last).todo = []) (hle : last ≤ n) :
    (run.nios n).todo = [] := by
  apply stretch_rule (fun n => (run.nios n).todo = []) hle hdone
  intro k _ _ hk
  exact (run.performs.ended k hk).2

/-- The registers begin the strobes one cycle after they were requested. -/
theorem strobe_succ_unloaded (n : ℕ) :
    (run.strobe (n + 1)).map HpiStrobe.unloaded =
      ((run.nios n).ports.requests (run.nios (n + 1)).ports).map HpiStrobe.unloaded := by
  rw [strobe, run.intfNext n, run.intfNext (n + 1)]
  simp only [HpiIoIntf.strobes, HpiIoIntf.step, HpiPorts.requests, Bool.false_eq_true, if_false]
  split_ifs <;> rfl

theorem strobe_zero : run.strobe 0 = [] := by
  rw [strobe, run.intfNext 0]
  simp [HpiIoIntf.strobes, HpiIoIntf.step, run.idle.w, run.idle.r]

/-- If the software then pauses for a cycle, the data is on the bus. -/
theorem strobe_succ_of_pause {n : ℕ} (hpause : run.advance (n + 1) = false) :
    run.strobe (n + 1) = (run.nios n).ports.requests (run.nios (n + 1)).ports := by
  have hports : (run.nios (n + 2)).ports = (run.nios (n + 1)).ports :=
    (run.performs.rest (n + 1) hpause).1
  rw [strobe, otgData, hports, run.intfNext n, run.intfNext (n + 1)]
  simp only [HpiIoIntf.strobes, HpiIoIntf.step, HpiPorts.requests, HpiIoIntf.otgData,
    Bool.false_eq_true, if_false]
  cases (run.nios (n + 1)).ports.fromSwW <;> simp

theorem strobes_succ_unloaded (n : ℕ) :
    (run.strobes (n + 1)).map HpiStrobe.unloaded =
      (run.requested n).map HpiStrobe.unloaded := by
  rw [strobes, List.range_succ_eq_map, List.flatMap_cons, strobe_zero, List.nil_append,
    List.flatMap_map, List.map_flatMap, requested, List.map_flatMap]
  exact List.flatMap_congr fun k _ => run.strobe_succ_unloaded k

/-- No two accesses follow each other without a pause. -/
def Paced : Prop := ∀ n, run.advance n = true → run.advance (n + 1) = false

theorem strobe_succ_of_paced (hpaced : run.Paced) (n : ℕ) :
    run.strobe (n + 1) = (run.nios n).ports.requests (run.nios (n + 1)).ports := by
  cases hadvance : run.advance n with
  | true => exact run.strobe_succ_of_pause (hpaced n hadvance)
  | false =>
      have hports : (run.nios (n + 1)).ports = (run.nios n).ports :=
        (run.performs.rest n hadvance).1
      have hnone := run.strobe_succ_unloaded n
      rw [hports, HpiPorts.requests_self, List.map_nil, List.map_eq_nil_iff] at hnone
      rw [hnone, hports, HpiPorts.requests_self]

theorem strobes_succ_of_paced (hpaced : run.Paced) (n : ℕ) :
    run.strobes (n + 1) = run.requested n := by
  rw [strobes, List.range_succ_eq_map, List.flatMap_cons, strobe_zero, List.nil_append,
    List.flatMap_map]
  exact List.flatMap_congr fun k _ => run.strobe_succ_of_paced hpaced k

/-- Whatever pauses the software makes, the chip sees the strobe of each call at
its address, once and in order, and no others. If it pauses after each access,
the data of a write is on the bus when its strobe begins. -/
theorem strobes_are_calls :
    (∀ n, (run.strobes n).map HpiStrobe.unloaded <+:
      run.calls.map fun call => call.strobe.unloaded) ∧
    (∃ last, ∀ n ≥ last, (run.strobes n).map HpiStrobe.unloaded =
      run.calls.map fun call => call.strobe.unloaded) ∧
    (run.Paced → ∀ n, run.strobes n <+: run.calls.map IoCall.strobe) := by
  refine ⟨fun n => ?_, ?_, fun hpaced n => ?_⟩
  · cases n with
    | zero => exact List.nil_prefix
    | succ n =>
        have hprefix := (run.requested_prefix n).map HpiStrobe.unloaded
        rw [List.map_map] at hprefix
        rw [strobes_succ_unloaded]
        exact hprefix
  · obtain ⟨last, hlast⟩ := run.finishes
    refine ⟨last + 1, fun n hn => ?_⟩
    obtain ⟨m, rfl⟩ : ∃ m, n = m + 1 := ⟨n - 1, by omega⟩
    have hdone := run.todo_of_done hlast (Nat.le_of_succ_le_succ hn)
    rw [strobes_succ_unloaded, run.requested_of_done hdone, List.map_map]
    rfl
  · cases n with
    | zero => exact List.nil_prefix
    | succ n =>
        rw [run.strobes_succ_of_paced hpaced]
        exact run.requested_prefix n

section Loading

/-- Where the run is in the program, with any accesses left to make. -/
theorem position {n : ℕ} {item : IoCall × PioAccess} {rest : List (IoCall × PioAccess)}
    (htodo : (run.nios n).todo = item :: rest) :
    ∃ ports : HpiPorts, ports.Idle ∧ ∃ (call : IoCall) (later : List IoCall),
      ∃ taken left, call.items = taken ++ item :: left ∧
        rest = left ++ List.flatMap IoCall.items later ∧
        (run.nios n).ports = taken.foldl HpiPorts.perform ports := by
  obtain ⟨done, hsplit, hports, _⟩ := run.history n
  rw [htodo] at hsplit
  obtain ⟨before, call, later, taken, left, _, hcall, rfl, rfl⟩ := exists_call_of_split hsplit
  rw [List.foldl_append] at hports
  exact ⟨_, idle_foldl_flatMap (fun _ call => call.idle_foldl_items) run.ports_idle before, call,
    later, taken, left, hcall, rfl, hports⟩

/-- The load of a call `IO_read(address)` takes place in cycle `n`. -/
def Loads (n : ℕ) (address : BitVec 8) : Prop :=
  run.advance n = true ∧ ∃ rest, (run.nios n).todo = (IoCall.read address, .loadData) :: rest

/-- In cycle `n` the chip is selected and asked for the word at an address, and
nobody else drives the bus. -/
structure Asks (n : ℕ) (address : BitVec 8) : Prop where
  cs : (run.intf n).otgCsN = false
  rd : (run.intf n).otgRdN = false
  address : (run.intf n).otgAddr = address.setWidth 2
  bus : run.otgData n = none

variable {run} {n : ℕ} {address : BitVec 8}

theorem Loads.selects (hloads : run.Loads n address) :
    IoCall.Selects address (run.nios n).ports := by
  obtain ⟨_, rest, htodo⟩ := hloads
  obtain ⟨ports, _, call, later, taken, left, hcall, _, hports⟩ := run.position htodo
  rw [hports]
  exact call.selects_of_load hcall rfl

/-- With the read request up, a load comes next or has just been made. -/
theorem todo_of_reading (hr : (run.nios n).ports.fromSwR = false) :
    ∃ call later,
      (run.nios n).todo = [(call, .loadData), (call, .otgHpiR true), (call, .otgHpiCs true)] ++
          List.flatMap IoCall.items later ∨
        (run.nios n).todo = [(call, .otgHpiR true), (call, .otgHpiCs true)] ++
          List.flatMap IoCall.items later := by
  cases htodo : (run.nios n).todo with
  | nil =>
      obtain ⟨done, hsplit, hports, _⟩ := run.history n
      rw [htodo, List.append_nil] at hsplit
      have hidle :=
        idle_foldl_flatMap (fun _ call => call.idle_foldl_items) run.ports_idle run.calls
      rw [hsplit, ← hports] at hidle
      rw [hidle.r] at hr
      cases hr
  | cons item rest =>
      obtain ⟨ports, hidle, call, later, taken, left, hcall, rfl, hports⟩ := run.position htodo
      rw [hports] at hr
      refine ⟨call, later, ?_⟩
      rw [← List.cons_append]
      rcases call.left_of_reading hidle hcall hr with hleft | hleft
      · exact Or.inl (by rw [hleft])
      · exact Or.inr (by rw [hleft])

/-- The load is not among the first two accesses. -/
theorem Loads.two_le (hloads : run.Loads n address) : 2 ≤ n := by
  have hr := hloads.selects.r
  by_contra hearly
  rcases (show n = 0 ∨ n = 1 by omega) with rfl | rfl
  · rw [run.ports_idle.r] at hr
    cases hr
  · rcases run.performs.step_cases 0 with ⟨hports, _⟩ | ⟨_, ⟨call, access⟩, htodo, hports⟩
    · change (run.nios 1).ports = (run.nios 0).ports at hports
      rw [hports, run.ports_idle.r] at hr
      cases hr
    · obtain ⟨_, _, other, _, taken, left, hcall, _, hfirst⟩ := run.position htodo
      change (run.nios 1).ports = (run.nios 0).ports.access access at hports
      rw [hports] at hr
      -- it would have to be the request, but the chip is not yet selected
      have hrequest : access = .otgHpiR false := by
        cases access with
        | otgHpiR level =>
            cases hr
            rfl
        | _ => cases run.ports_idle.r.symm.trans hr
      rw [hrequest] at hcall
      have hcs : (run.nios 0).ports.fromSwCs = false := by
        rw [hfirst]
        exact other.cs_of_request hcall
      cases run.ports_idle.cs.symm.trans hcs

/-- The bus is free in the cycle before a load. -/
theorem Loads.bus (hloads : run.Loads (n + 1) address) : run.otgData n = none := by
  obtain ⟨_, rest, htodo⟩ := hloads
  have hstage := run.stage (n + 1)
  have hwr : (run.intf (n + 1)).otgWrN = true := by
    revert hstage htodo
    generalize run.nios (n + 1) = nios
    intro htodo hstage
    cases hstage with
    | readStrobed _ hwr => exact hwr
    | between =>
        rename_i calls _ _ _ _
        cases calls with
        | nil => cases htodo
        | cons call calls => cases call <;> cases htodo
    | _ => cases htodo
  rw [run.intfNext] at hwr
  have hw : (run.nios n).ports.fromSwW = true := hwr
  rw [otgData, HpiIoIntf.otgData, hw, if_neg (by decide)]

/-- An access in one of the two cycles before a load leaves nothing of the
strobe in the cycle before it. -/
theorem Loads.paused (hloads : run.Loads (n + 2) address)
    (hr : (run.nios n).ports.fromSwR = false) :
    run.advance (n + 1) = false ∧ run.advance n = false := by
  obtain ⟨_, rest, htodo⟩ := hloads
  have hdrop : (run.nios (n + 2)).todo = ((run.nios n).todo.drop (run.advance n).toNat).drop
      (run.advance (n + 1)).toNat :=
    (run.performs.todo_succ (n + 1)).trans (by rw [run.performs.todo_succ n])
  obtain ⟨call, later, hshape⟩ := todo_of_reading hr
  rw [htodo] at hdrop
  rcases hshape with hshape | hshape <;> rw [hshape] at hdrop
  · cases hfirst : run.advance n <;> cases hsecond : run.advance (n + 1) <;>
      rw [hfirst, hsecond] at hdrop
    · exact ⟨rfl, rfl⟩
    all_goals cases hdrop
  · cases hfirst : run.advance n <;> cases hsecond : run.advance (n + 1) <;>
      rw [hfirst, hsecond] at hdrop
    case true.true =>
      -- the next call would have to begin with its load
      cases later with
      | nil => cases hdrop
      | cons next later => cases next <;> cases hdrop
    all_goals cases hdrop

/-- `IO_read` returns what the chip drove one cycle before the load. The chip was
then asked for it just if the software made no access in that cycle and the one
before, and so waited for three cycles after the request. -/
theorem read_returns (hloads : run.Loads n address) :
    ∃ m, n = m + 2 ∧ (run.nios (n + 1)).temp = run.chip (m + 1) ∧
      (run.Asks (m + 1) address ↔ run.advance (m + 1) = false ∧ run.advance m = false) := by
  obtain ⟨m, rfl⟩ := Nat.exists_eq_add_of_le' hloads.two_le
  refine ⟨m, rfl, ?_, ?_, ?_⟩
  · obtain ⟨hadvance, rest, htodo⟩ := hloads
    have hbus : (run.intf (m + 1)).otgData (run.nios (m + 1)).ports = none :=
      Loads.bus ⟨hadvance, rest, htodo⟩
    rw [run.niosNext, hadvance, Nios.step_of_todo htodo, run.intfNext (m + 1), if_pos rfl]
    simp only [HpiIoIntf.step, hbus, Bool.false_eq_true, if_false, Option.getD_none]
  · intro hasks
    have hr := hasks.rd
    rw [run.intfNext] at hr
    exact hloads.paused hr
  · rintro ⟨hpause, hpause'⟩
    have hports : (run.nios (m + 2)).ports = (run.nios m).ports :=
      (run.performs.rest (m + 1) hpause).1.trans (run.performs.rest m hpause').1
    have hselects := hloads.selects
    rw [hports] at hselects
    refine ⟨?_, ?_, ?_, hloads.bus⟩ <;> rw [run.intfNext]
    · exact hselects.cs
    · exact hselects.r
    · exact hselects.address

/-- One read, with a store or the load in every fourth cycle, after `IO_init`, of a
chip that drives the number of the cycle. -/
def oneRead (n : ℕ) : Nios × HpiIoIntf :=
  n.rec
    (⟨ioInit.foldl HpiPorts.access ⟨0#2, 0#16, true, true, true, true⟩, 0#16, none,
        IoCall.program [IoCall.read 0#8]⟩, HpiIoIntf.resetRegs)
    fun n state =>
      (state.1.step (n % 4 == 3) state.2.fromSwDataIn,
        state.2.step false state.1.ports (BitVec.ofNat 16 n))

/-- The run of `oneRead`. -/
def ofOneRead : HpiRun where
  calls := [IoCall.read 0#8]
  nios n := (oneRead n).1
  intf n := (oneRead n).2
  advance n := n % 4 == 3
  chip n := BitVec.ofNat 16 n
  idle := by constructor <;> rfl
  start := rfl
  niosNext _ := rfl
  intfNext _ := rfl
  finishes := ⟨24, rfl⟩

theorem read_returns_oneRead : (ofOneRead.nios 16).temp = 14#16 ∧ ofOneRead.Asks 14 0#8 := by
  have hloads : ofOneRead.Loads 15 0#8 := ⟨rfl, _, rfl⟩
  obtain ⟨m, hm, htemp, hasks⟩ := read_returns hloads
  obtain rfl : m = 13 := by omega
  exact ⟨htemp, hasks.mpr ⟨rfl, rfl⟩⟩

end Loading

end HpiRun

end Galaga
