import Mathlib.Data.Nat.Notation

/-! # The bus to the USB chip: `hpi_io_intf.sv` and `io_handler.c`

The software stores to PIO ports, one store after another and any number of
cycles apart. The ports are the inputs of `hpi_io_intf`, which registers them.
-/

namespace Galaga

/-- The PIO ports. The four control signals are active low. -/
structure HpiPorts where
  fromSwAddress : BitVec 2
  fromSwDataOut : BitVec 16
  fromSwR : Bool
  fromSwW : Bool
  fromSwCs : Bool
  fromSwReset : Bool
deriving DecidableEq, Repr

/-- The registers of `hpi_io_intf`. -/
structure HpiIoIntf where
  fromSwDataOutBuffer : BitVec 16
  otgAddr : BitVec 2
  otgRdN : Bool
  otgWrN : Bool
  otgCsN : Bool
  otgRstN : Bool
  fromSwDataIn : BitVec 16
deriving DecidableEq, Repr

namespace HpiIoIntf

/-- The registers while `Reset` is high. -/
def resetRegs : HpiIoIntf where
  fromSwDataOutBuffer := 0#16
  otgAddr := 0#2
  otgRdN := true
  otgWrN := true
  otgCsN := true
  otgRstN := false
  fromSwDataIn := 0#16

/-- What `hpi_io_intf` drives onto `OTG_DATA`; `none` is high impedance. -/
def otgData (ports : HpiPorts) (intf : HpiIoIntf) : Option (BitVec 16) :=
  if ports.fromSwW = false then some intf.fromSwDataOutBuffer else none

/-- One `Clk` edge. `chip` is what the bus carries while it is not driven here. -/
def step (reset : Bool) (ports : HpiPorts) (chip : BitVec 16) (intf : HpiIoIntf) : HpiIoIntf :=
  if reset then resetRegs
  else
    { fromSwDataOutBuffer := ports.fromSwDataOut
      otgAddr := ports.fromSwAddress
      otgRdN := ports.fromSwR
      otgWrN := ports.fromSwW
      otgCsN := ports.fromSwCs
      otgRstN := ports.fromSwReset
      fromSwDataIn := (intf.otgData ports).getD chip }

end HpiIoIntf

/-- An access of the software to a PIO port. -/
inductive PioAccess where
  | otgHpiCs (level : Bool)
  | otgHpiAddress (address : BitVec 8)
  | otgHpiData (data : BitVec 16)
  | otgHpiW (level : Bool)
  | otgHpiR (level : Bool)
  | otgHpiReset (level : Bool)
  /-- The load of `*otg_hpi_data` in `IO_read`. -/
  | loadData
deriving DecidableEq, Repr

/-- The ports after an access. The address port has two bits. -/
def HpiPorts.access (ports : HpiPorts) : PioAccess → HpiPorts
  | .otgHpiCs level => { ports with fromSwCs := level }
  | .otgHpiAddress address => { ports with fromSwAddress := address.setWidth 2 }
  | .otgHpiData data => { ports with fromSwDataOut := data }
  | .otgHpiW level => { ports with fromSwW := level }
  | .otgHpiR level => { ports with fromSwR := level }
  | .otgHpiReset level => { ports with fromSwReset := level }
  | .loadData => ports

/-- `IO_init` -/
def ioInit : List PioAccess :=
  [.otgHpiReset true, .otgHpiCs true, .otgHpiR true, .otgHpiW true, .otgHpiAddress 0#8,
    .otgHpiData 0#16, .otgHpiCs false, .otgHpiReset false, .otgHpiReset true, .otgHpiCs true]

/-- A call of `IO_write` or `IO_read`. -/
inductive IoCall where
  | write (address : BitVec 8) (data : BitVec 16)
  | read (address : BitVec 8)
deriving DecidableEq, Repr

/-- The accesses of a call, in program order. -/
def IoCall.accesses : IoCall → List PioAccess
  | write address data =>
      [.otgHpiCs false, .otgHpiAddress address, .otgHpiData data, .otgHpiW false, .otgHpiW true,
        .otgHpiCs true]
  | read address =>
      [.otgHpiCs false, .otgHpiAddress address, .otgHpiR false, .loadData, .otgHpiR true,
        .otgHpiCs true]

/-- The accesses of a sequence of calls, each with the call that it belongs to. -/
def IoCall.program (calls : List IoCall) : List (IoCall × PioAccess) :=
  calls.flatMap fun call => call.accesses.map fun access => (call, access)

/-- The software's side of the bus: the ports, the variable `temp` of `IO_read`,
the call that made the last access, and the accesses to come. -/
structure Nios where
  ports : HpiPorts
  temp : BitVec 16
  current : Option IoCall
  todo : List (IoCall × PioAccess)

namespace Nios

/-- One cycle, with the next access or without. -/
def step (advance : Bool) (fromSwDataIn : BitVec 16) (nios : Nios) : Nios :=
  match advance, nios.todo with
  | true, (call, access) :: rest =>
      { ports := nios.ports.access access
        temp := if access = .loadData then fromSwDataIn else nios.temp
        current := some call
        todo := rest }
  | _, _ => nios

end Nios

/-- No call is under way: the control ports are high, and so are the strobes. -/
structure HpiIdle (ports : HpiPorts) (intf : HpiIoIntf) : Prop where
  r : ports.fromSwR = true
  w : ports.fromSwW = true
  cs : ports.fromSwCs = true
  rdN : intf.otgRdN = true
  wrN : intf.otgWrN = true

/-- After `IO_init` the bus is idle, from the next `Clk` edge on. -/
theorem hpiIdle_of_ioInit (ports : HpiPorts) (chip : BitVec 16) (intf : HpiIoIntf) :
    HpiIdle (ioInit.foldl HpiPorts.access ports)
      (intf.step false (ioInit.foldl HpiPorts.access ports) chip) := by
  constructor <;> rfl

/-- A run of `hpi_io_intf` under a finite sequence of calls, each of whose
accesses takes place in a cycle of its own. -/
structure HpiRun where
  calls : List IoCall
  nios : ℕ → Nios
  intf : ℕ → HpiIoIntf
  advance : ℕ → Bool
  chip : ℕ → BitVec 16
  idle : HpiIdle (nios 0).ports (intf 0)
  start : (nios 0).todo = IoCall.program calls
  niosNext : ∀ n, nios (n + 1) = (nios n).step (advance n) (intf n).fromSwDataIn
  intfNext : ∀ n, intf (n + 1) = (intf n).step false (nios n).ports (chip n)
  finishes : ∃ n, (nios n).todo = []

namespace HpiRun

/-- The bus in cycle `n`, as far as `hpi_io_intf` drives it. -/
def otgData (run : HpiRun) (n : ℕ) : Option (BitVec 16) := (run.intf n).otgData (run.nios n).ports

end HpiRun

end Galaga
