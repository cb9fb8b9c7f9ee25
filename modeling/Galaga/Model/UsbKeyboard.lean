import Galaga.Model.HpiIoIntf

/-! # The keyboard software: `main.c` and `usb.c`

`main` talks to the USB chip by `IO_write` and `IO_read`. It is cut here at the
reads on whose value it branches: a place of `main` is what the program does up
to and including the next such read. Delays and messages on the console are left
out.
-/

namespace Galaga

/-! ## The registers of the chip -/

def hpiData : BitVec 8 := 0
def hpiMailbox : BitVec 8 := 1
def hpiAddr : BitVec 8 := 2
def hpiStatus : BitVec 8 := 3

def hpiSie1MsgAdr : BitVec 16 := 0x0144
def hpiSie2MsgAdr : BitVec 16 := 0x0148
def hpiIrqRoutingReg : BitVec 16 := 0x0142
def host1StatReg : BitVec 16 := 0xC090
def host2StatReg : BitVec 16 := 0xC0B0
def host1IrqEnReg : BitVec 16 := 0xC08C
def usb1CtlReg : BitVec 16 := 0xC08A
def husbPEot : BitVec 16 := 0x01B4
def husbSie1PCurrentTdPtr : BitVec 16 := 0x01B0
def commIntNum : BitVec 16 := 0x01C2

/-- `COMM_R0` to `COMM_R13` -/
def commR (number : ℕ) : BitVec 16 := 0x01C4 + 2 * BitVec.ofNat 16 number

def commReset : BitVec 16 := 0xFA50
def commExecInt : BitVec 16 := 0xCE01
def commAck : BitVec 16 := 0x0FED
def husbSie1InitInt : BitVec 16 := 0x0072
def husbResetInt : BitVec 16 := 0x0074
def husbTdListDone : BitVec 16 := 0x1000
def hpiStatusSie1MsgFlag : BitVec 16 := 0x0010
def sofEop1ToCpuEn : BitVec 16 := 0x0400
def resume1ToHpiEn : BitVec 16 := 0x0040
def aChgIrqEn : BitVec 16 := 0x0010
def sofEopIrqEn : BitVec 16 := 0x0200
def aDpStat : BitVec 16 := 0x2000
def aDmStat : BitVec 16 := 0x1000

/-! ## The functions of `usb.c` -/

def usbWrite (address data : BitVec 16) : List IoCall :=
  [.write hpiAddr address, .write hpiData data]

def usbRead (address : BitVec 16) : List IoCall :=
  [.write hpiAddr address, .read hpiData]

def usbSoftReset : List IoCall :=
  [.write hpiMailbox commReset, .read hpiMailbox, .read hpiStatus] ++
    usbRead hpiSie1MsgAdr ++ usbWrite hpiSie1MsgAdr 0 ++
    usbRead hpiSie2MsgAdr ++ usbWrite hpiSie2MsgAdr 0 ++
    usbWrite host1StatReg 0xFFFF ++ usbWrite host2StatReg 0xFFFF

/-- Descriptors for the chip, from address `0x0500` on, and their submission. -/
def submitTdList (words : List (BitVec 16)) : List IoCall :=
  .write hpiAddr 0x0500 :: words.map (IoCall.write hpiData) ++
    usbWrite husbSie1PCurrentTdPtr 0x0500

def usbSetAddress : List IoCall :=
  submitTdList
    [0x050C, 0x0008, 0x00D0, 0x0001, 0x0013, 0x0514,
      0x0500, 0x0002, 0x0000, 0x0000,
      0x0000, 0x0000, 0x0090, 0x0041, 0x0013, 0x0000]

def usbGetDeviceDesc1 : List IoCall :=
  submitTdList
    [0x050C, 0x0008, 0x02D0, 0x0001, 0x0013, 0x0514,
      0x0680, 0x0100, 0x0000, 0x0008,
      0x052C, 0x0008, 0x0290, 0x0041, 0x0013, 0x0520,
      0x0000, 0x0000, 0x0210, 0x0041, 0x0013, 0x0000]

def usbGetDeviceDesc2 : List IoCall :=
  submitTdList
    [0x050C, 0x0008, 0x02D0, 0x0001, 0x0013, 0x0514,
      0x0680, 0x0100, 0x0000, 0x0012,
      0x0544, 0x0008, 0x0290, 0x0041, 0x0013, 0x0520,
      0x054C, 0x0008, 0x0290, 0x0001, 0x0013, 0x052C,
      0x0554, 0x0002, 0x0290, 0x0041, 0x0013, 0x0538,
      0x0000, 0x0000, 0x0210, 0x0041, 0x0013, 0x0000]

def usbGetConfigDesc1 : List IoCall :=
  submitTdList
    [0x050C, 0x0008, 0x02D0, 0x0001, 0x0013, 0x0514,
      0x0680, 0x0200, 0x0000, 0x0009,
      0x0544, 0x0008, 0x0290, 0x0041, 0x0013, 0x0520,
      0x054C, 0x0001, 0x0290, 0x0001, 0x0013, 0x052C,
      0x0000, 0x0000, 0x0210, 0x0041, 0x0013, 0x0000]

def usbGetConfigDesc2 : List IoCall :=
  submitTdList
    [0x050C, 0x0008, 0x02D0, 0x0001, 0x0013, 0x0514,
      0x0680, 0x0200, 0x0000, 0x00FF,
      0x055C, 0x0008, 0x0290, 0x0041, 0x0013, 0x0520,
      0x0564, 0x0008, 0x0290, 0x0001, 0x0013, 0x052C,
      0x056C, 0x0008, 0x0290, 0x0041, 0x0013, 0x0538,
      0x0574, 0x0008, 0x0290, 0x0001, 0x0013, 0x0544,
      0x057C, 0x0002, 0x0290, 0x0041, 0x0013, 0x0550,
      0x0000, 0x0000, 0x0210, 0x0041, 0x0013, 0x0000]

def usbSetConfig : List IoCall :=
  submitTdList
    [0x050C, 0x0008, 0x02D0, 0x0001, 0x0013, 0x0514,
      0x0900, 0x0001, 0x0000, 0x0000,
      0x0000, 0x0000, 0x0290, 0x0041, 0x0013, 0x0000]

def usbClassRequest : List IoCall :=
  submitTdList
    [0x050C, 0x0008, 0x02D0, 0x0001, 0x0013, 0x0514,
      0x0A21, 0x0000, 0x0000, 0x0000,
      0x0000, 0x0000, 0x0290, 0x0041, 0x0013, 0x0000]

def usbGetHidDesc : List IoCall :=
  submitTdList
    [0x050C, 0x0008, 0x02D0, 0x0001, 0x0013, 0x0514,
      0x0681, 0x2100, 0x0000, 0x007B,
      0x0544, 0x0008, 0x0290, 0x0041, 0x0013, 0x0520,
      0x0000, 0x0000, 0x0210, 0x0041, 0x0013, 0x0000]

def usbGetReportDesc : List IoCall :=
  submitTdList
    [0x050C, 0x0008, 0x02D0, 0x0001, 0x0013, 0x0514,
      0x0681, 0x2200, 0x0000, 0x007B,
      0x0580, 0x0008, 0x0290, 0x0041, 0x0013, 0x0520,
      0x0588, 0x0008, 0x0290, 0x0001, 0x0013, 0x052C,
      0x0590, 0x0008, 0x0290, 0x0041, 0x0013, 0x0538,
      0x0598, 0x0008, 0x0290, 0x0001, 0x0013, 0x0544,
      0x05A0, 0x0008, 0x0290, 0x0041, 0x0013, 0x0550,
      0x05A8, 0x0008, 0x0290, 0x0001, 0x0013, 0x055C,
      0x05B0, 0x0008, 0x0290, 0x0041, 0x0013, 0x0568,
      0x05B8, 0x0003, 0x0290, 0x0001, 0x0013, 0x0574,
      0x0000, 0x0000, 0x0210, 0x0041, 0x0013, 0x0000]

/-- The descriptor of a poll. -/
def interruptTd (toggle dataSize : BitVec 8) : List (BitVec 16) :=
  [0x051C, 0x000F &&& dataSize.setWidth 16, 0x0291,
    if toggle % 2#8 ≠ 0#8 then 0x0001 else 0x0041, 0x0013, 0x0000]

/-! ## `main` -/

/-- The requests of the enumeration. -/
inductive UsbRequest where
  | setAddress
  | getDeviceDesc1
  | getDeviceDesc2
  | getConfigDesc1
  | getConfigDesc2
  | setConfig
  | classRequest
  | getHidDesc
  | getReportDesc
deriving DecidableEq, Repr

def UsbRequest.calls : UsbRequest → List IoCall
  | setAddress => usbSetAddress
  | getDeviceDesc1 => usbGetDeviceDesc1
  | getDeviceDesc2 => usbGetDeviceDesc2
  | getConfigDesc1 => usbGetConfigDesc1
  | getConfigDesc2 => usbGetConfigDesc2
  | setConfig => usbSetConfig
  | classRequest => usbClassRequest
  | getHidDesc => usbGetHidDesc
  | getReportDesc => usbGetReportDesc

/-- The places of `main`. -/
inductive MainPlace where
  /-- From the label `USB_HOT_PLUG` to the first read of `HPI_STATUS`. -/
  | usbHotPlug
  | sie1Init
  | sie1Ack
  | husbReset
  /-- The read in the message about the mailbox, before `goto USB_HOT_PLUG`. -/
  | mailboxError
  | detect
  | detectRetry
  | insertDevice
  /-- A request, sent again as long as the chip has no message. -/
  | request (request : UsbRequest)
  /-- The first read of `UsbWaitTDListDone`. -/
  | waitTdListDone (request : UsbRequest)
  | waitTdListDoneLoop (request : UsbRequest)
  | tdControl (request : UsbRequest)
  | getRetryCnt
  /-- `UsbGetRetryCnt` clears the message and waits for another. -/
  | retryCntClear
  | retryCntWait
  | retryCntControl
  | dataSize
  /-- The top of the polling loop. -/
  | poll
  /-- The loop inside it, which sends the descriptor again. -/
  | resubmit
  | waitPollDone
  | waitPollDoneLoop
  | keycode
  | checkDevice
  | checkRetry
  | removed
deriving DecidableEq, Repr

/-- The variables of `main` and the keycode port. -/
structure UsbMain where
  place : MainPlace
  toggle : BitVec 8
  dataSize : BitVec 8
  hotPlugCount : BitVec 8
  ctlReg : BitVec 16
  noDevice : BitVec 16
  keycodeBase : BitVec 8
deriving DecidableEq, Repr

/-- `HUSB` parameters before `COMM_EXEC_INT` -/
def commRegs (resetTime : BitVec 16) : List IoCall :=
  usbWrite (commR 0) resetTime ++
    (List.range 13).flatMap fun number => usbWrite (commR (number + 1)) 0

/-- Where the enumeration goes on after a request. -/
def UsbRequest.next : UsbRequest → MainPlace
  | setAddress => .request getDeviceDesc1
  | getDeviceDesc1 => .request getDeviceDesc2
  | getDeviceDesc2 => .request getConfigDesc1
  | getConfigDesc1 => .request getConfigDesc2
  | getConfigDesc2 => .dataSize
  | setConfig => .request classRequest
  | classRequest => .request getHidDesc
  | getHidDesc => .request getReportDesc
  | getReportDesc => .poll

namespace UsbMain

/-- The calls at a place. The value of the last one decides what comes next. -/
def calls (main : UsbMain) : List IoCall :=
  match main.place with
  | .usbHotPlug =>
      usbSoftReset ++ usbWrite hpiSie1MsgAdr 0 ++ usbWrite host1StatReg 0xFFFF ++
        usbWrite husbPEot 600 ++ usbWrite hpiIrqRoutingReg (sofEop1ToCpuEn ||| resume1ToHpiEn) ++
        usbWrite host1IrqEnReg (aChgIrqEn ||| sofEopIrqEn) ++ commRegs 0 ++
        usbWrite commIntNum husbSie1InitInt ++ [.write hpiMailbox commExecInt, .read hpiStatus]
  | .sie1Init => [.read hpiStatus]
  | .sie1Ack => [.read hpiMailbox]
  | .husbReset =>
      usbWrite commIntNum husbResetInt ++ commRegs 0x003C ++
        [.write hpiMailbox commExecInt, .read hpiMailbox]
  | .mailboxError => [.read hpiMailbox]
  | .detect | .detectRetry | .insertDevice | .checkDevice | .checkRetry => usbRead main.ctlReg
  | .request request => request.calls ++ [.read hpiStatus]
  | .waitTdListDone _ | .waitPollDone => usbRead hpiSie1MsgAdr
  | .waitTdListDoneLoop _ | .waitPollDoneLoop =>
      usbWrite hpiSie1MsgAdr 0 ++ usbRead hpiSie1MsgAdr
  | .tdControl _ => usbWrite hpiSie1MsgAdr 0 ++ usbRead 0x0506 ++ usbRead 0x0508
  | .getRetryCnt => .read hpiStatus :: usbRead hpiSie1MsgAdr
  | .retryCntClear => usbWrite hpiSie1MsgAdr 0 ++ [.read hpiStatus]
  | .retryCntWait => [.read hpiStatus]
  | .retryCntControl => usbRead 0x0508
  | .dataSize =>
      usbRead 0x056C ++ .write hpiAddr 0x0576 ::
        [0x073F, 0x8105, 0x0003, 0x0008, 0xAC0A].map (IoCall.write hpiData) ++
        usbWrite husbSie1PCurrentTdPtr 0x0576 ++ usbRead 0x057C
  | .poll => submitTdList (interruptTd (main.toggle + 1#8) main.dataSize) ++ [.read hpiStatus]
  | .resubmit => submitTdList (interruptTd main.toggle main.dataSize) ++ [.read hpiStatus]
  | .keycode => usbWrite hpiSie1MsgAdr 0 ++ usbRead 0x051E
  | .removed => usbRead main.ctlReg ++ usbRead main.ctlReg ++ usbRead main.ctlReg

/-- A device holds one of the data lines high. -/
def present (main : UsbMain) (usbCtlVal : BitVec 16) : Bool := usbCtlVal &&& main.noDevice ≠ 0

/-- The chip has a message of the SIE. -/
def hasMessage (status : BitVec 16) : Bool := status &&& hpiStatusSie1MsgFlag ≠ 0

/-- From one place to the next, on the value that was read. -/
def step (value : BitVec 16) (main : UsbMain) : UsbMain :=
  match main.place with
  | .usbHotPlug | .sie1Init =>
      { main with place := if value &&& 0xFFFF ≠ 0 then .sie1Ack else .sie1Init }
  | .sie1Ack => { main with place := if value ≠ commAck then .mailboxError else .husbReset }
  | .husbReset =>
      if value ≠ commAck then { main with place := .mailboxError }
      else { main with place := .detect, ctlReg := usb1CtlReg, noDevice := aDpStat ||| aDmStat }
  | .mailboxError => { main with place := .usbHotPlug }
  | .detect =>
      if main.present value then { main with place := .request .setAddress }
      else { main with place := .detectRetry, hotPlugCount := 0#8 }
  | .detectRetry =>
      if main.present value then { main with place := .request .setAddress }
      else if main.hotPlugCount + 1#8 < 5#8 then
        { main with hotPlugCount := main.hotPlugCount + 1#8 }
      else { main with place := .insertDevice, hotPlugCount := main.hotPlugCount + 1#8 }
  | .insertDevice =>
      { main with place := if main.present value then .usbHotPlug else .insertDevice }
  | .request request =>
      { main with place := if hasMessage value then .waitTdListDone request else .request request }
  | .waitTdListDone request | .waitTdListDoneLoop request =>
      { main with
        place := if value ≠ husbTdListDone then .waitTdListDoneLoop request
          else .tdControl request }
  | .tdControl request => { main with place := if value ≠ 0x03 then .getRetryCnt else request.next }
  | .getRetryCnt =>
      { main with place := if value = husbTdListDone then .retryCntClear else .retryCntControl }
  | .retryCntClear | .retryCntWait =>
      { main with place := if hasMessage value then .retryCntControl else .retryCntWait }
  | .retryCntControl => { main with place := .usbHotPlug }
  | .dataSize =>
      { main with place := .request .setConfig, dataSize := (value &&& 0x0FF).setWidth 8 }
  | .poll =>
      { main with
        place := if hasMessage value then .waitPollDone else .resubmit
        toggle := main.toggle + 1#8 }
  | .resubmit => { main with place := if hasMessage value then .waitPollDone else .resubmit }
  | .waitPollDone | .waitPollDoneLoop =>
      { main with place := if value ≠ husbTdListDone then .waitPollDoneLoop else .keycode }
  | .keycode => { main with place := .checkDevice, keycodeBase := (value &&& 0xFF).setWidth 8 }
  | .checkDevice =>
      if main.present value then { main with place := .poll }
      else { main with place := .checkRetry, hotPlugCount := 0#8 }
  | .checkRetry =>
      if main.present value then { main with place := .poll }
      else if main.hotPlugCount + 1#8 < 7#8 then
        { main with hotPlugCount := main.hotPlugCount + 1#8 }
      else { main with place := .removed, hotPlugCount := main.hotPlugCount + 1#8 }
  | .removed => { main with place := if main.present value then .usbHotPlug else .removed }

/-- A run of `main` from the label on, on any values read. -/
structure Run where
  main : ℕ → UsbMain
  value : ℕ → BitVec 16
  place : (main 0).place = .usbHotPlug
  toggle : (main 0).toggle = 0#8
  next : ∀ n, main (n + 1) = (main n).step (value n)

end UsbMain

end Galaga
