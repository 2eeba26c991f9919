import Msm8909w.Hid.Keyboard
import Msm8909w.Hid.Mouse

/-!
# The HID service (`HidWrapperService`)

The keyboard and the mouse send their reports at once and keep a copy of each in a cache, from
which the host can ask for it.  What the host sends arrives in callbacks; most of them only post a
message, which a handler takes later.  The state is that of the service once it has the proxy of the
HID device, with the messages that wait and, newest first, the calls that have been made.

* `Service.step` : one event; it is `none` where the code calls a listener that is not set.
-/

namespace Msm8909w.Hid

/-- The protocol mode, as far as the service tells its values apart. -/
inductive Protocol
  | report
  | boot
  | other
deriving DecidableEq

/-- The type of a report that the host asks for or sets. -/
inductive ReportType
  | input
  | output
  | other
deriving DecidableEq

inductive ErrorRsp
  | success
  | invalidRptId
  | unsupportedReq
  | invalidParam
deriving DecidableEq

/-- The messages to the handler. -/
inductive Message
  | devConnected
  | intrDataReceived (reportId : UInt8) (data : Bytes)
  | getReportReceived (id : UInt8) (bufferSize : ℤ)
  | setReportReceived (id : UInt8) (data : Bytes)
deriving DecidableEq

/-- The calls that the service makes, to the HID device and to the listener.  `cleared` is no call:
it marks where the caches are emptied. -/
inductive Call
  | sendReport (id : UInt8) (data : Bytes)
  | replyReport (type : ReportType) (id : UInt8) (data : Bytes)
  | reportError (error : ErrorRsp)
  | onKeyboardLedState (numLock capsLock scrollLock : Bool)
  | onProtocolModeState (bootMode : Bool)
  | onConnectionState (connected : Bool)
  | cleared
deriving DecidableEq

/-- The service; `L` are the battery levels. -/
structure Service (L : Type) where
  mProtocol : Protocol
  mConnected : Bool
  mBatteryLevel : L
  mCurrentBatteryLevel : L
  mEventListener : Bool
  mMouseWrapper : ReportBuffer 4
  mKeyboardWrapper : ReportBuffer 8
  mInputReportCache : UInt8 → Option Bytes
  mOutputReportCache : UInt8 → Option Bytes
  queue : List Message
  calls : List Call

/-- What happens to the service.  `handle` lets the handler take the next message. -/
inductive Event (L : Type)
  | key (e : KeyEvent)
  | mouse (e : MouseEvent)
  | batteryChanged (level : L)
  | setEventListener
  | connectionStateChanged (connected : Bool)
  | setProtocol (protocol : Protocol)
  | intrData (reportId : UInt8) (data : Bytes)
  | getReport (type : ReportType) (id : UInt8) (bufferSize : ℤ)
  | setReport (type : ReportType) (id : UInt8) (data : Bytes)
  | handle

namespace Service

variable {L : Type} [DecidableEq L] (strength : L → UInt8)

/-- The service when it has been created, with the level 0 for the battery. -/
def start (level : L) : Service L where
  mProtocol := .report
  mConnected := false
  mBatteryLevel := level
  mCurrentBatteryLevel := level
  mEventListener := false
  mMouseWrapper := .new 4
  mKeyboardWrapper := .new 8
  mInputReportCache := fun _ => none
  mOutputReportCache := fun _ => none
  queue := []
  calls := []

variable (s : Service L)

def call (c : Call) : Service L := { s with calls := c :: s.calls }

def post (m : Message) : Service L := { s with queue := s.queue ++ [m] }

/-- A call of a listener that may not be set. -/
def callListener (c : Call) : Option (Service L) :=
  if s.mEventListener then some (s.call c) else none

/-! ### Reports -/

def storeReport (reportId : UInt8) (data : Bytes) (inputReport : Bool) : Service L :=
  if inputReport then
    { s with mInputReportCache := Function.update s.mInputReportCache reportId (some data) }
  else { s with mOutputReportCache := Function.update s.mOutputReportCache reportId (some data) }

def mouseReportId : UInt8 :=
  if s.mProtocol = .boot then BOOT_MOUSE_REPORT_ID else MOUSE_REPORT_ID

def keyboardReportId (type : ReportType) : UInt8 :=
  if s.mProtocol = .boot then BOOT_KEYBOARD_REPORT_ID
  else if type = .input then KEYBOARD_INPUT_REPORT_ID
  else KEYBOARD_OUTPUT_REPORT_ID

/-- Keep a report and send it. -/
def sendReport (id : UInt8) (data : Bytes) : Service L :=
  (s.storeReport id data true).call (.sendReport id data)

/-- `KeyboardWrapper.keyDown` and `keyUp` -/
def touchKey (e : KeyEvent) : Service L :=
  let mBuffer := KeyboardWrapper.touch s.mKeyboardWrapper e
  ({ s with mKeyboardWrapper := mBuffer }).sendReport (s.keyboardReportId .input) mBuffer.bytes

/-- `MouseWrapper.move`, `buttonDown`, `buttonUp` and `scroll` -/
def useMouse (e : MouseEvent) : Service L :=
  { s.sendReport s.mouseReportId (MouseWrapper.sent s.mMouseWrapper e).bytes with
    mMouseWrapper := MouseWrapper.kept s.mMouseWrapper e }

/-- `BatteryWrapper.update`: `strength level` is the byte `(int) (level * 255) & 0xff`. -/
def update (level : L) : Service L :=
  if ¬ s.mConnected then s
  else if s.mProtocol ≠ .report then s
  else s.sendReport BATTERY_REPORT_ID [strength level]

/-- The receiver of `ACTION_BATTERY_CHANGED` -/
def onBatteryChanged (level : L) : Service L :=
  if s.mCurrentBatteryLevel ≠ level then
    { ({ s with mBatteryLevel := level }).update strength level with mCurrentBatteryLevel := level }
  else { s with mBatteryLevel := level }

/-- `KeyboardWrapper.parseIncomingReport` -/
def parseIncomingReport (reportId : UInt8) (data : Bytes) : Service L × Bool :=
  if reportId ≠ s.keyboardReportId .output ∨ ¬ s.mEventListener then (s, false)
  else match data with
  | [leds] =>
    ((s.storeReport reportId data false).call (.onKeyboardLedState (leds &&& 0x01 ≠ 0)
      (leds &&& 0x02 ≠ 0) (leds &&& 0x04 ≠ 0)), true)
  | _ => (s, false)

/-! ### Callbacks -/

def onConnectionStateChanged (connected : Bool) : Option (Service L) :=
  if connected then
    (({ s with mConnected := true }).callListener (.onConnectionState true)).map
      fun t : Service L => t.post .devConnected
  else
    ({ s with mConnected := false, mProtocol := .report }).callListener (.onConnectionState false)

def onSetProtocol (protocol : Protocol) : Option (Service L) :=
  ({ s with mProtocol := protocol }).callListener (.onProtocolModeState (protocol = Protocol.boot))

def onGetReport (type : ReportType) (id : UInt8) (bufferSize : ℤ) : Service L :=
  match type with
  -- the cache of the input reports belongs to the handler
  | .input => s.post (.getReportReceived id bufferSize)
  | .output =>
    if id ≠ s.keyboardReportId .output then s.call (.reportError .invalidRptId)
    else match s.mOutputReportCache id with
    | none => s.call (.replyReport .output id (List.replicate 8 0))
    | some data => s.call (.replyReport .output id data)
  | .other => s.call (.reportError .unsupportedReq)

def onSetReport (type : ReportType) (id : UInt8) (data : Bytes) : Service L :=
  if type ≠ .output then s.call (.reportError .unsupportedReq)
  else if id ≠ s.keyboardReportId .output then s.call (.reportError .invalidRptId)
  else s.post (.setReportReceived id data)

/-! ### The handler -/

def getReportReceived (id : UInt8) : Service L :=
  match s.mInputReportCache id with
  | some data => s.call (.replyReport .input id data)
  | none =>
    if id = s.keyboardReportId .input then
      (s.storeReport id (List.replicate 8 0) true).call
        (.replyReport .input id (List.replicate 8 0))
    else if id = s.mouseReportId then
      (s.storeReport id (List.replicate 4 0) true).call
        (.replyReport .input id (List.replicate 4 0))
    else s.call (.reportError .invalidRptId)

def setReportReceived (id : UInt8) (data : Bytes) : Service L :=
  if id ≠ s.keyboardReportId .output then s.call (.reportError .invalidRptId)
  else match s.parseIncomingReport id data with
  | (s, true) => s.call (.reportError .success)
  | (s, false) => s.call (.reportError .invalidParam)

def devConnected : Option (Service L) :=
  let s := { s with mInputReportCache := fun _ => none, mOutputReportCache := fun _ => none }.call
    .cleared
  -- nothing is sent in boot mode, or if the host is gone again
  let s := s.update strength s.mBatteryLevel
  ({ s with mCurrentBatteryLevel := s.mBatteryLevel }).callListener
    (.onProtocolModeState (s.mProtocol = Protocol.boot))

def handleMessage (m : Message) : Option (Service L) :=
  match m with
  | .devConnected => s.devConnected strength
  | .intrDataReceived reportId data => some (s.parseIncomingReport reportId data).1
  | .getReportReceived id _ => some (s.getReportReceived id)
  | .setReportReceived id data => some (s.setReportReceived id data)

/-! ### Events -/

def step (s : Service L) : Event L → Option (Service L)
  | .key e => some (s.touchKey e)
  | .mouse e => some (s.useMouse e)
  | .batteryChanged level => some (s.onBatteryChanged strength level)
  | .setEventListener => some { s with mEventListener := true }
  | .connectionStateChanged connected => s.onConnectionStateChanged connected
  | .setProtocol protocol => s.onSetProtocol protocol
  | .intrData reportId data => some (s.post (.intrDataReceived reportId data))
  | .getReport type id bufferSize => some (s.onGetReport type id bufferSize)
  | .setReport type id data => some (s.onSetReport type id data)
  | .handle =>
    match s.queue with
    | [] => none
    | m :: ms => ({ s with queue := ms }).handleMessage strength m

end Service

end Msm8909w.Hid
