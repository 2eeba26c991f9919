import Mathlib.Data.List.Nodup
import Msm8909w.Pxp.PxpMonitor

/-!
# The path loss monitor

`PxpMonitorService.java` watches the path loss of its devices in one of two ways.  The adapter
watches the RSSI of a device in hardware, once the thresholds are written and the monitor is
enabled; if it does not take the thresholds, the service polls the RSSI of all devices with one
scheduler.  The state of the hardware monitor is `mState`, which `DeviceProperties.java` also moves
in the callbacks of the adapter.

`devices` are the keys of `mHashMapDevice`, and an iteration goes through them in any order.  The
adapter answers the requests of a device one after the other.  A result `none` is a
`NullPointerException`.  RSSI and transmission power are signed bytes, so that no `int` overflows.

* `step` : one call or callback,
* `closeFrom` : the loop of `close`.
-/

namespace Msm8909w

namespace Pxp

namespace PathLoss

/-! ### The data -/

/-- `MONITOR_STATE_*`. -/
inductive MonitorState
  | idle
  | starting
  | stopping
  | started
  | closed
  deriving DecidableEq, Repr

/-- A `BluetoothGatt`. -/
inductive GattClient
  | opened
  | closed
  deriving DecidableEq, Repr

def ALERT_LEVEL_NO : ℤ := 0
def ALERT_LEVEL_HIGH : ℤ := 2

/-- All fields of `DeviceProperties`, but for the addresses and the manager. -/
structure Properties (D : Type) extends DeviceProperties D where
  gatt : Option GattClient := none
  mState : MonitorState := .idle
  pathLossAlertLevel : ℤ := ALERT_LEVEL_NO
  maxPathLossThreshold : ℤ := 147
  minPathLossThreshold : ℤ := 100
  isAlerting : Bool := false
  isPairing : Bool := false
  PairingFail : Bool := false
  AddedToWhitelist : Bool := false
  startDiscoverServices : Bool := false

/-- The adapter's side of one device. -/
structure HardwareMonitor where
  /-- How many threshold writes have been taken and not been answered. -/
  writes : ℕ := 0
  /-- The calls of `enableRssiMonitor` that have not been answered. -/
  requests : List Bool := []
  enabled : Bool := false

/-- What has been broadcast and written.  An intent names its device only in `DEVICE_ALLERT`. -/
inductive Act (D : Type)
  | deviceAllert (device : D) (rssi : ℤ)
  | pathLossAllert (device : D)
  | deviceAllertFinish (device : D)
  | linkLossAlert (device : D)
  /-- `writeCharacteristic` of `iasAlertLevelCh`. -/
  | writeAlertLevel (device : D) (level : ℤ)
  | writeRssiThreshold (device : D) (rssiMin rssiMax : ℤ)
  deriving DecidableEq, Repr

structure State (D : Type) where
  devices : List D := []
  props : D → Properties D := fun _ => {}
  hardware : D → HardwareMonitor := fun _ => {}
  /-- `mPathLossScheduler` is not `null`. -/
  mPathLossScheduler : Bool := false
  log : List (Act D) := []

variable {D : Type} [DecidableEq D]

namespace State

/-- Change the properties of a device. -/
def modify (s : State D) (d : D) (f : Properties D → Properties D) : State D :=
  { s with props := Function.update s.props d (f (s.props d)) }

def modifyHardware (s : State D) (d : D) (f : HardwareMonitor → HardwareMonitor) : State D :=
  { s with hardware := Function.update s.hardware d (f (s.hardware d)) }

def act (s : State D) (acts : List (Act D)) : State D := { s with log := s.log ++ acts }

/-- The keys in some order, each of them once. -/
def Iterates (s : State D) (order : List D) : Prop :=
  order.Nodup ∧ (∀ d ∈ order, d ∈ s.devices) ∧ ∀ d ∈ s.devices, d ∈ order

instance (s : State D) (order : List D) : Decidable (s.Iterates order) :=
  inferInstanceAs (Decidable (_ ∧ _ ∧ _))

section

variable {s : State D} {d e : D} {f : Properties D → Properties D}
    {g : HardwareMonitor → HardwareMonitor} {acts : List (Act D)}

@[simp] theorem modify_props_self : (s.modify d f).props d = f (s.props d) :=
  Function.update_self d _ s.props

theorem modify_props_of_ne (h : e ≠ d) : (s.modify d f).props e = s.props e :=
  Function.update_of_ne h _ s.props

@[simp] theorem modify_devices : (s.modify d f).devices = s.devices := rfl
@[simp] theorem modify_hardware : (s.modify d f).hardware = s.hardware := rfl
@[simp] theorem modify_log : (s.modify d f).log = s.log := rfl
@[simp] theorem modify_mPathLossScheduler :
    (s.modify d f).mPathLossScheduler = s.mPathLossScheduler := rfl

@[simp] theorem modifyHardware_hardware_self :
    (s.modifyHardware d g).hardware d = g (s.hardware d) :=
  Function.update_self d _ s.hardware

theorem modifyHardware_hardware_of_ne (h : e ≠ d) :
    (s.modifyHardware d g).hardware e = s.hardware e :=
  Function.update_of_ne h _ s.hardware

omit [DecidableEq D] in
@[simp] theorem act_props : (s.act acts).props = s.props := rfl
omit [DecidableEq D] in
@[simp] theorem act_log : (s.act acts).log = s.log ++ acts := rfl

end

end State

/-! ### The software monitor -/

/-- `startPathLossSwMonitor`. -/
def startPathLossSwMonitor (s : State D) : State D := { s with mPathLossScheduler := true }

/-- `stopPathLossSwMonitor`. -/
def stopPathLossSwMonitor (s : State D) : State D :=
  if s.mPathLossScheduler = true ∧
      ∀ d ∈ s.devices, (s.props d).pathLossAlertLevel = ALERT_LEVEL_NO then
    { s with mPathLossScheduler := false }
  else s

/-- `iasAlertLevelCh.setValue` and `gatt.writeCharacteristic`. -/
def writeAlertLevel (d : D) (level : ℤ) (s : State D) : Option (State D) :=
  if (s.props d).iasAlertLevelCh.isSome ∧ (s.props d).gatt.isSome then
    some (s.act [.writeAlertLevel d level])
  else none

/-- `onReadRemoteRssi`; `success` is whether the status is `GATT_SUCCESS`. -/
def onReadRemoteRssi (d : D) (rssi : ℤ) (success : Bool) (s : State D) : Option (State D) :=
  if !success then some s
  else
    let p := s.props d
    let pathLoss := p.txPowerLevel - rssi
    if pathLoss > p.maxPathLossThreshold ∧ !p.isAlerting then
      (writeAlertLevel d p.pathLossAlertLevel s).map fun s =>
        (s.modify d fun p => { p with isAlerting := true }).act
          [.deviceAllert d rssi, .pathLossAllert d]
    else if pathLoss < p.maxPathLossThreshold ∧ p.isAlerting then
      (writeAlertLevel d ALERT_LEVEL_NO s).map fun s =>
        (s.modify d fun p => { p with isAlerting := false }).act [.deviceAllertFinish d]
    else some s

/-! ### The hardware monitor -/

/-- Write the thresholds, and fall back to the software monitor if the adapter does not take
them. -/
def startMonitor (d : D) (accepted : Bool) (s : State D) : State D :=
  let p := s.props d
  let rssiMin := p.txPowerLevel - p.maxPathLossThreshold
  let rssiMax := p.txPowerLevel - p.minPathLossThreshold
  let s := s.act [.writeRssiThreshold d rssiMin rssiMax]
  let s := if accepted then s.modifyHardware d fun h => { h with writes := h.writes + 1 }
    else startPathLossSwMonitor s
  s.modify d fun p => { p with mState := .starting }

/-- `mQAdapter.enableRssiMonitor`. -/
def enableRssiMonitor (d : D) (enable : Bool) (s : State D) : State D :=
  s.modifyHardware d fun h => { h with requests := h.requests ++ [enable] }

/-- What is broadcast about the new level of an alert. -/
def newLevelAct (d : D) (level : ℤ) : Act D :=
  if level = ALERT_LEVEL_NO then .deviceAllertFinish d else .pathLossAllert d

/-- The first part of `setPathLossAlertLevel`: the new level, also for an alert that goes on. -/
def writeNewLevel (d : D) (level : ℤ) (s : State D) : Option (State D) :=
  let s := s.modify d fun p => { p with pathLossAlertLevel := level }
  if (s.props d).isAlerting then
    (writeAlertLevel d level s).map fun s => s.act [newLevelAct d level]
  else some s

/-- The second part: start or stop the monitors. -/
def switchMonitor (d : D) (level : ℤ) (accepted : Bool) (s : State D) : State D :=
  let mState := (s.props d).mState
  if level ≠ ALERT_LEVEL_NO then
    if mState ≠ .starting then startMonitor d accepted s else s
  else
    let s := if mState = .starting ∨ mState = .started then
        (enableRssiMonitor d false s).modify d fun p => { p with mState := .stopping }
      else s
    stopPathLossSwMonitor s

/-- `setPathLossAlertLevel`; `accepted` is the answer of `writeRssiThreshold`. -/
def setPathLossAlertLevel (d : D) (level : ℤ) (accepted : Bool) (s : State D) :
    Option (Bool × State D) :=
  if level < ALERT_LEVEL_NO ∨ level > ALERT_LEVEL_HIGH then some (false, s)
  else if level = (s.props d).pathLossAlertLevel then some (true, s)
  else (writeNewLevel d level s).map fun s => (true, switchMonitor d level accepted s)

/-- `onWriteRssiThreshold`. -/
def onWriteRssiThreshold (d : D) (success : Bool) (s : State D) : State D :=
  if (s.props d).mState = .starting then
    if success then enableRssiMonitor d true s
    else s.modify d fun p => { p with mState := .stopping }
  else s

/-- `onEnableRssiMonitor`. -/
def onEnableRssiMonitor (d : D) (enable success : Bool) (s : State D) : State D :=
  if (s.props d).mState = .starting then
    let s := if success && enable then s.modify d fun p => { p with mState := .started } else s
    if !enable then s.modify d fun p => { p with mState := .closed } else s
  else s

/-! ### Connections -/

/-- `connect`; `gatt` is whether `connectGatt` gives a client. -/
def connect (d : D) (gatt : Bool) (s : State D) : State D :=
  let gatt := if gatt then some GattClient.opened else none
  if d ∉ s.devices then
    { s with devices := s.devices ++ [d] }.modify d fun _ => { gatt, mState := .idle }
  else s.modify d fun p => { p with gatt, mState := .idle }

/-- `disconnect`. -/
def disconnect (d : D) (s : State D) : State D :=
  if (s.props d).gatt = none then s
  else
    let s := s.modify d fun p => { p with disconnect := true }
    if (s.props d).mState = .started then
      (enableRssiMonitor d false s).modify d fun p => { p with mState := .stopping }
    else s

/-- `onConnectionStateChange` to `STATE_CONNECTED`. -/
def onConnected (d : D) (bonding accepted : Bool) (s : State D) : State D :=
  let p := s.props d
  let s := if p.mState ≠ .starting ∧ p.pathLossAlertLevel ≠ ALERT_LEVEL_NO then
      startMonitor d accepted s
    else s
  s.modify d fun p =>
    { p with
      startDiscoverServices := if !bonding then true else p.startDiscoverServices
      disconnect := false }

/-- The properties after a connection timeout, of a device with a client. -/
def Properties.afterTimeout (p : Properties D) : Properties D :=
  let p := { p with mState := .idle }
  if !p.AddedToWhitelist then
    if (p.isPairing && !p.PairingFail) || !p.isPairing then
      { p with connectionState := true, AddedToWhitelist := true }
    else { p with PairingFail := false, isPairing := false }
  else p

/-- `onConnectionStateChange` to `STATE_DISCONNECTED`. -/
def onDisconnected (d : D) (s : State D) : State D :=
  let p := s.props d
  let s := s.modify d fun p => { p with isAlerting := false, connectionState := false }
  if p.disconnect then s
  else
    let s := s.modify d fun p =>
      { p with hasLlsService := false, hasIasService := false, hasTxpService := false }
    if p.gatt.isSome then (s.modify d Properties.afterTimeout).act [.linkLossAlert d] else s

/-- One device in the loop of `close`. -/
def closeDevice (d : D) (s : State D) : State D :=
  let mState := (s.props d).mState
  let s := if mState = .starting ∨ mState = .started then enableRssiMonitor d false s else s
  s.modify d fun p => { p with gatt := p.gatt.map fun _ => .closed, mState := .closed }

/-- The loop of `close`, which returns at a device that is closed. -/
def closeFrom : List D → State D → State D
  | [], s => s
  | d :: order, s =>
    if (s.props d).mState = .closed then s else closeFrom order (closeDevice d s)

/-- `close`; `order` is the order in which the keys are gone through. -/
def close (order : List D) (s : State D) : State D := closeFrom order (stopPathLossSwMonitor s)

/-! ### Steps -/

/-- The changes of a bond that the receiver looks for. -/
inductive BondChange
  | bonding
  | failed
  | bonded
  deriving DecidableEq, Repr

/-- `onReceive` of `ACTION_BOND_STATE_CHANGED`. -/
def onBondStateChanged (d : D) (change : BondChange) (s : State D) : State D :=
  s.modify d fun p =>
    match change with
    | .bonding => { p with isPairing := true }
    | .failed => { p with PairingFail := true }
    | .bonded => { p with startDiscoverServices := true }

/-- The calls of the clients and the callbacks. -/
inductive Event (D : Type)
  | connect (device : D) (gatt : Bool)
  | disconnect (device : D)
  | close (order : List D)
  | setPathLossAlertLevel (device : D) (level : ℤ) (accepted : Bool)
  | setMaxPathLossThreshold (device : D) (threshold : ℤ)
  | setMinPathLossThreshold (device : D) (threshold : ℤ)
  | connected (device : D) (bonding accepted : Bool)
  | disconnected (device : D)
  /-- `onServicesDiscovered` finds the immediate alert service. -/
  | iasFound (device : D) (service : ℕ)
  /-- `onCharacteristicRead`. -/
  | characteristicRead (device : D) (ch : Characteristic D) (value : Option ℤ)
  | readRemoteRssi (device : D) (rssi : ℤ) (success : Bool)
  | writeRssiThreshold (device : D) (success : Bool)
  | enableRssiMonitor (device : D) (success : Bool)
  | bondStateChanged (device : D) (change : BondChange)

/-- One call or callback.  A client calls back while it is open, and the adapter answers what it has
been asked. -/
def step (s : State D) : Event D → Option (State D)
  | .connect d gatt => some (connect d gatt s)
  | .close order => if s.Iterates order then some (close order s) else none
  | .disconnect d => if d ∈ s.devices then some (disconnect d s) else none
  | .setPathLossAlertLevel d level accepted =>
    if d ∈ s.devices then (setPathLossAlertLevel d level accepted s).map Prod.snd else none
  | .setMaxPathLossThreshold d threshold =>
    if d ∈ s.devices then
      some (s.modify d fun p => { p with maxPathLossThreshold := threshold })
    else none
  | .setMinPathLossThreshold d threshold =>
    if d ∈ s.devices then
      some (s.modify d fun p => { p with minPathLossThreshold := threshold })
    else none
  | .connected d bonding accepted =>
    if d ∈ s.devices ∧ (s.props d).gatt = some .opened then
      some (onConnected d bonding accepted s)
    else none
  | .disconnected d =>
    if d ∈ s.devices ∧ (s.props d).gatt = some .opened then some (onDisconnected d s) else none
  | .iasFound d service =>
    if d ∈ s.devices ∧ (s.props d).gatt = some .opened then
      some (s.modify d fun p =>
        { p with iasAlertLevelCh := some ⟨d, service, .alertLevel⟩, hasIasService := true })
    else none
  | .characteristicRead d ch value =>
    if d ∈ s.devices ∧ (s.props d).gatt = some .opened then
      some (s.modify d fun p =>
        { p with toDeviceProperties := p.toDeviceProperties.afterRead ch value })
    else none
  | .readRemoteRssi d rssi success =>
    if d ∈ s.devices ∧ (s.props d).gatt = some .opened then onReadRemoteRssi d rssi success s
    else none
  | .writeRssiThreshold d success =>
    if d ∈ s.devices ∧ 0 < (s.hardware d).writes then
      some (onWriteRssiThreshold d success
        (s.modifyHardware d fun h => { h with writes := h.writes - 1 }))
    else none
  | .enableRssiMonitor d success =>
    match (s.hardware d).requests with
    | [] => none
    | enable :: requests =>
      some (onEnableRssiMonitor d enable success (s.modifyHardware d fun h =>
        { h with requests, enabled := if success then enable else h.enabled }))
  | .bondStateChanged d change =>
    if d ∈ s.devices then some (onBondStateChanged d change s) else none

end PathLoss

end Pxp

end Msm8909w
