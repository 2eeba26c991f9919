import Mathlib.Data.Int.Notation
import Mathlib.Data.List.Basic
import Msm8909w.Lib.Runs
import Msm8909w.A4wp.Params

/-!
# The wireless charging service

`A4wpService.java` is the GATT server that a power transmitting unit connects to.  A device that
reads the static parameter opens a session; the service remembers it in `mDevice`, also when it
writes the alert descriptor.  Control writes enable the output and take a wake lock, and data events
start the charging.  Everything is undone when the remembered device disconnects.

The callbacks are atomic.  The service has been created with a `WipowerManager`, whose commands are
logged, and the property `persist.a4wp.skipwakelock` does not change.

* `session_step` : a step keeps the session in order, unless it enables the output while no device
  is remembered,
* `charging_ends_with_connection` : if the output is only enabled while a device is remembered, then
  everything is undone once all devices have disconnected.
-/

namespace Msm8909w

namespace A4wp

/-! ### The service -/

/-- `STATE_DISCONNECTED` and `STATE_CONNECTED`. -/
inductive ProfileState
  | disconnected
  | connected
  deriving DecidableEq, Repr

/-- The calls of `mWipowerManager`. -/
inductive Command
  | startCharging
  | stopCharging
  | enablePowerApply (enable on timeFlag : Bool)
  | enableDataNotification (enable : Bool)
  | enableAlertNotification (enable : Bool)
  | setPowerLevel (level : PowerLevel)
  deriving DecidableEq, Repr

def Command.isCharging : Command → Bool
  | .startCharging | .stopCharging => true
  | _ => false

/-- The fields of `A4wpService`, and what has been done so far. -/
structure State (D : Type) where
  mDevice : Option D := none
  mState : ProfileState := .disconnected
  mWakeLock : Bool := false
  isChargePortSet : Bool := false
  mChargeComplete : Bool := true
  mOutputControl : Bool := false
  mDiscInitiated : Bool := false
  mEnablePruAlerts : Bool := false
  mPruControl : PruControl := {}
  mPruDynamicParam : WipowerDynamicParam := {}
  /-- The devices that are connected. -/
  devices : List D := []
  commands : List Command := []
  /-- The calls of `cancelConnection`. -/
  cancelled : List D := []
  /-- The calls of `notifyCharacteristicChanged`. -/
  notified : List (D × BitVec 8) := []

variable {D : Type}

/-- Calls of `mWipowerManager`. -/
def State.call (s : State D) (commands : List Command) : State D :=
  { s with commands := s.commands ++ commands }

def DEFAULT_VRECT_MIN : BitVec 16 := 7100
def DEFAULT_VRECT_MAX : BitVec 16 := 19300
def DEFAULT_VRECT_SET : BitVec 16 := 7200
def VRECT_MIN_CHG_DISABLED : BitVec 16 := 10200
def OPTIONAL_FIELD_MASK : BitVec 8 := 0x3C
def CHARGE_PORT_MASK : BitVec 8 := 0x02
def CHARGE_COMPLETE_BIT : BitVec 8 := 0x08
def IRECT_MASK_LSB : ℤ := 0x15

/-- `chkDynParamsAndStartCharging`; the bytes are compared with their signs. -/
def chkDynParamsAndStartCharging (value : Vector (BitVec 8) 20) (s : State D) : State D :=
  let s :=
    if !s.isChargePortSet then
      let VRECT_DYN := toShort value[1] value[2]
      if DEFAULT_VRECT_MIN.toInt ≤ VRECT_DYN.toInt ∧ s.mOutputControl then
        { s.call [.startCharging] with isChargePortSet := true }
      else s
    else s
  if s.isChargePortSet ∧ value[16] &&& CHARGE_PORT_MASK = CHARGE_PORT_MASK ∧
      (value[3].toInt ≤ IRECT_MASK_LSB ∧ value[4] = 0) ∧
        (value[1].toInt > 0 ∨ value[2].toInt > 0) then
    s.call [.startCharging]
  else s

/-- The two `enablePowerApply` calls that make the charger scan again. -/
def powerApply (mChargeComplete : Bool) : List Command :=
  [.enablePowerApply false false false, .enablePowerApply true true mChargeComplete]

/-- `initiateDisconnection`. -/
def initiateDisconnection (s : State D) : State D :=
  match s.mDevice with
  | none => s
  | some device =>
    if s.mDiscInitiated = false ∧ s.mState = .connected then
      { s.call (powerApply s.mChargeComplete) with
        mDiscInitiated := true
        cancelled := s.cancelled ++ [device] }
    else s

/-- `sendPruAlert`. -/
def sendPruAlert (alertValue : BitVec 8) (s : State D) : State D :=
  match s.mDevice with
  | none => s
  | some device =>
    if s.mEnablePruAlerts ∧ alertValue ≠ 0 ∧ s.mState = .connected then
      { s with notified := s.notified ++ [(device, alertValue)] }
    else s

/-- `onWbcEventUpdate` about the battery. -/
def chargingRequiredStatus (required : Bool) (s : State D) : State D :=
  let s := s.call [.enablePowerApply false false false]
  let s := { s with mChargeComplete := !required }
  let s := if required then s else sendPruAlert CHARGE_COMPLETE_BIT s
  if s.mState = .disconnected then s.call [.enablePowerApply true true !required] else s

/-- `acquire_wake_lock`. -/
def acquire_wake_lock (wake : Bool) (s : State D) : State D := { s with mWakeLock := wake }

/-- `processPruControl`. -/
def processPruControl (skipWakeLock : Bool) (value : List (BitVec 8)) (s : State D) : State D :=
  let mPruControl := PruControl.setValue value
  let s := { s with mPruControl }
  if mPruControl.getEnablePruOutput && mPruControl.getPermission then
    -- hold wake lock during connection
    let s := if !skipWakeLock then acquire_wake_lock true s else s
    { s.call [.setPowerLevel mPruControl.getReducePower] with mOutputControl := true }
  else { s.call [.stopCharging] with isChargePortSet := false, mOutputControl := false }

/-- `processPruAlertRequest`. -/
def processPruAlertRequest (value : List (BitVec 8)) (s : State D) : State D :=
  -- `PRU_ALERT_NOTIFY_BIT` is in the first byte
  let enable := value.getD 0 0 &&& 1 = 1
  { s.call [.enableAlertNotification enable] with mEnablePruAlerts := enable }

/-! ### The callbacks of the GATT server -/

/-- `onConnectionStateChange` to `STATE_DISCONNECTED`. -/
def onDisconnected [DecidableEq D] (skipWakeLock : Bool) (device : D) (s : State D) : State D :=
  let s :=
    if s.mDevice = some device then
      let s := { s with
        mState := .disconnected
        mDiscInitiated := false
        mOutputControl := false
        mEnablePruAlerts := false }
      let s :=
        s.call ([.enableDataNotification false, .enableAlertNotification false, .stopCharging] ++
        powerApply s.mChargeComplete)
      -- drop wake lock once the connection is dropped gracefully
      let s := if !skipWakeLock then acquire_wake_lock false s else s
      { s with mDevice := none }
    else s
  { s with isChargePortSet := false, mPruDynamicParam := {} }

/-- The characteristics, by their UUIDs. -/
inductive Uuid
  | pruCtrl
  | ptuStatic
  | pruAlert
  | pruStatic
  | pruDynamic
  deriving DecidableEq, Repr

/-- The value of the dynamic parameter, as it is sent. -/
def dynamicValue (s : State D) : List (BitVec 8) :=
  let value := s.mPruDynamicParam.getValue
  let alert := if s.mChargeComplete then value[16] ||| CHARGE_COMPLETE_BIT
    else value[16] &&& ~~~CHARGE_COMPLETE_BIT
  let chargePort := alert &&& CHARGE_PORT_MASK = CHARGE_PORT_MASK
  let vrectMin := if chargePort then DEFAULT_VRECT_MIN else VRECT_MIN_CHG_DISABLED
  let vrectSet := if chargePort then DEFAULT_VRECT_SET else VRECT_MIN_CHG_DISABLED
  (((((((((value.set 16 alert).set 0 OPTIONAL_FIELD_MASK).set 14 (lsb DEFAULT_VRECT_MAX)).set 15
    (msb DEFAULT_VRECT_MAX)).set 10 (lsb vrectMin)).set 11 (msb vrectMin)).set
      12 (lsb vrectSet)).set 13
    (msb vrectSet))).toList

/-- `onCharacteristicReadRequest`: the response and the state after it. -/
def onCharacteristicReadRequest (device : D) (id : Uuid) (s : State D) :
    List (BitVec 8) × State D :=
  if id = .pruStatic ∧ s.mState = .disconnected then
    (PruStaticParam.getValue {},
      { s.call [.enablePowerApply false false false, .enableDataNotification true] with
        mDevice := some device
        mState := .connected })
  else if id = .pruDynamic then (dynamicValue s, s)
  else if id = .pruCtrl then (s.mPruControl.getValue, s)
  else ([0], s)

/-- `onCharacteristicWriteRequest` of the control parameter. -/
def onControlWriteRequest (skipWakeLock : Bool) (value : List (BitVec 8)) (s : State D) : State D :=
  if value.length = 5 then processPruControl skipWakeLock value s else s

/-- `onDescriptorWriteRequest` of the alert descriptor. -/
def onAlertWriteRequest (device : D) (value : List (BitVec 8)) (s : State D) : State D :=
  if value.length = 2 then processPruAlertRequest value { s with mDevice := some device } else s

/-- What can happen: the events of the devices, those of the charger and those about the battery. -/
inductive Event (D : Type)
  | connect (device : D)
  | disconnect (device : D)
  | read (device : D) (id : Uuid)
  | writeControl (device : D) (value : List (BitVec 8))
  | writeAlert (device : D) (value : List (BitVec 8))
  | wipowerData (value : Vector (BitVec 8) 20)
  | wipowerAlert (alert : BitVec 8)
  /-- The power transmitting unit is not present, or the power is off. -/
  | ptuNotPresent
  | chargingRequired (required : Bool)

/-- The device of an event that only a connected device can cause. -/
def Event.device? : Event D → Option D
  | .disconnect device | .read device _ | .writeControl device _ | .writeAlert device _ =>
      some device
  | _ => none

/-- What an event does. -/
def handle [DecidableEq D] (skipWakeLock : Bool) (s : State D) : Event D → State D
  | .connect device => { s with devices := s.devices.insert device }
  | .disconnect device =>
    onDisconnected skipWakeLock device { s with devices := s.devices.filter (· ≠ device) }
  | .read device id => (onCharacteristicReadRequest device id s).2
  | .writeControl _ value => onControlWriteRequest skipWakeLock value s
  | .writeAlert device value => onAlertWriteRequest device value s
  | .wipowerData value =>
    { chkDynParamsAndStartCharging value s with mPruDynamicParam := .setValue value }
  | .wipowerAlert alert => sendPruAlert alert s
  | .ptuNotPresent => initiateDisconnection s
  | .chargingRequired required => chargingRequiredStatus required s

/-- An event, if its device is connected. -/
def step [DecidableEq D] (skipWakeLock : Bool) (s : State D) (e : Event D) : Option (State D) :=
  if ∀ device ∈ e.device?, device ∈ s.devices then some (handle skipWakeLock s e) else none

/-! ### The session -/

/-- The last charging command. -/
def State.lastCharging (s : State D) : Option Command :=
  (s.commands.filter Command.isCharging).getLast?

/-- Nothing is left of a session. -/
structure Clean (s : State D) : Prop where
  mState : s.mState = .disconnected
  mDevice : s.mDevice = none
  mOutputControl : s.mOutputControl = false
  isChargePortSet : s.isChargePortSet = false
  lastCharging : s.lastCharging ≠ some .startCharging
  mWakeLock : s.mWakeLock = false

/-- A control write that enables the output. -/
def Enabling (value : List (BitVec 8)) : Prop :=
  value.length = 5 ∧ value.getD 0 0 &&& 0x80 = 0x80 ∧ value.getD 1 0 = 0

instance (value : List (BitVec 8)) : Decidable (Enabling value) :=
  inferInstanceAs (Decidable (_ ∧ _ ∧ _))

/-- The output is enabled only while a device is remembered. -/
def EnablesRemembered (s : State D) : Event D → Prop
  | .writeControl _ value => Enabling value → s.mDevice ≠ none
  | _ => True

instance (s : State D) (e : Event D) : Decidable (EnablesRemembered s e) :=
  match e with
  | .writeControl _ value => inferInstanceAs (Decidable (Enabling value → s.mDevice ≠ none))
  | .connect _ | .disconnect _ | .read _ _ | .writeAlert _ _ | .wipowerData _ | .wipowerAlert _ |
    .ptuNotPresent | .chargingRequired _ => .isTrue trivial

/-- The remembered device is connected, and without one nothing is left of a session. -/
structure Session (skipWakeLock : Bool) (s : State D) : Prop where
  device : ∀ d, s.mDevice = some d → d ∈ s.devices
  idle : s.mDevice = none → Clean s
  wakeLock : skipWakeLock = true → s.mWakeLock = false

section Session

variable {skipWakeLock : Bool} {s t : State D} {cs : List Command} {device : D}
    {value : List (BitVec 8)}

theorem lastCharging_call : (s.call cs).lastCharging =
    ((cs.filter Command.isCharging).getLast?).or s.lastCharging := by
  unfold State.lastCharging State.call
  rw [List.filter_append, List.getLast?_append]

/-- Commands that are not about charging. -/
theorem lastCharging_call_of (h : cs.filter Command.isCharging = []) :
    (s.call cs).lastCharging = s.lastCharging := by
  rw [lastCharging_call, h]
  rfl

theorem session_initial : Session skipWakeLock ({} : State D) :=
  ⟨nofun, fun _ => ⟨rfl, rfl, rfl, rfl, nofun, rfl⟩, fun _ => rfl⟩

/-- The fields that matter to a session. -/
def State.session (s : State D) :
    Option D × ProfileState × Bool × Bool × Bool × Option Command × List D :=
  (s.mDevice, s.mState, s.mWakeLock, s.isChargePortSet, s.mOutputControl, s.lastCharging, s.devices)

theorem Session.congr (h : Session skipWakeLock s) (heq : t.session = s.session) :
    Session skipWakeLock t := by
  simp only [State.session, Prod.mk.injEq] at heq
  obtain ⟨hdevice, hstate, hlock, hport, houtput, hlast, hdevices⟩ := heq
  refine ⟨fun d hd => ?_, fun hnone => ?_, fun hs => hlock.trans (h.wakeLock hs)⟩
  · rw [hdevices]
    exact h.device d (hdevice ▸ hd)
  · have hclean := h.idle (hdevice ▸ hnone)
    exact ⟨hstate.trans hclean.mState, hnone, houtput.trans hclean.mOutputControl,
      hport.trans hclean.isChargePortSet, hlast ▸ hclean.lastCharging, hlock.trans hclean.mWakeLock⟩

theorem Session.connect [DecidableEq D] (h : Session skipWakeLock s) (device : D) :
    Session skipWakeLock { s with devices := s.devices.insert device } := by
  refine ⟨fun d hd => List.mem_insert_of_mem (h.device d hd), fun hnone => ?_, h.wakeLock⟩
  have hclean := h.idle hnone
  exact ⟨hclean.mState, hnone, hclean.mOutputControl, hclean.isChargePortSet, hclean.lastCharging,
    hclean.mWakeLock⟩

/-- The remembered device disconnects, or another one. -/
theorem Session.disconnect [DecidableEq D] (h : Session skipWakeLock s) (device : D) :
    Session skipWakeLock
      (onDisconnected skipWakeLock device { s with devices := s.devices.filter (· ≠ device) }) := by
  unfold onDisconnected
  by_cases hd : s.mDevice = some device
  · -- the stop command is the last one about charging
    have hlast : ∀ (u : State D) (complete : Bool), (u.call ([.enableDataNotification false,
        .enableAlertNotification false, .stopCharging] ++ powerApply complete)).lastCharging ≠
        some .startCharging := by
      intro u complete
      rw [lastCharging_call]
      nofun
    simp only [if_pos hd]
    cases skipWakeLock with
    | false => exact ⟨nofun, fun _ => ⟨rfl, rfl, rfl, rfl, hlast _ _, rfl⟩, nofun⟩
    | true =>
      have hlock := h.wakeLock rfl
      exact ⟨nofun, fun _ => ⟨rfl, rfl, rfl, rfl, hlast _ _, hlock⟩, fun _ => hlock⟩
  · simp only [if_neg hd]
    refine ⟨fun d hmem => ?_, fun hnone => ?_, h.wakeLock⟩
    · have hne : d ≠ device := by
        rintro rfl
        exact hd hmem
      exact List.mem_filter.2 ⟨h.device d hmem, decide_eq_true hne⟩
    · have hclean := h.idle hnone
      exact ⟨hclean.mState, hnone, hclean.mOutputControl, rfl, hclean.lastCharging,
        hclean.mWakeLock⟩

theorem Session.read (h : Session skipWakeLock s) (hmem : device ∈ s.devices) (id : Uuid) :
    Session skipWakeLock (onCharacteristicReadRequest device id s).2 := by
  unfold onCharacteristicReadRequest
  split_ifs
  · refine ⟨fun d hd => ?_, nofun, h.wakeLock⟩
    rw [← Option.some.inj hd]
    exact hmem
  · exact h
  · exact h
  · exact h

/-- A control write: one that enables the output needs a remembered device. -/
theorem Session.writeControl (h : Session skipWakeLock s) (hG : Enabling value → s.mDevice ≠ none) :
    Session skipWakeLock (onControlWriteRequest skipWakeLock value s) := by
  unfold onControlWriteRequest
  split_ifs with hlen
  · unfold processPruControl
    simp only
    by_cases henable : ((PruControl.setValue value).getEnablePruOutput &&
        (PruControl.setValue value).getPermission) = true
    · have hdev : s.mDevice ≠ none := by
        refine hG ⟨hlen, ?_⟩
        simpa [PruControl.getEnablePruOutput, PruControl.getPermission, PruControl.setValue]
          using henable
      rw [if_pos henable]
      cases skipWakeLock with
      | false =>
        exact ⟨h.device, fun hnone => absurd hnone hdev, fun htrue => absurd htrue (by decide)⟩
      | true => exact ⟨h.device, fun hnone => absurd hnone hdev, h.wakeLock⟩
    · rw [if_neg henable]
      refine ⟨h.device, fun hnone => ?_, h.wakeLock⟩
      have hclean := h.idle hnone
      refine ⟨hclean.mState, hnone, rfl, rfl, ?_, hclean.mWakeLock⟩
      change (State.call _ _).lastCharging ≠ _
      rw [lastCharging_call]
      change some Command.stopCharging ≠ some Command.startCharging
      decide
  · exact h

theorem Session.writeAlert (h : Session skipWakeLock s) (hmem : device ∈ s.devices) :
    Session skipWakeLock (onAlertWriteRequest device value s) := by
  unfold onAlertWriteRequest processPruAlertRequest
  split_ifs
  · refine ⟨fun d hd => ?_, nofun, h.wakeLock⟩
    rw [← Option.some.inj hd]
    exact hmem
  · exact h

/-- A data event without a session starts nothing. -/
theorem Session.wipowerData (h : Session skipWakeLock s) (value : Vector (BitVec 8) 20) :
    Session skipWakeLock
      { chkDynParamsAndStartCharging value s with mPruDynamicParam := .setValue value } := by
  have hframe : (chkDynParamsAndStartCharging value s).mDevice = s.mDevice ∧
      (chkDynParamsAndStartCharging value s).devices = s.devices ∧
      (chkDynParamsAndStartCharging value s).mWakeLock = s.mWakeLock := by
    unfold chkDynParamsAndStartCharging
    simp only
    split_ifs <;> exact ⟨rfl, rfl, rfl⟩
  obtain ⟨hdev, hdevices, hlock⟩ := hframe
  cases hd : s.mDevice with
  | none =>
    have hclean := h.idle hd
    have hsame : chkDynParamsAndStartCharging value s = s := by
      unfold chkDynParamsAndStartCharging
      simp [hclean.isChargePortSet, hclean.mOutputControl]
    rw [hsame]
    exact h.congr rfl
  | some d =>
    refine ⟨fun e he => ?_, fun hnone => ?_, fun hs => hlock.trans (h.wakeLock hs)⟩
    · change e ∈ (chkDynParamsAndStartCharging value s).devices
      rw [hdevices]
      exact h.device e (hdev ▸ he)
    · have hnone' : (chkDynParamsAndStartCharging value s).mDevice = none := hnone
      rw [hdev, hd] at hnone'
      cases hnone'

theorem session_sendPruAlert (alertValue : BitVec 8) (s : State D) :
    (sendPruAlert alertValue s).session = s.session := by
  unfold sendPruAlert
  split
  · rfl
  · split_ifs <;> rfl

theorem session_call (h : cs.filter Command.isCharging = []) : (s.call cs).session = s.session := by
  unfold State.session
  rw [lastCharging_call_of h]
  rfl

theorem session_initiateDisconnection (s : State D) :
    (initiateDisconnection s).session = s.session := by
  unfold initiateDisconnection
  split
  · rfl
  · split_ifs
    · have hcall : (s.call (powerApply s.mChargeComplete)).session = s.session := session_call rfl
      exact hcall
    · rfl

theorem session_chargingRequiredStatus (required : Bool) (s : State D) :
    (chargingRequiredStatus required s).session = s.session := by
  have hcall : (s.call [.enablePowerApply false false false]).session = s.session :=
    session_call rfl
  have hstart :
    ({ s.call [.enablePowerApply false false false] with mChargeComplete := !required } :
      State D).session = s.session := hcall
  unfold chargingRequiredStatus
  simp only
  split_ifs
  · exact (session_call rfl).trans hstart
  · exact hstart
  · exact (session_call rfl).trans ((session_sendPruAlert _ _).trans hstart)
  · exact (session_sendPruAlert _ _).trans hstart

/-- **A step keeps the session in order**, unless it enables the output while no device is
remembered. -/
theorem session_step [DecidableEq D] {e : Event D} (h : Session skipWakeLock s)
    (hG : EnablesRemembered s e)
    (hs : step skipWakeLock s e = some t) : Session skipWakeLock t := by
  unfold step at hs
  split_ifs at hs with hmem
  obtain rfl := Option.some.inj hs
  cases e with
  | connect device => exact h.connect device
  | disconnect device => exact h.disconnect device
  | read device id => exact h.read (hmem device rfl) id
  | writeControl device value => exact h.writeControl hG
  | writeAlert device value => exact h.writeAlert (hmem device rfl)
  | wipowerData value => exact h.wipowerData value
  | wipowerAlert alert => exact h.congr (session_sendPruAlert alert s)
  | ptuNotPresent => exact h.congr (session_initiateDisconnection s)
  | chargingRequired required => exact h.congr (session_chargingRequiredStatus required s)

/-- **Wireless charging ends with the connection.**  In every run in which the output is only
enabled while a device is remembered: once all devices have disconnected nothing is left of a
session, and the next device that reads the static parameter is served. -/
theorem charging_ends_with_connection [DecidableEq D] {es : List (Event D)}
    (h : Run (step skipWakeLock) EnablesRemembered ({} : State D) es t) (hnone : t.devices = []) :
    Clean t ∧ ∀ device, (onCharacteristicReadRequest device .pruStatic t).1 =
      PruStaticParam.getValue {} := by
  have hsession : Session skipWakeLock t :=
    h.invariant session_initial fun s e u hG hs hstep => session_step hs hG hstep
  have hdevice : t.mDevice = none := by
    cases hd : t.mDevice with
    | none => rfl
    | some d =>
      have hmem := hsession.device d hd
      rw [hnone] at hmem
      cases hmem
  have hclean := hsession.idle hdevice
  refine ⟨hclean, fun device => ?_⟩
  unfold onCharacteristicReadRequest
  rw [if_pos ⟨rfl, hclean.mState⟩]

end Session

/-- Two devices, one of which writes the alert descriptor during the session of the other. -/
def sampleRun : List (Event Bool) :=
  [.connect false, .connect true, .read false .pruStatic, .writeAlert true [1, 0],
    .writeControl false [0x80, 0, 0, 0, 0], .disconnect false, .disconnect true]

theorem charging_ends_with_connection_sample : ∃ t : State Bool,
    Run (step false) EnablesRemembered {} sampleRun t ∧ t.devices = [] ∧ Clean t ∧
      t.lastCharging = some .stopCharging := by
  have hexec : (exec (step false) EnablesRemembered {} sampleRun).map
      (fun t => (t.devices, t.lastCharging)) = some ([], some .stopCharging) := by decide
  obtain ⟨t, hrun, ht⟩ := exists_run_of_exec hexec
  rw [Prod.mk.injEq] at ht
  exact ⟨t, hrun, ht.1, (charging_ends_with_connection hrun ht.1).1, ht.2⟩

/-- A device that enables the output without having read the static parameter leaves the output
enabled and the wake lock held. -/
theorem half_open : ∃ t : State Unit,
    Run (step false) (fun _ _ => True) {}
      [.connect (), .writeControl () [0x80, 0, 0, 0, 0], .disconnect ()] t ∧
      t.devices = [] ∧ t.mOutputControl = true ∧ t.mWakeLock = true ∧ ¬Clean t := by
  have hexec : (exec (step false) (fun _ _ => True) {}
      [.connect (), .writeControl () [0x80, 0, 0, 0, 0], .disconnect ()]).map
      (fun t => (t.devices, t.mOutputControl, t.mWakeLock)) = some ([], true, true) := by decide
  obtain ⟨t, hrun, ht⟩ := exists_run_of_exec hexec
  simp only [Prod.mk.injEq] at ht
  refine ⟨t, hrun, ht.1, ht.2.1, ht.2.2, fun hclean => ?_⟩
  rw [hclean.mOutputControl] at ht
  cases ht.2.1

end A4wp

end Msm8909w
