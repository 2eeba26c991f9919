import Msm8909w.Lib.Runs

/-!
# Event registration in `LocApiV02.cpp`

The masks and flags of `LocApiV02` that decide which events the location service sends, and the
functions that change them.  The service keeps, for an open client, the event mask that was
registered last; `client` is that mask, and `none` is `LOC_CLIENT_INVALID_HANDLE_VALUE`.

`LOC_API_ADAPTER_EVENT_MASK_T`, a mask of `w` bits, and the values of the adapter's bits are
declared outside the repository; they are parameters.  What `open` finds out about supported
messages does not touch the masks and is left out here.

* `registration_follows_session_iff` : the registered mask follows the session exactly if no client
  is opened with session events during a session,
* `last_writer_wins_iff` : event subscriptions are last-writer-wins exactly if no call disables an
  event that is enabled.
-/

namespace Msm8909w

namespace LocApi

/-! ### Masks -/

/-- The bits `LOC_API_ADAPTER_BIT_*` that `convertMask` looks at. -/
inductive AdapterBit
  | parsedPositionReport
  | satelliteReport
  | nmeaPositionReport
  | nmea1HzReport
  | niNotifyVerifyRequest
  | assistanceDataRequest
  | statusReport
  | locationServerRequest
  | requestWifi
  | sensorStatus
  | requestTimeSync
  | reportSpi
  | reportNiGeofence
  | geofenceGenAlert
  | reportGenfenceBreach
  | batchedGenfenceBreachReport
  | reportGenfenceDwell
  | pedometerCtrl
  | motionCtrl
  | requestWifiApData
  | batchFull
  | batchedPositionReport
  | gdtUploadBeginReq
  | gdtUploadEndReq
  | gnssMeasurement
  | requestTimezone
  deriving DecidableEq, Repr

/-- The bits in the order of `convertMask`. -/
def AdapterBit.all : List AdapterBit :=
  [.parsedPositionReport, .satelliteReport, .nmeaPositionReport, .nmea1HzReport,
    .niNotifyVerifyRequest, .assistanceDataRequest, .statusReport, .locationServerRequest,
      .requestWifi,
    .sensorStatus, .requestTimeSync, .reportSpi, .reportNiGeofence, .geofenceGenAlert,
    .reportGenfenceBreach, .batchedGenfenceBreachReport, .reportGenfenceDwell, .pedometerCtrl,
    .motionCtrl, .requestWifiApData, .batchFull, .batchedPositionReport, .gdtUploadBeginReq,
    .gdtUploadEndReq, .gnssMeasurement, .requestTimezone]

/-- The `QMI_LOC_EVENT_MASK_*_V02` that a bit stands for. -/
def AdapterBit.eventMask : AdapterBit → BitVec 64
  | .parsedPositionReport => 0x00000001
  | .satelliteReport => 0x00000002
  -- NMEA_1Hz and NMEA_POSITION_REPORT are treated the same
  | .nmeaPositionReport => 0x00000004
  | .nmea1HzReport => 0x00000004
  | .niNotifyVerifyRequest => 0x00000008
  -- predicted orbits, time and position
  | .assistanceDataRequest => 0x00000020 ||| 0x00000010 ||| 0x00000040
  | .statusReport => 0x00000080
  | .locationServerRequest => 0x00002000
  | .requestWifi => 0x00000200
  | .sensorStatus => 0x00000400
  | .requestTimeSync => 0x00000800
  | .reportSpi => 0x00001000
  | .reportNiGeofence => 0x00004000
  | .geofenceGenAlert => 0x00008000
  | .reportGenfenceBreach => 0x00010000
  | .batchedGenfenceBreachReport => 0x00400000
  | .reportGenfenceDwell => 0x20000000
  | .pedometerCtrl => 0x00020000
  | .motionCtrl => 0x00040000
  | .requestWifiApData => 0x00200000
  | .batchFull => 0x00080000
  | .batchedPositionReport => 0x00100000
  | .gdtUploadBeginReq => 0x08000000
  | .gdtUploadEndReq => 0x10000000
  | .gnssMeasurement => 0x01000000
  | .requestTimezone => 0x40000000

/-- The events that are only registered during a session: position report, satellites, NMEA, engine
state and GNSS measurement report. -/
def clearMask : BitVec 64 := 0x00000001 ||| 0x00000002 ||| 0x00000004 ||| 0x00000080 ||| 0x01000000

/-- `adjustMaskForNoSession`. -/
def adjustMaskForNoSession (qmiMask : BitVec 64) : BitVec 64 := qmiMask &&& ~~~clearMask

section

variable {w : ℕ} (bits : AdapterBit → BitVec w)

/-- `convertMask`. -/
def convertMask (mask : BitVec w) : BitVec 64 :=
  AdapterBit.all.foldl (fun eventMask b => if mask &&& bits b ≠ 0 then eventMask ||| b.eventMask
    else eventMask) 0

/-! ### The functions -/

/-- `LOC_API_ADAPTER_ERR_SUCCESS`, which is zero, and `LOC_API_ADAPTER_ERR_FAILURE`. -/
inductive Err
  | success
  | failure
  deriving DecidableEq, Repr

/-- The fields of `LocApiV02` and `LocApiBase` about events. -/
structure State (w : ℕ) where
  mMask : BitVec w
  mExcludedMask : BitVec w
  mQmiMask : BitVec 64
  mInSession : Bool
  mEngineOn : Bool
  mMeasurementsStarted : Bool
  /-- The mask registered at the service, for an open client. -/
  client : Option (BitVec 64)
  deriving DecidableEq, Repr

/-- The constructor, with `exMask`. -/
def initial (exMask : BitVec w) : State w := ⟨0, exMask, 0, false, false, false, none⟩

/-- `locClientRegisterEventMask`; `ok` is whether the service takes the request. -/
def locClientRegisterEventMask (ok : Bool) (s : State w) (eventRegMask : BitVec 64) :
    Bool × State w :=
  match s.client with
  -- `locClientSendReq` refuses an invalid handle
  | none => (false, s)
  | some _ => if ok then (true, { s with client := some eventRegMask }) else (false, s)

/-- `registerEventMask`. -/
def registerEventMask (ok : Bool) (s : State w) (qmiMask : BitVec 64) : Bool × State w :=
  locClientRegisterEventMask ok s (if s.mInSession then qmiMask else adjustMaskForNoSession qmiMask)

/-- The mask `newMask` of `open`. -/
def newMask (s : State w) (mask : BitVec w) : BitVec w := s.mMask ||| (mask &&& ~~~s.mExcludedMask)

/-- `open`; `ok` is whether the one request about events succeeds. -/
def openMask (ok : Bool) (s : State w) (mask : BitVec w) : Err × State w :=
  let newMask := newMask s mask
  let qmiMask := convertMask bits newMask
  match s.client with
  | none =>
    -- `locClientOpen` registers the mask at the fresh client
    if ok then
      (.success, { s with
        client := some (adjustMaskForNoSession qmiMask), mMask := newMask, mQmiMask := qmiMask })
    else (.failure, { s with mMask := 0, mQmiMask := 0 })
  | some _ =>
    if newMask ≠ s.mMask then
      let (registered, s) := registerEventMask ok s qmiMask
      if registered then (.success, { s with mMask := newMask, mQmiMask := qmiMask })
        else (.failure, s)
    else (.success, s)

/-- `close`. -/
def close (ok : Bool) (s : State w) : Err × State w :=
  (if s.client.isNone || ok then .success else .failure, { s with mMask := 0, client := none })

/-- `startFix`, as far as it is about events: the requests that follow do not touch them. -/
def startFix (ok : Bool) (s : State w) : State w :=
  (registerEventMask ok { s with mInSession := true, mMeasurementsStarted := true } s.mQmiMask).2

/-- `stopFix`, as far as it is about events. -/
def stopFix (ok : Bool) (s : State w) : State w :=
  let s := { s with mInSession := false }
  -- without an engine-on there will be no engine-off to wait for
  if !s.mEngineOn then (registerEventMask ok s s.mQmiMask).2 else s

/-- `setPositionMode`; `isInSession` is the answer of `LocApiBase`. -/
def setPositionMode (isInSession ok : Bool) (s : State w) : State w :=
  if isInSession then startFix ok s else s

/-- `MsgUpdateEngineState::proc`. -/
def updateEngineState (ok engineOn : Bool) (s : State w) : State w :=
  let s :=
    if s.mEngineOn && !s.mInSession && !engineOn then (registerEventMask ok s s.mQmiMask).2 else s
  { s with mEngineOn := engineOn }

/-- `updateRegistrationMask`; `isEnabled` is `LOC_REGISTRATION_MASK_ENABLED`. -/
def updateRegistrationMask (ok : Bool) (s : State w) (event : BitVec w) (isEnabled : Bool) :
    Err × State w :=
  openMask bits ok s (if isEnabled then s.mMask ||| event else s.mMask &&& ~~~event)

/-! ### Registration and the session -/

/-- What the adapter asks for, and the messages about the engine, in any order. -/
inductive Action (w : ℕ)
  | open (mask : BitVec w)
  | close
  | startFix
  | stopFix
  | setPositionMode (isInSession : Bool)
  | engineState (engineOn : Bool)

/-- One action, with all service requests succeeding. -/
def step (s : State w) : Action w → State w
  | .open mask => (openMask bits true s mask).2
  | .close => (close true s).2
  | .startFix => startFix true s
  | .stopFix => stopFix true s
  | .setPositionMode isInSession => setPositionMode isInSession true s
  | .engineState engineOn => updateEngineState true engineOn s

/-- During a session the registered mask is `mQmiMask`; with neither a session nor the engine on it
is `mQmiMask` without the session events. -/
structure FollowsSession (s : State w) : Prop where
  inSession : ∀ mask, s.client = some mask → s.mInSession = true → mask = s.mQmiMask
  noSession : ∀ mask, s.client = some mask → s.mInSession = false → s.mEngineOn = false →
    mask = adjustMaskForNoSession s.mQmiMask

/-- A client is opened during a session only if its mask has no session events. -/
def OpensOutside (s : State w) : Action w → Prop
  | .open mask => s.client = none → s.mInSession = true →
    adjustMaskForNoSession (convertMask bits (newMask s mask)) = convertMask bits (newMask s mask)
  | _ => True

section Registration

variable {bits} {s : State w}

/-- The mask that is registered in a state. -/
def sessionMask (s : State w) (q : BitVec 64) : BitVec 64 :=
  if s.mInSession then q else adjustMaskForNoSession q

/-- A registration that succeeds replaces the mask of the open client. -/
theorem registerEventMask_true (s : State w) (q : BitVec 64) :
    registerEventMask true s q =
      (s.client.isSome, { s with client := s.client.map fun _ => sessionMask s q }) := by
  obtain ⟨mMask, mExcludedMask, mQmiMask, mInSession, mEngineOn, mMeasurementsStarted, client⟩ := s
  cases client <;> rfl

/-- Where the mask has just been registered it is the one for the state. -/
theorem followsSession_of_client {client : Option (BitVec 64)}
    (h : ∀ mask, client = some mask → mask = sessionMask s s.mQmiMask) :
    FollowsSession { s with client := client } := by
  constructor
  · intro mask hmask hin
    have hin' : s.mInSession = true := hin
    rw [h mask hmask, sessionMask, hin']
    rfl
  · intro mask hmask hin _
    have hin' : s.mInSession = false := hin
    rw [h mask hmask, sessionMask, hin']
    rfl

theorem followsSession_register (s : State w) :
    FollowsSession (registerEventMask true s s.mQmiMask).2 := by
  rw [registerEventMask_true]
  refine followsSession_of_client fun mask hmask => ?_
  obtain ⟨-, -, rfl⟩ := Option.map_eq_some_iff.1 hmask
  rfl

/-- An `open` that finds a client. -/
theorem followsSession_open_client {m : BitVec 64} (h : FollowsSession s) (hc : s.client = some m)
    (mask : BitVec w) : FollowsSession (openMask bits true s mask).2 := by
  unfold openMask
  simp only [hc, registerEventMask_true, Option.isSome_some, if_true]
  split_ifs with hnew
  · refine followsSession_of_client (s := { s with
      mMask := newMask s mask, mQmiMask := convertMask bits (newMask s mask) }) fun mask' hmask' =>
        ?_
    exact (Option.some.inj hmask').symm
  · exact h

/-- An `open` that makes a client: the mask is the one for no session. -/
theorem followsSession_open_none (hc : s.client = none) (mask : BitVec w) :
    FollowsSession (openMask bits true s mask).2 ↔ OpensOutside bits s (.open mask) := by
  unfold openMask OpensOutside
  simp only [hc, forall_const, if_true]
  constructor
  · intro h hin
    exact h.inSession _ rfl hin
  · intro h
    constructor
    · rintro m hm hin
      cases hm
      exact h hin
    · rintro m hm - -
      cases hm
      rfl

/-- The end of a session registers at once, or leaves it to the end of the engine. -/
theorem followsSession_stopFix (s : State w) : FollowsSession (stopFix true s) := by
  unfold stopFix
  simp only
  split_ifs with hon
  · exact followsSession_register _
  · refine ⟨nofun, fun mask hmask hin hoff => ?_⟩
    have hoff' : s.mEngineOn = false := hoff
    rw [hoff'] at hon
    exact absurd rfl hon

/-- A message about the engine: the end of the engine makes up for a session that ended before it.
-/
theorem followsSession_engineState (h : FollowsSession s) (engineOn : Bool) :
    FollowsSession (updateEngineState true engineOn s) := by
  unfold updateEngineState
  simp only
  split_ifs with hoff
  · have hreg := followsSession_register s
    rw [registerEventMask_true] at hreg ⊢
    rw [Bool.and_eq_true, Bool.and_eq_true, Bool.not_eq_true'] at hoff
    refine ⟨hreg.inSession, fun mask hmask hin _ => ?_⟩
    obtain ⟨-, -, rfl⟩ := Option.map_eq_some_iff.1 hmask
    rw [sessionMask, hoff.1.2]
    rfl
  · refine ⟨h.inSession, fun mask hmask hin heng => ?_⟩
    have heng' : engineOn = false := heng
    have hin' : s.mInSession = false := hin
    cases hon : s.mEngineOn with
    | false => exact h.noSession mask hmask hin hon
    | true =>
      rw [hon, hin', heng'] at hoff
      exact absurd rfl hoff

/-- An action keeps the registration in step exactly if it does not open a client with session
events during a session. -/
theorem followsSession_step (h : FollowsSession s) (a : Action w) :
    FollowsSession (step bits s a) ↔ OpensOutside bits s a := by
  cases a with
  | «open» mask =>
    cases hc : s.client with
    | none => exact followsSession_open_none hc mask
    | some m =>
      refine iff_of_true (followsSession_open_client h hc mask) ?_
      intro hnone
      rw [hc] at hnone
      cases hnone
  | close => exact iff_of_true ⟨nofun, nofun⟩ trivial
  | startFix => exact iff_of_true (followsSession_register _) trivial
  | stopFix => exact iff_of_true (followsSession_stopFix s) trivial
  | setPositionMode isInSession =>
    refine iff_of_true ?_ trivial
    cases isInSession with
    | false => exact h
    | true => exact followsSession_register _
  | engineState engineOn => exact iff_of_true (followsSession_engineState h engineOn) trivial

theorem followsSession_initial (exMask : BitVec w) : FollowsSession (initial exMask) :=
  ⟨nofun, nofun⟩

end Registration

/-- For every sequence of actions, the registered mask follows the session in every state reached
exactly if no client is opened with session events during a session. -/
theorem registration_follows_session_iff (exMask : BitVec w) (as : List (Action w)) :
    (∀ pre, pre <+: as → FollowsSession (pre.foldl (step bits) (initial exMask))) ↔
      ∀ pre a, pre ++ [a] <+: as → OpensOutside bits (pre.foldl (step bits) (initial exMask)) a :=
  always_iff (followsSession_initial exMask) (fun _ a h => followsSession_step h a) as

end

/-- Adapter bits one after the other. -/
def sampleBits (b : AdapterBit) : BitVec 32 := 1 <<< AdapterBit.all.idxOf b

/-- A service restart in the middle of a session: the position report stays unregistered. -/
theorem reopened_not_registered : ∃ s, s = [Action.open 1, .startFix, .close, .open 1].foldl
    (step sampleBits) (initial 0) ∧ s.mInSession = true ∧ s.mQmiMask = 1 ∧ s.client = some 0 ∧
    ¬FollowsSession s := by
  refine ⟨_, rfl, by decide, by decide, by decide, ?_⟩
  intro h
  have heq := h.inSession 0 (by decide) (by decide)
  revert heq
  decide

/-! ### Subscriptions -/

section

variable {w : ℕ} (bits : AdapterBit → BitVec w)

/-- A call about subscriptions. -/
inductive Call (w : ℕ)
  | updateRegistrationMask (event : BitVec w) (isEnabled : Bool)
  | open (mask : BitVec w)

/-- One call, with all service requests succeeding. -/
def call (s : State w) : Call w → Err × State w
  | .updateRegistrationMask event isEnabled => updateRegistrationMask bits true s event isEnabled
  | .open mask => openMask bits true s mask

/-- What a call says about bit `i`: enabled, disabled or nothing. -/
def Call.writes (i : ℕ) : Call w → Option Bool
  | .updateRegistrationMask event isEnabled => if event.getLsbD i then some isEnabled else none
  | .open mask => if mask.getLsbD i then some true else none

/-- What the last call that mentioned bit `i` said. -/
def lastWriter (i : ℕ) (cs : List (Call w)) : Option Bool := cs.reverse.findSome? (Call.writes i)

/-- The bits of `mMask`, but for excluded ones, are those that were enabled by their last writer. -/
structure LastWriterWins (s : State w) (cs : List (Call w)) : Prop where
  mMask : ∀ i, s.mExcludedMask.getLsbD i = false →
    (s.mMask.getLsbD i = true ↔ lastWriter i cs = some true)
  mQmiMask : s.mQmiMask = convertMask bits s.mMask

/-- The call disables no event that is enabled. -/
def DisablesNone (s : State w) (cs : List (Call w)) : Call w → Prop
  | .updateRegistrationMask event false => ∀ i, s.mExcludedMask.getLsbD i = false →
    event.getLsbD i = true → lastWriter i cs ≠ some true
  | _ => True

section Subscriptions

variable {bits} {s : State w}

theorem convertMask_zero : convertMask bits 0 = 0 := by
  unfold convertMask
  simp [AdapterBit.all]

theorem lastWriter_concat (i : ℕ) (cs : List (Call w)) (c : Call w) :
    lastWriter i (cs ++ [c]) = (c.writes i).or (lastWriter i cs) := by
  unfold lastWriter
  rw [List.reverse_concat, List.findSome?_cons]
  cases c.writes i <;> rfl

/-- With a service that takes every request, `open` merges the mask and succeeds. -/
theorem openMask_true (s : State w) (mask : BitVec w) :
    (openMask bits true s mask).1 = .success ∧
      (openMask bits true s mask).2.mMask = newMask s mask ∧
      (openMask bits true s mask).2.mExcludedMask = s.mExcludedMask ∧
      (s.mQmiMask = convertMask bits s.mMask →
        (openMask bits true s mask).2.mQmiMask = convertMask bits (newMask s mask)) := by
  unfold openMask
  cases hc : s.client with
  | none => exact ⟨rfl, rfl, rfl, fun _ => rfl⟩
  | some m =>
    simp only [registerEventMask_true, hc, Option.isSome_some, if_true]
    split_ifs with hnew
    · exact ⟨rfl, rfl, rfl, fun _ => rfl⟩
    · rw [ne_eq, not_not] at hnew
      exact ⟨rfl, hnew.symm, rfl, fun h => by rw [hnew, h]⟩

/-- The mask that a call hands to `open`. -/
def Call.mask (s : State w) : Call w → BitVec w
  | .updateRegistrationMask event isEnabled => if isEnabled then s.mMask ||| event
      else s.mMask &&& ~~~event
  | .open mask => mask

theorem call_eq (s : State w) (c : Call w) : call bits s c = openMask bits true s (c.mask s) := by
  cases c <;> rfl

/-- Every call succeeds. -/
theorem call_success (s : State w) (c : Call w) : (call bits s c).1 = .success := by
  rw [call_eq]
  exact (openMask_true s _).1

/-- A call enables the bits it names for enabling, and keeps the others. -/
theorem getLsbD_call {i : ℕ} (hi : s.mExcludedMask.getLsbD i = false) (c : Call w) :
    (call bits s c).2.mMask.getLsbD i = (s.mMask.getLsbD i || c.writes i == some true) := by
  have hlt : ∀ m : BitVec w, (m.getLsbD i && (decide (i < w) && !false)) = m.getLsbD i := by
    intro m
    cases h : m.getLsbD i with
    | false => rfl
    | true => simp [BitVec.lt_of_getLsbD h]
  rw [call_eq, (openMask_true s _).2.1, newMask, BitVec.getLsbD_or, BitVec.getLsbD_and,
    BitVec.getLsbD_not, hi, hlt]
  cases c with
  | «open» mask => cases h : mask.getLsbD i <;> simp [Call.mask, Call.writes, h]
  | updateRegistrationMask event isEnabled =>
    cases isEnabled <;> cases hm : s.mMask.getLsbD i <;> cases h : event.getLsbD i <;>
      simp [Call.mask, Call.writes, hm, h]

/-- A call keeps subscriptions last-writer-wins exactly if it disables no event that is enabled. -/
theorem lastWriterWins_call {cs : List (Call w)} (h : LastWriterWins bits s cs) (c : Call w) :
    LastWriterWins bits (call bits s c).2 (cs ++ [c]) ↔ DisablesNone s cs c := by
  have hex : (call bits s c).2.mExcludedMask = s.mExcludedMask := by
    rw [call_eq]
    exact (openMask_true s _).2.2.1
  have hqmi : (call bits s c).2.mQmiMask = convertMask bits (call bits s c).2.mMask := by
    rw [call_eq, (openMask_true s _).2.1]
    exact (openMask_true s _).2.2.2 h.mQmiMask
  have hbit : ∀ i, s.mExcludedMask.getLsbD i = false →
      (((call bits s c).2.mMask.getLsbD i = true ↔ lastWriter i (cs ++ [c]) = some true) ↔
        (c.writes i = some false → lastWriter i cs ≠ some true)) := by
    intro i hi
    rw [getLsbD_call hi, lastWriter_concat, Bool.or_eq_true, h.mMask i hi]
    rcases c.writes i with _ | _ | _ <;> simp
  have hall : LastWriterWins bits (call bits s c).2 (cs ++ [c]) ↔
      ∀ i, s.mExcludedMask.getLsbD i = false → c.writes i = some false →
        lastWriter i cs ≠ some true := by
    constructor
    · intro h' i hi
      exact (hbit i hi).1 (h'.mMask i (hex ▸ hi))
    · intro h'
      refine ⟨fun i hi => ?_, hqmi⟩
      rw [hex] at hi
      exact (hbit i hi).2 (h' i hi)
  rw [hall]
  cases c with
  | «open» mask => simp [DisablesNone, Call.writes]
  | updateRegistrationMask event isEnabled => cases isEnabled <;> simp [DisablesNone, Call.writes]

theorem lastWriterWins_initial (exMask : BitVec w) : LastWriterWins bits (initial exMask) [] := by
  constructor
  · intro i _
    simp [initial, lastWriter]
  · exact convertMask_zero.symm

end Subscriptions

/-- For every sequence of calls, subscriptions are last-writer-wins after each of them exactly if no
call disables an event that is enabled. -/
theorem last_writer_wins_iff (exMask : BitVec w) (cs : List (Call w)) :
    (∀ pre, pre <+: cs →
      LastWriterWins bits (pre.foldl (fun s c => (call bits s c).2) (initial exMask)) pre) ↔
    ∀ pre c, pre ++ [c] <+: cs →
      DisablesNone (pre.foldl (fun s c => (call bits s c).2) (initial exMask)) pre c :=
  always_history_iff (lastWriterWins_initial exMask) (fun _ _ c h => lastWriterWins_call h c) cs

end

/-- Position reports are enabled and then disabled, both with success: they are still in the mask.
-/
theorem disabled_stays : ∃ s s' : State 32,
    call sampleBits (initial 0) (.updateRegistrationMask 1 true) = (.success, s) ∧
    call sampleBits s (.updateRegistrationMask 1 false) = (.success, s') ∧ s'.mMask = 1 ∧
    ¬LastWriterWins sampleBits s' [.updateRegistrationMask 1 true,
      .updateRegistrationMask 1 false] := by
  refine ⟨_, _, rfl, rfl, by decide, ?_⟩
  intro h
  have hbit := (h.mMask 0 (by decide)).1 (by decide)
  revert hbit
  decide

end LocApi

end Msm8909w
