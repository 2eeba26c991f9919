import Msm8909w.LocApi.LocApiV02
import Msm8909w.LocApi.Requests

/-!
# Starting a fix

`startFix` sets the operation mode and then sends the start request.  An answer to the first request
that never comes is forgiven.  The session counts as running before anything is sent, and the
status of the indication decides about the second request but not about the result.

* `Fix.startFix`, `Fix.setPositionMode` : the code, with the requests that leave the client,
* `Fix.state_startFix` : the masks are those of `LocApi.startFix`,
* `Fix.reportsStart_iff` : a fix that is reported as started was started, and an error leaves the
  session as it was, exactly if the mode is not refused by an indication, no wait ends with
  nothing, and without a session no request fails.

`LocPosMode` is declared outside the repository; here it has the fields that `startFix` reads.
-/

namespace Msm8909w

namespace LocApi

open LocSync (Status)

namespace Fix

/-! ### The criteria and the requests -/

/-- `fixCriteria.mode`. -/
inductive PositionMode
  | msBased
  | msAssisted
  | reserved4
  | reserved5
  | other
  deriving DecidableEq, Repr

/-- `LocPosMode`; `credentials` and `provider` are arrays. -/
structure LocPosMode where
  mode : PositionMode
  /-- `recurrence` is `GPS_POSITION_RECURRENCE_SINGLE`. -/
  single : Bool
  minInterval : ℕ
  preferredAccuracy : ℤ
  credentials : Bytes
  provider : Bytes
  deriving DecidableEq, Repr

/-- `qmiLocOperModeEnumT_v02`. -/
inductive OperationMode
  | default
  | msb
  | msa
  | standalone
  | cellId
  | wwan
  deriving DecidableEq, Repr

/-- `qmiLocAccuracyLevelEnumT_v02`. -/
inductive AccuracyLevel
  | low
  | med
  | high
  deriving DecidableEq, Repr

/-- `qmiLocFixRecurrenceEnumT_v02`. -/
inductive FixRecurrence
  | periodic
  | single
  deriving DecidableEq, Repr

/-- `qmiLocConfigIncludeAltitudeAssumedInGnssSvInfoEnumT_v02`. -/
inductive ConfigAltitudeAssumed
  | enabled
  | disabled
  deriving DecidableEq, Repr

/-- The names in a `qmiLocApplicationIdStructT_v02`, without the zeros behind them. -/
structure ApplicationId where
  applicationName : Bytes
  applicationProvider : Bytes
  deriving DecidableEq, Repr

/-- `qmiLocStartReqMsgT_v02`; a field that is not valid is `none`. -/
structure StartReq where
  sessionId : ℕ
  minInterval : Option ℕ
  horizontalAccuracyLevel : Option AccuracyLevel
  fixRecurrence : Option FixRecurrence
  applicationId : Option ApplicationId
  configAltitudeAssumed : Option ConfigAltitudeAssumed
  deriving DecidableEq, Repr

inductive Request
  | setOperationMode (operationMode : OperationMode)
  | start (req : StartReq)
  deriving DecidableEq, Repr

/-- `set_mode_msg.operationMode`. -/
def PositionMode.operationMode : PositionMode → OperationMode
  | .msBased => .msb
  | .msAssisted => .msa
  | .reserved4 => .cellId
  | .reserved5 => .wwan
  | .other => .standalone

/-- `start_msg.horizontalAccuracyLevel`. -/
def accuracyLevel (preferredAccuracy : ℤ) : Option AccuracyLevel :=
  if preferredAccuracy ≥ 0 then
    if preferredAccuracy ≤ 100 then some .high
    else if preferredAccuracy ≤ 1000 then some .med
    else some .low
  else none

/-- The bytes that are copied into a field of `size1` bytes, all but the last one. -/
def copyName (size1 : ℕ) (source : Bytes) : Bytes :=
  source.take ((if size1 < source.length then size1 else source.length) - 1)

/-- `start_msg`. -/
def startMsg (fixCriteria : LocPosMode) : StartReq where
  -- `LOC_API_V02_DEF_SESSION_ID`
  sessionId := 1
  minInterval := some fixCriteria.minInterval
  horizontalAccuracyLevel := accuracyLevel fixCriteria.preferredAccuracy
  fixRecurrence := some (if fixCriteria.single then .single else .periodic)
  applicationId :=
    if fixCriteria.credentials.headD 0 ≠ 0 then
      some ⟨copyName 33 fixCriteria.credentials, copyName 25 fixCriteria.provider⟩
    else none
  configAltitudeAssumed := some .disabled

/-! ### Starting -/

/-- What the modem makes of the requests of one call. -/
structure Replies where
  /-- The event mask is registered. -/
  registered : Bool
  mode : Exchange QmiStatus
  start : Sending
  deriving DecidableEq, Repr

/-- What a call returns and leaves behind, and the requests that it handed to `locClientSendReq`,
each with its status. -/
structure Result (w : ℕ) where
  err : AdapterErr
  state : State w
  requests : List (Request × Status)
  deriving DecidableEq, Repr

section

variable {w : ℕ}

/-- `startFix`. -/
def startFix (r : Replies) (s : State w) (fixCriteria : LocPosMode) : Result w :=
  let s := { s with mInSession := true, mMeasurementsStarted := true }
  let s := (registerEventMask r.registered s s.mQmiMask).2
  let isOpen := s.client.isSome
  let (status, ind) := locSyncSendReq isOpen r.mode .success
  let mode := if r.mode.selected then
      [(.setOperationMode fixCriteria.mode.operationMode, locClientSendReq isOpen r.mode.sending)]
    else []
  -- when the status is a timeout, more likely the response was lost
  if (status ≠ .success ∧ status ≠ .failureTimeout) ∨ ind ≠ .success then
    ⟨convertErr status, s, mode⟩
  else
    let status := locClientSendReq isOpen r.start
    ⟨convertErr status, s, mode ++ [(.start (startMsg fixCriteria), status)]⟩

/-- `setPositionMode`; `isInSession` is the answer of `LocApiBase`. -/
def setPositionMode (isInSession : Bool) (r : Replies) (s : State w) (posMode : LocPosMode) :
    Result w :=
  if isInSession then startFix r s posMode else ⟨.success, s, []⟩

/-! ### What success and errors say -/

/-- The modem has accepted the operation mode. -/
def ModeAccepted (isOpen : Bool) (e : Exchange QmiStatus) : Prop :=
  e.Acknowledged isOpen ∧ e.copied = some .success

/-- If the call reports success, the operation mode was accepted, or its answer timed out, and the
start request was sent and acknowledged. -/
def Started (s : State w) (r : Replies) (result : Result w) : Prop :=
  result.err = .success →
    (ModeAccepted s.client.isSome r.mode ∨ r.mode.TimedOut s.client.isSome) ∧
      ∃ req, (.start req, .success) ∈ result.requests

/-- A fix that is reported as started was started, and an error leaves the session as it was. -/
structure ReportsStart (r : Replies) (s : State w) (fixCriteria : LocPosMode) : Prop where
  startFix : Started s r (startFix r s fixCriteria)
  setPositionMode : Started s r (setPositionMode true r s fixCriteria)
  session : (Fix.startFix r s fixCriteria).err ≠ .success →
    (Fix.startFix r s fixCriteria).state.mInSession = s.mInSession

/-- The mode request does not fail, as far as the code looks. -/
def ModePasses (isOpen : Bool) (e : Exchange QmiStatus) : Prop :=
  e.selected = false ∨ e.Acknowledged isOpen ∧
    (0 ≤ e.waited ∨ e.waited = -LocSync.eTIMEDOUT) ∧ ∀ status ∈ e.copied, status = .success

/-- What has to be true of the replies and of the session. -/
structure Favourable (r : Replies) (s : State w) : Prop where
  /-- The mode is not refused by an indication that comes in time. -/
  not_refused : r.mode.Acknowledged s.client.isSome → 0 ≤ r.mode.waited →
    ∀ status ∈ r.mode.copied, status = .success
  /-- If the start request is acknowledged, the mode request was sent and its wait did not end with
  nothing. -/
  not_lost : locClientSendReq s.client.isSome r.start = .success → r.mode.selected = true ∧
    (r.mode.Acknowledged s.client.isSome → 0 ≤ r.mode.waited → r.mode.copied ≠ none)
  /-- Without a session neither request fails. -/
  no_error : s.mInSession = false → ModePasses s.client.isSome r.mode ∧
    locClientSendReq s.client.isSome r.start = .success

variable {r : Replies} {s : State w} {fixCriteria : LocPosMode}

theorem isSome_registerEventMask (ok : Bool) (s : State w) (qmiMask : BitVec 64) :
    (registerEventMask ok s qmiMask).2.client.isSome = s.client.isSome := by
  rw [registerEventMask, locClientRegisterEventMask]
  split
  · rfl
  · next heq => cases ok <;> simp [heq]

theorem mInSession_registerEventMask (ok : Bool) (s : State w) (qmiMask : BitVec 64) :
    (registerEventMask ok s qmiMask).2.mInSession = s.mInSession := by
  rw [registerEventMask, locClientRegisterEventMask]
  split
  · rfl
  · cases ok <;> rfl

/-- The requests do not touch the masks. -/
theorem state_startFix (r : Replies) (s : State w) (fixCriteria : LocPosMode) :
    (startFix r s fixCriteria).state = LocApi.startFix r.registered s := by
  simp only [startFix, LocApi.startFix]
  split_ifs <;> rfl

/-- The session runs after every call, whatever it returns. -/
theorem mInSession_startFix (r : Replies) (s : State w) (fixCriteria : LocPosMode) :
    (startFix r s fixCriteria).state.mInSession = true := by
  rw [state_startFix, LocApi.startFix, mInSession_registerEventMask]

/-- The code goes on to the start request exactly if the mode request passes. -/
theorem modePasses_iff {isOpen : Bool} {e : Exchange QmiStatus} :
    ModePasses isOpen e ↔ ¬ (((locSyncSendReq isOpen e .success).1 ≠ .success ∧
      (locSyncSendReq isOpen e .success).1 ≠ .failureTimeout) ∨
        (locSyncSendReq isOpen e .success).2 ≠ .success) := by
  have hind : (locSyncSendReq isOpen e .success).2 = .success ↔
      e.selected = false ∨ ∀ status ∈ e.copied, status = .success := by
    rw [locSyncSendReq_ind]
    cases e.selected <;> cases e.copied <;> simp
  rw [not_or, not_and_or, not_not, not_not, not_not, hind, locSyncSendReq_eq_success,
    locSyncSendReq_eq_timeout, ModePasses, Exchange.TimedOut, Exchange.Acknowledged]
  cases e.selected <;> simp
  tauto

/-- The result of a call, by whether the mode request passes. -/
theorem startFix_of_passes (fixCriteria : LocPosMode) (h : ModePasses s.client.isSome r.mode) :
    (startFix r s fixCriteria).err = convertErr (locClientSendReq s.client.isSome r.start) ∧
      (.start (startMsg fixCriteria), locClientSendReq s.client.isSome r.start) ∈
        (startFix r s fixCriteria).requests := by
  rw [modePasses_iff] at h
  simp only [startFix, isSome_registerEventMask, if_neg h]
  exact ⟨trivial, List.mem_append_right _ (List.mem_singleton_self _)⟩

theorem startFix_of_not_passes (h : ¬ ModePasses s.client.isSome r.mode) :
    (startFix r s fixCriteria).err =
        convertErr (locSyncSendReq s.client.isSome r.mode .success).1 ∧
      ∀ req status, (.start req, status) ∉ (startFix r s fixCriteria).requests := by
  rw [modePasses_iff, not_not] at h
  simp only [startFix, isSome_registerEventMask, if_pos h]
  refine ⟨trivial, fun req status => ?_⟩
  split_ifs <;> simp

/-- Success behind a mode request that passes: the mode was accepted, or its answer is missing in
time. -/
theorem started_of_favourable (h : Favourable r s) : Started s r (startFix r s fixCriteria) := by
  intro herr
  by_cases hpass : ModePasses s.client.isSome r.mode
  · obtain ⟨heq, hmem⟩ := startFix_of_passes fixCriteria hpass
    rw [heq, convertErr_eq_success] at herr
    rw [herr] at hmem
    refine ⟨?_, _, hmem⟩
    obtain ⟨hsel, hlost⟩ := h.not_lost herr
    rcases hpass with hno | ⟨hack, hin | htime, hall⟩
    · rw [hno] at hsel
      cases hsel
    · obtain ⟨status, hstatus⟩ := Option.ne_none_iff_exists'.1 (hlost hack hin)
      rw [hall status hstatus] at hstatus
      exact .inl ⟨hack, hstatus⟩
    · exact .inr ⟨hack, htime⟩
  · exfalso
    rw [(startFix_of_not_passes hpass).1, convertErr_eq_success, locSyncSendReq_eq_success] at herr
    rcases herr with hno | ⟨hack, hin⟩
    · exact hpass (.inl hno)
    · exact hpass (.inr ⟨hack, .inl hin, h.not_refused hack hin⟩)

theorem reportsStart_of_favourable (h : Favourable r s) : ReportsStart r s fixCriteria where
  startFix := started_of_favourable h
  setPositionMode := started_of_favourable h
  session herr := by
    rw [mInSession_startFix]
    by_contra hfalse
    obtain ⟨hpass, hstart⟩ := h.no_error (Bool.eq_false_iff.2 (Ne.symm hfalse))
    rw [(startFix_of_passes _ hpass).1, hstart] at herr
    exact herr rfl

/-- A call that reports success although the mode request does not pass. -/
theorem not_started_of_not_passes (hpass : ¬ ModePasses s.client.isSome r.mode)
    (herr : (startFix r s fixCriteria).err = .success) :
    ¬ Started s r (startFix r s fixCriteria) := by
  intro h
  obtain ⟨-, req, hreq⟩ := h herr
  exact (startFix_of_not_passes hpass).2 req _ hreq

theorem favourable_of_reportsStart (h : ReportsStart r s fixCriteria) : Favourable r s where
  not_refused hack hin status hcopied := by
    by_contra hne
    have hpass : ¬ ModePasses s.client.isSome r.mode := by
      rintro (hno | ⟨-, -, hall⟩)
      · rw [hack.1] at hno
        cases hno
      · exact hne (hall status hcopied)
    refine not_started_of_not_passes hpass ?_ h.startFix
    rw [(startFix_of_not_passes hpass).1, convertErr_eq_success, locSyncSendReq_eq_success]
    exact .inr ⟨hack, hin⟩
  not_lost hstart := by
    by_cases hpass : ModePasses s.client.isSome r.mode
    · have herr : (startFix r s fixCriteria).err = .success := by
        rw [(startFix_of_passes _ hpass).1, hstart]
        rfl
      rcases (h.startFix herr).1 with ⟨hack, hcopied⟩ | ⟨hack, htime⟩
      · exact ⟨hack.1, fun _ _ => by simp [hcopied]⟩
      · refine ⟨hack.1, fun _ hin => ?_⟩
        rw [htime] at hin
        exact absurd hin (by decide)
    · refine ⟨Bool.eq_true_of_not_eq_false fun hno => hpass (.inl hno), fun hack hin hnone => ?_⟩
      exact hpass (.inr ⟨hack, .inl hin, by simp [hnone]⟩)
  no_error hout := by
    have herr : (startFix r s fixCriteria).err = .success := by
      by_contra herr
      have hsession := h.session herr
      rw [mInSession_startFix, hout] at hsession
      cases hsession
    by_cases hpass : ModePasses s.client.isSome r.mode
    · rw [(startFix_of_passes _ hpass).1, convertErr_eq_success] at herr
      exact ⟨hpass, herr⟩
    · exact absurd h.startFix (not_started_of_not_passes hpass herr)

/-- For every state, all criteria and all replies, a fix that is reported as started was started
and an error leaves the session as it was exactly if the mode is not refused by an indication, no
wait before an acknowledged start ends with nothing, and without a session no request fails. -/
theorem reportsStart_iff (r : Replies) (s : State w) (fixCriteria : LocPosMode) :
    ReportsStart r s fixCriteria ↔ Favourable r s :=
  ⟨favourable_of_reportsStart, reportsStart_of_favourable⟩

end

/-- Periodic fixes, one each second. -/
def everySecond : LocPosMode := ⟨.msBased, false, 1000, 50, [0], [0]⟩

/-- Both requests are acknowledged; `status` is in the indication of the first one. -/
def acknowledged (status : QmiStatus) : Replies :=
  ⟨true, ⟨true, .answered .success, 0, some status⟩, .answered .success⟩

/-- The mode is refused by the indication: no start request is sent, and the result is success. -/
theorem not_reportsStart_acknowledged :
    ¬ ReportsStart (acknowledged .invalidParameter) (openMask sampleBits true (initial 0) 1).2
      everySecond := by
  intro h
  obtain ⟨-, req, hreq⟩ := h.startFix (by decide)
  have hrequests : (startFix (acknowledged .invalidParameter)
      (openMask sampleBits true (initial 0) 1).2 everySecond).requests =
        [(.setOperationMode .msb, .success)] := by
    decide
  rw [hrequests] at hreq
  simp at hreq

end Fix

end LocApi

end Msm8909w
