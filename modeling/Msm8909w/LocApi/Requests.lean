import Msm8909w.LocSync.SyncReq

/-!
# Requests to the location service

What one request comes to, for the functions of `LocApiV02.cpp` that send them.  The modem, and the
other threads that share the slots of `loc_api_sync_req.c`, answer as they like: what happens during
a request is an input (`Sending`, `Exchange`).  The requests themselves are well formed, so that
`validateRequest` lets them through.

* `locClientSendReq`, `locSyncSendReq` : a request without and with an indication to wait for,
* `convertErr` : the error that the adapter gets to see.

`locSyncSendReq` is the view of one call: that such a call goes through the steps of
`LocSync.step` is not repeated here.
-/

namespace Msm8909w

namespace LocApi

open LocSync (Status waitStatus)

/-! ### Sending a request -/

/-- The error of a response whose result is not `QMI_RESULT_SUCCESS_V01`. -/
inductive QmiErr
  | malformedMsg
  | invalidArg
  | deviceInUse
  | notSupported
  | other
  deriving DecidableEq, Repr

/-- The response to a request. -/
inductive Resp
  | success
  | error (err : QmiErr)
  deriving DecidableEq, Repr

/-- `convertQmiResponseToLocStatus`. -/
def convertQmiResponseToLocStatus : Resp → Status
  | .success => .success
  | .error .malformedMsg | .error .invalidArg => .failureInvalidParameter
  | .error .deviceInUse => .failureEngineBusy
  | .error .notSupported => .failureUnsupported
  | .error .other => .failureInternal

/-- What comes of `qmi_client_send_msg_sync`. -/
inductive Sending
  /-- `QMI_SERVICE_ERR`. -/
  | serviceErr
  /-- Any other error. -/
  | sendErr
  | answered (resp : Resp)
  deriving DecidableEq, Repr

/-- `locClientSendReq`; `isOpen` says that the handle is valid. -/
def locClientSendReq (isOpen : Bool) (sending : Sending) : Status :=
  if !isOpen then .failureInvalidHandle
  else match sending with
    | .serviceErr => .failurePhoneOffline
    | .sendErr => .failureInternal
    | .answered resp => convertQmiResponseToLocStatus resp

theorem convertQmiResponseToLocStatus_eq_success {resp : Resp} :
    convertQmiResponseToLocStatus resp = .success ↔ resp = .success := by
  rcases resp with _ | err
  · simp [convertQmiResponseToLocStatus]
  · cases err <;> simp [convertQmiResponseToLocStatus]

/-- A request succeeds exactly if it was sent and the response says success. -/
theorem locClientSendReq_eq_success {isOpen : Bool} {sending : Sending} :
    locClientSendReq isOpen sending = .success ↔ isOpen = true ∧ sending = .answered .success := by
  cases isOpen with
  | false => simp [locClientSendReq]
  | true => cases sending <;> simp [locClientSendReq, convertQmiResponseToLocStatus_eq_success]

/-- No request that only has to be acknowledged times out. -/
theorem locClientSendReq_ne_timeout (isOpen : Bool) (sending : Sending) :
    locClientSendReq isOpen sending ≠ .failureTimeout := by
  cases isOpen with
  | false => simp [locClientSendReq]
  | true =>
    rcases sending with _ | _ | _ | err
    · simp [locClientSendReq]
    · simp [locClientSendReq]
    · simp [locClientSendReq, convertQmiResponseToLocStatus]
    · cases err <;> simp [locClientSendReq, convertQmiResponseToLocStatus]

/-! ### Waiting for an indication -/

/-- `qmiLocStatusEnumT_v02`, the status in an indication. -/
inductive QmiStatus
  | success
  | generalFailure
  | unsupported
  | invalidParameter
  | engineBusy
  | phoneOffline
  | timeout
  | configNotSupported
  | insufficientMemory
  | maxGeofenceProgrammed
  | xtraVersionCheckFailure
  deriving DecidableEq, Repr

/-- What happens during a call of `loc_sync_send_req` that waits for an indication of type `ι`. -/
structure Exchange (ι : Type) where
  /-- `loc_sync_select_ind` finds a slot. -/
  selected : Bool
  sending : Sending
  /-- The result of `loc_sync_wait_for_ind`. -/
  waited : ℤ
  /-- The indication that is copied into the buffer of the call as long as it has its slot. -/
  copied : Option ι
  deriving DecidableEq, Repr

section Exchange

variable {ι : Type} {isOpen : Bool} {e : Exchange ι}

/-- `loc_sync_send_req`: the status, and the buffer of the indication. -/
def locSyncSendReq (isOpen : Bool) (e : Exchange ι) (ind : ι) : Status × ι :=
  if e.selected then
    let status := locClientSendReq isOpen e.sending
    (if status ≠ .success then status else waitStatus e.waited, e.copied.getD ind)
  else (.success, ind)

/-- The indication that the call finds in its buffer. -/
def Exchange.received (e : Exchange ι) : Option ι := if e.selected then e.copied else none

/-- The request was sent and acknowledged. -/
def Exchange.Acknowledged (isOpen : Bool) (e : Exchange ι) : Prop :=
  e.selected = true ∧ locClientSendReq isOpen e.sending = .success

/-- The request was acknowledged, and no indication came in time. -/
def Exchange.TimedOut (isOpen : Bool) (e : Exchange ι) : Prop :=
  e.Acknowledged isOpen ∧ e.waited = -LocSync.eTIMEDOUT

instance (isOpen : Bool) (e : Exchange ι) : Decidable (e.Acknowledged isOpen) :=
  inferInstanceAs (Decidable (_ ∧ _))

instance (isOpen : Bool) (e : Exchange ι) : Decidable (e.TimedOut isOpen) :=
  inferInstanceAs (Decidable (_ ∧ _))

theorem waitStatus_eq_success {rc : ℤ} : waitStatus rc = .success ↔ 0 ≤ rc := by
  rw [waitStatus]
  split_ifs with hneg htime
  · simp [hneg]
  · simp [hneg]
  · simp [not_lt.1 hneg]

theorem waitStatus_eq_timeout {rc : ℤ} :
    waitStatus rc = .failureTimeout ↔ rc = -LocSync.eTIMEDOUT := by
  rw [waitStatus]
  split_ifs with hneg htime
  · simp [htime]
  · simp [htime]
  · have hne : rc ≠ -LocSync.eTIMEDOUT := by
      intro heq
      rw [heq] at hneg
      exact hneg (by decide)
    simp [hne]

/-- The buffer: what was copied into it, if the call had a slot. -/
theorem locSyncSendReq_ind (ind : ι) :
    (locSyncSendReq isOpen e ind).2 = if e.selected then e.copied.getD ind else ind := by
  rw [locSyncSendReq]
  split_ifs <;> rfl

theorem locSyncSendReq_received (ind : ι) :
    (locSyncSendReq isOpen e ind).2 = e.received.getD ind := by
  rw [locSyncSendReq_ind, Exchange.received]
  split_ifs <;> rfl

/-- A call reports success if it found no slot, or if the request was acknowledged and the wait
ended well. -/
theorem locSyncSendReq_eq_success {ind : ι} :
    (locSyncSendReq isOpen e ind).1 = .success ↔
      e.selected = false ∨ e.Acknowledged isOpen ∧ 0 ≤ e.waited := by
  simp only [locSyncSendReq, Exchange.Acknowledged]
  split_ifs with hsel hsent
  · simp [hsel, hsent]
  · simp [hsel, not_not.1 hsent, waitStatus_eq_success]
  · simp [hsel]

/-- A call reports a timeout exactly if its request timed out. -/
theorem locSyncSendReq_eq_timeout {ind : ι} :
    (locSyncSendReq isOpen e ind).1 = .failureTimeout ↔ e.TimedOut isOpen := by
  simp only [locSyncSendReq, Exchange.TimedOut, Exchange.Acknowledged]
  split_ifs with hsel hsent
  · simp [hsent, locClientSendReq_ne_timeout]
  · simp [hsel, not_not.1 hsent, waitStatus_eq_timeout]
  · simp [hsel]

end Exchange

/-! ### The error of the adapter -/

/-- `loc_api_adapter_err`, as far as requests return it. -/
inductive AdapterErr
  | success
  | generalFailure
  | unsupported
  | invalidParameter
  | engineBusy
  | phoneOffline
  | timeout
  | invalidHandle
  | serviceNotPresent
  | internal
  | failure
  deriving DecidableEq, Repr

/-- `convertErr`. -/
def convertErr : Status → AdapterErr
  | .success => .success
  | .failureGeneral => .generalFailure
  | .failureUnsupported => .unsupported
  | .failureInvalidParameter => .invalidParameter
  | .failureEngineBusy => .engineBusy
  | .failurePhoneOffline => .phoneOffline
  | .failureTimeout => .timeout
  | .failureInvalidHandle => .invalidHandle
  | .failureServiceNotPresent => .serviceNotPresent
  | .failureInternal => .internal
  | _ => .failure

@[simp] theorem convertErr_eq_success {status : Status} :
    convertErr status = .success ↔ status = .success := by
  cases status <;> simp [convertErr]

end LocApi

end Msm8909w
