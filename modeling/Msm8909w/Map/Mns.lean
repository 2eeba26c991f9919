import Mathlib.Data.Finset.Basic
import Msm8909w.Lib.Runs
import Msm8909w.Map.MapUtils

/-!
# The notification service

The handler of `BluetoothMns.java` and the threads around it, as a step function: `none` means that
the step cannot be taken.  The handler takes one message at a time; the threads take their steps in
between, in any order.  The queue of the handler is kept by kind of message: requests are handled in
the order in which they were made and events in the order in which they were posted, and the kinds
overtake each other in any way.

* `Sending` : the events, the flag `mSendingEvent`, and the `SendEventTask`s,
* `Registration` : the session, the instances that wait for it, the clients that are registered, and
  the threads that connect and disconnect,
* `step` : the two together; a timeout of the one disconnects the other.
-/

namespace Msm8909w

namespace Map

namespace Mns

/-! ### Sending -/

/-- What a `MNS_SEND_EVENT` carries. -/
structure Event where
  masId : ℤ
  xml : JString
  deriving DecidableEq, Repr

/-- What a `SendEventTask` does next.  After `sendEventDone` it has no effect any more. -/
inductive TaskPc
  | setTimeout
  | sendEvent
  | hasMessages
  | removeMessages
  | sendEventDone
  | ended
  deriving DecidableEq, Repr

/-- A `SendEventTask` that has been started. -/
structure Task where
  event : Event
  pc : TaskPc
  deriving DecidableEq, Repr

/-- The part of the state that is about sending.  `posted` records the events that were posted, and
`tasks` all tasks in the order of their start. -/
structure Sending where
  posted : List Event
  /-- The messages `MNS_SEND_EVENT` that are not handled yet. -/
  sendEvents : List Event
  /-- The number of messages `MNS_SEND_EVENT_DONE`. -/
  dones : ℕ
  /-- The number of messages `MNS_SEND_TIMEOUT`. -/
  timeouts : ℕ
  mSendingEvent : Bool
  mEventQueue : List Event
  tasks : List Task
  deriving DecidableEq, Repr

namespace Sending

def initial : Sending := ⟨[], [], 0, 0, false, [], []⟩

/-- `new Thread(new SendEventTask(xml, masId)).start()`. -/
def start (s : Sending) (e : Event) : Sending := { s with tasks := s.tasks ++ [⟨e, .setTimeout⟩] }

/-- The next step of a task, with what it does to the messages; a delayed message counts from when
it is sent. -/
def taskStep (s : Sending) : TaskPc → Option (TaskPc × Sending)
  | .setTimeout => some (.sendEvent, { s with timeouts := s.timeouts + 1 })
  | .sendEvent => some (.hasMessages, s)
  | .hasMessages => some (if s.timeouts > 0 then .removeMessages else .ended, s)
  | .removeMessages => some (.sendEventDone, { s with timeouts := 0 })
  | .sendEventDone => some (.ended, { s with dones := s.dones + 1 })
  | .ended => none

inductive Action
  /-- `sendMnsEvent` posts the event. -/
  | post (e : Event)
  | handleSendEvent
  | handleSendEventDone
  | handleSendTimeout
  /-- The task that was started as the `i`-th. -/
  | task (i : ℕ)
  deriving DecidableEq, Repr

/-- One step, as far as it is about sending. -/
def step (s : Sending) : Action → Option Sending
  | .post e => some { s with posted := s.posted ++ [e], sendEvents := s.sendEvents ++ [e] }
  | .handleSendEvent =>
    match s.sendEvents with
    | [] => none
    | e :: es =>
      let s := { s with sendEvents := es }
      some <|
        if s.mSendingEvent then { s with mEventQueue := s.mEventQueue ++ [e] }
        else { s with mSendingEvent := true }.start e
  | .handleSendEventDone =>
    match s.dones with
    | 0 => none
    | n + 1 =>
      let s := { s with dones := n }
      some <|
        match s.mEventQueue with
        | [] => { s with mSendingEvent := false }
        | p :: ps => { s with mEventQueue := ps }.start p
  | .handleSendTimeout =>
    match s.timeouts with
    | 0 => none
    | n + 1 => some { s with timeouts := n }
  | .task i => do
    let t ← s.tasks[i]?
    let (pc, s) ← s.taskStep t.pc
    return { s with tasks := s.tasks.set i { t with pc } }

end Sending

/-! ### Registration -/

/-- A message `MNS_CONNECT` or `MNS_DISCONNECT`. -/
inductive Request
  | connect (masId : ℤ)
  | disconnect (masId : ℤ)
  deriving DecidableEq, Repr

def Request.masId : Request → ℤ
  | .connect masId => masId
  | .disconnect masId => masId

/-- How a `SocketConnectThread` ends: the message it sends. -/
inductive Outcome
  | rfcommConnected
  | rfcommError
  deriving DecidableEq, Repr

/-- What the thread of a `MNS_DISCONNECT` or, with `off`, of a `MNS_BLUETOOTH_OFF` does next. -/
inductive Worker
  | deregister (masId : ℤ)
  | canDisconnect (off : Bool)
  | stop (off : Bool)
  | mnsCleanupInstances
  | ended
  deriving DecidableEq, Repr

/-- The part of the state that is about registration.  `requested` and `handled` record the requests
that were made and handled; `established` has the instances whose last handled request is a
`MNS_CONNECT` and for which the session was established then or later. -/
structure Registration where
  /-- The session, and whether it is connected. -/
  mSession : Option Bool
  mWaitingMasId : Finset ℤ
  /-- The instances whose client has a listener. -/
  registered : Finset ℤ
  connectThreads : ℕ
  outcomes : List Outcome
  workers : List Worker
  /-- The messages `MNS_CONNECT` and `MNS_DISCONNECT` that are not handled yet. -/
  messages : List Request
  requested : List Request
  handled : List Request
  established : Finset ℤ
  deriving DecidableEq

namespace Registration

variable (size : ℕ)

def initial : Registration := ⟨none, ∅, ∅, 0, [], [], [], [], [], ∅⟩

/-- `assertMasid`, for a number of clients. -/
def assertMasid (masId : ℤ) : Bool := 0 ≤ masId ∧ masId < size

/-- `register`.  The listener is set before the content observer is registered, so a client whose
observer throws (`ok = false`) is registered as well. -/
def register (masId : ℤ) (ok : Bool) (s : Registration) : Bool × Registration :=
  if !assertMasid size masId then (false, s)
  else if masId ∈ s.registered then (true, s)
  else (ok, { s with registered := insert masId s.registered })

/-- `deregister`. -/
def deregister (masId : ℤ) (s : Registration) : Registration :=
  if !assertMasid size masId then s else { s with registered := s.registered.erase masId }

/-- `deregisterAll`. -/
def deregisterAll (s : Registration) : Registration := { s with registered := ∅ }

/-- `canDisconnect`. -/
def canDisconnect (s : Registration) : Bool := s.registered = ∅

/-- `stop`. -/
def stop (s : Registration) : Registration := { s with mSession := none }

/-- The request `r` is taken from the queue, and `rs` are left. -/
def taken (r : Request) (rs : List Request) (s : Registration) : Registration :=
  { s with messages := rs, handled := s.handled ++ [r] }

/-- `MNS_CONNECT`. -/
def handleConnect (masId : ℤ) (ok : Bool) (s : Registration) : Registration :=
  if s.mSession = some true then
    let (done, s) := register size masId ok { s with established := insert masId s.established }
    -- failed to register, disconnect
    if done then s else { s with messages := s.messages ++ [.disconnect masId] }
  else
    let s := { s with established := s.established.erase masId }
    if s.mWaitingMasId = ∅ then
      { s with
        mWaitingMasId := insert masId s.mWaitingMasId
        connectThreads := s.connectThreads + 1 }
    else { s with mWaitingMasId := insert masId s.mWaitingMasId }

/-- `MNS_DISCONNECT`. -/
def handleDisconnect (masId : ℤ) (s : Registration) : Registration :=
  { s with workers := s.workers ++ [.deregister masId], established := s.established.erase masId }

/-- `RFCOMM_ERROR`. -/
def handleRfcommError (s : Registration) : Registration :=
  let s := { s.deregisterAll with mWaitingMasId := ∅ }
  if s.canDisconnect then s.stop else s

/-- `RFCOMM_CONNECTED`, with whether the OBEX session is connected then.  The clients of all waiting
instances are registered. -/
def handleRfcommConnected (obex : Bool) (s : Registration) : Registration :=
  { s with
    mSession := some obex
    registered := s.registered ∪ s.mWaitingMasId.filter fun masId => assertMasid size masId
    mWaitingMasId := ∅
    established := if obex then s.established ∪ s.mWaitingMasId else s.established }

/-- The next step of a worker. -/
def workerStep (s : Registration) : Worker → Option (Worker × Registration)
  | .deregister masId => some (.canDisconnect false, s.deregister size masId)
  | .canDisconnect off =>
    some (if s.canDisconnect then .stop off else if off then .mnsCleanupInstances else .ended, s)
  | .stop off => some (if off then .mnsCleanupInstances else .ended, s.stop)
  | .mnsCleanupInstances => some (.ended, s.deregisterAll)
  | .ended => none

inductive Action
  /-- A MAS instance makes a request. -/
  | request (r : Request)
  /-- The handler takes the next request; `ok` says that the content observer does not throw. -/
  | handleRequest (ok : Bool)
  | connectThreadEnds (o : Outcome)
  /-- The handler takes the next outcome of a connection attempt. -/
  | handleOutcome (obex : Bool)
  | handleSessionError
  | handleBluetoothOff
  | worker (i : ℕ)
  deriving DecidableEq, Repr

/-- One step, as far as it is about registration. -/
def step (s : Registration) : Action → Option Registration
  | .request r => some { s with messages := s.messages ++ [r], requested := s.requested ++ [r] }
  | .handleRequest ok =>
    match s.messages with
    | [] => none
    | .connect masId :: rs => some ((s.taken (.connect masId) rs).handleConnect size masId ok)
    | .disconnect masId :: rs => some ((s.taken (.disconnect masId) rs).handleDisconnect masId)
  | .connectThreadEnds o =>
    match s.connectThreads with
    | 0 => none
    | n + 1 => some { s with connectThreads := n, outcomes := s.outcomes ++ [o] }
  | .handleOutcome obex =>
    match s.outcomes with
    | [] => none
    | .rfcommConnected :: os => some ({ s with outcomes := os }.handleRfcommConnected size obex)
    | .rfcommError :: os => some { s with outcomes := os }.handleRfcommError
  | .handleSessionError => some s.deregisterAll.stop
  | .handleBluetoothOff => some { s with workers := s.workers ++ [.canDisconnect true] }
  | .worker i => do
    let w ← s.workers[i]?
    let (w, s) ← s.workerStep size w
    return { s with workers := s.workers.set i w }

end Registration

/-! ### The service -/

structure State where
  registration : Registration
  sending : Sending
  deriving DecidableEq

def State.initial : State := ⟨.initial, .initial⟩

inductive Action
  | registration (a : Registration.Action)
  | sending (a : Sending.Action)
  deriving DecidableEq, Repr

/-- One step; `size` is the number of clients.  `MNS_SEND_TIMEOUT` ends the session. -/
def step (size : ℕ) (s : State) : Action → Option State
  | .registration a => (s.registration.step size a).map fun r => { s with registration := r }
  | .sending a => (s.sending.step a).map fun t =>
    { registration := if a = .handleSendTimeout then s.registration.deregisterAll.stop
      else s.registration
      sending := t }

theorem step_registration {size : ℕ} {s t : State} {a : Registration.Action}
    (h : step size s (.registration a) = some t) :
    s.registration.step size a = some t.registration ∧ t.sending = s.sending := by
  obtain ⟨r, hr, rfl⟩ := Option.map_eq_some_iff.1 h
  exact ⟨hr, rfl⟩

theorem step_sending {size : ℕ} {s t : State} {a : Sending.Action}
    (h : step size s (.sending a) = some t) : s.sending.step a = some t.sending ∧
      (a ≠ .handleSendTimeout → t.registration = s.registration) := by
  obtain ⟨u, hu, rfl⟩ := Option.map_eq_some_iff.1 h
  exact ⟨hu, fun hne => if_neg hne⟩

end Mns

end Map

end Msm8909w
