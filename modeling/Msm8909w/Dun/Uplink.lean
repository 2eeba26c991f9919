import Msm8909w.Dun.Downlink

/-!
# The uplink of the dial-up networking service

Three pieces of `BluetoothDunService.java` write to the socket of the DUN daemon: the uplink thread
forwards what it reads from RFCOMM, `notifyModemStatus` reports the modem status and `disconnect`
asks for a disconnection.  Each builds the header of its message in a buffer of its own; the uplink
thread swaps the bytes of the length, as the downlink thread does, and the other two do not.

* `step_stream` : the bytes each action writes,
* `stream_of_run` : the bytes of a whole run, as the messages it sends,
* `oneFraming_iff` : the stream decodes to these messages exactly if all of them are requests.
-/

namespace Msm8909w

namespace Dun

namespace Uplink

/-! ### The writers -/

/-- `disconnect` and `notifyModemStatus`: a message of `size` bytes, of which the first is `msg`. -/
def smallMsg (type : UInt8) (size : ℕ) (msg : UInt8) : Bytes :=
  let IpcMsgBuffer : Buffer UInt8 := fun _ => 0
  (((IpcMsgBuffer.put DUN_IPC_MSG_OFF_MSG_TYPE [type]).putShort DUN_IPC_MSG_OFF_MSG_LEN size).put
    DUN_IPC_MSG_OFF_MSG [msg]).get 0 (DUN_IPC_HEADER_SIZE + size)

/-- What `disconnect` writes. -/
def disconnect : Bytes :=
  smallMsg DUN_IPC_MSG_CTRL_REQUEST DUN_IPC_CTRL_MSG_SIZE DUN_CRTL_MSG_DISCONNECT_REQ

/-- What `notifyModemStatus` writes. -/
def notifyModemStatus (status : UInt8) : Bytes :=
  smallMsg DUN_IPC_MSG_MDM_STATUS DUN_IPC_MDM_STATUS_MSG_SIZE status

/-- The uplink thread reads from RFCOMM, or is about to write what it read. -/
inductive Point
  | reading
  | writing
  deriving DecidableEq, Repr

structure State where
  point : Point
  IpcMsgBuffer : Buffer UInt8
  NumRead : ℕ
  /-- Everything written to the daemon. -/
  stream : Bytes

def start : State :=
  { point := .reading, IpcMsgBuffer := fun _ => 0, NumRead := 0, stream := [] }

/-- The uplink thread reads and writes; a notification and a disconnect request may come at any
time.  The thread makes one of the latter itself when RFCOMM is at its end. -/
inductive Action
  | read (data : Bytes)
  | write
  | notifyModemStatus (status : UInt8)
  | disconnect
  deriving DecidableEq, Repr

/-- The buffer with the header in front of what was read. -/
def withHeader (s : State) : Buffer UInt8 :=
  ((s.IpcMsgBuffer.put DUN_IPC_MSG_OFF_MSG_TYPE [DUN_IPC_MSG_DUN_REQUEST]).putShort
    DUN_IPC_MSG_OFF_MSG_LEN s.NumRead).swap DUN_IPC_MSG_OFF_MSG_LEN

/-- One action; each write is atomic. -/
def step (s : State) : Action → Option State
  | .read data =>
    if s.point = .reading ∧ data.length ≤ DUN_MAX_MSG_LEN then
      some { s with
        point := if data = [] then .reading else .writing
        IpcMsgBuffer := s.IpcMsgBuffer.put DUN_IPC_MSG_OFF_MSG data
        NumRead := data.length }
    else none
  | .write =>
    if s.point = .writing then
      some { s with
        point := .reading
        IpcMsgBuffer := withHeader s
        stream := s.stream ++ (withHeader s).get 0 (s.NumRead + DUN_IPC_HEADER_SIZE) }
    else none
  | .notifyModemStatus status => some { s with stream := s.stream ++ notifyModemStatus status }
  | .disconnect => some { s with stream := s.stream ++ disconnect }

/-! ### What is sent -/

/-- What the thread has read and not written yet. -/
def State.pending (s : State) : Bytes :=
  match s.point with
  | .reading => []
  | .writing => s.IpcMsgBuffer.get DUN_IPC_MSG_OFF_MSG s.NumRead

/-- The messages the actions are to send, `pending` being what has been read before. -/
def messages : Bytes → List Action → List Frame
  | _, [] => []
  | _, .read data :: as => messages data as
  | pending, .write :: as => ⟨DUN_IPC_MSG_DUN_REQUEST, pending⟩ :: messages [] as
  | pending, .notifyModemStatus status :: as =>
    ⟨DUN_IPC_MSG_MDM_STATUS, [status]⟩ :: messages pending as
  | pending, .disconnect :: as =>
    ⟨DUN_IPC_MSG_CTRL_REQUEST, [DUN_CRTL_MSG_DISCONNECT_REQ]⟩ :: messages pending as

/-- The bytes the actions read from RFCOMM. -/
def rfcommInput (as : List Action) : Bytes :=
  as.flatMap fun
    | .read data => data
    | _ => []

/-- The payloads of the requests. -/
def requests (ms : List Frame) : Bytes :=
  (ms.filter (·.tag = DUN_IPC_MSG_DUN_REQUEST)).flatMap (·.payload)

/-- The daemon can decode what was written, to the messages that were sent; their requests are the
input from RFCOMM but for what is still to be written. -/
def OneFraming (as : List Action) (t : State) : Prop :=
  decodeFrames lenWidth t.stream = some (messages [] as) ∧
    requests (messages [] as) ++ t.pending = rfcommInput as

/-- A message as it is written: only requests have a little-endian length. -/
def rawFrame (m : Frame) : Bytes :=
  if m.tag = DUN_IPC_MSG_DUN_REQUEST then m.encode lenWidth
  else m.tag :: (toLE lenWidth m.payload.length).reverse ++ m.payload

variable {s t : State} {a : Action} {as : List Action}

theorem disconnect_eq :
    disconnect = rawFrame ⟨DUN_IPC_MSG_CTRL_REQUEST, [DUN_CRTL_MSG_DISCONNECT_REQ]⟩ := by
  decide

theorem notifyModemStatus_eq (status : UInt8) :
    notifyModemStatus status = rawFrame ⟨DUN_IPC_MSG_MDM_STATUS, [status]⟩ := rfl

theorem pending_of_writing (h : s.point = .writing) :
    s.pending = s.IpcMsgBuffer.get 3 s.NumRead := by
  simp only [State.pending, h, DUN_IPC_MSG_OFF_MSG]

/-- The request is written as the downlink would read it. -/
theorem get_withHeader (h : s.point = .writing) :
    (withHeader s).get 0 (s.NumRead + DUN_IPC_HEADER_SIZE) =
      rawFrame ⟨DUN_IPC_MSG_DUN_REQUEST, s.pending⟩ := by
  rw [pending_of_writing h, rawFrame, if_pos rfl, Nat.add_comm]
  exact get_frame

theorem pending_of_read {data : Bytes} (h : step s (.read data) = some t) :
    s.pending = [] ∧ t.pending = data ∧ t.stream = s.stream := by
  rw [step] at h
  split_ifs at h with hc hd
  · obtain rfl := Option.some.inj h
    exact ⟨by rw [State.pending, hc.1], hd.symm, rfl⟩
  · obtain rfl := Option.some.inj h
    exact ⟨by rw [State.pending, hc.1], Buffer.get_put_same, rfl⟩

theorem pending_of_write (h : step s .write = some t) :
    s.point = .writing ∧ t.pending = [] ∧
      t.stream = s.stream ++ rawFrame ⟨DUN_IPC_MSG_DUN_REQUEST, s.pending⟩ := by
  rw [step] at h
  split_ifs at h with hp
  obtain rfl := Option.some.inj h
  exact ⟨hp, rfl, congrArg (s.stream ++ ·) (get_withHeader hp)⟩

/-- The bytes each action writes are those of the messages it is to send. -/
theorem step_stream (as : List Action) (h : step s a = some t) :
    messages s.pending (a :: as) = messages s.pending [a] ++ messages t.pending as ∧
      t.stream = s.stream ++ (messages s.pending [a]).flatMap rawFrame := by
  cases a with
  | read data =>
    obtain ⟨-, htp, hts⟩ := pending_of_read h
    rw [htp, hts]
    exact ⟨rfl, (List.append_nil _).symm⟩
  | write =>
    obtain ⟨-, htp, hts⟩ := pending_of_write h
    rw [htp, hts]
    exact ⟨rfl, by rw [messages, messages, List.flatMap_singleton]⟩
  | notifyModemStatus status =>
    obtain rfl := Option.some.inj h
    refine ⟨rfl, ?_⟩
    rw [messages, messages, List.flatMap_singleton, ← notifyModemStatus_eq]
  | disconnect =>
    obtain rfl := Option.some.inj h
    refine ⟨rfl, ?_⟩
    rw [messages, messages, List.flatMap_singleton, ← disconnect_eq]

/-- The bytes of a run are those of the messages it is to send. -/
theorem stream_of_run {G : State → Action → Prop} (h : Run step G s as t) :
    t.stream = s.stream ++ (messages s.pending as).flatMap rawFrame := by
  induction h with
  | nil s => exact (List.append_nil _).symm
  | @cons s u t a as hG hs _ ih =>
    obtain ⟨hm, hts⟩ := step_stream as hs
    rw [ih, hts, hm, List.flatMap_append, List.append_assoc]

theorem requests_of_run {G : State → Action → Prop} (h : Run step G s as t) :
    requests (messages s.pending as) ++ t.pending = s.pending ++ rfcommInput as := by
  induction h with
  | nil s => exact (List.append_nil _).symm
  | @cons s u t a as hG hs _ ih =>
    cases a with
    | read data =>
      obtain ⟨hsp, hup, -⟩ := pending_of_read hs
      rw [hup] at ih
      rw [hsp, messages, ih]
      rfl
    | write =>
      obtain ⟨-, hup, -⟩ := pending_of_write hs
      rw [hup] at ih
      rw [messages, requests, List.filter_cons, if_pos (decide_eq_true rfl), List.flatMap_cons,
        List.append_assoc]
      exact congrArg (s.pending ++ ·) ih
    | notifyModemStatus status =>
      obtain rfl := Option.some.inj hs
      exact ih
    | disconnect =>
      obtain rfl := Option.some.inj hs
      exact ih

/-! ### What the daemon reads -/

/-- Only the uplink thread sends requests. -/
def Action.isRequest : Action → Bool
  | .read _ => true
  | .write => true
  | .notifyModemStatus _ => false
  | .disconnect => false

/-- The messages of a run fit into the length field, and those that are not requests have one
byte. -/
theorem length_of_run {G : State → Action → Prop} (h : Run step G s as t)
    (hs : s.pending.length ≤ DUN_MAX_MSG_LEN) :
    ∀ m ∈ messages s.pending as, m.payload.length ≤ DUN_MAX_MSG_LEN ∧
      (m.tag ≠ DUN_IPC_MSG_DUN_REQUEST → m.payload.length = 1) := by
  induction h with
  | nil s => exact fun m hm => absurd hm List.not_mem_nil
  | @cons s u t a as hG hstep _ ih =>
    cases a with
    | read data =>
      have hdata : data.length ≤ DUN_MAX_MSG_LEN := by
        by_contra hlt
        simp [step, hlt] at hstep
      obtain ⟨-, hup, -⟩ := pending_of_read hstep
      rw [hup] at ih
      exact ih hdata
    | write =>
      obtain ⟨-, hup, -⟩ := pending_of_write hstep
      rw [hup] at ih
      exact List.forall_mem_cons.2 ⟨⟨hs, fun hne => absurd rfl hne⟩, ih (Nat.zero_le _)⟩
    | notifyModemStatus status =>
      obtain rfl := Option.some.inj hstep
      exact List.forall_mem_cons.2 ⟨⟨(by decide : 1 ≤ DUN_MAX_MSG_LEN), fun _ => rfl⟩, ih hs⟩
    | disconnect =>
      obtain rfl := Option.some.inj hstep
      exact List.forall_mem_cons.2 ⟨⟨(by decide : 1 ≤ DUN_MAX_MSG_LEN), fun _ => rfl⟩, ih hs⟩

theorem forall_request_iff (p : Bytes) (as : List Action) :
    (∀ m ∈ messages p as, m.tag = DUN_IPC_MSG_DUN_REQUEST) ↔ ∀ a ∈ as, a.isRequest := by
  induction as generalizing p with
  | nil =>
      exact ⟨fun _ a ha => absurd ha List.not_mem_nil, fun _ m hm => absurd hm List.not_mem_nil⟩
  | cons a as ih =>
    rw [List.forall_mem_cons]
    cases a with
    | read data => simp [messages, ih, Action.isRequest]
    | write => simp [messages, ih, Action.isRequest]
    | notifyModemStatus status =>
      have : DUN_IPC_MSG_MDM_STATUS ≠ DUN_IPC_MSG_DUN_REQUEST := by decide
      simp [messages, Action.isRequest, this]
    | disconnect =>
      have : DUN_IPC_MSG_CTRL_REQUEST ≠ DUN_IPC_MSG_DUN_REQUEST := by decide
      simp [messages, Action.isRequest, this]

@[simp] theorem length_rawFrame (m : Frame) : (rawFrame m).length = m.size lenWidth := by
  rw [rawFrame]
  split_ifs
  · exact Frame.length_encode
  · simp only [List.cons_append, List.length_cons, List.length_append, List.length_reverse,
      length_toLE, Frame.size]
    omega

/-- A message of one byte with a big-endian length is another one for the daemon. -/
theorem rawFrame_eq_encode_iff {m : Frame}
    (hm : m.tag ≠ DUN_IPC_MSG_DUN_REQUEST → m.payload.length = 1) :
    rawFrame m = m.encode lenWidth ↔ m.tag = DUN_IPC_MSG_DUN_REQUEST := by
  by_cases htag : m.tag = DUN_IPC_MSG_DUN_REQUEST
  · exact iff_of_true (if_pos htag) htag
  · refine iff_of_false (fun h => ?_) htag
    rw [rawFrame, if_neg htag, Frame.encode, Frame.header, hm htag] at h
    simp [toLE] at h

theorem flatMap_rawFrame_eq_iff {ms : List Frame}
    (hms : ∀ m ∈ ms, m.tag ≠ DUN_IPC_MSG_DUN_REQUEST → m.payload.length = 1) :
    ms.flatMap rawFrame = encodeFrames lenWidth ms ↔
      ∀ m ∈ ms, m.tag = DUN_IPC_MSG_DUN_REQUEST := by
  induction ms with
  | nil => exact iff_of_true rfl fun m hm => absurd hm List.not_mem_nil
  | cons m ms ih =>
    rw [List.forall_mem_cons] at hms ⊢
    rw [encodeFrames, List.flatMap_cons, List.flatMap_cons, ← rawFrame_eq_encode_iff hms.1,
      ← ih hms.2]
    -- both have the same length, message by message
    refine ⟨fun h => ?_, fun h => congrArg₂ (· ++ ·) h.1 h.2⟩
    exact List.append_inj h (by rw [length_rawFrame, Frame.length_encode])

/-- The daemon can decode what was written exactly if only requests were. -/
theorem oneFraming_iff (h : Run step (fun _ _ => True) start as t) :
    OneFraming as t ↔ ∀ a ∈ as, a.isRequest := by
  have hlen := length_of_run h (Nat.zero_le _)
  have hreq := requests_of_run h
  have hstream := stream_of_run h
  rw [show start.pending = [] from rfl] at hlen hreq hstream
  have hwidth : ∀ m ∈ messages [] as, m.payload.length < 256 ^ lenWidth := fun m hm =>
    lt_of_le_of_lt (hlen m hm).1 (by decide)
  rw [OneFraming, decodeFrames_eq_some_iff hwidth, hstream, start, List.nil_append,
    flatMap_rawFrame_eq_iff fun m hm => (hlen m hm).2, forall_request_iff]
  exact and_iff_left hreq

/-- Two requests, the second forwarded in a second buffer load. -/
def sampleActions : List Action := [.read [65, 66], .write, .read [67], .write]

theorem oneFraming_two_requests :
    ∃ t, t.stream = [0, 2, 0, 65, 66, 0, 1, 0, 67] ∧ OneFraming sampleActions t := by
  have hexec : (exec step (fun _ _ => True) start sampleActions).map State.stream =
      some [0, 2, 0, 65, 66, 0, 1, 0, 67] := by decide
  obtain ⟨t, ht, hout⟩ := exists_run_of_exec hexec
  exact ⟨t, hout, (oneFraming_iff ht).2 (by decide)⟩

/-- A disconnect request between two requests: the daemon reads a message of 256 bytes. -/
theorem disconnect_not_decoded :
    ∃ t, Run step (fun _ _ => True) start [.read [65], .write, .disconnect, .read [66], .write] t ∧
      decodeFrames lenWidth t.stream = none := by
  refine exists_run_of_exec ?_
  decide

end Uplink

end Dun

end Msm8909w
