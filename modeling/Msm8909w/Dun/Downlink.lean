import Msm8909w.Lib.Buffer
import Msm8909w.Lib.Frames
import Msm8909w.Lib.Runs

/-!
# The downlink of the dial-up networking service

The downlink thread of `BluetoothDunService.java` takes messages of the DUN daemon from a local
stream socket and hands them on: the payload of a response goes to the RFCOMM channel, a control
response changes the state of the device and a modem status is passed to its handler.  The thread
reads into a reused buffer, walks over the messages in it with `ReadIndex`, swaps the bytes of each
length in place and, where the last message is not complete, reads once more.

A state of the model is a program point of the thread, its variables, the bytes the socket has
still to deliver and what has been handed on so far.  Each action is one piece of the loop, or one
read of the socket, which returns at least one byte and at most as many as were asked for.

* `inv_step` : what holds between two actions of a run in which no read stops inside a header and
  the second read of a message returns all of the rest,
* `delivered_of_run` : such a run hands on every message, in order, with its own payload.

The two conditions are needed (`lost_in_header`): the thread takes whatever stands in the buffer
for the rest of the header, and what one second read did not return for the rest of the message.
-/

namespace Msm8909w

namespace Dun

/-! ### Messages -/

def DUN_IPC_MSG_DUN_REQUEST : UInt8 := 0x00
def DUN_IPC_MSG_DUN_RESPONSE : UInt8 := 0x01
def DUN_IPC_MSG_CTRL_REQUEST : UInt8 := 0x02
def DUN_IPC_MSG_CTRL_RESPONSE : UInt8 := 0x03
def DUN_IPC_MSG_MDM_STATUS : UInt8 := 0x04

def DUN_CRTL_MSG_DISCONNECT_REQ : UInt8 := 0x00
def DUN_CRTL_MSG_CONNECTED_RESP : UInt8 := 0x01
def DUN_CRTL_MSG_DISCONNECTED_RESP : UInt8 := 0x02

def DUN_IPC_MSG_OFF_MSG_TYPE : ℕ := 0x00
def DUN_IPC_MSG_OFF_MSG_LEN : ℕ := 0x01
def DUN_IPC_MSG_OFF_MSG : ℕ := 0x03

def DUN_MAX_MSG_LEN : ℕ := 32764
def DUN_IPC_HEADER_SIZE : ℕ := 0x03
def DUN_MAX_IPC_MSG_LEN : ℕ := DUN_MAX_MSG_LEN + DUN_IPC_HEADER_SIZE
def DUN_IPC_CTRL_MSG_SIZE : ℕ := 0x01
def DUN_IPC_MDM_STATUS_MSG_SIZE : ℕ := 0x01

/-- The size of the thread's buffer. -/
def bufferSize : ℕ := 2 * DUN_MAX_IPC_MSG_LEN

/-- The width of the length field. -/
abbrev lenWidth : ℕ := 2

/-- A message the daemon may send: control responses and modem states have one byte. -/
def WellFormed (m : Frame) : Prop :=
  m.payload.length ≤ DUN_MAX_MSG_LEN ∧
    (m.tag = DUN_IPC_MSG_CTRL_RESPONSE ∨ m.tag = DUN_IPC_MSG_MDM_STATUS → m.payload.length = 1)

instance (m : Frame) : Decidable (WellFormed m) := by unfold WellFormed; infer_instance

/-- The states `BluetoothProfile` knows that the daemon reports. -/
inductive ProfileState
  | STATE_CONNECTED
  | STATE_DISCONNECTED
  deriving DecidableEq, Repr

/-- What the thread does for a message. -/
inductive Event
  | write (data : Bytes)
  | handleDunDeviceStateChange (state : ProfileState)
  | handleModemStatusChange (status : UInt8)
  deriving DecidableEq, Repr

/-- What a control response with byte `b` leads to. -/
def ctrlEvents (b : UInt8) : List Event :=
  if b = DUN_CRTL_MSG_CONNECTED_RESP then [.handleDunDeviceStateChange .STATE_CONNECTED]
  else if b = DUN_CRTL_MSG_DISCONNECTED_RESP then [.handleDunDeviceStateChange .STATE_DISCONNECTED]
  else []

/-- What is to be done for a message. -/
def handled (m : Frame) : List Event :=
  if m.tag = DUN_IPC_MSG_DUN_RESPONSE then [.write m.payload]
  else if m.tag = DUN_IPC_MSG_CTRL_RESPONSE then m.payload.flatMap ctrlEvents
  else if m.tag = DUN_IPC_MSG_MDM_STATUS then m.payload.map .handleModemStatusChange
  else []

/-- The bytes written to RFCOMM. -/
def rfcommBytes (es : List Event) : Bytes :=
  es.flatMap fun
    | .write data => data
    | _ => []

/-! ### The thread -/

/-- Where the thread stands: in the read at the head of the outer loop, at the start of the body
of the inner loop, in the read of the rest of a message, or before the message is handed on.
`closed` is the end of the thread, `dead` its end by an index out of bounds. -/
inductive Point
  | main
  | head
  | rest
  | dispatch
  | closed
  | dead
  deriving DecidableEq, Repr

structure State where
  point : Point
  /-- The bytes the socket has not delivered yet. -/
  stream : Bytes
  IpcMsgBuffer : Buffer UInt8
  NumRead : ℕ
  ReadIndex : ℕ
  MsgLen : ℤ
  out : List Event

/-- Where the message under `ReadIndex` ends. -/
def State.msgEnd (s : State) : ℤ := s.ReadIndex + s.MsgLen + DUN_IPC_HEADER_SIZE

/-- The thread starts with an empty buffer. -/
def start (stream : Bytes) : State :=
  { point := .main, stream, IpcMsgBuffer := fun _ => 0, NumRead := 0, ReadIndex := 0, MsgLen := 0,
    out := [] }

/-- A read returns `n` bytes, reports the end of the stream or fails; `go` is everything else, and
`writeFails` the write to RFCOMM where it fails. -/
inductive Action
  | read (n : ℕ)
  | eof
  | readFails
  | go
  | writeFails
  deriving DecidableEq, Repr

/-- Swap the bytes of the length, as the buffer is big-endian, and take it. -/
def swapLen (s : State) : State :=
  let IpcMsgBuffer := s.IpcMsgBuffer.swap (s.ReadIndex + DUN_IPC_MSG_OFF_MSG_LEN)
  { s with
    IpcMsgBuffer
    MsgLen := IpcMsgBuffer.getShort (s.ReadIndex + DUN_IPC_MSG_OFF_MSG_LEN) }

/-- Take the length of the message under `ReadIndex` and see if the message is complete. -/
def goHead (s : State) : State :=
  if s.ReadIndex + DUN_IPC_MSG_OFF_MSG_LEN + 1 < bufferSize then
    if (swapLen s).msgEnd > s.NumRead then
      -- the second read is refused if the rest does not fit into the buffer
      if (swapLen s).msgEnd ≤ bufferSize then { swapLen s with point := .rest }
      else { swapLen s with point := .dead }
    else { swapLen s with point := .dispatch }
  else { s with point := .dead }

/-- What is done for the message under `ReadIndex`; `none` is an index out of bounds. -/
def dispatch (s : State) : Option (List Event) :=
  let type := s.IpcMsgBuffer (s.ReadIndex + DUN_IPC_MSG_OFF_MSG_TYPE)
  let msg := s.IpcMsgBuffer (s.ReadIndex + DUN_IPC_MSG_OFF_MSG)
  if type = DUN_IPC_MSG_DUN_RESPONSE then
    let len := s.IpcMsgBuffer.getShort (s.ReadIndex + DUN_IPC_MSG_OFF_MSG_LEN)
    if 0 ≤ len ∧ s.ReadIndex + DUN_IPC_MSG_OFF_MSG + len ≤ bufferSize then
      some [.write (s.IpcMsgBuffer.get (s.ReadIndex + DUN_IPC_MSG_OFF_MSG) len.toNat)]
    else none
  else if type = DUN_IPC_MSG_CTRL_RESPONSE then
    if s.ReadIndex + DUN_IPC_MSG_OFF_MSG < bufferSize then some (ctrlEvents msg) else none
  else if type = DUN_IPC_MSG_MDM_STATUS then
    if s.ReadIndex + DUN_IPC_MSG_OFF_MSG < bufferSize then some [.handleModemStatusChange msg]
    else none
  else some []

/-- Go on with the next message of the buffer, or with the next read. -/
def advance (s : State) : State :=
  if 0 < s.msgEnd ∧ s.msgEnd < s.NumRead then
    { s with point := .head, ReadIndex := s.msgEnd.toNat }
  else { s with point := .main, ReadIndex := 0 }

/-- Hand the message on and go on. -/
def goDispatch (s : State) : State :=
  match dispatch s with
  | some es => advance { s with out := s.out ++ es }
  | none => { s with point := .dead }

/-- The bytes of a read go to the buffer, to the given place. -/
def fill (s : State) (off n : ℕ) : State :=
  { s with
    IpcMsgBuffer := s.IpcMsgBuffer.put off (s.stream.take n)
    stream := s.stream.drop n
    NumRead := off + n }

/-- One action of `DownlinkThread.run`. -/
def step (s : State) : Action → Option State
  | .read n =>
    if 0 < n ∧ n ≤ s.stream.length then
      match s.point with
      | .main =>
        if n ≤ DUN_MAX_IPC_MSG_LEN then some { fill s 0 n with point := .head } else none
      | .rest =>
        if n ≤ s.msgEnd - s.NumRead then some { fill s s.NumRead n with point := .dispatch }
        else none
      | _ => none
    else none
  | .eof =>
    match s.point with
    | .main => some { s with point := .closed }
    -- the end of the stream in the second read only leaves the inner loop
    | .rest => some { s with point := .main, ReadIndex := 0 }
    | _ => none
  | .readFails =>
    match s.point with
    | .main => some { s with point := .closed }
    | .rest => some { s with point := .closed, ReadIndex := 0 }
    | _ => none
  | .go =>
    match s.point with
    | .head => some (goHead s)
    | .dispatch => some (goDispatch s)
    | _ => none
  | .writeFails =>
    match s.point with
    | .dispatch =>
      if s.IpcMsgBuffer (s.ReadIndex + DUN_IPC_MSG_OFF_MSG_TYPE) = DUN_IPC_MSG_DUN_RESPONSE then
        some { s with point := .closed, ReadIndex := 0 }
      else none
    | _ => none

/-! ### What holds between two actions -/

/-- The condition on the reads: the read of the outer loop does not stop inside a header of the
messages `ms` and the second read of a message returns all of the rest.  No read or write fails. -/
def WholeReads (ms : List Frame) (s : State) : Action → Prop
  | .read n =>
    (s.point = .main →
      endsInHeader lenWidth ms ((encodeFrames lenWidth ms).length - s.stream.length + n) = false) ∧
    (s.point = .rest → (n : ℤ) = s.msgEnd - s.NumRead)
  | .go => True
  | _ => False

instance (ms : List Frame) (s : State) (a : Action) : Decidable (WholeReads ms s a) := by
  cases a <;> unfold WholeReads <;> infer_instance

/-- The buffer from `off` on and the stream hold the messages `todo`, and the buffer does not end
inside a header. -/
structure Window (s : State) (off : ℕ) (todo : List Frame) : Prop where
  le : off ≤ s.NumRead
  bytes : s.IpcMsgBuffer.get off (s.NumRead - off) ++ s.stream = encodeFrames lenWidth todo
  cut : endsInHeader lenWidth todo (s.NumRead - off) = false

/-- The header under `ReadIndex` is that of `m`, with its length swapped. -/
structure Current (s : State) (m : Frame) : Prop where
  tag : s.IpcMsgBuffer s.ReadIndex = m.tag
  len : s.IpcMsgBuffer.getShort (s.ReadIndex + 1) = m.payload.length
  msgLen : s.MsgLen = m.payload.length

structure AtMain (s : State) (todo : List Frame) : Prop where
  index : s.ReadIndex = 0
  stream : s.stream = encodeFrames lenWidth todo

structure AtHead (s : State) (todo : List Frame) : Prop where
  lt : s.ReadIndex < s.NumRead
  le : s.NumRead ≤ DUN_MAX_IPC_MSG_LEN
  window : Window s s.ReadIndex todo

structure AtRest (s : State) (m : Frame) (todo : List Frame) : Prop where
  current : Current s m
  header : s.ReadIndex + 3 ≤ s.NumRead
  lt : s.NumRead < s.ReadIndex + 3 + m.payload.length
  le : s.NumRead ≤ DUN_MAX_IPC_MSG_LEN
  bytes : s.IpcMsgBuffer.get (s.ReadIndex + 3) (s.NumRead - (s.ReadIndex + 3)) ++ s.stream =
    m.payload ++ encodeFrames lenWidth todo

structure AtDispatch (s : State) (m : Frame) (todo : List Frame) : Prop where
  current : Current s m
  payload : s.IpcMsgBuffer.get (s.ReadIndex + 3) m.payload.length = m.payload
  bound : s.ReadIndex + 3 + m.payload.length ≤ bufferSize
  le : s.ReadIndex + 3 + m.payload.length < s.NumRead → s.NumRead ≤ DUN_MAX_IPC_MSG_LEN
  window : Window s (s.ReadIndex + 3 + m.payload.length) todo

/-- Which messages are still to be handed on, and where their bytes are. -/
def PointInv (s : State) (todo : List Frame) : Prop :=
  match s.point with
  | .main => AtMain s todo
  | .head => AtHead s todo
  | .rest => ∃ m ms, todo = m :: ms ∧ AtRest s m ms
  | .dispatch => ∃ m ms, todo = m :: ms ∧ AtDispatch s m ms
  | .closed => False
  | .dead => False

/-- The messages are handed on or still to be handed on. -/
def Inv (ms : List Frame) (s : State) : Prop :=
  ∃ done todo, ms = done ++ todo ∧ s.out = done.flatMap handled ∧ PointInv s todo

variable {ms todo : List Frame} {m : Frame} {s t : State} {a : Action} {n off : ℕ}

theorem inv_start (ms : List Frame) : Inv ms (start (encodeFrames lenWidth ms)) :=
  ⟨[], ms, rfl, rfl, rfl, rfl⟩

/-- The bytes of a read stand in the buffer, and the rest in the stream. -/
theorem get_fill (off : ℕ) (h : n ≤ s.stream.length) :
    (fill s off n).IpcMsgBuffer.get off n ++ (fill s off n).stream = s.stream := by
  have hlen : (s.stream.take n).length = n := by rw [List.length_take]; omega
  have hget : (s.IpcMsgBuffer.put off (s.stream.take n)).get off n = s.stream.take n := by
    have hsame : (s.IpcMsgBuffer.put off (s.stream.take n)).get off (s.stream.take n).length =
        s.stream.take n := Buffer.get_put_same
    rwa [hlen] at hsame
  simp only [fill, hget, List.take_append_drop]

theorem atHead_of_read (h : AtMain s todo) (hn : 0 < n) (hle : n ≤ s.stream.length)
    (hmax : n ≤ DUN_MAX_IPC_MSG_LEN) (hcut : endsInHeader lenWidth todo n = false) :
    AtHead { fill s 0 n with point := .head } todo where
  lt := by simpa only [fill, h.index, Nat.zero_add] using hn
  le := by simpa only [fill, Nat.zero_add] using hmax
  window := by
    have hfill := get_fill 0 hle
    constructor
    · simp only [fill, h.index, Nat.zero_le]
    · simpa only [fill, h.index, Nat.zero_add, Nat.sub_zero, h.stream] using hfill
    · simpa only [fill, h.index, Nat.zero_add, Nat.sub_zero] using hcut

/-- Nothing is left in the buffer. -/
theorem window_of_numRead (hnum : s.NumRead = off) (h : s.stream = encodeFrames lenWidth todo) :
    Window s off todo := by
  have hnone : s.NumRead - off = 0 := Nat.sub_eq_zero_of_le hnum.le
  refine ⟨hnum.ge, ?_, ?_⟩
  · rw [hnone]
    exact h
  · rw [hnone]
    exact endsInHeader_zero

/-- The header of the first message stands under `ReadIndex`. -/
theorem Window.header (h : Window s off (m :: todo)) (hlt : off < s.NumRead) :
    off + 3 ≤ s.NumRead ∧ s.IpcMsgBuffer off = m.tag ∧
      [s.IpcMsgBuffer (off + 1), s.IpcMsgBuffer (off + 2)] = toLE 2 m.payload.length ∧
      s.IpcMsgBuffer.get (off + 3) (s.NumRead - (off + 3)) ++ s.stream =
        m.payload ++ encodeFrames lenWidth todo := by
  have h3 : 1 + 2 ≤ s.NumRead - off := le_of_not_endsInHeader h.cut (by omega)
  have hsplit : s.NumRead - off = s.NumRead - (off + 3) + 1 + 1 + 1 := by omega
  have hb := h.bytes
  rw [hsplit, Buffer.get_succ, Buffer.get_succ, Buffer.get_succ, encodeFrames_cons, Frame.header,
    List.cons_append, List.cons_append, List.cons_append, List.cons_append,
    List.cons.injEq] at hb
  obtain ⟨htag, hb⟩ := hb
  have hpair : [s.IpcMsgBuffer (off + 1), s.IpcMsgBuffer (off + 2)] ++
      (s.IpcMsgBuffer.get (off + 3) (s.NumRead - (off + 3)) ++ s.stream) =
      toLE 2 m.payload.length ++ (m.payload ++ encodeFrames lenWidth todo) := hb
  obtain ⟨hlen, hrest⟩ := List.append_inj hpair (by rw [length_toLE]; rfl)
  exact ⟨by omega, htag, hlen, hrest⟩

theorem Current.msgEnd (h : Current s m) :
    s.msgEnd = (s.ReadIndex + 3 + m.payload.length : ℕ) := by
  simp only [State.msgEnd, h.msgLen, DUN_IPC_HEADER_SIZE]
  omega

/-- A complete header is read as it was sent. -/
theorem current_swapLen (htag : s.IpcMsgBuffer s.ReadIndex = m.tag)
    (hlen : [s.IpcMsgBuffer (s.ReadIndex + 1), s.IpcMsgBuffer (s.ReadIndex + 2)] =
      toLE 2 m.payload.length) (hm : m.payload.length ≤ DUN_MAX_MSG_LEN) :
    Current (swapLen s) m := by
  have hv := shortOf_toLE hlen.symm (by rw [DUN_MAX_MSG_LEN] at hm; omega)
  have hshort : (swapLen s).IpcMsgBuffer.getShort (s.ReadIndex + 1) = m.payload.length := by
    simpa only [swapLen, DUN_IPC_MSG_OFF_MSG_LEN, Buffer.getShort, Buffer.swap_apply_left,
      Buffer.swap_apply_right] using hv
  exact ⟨(Buffer.swap_apply_of_lt (Nat.lt_succ_self _)).trans htag, hshort, hshort⟩

theorem get_swapLen (len : ℕ) (h : s.ReadIndex + 3 ≤ off) :
    (swapLen s).IpcMsgBuffer.get off len = s.IpcMsgBuffer.get off len :=
  Buffer.get_swap_of_le h

theorem goHead_inv (h : AtHead s (m :: todo)) (hm : m.payload.length ≤ DUN_MAX_MSG_LEN) :
    PointInv (goHead s) (m :: todo) := by
  obtain ⟨h3, htag, hlen, hbytes⟩ := h.window.header h.lt
  have hcur := current_swapLen htag hlen hm
  have hend : (swapLen s).msgEnd = (s.ReadIndex + 3 + m.payload.length : ℕ) := hcur.msgEnd
  have hle : s.NumRead ≤ 32767 := h.le
  have hm' : m.payload.length ≤ 32764 := hm
  have hfit : s.ReadIndex + 3 + m.payload.length ≤ 65534 := by omega
  have hgo : goHead s = if s.NumRead < s.ReadIndex + 3 + m.payload.length then
      { swapLen s with point := .rest } else { swapLen s with point := .dispatch } := by
    have hi : s.ReadIndex + DUN_IPC_MSG_OFF_MSG_LEN + 1 < bufferSize :=
      show s.ReadIndex + 1 + 1 < 65534 by omega
    have hfit' : (swapLen s).msgEnd ≤ bufferSize := by
      rw [hend]
      exact Int.ofNat_le.2 hfit
    rw [goHead, if_pos hi, if_pos hfit', hend]
    simp only [gt_iff_lt, Int.ofNat_lt]
  by_cases hlt : s.NumRead < s.ReadIndex + 3 + m.payload.length
  · rw [hgo, if_pos hlt]
    have hget := get_swapLen (s.NumRead - (s.ReadIndex + 3)) (le_refl (s.ReadIndex + 3))
    exact ⟨m, todo, rfl, ⟨hcur.tag, hcur.len, hcur.msgLen⟩, h3, hlt, h.le,
      (congrArg (· ++ s.stream) hget).trans hbytes⟩
  · rw [hgo, if_neg hlt]
    -- the payload and the messages behind it are in the buffer
    have hsplit : s.NumRead - (s.ReadIndex + 3) =
        m.payload.length + (s.NumRead - (s.ReadIndex + 3 + m.payload.length)) := by omega
    rw [hsplit, Buffer.get_add, List.append_assoc] at hbytes
    obtain ⟨hpay, hrest⟩ := List.append_inj hbytes Buffer.length_get
    refine ⟨m, todo, rfl, ⟨hcur.tag, hcur.len, hcur.msgLen⟩, (get_swapLen _ le_rfl).trans hpay,
      hfit, fun _ => h.le, Nat.le_of_not_lt hlt, ?_, ?_⟩
    · have hget := get_swapLen (s.NumRead - (s.ReadIndex + 3 + m.payload.length))
        (Nat.le_add_right (s.ReadIndex + 3) m.payload.length)
      exact (congrArg (· ++ s.stream) hget).trans hrest
    · have hcut := h.window.cut
      have hsize : s.NumRead - s.ReadIndex =
          m.size 2 + (s.NumRead - (s.ReadIndex + 3 + m.payload.length)) := by
        rw [Frame.size]
        omega
      rw [hsize, endsInHeader_cons_add] at hcut
      exact hcut

/-- The rest of a message, read in one piece, completes it. -/
theorem atDispatch_of_read (h : AtRest s m todo) (hm : m.payload.length ≤ DUN_MAX_MSG_LEN)
    (hn : (n : ℤ) = s.msgEnd - s.NumRead) :
    AtDispatch { fill s s.NumRead n with point := .dispatch } m todo := by
  have hlt := h.lt
  have hhead := h.header
  have hle : s.NumRead ≤ 32767 := h.le
  have hm' : m.payload.length ≤ 32764 := hm
  have hnum : s.NumRead + n = s.ReadIndex + 3 + m.payload.length := by
    rw [h.current.msgEnd] at hn
    omega
  have hbytes := h.bytes
  have hstream : n ≤ s.stream.length := by
    have hl := congrArg List.length hbytes
    simp only [List.length_append, Buffer.length_get] at hl
    omega
  have htake : (s.stream.take n).length = n := by rw [List.length_take]; omega
  have hfill := get_fill s.NumRead hstream
  have hold : (fill s s.NumRead n).IpcMsgBuffer.get (s.ReadIndex + 3)
      (s.NumRead - (s.ReadIndex + 3)) =
      s.IpcMsgBuffer.get (s.ReadIndex + 3) (s.NumRead - (s.ReadIndex + 3)) :=
    Buffer.get_put_of_disjoint (.inl (by omega))
  have hget : (fill s s.NumRead n).IpcMsgBuffer.get (s.ReadIndex + 3) m.payload.length ++
      (fill s s.NumRead n).stream = m.payload ++ encodeFrames lenWidth todo := by
    have hsplit : m.payload.length = (s.NumRead - (s.ReadIndex + 3)) + n := by omega
    conv_lhs => rw [hsplit]
    rw [Buffer.get_add, hold, show s.ReadIndex + 3 + (s.NumRead - (s.ReadIndex + 3)) = s.NumRead by
      omega, List.append_assoc, hfill]
    exact hbytes
  obtain ⟨hpay, hrest⟩ := List.append_inj hget Buffer.length_get
  have hbelow {i : ℕ} (hi : i < s.NumRead) :
      (fill s s.NumRead n).IpcMsgBuffer i = s.IpcMsgBuffer i := Buffer.put_apply_of_lt hi
  have hcur : Current { fill s s.NumRead n with point := .dispatch } m := by
    have h0 := hbelow (i := s.ReadIndex) (by omega)
    have h1 := hbelow (i := s.ReadIndex + 1) (by omega)
    have h2 := hbelow (i := s.ReadIndex + 1 + 1) (by omega)
    exact ⟨h0.trans h.current.tag, (congrArg₂ shortOf h1 h2).trans h.current.len, h.current.msgLen⟩
  refine ⟨hcur, hpay, ?_, fun hlt' => absurd hlt' (Nat.not_lt.2 hnum.le),
    window_of_numRead hnum hrest⟩
  show s.ReadIndex + 3 + m.payload.length ≤ 65534
  omega

/-- A complete message is handed on as it was sent. -/
theorem dispatch_eq (h : AtDispatch s m todo) (hm : WellFormed m) :
    dispatch s = some (handled m) := by
  have htag : s.IpcMsgBuffer (s.ReadIndex + DUN_IPC_MSG_OFF_MSG_TYPE) = m.tag := h.current.tag
  have hlen : s.IpcMsgBuffer.getShort (s.ReadIndex + DUN_IPC_MSG_OFF_MSG_LEN) = m.payload.length :=
    h.current.len
  have hbound := h.bound
  -- messages of one byte have it right behind the header
  have hone (hc : m.payload.length = 1) :
      m.payload = [s.IpcMsgBuffer (s.ReadIndex + DUN_IPC_MSG_OFF_MSG)] ∧
        s.ReadIndex + DUN_IPC_MSG_OFF_MSG < bufferSize := by
    have hpay := h.payload
    rw [hc] at hpay hbound
    exact ⟨hpay.symm, hbound⟩
  rw [dispatch, handled, htag]
  by_cases h1 : m.tag = DUN_IPC_MSG_DUN_RESPONSE
  · have hfit : (0 : ℤ) ≤ m.payload.length ∧
        (s.ReadIndex : ℤ) + DUN_IPC_MSG_OFF_MSG + m.payload.length ≤ bufferSize :=
      ⟨Int.natCast_nonneg _, by exact_mod_cast hbound⟩
    rw [if_pos h1, if_pos h1, hlen]
    simp only [if_pos hfit, Int.toNat_natCast, Option.some.injEq, List.cons.injEq,
      Event.write.injEq, and_true]
    exact h.payload
  · rw [if_neg h1, if_neg h1]
    by_cases h2 : m.tag = DUN_IPC_MSG_CTRL_RESPONSE
    · obtain ⟨hpay, hlt⟩ := hone (hm.2 (.inl h2))
      rw [if_pos h2, if_pos h2, if_pos hlt, hpay, List.flatMap_singleton]
    · rw [if_neg h2, if_neg h2]
      by_cases h3 : m.tag = DUN_IPC_MSG_MDM_STATUS
      · obtain ⟨hpay, hlt⟩ := hone (hm.2 (.inr h3))
        rw [if_pos h3, if_pos h3, if_pos hlt, hpay, List.map_singleton]
      · rw [if_neg h3, if_neg h3]

theorem advance_inv (h : AtDispatch s m todo) : PointInv (advance s) todo := by
  have hend := h.current.msgEnd
  have hwin := h.window
  by_cases hlt : s.ReadIndex + 3 + m.payload.length < s.NumRead
  · have hc : 0 < s.msgEnd ∧ s.msgEnd < s.NumRead := by omega
    have hnat : s.msgEnd.toNat = s.ReadIndex + 3 + m.payload.length := by omega
    rw [advance, if_pos hc, hnat]
    exact ⟨hlt, h.le hlt, hwin.le, hwin.bytes, hwin.cut⟩
  · have hc : ¬ (0 < s.msgEnd ∧ s.msgEnd < s.NumRead) := by omega
    have hnum : s.NumRead - (s.ReadIndex + 3 + m.payload.length) = 0 := by omega
    have hbytes := hwin.bytes
    rw [hnum] at hbytes
    rw [advance, if_neg hc]
    exact ⟨rfl, hbytes⟩

theorem AtDispatch.set_out (h : AtDispatch s m todo) (es : List Event) :
    AtDispatch { s with out := es } m todo :=
  ⟨⟨h.current.tag, h.current.len, h.current.msgLen⟩, h.payload, h.bound, h.le,
    ⟨h.window.le, h.window.bytes, h.window.cut⟩⟩

@[simp] theorem advance_out : (advance s).out = s.out := by
  rw [advance]
  split_ifs <;> rfl

@[simp] theorem goHead_out : (goHead s).out = s.out := by
  rw [goHead]
  split_ifs <;> rfl

theorem step_read (h : step s (.read n) = some t) :
    0 < n ∧ n ≤ s.stream.length ∧
      (s.point = .main ∧ n ≤ DUN_MAX_IPC_MSG_LEN ∧ t = { fill s 0 n with point := .head } ∨
        s.point = .rest ∧ n ≤ s.msgEnd - s.NumRead ∧
          t = { fill s s.NumRead n with point := .dispatch }) := by
  rw [step] at h
  by_cases hn : 0 < n ∧ n ≤ s.stream.length
  swap
  · rw [if_neg hn] at h
    cases h
  rw [if_pos hn] at h
  refine ⟨hn.1, hn.2, ?_⟩
  split at h
  · next hp =>
    split_ifs at h with hmax
    exact .inl ⟨hp, hmax, (Option.some.inj h).symm⟩
  · next hp =>
    split_ifs at h with hmax
    exact .inr ⟨hp, hmax, (Option.some.inj h).symm⟩
  · cases h

theorem step_go (h : step s .go = some t) :
    s.point = .head ∧ t = goHead s ∨ s.point = .dispatch ∧ t = goDispatch s := by
  rw [step] at h
  split at h
  · next hp => exact .inl ⟨hp, (Option.some.inj h).symm⟩
  · next hp => exact .inr ⟨hp, (Option.some.inj h).symm⟩
  · cases h

/-- The action is a read or `go`. -/
theorem cases_of_wholeReads (h : WholeReads ms s a) : (∃ n, a = .read n) ∨ a = .go := by
  cases a with
  | read n => exact .inl ⟨n, rfl⟩
  | go => exact .inr rfl
  | eof => exact h.elim
  | readFails => exact h.elim
  | writeFails => exact h.elim

theorem AtHead.exists_cons (h : AtHead s todo) : ∃ m ms, todo = m :: ms := by
  cases todo with
  | nil =>
    have hl := congrArg List.length h.window.bytes
    have hlt := h.lt
    simp only [List.length_append, Buffer.length_get, encodeFrames_nil, List.length_nil] at hl
    omega
  | cons m ms => exact ⟨m, ms, rfl⟩

/-- What holds before an action of such a run holds after it. -/
theorem inv_step (hms : ∀ m ∈ ms, WellFormed m) (hG : WholeReads ms s a) (hi : Inv ms s)
    (hstep : step s a = some t) : Inv ms t := by
  obtain ⟨done, todo, rfl, hout, hp⟩ := hi
  have htodo : ∀ m ∈ todo, WellFormed m := fun m hm => hms m (List.mem_append_right _ hm)
  obtain ⟨n, rfl⟩ | rfl := cases_of_wholeReads hG
  · obtain ⟨hpos, hle, ⟨hpt, hmax, rfl⟩ | ⟨hpt, hmax, rfl⟩⟩ := step_read hstep
    · simp only [PointInv, hpt] at hp
      have hcut := hG.1 hpt
      rw [encodeFrames_append, List.length_append, hp.stream, Nat.add_sub_cancel,
        endsInHeader_append] at hcut
      exact ⟨done, todo, rfl, hout, atHead_of_read hp hpos hle hmax hcut⟩
    · simp only [PointInv, hpt] at hp
      obtain ⟨m, todo, rfl, hr⟩ := hp
      have hm := (htodo m List.mem_cons_self).1
      exact ⟨done, m :: todo, rfl, hout, m, todo, rfl, atDispatch_of_read hr hm (hG.2 hpt)⟩
  · obtain ⟨hpt, rfl⟩ | ⟨hpt, rfl⟩ := step_go hstep
    · simp only [PointInv, hpt] at hp
      obtain ⟨m, todo, rfl⟩ := hp.exists_cons
      exact ⟨done, m :: todo, rfl, goHead_out.trans hout,
        goHead_inv hp (htodo m List.mem_cons_self).1⟩
    · simp only [PointInv, hpt] at hp
      obtain ⟨m, todo, rfl, hd⟩ := hp
      rw [goDispatch, dispatch_eq hd (htodo m List.mem_cons_self)]
      refine ⟨done ++ [m], todo, (List.append_cons ..), ?_, advance_inv (hd.set_out _)⟩
      rw [advance_out, List.flatMap_append, List.flatMap_singleton, hout]

/-! ### Whole runs -/

/-- What is left to do: bytes to hand on, bytes to read, and a header to look at. -/
def State.toDo (s : State) : ℕ :=
  (match s.point with
    | .main => s.stream.length
    | _ => s.NumRead - s.ReadIndex + s.stream.length) +
  2 * s.stream.length + (if s.point = .head then 1 else 0)

theorem toDo_goHead (hpt : s.point = .head) : (goHead s).toDo < s.toDo := by
  have hs : s.toDo = s.NumRead - s.ReadIndex + s.stream.length + 2 * s.stream.length + 1 := by
    simp only [State.toDo, hpt, ↓reduceIte]
  have hgo : (goHead s).toDo = s.NumRead - s.ReadIndex + s.stream.length + 2 * s.stream.length := by
    rw [goHead]
    split_ifs <;> rfl
  omega

theorem toDo_advance (h : AtDispatch s m todo) (hpt : s.point = .dispatch) :
    (advance s).toDo < s.toDo := by
  have hend := h.current.msgEnd
  have hle := h.window.le
  have hs : s.toDo = s.NumRead - s.ReadIndex + s.stream.length + 2 * s.stream.length := by
    simp only [State.toDo, hpt, reduceCtorEq, ↓reduceIte, Nat.add_zero]
  rw [advance, hs]
  split_ifs with hc
  · simp only [State.toDo, ↓reduceIte]
    omega
  · simp only [State.toDo, reduceCtorEq, ↓reduceIte]
    omega

theorem toDo_lt (hms : ∀ m ∈ ms, WellFormed m) (hG : WholeReads ms s a) (hi : Inv ms s)
    (hstep : step s a = some t) : t.toDo < s.toDo := by
  obtain ⟨done, todo, rfl, -, hp⟩ := hi
  obtain ⟨n, rfl⟩ | rfl := cases_of_wholeReads hG
  · obtain ⟨hpos, hle, ⟨hpt, -, rfl⟩ | ⟨hpt, -, rfl⟩⟩ := step_read hstep
    · simp only [PointInv, hpt] at hp
      simp only [State.toDo, hpt, fill, hp.index, List.length_drop, ↓reduceIte, reduceCtorEq]
      omega
    · simp only [State.toDo, hpt, fill, List.length_drop, ↓reduceIte, reduceCtorEq]
      omega
  · obtain ⟨hpt, rfl⟩ | ⟨hpt, rfl⟩ := step_go hstep
    · exact toDo_goHead hpt
    · simp only [PointInv, hpt] at hp
      obtain ⟨m, todo, rfl, hd⟩ := hp
      rw [goDispatch, dispatch_eq hd (hms m (List.mem_append_right _ List.mem_cons_self))]
      exact toDo_advance (hd.set_out _) hpt

/-- The thread waits in the read of the outer loop and everything has been read. -/
def State.Idle (s : State) : Prop := s.point = .main ∧ s.stream = []

/-- The payloads of the responses. -/
def responses (ms : List Frame) : Bytes :=
  (ms.filter (·.tag = DUN_IPC_MSG_DUN_RESPONSE)).flatMap (·.payload)

theorem rfcommBytes_handled (m : Frame) :
    rfcommBytes (handled m) = if m.tag = DUN_IPC_MSG_DUN_RESPONSE then m.payload else [] := by
  have hctrl (b : UInt8) : rfcommBytes (ctrlEvents b) = [] := by
    rw [ctrlEvents]
    split_ifs <;> rfl
  rw [handled]
  split_ifs
  · exact List.append_nil _
  · induction m.payload with
    | nil => rfl
    | cons b p ih =>
      rw [List.flatMap_cons, rfcommBytes, List.flatMap_append]
      exact (congrArg₂ (· ++ ·) (hctrl b) ih)
  · simp [rfcommBytes, List.flatMap_map]
  · rfl

/-- The bytes written to RFCOMM are the payloads of the responses. -/
theorem rfcommBytes_flatMap_handled (ms : List Frame) :
    rfcommBytes (ms.flatMap handled) = responses ms := by
  induction ms with
  | nil => rfl
  | cons m ms ih =>
    have hm := rfcommBytes_handled m
    rw [rfcommBytes] at ih hm
    rw [List.flatMap_cons, rfcommBytes, List.flatMap_append, hm, ih, responses, responses,
      List.filter_cons]
    split_ifs <;> simp_all

/-- The messages `ms`, handed on by the actions `as` that led to `s`. -/
structure Delivered (ms : List Frame) (as : List Action) (s : State) : Prop where
  /-- Nothing but the first messages is ever handed on, in order. -/
  inOrder : ∃ done todo, ms = done ++ todo ∧ s.out = done.flatMap handled
  /-- The thread is through, waits for bytes that are there, or has something to do. -/
  progress : s.Idle ∨ (step s (.read 1)).isSome ∨ (step s .go).isSome
  /-- It is through after finitely many actions. -/
  bounded : as.length ≤ 3 * (encodeFrames lenWidth ms).length
  /-- And then every message has been handed on, once and with its own payload. -/
  complete : s.Idle → s.out = ms.flatMap handled ∧ rfcommBytes s.out = responses ms

theorem progress_of_inv (hi : Inv ms s) :
    s.Idle ∨ (step s (.read 1)).isSome ∨ (step s .go).isSome := by
  obtain ⟨done, todo, rfl, -, hp⟩ := hi
  cases hpt : s.point <;> simp only [PointInv, hpt] at hp
  · cases hs : s.stream with
    | nil => exact .inl ⟨hpt, hs⟩
    | cons x b =>
      have hmax : 1 ≤ DUN_MAX_IPC_MSG_LEN := by decide
      simp [step, hpt, hs, hmax]
  · simp [step, hpt]
  · obtain ⟨m, todo, rfl, hr⟩ := hp
    have hlt := hr.lt
    have hend := hr.current.msgEnd
    have hl := congrArg List.length hr.bytes
    have hpos : 1 ≤ s.stream.length := by
      have := hr.header
      simp only [List.length_append, Buffer.length_get] at hl
      omega
    have hone : (1 : ℤ) ≤ s.msgEnd - s.NumRead := by omega
    simp [step, hpt, hpos, hone]
  · simp [step, hpt]

/-- A run hands on every message, in order, if the reads of the outer loop do not stop inside a
header and the second reads return all of the rest. -/
theorem delivered_of_run {as : List Action} (hms : ∀ m ∈ ms, WellFormed m)
    (h : Run step (WholeReads ms) (start (encodeFrames lenWidth ms)) as t) : Delivered ms as t := by
  have hstep : ∀ s a t, WholeReads ms s a → Inv ms s → step s a = some t → Inv ms t :=
    fun _ _ _ hG hi hs => inv_step hms hG hi hs
  have hi : Inv ms t := h.invariant (inv_start ms) hstep
  have hlen := h.length_le (inv_start ms) hstep fun _ _ _ hG hi hs => toDo_lt hms hG hi hs
  obtain ⟨done, todo, hd, hout, hp⟩ := id hi
  refine ⟨⟨done, todo, hd, hout⟩, progress_of_inv hi, ?_, ?_⟩
  · have h0 : (start (encodeFrames lenWidth ms)).toDo = 3 * (encodeFrames lenWidth ms).length := by
      simp only [State.toDo, start, reduceCtorEq, ↓reduceIte]
      omega
    omega
  · rintro ⟨hpt, hs⟩
    simp only [PointInv, hpt] at hp
    -- no bytes are left, so no message is
    have hnil : todo = [] := by
      have hl : todo.length ≤ (encodeFrames lenWidth todo).length := length_le_encodeFrames
      rw [← hp.stream, hs] at hl
      exact List.length_eq_zero_iff.1 (Nat.le_zero.1 hl)
    rw [hd, hnil, List.append_nil, hout]
    exact ⟨rfl, rfcommBytes_flatMap_handled done⟩

/-- A response, a modem status and a control response, in three reads. -/
def sampleMessages : List Frame :=
  [⟨DUN_IPC_MSG_DUN_RESPONSE, [65, 66]⟩, ⟨DUN_IPC_MSG_MDM_STATUS, [9]⟩,
    ⟨DUN_IPC_MSG_CTRL_RESPONSE, [1]⟩]

def sampleActions : List Action :=
  [.read 8, .go, .go, .go, .read 1, .go, .read 4, .go, .go]

theorem delivered_three_messages :
    ∃ t, Delivered sampleMessages sampleActions t ∧
      t.out = [.write [65, 66], .handleModemStatusChange 9,
        .handleDunDeviceStateChange .STATE_CONNECTED] := by
  have hexec : (exec step (WholeReads sampleMessages)
      (start (encodeFrames lenWidth sampleMessages)) sampleActions).map State.out =
      some [.write [65, 66], .handleModemStatusChange 9,
        .handleDunDeviceStateChange .STATE_CONNECTED] := by decide
  obtain ⟨t, ht, hout⟩ := exists_run_of_exec hexec
  exact ⟨t, delivered_of_run (by decide) ht, hout⟩

/-- No read or write fails. -/
def NoFailure (_ : State) : Action → Prop
  | .read _ => True
  | .go => True
  | _ => False

instance (s : State) (a : Action) : Decidable (NoFailure s a) := by
  cases a <;> unfold NoFailure <;> infer_instance

/-- A read that stops inside a header: of a response with one byte, in reads of 1, 2 and 1 bytes,
the thread makes 256 bytes of its own, and it then waits for the rest of another message.  A
second read that stops inside the message: of a response with three bytes, in reads of 4, 1 and 1
bytes, the last one is lost. -/
theorem lost_in_header :
    (∃ as t, Run step NoFailure (start (encodeFrames lenWidth [⟨DUN_IPC_MSG_DUN_RESPONSE, [65]⟩]))
        as t ∧
      (t.stream, t.point, rfcommBytes t.out) = ([], .rest, List.replicate 256 0)) ∧
    ∃ as t, Run step NoFailure
        (start (encodeFrames lenWidth [⟨DUN_IPC_MSG_DUN_RESPONSE, [65, 66, 67]⟩])) as t ∧
      (t.stream, rfcommBytes t.out) = ([], [65, 66, 0]) := by
  constructor
  · refine ⟨[.read 1, .go, .read 2, .go, .read 1, .go], exists_run_of_exec ?_⟩
    decide +kernel
  · refine ⟨[.read 4, .go, .read 1, .go, .read 1], exists_run_of_exec ?_⟩
    decide

end Dun

end Msm8909w
