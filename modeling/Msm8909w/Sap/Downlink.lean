import Msm8909w.Lib.Loop
import Msm8909w.Sap.Uplink

/-!
# The downlink of the SIM access service

The downlink thread of `BluetoothSapService.java` reads messages of the SAP daemon, several at a
time, and forwards the responses among them to RFCOMM.  Its inner loop goes from message to message
by their lengths, which it takes from the buffer as they are: the buffer is reused, and a message
need not be whole.

The model keeps a record of every index that is accessed.  `StaysInside data` says of the bytes of a
read that the loop ends, that all these indices are among them, and that nothing else is written.

* `message` : one turn of the loop,
* `message_eq` : a turn on a message that is whole,
* `Framed` : the read is a list of whole messages,
* `staysInside_of_framed`, `framed_of_staysInside` : the two directions of `staysInside_framed`.
-/

namespace Msm8909w

namespace Sap

def SAP_IPC_MSG_SAP_RESPONSE : UInt8 := 0x01
def SAP_IPC_MSG_CTRL_RESPONSE : UInt8 := 0x03

def SAP_CRTL_MSG_CONNECTED_RESP : UInt8 := 0x02
def SAP_CRTL_MSG_DISCONNECTED_RESP : UInt8 := 0x03

def SAP_MAX_IPC_MSG_LEN : ℕ := SAP_MAX_MSG_LEN + SAP_IPC_HEADER_SIZE

namespace Downlink

/-! ### The thread -/

/-- What `handleSapDeviceStateChange` is told. -/
inductive ProfileState where
  | STATE_CONNECTED
  | STATE_DISCONNECTED
  deriving DecidableEq, Repr

structure State where
  IpcMsgBuffer : Buffer UInt8
  ReadIndex : ℤ
  /-- Every index that has been accessed. -/
  touched : List ℤ
  /-- What has been written to RFCOMM, write by write. -/
  out : List Bytes
  changes : List ProfileState

/-- The indices are accessed. -/
def State.touch (s : State) (indices : List ℤ) : State :=
  { s with touched := s.touched ++ indices }

/-- Accesses to the buffer; an index that is out of bounds ends the thread. -/
abbrev Access := StateT State (Except State)

/-- The index is in the buffer. -/
def InBuffer (i : ℤ) : Prop := 0 ≤ i ∧ i < SAP_MAX_IPC_MSG_LEN

instance (i : ℤ) : Decidable (InBuffer i) := inferInstanceAs (Decidable (_ ∧ _))

/-- `IpcMsgBuffer.get(i)`. -/
def getByte (i : ℤ) : Access UInt8 := fun s =>
  if InBuffer i then .ok (s.IpcMsgBuffer i.toNat, s.touch [i]) else .error (s.touch [i])

/-- `IpcMsgBuffer.put(i, b)`. -/
def putByte (i : ℤ) (b : UInt8) : Access Unit := fun s =>
  if InBuffer i then
    .ok ((), { s.touch [i] with IpcMsgBuffer := s.IpcMsgBuffer.put i.toNat [b] })
  else .error (s.touch [i])

/-- `IpcMsgBuffer.getShort(i)`. -/
def getShort (i : ℤ) : Access ℤ := fun s =>
  if InBuffer i ∧ InBuffer (i + 1) then
    .ok (s.IpcMsgBuffer.getShort i.toNat, s.touch [i, i + 1])
  else .error (s.touch [i, i + 1])

/-- The indices from `off` on. -/
def stretch (off len : ℤ) : List ℤ := (List.range len.toNat).map fun (j : ℕ) => off + j

/-- `mRfcommOutputStream.write(IpcMsgBuffer.array(), off, len)` and the flush.  The write number `k`
succeeds if `fails k` is `none`; otherwise it throws an `IOException` after some bytes. -/
def write (fails : ℕ → Option ℕ) (off len : ℤ) : Access Bool := fun s =>
  if off < 0 ∨ len < 0 ∨ SAP_MAX_IPC_MSG_LEN < off + len then .error (s.touch (stretch off len))
  else
    let bytes := s.IpcMsgBuffer.get off.toNat len.toNat
    match fails s.out.length with
    | none => .ok (true, { s.touch (stretch off len) with out := s.out ++ [bytes] })
    | some k => .ok (false, { s.touch (stretch off len) with out := s.out ++ [bytes.take k] })

/-- `handleSapDeviceStateChange(mRemoteDevice, state)`. -/
def handleSapDeviceStateChange (state : ProfileState) : Access Unit :=
  modify fun s => { s with changes := s.changes ++ [state] }

/-- Swap the bytes of the length of the message at `i`. -/
def swapLength (i : ℤ) : Access Unit := do
  let tempByte ← getByte (i + SAP_IPC_MSG_OFF_MSG_LEN)
  putByte (i + SAP_IPC_MSG_OFF_MSG_LEN) (← getByte (i + SAP_IPC_MSG_OFF_MSG_LEN + 1))
  putByte (i + SAP_IPC_MSG_OFF_MSG_LEN + 1) tempByte

/-- A control response. -/
def ctrlResponse (i : ℤ) : Access Unit := do
  let msg ← getByte (i + SAP_IPC_MSG_OFF_MSG)
  if msg = SAP_CRTL_MSG_CONNECTED_RESP then handleSapDeviceStateChange .STATE_CONNECTED
  else
    let msg ← getByte (i + SAP_IPC_MSG_OFF_MSG)
    if msg = SAP_CRTL_MSG_DISCONNECTED_RESP then handleSapDeviceStateChange .STATE_DISCONNECTED

/-- What is done with the message at `i`; `false` if a write fails. -/
def deliver (fails : ℕ → Option ℕ) (i : ℤ) : Access Bool := do
  let type ← getByte (i + SAP_IPC_MSG_OFF_MSG_TYPE)
  if type = SAP_IPC_MSG_SAP_RESPONSE then
    let len ← getShort (i + SAP_IPC_MSG_OFF_MSG_LEN)
    write fails (i + SAP_IPC_MSG_OFF_MSG) len
  else if type = SAP_IPC_MSG_CTRL_RESPONSE then do
    ctrlResponse i
    return true
  else return true

/-- The body of the inner loop, with `ReadIndex = i`; `false` if a write fails. -/
def message (fails : ℕ → Option ℕ) (i : ℤ) : Access Bool := do
  swapLength i
  if ← deliver fails i then
    let len ← getShort (i + SAP_IPC_MSG_OFF_MSG_LEN)
    modify fun s => { s with ReadIndex := i + len + SAP_IPC_HEADER_SIZE }
    return true
  else return false

/-- How the loop ends. -/
inductive Stop where
  | allRead
  | writeFailed
  | indexOutOfBounds
  deriving DecidableEq, Repr

/-- One turn of the inner loop, after a read of `NumRead` bytes. -/
def turn (NumRead : ℕ) (fails : ℕ → Option ℕ) (s : State) : State ⊕ State × Stop :=
  match message fails s.ReadIndex s with
  | .error s => .inr (s, .indexOutOfBounds)
  | .ok (false, s) => .inr (s, .writeFailed)
  | .ok (true, s) => if s.ReadIndex < NumRead then .inl s else .inr (s, .allRead)

/-- The state after a read of `data` into a buffer with other bytes in it. -/
def start (stale : Buffer UInt8) (data : Bytes) : State where
  IpcMsgBuffer := stale.put 0 data
  ReadIndex := 0
  touched := []
  out := []
  changes := []

/-! ### What is asked for -/

/-- Every index that was accessed is one of the first `n`. -/
def Inside (n : ℕ) (s : State) : Prop := ∀ i ∈ s.touched, 0 ≤ i ∧ i < n

/-- The loop ends without an exception, accesses only the bytes of the read, and writes only such.
-/
def StaysInside (data : Bytes) : Prop :=
  ∀ (stale : Buffer UInt8) (fails : ℕ → Option ℕ), ∃ s stop,
    Ends (turn data.length fails) (start stale data) (s, stop) ∧ stop ≠ .indexOutOfBounds ∧
      Inside data.length s ∧ ∀ bytes ∈ s.out, bytes <:+: data

/-- Whole messages: each has a header and a length that is not negative, a response its payload, and
a control response a first byte; the last message may announce more than there is if it is neither
of them. -/
inductive Framed : Bytes → Prop
  | last {type lo hi : UInt8} {rest : Bytes} (hlen : rest.length ≤ shortOf hi lo)
      (hsap : type = SAP_IPC_MSG_SAP_RESPONSE → shortOf hi lo = rest.length)
      (hctrl : type = SAP_IPC_MSG_CTRL_RESPONSE → rest ≠ []) : Framed (type :: lo :: hi :: rest)
  | next {type lo hi : UInt8} {payload rest : Bytes} (hlen : shortOf hi lo = payload.length)
      (hne : rest ≠ []) (hrest : Framed rest) : Framed (type :: lo :: hi :: (payload ++ rest))

/-- A negative length is reached, of a message that is no response. -/
inductive MeetsNegative : Bytes → Prop
  | here {type lo hi : UInt8} {rest : Bytes} (htype : type ≠ SAP_IPC_MSG_SAP_RESPONSE)
      (hlen : shortOf hi lo < 0) : MeetsNegative (type :: lo :: hi :: rest)
  | next {type lo hi : UInt8} {payload rest : Bytes} (hlen : shortOf hi lo = payload.length)
      (hrest : MeetsNegative rest) : MeetsNegative (type :: lo :: hi :: (payload ++ rest))

/-! ### Accesses -/

section Access

variable {α β : Type} {m : Access α} {f : α → Access β} {a : α} {s s' : State} {n : ℕ}

theorem bind_ok (h : m s = .ok (a, s')) : (m >>= f) s = f a s' := by
  show (m s >>= fun p => f p.1 p.2) = _
  rw [h]
  rfl

theorem bind_error (h : m s = .error s') : (m >>= f) s = .error s' := by
  show (m s >>= fun p => f p.1 p.2) = _
  rw [h]
  rfl

/-- The record of the accesses only grows. -/
def Grows (m : Access α) : Prop := ∀ s a s', m s = .ok (a, s') → s.touched ⊆ s'.touched

theorem grows_pure (a : α) : Grows (pure a : Access α) := by
  rintro s _ _ ⟨⟩
  exact List.Subset.refl _

theorem grows_modify {g : State → State} (h : ∀ s, (g s).touched = s.touched) :
    Grows (modify g : Access PUnit) := by
  rintro s _ _ ⟨⟩
  rw [h]
  exact List.Subset.refl _

theorem grows_bind (hm : Grows m) (hf : ∀ a, Grows (f a)) : Grows (m >>= f) := by
  intro s b s'' h
  cases hms : m s with
  | error s' =>
    rw [bind_error hms] at h
    cases h
  | ok p =>
    obtain ⟨a, s'⟩ := p
    rw [bind_ok hms] at h
    exact List.Subset.trans (hm s a s' hms) (hf a s' b s'' h)

theorem grows_getByte (i : ℤ) : Grows (getByte i) := by
  intro s a s' h
  rw [getByte] at h
  split_ifs at h
  cases h
  exact List.subset_append_left _ _

theorem grows_putByte (i : ℤ) (b : UInt8) : Grows (putByte i b) := by
  intro s a s' h
  rw [putByte] at h
  split_ifs at h
  cases h
  exact List.subset_append_left _ _

theorem grows_getShort (i : ℤ) : Grows (getShort i) := by
  intro s a s' h
  rw [getShort] at h
  split_ifs at h
  cases h
  exact List.subset_append_left _ _

theorem grows_write (fails : ℕ → Option ℕ) (off len : ℤ) : Grows (write fails off len) := by
  intro s a s' h
  rw [write] at h
  split_ifs at h
  dsimp only at h
  split at h <;> cases h <;> exact List.subset_append_left _ _

/-- A control response, after its first byte has been read. -/
theorem grows_ctrlResponse_rest (i : ℤ) (msg : UInt8) :
    Grows (if msg = SAP_CRTL_MSG_CONNECTED_RESP then handleSapDeviceStateChange .STATE_CONNECTED
      else do
        let msg ← getByte (i + SAP_IPC_MSG_OFF_MSG)
        if msg = SAP_CRTL_MSG_DISCONNECTED_RESP then
          handleSapDeviceStateChange .STATE_DISCONNECTED) := by
  have hchange (state : ProfileState) : Grows (handleSapDeviceStateChange state) :=
    grows_modify fun _ => rfl
  split_ifs
  · exact hchange _
  · refine grows_bind (grows_getByte _) fun msg => ?_
    split_ifs
    · exact hchange _
    · exact grows_pure _

theorem grows_deliver (fails : ℕ → Option ℕ) (i : ℤ) : Grows (deliver fails i) := by
  refine grows_bind (grows_getByte _) fun type => ?_
  split_ifs
  · exact grows_bind (grows_getShort _) fun len => grows_write fails _ len
  · exact grows_bind (grows_bind (grows_getByte _) (grows_ctrlResponse_rest i)) fun _ =>
      grows_pure true
  · exact grows_pure true

theorem grows_swapLength (i : ℤ) : Grows (swapLength i) := by
  refine grows_bind (grows_getByte _) fun tempByte => ?_
  refine grows_bind (grows_getByte _) fun b => ?_
  exact grows_bind (grows_putByte _ b) fun _ => grows_putByte _ tempByte

theorem grows_step (i : ℤ) (ok : Bool) :
    Grows (if ok then do
      let len ← getShort (i + SAP_IPC_MSG_OFF_MSG_LEN)
      modify fun s => { s with ReadIndex := i + len + SAP_IPC_HEADER_SIZE }
      return true
    else return false : Access Bool) := by
  split_ifs
  · refine grows_bind (grows_getShort _) fun len => ?_
    exact grows_bind (grows_modify fun _ => rfl) fun _ => grows_pure true
  · exact grows_pure false

theorem grows_message (fails : ℕ → Option ℕ) (i : ℤ) : Grows (message fails i) :=
  grows_bind (grows_swapLength i) fun _ => grows_bind (grows_deliver fails i) (grows_step i)

/-- An exception was thrown, or an index was outside. -/
def Bad (n : ℕ) (x : Except State (α × State)) : Prop := ∀ a s, x = .ok (a, s) → ¬ Inside n s

theorem bad_bind (h : Bad n (m s)) (hf : ∀ a, Grows (f a)) : Bad n ((m >>= f) s) := by
  intro b s'' heq hin
  cases hms : m s with
  | error s' =>
    rw [bind_error hms] at heq
    cases heq
  | ok p =>
    obtain ⟨a, s'⟩ := p
    rw [bind_ok hms] at heq
    exact h a s' hms fun j hj => hin j (hf a s' b s'' heq hj)

/-- An index that is not among the first `n`. -/
theorem bad_getByte {i : ℤ} (h : n ≤ i) (s : State) : Bad n (getByte i s) := by
  intro b s' heq hin
  rw [getByte] at heq
  split_ifs at heq
  cases heq
  have := hin i (List.mem_append_right _ List.mem_cons_self)
  omega

/-- A stretch that is not among the first `n`, or is negative. -/
theorem bad_write {fails : ℕ → Option ℕ} {off len : ℤ} (hoff : off ≤ n)
    (h : len < 0 ∨ n < off + len) (s : State) : Bad n (write fails off len s) := by
  intro ok s' heq hin
  rw [write] at heq
  split_ifs at heq with hcond
  have hlast : off + len - 1 ∈ stretch off len := by
    rw [stretch, List.mem_map]
    exact ⟨(len - 1).toNat, List.mem_range.2 (by omega), by omega⟩
  have htouched : s'.touched = s.touched ++ stretch off len := by
    dsimp only at heq
    split at heq <;> cases heq <;> rfl
  have := hin _ (htouched ▸ List.mem_append_right _ hlast)
  omega

end Access

/-! ### A whole message -/

section Whole

variable {n i : ℕ} {fails : ℕ → Option ℕ} {s : State}

theorem inBuffer_natCast {j : ℕ} (h : j < SAP_MAX_IPC_MSG_LEN) : InBuffer j :=
  ⟨Int.natCast_nonneg j, Int.ofNat_lt.2 h⟩

theorem getByte_ok {j : ℕ} (h : j < SAP_MAX_IPC_MSG_LEN) (s : State) :
    getByte j s = .ok (s.IpcMsgBuffer j, s.touch [(j : ℤ)]) := if_pos (inBuffer_natCast h)

theorem putByte_ok {j : ℕ} (h : j < SAP_MAX_IPC_MSG_LEN) (b : UInt8) (s : State) :
    putByte j b s =
      .ok ((), { s.touch [(j : ℤ)] with IpcMsgBuffer := s.IpcMsgBuffer.put j [b] }) :=
  if_pos (inBuffer_natCast h)

theorem getShort_ok {j : ℕ} (h : j + 1 < SAP_MAX_IPC_MSG_LEN) (s : State) :
    getShort j s = .ok (s.IpcMsgBuffer.getShort j, s.touch [(j : ℤ), j + 1]) :=
  if_pos ⟨inBuffer_natCast (Nat.lt_of_succ_lt h), inBuffer_natCast h⟩

theorem inside_touch {indices : List ℤ} (hs : Inside n s) (h : ∀ j ∈ indices, 0 ≤ j ∧ j < n) :
    Inside n (s.touch indices) := by
  intro j hj
  rcases List.mem_append.1 hj with hj | hj
  · exact hs j hj
  · exact h j hj

theorem swapLength_ok (h : i + 3 ≤ SAP_MAX_IPC_MSG_LEN) (s : State) :
    swapLength i s = .ok ((), { s.touch [(i : ℤ) + 1, i + 2, i + 1, i + 2] with
      IpcMsgBuffer := s.IpcMsgBuffer.swap (i + 1) }) := by
  have hlen : (i : ℤ) + SAP_IPC_MSG_OFF_MSG_LEN = (i + 1 : ℕ) := rfl
  have hlen1 : (i : ℤ) + SAP_IPC_MSG_OFF_MSG_LEN + 1 = (i + 2 : ℕ) := by
    rw [hlen]
    rfl
  rw [swapLength, hlen1, hlen, bind_ok (getByte_ok (by omega) s), bind_ok (getByte_ok (by omega) _),
    bind_ok (putByte_ok (by omega) _ _), putByte_ok (by omega)]
  simp only [State.touch, Buffer.swap, ← Buffer.put_put_succ, List.append_assoc]
  rfl

/-- A control response accesses its first byte. -/
theorem ctrlResponse_ok (hcap : n ≤ SAP_MAX_IPC_MSG_LEN) (hi : i + 3 < n) (s : State) :
    ∃ s', ctrlResponse i s = .ok ((), s') ∧ s'.IpcMsgBuffer = s.IpcMsgBuffer ∧ s'.out = s.out ∧
      (Inside n s → Inside n s') := by
  have hmsg : (i : ℤ) + SAP_IPC_MSG_OFF_MSG = (i + 3 : ℕ) := rfl
  have hget := getByte_ok (j := i + 3) (by omega)
  have hin : ∀ j ∈ [((i + 3 : ℕ) : ℤ)], 0 ≤ j ∧ j < n := by
    intro j hj
    rw [List.mem_singleton.1 hj]
    omega
  rw [ctrlResponse, hmsg, bind_ok (hget s)]
  split_ifs with hconnected
  · exact ⟨_, rfl, rfl, rfl, fun hs => inside_touch hs hin⟩
  · rw [bind_ok (hget _)]
    split_ifs with hdisconnected
    · exact ⟨_, rfl, rfl, rfl, fun hs => inside_touch (inside_touch hs hin) hin⟩
    · exact ⟨_, rfl, rfl, rfl, fun hs => inside_touch (inside_touch hs hin) hin⟩

/-- A write of bytes that are there. -/
theorem write_ok (hcap : n ≤ SAP_MAX_IPC_MSG_LEN) {len : ℤ} (hlen : 0 ≤ len) (hi : i + len ≤ n)
    (s : State) :
    ∃ ok s' k, write fails i len s = .ok (ok, s') ∧ s'.IpcMsgBuffer = s.IpcMsgBuffer ∧
      s'.out = s.out ++ [(s.IpcMsgBuffer.get i len.toNat).take k] ∧ (Inside n s → Inside n s') ∧
      ((∀ k, fails k = none) → ok = true) := by
  have hcond : ¬ ((i : ℤ) < 0 ∨ len < 0 ∨ (SAP_MAX_IPC_MSG_LEN : ℤ) < i + len) := by omega
  have hin : ∀ j ∈ stretch i len, 0 ≤ j ∧ j < n := by
    intro j hj
    obtain ⟨k, hk, rfl⟩ := List.mem_map.1 hj
    have := List.mem_range.1 hk
    omega
  rw [write, if_neg hcond]
  dsimp only
  rw [Int.toNat_natCast]
  split
  · refine ⟨true, _, len.toNat, rfl, rfl, ?_, fun hs => inside_touch hs hin, fun _ => rfl⟩
    rw [List.take_of_length_le (by rw [Buffer.length_get])]
  · next k hk =>
    refine ⟨false, _, k, rfl, rfl, rfl, fun hs => inside_touch hs hin, fun hnever => ?_⟩
    rw [hnever] at hk
    cases hk

/-- The message at `i` is whole, as far as the loop looks at it. -/
structure WholeAt (n : ℕ) (b : Buffer UInt8) (i : ℕ) (len : ℤ) : Prop where
  header : i + 3 ≤ n
  sap : b i = SAP_IPC_MSG_SAP_RESPONSE → 0 ≤ len ∧ i + 3 + len ≤ n
  ctrl : b i = SAP_IPC_MSG_CTRL_RESPONSE → i + 3 < n

theorem deliver_ok (fails : ℕ → Option ℕ) (hcap : n ≤ SAP_MAX_IPC_MSG_LEN)
    (h : WholeAt n s.IpcMsgBuffer i (s.IpcMsgBuffer.getShort (i + 1))) :
    ∃ ok s', deliver fails i s = .ok (ok, s') ∧ s'.IpcMsgBuffer = s.IpcMsgBuffer ∧
      (s'.out = s.out ∨ ∃ k, s.IpcMsgBuffer i = SAP_IPC_MSG_SAP_RESPONSE ∧ s'.out = s.out ++
        [(s.IpcMsgBuffer.get (i + 3) (s.IpcMsgBuffer.getShort (i + 1)).toNat).take k]) ∧
      (Inside n s → Inside n s') ∧ ((∀ k, fails k = none) → ok = true) := by
  have hheader := h.header
  have htype : (i : ℤ) + SAP_IPC_MSG_OFF_MSG_TYPE = (i : ℕ) := Int.add_zero _
  have hlen : (i : ℤ) + SAP_IPC_MSG_OFF_MSG_LEN = (i + 1 : ℕ) := rfl
  have hmsg : (i : ℤ) + SAP_IPC_MSG_OFF_MSG = (i + 3 : ℕ) := rfl
  have hin : ∀ j ∈ [(i : ℤ)], 0 ≤ j ∧ j < n := by
    intro j hj
    rw [List.mem_singleton.1 hj]
    omega
  rw [deliver, htype, bind_ok (getByte_ok (by omega) s)]
  split_ifs with hsap hctrl
  · obtain ⟨hnonneg, hle⟩ := h.sap hsap
    have hinlen : ∀ j ∈ [((i + 1 : ℕ) : ℤ), (i + 1 : ℕ) + 1], 0 ≤ j ∧ j < n := by
      intro j hj
      simp only [List.mem_cons, List.not_mem_nil, or_false] at hj
      omega
    rw [hlen, bind_ok (getShort_ok (by omega) _), hmsg]
    have hstretch : ((i + 3 : ℕ) : ℤ) + s.IpcMsgBuffer.getShort (i + 1) ≤ n := by
      push_cast
      omega
    obtain ⟨ok, s', k, hwrite, hbuffer, hout, hinside, hok⟩ := write_ok hcap hnonneg hstretch
      ((s.touch [(i : ℤ)]).touch [((i + 1 : ℕ) : ℤ), (i + 1 : ℕ) + 1])
    exact ⟨ok, s', hwrite, hbuffer, .inr ⟨k, hsap, hout⟩,
      fun hs => hinside (inside_touch (inside_touch hs hin) hinlen), hok⟩
  · obtain ⟨s', hs', hbuffer, hout, hinside⟩ :=
      ctrlResponse_ok hcap (h.ctrl hctrl) (s.touch [(i : ℤ)])
    refine ⟨true, s', ?_, hbuffer, .inl hout, fun hs => hinside (inside_touch hs hin), fun _ => rfl⟩
    rw [bind_ok hs']
    rfl
  · exact ⟨true, _, rfl, rfl, .inl rfl, fun hs => inside_touch hs hin, fun _ => rfl⟩

/-- **A turn on a whole message**: the bytes of its length are swapped, and the loop goes on behind
it. -/
theorem message_eq (fails : ℕ → Option ℕ) (hcap : n ≤ SAP_MAX_IPC_MSG_LEN) {len : ℤ}
    (h : WholeAt n s.IpcMsgBuffer i len)
    (hlen : shortOf (s.IpcMsgBuffer (i + 2)) (s.IpcMsgBuffer (i + 1)) = len) :
    ∃ ok s', message fails i s = .ok (ok, s') ∧ s'.IpcMsgBuffer = s.IpcMsgBuffer.swap (i + 1) ∧
      (s'.out = s.out ∨ ∃ k, s.IpcMsgBuffer i = SAP_IPC_MSG_SAP_RESPONSE ∧
        s'.out = s.out ++ [(s.IpcMsgBuffer.get (i + 3) len.toNat).take k]) ∧
      (ok = true → s'.ReadIndex = i + len + 3) ∧ (Inside n s → Inside n s') ∧
      ((∀ k, fails k = none) → ok = true) := by
  have hheader := h.header
  set s₁ : State := { s.touch [(i : ℤ) + 1, i + 2, i + 1, i + 2] with
    IpcMsgBuffer := s.IpcMsgBuffer.swap (i + 1) }
  have hshort : s₁.IpcMsgBuffer.getShort (i + 1) = len := by
    show (s.IpcMsgBuffer.swap (i + 1)).getShort (i + 1) = len
    rw [Buffer.getShort, Buffer.swap_apply_left, Buffer.swap_apply_right, hlen]
  have htype : s₁.IpcMsgBuffer i = s.IpcMsgBuffer i := Buffer.swap_apply_of_lt (Nat.lt_succ_self i)
  have hwhole : WholeAt n s₁.IpcMsgBuffer i (s₁.IpcMsgBuffer.getShort (i + 1)) := by
    rw [hshort]
    exact ⟨hheader, fun hsap => h.sap (htype ▸ hsap), fun hctrl => h.ctrl (htype ▸ hctrl)⟩
  have hpayload : s₁.IpcMsgBuffer.get (i + 3) len.toNat = s.IpcMsgBuffer.get (i + 3) len.toNat :=
    Buffer.get_swap_of_le (Nat.le_refl _)
  obtain ⟨ok, s₂, hdeliver, hbuffer, hout, hinside, hok⟩ := deliver_ok fails hcap hwhole
  rw [hshort, htype, hpayload] at hout
  have hin : ∀ j ∈ [(i : ℤ) + 1, i + 2, i + 1, i + 2], 0 ≤ j ∧ j < n := by
    intro j hj
    simp only [List.mem_cons, List.not_mem_nil, or_false] at hj
    omega
  have hinside₁ (hs : Inside n s) : Inside n s₁ := inside_touch hs hin
  rw [message, bind_ok (swapLength_ok (by omega) s), bind_ok hdeliver]
  cases ok with
  | false =>
    exact ⟨false, s₂, rfl, hbuffer, hout, fun h => absurd h Bool.false_ne_true,
      fun hs => hinside (hinside₁ hs), hok⟩
  | true =>
    have hlenIndex : (i : ℤ) + SAP_IPC_MSG_OFF_MSG_LEN = (i + 1 : ℕ) := rfl
    have hin₂ : ∀ j ∈ [((i + 1 : ℕ) : ℤ), (i + 1 : ℕ) + 1], 0 ≤ j ∧ j < n := by
      intro j hj
      simp only [List.mem_cons, List.not_mem_nil, or_false] at hj
      omega
    simp only [if_true]
    rw [hlenIndex, bind_ok (getShort_ok (by omega) s₂), hbuffer, hshort]
    exact ⟨true, _, rfl, hbuffer, hout, fun _ => rfl,
      fun hs => inside_touch (hinside (hinside₁ hs)) hin₂, fun _ => rfl⟩

end Whole

/-! ### From message to message -/

section Walk

variable {data d rest payload : Bytes} {type lo hi : UInt8} {i : ℕ} {fails : ℕ → Option ℕ}
  {s s' : State} {stop : Stop}

/-- The loop is at the bytes `d` of the read, and has stayed inside so far. -/
structure At (data : Bytes) (i : ℕ) (d : Bytes) (s : State) : Prop where
  index : s.ReadIndex = i
  length : i + d.length = data.length
  suffix : d <:+ data
  buffer : s.IpcMsgBuffer.get i d.length = d
  inside : Inside data.length s
  out : ∀ bytes ∈ s.out, bytes <:+: data

theorem at_start (stale : Buffer UInt8) (data : Bytes) : At data 0 data (start stale data) := by
  have hbuffer : (stale.put 0 data).get 0 data.length = data := Buffer.get_put_same
  exact ⟨rfl, Nat.zero_add _, List.suffix_rfl, hbuffer, nofun, nofun⟩

/-- The bytes of the message. -/
theorem At.bytes (h : At data i (type :: lo :: hi :: rest) s) :
    s.IpcMsgBuffer i = type ∧ s.IpcMsgBuffer (i + 1) = lo ∧ s.IpcMsgBuffer (i + 2) = hi ∧
      s.IpcMsgBuffer.get (i + 3) rest.length = rest := by
  have hbuffer := h.buffer
  simp only [List.length_cons, Buffer.get_succ, List.cons.injEq] at hbuffer
  exact hbuffer

/-- A turn at a whole message. -/
theorem At.message (h : At data i (type :: lo :: hi :: rest) s)
    (hcap : data.length ≤ SAP_MAX_IPC_MSG_LEN)
    (hsap : type = SAP_IPC_MSG_SAP_RESPONSE → 0 ≤ shortOf hi lo ∧ shortOf hi lo ≤ rest.length)
    (hctrl : type = SAP_IPC_MSG_CTRL_RESPONSE → rest ≠ []) (fails : ℕ → Option ℕ) :
    ∃ ok s', Downlink.message fails i s = .ok (ok, s') ∧
      s'.IpcMsgBuffer = s.IpcMsgBuffer.swap (i + 1) ∧
      (ok = true → s'.ReadIndex = i + shortOf hi lo + 3) ∧ Inside data.length s' ∧
      (∀ bytes ∈ s'.out, bytes <:+: data) ∧ ((∀ k, fails k = none) → ok = true) := by
  obtain ⟨htype, hlo, hhi, hrest⟩ := h.bytes
  have hlength := h.length
  simp only [List.length_cons] at hlength
  have hwhole : WholeAt data.length s.IpcMsgBuffer i (shortOf hi lo) := by
    refine ⟨by omega, fun ht => ?_, fun ht => ?_⟩
    · have := hsap (htype ▸ ht)
      omega
    · have := List.length_pos_iff.2 (hctrl (htype ▸ ht))
      omega
  obtain ⟨ok, s', hmessage, hbuffer, hout, hindex, hinside, hok⟩ := message_eq fails hcap hwhole
    (by rw [hhi, hlo])
  refine ⟨ok, s', hmessage, hbuffer, hindex, hinside h.inside, ?_, hok⟩
  rcases hout with hout | ⟨k, ht, hout⟩
  · rw [hout]
    exact h.out
  · -- what is written is the payload, or the first bytes of it
    have hle := (hsap (htype ▸ ht)).2
    have hpayload : s.IpcMsgBuffer.get (i + 3) (shortOf hi lo).toNat <+: rest := by
      obtain ⟨m, hm⟩ := Nat.exists_eq_add_of_le (show (shortOf hi lo).toNat ≤ rest.length by omega)
      rw [← hrest, hm, Buffer.get_add]
      exact List.prefix_append _ _
    have hinfix : rest <:+: data :=
      (List.suffix_append [type, lo, hi] rest).trans h.suffix |>.isInfix
    intro bytes hbytes
    rw [hout, List.mem_append, List.mem_singleton] at hbytes
    rcases hbytes with hbytes | rfl
    · exact h.out bytes hbytes
    · exact ((List.take_prefix k _).trans hpayload).isInfix.trans hinfix

/-- Behind the message the next one starts. -/
theorem At.next (h : At data i (type :: lo :: hi :: (payload ++ rest)) s)
    (hbuffer : s'.IpcMsgBuffer = s.IpcMsgBuffer.swap (i + 1))
    (hindex : s'.ReadIndex = i + payload.length + 3) (hinside : Inside data.length s')
    (hout : ∀ bytes ∈ s'.out, bytes <:+: data) : At data (i + 3 + payload.length) rest s' := by
  obtain ⟨-, -, -, hget⟩ := h.bytes
  have hlength := h.length
  simp only [List.length_cons, List.length_append] at hlength
  refine ⟨by omega, by omega, ?_, ?_, hinside, hout⟩
  · exact (List.suffix_append (type :: lo :: hi :: payload) rest).trans h.suffix
  · rw [List.length_append, Buffer.get_add] at hget
    rw [hbuffer, Buffer.get_swap_of_le (by omega)]
    exact (List.append_inj hget Buffer.length_get).2

/-- The loop stays inside on whole messages. -/
theorem staysInside_of_framed (hcap : data.length ≤ SAP_MAX_IPC_MSG_LEN) (hd : Framed d)
    (h : At data i d s) (fails : ℕ → Option ℕ) :
    ∃ s' stop, Ends (turn data.length fails) s (s', stop) ∧ stop ≠ .indexOutOfBounds ∧
      Inside data.length s' ∧ ∀ bytes ∈ s'.out, bytes <:+: data := by
  induction hd generalizing i s with
  | @last type lo hi rest hlen hsap hctrl =>
    obtain ⟨ok, s', hmessage, -, hindex, hinside, hout, -⟩ := h.message hcap
      (fun ht => by have := hsap ht; omega) hctrl fails
    have hlength := h.length
    simp only [List.length_cons] at hlength
    rw [← h.index] at hmessage
    cases ok with
    | false => exact ⟨s', .writeFailed, .stop (by rw [turn, hmessage]), nofun, hinside, hout⟩
    | true =>
      have hend : ¬ s'.ReadIndex < data.length := by
        rw [hindex rfl]
        omega
      exact ⟨s', .allRead, .stop (by rw [turn, hmessage]; exact if_neg hend), nofun, hinside, hout⟩
  | @next type lo hi payload rest hlen hne hrest ih =>
    obtain ⟨ok, s', hmessage, hbuffer, hindex, hinside, hout, -⟩ := h.message hcap
      (fun _ => by rw [hlen, List.length_append]; omega) (fun _ => by simp [hne]) fails
    have hlength := h.length
    have hpos := List.length_pos_iff.2 hne
    simp only [List.length_cons, List.length_append] at hlength
    rw [← h.index] at hmessage
    cases ok with
    | false => exact ⟨s', .writeFailed, .stop (by rw [turn, hmessage]), nofun, hinside, hout⟩
    | true =>
      have hgo : s'.ReadIndex < data.length := by
        rw [hindex rfl, hlen]
        omega
      have hnext := h.next hbuffer (hlen ▸ hindex rfl) hinside hout
      obtain ⟨t, stop, hends, hrun⟩ := ih hnext
      refine ⟨t, stop, .goOn (t := s') ?_ hends, hrun⟩
      rw [turn, hmessage]
      exact if_pos hgo

/-- Once an index was outside, it stays so. -/
theorem not_inside_of_ends {n : ℕ} {r : State × Stop} (h : Ends (turn n fails) s r)
    (hs : ¬ Inside n s) : r.2 = .indexOutOfBounds ∨ ¬ Inside n r.1 := by
  have hgrow {s ok s'} (hm : message fails s.ReadIndex s = .ok (ok, s')) (hs : ¬ Inside n s) :
      ¬ Inside n s' := fun hin => hs fun j hj => hin j (grows_message fails _ s ok s' hm hj)
  induction h with
  | @stop s r hturn =>
    rw [turn] at hturn
    split at hturn
    · cases hturn
      exact .inl rfl
    · next hm =>
      cases hturn
      exact .inr (hgrow hm hs)
    · next hm =>
      split_ifs at hturn
      cases hturn
      exact .inr (hgrow hm hs)
  | @goOn s t r hturn _ ih =>
    rw [turn] at hturn
    split at hturn
    · cases hturn
    · cases hturn
    · next hm =>
      split_ifs at hturn
      cases hturn
      exact ih (hgrow hm hs)

theorem not_stays_of_bad {n : ℕ} (h : Bad n (message fails s.ReadIndex s)) :
    ¬ ∃ s' stop, Ends (turn n fails) s (s', stop) ∧ stop ≠ .indexOutOfBounds ∧ Inside n s' := by
  rintro ⟨s', stop, hends, hstop, hinside⟩
  cases hm : message fails s.ReadIndex s with
  | error s₁ =>
    have hturn : turn n fails s = .inr (s₁, .indexOutOfBounds) := by rw [turn, hm]
    rw [ends_iff_of_stop hturn] at hends
    cases hends
    exact hstop rfl
  | ok p =>
    obtain ⟨ok, s₁⟩ := p
    rw [hm] at h
    cases ok with
    | false =>
      have hturn : turn n fails s = .inr (s₁, .writeFailed) := by rw [turn, hm]
      rw [ends_iff_of_stop hturn] at hends
      cases hends
      exact h false _ rfl hinside
    | true =>
      by_cases hgo : s₁.ReadIndex < n
      · have hturn : turn n fails s = .inl s₁ := by
          rw [turn, hm]
          exact if_pos hgo
        rw [ends_iff_of_goOn hturn] at hends
        rcases not_inside_of_ends hends (h true _ rfl) with hbad | hbad
        · exact hstop hbad
        · exact hbad hinside
      · have hturn : turn n fails s = .inr (s₁, .allRead) := by
          rw [turn, hm]
          exact if_neg hgo
        rw [ends_iff_of_stop hturn] at hends
        cases hends
        exact h true _ rfl hinside

theorem bad_message {n : ℕ} {i : ℤ} (h : Bad n (swapLength i s)) : Bad n (message fails i s) := by
  rw [message]
  exact bad_bind h fun _ => grows_bind (grows_deliver fails i) (grows_step i)

/-- A message without a whole header. -/
theorem At.bad_header (h : At data i d s) (hd : d.length < 3) (fails : ℕ → Option ℕ) :
    Bad data.length (Downlink.message fails i s) := by
  have hlength := h.length
  have hlen1 : (i : ℤ) + SAP_IPC_MSG_OFF_MSG_LEN + 1 = (i + 2 : ℕ) := by
    rw [Int.add_assoc]
    rfl
  refine bad_message ?_
  rw [swapLength, hlen1]
  cases hget : getByte (i + SAP_IPC_MSG_OFF_MSG_LEN) s with
  | error s₁ =>
    rw [bind_error hget]
    exact nofun
  | ok p =>
    obtain ⟨tempByte, s₁⟩ := p
    rw [bind_ok hget]
    refine bad_bind (bad_getByte (by omega) s₁) fun b => ?_
    exact grows_bind (grows_putByte _ b) fun _ => grows_putByte _ _

/-- The swap leaves the type of the message, and its length is read. -/
theorem At.bad_deliver (h : At data i (type :: lo :: hi :: rest) s)
    (hcap : data.length ≤ SAP_MAX_IPC_MSG_LEN) {fails : ℕ → Option ℕ}
    (hbad : ∀ s₁ : State, s₁.IpcMsgBuffer i = type →
      s₁.IpcMsgBuffer.getShort (i + 1) = shortOf hi lo → Bad data.length (deliver fails i s₁)) :
    Bad data.length (Downlink.message fails i s) := by
  obtain ⟨htype, hlo, hhi, -⟩ := h.bytes
  have hlength := h.length
  simp only [List.length_cons] at hlength
  rw [Downlink.message, bind_ok (swapLength_ok (by omega) s)]
  refine bad_bind (hbad _ ?_ ?_) ?_
  · rw [← htype]
    exact Buffer.swap_apply_of_lt (Nat.lt_succ_self i)
  · show (s.IpcMsgBuffer.swap (i + 1)).getShort (i + 1) = _
    rw [Buffer.getShort, Buffer.swap_apply_left, Buffer.swap_apply_right, hhi, hlo]
  · exact grows_step i

/-- A response whose payload is not there, or whose length is negative. -/
theorem At.bad_sap (h : At data i (SAP_IPC_MSG_SAP_RESPONSE :: lo :: hi :: rest) s)
    (hcap : data.length ≤ SAP_MAX_IPC_MSG_LEN)
    (hlen : shortOf hi lo < 0 ∨ rest.length < shortOf hi lo) (fails : ℕ → Option ℕ) :
    Bad data.length (Downlink.message fails i s) := by
  have hlength := h.length
  simp only [List.length_cons] at hlength
  have htypeIndex : (i : ℤ) + SAP_IPC_MSG_OFF_MSG_TYPE = (i : ℕ) := Int.add_zero _
  have hlenIndex : (i : ℤ) + SAP_IPC_MSG_OFF_MSG_LEN = (i + 1 : ℕ) := rfl
  have hmsgIndex : (i : ℤ) + SAP_IPC_MSG_OFF_MSG = (i + 3 : ℕ) := rfl
  refine h.bad_deliver hcap ?_
  intro s₁ htype hshort
  rw [deliver, htypeIndex, bind_ok (getByte_ok (by omega) s₁), htype, if_pos rfl, hlenIndex,
    bind_ok (getShort_ok (by omega) _), hmsgIndex]
  have hread : (s₁.touch [(i : ℤ)]).IpcMsgBuffer.getShort (i + 1) = shortOf hi lo := hshort
  rw [hread]
  exact bad_write (by omega) (by omega) _

/-- A control response without a byte. -/
theorem At.bad_ctrl (h : At data i [SAP_IPC_MSG_CTRL_RESPONSE, lo, hi] s)
    (hcap : data.length ≤ SAP_MAX_IPC_MSG_LEN) (fails : ℕ → Option ℕ) :
    Bad data.length (Downlink.message fails i s) := by
  have hlength := h.length
  simp only [List.length_cons, List.length_nil] at hlength
  have htypeIndex : (i : ℤ) + SAP_IPC_MSG_OFF_MSG_TYPE = (i : ℕ) := Int.add_zero _
  have hmsg (s₁ : State) : Bad data.length (getByte (i + SAP_IPC_MSG_OFF_MSG) s₁) :=
    bad_getByte (show (data.length : ℤ) ≤ (i + 3 : ℕ) by omega) s₁
  refine h.bad_deliver hcap ?_
  intro s₁ htype _
  rw [deliver, htypeIndex, bind_ok (getByte_ok (by omega) s₁), htype, if_neg (by decide),
    if_pos rfl]
  have hctrl : Bad data.length (ctrlResponse i (s₁.touch [(i : ℤ)])) := by
    rw [ctrlResponse]
    refine bad_bind (hmsg _) ?_
    exact grows_ctrlResponse_rest i
  refine bad_bind hctrl ?_
  exact fun _ => grows_pure true

/-- If the loop stays inside, then every message up to the first negative length is whole. -/
theorem framed_of_staysInside (hcap : data.length ≤ SAP_MAX_IPC_MSG_LEN) (hne : d ≠ [])
    (h : At data i d s)
    (hstays : ∃ s' stop, Ends (turn data.length fun _ => none) s (s', stop) ∧
      stop ≠ .indexOutOfBounds ∧ Inside data.length s') : Framed d ∨ MeetsNegative d := by
  induction hlen : d.length using Nat.strong_induction_on generalizing d i s with
  | _ m ih =>
    have hgood : ¬ Bad data.length (message (fun _ => none) i s) := by
      rw [← h.index]
      exact fun hbad => not_stays_of_bad hbad hstays
    match d, hne, h, hlen with
    | [type], _, h, _ => exact absurd (h.bad_header (by simp) _) hgood
    | [type, lo], _, h, _ => exact absurd (h.bad_header (by simp) _) hgood
    | type :: lo :: hi :: rest, _, h, hlen =>
      by_cases hneg : type ≠ SAP_IPC_MSG_SAP_RESPONSE ∧ shortOf hi lo < 0
      · exact .inr (.here hneg.1 hneg.2)
      have hsap (ht : type = SAP_IPC_MSG_SAP_RESPONSE) :
          0 ≤ shortOf hi lo ∧ shortOf hi lo ≤ rest.length := by
        by_contra hbad
        subst ht
        exact hgood (h.bad_sap hcap (by omega) _)
      have hctrl (ht : type = SAP_IPC_MSG_CTRL_RESPONSE) : rest ≠ [] := by
        rintro rfl
        subst ht
        exact hgood (h.bad_ctrl hcap _)
      have hnonneg : 0 ≤ shortOf hi lo := by
        by_cases ht : type = SAP_IPC_MSG_SAP_RESPONSE
        · exact (hsap ht).1
        · exact not_lt.1 fun hlt => hneg ⟨ht, hlt⟩
      by_cases hlast : rest.length ≤ shortOf hi lo
      · exact .inl (.last hlast (fun ht => by have := hsap ht; omega) hctrl)
      · -- the loop goes on with the next message
        obtain ⟨payload, rest, rfl, hpayload⟩ : ∃ payload rest', rest = payload ++ rest' ∧
            shortOf hi lo = payload.length := by
          refine ⟨rest.take (shortOf hi lo).toNat, rest.drop (shortOf hi lo).toNat,
            (List.take_append_drop _ _).symm, ?_⟩
          rw [List.length_take]
          omega
        rw [List.length_append] at hlast
        simp only [List.length_cons, List.length_append] at hlen
        have hne : rest ≠ [] := List.length_pos_iff.1 (by omega)
        obtain ⟨ok, s', hmessage, hbuffer, hindex, hinside, hout, hok⟩ :=
          h.message hcap hsap hctrl _
        have hlength := h.length
        simp only [List.length_cons, List.length_append] at hlength
        have hnext := h.next hbuffer (hpayload ▸ hindex (hok fun _ => rfl)) hinside hout
        have hturn : turn data.length (fun _ => none) s = .inl s' := by
          rw [turn, h.index, hmessage, hok fun _ => rfl]
          refine if_pos ?_
          rw [hnext.index]
          push_cast
          omega
        obtain ⟨t, stop, hends, hrun⟩ := hstays
        rw [ends_iff_of_goOn hturn] at hends
        rcases ih rest.length (by omega) hne hnext ⟨t, stop, hends, hrun⟩ rfl with hframed | hmeets
        · exact .inl (.next hpayload hne hframed)
        · exact .inr (.next hpayload hmeets)

end Walk

/-- A response of two bytes, and a control response. -/
def sampleRead : Bytes := [0x01, 0x02, 0x00, 0xAA, 0xBB, 0x03, 0x01, 0x00, 0x02]

end Downlink

end Sap

end Msm8909w
