import Msm8909w.Lib.Frames
import Msm8909w.Lib.Runs
import Msm8909w.Sap.Request

/-!
# The uplink of the SIM access service

The uplink thread of `BluetoothSapService.java` collects what it reads from RFCOMM in a buffer and,
as soon as `checkCompleteRequest` says that the buffer starts with a whole request, hands everything
in the buffer to the SAP daemon as one message.

A run of the thread is a list of reads.  `Forwarded rs input out` says of the bytes `out` written
so far that they are messages which end where a request of `rs` ends and that every request that
has been read is among them; `ForwardsWhole rs reads` says so after each of the reads.

* `step_sync` : one read, from a buffer that holds a part of a request,
* `GoodReads` : the condition on the reads, one after the other,
* `forwardsWhole_iff` : the thread forwards whole requests exactly under this condition.
-/

namespace Msm8909w

namespace Sap

def SAP_IPC_MSG_SAP_REQUEST : UInt8 := 0x00

def SAP_IPC_MSG_OFF_MSG_TYPE : ℕ := 0x00
def SAP_IPC_MSG_OFF_MSG_LEN : ℕ := 0x01
def SAP_IPC_MSG_OFF_MSG : ℕ := 0x03

def SAP_IPC_HEADER_SIZE : ℕ := 0x03

namespace Uplink

/-! ### The thread -/

structure State where
  IpcMsgBuffer : Buffer UInt8
  TotalRead : ℕ
  /-- Everything written to the daemon. -/
  out : Bytes

def start : State := { IpcMsgBuffer := fun _ => 0, TotalRead := 0, out := [] }

/-- The bytes of a read go behind those that are there. -/
def fill (s : State) (data : Bytes) : State :=
  { s with
    IpcMsgBuffer := s.IpcMsgBuffer.put (SAP_IPC_MSG_OFF_MSG + s.TotalRead) data
    TotalRead := s.TotalRead + data.length }

/-- The buffer with the header in front of what was read. -/
def withHeader (s : State) : Buffer UInt8 :=
  ((s.IpcMsgBuffer.put SAP_IPC_MSG_OFF_MSG_TYPE [SAP_IPC_MSG_SAP_REQUEST]).putShort
    SAP_IPC_MSG_OFF_MSG_LEN s.TotalRead).swap SAP_IPC_MSG_OFF_MSG_LEN

/-- Write everything in the buffer as one request. -/
def forward (s : State) : State :=
  { IpcMsgBuffer := withHeader s
    TotalRead := 0
    out := s.out ++ (withHeader s).get 0 (SAP_IPC_HEADER_SIZE + s.TotalRead) }

/-- One turn of the loop of `UplinkThread.run`: a read that returns `data`, as much as fits into
the buffer at most, and the check. -/
def step (s : State) (data : Bytes) : Option State :=
  if data ≠ [] ∧ data.length ≤ SAP_MAX_MSG_LEN - s.TotalRead then
    (checkCompleteRequest (fill s data).IpcMsgBuffer SAP_IPC_MSG_OFF_MSG
      (fill s data).TotalRead).map
      fun complete => if complete then forward (fill s data) else fill s data
  else none

/-- All runs. -/
abbrev Reads (s : State) (reads : List Bytes) (t : State) : Prop :=
  Run step (fun _ _ => True) s reads t

/-! ### What is asked for -/

/-- The requests one after another. -/
def encodeRequests (rs : List Request) : Bytes := rs.flatMap Request.encode

/-- The number of their bytes. -/
def sizeRequests (rs : List Request) : ℕ := (rs.map Request.size).sum

/-- The payloads of the messages. -/
def payloads (fs : List Frame) : Bytes := fs.flatMap Frame.payload

/-- The bytes `out` are messages to the daemon, each of which ends where a request ends, and every
request that is in `input` is in the messages. -/
def Forwarded (rs : List Request) (input out : Bytes) : Prop :=
  ∃ fs, decodeFrames 2 out = some fs ∧ (∀ f ∈ fs, f.tag = SAP_IPC_MSG_SAP_REQUEST) ∧
    (∀ gs hs, fs = gs ++ hs → ∃ k, payloads gs = encodeRequests (rs.take k)) ∧
    ∀ k, encodeRequests (rs.take k) <+: input → encodeRequests (rs.take k) <+: payloads fs

/-- The thread forwards whole requests, each as soon as it has been read, and the whole input once
all of it has been read. -/
def ForwardsWhole (rs : List Request) (reads : List Bytes) : Prop :=
  (∀ as bs t, reads = as ++ bs → Reads start as t → Forwarded rs as.flatten t.out) ∧
    ∀ t, reads.flatten = encodeRequests rs → Reads start reads t →
      ∃ fs, decodeFrames 2 t.out = some fs ∧ payloads fs = encodeRequests rs

/-- The number of whole requests among the first `q` bytes. -/
def wholeRequests : List Request → ℕ → ℕ
  | [], _ => 0
  | r :: rs, q => if r.size ≤ q then wholeRequests rs (q - r.size) + 1 else 0

/-- A read after which `q` bytes of the requests `rs` are in the buffer: if it does not complete
the first request, then this has fewer than 128 parameters or not even its header is there; if it
does, then the read ends with a request and, where this is the first one, its last parameter is
not empty. -/
def GoodRead : List Request → ℕ → Prop
  | [], _ => True
  | r :: rs, q =>
    if q < r.size then q < 4 ∨ r.params.length < 128
    else q = sizeRequests ((r :: rs).take (wholeRequests (r :: rs) q)) ∧
      (q = r.size → ¬ r.EndsEmpty)

/-- Reads of `ns` bytes, one after the other, `p` bytes of the requests being there before. -/
def GoodReads : List Request → ℕ → List ℕ → Prop
  | _, _, [] => True
  | rs, p, n :: ns =>
    GoodRead rs (p + n) ∧
      GoodReads (rs.drop (wholeRequests rs (p + n)))
        (p + n - sizeRequests (rs.take (wholeRequests rs (p + n)))) ns

variable {rs todo done : List Request} {r : Request} {q k : ℕ} {s t : State} {fs : List Frame}

@[simp] theorem sizeRequests_nil : sizeRequests [] = 0 := rfl

@[simp] theorem sizeRequests_cons : sizeRequests (r :: rs) = r.size + sizeRequests rs := by
  rw [sizeRequests, List.map_cons, List.sum_cons, sizeRequests]

theorem encodeRequests_append (rs rs' : List Request) :
    encodeRequests (rs ++ rs') = encodeRequests rs ++ encodeRequests rs' := List.flatMap_append

@[simp] theorem length_encodeRequests (rs : List Request) :
    (encodeRequests rs).length = sizeRequests rs := by
  induction rs with
  | nil => rfl
  | cons r rs ih =>
    rw [encodeRequests, List.flatMap_cons, List.length_append, Request.length_encode,
      sizeRequests_cons]
    exact congrArg (r.size + ·) ih

theorem sizeRequests_append (rs rs' : List Request) :
    sizeRequests (rs ++ rs') = sizeRequests rs + sizeRequests rs' := by
  rw [sizeRequests, List.map_append, List.sum_append, sizeRequests, sizeRequests]

theorem size_pos (r : Request) : 0 < r.size := Nat.lt_of_lt_of_le (by decide) (Nat.le_add_right 4 _)

/-- The bytes up to the end of a request are whole requests. -/
theorem take_encodeRequests (rs : List Request) (k : ℕ) :
    (encodeRequests rs).take (sizeRequests (rs.take k)) = encodeRequests (rs.take k) := by
  have hsplit : encodeRequests rs = encodeRequests (rs.take k) ++ encodeRequests (rs.drop k) := by
    rw [← encodeRequests_append, List.take_append_drop]
  rw [hsplit]
  exact List.take_left' (length_encodeRequests _)

theorem wholeRequests_of_lt (h : q < r.size) : wholeRequests (r :: rs) q = 0 := if_neg (by omega)

theorem wholeRequests_of_le (h : r.size ≤ q) :
    wholeRequests (r :: rs) q = wholeRequests rs (q - r.size) + 1 := if_pos h

/-- A position where a request ends is the end of the requests before it. -/
theorem eq_size_take_whole (h : q = sizeRequests (rs.take k)) :
    q = sizeRequests (rs.take (wholeRequests rs q)) := by
  induction rs generalizing q k with
  | nil => simpa using h
  | cons r rs ih =>
    cases k with
    | zero =>
      rw [List.take_zero, sizeRequests_nil] at h
      rw [h, wholeRequests_of_lt (size_pos r), List.take_zero, sizeRequests_nil]
    | succ k =>
      rw [List.take_succ_cons, sizeRequests_cons] at h
      have hq : q - r.size = sizeRequests (rs.take k) := by omega
      have := ih hq
      rw [wholeRequests_of_le (by omega), List.take_succ_cons, sizeRequests_cons]
      omega

/-! ### Between two reads -/

/-- The buffer holds the first `p` bytes of the requests that are still to be forwarded, which is
less than the first of them. -/
structure Sync (s : State) (todo : List Request) (p : ℕ) : Prop where
  total : s.TotalRead = p
  bytes : s.IpcMsgBuffer.get SAP_IPC_MSG_OFF_MSG p = (encodeRequests todo).take p
  part : ∀ r ∈ todo.head?, p < r.size
  le : p ≤ sizeRequests todo

/-- The messages `fs` have been written, each of which ends with one of the requests `done`. -/
structure Sent (s : State) (done : List Request) (fs : List Frame) : Prop where
  out : s.out = encodeFrames 2 fs
  length : ∀ f ∈ fs, f.payload.length < 256 ^ 2
  tag : ∀ f ∈ fs, f.tag = SAP_IPC_MSG_SAP_REQUEST
  ends : ∀ gs hs, fs = gs ++ hs → ∃ k, payloads gs = encodeRequests (done.take k)
  payloads : payloads fs = encodeRequests done

theorem sync_start (rs : List Request) : Sync start rs 0 :=
  ⟨rfl, rfl, fun r _ => size_pos r, Nat.zero_le _⟩

theorem sent_start : Sent start [] [] := by
  refine ⟨rfl, by simp, by simp, fun gs hs h => ⟨0, ?_⟩, rfl⟩
  rw [(List.append_eq_nil_iff.1 h.symm).1]
  rfl

theorem take_of_done (done todo : List Request) (k : ℕ) :
    ∃ j, done.take k = (done ++ todo).take j :=
  ⟨min k done.length, by rw [List.take_append_of_le_length (min_le_right _ _),
    ← List.take_eq_take_min]⟩

/-- Where only a part of a request is left in the buffer, all is well. -/
theorem forwarded_of_sent (hs : Sent s done fs) (hpart : ∀ r ∈ todo.head?, q < r.size) :
    Forwarded (done ++ todo) (encodeRequests done ++ (encodeRequests todo).take q) s.out := by
  refine ⟨fs, (decodeFrames_eq_some_iff hs.length).2 hs.out, hs.tag, fun gs hs' h => ?_, fun k hk =>
    ?_⟩
  · obtain ⟨k, hk⟩ := hs.ends gs hs' h
    obtain ⟨j, hj⟩ := take_of_done done todo k
    exact ⟨j, hj ▸ hk⟩
  · rw [hs.payloads]
    rcases Nat.lt_or_ge done.length k with hlt | hle
    swap
    · rw [List.take_append_of_le_length hle]
      conv_rhs => rw [← List.take_append_drop k done, encodeRequests_append]
      exact List.prefix_append _ _
    · -- a further request does not fit into the bytes that have been read
      cases todo with
      | nil =>
        have hnil : (done ++ []).take k = done := by
          rw [List.append_nil, List.take_of_length_le hlt.le]
        exact ⟨[], by rw [hnil, List.append_nil]⟩
      | cons r todo =>
        have hlen := hk.length_le
        have hq : q < r.size := hpart r rfl
        obtain ⟨j, hj⟩ := Nat.exists_eq_add_of_lt hlt
        rw [List.take_append, List.take_of_length_le hlt.le, encodeRequests_append,
          List.length_append, List.length_append, length_encodeRequests, length_encodeRequests,
          List.length_take, show k - done.length = j + 1 by omega, List.take_succ_cons,
          sizeRequests_cons] at hlen
        omega

/-- A request that has been read is missing. -/
theorem not_forwarded_of_missing (hs : Sent s done fs) (hle : r.size ≤ q) :
    ¬ Forwarded (done ++ r :: todo) (encodeRequests done ++ (encodeRequests (r :: todo)).take q)
      s.out := by
  rintro ⟨gs, hdec, -, -, hall⟩
  rw [(decodeFrames_eq_some_iff hs.length).2 hs.out] at hdec
  obtain rfl := Option.some.inj hdec
  have htake : (done ++ r :: todo).take (done.length + 1) = done ++ [r] := by
    rw [List.take_length_add_append]
    rfl
  have hpre := hall (done.length + 1)
  rw [htake, encodeRequests_append, hs.payloads] at hpre
  have hr : encodeRequests [r] <+: (encodeRequests (r :: todo)).take q := by
    rw [encodeRequests, encodeRequests, List.flatMap_singleton, List.flatMap_cons,
      List.take_append, List.take_of_length_le (by rw [Request.length_encode]; exact hle)]
    exact List.prefix_append _ _
  have hlen := (hpre ((List.prefix_append_right_inj _).2 hr)).length_le
  have hpos := size_pos r
  rw [List.length_append, length_encodeRequests, length_encodeRequests, sizeRequests_cons] at hlen
  omega

/-- A message that does not end with a request. -/
theorem not_forwarded_of_off (hs : Sent s done fs) {input x : Bytes} (hx : x.length < 256 ^ 2)
    (hoff : ∀ k, x.length ≠ sizeRequests (todo.take k)) :
    ¬ Forwarded (done ++ todo) input
      (s.out ++ Frame.encode 2 ⟨SAP_IPC_MSG_SAP_REQUEST, x⟩) := by
  rintro ⟨gs, hdec, -, hends, -⟩
  have hout : s.out ++ Frame.encode 2 ⟨SAP_IPC_MSG_SAP_REQUEST, x⟩ =
      encodeFrames 2 (fs ++ [⟨SAP_IPC_MSG_SAP_REQUEST, x⟩]) := by
    rw [encodeFrames_append, hs.out]
    simp [encodeFrames]
  have hlen : ∀ f ∈ fs ++ [⟨SAP_IPC_MSG_SAP_REQUEST, x⟩], f.payload.length < 256 ^ 2 := by
    rw [List.forall_mem_append, List.forall_mem_singleton]
    exact ⟨hs.length, hx⟩
  rw [(decodeFrames_eq_some_iff hlen).2 hout] at hdec
  obtain rfl := Option.some.inj hdec
  obtain ⟨k, hk⟩ := hends _ [] (List.append_nil _).symm
  have hl := congrArg List.length hk
  rw [payloads, List.flatMap_append, List.flatMap_singleton, ← payloads, hs.payloads,
    List.length_append, length_encodeRequests, length_encodeRequests, List.take_append,
    sizeRequests_append] at hl
  rcases Nat.lt_or_ge done.length k with hlt | hle
  · rw [List.take_of_length_le hlt.le] at hl
    exact hoff _ (Nat.add_left_cancel hl)
  · have hsplit := sizeRequests_append (done.take k) (done.drop k)
    rw [List.take_append_drop] at hsplit
    rw [Nat.sub_eq_zero_of_le hle, List.take_zero, sizeRequests_nil] at hl
    have hl' : sizeRequests done + x.length = sizeRequests (done.take k) + 0 := hl
    refine hoff 0 ?_
    rw [List.take_zero, sizeRequests_nil]
    omega

/-! ### One read -/

/-- What a read does to a buffer that holds a part of a request. -/
theorem step_sync {p : ℕ} {data : Bytes} (hsync : Sync s (r :: todo) p)
    (hpre : data <+: (encodeRequests (r :: todo)).drop p) (hstep : step s data = some t) :
    (encodeRequests (r :: todo)).take (p + data.length) = (encodeRequests (r :: todo)).take p ++
      data ∧
      0 < data.length ∧ p + data.length ≤ SAP_MAX_MSG_LEN ∧
      (r.needed ≤ p + data.length ∧ t.TotalRead = 0 ∧
          t.out = s.out ++ Frame.encode 2
            ⟨SAP_IPC_MSG_SAP_REQUEST, (encodeRequests (r :: todo)).take (p + data.length)⟩ ∨
        p + data.length < r.needed ∧ t.TotalRead = p + data.length ∧
          t.IpcMsgBuffer.get SAP_IPC_MSG_OFF_MSG (p + data.length) =
            (encodeRequests (r :: todo)).take (p + data.length) ∧ t.out = s.out) := by
  have htotal := hsync.total
  obtain ⟨rest, hrest⟩ := hpre
  have htake : (encodeRequests (r :: todo)).take (p + data.length) =
      (encodeRequests (r :: todo)).take p ++ data := by
    rw [List.take_add, ← hrest, List.take_left]
  have hget : (fill s data).IpcMsgBuffer.get SAP_IPC_MSG_OFF_MSG (p + data.length) =
      (encodeRequests (r :: todo)).take (p + data.length) := by
    rw [htake, Buffer.get_add, ← hsync.bytes]
    simp only [fill, htotal, Buffer.get_put_same]
    rw [Buffer.get_put_of_disjoint (.inl le_rfl)]
  have hcheck : checkCompleteRequest (fill s data).IpcMsgBuffer SAP_IPC_MSG_OFF_MSG
      (p + data.length) = some (decide (r.needed ≤ p + data.length)) := by
    rw [encodeRequests, List.flatMap_cons] at hget
    exact checkCompleteRequest_eq hget
  rw [step] at hstep
  split_ifs at hstep with hc
  have hdata : 0 < data.length := List.length_pos_iff.2 hc.1
  have hmax : p + data.length ≤ SAP_MAX_MSG_LEN := by omega
  have hfill : (fill s data).TotalRead = p + data.length := by rw [fill, htotal]
  rw [hfill, hcheck, Option.map_some] at hstep
  refine ⟨htake, hdata, hmax, ?_⟩
  obtain rfl := Option.some.inj hstep
  by_cases hneed : r.needed ≤ p + data.length
  · rw [if_pos (decide_eq_true hneed)]
    refine .inl ⟨hneed, rfl, ?_⟩
    rw [← hget, ← hfill]
    exact congrArg (s.out ++ ·) get_frame
  · rw [decide_eq_false hneed, if_neg Bool.false_ne_true]
    exact .inr ⟨Nat.lt_of_not_le hneed, hfill, hget, rfl⟩

theorem size_take_whole_le (rs : List Request) (q : ℕ) :
    sizeRequests (rs.take (wholeRequests rs q)) ≤ q := by
  induction rs generalizing q with
  | nil => exact Nat.zero_le q
  | cons r rs ih =>
    rcases Nat.lt_or_ge q r.size with hlt | hle
    · rw [wholeRequests_of_lt hlt]
      exact Nat.zero_le q
    · have := ih (q - r.size)
      rw [wholeRequests_of_le hle, List.take_succ_cons, sizeRequests_cons]
      omega

/-- The first `q` bytes are the whole requests among them and a part of the next. -/
theorem take_eq_whole (todo : List Request) (q : ℕ) :
    (encodeRequests todo).take q = encodeRequests (todo.take (wholeRequests todo q)) ++
      (encodeRequests (todo.drop (wholeRequests todo q))).take
        (q - sizeRequests (todo.take (wholeRequests todo q))) := by
  have hle := size_take_whole_le todo q
  conv_lhs => rw [← List.take_append_drop (wholeRequests todo q) todo, encodeRequests_append]
  rw [List.take_append, length_encodeRequests, List.take_of_length_le]
  rwa [length_encodeRequests]

theorem Sent.of_out (hs : Sent s done fs) (h : t.out = s.out) : Sent t done fs :=
  ⟨h.trans hs.out, hs.length, hs.tag, hs.ends, hs.payloads⟩

/-- A message with whole requests. -/
theorem sent_forward {rs : List Request} (hs : Sent s done fs)
    (hlen : sizeRequests rs < 256 ^ 2)
    (hout : t.out = s.out ++ Frame.encode 2 ⟨SAP_IPC_MSG_SAP_REQUEST, encodeRequests rs⟩) :
    Sent t (done ++ rs) (fs ++ [⟨SAP_IPC_MSG_SAP_REQUEST, encodeRequests rs⟩]) := by
  have hpay : payloads (fs ++ [⟨SAP_IPC_MSG_SAP_REQUEST, encodeRequests rs⟩]) =
      encodeRequests (done ++ rs) := by
    rw [payloads, List.flatMap_append, List.flatMap_singleton, ← payloads, hs.payloads,
      encodeRequests_append]
  refine ⟨?_, ?_, ?_, fun gs hs' h => ?_, hpay⟩
  · rw [hout, hs.out, encodeFrames_append]
    simp [encodeFrames]
  · rw [List.forall_mem_append, List.forall_mem_singleton]
    exact ⟨hs.length, by rwa [length_encodeRequests]⟩
  · rw [List.forall_mem_append, List.forall_mem_singleton]
    exact ⟨hs.tag, rfl⟩
  · -- the last message is among those up to `gs`, or `gs` was written before
    rcases List.eq_nil_or_concat hs' with rfl | ⟨hs'', f, rfl⟩
    · rw [List.append_nil] at h
      exact ⟨(done ++ rs).length, by rw [← h, hpay, List.take_length]⟩
    · rw [List.concat_eq_append, ← List.append_assoc] at h
      obtain ⟨k, hk⟩ := hs.ends gs hs'' (List.append_inj' h rfl).1
      obtain ⟨j, hj⟩ := take_of_done done rs k
      exact ⟨j, hj ▸ hk⟩

theorem not_boundary_of_lt (hpos : 0 < q) (hlt : q < r.size) (k : ℕ) :
    q ≠ sizeRequests ((r :: todo).take k) := by
  cases k with
  | zero => rw [List.take_zero, sizeRequests_nil]; omega
  | succ k => rw [List.take_succ_cons, sizeRequests_cons]; omega

theorem add_length_le {p : ℕ} {data : Bytes} (hsync : Sync s todo p)
    (hpre : data <+: (encodeRequests todo).drop p) : p + data.length ≤ sizeRequests todo := by
  have hlen := hpre.length_le
  rw [List.length_drop, length_encodeRequests] at hlen
  have := hsync.le
  omega

/-- A good read leaves a part of a request in the buffer, everything before it being forwarded. -/
theorem sync_of_good {p : ℕ} {data : Bytes} (hsync : Sync s (r :: todo) p) (hsent : Sent s done fs)
    (hpre : data <+: (encodeRequests (r :: todo)).drop p) (hstep : step s data = some t)
    (hgood : GoodRead (r :: todo) (p + data.length)) :
    Sync t ((r :: todo).drop (wholeRequests (r :: todo) (p + data.length)))
        (p + data.length -
          sizeRequests ((r :: todo).take (wholeRequests (r :: todo) (p + data.length)))) ∧
      ∃ fs', Sent t (done ++ (r :: todo).take (wholeRequests (r :: todo) (p + data.length)))
        fs' := by
  obtain ⟨htake, hpos, hmax, hcases⟩ := step_sync hsync hpre hstep
  have hle := add_length_le hsync hpre
  rw [GoodRead] at hgood
  split_ifs at hgood with hlt
  · -- only a part of the first request is there
    have hneed := (lt_needed_iff hlt).2 hgood
    obtain ⟨h, -⟩ | ⟨-, htotal, hget, hout⟩ := hcases
    · omega
    rw [wholeRequests_of_lt hlt, List.drop_zero, List.take_zero, sizeRequests_nil, Nat.sub_zero,
      List.append_nil]
    refine ⟨⟨htotal, hget, fun r' hr' => ?_, hle⟩, fs, hsent.of_out hout⟩
    obtain rfl : r = r' := Option.some.inj hr'
    exact hlt
  · have hneed := (needed_le_iff (Nat.le_of_not_lt hlt)).2 hgood.2
    obtain ⟨-, htotal, hout⟩ | ⟨h, -⟩ := hcases
    swap
    · omega
    rw [← hgood.1, Nat.sub_self]
    refine ⟨⟨htotal, rfl, fun r' _ => size_pos r', Nat.zero_le _⟩, _, sent_forward hsent ?_ ?_⟩
    · rw [← hgood.1]
      exact lt_of_le_of_lt hmax (by decide)
    · rw [hout, ← take_encodeRequests, ← hgood.1]

/-- After a bad read a request is missing, or a message does not end with a request. -/
theorem not_forwarded_of_bad {p : ℕ} {data : Bytes} (hsync : Sync s (r :: todo) p)
    (hsent : Sent s done fs) (hpre : data <+: (encodeRequests (r :: todo)).drop p)
    (hstep : step s data = some t) (hbad : ¬ GoodRead (r :: todo) (p + data.length)) :
    ¬ Forwarded (done ++ r :: todo)
      (encodeRequests done ++ (encodeRequests (r :: todo)).take (p + data.length)) t.out := by
  obtain ⟨htake, hpos, hmax, hcases⟩ := step_sync hsync hpre hstep
  have hle := add_length_le hsync hpre
  have hlen : ((encodeRequests (r :: todo)).take (p + data.length)).length = p + data.length := by
    rw [List.length_take, length_encodeRequests]
    omega
  have hshort : ((encodeRequests (r :: todo)).take (p + data.length)).length < 256 ^ 2 := by
    rw [hlen]
    exact lt_of_le_of_lt hmax (by decide)
  rw [GoodRead] at hbad
  split_ifs at hbad with hlt
  · -- a part of a request is forwarded
    obtain ⟨-, -, hout⟩ | ⟨h, -⟩ := hcases
    · rw [hout]
      refine not_forwarded_of_off hsent hshort fun k => ?_
      rw [hlen]
      exact not_boundary_of_lt (by omega) hlt k
    · exact absurd ((lt_needed_iff hlt).1 h) hbad
  · obtain ⟨hneed, -, hout⟩ | ⟨-, -, -, hout⟩ := hcases
    · -- what is forwarded ends inside a request
      rw [hout]
      refine not_forwarded_of_off hsent hshort fun k hk => hbad ⟨?_, ?_⟩
      · rw [hlen] at hk
        exact eq_size_take_whole hk
      · exact (needed_le_iff (Nat.le_of_not_lt hlt)).1 hneed
    · rw [hout]
      exact not_forwarded_of_missing hsent (Nat.le_of_not_lt hlt)

/-! ### All reads -/

theorem ne_nil_of_step {data : Bytes} (h : step s data = some t) : data ≠ [] := by
  rintro rfl
  simp [step] at h

/-- What is still to be read, behind the whole requests. -/
theorem prefix_drop_whole {p : ℕ} {data x : Bytes}
    (h : data ++ x <+: (encodeRequests todo).drop p) :
    x <+: (encodeRequests (todo.drop (wholeRequests todo (p + data.length)))).drop
      (p + data.length - sizeRequests (todo.take (wholeRequests todo (p + data.length)))) := by
  have hle := size_take_whole_le todo (p + data.length)
  have hsplit : encodeRequests todo =
      encodeRequests (todo.take (wholeRequests todo (p + data.length))) ++
        encodeRequests (todo.drop (wholeRequests todo (p + data.length))) := by
    rw [← encodeRequests_append, List.take_append_drop]
  have hdrop : x <+: (encodeRequests todo).drop (p + data.length) := by
    obtain ⟨y, hy⟩ := h
    refine ⟨y, ?_⟩
    rw [← List.drop_drop, ← hy, List.append_assoc, List.drop_left]
  rw [hsplit, List.drop_append, List.drop_of_length_le (by rwa [length_encodeRequests]),
    length_encodeRequests, List.nil_append] at hdrop
  exact hdrop

/-- The requests are read and forwarded as they should be, from a buffer that holds a part of a
request on, exactly if the reads are good. -/
theorem forwarded_iff {reads : List Bytes} {p : ℕ} (hsync : Sync s todo p) (hsent : Sent s done fs)
    (hpre : reads.flatten <+: (encodeRequests todo).drop p) (hrun : Reads s reads t) :
    (∀ as bs u, reads = as ++ bs → Reads s as u →
        Forwarded (done ++ todo)
          (encodeRequests done ++ (encodeRequests todo).take p ++ as.flatten) u.out) ↔
      GoodReads todo p (reads.map List.length) := by
  have hstart := forwarded_of_sent (q := p) hsent hsync.part
  induction hrun generalizing todo done fs p with
  | nil s =>
    refine iff_of_true (fun as bs u h hu => ?_) trivial
    obtain rfl : as = [] := (List.append_eq_nil_iff.1 h.symm).1
    cases hu
    rw [List.flatten_nil, List.append_nil]
    exact hstart
  | @cons s v t data reads hG hstep _ ih =>
    rw [List.flatten_cons] at hpre
    have hdata : data <+: (encodeRequests todo).drop p := (List.prefix_append _ _).trans hpre
    cases todo with
    | nil =>
      rw [encodeRequests, List.flatMap_nil, List.drop_nil] at hdata
      exact absurd (List.prefix_nil.1 hdata) (ne_nil_of_step hstep)
    | cons r todo =>
      obtain ⟨htake, -, -, -⟩ := step_sync hsync hdata hstep
      -- the runs from here on are the empty one and those that start with this read
      have hcons : (∀ as bs u, data :: reads = as ++ bs → Reads s as u →
            Forwarded (done ++ r :: todo)
              (encodeRequests done ++ (encodeRequests (r :: todo)).take p ++ as.flatten) u.out) ↔
          ∀ as bs u, reads = as ++ bs → Reads v as u →
            Forwarded (done ++ r :: todo)
              (encodeRequests done ++ (encodeRequests (r :: todo)).take (p + data.length) ++
                as.flatten) u.out := by
        rw [htake]
        constructor
        · intro h as bs u has hu
          have := h (data :: as) bs u (by rw [has, List.cons_append]) (.cons trivial hstep hu)
          simpa only [List.flatten_cons, List.append_assoc] using this
        · intro h as bs u has hu
          cases as with
          | nil =>
            cases hu
            rw [List.flatten_nil, List.append_nil]
            exact hstart
          | cons d as =>
            obtain ⟨rfl, hrest⟩ := List.cons.inj has
            cases hu with
            | cons _ hd hu =>
              obtain rfl := Option.some.inj (hstep.symm.trans hd)
              simpa only [List.flatten_cons, List.append_assoc] using h as bs u hrest hu
      rw [hcons, List.map_cons, GoodReads]
      by_cases hgood : GoodRead (r :: todo) (p + data.length)
      · obtain ⟨hsync', fs', hsent'⟩ := sync_of_good hsync hsent hdata hstep hgood
        have hwhole := take_eq_whole (r :: todo) (p + data.length)
        have hpre' := prefix_drop_whole hpre
        have hiff := ih hsync' hsent' hpre' (forwarded_of_sent hsent' hsync'.part)
        rw [List.append_assoc, List.take_append_drop, encodeRequests_append,
          List.append_assoc (encodeRequests done), ← hwhole] at hiff
        exact hiff.trans (and_iff_right hgood).symm
      · refine iff_of_false (fun h => ?_) (fun h => hgood h.1)
        have := h [] reads v rfl (.nil v)
        rw [List.flatten_nil, List.append_nil] at this
        exact not_forwarded_of_bad hsync hsent hdata hstep hgood this

/-- Once everything has been read and forwarded, the messages are the input. -/
theorem payloads_of_forwarded {out : Bytes} (h : Forwarded rs (encodeRequests rs) out) :
    ∃ fs, decodeFrames 2 out = some fs ∧ payloads fs = encodeRequests rs := by
  obtain ⟨fs, hdec, -, hends, hall⟩ := h
  obtain ⟨k, hk⟩ := hends fs [] (List.append_nil fs).symm
  have hpre := hall rs.length
  rw [List.take_length] at hpre
  have hfull := hpre List.prefix_rfl
  refine ⟨fs, hdec, (hfull.eq_of_length_le ?_).symm⟩
  rw [hk, length_encodeRequests, length_encodeRequests]
  have hsplit := sizeRequests_append (rs.take k) (rs.drop k)
  rw [List.take_append_drop] at hsplit
  omega

/-- The thread forwards whole requests, each as soon as it has been read, exactly if the reads are
good: no read that completes a request stops inside another one, no read stops inside a request of
128 parameters or more after its header, and no read completes just one request that ends with an
empty parameter. -/
theorem forwardsWhole_iff {reads : List Bytes} (hpre : reads.flatten <+: encodeRequests rs)
    (hrun : Reads start reads t) :
    ForwardsWhole rs reads ↔ GoodReads rs 0 (reads.map List.length) := by
  have hiff := forwarded_iff (sync_start rs) sent_start hpre hrun
  rw [← hiff, ForwardsWhole]
  refine ⟨fun h => h.1, fun h => ⟨h, fun u hall hu => ?_⟩⟩
  have hlast := h reads [] u (List.append_nil _).symm hu
  refine payloads_of_forwarded ?_
  rw [← hall]
  exact hlast

instance decidableGoodRead : ∀ (rs : List Request) (q : ℕ), Decidable (GoodRead rs q)
  | [], _ => inferInstanceAs (Decidable True)
  | r :: _, q => inferInstanceAs (Decidable (if q < r.size then _ else _))

instance decidableGoodReads : ∀ (rs : List Request) (p : ℕ) (ns : List ℕ),
    Decidable (GoodReads rs p ns)
  | _, _, [] => inferInstanceAs (Decidable True)
  | rs, p, n :: ns =>
    have := decidableGoodReads (rs.drop (wholeRequests rs (p + n)))
      (p + n - sizeRequests (rs.take (wholeRequests rs (p + n)))) ns
    inferInstanceAs (Decidable (_ ∧ _))

/-- A request with one parameter of three bytes, and one without. -/
def sampleRequests : List Request :=
  [{ msgId := 5, reserved := (0, 0),
     params := [⟨4, 0, [1, 2, 3], [0], by decide, by decide⟩],
     length_params := by decide, size_le := by decide },
   { msgId := 2, reserved := (0, 0), params := [], length_params := by decide,
     size_le := by decide }]

/-- The first read stops inside the parameter, the second brings all of the rest. -/
def sampleReads : List Bytes :=
  [[5, 1, 0, 0, 4], [0, 0, 3, 1, 2, 3, 0, 2, 0, 0, 0]]

theorem forwardsWhole_two_reads :
    (∃ t, Reads start sampleReads t ∧
      t.out = [0, 16, 0, 5, 1, 0, 0, 4, 0, 0, 3, 1, 2, 3, 0, 2, 0, 0, 0]) ∧
    ForwardsWhole sampleRequests sampleReads := by
  have hexec : (exec step (fun _ _ => True) start sampleReads).map State.out =
      some [0, 16, 0, 5, 1, 0, 0, 4, 0, 0, 3, 1, 2, 3, 0, 2, 0, 0, 0] := by decide
  obtain ⟨t, ht, hout⟩ := exists_run_of_exec hexec
  have hpre : sampleReads.flatten <+: encodeRequests sampleRequests := by decide
  exact ⟨⟨t, ht, hout⟩, (forwardsWhole_iff hpre ht).2 (by decide)⟩

/-- A request whose only parameter is empty. -/
def emptyParamRequest : Request :=
  { msgId := 5, reserved := (0, 0), params := [⟨4, 0, [], [], by decide, by decide⟩],
    length_params := by decide, size_le := by decide }

/-- A request with an empty last parameter, read in one piece, is not forwarded. -/
theorem empty_param_not_forwarded :
    (∃ t, Reads start [emptyParamRequest.encode] t ∧ t.out = []) ∧
      ¬ ForwardsWhole [emptyParamRequest] [emptyParamRequest.encode] := by
  have hexec : (exec step (fun _ _ => True) start [emptyParamRequest.encode]).map State.out =
      some [] := by decide
  obtain ⟨t, ht, hout⟩ := exists_run_of_exec hexec
  refine ⟨⟨t, ht, hout⟩, fun h => ?_⟩
  obtain ⟨fs, hdec, hpay⟩ := h.2 t (by decide) ht
  rw [hout] at hdec
  obtain rfl := Option.some.inj hdec
  exact absurd hpay (by decide)

end Uplink

end Sap

end Msm8909w
