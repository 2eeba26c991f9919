import Msm8909w.Lib.Bytes
import Msm8909w.Lib.Loop
import Msm8909w.LocApi.Requests

/-!
# XTRA data

`setXtraData` cuts the data into parts and injects them one after the other.  The loop counts the
parts in 16 bits and goes on after a part that was not accepted, with the bytes of that part; the
result is that of the last request.

* `XtraCall.turn` : one turn of the loop, whatever the modem makes of each part,
* `XtraCall.injected_le` : no byte outside the data is read,
* `XtraCall.arrivesWhole_iff` : the data arrives whole, or an error is returned, exactly if the
  number of parts suits the loop, every part but the last is accepted, and so is the last one unless
  its request fails.
-/

namespace Msm8909w

namespace LocApi

open LocSync (Status)

/-- `QMI_LOC_MAX_PREDICTED_ORBITS_PART_LEN_V02`. -/
def maxPartLen : ℕ := 1024

/-- `qmiLocPredictedOrbitsDataFormatEnumT_v02`. -/
inductive OrbitsFormat
  | xtra
  deriving DecidableEq, Repr

/-- `qmiLocInjectPredictedOrbitsDataReqMsgT_v02`; `partData_len` is the length of `partData`. -/
structure InjectReq where
  totalSize : ℕ
  totalParts : ℕ
  partNum : ℕ
  partData : Bytes
  formatType : Option OrbitsFormat
  deriving DecidableEq, Repr

/-- `qmiLocInjectPredictedOrbitsDataIndMsgT_v02`. -/
structure InjectInd where
  status : QmiStatus
  partNum : ℕ
  deriving DecidableEq, Repr

/-- A part that has been sent. -/
structure Part where
  req : InjectReq
  /-- The bytes that `memcpy` reads: where they begin, and how many they are. -/
  start : ℕ
  len : ℕ
  accepted : Bool
  deriving DecidableEq, Repr

/-- A call of `setXtraData`. -/
structure XtraCall where
  isOpen : Bool
  data : Bytes
  /-- What happens to the requests, in the order in which they are sent. -/
  outcome : ℕ → Exchange InjectInd

/-- The variables of the loop. -/
structure Injecting where
  part : ℕ := 1
  lenInjected : ℕ := 0
  status : Status := .success
  sent : List Part := []
  deriving DecidableEq, Repr

namespace XtraCall

variable (x : XtraCall)

/-- The argument `length`. -/
abbrev length : ℕ := x.data.length

/-- `total_parts`, a `uint16_t`. -/
def totalParts : ℕ := ((x.length - 1) / maxPartLen + 1) % 2 ^ 16

/-- `partData_len`; the difference is one of 32 bits without a sign. -/
def partDataLen (lenInjected : ℕ) : ℕ :=
  let left := (x.length + 2 ^ 32 - lenInjected) % 2 ^ 32
  if maxPartLen > left then left else maxPartLen

/-- The status and the indication of a request. -/
def reply (i : ℕ) : Status × InjectInd := locSyncSendReq x.isOpen (x.outcome i) ⟨.success, 0⟩

/-- The indication says that the part has been injected. -/
def accepts (i part : ℕ) : Bool :=
  !(decide ((x.reply i).1 ≠ .success) || decide (QmiStatus.success ≠ (x.reply i).2.status) ||
    decide (part ≠ (x.reply i).2.partNum))

/-- The body of the loop. -/
def injectPart (s : Injecting) : Injecting :=
  let len := x.partDataLen s.lenInjected
  let i := s.sent.length
  let accepted := x.accepts i s.part
  { part := (s.part + 1) % 2 ^ 16
    lenInjected := if accepted then (s.lenInjected + len) % 2 ^ 32 else s.lenInjected
    status := (x.reply i).1
    sent := s.sent ++
      [⟨⟨x.length, x.totalParts, s.part, slice x.data s.lenInjected len, some .xtra⟩,
        s.lenInjected, len, accepted⟩] }

/-- One turn of the loop of `setXtraData`, which ends with the result and the parts sent. -/
def turn (s : Injecting) : Injecting ⊕ AdapterErr × List Part :=
  if s.part ≤ x.totalParts then .inl (x.injectPart s) else .inr (convertErr s.status, s.sent)

/-- The number of parts that the data has. -/
def numParts : ℕ := (x.length + 1023) / 1024

/-- What the parts sent, and the result, say about the data. -/
structure Whole (r : AdapterErr × List Part) : Prop where
  start : ∀ p ∈ r.2, p.start = (p.req.partNum - 1) * 1024
  stop : ∀ p ∈ r.2, p.start + p.len = min (p.req.partNum * 1024) x.length
  bytes : ∀ p ∈ r.2, p.req.partData = slice x.data p.start p.len
  inside : ∀ p ∈ r.2, p.start + p.len ≤ x.length
  all : r.1 = .success → (r.2.filter (·.accepted)).map (·.req.partNum) = List.range' 1 x.numParts
  concat : r.1 = .success → (r.2.filter (·.accepted)).flatMap (·.req.partData) = x.data

/-- The loop ends, and the data has arrived whole unless an error is returned. -/
def ArrivesWhole : Prop := ∃ r, Ends x.turn {} r ∧ x.Whole r

/-- What has to be true of the length and of the outcomes; with `n` parts, the code counts to
`n % 65536`. -/
structure Favourable : Prop where
  /-- The loop is entered. -/
  some_part : x.numParts % 65536 ≠ 0
  /-- The counter can pass the number of parts. -/
  not_last : x.numParts % 65536 ≠ 65535
  /-- Every part before the last one is accepted. -/
  before : ∀ i, i + 1 < x.numParts % 65536 → x.accepts i (i + 1) = true
  /-- The last request fails, or the last part is accepted and is the last one of the data. -/
  last : (x.reply (x.numParts % 65536 - 1)).1 = .success → x.numParts < 65536 ∧
    x.accepts (x.numParts % 65536 - 1) (x.numParts % 65536) = true

variable {x}

/-! ### The loop -/

/-- How much has been accepted before a part. -/
def injected (x : XtraCall) : ℕ → ℕ
  | 0 => 0
  | i + 1 => x.injected i +
      if x.accepts i (i + 1) then min 1024 (x.length - x.injected i) else 0

/-- Nothing outside the data is read. -/
theorem injected_le (i : ℕ) : x.injected i ≤ x.length := by
  induction i with
  | zero => exact Nat.zero_le _
  | succ i ih =>
    rw [injected]
    split_ifs <;> omega

theorem partDataLen_eq (hlt : x.length < 2 ^ 31) {n : ℕ} (hle : n ≤ x.length) :
    x.partDataLen n = min 1024 (x.length - n) := by
  have hleft : (x.length + 2 ^ 32 - n) % 2 ^ 32 = x.length - n := by omega
  rw [partDataLen, hleft, maxPartLen]
  split_ifs <;> omega

theorem totalParts_eq (hpos : 0 < x.length) : x.totalParts = x.numParts % 65536 := by
  have hparts : (x.length - 1) / 1024 + 1 = (x.length + 1023) / 1024 := by omega
  rw [totalParts, maxPartLen, hparts]
  rfl

/-- The status before a part. -/
def statusBefore (x : XtraCall) : ℕ → Status
  | 0 => .success
  | i + 1 => (x.reply i).1

/-- The part sent by a turn. -/
def partAt (x : XtraCall) (i : ℕ) : Part :=
  ⟨⟨x.length, x.totalParts, i + 1,
      slice x.data (x.injected i) (min 1024 (x.length - x.injected i)), some .xtra⟩,
    x.injected i, min 1024 (x.length - x.injected i), x.accepts i (i + 1)⟩

/-- The variables after `k` turns. -/
theorem iterate_injectPart (hlt : x.length < 2 ^ 31) {k : ℕ} (hk : k < 65535) :
    x.injectPart^[k] {} = ⟨k + 1, x.injected k, x.statusBefore k,
      (List.range k).map x.partAt⟩ := by
  induction k with
  | zero => rfl
  | succ k ih =>
    have hle := x.injected_le k
    have hpart : (k + 1 + 1) % 2 ^ 16 = k + 1 + 1 := by omega
    have hinj : (if x.accepts k (k + 1) then
        (x.injected k + min 1024 (x.length - x.injected k)) % 2 ^ 32 else x.injected k) =
          x.injected (k + 1) := by
      rw [injected]
      split_ifs <;> omega
    rw [Function.iterate_succ_apply', ih (Nat.lt_of_succ_lt hk), injectPart]
    simp only [List.length_map, List.length_range, partDataLen_eq hlt hle, hpart, hinj]
    rw [List.range_succ, List.map_append]
    rfl

/-- The loop, if the counter can pass the number of parts. -/
theorem ends_turn (hpos : 0 < x.length) (hlt : x.length < 2 ^ 31)
    (hne : x.numParts % 65536 ≠ 65535) :
    Ends x.turn {} (convertErr (x.statusBefore (x.numParts % 65536)),
      (List.range (x.numParts % 65536)).map x.partAt) := by
  have hmod : x.numParts % 65536 < 65535 := by omega
  refine ends_of_iterate (f := x.injectPart) (n := x.numParts % 65536) (fun k hk => ?_) ?_
  · rw [Function.iterate_succ_apply', iterate_injectPart hlt (hk.trans hmod), turn,
      totalParts_eq hpos]
    exact if_pos hk
  · rw [iterate_injectPart hlt hmod, turn, totalParts_eq hpos]
    exact if_neg (by simp)

/-- A counter of 16 bits never passes 65535. -/
theorem not_ends_turn (hpos : 0 < x.length) (h : x.numParts % 65536 = 65535)
    {r : AdapterErr × List Part} : ¬ Ends x.turn {} r := by
  refine not_ends_of_invariant (I := fun s => s.part < 65536) (fun s hs => ?_) (by decide)
  refine ⟨x.injectPart s, ?_, ?_⟩
  · rw [turn, totalParts_eq hpos, h]
    exact if_pos (by omega)
  · exact Nat.mod_lt _ (by decide)

/-! ### What arrives -/

theorem injected_of_accepts {i : ℕ} (h : ∀ j < i, x.accepts j (j + 1) = true) :
    x.injected i = min (i * 1024) x.length := by
  induction i with
  | zero => simp [injected]
  | succ i ih =>
    rw [injected, if_pos (h i i.lt_succ_self), ih fun j hj => h j (hj.trans i.lt_succ_self)]
    omega

/-- Each part begins where it should exactly if every part before it has been accepted. -/
theorem injected_iff {n : ℕ} (hn : ∀ i < n, i * 1024 < x.length) :
    (∀ i < n, x.injected i = i * 1024) ↔ ∀ i, i + 1 < n → x.accepts i (i + 1) = true := by
  constructor
  · intro h i hi
    by_contra hacc
    have hsucc := h (i + 1) hi
    rw [injected, if_neg hacc, Nat.add_zero, h i (Nat.lt_of_succ_lt hi)] at hsucc
    omega
  · intro h i hi
    have hlt := hn i hi
    rw [injected_of_accepts fun j hj => h j (Nat.lt_of_le_of_lt hj hi)]
    omega

theorem mul_lt_length {i : ℕ} (hi : i < x.numParts) : i * 1024 < x.length := by
  rw [numParts] at hi
  omega

theorem statusBefore_sub_one {n : ℕ} (hn : n ≠ 0) : x.statusBefore n = (x.reply (n - 1)).1 := by
  cases n with
  | zero => exact absurd rfl hn
  | succ n => rfl

/-- A slice that ends with the data is as long as what is left of the data. -/
theorem slice_min (b : Bytes) (off len : ℕ) :
    slice b off (min len (b.length - off)) = slice b off len := by
  rw [slice, slice, List.take_eq_take_iff, List.length_drop]
  omega

/-- The parts of the data, all of them accepted. -/
theorem flatMap_partAt (h : ∀ i < x.numParts, x.injected i = i * 1024) :
    ((List.range x.numParts).map x.partAt).flatMap (·.req.partData) = x.data := by
  have hpart : ∀ i ∈ List.range x.numParts,
      (x.partAt i).req.partData = slice x.data (i * 1024) 1024 := by
    intro i hi
    simp only [partAt, h i (List.mem_range.1 hi), slice_min]
  have hle : x.length ≤ x.numParts * 1024 := by
    rw [numParts]
    omega
  rw [List.flatMap_map, List.flatMap_congr hpart, flatMap_slice, List.take_of_length_le hle]

theorem map_partNum (n : ℕ) :
    ((List.range n).map x.partAt).map (·.req.partNum) = List.range' 1 n := by
  rw [List.map_map, List.range'_eq_map_range]
  refine List.map_congr_left fun i _ => ?_
  exact Nat.add_comm i 1

/-- All of the parts sent are accepted. -/
theorem filter_partAt {n : ℕ} (h : ∀ i < n, x.accepts i (i + 1) = true) :
    ((List.range n).map x.partAt).filter (·.accepted) = (List.range n).map x.partAt := by
  rw [List.filter_eq_self]
  intro p hp
  obtain ⟨i, hi, rfl⟩ := List.mem_map.1 hp
  exact h i (List.mem_range.1 hi)

theorem whole_of_favourable (h : x.Favourable) :
    x.Whole (convertErr (x.statusBefore (x.numParts % 65536)),
      (List.range (x.numParts % 65536)).map x.partAt) := by
  obtain ⟨hpos, -, hbefore, hlast⟩ := h
  have hlt : ∀ i < x.numParts % 65536, i * 1024 < x.length := fun i hi =>
    mul_lt_length (hi.trans_le (Nat.mod_le _ _))
  have hstart := (injected_iff hlt).2 hbefore
  have hall : (x.reply (x.numParts % 65536 - 1)).1 = .success →
      x.numParts % 65536 = x.numParts ∧ ∀ i < x.numParts, x.accepts i (i + 1) = true := by
    intro hsucc
    obtain ⟨hfew, hacc⟩ := hlast hsucc
    have hmod : x.numParts % 65536 = x.numParts := Nat.mod_eq_of_lt hfew
    rw [hmod] at hbefore hacc hpos
    refine ⟨hmod, fun i hi => ?_⟩
    rcases Nat.lt_or_ge (i + 1) x.numParts with hi' | hi'
    · exact hbefore i hi'
    · obtain rfl : i = x.numParts - 1 := by omega
      rwa [Nat.sub_add_cancel (Nat.pos_of_ne_zero hpos)]
  have hsuccess : convertErr (x.statusBefore (x.numParts % 65536)) = .success →
      (x.reply (x.numParts % 65536 - 1)).1 = .success := by
    rw [convertErr_eq_success, statusBefore_sub_one hpos]
    exact id
  constructor
  · intro p hp
    obtain ⟨i, hi, rfl⟩ := List.mem_map.1 hp
    exact hstart i (List.mem_range.1 hi)
  · intro p hp
    obtain ⟨i, hi, rfl⟩ := List.mem_map.1 hp
    have hi' := hlt i (List.mem_range.1 hi)
    have heq := hstart i (List.mem_range.1 hi)
    simp only [partAt, heq]
    omega
  · intro p hp
    obtain ⟨i, -, rfl⟩ := List.mem_map.1 hp
    rfl
  · intro p hp
    obtain ⟨i, -, rfl⟩ := List.mem_map.1 hp
    have hle := x.injected_le i
    simp only [partAt]
    omega
  · intro h
    obtain ⟨hmod, hacc⟩ := hall (hsuccess h)
    rw [hmod, filter_partAt hacc, map_partNum]
  · intro h
    obtain ⟨hmod, hacc⟩ := hall (hsuccess h)
    rw [hmod] at hstart
    rw [hmod, filter_partAt hacc, flatMap_partAt hstart]

theorem favourable_of_whole (hpos : 0 < x.length) (hne : x.numParts % 65536 ≠ 65535)
    (h : x.Whole (convertErr (x.statusBefore (x.numParts % 65536)),
      (List.range (x.numParts % 65536)).map x.partAt)) : x.Favourable := by
  have hparts : 0 < x.numParts := by
    rw [numParts]
    omega
  have hstart : ∀ i < x.numParts % 65536, x.injected i = i * 1024 := fun i hi =>
    h.start (x.partAt i) (List.mem_map_of_mem (List.mem_range.2 hi))
  have hzero : x.numParts % 65536 ≠ 0 := by
    intro hzero
    have hall := h.all (by rw [hzero]; rfl)
    rw [hzero] at hall
    have hlen := congrArg List.length hall
    rw [List.length_range'] at hlen
    exact absurd hlen.symm hparts.ne'
  refine ⟨hzero, hne, ?_, ?_⟩
  · exact (injected_iff fun i hi => mul_lt_length (hi.trans_le (Nat.mod_le _ _))).1 hstart
  · intro hsucc
    have hall := h.all (by rw [convertErr_eq_success, statusBefore_sub_one hzero, hsucc])
    have hlen := congrArg List.length hall
    rw [List.length_map, List.length_range'] at hlen
    have hle := List.length_filter_le (·.accepted) ((List.range (x.numParts % 65536)).map x.partAt)
    rw [hlen, List.length_map, List.length_range] at hle
    have hmod : x.numParts % 65536 = x.numParts := Nat.le_antisymm (Nat.mod_le _ _) hle
    refine ⟨hmod ▸ Nat.mod_lt _ (by decide), ?_⟩
    rw [hmod] at hlen ⊢
    have hevery : ∀ p ∈ (List.range x.numParts).map x.partAt, p.accepted = true := by
      rw [← List.length_filter_eq_length_iff, hlen, List.length_map, List.length_range]
    have hacc := hevery (x.partAt (x.numParts - 1)) (List.mem_map_of_mem (List.mem_range.2
      (Nat.sub_lt hparts Nat.one_pos)))
    rwa [partAt, Nat.sub_add_cancel hparts] at hacc

/-- For every block of data and all outcomes, the data arrives whole or an error is returned exactly
if the number of parts suits the loop, every part before the last is accepted, and the last one
too unless its request fails. -/
theorem arrivesWhole_iff (x : XtraCall) (hpos : 1 ≤ x.length) (hlt : x.length < 2 ^ 31) :
    x.ArrivesWhole ↔ x.Favourable := by
  constructor
  · rintro ⟨r, hends, hwhole⟩
    have hne : x.numParts % 65536 ≠ 65535 := fun h => not_ends_turn hpos h hends
    obtain rfl := (ends_turn hpos hlt hne).unique hends
    exact favourable_of_whole hpos hne hwhole
  · intro h
    exact ⟨_, ends_turn hpos hlt h.not_last, whole_of_favourable h⟩

/-- A request that succeeds, with an indication for the part. -/
def answeredWith (status : QmiStatus) (part : ℕ) : Exchange InjectInd :=
  ⟨true, .answered .success, 0, some ⟨status, part⟩⟩

/-- Two parts of data; `status` is the answer to the first one. -/
def twoParts (status : QmiStatus) : XtraCall where
  isOpen := true
  data := List.replicate 2000 0
  outcome i := answeredWith (if i = 0 then status else .success) (i + 1)

theorem length_twoParts (status : QmiStatus) : (twoParts status).length = 2000 :=
  List.length_replicate

theorem numParts_twoParts (status : QmiStatus) : (twoParts status).numParts = 2 := by
  rw [numParts, length_twoParts]

theorem arrivesWhole_twoParts : (twoParts .success).ArrivesWhole := by
  refine (arrivesWhole_iff _ ?_ ?_).2 ⟨?_, ?_, fun i hi => ?_, fun _ => ?_⟩
  · rw [length_twoParts]
    decide
  · rw [length_twoParts]
    decide
  · rw [numParts_twoParts]
    decide
  · rw [numParts_twoParts]
    decide
  · rw [numParts_twoParts] at hi
    obtain rfl : i = 0 := by omega
    decide
  · rw [numParts_twoParts]
    decide

/-- The first part is not injected: the second one carries its bytes again, and the result is
success. -/
theorem not_arrivesWhole_twoParts : ¬ (twoParts .generalFailure).ArrivesWhole := by
  rintro ⟨r, hends, hwhole⟩
  have hparts := numParts_twoParts .generalFailure
  have hpos : 0 < (twoParts .generalFailure).length := by
    rw [length_twoParts]
    decide
  have hlt : (twoParts .generalFailure).length < 2 ^ 31 := by
    rw [length_twoParts]
    decide
  have hne : (twoParts .generalFailure).numParts % 65536 ≠ 65535 := by
    rw [hparts]
    decide
  obtain rfl := (ends_turn hpos hlt hne).unique hends
  have hacc := (favourable_of_whole hpos hne hwhole).before 0 (by rw [hparts]; decide)
  revert hacc
  decide

end XtraCall

end LocApi

end Msm8909w
