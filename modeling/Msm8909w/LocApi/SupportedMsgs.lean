import Mathlib.Data.List.GetD
import Mathlib.Data.List.Range
import Mathlib.Data.Nat.Bitwise
import Msm8909w.Lib.Bytes
import Msm8909w.LocApi.Requests

/-!
# Supported messages

The modem tells in a bitmap which messages it supports.  `checkQmiMsgsSupported` translates the
bits of the messages in an array into a word of 64 bits, and `locClientSupportMsgCheck` remembers
the first word it gets, for all clients of the process.

* `translates_iff` : the word has the bits that it should have exactly if no supported message
  stands at position 31 or above, or behind as many positions as the bitmap has bytes (`Early`);
  with a bitmap of 32 bytes the sign of bit 31 may happen to be right (`Filled`),
* `answers_iff` : in every sequence of calls each answer belongs to its question exactly if no
  later array has another answer than the first one that the modem was asked about.

In `1 << idx` the shift is one of 32 bits with a sign: `none` stands for a shift by more than its
width, which is undefined, and `1 << 31` is the sign bit alone.
-/

namespace Msm8909w

namespace LocApi

open LocSync (Status)

/-! ### The bitmap -/

/-- `qmi_get_supported_msgs_resp_v01`; `supported_msgs_len` is the length of `msgs`. -/
structure SupportedMsgs where
  valid : Bool
  msgs : Bytes
  deriving DecidableEq, Repr

/-- The bit of a message, as the loop reads it. -/
def SupportedMsgs.has (p : SupportedMsgs) (reqId : ℕ) : Bool :=
  let length := reqId >>> 3
  if p.msgs.length > length then
    (p.msgs.getD length 0).toNat &&& 1 <<< (reqId &&& 7) ≠ 0
  else false

/-- `1 << idx`. -/
def shiftOne (idx : ℕ) : Option (BitVec 32) := if idx < 32 then some (1#32 <<< idx) else none

/-- The body of the loop of `checkQmiMsgsSupported`. -/
def checkMsg (reqIdArray : List ℕ) (p : SupportedMsgs) (result : BitVec 64) (idx : ℕ) :
    Option (BitVec 64) :=
  if p.has (reqIdArray.getD idx 0) then
    (shiftOne idx).map fun bit => result ||| bit.signExtend 64
  else some result

/-- `loopSize`. -/
def loopSize (reqIdArray : List ℕ) (p : SupportedMsgs) : ℕ :=
  let loopSize := reqIdArray.length
  let loopSize := if loopSize < p.msgs.length then loopSize else p.msgs.length
  if loopSize < 64 then loopSize else 64

/-- `checkQmiMsgsSupported`. -/
def checkQmiMsgsSupported (reqIdArray : List ℕ) (p : SupportedMsgs) : Option (BitVec 64) :=
  if p.valid then (List.range (loopSize reqIdArray p)).foldlM (checkMsg reqIdArray p) 0 else some 0

/-- The bitmap has the bit of a message: message `8 * b + k` is bit `k` of byte `b`. -/
def SupportedMsgs.Supports (p : SupportedMsgs) (reqId : ℕ) : Prop :=
  ∃ byte, p.msgs[reqId / 8]? = some byte ∧ byte.toNat.testBit (reqId % 8) = true

/-- The message at a position of the array is supported. -/
def Wanted (reqIdArray : List ℕ) (p : SupportedMsgs) (i : ℕ) : Prop :=
  p.valid = true ∧ i < 64 ∧ ∃ reqId, reqIdArray[i]? = some reqId ∧ p.Supports reqId

/-- The result is defined and has the bits of the supported messages, and no others. -/
def Translates (reqIdArray : List ℕ) (p : SupportedMsgs) : Prop :=
  ∃ result, checkQmiMsgsSupported reqIdArray p = some result ∧
    ∀ i, result.getLsbD i = true ↔ Wanted reqIdArray p i

section Bitmap

variable {reqIdArray : List ℕ} {p : SupportedMsgs}

theorem has_iff {reqId : ℕ} : p.has reqId = true ↔ p.Supports reqId := by
  have hbyte : reqId >>> 3 = reqId / 8 := Nat.shiftRight_eq_div_pow reqId 3
  have hbit : reqId &&& 7 = reqId % 8 := Nat.and_two_pow_sub_one_eq_mod reqId 3
  rw [SupportedMsgs.has, SupportedMsgs.Supports, hbyte, hbit, Nat.one_shiftLeft]
  rcases Nat.lt_or_ge (reqId / 8) p.msgs.length with hlt | hge
  · simp only [gt_iff_lt, if_pos hlt, List.getD_eq_getElem _ 0 hlt, List.getElem?_eq_getElem hlt,
      Nat.and_two_pow]
    cases hbyte : p.msgs[reqId / 8].toNat.testBit (reqId % 8) <;> simp [hbyte]
  · simp [hge]

theorem loopSize_eq : loopSize reqIdArray p =
    min (min reqIdArray.length p.msgs.length) 64 := by
  simp only [loopSize]
  split_ifs <;> omega

theorem getLsbD_one_shiftLeft {idx i : ℕ} (hi : i < 32) :
    (1#32 <<< idx).getLsbD i = decide (i = idx) := by
  rw [BitVec.getLsbD_shiftLeft, BitVec.getLsbD_one]
  by_cases h : i = idx
  · simp [h ▸ hi, h]
  · simp [h]
    omega

/-- The bits of the shifted one behind the conversion: from bit 31 on the sign fills them. -/
theorem getLsbD_shiftOne {idx i : ℕ} {bit : BitVec 32} (h : shiftOne idx = some bit) (hi : i < 64) :
    (bit.signExtend 64).getLsbD i = true ↔ i = idx ∨ idx = 31 ∧ 31 ≤ i := by
  rw [shiftOne] at h
  split_ifs at h with hidx
  obtain rfl := Option.some.inj h
  rw [BitVec.getLsbD_signExtend, BitVec.msb_eq_getLsbD_last,
    getLsbD_one_shiftLeft (Nat.lt_add_one 31)]
  by_cases hlow : i < 32
  · rw [if_pos hlow, getLsbD_one_shiftLeft hlow]
    simp only [hi, decide_true, Bool.true_and, decide_eq_true_eq]
    omega
  · rw [if_neg hlow]
    simp only [hi, decide_true, Bool.true_and, decide_eq_true_eq]
    omega

/-- One more turn of the loop. -/
theorem foldlM_checkMsg_succ (n : ℕ) :
    (List.range (n + 1)).foldlM (checkMsg reqIdArray p) 0 =
      ((List.range n).foldlM (checkMsg reqIdArray p) 0).bind fun result =>
        checkMsg reqIdArray p result n := by
  rw [List.range_succ, List.foldlM_append]
  cases (List.range n).foldlM (checkMsg reqIdArray p) 0 with
  | none => rfl
  | some result => exact bind_pure (checkMsg reqIdArray p result n)

/-- The loop up to a position, if no shift is undefined. -/
theorem exists_foldlM_checkMsg (reqIdArray : List ℕ) (p : SupportedMsgs) {n : ℕ}
    (h : ∀ idx < n, p.has (reqIdArray.getD idx 0) = true → idx < 32) :
    ∃ result, (List.range n).foldlM (checkMsg reqIdArray p) 0 = some result ∧
      ∀ i < 64, result.getLsbD i = true ↔ ∃ idx < n, p.has (reqIdArray.getD idx 0) = true ∧
        (i = idx ∨ idx = 31 ∧ 31 ≤ i) := by
  induction n with
  | zero => exact ⟨0, rfl, fun i _ => by simp⟩
  | succ n ih =>
    obtain ⟨result, hresult, hbits⟩ := ih fun idx hidx => h idx (hidx.trans n.lt_succ_self)
    rw [foldlM_checkMsg_succ, hresult, Option.bind_some, checkMsg]
    split_ifs with hhas
    · obtain ⟨bit, hbit⟩ : ∃ bit, shiftOne n = some bit := by
        rw [shiftOne, if_pos (h n n.lt_succ_self hhas)]
        exact ⟨_, rfl⟩
      refine ⟨result ||| bit.signExtend 64, by rw [hbit]; rfl, fun i hi => ?_⟩
      rw [BitVec.getLsbD_or, Bool.or_eq_true, hbits i hi, getLsbD_shiftOne hbit hi]
      constructor
      · rintro (⟨idx, hidx, hrest⟩ | hnew)
        · exact ⟨idx, hidx.trans n.lt_succ_self, hrest⟩
        · exact ⟨n, n.lt_succ_self, hhas, hnew⟩
      · rintro ⟨idx, hidx, hrest⟩
        rcases Nat.lt_succ_iff_lt_or_eq.1 hidx with hidx | rfl
        · exact .inl ⟨idx, hidx, hrest⟩
        · exact .inr hrest.2
    · refine ⟨result, rfl, fun i hi => ?_⟩
      rw [hbits i hi]
      constructor
      · rintro ⟨idx, hidx, hrest⟩
        exact ⟨idx, hidx.trans n.lt_succ_self, hrest⟩
      · rintro ⟨idx, hidx, hrest⟩
        rcases Nat.lt_succ_iff_lt_or_eq.1 hidx with hidx | rfl
        · exact ⟨idx, hidx, hrest⟩
        · exact absurd hrest.1 hhas

/-- A supported message at position 32 or above makes the result undefined. -/
theorem foldlM_checkMsg_eq_none {n idx : ℕ} (hidx : idx < n)
    (hhas : p.has (reqIdArray.getD idx 0) = true) (hle : 32 ≤ idx) :
    (List.range n).foldlM (checkMsg reqIdArray p) 0 = none := by
  induction n with
  | zero => cases hidx
  | succ n ih =>
    rw [foldlM_checkMsg_succ]
    rcases Nat.lt_succ_iff_lt_or_eq.1 hidx with hlt | rfl
    · rw [ih hlt]
      rfl
    · cases (List.range idx).foldlM (checkMsg reqIdArray p) 0 with
      | none => rfl
      | some result =>
        rw [Option.bind_some, checkMsg, if_pos hhas, shiftOne, if_neg (not_lt.2 hle)]
        rfl

/-- Inside the array, the positions that the loop looks at are those that matter. -/
theorem wanted_iff (hvalid : p.valid = true) {i : ℕ} :
    Wanted reqIdArray p i ↔ i < 64 ∧ i < reqIdArray.length ∧
      p.has (reqIdArray.getD i 0) = true := by
  rw [Wanted, has_iff]
  constructor
  · rintro ⟨-, hi, reqId, hreqId, hsupp⟩
    obtain ⟨hlt, rfl⟩ := List.getElem?_eq_some_iff.1 hreqId
    exact ⟨hi, hlt, by rwa [List.getD_eq_getElem _ 0 hlt]⟩
  · rintro ⟨hi, hlt, hsupp⟩
    rw [List.getD_eq_getElem _ 0 hlt] at hsupp
    exact ⟨hvalid, hi, _, List.getElem?_eq_getElem hlt, hsupp⟩

/-- The supported messages stand early enough. -/
def Early (reqIdArray : List ℕ) (p : SupportedMsgs) : Prop :=
  ∀ i, Wanted reqIdArray p i → i < p.msgs.length ∧ i < 31

/-- The bits that the sign of bit 31 fills are all wanted. -/
def Filled (reqIdArray : List ℕ) (p : SupportedMsgs) : Prop :=
  p.msgs.length = 32 ∧ ∀ i, 31 ≤ i → i < 64 → Wanted reqIdArray p i

theorem early_or_filled (hvalid : p.valid = true) (h : Translates reqIdArray p) :
    Early reqIdArray p ∨ Filled reqIdArray p := by
  obtain ⟨result, hresult, hbits⟩ := h
  rw [checkQmiMsgsSupported, if_pos hvalid, loopSize_eq] at hresult
  have hall : ∀ idx < min (min reqIdArray.length p.msgs.length) 64,
      p.has (reqIdArray.getD idx 0) = true → idx < 32 := by
    intro idx hidx hhas
    by_contra hge
    rw [foldlM_checkMsg_eq_none hidx hhas (not_lt.1 hge)] at hresult
    cases hresult
  obtain ⟨result', hresult', hbits'⟩ := exists_foldlM_checkMsg reqIdArray p hall
  obtain rfl := Option.some.inj (hresult'.symm.trans hresult)
  by_cases hsign : 31 < min (min reqIdArray.length p.msgs.length) 64 ∧
      p.has (reqIdArray.getD 31 0) = true
  · have hfill : ∀ i, 31 ≤ i → i < 64 → Wanted reqIdArray p i := fun i hle hi =>
      (hbits i).1 ((hbits' i hi).2 ⟨31, hsign.1, hsign.2, .inr ⟨rfl, hle⟩⟩)
    have hlast := ((wanted_iff hvalid).1 (hfill 63 (by decide) (by decide))).2.1
    have hnext : ¬ 32 < min (min reqIdArray.length p.msgs.length) 64 := fun hlt =>
      absurd (hall 32 hlt ((wanted_iff hvalid).1 (hfill 32 (by decide) (by decide))).2.2)
        (by decide)
    exact .inr ⟨by omega, hfill⟩
  · refine .inl fun i hi => ?_
    obtain ⟨idx, hidx, hhas, rfl | ⟨rfl, -⟩⟩ :=
      (hbits' i ((wanted_iff hvalid).1 hi).1).1 ((hbits i).2 hi)
    · have hne : i ≠ 31 := by
        rintro rfl
        exact hsign ⟨hidx, hhas⟩
      have hlt := hall i hidx hhas
      omega
    · exact absurd ⟨hidx, hhas⟩ hsign

/-- A result of the loop that is right in its 64 bits. -/
theorem translates_of_bits (hvalid : p.valid = true) (result : BitVec 64)
    (hresult : checkQmiMsgsSupported reqIdArray p = some result)
    (hbits : ∀ i < 64, result.getLsbD i = true ↔ Wanted reqIdArray p i) :
    Translates reqIdArray p := by
  refine ⟨result, hresult, fun i => ?_⟩
  rcases Nat.lt_or_ge i 64 with hi | hge
  · exact hbits i hi
  · refine iff_of_false (by simp [BitVec.getLsbD_of_ge result i hge]) fun hi => ?_
    exact absurd ((wanted_iff hvalid).1 hi).1 (not_lt.2 hge)

theorem translates_of_early (hvalid : p.valid = true) (h : Early reqIdArray p) :
    Translates reqIdArray p := by
  have hall : ∀ idx < min (min reqIdArray.length p.msgs.length) 64,
      p.has (reqIdArray.getD idx 0) = true → idx < 31 := fun idx hidx hhas =>
    (h idx ((wanted_iff hvalid).2 ⟨by omega, by omega, hhas⟩)).2
  obtain ⟨result, hresult, hbits⟩ :=
    exists_foldlM_checkMsg reqIdArray p fun idx hidx hhas =>
      (hall idx hidx hhas).trans (by decide)
  refine translates_of_bits hvalid result ?_ fun i hi => ?_
  · rw [checkQmiMsgsSupported, if_pos hvalid, loopSize_eq, hresult]
  · rw [hbits i hi]
    constructor
    · rintro ⟨idx, hidx, hhas, rfl | ⟨rfl, -⟩⟩
      · exact (wanted_iff hvalid).2 ⟨hi, by omega, hhas⟩
      · exact absurd (hall 31 hidx hhas) (by decide)
    · intro hw
      obtain ⟨-, hlt, hhas⟩ := (wanted_iff hvalid).1 hw
      have hbyte := (h i hw).1
      exact ⟨i, by omega, hhas, .inl rfl⟩

theorem translates_of_filled (hvalid : p.valid = true) (h : Filled reqIdArray p) :
    Translates reqIdArray p := by
  obtain ⟨hlen, hfill⟩ := h
  have hlast := ((wanted_iff hvalid).1 (hfill 63 (by decide) (by decide))).2.1
  have hsize : min (min reqIdArray.length p.msgs.length) 64 = 32 := by omega
  obtain ⟨result, hresult, hbits⟩ :=
    exists_foldlM_checkMsg reqIdArray p (n := 32) fun _ hidx _ => hidx
  refine translates_of_bits hvalid result ?_ fun i hi => ?_
  · rw [checkQmiMsgsSupported, if_pos hvalid, loopSize_eq, hsize, hresult]
  · rw [hbits i hi]
    constructor
    · rintro ⟨idx, hidx, hhas, rfl | ⟨rfl, hle⟩⟩
      · exact (wanted_iff hvalid).2 ⟨hi, by omega, hhas⟩
      · exact hfill i hle hi
    · intro hw
      rcases Nat.lt_or_ge i 32 with hlow | hhigh
      · exact ⟨i, hlow, ((wanted_iff hvalid).1 hw).2.2, .inl rfl⟩
      · exact ⟨31, by decide, ((wanted_iff hvalid).1 (hfill 31 (by decide) (by decide))).2.2,
          .inr ⟨rfl, by omega⟩⟩

/-- For every array and every bitmap, the result has the bits of the supported messages exactly if
each of these stands before position 31 and before the number of bytes of the bitmap, or the bitmap
has 32 bytes and all messages from position 31 to position 63 are supported. -/
theorem translates_iff (reqIdArray : List ℕ) (p : SupportedMsgs) :
    Translates reqIdArray p ↔ Early reqIdArray p ∨ Filled reqIdArray p := by
  cases hvalid : p.valid with
  | false =>
    have hnone : ∀ i, ¬ Wanted reqIdArray p i := fun i h => by simp [Wanted, hvalid] at h
    refine iff_of_true ⟨0, ?_, fun i => iff_of_false (by simp) (hnone i)⟩
      (.inl fun i h => absurd h (hnone i))
    simp [checkQmiMsgsSupported, hvalid]
  | true =>
    exact ⟨early_or_filled hvalid, fun h =>
      h.elim (translates_of_early hvalid) (translates_of_filled hvalid)⟩

/-- A bitmap of one byte, and the supported message at the second position of the array. -/
theorem not_translates_short : ¬ Translates [0, 1] ⟨true, [0x02]⟩ := by
  rintro ⟨result, hresult, hbits⟩
  have hzero : checkQmiMsgsSupported [0, 1] ⟨true, [0x02]⟩ = some 0 := by decide
  obtain rfl := Option.some.inj (hzero.symm.trans hresult)
  have hbit := (hbits 1).2 ⟨rfl, by decide, 1, rfl, 2, rfl, by decide⟩
  revert hbit
  decide

end Bitmap

/-! ### The remembered answer -/

/-- The static variables of `locClientSupportMsgCheck`. -/
structure Statics where
  isCheckedAlready : Bool := false
  /-- `none` is a value that is not defined. -/
  supportedMsgChecked : Option (BitVec 64) := some 0
  deriving DecidableEq, Repr

/-- A call of `locClientSupportMsgCheck`. -/
structure CheckCall where
  /-- `none` is the null pointer. -/
  msgArray : Option (List ℕ)
  /-- `supportedMsg` is not null. -/
  hasTarget : Bool := true
  /-- The handle is valid. -/
  isOpen : Bool := true
  sending : Sending
  deriving DecidableEq, Repr

/-- `locClientSupportMsgCheck`: the value written through `supportedMsg` for
`eLOC_CLIENT_SUCCESS`, or the error.  `modem` is the list in the response. -/
def locClientSupportMsgCheck (modem : SupportedMsgs) (s : Statics) (c : CheckCall) :
    Except Status (Option (BitVec 64)) × Statics :=
  match c.msgArray with
  | none => (.error .failureInvalidParameter, s)
  | some msgArray =>
    if !c.hasTarget then (.error .failureInvalidParameter, s)
    else if s.isCheckedAlready then (.ok s.supportedMsgChecked, s)
    else if !c.isOpen then (.error .failureGeneral, s)
    else match c.sending with
      | .serviceErr | .sendErr => (.error .failureGeneral, s)
      | .answered resp =>
        if convertQmiResponseToLocStatus resp = .success then
          let supportedMsgChecked := checkQmiMsgsSupported msgArray modem
          (.ok supportedMsgChecked, ⟨true, supportedMsgChecked⟩)
        else (.error .failureGeneral, s)

namespace CheckCall

variable (modem : SupportedMsgs) (c : CheckCall)

/-- The arguments are not null. -/
def wellFormed : Bool := c.msgArray.isSome && c.hasTarget

/-- The call is answered by the modem, if it comes that far. -/
def asks : Bool := c.wellFormed && c.isOpen && c.sending == .answered .success

/-- The answer to the question of the call. -/
def answer : Option (BitVec 64) := checkQmiMsgsSupported (c.msgArray.getD []) modem

/-- If the call succeeds, it yields the answer to its own question. -/
def Answered (s : Statics) : Prop :=
  ∀ value, (locClientSupportMsgCheck modem s c).1 = .ok value → value = c.answer modem

end CheckCall

/-- The static variables after a sequence of calls. -/
def staticsAfter (modem : SupportedMsgs) (calls : List CheckCall) : Statics :=
  calls.foldl (fun s c => (locClientSupportMsgCheck modem s c).2) {}

section Remembered

variable {modem : SupportedMsgs} {s : Statics} {c : CheckCall}

/-- What a call does while nothing is remembered. -/
theorem check_of_unchecked (h : s.isCheckedAlready = false) :
    locClientSupportMsgCheck modem s c =
      if c.asks then (.ok (c.answer modem), ⟨true, c.answer modem⟩)
      else (.error (if c.wellFormed then .failureGeneral else .failureInvalidParameter), s) := by
  obtain ⟨msgArray, hasTarget, isOpen, sending⟩ := c
  rw [locClientSupportMsgCheck, CheckCall.asks, CheckCall.wellFormed]
  cases msgArray with
  | none => simp
  | some msgArray =>
    cases hasTarget with
    | false => simp
    | true =>
      cases isOpen with
      | false => simp [h]
      | true =>
        cases sending with
        | serviceErr => simp [h]
        | sendErr => simp [h]
        | answered resp =>
          simp only [h, convertQmiResponseToLocStatus_eq_success]
          cases resp <;> simp [CheckCall.answer]

/-- What a call does as soon as something is remembered. -/
theorem check_of_checked (h : s.isCheckedAlready = true) :
    locClientSupportMsgCheck modem s c =
      if c.wellFormed then (.ok s.supportedMsgChecked, s)
      else (.error .failureInvalidParameter, s) := by
  obtain ⟨msgArray, hasTarget, isOpen, sending⟩ := c
  rw [locClientSupportMsgCheck, CheckCall.wellFormed]
  cases msgArray <;> cases hasTarget <;> simp [h]

/-- What is remembered is the answer to the first call that asked the modem. -/
theorem staticsAfter_eq (modem : SupportedMsgs) (calls : List CheckCall) :
    staticsAfter modem calls =
      match calls.find? CheckCall.asks with
      | some first => ⟨true, first.answer modem⟩
      | none => {} := by
  induction calls using List.reverseRecOn with
  | nil => rfl
  | append_singleton calls c ih =>
    rw [staticsAfter, List.foldl_append, ← staticsAfter, List.foldl_cons, List.foldl_nil, ih,
      List.find?_append]
    cases hfirst : calls.find? CheckCall.asks with
    | some first =>
      rw [check_of_checked rfl]
      cases c.wellFormed <;> rfl
    | none =>
      rw [check_of_unchecked rfl]
      cases hasks : c.asks <;> simp [hasks]

/-- For every bitmap and every sequence of calls, each successful call yields the answer to its own
question exactly if no well-formed call has another answer than the first call before it that
asked the modem. -/
theorem answers_iff (modem : SupportedMsgs) (calls : List CheckCall) :
    (∀ pre c, pre ++ [c] <+: calls → c.Answered modem (staticsAfter modem pre)) ↔
      ∀ pre c, pre ++ [c] <+: calls → ∀ first ∈ pre.find? CheckCall.asks,
        c.wellFormed = true → c.answer modem = first.answer modem := by
  refine forall_congr' fun pre => forall_congr' fun c => imp_congr_right fun _ => ?_
  rw [CheckCall.Answered, staticsAfter_eq]
  cases hfirst : pre.find? CheckCall.asks with
  | none =>
    rw [check_of_unchecked rfl]
    refine iff_of_true (fun value hvalue => ?_) nofun
    split_ifs at hvalue
    exact (Except.ok.inj hvalue).symm
  | some first =>
    rw [check_of_checked rfl]
    cases c.wellFormed <;> simp [eq_comm]

/-- Two clients ask about different messages. -/
def twoClients : List CheckCall :=
  [{ msgArray := some [0], sending := .answered .success },
    { msgArray := some [1], sending := .answered .success }]

/-- The second client gets the answer of the first one. -/
theorem not_answered_twoClients : ¬ ∀ pre c, pre ++ [c] <+: twoClients →
    c.Answered ⟨true, [0x01]⟩ (staticsAfter ⟨true, [0x01]⟩ pre) := by
  intro h
  have hsecond := h [{ msgArray := some [0], sending := .answered .success }]
    { msgArray := some [1], sending := .answered .success } List.prefix_rfl (some 1) (by decide)
  revert hsecond
  decide

end Remembered

end LocApi

end Msm8909w
