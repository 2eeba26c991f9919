import Msm8909w.LocApi.SupportedMsgs

/-!
# Batching capabilities

What `open` passes to `saveSupportedMsgList` for a fresh client: the result of the message check
and, if batching is supported, three bits about the kinds of batching that the modem reports.  The
mask that the modem reports is tested with `|`, where the bits are meant to be picked out of it.

* `openSupported` : the code, with the outcomes of both requests as an input,
* `exists_messageCheck` : the message check sets none of the three bits, whatever was remembered,
* `reportsCapabilities_iff` : the three bits are right exactly if the modem has no batching, the
  query does not yield a valid mask, or the mask has all three capabilities.

The indices `LOC_API_ADAPTER_MESSAGE_*` are declared outside the repository.  Of them it is used
that they are different, and that the three indices do not belong to the messages that are checked
(`MessageBits`).  The two capabilities that are only logged are left out.
-/

namespace Msm8909w

namespace LocApi

open LocSync (Status)

/-- The indices `LOC_API_ADAPTER_MESSAGE_*` that `open` uses. -/
structure MessageBits where
  locationBatching : ℕ
  adaptiveLocationBatching : ℕ
  distanceBaseLocationBatching : ℕ
  updateTbfOnTheFly : ℕ
  locationBatching_lt : locationBatching < 31
  adaptive_lt : adaptiveLocationBatching < 31
  distance_lt : distanceBaseLocationBatching < 31
  update_lt : updateTbfOnTheFly < 31
  /-- `NUMBER_OF_MSG_TO_BE_CHECKED` is 3. -/
  adaptive_ge : 3 ≤ adaptiveLocationBatching
  distance_ge : 3 ≤ distanceBaseLocationBatching
  update_ge : 3 ≤ updateTbfOnTheFly
  adaptive_ne_distance : adaptiveLocationBatching ≠ distanceBaseLocationBatching
  adaptive_ne_update : adaptiveLocationBatching ≠ updateTbfOnTheFly
  distance_ne_update : distanceBaseLocationBatching ≠ updateTbfOnTheFly

/-- `qmiLocQueryAonConfigIndMsgT_v02`. -/
structure AonInd where
  status : QmiStatus
  aonCapabilityValid : Bool
  aonCapability : BitVec 32
  deriving DecidableEq, Repr

/-- `msgArray` of `open`: `QMI_LOC_GET_BATCH_SIZE_REQ_V02`,
`QMI_LOC_EVENT_GEOFENCE_BATCHED_BREACH_NOTIFICATION_IND_V02` and `QMI_LOC_START_DBT_REQ_V02`. -/
def msgArray : List ℕ := [0x0075, 0x0080, 0x0092]

/-- What a call of `open` that gets a client meets. -/
structure Opening where
  /-- The list in the response to the message check. -/
  modem : SupportedMsgs
  sending : Sending
  aon : Exchange AonInd

/-- `QMI_LOC_MASK_AON_AUTO_BATCHING_SUPPORTED_V02`. -/
def autoBatching : BitVec 32 := 0x00000001

/-- `QMI_LOC_MASK_AON_DISTANCE_BASED_BATCHING_SUPPORTED_V02`. -/
def distanceBasedBatching : BitVec 32 := 0x00000002

/-- `QMI_LOC_MASK_AON_UPDATE_TBF_SUPPORTED_V02`. -/
def updateTbf : BitVec 32 := 0x00000010

/-- `1 << idx` as it is joined to `supportedMsgList`. -/
def messageBit (idx : ℕ) : BitVec 64 := (1#32 <<< idx).signExtend 64

/-- The bits for the capabilities of a valid mask. -/
def aonBits (bits : MessageBits) (aonCapability : BitVec 32) (supportedMsgList : BitVec 64) :
    BitVec 64 :=
  let list := supportedMsgList
  let list := if aonCapability ||| autoBatching ≠ 0 then
    list ||| messageBit bits.adaptiveLocationBatching else list
  let list := if aonCapability ||| distanceBasedBatching ≠ 0 then
    list ||| messageBit bits.distanceBaseLocationBatching else list
  if aonCapability ||| updateTbf ≠ 0 then list ||| messageBit bits.updateTbfOnTheFly else list

namespace Opening

variable (o : Opening)

/-- The call of `locClientSupportMsgCheck`. -/
def check (s : Statics) : Except Status (Option (BitVec 64)) × Statics :=
  locClientSupportMsgCheck o.modem s { msgArray := some msgArray, sending := o.sending }

/-- `supportedMsgList` behind the message check; `none` is a value that is not defined. -/
def messageCheck (s : Statics) : Option (BitVec 64) :=
  match (o.check s).1 with
  | .ok supportedMsg => supportedMsg
  | .error _ => some 0

/-- The query of the AON configuration, with a buffer of zeros. -/
def queryAonConfig : Status × AonInd := locSyncSendReq true o.aon ⟨.success, false, 0⟩

/-- `supportedMsgList` behind the query. -/
def supportedMsgList (bits : MessageBits) (list : BitVec 64) : BitVec 64 :=
  let messageChecker := (1#32 <<< bits.locationBatching).setWidth 64
  if messageChecker &&& list = messageChecker then
    let (status, ind) := o.queryAonConfig
    if status = .failureUnsupported then list
    else if status ≠ .success ∨ ind.status ≠ .success then list
    else if ind.aonCapabilityValid then aonBits bits ind.aonCapability list
    else list
  else list

end Opening

/-- `open` for a fresh client, behind `locClientOpen`: what it passes to `saveSupportedMsgList`, and
the static variables of the message check. -/
def openSupported (bits : MessageBits) (o : Opening) (s : Statics) :
    Option (BitVec 64) × Statics :=
  ((o.messageCheck s).map (o.supportedMsgList bits), (o.check s).2)

/-- The static variables after a number of clients were opened. -/
def staticsOf (bits : MessageBits) (previous : List Opening) : Statics :=
  previous.foldl (fun s o => (openSupported bits o s).2) {}

/-! ### What the list should say -/

/-- The mask of a query that succeeds with a valid one. -/
def Opening.capability (o : Opening) : Option (BitVec 32) :=
  if o.queryAonConfig.1 = .success ∧ o.queryAonConfig.2.status = .success ∧
      o.queryAonConfig.2.aonCapabilityValid = true then
    some o.queryAonConfig.2.aonCapability
  else none

/-- Batching is supported, and the modem reports the capability. -/
def Reported (bits : MessageBits) (o : Opening) (check : BitVec 64) (mask : BitVec 32) : Prop :=
  check.getLsbD bits.locationBatching = true ∧ ∃ cap ∈ o.capability, cap &&& mask ≠ 0

/-- What the list should say about a message. -/
def Expected (bits : MessageBits) (o : Opening) (check : BitVec 64) (i : ℕ) : Prop :=
  if i = bits.adaptiveLocationBatching then Reported bits o check autoBatching
  else if i = bits.distanceBaseLocationBatching then Reported bits o check distanceBasedBatching
  else if i = bits.updateTbfOnTheFly then Reported bits o check updateTbf
  else check.getLsbD i = true

/-- The list has the three bits exactly for the capabilities that the modem reports, and its other
bits from the message check. -/
def ReportsCapabilities (bits : MessageBits) (o : Opening) (s : Statics) : Prop :=
  ∃ check list, o.messageCheck s = some check ∧ (openSupported bits o s).1 = some list ∧
    ∀ i, list.getLsbD i = true ↔ Expected bits o check i

section Batching

variable {bits : MessageBits} {o : Opening} {s : Statics} {list : BitVec 64} {i : ℕ}

theorem getLsbD_messageBit {idx : ℕ} (hidx : idx < 31) :
    (messageBit idx).getLsbD i = true ↔ i = idx := by
  rcases Nat.lt_or_ge i 64 with hi | hge
  · have hshift : shiftOne idx = some (1#32 <<< idx) := if_pos (hidx.trans (by decide))
    rw [messageBit, getLsbD_shiftOne hshift hi]
    omega
  · rw [BitVec.getLsbD_of_ge _ _ hge]
    simp
    omega

/-- The test for batching. -/
theorem messageChecker_iff {idx : ℕ} (hidx : idx < 31) :
    (1#32 <<< idx).setWidth 64 &&& list = (1#32 <<< idx).setWidth 64 ↔
      list.getLsbD idx = true := by
  have hbit : ∀ i < 64, ((1#32 <<< idx).setWidth 64).getLsbD i = decide (i = idx) := by
    intro i hi
    rw [BitVec.getLsbD_setWidth]
    rcases Nat.lt_or_ge i 32 with hlow | hhigh
    · rw [getLsbD_one_shiftLeft hlow]
      simp [hi]
    · rw [BitVec.getLsbD_of_ge _ _ hhigh]
      simp
      omega
  constructor
  · intro h
    have hget := congrArg (fun v => v.getLsbD idx) h
    simp only [BitVec.getLsbD_and, hbit idx (by omega), decide_true, Bool.true_and] at hget
    exact hget
  · intro h
    refine BitVec.eq_of_getLsbD_eq fun i hi => ?_
    rw [BitVec.getLsbD_and, hbit i hi]
    by_cases heq : i = idx
    · rw [heq, h, Bool.and_true]
    · simp [heq]

/-- A mask that is joined with a bit is never zero: all three bits are set. -/
theorem getLsbD_aonBits (cap : BitVec 32) :
    (aonBits bits cap list).getLsbD i = true ↔
      list.getLsbD i = true ∨ i = bits.adaptiveLocationBatching ∨
        i = bits.distanceBaseLocationBatching ∨ i = bits.updateTbfOnTheFly := by
  have hne : ∀ mask : BitVec 32, mask ≠ 0 → cap ||| mask ≠ 0 := fun mask hmask h =>
    hmask (BitVec.or_eq_zero_iff.1 h).2
  rw [aonBits, if_pos (hne _ (by decide)), if_pos (hne _ (by decide)), if_pos (hne _ (by decide))]
  simp only [BitVec.getLsbD_or, Bool.or_eq_true, getLsbD_messageBit bits.adaptive_lt,
    getLsbD_messageBit bits.distance_lt, getLsbD_messageBit bits.update_lt, or_assoc]

/-- The list, by whether batching is supported and a valid mask arrives. -/
theorem supportedMsgList_eq (bits : MessageBits) (o : Opening) (list : BitVec 64) :
    o.supportedMsgList bits list =
      if list.getLsbD bits.locationBatching then
        match o.capability with
        | some cap => aonBits bits cap list
        | none => list
      else list := by
  simp only [Opening.supportedMsgList, messageChecker_iff bits.locationBatching_lt,
    Opening.capability]
  by_cases hsucc : o.queryAonConfig.1 = .success
  · by_cases hind : o.queryAonConfig.2.status = .success
    · cases o.queryAonConfig.2.aonCapabilityValid <;> simp [hsucc, hind]
    · simp [hsucc, hind]
  · simp [hsucc]

/-! ### The message check -/

/-- The answer for the three messages of `open` has no other bits. -/
theorem exists_checked (modem : SupportedMsgs) :
    ∃ check, checkQmiMsgsSupported msgArray modem = some check ∧
      ∀ i, check.getLsbD i = true → i < 3 := by
  rw [checkQmiMsgsSupported]
  split_ifs with hvalid
  · have hsize : loopSize msgArray modem ≤ 3 := by
      rw [loopSize_eq, msgArray]
      simp
    obtain ⟨check, hcheck, hbits⟩ := exists_foldlM_checkMsg msgArray modem
      (n := loopSize msgArray modem) fun idx hidx _ => by omega
    refine ⟨check, hcheck, fun i hi => ?_⟩
    have hlt : i < 64 := BitVec.lt_of_getLsbD hi
    obtain ⟨idx, hidx, -, hor⟩ := (hbits i hlt).1 hi
    omega
  · exact ⟨0, rfl, fun i hi => by simp at hi⟩

/-- Nothing is remembered, or the answer to an earlier `open`. -/
def Remembers (s : Statics) : Prop :=
  s = {} ∨ ∃ modem, s = ⟨true, checkQmiMsgsSupported msgArray modem⟩

theorem Remembers.check (h : Remembers s) (o : Opening) : Remembers (o.check s).2 := by
  rcases h with rfl | ⟨modem, rfl⟩
  · rw [Opening.check, check_of_unchecked rfl]
    split_ifs with hasks
    · exact .inr ⟨o.modem, rfl⟩
    all_goals exact .inl rfl
  · rw [Opening.check, check_of_checked rfl]
    exact .inr ⟨modem, rfl⟩

theorem remembers_staticsOf (bits : MessageBits) (previous : List Opening) :
    Remembers (staticsOf bits previous) := by
  induction previous using List.reverseRecOn with
  | nil => exact .inl rfl
  | append_singleton previous o ih =>
    rw [staticsOf, List.foldl_append]
    exact ih.check o

/-- The message check is defined and sets the bits of its three messages at most. -/
theorem exists_messageCheck (h : Remembers s) (o : Opening) :
    ∃ check, o.messageCheck s = some check ∧ ∀ i, check.getLsbD i = true → i < 3 := by
  have hzero : ∀ i, (0 : BitVec 64).getLsbD i = true → i < 3 := fun i hi => by simp at hi
  rw [Opening.messageCheck, Opening.check]
  rcases h with rfl | ⟨modem, rfl⟩
  · rw [check_of_unchecked rfl]
    split_ifs with hasks
    · exact exists_checked o.modem
    all_goals exact ⟨0, rfl, hzero⟩
  · rw [check_of_checked rfl]
    exact exists_checked modem

/-! ### The three bits -/

/-- Without a valid mask, or without batching, the list is that of the message check. -/
theorem expected_iff_of_not_reported {check : BitVec 64}
    (hcheck : ∀ i, check.getLsbD i = true → i < 3)
    (h : ∀ mask, ¬ Reported bits o check mask) (i : ℕ) :
    check.getLsbD i = true ↔ Expected bits o check i := by
  have hge : ∀ idx, 3 ≤ idx → ¬ check.getLsbD idx = true := fun idx hidx hbit =>
    absurd (hcheck idx hbit) (not_lt.2 hidx)
  rw [Expected]
  split_ifs with ha hd hu
  · rw [ha]
    exact iff_of_false (hge _ bits.adaptive_ge) (h _)
  · rw [hd]
    exact iff_of_false (hge _ bits.distance_ge) (h _)
  · rw [hu]
    exact iff_of_false (hge _ bits.update_ge) (h _)
  · rfl

/-- With batching and a valid mask, the list is right exactly if the mask has all three bits. -/
theorem expected_aonBits_iff {check : BitVec 64} {cap : BitVec 32}
    (hbatch : check.getLsbD bits.locationBatching = true) (hcap : o.capability = some cap) :
    (∀ i, (aonBits bits cap check).getLsbD i = true ↔ Expected bits o check i) ↔
      cap &&& autoBatching ≠ 0 ∧ cap &&& distanceBasedBatching ≠ 0 ∧ cap &&& updateTbf ≠ 0 := by
  have hreported : ∀ mask, Reported bits o check mask ↔ cap &&& mask ≠ 0 := fun mask => by
    simp [Reported, hbatch, hcap]
  constructor
  · intro h
    have ha := (h bits.adaptiveLocationBatching).1 (getLsbD_aonBits cap |>.2 (.inr (.inl rfl)))
    have hd := (h bits.distanceBaseLocationBatching).1
      (getLsbD_aonBits cap |>.2 (.inr (.inr (.inl rfl))))
    have hu := (h bits.updateTbfOnTheFly).1 (getLsbD_aonBits cap |>.2 (.inr (.inr (.inr rfl))))
    rw [Expected, if_pos rfl, hreported] at ha
    rw [Expected, if_neg bits.adaptive_ne_distance.symm, if_pos rfl, hreported] at hd
    rw [Expected, if_neg bits.adaptive_ne_update.symm, if_neg bits.distance_ne_update.symm,
      if_pos rfl, hreported] at hu
    exact ⟨ha, hd, hu⟩
  · rintro ⟨ha, hd, hu⟩ i
    rw [getLsbD_aonBits, Expected, hreported, hreported, hreported]
    split_ifs with hia hid hiu
    · exact iff_of_true (.inr (.inl hia)) ha
    · exact iff_of_true (.inr (.inr (.inl hid))) hd
    · exact iff_of_true (.inr (.inr (.inr hiu))) hu
    · simp [hia, hid, hiu]

/-- For all clients opened before, every bitmap and every outcome of the query, the list reports the
capabilities of the modem exactly if batching is not supported, the query yields no valid mask, or
the mask has all three of them. -/
theorem reportsCapabilities_iff (bits : MessageBits) (previous : List Opening) (o : Opening) :
    ReportsCapabilities bits o (staticsOf bits previous) ↔
      ∀ check ∈ o.messageCheck (staticsOf bits previous),
        check.getLsbD bits.locationBatching = true → ∀ cap ∈ o.capability,
          cap &&& autoBatching ≠ 0 ∧ cap &&& distanceBasedBatching ≠ 0 ∧ cap &&& updateTbf ≠ 0 := by
  obtain ⟨check, hcheck, hbits⟩ := exists_messageCheck (remembers_staticsOf bits previous) o
  have hlist : ReportsCapabilities bits o (staticsOf bits previous) ↔
      ∀ i, (o.supportedMsgList bits check).getLsbD i = true ↔ Expected bits o check i := by
    simp [ReportsCapabilities, openSupported, hcheck]
  rw [hlist, hcheck, supportedMsgList_eq]
  simp only [Option.mem_some_iff, forall_eq']
  cases hbatch : check.getLsbD bits.locationBatching with
  | false =>
    rw [if_neg Bool.false_ne_true]
    refine iff_of_true (expected_iff_of_not_reported hbits fun mask h => ?_) nofun
    exact absurd (hbatch.symm.trans h.1) Bool.false_ne_true
  | true =>
    cases hcap : o.capability with
    | none =>
      refine iff_of_true (expected_iff_of_not_reported hbits fun mask h => ?_) nofun
      simp [Reported, hcap] at h
    | some cap =>
      simp only [if_true, Option.mem_some_iff, forall_eq', true_imp_iff]
      exact expected_aonBits_iff hbatch hcap

end Batching

/-- The messages that are checked, and the three indices behind them. -/
def sampleMessageBits : MessageBits where
  locationBatching := 0
  adaptiveLocationBatching := 3
  distanceBaseLocationBatching := 4
  updateTbfOnTheFly := 5
  locationBatching_lt := by decide
  adaptive_lt := by decide
  distance_lt := by decide
  update_lt := by decide
  adaptive_ge := by decide
  distance_ge := by decide
  update_ge := by decide
  adaptive_ne_distance := by decide
  adaptive_ne_update := by decide
  distance_ne_update := by decide

/-- A modem that supports batching and reports no capability. -/
def plainBatching : Opening where
  modem := ⟨true, List.replicate 14 0 ++ [0x20]⟩
  sending := .answered .success
  aon := ⟨true, .answered .success, 0, some ⟨.success, true, 0⟩⟩

/-- All three bits are set all the same. -/
theorem not_reportsCapabilities_plainBatching :
    ¬ ReportsCapabilities sampleMessageBits plainBatching (staticsOf sampleMessageBits []) := by
  rintro ⟨check, list, hcheck, hlist, hbits⟩
  have heq : (openSupported sampleMessageBits plainBatching
      (staticsOf sampleMessageBits [])).1 = some 0x39 := by decide
  obtain rfl := Option.some.inj (heq.symm.trans hlist)
  obtain ⟨-, cap, hcap, hne⟩ := (hbits 3).1 (by decide)
  have hzero : plainBatching.capability = some 0 := by decide
  obtain rfl := Option.some.inj (hzero.symm.trans hcap)
  exact hne (by decide)

end LocApi

end Msm8909w
