import Mathlib.Data.Fin.Basic
import Mathlib.Data.List.FinRange
import Mathlib.Logic.Function.Basic
import Msm8909w.Lib.Bytes
import Msm8909w.Lib.Runs

/-!
# Synchronous location requests

The functions of `loc_api_sync_req.c` as a step function over the shared slots.  A call of
`loc_sync_send_req` is a thread that goes through the program points `Pc`; the sections that a
mutex protects are single steps, and a delivery (`loc_sync_process_ind`) is one step as well: it
holds `loc_sync_call_mutex` from beginning to end, and what other threads do to a slot under the
lock of that slot alone commutes with its work on the other slots.

* `step` : one step of a call or one delivery, `locSyncReqInit` the state to start from.
* `State.log` : what has happened so far, newest first.  Nothing in the model reads it.

A payload pointer is the call whose buffer it points to.  `step_deliver` says what a delivery does
to the slots in terms of the slots it serves (`served`).
-/

namespace Msm8909w

namespace LocSync

/-- `LOC_SYNC_REQ_BUFFER_SIZE`. -/
def locSyncReqBufferSize : ℕ := 8

/-- The index of a slot. -/
abbrev SlotId := Fin locSyncReqBufferSize

/-- A call of `loc_sync_send_req`. -/
abbrev CallId := ℕ

/-- `LOC_CLIENT_INVALID_HANDLE_VALUE`, the null pointer. -/
def invalidHandle : ℕ := 0

/-- `locClientStatusEnumType`. -/
inductive Status where
  | success
  | failureGeneral
  | failureUnsupported
  | failureInvalidParameter
  | failureEngineBusy
  | failurePhoneOffline
  | failureTimeout
  | failureServiceNotPresent
  | failureServiceVersionUnsupported
  | failureClientVersionUnsupported
  | failureInvalidHandle
  | failureInternal
  | failureNotInitialized
  | failureNotEnoughMemory
  deriving DecidableEq, Repr

/-- `loc_sync_req_data_s_type`. -/
structure Slot where
  clientHandle : ℕ
  indIsSelected : Bool
  indIsWaiting : Bool
  indHasArrived : Bool
  reqId : ℕ
  recvIndPayloadPtr : Option CallId
  recvIndId : ℕ
  /-- The state of `ind_arrived_cond`: the waiting thread has been signalled. -/
  signalled : Bool
  deriving DecidableEq, Repr

/-- A slot after `loc_sync_req_init` and after `loc_free_slot`. -/
def Slot.unused : Slot := ⟨invalidHandle, false, false, false, 0, none, 0, false⟩

/-- The arguments of a call.  The request payload is only handed on, and the timeout may expire at
any time. -/
structure Args where
  clientHandle : ℕ
  reqId : ℕ
  indId : ℕ
  /-- `ind_payload_ptr` is not null. -/
  wantsPayload : Bool
  deriving DecidableEq, Repr

/-- An indication. -/
structure Ind where
  clientHandle : ℕ
  indId : ℕ
  /-- The payload; `none` is the null pointer. -/
  payload : Option Bytes
  deriving DecidableEq, Repr

/-- `NULL != ind_payload_ptr && ind_payload_size > 0`. -/
def Ind.hasPayload (ind : Ind) : Bool := ind.payload.any (· ≠ [])

/-- Where a call stands. -/
inductive Pc where
  /-- Not made yet. -/
  | idle
  /-- `loc_alloc_slot` returned a slot. -/
  | allocated (i : SlotId)
  /-- `loc_sync_select_ind` returned the slot. -/
  | selected (i : SlotId)
  /-- `locClientSendReq` succeeded. -/
  | sent (i : SlotId)
  /-- `loc_sync_wait_for_ind` has checked `select_id`. -/
  | entering (i : SlotId)
  /-- Inside `pthread_cond_timedwait`. -/
  | waiting (i : SlotId)
  /-- About to free the slot and to return the status. -/
  | releasing (i : SlotId) (status : Status)
  | returned (status : Status)
  deriving DecidableEq, Repr

/-- The slot a call owns. -/
def Pc.slot : Pc → Option SlotId
  | allocated i | selected i | sent i | entering i | waiting i | releasing i _ => some i
  | idle | returned _ => none

/-- What has happened. -/
inductive Event where
  /-- `loc_sync_select_ind` has filled in the slot of the call. -/
  | selected (c : CallId) (i : SlotId)
  /-- The call handed its request to `locClientSendReq`. -/
  | sent (c : CallId) (status : Status)
  /-- An indication was processed for the slot. -/
  | processed (clientHandle indId : ℕ) (i : SlotId)
  /-- The payload of the delivery with this number was copied into the buffer of the call. -/
  | copied (delivery : ℕ) (c : CallId)
  | returned (c : CallId) (status : Status)
  deriving DecidableEq, Repr

/-- `loc_sync_array`, and where the calls stand. -/
structure State where
  inUse : Bool
  slotInUse : SlotId → Bool
  slots : SlotId → Slot
  pc : CallId → Pc
  /-- The number of deliveries so far. -/
  deliveries : ℕ
  /-- What has happened, newest first. -/
  log : List Event

/-- `loc_sync_req_init`. -/
def locSyncReqInit : State := ⟨false, fun _ => false, fun _ => .unused, fun _ => .idle, 0, []⟩

/-- Why `pthread_cond_timedwait` returns. -/
inductive Reason where
  | signal
  | timeout
  | spurious
  deriving DecidableEq, Repr

/-- The steps of a call, and a delivery. -/
inductive Action where
  | alloc (c : CallId)
  | select (c : CallId)
  | send (c : CallId) (status : Status)
  | check (c : CallId)
  | enter (c : CallId)
  | wake (c : CallId) (reason : Reason)
  | free (c : CallId)
  | deliver (ind : Ind)
  deriving DecidableEq, Repr

def eBUSY : ℤ := 16
def eINVAL : ℤ := 22
def eTIMEDOUT : ℤ := 110

/-- The status `loc_sync_send_req` makes of the result of `loc_sync_wait_for_ind`. -/
def waitStatus (rc : ℤ) : Status :=
  if rc < 0 then if rc = -eTIMEDOUT then .failureTimeout else .failureInternal else .success

/-- The `ret_val` of `loc_sync_wait_for_ind` after the wait. -/
def Reason.retVal : Reason → ℤ
  | timeout => -eTIMEDOUT
  | signal | spurious => 0

/-! ### Delivery -/

/-- The condition under which `loc_sync_process_ind` takes a slot for the indication. -/
def Slot.matches (slot : Slot) (used : Bool) (ind : Ind) : Bool :=
  used && slot.clientHandle == ind.clientHandle && ind.indId == slot.recvIndId &&
    !slot.indHasArrived

/-- What `loc_sync_process_ind` does to a slot it takes: it wakes up the waiting thread, or it
remembers the indication. -/
def Slot.notified (slot : Slot) (ind : Ind) : Slot :=
  if slot.indIsWaiting then { slot with recvIndId := ind.indId, signalled := true }
  else { slot with indHasArrived := true }

/-- The call into whose buffer the payload is copied. -/
def Slot.copyTo (slot : Slot) (ind : Ind) : Option CallId :=
  if ind.hasPayload then slot.recvIndPayloadPtr else none

/-- The events of a slot that is taken. -/
def Slot.events (slot : Slot) (ind : Ind) (delivery : ℕ) (i : SlotId) : List Event :=
  .processed ind.clientHandle ind.indId i ::
    ((slot.copyTo ind).map fun c => Event.copied delivery c).toList

/-- The variables of the loop of `loc_sync_process_ind`. -/
structure Scan where
  slots : SlotId → Slot
  inUse : Bool
  consumed : Bool
  log : List Event

/-- One round of the loop. -/
def processSlot (used : SlotId → Bool) (ind : Ind) (delivery : ℕ) (sc : Scan) (i : SlotId) : Scan :=
  let slot := sc.slots i
  let inUse := sc.inUse || used i
  if slot.matches (used i) ind then
    ⟨Function.update sc.slots i (slot.notified ind), inUse, (slot.copyTo ind).isSome,
      slot.events ind delivery i ++ sc.log⟩
  else { sc with inUse := inUse }

/-- The loop `for (i = 0; i < LOC_SYNC_REQ_BUFFER_SIZE && !consumed; i++)`. -/
def processLoop (used : SlotId → Bool) (ind : Ind) (delivery : ℕ) : List SlotId → Scan → Scan
  | [], sc => sc
  | i :: is, sc =>
    if sc.consumed then sc
    else processLoop used ind delivery is (processSlot used ind delivery sc i)

/-- `loc_sync_process_ind`. -/
def locSyncProcessInd (s : State) (ind : Ind) : State :=
  if !s.inUse then { s with deliveries := s.deliveries + 1 }
  else
    let sc := processLoop s.slotInUse ind s.deliveries (List.finRange locSyncReqBufferSize)
      ⟨s.slots, false, false, s.log⟩
    { s with
      inUse := if !sc.inUse then false else s.inUse
      slots := sc.slots
      deliveries := s.deliveries + 1
      log := sc.log }

/-! ### The steps of a call -/

/-- The call returns. -/
def State.return (s : State) (c : CallId) (status : Status) : State :=
  { s with pc := Function.update s.pc c (.returned status), log := .returned c status :: s.log }

/-- The call goes on at another point. -/
def State.goto (s : State) (c : CallId) (pc : Pc) : State :=
  { s with pc := Function.update s.pc c pc }

/-- The search of `loc_alloc_slot`. -/
def State.freeSlot (s : State) : Option SlotId :=
  (List.finRange locSyncReqBufferSize).find? fun i => !s.slotInUse i

/-- `loc_free_slot`. -/
def locFreeSlot (s : State) (i : SlotId) : State :=
  let slotInUse := Function.update s.slotInUse i false
  { s with
    slotInUse := slotInUse
    slots := Function.update s.slots i .unused
    inUse := if (List.finRange locSyncReqBufferSize).any slotInUse then s.inUse else false }

/-- The slot as `loc_sync_select_ind` fills it in. -/
def Args.slot (a : Args) (c : CallId) : Slot :=
  ⟨a.clientHandle, true, false, false, a.reqId, if a.wantsPayload then some c else none, a.indId,
    false⟩

/-- One step; `none` where the call does not stand at that point. -/
def step (args : CallId → Args) (s : State) : Action → Option State
  | .alloc c =>
    match s.pc c with
    | .idle =>
      match s.freeSlot with
      | some i => some ({ s with
          inUse := true, slotInUse := Function.update s.slotInUse i true }.goto c (.allocated i))
      -- `select_id < 0`: the status is still the one it was initialised with
      | none => some (s.return c .success)
    | _ => none
  | .select c =>
    match s.pc c with
    | .allocated i => some ({ s with
        slots := Function.update s.slots i ((args c).slot c)
        log := .selected c i :: s.log }.goto c (.selected i))
    | _ => none
  | .send c status =>
    match s.pc c with
    | .selected i => some ({ s with log := .sent c status :: s.log }.goto c
        (if status = Status.success then .sent i else .releasing i status))
    | _ => none
  | .check c =>
    match s.pc c with
    | .sent i =>
      if s.slotInUse i then some (s.goto c (.entering i))
      else some (s.return c (waitStatus (-eINVAL)))
    | _ => none
  | .enter c =>
    match s.pc c with
    | .entering i =>
      if (s.slots i).indHasArrived then some (s.goto c (.releasing i (waitStatus 0)))
      else if (s.slots i).indIsWaiting then some (s.goto c (.releasing i (waitStatus (-eBUSY))))
      else some ({ s with
        slots := Function.update s.slots i
          { s.slots i with indIsWaiting := true, signalled := false } }.goto c (.waiting i))
    | _ => none
  | .wake c reason =>
    match s.pc c with
    | .waiting i =>
      if reason = .signal ∧ (s.slots i).signalled = false then none
      else some ({ s with
        slots := Function.update s.slots i { s.slots i with indIsWaiting := false } }.goto c
          (.releasing i (waitStatus reason.retVal)))
    | _ => none
  | .free c =>
    match s.pc c with
    | .releasing i status => some ((locFreeSlot s i).return c status)
    | _ => none
  | .deliver ind => some (locSyncProcessInd s ind)

/-! ### What a delivery does -/

section Delivery

variable {used : SlotId → Bool} {slots : SlotId → Slot} {ind : Ind} {k : ℕ} {i j : SlotId}
  {is : List SlotId}

/-- The slots a delivery serves: the matching ones, up to the first that takes the payload. -/
def served (used : SlotId → Bool) (slots : SlotId → Slot) (ind : Ind) : List SlotId → List SlotId
  | [] => []
  | i :: is =>
    if (slots i).matches (used i) ind then
      if ((slots i).copyTo ind).isSome then [i] else i :: served used slots ind is
    else served used slots ind is

theorem mem_of_mem_served (h : i ∈ served used slots ind is) : i ∈ is := by
  induction is with
  | nil => exact h
  | cons j is ih =>
    rw [served] at h
    split_ifs at h
    · rw [List.mem_singleton.1 h]
      exact List.mem_cons_self
    · rcases List.mem_cons.1 h with rfl | h
      · exact List.mem_cons_self
      · exact List.mem_cons_of_mem j (ih h)
    · exact List.mem_cons_of_mem j (ih h)

theorem matches_of_mem_served (h : i ∈ served used slots ind is) :
    (slots i).matches (used i) ind = true := by
  induction is with
  | nil => cases h
  | cons j is ih =>
    rw [served] at h
    split_ifs at h with hm
    · rw [List.mem_singleton.1 h]
      exact hm
    · rcases List.mem_cons.1 h with rfl | h
      · exact hm
      · exact ih h
    · exact ih h

/-- The payload is copied for one of the served slots at most. -/
theorem copyTo_unique (hi : i ∈ served used slots ind is) (hj : j ∈ served used slots ind is)
    (hci : ((slots i).copyTo ind).isSome) (hcj : ((slots j).copyTo ind).isSome) : i = j := by
  induction is with
  | nil => cases hi
  | cons l is ih =>
    rw [served] at hi hj
    split_ifs at hi hj with hm hc
    · rw [List.mem_singleton.1 hi, List.mem_singleton.1 hj]
    · rcases List.mem_cons.1 hi with rfl | hi
      · exact absurd hci hc
      · rcases List.mem_cons.1 hj with rfl | hj
        · exact absurd hcj hc
        · exact ih hi hj
    · exact ih hi hj

/-- If some slot can take the payload, one of the served slots does. -/
theorem exists_served (hi : i ∈ is) (hm : (slots i).matches (used i) ind = true)
    (hc : ((slots i).copyTo ind).isSome) :
    ∃ j ∈ served used slots ind is, ((slots j).copyTo ind).isSome := by
  induction is with
  | nil => cases hi
  | cons l is ih =>
    rw [served]
    by_cases hml : (slots l).matches (used l) ind = true
    · rw [if_pos hml]
      by_cases hcl : ((slots l).copyTo ind).isSome = true
      · rw [if_pos hcl]
        exact ⟨l, List.mem_singleton_self l, hcl⟩
      · rw [if_neg hcl]
        rcases List.mem_cons.1 hi with rfl | hi
        · exact absurd hc hcl
        · obtain ⟨j, hj, hcj⟩ := ih hi
          exact ⟨j, List.mem_cons_of_mem l hj, hcj⟩
    · rw [if_neg hml]
      rcases List.mem_cons.1 hi with rfl | hi
      · exact absurd hm hml
      · exact ih hi

/-- The slots after a delivery. -/
def notifyAll (slots : SlotId → Slot) (ind : Ind) (is : List SlotId) : SlotId → Slot :=
  fun i => if i ∈ is then (slots i).notified ind else slots i

/-- The events of a delivery, newest first. -/
def deliveryEvents (slots : SlotId → Slot) (ind : Ind) (k : ℕ) : List SlotId → List Event
  | [] => []
  | i :: is => deliveryEvents slots ind k is ++ (slots i).events ind k i

theorem processSlot_slots_of_ne {sc : Scan} (h : j ≠ i) :
    (processSlot used ind k sc i).slots j = sc.slots j := by
  dsimp only [processSlot]
  split_ifs
  · exact Function.update_of_ne h _ _
  · rfl

/-- The loop serves the slots `served` and no other. -/
theorem processLoop_spec {sc : Scan} (hnd : is.Nodup) (hc : sc.consumed = false)
    (hslots : ∀ i ∈ is, sc.slots i = slots i) :
    (∀ j, (processLoop used ind k is sc).slots j =
      if j ∈ served used slots ind is then (slots j).notified ind else sc.slots j) ∧
    (processLoop used ind k is sc).log =
      deliveryEvents slots ind k (served used slots ind is) ++ sc.log := by
  induction is generalizing sc with
  | nil => exact ⟨fun j => (if_neg List.not_mem_nil).symm, rfl⟩
  | cons i is ih =>
    obtain ⟨hi, hnd⟩ := List.nodup_cons.1 hnd
    have hrest : ∀ j ∈ is, (processSlot used ind k sc i).slots j = slots j := by
      intro j hj
      have hne : j ≠ i := fun h => hi (h ▸ hj)
      rw [processSlot_slots_of_ne hne, hslots j (List.mem_cons_of_mem i hj)]
    rw [processLoop, if_neg (by rw [hc]; exact Bool.false_ne_true), served]
    by_cases hm : (slots i).matches (used i) ind = true
    · have hround : processSlot used ind k sc i =
        ⟨Function.update sc.slots i ((slots i).notified ind),
          sc.inUse || used i, ((slots i).copyTo ind).isSome,
          (slots i).events ind k i ++ sc.log⟩ := by
        simp only [processSlot, hslots i List.mem_cons_self, hm, if_true]
      rw [if_pos hm]
      by_cases hcopy : ((slots i).copyTo ind).isSome = true
      · -- the payload has a taker: the loop ends here
        have hend : processLoop used ind k is (processSlot used ind k sc i) =
            processSlot used ind k sc i := by
          cases is with
          | nil => rfl
          | cons l is => rw [processLoop, if_pos (by rw [hround]; exact hcopy)]
        rw [if_pos hcopy, hend, hround]
        refine ⟨fun j => ?_, rfl⟩
        simp only [List.mem_singleton, Function.update_apply]
        split_ifs with hj
        · rw [hj]
        · rfl
      · rw [if_neg hcopy]
        obtain ⟨h1, h2⟩ := ih hnd (by rw [hround]; exact Bool.eq_false_iff.2 hcopy) hrest
        refine ⟨fun j => ?_, ?_⟩
        · rw [h1 j, hround]
          simp only [List.mem_cons, Function.update_apply]
          by_cases hj : j = i
          · subst hj
            simp only [mt mem_of_mem_served hi, if_false, true_or, if_true]
          · simp only [hj, false_or, if_false]
        · rw [h2, hround, deliveryEvents, List.append_assoc]
    · have hround : processSlot used ind k sc i = { sc with inUse := sc.inUse || used i } := by
        simp only [processSlot, hslots i List.mem_cons_self, hm, if_false, Bool.false_eq_true]
      rw [if_neg hm]
      obtain ⟨h1, h2⟩ := ih hnd (by rw [hround]; exact hc) hrest
      refine ⟨fun j => ?_, ?_⟩
      · rw [h1 j, hround]
      · rw [h2, hround]

/-- `in_use` after the loop, also when it ends early. -/
theorem processLoop_inUse {sc : Scan} (hc : sc.consumed = true → sc.inUse = true) :
    (processLoop used ind k is sc).inUse = true ↔ sc.inUse = true ∨ ∃ i ∈ is, used i = true := by
  induction is generalizing sc with
  | nil => simp [processLoop]
  | cons i is ih =>
    rw [processLoop]
    split_ifs with hcons
    · simp [hc hcons]
    · have hround : (processSlot used ind k sc i).inUse = (sc.inUse || used i) := by
        dsimp only [processSlot]
        split_ifs <;> rfl
      have hc' : (processSlot used ind k sc i).consumed = true →
          (processSlot used ind k sc i).inUse = true := by
        rw [hround]
        dsimp only [processSlot]
        split_ifs with hm
        · intro _
          simp only [Slot.matches, Bool.and_eq_true] at hm
          simp [hm.1.1.1]
        · exact fun h => absurd h hcons
      rw [ih hc', hround]
      simp only [Bool.or_eq_true, List.mem_cons, exists_eq_or_imp, or_assoc]

end Delivery

/-- The slots a delivery serves in a state. -/
def State.served (s : State) (ind : Ind) : List SlotId :=
  LocSync.served s.slotInUse s.slots ind (List.finRange locSyncReqBufferSize)

/-- What a delivery does, when `in_use` says whether a slot is in use. -/
theorem locSyncProcessInd_eq {s : State} (h : s.inUse = true ↔ ∃ i, s.slotInUse i = true)
    (ind : Ind) : locSyncProcessInd s ind =
      { s with
        slots := notifyAll s.slots ind (s.served ind)
        deliveries := s.deliveries + 1
        log := deliveryEvents s.slots ind s.deliveries (s.served ind) ++ s.log } := by
  by_cases hu : s.inUse = true
  · have huse : (processLoop s.slotInUse ind s.deliveries (List.finRange locSyncReqBufferSize)
        ⟨s.slots, false, false, s.log⟩).inUse = true := by
      rw [processLoop_inUse fun h => absurd h Bool.false_ne_true]
      obtain ⟨i, hi⟩ := h.1 hu
      exact .inr ⟨i, List.mem_finRange i, hi⟩
    obtain ⟨h1, h2⟩ := @processLoop_spec s.slotInUse s.slots ind s.deliveries _
      ⟨s.slots, false, false, s.log⟩ (List.nodup_finRange locSyncReqBufferSize) rfl fun _ _ => rfl
    simp only [locSyncProcessInd, hu, Bool.not_true, Bool.false_eq_true, if_false, huse]
    rw [funext h1, h2]
    rfl
  · have hnone : s.served ind = [] := by
      refine List.eq_nil_iff_forall_not_mem.2 fun i hi => ?_
      have hm := matches_of_mem_served hi
      simp only [Slot.matches, Bool.and_eq_true] at hm
      exact hu (h.2 ⟨i, hm.1.1.1⟩)
    have hslots : notifyAll s.slots ind [] = s.slots :=
      funext fun i => if_neg List.not_mem_nil
    simp only [locSyncProcessInd, hu, hnone, hslots, deliveryEvents, List.nil_append,
      Bool.not_false, if_true]

end LocSync

end Msm8909w
