import Msm8909w.Map.Folders

/-!
# Operations of the remote device

`BluetoothMns.java` keeps a list of the operations that the remote device has initiated, so that it
is not notified of what it does itself.  An operation is added under the handle of its message, or
under `+` if the handle is not known yet.  An event takes an operation for its handle, or else one
under `+`, and is not sent then; operations that are older than ten seconds are thrown away whenever
one is looked for.

* `sendMnsEvent`, `step` : the code,
* `Takes`, `pendingAfter` : what an event takes, from a list that nothing is thrown away of,
* `fresh_eq` : throwing away old operations makes no difference,
* `mce_accounting` : each event takes what it should, and no more events are suppressed than
  operations were added.

Times are those of `Time.toMillis`.
-/

namespace Msm8909w

namespace Map

namespace Mce

open Folders

/-! ### The code -/

def MEMORY_AVAILABLE : JString := js "MemoryAvailable"
def MEMORY_FULL : JString := js "MemoryFull"
def SENDING_SUCCESS : JString := js "SendingSuccess"

/-- The class `BluetoothMnsMsgHndlMceInitOp`. -/
structure MsgHndlMceInitOp where
  msgHandle : JString
  time : ℤ
  deriving DecidableEq, Repr

/-- The operation is not older than ten seconds. -/
def fresh (now : ℤ) (op : MsgHndlMceInitOp) : Bool := ¬ 10000 < now - op.time

section Code

variable (M : CaseMaps)

/-- `op.msgHandle.equalsIgnoreCase(msgHandle)`. -/
def isFor (msgHandle : Option JString) (op : MsgHndlMceInitOp) : Bool :=
  match msgHandle with
  | some msgHandle => M.equalsIgnoreCase op.msgHandle msgHandle
  | none => false

/-- `findLocationMceInitiatedOperation`: the location, and `opList`. -/
def findLocationMceInitiatedOperation (now : ℤ) (msgHandle : Option JString)
    (opList : List MsgHndlMceInitOp) : ℤ × List MsgHndlMceInitOp :=
  let opList := opList.filter (fresh now)
  match opList.findIdx? (isFor M msgHandle) with
  | some location => (location, opList)
  | none =>
    match opList.findIdx? (isFor M (some (js "+"))) with
    | some location => (location, opList)
    | none => (-1, opList)

/-- `removeMceInitiatedOperation`. -/
def removeMceInitiatedOperation (location : ℤ) (opList : List MsgHndlMceInitOp) :
    List MsgHndlMceInitOp :=
  opList.eraseIdx location.toNat

/-- `sendMnsEvent`: whether the event is sent, and `opList`. -/
def sendMnsEvent (now : ℤ) (msg : JString) (handle : Option JString)
    (opList : List MsgHndlMceInitOp) : Bool × List MsgHndlMceInitOp :=
  if msg = MEMORY_AVAILABLE ∨ msg = MEMORY_FULL then (true, opList)
  else
    let (location, opList) := findLocationMceInitiatedOperation M now handle opList
    if location ≠ -1 ∧ msg = SENDING_SUCCESS then
      (true, removeMceInitiatedOperation location opList)
    else if location = -1 then (true, opList)
    else (false, removeMceInitiatedOperation location opList)

/-- A call from outside. -/
inductive Call
  | addMceInitiatedOperation (time : ℤ) (msgHandle : JString)
  | sendMnsEvent (time : ℤ) (msg : JString) (handle : Option JString)
  deriving DecidableEq, Repr

def Call.time : Call → ℤ
  | .addMceInitiatedOperation time _ => time
  | .sendMnsEvent time _ _ => time

/-- `opList`, and the number of events that have been suppressed. -/
structure State where
  opList : List MsgHndlMceInitOp := []
  suppressed : ℕ := 0
  deriving DecidableEq, Repr

def step (s : State) : Call → State
  | .addMceInitiatedOperation time msgHandle =>
    { s with opList := s.opList ++ [⟨msgHandle, time⟩] }
  | .sendMnsEvent time msg handle =>
    let (sent, opList) := Mce.sendMnsEvent M time msg handle s.opList
    ⟨opList, if sent then s.suppressed else s.suppressed + 1⟩

/-- The state after some calls. -/
def stateAfter (calls : List Call) : State := calls.foldl (step M) {}

end Code

/-! ### What an event takes -/

section Spec

variable (M : CaseMaps)

/-- The event is one of the two that no operation is taken for. -/
def IsMemory (msg : JString) : Prop := msg = MEMORY_AVAILABLE ∨ msg = MEMORY_FULL

instance (msg : JString) : Decidable (IsMemory msg) := inferInstanceAs (Decidable (_ ∨ _))

/-- An operation for the handle that is not too old. -/
def fits (now : ℤ) (handle : Option JString) (op : MsgHndlMceInitOp) : Bool :=
  isFor M handle op && fresh now op

theorem foldCase_eq_digit {c d : UInt16} (hd : 48 ≤ d ∧ d ≤ 57) :
    foldCase c = foldCase d ↔ c = d := by
  have hdigit : foldCase d = d := by
    unfold foldCase
    grind
  rw [hdigit, foldCase]
  grind

/-- The handles that the program makes are decimal numbers: these have no upper and lower case. -/
theorem isFor_iff_eq {M : CaseMaps} {msgHandle : JString} (op : MsgHndlMceInitOp)
    (hdigits : ∀ c ∈ msgHandle, 48 ≤ c ∧ c ≤ 57) :
    isFor M (some msgHandle) op = true ↔ op.msgHandle = msgHandle := by
  show decide (op.msgHandle.map M.fold = msgHandle.map M.fold) = true ↔ _
  rw [decide_eq_true_iff]
  generalize op.msgHandle = h
  induction msgHandle generalizing h with
  | nil => simp
  | cons d ds ih =>
    cases h with
    | nil => simp
    | cons c cs =>
      have hd := hdigits d (by simp)
      have hfold : M.fold c = M.fold d ↔ c = d := by
        rw [M.fold_latin c d (UInt16.lt_of_le_of_lt hd.2 (by decide)), foldCase_eq_digit hd]
      rw [List.map_cons, List.map_cons, List.cons.injEq, List.cons.injEq, hfold,
        ih fun c hc => hdigits c (List.mem_cons_of_mem _ hc)]

/-- `rest` is the list without the first operation that has the property. -/
def WithoutFirst (p : MsgHndlMceInitOp → Bool) (l rest : List MsgHndlMceInitOp) : Prop :=
  ∃ before op after, l = before ++ op :: after ∧ rest = before ++ after ∧ p op = true ∧
    ∀ x ∈ before, p x = false

/-- The first operation for the handle that is not too old is taken, or, if there is none, the first
one under `+`. -/
def Takes (now : ℤ) (handle : Option JString) (pending rest : List MsgHndlMceInitOp) : Prop :=
  WithoutFirst (fits M now handle) pending rest ∨
    (∀ x ∈ pending, fits M now handle x = false) ∧
      WithoutFirst (fits M now (some (js "+"))) pending rest

/-- What is left of the operations, if one is taken. -/
def take (now : ℤ) (handle : Option JString) (pending : List MsgHndlMceInitOp) :
    Option (List MsgHndlMceInitOp) :=
  if pending.any (fits M now handle) then some (pending.eraseP (fits M now handle))
  else if pending.any (fits M now (some (js "+"))) then
    some (pending.eraseP (fits M now (some (js "+"))))
  else none

/-- The operations that have been added and not been taken, after one more call. -/
def pendingStep (pending : List MsgHndlMceInitOp) : Call → List MsgHndlMceInitOp
  | .addMceInitiatedOperation time msgHandle => pending ++ [⟨msgHandle, time⟩]
  | .sendMnsEvent time msg handle =>
    if IsMemory msg then pending else (take M time handle pending).getD pending

def pendingAfter (calls : List Call) : List MsgHndlMceInitOp := calls.foldl (pendingStep M) []

variable {M} {now : ℤ} {handle : Option JString} {pending rest : List MsgHndlMceInitOp}

theorem withoutFirst_iff {p : MsgHndlMceInitOp → Bool} :
    WithoutFirst p pending rest ↔ pending.any p = true ∧ rest = pending.eraseP p := by
  constructor
  · rintro ⟨before, op, after, rfl, rfl, hop, hbefore⟩
    have hnone : ∀ x ∈ before, ¬ p x = true := by simpa using hbefore
    refine ⟨List.any_eq_true.2 ⟨op, by simp, hop⟩, ?_⟩
    rw [List.eraseP_append_right _ hnone, List.eraseP_cons_of_pos hop]
  · rintro ⟨hany, rfl⟩
    obtain ⟨x, hx, hpx⟩ := List.any_eq_true.1 hany
    obtain ⟨op, before, after, hbefore, hop, hl, hrest⟩ := List.exists_of_eraseP hx hpx
    exact ⟨before, op, after, hl, hrest, hop, by simpa using hbefore⟩

theorem take_eq_some_iff : take M now handle pending = some rest ↔
    Takes M now handle pending rest := by
  rw [take, Takes, withoutFirst_iff, withoutFirst_iff]
  by_cases hfor : pending.any (fits M now handle) = true
  · have hnot : ¬ ∀ x ∈ pending, fits M now handle x = false := by simpa using hfor
    rw [if_pos hfor, Option.some_inj]
    constructor
    · rintro rfl
      exact .inl ⟨hfor, rfl⟩
    · rintro (⟨-, rfl⟩ | ⟨hnone, -⟩)
      · rfl
      · exact absurd hnone hnot
  · have hnone : ∀ x ∈ pending, fits M now handle x = false := by simpa using hfor
    rw [if_neg hfor]
    by_cases hplus : pending.any (fits M now (some (js "+"))) = true
    · rw [if_pos hplus, Option.some_inj]
      constructor
      · rintro rfl
        exact .inr ⟨hnone, hplus, rfl⟩
      · rintro (⟨hany, -⟩ | ⟨-, -, rfl⟩)
        · exact absurd hany hfor
        · rfl
    · rw [if_neg hplus]
      constructor
      · intro h
        cases h
      · rintro (⟨hany, -⟩ | ⟨-, hany, -⟩)
        · exact absurd hany hfor
        · exact absurd hany hplus

end Spec

/-! ### Throwing away old operations -/

section Fresh

variable {M : CaseMaps} {now t : ℤ} {handle : Option JString}
  {opList pending rest : List MsgHndlMceInitOp}

/-- Both lists have the same operations that are not too old. -/
def Agree (now : ℤ) (opList pending : List MsgHndlMceInitOp) : Prop :=
  opList.filter (fresh now) = pending.filter (fresh now)

theorem Agree.mono (h : Agree t opList pending) (hle : t ≤ now) : Agree now opList pending := by
  have hfresh : ∀ l : List MsgHndlMceInitOp,
      (l.filter (fresh t)).filter (fresh now) = l.filter (fresh now) := by
    intro l
    rw [List.filter_filter]
    refine List.filter_congr ?_
    intro op _
    simp only [fresh, ← Bool.decide_and, decide_eq_decide]
    omega
  rw [Agree, ← hfresh opList, h, hfresh]

/-- The search in the list without the old operations. -/
theorem findIdx?_filter_fresh (M : CaseMaps) (msgHandle : Option JString)
    (h : Agree now opList pending) :
    match (opList.filter (fresh now)).findIdx? (isFor M msgHandle) with
    | none => pending.any (fits M now msgHandle) = false
    | some i => pending.any (fits M now msgHandle) = true ∧
        i < (opList.filter (fresh now)).length ∧ (opList.filter (fresh now)).eraseIdx i =
          (pending.eraseP (fits M now msgHandle)).filter (fresh now) := by
  have hany : (opList.filter (fresh now)).any (isFor M msgHandle) =
      pending.any (fits M now msgHandle) := by
    rw [h, List.any_filter]
    refine congrArg pending.any ?_
    funext op
    exact Bool.and_comm _ _
  cases hi : (opList.filter (fresh now)).findIdx? (isFor M msgHandle) with
  | none =>
    have hnone := List.findIdx?_eq_none_iff.1 hi
    show pending.any (fits M now msgHandle) = false
    rw [← hany, List.any_eq_false]
    simpa using hnone
  | some i =>
    obtain ⟨hlt, hat, -⟩ := List.findIdx?_eq_some_iff_getElem.1 hi
    refine ⟨?_, hlt, ?_⟩
    · rw [← hany]
      exact List.any_eq_true.2 ⟨_, List.getElem_mem hlt, hat⟩
    · have herase : (opList.filter (fresh now)).eraseP (isFor M msgHandle) =
          (opList.filter (fresh now)).eraseIdx i := by
        rw [List.eraseP_eq_eraseIdx, hi]
      rw [← herase, h, List.eraseP_filter]
      rfl

/-- Looking for an operation: what is found, and what is left of the list without it. -/
theorem findLocation_spec (M : CaseMaps) (handle : Option JString)
    (h : Agree now opList pending) :
    (findLocationMceInitiatedOperation M now handle opList).2 = opList.filter (fresh now) ∧
    match take M now handle pending with
    | none => (findLocationMceInitiatedOperation M now handle opList).1 = -1
    | some rest => ∃ i : ℕ, (findLocationMceInitiatedOperation M now handle opList).1 = i ∧
        i < (opList.filter (fresh now)).length ∧
        (opList.filter (fresh now)).eraseIdx i = rest.filter (fresh now) := by
  have hfor := findIdx?_filter_fresh M handle h
  have hplus := findIdx?_filter_fresh M (some (js "+")) h
  rw [findLocationMceInitiatedOperation, take]
  cases hi : (opList.filter (fresh now)).findIdx? (isFor M handle) with
  | some i =>
    rw [hi] at hfor
    rw [if_pos hfor.1]
    exact ⟨rfl, i, rfl, hfor.2⟩
  | none =>
    rw [hi] at hfor
    rw [if_neg (by rw [hfor]; exact Bool.false_ne_true)]
    cases hj : (opList.filter (fresh now)).findIdx? (isFor M (some (js "+"))) with
    | some j =>
      rw [hj] at hplus
      rw [if_pos hplus.1]
      exact ⟨rfl, j, rfl, hplus.2⟩
    | none =>
      rw [hj] at hplus
      rw [if_neg (by rw [hplus]; exact Bool.false_ne_true)]
      exact ⟨rfl, rfl⟩

/-- What an event does, once the location of an operation for it is known. -/
theorem sendMnsEvent_eq {msg : JString} {location : ℤ} (hmemory : ¬ IsMemory msg)
    (h : findLocationMceInitiatedOperation M now handle opList = (location, rest)) :
    sendMnsEvent M now msg handle opList = if location = -1 then (true, rest)
      else (decide (msg = SENDING_SUCCESS), removeMceInitiatedOperation location rest) := by
  have hcond : ¬ (msg = MEMORY_AVAILABLE ∨ msg = MEMORY_FULL) := hmemory
  rw [sendMnsEvent, if_neg hcond, h]
  by_cases hlocation : location = -1
  · rw [if_pos hlocation]
    exact (if_neg fun hfound => hfound.1 hlocation).trans (if_pos hlocation)
  rw [if_neg hlocation]
  by_cases hsuccess : msg = SENDING_SUCCESS
  · rw [decide_eq_true hsuccess]
    exact if_pos ⟨hlocation, hsuccess⟩
  · rw [decide_eq_false hsuccess]
    exact (if_neg fun hfound => hsuccess hfound.2).trans (if_neg hlocation)

theorem agree_filter (now : ℤ) (pending : List MsgHndlMceInitOp) :
    Agree now (pending.filter (fresh now)) pending := by
  rw [Agree, List.filter_filter]
  simp only [Bool.and_self]

/-- One event: what it does to the list is what it does to the operations that are pending, and
throwing away the old ones. -/
theorem sendMnsEvent_spec (M : CaseMaps) (msg : JString) (handle : Option JString)
    (h : Agree now opList pending) :
    ((sendMnsEvent M now msg handle opList).1 = false ↔
      ¬ IsMemory msg ∧ msg ≠ SENDING_SUCCESS ∧ ∃ rest, take M now handle pending = some rest) ∧
    (sendMnsEvent M now msg handle opList).2 = if IsMemory msg then opList
      else (pendingStep M pending (.sendMnsEvent now msg handle)).filter (fresh now) := by
  rw [pendingStep]
  by_cases hmemory : IsMemory msg
  · have hcond : msg = MEMORY_AVAILABLE ∨ msg = MEMORY_FULL := hmemory
    rw [sendMnsEvent, if_pos hcond, if_pos hmemory]
    exact ⟨by simp [hmemory], rfl⟩
  rw [if_neg hmemory, if_neg hmemory]
  obtain ⟨hlist, htake⟩ := findLocation_spec M handle h
  cases htaken : take M now handle pending with
  | none =>
    rw [htaken] at htake
    rw [sendMnsEvent_eq hmemory (Prod.ext htake hlist), if_pos rfl]
    exact ⟨by simp, h⟩
  | some rest =>
    rw [htaken] at htake
    obtain ⟨i, hi, -, herase⟩ := htake
    have hne : (i : ℤ) ≠ -1 := by omega
    rw [sendMnsEvent_eq hmemory (Prod.ext hi hlist), if_neg hne]
    refine ⟨by simp [hmemory], ?_⟩
    rw [removeMceInitiatedOperation, Int.toNat_natCast]
    exact herase

theorem agree_sendMnsEvent (M : CaseMaps) (msg : JString) (handle : Option JString)
    (h : Agree now opList pending) :
    Agree now (sendMnsEvent M now msg handle opList).2
      (pendingStep M pending (.sendMnsEvent now msg handle)) := by
  rw [(sendMnsEvent_spec M msg handle h).2]
  split_ifs with hmemory
  · rw [pendingStep, if_pos hmemory]
    exact h
  · exact agree_filter now _

end Fresh

/-! ### Over a whole run -/

section Run

variable {M : CaseMaps} {calls pre : List Call} {now : ℤ}

/-- The calls come one after the other. -/
def InOrder (calls : List Call) : Prop := calls.Pairwise fun c d => c.time ≤ d.time

theorem stateAfter_append (M : CaseMaps) (calls : List Call) (c : Call) :
    stateAfter M (calls ++ [c]) = step M (stateAfter M calls) c := by
  rw [stateAfter, stateAfter, List.foldl_append]
  rfl

theorem pendingAfter_append (M : CaseMaps) (calls : List Call) (c : Call) :
    pendingAfter M (calls ++ [c]) = pendingStep M (pendingAfter M calls) c := by
  rw [pendingAfter, pendingAfter, List.foldl_append]
  rfl

/-- **Throwing away old operations makes no difference** to those that are not too old. -/
theorem fresh_eq (horder : InOrder calls) (hnow : ∀ c ∈ calls, c.time ≤ now) :
    Agree now (stateAfter M calls).opList (pendingAfter M calls) := by
  induction calls using List.reverseRecOn generalizing now with
  | nil => rfl
  | append_singleton calls c ih =>
    obtain ⟨hcalls, -, hlast⟩ := List.pairwise_append.1 horder
    have hbefore : ∀ d ∈ calls, d.time ≤ c.time :=
      fun d hd => hlast d hd c (List.mem_singleton.2 rfl)
    have hc : c.time ≤ now := hnow c (by simp)
    rw [stateAfter_append, pendingAfter_append]
    cases c with
    | addMceInitiatedOperation time msgHandle =>
      have hagree : Agree now _ _ := ih hcalls fun d hd => (hbefore d hd).trans hc
      show ((stateAfter M calls).opList ++ [MsgHndlMceInitOp.mk msgHandle time]).filter
          (fresh now) =
        (pendingAfter M calls ++ [MsgHndlMceInitOp.mk msgHandle time]).filter (fresh now)
      rw [List.filter_append, List.filter_append, hagree]
    | sendMnsEvent time msg handle =>
      exact (agree_sendMnsEvent M msg handle (ih hcalls hbefore)).mono hc

/-- An operation has been added. -/
def Call.isAdd : Call → Bool
  | .addMceInitiatedOperation _ _ => true
  | .sendMnsEvent _ _ _ => false

theorem length_sendMnsEvent (M : CaseMaps) (now : ℤ) (msg : JString) (handle : Option JString)
    (opList : List MsgHndlMceInitOp) :
    (sendMnsEvent M now msg handle opList).2.length +
      (if (sendMnsEvent M now msg handle opList).1 then 0 else 1) ≤ opList.length := by
  by_cases hmemory : IsMemory msg
  · have hcond : msg = MEMORY_AVAILABLE ∨ msg = MEMORY_FULL := hmemory
    have hsend : sendMnsEvent M now msg handle opList = (true, opList) := if_pos hcond
    rw [hsend]
    exact Nat.le_refl _
  have hle : (opList.filter (fresh now)).length ≤ opList.length := List.length_filter_le _ _
  obtain ⟨hlist, htake⟩ := findLocation_spec M handle (Eq.refl (opList.filter (fresh now)))
  cases htaken : take M now handle opList with
  | none =>
    rw [htaken] at htake
    have hsend := sendMnsEvent_eq hmemory (Prod.ext htake hlist)
    rw [hsend]
    exact hle
  | some rest =>
    rw [htaken] at htake
    obtain ⟨i, hi, hlt, -⟩ := htake
    have hne : (i : ℤ) ≠ -1 := by omega
    have hlength : (removeMceInitiatedOperation i (opList.filter (fresh now))).length + 1 =
        (opList.filter (fresh now)).length := by
      rw [removeMceInitiatedOperation, Int.toNat_natCast, List.length_eraseIdx_of_lt hlt]
      omega
    have hsend := sendMnsEvent_eq hmemory (Prod.ext hi hlist)
    rw [if_neg hne] at hsend
    rw [hsend]
    -- one operation less, whether the event is sent or not
    dsimp only
    split_ifs
    · exact (Nat.le_succ _).trans (hlength.trans_le hle)
    · exact hlength.trans_le hle

/-- Each suppressed event has used up an operation. -/
theorem suppressed_le (M : CaseMaps) (calls : List Call) :
    (stateAfter M calls).opList.length + (stateAfter M calls).suppressed ≤
      calls.countP Call.isAdd := by
  induction calls using List.reverseRecOn with
  | nil => exact Nat.le_refl _
  | append_singleton calls c ih =>
    rw [stateAfter_append, List.countP_append]
    cases c with
    | addMceInitiatedOperation time msgHandle =>
      show ((stateAfter M calls).opList ++ [_]).length + (stateAfter M calls).suppressed ≤
        calls.countP Call.isAdd + 1
      rw [List.length_append, List.length_singleton]
      omega
    | sendMnsEvent time msg handle =>
      have hlength := length_sendMnsEvent M time msg handle (stateAfter M calls).opList
      show (sendMnsEvent M time msg handle (stateAfter M calls).opList).2.length +
        (if (sendMnsEvent M time msg handle (stateAfter M calls).opList).1 then
          (stateAfter M calls).suppressed else (stateAfter M calls).suppressed + 1) ≤
        calls.countP Call.isAdd + 0
      split_ifs at hlength ⊢ <;> omega

/-- **Each operation of the remote device suppresses one notification at most**: in calls one after
the other, an event that is not about the memory is suppressed exactly if it does not report a
success and there is an operation for it that has been added, not been taken and is not too old; it
takes exactly that one, and so does the report of a success, which is sent.  The list is then what
is left of the operations without the old ones. -/
theorem mce_accounting (horder : InOrder calls) :
    (∀ pre now msg handle, pre ++ [.sendMnsEvent now msg handle] <+: calls →
      ((sendMnsEvent M now msg handle (stateAfter M pre).opList).1 = false ↔
        ¬ IsMemory msg ∧ msg ≠ SENDING_SUCCESS ∧
          ∃ rest, Takes M now handle (pendingAfter M pre) rest) ∧
      (¬ IsMemory msg → ∀ rest, Takes M now handle (pendingAfter M pre) rest →
        pendingAfter M (pre ++ [.sendMnsEvent now msg handle]) = rest ∧
        (stateAfter M (pre ++ [.sendMnsEvent now msg handle])).opList =
          rest.filter (fresh now)) ∧
      (¬ IsMemory msg → (∀ rest, ¬ Takes M now handle (pendingAfter M pre) rest) →
        pendingAfter M (pre ++ [.sendMnsEvent now msg handle]) = pendingAfter M pre ∧
        (stateAfter M (pre ++ [.sendMnsEvent now msg handle])).opList =
          (pendingAfter M pre).filter (fresh now)) ∧
      (IsMemory msg →
        pendingAfter M (pre ++ [.sendMnsEvent now msg handle]) = pendingAfter M pre ∧
        (stateAfter M (pre ++ [.sendMnsEvent now msg handle])).opList =
          (stateAfter M pre).opList)) ∧
    (stateAfter M calls).suppressed ≤ calls.countP Call.isAdd := by
  refine ⟨?_, ?_⟩
  · rintro pre now msg handle ⟨post, rfl⟩
    obtain ⟨hpre, -, -⟩ := List.pairwise_append.1 horder
    obtain ⟨hbefore, -, hlast⟩ := List.pairwise_append.1 hpre
    have hagree : Agree now (stateAfter M pre).opList (pendingAfter M pre) :=
      fresh_eq hbefore fun c hc => hlast c hc _ (List.mem_singleton.2 rfl)
    obtain ⟨hsent, hafter⟩ := sendMnsEvent_spec M msg handle hagree
    rw [stateAfter_append, pendingAfter_append]
    simp only [← take_eq_some_iff]
    refine ⟨hsent, ?_, ?_, ?_⟩
    · intro hmemory rest htake
      have hstep : pendingStep M (pendingAfter M pre) (.sendMnsEvent now msg handle) = rest := by
        rw [pendingStep, if_neg hmemory, htake]
        rfl
      rw [if_neg hmemory, hstep] at hafter
      exact ⟨hstep, hafter⟩
    · intro hmemory hnothing
      have hstep : pendingStep M (pendingAfter M pre) (.sendMnsEvent now msg handle) =
          pendingAfter M pre := by
        rw [pendingStep, if_neg hmemory, Option.eq_none_iff_forall_ne_some.2 hnothing]
        rfl
      rw [if_neg hmemory, hstep] at hafter
      exact ⟨hstep, hafter⟩
    · intro hmemory
      rw [if_pos hmemory] at hafter
      exact ⟨if_pos hmemory, hafter⟩
  · have hle := suppressed_le M calls
    omega

/-- An operation for the message 5 and one for any message: the report that 5 has been deleted takes
the first one, the one that 7 has been deleted the other one, and the next one is sent. -/
def sampleCalls : List Call :=
  [.addMceInitiatedOperation 0 (js "5"), .addMceInitiatedOperation 1000 (js "+"),
    .sendMnsEvent 3000 (js "MessageDeleted") (some (js "5")),
    .sendMnsEvent 10000 (js "MessageDeleted") (some (js "7")),
    .sendMnsEvent 12000 (js "MessageDeleted") (some (js "7"))]

theorem mce_accounting_sampleCalls :
    (stateAfter latin sampleCalls).suppressed = 2 ∧
    (stateAfter latin sampleCalls).suppressed ≤ sampleCalls.countP Call.isAdd :=
  ⟨by decide, (mce_accounting (by unfold InOrder; decide)).2⟩

end Run

end Mce

end Map

end Msm8909w
