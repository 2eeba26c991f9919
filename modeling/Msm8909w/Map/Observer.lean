import Msm8909w.Lib.Comparison
import Msm8909w.Map.Handles

/-!
# The observer of the message stores

`BluetoothMnsSmsMms.java` remembers the messages of the SMS and of the MMS store and compares them
with the stores when these have changed.  For each of the two stores it has three maps: the messages
it remembers, those that have been added and those that have been deleted.  The code passes the maps
around by reference: the map that a comparison has used up becomes the map of the deleted messages,
and for an empty SMS store the remembered map itself does.  So the maps are on a heap, and a `Lists`
holds three references into it.

* `Tracks` : between two updates the remembered map holds the visible messages of the store, and the
  other two are empty,
* `sendHalf_eq`, `tracks_sent` : sending the events leaves the observer so,
* `compared_compareRows` : what a comparison leaves in the three maps.
-/

namespace Msm8909w

namespace Map

namespace Observer

/-! ### Messages and maps -/

/-- `MSG_TO_MAP`. -/
def MSG_TO_MAP : List JString :=
  [js "", js "inbox", js "sent", js "draft", js "outbox", js "outbox", js "outbox", js "inbox",
    js "inbox"]

/-- `Message`. -/
structure Message where
  mId : ℤ
  mFolderName : JString
  mType : ℤ
  mThreadId : ℤ
  mDate : ℤ
  deriving DecidableEq, Repr

/-- The maps from an id to a message, by reference. -/
abbrev Heap := ℕ → List Message

/-- `put(msg.mId, msg)`, on the map with reference `m`. -/
def Heap.put (h : Heap) (m : ℕ) (msg : Message) : Heap :=
  Function.update h m (assign Message.mId (h m) msg)

/-- `remove(id)`: the message that was there, and the heap without it. -/
def Heap.remove (h : Heap) (m : ℕ) (id : ℤ) : Option Message × Heap :=
  (lookupKey Message.mId (h m) id, Function.update h m (eraseKey Message.mId (h m) id))

/-- `clear()`. -/
def Heap.clear (h : Heap) (m : ℕ) : Heap := Function.update h m []

/-- The three maps of a store.  No reference from `next` on is in use. -/
structure Lists where
  heap : Heap
  next : ℕ
  list : ℕ
  added : ℕ
  deleted : ℕ

/-- The maps of a new observer. -/
def Lists.initial : Lists := ⟨fun _ => [], 3, 0, 1, 2⟩

/-- `clearSms` and `clearMms`. -/
def Lists.clear (s : Lists) : Lists :=
  { s with heap := ((s.heap.clear s.list).clear s.added).clear s.deleted }

/-! ### Updating -/

/-- The columns of an SMS, as the cursor hands them out. -/
structure SmsRow where
  id : ℤ
  type : ℤ
  threadId : ℤ
  date : ℤ
  deriving DecidableEq, Repr

/-- The columns of an MMS. -/
structure MmsRow where
  id : ℤ
  boxType : ℤ
  threadId : ℤ
  msgType : ℤ
  date : ℤ
  deriving DecidableEq, Repr

/-- The type is one that `updateSms` takes up. -/
def SmsRow.visible (r : SmsRow) : Bool := r.type > 0 ∧ r.type < MSG_TO_MAP.length

def SmsRow.message (r : SmsRow) : Message :=
  ⟨r.id, MSG_TO_MAP.getD r.type.toNat [], r.type, r.threadId, r.date⟩

/-- One row in the loop of `updateSms`, with the references of the three maps. -/
def updateSmsRow (init : Bool) (oldSmsList newSmsList mSmsAddedList : ℕ) (h : Heap) (r : SmsRow) :
    Heap :=
  if r.visible then
    let msg := r.message
    let h := h.put newSmsList msg
    -- `containsKey`
    if (lookupKey Message.mId (h oldSmsList) r.id).isSome then
      let (old_msg, h) := h.remove oldSmsList r.id
      if old_msg.any fun old_msg => msg.mType ≠ old_msg.mType then h.put mSmsAddedList msg else h
    else
      let (oldMsg, h) := h.remove oldSmsList r.id
      if !init && oldMsg.all fun oldMsg => oldMsg.mDate ≠ r.date then h.put mSmsAddedList msg else h
  else h

/-- `updateSms`; without a cursor nothing is compared. -/
def updateSms (init : Bool) (crSms : Option (List SmsRow)) (s : Lists) : Lists :=
  let s := if init then s.clear else s
  match crSms with
  | none => s
  | some [] =>
    -- last SMS to be deleted
    if (s.heap s.list).length > 0 then { s with deleted := s.list } else s
  | some rows =>
    { heap := rows.foldl (updateSmsRow init s.list s.next s.added) (s.heap.clear s.next)
      next := s.next + 1
      list := s.next
      added := s.added
      deleted := s.list }

def MESSAGE_TYPE_NOTIFICATION_IND : ℤ := 130
def MESSAGE_TYPE_DELIVERY_IND : ℤ := 134

/-- The type is one that `updateMms` takes up. -/
def MmsRow.visible (r : MmsRow) : Bool :=
  r.msgType ≠ MESSAGE_TYPE_NOTIFICATION_IND ∧ r.msgType ≠ MESSAGE_TYPE_DELIVERY_IND

/-- `MSG_TO_MAP[i]`, with the exception for an index that is out of bounds. -/
def msgToMap (i : ℤ) : Option JString := if 0 ≤ i then MSG_TO_MAP[i.toNat]? else none

/-- One row in the loop of `updateMms`. -/
def updateMmsRow (init : Bool) (oldMmsList newMmsList mMmsAddedList : ℕ) (h : Heap) (r : MmsRow) :
    Option Heap :=
  if r.visible then do
    let folder ← msgToMap r.boxType
    let msg : Message := ⟨r.id, folder, r.boxType, r.threadId, r.date⟩
    let h := h.put newMmsList msg
    let (oldMsg, h) := h.remove oldMmsList r.id
    return if !init && oldMsg.all fun oldMsg => oldMsg.mDate ≠ r.date then h.put mMmsAddedList msg
      else h
  else some h

/-- `updateMms`; a store without rows is not compared. -/
def updateMms (init : Bool) (crMms : Option (List MmsRow)) (s : Lists) : Option Lists :=
  let s := if init then s.clear else s
  match crMms with
  | none => some s
  | some [] => some s
  | some rows => do
    let heap ← rows.foldlM (updateMmsRow init s.list s.next s.added) (s.heap.clear s.next)
    return { heap, next := s.next + 1, list := s.next, added := s.added, deleted := s.list }

/-! ### Sending the events -/

/-- The method of the listener that is called. -/
inductive Callback
  | onNewMessage
  | onSendingSuccess
  | onSendingFailure
  | onMessageDeleted
  deriving DecidableEq, Repr

/-- `SMS_GSM`, `SMS_CDMA` and `MMS`. -/
inductive MsgType
  | smsGsm
  | smsCdma
  | mms
  deriving DecidableEq, Repr

/-- A call of the listener. -/
structure Event where
  callback : Callback
  masId : ℕ
  handle : JString
  folder : JString
  msgType : MsgType
  deriving DecidableEq, Repr

/-- What is outside the observer when events are sent: the kind of phone, and the order in which
`values()` goes through the map of a reference. -/
structure Env where
  cdma : Bool
  values : Kind → ℕ → List Message → List Message
  values_perm : ∀ kind m l, (values kind m l).Perm l

def PRE_PATH : JString := js "telecom/msg/"
def SENT : JString := js "sent"
def OUTBOX : JString := js "outbox"
def DELETED : JString := js "deleted"

def MESSAGE_TYPE_INBOX : ℤ := 1
def MESSAGE_TYPE_SENT : ℤ := 2
def MESSAGE_TYPE_OUTBOX : ℤ := 4
def MESSAGE_TYPE_FAILED : ℤ := 5
def MESSAGE_BOX_SENT : ℤ := 2

/-- `type`, by the kind of phone. -/
def Env.smsType (env : Env) : MsgType := if env.cdma then .smsCdma else .smsGsm

/-- `folderName`. -/
def Message.folderName (msg : Message) : JString :=
  if msg.mThreadId = -1 then DELETED else msg.mFolderName

/-- What `newSms` does with a message. -/
def newSmsEvent (type : MsgType) (msg : Message) : Option Event :=
  if msg.mType = MESSAGE_TYPE_SENT then
    some ⟨.onSendingSuccess, SMS_MMS_ID, smsHandle msg.mId, PRE_PATH ++ SENT, type⟩
  else if msg.mType = MESSAGE_TYPE_FAILED then
    some ⟨.onSendingFailure, SMS_MMS_ID, smsHandle msg.mId, PRE_PATH ++ OUTBOX, type⟩
  else if msg.mType = MESSAGE_TYPE_INBOX ∨ msg.mType = MESSAGE_TYPE_OUTBOX then
    some ⟨.onNewMessage, SMS_MMS_ID, smsHandle msg.mId, PRE_PATH ++ msg.folderName, type⟩
  else none

/-- What `deletedSms` does with a message. -/
def deletedSmsEvent (type : MsgType) (msg : Message) : Event :=
  ⟨.onMessageDeleted, SMS_MMS_ID, smsHandle msg.mId, PRE_PATH ++ msg.folderName, type⟩

/-- The notification of a new MMS. -/
def newMmsEvent (msg : Message) : Event :=
  ⟨.onNewMessage, SMS_MMS_ID, mmsHandle msg.mId, PRE_PATH ++ msg.folderName, .mms⟩

/-- What `newMms` does with a message. -/
def newMmsEvents (msg : Message) : List Event :=
  newMmsEvent msg ::
    if msg.mType = MESSAGE_BOX_SENT then
      [⟨.onSendingSuccess, SMS_MMS_ID, mmsSentHandle msg.mId, PRE_PATH ++ SENT, .mms⟩]
    else []

/-- What `deletedMms` does with a message. -/
def deletedMmsEvent (msg : Message) : Event :=
  ⟨.onMessageDeleted, SMS_MMS_ID, mmsHandle msg.mId, PRE_PATH ++ msg.folderName, .mms⟩

/-- `newSms`, `deletedSms`, `newMms` and `deletedMms`, on the values of the map. -/
def newSms (type : MsgType) (values : List Message) : List Event :=
  values.filterMap (newSmsEvent type)

def deletedSms (type : MsgType) (values : List Message) : List Event :=
  values.map (deletedSmsEvent type)

def newMms (values : List Message) : List Event := values.flatMap newMmsEvents

def deletedMms (values : List Message) : List Event := values.map deletedMmsEvent

/-- The events of a store in `sendEvents`: those of a map that is not empty, if there is a listener;
then the map is cleared. -/
def sendHalf (mListener : Bool) (values : ℕ → List Message → List Message)
    (new deleted : List Message → List Event) (s : Lists) : List Event × Lists :=
  let send (m : ℕ) (event : List Message → List Event) (s : Lists) : List Event × Lists :=
    if (s.heap m).length > 0 then
      (if mListener then event (values m (s.heap m)) else [], { s with heap := s.heap.clear m })
    else ([], s)
  let (news, s) := send s.added new s
  let (gone, s) := send s.deleted deleted s
  (news ++ gone, s)

/-- The observer: the maps of the two stores. -/
structure State where
  sms : Lists
  mms : Lists

def State.initial : State := ⟨.initial, .initial⟩

/-- `sendEvents`. -/
def sendEvents (mListener : Bool) (env : Env) (s : State) : List Event × State :=
  let (sms, smsLists) := sendHalf mListener (env.values .sms) (newSms env.smsType)
    (deletedSms env.smsType) s.sms
  let (mms, mmsLists) := sendHalf mListener (env.values .mms) newMms deletedMms s.mms
  (sms ++ mms, ⟨smsLists, mmsLists⟩)

/-! ### Runs -/

/-- The contents of the two stores, in the order in which the cursors give the rows. -/
structure Content where
  sms : List SmsRow
  mms : List MmsRow
  sms_ids : IsDict SmsRow.id sms
  mms_ids : IsDict MmsRow.id mms

/-- `update`. -/
def update (init : Bool) (c : Content) (s : State) : Option State := do
  let sms := updateSms init (some c.sms) s.sms
  let mms ← updateMms init (some c.mms) s.mms
  return ⟨sms, mms⟩

/-- What is seen of an update: the messages that `newSms` goes through, and the events. -/
structure Turn where
  candidates : List Message
  events : List Event

/-- `update(false)` and `sendEvents()`, with a registered listener. -/
def turn (env : Env) (c : Content) (s : State) : Option (Turn × State) := do
  let s ← update false c s
  let (events, s') := sendEvents true env s
  return (⟨s.sms.heap s.sms.added, events⟩, s')

/-- One update after the other. -/
def turns : State → List (Env × Content) → Option (List Turn)
  | _, [] => some []
  | s, (env, c) :: rest => do
    let (t, s) ← turn env c s
    let ts ← turns s rest
    return t :: ts

/-- The contents one after the other, the first of them seen by `update(true)`. -/
def run (c : Content) (rest : List (Env × Content)) : Option (List Turn) := do
  let s ← update true c .initial
  turns s rest

/-- Each turn has the property `P` of the content before it and the content it sees. -/
def Follows (P : Env → Content → Content → Turn → Prop) :
    Content → List (Env × Content) → List Turn → Prop
  | _, [], [] => True
  | before, (env, now) :: rest, t :: ts => P env before now t ∧ Follows P now rest ts
  | _, _, _ => False

/-! ### The maps of a store -/

section Halves

variable {h : Heap} {s : Lists} {l msgs a d : List Message} {msg : Message} {old new added m m' : ℕ}
  {isNew : Option Message → Message → Bool} {init : Bool}

/-- The references of the maps are in use, and the added messages have a map of their own. -/
structure Separate (s : Lists) : Prop where
  added_ne_list : s.added ≠ s.list
  added_ne_deleted : s.added ≠ s.deleted
  list_lt : s.list < s.next
  added_lt : s.added < s.next
  deleted_lt : s.deleted < s.next

/-- The messages `l` are remembered, and nothing is to be sent. -/
structure Tracks (s : Lists) (l : List Message) : Prop where
  separate : Separate s
  list : s.heap s.list = l
  added : s.heap s.added = []
  deleted : s.heap s.deleted = []

/-- The messages `a` have been added and `d` deleted.  The messages `l` are remembered once these
have been sent: the remembered map may still be the map of the deleted ones. -/
structure Compared (s : Lists) (l a d : List Message) : Prop where
  separate : Separate s
  added : s.heap s.added = a
  deleted : s.heap s.deleted = d
  list : s.list = s.deleted ∧ l = [] ∨ s.list ≠ s.deleted ∧ s.heap s.list = l

@[simp] theorem Heap.clear_same : h.clear m m = [] := Function.update_self ..

theorem Heap.clear_of_ne (hne : m' ≠ m) : h.clear m m' = h m' := Function.update_of_ne hne ..

theorem Heap.clear_eq_nil (hm : h m' = []) : h.clear m m' = [] := by
  by_cases hne : m' = m
  · rw [hne, Heap.clear_same]
  · rw [Heap.clear_of_ne hne, hm]

theorem tracks_clear (hs : Separate s) : Tracks s.clear [] where
  separate := ⟨hs.added_ne_list, hs.added_ne_deleted, hs.list_lt, hs.added_lt, hs.deleted_lt⟩
  list := Heap.clear_eq_nil (Heap.clear_eq_nil Heap.clear_same)
  added := Heap.clear_eq_nil Heap.clear_same
  deleted := Heap.clear_same

theorem separate_initial : Separate Lists.initial := by
  constructor <;> decide

theorem Compared.tracks (hs : Compared s l [] []) : Tracks s l where
  separate := hs.separate
  list := by
    obtain ⟨heq, rfl⟩ | ⟨-, hl⟩ := hs.list
    · rw [heq, hs.deleted]
    · exact hl
  added := hs.added
  deleted := hs.deleted

/-! #### Sending -/

/-- Sending from a map that is empty does nothing, so the two cases of `sendHalf` agree. -/
theorem sendHalf_eq {values : ℕ → List Message → List Message}
    {news gone : List Message → List Event}
    (hvalues : ∀ m, values m [] = []) (hnew : news [] = []) (hgone : gone [] = [])
    (hs : Separate s) :
    sendHalf true values news gone s =
      (news (values s.added (s.heap s.added)) ++ gone (values s.deleted (s.heap s.deleted)),
        { s with heap := (s.heap.clear s.added).clear s.deleted }) := by
  have hclear {h : Heap} {m : ℕ} (hm : h m = []) : h.clear m = h := by
    rw [Heap.clear, ← hm, Function.update_eq_self]
  have hne : (s.heap.clear s.added) s.deleted = s.heap s.deleted :=
    Heap.clear_of_ne (Ne.symm hs.added_ne_deleted)
  rw [sendHalf]
  by_cases ha : s.heap s.added = []
  · by_cases hd : s.heap s.deleted = []
    · simp [ha, hd, hvalues, hnew, hgone, hclear]
    · simp [ha, hvalues, hnew, hclear, List.length_pos_iff.2 hd]
  · by_cases hd : s.heap s.deleted = []
    · simp [hd, hvalues, hgone, List.length_pos_iff.2 ha, hne, hclear]
    · simp [List.length_pos_iff.2 ha, hne, List.length_pos_iff.2 hd]

theorem tracks_sent (hs : Compared s l a d) :
    Tracks { s with heap := (s.heap.clear s.added).clear s.deleted } l where
  separate := ⟨hs.separate.added_ne_list, hs.separate.added_ne_deleted, hs.separate.list_lt,
    hs.separate.added_lt, hs.separate.deleted_lt⟩
  list := by
    dsimp only
    obtain ⟨heq, rfl⟩ | ⟨hne, hl⟩ := hs.list
    · -- cleared through the other reference
      rw [heq, Heap.clear_same]
    · rw [Heap.clear_of_ne hne, Heap.clear_of_ne (Ne.symm hs.separate.added_ne_list), hl]
  added := Heap.clear_eq_nil Heap.clear_same
  deleted := Heap.clear_same

/-! #### Comparing -/

/-- One visible row, whatever makes a message new. -/
def compareMessage (isNew : Option Message → Message → Bool) (old new added : ℕ) (h : Heap)
    (msg : Message) : Heap :=
  let h := h.put new msg
  let (oldMsg, h) := h.remove old msg.mId
  if isNew oldMsg msg then h.put added msg else h

/-- All visible rows. -/
def compareRows (isNew : Option Message → Message → Bool) (msgs : List Message) (s : Lists) :
    Lists where
  heap := msgs.foldl (compareMessage isNew s.list s.next s.added) (s.heap.clear s.next)
  next := s.next + 1
  list := s.next
  added := s.added
  deleted := s.list

/-- The three maps of a comparison. -/
def view (old new added : ℕ) (h : Heap) : Comparison Message := ⟨h old, h new, h added⟩

theorem view_compareMessage (hon : old ≠ new) (hoa : old ≠ added) (hna : new ≠ added) :
    view old new added (compareMessage isNew old new added h msg) =
      compareStep Message.mId isNew (view old new added h) msg := by
  have hput : h.put new msg old = h old := Function.update_of_ne hon ..
  simp only [compareMessage, Heap.remove, hput, view, compareStep]
  by_cases hn : isNew (lookupKey Message.mId (h old) msg.mId) msg
  · simp [hn, Heap.put, hoa, hna, Ne.symm hon, Ne.symm hoa, Ne.symm hna]
  · simp [hn, Heap.put, Ne.symm hon, Ne.symm hoa, Ne.symm hna]

theorem view_foldl_compareMessage (hon : old ≠ new) (hoa : old ≠ added) (hna : new ≠ added) :
    view old new added (msgs.foldl (compareMessage isNew old new added) h) =
      msgs.foldl (compareStep Message.mId isNew) (view old new added h) := by
  induction msgs generalizing h with
  | nil => rfl
  | cons msg msgs ih => rw [List.foldl_cons, ih, view_compareMessage hon hoa hna, List.foldl_cons]

/-- **A comparison.**  The messages that are new in comparison with the remembered ones are added,
and the remembered ones without a message of the same id are deleted. -/
theorem compared_compareRows (isNew : Option Message → Message → Bool) (hs : Tracks s l)
    (hd : IsDict Message.mId msgs) :
    Compared (compareRows isNew msgs s) msgs
      (msgs.filter fun msg => isNew (lookupKey Message.mId l msg.mId) msg)
      (l.filter fun b => ∀ a ∈ msgs, a.mId ≠ b.mId) := by
  have hln : s.list ≠ s.next := Nat.ne_of_lt hs.separate.list_lt
  have han : s.added ≠ s.next := Nat.ne_of_lt hs.separate.added_lt
  have hview :=
    @view_foldl_compareMessage (s.heap.clear s.next) msgs s.list s.next s.added isNew hln
    (Ne.symm hs.separate.added_ne_list) (Ne.symm han)
  have hstart : view s.list s.next s.added (s.heap.clear s.next) = ⟨l, [], []⟩ := by
    rw [view, Heap.clear_of_ne hln, Heap.clear_of_ne han, Heap.clear_same, hs.list, hs.added]
  rw [hstart, foldl_compareStep hd (by simp) (by simp), view, Comparison.mk.injEq] at hview
  obtain ⟨hold, hnew, hadded⟩ := hview
  refine ⟨⟨han, hs.separate.added_ne_list, Nat.lt_succ_self _, ?_, ?_⟩, hadded, hold,
    .inr ⟨Ne.symm hln, hnew⟩⟩
  · exact Nat.lt_succ_of_lt hs.separate.added_lt
  · exact Nat.lt_succ_of_lt hs.separate.list_lt

/-- Nothing is remembered yet, and messages that were not remembered are not new. -/
theorem tracks_compareRows (hs : Tracks s []) (hd : IsDict Message.mId msgs)
    (hnew : ∀ msg, isNew none msg = false) : Tracks (compareRows isNew msgs s) msgs := by
  have hc := compared_compareRows isNew hs hd
  have hadded : (msgs.filter fun msg => isNew (lookupKey Message.mId [] msg.mId) msg) = [] :=
    List.filter_eq_nil_iff.2 fun msg _ => by simp [lookupKey, hnew]
  rw [hadded] at hc
  exact hc.tracks

end Halves

end Observer

end Map

end Msm8909w
