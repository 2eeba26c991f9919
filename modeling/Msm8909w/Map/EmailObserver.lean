import Msm8909w.Map.Observer

/-!
# The observer of the e-mail store

`EmailContentObserver` of `BluetoothMnsEmail.java` remembers the messages of one account and
compares them with the table of all messages when that has changed.  It has a map of the messages
outside the deleted mailbox, `mEmailList`, which is replaced when the table has a row, and a map of
deleted messages that have been reported, `mDeletedList`, which only grows.

* `tracks_turns` : what the two maps hold after any history,
* `email_notifications_iff` : after any history, the next notifications are the differences to the
  last content exactly if no message is deleted for a second time and none comes back, unchanged,
  after a table without rows.
-/

namespace Msm8909w

namespace Map

namespace EmailObserver

open Observer (Callback)

/-! ### Messages and mailboxes -/

/-- `EMAIL_TO_MAP`. -/
def EMAIL_TO_MAP : List JString :=
  [js "inbox", js "", js "", js "draft", js "outbox", js "sent", js "deleted", js ""]

def EMAIL : JString := js "EMAIL"

def TYPE_INBOX : ℤ := 0
def TYPE_DRAFT : ℤ := 3
def TYPE_OUTBOX : ℤ := 4
def TYPE_SENT : ℤ := 5
def TYPE_DELETED : ℤ := 6

/-- `EmailBox`; the display name may be null. -/
structure EmailBox where
  mId : ℤ
  mDisplayName : Option JString
  mAccountKey : ℤ
  mType : ℤ
  deriving DecidableEq, Repr

/-- `EmailMessage`. -/
structure EmailMessage where
  mId : ℤ
  mAccountKey : ℤ
  mFolderName : Option JString
  mType : ℤ
  deriving DecidableEq, Repr

/-- The columns of a message, as the cursor hands them out. -/
structure Row where
  id : ℤ
  accountKey : ℤ
  mailboxKey : ℤ
  deriving DecidableEq, Repr

/-- `isMapFolder`. -/
def isMapFolder (type : ℤ) : Bool :=
  type = TYPE_INBOX ∨ type = TYPE_OUTBOX ∨ type = TYPE_SENT ∨ type = TYPE_DRAFT ∨
    type = TYPE_DELETED

/-- The observer. -/
structure State where
  mEmailBoxList : List EmailBox
  mEmailList : List EmailMessage
  mDeletedList : List EmailMessage
  mEmailAddedList : List EmailMessage
  mEmailDeletedList : List EmailMessage
  deriving DecidableEq, Repr

/-- `containsKey`. -/
def containsKey (d : List EmailMessage) (id : ℤ) : Bool := (lookupKey EmailMessage.mId d id).isSome

/-- `put(msg.mId, msg)`. -/
def put (d : List EmailMessage) (msg : EmailMessage) : List EmailMessage :=
  assign EmailMessage.mId d msg

/-! ### Updating -/

/-- `mEmailBoxList`, filled from the cursor. -/
def boxList (crBox : Option (List EmailBox)) : List EmailBox :=
  (crBox.getD []).foldl (assign EmailBox.mId) []

/-- `updateEmailBox`. -/
def updateEmailBox (crBox : Option (List EmailBox)) (s : State) : State :=
  { s with mEmailBoxList := boxList crBox }

/-- `clear`. -/
def clear (s : State) : State := ⟨s.mEmailBoxList, [], [], [], []⟩

/-- What is outside the observer: the number and the account of the instance, and the order in which
`values()` goes through a map. -/
structure Env where
  mMasId : ℕ
  mAccountKey : ℤ
  values : List EmailMessage → List EmailMessage
  values_perm : ∀ l, (values l).Perm l

/-- One row in the loop of `update`, with the map `emailList` that is being filled. -/
def updateRow (env : Env) (init : Bool) (oldEmailList : List EmailMessage)
    (p : List EmailMessage × State) (r : Row) : List EmailMessage × State :=
  let (emailList, s) := p
  if r.accountKey ≠ env.mAccountKey then p
  else
    match lookupKey EmailBox.mId s.mEmailBoxList r.mailboxKey with
    -- the mailbox is not updated
    | none => p
    | some box =>
      let folderName :=
        if isMapFolder box.mType then some (EMAIL_TO_MAP.getD box.mType.toNat [])
          else box.mDisplayName
      let msg : EmailMessage := ⟨r.id, r.accountKey, folderName, box.mType⟩
      if box.mType = TYPE_DELETED then
        if init then (emailList, { s with mDeletedList := put s.mDeletedList msg })
        else if !containsKey s.mDeletedList r.id && !containsKey s.mEmailDeletedList r.id then
          (emailList, { s with mEmailDeletedList := put s.mEmailDeletedList msg })
        else p
      else
        (put emailList msg,
          if !containsKey oldEmailList r.id && !init && !containsKey s.mEmailAddedList r.id then
            { s with mEmailAddedList := put s.mEmailAddedList msg }
          else s)

/-- `update`; without a cursor or a row nothing is compared. -/
def update (env : Env) (init : Bool) (crEmail : Option (List Row)) (s : State) : State :=
  let s := if init then clear s else s
  match crEmail with
  | none => s
  | some [] => s
  | some rows =>
    let (emailList, s) := rows.foldl (updateRow env init s.mEmailList) ([], s)
    { s with mEmailList := emailList }

/-! ### Sending the events -/

/-- A call of the listener. -/
structure Event where
  callback : Callback
  masId : ℕ
  handle : JString
  folder : JString
  msgType : JString
  deriving DecidableEq, Repr

/-- The call for a message. -/
def Env.event (env : Env) (callback : Callback) (email : EmailMessage) : Event :=
  ⟨callback, env.mMasId, decimal (email.mId + HANDLE_OFFSET.getD env.mMasId 0),
    Observer.PRE_PATH ++ email.mFolderName.getD (js "null"), EMAIL⟩

/-- What `newEmail` does with a message. -/
def newEmailEvents (env : Env) (email : EmailMessage) : List Event :=
  env.event .onNewMessage email ::
    if email.mType = TYPE_SENT then [env.event .onSendingSuccess email] else []

/-- `newEmail`. -/
def newEmail (mListener : Bool) (env : Env) (s : State) : List Event :=
  if mListener then (env.values s.mEmailAddedList).flatMap (newEmailEvents env) else []

/-- `deletedEmail`. -/
def deletedEmail (mListener : Bool) (env : Env) (s : State) : List Event :=
  if mListener then (env.values s.mEmailDeletedList).map (env.event .onMessageDeleted) else []

/-- `sendEvents`. -/
def sendEvents (mListener : Bool) (env : Env) (s : State) : List Event × State :=
  let (news, s) :=
    if s.mEmailAddedList.length > 0 then
      (newEmail mListener env s, { s with mEmailAddedList := [] })
    else ([], s)
  let (gone, s) :=
    if s.mEmailDeletedList.length > 0 then
      (deletedEmail mListener env s,
        { s with
          mDeletedList := s.mEmailDeletedList.foldl put s.mDeletedList
          mEmailDeletedList := [] })
    else ([], s)
  (news ++ gone, s)

/-! ### Contents -/

/-- The mailboxes and the whole message table, in the order of the cursors.  An id is in the table
once. -/
structure Content where
  boxes : List EmailBox
  rows : List Row
  ids : IsDict Row.id rows

/-- `registerContentObserver` for a content. -/
def register (env : Env) (c : Content) (s : State) : State :=
  update env true (some c.rows) (updateEmailBox (some c.boxes) s)

/-- What the observer does when the content has changed, with a registered listener. -/
def turn (env : Env) (c : Content) (s : State) : List Event × State :=
  sendEvents true env (update env false (some c.rows) (updateEmailBox (some c.boxes) s))

/-- The content changes again and again. -/
def turns (env : Env) (s : State) (cs : List Content) : State :=
  cs.foldl (fun s c => (turn env c s).2) s

/-- The message of a row of the account that is in a mailbox. -/
def message (env : Env) (boxes : List EmailBox) (r : Row) : Option EmailMessage :=
  if r.accountKey ≠ env.mAccountKey then none
  else (lookupKey EmailBox.mId boxes r.mailboxKey).map fun box =>
    ⟨r.id, r.accountKey,
      if isMapFolder box.mType then some (EMAIL_TO_MAP.getD box.mType.toNat [])
        else box.mDisplayName,
      box.mType⟩

/-- The messages of the account. -/
def Content.messages (env : Env) (c : Content) : List EmailMessage :=
  c.rows.filterMap (message env (boxList (some c.boxes)))

/-- The messages in a mailbox other than deleted. -/
def Content.live (env : Env) (c : Content) : List EmailMessage :=
  (c.messages env).filter fun m => m.mType ≠ TYPE_DELETED

/-- The messages in the deleted mailbox. -/
def Content.deleted (env : Env) (c : Content) : List EmailMessage :=
  (c.messages env).filter fun m => m.mType = TYPE_DELETED

/-- The events are the differences: one notification for each message that is now outside the
deleted mailbox and was not before, and one for each that is now in it and was not before. -/
structure Differences (env : Env) (before now : Content) (events : List Event) : Prop where
  new : (events.filter fun e => e.callback = .onNewMessage).Perm
    (((now.live env).filter fun m => !containsKey (before.live env) m.mId).map
      (env.event .onNewMessage))
  deleted : (events.filter fun e => e.callback = .onMessageDeleted).Perm
    (((now.deleted env).filter fun m => !containsKey (before.deleted env) m.mId).map
      (env.event .onMessageDeleted))

/-! ### What an update does -/

section Updating

variable {env : Env} {init : Bool} {d l old msgs : List EmailMessage} {msg : EmailMessage}
    {s : State}
  {c : Content} {id : ℤ}

theorem containsKey_iff : containsKey d id = true ↔ ∃ m ∈ d, m.mId = id := by
  rw [containsKey, ← Option.ne_none_iff_isSome, ne_eq, lookupKey_eq_none]
  push Not
  rfl

theorem containsKey_concat : containsKey (d ++ [msg]) id = (containsKey d id || msg.mId = id) := by
  rw [Bool.eq_iff_iff, Bool.or_eq_true, containsKey_iff, containsKey_iff]
  simp [or_and_right, exists_or]

/-- None of the messages is in the map. -/
def Fresh (d msgs : List EmailMessage) : Prop := ∀ m ∈ msgs, containsKey d m.mId = false

theorem put_of_fresh (h : containsKey d msg.mId = false) : put d msg = d ++ [msg] := by
  refine assign_of_forall_ne fun b hb hid => ?_
  rw [containsKey_iff.2 ⟨b, hb, hid⟩] at h
  cases h

theorem Fresh.concat (h : Fresh d (msg :: msgs)) (hd : IsDict EmailMessage.mId (msg :: msgs)) :
    Fresh (d ++ [msg]) msgs := by
  intro m hm
  have hne : msg.mId ≠ m.mId := (List.pairwise_cons.1 hd).1 m hm
  rw [containsKey_concat, h m (List.mem_cons_of_mem _ hm), decide_eq_false hne]
  rfl

theorem Fresh.tail (h : Fresh d (msg :: msgs)) : Fresh d msgs :=
  fun m hm => h m (List.mem_cons_of_mem _ hm)

/-- What a row does once its message is known. -/
def takeMessage (init : Bool) (oldEmailList : List EmailMessage) (p : List EmailMessage × State)
    (msg : EmailMessage) : List EmailMessage × State :=
  if msg.mType = TYPE_DELETED then
    if init then (p.1, { p.2 with mDeletedList := put p.2.mDeletedList msg })
    else if !containsKey p.2.mDeletedList msg.mId && !containsKey p.2.mEmailDeletedList msg.mId then
      (p.1, { p.2 with mEmailDeletedList := put p.2.mEmailDeletedList msg })
    else p
  else
    (put p.1 msg,
      if !containsKey oldEmailList msg.mId && !init && !containsKey p.2.mEmailAddedList msg.mId then
        { p.2 with mEmailAddedList := put p.2.mEmailAddedList msg }
      else p.2)

theorem updateRow_eq (p : List EmailMessage × State) (r : Row) : updateRow env init old p r =
    (message env p.2.mEmailBoxList r).elim p (takeMessage init old p) := by
  obtain ⟨l, s⟩ := p
  unfold updateRow message
  by_cases hkey : r.accountKey ≠ env.mAccountKey
  · simp only [if_pos hkey, Option.elim_none]
  · simp only [if_neg hkey]
    cases lookupKey EmailBox.mId s.mEmailBoxList r.mailboxKey <;> rfl

theorem takeMessage_boxList (p : List EmailMessage × State) :
    (takeMessage init old p msg).2.mEmailBoxList = p.2.mEmailBoxList := by
  unfold takeMessage
  split_ifs <;> rfl

/-- The loop over the rows is one over the messages. -/
theorem foldl_updateRow (rows : List Row) (p : List EmailMessage × State) :
    rows.foldl (updateRow env init old) p =
      (rows.filterMap (message env p.2.mEmailBoxList)).foldl (takeMessage init old) p := by
  induction rows generalizing p with
  | nil => rfl
  | cons r rows ih =>
    rw [List.foldl_cons, ih, updateRow_eq]
    cases hm : message env p.2.mEmailBoxList r with
    | none => rw [List.filterMap_cons_none hm, Option.elim_none]
    | some msg =>
        rw [List.filterMap_cons_some hm, Option.elim_some, List.foldl_cons, takeMessage_boxList]

/-- The first time all messages are remembered. -/
theorem foldl_takeMessage_init (hd : IsDict EmailMessage.mId msgs) (hl : Fresh l msgs)
    (hdel : Fresh s.mDeletedList msgs) : msgs.foldl (takeMessage true old) (l, s) =
      (l ++ msgs.filter fun m => m.mType ≠ TYPE_DELETED,
        { s with
          mDeletedList := s.mDeletedList ++ msgs.filter fun m => m.mType = TYPE_DELETED }) := by
  induction msgs generalizing l s with
  | nil => simp
  | cons msg msgs ih =>
    have hd' := (List.pairwise_cons.1 hd).2
    have hmem := List.mem_cons_self (a := msg) (l := msgs)
    rw [List.foldl_cons]
    by_cases htype : msg.mType = TYPE_DELETED
    · have hstep : takeMessage true old (l, s) msg =
          (l, { s with mDeletedList := s.mDeletedList ++ [msg] }) := by
        simp [takeMessage, htype, put_of_fresh (hdel msg hmem)]
      rw [hstep, ih hd' hl.tail (hdel.concat hd)]
      simp [htype]
    · have hstep : takeMessage true old (l, s) msg = (l ++ [msg], s) := by
        simp [takeMessage, htype, put_of_fresh (hl msg hmem)]
      rw [hstep, ih hd' (hl.concat hd) hdel.tail]
      simp [htype]

/-- Later the messages that are not remembered are collected. -/
theorem foldl_takeMessage (hd : IsDict EmailMessage.mId msgs) (hl : Fresh l msgs)
    (hadd : Fresh s.mEmailAddedList msgs) (hdel : Fresh s.mEmailDeletedList msgs) :
    msgs.foldl (takeMessage false old) (l, s) =
      (l ++ msgs.filter fun m => m.mType ≠ TYPE_DELETED,
        { s with
          mEmailAddedList := s.mEmailAddedList ++
            (msgs.filter fun m => m.mType ≠ TYPE_DELETED).filter fun m => !containsKey old m.mId
          mEmailDeletedList := s.mEmailDeletedList ++
            (msgs.filter fun m => m.mType = TYPE_DELETED).filter fun m =>
              !containsKey s.mDeletedList m.mId }) := by
  induction msgs generalizing l s with
  | nil => simp
  | cons msg msgs ih =>
    have hd' := (List.pairwise_cons.1 hd).2
    have hmem := List.mem_cons_self (a := msg) (l := msgs)
    have hfresh := put_of_fresh (hl msg hmem)
    rw [List.foldl_cons]
    by_cases htype : msg.mType = TYPE_DELETED
    · cases hold : containsKey s.mDeletedList msg.mId with
      | true =>
        have hstep : takeMessage false old (l, s) msg = (l, s) := by simp [takeMessage, htype, hold]
        rw [hstep, ih hd' hl.tail hadd.tail hdel.tail]
        simp [htype, hold]
      | false =>
        have hstep : takeMessage false old (l, s) msg =
            (l, { s with mEmailDeletedList := s.mEmailDeletedList ++ [msg] }) := by
          simp [takeMessage, htype, hold, hdel msg hmem, put_of_fresh (hdel msg hmem)]
        rw [hstep, ih (s := { s with mEmailDeletedList := s.mEmailDeletedList ++ [msg] }) hd'
          hl.tail
          hadd.tail (hdel.concat hd)]
        simp [htype, hold]
    · cases hold : containsKey old msg.mId with
      | true =>
        have hstep : takeMessage false old (l, s) msg = (l ++ [msg], s) := by
          simp [takeMessage, htype, hold, hfresh]
        rw [hstep, ih hd' (hl.concat hd) hadd.tail hdel.tail]
        simp [htype, hold]
      | false =>
        have hstep : takeMessage false old (l, s) msg =
            (l ++ [msg], { s with mEmailAddedList := s.mEmailAddedList ++ [msg] }) := by
          simp [takeMessage, htype, hold, hadd msg hmem, put_of_fresh (hadd msg hmem), hfresh]
        rw [hstep, ih (s := { s with mEmailAddedList := s.mEmailAddedList ++ [msg] })
          hd' (hl.concat hd)
          (hadd.concat hd) hdel.tail]
        simp [htype, hold]

theorem isDict_messages (env : Env) (c : Content) : IsDict EmailMessage.mId (c.messages env) := by
  refine List.Pairwise.filterMap _ (fun r r' hne m hm m' hm' => ?_) c.ids
  have hid : ∀ {r m}, message env (boxList (some c.boxes)) r = some m → m.mId = r.id := by
    intro r m h
    unfold message at h
    split_ifs at h
    obtain ⟨box, -, rfl⟩ := Option.map_eq_some_iff.1 h
    rfl
  rw [hid hm, hid hm']
  exact hne

theorem fresh_nil : Fresh [] msgs := fun _ _ => rfl

theorem messages_of_rows (h : c.rows = []) : c.messages env = [] := by
  rw [Content.messages, h]
  rfl

/-- An update that looks at a row. -/
theorem update_cons (h : c.rows ≠ []) (hbox : s.mEmailBoxList = boxList (some c.boxes)) :
    update env init (some c.rows) s =
      let s := if init then clear s else s
      let p := (c.messages env).foldl (takeMessage init s.mEmailList) ([], s)
      { p.2 with mEmailList := p.1 } := by
  unfold update Content.messages
  rw [← hbox]
  cases hrows : c.rows with
  | nil => exact absurd hrows h
  | cons r rows => cases init <;> simp only [foldl_updateRow] <;> rfl

/-- The observer after its registration. -/
theorem register_eq (env : Env) (c : Content) (s : State) :
    register env c s = ⟨boxList (some c.boxes), c.live env, c.deleted env, [], []⟩ := by
  unfold register
  by_cases hrows : c.rows = []
  · rw [hrows, Content.live, Content.deleted, messages_of_rows hrows]
    rfl
  · rw [update_cons hrows rfl]
    simp only [if_true]
    rw [foldl_takeMessage_init (isDict_messages env c) fresh_nil fresh_nil]
    rfl

/-- The messages that an update finds to be new, and those that it finds to be deleted. -/
def State.news (env : Env) (c : Content) (s : State) : List EmailMessage :=
  (c.live env).filter fun m => !containsKey s.mEmailList m.mId

def State.gone (env : Env) (c : Content) (s : State) : List EmailMessage :=
  (c.deleted env).filter fun m => !containsKey s.mDeletedList m.mId

/-- Between two updates nothing waits to be sent. -/
structure Idle (s : State) : Prop where
  added : s.mEmailAddedList = []
  deleted : s.mEmailDeletedList = []

/-- The observer after an update, before the events are sent. -/
theorem update_eq (h : Idle s) : update env false (some c.rows) (updateEmailBox (some c.boxes) s) =
    ⟨boxList (some c.boxes), if c.rows = [] then s.mEmailList else c.live env, s.mDeletedList,
      s.news env c, s.gone env c⟩ := by
  obtain ⟨hadded, hdeleted⟩ := h
  obtain ⟨mEmailBoxList, mEmailList, mDeletedList, mEmailAddedList, mEmailDeletedList⟩ := s
  obtain rfl : mEmailAddedList = [] := hadded
  obtain rfl : mEmailDeletedList = [] := hdeleted
  by_cases hrows : c.rows = []
  · rw [if_pos hrows, hrows, State.news, State.gone, Content.live, Content.deleted,
      messages_of_rows hrows]
    rfl
  · rw [update_cons hrows rfl, if_neg hrows]
    simp only [if_neg Bool.false_ne_true]
    rw [foldl_takeMessage (isDict_messages env c) fresh_nil fresh_nil fresh_nil]
    rfl

/-- The events that are sent. -/
theorem events_eq (h : Idle s) : (turn env c s).1 =
    (env.values (s.news env c)).flatMap (newEmailEvents env) ++
    (env.values (s.gone env c)).map (env.event .onMessageDeleted) := by
  have hnil : env.values [] = [] := List.perm_nil.1 (env.values_perm [])
  unfold turn
  rw [update_eq h]
  unfold sendEvents newEmail deletedEmail
  by_cases hnews : s.news env c = [] <;> by_cases hgone : s.gone env c = [] <;>
    simp [hnews, hgone, hnil, List.length_pos_iff]

/-- The observer after the events have been sent. -/
theorem turn_snd (h : Idle s) : (turn env c s).2 =
    ⟨boxList (some c.boxes), if c.rows = [] then s.mEmailList else c.live env,
      (s.gone env c).foldl put s.mDeletedList, [], []⟩ := by
  unfold turn
  rw [update_eq h]
  unfold sendEvents
  by_cases hnews : s.news env c = [] <;> by_cases hgone : s.gone env c = [] <;>
    simp [hnews, hgone, List.length_pos_iff]

end Updating

/-! ### Histories -/

section Histories

variable {env : Env} {s : State} {h : List Content} {c before now : Content}
    {d l : List EmailMessage} {id : ℤ}

/-- The messages outside the deleted mailbox in the last content with a row. -/
def lastLive (env : Env) (h : List Content) : List EmailMessage :=
  h.foldl (fun l c => if c.rows = [] then l else c.live env) []

theorem lastLive_concat :
    lastLive env (h ++ [c]) = if c.rows = [] then lastLive env h else c.live env := by
  unfold lastLive
  rw [List.foldl_append]
  rfl

/-- What the observer remembers of a history. -/
structure Tracks (env : Env) (h : List Content) (s : State) : Prop where
  idle : Idle s
  live : s.mEmailList = lastLive env h
  deleted : ∀ id, containsKey s.mDeletedList id = true ↔
    ∃ c ∈ h, containsKey (c.deleted env) id = true

theorem live_of_rows (h : c.rows = []) : c.live env = [] := by
  rw [Content.live, messages_of_rows h]
  rfl

theorem tracks_register (env : Env) (c : Content) (s : State) :
    Tracks env [c] (register env c s) := by
  rw [register_eq]
  refine ⟨⟨rfl, rfl⟩, ?_, fun id => by simp⟩
  change c.live env = if c.rows = [] then [] else c.live env
  split_ifs with hrows
  · exact live_of_rows hrows
  · rfl

theorem containsKey_put (msg : EmailMessage) :
    containsKey (put d msg) id = true ↔ containsKey d id = true ∨ msg.mId = id := by
  unfold containsKey put
  rw [lookupKey_assign]
  split_ifs with hid
  · simp [hid]
  · simp [hid]

theorem containsKey_foldl_put :
    containsKey (l.foldl put d) id = true ↔ containsKey d id = true ∨ containsKey l id = true := by
  induction l generalizing d with
  | nil => simp [containsKey, lookupKey]
  | cons m l ih =>
    rw [List.foldl_cons, ih, containsKey_put, containsKey_iff (d := m :: l),
      containsKey_iff (d := l)]
    simp [or_assoc]

theorem tracks_turn (ht : Tracks env h s) (c : Content) :
    Tracks env (h ++ [c]) (turn env c s).2 := by
  rw [turn_snd ht.idle]
  refine ⟨⟨rfl, rfl⟩, ?_, fun id => ?_⟩
  · rw [lastLive_concat, ← ht.live]
  · have hgone : containsKey (s.gone env c) id = true ↔
        containsKey (c.deleted env) id = true ∧ ¬containsKey s.mDeletedList id = true := by
      simp only [containsKey_iff, State.gone, List.mem_filter, Bool.not_eq_true',
        ← Bool.not_eq_true]
      constructor
      · rintro ⟨m, ⟨hm, hnot⟩, rfl⟩
        exact ⟨⟨m, hm, rfl⟩, hnot⟩
      · rintro ⟨⟨m, hm, rfl⟩, hnot⟩
        exact ⟨m, ⟨hm, hnot⟩, rfl⟩
    rw [containsKey_foldl_put, hgone, ht.deleted]
    simp only [List.mem_append, List.mem_singleton, or_and_right, exists_or, exists_eq_left]
    rw [or_and_left, and_iff_left (em _)]

theorem tracks_turns (ht : Tracks env h s) (cs : List Content) :
    Tracks env (h ++ cs) (turns env s cs) := by
  induction cs generalizing h s with
  | nil =>
    rw [List.append_nil]
    exact ht
  | cons c cs ih =>
    rw [List.append_cons]
    exact ih (tracks_turn ht c)

/-- No message that the observer still remembers, from before the last content, is among the
differences: none is deleted that was deleted at some time before the last content, and none comes
back that was there in the last content with a row. -/
structure NoStale (env : Env) (history : List Content) (before now : Content) : Prop where
  live : ∀ m ∈ now.live env, containsKey (before.live env) m.mId = false →
    containsKey (lastLive env history) m.mId = false
  deleted : ∀ m ∈ now.deleted env, containsKey (before.deleted env) m.mId = false →
    ∀ c ∈ history, containsKey (c.deleted env) m.mId = false

theorem filter_new (l : List EmailMessage) :
    (l.flatMap (newEmailEvents env)).filter (fun e => e.callback = .onNewMessage) =
      l.map (env.event .onNewMessage) := by
  induction l with
  | nil => rfl
  | cons m l ih =>
    rw [List.flatMap_cons, List.filter_append, ih, newEmailEvents]
    split_ifs <;> rfl

theorem filter_new_deleted (l : List EmailMessage) :
    (l.flatMap (newEmailEvents env)).filter (fun e => e.callback = .onMessageDeleted) = [] := by
  rw [List.filter_eq_nil_iff]
  intro e he
  obtain ⟨m, -, he⟩ := List.mem_flatMap.1 he
  unfold newEmailEvents at he
  split_ifs at he <;> simp only [List.mem_cons, List.not_mem_nil, or_false] at he
  · rcases he with rfl | rfl <;> exact Bool.false_ne_true
  · rw [he]
    exact Bool.false_ne_true

theorem filter_deleted (l : List EmailMessage) (callback : Callback) :
    (l.map (env.event .onMessageDeleted)).filter (fun e => e.callback = callback) =
      if callback = .onMessageDeleted then l.map (env.event .onMessageDeleted) else [] := by
  split_ifs with hc
  · rw [hc, List.filter_eq_self]
    intro e he
    obtain ⟨m, -, rfl⟩ := List.mem_map.1 he
    rfl
  · rw [List.filter_eq_nil_iff]
    intro e he
    obtain ⟨m, -, rfl⟩ := List.mem_map.1 he
    exact fun heq => hc (of_decide_eq_true heq).symm

/-- The notifications of a turn are the differences exactly if nothing stale is among them. -/
theorem differences_iff (ht : Tracks env h s) (hmem : before ∈ h)
    (hlive : before.rows ≠ [] → lastLive env h = before.live env) :
    Differences env before now (turn env now s).1 ↔ NoStale env h before now := by
  have hnew : (((turn env now s).1.filter fun e => e.callback = .onNewMessage)).Perm
      ((s.news env now).map (env.event .onNewMessage)) := by
    rw [events_eq ht.idle, List.filter_append, filter_new, filter_deleted, if_neg nofun,
      List.append_nil]
    exact (env.values_perm _).map _
  have hdel : (((turn env now s).1.filter fun e => e.callback = .onMessageDeleted)).Perm
      ((s.gone env now).map (env.event .onMessageDeleted)) := by
    rw [events_eq ht.idle, List.filter_append, filter_new_deleted, filter_deleted, if_pos rfl,
      List.nil_append]
    exact (env.values_perm _).map _
  have hnews : ((s.news env now).map (env.event .onNewMessage)).Perm
      (((now.live env).filter fun m => !containsKey (before.live env) m.mId).map
        (env.event .onNewMessage)) ↔
      ∀ m ∈ now.live env, (!containsKey (before.live env) m.mId) = true →
        (!containsKey s.mEmailList m.mId) = true := by
    refine perm_map_filter_iff fun m _ hm => ?_
    by_cases hrows : before.rows = []
    · rw [live_of_rows hrows]
      rfl
    · rw [← hlive hrows, ← ht.live]
      exact hm
  have hgone : ((s.gone env now).map (env.event .onMessageDeleted)).Perm
      (((now.deleted env).filter fun m => !containsKey (before.deleted env) m.mId).map
        (env.event .onMessageDeleted)) ↔
      ∀ m ∈ now.deleted env, (!containsKey (before.deleted env) m.mId) = true →
        (!containsKey s.mDeletedList m.mId) = true := by
    refine perm_map_filter_iff fun m _ hm => ?_
    rw [Bool.not_eq_true', ← Bool.not_eq_true, ht.deleted] at hm
    rw [Bool.not_eq_true', ← Bool.not_eq_true]
    exact fun hb => hm ⟨before, hmem, hb⟩
  have hnever : ∀ id, (!containsKey s.mDeletedList id) = true ↔
      ∀ c ∈ h, containsKey (c.deleted env) id = false := by
    intro id
    rw [Bool.not_eq_true', ← Bool.not_eq_true, ht.deleted]
    simp
  constructor
  · rintro ⟨h₁, h₂⟩
    have h₁' := hnews.1 (hnew.symm.trans h₁)
    have h₂' := hgone.1 (hdel.symm.trans h₂)
    refine ⟨fun m hm hb => ?_, fun m hm hb => (hnever _).1 (h₂' m hm (by rw [hb]; rfl))⟩
    rw [← ht.live]
    simpa using h₁' m hm (by rw [hb]; rfl)
  · rintro ⟨h₁, h₂⟩
    refine ⟨hnew.trans (hnews.2 fun m hm hb => ?_),
      hdel.trans (hgone.2 fun m hm hb => (hnever _).2 (h₂ m hm (by simpa using hb)))⟩
    rw [ht.live, h₁ m hm (by simpa using hb)]
    rfl

/-- **E-mail notifications.**  After any history of contents, the notifications for the next one are
the differences to the last content exactly if nothing stale is among these. -/
theorem email_notifications_iff (env : Env) (s : State) (first : Content) (pre : List Content)
    (now : Content) :
    Differences env (pre.getLastD first)
      now (turn env now (turns env (register env first s) pre)).1 ↔
      NoStale env (first :: pre) (pre.getLastD first) now := by
  refine differences_iff (tracks_turns (tracks_register env first s) pre) ?_ fun hrows => ?_
  · cases pre using List.reverseRecOn with
    | nil => exact List.mem_singleton_self first
    | append_singleton pre c => simp
  · cases pre using List.reverseRecOn with
    | nil => exact if_neg hrows
    | append_singleton pre c =>
      rw [List.getLastD_concat] at hrows ⊢
      rw [← List.cons_append, lastLive_concat, if_neg hrows]

end Histories

/-- An inbox and a deleted mailbox. -/
def sampleBoxes : List EmailBox :=
  [⟨1, some (js "Inbox"), 9, TYPE_INBOX⟩, ⟨2, some (js "Trash"), 9, TYPE_DELETED⟩]

/-- Message 5 in the inbox, in the deleted mailbox, and nowhere. -/
def inInbox : Content := ⟨sampleBoxes, [⟨5, 9, 1⟩], by simp [IsDict]⟩

def inTrash : Content := ⟨sampleBoxes, [⟨5, 9, 2⟩], by simp [IsDict]⟩

def nowhere : Content := ⟨sampleBoxes, [], .nil⟩

def sampleEnv : Env := ⟨1, 9, fun l => l, fun l => .refl l⟩

/-- A message that is restored and deleted again is not reported, nor is one that comes back after
the table was empty. -/
theorem stale_not_reported :
    (turn sampleEnv
      inTrash (turns sampleEnv (register sampleEnv inTrash ⟨[], [], [], [], []⟩) [inInbox])).1 =
      [] ∧
    ¬Differences sampleEnv inInbox inTrash
      (turn sampleEnv
        inTrash (turns sampleEnv (register sampleEnv inTrash ⟨[], [], [], [], []⟩) [inInbox])).1 ∧
    (turn sampleEnv
      inInbox (turns sampleEnv (register sampleEnv inInbox ⟨[], [], [], [], []⟩) [nowhere])).1 =
      [] ∧
    ¬Differences sampleEnv nowhere inInbox
      (turn sampleEnv
        inInbox (turns sampleEnv (register sampleEnv inInbox ⟨[], [], [], [], []⟩) [nowhere])).1 :=
        by
  have hdel : (turn sampleEnv inTrash
      (turns sampleEnv (register sampleEnv inTrash ⟨[], [], [], [], []⟩) [inInbox])).1 =
        [] := by decide
  have hnew : (turn sampleEnv inInbox
      (turns sampleEnv (register sampleEnv inInbox ⟨[], [], [], [], []⟩) [nowhere])).1 =
        [] := by decide
  refine ⟨hdel, fun hd => ?_, hnew, fun hd => ?_⟩
  · have hlen := hd.deleted.length_eq
    rw [hdel] at hlen
    revert hlen
    decide
  · have hlen := hd.new.length_eq
    rw [hnew] at hlen
    revert hlen
    decide

end EmailObserver

end Map

end Msm8909w
