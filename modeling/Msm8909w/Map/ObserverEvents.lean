import Msm8909w.Map.Observer

/-!
# Notifications are the differences of the stores

What the listener is told in a turn, compared with the contents of the stores before it and now.

* `sms_notifications` : the notifications of SMS are exactly the differences, over all runs,
* `mms_notifications_iff` : those of MMS are, exactly if no store without rows follows one with
  visible rows and every box has a folder: `updateMms` lacks the branch of `updateSms` for the empty
  store.
-/

namespace Msm8909w

namespace Map

namespace Observer

/-! ### Differences -/

/-- What the observer makes of the rows of a store; `differs` is the change that makes a row new. -/
structure Store (ρ : Type) where
  id : ρ → ℤ
  visible : ρ → Bool
  message : ρ → Message
  differs : ρ → ρ → Bool
  message_id : ∀ r, (message r).mId = id r

namespace Store

variable {ρ : Type} (S : Store ρ) {before now : List ρ} {isNew : Option Message → Message → Bool}
    {r : ρ}

/-- The messages of the visible rows. -/
def messages (rows : List ρ) : List Message := (rows.filter S.visible).map S.message

/-- The visible rows whose id was not visible before or that have changed. -/
def changed (before now : List ρ) : List ρ :=
  now.filter fun r => S.visible r ∧ ((∀ b ∈ before, S.visible b → S.id b ≠ S.id r) ∨
    ∃ b ∈ before, S.visible b ∧ S.id b = S.id r ∧ S.differs b r)

/-- The rows that were visible before and whose id is not visible now. -/
def gone (before now : List ρ) : List ρ :=
  before.filter fun b => S.visible b ∧ ∀ r ∈ now, S.visible r → S.id r ≠ S.id b

variable {S}

theorem isDict_messages (h : IsDict S.id now) : IsDict Message.mId (S.messages now) := by
  refine List.pairwise_map.2 ((h.filter _).imp fun hne => ?_)
  rwa [S.message_id, S.message_id]

theorem filter_messages {p : Message → Bool} :
    (S.messages now).filter p = (now.filter fun r => S.visible r && p (S.message r)).map
      S.message := by
  rw [messages, List.filter_map, List.filter_filter]
  congr 1
  refine List.filter_congr fun r _ => ?_
  rw [Bool.and_comm, Function.comp_apply]

theorem filter_messages_gone :
    ((S.messages before).filter fun b => ∀ a ∈ S.messages now, a.mId ≠ b.mId) =
      (S.gone before now).map S.message := by
  rw [filter_messages, gone]
  congr 1
  refine List.filter_congr fun b _ => ?_
  rw [Bool.decide_and, Bool.decide_coe]
  congr 1
  simp only [messages, List.forall_mem_map, List.mem_filter, S.message_id, and_imp]

theorem filter_messages_changed (hb : IsDict S.id before) (hnone : ∀ m, isNew none m = true)
    (hsome : ∀ b r, isNew (some (S.message b)) (S.message r) = S.differs b r) :
    ((S.messages now).filter fun m => isNew (lookupKey Message.mId (S.messages before) m.mId) m) =
      (S.changed before now).map S.message := by
  rw [filter_messages, changed]
  congr 1
  refine List.filter_congr fun r _ => ?_
  rw [Bool.decide_and, Bool.decide_coe]
  congr 1
  rw [S.message_id, Bool.eq_iff_iff, decide_eq_true_iff]
  cases hl : lookupKey Message.mId (S.messages before) (S.id r) with
  | none =>
    have hne : ∀ b ∈ before, S.visible b → S.id b ≠ S.id r := by
      intro b hmem hv
      have hm := lookupKey_eq_none.1 hl (S.message b)
        (List.mem_map_of_mem (List.mem_filter.2 ⟨hmem, hv⟩))
      rwa [S.message_id] at hm
    rw [hnone]
    exact iff_of_true rfl (.inl hne)
  | some m =>
    obtain ⟨hm, hid⟩ := (lookupKey_eq_some (isDict_messages hb)).1 hl
    obtain ⟨b, hmem, rfl⟩ := List.mem_map.1 hm
    obtain ⟨hmem, hv⟩ := List.mem_filter.1 hmem
    rw [S.message_id] at hid
    rw [hsome]
    constructor
    · intro hd
      exact .inr ⟨b, hmem, hv, hid, hd⟩
    · rintro (hne | ⟨b', hmem', -, hid', hd⟩)
      · exact absurd hid (hne b hmem hv)
      · rwa [eq_of_key_eq hb hmem hmem' (hid.trans hid'.symm)]

end Store

/-- The SMS store: a change of the type makes a row new. -/
def smsStore : Store SmsRow where
  id := SmsRow.id
  visible := SmsRow.visible
  message := SmsRow.message
  differs b r := b.type ≠ r.type
  message_id _ := rfl

/-- The message of an MMS whose box has a folder. -/
def MmsRow.message (r : MmsRow) : Message :=
  ⟨r.id, (msgToMap r.boxType).getD [], r.boxType, r.threadId, r.date⟩

/-- The MMS store: a change of the date makes a row new. -/
def mmsStore : Store MmsRow where
  id := MmsRow.id
  visible := MmsRow.visible
  message := MmsRow.message
  differs b r := b.date ≠ r.date
  message_id _ := rfl

/-! ### What the listener is to be told -/

/-- Notifications of SMS, but for deletions. -/
def Event.isNewSms (e : Event) : Bool := e.msgType ≠ .mms ∧ e.callback ≠ .onMessageDeleted

def Event.isDeletedSms (e : Event) : Bool := e.msgType ≠ .mms ∧ e.callback = .onMessageDeleted

def Event.isNewMms (e : Event) : Bool := e.msgType = .mms ∧ e.callback = .onNewMessage

def Event.isDeletedMms (e : Event) : Bool := e.msgType = .mms ∧ e.callback = .onMessageDeleted

/-- The types that are handed to the listener. -/
def SmsRow.notified (r : SmsRow) : Bool :=
  r.type = MESSAGE_TYPE_INBOX ∨ r.type = MESSAGE_TYPE_OUTBOX ∨ r.type = MESSAGE_TYPE_SENT ∨
    r.type = MESSAGE_TYPE_FAILED

/-- The candidates are the changed rows; each of them whose type is notified is handed to the
listener once, and each row that is gone is told as deleted once. -/
structure SmsDifferences (env : Env) (before now : Content) (t : Turn) : Prop where
  candidates : t.candidates.Perm ((smsStore.changed before.sms now.sms).map SmsRow.message)
  new : (t.events.filter Event.isNewSms).Perm
    ((smsStore.changed before.sms now.sms).filterMap fun r => newSmsEvent env.smsType r.message)
  handed : ∀ r ∈ smsStore.changed before.sms now.sms,
    (newSmsEvent env.smsType r.message).map Event.handle =
      if r.notified then some (smsHandle r.id) else none
  deleted : (t.events.filter Event.isDeletedSms).Perm
    ((smsStore.gone before.sms now.sms).map fun r => deletedSmsEvent env.smsType r.message)

/-- The changed rows are told as new messages and the rows that are gone as deleted, each once. -/
structure MmsDifferences (before now : Content) (t : Turn) : Prop where
  new : (t.events.filter Event.isNewMms).Perm
    ((mmsStore.changed before.mms now.mms).map fun r => newMmsEvent r.message)
  deleted : (t.events.filter Event.isDeletedMms).Perm
    ((mmsStore.gone before.mms now.mms).map fun r => deletedMmsEvent r.message)

/-! ### Updating -/

section Updating

variable {h : Heap} {s : Lists} {init : Bool} {old new added : ℕ} {r : SmsRow} {q : MmsRow}
  {before now : List SmsRow} {mbefore mnow : List MmsRow}

/-- What makes an SMS new in comparison with the remembered one. -/
def smsIsNew (init : Bool) : Option Message → Message → Bool
  | some old_msg, msg => msg.mType ≠ old_msg.mType
  | none, _ => !init

/-- What makes an MMS new. -/
def mmsIsNew (init : Bool) : Option Message → Message → Bool
  | some oldMsg, msg => !init && oldMsg.mDate ≠ msg.mDate
  | none, _ => !init

theorem updateSmsRow_eq : updateSmsRow init old new added h r =
    if r.visible then compareMessage (smsIsNew init) old new added h r.message else h := by
  have hid : r.message.mId = r.id := rfl
  rw [updateSmsRow]
  simp only [compareMessage, Heap.remove, hid]
  obtain hl | ⟨old_msg, hl⟩ :=
    Option.eq_none_or_eq_some (lookupKey Message.mId (h.put new r.message old) r.id)
  · simp [hl, smsIsNew]
  · simp [hl, smsIsNew]

theorem foldl_updateSmsRow : now.foldl (updateSmsRow init old new added) h =
    (smsStore.messages now).foldl (compareMessage (smsIsNew init) old new added) h := by
  induction now generalizing h with
  | nil => rfl
  | cons r now ih =>
    rw [List.foldl_cons, ih, updateSmsRow_eq, Store.messages, Store.messages, List.filter_cons]
    change _ = List.foldl _ _ (List.map _ (if r.visible then _ else _))
    split_ifs <;> rfl

theorem updateSms_cons (hne : now ≠ []) : updateSms init (some now) s =
    compareRows (smsIsNew init) (smsStore.messages now) (if init then s.clear else s) := by
  obtain ⟨r, now, rfl⟩ := List.exists_cons_of_ne_nil hne
  rw [compareRows, ← foldl_updateSmsRow]
  rfl

/-- **An update of the SMS.** -/
theorem compared_updateSms (hs : Tracks s (smsStore.messages before)) (hb : IsDict SmsRow.id before)
    (hn : IsDict SmsRow.id now) :
    Compared (updateSms false (some now) s) (smsStore.messages now)
      ((smsStore.changed before now).map SmsRow.message)
      ((smsStore.gone before now).map SmsRow.message) := by
  have hchanged := @Store.filter_messages_changed _ smsStore before now (smsIsNew false) hb
    (fun _ => rfl) (fun b r => decide_eq_decide.2 ⟨Ne.symm, Ne.symm⟩)
  have hgone := @Store.filter_messages_gone _ smsStore before now
  by_cases hne : now = []
  · subst hne
    -- no row takes a remembered message out
    have hall : (smsStore.gone before []).map SmsRow.message = smsStore.messages before := by
      refine hgone.symm.trans (List.filter_eq_self.2 fun b _ => ?_)
      exact decide_eq_true fun a ha => absurd ha (List.not_mem_nil)
    rw [hall]
    by_cases hpos : (s.heap s.list).length > 0
    · have hupdate : updateSms false (some []) s = { s with deleted := s.list } := if_pos hpos
      rw [hupdate]
      exact ⟨⟨hs.separate.added_ne_list, hs.separate.added_ne_list, hs.separate.list_lt,
        hs.separate.added_lt, hs.separate.list_lt⟩, hs.added, hs.list, .inl ⟨rfl, rfl⟩⟩
    · have hupdate : updateSms false (some []) s = s := if_neg hpos
      have hnil : s.heap s.list = [] := List.eq_nil_of_length_eq_zero (by omega)
      rw [hupdate, ← hs.list, hnil]
      refine ⟨hs.separate, hs.added, hs.deleted, ?_⟩
      by_cases hld : s.list = s.deleted
      · exact .inl ⟨hld, rfl⟩
      · exact .inr ⟨hld, hnil⟩
  · rw [updateSms_cons hne]
    have hc := compared_compareRows (smsIsNew false) hs (Store.isDict_messages (S := smsStore) hn)
    rwa [hchanged, hgone] at hc

theorem tracks_updateSms_init (hs : Separate s) (hn : IsDict SmsRow.id now) :
    Tracks (updateSms true (some now) s) (smsStore.messages now) := by
  have hclear := tracks_clear hs
  by_cases hne : now = []
  · subst hne
    have hupdate : updateSms true (some []) s = s.clear := if_neg (by simp [hclear.list])
    rw [hupdate]
    exact hclear
  · rw [updateSms_cons hne]
    exact tracks_compareRows hclear (Store.isDict_messages (S := smsStore) hn) fun _ => rfl

/-- The boxes of the visible rows have a folder in `MSG_TO_MAP`. -/
def BoxesInTable (rows : List MmsRow) : Prop :=
  ∀ r ∈ rows, r.visible → 0 ≤ r.boxType ∧ r.boxType < MSG_TO_MAP.length

theorem msgToMap_isSome {i : ℤ} : (msgToMap i).isSome ↔ 0 ≤ i ∧ i < MSG_TO_MAP.length := by
  rw [msgToMap]
  split_ifs with hi
  · rw [isSome_getElem?]
    omega
  · simp [hi]

theorem updateMmsRow_of_isSome (hq : q.visible → (msgToMap q.boxType).isSome) :
    updateMmsRow init old new added h q =
      some (if q.visible then compareMessage (mmsIsNew init) old new added h q.message else h) := by
  rw [updateMmsRow]
  split_ifs with hv
  · obtain ⟨folder, hf⟩ := Option.isSome_iff_exists.1 (hq hv)
    have hmsg : q.message = ⟨q.id, folder, q.boxType, q.threadId, q.date⟩ := by
      rw [MmsRow.message, hf, Option.getD_some]
    rw [hf, hmsg]
    simp only [compareMessage, Heap.remove, bind, Option.bind, pure]
    obtain hl | ⟨oldMsg, hl⟩ := Option.eq_none_or_eq_some (lookupKey Message.mId
      (h.put new ⟨q.id, folder, q.boxType, q.threadId, q.date⟩ old) q.id)
    · simp [hl, mmsIsNew]
    · simp [hl, mmsIsNew]
  · rfl

theorem foldlM_updateMmsRow (hbox : BoxesInTable mnow) :
    mnow.foldlM (updateMmsRow init old new added) h =
      some ((mmsStore.messages mnow).foldl (compareMessage (mmsIsNew init) old new added) h) := by
  induction mnow generalizing h with
  | nil => rfl
  | cons q mnow ih =>
    obtain ⟨hq, hbox⟩ := List.forall_mem_cons.1 hbox
    rw [List.foldlM_cons, updateMmsRow_of_isSome (fun hv => msgToMap_isSome.2 (hq hv)),
      Option.bind_eq_bind, Option.bind_some, ih hbox, Store.messages, Store.messages,
        List.filter_cons]
    change _ = some (List.foldl _ _ (List.map _ (if q.visible then _ else _)))
    split_ifs <;> rfl

theorem boxesInTable_of_foldlM {h' : Heap}
    (hrun : mnow.foldlM (updateMmsRow init old new added) h = some h') : BoxesInTable mnow := by
  induction mnow generalizing h with
  | nil => exact fun r hr => absurd hr List.not_mem_nil
  | cons q mnow ih =>
    rw [List.foldlM_cons] at hrun
    obtain ⟨h₁, hq, hrun⟩ := Option.bind_eq_some_iff.1 hrun
    refine List.forall_mem_cons.2 ⟨fun hv => ?_, ih hrun⟩
    rw [updateMmsRow, if_pos hv] at hq
    obtain ⟨folder, hf, -⟩ := Option.bind_eq_some_iff.1 hq
    exact msgToMap_isSome.1 (Option.isSome_iff_exists.2 ⟨folder, hf⟩)

theorem updateMms_cons (hne : mnow ≠ []) (hbox : BoxesInTable mnow) : updateMms init (some mnow) s =
    some (compareRows (mmsIsNew init) (mmsStore.messages mnow) (if init then s.clear else s)) := by
  have hfold {h old new added} := @foldlM_updateMmsRow h init old new added mnow hbox
  obtain ⟨r, rows, rfl⟩ := List.exists_cons_of_ne_nil hne
  rw [updateMms, hfold, compareRows]
  · rfl
  · exact hne

theorem boxesInTable_of_updateMms {s' : Lists} (hu : updateMms init (some mnow) s = some s') :
    BoxesInTable mnow := by
  cases mnow with
  | nil => exact fun r hr => absurd hr List.not_mem_nil
  | cons q mnow =>
    obtain ⟨h', hrun, -⟩ := Option.bind_eq_some_iff.1 (hu : Option.bind _ _ = _)
    exact boxesInTable_of_foldlM hrun

/-- **An update of the MMS**, unless the store has lost its last rows. -/
theorem compared_updateMms (hs : Tracks s (mmsStore.messages mbefore))
    (hb : IsDict MmsRow.id mbefore) (hn : IsDict MmsRow.id mnow) (hbox : BoxesInTable mnow)
    (hlast : mnow = [] → mmsStore.messages mbefore = []) :
    ∃ s', updateMms false (some mnow) s = some s' ∧
      Compared s' (mmsStore.messages mnow) ((mmsStore.changed mbefore mnow).map MmsRow.message)
        ((mmsStore.gone mbefore mnow).map MmsRow.message) := by
  have hchanged := @Store.filter_messages_changed _ mmsStore mbefore mnow (mmsIsNew false) hb
    (fun _ => rfl) (fun b r => Bool.true_and _)
  have hgone := @Store.filter_messages_gone _ mmsStore mbefore mnow
  by_cases hne : mnow = []
  · have hnil := hlast hne
    subst hne
    refine ⟨s, rfl, hs.separate, hs.added, ?_, ?_⟩
    · rw [hs.deleted]
      refine Eq.trans ?_ hgone
      rw [hnil, List.filter_nil]
    · by_cases hld : s.list = s.deleted
      · exact .inl ⟨hld, rfl⟩
      · exact .inr ⟨hld, hs.list.trans hnil⟩
  · refine ⟨_, updateMms_cons hne hbox, ?_⟩
    have hc := compared_compareRows (mmsIsNew false) hs (Store.isDict_messages (S := mmsStore) hn)
    rwa [hchanged, hgone] at hc

theorem tracks_updateMms_init (hs : Separate s) (hn : IsDict MmsRow.id mnow)
    (hbox : BoxesInTable mnow) :
    ∃ s', updateMms true (some mnow) s = some s' ∧ Tracks s' (mmsStore.messages mnow) := by
  have hclear := tracks_clear hs
  by_cases hne : mnow = []
  · subst hne
    exact ⟨s.clear, rfl, hclear⟩
  · exact ⟨_, updateMms_cons hne hbox,
      tracks_compareRows hclear (Store.isDict_messages (S := mmsStore) hn) fun _ => rfl⟩

/-! ### Sending -/

section Sending

variable {env : Env} {s : State} {l a d : List Message} {type : MsgType} {e : Event}
  {before now : Content}

theorem Env.smsType_ne_mms : env.smsType ≠ .mms := by
  rw [Env.smsType]
  split_ifs <;> decide

theorem of_mem_newSms (he : e ∈ newSms type l) :
    e.msgType = type ∧ e.callback ≠ .onMessageDeleted := by
  obtain ⟨msg, -, hmsg⟩ := List.mem_filterMap.1 he
  rw [newSmsEvent] at hmsg
  split_ifs at hmsg <;> (obtain rfl := Option.some.inj hmsg; exact ⟨rfl, nofun⟩)

theorem of_mem_deletedSms (he : e ∈ deletedSms type l) :
    e.msgType = type ∧ e.callback = .onMessageDeleted := by
  obtain ⟨msg, -, rfl⟩ := List.mem_map.1 he
  exact ⟨rfl, rfl⟩

theorem of_mem_newMms (he : e ∈ newMms l) : e.msgType = .mms ∧ e.callback ≠ .onMessageDeleted := by
  obtain ⟨msg, -, hmsg⟩ := List.mem_flatMap.1 he
  rw [newMmsEvents] at hmsg
  split_ifs at hmsg
  · obtain rfl | hmsg := List.mem_cons.1 hmsg
    · exact ⟨rfl, nofun⟩
    · obtain rfl := List.mem_singleton.1 hmsg
      exact ⟨rfl, nofun⟩
  · obtain rfl := List.mem_singleton.1 hmsg
    exact ⟨rfl, nofun⟩

theorem of_mem_deletedMms (he : e ∈ deletedMms l) :
    e.msgType = .mms ∧ e.callback = .onMessageDeleted := by
  obtain ⟨msg, -, rfl⟩ := List.mem_map.1 he
  exact ⟨rfl, rfl⟩

theorem filter_newMms : (newMms l).filter Event.isNewMms = l.map newMmsEvent := by
  induction l with
  | nil => rfl
  | cons msg l ih =>
    have hmsg : (newMmsEvents msg).filter Event.isNewMms = [newMmsEvent msg] := by
      rw [newMmsEvents]
      split_ifs <;> rfl
    rw [newMms, List.flatMap_cons, List.filter_append, hmsg, ← newMms, ih]
    rfl

/-- The events of a store come from its two functions. -/
theorem of_mem_sendHalf {mListener : Bool} {values : ℕ → List Message → List Message}
    {news gone : List Message → List Event} {s : Lists}
    (he : e ∈ (sendHalf mListener values news gone s).1) : ∃ l, e ∈ news l ∨ e ∈ gone l := by
  simp only [sendHalf] at he
  obtain he | he := List.mem_append.1 he
  · split_ifs at he
    · exact ⟨_, .inl he⟩
    all_goals cases he
  · split_ifs at he
    all_goals first
      | exact ⟨_, .inr he⟩
      | cases he

/-- The events of the SMS store. -/
def smsEvents (env : Env) (s : State) : List Event :=
  (sendHalf true (env.values .sms) (newSms env.smsType) (deletedSms env.smsType) s.sms).1

/-- The events of the MMS store. -/
def mmsEvents (env : Env) (s : State) : List Event :=
  (sendHalf true (env.values .mms) newMms deletedMms s.mms).1

theorem of_mem_smsEvents (he : e ∈ smsEvents env s) : e.msgType ≠ .mms := by
  obtain ⟨l, he | he⟩ := of_mem_sendHalf he
  · rw [(of_mem_newSms he).1]
    exact Env.smsType_ne_mms
  · rw [(of_mem_deletedSms he).1]
    exact Env.smsType_ne_mms

theorem of_mem_mmsEvents (he : e ∈ mmsEvents env s) : e.msgType = .mms := by
  obtain ⟨l, he | he⟩ := of_mem_sendHalf he
  · exact (of_mem_newMms he).1
  · exact (of_mem_deletedMms he).1

theorem Env.values_nil {kind : Kind} {m : ℕ} : env.values kind m [] = [] :=
  (env.values_perm kind m []).eq_nil

theorem smsEvents_eq (hs : Compared s.sms l a d) :
    smsEvents env s = newSms env.smsType (env.values .sms s.sms.added a) ++
      deletedSms env.smsType (env.values .sms s.sms.deleted d) := by
  rw [smsEvents, sendHalf_eq (fun _ => env.values_nil) rfl rfl hs.separate, hs.added, hs.deleted]

theorem mmsEvents_eq (hs : Compared s.mms l a d) :
    mmsEvents env s = newMms (env.values .mms s.mms.added a) ++
      deletedMms (env.values .mms s.mms.deleted d) := by
  rw [mmsEvents, sendHalf_eq (fun _ => env.values_nil) rfl rfl hs.separate, hs.added, hs.deleted]

theorem filter_isNewSms (hs : Compared s.sms l a d) :
    (smsEvents env s ++ mmsEvents env s).filter Event.isNewSms =
      newSms env.smsType (env.values .sms s.sms.added a) := by
  have hmms : (mmsEvents env s).filter Event.isNewSms = [] := by
    refine List.filter_eq_nil_iff.2 fun e he => ?_
    simp [Event.isNewSms, of_mem_mmsEvents he]
  have hgone {l} : (deletedSms env.smsType l).filter Event.isNewSms = [] := by
    refine List.filter_eq_nil_iff.2 fun e he => ?_
    simp [Event.isNewSms, (of_mem_deletedSms he).2]
  have hnew {l} : (newSms env.smsType l).filter Event.isNewSms = newSms env.smsType l := by
    refine List.filter_eq_self.2 fun e he => ?_
    obtain ⟨htype, hcall⟩ := of_mem_newSms he
    simp [Event.isNewSms, htype, hcall, env.smsType_ne_mms]
  rw [List.filter_append, hmms, smsEvents_eq hs, List.filter_append, hgone, hnew, List.append_nil,
    List.append_nil]

theorem filter_isDeletedSms (hs : Compared s.sms l a d) :
    (smsEvents env s ++ mmsEvents env s).filter Event.isDeletedSms =
      deletedSms env.smsType (env.values .sms s.sms.deleted d) := by
  have hmms : (mmsEvents env s).filter Event.isDeletedSms = [] := by
    refine List.filter_eq_nil_iff.2 fun e he => ?_
    simp [Event.isDeletedSms, of_mem_mmsEvents he]
  have hnew {l} : (newSms env.smsType l).filter Event.isDeletedSms = [] := by
    refine List.filter_eq_nil_iff.2 fun e he => ?_
    simp [Event.isDeletedSms, (of_mem_newSms he).2]
  have hgone {l} : (deletedSms env.smsType l).filter Event.isDeletedSms =
      deletedSms env.smsType l := by
    refine List.filter_eq_self.2 fun e he => ?_
    obtain ⟨htype, hcall⟩ := of_mem_deletedSms he
    simp [Event.isDeletedSms, htype, hcall, env.smsType_ne_mms]
  rw [List.filter_append, hmms, smsEvents_eq hs, List.filter_append, hgone, hnew, List.append_nil,
    List.nil_append]

theorem filter_isNewMms (hs : Compared s.mms l a d) :
    (smsEvents env s ++ mmsEvents env s).filter Event.isNewMms =
      (env.values .mms s.mms.added a).map newMmsEvent := by
  have hsms : (smsEvents env s).filter Event.isNewMms = [] := by
    refine List.filter_eq_nil_iff.2 fun e he => ?_
    simp [Event.isNewMms, of_mem_smsEvents he]
  have hgone {l} : (deletedMms l).filter Event.isNewMms = [] := by
    refine List.filter_eq_nil_iff.2 fun e he => ?_
    simp [Event.isNewMms, (of_mem_deletedMms he).2]
  rw [List.filter_append, hsms, mmsEvents_eq hs, List.filter_append, hgone, filter_newMms,
    List.append_nil, List.nil_append]

theorem filter_isDeletedMms (hs : Compared s.mms l a d) :
    (smsEvents env s ++ mmsEvents env s).filter Event.isDeletedMms =
      deletedMms (env.values .mms s.mms.deleted d) := by
  have hsms : (smsEvents env s).filter Event.isDeletedMms = [] := by
    refine List.filter_eq_nil_iff.2 fun e he => ?_
    simp [Event.isDeletedMms, of_mem_smsEvents he]
  have hnew {l} : (newMms l).filter Event.isDeletedMms = [] := by
    refine List.filter_eq_nil_iff.2 fun e he => ?_
    simp [Event.isDeletedMms, (of_mem_newMms he).2]
  have hgone {l} : (deletedMms l).filter Event.isDeletedMms = deletedMms l := by
    refine List.filter_eq_self.2 fun e he => ?_
    obtain ⟨htype, hcall⟩ := of_mem_deletedMms he
    simp [Event.isDeletedMms, htype, hcall]
  rw [List.filter_append, hsms, mmsEvents_eq hs, List.filter_append, hgone, hnew, List.nil_append,
    List.nil_append]

theorem handle_newSmsEvent {r : SmsRow} : (newSmsEvent type r.message).map Event.handle =
    if r.notified then some (smsHandle r.id) else none := by
  simp only [newSmsEvent, SmsRow.notified, SmsRow.message, MESSAGE_TYPE_INBOX, MESSAGE_TYPE_OUTBOX,
    MESSAGE_TYPE_SENT, MESSAGE_TYPE_FAILED]
  by_cases hsent : r.type = 2
  · simp [hsent]
  by_cases hfailed : r.type = 5
  · simp [hfailed]
  by_cases hnew : r.type = 1 ∨ r.type = 4
  · rcases hnew with hnew | hnew <;> simp [hnew]
  · obtain ⟨hinbox, houtbox⟩ := not_or.1 hnew
    simp [hsent, hfailed, hinbox, houtbox]

/-- What the listener is told of the SMS, if the comparison has found the differences. -/
theorem smsDifferences_of_compared (hs : Compared s.sms l
    ((smsStore.changed before.sms now.sms).map SmsRow.message)
    ((smsStore.gone before.sms now.sms).map SmsRow.message)) :
    SmsDifferences env before now ⟨s.sms.heap s.sms.added, smsEvents env s ++ mmsEvents env s⟩ where
  candidates := by rw [hs.added]
  new := by
    rw [filter_isNewSms hs, newSms]
    refine ((env.values_perm .sms _ _).filterMap _).trans (List.Perm.of_eq ?_)
    rw [List.filterMap_map]
    rfl
  handed r _ := handle_newSmsEvent
  deleted := by
    rw [filter_isDeletedSms hs, deletedSms]
    refine ((env.values_perm .sms _ _).map _).trans (List.Perm.of_eq ?_)
    rw [List.map_map]
    rfl

theorem mmsDifferences_of_compared {candidates : List Message} (hs : Compared s.mms l
    ((mmsStore.changed before.mms now.mms).map MmsRow.message)
    ((mmsStore.gone before.mms now.mms).map MmsRow.message)) :
    MmsDifferences before now ⟨candidates, smsEvents env s ++ mmsEvents env s⟩ where
  new := by
    rw [filter_isNewMms hs]
    refine ((env.values_perm .mms _ _).map _).trans (List.Perm.of_eq ?_)
    rw [List.map_map]
    rfl
  deleted := by
    rw [filter_isDeletedMms hs, deletedMms]
    refine ((env.values_perm .mms _ _).map _).trans (List.Perm.of_eq ?_)
    rw [List.map_map]
    rfl

/-! ### Runs -/

section Runs

variable {env : Env} {s s' u : State} {t : Turn} {before now c : Content}
    {rest : List (Env × Content)}
  {init : Bool}

theorem turn_eq_some : turn env now s = some (t, s') ↔ ∃ u, update false now s = some u ∧
    t = ⟨u.sms.heap u.sms.added, smsEvents env u ++ mmsEvents env u⟩ ∧
    s' = (sendEvents true env u).2 := by
  rw [turn, Option.bind_eq_bind, Option.bind_eq_some_iff]
  refine exists_congr fun u => and_congr_right fun _ => ?_
  constructor
  · intro hts
    obtain ⟨ht, hs⟩ := Prod.mk.inj (Option.some.inj hts)
    exact ⟨ht.symm, hs.symm⟩
  · rintro ⟨rfl, rfl⟩
    rfl

theorem update_eq_some : update init now s = some u ↔ u.sms = updateSms init (some now.sms) s.sms ∧
    updateMms init (some now.mms) s.mms = some u.mms := by
  rw [update, Option.bind_eq_bind, Option.bind_eq_some_iff]
  constructor
  · rintro ⟨mms, hmms, hu⟩
    obtain rfl := Option.some.inj hu
    exact ⟨rfl, hmms⟩
  · rintro ⟨hsms, hmms⟩
    exact ⟨u.mms, hmms, by rw [← hsms]; rfl⟩

theorem exists_update (hbox : BoxesInTable now.mms) : ∃ u, update init now s = some u := by
  have hmms : ∃ mms, updateMms init (some now.mms) s.mms = some mms := by
    by_cases hne : now.mms = []
    · rw [hne]
      exact ⟨_, rfl⟩
    · exact ⟨_, updateMms_cons hne hbox⟩
  obtain ⟨mms, hmms⟩ := hmms
  exact ⟨⟨updateSms init (some now.sms) s.sms, mms⟩, update_eq_some.2 ⟨rfl, hmms⟩⟩

theorem exists_turn (hbox : BoxesInTable now.mms) : ∃ t s', turn env now s = some (t, s') := by
  obtain ⟨u, hu⟩ := @exists_update s now false hbox
  exact ⟨_, _, turn_eq_some.2 ⟨u, hu, rfl, rfl⟩⟩

/-- **One turn, SMS.** -/
theorem turn_sms (hs : Tracks s.sms (smsStore.messages before.sms))
    (ht : turn env now s = some (t, s')) :
    SmsDifferences env before now t ∧ Tracks s'.sms (smsStore.messages now.sms) := by
  obtain ⟨u, hu, rfl, rfl⟩ := turn_eq_some.1 ht
  have hc := compared_updateSms hs before.sms_ids now.sms_ids
  rw [← (update_eq_some.1 hu).1] at hc
  refine ⟨smsDifferences_of_compared hc, ?_⟩
  have hsent := tracks_sent hc
  change Tracks (sendHalf true _ _ _ u.sms).2 _
  rwa [sendHalf_eq (fun _ => env.values_nil) rfl rfl hc.separate]

/-- **One turn, MMS.** -/
theorem turn_mms (hs : Tracks s.mms (mmsStore.messages before.mms))
    (hlast : now.mms = [] → mmsStore.messages before.mms = [])
    (ht : turn env now s = some (t, s')) :
    MmsDifferences before now t ∧ Tracks s'.mms (mmsStore.messages now.mms) := by
  obtain ⟨u, hu, rfl, rfl⟩ := turn_eq_some.1 ht
  obtain ⟨-, hmms⟩ := update_eq_some.1 hu
  obtain ⟨m, hm, hc⟩ := compared_updateMms hs before.mms_ids now.mms_ids
    (boxesInTable_of_updateMms hmms) hlast
  obtain rfl := Option.some.inj (hmms.symm.trans hm)
  refine ⟨mmsDifferences_of_compared hc, ?_⟩
  have hsent := tracks_sent hc
  change Tracks (sendHalf true _ _ _ u.mms).2 _
  rwa [sendHalf_eq (fun _ => env.values_nil) rfl rfl hc.separate]

/-- An empty MMS store after visible messages: none of these is told as deleted. -/
theorem not_mmsDifferences (hs : Tracks s.mms (mmsStore.messages before.mms)) (hnil : now.mms = [])
    (hne : mmsStore.messages before.mms ≠ []) (ht : turn env now s = some (t, s')) :
    ¬ MmsDifferences before now t := by
  intro hd
  obtain ⟨u, hu, rfl, rfl⟩ := turn_eq_some.1 ht
  obtain ⟨-, hmms⟩ := update_eq_some.1 hu
  rw [hnil] at hmms
  obtain hmms : s.mms = u.mms := Option.some.inj hmms
  -- the maps are left as they are, so nothing is sent
  have hc : Compared u.mms (u.mms.heap u.mms.list) [] [] := by
    rw [← hmms]
    refine ⟨hs.separate, hs.added, hs.deleted, ?_⟩
    by_cases hld : s.mms.list = s.mms.deleted
    · exact .inl ⟨hld, by rw [hld, hs.deleted]⟩
    · exact .inr ⟨hld, rfl⟩
  have hdel := hd.deleted
  rw [filter_isDeletedMms hc, env.values_nil] at hdel
  have hgone := @Store.filter_messages_gone _ mmsStore before.mms now.mms
  have hmap : (mmsStore.gone before.mms now.mms).map (fun r => deletedMmsEvent r.message) = [] :=
    hdel.symm.eq_nil
  rw [List.map_eq_nil_iff] at hmap
  rw [hmap, hnil] at hgone
  refine hne (Eq.trans ?_ hgone)
  exact (List.filter_eq_self.2 fun b _ => decide_eq_true fun a ha =>
    absurd ha List.not_mem_nil).symm

theorem turns_cons (ht : turn env now s = some (t, s')) :
    turns s ((env, now) :: rest) = (turns s' rest).map fun ts => t :: ts := by
  rw [turns, ht, Option.bind_eq_bind, Option.bind_some, Option.map_eq_bind]
  rfl

/-- All turns, SMS: induction on the contents, with the remembered messages as the invariant. -/
theorem turns_sms (hs : Tracks s.sms (smsStore.messages before.sms))
    (hbox : ∀ c ∈ rest.map Prod.snd, BoxesInTable c.mms) :
    ∃ ts, turns s rest = some ts ∧ Follows SmsDifferences before rest ts := by
  induction rest generalizing s before with
  | nil => exact ⟨[], rfl, trivial⟩
  | cons x rest ih =>
    obtain ⟨env, now⟩ := x
    obtain ⟨hnow, hrest⟩ := List.forall_mem_cons.1 hbox
    obtain ⟨t, s', ht⟩ := @exists_turn env s now hnow
    obtain ⟨hd, hs'⟩ := turn_sms hs ht
    obtain ⟨ts, hts, hf⟩ := ih hs' hrest
    exact ⟨t :: ts, by rw [turns_cons ht, hts, Option.map_some], hd, hf⟩

/-- **SMS.**  For all contents of the stores, if the boxes of the MMS have a folder: in each turn
the candidates, the notifications and the deletions are the differences between the contents. -/
theorem sms_notifications (hbox : ∀ c' ∈ c :: rest.map Prod.snd, BoxesInTable c'.mms) :
    ∃ ts, run c rest = some ts ∧ Follows SmsDifferences c rest ts := by
  obtain ⟨hc, hrest⟩ := List.forall_mem_cons.1 hbox
  obtain ⟨u, hu⟩ := @exists_update .initial c true hc
  have hs := @tracks_updateSms_init State.initial.sms c.sms separate_initial c.sms_ids
  rw [← (update_eq_some.1 hu).1] at hs
  obtain ⟨ts, hts, hf⟩ := turns_sms hs hrest
  refine ⟨ts, ?_, hf⟩
  rw [run, hu, Option.bind_eq_bind, Option.bind_some, hts]

/-- A phone for which `values()` keeps the order of the map. -/
def sampleEnv : Env := ⟨false, fun _ _ l => l, fun _ _ l => .refl l⟩

/-- An SMS and an MMS, both in the inbox. -/
def sampleContent : Content :=
  ⟨[⟨3, 1, 5, 100⟩], [⟨7, 1, 5, 132, 100⟩], List.pairwise_singleton _ _,
    List.pairwise_singleton _ _⟩

def emptyContent : Content := ⟨[], [], .nil, .nil⟩

/-- The SMS of a store that is emptied and filled again. -/
theorem sms_notifications_sample :
    (∀ c ∈ [sampleContent, emptyContent, sampleContent], BoxesInTable c.mms) ∧
    ∃ ts, run sampleContent [(sampleEnv, emptyContent), (sampleEnv, sampleContent)] = some ts ∧
      Follows SmsDifferences sampleContent [(sampleEnv, emptyContent), (sampleEnv, sampleContent)]
        ts := by
  have hbox : ∀ c ∈ [sampleContent, emptyContent, sampleContent], BoxesInTable c.mms := by
    simp [BoxesInTable, sampleContent, emptyContent, MSG_TO_MAP]
  exact ⟨hbox, sms_notifications hbox⟩

/-- A content without rows comes only after one without visible rows. -/
def EmptyAfterInvisible (before now : Content) : Prop :=
  now.mms = [] → ∀ r ∈ before.mms, r.visible = false

theorem messages_eq_nil_iff :
    mmsStore.messages before.mms = [] ↔ ∀ r ∈ before.mms, r.visible = false := by
  rw [Store.messages, List.map_eq_nil_iff, List.filter_eq_nil_iff]
  exact forall₂_congr fun r _ => Bool.not_eq_true _ ▸ Iff.rfl

theorem turns_mms (hs : Tracks s.mms (mmsStore.messages before.mms)) :
    (∃ ts, turns s rest = some ts ∧ Follows (fun _ => MmsDifferences) before rest ts) ↔
      (∀ c ∈ rest.map Prod.snd, BoxesInTable c.mms) ∧
        (before :: rest.map Prod.snd).IsChain EmptyAfterInvisible := by
  induction rest generalizing s before with
  | nil =>
    refine iff_of_true ⟨[], rfl, trivial⟩ ⟨?_, .singleton _⟩
    exact fun c hc => absurd hc List.not_mem_nil
  | cons x rest ih =>
    obtain ⟨env, now⟩ := x
    rw [List.map_cons, List.forall_mem_cons, List.isChain_cons_cons]
    constructor
    · rintro ⟨ts, hts, hf⟩
      rw [turns, Option.bind_eq_bind, Option.bind_eq_some_iff] at hts
      obtain ⟨⟨t, s'⟩, ht, hts⟩ := hts
      obtain ⟨ts', hts', hcons⟩ := Option.bind_eq_some_iff.1 hts
      obtain rfl := Option.some.inj hcons
      obtain ⟨hd, hf⟩ := hf
      have hlast : now.mms = [] → mmsStore.messages before.mms = [] := by
        intro hnil
        by_contra hne
        exact not_mmsDifferences hs hnil hne ht hd
      obtain ⟨hrest, hchain⟩ := (ih (turn_mms hs hlast ht).2).1 ⟨ts', hts', hf⟩
      obtain ⟨u, hu, -⟩ := turn_eq_some.1 ht
      have hnow : BoxesInTable now.mms := boxesInTable_of_updateMms (update_eq_some.1 hu).2
      exact ⟨⟨hnow, hrest⟩, fun hnil => messages_eq_nil_iff.1 (hlast hnil), hchain⟩
    · rintro ⟨⟨hnow, hrest⟩, hlast, hchain⟩
      obtain ⟨t, s', ht⟩ := @exists_turn env s now hnow
      obtain ⟨hd, hs'⟩ := turn_mms hs (fun hnil => messages_eq_nil_iff.2 (hlast hnil)) ht
      obtain ⟨ts, hts, hf⟩ := (ih hs').2 ⟨hrest, hchain⟩
      exact ⟨t :: ts, by rw [turns_cons ht, hts, Option.map_some], hd, hf⟩

/-- **MMS.**  In all turns the deletions and the new messages are the differences between the
contents, exactly if the boxes of the visible rows have a folder and no content without rows comes
after one with visible rows. -/
theorem mms_notifications_iff :
    (∃ ts, run c rest = some ts ∧ Follows (fun _ => MmsDifferences) c rest ts) ↔
      (∀ c' ∈ c :: rest.map Prod.snd, BoxesInTable c'.mms) ∧
        (c :: rest.map Prod.snd).IsChain EmptyAfterInvisible := by
  have hinit (hc : BoxesInTable c.mms) : ∃ u, update true c .initial = some u ∧
      Tracks u.mms (mmsStore.messages c.mms) := by
    obtain ⟨m, hm, hs⟩ :=
      @tracks_updateMms_init State.initial.mms c.mms separate_initial c.mms_ids hc
    exact ⟨⟨_, m⟩, update_eq_some.2 ⟨rfl, hm⟩, hs⟩
  rw [List.forall_mem_cons, run, Option.bind_eq_bind]
  constructor
  · rintro ⟨ts, hts, hf⟩
    obtain ⟨u, hu, hts⟩ := Option.bind_eq_some_iff.1 hts
    have hc : BoxesInTable c.mms := boxesInTable_of_updateMms (update_eq_some.1 hu).2
    obtain ⟨u', hu', hs⟩ := hinit hc
    obtain rfl := Option.some.inj (hu.symm.trans hu')
    obtain ⟨hrest, hchain⟩ := (turns_mms hs).1 ⟨ts, hts, hf⟩
    exact ⟨⟨hc, hrest⟩, hchain⟩
  · rintro ⟨⟨hc, hrest⟩, hchain⟩
    obtain ⟨u, hu, hs⟩ := hinit hc
    obtain ⟨ts, hts, hf⟩ := (turns_mms hs).2 ⟨hrest, hchain⟩
    exact ⟨ts, by rw [hu, Option.bind_some, hts], hf⟩

/-- **The last MMS.**  The only MMS is deleted; the listener is told of the SMS but not of it. -/
theorem last_mms_missed :
    mmsStore.gone sampleContent.mms emptyContent.mms = [⟨7, 1, 5, 132, 100⟩] ∧
    (run sampleContent [(sampleEnv, emptyContent)]).map (List.map Turn.events) =
      some [[⟨.onMessageDeleted, 0, js "3", js "telecom/msg/inbox", .smsGsm⟩]] ∧
    ¬ ∃ ts, run sampleContent [(sampleEnv, emptyContent)] = some ts ∧
      Follows (fun _ => MmsDifferences) sampleContent [(sampleEnv, emptyContent)] ts := by
  have hevents : (run sampleContent [(sampleEnv, emptyContent)]).map (List.map Turn.events) =
      some [[⟨.onMessageDeleted, 0, js "3", js "telecom/msg/inbox", .smsGsm⟩]] := by decide
  refine ⟨by decide, hevents, ?_⟩
  rintro ⟨ts, hts, hf⟩
  rw [hts, Option.map_some, Option.some.injEq] at hevents
  match ts, hevents, hf with
  | [t], hevents, ⟨hd, _⟩ =>
    have hdel := hd.deleted
    rw [(List.cons.inj hevents).1] at hdel
    exact absurd hdel.length_eq (by decide)

end Runs

end Sending

end Updating

end Observer

end Map

end Msm8909w
