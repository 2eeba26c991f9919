import Mathlib.Data.List.Nodup
import Msm8909w.Map.Handles

/-!
# Pushing an MMS

`pushMessageMms` of `BluetoothMasAppSmsMms.java`.  An MMS for the outbox is added to the drafts, and
then a draft is moved to the outbox: the first one that the provider returns.

* `Provider`, `MmsStore` : the content provider and its tables,
* `sends_iff` : the message that was pushed is the one that is sent, and no other row is touched,
  exactly if no draft comes before it in the order of the provider.

What `fromBmessageMMS` and `fetchBodyEmail` make of the message is the parameter `parse`.
-/

namespace Msm8909w

namespace Map

/-! ### The provider -/

/-- A value of a column. -/
inductive Value
  | int (n : ℤ)
  | text (s : Option JString)
  deriving DecidableEq, Repr

/-- A row of the table of messages, with its other columns by name. -/
structure MmsRow where
  id : ℤ
  msg_box : ℤ
  columns : List (String × Value)
  deriving DecidableEq, Repr

/-- A row of the tables of parts and of addresses, with the message that it belongs to. -/
structure DetailRow where
  msgID : ℤ
  columns : List (String × Value)
  deriving DecidableEq, Repr

/-- The tables.  The row numbers are different. -/
structure MmsStore where
  rows : List MmsRow
  part : List DetailRow
  addr : List DetailRow
  nodup : (rows.map MmsRow.id).Nodup

/-- The content provider. -/
structure Provider where
  /-- The order in which rows are returned. -/
  order : List MmsRow → List MmsRow
  perm : ∀ rows, (order rows).Perm rows
  /-- The number of a new row; `none` if it cannot be inserted. -/
  newId : List MmsRow → Option ℤ
  fresh : ∀ rows id, newId rows = some id → ∀ r ∈ rows, r.id ≠ id
  /-- The thread of an address, by `createMMSThread`. -/
  threadId : Option JString → ℤ

namespace MmsStore

/-- The table of messages with a new row. -/
def insert (s : MmsStore) (new : MmsRow) (h : ∀ r ∈ s.rows, r.id ≠ new.id) : MmsStore :=
  { s with
    rows := s.rows ++ [new]
    nodup := by
      rw [List.map_append, List.nodup_append]
      refine ⟨s.nodup, List.nodup_singleton _, ?_⟩
      intro a ha b hb
      obtain ⟨r, hr, rfl⟩ := List.mem_map.1 ha
      rw [List.map_singleton, List.mem_singleton] at hb
      exact hb ▸ h r hr }

/-- `update` of the column `msg_box` where `_id` is the given one. -/
def setBox (s : MmsStore) (id box : ℤ) : MmsStore :=
  { s with
    rows := s.rows.map fun r => if r.id = id then { r with msg_box := box } else r
    nodup := by
      have hids : (s.rows.map fun r => if r.id = id then { r with msg_box := box } else r).map
          MmsRow.id = s.rows.map MmsRow.id := by
        rw [List.map_map]
        refine List.map_congr_left ?_
        intro r _
        show (if r.id = id then { r with msg_box := box } else r).id = r.id
        split_ifs <;> rfl
      rw [hids]
      exact s.nodup }

end MmsStore

/-! ### The code -/

/-- A letter without its case.  Apart from the Latin letters, Java counts a long `s`, the sign for
Kelvin and the `i` with one dot too many or too few as letters of the Latin alphabet here. -/
def foldCase (c : UInt16) : UInt16 :=
  if 65 ≤ c ∧ c ≤ 90 then c + 32
  else if c = 0x17F then 115
  else if c = 0x212A then 107
  else if c = 0x130 ∨ c = 0x131 then 105
  else c

/-- `s.equalsIgnoreCase(w)` for an ASCII text `w`. -/
def equalsIgnoreCase (s w : JString) : Bool := s.map foldCase = w.map foldCase

/-- `s.split("/")`. -/
def splitPath (s : JString) : List JString :=
  if s = [] then [[]] else ((s.splitOn 47).reverse.dropWhile (· = [])).reverse

def INBOX : JString := js "inbox"
def OUTBOX : JString := js "outbox"
def SENT : JString := js "sent"
def DELETED : JString := js "deleted"
def DRAFT : JString := js "draft"
def DRAFTS : JString := js "drafts"

/-- `getFolderTypeMms`. -/
def getFolderTypeMms (folder : JString) : ℤ :=
  if equalsIgnoreCase folder INBOX then 1
  else if equalsIgnoreCase folder OUTBOX then 4
  else if equalsIgnoreCase folder SENT then 2
  else if equalsIgnoreCase folder DRAFT ∨ equalsIgnoreCase folder DRAFTS then 3
  else if equalsIgnoreCase folder DELETED then -1
  else -5

/-- The answer to a push. -/
inductive Response
  | OBEX_HTTP_OK
  | OBEX_HTTP_NOT_FOUND
  | OBEX_HTTP_FORBIDDEN
  deriving DecidableEq, Repr

structure PushMsgRsp where
  response : Response
  msgHandle : Option JString
  deriving DecidableEq, Repr

section

variable (P : Provider) (parse : JString → Except Exn (Option JString × JString))

/-- The columns of a new message. -/
def newColumns (folderName : JString) (address : Option JString) : List (String × Value) :=
  [("thread_id", .int (if equalsIgnoreCase folderName DELETED then -1 else P.threadId address)),
    ("read", .int 0), ("seen", .int 0), ("sub_cs", .int 106),
    ("ct_t", .text (js "application/vnd.wap.multipart.related")), ("exp", .int 604800),
    ("m_cls", .text (js "personal")), ("m_type", .int 128), ("v", .int 18), ("pri", .int 129),
    ("rr", .int 129), ("tr_id", .text (js "T12dc2e87182")), ("d_rpt", .int 129), ("locked", .int 0)]

/-- The layout of the message. -/
def smilText : JString :=
  js "<smil><head><layout><root-layout width=\"320px\" height=\"480px\"/>" ++
    js "<region id=\"Text\" left=\"0\" top=\"320\" width=\"320px\" height=\"160px\"" ++
    js " fit=\"meet\"/></layout></head><body><par dur=\"5000ms\">" ++
    js "<text src=\"text_0.txt\" region=\"Text\"/></par></body></smil>"

/-- The parts of a new message. -/
def newParts (msgID : ℤ) (mmsText : JString) : List DetailRow :=
  [⟨msgID, [("seq", .int (-1)), ("ct", .text (js "application/smil")), ("cid", .text (js "<smil>")),
      ("cl", .text (js "smil.xml")), ("text", .text smilText)]⟩,
    ⟨msgID, [("seq", .int 0), ("ct", .text (js "text/plain")), ("name", .text (js "null")),
      ("chset", .int 106), ("cd", .text (js "null")), ("fn", .text (js "null")),
      ("cid", .text (js "<text_0>")), ("cl", .text (js "text_0.txt")), ("ctt_s", .text (js "null")),
      ("ctt_t", .text (js "null")), ("text", .text mmsText)]⟩]

/-- The addresses of a new message. -/
def newAddrs (msgID : ℤ) (address : Option JString) : List DetailRow :=
  [⟨msgID, [("contact_id", .text (js "null")), ("address", .text (js "insert-address-token")),
      ("type", .int 137), ("charset", .int 106)]⟩,
    ⟨msgID, [("contact_id", .text (js "null")), ("address", .text address), ("type", .int 151),
      ("charset", .int 106)]⟩]

/-- The new row of the table of messages. -/
def newRow (folderName : JString) (address : Option JString) (id : ℤ) : MmsRow :=
  ⟨id, getFolderTypeMms folderName, newColumns P folderName address⟩

/-- `addToMmsFolder`: the handle, `none` if the row cannot be inserted. -/
def addToMmsFolder (s : MmsStore) (folderName mmsMsg : JString) :
    Except Exn (Option JString × MmsStore) := do
  let folderName := if equalsIgnoreCase folderName DRAFT then DRAFTS else folderName
  let (address, mmsText) ← parse mmsMsg
  match h : P.newId s.rows with
  | none => return (none, s)
  | some id =>
    let s := s.insert (newRow P folderName address id) (P.fresh s.rows id h)
    return (some (addedMmsHandle id),
      { s with part := s.part ++ newParts id mmsText, addr := s.addr ++ newAddrs id address })

/-- The first of the drafts. -/
def firstDraft (s : MmsStore) : Option MmsRow := (P.order s.rows).find? fun r => r.msg_box = 3

/-- `moveMMSfromDraftstoOutbox`. -/
def moveMMSfromDraftstoOutbox (s : MmsStore) : MmsStore :=
  match firstDraft P s with
  | none => s
  | some r => if (P.order s.rows).any fun r' => r'.id = r.id then s.setBox r.id 4 else s

/-- The path that a push is for. -/
def fullPath (mCurrentPath : JString) : Option JString → JString
  | none => mCurrentPath
  | some [] => mCurrentPath
  | some name => mCurrentPath ++ js "/" ++ name

/-- `pushMessageMms`. -/
def pushMessageMms (s : MmsStore) (mCurrentPath : JString) (name : Option JString)
    (readStr : JString) :
    Except Exn (PushMsgRsp × MmsStore) :=
  if equalsIgnoreCase (fullPath mCurrentPath name) (js "telecom/msg/outbox") then do
    match ← addToMmsFolder P parse s DRAFTS readStr with
    | (none, s) => return (⟨.OBEX_HTTP_NOT_FOUND, none⟩, s)
    | (some handle, s) => return (⟨.OBEX_HTTP_OK, some handle⟩, moveMMSfromDraftstoOutbox P s)
  else
    let folderName := match name with
      | none | some [] => (splitPath mCurrentPath).getLast?
      | some name => some name
    match folderName with
    | none => .error .indexOutOfBounds
    | some folderName =>
      if equalsIgnoreCase folderName DRAFT then do
        match ← addToMmsFolder P parse s folderName readStr with
        | (none, s) => return (⟨.OBEX_HTTP_NOT_FOUND, none⟩, s)
        | (some handle, s) => return (⟨.OBEX_HTTP_OK, some handle⟩, s)
      else .ok (⟨.OBEX_HTTP_FORBIDDEN, none⟩, s)

end

/-! ### What is sent -/

/-- The row with the given number is new and in the outbox; every other row is unchanged. -/
structure Sends (before after : MmsStore) (id : ℤ) : Prop where
  sent : ∃ r ∈ after.rows, r.id = id ∧ r.msg_box = 4
  only : ∀ r ∈ after.rows, r.id ≠ id → r ∈ before.rows
  kept : ∀ r ∈ before.rows, r ∈ after.rows

/-- No draft comes before the new row. -/
def NoDraftBefore (P : Provider) (rows : List MmsRow) (new : MmsRow) : Prop :=
  ∃ pre post, P.order (rows ++ [new]) = pre ++ new :: post ∧ ∀ r ∈ pre, r.msg_box ≠ 3

section

variable {P : Provider} {parse : JString → Except Exn (Option JString × JString)} {s s' : MmsStore}
  {new r : MmsRow}

theorem mem_order : r ∈ P.order s.rows ↔ r ∈ s.rows := (P.perm s.rows).mem_iff

/-- The first draft is a row of the table. -/
theorem moveMMSfromDraftstoOutbox_eq (h : firstDraft P s = some r) :
    moveMMSfromDraftstoOutbox P s = s.setBox r.id 4 := by
  have hmem := List.mem_of_find?_eq_some h
  have hany : ((P.order s.rows).any fun r' => r'.id = r.id) = true :=
    List.any_eq_true.2 ⟨r, hmem, decide_eq_true rfl⟩
  simp only [moveMMSfromDraftstoOutbox, h, hany, if_true]

theorem mem_rows_setBox {id box : ℤ} {r : MmsRow} : r ∈ (s.setBox id box).rows ↔
    ∃ r' ∈ s.rows, (if r'.id = id then { r' with msg_box := box } else r') = r :=
  List.mem_map

theorem firstDraft_insert_iff {hfresh : ∀ r ∈ s.rows, r.id ≠ new.id} (hdraft : new.msg_box = 3) :
    firstDraft P (s.insert new hfresh) = some new ↔ NoDraftBefore P s.rows new := by
  rw [firstDraft, List.find?_eq_some_iff_append, NoDraftBefore]
  simp only [MmsStore.insert, hdraft, decide_true, true_and, Bool.not_eq_eq_eq_not, Bool.not_true,
    decide_eq_false_iff_not, ne_eq]

theorem exists_firstDraft {hfresh : ∀ r ∈ s.rows, r.id ≠ new.id} (hdraft : new.msg_box = 3) :
    ∃ r, firstDraft P (s.insert new hfresh) = some r := by
  rw [← Option.isSome_iff_exists, firstDraft, List.find?_isSome]
  exact ⟨new, mem_order.2 (List.mem_append_right _ List.mem_cons_self), decide_eq_true hdraft⟩

/-- Moving the first draft after the new row has been inserted. -/
theorem sends_insert_iff {hfresh : ∀ r ∈ s.rows, r.id ≠ new.id} (hdraft : new.msg_box = 3)
    (hrows : s'.rows = (s.insert new hfresh).rows) :
    Sends s (moveMMSfromDraftstoOutbox P s') new.id ↔ NoDraftBefore P s.rows new := by
  have hfirst : firstDraft P s' = firstDraft P (s.insert new hfresh) := by
    rw [firstDraft, firstDraft, hrows]
  have hmem {r : MmsRow} : r ∈ s'.rows ↔ r ∈ s.rows ∨ r = new := by
    rw [hrows]
    show r ∈ s.rows ++ [new] ↔ _
    rw [List.mem_append, List.mem_singleton]
  obtain ⟨f, hf⟩ := @exists_firstDraft P s new hfresh hdraft
  have hfmem : f ∈ s'.rows := mem_order.1 (List.mem_of_find?_eq_some (hfirst.trans hf))
  rw [moveMMSfromDraftstoOutbox_eq (hfirst.trans hf),
    ← @firstDraft_insert_iff P s new hfresh hdraft, hf, Option.some.injEq]
  constructor
  · intro h
    by_contra hne
    -- another draft has been moved, and is no longer what it was
    have hfs : f ∈ s.rows := (hmem.1 hfmem).resolve_right hne
    obtain ⟨r, hr, hfr⟩ := mem_rows_setBox.1 (h.kept f hfs)
    have hid : r.id = f.id := by
      have := congrArg MmsRow.id hfr
      split_ifs at this <;> exact this
    rw [if_pos hid] at hfr
    have hbox : f.msg_box = 3 := by simpa using List.find?_some hf
    have hfour := congrArg MmsRow.msg_box hfr
    rw [hbox] at hfour
    exact absurd hfour (show ¬ (4 : ℤ) = 3 by decide)
  · rintro rfl
    refine ⟨⟨{ f with msg_box := 4 }, mem_rows_setBox.2 ⟨f, hfmem, if_pos rfl⟩, rfl, rfl⟩, ?_, ?_⟩
    · intro r hr hne
      obtain ⟨r', hr', rfl⟩ := mem_rows_setBox.1 hr
      have hid : ¬ r'.id = f.id := by
        intro hid
        rw [if_pos hid] at hne
        exact hne hid
      rw [if_neg hid]
      refine (hmem.1 hr').resolve_right ?_
      rintro rfl
      exact hid rfl
    · intro r hr
      exact mem_rows_setBox.2 ⟨r, hmem.2 (.inl hr), if_neg (hfresh r hr)⟩

theorem newRow_drafts (P : Provider) (address : Option JString) (id : ℤ) :
    (newRow P DRAFTS address id).msg_box = 3 := by
  show getFolderTypeMms DRAFTS = 3
  decide

/-- A message that has been added to the drafts. -/
theorem addToMmsFolder_drafts {mmsMsg handle : JString}
    (h : addToMmsFolder P parse s DRAFTS mmsMsg = .ok (some handle, s')) :
    ∃ address text id, parse mmsMsg = .ok (address, text) ∧ handle = addedMmsHandle id ∧
      ∃ hfresh : ∀ r ∈ s.rows, r.id ≠ (newRow P DRAFTS address id).id,
        s'.rows = (s.insert (newRow P DRAFTS address id) hfresh).rows := by
  have hfolder : ¬ equalsIgnoreCase DRAFTS DRAFT = true := by decide
  cases hparse : parse mmsMsg with
  | error e =>
    rw [addToMmsFolder, hparse] at h
    cases h
  | ok res =>
    obtain ⟨address, text⟩ := res
    simp only [addToMmsFolder, hparse, if_neg hfolder, bind, Except.bind] at h
    split at h
    · cases h
    · next id hid =>
      cases h
      exact ⟨address, text, id, rfl, rfl, P.fresh s.rows id hid, rfl⟩

/-- **The message that is sent.**  When a push to the outbox answers with a handle, it is that of a
new row, and only that row has been moved to the outbox exactly if no draft comes before it. -/
theorem sends_iff {mCurrentPath : JString} {name : Option JString} {readStr handle : JString}
    {rsp : PushMsgRsp}
    (hpath : equalsIgnoreCase (fullPath mCurrentPath name) (js "telecom/msg/outbox"))
    (hpush : pushMessageMms P parse s mCurrentPath name readStr = .ok (rsp, s'))
    (hok : rsp.response = .OBEX_HTTP_OK) (hhandle : rsp.msgHandle = some handle) :
    ∃ address text id, parse readStr = .ok (address, text) ∧ handle = addedMmsHandle id ∧
      (∀ r ∈ s.rows, r.id ≠ id) ∧
      (Sends s s' id ↔ NoDraftBefore P s.rows (newRow P DRAFTS address id)) := by
  unfold pushMessageMms at hpush
  rw [if_pos hpath] at hpush
  cases hadd : addToMmsFolder P parse s DRAFTS readStr with
  | error e =>
    rw [hadd] at hpush
    cases hpush
  | ok res =>
    obtain ⟨added, t⟩ := res
    rw [hadd] at hpush
    cases added with
    | none =>
      cases hpush
      cases hok
    | some h =>
      cases hpush
      obtain rfl := Option.some.inj hhandle
      obtain ⟨address, text, id, hparse, hh, hfresh, hrows⟩ := addToMmsFolder_drafts hadd
      exact ⟨address, text, id, hparse, hh, hfresh,
        sends_insert_iff (newRow_drafts P address id) hrows⟩

end

/-! ### Two stores -/

/-- A provider that returns the newest rows first. -/
def newestFirst : Provider where
  order rows := rows.reverse
  perm := List.reverse_perm
  newId rows := some ((rows.map MmsRow.id).foldl max 0 + 1)
  fresh := by
    rintro rows id ⟨⟩ r hr
    have hle : ∀ (l : List ℤ) (m a : ℤ), a ≤ m ∨ a ∈ l → a ≤ l.foldl max m := by
      intro l
      induction l with
      | nil => exact fun m a h => h.resolve_right nofun
      | cons b l ih =>
        intro m a h
        refine ih (max m b) a ?_
        rcases h with h | h
        · exact .inl (h.trans (le_max_left m b))
        · rcases List.mem_cons.1 h with rfl | h
          · exact .inl (le_max_right m a)
          · exact .inr h
    have := hle (rows.map MmsRow.id) 0 r.id (.inr (List.mem_map_of_mem hr))
    omega
  threadId _ := 1

/-- A provider that returns the oldest rows first. -/
def oldestFirst : Provider := { newestFirst with order := id, perm := .refl }

/-- One draft of the user. -/
def oneDraft : MmsStore := ⟨[⟨4, 3, [("sub", .text (js "private"))]⟩], [], [], by decide⟩

/-- A message to 5550100. -/
def sampleParse : JString → Except Exn (Option JString × JString) :=
  fun _ => .ok (some (js "5550100"), js "hello")

/-- The new message is sent if the newest rows come first. -/
theorem sends_newestFirst : ∃ s' id, pushMessageMms newestFirst sampleParse oneDraft
      (js "telecom/msg") (some (js "outbox")) (js "") =
        .ok (⟨.OBEX_HTTP_OK, some (addedMmsHandle id)⟩, s') ∧ Sends oneDraft s' id := by
  have hpush : pushMessageMms newestFirst sampleParse oneDraft (js "telecom/msg")
      (some (js "outbox")) (js "") = .ok (⟨.OBEX_HTTP_OK, some (addedMmsHandle 5)⟩, _) := rfl
  obtain ⟨address, text, id, -, hid, -, hiff⟩ := sends_iff (by decide) hpush rfl rfl
  refine ⟨_, id, hid ▸ hpush, hiff.2 ⟨[], oneDraft.rows, rfl, ?_⟩⟩
  intro r hr
  cases hr

/-- **A private draft is sent.**  If the oldest rows come first, the draft of the user goes to the
outbox and the message that was pushed stays a draft. -/
theorem draft_sent_oldestFirst : ∃ s', pushMessageMms oldestFirst sampleParse oneDraft
      (js "telecom/msg") (some (js "outbox")) (js "") =
        .ok (⟨.OBEX_HTTP_OK, some (addedMmsHandle 5)⟩, s') ∧ ¬ Sends oneDraft s' 5 ∧
    s'.rows.map (fun r => (r.id, r.msg_box)) = [(4, 4), (5, 3)] := by
  refine ⟨_, rfl, ?_, rfl⟩
  intro h
  obtain ⟨r, hr, hid, hbox⟩ := h.sent
  revert r
  decide

end Map

end Msm8909w
