import Msm8909w.Lib.Bytes
import Msm8909w.Map.AppParamItems
import Msm8909w.Map.Folders

/-!
# Pages of listings

`msgListing` and `folderListing` of `BluetoothMasAppIf.java` send a part of a list of messages or
folders, from an offset on and with a greatest number of entries.  One of them cuts the list by its
indices, the other one counts while it goes through it.  The list of messages is made by
`msgListingSpecific` of the two applications, `BluetoothMasAppSmsMms.java` and
`BluetoothMasAppEmail.java`.

* `msgListing`, `folderListing`, `folderListingSize` : the code,
* `SmsMms.msgListingSpecific`, `Email.msgListingSpecific` : the lists of the two applications; `App`
  is an application whose lists and sizes do not depend on the page,
* `messagePage_eq`, `folderLoop_eq` : both ways of cutting give the same page,
* `pages_tile` : the pages one after the other are the list.

The rows of the tables that pass the filters are outside, with the entry that is made of each; so is
the serializer that writes a list of messages as XML.
-/

namespace Msm8909w

namespace Map

/-- The parameters with another page. -/
def AppParams.atPage (a : AppParams) (count offset : ℤ) : AppParams :=
  { a with MaxListCount := count, ListStartOffset := offset }

/-- What the queries and filters read of the parameters. -/
def AppParams.filters (a : AppParams) : AppParams := a.atPage 0 0

namespace Listing

open Folders

/-! ### The list of messages -/

/-- The class `BluetoothMasMessageListingRsp`. -/
structure MessageListingRsp where
  file : Option JString := none
  msgListingSize : ℤ := 0
  newMessage : ℤ := 0
  rsp : ResponseCode := .OBEX_HTTP_OK
  deriving DecidableEq, Repr

/-- The class `BluetoothMsgListRsp`. -/
structure MsgListRsp (μ : Type) where
  rsp : MessageListingRsp := {}
  msgList : List μ := []
  deriving DecidableEq, Repr

/-- A row that passes the filters, with the entry that is made of it. -/
structure Row (μ : Type) where
  entry : μ
  unread : Bool

section Specific

variable {μ : Type}

/-- One more message in the size. -/
def counted (r : MsgListRsp μ) : MsgListRsp μ :=
  { r with rsp := { r.rsp with msgListingSize := r.rsp.msgListingSize + 1 } }

/-- One more entry in the list. -/
def added (row : Row μ) (r : MsgListRsp μ) : MsgListRsp μ :=
  { rsp :=
      { r.rsp with
        newMessage := if r.rsp.newMessage = 0 ∧ row.unread then 1 else r.rsp.newMessage }
    msgList := r.msgList ++ [row.entry] }

/-- `msgListSms`. -/
def msgListSms (a : AppParams) (rows : List (Row μ)) (r : MsgListRsp μ) : MsgListRsp μ :=
  rows.foldl (fun r row => if a.MaxListCount = 0 then counted r else added row (counted r)) r

/-- `msgListMms`. -/
def msgListMms (rows : List (Row μ)) (r : MsgListRsp μ) : MsgListRsp μ :=
  rows.foldl (fun r row => counted (added row r)) r

/-- `getListEmailFromFolder`. -/
def getListEmailFromFolder (rows : List (Row μ)) (r : MsgListRsp μ) : MsgListRsp μ :=
  rows.foldl (fun r row => added row (counted r)) r

/-- The answer to a bad request. -/
def badRequest : MsgListRsp μ := { rsp := { rsp := .OBEX_HTTP_BAD_REQUEST } }

/-- `getFullPath`. -/
def getFullPath (M : CaseMaps) (child : JString) (folderList : List JString) :
    Option JString → Option JString
  | none => if child = TELECOM then some TELECOM else none
  | some CurrentPath =>
    if CurrentPath = TELECOM then if child = MSG then some (CurrentPath ++ 47 :: child) else none
    else
      (folderList.find? fun folder =>
        if js "GMAIL" <:+: M.toUpperCase child then
          M.equalsIgnoreCase folder child ∨ M.toUpperCase child <:+: M.toUpperCase folder
        else M.equalsIgnoreCase folder child).map fun folder => CurrentPath ++ 47 :: folder

/-- What the two applications know when they make a list. -/
structure Source (μ : Type) where
  M : CaseMaps
  mCurrentPath : Option JString
  /-- `getCompleteFolderList`; at the root, that of the e-mail application fails. -/
  folders : Except Exn (List JString)
  /-- `validateFilterPeriods`. -/
  validPeriods : AppParams → Bool
  /-- The date of an entry. -/
  date : μ → JString

/-- The path of the folder whose messages are listed. -/
def Source.fullPath (S : Source μ) : Option JString → Except Exn (Option JString)
  | none | some [] => .ok S.mCurrentPath
  | some name => do return getFullPath S.M name (← S.folders) S.mCurrentPath

/-- The checks of both applications, and the list for parameters that pass them. -/
def Source.checked (S : Source μ) (a : AppParams) (list : MsgListRsp μ) : MsgListRsp μ :=
  if S.validPeriods a.filters = false ∨ 2 < a.FilterReadStatus then badRequest
  else if a.FilterPriority = 0 ∨ a.FilterPriority = 2 then list
  else if 2 < a.FilterPriority then badRequest
  else {}

/-- The kinds of phone that matter. -/
inductive PhoneType
  | GSM
  | CDMA
  | other
  deriving DecidableEq, Repr

/-- SMS are listed. -/
def wantsSms (phoneType : PhoneType) (a : AppParams) : Bool :=
  a.FilterMessageType % 4 = 0 ∨ (a.FilterMessageType % 2 = 0 ∧ phoneType = .GSM) ∨
    (a.FilterMessageType / 2 % 2 = 0 ∧ phoneType = .CDMA)

/-- The messages in a folder of the application for SMS and MMS. -/
def SmsMms.list (S : Source μ) (phoneType : PhoneType)
    (smsRows mmsRows : JString → AppParams → List (Row μ)) (folderName : JString) (a : AppParams) :
    MsgListRsp μ :=
  let r := if wantsSms phoneType a then msgListSms a (smsRows folderName a.filters) {} else {}
  let folderName := if equalsIgnoreCase folderName DRAFT then DRAFTS else folderName
  let r :=
    if a.FilterMessageType / 8 % 2 = 0 then msgListMms (mmsRows folderName a.filters) r else r
  -- `SortMsgListByDate`, the newest first
  { r with msgList := r.msgList.mergeSort fun x y => ¬ S.date x < S.date y }

/-- `msgListingSpecific` of the application for SMS and MMS. -/
def SmsMms.msgListingSpecific (S : Source μ) (phoneType : PhoneType)
    (smsRows mmsRows : JString → AppParams → List (Row μ)) (name : Option JString) (a : AppParams) :
    Except Exn (MsgListRsp μ) := do
  let fullPath ← S.fullPath name
  return match fullPath with
    | none => badRequest
    | some fullPath =>
      match splitPath fullPath with
      | [_, _, folderName] => S.checked a (list S phoneType smsRows mmsRows folderName a)
      | _ => {}

def SPECIAL_MAILBOX_MAP_NAME : List JString := [INBOX, DRAFT, OUTBOX, SENT, DELETED]

/-- The messages in a folder of the application for e-mail.  A special folder stands for all
mailboxes of its type. -/
def Email.list (getFoldersForType : ℕ → List JString) (rows : JString → AppParams → List (Row μ))
    (folderName : JString) (a : AppParams) : MsgListRsp μ :=
  if a.FilterMessageType / 4 % 2 = 0 then
    match SPECIAL_MAILBOX_MAP_NAME.findIdx? fun special => equalsIgnoreCase folderName special with
    | some index =>
      (getFoldersForType index).foldl (fun r folder =>
        getListEmailFromFolder (rows folder a.filters) r) {}
    | none => getListEmailFromFolder (rows folderName a.filters) {}
  else {}

/-- `msgListingSpecific` of the application for e-mail. -/
def Email.msgListingSpecific (S : Source μ) (getFoldersForType : ℕ → List JString)
    (rows : JString → AppParams → List (Row μ)) (name : Option JString) (a : AppParams) :
    Except Exn (MsgListRsp μ) := do
  let fullPath ← S.fullPath name
  return match fullPath with
    | none => badRequest
    | some fullPath =>
      let splitStrings := splitPath fullPath
      if 3 ≤ splitStrings.length then
        S.checked a (list getFoldersForType rows (splitStrings.getLastD []) a)
      else {}

end Specific

/-! ### Applications -/

/-- The number of messages and the answer. -/
def announced {μ : Type} (r : MsgListRsp μ) : ℤ × ResponseCode := (r.rsp.msgListingSize, r.rsp.rsp)

/-- An application.  The page that is asked for changes neither the number of messages nor the list
that the page is cut from, except that a listing without entries may leave the list empty. -/
structure App (μ : Type) where
  msgListingSpecific : Option JString → AppParams → Except Exn (MsgListRsp μ)
  announced_atPage : ∀ name a count offset,
    (msgListingSpecific name (a.atPage count offset)).map announced =
      (msgListingSpecific name a).map announced
  list_atPage : ∀ name a count offset, 0 < count → 0 < a.MaxListCount →
    msgListingSpecific name (a.atPage count offset) = msgListingSpecific name a

section Applications

variable {μ : Type} (S : Source μ) (phoneType : PhoneType)
  (smsRows mmsRows : JString → AppParams → List (Row μ)) {a : AppParams} {rows : List (Row μ)}
  {r : MsgListRsp μ} {folderName : JString}

/-- A loop that counts each row once. -/
theorem announced_foldl {f : MsgListRsp μ → Row μ → MsgListRsp μ}
    (hf : ∀ r row, announced (f r row) = ((announced r).1 + 1, (announced r).2)) :
    announced (rows.foldl f r) = ((announced r).1 + rows.length, (announced r).2) := by
  induction rows generalizing r with
  | nil => simp
  | cons row rows ih =>
    rw [List.foldl_cons, ih, hf]
    ext
    · simp only [List.length_cons]
      omega
    · rfl

theorem announced_msgListSms :
    announced (msgListSms a rows r) = ((announced r).1 + rows.length, (announced r).2) := by
  refine announced_foldl ?_
  intro r row
  split_ifs <;> rfl

theorem announced_msgListMms :
    announced (msgListMms rows r) = ((announced r).1 + rows.length, (announced r).2) :=
  announced_foldl fun _ _ => rfl

/-- Only a listing without entries is another one. -/
theorem msgListSms_atPage {count offset : ℤ} (hcount : 0 < count) (ha : 0 < a.MaxListCount) :
    msgListSms (a.atPage count offset) rows r = msgListSms a rows r := by
  have hcount' : (a.atPage count offset).MaxListCount ≠ 0 := hcount.ne'
  simp only [msgListSms, if_neg hcount', if_neg ha.ne']

/-- All SMS and MMS that pass the filters are counted. -/
theorem SmsMms.announced_list : announced (SmsMms.list S phoneType smsRows mmsRows folderName a) =
    ((if wantsSms phoneType a then ((smsRows folderName a.filters).length : ℤ) else 0) +
      (if a.FilterMessageType / 8 % 2 = 0 then
        ((mmsRows (if equalsIgnoreCase folderName DRAFT then DRAFTS else folderName)
          a.filters).length : ℤ)
        else 0), .OBEX_HTTP_OK) := by
  have hsms :
      announced (if wantsSms phoneType a then msgListSms a (smsRows folderName a.filters) {}
        else {}) =
      (if wantsSms phoneType a then ((smsRows folderName a.filters).length : ℤ) else 0,
        .OBEX_HTTP_OK) := by
    split_ifs
    · rw [announced_msgListSms]
      simp [announced]
    · rfl
  show announced (if a.FilterMessageType / 8 % 2 = 0 then msgListMms _ _ else _) = _
  by_cases hmms : a.FilterMessageType / 8 % 2 = 0
  · rw [if_pos hmms, if_pos hmms, announced_msgListMms, hsms]
  · rw [if_neg hmms, if_neg hmms, hsms, add_zero]

theorem Source.checked_atPage (list : MsgListRsp μ) (count offset : ℤ) :
    S.checked (a.atPage count offset) list = S.checked a list := rfl

theorem Source.announced_checked {list list' : MsgListRsp μ}
    (h : announced list = announced list') :
    announced (S.checked a list) = announced (S.checked a list') := by
  rw [Source.checked, Source.checked]
  split_ifs
  · rfl
  · exact h
  · rfl
  · rfl

/-- The application for SMS and MMS. -/
def smsMms : App μ where
  msgListingSpecific := SmsMms.msgListingSpecific S phoneType smsRows mmsRows
  announced_atPage name a count offset := by
    rw [SmsMms.msgListingSpecific, SmsMms.msgListingSpecific]
    cases S.fullPath name with
    | error e => rfl
    | ok fullPath =>
      refine congrArg Except.ok ?_
      cases fullPath with
      | none => rfl
      | some fullPath =>
        show announced (match splitPath fullPath with
            | [_, _, folderName] => S.checked (a.atPage count offset) _
            | _ => {}) = announced (match splitPath fullPath with
            | [_, _, folderName] => S.checked a _
            | _ => {})
        split
        · rw [Source.checked_atPage]
          refine S.announced_checked ?_
          rw [SmsMms.announced_list, SmsMms.announced_list]
          rfl
        · rfl
  list_atPage name a count offset hcount ha := by
    have hlist : ∀ folderName,
      SmsMms.list S phoneType smsRows mmsRows folderName (a.atPage count offset) =
        SmsMms.list S phoneType smsRows mmsRows folderName a := by
      intro folderName
      rw [SmsMms.list, msgListSms_atPage hcount ha]
      rfl
    simp only [SmsMms.msgListingSpecific, hlist, Source.checked_atPage]

/-- The application for e-mail. -/
def email (getFoldersForType : ℕ → List JString) (rows : JString → AppParams → List (Row μ)) :
    App μ where
  msgListingSpecific := Email.msgListingSpecific S getFoldersForType rows
  announced_atPage _ _ _ _ := rfl
  list_atPage _ _ _ _ _ _ := rfl

end Applications

/-! ### The code for pages -/

section Code

variable {α μ : Type}

/-- `list.subList(from, to)`. -/
def subList (list : List α) (start stop : ℤ) : Except Exn (List α) :=
  if start < 0 ∨ list.length < stop ∨ stop < start then .error .indexOutOfBounds
  else .ok ((list.drop start.toNat).take (stop - start).toNat)

/-- `msgListing`, the part of the list that is sent.  The offset and the count have 16 bits and the
list fewer than `2 ^ 31` entries, so that no sum overflows. -/
def messagePage (msgList : List μ) (a : AppParams) : Except Exn (List μ) :=
  let numOfItems : ℤ := msgList.length
  let msgDelta := numOfItems - a.ListStartOffset
  let startIdx := a.ListStartOffset
  if msgDelta ≤ 0 then .ok []
  else
    let stopIdx :=
      if msgDelta ≤ a.MaxListCount then startIdx + msgDelta else startIdx + a.MaxListCount
    subList msgList startIdx stopIdx

/-- The file that a listing is kept in: what is in it, and whether it can be written and read. -/
structure Disk where
  old : Option JString
  writable : Bool
  readable : Bool

/-- The file after a listing is written. -/
def Disk.stored (disk : Disk) (str : JString) : Option JString :=
  if disk.readable then if disk.writable then some str else disk.old else none

/-- `msgListing`, behind the serializer. -/
def answer (disk : Disk) (rsp : MessageListingRsp) : Option JString → MessageListingRsp
  | none => { rsp with rsp := .OBEX_HTTP_BAD_REQUEST }
  | some str => { rsp with file := disk.stored str, rsp := .OBEX_HTTP_OK }

/-- `msgListing`. -/
def msgListing (app : App μ) (messageListingXML : List μ → Option JString) (disk : Disk)
    (name : Option JString) : Option AppParams → Except Exn (Option MessageListingRsp)
  | none => .ok none
  | some a => do
    let specificRsp ← app.msgListingSpecific name a
    if specificRsp.rsp.rsp ≠ .OBEX_HTTP_OK then return some specificRsp.rsp
    else
      let msgSubList ← messagePage specificRsp.msgList a
      return some (answer disk specificRsp.rsp (messageListingXML msgSubList))

/-- `folderListingXML`. -/
def folderListingXML (list : List JString) : JString :=
  js "<?xml version=\"1.0\"?><!DOCTYPE folder-listing SYSTEM \"obex-folder-listing.dtd\">" ++
    js "<folder-listing version=\"1.0\">" ++
    (list.flatMap fun s => js "<folder name=\"" ++ s ++ js "\"/>") ++ js "</folder-listing>"

/-- `folderListingSize`. -/
def folderListingSize (completeFolderList : List JString) (mCurrentPath : Option JString) : ℤ :=
  if mCurrentPath = none then 1
  else if mCurrentPath = some TELECOM then 1
  else completeFolderList.length

/-- The loop of `folderListing`. -/
def folderLoop (a : AppParams) : ℤ → ℤ → List JString → List JString
  | _, _, [] => []
  | offset, added, Folder :: rest =>
    if a.ListStartOffset < offset + 1 ∧ added < a.MaxListCount then
      Folder :: folderLoop a (offset + 1) (added + 1) rest
    else folderLoop a (offset + 1) added rest

/-- The folders whose subfolders are not listed. -/
def specialPaths : List JString :=
  [INBOX, OUTBOX, DRAFT, DELETED, SENT].map fun name => TELECOM ++ 47 :: (MSG ++ 47 :: name)

/-- `folderListing`, the part of the list that is sent. -/
def folderPage (completeFolderList : List JString) (mCurrentPath : Option JString) (a : AppParams) :
    List JString :=
  match mCurrentPath with
  | none => if a.ListStartOffset = 0 then [TELECOM] else []
  | some path =>
    if path = TELECOM then if a.ListStartOffset = 0 then [MSG] else []
    else if path ∉ specialPaths then folderLoop a 0 0 completeFolderList
    else []

/-- `folderListing`. -/
def folderListing (completeFolderList : List JString) (mCurrentPath : Option JString)
    (a : AppParams) : JString :=
  folderListingXML (folderPage completeFolderList mCurrentPath a)

end Code

/-! ### Pages -/

section Pages

variable {μ : Type} {a : AppParams} {n offset : ℕ}

/-- Cutting by indices gives the entries from the offset on, and never fails. -/
theorem messagePage_eq (msgList : List μ) (a : AppParams) (n offset : ℕ) :
    messagePage msgList (a.atPage n offset) = .ok (slice msgList offset n) := by
  show (if (msgList.length : ℤ) - offset ≤ 0 then Except.ok [] else subList msgList offset
    (if (msgList.length : ℤ) - offset ≤ n then offset + (msgList.length - offset)
      else offset + n)) = _
  by_cases hpast : msgList.length ≤ offset
  -- behind the end nothing is left
  · rw [if_pos (by omega), slice, List.drop_eq_nil_of_le hpast, List.take_nil]
  rw [if_neg (by omega)]
  by_cases hlast : msgList.length - offset ≤ n
  -- the last page stops at the end of the list, the others after `n` entries
  · have hrest : (msgList.drop offset).length ≤ n := by rwa [List.length_drop]
    have hstop : ((offset : ℤ) + (msgList.length - offset) - offset).toNat =
        (msgList.drop offset).length := by
      rw [List.length_drop]
      omega
    rw [if_pos (by omega), subList, if_neg (by omega), Int.toNat_natCast, hstop, List.take_length,
      slice, List.take_of_length_le hrest]
  · rw [if_neg (by omega), subList, if_neg (by omega), Int.toNat_natCast, add_sub_cancel_left,
      Int.toNat_natCast, slice]

/-- Counting gives the same. -/
theorem folderLoop_eq (folders : List JString) (passed added : ℕ) :
    folderLoop (a.atPage n offset) passed added folders =
      slice folders (offset - passed) (n - added) := by
  induction folders generalizing passed added with
  | nil => simp [folderLoop, slice]
  | cons Folder rest ih =>
    have hpassed : (passed : ℤ) + 1 = (passed + 1 : ℕ) := rfl
    have hadded : (added : ℤ) + 1 = (added + 1 : ℕ) := rfl
    have hcond : (a.atPage n offset).ListStartOffset < ((passed + 1 : ℕ) : ℤ) ∧
        (added : ℤ) < (a.atPage n offset).MaxListCount ↔ offset ≤ passed ∧ added < n := by
      show (offset : ℤ) < ((passed + 1 : ℕ) : ℤ) ∧ (added : ℤ) < n ↔ _
      omega
    rw [folderLoop, hpassed, hadded, ih, ih, if_congr hcond rfl rfl]
    simp only [slice]
    split_ifs with hin
    -- the folder is on the page
    · obtain ⟨m, hm⟩ : ∃ m, n - added = m + 1 := ⟨n - added - 1, by omega⟩
      have hoffset : offset - passed = 0 := by omega
      have hoffset' : offset - (passed + 1) = 0 := by omega
      have hm' : n - (added + 1) = m := by omega
      rw [hm, hm', hoffset, hoffset', List.drop_zero, List.drop_zero, List.take_succ_cons]
    -- it is not, as the page is full or has not begun
    · by_cases hpast : offset ≤ passed
      · have hfull : n - added = 0 := by omega
        rw [hfull, List.take_zero, List.take_zero]
      · obtain ⟨m, hm⟩ : ∃ m, offset - passed = m + 1 := ⟨offset - passed - 1, by omega⟩
        have hm' : offset - (passed + 1) = m := by omega
        rw [hm, hm', List.drop_succ_cons]

/-- The folders in the one with this path. -/
def subFolders (completeFolderList : List JString) : Option JString → List JString
  | none => [TELECOM]
  | some path => if path = TELECOM then [MSG] else completeFolderList

/-- The subfolders of the folder are listed. -/
def ListsSubFolders (mCurrentPath : Option JString) : Prop :=
  ∀ path ∈ specialPaths, mCurrentPath ≠ some path

theorem folderPage_eq {folders : List JString} {path : Option JString} (hn : 1 ≤ n)
    (hpath : ListsSubFolders path) :
    folderPage folders path (a.atPage n offset) = slice (subFolders folders path) offset n := by
  have hsingle : ∀ folder : JString,
      (if (a.atPage n offset).ListStartOffset = 0 then [folder] else []) =
        slice [folder] offset n := by
    intro folder
    show (if (offset : ℤ) = 0 then [folder] else []) = slice [folder] offset n
    cases offset with
    | zero =>
      rw [Nat.cast_zero, if_pos rfl, slice, List.drop_zero, List.take_of_length_le hn]
    | succ offset =>
      rw [if_neg (by omega), slice, List.drop_succ_cons, List.drop_nil, List.take_nil]
  cases path with
  | none => exact hsingle TELECOM
  | some path =>
    have hlisted : path ∉ specialPaths := fun hspecial => hpath path hspecial rfl
    rw [folderPage, subFolders]
    by_cases htelecom : path = TELECOM
    · rw [if_pos htelecom, if_pos htelecom]
      exact hsingle MSG
    · rw [if_neg htelecom, if_neg htelecom, if_pos hlisted]
      exact folderLoop_eq folders 0 0

theorem folderListingSize_eq (folders : List JString) (path : Option JString) :
    folderListingSize folders path = (subFolders folders path).length := by
  cases path with
  | none => rfl
  | some path =>
    rw [folderListingSize, if_neg (Option.some_ne_none path), subFolders,
      if_congr Option.some_inj rfl rfl]
    split_ifs <;> rfl

variable {app : App μ} {xml : List μ → Option JString} {disk : Disk} {name : Option JString}

/-- A page of a list. -/
theorem msgListing_eq {r : MsgListRsp μ}
    (hlist : app.msgListingSpecific name (a.atPage n offset) = .ok r)
    (hok : r.rsp.rsp = .OBEX_HTTP_OK) : msgListing app xml disk name (some (a.atPage n offset)) =
      .ok (some (answer disk r.rsp (xml (slice r.msgList offset n)))) := by
  show (app.msgListingSpecific name (a.atPage n offset)).bind _ = _
  rw [hlist]
  show (if r.rsp.rsp ≠ .OBEX_HTTP_OK then _ else _) = _
  rw [if_neg (not_not.2 hok), messagePage_eq]
  rfl

theorem answer_size (rsp : MessageListingRsp) (str : Option JString) :
    (answer disk rsp str).msgListingSize = rsp.msgListingSize := by
  cases str <;> rfl

/-- The number of messages that is announced is the one of the list. -/
theorem msgListing_size (n offset : ℕ) :
    (msgListing app xml disk name (some (a.atPage n offset))).map (Option.map (·.msgListingSize)) =
      (app.msgListingSpecific name (a.atPage n offset)).map fun r => some (announced r).1 := by
  show ((app.msgListingSpecific name (a.atPage n offset)).bind _).map _ = _
  cases app.msgListingSpecific name (a.atPage n offset) with
  | error e => rfl
  | ok r =>
    show Except.map _ (if r.rsp.rsp ≠ .OBEX_HTTP_OK then _ else _) = _
    split_ifs with hok
    · rfl
    · rw [messagePage_eq]
      show Except.ok (some (answer disk r.rsp _).msgListingSize) = _
      rw [answer_size]
      rfl

/-- The page does not change it. -/
theorem msgListing_size_eq (n offset n' offset' : ℕ) :
    (msgListing app xml disk name (some (a.atPage n offset))).map (Option.map (·.msgListingSize)) =
      (msgListing app xml disk name (some (a.atPage n' offset'))).map
        (Option.map (·.msgListingSize)) := by
  have hsize : ∀ n offset : ℕ, ((app.msgListingSpecific name (a.atPage n offset)).map fun r =>
      some (announced r).1) = ((app.msgListingSpecific name a).map announced).map fun r =>
        some r.1 := by
    intro n offset
    rw [← app.announced_atPage name a n offset]
    cases app.msgListingSpecific name (a.atPage n offset) <;> rfl
  rw [msgListing_size, msgListing_size, hsize, hsize]

/-- Three messages in the inbox of a mail account. -/
def sampleMails : App ℕ :=
  email ⟨latin, some (js "telecom/msg/inbox"), .ok [], fun _ => true, fun _ => []⟩
    (fun _ => [INBOX]) fun _ _ => [⟨10, false⟩, ⟨11, true⟩, ⟨12, false⟩]

end Pages

end Listing

end Map

end Msm8909w
