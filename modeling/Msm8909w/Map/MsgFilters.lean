import Msm8909w.Lib.Fallible
import Msm8909w.Map.BmessageReaders
import Msm8909w.Map.BmessageWriters
import Msm8909w.Map.ContactCache
import Msm8909w.Map.Handles
import Msm8909w.Map.Listing

/-!
# The filters of a listing

The loops `msgListSms` and `msgListMms` of `BluetoothMasAppSmsMms.java` go through the messages that
the queries find, pass over those that the filters for originator and recipient do not let through,
and look up names in the cache of contacts on the way.

* `msgListSms`, `msgListMms`, `msgListingSpecific` : the code,
* `Over` : a cache with entries of certain numbers only; `getContactName_spec` and `allowEntry_spec`
  say what such a cache may answer,
* `Verdict`, `mmsTurn_spec` : what one turn of the loop for MMS can do.

What the queries find is outside, and so is the matcher of regular expressions.
-/

namespace Msm8909w

namespace Map

namespace Filters

open ContactCache Listing

/-! ### The code -/

/-- What the loops read of the device. -/
structure Env where
  contacts : Contacts
  stringMatches : Matcher
  /-- `getOwnerName`. -/
  ownerName : Option JString
  /-- `getOwnerNumber`. -/
  ownerNumber : Option JString

/-- A message that the query finds.  `item` is the rest of its entry, from the names of the sender
and the recipient. -/
structure Message (ν : Type) where
  outgoing : Bool
  address : Option JString
  unread : Bool
  item : Option JString → Option JString → ν

/-- An SMS.  Its entry may fail. -/
structure Sms (ι : Type) extends Message (Except Exn ι) where
  id : ℤ
  /-- The address in the entry; a draft without an address has the one of its thread. -/
  itemAddress : Option JString

/-- The class `MsgListingConsts`: the handle and the rest. -/
structure Entry (ι : Type) where
  msg_handle : ℤ
  info : ι
  deriving DecidableEq, Repr

section Code

variable {ι ν : Type} (env : Env) (a : AppParams)

/-- The filter for the owner of the phone. -/
def ownerFilter (m : Message ν) : Option JString :=
  if m.outgoing then a.FilterOriginator else a.FilterRecipient

/-- The filter for the other side. -/
def otherFilter (m : Message ν) : Option JString :=
  if m.outgoing then a.FilterRecipient else a.FilterOriginator

/-- The owner passes the filter, if there is one. -/
def ownerPasses : Option JString → Except Exn Bool
  | none | some [] => .ok true
  | some filter => do
    let pattern := js ".*" ++ regExp filter ++ js ".*"
    if ← env.stringMatches (env.ownerName.getD []) pattern then return true
    env.stringMatches (env.ownerNumber.getD []) pattern

/-- The text of a filter, if there is one. -/
def filterText : Option JString → Option JString
  | none | some [] => none
  | some filter => some (trim filter)

def BIT_SENDER_NAME : ℤ := 0x4
def BIT_RECIPIENT_NAME : ℤ := 0x10

/-- `(appParams.ParameterMask & bit) != 0`. -/
def inMask (bit : ℤ) : Bool := a.ParameterMask / bit % 2 = 1

/-- A name, looked up with a cache. -/
abbrev Lookup := List VcardContent → Option JString × List VcardContent

/-- The first recipient of an SMS. -/
def firstRecipient (address : JString) : Except Exn JString :=
  let first : List JString → Except Exn JString
    | token :: _ => .ok token
    | [] => .error .indexOutOfBounds
  if 59 ∈ address then first (split 59 address)
  else if 44 ∈ address then first (split 44 address)
  else .ok address

/-- The names in an entry: one is that of the owner, the other one is looked up. -/
def names (m : Message ν) (lookup : Lookup) (cache : List VcardContent) :
    (Option JString × Option JString) × List VcardContent :=
  let ownerBit := if m.outgoing then BIT_SENDER_NAME else BIT_RECIPIENT_NAME
  let otherBit := if m.outgoing then BIT_RECIPIENT_NAME else BIT_SENDER_NAME
  let owner := if inMask a ownerBit then env.ownerName else none
  let (other, cache) := if inMask a otherBit then lookup cache else (none, cache)
  (if m.outgoing then (owner, other) else (other, owner), cache)

/-- The number that `bldSmsMsgLstItem` looks up. -/
def askedSms (m : Sms ι) : Except Exn (Option JString) :=
  match m.outgoing, m.itemAddress with
  | true, some address =>
    if inMask a BIT_RECIPIENT_NAME then (firstRecipient address).map some else .ok none
  | _, address => .ok address

/-- `bldSmsMsgLstItem`. -/
def bldSmsMsgLstItem (m : Sms ι) (cache : List VcardContent) :
    Except Exn (Entry ι × List VcardContent) := do
  let asked ← askedSms a m
  let ((sender, recipient), cache) :=
    names env a m.toMessage (fun cache => getContactName env.contacts cache asked) cache
  return (⟨m.id, ← m.item sender recipient⟩, cache)

/-- The names of several recipients. -/
def tokenNames (contacts : Contacts) (tokens : List JString) : Lookup := fun cache =>
  let (text, cache) := tokens.foldl (fun (text, cache) token =>
    let (name, cache) := getContactName contacts cache (some token)
    (text ++ name.getD (js "null") ++ js ";", cache)) ([], cache)
  (some text, cache)

/-- The name for the address of an MMS, which may have several numbers in it. -/
def addressName (contacts : Contacts) (address : Option JString) : Lookup := fun cache =>
  match address with
  | some numbers =>
    if 59 ∈ numbers then tokenNames contacts (split 59 numbers) cache
    else getContactName contacts cache address
  | none => getContactName contacts cache address

/-- `bldMmsMsgLstItem`. -/
def bldMmsMsgLstItem (msgId : ℤ) (m : Message ι) (cache : List VcardContent) :
    Entry ι × List VcardContent :=
  let ((sender, recipient), cache) := names env a m (addressName env.contacts m.address) cache
  (⟨msgId + MMS_OFFSET_START, m.item sender recipient⟩, cache)

/-- The filters of `msgListSms`. -/
def allowedSms (m : Sms ι) (cache : List VcardContent) : Except Exn (Bool × List VcardContent) := do
  if ← ownerPasses env (ownerFilter a m.toMessage) then
    match filterText (otherFilter a m.toMessage) with
    | none => return (true, cache)
    | some filterString =>
      let (allowed, cache) :=
        allowEntry env.contacts env.stringMatches cache m.address filterString
      return (← allowed, cache)
  else return (false, cache)

/-- One message of `msgListSms`. -/
def smsTurn (s : List VcardContent × MsgListRsp (Entry ι)) (m : Sms ι) :
    Except Exn (List VcardContent × MsgListRsp (Entry ι)) := do
  let (cache, r) := s
  let (allowed, cache) ← allowedSms env a m cache
  if allowed then
    if a.MaxListCount = 0 then return (cache, counted r)
    else
      let (entry, cache) ← bldSmsMsgLstItem env a m cache
      return (cache, added ⟨entry, m.unread⟩ (counted r))
  else return (cache, r)

/-- `msgListSms`. -/
def msgListSms (rows : List (Sms ι)) (s : List VcardContent × MsgListRsp (Entry ι)) :
    Except Exn (List VcardContent × MsgListRsp (Entry ι)) :=
  rows.foldlM (smsTurn env a) s

/-- The name or the number of an MMS matches the text of a filter. -/
def contactMatches (name number : Option JString) (filterString : JString) : Except Exn Bool :=
  match name with
  | none => .error .nullPointer
  | some name => do
    if ← env.stringMatches name filterString then return true
    match number with
    | none => .error .nullPointer
    | some number => env.stringMatches number filterString

/-- The variables of `msgListMms` that outlive a message. -/
structure Progress (ι : Type) where
  filterString : Option JString
  cache : List VcardContent
  r : MsgListRsp (Entry ι)

/-- The text that an MMS is compared with.  Without a filter for this kind of message it stays the
one of the messages before. -/
def inForce (filterString : Option JString) (m : Message ν) : Option JString :=
  (filterText (otherFilter a m)).orElse fun _ => filterString

/-- The filters of `msgListMms`: the verdict, `filterString` and the cache. -/
def allowedMms (filterString : Option JString) (m : Message ι) (cache : List VcardContent) :
    Except Exn (Bool × Option JString × List VcardContent) := do
  if ← ownerPasses env (ownerFilter a m) then
    match inForce a filterString m with
    | none => return (true, none, cache)
    | some text =>
      let (name, cache) := getContactName env.contacts cache m.address
      return (← contactMatches env name m.address text, some text, cache)
  else return (false, filterString, cache)

/-- One message of `msgListMms`. -/
def mmsTurn (mms : ℤ → Message ι) (s : Progress ι) (msgId : ℤ) : Except Exn (Progress ι) := do
  let (allowed, filterString, cache) ← allowedMms env a s.filterString (mms msgId) s.cache
  if allowed then
    let (entry, cache) := bldMmsMsgLstItem env a msgId (mms msgId) cache
    return ⟨filterString, cache, counted (added ⟨entry, (mms msgId).unread⟩ s.r)⟩
  else return ⟨filterString, cache, s.r⟩

/-- `msgListMms`. -/
def msgListMms (mms : ℤ → Message ι) (ids : List ℤ)
    (s : List VcardContent × MsgListRsp (Entry ι)) :
    Except Exn (List VcardContent × MsgListRsp (Entry ι)) := do
  let s ← ids.foldlM (mmsTurn env a mms) ⟨none, s.1, s.2⟩
  return (s.cache, s.r)

/-- The MMS of the device, and what the queries find in a folder; they do not read which page is
asked for. -/
structure Store (ι : Type) where
  mms : ℤ → Message ι
  smsRows : JString → AppParams → List (Sms ι)
  mmsIds : JString → AppParams → List ℤ

/-- The SMS that are looked at. -/
def Store.sms (store : Store ι) (phoneType : PhoneType) (folderName : JString) : List (Sms ι) :=
  if wantsSms phoneType a then store.smsRows folderName a.filters else []

/-- The MMS that are looked at. -/
def Store.ids (store : Store ι) (folderName : JString) : List ℤ :=
  let folderName := if equalsIgnoreCase folderName DRAFT then DRAFTS else folderName
  if a.FilterMessageType / 8 % 2 = 0 then store.mmsIds folderName a.filters else []

/-- The messages in a folder. -/
def list (S : Source (Entry ι)) (phoneType : PhoneType) (store : Store ι)
    (cache : List VcardContent) (folderName : JString) : Except Exn (MsgListRsp (Entry ι)) := do
  let s ← msgListSms env a (store.sms a phoneType folderName) (cache, {})
  let (_, r) ← msgListMms env a store.mms (store.ids a folderName) s
  -- `SortMsgListByDate`, the newest first
  return { r with msgList := r.msgList.mergeSort fun x y => ¬ S.date x < S.date y }

/-- `msgListingSpecific`. -/
def msgListingSpecific (S : Source (Entry ι)) (phoneType : PhoneType) (store : Store ι)
    (cache : List VcardContent) (name : Option JString) : Except Exn (MsgListRsp (Entry ι)) := do
  match ← S.fullPath name with
  | none => return badRequest
  | some fullPath =>
    match splitPath fullPath with
    | [_, _, folderName] =>
      if S.validPeriods a.filters = false ∨ 2 < a.FilterReadStatus then return badRequest
      else if a.FilterPriority = 0 ∨ a.FilterPriority = 2 then
        list env a S phoneType store cache folderName
      else if 2 < a.FilterPriority then return badRequest
      else return {}
    | _ => return {}

end Code

/-! ### What the cache may answer -/

section Cache

variable {contacts : Contacts} {stringMatches : Matcher} {N : Set JString}
  {cache : List VcardContent} {p q : JString}

theorem contains_self (p : JString) : contains p p = true := decide_eq_true List.infix_rfl

theorem hit_of_firstHit {entry : VcardContent} (h : firstHit cache p = some entry) :
    entry ∈ cache ∧ ∃ q, entry.tel = some q ∧ contains q p := by
  refine ⟨mem_of_firstHit h, ?_⟩
  have hhit := List.find?_some h
  cases htel : entry.tel with
  | none => simp [htel] at hhit
  | some q => exact ⟨q, rfl, by simpa [htel] using hhit⟩

/-- The entries are those of the database for numbers of the set. -/
def Over (contacts : Contacts) (N : Set JString) (cache : List VcardContent) : Prop :=
  ∀ entry ∈ cache, ∃ q ∈ N, entry = getVcardContent contacts (some q)

theorem Over.sound (h : Over contacts N cache) : Sound contacts cache := by
  intro entry hentry
  obtain ⟨q, -, hq⟩ := h entry hentry
  exact ⟨q, hq⟩

theorem over_nil : Over contacts N [] := by
  intro entry hentry
  cases hentry

theorem Over.append (h : Over contacts N cache) (hp : p ∈ N) :
    Over contacts N (cache ++ [getVcardContent contacts (some p)]) := by
  intro entry hentry
  rcases List.mem_append.1 hentry with hentry | hentry
  · exact h entry hentry
  · exact ⟨p, hp, List.mem_singleton.1 hentry⟩

/-- A hit is the entry of a number that has the one that is asked for in it. -/
theorem Over.hit (h : Over contacts N cache) {entry : VcardContent}
    (hentry : entry ∈ cache ∧ ∃ q, entry.tel = some q ∧ contains q p) :
    ∃ q ∈ N, contains q p ∧ entry = getVcardContent contacts (some q) := by
  obtain ⟨hmem, q, htel, hq⟩ := hentry
  obtain ⟨q', hq', rfl⟩ := h entry hmem
  obtain rfl := Option.some.inj ((tel_getVcardContent _).symm.trans htel)
  exact ⟨q', hq', hq, rfl⟩

/-- The name is that of a number in the set, and the cache keeps to the set. -/
theorem getContactName_spec (h : Over contacts N cache) (hp : p ∈ N) :
    (∃ q ∈ N, contains q p ∧ (getContactName contacts cache (some p)).1 =
      (getVcardContent contacts (some q)).name) ∧
    Over contacts N (getContactName contacts cache (some p)).2 := by
  rw [getContactName]
  cases hfound : firstHit cache p with
  | none => exact ⟨⟨p, hp, contains_self p, rfl⟩, h.append hp⟩
  | some entry =>
    obtain ⟨q, hq, hqp, rfl⟩ := h.hit (hit_of_firstHit hfound)
    exact ⟨⟨q, hq, hqp, rfl⟩, h⟩

theorem over_getContactName (h : Over contacts N cache) {o : Option JString}
    (ho : ∀ p ∈ o, p ∈ N) : Over contacts N (getContactName contacts cache o).2 := by
  cases o with
  | none => exact h
  | some p => exact (getContactName_spec h (ho p rfl)).2

/-- The same for the loop with the filter. -/
theorem allowEntry_spec (h : Over contacts N cache) (hp : p ∈ N) (filterString : JString) :
    (∃ q ∈ N, contains q p ∧
      (allowEntry contacts stringMatches cache (some p) filterString).1 =
        matchEntry stringMatches filterString (getVcardContent contacts (some q))) ∧
    Over contacts N (allowEntry contacts stringMatches cache (some p) filterString).2 := by
  obtain ⟨found, hfound, hhit⟩ := lastHit_ok h.sound p
  rw [allowEntry, hfound]
  cases found with
  | none => exact ⟨⟨p, hp, contains_self p, rfl⟩, h.append hp⟩
  | some entry =>
    obtain ⟨q, hq, hqp, rfl⟩ := h.hit (hhit entry rfl)
    exact ⟨⟨q, hq, hqp, rfl⟩, h⟩

/-- What is found first stays found. -/
theorem getContactName_of_hit {rest : List VcardContent} (hqp : contains q p) :
    getContactName contacts (getVcardContent contacts (some q) :: rest) (some p) =
      ((getVcardContent contacts (some q)).name,
        getVcardContent contacts (some q) :: rest) := by
  have hfirst : firstHit (getVcardContent contacts (some q) :: rest) p =
      some (getVcardContent contacts (some q)) := by
    rw [firstHit, List.find?_cons_of_pos]
    rw [tel_getVcardContent]
    exact hqp
  rw [getContactName, hfirst]

theorem getContactName_of_second_hit {q' : JString} (hqp : ¬ contains q p)
    (hqp' : contains q' p) :
    getContactName contacts
        [getVcardContent contacts (some q), getVcardContent contacts (some q')] (some p) =
      ((getVcardContent contacts (some q')).name,
        [getVcardContent contacts (some q), getVcardContent contacts (some q')]) := by
  have hfirst : firstHit
      [getVcardContent contacts (some q), getVcardContent contacts (some q')] p =
      some (getVcardContent contacts (some q')) := by
    rw [firstHit, List.find?_cons_of_neg, List.find?_cons_of_pos]
    · rw [tel_getVcardContent]
      exact hqp'
    · rw [tel_getVcardContent]
      exact hqp
  rw [getContactName, hfirst]

/-- Look-ups only add to the end of the cache. -/
theorem prefix_getContactName (o : Option JString) :
    cache <+: (getContactName contacts cache o).2 := by
  cases o with
  | none => exact List.prefix_rfl
  | some p =>
    rw [getContactName]
    cases firstHit cache p with
    | none => exact List.prefix_append cache _
    | some entry => exact List.prefix_rfl

end Cache

/-! ### One turn of the loop for MMS -/

section Turn

variable {ι ν : Type} {env : Env} {a : AppParams} {N : Set JString}
  {cache cache' : List VcardContent} {P : List VcardContent → Prop}
  {filterString filterString' : Option JString} {b : Bool}

/-- The numbers that are looked up for an MMS. -/
def asked (m : Message ν) : Set JString :=
  {p | ∃ address, m.address = some address ∧ (p = address ∨ p ∈ split 59 address)}

theorem keeps_names {m : Message ν} {lookup : Lookup} (hlookup : ∀ c, P c → P (lookup c).2)
    (h : P cache) : P (names env a m lookup cache).2 := by
  show P (if inMask a (if m.outgoing then BIT_RECIPIENT_NAME else BIT_SENDER_NAME) then
    lookup cache else (none, cache)).2
  split_ifs
  · exact hlookup cache h
  · exact h
  · exact hlookup cache h
  · exact h

theorem keeps_tokenNames {contacts : Contacts} {tokens : List JString}
    (hname : ∀ c, ∀ p ∈ tokens, P c → P (getContactName contacts c (some p)).2) (h : P cache) :
    P (tokenNames contacts tokens cache).2 := by
  show P (tokens.foldl _ ([], cache)).2
  generalize ([] : JString) = text
  induction tokens generalizing text cache with
  | nil => exact h
  | cons token tokens ih =>
    refine ih (fun c p hp => hname c p (List.mem_cons_of_mem _ hp)) ?_ _
    exact hname cache token List.mem_cons_self h

/-- What each look-up keeps is kept. -/
theorem keeps_bldMmsMsgLstItem {m : Message ι} (msgId : ℤ)
    (hname : ∀ c, ∀ p ∈ asked m, P c → P (getContactName env.contacts c (some p)).2)
    (h : P cache) : P (bldMmsMsgLstItem env a msgId m cache).2 := by
  show P (names env a m (addressName env.contacts m.address) cache).2
  refine keeps_names ?_ h
  intro c hc
  cases haddress : m.address with
  | none => exact hc
  | some address =>
    show P (if 59 ∈ address then _ else getContactName env.contacts c (some address)).2
    split_ifs
    · refine keeps_tokenNames ?_ hc
      intro c p hp
      exact hname c p ⟨address, haddress, .inr hp⟩
    · exact hname c address ⟨address, haddress, .inl rfl⟩ hc

/-- How the text matches the number `p` and the name in the entry of the number `q`. -/
def answer (env : Env) (q p text : JString) : Except Exn Bool :=
  contactMatches env (getVcardContent env.contacts (some q)).name (some p) text

/-- What the filters may say of an MMS, with the text afterwards, if the cache has entries for
numbers of the set `N`. -/
inductive Verdict (env : Env) (a : AppParams) (N : Set JString) (filterString : Option JString)
    (m : Message ν) : Bool → Option JString → Prop
  /-- The filter for the owner does not let it through. -/
  | owner (howner : ownerPasses env (ownerFilter a m) = .ok false) :
    Verdict env a N filterString m false filterString
  /-- There is nothing to compare it with. -/
  | free (howner : ownerPasses env (ownerFilter a m) = .ok true)
      (hnone : inForce a filterString m = none) :
    Verdict env a N filterString m true none
  | compared {p q text : JString} {b : Bool}
      (howner : ownerPasses env (ownerFilter a m) = .ok true)
      (htext : inForce a filterString m = some text) (hp : m.address = some p) (hq : q ∈ N)
      (hqp : contains q p) (hb : answer env q p text = .ok b) :
    Verdict env a N filterString m b (some text)

theorem allowedMms_of_owner {m : Message ι}
    (howner : ownerPasses env (ownerFilter a m) = .ok false) :
    allowedMms env a filterString m cache = .ok (false, filterString, cache) := by
  rw [allowedMms, howner]
  rfl

theorem allowedMms_of_none {m : Message ι}
    (howner : ownerPasses env (ownerFilter a m) = .ok true)
    (hnone : inForce a filterString m = none) :
    allowedMms env a filterString m cache = .ok (true, none, cache) := by
  simp only [allowedMms, howner, hnone]
  rfl

theorem allowedMms_of_some {m : Message ι} {text : JString}
    (howner : ownerPasses env (ownerFilter a m) = .ok true)
    (htext : inForce a filterString m = some text) :
    allowedMms env a filterString m cache =
      (contactMatches env (getContactName env.contacts cache m.address).1 m.address text).map
        fun b => (b, some text, (getContactName env.contacts cache m.address).2) := by
  simp only [allowedMms, howner, htext]
  rfl

theorem allowedMms_spec {m : Message ι} (hcache : Over env.contacts N cache)
    (hasked : asked m ⊆ N)
    (h : allowedMms env a filterString m cache = .ok (b, filterString', cache')) :
    Verdict env a N filterString m b filterString' ∧ Over env.contacts N cache' := by
  obtain ⟨pass, howner, -⟩ := bind_eq_ok.1 h
  cases pass with
  | false =>
    rw [allowedMms_of_owner howner] at h
    cases h
    exact ⟨.owner howner, hcache⟩
  | true =>
    cases htext : inForce a filterString m with
    | none =>
      rw [allowedMms_of_none howner htext] at h
      cases h
      exact ⟨.free howner htext, hcache⟩
    | some text =>
      rw [allowedMms_of_some howner htext] at h
      obtain ⟨b', hb, hresult⟩ := map_eq_ok.1 h
      simp only [Prod.mk.injEq] at hresult
      obtain ⟨rfl, rfl, rfl⟩ := hresult
      cases hp : m.address with
      | none =>
        rw [hp] at hb
        cases hb
      | some p =>
        rw [hp] at hb
        obtain ⟨⟨q, hq, hqp, hname⟩, hover⟩ :=
          getContactName_spec hcache (hasked ⟨p, hp, .inl rfl⟩)
        rw [hname] at hb
        exact ⟨.compared howner htext hp hq hqp hb, hover⟩

/-- What a turn does: there is a verdict, and an MMS that passes is counted and added. -/
theorem mmsTurn_spec {mms : ℤ → Message ι} {s s' : Progress ι} {msgId : ℤ}
    (hcache : Over env.contacts N s.cache) (hasked : asked (mms msgId) ⊆ N)
    (h : mmsTurn env a mms s msgId = .ok s') :
    ∃ b, Verdict env a N s.filterString (mms msgId) b s'.filterString ∧
      Over env.contacts N s'.cache ∧ ∃ info, s'.r =
        if b then counted (added ⟨⟨msgId + MMS_OFFSET_START, info⟩, (mms msgId).unread⟩ s.r)
        else s.r := by
  obtain ⟨⟨b, filterString, cache⟩, hallowed, h⟩ := bind_eq_ok.1 h
  obtain ⟨hverdict, hover⟩ := allowedMms_spec hcache hasked hallowed
  refine ⟨b, ?_⟩
  cases b with
  | false =>
    cases h
    exact ⟨hverdict, hover, (mms msgId).item none none, rfl⟩
  | true =>
    cases h
    refine ⟨hverdict, ?_, _, rfl⟩
    refine keeps_bldMmsMsgLstItem msgId ?_ hover
    intro c p hp hc
    exact (getContactName_spec hc (hasked hp)).2

end Turn

end Filters

end Map

end Msm8909w
