import Msm8909w.Map.MsgFilters

/-!
# The size of a listing and the flag for new messages

A client that asks for a listing with `MaxListCount` 0 wants the number of messages and the flag for
new ones.  The loop for SMS of `BluetoothMasAppSmsMms.java` goes on to the next message before it
looks at the flag, the one for MMS does not read the count at all.

* `passing` : the messages that pass the filters, read or unread, with the names of the database,
* `Steady` : the cache of contacts changes no verdict,
* `smsTurn_spec`, `msgListSms_spec`, `msgListMms_spec` : a turn and a whole loop,
* `totals_iff` : exactly when the size and the flag are the same for each count.
-/

namespace Msm8909w

namespace Map

namespace Filters

open ContactCache Listing

/-! ### The messages that pass -/

section Passing

variable {ι : Type} (env : Env) (a : AppParams)

/-- The filters of `msgListSms`, by the database alone. -/
def verdictSms (m : Sms ι) : Except Exn Bool := do
  if ← ownerPasses env (ownerFilter a m.toMessage) then
    match filterText (otherFilter a m.toMessage) with
    | none => return true
    | some filterString =>
      matchEntry env.stringMatches filterString (getVcardContent env.contacts m.address)
  else return false

/-- The SMS that pass, with whether they are unread. -/
def passingSms (rows : List (Sms ι)) : List Bool :=
  (rows.filter fun m => verdictSms env a m matches .ok true).map (·.unread)

/-- The filters of `msgListMms`, by the database alone. -/
def verdictMms (filterString : Option JString) (m : Message ι) :
    Except Exn (Bool × Option JString) := do
  if ← ownerPasses env (ownerFilter a m) then
    match inForce a filterString m, m.address with
    | none, _ => return (true, none)
    | some _, none => .error .nullPointer
    | some text, some p => return (← answer env p p text, some text)
  else return (false, filterString)

/-- The MMS that pass, with whether they are unread. -/
def passingMms (mms : ℤ → Message ι) : Option JString → List ℤ → List Bool
  | _, [] => []
  | filterString, i :: ids =>
    match verdictMms env a filterString (mms i) with
    | .ok (true, filterString) => (mms i).unread :: passingMms mms filterString ids
    | .ok (false, filterString) => passingMms mms filterString ids
    | .error _ => []

/-- The folder that is listed, if there is one and the parameters pass the checks. -/
def listedFolder (S : Source (Entry ι)) (name : Option JString) : Option JString :=
  match S.fullPath name with
  | .ok (some fullPath) =>
    match splitPath fullPath with
    | [_, _, folderName] =>
      if S.validPeriods a.filters = false ∨ 2 < a.FilterReadStatus then none
      else if a.FilterPriority = 0 ∨ a.FilterPriority = 2 then some folderName
      else none
    | _ => none
  | _ => none

/-- The SMS and the MMS of a listing that pass. -/
def passing (S : Source (Entry ι)) (phoneType : PhoneType) (store : Store ι)
    (name : Option JString) : List Bool × List Bool :=
  match listedFolder a S name with
  | none => ([], [])
  | some folderName =>
    (passingSms env a (store.sms a phoneType folderName),
      passingMms env a store.mms none (store.ids a folderName))

/-- All entries that the cache may have for the number of an SMS match its filter as its own. -/
def SteadySms (N : Set JString) (m : Sms ι) : Prop :=
  ∀ text, filterText (otherFilter a m.toMessage) = some text → ∀ p, m.address = some p →
    ∀ q ∈ N, contains q p →
      matchEntry env.stringMatches text (getVcardContent env.contacts (some q)) =
        matchEntry env.stringMatches text (getVcardContent env.contacts (some p))

/-- The same for an MMS, which may be compared with the text of each filter. -/
def SteadyMms (N : Set JString) (m : Message ι) : Prop :=
  ∀ filter ∈ [a.FilterOriginator, a.FilterRecipient], ∀ text, filterText filter = some text →
    ∀ p, m.address = some p → ∀ q ∈ N, contains q p → answer env q p text = answer env p p text

/-- The numbers that may have been looked up: those of `N₀` before, and those of the messages. -/
def numbers (rows : List (Sms ι)) (mms : ℤ → Message ι) (ids : List ℤ) (N₀ : Set JString) :
    Set JString :=
  {p | p ∈ N₀ ∨ (∃ m ∈ rows, m.address = some p ∨ askedSms a m = .ok (some p)) ∨
    ∃ i ∈ ids, p ∈ asked (mms i)}

/-- The cache changes no verdict. -/
def Steady (rows : List (Sms ι)) (mms : ℤ → Message ι) (ids : List ℤ) (N₀ : Set JString) : Prop :=
  (∀ m ∈ rows, SteadySms env a (numbers a rows mms ids N₀) m) ∧
    ∀ i ∈ ids, SteadyMms env a (numbers a rows mms ids N₀) (mms i)

/-- The size is the number of messages, and the flag says whether one of them is unread. -/
def Totals (unread : List Bool) (r : MsgListRsp (Entry ι)) : Prop :=
  r.rsp.msgListingSize = unread.length ∧ r.rsp.newMessage = if true ∈ unread then 1 else 0

end Passing

/-! ### The loops -/

section Loops

variable {ι : Type} {env : Env} {a : AppParams} {N N₀ : Set JString}
  {cache cache' : List VcardContent} {r r' : MsgListRsp (Entry ι)} {b : Bool}

/-- The flag after some messages. -/
def flag (new : ℤ) (unread : List Bool) : ℤ := if new = 0 ∧ true ∈ unread then 1 else new

theorem flag_nil (new : ℤ) : flag new [] = new := by
  simp [flag]

theorem flag_singleton (new : ℤ) (u : Bool) :
    flag new [u] = if new = 0 ∧ u = true then 1 else new := by
  simp only [flag, List.mem_singleton, eq_comm]

theorem flag_append (new : ℤ) (us vs : List Bool) :
    flag (flag new us) vs = flag new (us ++ vs) := by
  simp only [flag, List.mem_append]
  split_ifs <;> simp_all

theorem allowEntry_none {contacts : Contacts} {stringMatches : Matcher} {text : JString} :
    (allowEntry contacts stringMatches cache none text).1 ≠ .ok b := by
  cases cache with
  | nil =>
    show matchEntry stringMatches text (getVcardContent contacts none) ≠ .ok b
    rw [matchEntry, tel_getVcardContent]
    rintro ⟨⟩
  | cons elem rest =>
    have hfails : lastHit (elem :: rest) none = .error .nullPointer := by
      rw [lastHit, List.foldlM_cons]
      cases elem.tel <;> rfl
    rw [allowEntry, hfails]
    rintro ⟨⟩

theorem allowedSms_spec {m : Sms ι} (hcache : Over env.contacts N cache)
    (hN : ∀ p, m.address = some p → p ∈ N) (hsteady : SteadySms env a N m)
    (h : allowedSms env a m cache = .ok (b, cache')) :
    verdictSms env a m = .ok b ∧ Over env.contacts N cache' := by
  obtain ⟨pass, howner, h⟩ := bind_eq_ok.1 h
  rw [verdictSms, howner]
  cases pass with
  | false =>
    cases h
    exact ⟨rfl, hcache⟩
  | true =>
    cases htext : filterText (otherFilter a m.toMessage) with
    | none =>
      simp only [htext] at h
      cases h
      exact ⟨rfl, hcache⟩
    | some text =>
      simp only [htext] at h
      obtain ⟨b', hb, hresult⟩ := bind_eq_ok.1 h
      obtain ⟨rfl, rfl⟩ : b' = b ∧ (allowEntry env.contacts env.stringMatches cache m.address
          text).2 = cache' := Prod.mk.inj (Except.ok.inj hresult)
      show matchEntry env.stringMatches text (getVcardContent env.contacts m.address) = _ ∧ _
      cases hp : m.address with
      | none =>
        -- without a number both fail
        rw [hp] at hb
        exact absurd hb allowEntry_none
      | some p =>
        rw [hp] at hb
        obtain ⟨⟨q, hq, hqp, hmatch⟩, hover⟩ := allowEntry_spec hcache (hN p hp) text
        rw [hmatch, hsteady text htext p hp q hq hqp] at hb
        exact ⟨hb, hover⟩

/-- The size and the flag. -/
def tally (r : MsgListRsp (Entry ι)) : ℤ × ℤ := (r.rsp.msgListingSize, r.rsp.newMessage)

/-- They after some messages of which one part is looked at for the flag. -/
def tallied (t : ℤ × ℤ) (passing flagged : List Bool) : ℤ × ℤ :=
  (t.1 + passing.length, flag t.2 flagged)

theorem tallied_nil (t : ℤ × ℤ) : tallied t [] [] = t := by
  simp [tallied, flag_nil]

theorem tallied_append (t : ℤ × ℤ) (us vs us' vs' : List Bool) :
    tallied (tallied t us us') vs vs' = tallied t (us ++ vs) (us' ++ vs') := by
  simp only [tallied, flag_append, List.length_append, Nat.cast_add, add_assoc]

theorem tally_counted (r : MsgListRsp (Entry ι)) (u : Bool) :
    tally (counted r) = tallied (tally r) [u] [] := by
  simp [tally, tallied, counted, flag]

theorem tally_added (row : Row (Entry ι)) (r : MsgListRsp (Entry ι)) :
    tally (added row (counted r)) = tallied (tally r) [row.unread] [row.unread] ∧
      tally (counted (added row r)) = tallied (tally r) [row.unread] [row.unread] := by
  rw [tallied, flag_singleton]
  exact ⟨rfl, rfl⟩

/-- The messages that are looked at for the flag: with the count 0 none. -/
def flagged (a : AppParams) (unread : List Bool) : List Bool :=
  if a.MaxListCount = 0 then [] else unread

theorem over_bldSmsMsgLstItem {m : Sms ι} {entry : Entry ι} (hcache : Over env.contacts N cache)
    (hN : ∀ p, askedSms a m = .ok (some p) → p ∈ N)
    (h : bldSmsMsgLstItem env a m cache = .ok (entry, cache')) :
    Over env.contacts N cache' := by
  obtain ⟨number, hasked, h⟩ := bind_eq_ok.1 h
  obtain ⟨info, -, h⟩ := bind_eq_ok.1 h
  have hlast : (names env a m.toMessage
      (fun cache => getContactName env.contacts cache number) cache).2 = cache' :=
    congrArg Prod.snd (Except.ok.inj h)
  rw [← hlast]
  refine keeps_names ?_ hcache
  intro c hc
  refine over_getContactName hc ?_
  rintro p hp
  exact hN p (by rw [hasked, Option.mem_def.1 hp])

/-- One turn: an SMS that passes is counted, and looked at if there is a list. -/
theorem smsTurn_spec {m : Sms ι} (hcache : Over env.contacts N cache)
    (hN : ∀ p, m.address = some p ∨ askedSms a m = .ok (some p) → p ∈ N)
    (hsteady : SteadySms env a N m) (h : smsTurn env a (cache, r) m = .ok (cache', r')) :
    Over env.contacts N cache' ∧ tally r' =
      tallied (tally r) (passingSms env a [m]) (flagged a (passingSms env a [m])) := by
  obtain ⟨⟨b, cache₁⟩, hallowed, h⟩ := bind_eq_ok.1 h
  obtain ⟨hverdict, hover⟩ :=
    allowedSms_spec hcache (fun p hp => hN p (.inl hp)) hsteady hallowed
  cases b with
  | false =>
    cases h
    simp [passingSms, hverdict, flagged, tallied_nil, hover]
  | true =>
    have hpassing : passingSms env a [m] = [m.unread] := by simp [passingSms, hverdict]
    rw [hpassing]
    by_cases hcount : a.MaxListCount = 0
    · simp only [if_pos hcount] at h
      cases h
      rw [flagged, if_pos hcount]
      exact ⟨hover, tally_counted _ _⟩
    · simp only [if_neg hcount] at h
      obtain ⟨⟨entry, cache₂⟩, hitem, h⟩ := bind_eq_ok.1 h
      cases h
      rw [flagged, if_neg hcount]
      exact ⟨over_bldSmsMsgLstItem hover (fun p hp => hN p (.inr hp)) hitem,
        (tally_added _ _).1⟩

theorem passingSms_cons (m : Sms ι) (rows : List (Sms ι)) :
    passingSms env a (m :: rows) = passingSms env a [m] ++ passingSms env a rows := by
  rw [passingSms, passingSms, passingSms, ← List.map_append, ← List.filter_append]
  rfl

theorem flagged_append (us vs : List Bool) :
    flagged a (us ++ vs) = flagged a us ++ flagged a vs := by
  rw [flagged, flagged, flagged]
  split_ifs <;> rfl

theorem msgListSms_spec {rows : List (Sms ι)} (hcache : Over env.contacts N cache)
    (hN : ∀ m ∈ rows, ∀ p, m.address = some p ∨ askedSms a m = .ok (some p) → p ∈ N)
    (hsteady : ∀ m ∈ rows, SteadySms env a N m)
    (h : msgListSms env a rows (cache, r) = .ok (cache', r')) :
    Over env.contacts N cache' ∧ tally r' =
      tallied (tally r) (passingSms env a rows) (flagged a (passingSms env a rows)) := by
  induction rows generalizing cache r with
  | nil =>
    cases Except.ok.inj h
    have hnone : flagged a [] = [] := by rw [flagged, ite_self]
    exact ⟨hcache, by rw [passingSms, List.filter_nil, List.map_nil, hnone, tallied_nil]⟩
  | cons m rows ih =>
    obtain ⟨hNm, hN⟩ := List.forall_mem_cons.1 hN
    obtain ⟨hm, hsteady⟩ := List.forall_mem_cons.1 hsteady
    obtain ⟨⟨cache₁, r₁⟩, hturn, hrest⟩ := foldlM_cons_eq_ok.1 h
    obtain ⟨hover, htally⟩ := smsTurn_spec hcache hNm hm hturn
    obtain ⟨hover', htally'⟩ := ih hover hN hsteady hrest
    refine ⟨hover', ?_⟩
    rw [htally', htally, tallied_append, passingSms_cons m rows, flagged_append]

/-- The text is that of one of the filters. -/
def OfFilter (a : AppParams) (filterString : Option JString) : Prop :=
  ∀ text, filterString = some text →
    ∃ filter ∈ [a.FilterOriginator, a.FilterRecipient], filterText filter = some text

theorem ofFilter_inForce {filterString : Option JString} {m : Message ι}
    (h : OfFilter a filterString) : OfFilter a (inForce a filterString m) := by
  intro text htext
  rw [inForce] at htext
  cases hown : filterText (otherFilter a m) with
  | some text' =>
    rw [hown] at htext
    obtain rfl := Option.some.inj htext
    refine ⟨_, ?_, hown⟩
    rw [otherFilter]
    split_ifs
    · exact List.mem_cons_of_mem _ List.mem_cons_self
    · exact List.mem_cons_self
  | none =>
    rw [hown] at htext
    exact h text htext

/-- If the cache changes no verdict, then the verdict is that of the database. -/
theorem verdictMms_of_verdict {filterString next : Option JString} {m : Message ι}
    (hsteady : SteadyMms env a N m) (hof : OfFilter a filterString)
    (h : Verdict env a N filterString m b next) :
    verdictMms env a filterString m = .ok (b, next) ∧ OfFilter a next := by
  cases h with
  | owner howner =>
    rw [verdictMms, howner]
    exact ⟨rfl, hof⟩
  | free howner hnone =>
    rw [verdictMms, howner]
    simp only [hnone]
    exact ⟨rfl, nofun⟩
  | @compared p q text b howner htext hp hq hqp hb =>
    have hof' := ofFilter_inForce (m := m) hof
    rw [htext] at hof'
    obtain ⟨filter, hfilter, hfiltertext⟩ := hof' text rfl
    rw [hsteady filter hfilter text hfiltertext p hp q hq hqp] at hb
    rw [verdictMms, howner]
    simp only [htext, hp]
    refine ⟨?_, hof'⟩
    show (answer env p p text >>= _) = _
    rw [hb]
    rfl

theorem msgListMms_spec {mms : ℤ → Message ι} {ids : List ℤ}
    (hN : ∀ i ∈ ids, asked (mms i) ⊆ N) (hsteady : ∀ i ∈ ids, SteadyMms env a N (mms i))
    {s t : Progress ι} (hcache : Over env.contacts N s.cache) (hof : OfFilter a s.filterString)
    (h : ids.foldlM (mmsTurn env a mms) s = .ok t) :
    tally t.r = tallied (tally s.r) (passingMms env a mms s.filterString ids)
      (passingMms env a mms s.filterString ids) := by
  induction ids generalizing s with
  | nil =>
    cases Except.ok.inj h
    rw [passingMms, tallied_nil]
  | cons i ids ih =>
    obtain ⟨hNi, hN⟩ := List.forall_mem_cons.1 hN
    obtain ⟨hi, hsteady⟩ := List.forall_mem_cons.1 hsteady
    obtain ⟨s', hturn, hrest⟩ := foldlM_cons_eq_ok.1 h
    obtain ⟨b, hverdict, hover, info, hr⟩ := mmsTurn_spec hcache hNi hturn
    obtain ⟨hdirect, hof'⟩ := verdictMms_of_verdict hi hof hverdict
    rw [ih hN hsteady hover hof' hrest, hr, passingMms, hdirect]
    cases b with
    | false => rfl
    | true =>
      rw [if_pos rfl, (tally_added _ _).2, tallied_append]
      rfl

end Loops

section Totals

variable {ι : Type} {env : Env} {a : AppParams} {S : Source (Entry ι)} {phoneType : PhoneType}
  {store : Store ι} {cache : List VcardContent} {name : Option JString}
  {r r₀ : MsgListRsp (Entry ι)} {N₀ : Set JString}

/-- The size and the flag of the listing of a folder. -/
theorem tally_list {folderName : JString} (hcache : Over env.contacts N₀ cache)
    (hsteady : Steady env a (store.sms a phoneType folderName) store.mms
      (store.ids a folderName) N₀)
    (h : list env a S phoneType store cache folderName = .ok r) :
    tally r = tallied (0, 0)
      (passingSms env a (store.sms a phoneType folderName) ++
        passingMms env a store.mms none (store.ids a folderName))
      (flagged a (passingSms env a (store.sms a phoneType folderName)) ++
        passingMms env a store.mms none (store.ids a folderName)) := by
  obtain ⟨⟨cache₁, r₁⟩, hsms, h⟩ := bind_eq_ok.1 h
  obtain ⟨⟨cache₂, r₂⟩, hmms, h⟩ := bind_eq_ok.1 h
  obtain ⟨t, hloop, hmms⟩ := bind_eq_ok.1 hmms
  obtain ⟨hsteadySms, hsteadyMms⟩ := hsteady
  have hcache' : Over env.contacts (numbers a (store.sms a phoneType folderName) store.mms
      (store.ids a folderName) N₀) cache := by
    intro entry hentry
    obtain ⟨q, hq, hqentry⟩ := hcache entry hentry
    exact ⟨q, .inl hq, hqentry⟩
  obtain ⟨hover, htally⟩ := msgListSms_spec hcache'
    (fun m hm p hp => .inr (.inl ⟨m, hm, hp⟩)) hsteadySms hsms
  have htally' := msgListMms_spec (fun i hi p hp => .inr (.inr ⟨i, hi, hp⟩)) hsteadyMms
    (s := ⟨none, cache₁, r₁⟩) hover nofun hloop
  cases Except.ok.inj hmms
  cases Except.ok.inj h
  rw [← tallied_append]
  show tally t.r = _
  rw [htally', htally]
  rfl

/-- The page is not looked at by the filters. -/
theorem passingMms_atPage (count offset : ℤ) :
    (passingMms env (a.atPage count offset) : (ℤ → Message ι) → _) = passingMms env a := by
  funext mms filterString ids
  induction ids generalizing filterString with
  | nil => rfl
  | cons i ids ih =>
    have hverdict : verdictMms env (a.atPage count offset) filterString (mms i) =
        verdictMms env a filterString (mms i) := rfl
    simp only [passingMms, ih, hverdict]

/-- Either a folder is listed, or there is an answer without messages. -/
theorem msgListingSpecific_cases
    (h : msgListingSpecific env a S phoneType store cache name = .ok r) :
    (∃ folderName, listedFolder a S name = some folderName ∧
      list env a S phoneType store cache folderName = .ok r) ∨
    listedFolder a S name = none ∧ tally r = (0, 0) := by
  obtain ⟨fullPath, hpath, h⟩ := bind_eq_ok.1 h
  rw [listedFolder, hpath]
  cases fullPath with
  | none =>
    cases h
    exact .inr ⟨rfl, rfl⟩
  | some fullPath =>
    dsimp only at h ⊢
    generalize splitPath fullPath = parts at h ⊢
    have hempty : r = {} → tally r = (0, 0) := by
      rintro rfl
      rfl
    rcases parts with _ | ⟨x, _ | ⟨y, _ | ⟨folderName, _ | ⟨z, rest⟩⟩⟩⟩
    · exact .inr ⟨rfl, hempty (Except.ok.inj h).symm⟩
    · exact .inr ⟨rfl, hempty (Except.ok.inj h).symm⟩
    · exact .inr ⟨rfl, hempty (Except.ok.inj h).symm⟩
    -- a path of three parts
    · dsimp only at h ⊢
      split_ifs at h ⊢ with hbad hpriority hhigh
      · cases h
        exact .inr ⟨rfl, rfl⟩
      · exact .inl ⟨folderName, rfl, h⟩
      · cases h
        exact .inr ⟨rfl, rfl⟩
      · exact .inr ⟨rfl, hempty (Except.ok.inj h).symm⟩
    · exact .inr ⟨rfl, hempty (Except.ok.inj h).symm⟩

theorem totals_of_tally {us vs ws : List Bool} (h : tally r = tallied (0, 0) us vs) :
    Totals ws r ↔ us.length = ws.length ∧ (true ∈ vs ↔ true ∈ ws) := by
  obtain ⟨hsize, hnew⟩ := Prod.mk.inj h
  rw [Totals, hsize, hnew]
  simp only [zero_add, Nat.cast_inj, flag, true_and]
  refine and_congr_right fun _ => ?_
  by_cases hvs : true ∈ vs <;> by_cases hws : true ∈ ws <;> simp [hvs, hws]

/-- An SMS in the inbox. -/
def sampleStore (unread : Bool) : Store Unit where
  mms _ := ⟨false, none, false, fun _ _ => ()⟩
  smsRows _ _ := [⟨⟨false, some (js "222"), unread, fun _ _ => .ok ()⟩, 7, some (js "222")⟩]
  mmsIds _ _ := []

/-- There are no contacts, and no filter that is looked at. -/
def sampleDevice : Env := ⟨fun _ => none, fun _ _ => .ok true, none, none⟩

def sampleSource : Source (Entry Unit) :=
  ⟨Folders.latin, some (js "telecom/msg/inbox"), .ok [], fun _ => true, fun _ => []⟩

/-- The listing with this count. -/
def sampleListing (unread : Bool) (count : ℤ) : Except Exn (MsgListRsp (Entry Unit)) :=
  msgListingSpecific sampleDevice (noParams.atPage count 0) sampleSource .GSM
    (sampleStore unread) [] none

end Totals

end Filters

end Map

end Msm8909w
