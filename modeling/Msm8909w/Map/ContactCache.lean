import Mathlib.Data.List.Infix
import Msm8909w.Map.MapUtils

/-!
# The cache of contacts

`allowEntry` and `getContactName` of `BluetoothMasAppIf.java` look a phone number up in a list of
contacts before they ask the contacts database.  An entry counts as a hit if its number contains the
one that is asked for; one function takes the first hit and the other one the last.

* `answers` : the answers of a sequence of calls, by the code,
* `direct` : the answer of a call by the database alone,
* `answers_eq_direct` : the cache does not change any answer as long as each call that has a hit
  finds the entry of its own number.

The contacts database and the matcher of regular expressions are outside.
-/

namespace Msm8909w

namespace Map

namespace ContactCache

/-! ### The code -/

/-- The class `VcardContent`. -/
structure VcardContent where
  name : Option JString := some []
  tel : Option JString := some []
  email : JString := []
  deriving DecidableEq, Repr

/-- The contact that the database finds for a number: its display name and its e-mail addresses. -/
abbrev Contacts := Option JString → Option (Option JString × List JString)

/-- `s.matches(regExp)`; a bad expression fails. -/
abbrev Matcher := JString → JString → Except Exn Bool

/-- `elem.tel.contains(p)`. -/
def contains (tel p : JString) : Bool := p <:+: tel

/-- `getVcardContent`. -/
def getVcardContent (contacts : Contacts) (phoneAddress : Option JString) : VcardContent :=
  match contacts phoneAddress with
  | none => { tel := phoneAddress }
  | some (name, emails) =>
    { tel := phoneAddress, name := name, email := emails.flatMap fun e => e ++ js ";" }

/-- The loop of `allowEntry`: the last hit. -/
def lastHit (cache : List VcardContent) (phoneAddress : Option JString) :
    Except Exn (Option VcardContent) :=
  cache.foldlM (fun found elem =>
    match elem.tel, phoneAddress with
    | some tel, some p => .ok (if contains tel p then some elem else found)
    | _, _ => .error .nullPointer) none

/-- The loop of `getContactName`: the first hit. -/
def firstHit (cache : List VcardContent) (p : JString) : Option VcardContent :=
  cache.find? fun elem =>
    match elem.tel with
    | some tel => contains tel p
    | none => false

/-- `filterString.replace("*", ".*[0-9A-Za-z].*")`. -/
def regExp (filterString : JString) : JString :=
  filterString.flatMap fun c => if c = 42 then js ".*[0-9A-Za-z].*" else [c]

/-- The entry matches the filter. -/
def matchEntry (stringMatches : Matcher) (filterString : JString) (entry : VcardContent) :
    Except Exn Bool := do
  let pattern := js ".*" ++ regExp filterString ++ js ".*"
  match entry.tel with
  | none => .error .nullPointer
  | some tel =>
    if ← stringMatches tel pattern then return true
    match entry.name with
    | none => .error .nullPointer
    | some name =>
      if ← stringMatches name pattern then return true
      stringMatches entry.email pattern

/-- `allowEntry`: the answer and the cache afterwards. -/
def allowEntry (contacts : Contacts) (stringMatches : Matcher) (cache : List VcardContent)
    (phoneAddress : Option JString) (filterString : JString) :
    Except Exn Bool × List VcardContent :=
  match lastHit cache phoneAddress with
  | .error e => (.error e, cache)
  | .ok (some foundEntry) => (matchEntry stringMatches filterString foundEntry, cache)
  | .ok none =>
    let vCard := getVcardContent contacts phoneAddress
    (matchEntry stringMatches filterString vCard, cache ++ [vCard])

/-- `getContactName`. -/
def getContactName (contacts : Contacts) (cache : List VcardContent)
    (phoneNumber : Option JString) :
    Option JString × List VcardContent :=
  match phoneNumber with
  | none => (none, cache)
  | some p =>
    match firstHit cache p with
    | some foundEntry => (foundEntry.name, cache)
    | none =>
      let vCard := getVcardContent contacts phoneNumber
      (vCard.name, cache ++ [vCard])

/-! ### Sequences of calls -/

/-- A call, or a change of the contacts. -/
inductive Call
  | allowEntry (phoneAddress : Option JString) (filterString : JString)
  | getContactName (phoneNumber : Option JString)
  | onChange
  deriving DecidableEq, Repr

inductive Answer
  | allowed (result : Except Exn Bool)
  | name (result : Option JString)
  | done
  deriving DecidableEq

section

variable (contacts : Contacts) (stringMatches : Matcher)

/-- A call by the code. -/
def call (cache : List VcardContent) : Call → Answer × List VcardContent
  | .allowEntry p f =>
    let r := allowEntry contacts stringMatches cache p f
    (.allowed r.1, r.2)
  | .getContactName p =>
    let r := getContactName contacts cache p
    (.name r.1, r.2)
  | .onChange => (.done, [])

/-- The answers of a sequence of calls. -/
def answers : List VcardContent → List Call → List Answer
  | _, [] => []
  | cache, c :: cs =>
    let r := call contacts stringMatches cache c
    r.1 :: answers r.2 cs

/-- The answer of the database alone. -/
def direct : Call → Answer
  | .allowEntry p f => .allowed (matchEntry stringMatches f (getVcardContent contacts p))
  | .getContactName none => .name none
  | .getContactName (some p) => .name (getVcardContent contacts (some p)).name
  | .onChange => .done

end

/-- A number is asked for, and if there is a hit, then it is the entry of that number. -/
def OwnHit (cache : List VcardContent) : Call → Prop
  | .allowEntry none _ => False
  | .allowEntry (some p) _ =>
    ∀ entry, lastHit cache (some p) = .ok (some entry) → entry.tel = some p
  | .getContactName none => True
  | .getContactName (some p) => ∀ entry, firstHit cache p = some entry → entry.tel = some p
  | .onChange => True

/-- So it is for each call of a sequence. -/
def OwnHits (contacts : Contacts) (stringMatches : Matcher) : List VcardContent → List Call → Prop
  | _, [] => True
  | cache, c :: cs =>
    OwnHit cache c ∧ OwnHits contacts stringMatches (call contacts stringMatches cache c).2 cs

/-! ### Transparency -/

section

variable {contacts : Contacts} {stringMatches : Matcher} {cache : List VcardContent}
    {entry : VcardContent}
  {p : JString}

/-- The entries are those of the database. -/
def Sound (contacts : Contacts) (cache : List VcardContent) : Prop :=
  ∀ entry ∈ cache, ∃ p, entry = getVcardContent contacts (some p)

theorem tel_getVcardContent (p : Option JString) : (getVcardContent contacts p).tel = p := by
  rw [getVcardContent]
  split <;> rfl

theorem Sound.append (h : Sound contacts cache) (p : JString) :
    Sound contacts (cache ++ [getVcardContent contacts (some p)]) := by
  intro entry hentry
  rcases List.mem_append.1 hentry with hentry | hentry
  · exact h entry hentry
  · exact ⟨p, List.mem_singleton.1 hentry⟩

/-- An entry of the cache is the one of its own number. -/
theorem Sound.eq_of_tel (h : Sound contacts cache) (hentry : entry ∈ cache)
    (htel : entry.tel = some p) :
    entry = getVcardContent contacts (some p) := by
  obtain ⟨q, rfl⟩ := h entry hentry
  rw [tel_getVcardContent] at htel
  rw [htel]

/-- The loop of `allowEntry` gets to its end; a hit is an entry of the cache with the number in its
own one. -/
theorem lastHit_ok (h : Sound contacts cache) (p : JString) :
    ∃ found, lastHit cache (some p) = .ok found ∧
      ∀ entry, found = some entry → entry ∈ cache ∧ ∃ q, entry.tel = some q ∧ contains q p := by
  suffices hloop : ∀ found : Option VcardContent, ∃ found', cache.foldlM (fun found elem =>
      match elem.tel, some p with
      | some tel, some p => Except.ok (if contains tel p then some elem else found)
      | _, _ => .error Exn.nullPointer) found = .ok found' ∧
      ∀ entry, found' = some entry → found = some entry ∨
        entry ∈ cache ∧ ∃ q, entry.tel = some q ∧ contains q p by
    obtain ⟨found, hfound, hmem⟩ := hloop none
    refine ⟨found, hfound, ?_⟩
    intro entry hentry
    exact (hmem entry hentry).resolve_left nofun
  induction cache with
  | nil =>
    intro found
    exact ⟨found, rfl, fun entry hentry => .inl hentry⟩
  | cons elem cache ih =>
    obtain ⟨⟨q, rfl⟩, hrest⟩ := List.forall_mem_cons.1 h
    intro found
    rw [List.foldlM_cons, tel_getVcardContent]
    obtain ⟨found', hfound', hmem⟩ := ih hrest
      (if contains q p then some (getVcardContent contacts (some q)) else found)
    refine ⟨found', hfound', ?_⟩
    intro entry hentry
    rcases hmem entry hentry with h | ⟨hin, htel⟩
    · split_ifs at h with hhit
      · obtain rfl := Option.some.inj h
        exact .inr ⟨List.mem_cons_self, q, tel_getVcardContent _, hhit⟩
      · exact .inl h
    · exact .inr ⟨List.mem_cons_of_mem _ hin, htel⟩

theorem mem_of_firstHit (h : firstHit cache p = some entry) : entry ∈ cache :=
  List.mem_of_find?_eq_some h

/-- One call: the answer is that of the database, and the cache stays sound. -/
theorem call_spec {c : Call} (h : Sound contacts cache) (hown : OwnHit cache c) :
    (call contacts stringMatches cache c).1 = direct contacts stringMatches c ∧
      Sound contacts (call contacts stringMatches cache c).2 := by
  match c, hown with
  | .allowEntry (some p) f, hown =>
    obtain ⟨found, hfound, hmem⟩ := lastHit_ok h p
    cases found with
    | none =>
      simp only [call, allowEntry, hfound]
      exact ⟨rfl, h.append p⟩
    | some entry =>
      have hentry := h.eq_of_tel (hmem entry rfl).1 (hown entry hfound)
      simp only [call, allowEntry, hfound]
      exact ⟨by rw [hentry]; rfl, h⟩
  | .getContactName none, _ => exact ⟨rfl, h⟩
  | .getContactName (some p), hown =>
    cases hfound : firstHit cache p with
    | none =>
      simp only [call, getContactName, hfound]
      exact ⟨rfl, h.append p⟩
    | some entry =>
      have hentry := h.eq_of_tel (mem_of_firstHit hfound) (hown entry hfound)
      simp only [call, getContactName, hfound]
      exact ⟨by rw [hentry]; rfl, h⟩
  | .onChange, _ =>
    refine ⟨rfl, ?_⟩
    intro entry hentry
    cases hentry

theorem answers_of_sound {cs : List Call} (h : Sound contacts cache)
    (hown : OwnHits contacts stringMatches cache cs) :
    answers contacts stringMatches cache cs = cs.map (direct contacts stringMatches) := by
  induction cs generalizing cache with
  | nil => rfl
  | cons c cs ih =>
    obtain ⟨hc, hcs⟩ := hown
    obtain ⟨hanswer, hsound⟩ := @call_spec contacts stringMatches cache c h hc
    rw [answers, List.map_cons, hanswer, ih hsound hcs]

/-- **Transparency of the cache**: in a sequence of calls that find the entries of their own
numbers, each call is answered as the database answers it. -/
theorem answers_eq_direct {cs : List Call} (h : OwnHits contacts stringMatches [] cs) :
    answers contacts stringMatches [] cs = cs.map (direct contacts stringMatches) := by
  refine answers_of_sound ?_ h
  intro entry hentry
  cases hentry

end

/-- Ann's number begins with Bob's. -/
def sampleContacts : Contacts := fun p =>
  if p = some (js "5551234") then some (some (js "Ann"), [])
  else if p = some (js "555") then some (some (js "Bob"), [js "bob@example.org"])
  else none

/-- The matcher, for expressions that are a plain text between two `.*`. -/
def plainMatches : Matcher := fun s regExp => .ok (contains s (regExp.drop 2).dropLast.dropLast)

/-- Bob is looked up first, then Ann. -/
theorem answers_bob_ann :
    answers sampleContacts plainMatches [] [.getContactName (some (js "555")),
      .allowEntry (some (js "5551234")) (js "Bob"), .getContactName (some (js "5551234")),
      .getContactName (some (js "555"))] =
    [.name (some (js "Bob")), .allowed (.ok false), .name (some (js "Ann")),
      .name (some (js "Bob"))] := by
  refine (@answers_eq_direct sampleContacts plainMatches _ ?_).trans (by decide)
  have own {o : Option VcardContent} {p : JString} (h : ∀ entry ∈ o, entry.tel = some p) :
      ∀ entry, o = some entry → entry.tel = some p := h
  refine ⟨own (by decide), ?_, own (by decide), own (by decide), trivial⟩
  have hnone : lastHit (call sampleContacts plainMatches [] (.getContactName (some (js "555")))).2
      (some (js "5551234")) = .ok none := by decide
  intro entry hentry
  rw [hnone] at hentry
  cases hentry

/-- **A message attributed to the wrong person.**  After a look-up of Ann, Bob's number is answered
with Ann's name, and a filter for Bob's name does not let Bob's number through. -/
theorem not_direct_ann_bob :
    answers sampleContacts plainMatches [] [.getContactName (some (js "5551234")),
      .getContactName (some (js "555")), .allowEntry (some (js "555")) (js "Bob")] =
    [.name (some (js "Ann")), .name (some (js "Ann")), .allowed (.ok false)] ∧
    [Call.getContactName (some (js "5551234")), .getContactName (some (js "555")),
      .allowEntry (some (js "555")) (js "Bob")].map (direct sampleContacts plainMatches) =
    [.name (some (js "Ann")), .name (some (js "Bob")), .allowed (.ok true)] := by
  decide

end ContactCache

end Map

end Msm8909w
