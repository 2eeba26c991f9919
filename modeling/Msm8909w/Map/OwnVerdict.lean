import Msm8909w.Map.MsgFilters

/-!
# MMS that are judged on their own

`msgListMms` of `BluetoothMasAppSmsMms.java` keeps the text of a filter from one MMS to the next: an
MMS that has no filter of its own is compared with the text of an MMS of the other kind before it.
The loop for SMS declares the text anew for each message.

* `OwnVerdict` : whether an MMS appears does not depend on the other ones,
* `Settled` : the condition, on the filters and the contacts,
* `ownVerdict_iff` : the condition is exact.
-/

namespace Msm8909w

namespace Map

namespace Filters

open ContactCache Listing

section OwnVerdict

variable {ι : Type} (env : Env) (a : AppParams) (mms : ℤ → Message ι) (S : Set ℤ)
  (N : Set JString) (m : ℤ)

/-- The MMS with this id is in the list. -/
def Appears (m : ℤ) (r : MsgListRsp (Entry ι)) : Prop :=
  ∃ entry ∈ r.msgList, entry.msg_handle = m + MMS_OFFSET_START

/-- The numbers that may have been looked up: those of `N₀` before, and those of the MMS. -/
def lookedUp (N₀ : Set JString) : Set JString := {p | p ∈ N₀ ∨ ∃ i ∈ S, p ∈ asked (mms i)}

/-- A cache and a list that the loop may start with. -/
def Start (s : List VcardContent × MsgListRsp (Entry ι)) : Prop :=
  Over env.contacts N s.1 ∧ ¬ Appears m s.2

/-- Whether the MMS appears does not depend on which of the MMS in `S` are looked at with it, in
which order, and on what was looked up before. -/
def OwnVerdict : Prop :=
  ∀ l l' : List ℤ, (∀ i ∈ l, i ∈ S) → (∀ i ∈ l', i ∈ S) → m ∈ l → m ∈ l' →
    ∀ s s' t t', Start env N m s → Start env N m s' →
      msgListMms env a mms l s = .ok t → msgListMms env a mms l' s' = .ok t' →
        (Appears m t.2 ↔ Appears m t'.2)

/-- After the MMS `n` later ones may be compared with this text. -/
def Leaves (n : Message ι) (text : JString) : Prop :=
  ownerPasses env (ownerFilter a n) = .ok true ∧ filterText (otherFilter a n) = some text ∧
    ∃ p q, n.address = some p ∧ q ∈ N ∧ contains q p ∧
      (getVcardContent env.contacts (some q)).name ≠ none

/-- Either the MMS is compared with its own filter, and all entries that the cache may have for its
number match alike, or there is none, and it matches each text that another MMS may leave. -/
def Settled : Prop :=
  ownerPasses env (ownerFilter a (mms m)) = .ok true → ∀ p, (mms m).address = some p →
    match filterText (otherFilter a (mms m)) with
    | some text => ∀ q ∈ N, ∀ q' ∈ N, contains q p → contains q' p → ∀ b b',
      answer env q p text = .ok b → answer env q' p text = .ok b' → b = b'
    | none => ∀ i ∈ S, ∀ text, Leaves env a N (mms i) text →
      ∀ q ∈ N, contains q p → answer env q p text ≠ .ok false

variable {env a mms S N m} {filterString filterString' next next' : Option JString} {b b' : Bool}
  {p q text : JString}

/-- The text is one that an MMS before may have left. -/
def Carried (env : Env) (a : AppParams) (mms : ℤ → Message ι) (S : Set ℤ) (N : Set JString)
    (filterString : Option JString) : Prop :=
  ∀ text, filterString = some text → ∃ i ∈ S, Leaves env a N (mms i) text

theorem carried_none : Carried env a mms S N none := by
  intro text h
  cases h

theorem inForce_of_some {m : Message ι} (h : filterText (otherFilter a m) = some text) :
    inForce a filterString m = some text := by
  rw [inForce, h]
  rfl

theorem inForce_of_none {m : Message ι} (h : filterText (otherFilter a m) = none) :
    inForce a filterString m = filterString := by
  rw [inForce, h]
  rfl

theorem name_ne_none (h : answer env q p text = .ok b) :
    (getVcardContent env.contacts (some q)).name ≠ none := by
  intro hname
  rw [answer, hname] at h
  cases h

theorem Carried.step {i : ℤ} (hcarried : Carried env a mms S N filterString) (hi : i ∈ S)
    (h : Verdict env a N filterString (mms i) b next) : Carried env a mms S N next := by
  cases h with
  | owner _ => exact hcarried
  | free _ _ => exact nofun
  | @compared p q text b howner htext hp hq hqp hb =>
    cases hown : filterText (otherFilter a (mms i)) with
    | some text' =>
      obtain rfl : text' = text := Option.some.inj ((inForce_of_some hown).symm.trans htext)
      rintro _ ⟨⟩
      exact ⟨i, hi, howner, hown, p, q, hp, hq, hqp, name_ne_none hb⟩
    | none =>
      rw [inForce_of_none hown] at htext
      rwa [← htext]

/-- Without a filter of its own the MMS passes, or matches the text that is left. -/
theorem Settled.eq_true (h : Settled env a mms S N m)
    (hnone : filterText (otherFilter a (mms m)) = none)
    (howner : ownerPasses env (ownerFilter a (mms m)) = .ok true)
    (hcarried : Carried env a mms S N filterString)
    (hv : Verdict env a N filterString (mms m) b next) : b = true := by
  cases hv with
  | owner hfalse => cases howner.symm.trans hfalse
  | free _ _ => rfl
  | compared _ htext hp hq hqp hb =>
    rw [inForce_of_none hnone] at htext
    obtain ⟨i, hi, hleaves⟩ := hcarried _ htext
    have hmatch := h howner _ hp
    rw [hnone] at hmatch
    have hne := hmatch i hi _ hleaves _ hq hqp
    rw [hb] at hne
    simpa using hne

/-- All verdicts are the same. -/
theorem Settled.eq (h : Settled env a mms S N m)
    (hcarried : Carried env a mms S N filterString)
    (hcarried' : Carried env a mms S N filterString')
    (hv : Verdict env a N filterString (mms m) b next)
    (hv' : Verdict env a N filterString' (mms m) b' next') : b = b' := by
  by_cases howner : ownerPasses env (ownerFilter a (mms m)) = .ok true
  · cases hown : filterText (otherFilter a (mms m)) with
    | none =>
      rw [h.eq_true hown howner hcarried hv, h.eq_true hown howner hcarried' hv']
    | some text =>
      cases hv with
      | owner hfalse => cases howner.symm.trans hfalse
      | free _ hnone => cases (inForce_of_some hown).symm.trans hnone
      | compared _ htext hp hq hqp hb =>
        obtain rfl := Option.some.inj ((inForce_of_some hown).symm.trans htext)
        cases hv' with
        | owner hfalse => cases howner.symm.trans hfalse
        | free _ hnone => cases (inForce_of_some hown).symm.trans hnone
        | compared _ htext' hp' hq' hqp' hb' =>
          obtain rfl := Option.some.inj ((inForce_of_some hown).symm.trans htext')
          obtain rfl := Option.some.inj (hp.symm.trans hp')
          have hmatch := h howner _ hp
          rw [hown] at hmatch
          exact hmatch _ hq _ hq' hqp hqp' _ _ hb hb'
  · cases hv with
    | owner _ =>
      cases hv' with
      | owner _ => rfl
      | free htrue _ => exact absurd htrue howner
      | compared htrue _ _ _ _ _ => exact absurd htrue howner
    | free htrue _ => exact absurd htrue howner
    | compared htrue _ _ _ _ _ => exact absurd htrue howner

theorem Settled.exists_verdict (h : Settled env a mms S N m) :
    ∃ v, ∀ filterString b next, Carried env a mms S N filterString →
      Verdict env a N filterString (mms m) b next → b = v := by
  by_cases hpass : ∃ filterString next, Carried env a mms S N filterString ∧
      Verdict env a N filterString (mms m) true next
  · obtain ⟨f, n, hcarried, hv⟩ := hpass
    exact ⟨true, fun _ _ _ hcarried' hv' => h.eq hcarried' hcarried hv' hv⟩
  · refine ⟨false, ?_⟩
    intro f b n hcarried hv
    cases b with
    | false => rfl
    | true => exact absurd ⟨f, n, hcarried, hv⟩ hpass

theorem appears_added {row : Row (Entry ι)} {r : MsgListRsp (Entry ι)} :
    Appears m (counted (added row r)) ↔
      Appears m r ∨ row.entry.msg_handle = m + MMS_OFFSET_START := by
  show (∃ entry ∈ r.msgList ++ [row.entry], _) ↔ _
  simp only [List.mem_append, List.mem_singleton, or_and_right, exists_or, exists_eq_left]
  rfl

/-- A run with the same verdict at each turn of the MMS. -/
theorem appears_foldlM {v : Bool} (hN : ∀ i ∈ S, asked (mms i) ⊆ N)
    (hv : ∀ filterString b next, Carried env a mms S N filterString →
      Verdict env a N filterString (mms m) b next → b = v)
    {l : List ℤ} (hl : ∀ i ∈ l, i ∈ S) {s t : Progress ι} (hcache : Over env.contacts N s.cache)
    (hcarried : Carried env a mms S N s.filterString)
    (h : l.foldlM (mmsTurn env a mms) s = .ok t) :
    Appears m t.r ↔ Appears m s.r ∨ m ∈ l ∧ v = true := by
  induction l generalizing s with
  | nil =>
    obtain rfl := Except.ok.inj h
    simp
  | cons i l ih =>
    obtain ⟨hi, hl⟩ := List.forall_mem_cons.1 hl
    obtain ⟨s', hturn, hrest⟩ := foldlM_cons_eq_ok.1 h
    obtain ⟨b, hverdict, hover, info, hr⟩ := mmsTurn_spec hcache (hN i hi) hturn
    rw [ih hl hover (hcarried.step hi hverdict) hrest, hr]
    have hstep : Appears m (if b = true then
        counted (added ⟨⟨i + MMS_OFFSET_START, info⟩, (mms i).unread⟩ s.r) else s.r) ↔
        Appears m s.r ∨ i = m ∧ b = true := by
      cases b with
      | false => simp
      | true =>
        rw [if_pos rfl, appears_added]
        simp
    have hturn : i = m ∧ b = true ↔ i = m ∧ v = true := by
      refine and_congr_right ?_
      rintro rfl
      rw [hv _ _ _ hcarried hverdict]
    rw [hstep, hturn, List.mem_cons, eq_comm (a := m)]
    tauto

/-- The condition is enough. -/
theorem Settled.ownVerdict (hN : ∀ i ∈ S, asked (mms i) ⊆ N) (h : Settled env a mms S N m) :
    OwnVerdict env a mms S N m := by
  intro l l' hl hl' hm hm' s s' t t' hs hs' ht ht'
  obtain ⟨v, hv⟩ := h.exists_verdict
  have hrun : ∀ {l s t}, (∀ i ∈ l, i ∈ S) → m ∈ l → Start env N m s →
      msgListMms env a mms l s = .ok t → (Appears m t.2 ↔ v = true) := by
    intro l s t hl hm hs ht
    obtain ⟨u, hu, ht⟩ := bind_eq_ok.1 ht
    obtain rfl := Except.ok.inj ht
    rw [appears_foldlM hN hv hl hs.1 carried_none hu]
    simp [hm, hs.2]
  rw [hrun hl hm hs ht, hrun hl' hm' hs' ht']

/-! The other direction needs runs. -/

/-- A bad expression fails for every text. -/
def FailsByPattern (stringMatches : Matcher) : Prop :=
  ∀ s s' pattern b, stringMatches s pattern = .ok b → ∃ b', stringMatches s' pattern = .ok b'

theorem exists_answer (hmatch : FailsByPattern env.stringMatches)
    (h : answer env q p text = .ok b) {p' q' : JString}
    (hname : (getVcardContent env.contacts (some q')).name ≠ none) :
    ∃ b', answer env q' p' text = .ok b' := by
  obtain ⟨name, hq⟩ := Option.ne_none_iff_exists'.1 (name_ne_none h)
  obtain ⟨name', hq'⟩ := Option.ne_none_iff_exists'.1 hname
  rw [answer, hq] at h
  obtain ⟨c, hc, -⟩ := bind_eq_ok.1 h
  obtain ⟨c', hc'⟩ := hmatch name name' text c hc
  rw [answer, hq']
  show ∃ b', (env.stringMatches name' text >>= _) = .ok b'
  rw [hc']
  cases c' with
  | true => exact ⟨true, rfl⟩
  | false => exact hmatch name p' text c hc

/-- A turn without a text. -/
theorem mmsTurn_free {i : ℤ} {s : Progress ι}
    (howner : ownerPasses env (ownerFilter a (mms i)) = .ok true)
    (hnone : inForce a s.filterString (mms i) = none) :
    ∃ s', mmsTurn env a mms s i = .ok s' ∧ Appears i s'.r := by
  rw [mmsTurn, allowedMms_of_none howner hnone]
  refine ⟨_, rfl, ?_⟩
  rw [appears_added]
  exact .inr rfl

/-- A turn with a text, and the entry of the number `q` in the cache. -/
theorem mmsTurn_compared {i : ℤ} {s : Progress ι}
    (howner : ownerPasses env (ownerFilter a (mms i)) = .ok true)
    (htext : inForce a s.filterString (mms i) = some text) (hp : (mms i).address = some p)
    (hname : getContactName env.contacts s.cache (some p) =
      ((getVcardContent env.contacts (some q)).name, s.cache))
    (hb : answer env q p text = .ok b) :
    ∃ s', mmsTurn env a mms s i = .ok s' ∧ s'.filterString = some text ∧
      s.cache <+: s'.cache ∧ (Appears m s'.r ↔ Appears m s.r ∨ i = m ∧ b = true) := by
  have hallowed : allowedMms env a s.filterString (mms i) s.cache =
      .ok (b, some text, s.cache) := by
    rw [allowedMms_of_some howner htext, hp, hname]
    show (answer env q p text).map _ = _
    rw [hb]
    rfl
  rw [mmsTurn, hallowed]
  cases b with
  | false => exact ⟨_, rfl, rfl, List.prefix_rfl, by simp⟩
  | true =>
    refine ⟨_, rfl, rfl, ?_, ?_⟩
    · refine keeps_bldMmsMsgLstItem i ?_ List.prefix_rfl
      intro c p _ hc
      exact hc.trans (prefix_getContactName (some p))
    · rw [appears_added]
      simp

theorem start_of_over {cache : List VcardContent} (h : Over env.contacts N cache) :
    Start env N m (cache, ({} : MsgListRsp (Entry ι))) := by
  refine ⟨h, ?_⟩
  rintro ⟨entry, hentry, -⟩
  cases hentry

theorem msgListMms_of_foldlM {l : List ℤ} {cache : List VcardContent} {r : MsgListRsp (Entry ι)}
    {t : Progress ι} (h : l.foldlM (mmsTurn env a mms) ⟨none, cache, r⟩ = .ok t) :
    msgListMms env a mms l (cache, r) = .ok (t.cache, t.r) := by
  rw [msgListMms, h]
  rfl

/-- The condition is necessary. -/
theorem OwnVerdict.settled (hmatch : FailsByPattern env.stringMatches) (hm : m ∈ S)
    (h : OwnVerdict env a mms S N m) : Settled env a mms S N m := by
  intro howner p hp
  have hself : ∀ i ∈ [m], i ∈ S := by simpa using hm
  cases hown : filterText (otherFilter a (mms m)) with
  | some text =>
    -- the MMS alone, with two caches
    intro q hq q' hq' hqp hqp' b b' hb hb'
    have halone : ∀ {q b}, contains q p → answer env q p text = .ok b →
        ∃ t, msgListMms env a mms [m] ([getVcardContent env.contacts (some q)], {}) = .ok t ∧
          (Appears m t.2 ↔ b = true) := by
      intro q b hqp hb
      obtain ⟨t, ht, -, -, happears⟩ := mmsTurn_compared (m := m)
        (s := ⟨none, [getVcardContent env.contacts (some q)], {}⟩) howner
        (inForce_of_some hown) hp (getContactName_of_hit hqp) hb
      refine ⟨_, msgListMms_of_foldlM (foldlM_cons_eq_ok.2 ⟨t, ht, rfl⟩), ?_⟩
      rw [happears]
      simp [Appears]
    obtain ⟨t, ht, happears⟩ := halone hqp hb
    obtain ⟨t', ht', happears'⟩ := halone hqp' hb'
    have hsame := h [m] [m] hself hself List.mem_cons_self List.mem_cons_self _ _ t t'
      (start_of_over (over_nil.append hq)) (start_of_over (over_nil.append hq')) ht ht'
    rw [happears, happears'] at hsame
    exact Bool.eq_iff_iff.2 hsame
  | none =>
    -- the MMS alone passes; after the other one it does not
    intro i hi text hleaves q hq hqp hfalse
    obtain ⟨howneri, howni, p', q', hp', hq', hqp', hname'⟩ := hleaves
    have hne : i ≠ m := by
      rintro rfl
      cases hown.symm.trans howni
    obtain ⟨t, ht, happears⟩ := mmsTurn_free (i := m) (s := ⟨none, [], {}⟩) howner
      (inForce_of_none hown)
    obtain ⟨q₁, hname, hhit⟩ : ∃ q₁, (getVcardContent env.contacts (some q₁)).name ≠ none ∧
        getContactName env.contacts
          [getVcardContent env.contacts (some q), getVcardContent env.contacts (some q')]
          (some p') = ((getVcardContent env.contacts (some q₁)).name,
            [getVcardContent env.contacts (some q), getVcardContent env.contacts (some q')]) := by
      by_cases hfirst : contains q p'
      · exact ⟨q, name_ne_none hfalse, getContactName_of_hit hfirst⟩
      · exact ⟨q', hname', getContactName_of_second_hit hfirst hqp'⟩
    obtain ⟨b, hb⟩ : ∃ b, answer env q₁ p' text = .ok b := exists_answer hmatch hfalse hname
    obtain ⟨u, hu, htext, ⟨rest, hrest⟩, happearsu⟩ := mmsTurn_compared (m := m) (s := ⟨none,
      [getVcardContent env.contacts (some q), getVcardContent env.contacts (some q')], {}⟩)
      howneri (inForce_of_some howni) hp' hhit hb
    have hhitu : getContactName env.contacts u.cache (some p) =
        ((getVcardContent env.contacts (some q)).name, u.cache) := by
      rw [← hrest]
      exact getContactName_of_hit hqp
    obtain ⟨v, hv, -, -, happearsv⟩ := mmsTurn_compared (m := m) (s := u) howner
      ((inForce_of_none hown).trans htext) hp hhitu hfalse
    have hpair : ∀ j ∈ [i, m], j ∈ S := by simp [hi, hm]
    have hsame := h [m] [i, m] hself hpair List.mem_cons_self
      (List.mem_cons_of_mem i List.mem_cons_self) _ _ _ _
      (start_of_over over_nil) (start_of_over ((over_nil.append hq).append hq'))
      (msgListMms_of_foldlM (foldlM_cons_eq_ok.2 ⟨t, ht, rfl⟩))
      (msgListMms_of_foldlM
        (foldlM_cons_eq_ok.2 ⟨u, hu, foldlM_cons_eq_ok.2 ⟨v, hv, rfl⟩⟩))
    rw [iff_true_left happears, happearsv, happearsu] at hsame
    simp [Appears, hne] at hsame

/-- **When an MMS is judged on its own**: whether it appears depends on the other MMS or on earlier
look-ups, unless the owner does not pass, all entries that the cache may have for its number match
its own filter alike, or it has no filter of its own and matches each text that an MMS of the other
kind may leave. -/
theorem ownVerdict_iff {N₀ : Set JString} (hmatch : FailsByPattern env.stringMatches)
    (hm : m ∈ S) : OwnVerdict env a mms S (lookedUp mms S N₀) m ↔
      Settled env a mms S (lookedUp mms S N₀) m := by
  constructor
  · exact fun h => h.settled hmatch hm
  · refine Settled.ownVerdict ?_
    intro i hi p hp
    exact .inr ⟨i, hi, hp⟩

end OwnVerdict

/-- Ann is the owner, and Bob is not. -/
def sampleEnv : Env where
  contacts p :=
    if p = some (js "111") then some (some (js "Ann"), [])
    else if p = some (js "222") then some (some (js "Bob"), [])
    else none
  -- the matcher, for plain texts and plain texts between two `.*`
  stringMatches s pattern := .ok <|
    if js ".*" <+: pattern then contains s (pattern.drop 2).dropLast.dropLast else s = pattern
  ownerName := some (js "Ann")
  ownerNumber := none

/-- Ann's MMS to herself, and one from Bob. -/
def sampleMms (i : ℤ) : Message Unit :=
  if i = 1 then ⟨true, some (js "111"), false, fun _ _ => ()⟩
  else ⟨false, some (js "222"), false, fun _ _ => ()⟩

/-- MMS for Ann. -/
def sampleFilter : AppParams := { noParams with FilterRecipient := some (js "Ann") }

theorem failsByPattern_sampleEnv : FailsByPattern sampleEnv.stringMatches :=
  fun _ _ _ _ _ => ⟨_, rfl⟩

/-- Ann's own MMS is judged on its own. -/
theorem ownVerdict_sampleMms :
    OwnVerdict sampleEnv sampleFilter sampleMms Set.univ (lookedUp sampleMms Set.univ ∅) 1 := by
  refine (ownVerdict_iff failsByPattern_sampleEnv (Set.mem_univ 1)).2 ?_
  have hN : ∀ q ∈ lookedUp sampleMms Set.univ ∅, contains q (js "111") → q = js "111" := by
    rintro q (hq | ⟨i, -, p, hp, hq⟩) hcontains
    · cases hq
    · by_cases hi : i = 1
      · rw [sampleMms, if_pos hi] at hp
        obtain rfl := Option.some.inj hp
        have hsplit : split 59 (js "111") = [js "111"] := by decide
        rw [hsplit] at hq
        simpa using hq
      · rw [sampleMms, if_neg hi] at hp
        obtain rfl := Option.some.inj hp
        have hsplit : split 59 (js "222") = [js "222"] := by decide
        rw [hsplit] at hq
        obtain rfl : q = js "222" := by simpa using hq
        exact absurd hcontains (by decide)
  intro _ p hp
  obtain rfl : js "111" = p := Option.some.inj hp
  show ∀ q ∈ _, _
  intro q hq q' hq' hqp hqp' b b' hb hb'
  rw [hN q hq hqp] at hb
  rw [hN q' hq' hqp'] at hb'
  exact Except.ok.inj (hb.symm.trans hb')

/-- **The text of one MMS is used for the next one.**  Alone, Bob's MMS to Ann appears.  After an
MMS that Ann sends, it is compared with the text of that one, and does not. -/
theorem not_ownVerdict_sampleMms :
    (msgListMms sampleEnv sampleFilter sampleMms [2] ([], {})).map (·.2.msgList) =
      .ok [⟨67108865, ()⟩] ∧
    (msgListMms sampleEnv sampleFilter sampleMms [1, 2] ([], {})).map (·.2.msgList) =
      .ok [⟨67108864, ()⟩] ∧
    ¬ OwnVerdict sampleEnv sampleFilter sampleMms Set.univ (lookedUp sampleMms Set.univ ∅) 2 := by
  have halone : (msgListMms sampleEnv sampleFilter sampleMms [2] ([], {})).map (·.2.msgList) =
      .ok [⟨67108865, ()⟩] := by decide
  have hafter : (msgListMms sampleEnv sampleFilter sampleMms [1, 2] ([], {})).map (·.2.msgList) =
      .ok [⟨67108864, ()⟩] := by decide
  refine ⟨halone, hafter, ?_⟩
  intro h
  obtain ⟨t, ht, hlist⟩ := map_eq_ok.1 halone
  obtain ⟨t', ht', hlist'⟩ := map_eq_ok.1 hafter
  have hsame := h [2] [1, 2] (fun i _ => Set.mem_univ i) (fun i _ => Set.mem_univ i) (by decide)
    (by decide) _ _ t t' (start_of_over over_nil) (start_of_over over_nil) ht ht'
  rw [Appears, Appears, hlist, hlist'] at hsame
  revert hsame
  decide

end Filters

end Map

end Msm8909w
