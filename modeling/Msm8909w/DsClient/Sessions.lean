import Mathlib.Data.List.Induction
import Mathlib.Data.List.Infix
import Msm8909w.DsClient.OpenCall

/-!
# Sessions of emergency calls

`ds_client_open_call`, `ds_client_start_call`, `ds_client_stop_call` and `ds_client_close_call` of
`ds_client.c`, called in any order for any number of handles.

An exit of `openCall` before the release of the client leaves the client behind, a failure of
`qmiCtrlPointInit` the notifier, and a session without a data handle is not given back.

* `openCall_spec` : what a call leaves behind, for all results of all calls,
* `clean_openCall_iff` : exactly when a call cleans up after itself,
* `cleansUp_iff` : exactly when every call of a sequence does.
-/

namespace Msm8909w

namespace DsClient

namespace Calls

variable (c : Calls)

/-- The list that `getProfileList` gets. -/
def listed : Option (List Profile) :=
  if !c.profileListReq then some []
  else c.profileList.bind fun m => if m.ok then some m.profiles else none

/-- What the loop finds, if the code gets to its end. -/
def search : Option (Option (ℕ × IpVersion)) :=
  if !c.profileListResp || !c.profileSettingsResp then none
  else c.listed.bind fun profiles => (findProfile c.settings 0 profiles {}).toOption

/-- The client is connected and released. -/
def releasesClient : Bool := c.search.isSome && c.clientRelease

/-- The code gets to the session. -/
def reachesSession : Bool := c.init.connects && c.search.any Option.isSome

/-- The resources that are left: a notifier, a client. -/
def leftKinds : List Resource :=
  (if c.init.keepsNotifier then [.notifier] else []) ++
    if c.init.connects && !c.releasesClient then [.wdsClient] else []

/-- What a session record with the number `n` holds. -/
def sessionLeft (n : ℕ) : List (ℕ × Resource) :=
  if c.session then (n, .session) :: if c.dataHandle then [(n + 1, .dataHandle)] else [] else []

end Calls

section Spec

variable {V : Type*} [DecidableEq V] {c : Calls} {v : V} {client : ℕ} {s : State V}
  {p : Pool Resource} {L M : List (ℕ × Resource)} {found : Option (ℕ × IpVersion)}

/-- Release the client, or leave it. -/
def clientLeft (released : Bool) (client : ℕ) : List (ℕ × Resource) :=
  if released then [] else [(client, .wdsClient)]

/-- The client is released or left, and the session follows. -/
theorem leaves_openSession (h : p.Leaves s.pool (L ++ (client, .wdsClient) :: M)) :
    p.Leaves (openSession c v client found s).2.pool
      ((L ++ clientLeft c.clientRelease client ++ M) ++
        if found.isSome then c.sessionLeft s.pool.next else []) := by
  have hreleased : p.Leaves (if c.clientRelease then s.pool.release client else s.pool)
      (L ++ clientLeft c.clientRelease client ++ M) := by
    cases c.clientRelease with
    | false => simpa [clientLeft] using h
    | true => simpa [clientLeft] using h.release
  have hnext : (if c.clientRelease then s.pool.release client else s.pool).next = s.pool.next := by
    cases c.clientRelease <;> rfl
  unfold openSession Calls.sessionLeft
  generalize (if c.clientRelease then s.pool.release client else s.pool) = q at *
  cases found with
  | none => simpa using hreleased
  | some r =>
    cases c.session with
    | false => simpa using hreleased
    | true =>
      have hsession := hreleased.trans (.acquire q .session)
      cases c.dataHandle with
      | false => simpa [hnext] using hsession
      | true => simpa [hnext] using hsession.trans (.acquire _ .dataHandle)

theorem handle_openSession : (openSession c v client found s).2.handle =
    if found.isSome then Function.update s.handle v (if c.session then some s.pool.next else none)
    else s.handle := by
  unfold openSession
  cases found with
  | none => rfl
  | some r => cases c.session <;> cases c.dataHandle <;> cases c.clientRelease <;> rfl

theorem session_openSession : (openSession c v client found s).2.session =
    if found.isSome && c.session then
      Function.update s.session s.pool.next (if c.dataHandle then some (s.pool.next + 1) else none)
    else s.session := by
  unfold openSession
  cases found with
  | none => rfl
  | some r =>
    cases c.session with
    | false => cases c.dataHandle <;> cases c.clientRelease <;> rfl
    | true => cases c.dataHandle <;> cases c.clientRelease <;> simp

theorem getProfileList_spec (c : Calls) (p : Pool Resource) :
    p.Leaves (getProfileList c p).2 [] ∧
      c.listed = match (getProfileList c p).1 with
        | .ok profiles => some profiles
        | .error _ => none := by
  unfold getProfileList Calls.listed
  cases c.profileListReq with
  | false => exact ⟨.refl p, rfl⟩
  | true =>
    refine ⟨(Pool.Leaves.refl _).bracket, ?_⟩
    rcases c.profileList with _ | ⟨ok, profiles⟩
    · rfl
    · cases ok <;> rfl

/-- What becomes of the handles and the sessions, if the record gets the number `n`. -/
structure After (c : Calls) (v : V) (n : ℕ) (s t : State V) : Prop where
  handle : t.handle = if c.reachesSession then
    Function.update s.handle v (if c.session then some n else none) else s.handle
  session : t.session = if c.reachesSession && c.session then
    Function.update s.session n (if c.dataHandle then some (n + 1) else none) else s.session

/-- An exit before the end of the loop. -/
theorem spec_of_exit {q : Pool Resource} (hsearch : c.search = none)
    (h : p.Leaves q (L ++ (client, .wdsClient) :: M)) (v : V) (n : ℕ) (s : State V) :
    p.Leaves q ((L ++ clientLeft c.releasesClient client ++ M) ++
      if c.reachesSession then c.sessionLeft n else []) ∧ After c v n s { s with pool := q } := by
  have hreleases : c.releasesClient = false := by simp [Calls.releasesClient, hsearch]
  have hreaches : c.reachesSession = false := by simp [Calls.reachesSession, hsearch]
  constructor
  · simpa [hreleases, hreaches, clientLeft] using h
  · exact ⟨by simp [hreaches], by simp [hreaches]⟩

/-- From the list on. -/
theorem openProfiles_spec (hconnects : c.init.connects = true) (hresp : c.profileListResp = true)
    (h : p.Leaves s.pool (L ++ (client, .wdsClient) :: M)) :
    ∃ n, s.pool.next ≤ n ∧
      p.Leaves (openProfiles c v client s).2.pool ((L ++ clientLeft c.releasesClient client ++ M) ++
        if c.reachesSession then c.sessionLeft n else []) ∧
      After c v n s (openProfiles c v client s).2 := by
  obtain ⟨hpool, hlisted⟩ := getProfileList_spec c s.pool
  rcases hget : getProfileList c s.pool with ⟨st | profiles, q⟩
  · rw [hget] at hpool hlisted
    have hsearch : c.search = none := by simp [Calls.search, hlisted]
    refine ⟨s.pool.next, le_rfl, ?_⟩
    simp only [openProfiles, hget]
    exact spec_of_exit hsearch (by simpa using h.trans hpool) v _ s
  · rw [hget] at hpool hlisted
    have hbefore : p.Leaves q (L ++ (client, .wdsClient) :: M) := by simpa using h.trans hpool
    cases hsettings : c.profileSettingsResp with
    | false =>
      have hsearch : c.search = none := by simp [Calls.search, hsettings]
      refine ⟨s.pool.next, le_rfl, ?_⟩
      simp only [openProfiles, hget, hsettings]
      exact spec_of_exit hsearch hbefore v _ s
    | true =>
      have hinside : p.Leaves (q.acquire .profileSettingsResp)
          (L ++ (client, .wdsClient) :: (M ++ [(q.next, .profileSettingsResp)])) := by
        simpa using hbefore.trans (.acquire q .profileSettingsResp)
      have hsearch : c.search = (findProfile c.settings 0 profiles {}).toOption := by
        simp [Calls.search, hsettings, hresp, hlisted]
      cases hfound : findProfile c.settings 0 profiles {} with
      | error st =>
        rw [hfound] at hsearch
        refine ⟨s.pool.next, le_rfl, ?_⟩
        simp only [openProfiles, hget, hsettings, hfound, freeing]
        have hfreed : p.Leaves ((q.acquire .profileSettingsResp).release q.next)
            (L ++ (client, .wdsClient) :: M) := by
          have hlast := Pool.Leaves.release (L := L ++ (client, .wdsClient) :: M) (M := [])
            (by simpa using hinside)
          simpa using hlast
        exact spec_of_exit hsearch hfreed v _ s
      | ok found =>
        rw [hfound] at hsearch
        have hreleases : c.releasesClient = c.clientRelease := by
          simp [Calls.releasesClient, hsearch, Except.toOption]
        have hreaches : c.reachesSession = found.isSome := by
          simp [Calls.reachesSession, hconnects, hsearch, Except.toOption]
        let inner : State V := { s with pool := q.acquire .profileSettingsResp }
        have hopen : p.Leaves (openSession c v client found inner).2.pool
            ((L ++ clientLeft c.releasesClient client ++ M) ++ (q.next, .profileSettingsResp) ::
              if c.reachesSession then c.sessionLeft (q.next + 1) else []) := by
          rw [hreleases, hreaches]
          simpa [inner] using leaves_openSession (s := inner) hinside
        refine ⟨q.next + 1, Nat.le_succ_of_le hpool.next_le, ?_⟩
        simp only [openProfiles, hget, hsettings, hfound, freeing]
        refine ⟨hopen.release, ?_, ?_⟩
        · rw [hreaches]
          exact handle_openSession (s := inner)
        · rw [hreaches]
          exact session_openSession (s := inner)

/-- **What a call leaves behind.** -/
theorem openCall_spec (c : Calls) (v : V) (s : State V) :
    ∃ n left, s.pool.next ≤ n ∧ left.map Prod.snd = c.leftKinds ∧
      s.pool.Leaves (openCall c true (some v) s).2.pool
        (left ++ if c.reachesSession then c.sessionLeft n else []) ∧
      After c v n s (openCall c true (some v) s).2 := by
  have hleft : (c.init.left s.pool).map Prod.snd =
      if c.init.keepsNotifier then [.notifier] else [] := by
    unfold InitCalls.left
    split_ifs <;> rfl
  cases hconnects : c.init.connects with
  | false =>
    obtain ⟨st, q, hinit, -, hpool⟩ := qmiCtrlPointInit_of_not_connects (p := s.pool) hconnects
    refine ⟨s.pool.next, c.init.left s.pool, le_rfl, ?_, ?_⟩
    · simp [Calls.leftKinds, hconnects, hleft]
    simp only [openCall, hinit]
    have hreaches : c.reachesSession = false := by simp [Calls.reachesSession, hconnects]
    exact ⟨by simpa [hreaches] using hpool, by simp [hreaches], by simp [hreaches]⟩
  | true =>
    obtain ⟨client, q, hinit, hpool⟩ := qmiCtrlPointInit_of_connects (p := s.pool) hconnects
    have hkinds : (c.init.left s.pool ++ clientLeft c.releasesClient client).map Prod.snd =
        c.leftKinds := by
      rw [List.map_append, hleft]
      cases hreleases : c.releasesClient <;>
        simp [Calls.leftKinds, clientLeft, hconnects, hreleases]
    cases hresp : c.profileListResp with
    | false =>
      have hsearch : c.search = none := by simp [Calls.search, hresp]
      refine ⟨s.pool.next, _, le_rfl, hkinds, ?_⟩
      simp only [openCall, hinit, hresp]
      simpa using spec_of_exit hsearch hpool v s.pool.next s
    | true =>
      let inner : State V := { s with pool := q.acquire .profileListResp }
      have hinside : s.pool.Leaves inner.pool
          (c.init.left s.pool ++ (client, .wdsClient) :: [(q.next, .profileListResp)]) := by
        simpa using hpool.trans (.acquire q .profileListResp)
      obtain ⟨n, hn, hleaves, hafter⟩ :=
        openProfiles_spec (v := v) (s := inner) hconnects hresp hinside
      refine ⟨n, _, Nat.le_trans (Nat.le_succ_of_le hpool.next_le) hn, hkinds, ?_⟩
      simp only [openCall, hinit, hresp, freeing]
      exact ⟨Pool.Leaves.release (by simpa using hleaves), hafter.handle, hafter.session⟩

end Spec

/-! ### When a call cleans up -/

/-- Each request for settings up to the first emergency profile is answered. -/
def Answered (settings : ℕ → Profile → Option SettingsMsg) (k : ℕ) (profiles : List Profile) :
    Prop :=
  ∀ i e, profiles[i]? = some e →
    (∀ j e', j < i → profiles[j]? = some e' → Denies settings (k + j) e') →
    ∃ m, settings (k + i) e = some m ∧ m.ok = true

section Answered

variable {settings : ℕ → Profile → Option SettingsMsg} {profiles : List Profile} {k : ℕ}

theorem answered_cons_iff {e₀ : Profile} : Answered settings k (e₀ :: profiles) ↔
    (∃ m, settings k e₀ = some m ∧ m.ok = true) ∧
      (Denies settings k e₀ → Answered settings (k + 1) profiles) := by
  constructor
  · intro h
    refine ⟨h 0 e₀ rfl (by simp), fun hdenies i e he hbefore => ?_⟩
    rw [Nat.add_assoc, Nat.add_comm 1]
    exact h (i + 1) e (by simpa using he) (before_cons_iff.2 ⟨hdenies, hbefore⟩)
  · rintro ⟨hfirst, hrest⟩ i e he hbefore
    cases i with
    | zero =>
      obtain rfl : e₀ = e := by simpa using he
      exact hfirst
    | succ i =>
      obtain ⟨hdenies, hbefore⟩ := before_cons_iff.1 hbefore
      have h := hrest hdenies i e (by simpa using he) hbefore
      rwa [Nat.add_assoc, Nat.add_comm 1] at h

/-- The loop gets to its end exactly if every request is answered. -/
theorem isSome_findProfile_iff : (findProfile settings k profiles {}).toOption.isSome = true ↔
    Answered settings k profiles := by
  induction profiles generalizing k with
  | nil => simp [findProfile, Except.toOption, Answered]
  | cons e₀ es ih =>
    rw [answered_cons_iff]
    cases hanswer : settings k e₀ with
    | none => simp [findProfile, hanswer, Except.toOption]
    | some m₀ =>
      rw [findProfile_cons hanswer]
      have hdenies : Denies settings k e₀ ↔
          m₀.ok = true ∧ m₀.supportEmergencyCalls ≠ some true := by simp [Denies, hanswer]
      cases hok : m₀.ok with
      | false => simp [Except.toOption, hok]
      | true =>
        by_cases hsupports : m₀.supportEmergencyCalls = some true
        · simp [Except.toOption, hdenies, hok, hsupports]
        · simp [hdenies, hok, hsupports, ih]

/-- The loop finds a profile exactly if there is one. -/
theorem any_findProfile_iff :
    (findProfile settings k profiles {}).toOption.any Option.isSome = true ↔
      ∃ i e m, First settings k profiles i e m := by
  constructor
  · intro h
    rcases hfound : findProfile settings k profiles {} with st | _ | r
    · simp [hfound, Except.toOption] at h
    · simp [hfound, Except.toOption] at h
    · obtain ⟨i, e, m, hfirst, -⟩ := findProfile_eq_some_iff.1 hfound
      exact ⟨i, e, m, hfirst⟩
  · rintro ⟨i, e, m, hfirst⟩
    rw [findProfile_eq_some_iff.2 ⟨i, e, m, hfirst, rfl⟩]
    rfl

end Answered

namespace Calls

/-- The code gets as far as a profile that supports emergency calls. -/
structure Finds (c : Calls) : Prop where
  connects : c.init.connects = true
  profileListResp : c.profileListResp = true
  profileSettingsResp : c.profileSettingsResp = true
  emergency : ∃ profiles, c.listed = some profiles ∧ ∃ i e m, First c.settings 0 profiles i e m

/-- The results of the calls after which nothing is left behind. -/
structure Orderly (c : Calls) : Prop where
  /-- After a wait for the service the client is connected, and the notifier can be released. -/
  notifier : c.init.waits = true → c.init.connects = true ∧ c.init.notifierRelease = true
  /-- With a client, nothing fails up to its release. -/
  client : c.init.connects = true → c.profileListResp = true ∧ c.profileSettingsResp = true ∧
    (∃ profiles, c.listed = some profiles ∧ Answered c.settings 0 profiles) ∧
    c.clientRelease = true
  /-- A session gets its data handle. -/
  dataHandle : c.Finds → c.session = true → c.dataHandle = true

variable {c : Calls}

theorem isSome_search_iff : c.search.isSome = true ↔ c.profileListResp = true ∧
    c.profileSettingsResp = true ∧
      ∃ profiles, c.listed = some profiles ∧ Answered c.settings 0 profiles := by
  unfold search
  cases c.profileListResp <;> cases c.profileSettingsResp <;> cases c.listed <;>
    simp [isSome_findProfile_iff]

theorem any_search_iff : c.search.any Option.isSome = true ↔ c.profileListResp = true ∧
    c.profileSettingsResp = true ∧
      ∃ profiles, c.listed = some profiles ∧ ∃ i e m, First c.settings 0 profiles i e m := by
  unfold search
  cases c.profileListResp <;> cases c.profileSettingsResp <;> cases c.listed <;>
    simp [any_findProfile_iff]

theorem reachesSession_iff : c.reachesSession = true ↔ c.Finds := by
  rw [reachesSession, Bool.and_eq_true, any_search_iff]
  constructor
  · rintro ⟨hconnects, hresp, hsettings, h⟩
    exact ⟨hconnects, hresp, hsettings, h⟩
  · rintro ⟨hconnects, hresp, hsettings, h⟩
    exact ⟨hconnects, hresp, hsettings, h⟩

/-- Neither a notifier nor a client is left. -/
theorem leftKinds_eq_nil_iff : c.leftKinds = [] ↔
    (c.init.waits = true → c.init.connects = true ∧ c.init.notifierRelease = true) ∧
      (c.init.connects = true → c.releasesClient = true) := by
  unfold leftKinds InitCalls.keepsNotifier
  cases c.init.waits <;> cases c.init.connects <;> cases c.init.notifierRelease <;>
    cases c.releasesClient <;> simp

theorem mem_leftKinds {k : Resource} (h : k ∈ c.leftKinds) : k = .notifier ∨ k = .wdsClient := by
  rcases List.mem_append.1 h with h | h
  · split_ifs at h
    · exact .inl (List.mem_singleton.1 h)
    · cases h
  · split_ifs at h
    · exact .inr (List.mem_singleton.1 h)
    · cases h

theorem releasesClient_iff : c.releasesClient = true ↔ c.profileListResp = true ∧
    c.profileSettingsResp = true ∧
    (∃ profiles, c.listed = some profiles ∧ Answered c.settings 0 profiles) ∧
    c.clientRelease = true := by
  rw [releasesClient, Bool.and_eq_true, isSome_search_iff]
  tauto

theorem orderly_iff : c.Orderly ↔
    c.leftKinds = [] ∧ (c.reachesSession = true → c.session = true → c.dataHandle = true) := by
  rw [leftKinds_eq_nil_iff, releasesClient_iff, reachesSession_iff]
  constructor
  · intro h
    exact ⟨⟨h.notifier, h.client⟩, h.dataHandle⟩
  · rintro ⟨⟨hnotifier, hclient⟩, hdata⟩
    exact ⟨hnotifier, hclient, hdata⟩

/-- A list with a profile in it has come from the modem. -/
theorem profileList_of_listed {profiles : List Profile} (h : c.listed = some profiles)
    (hne : profiles ≠ []) :
    c.profileListReq = true ∧ c.profileList = some ⟨true, profiles⟩ := by
  unfold listed at h
  cases hreq : c.profileListReq with
  | false =>
    rw [hreq] at h
    exact absurd (Option.some.inj h).symm hne
  | true =>
    simp only [hreq, Bool.not_true, Bool.false_eq_true, if_false] at h
    obtain ⟨⟨ok, list⟩, hlist, hm⟩ := Option.bind_eq_some_iff.1 h
    cases ok with
    | false => cases hm
    | true =>
      obtain rfl := Option.some.inj hm
      exact ⟨rfl, hlist⟩

/-- An orderly call that gets its session is opened. -/
theorem opens_of_finds (hfinds : c.Finds) (hreleases : c.releasesClient = true)
    (hsession : c.session = true) (hdata : c.dataHandle = true) : Opens c := by
  obtain ⟨profiles, hlisted, i, e, m, hfirst⟩ := hfinds.emergency
  have hne : profiles ≠ [] := by
    rintro rfl
    cases hfirst.entry
  obtain ⟨hreq, hlist⟩ := profileList_of_listed hlisted hne
  exact ⟨hfinds.connects, hfinds.profileListResp, hreq, hfinds.profileSettingsResp,
    ⟨profiles, hlist, i, e, m, hfirst⟩, (releasesClient_iff.1 hreleases).2.2.2, hsession, hdata⟩

/-- The session is of two kinds of resources. -/
theorem mem_sessionLeft {n : ℕ} {x : ℕ × Resource} (h : x ∈ c.sessionLeft n) :
    c.session = true ∧ (x = (n, .session) ∨ c.dataHandle = true ∧ x = (n + 1, .dataHandle)) := by
  unfold sessionLeft at h
  cases hsession : c.session <;> cases hdata : c.dataHandle <;> simp [hsession, hdata] at h ⊢ <;>
    exact h

end Calls

/-! ### Sequences of calls -/

/-- A call of a user, with the variable of its handle; `none` stands for a null pointer. -/
inductive Event (V : Type*)
  | openCall (c : Calls) (callback : Bool) (clientHandle : Option V)
  | startCall (accepted : Bool) (clientHandle : Option V)
  | stopCall (accepted : Bool) (clientHandle : Option V)
  | closeCall (clientHandle : Option V)

/-- A request to the data service about the session of a handle. -/
def request (accepted : Bool) (clientHandle : Option ℕ) : Status :=
  if clientHandle.isSome && accepted then .success else .failureGeneral

/-- `ds_client_start_call` and `ds_client_stop_call`; what the first one is given besides only goes
to the data service. -/
def startCall (accepted : Bool) (clientHandle : Option ℕ) : Status := request accepted clientHandle
def stopCall (accepted : Bool) (clientHandle : Option ℕ) : Status := request accepted clientHandle

section Runs

variable {V : Type*} [DecidableEq V]

/-- `ds_client_close_call`. -/
def closeCall (clientHandle : Option V) (s : State V) : State V :=
  match clientHandle with
  | none => s
  | some v =>
    match s.handle v with
    | none => s
    | some n =>
      let p := match s.session n with
        | some d => s.pool.release d
        | none => s.pool
      { pool := p.release n
        handle := Function.update s.handle v none
        session := Function.update s.session n none }

/-- What a call returns, if it returns something, and the state after it. -/
def call (s : State V) : Event V → Option Status × State V
  | .openCall c callback clientHandle =>
    let r := openCall c callback clientHandle s
    (some r.1.status, r.2)
  | .startCall accepted clientHandle =>
    (some (startCall accepted (clientHandle.bind s.handle)), s)
  | .stopCall accepted clientHandle =>
    (some (stopCall accepted (clientHandle.bind s.handle)), s)
  | .closeCall clientHandle => (none, closeCall clientHandle s)

/-- The resource belongs to the session of the variable. -/
def Owns (s : State V) (v : V) (x : ℕ × Resource) : Prop :=
  ∃ n, s.handle v = some n ∧
    (x = (n, .session) ∨ ∃ d, s.session n = some d ∧ x = (d, .dataHandle))

/-- What is asked of a call that leads from `s` to `t`. -/
def CleanFrom (s t : State V) (status : Option Status) : Event V → Prop
  | .openCall _ _ clientHandle =>
    (∀ x ∈ t.pool.held, s.pool.next ≤ x.1 → x.2 ≠ .wdsClient ∧ x.2 ≠ .notifier) ∧
    (status ≠ some .success →
      (∀ x ∈ t.pool.held, s.pool.next ≤ x.1 → x.2 ≠ .session ∧ x.2 ≠ .dataHandle) ∧
      ∀ v, clientHandle = some v → t.handle v = none ∨ t.handle v = s.handle v)
  | .closeCall clientHandle =>
    ∀ v, clientHandle = some v → ∀ x ∈ t.pool.held, ∃ w, w ≠ v ∧ Owns t w x
  | .startCall _ _ | .stopCall _ _ => True

/-- The call cleans up after itself. -/
def Clean (s : State V) (e : Event V) : Prop := CleanFrom s (call s e).2 (call s e).1 e

variable {c : Calls} {v : V} {s t : State V}

/-- **Exactly when a call cleans up after itself.** -/
theorem clean_openCall_iff : Clean s (.openCall c true (some v)) ↔ c.Orderly := by
  obtain ⟨n, left, -, hkinds, hleaves, hafter⟩ := openCall_spec c v s
  have hnew := fun x => hleaves.mem_iff (x := x)
  rw [Calls.orderly_iff]
  have hopens : (some (openCall c true (some v) s).1.status = some Status.success) ↔ Opens c := by
    rw [Option.some.injEq, success_iff_opens]
  constructor
  · rintro ⟨hclient, hsession⟩
    constructor
    · rw [← hkinds, List.map_eq_nil_iff, List.eq_nil_iff_forall_not_mem]
      intro x hx
      obtain ⟨hheld, hle⟩ := (hnew x).2 (List.mem_append_left _ hx)
      obtain ⟨hnotClient, hnotNotifier⟩ := hclient x hheld hle
      rcases Calls.mem_leftKinds (hkinds ▸ List.mem_map_of_mem hx) with h | h
      · exact hnotNotifier h
      · exact hnotClient h
    · intro hreaches hs
      by_contra hdata
      have hstatus := mt hopens.1 fun h => hdata h.dataHandle
      obtain ⟨hheld, hle⟩ := (hnew (n, .session)).2
        (by simp [hreaches, Calls.sessionLeft, hs])
      exact ((hsession hstatus).1 _ hheld hle).1 rfl
  · rintro ⟨hleft, hdata⟩
    obtain rfl : left = [] := List.map_eq_nil_iff.1 (hkinds.trans hleft)
    constructor
    · intro x hheld hle
      have hx := (hnew x).1 ⟨hheld, hle⟩
      rw [List.nil_append] at hx
      split_ifs at hx with hreaches
      · obtain ⟨-, rfl | ⟨-, rfl⟩⟩ := Calls.mem_sessionLeft hx
        · exact ⟨by simp, by simp⟩
        · exact ⟨by simp, by simp⟩
      · cases hx
    · intro hstatus
      have hno : c.reachesSession = true → c.session = false := by
        intro hreaches
        by_contra hs
        rw [Bool.not_eq_false] at hs
        have hfinds := Calls.reachesSession_iff.1 hreaches
        exact hstatus (hopens.2 (Calls.opens_of_finds hfinds
          ((Calls.leftKinds_eq_nil_iff.1 hleft).2 hfinds.connects) hs (hdata hreaches hs)))
      constructor
      · intro x hheld hle
        have hx := (hnew x).1 ⟨hheld, hle⟩
        rw [List.nil_append] at hx
        split_ifs at hx with hreaches
        · have hs := (Calls.mem_sessionLeft hx).1
          rw [hno hreaches] at hs
          cases hs
        · cases hx
      · intro w hw
        obtain rfl := Option.some.inj hw
        simp only [call]
        rw [hafter.handle]
        split_ifs with hreaches hs
        · rw [hno hreaches] at hs
          cases hs
        · exact .inl (Function.update_self _ _ _)
        · exact .inr rfl

/-! ### What the handles point to -/

/-- The session of the variable has the number, or its data handle has. -/
def Uses (s : State V) (v : V) (i : ℕ) : Prop :=
  ∃ n, s.handle v = some n ∧ (i = n ∨ s.session n = some i)

/-- The sessions of the handles are held, and no two handles use the same number. -/
structure Tracked (s : State V) : Prop where
  live : ∀ v n, s.handle v = some n → (n, .session) ∈ s.pool.held
  lt : ∀ v i, Uses s v i → i < s.pool.next
  apart : ∀ v w i, Uses s v i → Uses s w i → v = w

/-- Everything that is held belongs to a handle. -/
def Kept (s : State V) : Prop := ∀ x ∈ s.pool.held, ∃ v, Owns s v x

/-- Something that is held belongs to no handle. -/
def Lost (s : State V) : Prop := ∃ x ∈ s.pool.held, ∀ v, ¬ Uses s v x.1

/-- Nothing happens to the sessions of other handles. -/
structure Others (v : V) (s t : State V) : Prop where
  handle : ∀ w, w ≠ v → t.handle w = s.handle w
  session : ∀ w n, w ≠ v → s.handle w = some n → t.session n = s.session n

section Handles

omit [DecidableEq V]

theorem Owns.uses {x : ℕ × Resource} (h : Owns s v x) : Uses s v x.1 := by
  obtain ⟨n, hn, rfl | ⟨d, hd, rfl⟩⟩ := h
  · exact ⟨n, hn, .inl rfl⟩
  · exact ⟨n, hn, .inr hd⟩

theorem tracked_initial : Tracked ({} : State V) := ⟨by simp, by simp [Uses], by simp [Uses]⟩

theorem kept_initial : Kept ({} : State V) := fun _ hx => absurd hx List.not_mem_nil

theorem not_uses_of_none {i : ℕ} (h : s.handle v = none) : ¬ Uses s v i := by
  rintro ⟨n, hn, -⟩
  cases h.symm.trans hn

theorem Others.uses_iff {w : V} {i : ℕ} (h : Others v s t) (hw : w ≠ v) :
    Uses t w i ↔ Uses s w i := by
  unfold Uses
  rw [h.handle w hw]
  constructor
  · rintro ⟨n, hn, hi⟩
    rw [h.session w n hw hn] at hi
    exact ⟨n, hn, hi⟩
  · rintro ⟨n, hn, hi⟩
    rw [← h.session w n hw hn] at hi
    exact ⟨n, hn, hi⟩

theorem Others.owns {w : V} {x : ℕ × Resource} (h : Others v s t) (hw : w ≠ v)
    (hx : Owns s w x) : Owns t w x := by
  obtain ⟨n, hn, hx⟩ := hx
  refine ⟨n, (h.handle w hw).trans hn, ?_⟩
  rwa [h.session w n hw hn]

end Handles

/-! ### Closing -/

theorem closeCall_of_none (hv : s.handle v = none) : closeCall (some v) s = s := by
  simp [closeCall, hv]

/-- The handle is given up, and what belongs to it is given back. -/
theorem closeCall_of_some (h : Tracked s) {n : ℕ} (hv : s.handle v = some n) :
    Others v s (closeCall (some v) s) ∧ (closeCall (some v) s).handle v = none ∧
    (closeCall (some v) s).pool.next = s.pool.next ∧
    ∀ x, x ∈ (closeCall (some v) s).pool.held ↔ x ∈ s.pool.held ∧ ¬ Uses s v x.1 := by
  have hhandle : (closeCall (some v) s).handle = Function.update s.handle v none := by
    simp [closeCall, hv]
  have hsession : (closeCall (some v) s).session = Function.update s.session n none := by
    simp [closeCall, hv]
  refine ⟨⟨fun w hw => ?_, fun w m hw hm => ?_⟩, ?_, ?_, fun x => ?_⟩
  · rw [hhandle, Function.update_of_ne hw]
  · have hmn : m ≠ n := by
      rintro rfl
      exact hw (h.apart w v m ⟨m, hm, .inl rfl⟩ ⟨m, hv, .inl rfl⟩)
    rw [hsession, Function.update_of_ne hmn]
  · rw [hhandle, Function.update_self]
  · simp only [closeCall, hv]
    cases s.session n <;> rfl
  · have huses : Uses s v x.1 ↔ x.1 = n ∨ s.session n = some x.1 := by simp [Uses, hv]
    simp only [closeCall, hv, Pool.mem_held_release, huses]
    cases hd : s.session n with
    | none => simp
    | some d =>
      simp only [Pool.mem_held_release, Option.some.injEq, eq_comm (a := d)]
      tauto

theorem tracked_closeCall (h : Tracked s) (v : V) : Tracked (closeCall (some v) s) := by
  cases hv : s.handle v with
  | none => rwa [closeCall_of_none hv]
  | some n =>
    obtain ⟨hothers, hnone, hnext, hheld⟩ := closeCall_of_some h hv
    have hbefore : ∀ w i, Uses (closeCall (some v) s) w i → w ≠ v ∧ Uses s w i := by
      intro w i hw
      have hne : w ≠ v := by
        rintro rfl
        exact not_uses_of_none hnone hw
      exact ⟨hne, (hothers.uses_iff hne).1 hw⟩
    refine ⟨fun w m hw => ?_, fun w i hw => ?_, fun w w' i hw hw' => ?_⟩
    · obtain ⟨hne, huses⟩ := hbefore w m ⟨m, hw, .inl rfl⟩
      rw [hothers.handle w hne] at hw
      exact (hheld _).2 ⟨h.live w m hw, fun hv => hne (h.apart w v m huses hv)⟩
    · rw [hnext]
      exact h.lt w i (hbefore w i hw).2
    · exact h.apart w w' i (hbefore w i hw).2 (hbefore w' i hw').2

/-- What is held after a handle is closed belongs to another one. -/
theorem owned_closeCall (h : Tracked s) (hs : Kept s) {x : ℕ × Resource}
    (hx : x ∈ (closeCall (some v) s).pool.held) :
    ∃ w, w ≠ v ∧ Owns (closeCall (some v) s) w x := by
  cases hv : s.handle v with
  | none =>
    rw [closeCall_of_none hv] at hx ⊢
    obtain ⟨w, hw⟩ := hs x hx
    refine ⟨w, ?_, hw⟩
    rintro rfl
    exact not_uses_of_none hv hw.uses
  | some n =>
    obtain ⟨hothers, -, -, hheld⟩ := closeCall_of_some h hv
    obtain ⟨hx, hnot⟩ := (hheld x).1 hx
    obtain ⟨w, hw⟩ := hs x hx
    have hne : w ≠ v := by
      rintro rfl
      exact hnot hw.uses
    exact ⟨w, hne, hothers.owns hne hw⟩

/-- What is lost stays lost. -/
theorem lost_closeCall (h : Tracked s) (hs : Lost s) (v : V) : Lost (closeCall (some v) s) := by
  cases hv : s.handle v with
  | none => rwa [closeCall_of_none hv]
  | some n =>
    obtain ⟨hothers, hnone, -, hheld⟩ := closeCall_of_some h hv
    obtain ⟨x, hx, hnot⟩ := hs
    refine ⟨x, (hheld x).2 ⟨hx, hnot v⟩, fun w hw => ?_⟩
    by_cases hne : w = v
    · subst hne
      exact not_uses_of_none hnone hw
    · exact hnot w ((hothers.uses_iff hne).1 hw)

/-! ### Opening -/

/-- What becomes of the handle, and what is got for it. -/
inductive Opened (c : Calls) (v : V) (s t : State V) : Prop
  | notFound (hfinds : ¬ c.Finds) (hhandle : t.handle = s.handle) (hsession : t.session = s.session)
      (hheld : t.pool.held = s.pool.held)
  | noMemory (hfinds : c.Finds) (hhandle : t.handle v = none) (hheld : t.pool.held = s.pool.held)
  | session (n : ℕ) (hfinds : c.Finds) (hn : s.pool.next ≤ n) (hhandle : t.handle v = some n)
      (hsession : t.session n = some (n + 1))
      (hheld : t.pool.held = s.pool.held ++ [(n, .session), (n + 1, .dataHandle)])

/-- What an orderly call does. -/
theorem openCall_of_orderly (h : Tracked s) (hc : c.Orderly) (v : V) :
    s.pool.next ≤ (openCall c true (some v) s).2.pool.next ∧
      Others v s (openCall c true (some v) s).2 ∧ Opened c v s (openCall c true (some v) s).2 := by
  obtain ⟨n, left, hn, hkinds, hleaves, hhandle, hsession⟩ := openCall_spec c v s
  obtain ⟨hleft, hdata⟩ := Calls.orderly_iff.1 hc
  obtain rfl : left = [] := List.map_eq_nil_iff.1 (hkinds.trans hleft)
  rw [List.nil_append] at hleaves
  refine ⟨hleaves.next_le, ⟨fun w hw => ?_, fun w m hw hm => ?_⟩, ?_⟩
  · rw [hhandle]
    cases c.reachesSession with
    | false => rfl
    | true => exact Function.update_of_ne hw _ _
  · have hmn : m ≠ n := Nat.ne_of_lt (Nat.lt_of_lt_of_le (h.lt w m ⟨m, hm, .inl rfl⟩) hn)
    rw [hsession]
    cases c.reachesSession && c.session with
    | false => rfl
    | true => exact Function.update_of_ne hmn _ _
  · cases hreaches : c.reachesSession with
    | false =>
      rw [hreaches] at hleaves hhandle hsession
      have hfinds : ¬ c.Finds := by simp [← Calls.reachesSession_iff, hreaches]
      exact .notFound hfinds hhandle hsession (by simpa using hleaves.held)
    | true =>
      have hfinds := Calls.reachesSession_iff.1 hreaches
      rw [hreaches] at hleaves hhandle hsession
      cases hs : c.session with
      | false =>
        refine .noMemory hfinds ?_ (by simpa [Calls.sessionLeft, hs] using hleaves.held)
        simp [hhandle, hs]
      | true =>
        refine .session n hfinds hn ?_ ?_ ?_
        · simp [hhandle, hs]
        · simp [hsession, hs, hdata hreaches hs]
        · simpa [Calls.sessionLeft, hs, hdata hreaches hs] using hleaves.held

/-- What a handle uses after an orderly call it used before, or it is new. -/
theorem uses_openCall (h : Tracked s) (hc : c.Orderly) {w : V} {i : ℕ}
    (hw : Uses (openCall c true (some v) s).2 w i) :
    (Uses s w i ∧ (w = v → ¬ c.Finds)) ∨
      (w = v ∧ s.pool.next ≤ i ∧ i < (openCall c true (some v) s).2.pool.next) := by
  obtain ⟨-, hothers, hopened⟩ := openCall_of_orderly h hc v
  by_cases hne : w = v
  · subst hne
    cases hopened with
    | notFound hfinds hhandle hsession hheld =>
      rw [Uses, hhandle, hsession] at hw
      exact .inl ⟨hw, fun _ => hfinds⟩
    | noMemory hfinds hhandle hheld => exact absurd hw (not_uses_of_none hhandle)
    | session n hfinds hn hhandle hsession hheld =>
      obtain ⟨m, hm, hi⟩ := hw
      obtain rfl := Option.some.inj (hhandle.symm.trans hm)
      have hlt : n + 1 < (openCall c true (some w) s).2.pool.next :=
        Pool.lt _ (n + 1, .dataHandle) (by simp [hheld])
      rcases hi with rfl | hi
      · exact .inr ⟨rfl, hn, Nat.lt_of_succ_lt hlt⟩
      · obtain rfl := Option.some.inj (hsession.symm.trans hi)
        exact .inr ⟨rfl, Nat.le_succ_of_le hn, hlt⟩
  · exact .inl ⟨(hothers.uses_iff hne).1 hw, fun heq => absurd heq hne⟩

theorem tracked_openCall (h : Tracked s) (hc : c.Orderly) (v : V) :
    Tracked (openCall c true (some v) s).2 := by
  obtain ⟨hnext, hothers, hopened⟩ := openCall_of_orderly h hc v
  refine ⟨fun w m hw => ?_, fun w i hw => ?_, fun w w' i hw hw' => ?_⟩
  · cases hopened with
    | notFound hfinds hhandle hsession hheld =>
      rw [hhandle] at hw
      exact hheld ▸ h.live w m hw
    | noMemory hfinds hhandle hheld =>
      have hne : w ≠ v := by
        rintro rfl
        cases hhandle.symm.trans hw
      rw [hothers.handle w hne] at hw
      exact hheld ▸ h.live w m hw
    | session n hfinds hn hhandle hsession hheld =>
      rw [hheld, List.mem_append]
      by_cases hne : w = v
      · subst hne
        obtain rfl := Option.some.inj (hhandle.symm.trans hw)
        exact .inr (by simp)
      · rw [hothers.handle w hne] at hw
        exact .inl (h.live w m hw)
  · rcases uses_openCall h hc hw with ⟨hw, -⟩ | ⟨-, -, hlt⟩
    · exact Nat.lt_of_lt_of_le (h.lt w i hw) hnext
    · exact hlt
  · rcases uses_openCall h hc hw with ⟨hw, -⟩ | ⟨rfl, hle, -⟩
    · rcases uses_openCall h hc hw' with ⟨hw', -⟩ | ⟨-, hle', -⟩
      · exact h.apart w w' i hw hw'
      · exact absurd (h.lt w i hw) (Nat.not_lt.2 hle')
    · rcases uses_openCall h hc hw' with ⟨hw', -⟩ | ⟨rfl, -, -⟩
      · exact absurd (h.lt w' i hw') (Nat.not_lt.2 hle)
      · rfl

/-- Over a handle without a session. -/
theorem kept_openCall (h : Tracked s) (hs : Kept s) (hc : c.Orderly)
    (hnone : c.Finds → s.handle v = none) : Kept (openCall c true (some v) s).2 := by
  obtain ⟨-, hothers, hopened⟩ := openCall_of_orderly h hc v
  have hold : c.Finds → ∀ x ∈ s.pool.held, ∃ w, Owns (openCall c true (some v) s).2 w x := by
    intro hfinds x hx
    obtain ⟨w, hw⟩ := hs x hx
    have hne : w ≠ v := by
      rintro rfl
      exact not_uses_of_none (hnone hfinds) hw.uses
    exact ⟨w, hothers.owns hne hw⟩
  intro x hx
  cases hopened with
  | notFound hfinds hhandle hsession hheld =>
    obtain ⟨w, hw⟩ := hs x (hheld ▸ hx)
    refine ⟨w, ?_⟩
    rwa [Owns, hhandle, hsession]
  | noMemory hfinds hhandle hheld => exact hold hfinds x (hheld ▸ hx)
  | session n hfinds hn hhandle hsession hheld =>
    rw [hheld, List.mem_append] at hx
    rcases hx with hx | hx
    · exact hold hfinds x hx
    · exact ⟨v, n, hhandle, by simpa [hsession] using hx⟩

/-- What is lost stays lost. -/
theorem lost_openCall (h : Tracked s) (hs : Lost s) (hc : c.Orderly) (v : V) :
    Lost (openCall c true (some v) s).2 := by
  obtain ⟨x, hx, hnot⟩ := hs
  obtain ⟨-, -, hopened⟩ := openCall_of_orderly h hc v
  have hmem : x ∈ (openCall c true (some v) s).2.pool.held := by
    cases hopened with
    | notFound hfinds hhandle hsession hheld => exact hheld ▸ hx
    | noMemory hfinds hhandle hheld => exact hheld ▸ hx
    | session n hfinds hn hhandle hsession hheld => exact hheld ▸ List.mem_append_left _ hx
  refine ⟨x, hmem, fun w hw => ?_⟩
  rcases uses_openCall h hc hw with ⟨hw, -⟩ | ⟨-, hle, -⟩
  · exact hnot w hw
  · exact absurd (s.pool.lt x hx) (Nat.not_lt.2 hle)

/-- The session that was there before is lost. -/
theorem lost_of_overwrites (h : Tracked s) (hc : c.Orderly) (hfinds : c.Finds) {n : ℕ}
    (hv : s.handle v = some n) : Lost (openCall c true (some v) s).2 := by
  have hx := h.live v n hv
  obtain ⟨-, -, hopened⟩ := openCall_of_orderly h hc v
  have hmem : (n, .session) ∈ (openCall c true (some v) s).2.pool.held := by
    cases hopened with
    | notFound hnot hhandle hsession hheld => exact absurd hfinds hnot
    | noMemory hfinds hhandle hheld => exact hheld ▸ hx
    | session n hfinds hn hhandle hsession hheld => exact hheld ▸ List.mem_append_left _ hx
  refine ⟨_, hmem, fun w hw => ?_⟩
  rcases uses_openCall h hc hw with ⟨hw, hnot⟩ | ⟨-, hle, -⟩
  · exact hnot (h.apart w v n hw ⟨n, hv, .inl rfl⟩) hfinds
  · exact absurd (s.pool.lt _ hx) (Nat.not_lt.2 hle)

/-! ### Runs -/

def step (s : State V) (e : Event V) : State V := (call s e).2

/-- The state after some calls. -/
def after (es : List (Event V)) : State V := es.foldl step {}

/-- Every call of the sequence cleans up after itself. -/
def CleansUp (es : List (Event V)) : Prop := ∀ pre e, pre ++ [e] <+: es → Clean (after pre) e

/-- The code gets to the session while the variable still has one. -/
def Overwrites (s : State V) : Event V → Prop
  | .openCall c callback clientHandle =>
    callback = true ∧ c.Finds ∧ ∃ v, clientHandle = some v ∧ s.handle v ≠ none
  | .startCall _ _ | .stopCall _ _ | .closeCall _ => False

/-- A session has been overwritten before. -/
def Overwritten (es : List (Event V)) : Prop :=
  ∃ pre e, pre ++ [e] <+: es ∧ Overwrites (after pre) e

/-- A call with its pointers is opened with orderly results, and closed after no session has been
overwritten. -/
def Orderly (pre : List (Event V)) : Event V → Prop
  | .openCall c callback clientHandle =>
    callback = true → clientHandle.isSome = true → c.Orderly
  | .closeCall clientHandle => clientHandle.isSome = true → ¬ Overwritten pre
  | .startCall _ _ | .stopCall _ _ => True

theorem after_snoc (es : List (Event V)) (e : Event V) :
    after (es ++ [e]) = step (after es) e := by
  simp [after]

theorem overwritten_snoc_iff {es : List (Event V)} {e : Event V} :
    Overwritten (es ++ [e]) ↔ Overwritten es ∨ Overwrites (after es) e := by
  constructor
  · rintro ⟨pre, e', hprefix, h⟩
    rcases List.prefix_concat_iff.1 hprefix with heq | hprefix
    · obtain ⟨rfl, rfl⟩ := List.append_singleton_inj.1 heq
      exact .inr h
    · exact .inl ⟨pre, e', hprefix, h⟩
  · rintro (⟨pre, e', hprefix, h⟩ | h)
    · exact ⟨pre, e', hprefix.trans (List.prefix_append _ _), h⟩
    · exact ⟨es, e, List.prefix_rfl, h⟩

/-- What is held belongs to the handles, until a session is overwritten. -/
structure Follows (es : List (Event V)) (s : State V) : Prop where
  tracked : Tracked s
  kept : ¬ Overwritten es → Kept s
  lost : Overwritten es → Lost s

/-- A call that does nothing. -/
theorem Follows.of_eq {es : List (Event V)} {e : Event V} (h : Follows es (after es))
    (hstep : step (after es) e = after es) (he : ¬ Overwrites (after es) e) :
    Follows (es ++ [e]) (after (es ++ [e])) := by
  have hiff : Overwritten (es ++ [e]) ↔ Overwritten es := by simp [overwritten_snoc_iff, he]
  rw [after_snoc, hstep]
  exact ⟨h.tracked, fun hnot => h.kept fun hyes => hnot (hiff.2 hyes), fun hyes =>
    h.lost (hiff.1 hyes)⟩

theorem Follows.openCall {es : List (Event V)} (h : Follows es (after es)) (hc : c.Orderly)
    (v : V) : Follows (es ++ [.openCall c true (some v)])
      (openCall c true (some v) (after es)).2 := by
  have hover : Overwrites (after es) (.openCall c true (some v)) ↔
      c.Finds ∧ (after es).handle v ≠ none := by simp [Overwrites]
  refine ⟨tracked_openCall h.tracked hc v, fun hnot => ?_, fun hyes => ?_⟩
  · rw [overwritten_snoc_iff, hover, not_or, not_and, not_not] at hnot
    exact kept_openCall h.tracked (h.kept hnot.1) hc hnot.2
  · rw [overwritten_snoc_iff, hover] at hyes
    rcases hyes with hyes | ⟨hfinds, hv⟩
    · exact lost_openCall h.tracked (h.lost hyes) hc v
    · obtain ⟨n, hv⟩ := Option.ne_none_iff_exists'.1 hv
      exact lost_of_overwrites h.tracked hc hfinds hv

theorem Follows.closeCall {es : List (Event V)} (h : Follows es (after es)) (v : V) :
    Follows (es ++ [.closeCall (some v)]) (closeCall (some v) (after es)) := by
  have hiff : Overwritten (es ++ [.closeCall (some v)]) ↔ Overwritten es := by
    simp [overwritten_snoc_iff, Overwrites]
  refine ⟨tracked_closeCall h.tracked v, fun hnot x hx => ?_, fun hyes => ?_⟩
  · rw [hiff] at hnot
    obtain ⟨w, -, hw⟩ := owned_closeCall h.tracked (h.kept hnot) hx
    exact ⟨w, hw⟩
  · rw [hiff] at hyes
    exact lost_closeCall h.tracked (h.lost hyes) v

/-- **One call whose opening is orderly.** -/
theorem follows_step {es : List (Event V)} {e : Event V} (h : Follows es (after es))
    (he : ∀ c v, e = .openCall c true (some v) → c.Orderly) :
    Follows (es ++ [e]) (after (es ++ [e])) := by
  cases e with
  | openCall c callback clientHandle =>
    cases clientHandle with
    | none => exact h.of_eq rfl (by simp [Overwrites])
    | some v =>
      cases callback with
      | false => exact h.of_eq rfl (by simp [Overwrites])
      | true =>
        rw [after_snoc]
        exact h.openCall (he c v rfl) v
  | startCall accepted clientHandle => exact h.of_eq rfl id
  | stopCall accepted clientHandle => exact h.of_eq rfl id
  | closeCall clientHandle =>
    cases clientHandle with
    | none => exact h.of_eq rfl id
    | some v =>
      rw [after_snoc]
      exact h.closeCall v

/-- **A sequence of calls whose openings are orderly.** -/
theorem follows_after (es : List (Event V))
    (h : ∀ c v, Event.openCall c true (some v) ∈ es → c.Orderly) : Follows es (after es) := by
  induction es using List.reverseRecOn with
  | nil =>
    have hno : ¬ Overwritten ([] : List (Event V)) := by
      rintro ⟨pre, e, hprefix, -⟩
      simp at hprefix
    exact ⟨tracked_initial, fun _ => kept_initial, fun hyes => absurd hyes hno⟩
  | append_singleton es e ih =>
    refine follows_step (ih fun c v hmem => h c v (List.mem_append_left _ hmem)) ?_
    rintro c v rfl
    exact h c v (List.mem_append_right _ (List.mem_singleton_self _))

/-- A call without its pointers does nothing. -/
theorem clean_of_refused {callback : Bool} {clientHandle : Option V}
    (h : (call s (.openCall c callback clientHandle)).2 = s) :
    Clean s (.openCall c callback clientHandle) := by
  have hnothing : ∀ x ∈ s.pool.held, ¬ s.pool.next ≤ x.1 :=
    fun x hx => Nat.not_le.2 (s.pool.lt x hx)
  rw [Clean, h]
  exact ⟨fun x hx hle => absurd hle (hnothing x hx),
    fun _ => ⟨fun x hx hle => absurd hle (hnothing x hx), fun _ _ => .inr rfl⟩⟩

/-- When the next call cleans up after itself, if the openings have been orderly. -/
theorem clean_after_iff {pre : List (Event V)} {e : Event V} (h : Follows pre (after pre)) :
    Clean (after pre) e ↔ Orderly pre e := by
  cases e with
  | openCall c callback clientHandle =>
    cases clientHandle with
    | none => exact ⟨fun _ _ hsome => absurd hsome (by simp), fun _ => clean_of_refused rfl⟩
    | some v =>
      cases callback with
      | false =>
        exact ⟨fun _ hcallback => absurd hcallback (by simp), fun _ => clean_of_refused rfl⟩
      | true => simp [clean_openCall_iff, Orderly]
  | startCall accepted clientHandle => exact Iff.rfl
  | stopCall accepted clientHandle => exact Iff.rfl
  | closeCall clientHandle =>
    cases clientHandle with
    | none => simp [Clean, CleanFrom, Orderly]
    | some v =>
      constructor
      · intro hclean _ hyes
        obtain ⟨x, hx, hnot⟩ := lost_closeCall h.tracked (h.lost hyes) v
        obtain ⟨w, -, hw⟩ := hclean v rfl x hx
        exact hnot w hw.uses
      · rintro hnot v' hv' x hx
        obtain rfl := Option.some.inj hv'
        exact owned_closeCall h.tracked (h.kept (hnot rfl)) hx

/-- A condition on the calls of a sequence that makes its openings orderly. -/
theorem follows_before {Q : List (Event V) → Event V → Prop} {es : List (Event V)}
    (hQ : ∀ pre c v, Q pre (.openCall c true (some v)) → c.Orderly)
    (h : ∀ pre e, pre ++ [e] <+: es → Q pre e) {pre : List (Event V)} {e : Event V}
    (hpre : pre ++ [e] <+: es) : Follows pre (after pre) := by
  refine follows_after pre fun c v hmem => ?_
  obtain ⟨before, rest, rfl⟩ := List.append_of_mem hmem
  refine hQ before c v (h before _ (List.IsPrefix.trans ?_ hpre))
  exact ⟨rest ++ [e], by simp⟩

/-- **When every call of a sequence cleans up after itself.** -/
theorem cleansUp_iff (es : List (Event V)) :
    CleansUp es ↔ ∀ pre e, pre ++ [e] <+: es → Orderly pre e := by
  constructor
  · intro h pre e hpre
    have hopen : ∀ (pre : List (Event V)) c v,
        Clean (after pre) (.openCall c true (some v)) → c.Orderly :=
      fun _ _ _ => clean_openCall_iff.1
    exact (clean_after_iff (follows_before hopen h hpre)).1 (h pre e hpre)
  · intro h pre e hpre
    have hopen : ∀ (pre : List (Event V)) c v,
        Orderly pre (.openCall c true (some v)) → c.Orderly :=
      fun _ _ _ horderly => horderly rfl rfl
    exact (clean_after_iff (follows_before hopen h hpre)).2 (h pre e hpre)

theorem answered_sample : Answered sampleSettings 0 [⟨0, 4⟩, ⟨0, 7⟩] := by
  intro i e _ _
  by_cases hi : 0 + i = 0
  · exact ⟨_, if_pos hi, rfl⟩
  · exact ⟨_, if_neg hi, rfl⟩

theorem orderly_sample : sampleCalls.Orderly where
  notifier := fun _ => ⟨opens_sample.connects, rfl⟩
  client := fun _ => ⟨rfl, rfl, ⟨_, rfl, answered_sample⟩, rfl⟩
  dataHandle := fun _ _ => rfl

theorem finds_sample : sampleCalls.Finds :=
  ⟨opens_sample.connects, rfl, rfl, _, rfl, _, _, _, first_sample⟩

/-- The sample leaves its variable with a session. -/
theorem handle_sample : (after [.openCall sampleCalls true (some ())]).handle () ≠ none := by
  obtain ⟨n, left, -, -, -, hhandle, -⟩ := openCall_spec sampleCalls () {}
  have hsession : sampleCalls.session = true := rfl
  rw [if_pos (Calls.reachesSession_iff.2 finds_sample), if_pos hsession] at hhandle
  have hafter : (after [.openCall sampleCalls true (some ())]).handle () = some n :=
    (congrFun hhandle ()).trans (Function.update_self _ _ _)
  rw [hafter]
  exact Option.some_ne_none n

/-- Without memory for the list of profiles the client is left; if the service is up but cannot be
listed after the wait, the notifier; without a data handle, the session; and if a second call is
opened for a handle, the session of the first one. -/
theorem not_cleansUp_samples :
    ¬ CleansUp [(.openCall { sampleCalls with profileListResp := false } true (some ()) :
      Event Unit)] ∧
    ¬ CleansUp [(.openCall { sampleCalls with
      init := { sampleCalls.init with populate := false } } true (some ()) : Event Unit)] ∧
    ¬ CleansUp [(.openCall { sampleCalls with dataHandle := false } true (some ()) :
      Event Unit)] ∧
    ¬ CleansUp [(.openCall sampleCalls true (some ()) : Event Unit),
      .openCall sampleCalls true (some ()), .closeCall (some ())] := by
  refine ⟨fun h => ?_, fun h => ?_, fun h => ?_, fun h => ?_⟩
  · have horderly := clean_openCall_iff.1 (h [] _ List.prefix_rfl)
    cases (horderly.client opens_sample.connects).1
  · have horderly := clean_openCall_iff.1 (h [] _ List.prefix_rfl)
    have hconnects := (horderly.notifier rfl).1
    simp [InitCalls.connects, connected] at hconnects
  · have horderly := clean_openCall_iff.1 (h [] _ List.prefix_rfl)
    cases horderly.dataHandle
      ⟨opens_sample.connects, rfl, rfl, _, rfl, _, _, _, first_sample⟩ rfl
  · let twice : List (Event Unit) :=
      [.openCall sampleCalls true (some ()), .openCall sampleCalls true (some ())]
    have hfollows : Follows twice (after twice) := by
      refine follows_after twice fun c v hmem => ?_
      obtain rfl : c = sampleCalls := by simpa [twice] using hmem
      exact orderly_sample
    have hover : Overwritten twice :=
      ⟨[.openCall sampleCalls true (some ())], _, List.prefix_rfl, rfl, finds_sample, (), rfl,
        handle_sample⟩
    exact (clean_after_iff hfollows).1 (h twice _ List.prefix_rfl) rfl hover

end Runs

end DsClient

end Msm8909w
