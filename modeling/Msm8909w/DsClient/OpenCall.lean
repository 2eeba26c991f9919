import Mathlib.Data.List.Basic
import Mathlib.Logic.Function.Basic
import Msm8909w.DsClient.CtrlPoint

/-!
# Opening an emergency call

`ds_client_open_call` of `ds_client.c` connects to the WDS service, gets the list of profiles, asks
for the settings of one profile after the other until one of them supports emergency calls, and
makes a session with a handle of the data service.  All settings go through one buffer.

* `openCall` : the code, with the results of all calls as an input (`Calls`),
* `findProfile_eq_some_iff` : the loop finds the first emergency profile, and nothing of an earlier
  response gets into its result,
* `openCall_success_iff` : exactly when a call is opened, and for which profile.
-/

namespace Msm8909w

namespace DsClient

/-! ### Messages -/

/-- The PDP types of WDS that the code tells apart. -/
inductive PdpType
  | ipv4
  | ipv6
  | ipv4v6
  | other (value : Int)
  deriving DecidableEq, Repr

/-- `DSI_IP_VERSION_4` and so on. -/
inductive IpVersion
  | v4
  | v6
  | v4_6
  deriving DecidableEq, Repr

/-- The entry of the list of profiles, and the identifier in a request for settings. -/
structure Profile where
  profileType : ℕ
  profileIndex : ℕ
  deriving DecidableEq, Repr

/-- What the modem sends about the profiles; `ok` says that `resp.error` is `QMI_ERR_NONE_V01`. -/
structure ListMsg where
  ok : Bool
  profiles : List Profile

/-- What the modem sends about a profile, a field that is not sent being `none`. -/
structure SettingsMsg where
  ok : Bool := true
  supportEmergencyCalls : Option Bool := none
  pdpType : Option PdpType := none

/-- The buffer for these, a field whose flag is not set being `none`; it starts out cleared. -/
structure SettingsResp where
  ok : Bool := true
  supportEmergencyCalls : Option Bool := none
  pdpType : Option PdpType := none

/-- A message overwrites the fields that it has. -/
def SettingsResp.receive (buf : SettingsResp) (m : SettingsMsg) : SettingsResp where
  ok := m.ok
  supportEmergencyCalls := m.supportEmergencyCalls.or buf.supportEmergencyCalls
  pdpType := m.pdpType.or buf.pdpType

/-- In the cleared buffer stands exactly what was sent. -/
theorem SettingsResp.receive_cleared (m : SettingsMsg) :
    SettingsResp.receive {} m = ⟨m.ok, m.supportEmergencyCalls, m.pdpType⟩ := by
  simp [SettingsResp.receive]

/-! ### The code -/

/-- The results of the calls, each of which is made once at most but for the settings. -/
structure Calls where
  init : InitCalls := {}
  /-- The memory for the response with the list, and for the request. -/
  profileListResp : Bool := true
  profileListReq : Bool := true
  /-- The list, or an error of the transport. -/
  profileList : Option ListMsg
  /-- The memory for the responses with settings. -/
  profileSettingsResp : Bool := true
  /-- The answers to the requests for settings. -/
  settings : ℕ → Profile → Option SettingsMsg
  clientRelease : Bool := true
  /-- The memory for the session. -/
  session : Bool := true
  /-- `dsi_get_data_srvc_hndl`. -/
  dataHandle : Bool := true

/-- The translation of the PDP type. -/
def ipVersion : Option PdpType → IpVersion
  | some .ipv4 => .v4
  | some .ipv6 => .v6
  | some .ipv4v6 => .v4_6
  | some (.other _) | none => .v4

/-- `ds_client_get_profile_list`. -/
def getProfileList (c : Calls) (p : Pool Resource) :
    Except Status (List Profile) × Pool Resource :=
  -- nobody has set `ret`, and the response is still cleared
  if !c.profileListReq then (.ok [], p)
  else
    let q := p.acquire .profileListReq
    (match c.profileList with
      | none => .error .failureInternal
      | some m => if m.ok then .ok m.profiles else .error .failureGeneral, q.release p.next)

/-- The loop over the profiles: index and IP version of the emergency profile, if there is one. -/
def findProfile (settings : ℕ → Profile → Option SettingsMsg) :
    ℕ → List Profile → SettingsResp → Except Status (Option (ℕ × IpVersion))
  | _, [], _ => .ok none
  | i, e :: es, buf =>
    match settings i e with
    | none => .error .failureInternal
    | some m =>
      let resp := buf.receive m
      if !resp.ok then .error .failureGeneral
      else if resp.supportEmergencyCalls = some true then
        .ok (some (e.profileIndex, ipVersion resp.pdpType))
      else findProfile settings (i + 1) es {}

/-- What is held, and what the handles of the callers point to; `session` has the
`dsi_net_handle` of each session record. -/
structure State (V : Type*) where
  pool : Pool Resource := {}
  handle : V → Option ℕ := fun _ => none
  session : ℕ → Option ℕ := fun _ => none

/-- What a call returns, and what it writes for its caller. -/
structure Result where
  status : Status
  profileIndex : Option ℕ := none
  pdpType : Option IpVersion := none
  deriving DecidableEq, Repr

section Code

variable {V : Type*} [DecidableEq V]

/-- From the release of the client to the end. -/
def openSession (c : Calls) (v : V) (client : ℕ) (found : Option (ℕ × IpVersion)) (s : State V) :
    Result × State V :=
  let released := if c.clientRelease then s.pool.release client else s.pool
  match found with
  | none => ({ status := .failureGeneral }, { s with pool := released })
  | some (index, version) =>
    let result (status : Status) : Result := ⟨status, some index, some version⟩
    if !c.session then
      (result .failureNotEnoughMemory,
        { s with pool := released, handle := Function.update s.handle v none })
    else
      let t : State V :=
        { pool := released.acquire .session
          handle := Function.update s.handle v (some released.next)
          session := Function.update s.session released.next none }
      if !c.dataHandle then (result .retryLater, t)
      else
        -- a failure to release the client is not made up for
        (result (if c.clientRelease then .success else .failureGeneral),
          { t with
            pool := t.pool.acquire .dataHandle
            session := Function.update t.session released.next (some t.pool.next) })

omit [DecidableEq V] in
/-- `free` at the end of the code. -/
def freeing (n : ℕ) (r : Result × State V) : Result × State V :=
  (r.1, { r.2 with pool := r.2.pool.release n })

/-- From the request for the list on. -/
def openProfiles (c : Calls) (v : V) (client : ℕ) (s : State V) : Result × State V :=
  match getProfileList c s.pool with
  | (.error st, p) => ({ status := st }, { s with pool := p })
  | (.ok profiles, p) =>
    if !c.profileSettingsResp then
      ({ status := .failureNotEnoughMemory }, { s with pool := p })
    else
      let t := { s with pool := p.acquire .profileSettingsResp }
      freeing p.next <| match findProfile c.settings 0 profiles {} with
        | .error st => ({ status := st }, t)
        | .ok found => openSession c v client found t

/-- `ds_client_open_call`. -/
def openCall (c : Calls) (callback : Bool) (clientHandle : Option V) (s : State V) :
    Result × State V :=
  match clientHandle with
  | none => ({ status := .failureGeneral }, s)
  | some v =>
    if !callback then ({ status := .failureGeneral }, s)
    else match qmiCtrlPointInit c.init s.pool with
      | (.error st, p) => ({ status := st }, { s with pool := p })
      | (.ok client, p) =>
        if !c.profileListResp then
          ({ status := .failureNotEnoughMemory }, { s with pool := p })
        else freeing p.next
          (openProfiles c v client { s with pool := p.acquire .profileListResp })

end Code

/-! ### The emergency profile -/

/-- The profile's own response says that emergency calls are supported. -/
def Supports (settings : ℕ → Profile → Option SettingsMsg) (i : ℕ) (e : Profile) (m : SettingsMsg) :
    Prop :=
  settings i e = some m ∧ m.ok = true ∧ m.supportEmergencyCalls = some true

/-- The profile's settings are there, and do not say that. -/
def Denies (settings : ℕ → Profile → Option SettingsMsg) (i : ℕ) (e : Profile) : Prop :=
  ∃ m, settings i e = some m ∧ m.ok = true ∧ m.supportEmergencyCalls ≠ some true

/-- The first profile of the list, which starts with number `k`, that supports emergency calls. -/
structure First (settings : ℕ → Profile → Option SettingsMsg) (k : ℕ) (profiles : List Profile)
    (i : ℕ) (e : Profile) (m : SettingsMsg) : Prop where
  entry : profiles[i]? = some e
  supports : Supports settings (k + i) e m
  before : ∀ j e', j < i → profiles[j]? = some e' → Denies settings (k + j) e'

variable {settings : ℕ → Profile → Option SettingsMsg} {profiles : List Profile} {k i : ℕ}
  {e : Profile} {m : SettingsMsg}

/-- What holds of the profiles before one of a longer list. -/
theorem before_cons_iff {P : ℕ → Profile → Prop} {e₀ : Profile} :
    (∀ j e', j < i + 1 → (e₀ :: profiles)[j]? = some e' → P (k + j) e') ↔
      P k e₀ ∧ ∀ j e', j < i → profiles[j]? = some e' → P (k + 1 + j) e' := by
  constructor
  · intro h
    refine ⟨h 0 e₀ (Nat.succ_pos i) rfl, fun j e' hj he' => ?_⟩
    rw [Nat.add_assoc, Nat.add_comm 1]
    exact h (j + 1) e' (Nat.succ_lt_succ hj) (by simpa using he')
  · rintro ⟨hfirst, hrest⟩ j e' hj he'
    cases j with
    | zero =>
      obtain rfl : e₀ = e' := by simpa using he'
      exact hfirst
    | succ j =>
      have h := hrest j e' (Nat.lt_of_succ_lt_succ hj) (by simpa using he')
      rwa [Nat.add_assoc, Nat.add_comm 1] at h

/-- The first one of a longer list. -/
theorem first_cons_iff {e₀ : Profile} : First settings k (e₀ :: profiles) i e m ↔
    (i = 0 ∧ e = e₀ ∧ Supports settings k e m) ∨
      ∃ i', i = i' + 1 ∧ Denies settings k e₀ ∧ First settings (k + 1) profiles i' e m := by
  constructor
  · rintro ⟨hentry, hsupports, hbefore⟩
    cases i with
    | zero =>
      obtain rfl : e₀ = e := by simpa using hentry
      exact .inl ⟨rfl, rfl, hsupports⟩
    | succ i =>
      obtain ⟨hdenies, hbefore⟩ := before_cons_iff.1 hbefore
      refine .inr ⟨i, rfl, hdenies, by simpa using hentry, ?_, hbefore⟩
      rwa [Nat.add_assoc, Nat.add_comm 1]
  · rintro (⟨rfl, rfl, hsupports⟩ | ⟨i, rfl, hdenies, hentry, hsupports, hbefore⟩)
    · exact ⟨rfl, hsupports, by simp⟩
    · refine ⟨by simpa using hentry, ?_, before_cons_iff.2 ⟨hdenies, hbefore⟩⟩
      rwa [Nat.add_assoc, Nat.add_comm 1] at hsupports

/-- A turn that starts with the cleared buffer sees the profile's own response. -/
theorem findProfile_cons {e₀ : Profile} {m₀ : SettingsMsg} (h : settings k e₀ = some m₀) :
    findProfile settings k (e₀ :: profiles) {} =
      if !m₀.ok then .error .failureGeneral
      else if m₀.supportEmergencyCalls = some true then
        .ok (some (e₀.profileIndex, ipVersion m₀.pdpType))
      else findProfile settings (k + 1) profiles {} := by
  simp only [findProfile, h, SettingsResp.receive_cleared]

/-- **The loop finds the first emergency profile.** -/
theorem findProfile_eq_some_iff {r : ℕ × IpVersion} :
    findProfile settings k profiles {} = .ok (some r) ↔
      ∃ i e m, First settings k profiles i e m ∧ r = (e.profileIndex, ipVersion m.pdpType) := by
  induction profiles generalizing k with
  | nil =>
    refine ⟨fun h => by simp [findProfile] at h, ?_⟩
    rintro ⟨i, e, m, ⟨hentry, -, -⟩, -⟩
    simp at hentry
  | cons e₀ es ih =>
    simp only [first_cons_iff]
    cases hanswer : settings k e₀ with
    | none =>
      refine ⟨fun h => by simp [findProfile, hanswer] at h, ?_⟩
      rintro ⟨i, e, m, ⟨-, rfl, hm, -⟩ | ⟨-, -, ⟨m', hm, -⟩, -⟩, -⟩
      · simp [hanswer] at hm
      · simp [hanswer] at hm
    | some m₀ =>
      rw [findProfile_cons hanswer]
      cases hok : m₀.ok with
      | false =>
        refine ⟨fun h => by simp at h, ?_⟩
        rintro ⟨i, e, m, ⟨-, rfl, hm, hmok, -⟩ | ⟨-, -, ⟨m', hm, hmok, -⟩, -⟩, -⟩
        · obtain rfl := Option.some.inj (hanswer.symm.trans hm)
          simp [hok] at hmok
        · obtain rfl := Option.some.inj (hanswer.symm.trans hm)
          simp [hok] at hmok
      | true =>
        by_cases hsupports : m₀.supportEmergencyCalls = some true
        · simp only [hsupports, Bool.not_true, Bool.false_eq_true, if_false, if_true]
          constructor
          · intro h
            exact ⟨0, e₀, m₀, .inl ⟨rfl, rfl, hanswer, hok, hsupports⟩, by simpa using h.symm⟩
          · rintro ⟨i, e, m, ⟨-, rfl, hm, -⟩ | ⟨-, -, ⟨m', hm, -, hnot⟩, -⟩, rfl⟩
            · obtain rfl := Option.some.inj (hanswer.symm.trans hm)
              rfl
            · obtain rfl := Option.some.inj (hanswer.symm.trans hm)
              exact absurd hsupports hnot
        · simp only [hsupports, Bool.not_true, Bool.false_eq_true, if_false, ih]
          constructor
          · rintro ⟨i, e, m, hfirst, hr⟩
            exact ⟨i + 1, e, m, .inr ⟨i, rfl, ⟨m₀, hanswer, hok, hsupports⟩, hfirst⟩, hr⟩
          · rintro ⟨i, e, m, ⟨-, rfl, hm, -, hyes⟩ | ⟨i', -, -, hfirst⟩, hr⟩
            · obtain rfl := Option.some.inj (hanswer.symm.trans hm)
              exact absurd hyes hsupports
            · exact ⟨i', e, m, hfirst, hr⟩

/-! ### When a call is opened -/

/-- What has to come of the calls: nothing is asked of a lookup but that the service is found in the
end, and nothing of the release of the notifier. -/
structure Opens (c : Calls) : Prop where
  connects : c.init.connects = true
  profileListResp : c.profileListResp = true
  profileListReq : c.profileListReq = true
  profileSettingsResp : c.profileSettingsResp = true
  emergency : ∃ profiles, c.profileList = some ⟨true, profiles⟩ ∧
    ∃ i e m, First c.settings 0 profiles i e m
  clientRelease : c.clientRelease = true
  session : c.session = true
  dataHandle : c.dataHandle = true

section Opens

variable {V : Type*} [DecidableEq V] {c : Calls} {v : V} {client : ℕ} {s : State V}

theorem fst_openSession_some {r : ℕ × IpVersion} :
    (openSession c v client (some r) s).1 =
      ⟨if !c.session then .failureNotEnoughMemory
        else if !c.dataHandle then .retryLater
        else if c.clientRelease then .success else .failureGeneral, some r.1, some r.2⟩ := by
  unfold openSession
  cases c.session with
  | false => rfl
  | true => cases c.dataHandle <;> rfl

theorem fst_getProfileList {p : Pool Resource} : (getProfileList c p).1 = .ok profiles ↔
    (c.profileListReq = false ∧ profiles = []) ∨
      (c.profileListReq = true ∧ c.profileList = some ⟨true, profiles⟩) := by
  unfold getProfileList
  cases c.profileListReq with
  | false => simp [eq_comm]
  | true =>
    rcases c.profileList with _ | ⟨ok, list⟩
    · simp
    · cases ok <;> simp

theorem fst_getProfileList_ne {p : Pool Resource} : (getProfileList c p).1 ≠ .error .success := by
  unfold getProfileList
  cases c.profileListReq with
  | false => simp
  | true =>
    rcases c.profileList with _ | ⟨ok, list⟩
    · simp
    · cases ok <;> simp

/-- What `openProfiles` returns when it has got as far as the loop. -/
theorem fst_openProfiles (hresp : c.profileSettingsResp = true) {p : Pool Resource}
    (hlist : getProfileList c s.pool = (.ok profiles, p)) :
    (openProfiles c v client s).1 =
      match findProfile c.settings 0 profiles {} with
        | .error st => { status := st }
        | .ok found =>
          (openSession c v client found { s with pool := p.acquire .profileSettingsResp }).1 := by
  simp only [openProfiles, hlist, hresp, Bool.not_true, Bool.false_eq_true, if_false, freeing]
  cases findProfile c.settings 0 profiles {} with
  | error st => rfl
  | ok found => rfl

theorem findProfile_ne_error_success {k : ℕ} {buf : SettingsResp} :
    findProfile settings k profiles buf ≠ .error .success := by
  induction profiles generalizing k buf with
  | nil => simp [findProfile]
  | cons e es ih =>
    rw [findProfile]
    cases settings k e with
    | none => simp
    | some m =>
      simp only
      split_ifs
      · simp
      · simp
      · exact ih

/-- The call gets as far as the loop, and the loop finds a profile. -/
theorem openProfiles_of_found {r : ℕ × IpVersion} (hreq : c.profileListReq = true)
    (hresp : c.profileSettingsResp = true) (hlist : c.profileList = some ⟨true, profiles⟩)
    (hfound : findProfile c.settings 0 profiles {} = .ok (some r)) :
    (openProfiles c v client s).1 =
      ⟨if !c.session then .failureNotEnoughMemory
        else if !c.dataHandle then .retryLater
        else if c.clientRelease then .success else .failureGeneral, some r.1, some r.2⟩ := by
  have hget : (getProfileList c s.pool).1 = .ok profiles :=
    fst_getProfileList.2 (.inr ⟨hreq, hlist⟩)
  rw [fst_openProfiles hresp (Prod.ext_iff.2 ⟨hget, rfl⟩), hfound]
  exact fst_openSession_some

theorem status_eq_success_iff : (if !c.session then Status.failureNotEnoughMemory
    else if !c.dataHandle then .retryLater
    else if c.clientRelease then .success else .failureGeneral) = .success ↔
      c.clientRelease = true ∧ c.session = true ∧ c.dataHandle = true := by
  cases c.session <;> cases c.dataHandle <;> cases c.clientRelease <;> decide

/-- **From the list on.** -/
theorem openProfiles_success_iff : (openProfiles c v client s).1.status = .success ↔
    c.profileListReq = true ∧ c.profileSettingsResp = true ∧
      (∃ profiles, c.profileList = some ⟨true, profiles⟩ ∧
        ∃ i e m, First c.settings 0 profiles i e m) ∧
      c.clientRelease = true ∧ c.session = true ∧ c.dataHandle = true := by
  constructor
  · intro h
    rcases hget : getProfileList c s.pool with ⟨st | profiles, p⟩
    · simp only [openProfiles, hget] at h
      exact absurd (by rw [hget, h]) (fst_getProfileList_ne (c := c) (p := s.pool))
    · cases hresp : c.profileSettingsResp with
      | false => simp [openProfiles, hget, hresp] at h
      | true =>
        rw [fst_openProfiles hresp hget] at h
        cases hfound : findProfile c.settings 0 profiles {} with
        | error st =>
          simp only [hfound] at h
          have hne : findProfile c.settings 0 profiles {} ≠ .error .success :=
            findProfile_ne_error_success
          exact absurd (by rw [hfound, h]) hne
        | ok found =>
          cases found with
          | none => simp [hfound, openSession] at h
          | some r =>
            simp only [hfound, fst_openSession_some, status_eq_success_iff] at h
            rcases fst_getProfileList.1 (congrArg Prod.fst hget) with ⟨-, rfl⟩ | ⟨hreq, hlist⟩
            · simp [findProfile] at hfound
            · obtain ⟨i, e, m, hfirst, -⟩ := findProfile_eq_some_iff.1 hfound
              exact ⟨hreq, rfl, ⟨profiles, hlist, i, e, m, hfirst⟩, h⟩
  · rintro ⟨hreq, hresp, ⟨profiles, hlist, i, e, m, hfirst⟩, h⟩
    rw [openProfiles_of_found hreq hresp hlist
      (findProfile_eq_some_iff.2 ⟨i, e, m, hfirst, rfl⟩)]
    exact status_eq_success_iff.2 h

/-- What a call with its pointers returns, once a client is connected. -/
theorem exists_openCall_eq (hconnects : c.init.connects = true)
    (hresp : c.profileListResp = true) (v : V) (s : State V) :
    ∃ client t, (openCall c true (some v) s).1 = (openProfiles c v client t).1 := by
  obtain ⟨client, q, hinit, -⟩ := qmiCtrlPointInit_of_connects (p := s.pool) hconnects
  refine ⟨client, { s with pool := q.acquire .profileListResp }, ?_⟩
  simp only [openCall, hinit, hresp, freeing, Bool.not_true, Bool.false_eq_true, if_false]

/-- A call that is opened has got as far as the list. -/
theorem connects_of_success {callback : Bool} {clientHandle : Option V}
    (h : (openCall c callback clientHandle s).1.status = .success) :
    callback = true ∧ clientHandle.isSome = true ∧ c.init.connects = true ∧
      c.profileListResp = true := by
  cases clientHandle with
  | none => simp [openCall] at h
  | some v =>
    cases callback with
    | false => simp [openCall] at h
    | true =>
      refine ⟨rfl, rfl, ?_⟩
      cases hconnects : c.init.connects with
      | false =>
        obtain ⟨st, q, hinit, hst, -⟩ := qmiCtrlPointInit_of_not_connects (p := s.pool) hconnects
        simp only [openCall, hinit] at h
        exact absurd h hst
      | true =>
        obtain ⟨client, q, hinit, -⟩ := qmiCtrlPointInit_of_connects (p := s.pool) hconnects
        cases hresp : c.profileListResp with
        | false => simp [openCall, hinit, hresp] at h
        | true => exact ⟨rfl, rfl⟩

/-- When a call with its pointers is opened. -/
theorem success_iff_opens {v : V} :
    (openCall c true (some v) s).1.status = .success ↔ Opens c := by
  constructor
  · intro h
    obtain ⟨-, -, hconnects, hresp⟩ := connects_of_success h
    obtain ⟨client, t, heq⟩ := exists_openCall_eq hconnects hresp v s
    rw [heq, openProfiles_success_iff] at h
    obtain ⟨hreq, hsettings, hemergency, hrelease, hsession, hdata⟩ := h
    exact ⟨hconnects, hresp, hreq, hsettings, hemergency, hrelease, hsession, hdata⟩
  · intro h
    obtain ⟨client, t, heq⟩ := exists_openCall_eq h.connects h.profileListResp v s
    rw [heq, openProfiles_success_iff]
    exact ⟨h.profileListReq, h.profileSettingsResp, h.emergency, h.clientRelease, h.session,
      h.dataHandle⟩

/-- **When a call is opened, and for which profile.** -/
theorem openCall_success_iff (c : Calls) (callback : Bool) (clientHandle : Option V)
    (s : State V) :
    ((openCall c callback clientHandle s).1.status = .success ↔
      callback = true ∧ clientHandle.isSome = true ∧ Opens c) ∧
    ∀ profiles i e m, (openCall c callback clientHandle s).1.status = .success →
      c.profileList = some ⟨true, profiles⟩ → First c.settings 0 profiles i e m →
      (openCall c callback clientHandle s).1 =
        ⟨.success, some e.profileIndex, some (ipVersion m.pdpType)⟩ := by
  constructor
  · constructor
    · intro h
      obtain ⟨rfl, hhandle, -⟩ := connects_of_success h
      obtain ⟨v, rfl⟩ := Option.isSome_iff_exists.1 hhandle
      exact ⟨rfl, rfl, success_iff_opens.1 h⟩
    · rintro ⟨rfl, hhandle, h⟩
      obtain ⟨v, rfl⟩ := Option.isSome_iff_exists.1 hhandle
      exact success_iff_opens.2 h
  · intro profiles i e m h hlist hfirst
    obtain ⟨rfl, hhandle, hconnects, hresp⟩ := connects_of_success h
    obtain ⟨v, rfl⟩ := Option.isSome_iff_exists.1 hhandle
    obtain ⟨client, t, heq⟩ := exists_openCall_eq hconnects hresp v s
    rw [heq] at h ⊢
    obtain ⟨hreq, hsettings, -, hrest⟩ := openProfiles_success_iff.1 h
    rw [openProfiles_of_found hreq hsettings hlist
      (findProfile_eq_some_iff.2 ⟨i, e, m, hfirst, rfl⟩), status_eq_success_iff.2 hrest]

/-- Two profiles: the first one sends a PDP type, the second one supports emergency calls. -/
def sampleSettings (i : ℕ) (_ : Profile) : Option SettingsMsg :=
  if i = 0 then some { pdpType := some .ipv6 }
  else some { supportEmergencyCalls := some true }

/-- The service comes up while the code waits for it. -/
def sampleCalls : Calls where
  init := { serviceList := none, rounds := fun _ => { first := some 1 } }
  profileList := some ⟨true, [⟨0, 4⟩, ⟨0, 7⟩]⟩
  settings := sampleSettings

theorem first_sample : First sampleSettings 0 [⟨0, 4⟩, ⟨0, 7⟩] 1 ⟨0, 7⟩
    { supportEmergencyCalls := some true } := by
  refine ⟨rfl, ⟨rfl, rfl, rfl⟩, ?_⟩
  intro j e' hj he'
  obtain rfl : j = 0 := by omega
  obtain rfl : (⟨0, 4⟩ : Profile) = e' := by simpa using he'
  exact ⟨_, rfl, rfl, by decide⟩

theorem opens_sample : Opens sampleCalls where
  connects := by
    simp [InitCalls.connects, InitCalls.lookup, connected, sampleCalls, waitForService]
  profileListResp := rfl
  profileListReq := rfl
  profileSettingsResp := rfl
  emergency := ⟨_, rfl, _, _, _, first_sample⟩
  clientRelease := rfl
  session := rfl
  dataHandle := rfl

/-- The second profile is chosen, and the PDP type of the first one is forgotten. -/
theorem openCall_success_sample :
    (openCall sampleCalls true (some ()) {}).1 = ⟨.success, some 7, some .v4⟩ := by
  obtain ⟨hiff, hfirst⟩ := openCall_success_iff sampleCalls true (some ()) {}
  exact hfirst _ _ _ _ (hiff.2 ⟨rfl, rfl, opens_sample⟩) rfl first_sample

/-- No call fails. -/
structure AllSucceed (c : Calls) : Prop where
  serviceObject : c.init.serviceObject = true
  serviceList : c.init.serviceList.isSome = true
  serviceInfo : c.init.serviceInfo = true
  populate : c.init.populate = true
  clientInit : c.init.clientInit = true
  profileListResp : c.profileListResp = true
  profileListReq : c.profileListReq = true
  profileSettingsResp : c.profileSettingsResp = true
  /-- The list is there, and the settings of each profile up to the first emergency profile. -/
  profiles : ∃ profiles, c.profileList = some ⟨true, profiles⟩ ∧
    ∀ i e, profiles[i]? = some e →
      (∀ j e', j < i → profiles[j]? = some e' → Denies c.settings j e') →
      ∃ m, c.settings i e = some m ∧ m.ok = true
  clientRelease : c.clientRelease = true
  session : c.session = true
  dataHandle : c.dataHandle = true

/-- Some profile of the list supports emergency calls. -/
def SomeSupports (c : Calls) : Prop :=
  ∃ profiles, c.profileList = some ⟨true, profiles⟩ ∧
    ∃ i e m, profiles[i]? = some e ∧ Supports c.settings i e m

/-- A lookup may fail first and be made up for, and it may find no service without failing. -/
theorem not_allSucceed_iff_samples :
    ¬ ((openCall sampleCalls true (some ()) {}).1.status = .success ↔
      AllSucceed sampleCalls ∧ SomeSupports sampleCalls) ∧
    ¬ ((openCall { sampleCalls with init := { serviceList := some 0 } } true (some ())
        {}).1.status = .success ↔
      AllSucceed { sampleCalls with init := { serviceList := some 0 } } ∧
        SomeSupports { sampleCalls with init := { serviceList := some 0 } }) := by
  constructor
  · intro h
    cases (h.1 (success_iff_opens.2 opens_sample)).1.serviceList
  · intro h
    have hsettings : ∀ i e, ∃ m, sampleCalls.settings i e = some m ∧ m.ok = true := by
      intro i e
      by_cases hi : i = 0
      · exact ⟨_, if_pos hi, rfl⟩
      · exact ⟨_, if_neg hi, rfl⟩
    have hall : AllSucceed { sampleCalls with init := { serviceList := some 0 } } :=
      ⟨rfl, rfl, rfl, rfl, rfl, rfl, rfl, rfl, ⟨_, rfl, fun i e _ _ => hsettings i e⟩, rfl, rfl,
        rfl⟩
    have hsome : SomeSupports { sampleCalls with init := { serviceList := some 0 } } :=
      ⟨_, rfl, _, _, _, first_sample.entry, first_sample.supports⟩
    cases h.2 ⟨hall, hsome⟩

end Opens

end DsClient

end Msm8909w
