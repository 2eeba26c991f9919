import Mathlib.Logic.Function.Basic
import Msm8909w.Lib.Pool
import Msm8909w.LocApi.Requests

/-!
# Opening and closing location clients

`locClientQmiCtrlPointInit`, `locClientOpenInstance`, `locClientOpen` and `locClientClose` of
`loc_api_v02_client.c`.  What the QMI library answers is an input (`InitCalls`, `OpenCalls`), what
is held of its handles and of the callback records is a pool, and each call of `qmi_client_release`
is written down.

A client whose error callback cannot be registered is not released, and neither is one that
`locClientClose` fails to close after the events could not be registered.  The variable for the
notifier is not initialised: after a failure to make one, whatever stands in it is released.

* `openInstance`, `locClientOpen`, `locClientClose` : the code,
* `qmiCtrlPointInit_spec`, `openInstance_spec` : what a call comes to, and exactly when it leaves
  nothing behind.
-/

namespace Msm8909w

namespace LocApi

namespace Clients

open LocSync (Status)

/-! ### The code -/

/-- What has to be given back. -/
inductive Resource
  | client
  | notifier
  /-- A `locClientCallbackDataType`. -/
  | callbackData
  deriving DecidableEq, Repr

/-- The fields of a callback record by which it is known to be valid. -/
structure CallbackData where
  userHandle : Option ℕ := none
  pMe : Option ℕ := none
  deriving DecidableEq, Repr

/-- The variables `V` for handles, with the number of a record or
`LOC_CLIENT_INVALID_HANDLE_VALUE`, and the records by their numbers. -/
structure State (V : Type*) where
  pool : Pool Resource := {}
  handle : V → Option ℕ := fun _ => none
  data : ℕ → CallbackData := fun _ => {}
  /-- The calls of `qmi_client_release`, the first one first, and whether they succeed. -/
  releases : List (ℕ × Bool) := []

/-- The results of the calls of `locClientQmiCtrlPointInit`. -/
structure InitCalls where
  /-- `loc_get_service_object_v02` gives an object. -/
  serviceObject : Bool := true
  notifierInit : Bool := true
  /-- What stands in the variable for the notifier if that fails. -/
  notifier : Option ℕ := none
  /-- The lookups, one after the other. -/
  getServiceInstance : List Bool := [true]
  getAnyService : List Bool := [true]
  clientInit : Bool := true
  registerErrorCb : Bool := true
  notifierRelease : Bool := true

/-- The results of the calls of `locClientOpenInstance`. -/
structure OpenCalls where
  /-- The memory for the callback record. -/
  callbackData : Bool := true
  init : InitCalls := {}
  /-- The request for the events, and the release of the client if that fails. -/
  regEvents : Sending := .answered .success
  release : Bool := true

/-- `LOC_CLIENT_MAX_OPEN_RETRIES`. -/
def maxOpenRetries : ℕ := 20

/-- What `getTargetGnssType` tells. -/
inductive GnssType
  | gss
  | qca1530
  | msm
  | mdm
  | auto
  | other
  deriving DecidableEq, Repr

/-- `eLOC_CLIENT_INSTANCE_ID_ANY` and so on. -/
def GnssType.instanceId : GnssType → Int
  | .gss | .msm | .mdm | .other => -1
  | .qca1530 => 1
  | .auto => 0

/-- The lookups that are made for an instance; the loop ends with the first one that succeeds. -/
def InitCalls.lookups (c : InitCalls) (instanceId : Int) : List Bool :=
  if 0 ≤ instanceId then c.getServiceInstance else c.getAnyService

section Code

variable {V : Type*}

def qmiClientRelease (h : ℕ) (ok : Bool) (s : State V) : State V :=
  { s with
    pool := if ok then s.pool.release h else s.pool
    releases := s.releases ++ [(h, ok)] }

/-- The release of the notifier, if there is one. -/
def releaseNotifier (c : InitCalls) (notifier : Option ℕ) (s : State V) : State V :=
  match notifier with
  | some h => qmiClientRelease h c.notifierRelease s
  | none => s

/-- `locClientQmiCtrlPointInit` for the record `r`; `none` if it waits for ever. -/
def qmiCtrlPointInit (c : InitCalls) (instanceId : Int) (r : ℕ) (s : State V) :
    Option (Status × State V) :=
  if !c.serviceObject then some (.failureInternal, s)
  else if !c.notifierInit then some (.failureInternal, releaseNotifier c c.notifier s)
  else
    let notifier := some s.pool.next
    let t := { s with pool := s.pool.acquire .notifier }
    if !(c.lookups instanceId).any id then none
    else if !c.clientInit then some (.failureInternal, releaseNotifier c notifier t)
    else
      let client := t.pool.next
      let u := { t with pool := t.pool.acquire .client }
      -- the client stays as it is
      if !c.registerErrorCb then some (.failureInternal, releaseNotifier c notifier u)
      else
        let data := Function.update u.data r { u.data r with userHandle := some client }
        some (.success, releaseNotifier c notifier { u with data := data })

/-- The check of a handle, for `locClientClose` and `locClientSendReq`: the client of its record. -/
def validClient (s : State V) (v : V) : Option ℕ :=
  (s.handle v).bind fun r => if (s.data r).pMe = some r then (s.data r).userHandle else none

/-- `locClientRegisterEventMask`. -/
def locClientRegisterEventMask (s : State V) (v : V) (sending : Sending) : Bool :=
  locClientSendReq (validClient s v).isSome sending = .success

variable [DecidableEq V]

/-- `locClientClose`; `ok` is the result of the release. -/
def locClientClose (ok : Bool) (pHandle : Option V) (s : State V) : Status × State V :=
  match pHandle with
  | none => (.failureInvalidParameter, s)
  | some v =>
    match s.handle v, validClient s v with
    | some r, some client =>
      let t := qmiClientRelease client ok s
      if !ok then (.failureInternal, t)
      else (.success,
        { t with
          pool := t.pool.release r
          data := Function.update t.data r {}
          handle := Function.update t.handle v none })
    | _, _ => (.failureInvalidHandle, s)

/-- `locClientOpenInstance`; `callbacks` says that the table of callbacks is as it has to be. -/
def openInstance (c : OpenCalls) (instanceId : Int) (callbacks : Bool) (pHandle : Option V)
    (s : State V) : Option (Status × State V) :=
  match pHandle with
  | none => some (.failureInvalidParameter, s)
  | some v =>
    if !callbacks then some (.failureInvalidParameter, s)
    else if !c.callbackData then
      some (.failureInternal, { s with handle := Function.update s.handle v none })
    else
      let r := s.pool.next
      (qmiCtrlPointInit c.init instanceId r
        { s with
          pool := s.pool.acquire .callbackData
          data := Function.update s.data r {} }).map fun (status, t) =>
        if status ≠ .success then
          (status,
            { t with pool := t.pool.release r, handle := Function.update t.handle v none })
        else
          let t' : State V :=
            { t with
              data := Function.update t.data r { t.data r with pMe := some r }
              handle := Function.update t.handle v (some r) }
          if !locClientRegisterEventMask t' v c.regEvents then
            let u := (locClientClose c.release (some v) t').2
            (.failureInternal, { u with handle := Function.update u.handle v none })
          else (.success, t')

/-- The loop of `locClientOpen`, with the number of tries that are left after this one. -/
def tries (calls : ℕ → OpenCalls) (instanceId : Int) (callbacks : Bool) (pHandle : Option V) :
    ℕ → State V → Option (Status × State V)
  | 0, s => openInstance (calls maxOpenRetries) instanceId callbacks pHandle s
  | left + 1, s =>
    (openInstance (calls (maxOpenRetries - (left + 1))) instanceId callbacks pHandle s).bind
      fun (status, t) =>
        if status ≠ .success then tries calls instanceId callbacks pHandle left t
        else some (status, t)

/-- `locClientOpen`. -/
def locClientOpen (calls : ℕ → OpenCalls) (target : GnssType) (callbacks : Bool)
    (pHandle : Option V) (s : State V) : Option (Status × State V) :=
  tries calls target.instanceId callbacks pHandle maxOpenRetries s

end Code

/-! ### The calls of `qmi_client_release` -/

/-- No handle is released again after it has been given back, and none that has been is held. -/
structure Books {V : Type*} (s : State V) : Prop where
  twice : s.releases.Pairwise fun a b => ¬ (a.2 = true ∧ a.1 = b.1)
  gone : ∀ a ∈ s.releases, a.2 = true → a.1 < s.pool.next ∧ ∀ x ∈ s.pool.held, x.1 ≠ a.1

section Books

variable {V : Type*} {s t : State V} {h : ℕ} {k : Resource} {ok : Bool}

theorem books_initial : Books ({} : State V) := ⟨.nil, by simp⟩

/-- A new resource. -/
theorem Books.acquire (hs : Books s) (hpool : t.pool = s.pool.acquire k)
    (hreleases : t.releases = s.releases) : Books t := by
  refine ⟨hreleases ▸ hs.twice, fun a ha hok => ?_⟩
  obtain ⟨hlt, hheld⟩ := hs.gone a (hreleases ▸ ha) hok
  rw [hpool]
  refine ⟨Nat.lt_succ_of_lt hlt, fun x hx => ?_⟩
  rcases List.mem_append.1 hx with hx | hx
  · exact hheld x hx
  · rw [List.mem_singleton.1 hx]
    exact Nat.ne_of_gt hlt

/-- A record is freed. -/
theorem Books.free (hs : Books s) (hpool : t.pool = s.pool.release h)
    (hreleases : t.releases = s.releases) : Books t := by
  refine ⟨hreleases ▸ hs.twice, fun a ha hok => ?_⟩
  obtain ⟨hlt, hheld⟩ := hs.gone a (hreleases ▸ ha) hok
  rw [hpool]
  exact ⟨hlt, fun x hx => hheld x (Pool.mem_held_release.1 hx).1⟩

/-- A handle that is held is released. -/
theorem Books.qmiClientRelease (hs : Books s) (hheld : (h, k) ∈ s.pool.held) :
    Books (qmiClientRelease h ok s) := by
  constructor
  · refine List.pairwise_append.2 ⟨hs.twice, List.pairwise_singleton _ _, ?_⟩
    rintro a ha b hb ⟨hok, heq⟩
    rw [List.mem_singleton.1 hb] at heq
    exact (hs.gone a ha hok).2 _ hheld heq.symm
  · intro a ha hok
    rcases List.mem_append.1 ha with ha | ha
    · obtain ⟨hlt, hnot⟩ := hs.gone a ha hok
      cases ok with
      | false => exact ⟨hlt, hnot⟩
      | true => exact ⟨hlt, fun x hx => hnot x (Pool.mem_held_release.1 hx).1⟩
    · obtain rfl := List.mem_singleton.1 ha
      obtain rfl : ok = true := hok
      exact ⟨s.pool.lt _ hheld, fun x hx => (Pool.mem_held_release.1 hx).2⟩

end Books

/-! ### When a call leaves nothing behind -/

namespace InitCalls

/-- A failure to make a notifier finds the variable empty. -/
def Initialised (c : InitCalls) : Prop :=
  c.serviceObject = true → c.notifierInit = false → c.notifier = none

/-- The results after which the control point leaves nothing but the client of the record behind. -/
structure Orderly (c : InitCalls) : Prop where
  notifierRelease : c.serviceObject = true → c.notifierInit = true → c.notifierRelease = true
  registerErrorCb : c.serviceObject = true → c.notifierInit = true → c.clientInit = true →
    c.registerErrorCb = true

/-- A client is connected. -/
def connects (c : InitCalls) : Prop :=
  c.serviceObject = true ∧ c.notifierInit = true ∧ c.clientInit = true ∧ c.registerErrorCb = true

/-- What is left of the notifier. -/
def notifierLeft (c : InitCalls) (n : ℕ) : List (ℕ × Resource) :=
  if c.notifierRelease then [] else [(n, .notifier)]

theorem notifierLeft_eq_nil_iff {c : InitCalls} {n : ℕ} :
    c.notifierLeft n = [] ↔ c.notifierRelease = true := by
  unfold notifierLeft
  split_ifs with h <;> simp [h]

end InitCalls

section Spec

variable {V : Type*} {c : InitCalls} {instanceId : Int} {r : ℕ} {s t : State V} {st : Status}

theorem releaseNotifier_spec {p : Pool Resource} {n : ℕ} {rest : List (ℕ × Resource)}
    (hs : Books s) (h : p.Leaves s.pool ((n, .notifier) :: rest)) :
    Books (releaseNotifier c (some n) s) ∧
      p.Leaves (releaseNotifier c (some n) s).pool (c.notifierLeft n ++ rest) := by
  have hheld : (n, Resource.notifier) ∈ s.pool.held := by simp [h.held]
  refine ⟨hs.qmiClientRelease hheld, ?_⟩
  cases hrelease : c.notifierRelease with
  | false => simpa [releaseNotifier, qmiClientRelease, InitCalls.notifierLeft, hrelease] using h
  | true =>
    simpa [releaseNotifier, qmiClientRelease, InitCalls.notifierLeft, hrelease] using
      h.release (L := [])

/-- **What the control point comes to.** -/
theorem qmiCtrlPointInit_spec (hc : c.Initialised) (hs : Books s)
    (h : qmiCtrlPointInit c instanceId r s = some (st, t)) :
    Books t ∧ t.handle = s.handle ∧ ∃ left, (left = [] ↔ c.Orderly) ∧
      ((st ≠ .success ∧ ¬ c.connects ∧ s.pool.Leaves t.pool left ∧ t.data = s.data) ∨
        (st = .success ∧ c.connects ∧ ∃ client,
          s.pool.Leaves t.pool (left ++ [(client, .client)]) ∧
          t.data = Function.update s.data r { s.data r with userHandle := some client })) := by
  cases hobject : c.serviceObject with
  | false =>
    simp only [qmiCtrlPointInit, hobject, Bool.not_false, if_true, Option.some.injEq,
      Prod.mk.injEq] at h
    obtain ⟨rfl, rfl⟩ := h
    have horderly : c.Orderly := ⟨by simp [hobject], by simp [hobject]⟩
    exact ⟨hs, rfl, [], by simp [horderly], .inl ⟨by decide, by simp [InitCalls.connects, hobject],
      .refl _, rfl⟩⟩
  | true =>
    cases hinit : c.notifierInit with
    | false =>
      simp only [qmiCtrlPointInit, hobject, hinit, hc hobject hinit, releaseNotifier,
        Bool.not_true, Bool.not_false, Bool.false_eq_true, if_false, if_true, Option.some.injEq,
        Prod.mk.injEq] at h
      obtain ⟨rfl, rfl⟩ := h
      have horderly : c.Orderly := ⟨by simp [hinit], by simp [hinit]⟩
      exact ⟨hs, rfl, [], by simp [horderly], .inl ⟨by decide, by simp [InitCalls.connects, hinit],
        .refl _, rfl⟩⟩
    | true =>
      let u : State V := { s with pool := s.pool.acquire .notifier }
      have hu : Books u := hs.acquire rfl rfl
      have hnotifier : s.pool.Leaves u.pool [(s.pool.next, .notifier)] := .acquire _ _
      cases hfound : (c.lookups instanceId).any id with
      | false => simp [qmiCtrlPointInit, hobject, hinit, hfound] at h
      | true =>
        cases hclient : c.clientInit with
        | false =>
          simp only [qmiCtrlPointInit, hobject, hinit, hfound, hclient, Bool.not_true,
            Bool.not_false, Bool.false_eq_true, if_false, if_true, Option.some.injEq,
            Prod.mk.injEq] at h
          obtain ⟨rfl, rfl⟩ := h
          obtain ⟨hbooks, hleaves⟩ := releaseNotifier_spec (c := c) hu hnotifier
          have horderly : c.Orderly ↔ c.notifierRelease = true :=
            ⟨fun h => h.notifierRelease hobject hinit, fun h => ⟨fun _ _ => h, by simp [hclient]⟩⟩
          exact ⟨hbooks, rfl, c.notifierLeft s.pool.next,
            InitCalls.notifierLeft_eq_nil_iff.trans horderly.symm,
            .inl ⟨by decide, by simp [InitCalls.connects, hclient], by simpa using hleaves, rfl⟩⟩
        | true =>
          let w : State V := { u with pool := u.pool.acquire .client }
          have hw : Books w := hu.acquire rfl rfl
          have hboth : s.pool.Leaves w.pool
              [(s.pool.next, .notifier), (s.pool.next + 1, .client)] :=
            hnotifier.trans (.acquire _ _)
          cases hcb : c.registerErrorCb with
          | false =>
            simp only [qmiCtrlPointInit, hobject, hinit, hfound, hclient, hcb, Bool.not_true,
              Bool.not_false, Bool.false_eq_true, if_false, if_true, Option.some.injEq,
              Prod.mk.injEq] at h
            obtain ⟨rfl, rfl⟩ := h
            obtain ⟨hbooks, hleaves⟩ := releaseNotifier_spec (c := c) hw hboth
            have hdisorderly : ¬ c.Orderly := by
              intro h
              cases hcb.symm.trans (h.registerErrorCb hobject hinit hclient)
            exact ⟨hbooks, rfl, _, by simp [hdisorderly],
              .inl ⟨by decide, by simp [InitCalls.connects, hcb], hleaves, rfl⟩⟩
          | true =>
            simp only [qmiCtrlPointInit, hobject, hinit, hfound, hclient, hcb, Bool.not_true,
              Bool.false_eq_true, if_false, Option.some.injEq, Prod.mk.injEq] at h
            obtain ⟨rfl, rfl⟩ := h
            let w' : State V :=
              { w with
                data := Function.update s.data r
                  { s.data r with userHandle := some (s.pool.next + 1) } }
            have hw' : Books w' := ⟨hw.twice, hw.gone⟩
            obtain ⟨hbooks, hleaves⟩ := releaseNotifier_spec (c := c) hw' hboth
            have horderly : c.Orderly ↔ c.notifierRelease = true :=
              ⟨fun h => h.notifierRelease hobject hinit,
                fun h => ⟨fun _ _ => h, fun _ _ _ => hcb⟩⟩
            exact ⟨hbooks, rfl, c.notifierLeft s.pool.next,
              InitCalls.notifierLeft_eq_nil_iff.trans horderly.symm,
              .inr ⟨rfl, ⟨hobject, hinit, hclient, hcb⟩, s.pool.next + 1, hleaves, rfl⟩⟩

/-- A failure to make a notifier finds the variable for it empty. -/
def OpenCalls.Initialised (c : OpenCalls) : Prop := c.callbackData = true → c.init.Initialised

/-- The results after which `openInstance` leaves nothing behind. -/
structure OpenCalls.Orderly (c : OpenCalls) : Prop where
  init : c.callbackData = true → c.init.Orderly
  /-- A client that cannot register for its events can be released. -/
  release : c.callbackData = true → c.init.connects → c.regEvents ≠ .answered .success →
    c.release = true

theorem locClientRegisterEventMask_iff {v : V} {client : ℕ} {sending : Sending}
    (h : validClient s v = some client) :
    locClientRegisterEventMask s v sending = true ↔ sending = .answered .success := by
  simp [locClientRegisterEventMask, h, locClientSendReq_eq_success]

variable [DecidableEq V] {v : V}

/-- Closing a handle whose client is released. -/
theorem locClientClose_of_valid {client : ℕ} {ok : Bool} (hhandle : s.handle v = some r)
    (hvalid : validClient s v = some client) : locClientClose ok (some v) s =
      if !ok then (.failureInternal, qmiClientRelease client ok s)
      else (.success,
        { qmiClientRelease client ok s with
          pool := (qmiClientRelease client ok s).pool.release r
          data := Function.update s.data r {}
          handle := Function.update s.handle v none }) := by
  simp only [locClientClose, hhandle, hvalid, qmiClientRelease]

/-- What a call with its arguments comes to: no handle, or one with a client; and `clean` says
whether nothing else is held. -/
inductive Outcome (v : V) (s t : State V) (clean : Prop) : Status → Prop
  | refused {st : Status} {new : List (ℕ × Resource)} (hst : st ≠ .success)
      (hhandle : t.handle = Function.update s.handle v none)
      (hpool : s.pool.Leaves t.pool new) (hnew : new = [] ↔ clean) : Outcome v s t clean st
  | opened {r client : ℕ} {new : List (ℕ × Resource)}
      (hhandle : t.handle = Function.update s.handle v (some r))
      (hdata : t.data r = ⟨some client, some r⟩)
      (hpool : s.pool.Leaves t.pool new) (hrecord : (r, .callbackData) ∈ new)
      (hclient : (client, .client) ∈ new) (hlength : 2 ≤ new.length)
      (hnew : new = [(r, .callbackData), (client, .client)] ↔ clean) :
      Outcome v s t clean .success

/-- **What `openInstance` comes to.** -/
theorem openInstance_spec {c : OpenCalls} (hc : c.Initialised) (hs : Books s)
    (h : openInstance c instanceId true (some v) s = some (st, t)) :
    Books t ∧ (∀ r < s.pool.next, t.data r = s.data r) ∧ Outcome v s t c.Orderly st := by
  cases hmemory : c.callbackData with
  | false =>
    simp only [openInstance, hmemory, Bool.not_true, Bool.not_false, Bool.false_eq_true, if_false,
      if_true, Option.some.injEq, Prod.mk.injEq] at h
    obtain ⟨rfl, rfl⟩ := h
    have horderly : c.Orderly := ⟨by simp [hmemory], by simp [hmemory]⟩
    exact ⟨⟨hs.twice, hs.gone⟩, fun _ _ => rfl,
      .refused (by decide) rfl (.refl _) (by simp [horderly])⟩
  | true =>
    simp only [openInstance, hmemory, Bool.not_true, Bool.false_eq_true, if_false,
      Option.map_eq_some_iff] at h
    obtain ⟨⟨st', u⟩, hinit, heq⟩ := h
    let s' : State V :=
      { s with
        pool := s.pool.acquire .callbackData
        data := Function.update s.data s.pool.next {} }
    have hs' : Books s' := hs.acquire rfl rfl
    obtain ⟨hu, hhandle, left, hleft, hcases⟩ := qmiCtrlPointInit_spec (hc hmemory) hs' hinit
    rcases hcases with ⟨hst, hconnects, hpool, hdata⟩ | ⟨rfl, hconnects, client, hpool, hdata⟩
    · simp only [hst, ne_eq, not_false_eq_true, if_true, Prod.mk.injEq] at heq
      obtain ⟨rfl, rfl⟩ := heq
      have horderly : c.Orderly ↔ c.init.Orderly :=
        ⟨fun h => h.init hmemory, fun h => ⟨fun _ => h, fun _ hyes => absurd hyes hconnects⟩⟩
      refine ⟨hu.free rfl rfl, fun r hr => ?_,
        .refused hst ?_ hpool.bracket (hleft.trans horderly.symm)⟩
      · simp only [hdata, s']
        exact Function.update_of_ne (Nat.ne_of_lt hr) _ _
      · simp only [hhandle, s']
    · let t' : State V :=
        { u with
          data := Function.update u.data s.pool.next
            { u.data s.pool.next with pMe := some s.pool.next }
          handle := Function.update u.handle v (some s.pool.next) }
      have hleaves : s.pool.Leaves t'.pool
          ((s.pool.next, .callbackData) :: (left ++ [(client, .client)])) :=
        (Pool.Leaves.acquire s.pool _).trans hpool
      have hrecord : t'.data s.pool.next = ⟨some client, some s.pool.next⟩ := by
        simp [t', hdata, s']
      have hhandle' : t'.handle = Function.update s.handle v (some s.pool.next) := by
        simp only [t', hhandle, s']
      have hvalid : validClient t' v = some client := by
        simp [validClient, hhandle', hrecord]
      have hold : ∀ r < s.pool.next, t'.data r = s.data r := by
        intro r hr
        have hne := Nat.ne_of_lt hr
        simp [t', hdata, s', hne]
      simp only [ne_eq, not_true_eq_false, if_false] at heq
      change (if !locClientRegisterEventMask t' v c.regEvents then _ else (Status.success, t')) =
        (st, t) at heq
      by_cases hevents : c.regEvents = .answered .success
      · rw [(locClientRegisterEventMask_iff hvalid).2 hevents] at heq
        simp only [Bool.not_true, Bool.false_eq_true, if_false, Prod.mk.injEq] at heq
        obtain ⟨rfl, rfl⟩ := heq
        have horderly : c.Orderly ↔ c.init.Orderly :=
          ⟨fun h => h.init hmemory, fun h => ⟨fun _ => h, fun _ _ hno => absurd hevents hno⟩⟩
        refine ⟨⟨hu.twice, hu.gone⟩, hold,
          .opened hhandle' hrecord hleaves (by simp) (by simp) (by simp) ?_⟩
        rw [horderly, ← hleft]
        simp
      · have hmask : locClientRegisterEventMask t' v c.regEvents = false :=
          Bool.eq_false_iff.2 (mt (locClientRegisterEventMask_iff hvalid).1 hevents)
        have hr : t'.handle v = some s.pool.next := by rw [hhandle', Function.update_self]
        have hclose : locClientClose c.release (some v) t' = _ := locClientClose_of_valid hr hvalid
        have hbooks : Books t' := ⟨hu.twice, hu.gone⟩
        have hheld : (client, Resource.client) ∈ t'.pool.held := by simp [hleaves.held]
        rw [hmask, hclose] at heq
        cases hrelease : c.release with
        | false =>
          rw [hrelease] at heq
          simp only [Bool.not_false, if_true, Prod.mk.injEq] at heq
          obtain ⟨rfl, rfl⟩ := heq
          have hdisorderly : ¬ c.Orderly := by
            intro h
            cases hrelease.symm.trans (h.release hmemory hconnects hevents)
          refine ⟨⟨(hbooks.qmiClientRelease hheld).twice, (hbooks.qmiClientRelease hheld).gone⟩,
            hold, .refused (by decide) ?_ hleaves (by simp [hdisorderly])⟩
          simp [qmiClientRelease, hhandle']
        | true =>
          rw [hrelease] at heq
          simp only [Bool.not_true, Bool.not_false, Bool.false_eq_true, if_false, if_true,
            Prod.mk.injEq] at heq
          obtain ⟨rfl, rfl⟩ := heq
          have horderly : c.Orderly ↔ c.init.Orderly :=
            ⟨fun h => h.init hmemory, fun h => ⟨fun _ => h, fun _ _ _ => hrelease⟩⟩
          refine ⟨(hbooks.qmiClientRelease hheld).free rfl rfl, fun r hr => ?_,
            .refused (by decide) ?_ ?_ (hleft.trans horderly.symm)⟩
          · have hne := Nat.ne_of_lt hr
            simpa [hne] using hold r hr
          · simp [hhandle']
          · have hrest := hleaves.release (L := (s.pool.next, Resource.callbackData) :: left)
              (M := [])
            have hdone : s.pool.Leaves ((t'.pool.release client).release s.pool.next) left := by
              simpa using hrest.release (L := [])
            exact hdone

end Spec

end Clients

end LocApi

end Msm8909w
