import Mathlib.Tactic.SplitIfs
import Msm8909w.Lib.Pool

/-!
# The WDS client of a data call

`ds_client_qmi_ctrl_point_init` of `ds_client.c` looks the WDS service up, waits for it with a
notifier if it is not there yet, and connects a QMI client to it.  What the QMI library and the
allocator answer is an input (`InitCalls`), and what the program holds of them is a pool.

Every failure after the notifier was made leaves the notifier behind, because the code jumps over
its release (`qmiCtrlPointInit_of_not_connects`).
-/

namespace Msm8909w

namespace DsClient

/-- `ds_client_status_enum_type`, as far as this file uses it. -/
inductive Status
  | success
  | failureGeneral
  | failureTimeout
  | failureInternal
  | failureNotEnoughMemory
  | retryLater
  deriving DecidableEq, Repr

/-- What the program gets and has to give back. -/
inductive Resource
  | wdsClient
  | notifier
  | serviceInfo
  | profileListReq
  | profileListResp
  | profileSettingsResp
  /-- A `ds_client_session_data`. -/
  | session
  /-- A handle of the data service. -/
  | dataHandle
  deriving DecidableEq, Repr

/-- `DS_CLIENT_SERVICE_TIMEOUT` and `DS_CLIENT_SERVICE_TIMEOUT_TOTAL`. -/
def serviceTimeout : ℕ := 4000
def serviceTimeoutTotal : ℕ := 40000

/-- One round of the wait for the service; a query gives the number of services, or an error. -/
structure Round where
  first : Option ℕ := none
  /-- `QMI_CCI_OS_SIGNAL_TIMED_OUT`. -/
  timedOut : Bool := true
  second : Option ℕ := none

/-- The results of the calls, each of which is made once at most. -/
structure InitCalls where
  /-- `wds_get_service_object_v01` gives an object. -/
  serviceObject : Bool := true
  /-- The first `qmi_client_get_service_list`. -/
  serviceList : Option ℕ := some 1
  notifierInit : Bool := true
  rounds : ℕ → Round := fun _ => {}
  /-- The memory for the list of services, and the call that fills it. -/
  serviceInfo : Bool := true
  populate : Bool := true
  clientInit : Bool := true
  notifierRelease : Bool := true

/-- The loop that waits for the service: what the last query gave, and `no_signal`. -/
def waitForService (rounds : ℕ → Round) (i timeout : ℕ) (noSignal : Bool) : Option ℕ × Bool :=
  match (rounds i).first with
  | some n => (some n, noSignal)
  | none =>
    if !(rounds i).timedOut then ((rounds i).second, false)
    else if timeout + serviceTimeout < serviceTimeoutTotal then
      waitForService rounds (i + 1) (timeout + serviceTimeout) true
    else (none, true)
termination_by serviceTimeoutTotal - timeout
decreasing_by
  simp only [serviceTimeout, serviceTimeoutTotal] at *
  omega

/-- `if(notifier) qmi_client_release(notifier)`; nobody looks at the result. -/
def releaseNotifier (c : InitCalls) (notifier : Option ℕ) (p : Pool Resource) : Pool Resource :=
  match notifier with
  | some i => if c.notifierRelease then p.release i else p
  | none => p

/-- From the lookup to the end: the client, or the status. -/
def connect (c : InitCalls) (lookup : Option ℕ × Bool) (notifier : Option ℕ) (p : Pool Resource) :
    Except Status ℕ × Pool Resource :=
  match lookup.1 with
  | none | some 0 => (.error (if lookup.2 then .failureTimeout else .failureInternal), p)
  | some (_ + 1) =>
    if !c.serviceInfo then (.error .failureInternal, p)
    else
      let q := p.acquire .serviceInfo
      if !c.populate || !c.clientInit then (.error .failureInternal, q.release p.next)
      else
        -- this is the only place where the notifier is released
        (.ok q.next, (releaseNotifier c notifier (q.acquire .wdsClient)).release p.next)

/-- `ds_client_qmi_ctrl_point_init`. -/
def qmiCtrlPointInit (c : InitCalls) (p : Pool Resource) : Except Status ℕ × Pool Resource :=
  if !c.serviceObject then (.error .failureInternal, p)
  else match c.serviceList with
    | some n => connect c (some n, false) none p
    | none =>
      if !c.notifierInit then (.error .failureInternal, p)
      else connect c (waitForService c.rounds 0 0 false) (some p.next) (p.acquire .notifier)

/-! ### What comes of it -/

/-- The lookup has found the service, and the client is connected. -/
def connected (c : InitCalls) (lookup : Option ℕ × Bool) : Bool :=
  lookup.1.any (0 < ·) && c.serviceInfo && c.populate && c.clientInit

namespace InitCalls

variable (c : InitCalls)

/-- What the lookup ends with. -/
def lookup : Option ℕ × Bool :=
  match c.serviceList with
  | some n => (some n, false)
  | none => if c.notifierInit then waitForService c.rounds 0 0 false else (none, false)

/-- A client is connected to the service. -/
def connects : Bool := c.serviceObject && connected c c.lookup

/-- A notifier is made. -/
def waits : Bool := c.serviceObject && c.serviceList.isNone && c.notifierInit

/-- A notifier is made and not released. -/
def keepsNotifier : Bool := c.waits && !(c.connects && c.notifierRelease)

/-- The notifier that is left behind. -/
def left (p : Pool Resource) : List (ℕ × Resource) :=
  if c.keepsNotifier then [(p.next, .notifier)] else []

end InitCalls

variable {c : InitCalls} {lookup : Option ℕ × Bool} {p : Pool Resource}

theorem connect_of_not_connected {notifier : Option ℕ} (h : connected c lookup = false) :
    ∃ st q, connect c lookup notifier p = (.error st, q) ∧ st ≠ .success ∧ p.Leaves q [] := by
  obtain ⟨services, noSignal⟩ := lookup
  unfold connect
  rcases services with _ | _ | n
  · exact ⟨_, _, rfl, by cases noSignal <;> decide, .refl p⟩
  · exact ⟨_, _, rfl, by cases noSignal <;> decide, .refl p⟩
  · cases hinfo : c.serviceInfo with
    | false => exact ⟨_, _, rfl, by decide, .refl p⟩
    | true =>
      have hrest : (!c.populate || !c.clientInit) = true := by
        cases hpopulate : c.populate with
        | false => rfl
        | true => simpa [connected, hinfo, hpopulate] using h
      simp only [hrest, Bool.not_true, Bool.false_eq_true, if_false, if_true]
      exact ⟨_, _, rfl, by decide, (Pool.Leaves.refl _).bracket⟩

theorem connect_of_connected {notifier : Option ℕ} (h : connected c lookup = true) :
    connect c lookup notifier p = (.ok (p.next + 1), (releaseNotifier c notifier
      ((p.acquire .serviceInfo).acquire .wdsClient)).release p.next) := by
  obtain ⟨services, noSignal⟩ := lookup
  rcases services with _ | _ | n
  · simp [connected] at h
  · simp [connected] at h
  · obtain ⟨⟨hinfo, hpopulate⟩, hinit⟩ : (c.serviceInfo = true ∧ c.populate = true) ∧
        c.clientInit = true := by simpa [connected] using h
    simp [connect, hinfo, hpopulate, hinit]

/-- A client is connected: it is left, and a notifier whose release has failed. -/
theorem qmiCtrlPointInit_of_connects (h : c.connects = true) :
    ∃ client q, qmiCtrlPointInit c p = (.ok client, q) ∧
      p.Leaves q (c.left p ++ [(client, .wdsClient)]) := by
  have hconnects := h
  simp only [InitCalls.connects, Bool.and_eq_true] at h
  obtain ⟨hobject, hconn⟩ := h
  simp only [qmiCtrlPointInit, InitCalls.left, InitCalls.keepsNotifier, InitCalls.waits,
    hconnects, hobject]
  rw [InitCalls.lookup] at hconn
  cases hlist : c.serviceList with
  | some n =>
    rw [hlist] at hconn
    refine ⟨_, _, connect_of_connected hconn, ?_⟩
    exact ((Pool.Leaves.acquire p _).trans (.acquire _ _)).release (L := [])
  | none =>
    rw [hlist] at hconn
    cases hinit : c.notifierInit with
    | false => simp [hinit, connected] at hconn
    | true =>
      rw [hinit] at hconn
      refine ⟨_, _, connect_of_connected hconn, ?_⟩
      have hall := ((Pool.Leaves.acquire p Resource.notifier).trans (.acquire _ .serviceInfo)).trans
        (.acquire _ .wdsClient)
      cases hrelease : c.notifierRelease with
      | false =>
        simp only [releaseNotifier, hrelease]
        exact hall.release (L := [(p.next, Resource.notifier)])
      | true =>
        simp only [releaseNotifier, hrelease]
        exact (hall.release (L := [])).release (L := [])

/-- No client is connected: a notifier is left if one was made. -/
theorem qmiCtrlPointInit_of_not_connects (h : c.connects = false) :
    ∃ st q, qmiCtrlPointInit c p = (.error st, q) ∧ st ≠ .success ∧ p.Leaves q (c.left p) := by
  have hconnects := h
  simp only [InitCalls.connects, Bool.and_eq_false_iff] at h
  simp only [qmiCtrlPointInit, InitCalls.left, InitCalls.keepsNotifier, InitCalls.waits,
    hconnects]
  cases hobject : c.serviceObject with
  | false => exact ⟨_, _, rfl, by decide, .refl p⟩
  | true =>
    have hconn := h.resolve_left (by simp [hobject])
    rw [InitCalls.lookup] at hconn
    cases hlist : c.serviceList with
    | some n =>
      rw [hlist] at hconn
      exact connect_of_not_connected hconn
    | none =>
      cases hinit : c.notifierInit with
      | false => exact ⟨_, _, rfl, by decide, .refl p⟩
      | true =>
        rw [hlist, hinit] at hconn
        obtain ⟨st, q, heq, hst, hleaves⟩ := connect_of_not_connected hconn
        exact ⟨st, q, heq, hst, (Pool.Leaves.acquire p _).trans hleaves⟩

end DsClient

end Msm8909w
