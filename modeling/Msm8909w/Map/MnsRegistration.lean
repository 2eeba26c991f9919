import Msm8909w.Map.Mns

/-!
# Registration follows the last request

`MNS_CONNECT` and `MNS_DISCONNECT` for several instances cross with the outcome of the connection
attempt and with the threads that disconnect.  The requests `handled` so far say which instances are
to be registered; `Agrees` relates them to the waiting and the registered ones.

* `registration_follows` : at the end of a run without the crossings that `Uncrossed` excludes, an
  instance is registered only if its last request was `MNS_CONNECT`, and it is registered if the
  session was established for that request,
* `registered_after_disconnect` : a `MNS_DISCONNECT` while the instance waits is lost.
-/

namespace Msm8909w

namespace Map

namespace Mns

/-! ### Requests -/

section Requests

variable {l : List Request} {r : Request} {masId m : ℤ}

/-- The last request for an instance. -/
def lastRequest (masId : ℤ) (l : List Request) : Option Request :=
  (l.filter fun r => r.masId = masId).getLast?

theorem lastRequest_append_same : lastRequest r.masId (l ++ [r]) = some r := by
  simp [lastRequest, List.filter_append]

theorem lastRequest_append_of_ne (h : r.masId ≠ m) :
    lastRequest m (l ++ [r]) = lastRequest m l := by
  simp [lastRequest, List.filter_append, h]

theorem lastRequest_append_connect (h : m = masId ∨ lastRequest m l = some (.connect m)) :
    lastRequest m (l ++ [.connect masId]) = some (.connect m) := by
  by_cases hm : m = masId
  · subst hm
    exact lastRequest_append_same (r := .connect m)
  · rw [lastRequest_append_of_ne (r := .connect masId) (Ne.symm hm)]
    exact h.resolve_left hm

theorem mem_of_lastRequest (h : lastRequest m l = some r) : r ∈ l ∧ r.masId = m := by
  have hmem := List.mem_of_getLast? h
  simpa using hmem

end Requests

namespace Registration

variable {size : ℕ} {s t : Registration} {masId m : ℤ} {obex off : Bool} {i : ℕ} {w w' : Worker}
  {r : Request} {rs : List Request}

/-! ### The condition -/

/-- No worker stands between `canDisconnect` and `stop`. -/
def NoStop (s : Registration) : Prop := ∀ w ∈ s.workers, w ≠ .stop false ∧ w ≠ .stop true

instance : Decidable s.NoStop := inferInstanceAs (Decidable (∀ w ∈ s.workers, _ ∧ _))

/-- The instance can be registered: no worker is about to deregister it or to stop the session. -/
def Registrable (s : Registration) (masId : ℤ) : Prop := .deregister masId ∉ s.workers ∧ s.NoStop

instance : Decidable (s.Registrable masId) := inferInstanceAs (Decidable (_ ∧ _))

/-- A `MNS_DISCONNECT` is not handled while its instance waits, and an instance is registered only
when it is registrable. -/
def Uncrossed (s : Registration) : Action → Bool
  | .handleRequest _ =>
    match s.messages.head? with
    | some (.connect masId) => s.mSession = some true → s.Registrable masId
    | some (.disconnect masId) => masId ∉ s.mWaitingMasId
    | none => true
  | .handleOutcome _ =>
    s.outcomes.head? = some .rfcommConnected → ∀ masId ∈ s.mWaitingMasId, s.Registrable masId
  | _ => true

/-- The steps that the requests, the connection attempts and the workers take: requests are for
instances that there are, their content observers do not throw, and the session does not fail. -/
def InScope (size : ℕ) : Action → Bool
  | .request r => assertMasid size r.masId
  | .handleRequest ok => ok
  | .handleSessionError => false
  | .handleBluetoothOff => false
  | _ => true

/-! ### The invariant -/

/-- The requests, the attempt and the clients agree. -/
structure Agrees (size : ℕ) (s : Registration) : Prop where
  log : s.handled ++ s.messages = s.requested
  valid : ∀ r ∈ s.requested, assertMasid size r.masId
  waiting : ∀ m ∈ s.mWaitingMasId, lastRequest m s.handled = some (.connect m)
  registered : ∀ m ∈ s.registered,
    lastRequest m s.handled = some (.connect m) ∨ .deregister m ∈ s.workers
  attempt : s.connectThreads + s.outcomes.length = if s.mWaitingMasId = ∅ then 0 else 1
  unconnected : 0 < s.connectThreads + s.outcomes.length → s.mSession ≠ some true
  established : ∀ m ∈ s.established, m ∈ s.registered ∧ s.mSession = some true ∧
    lastRequest m s.handled = some (.connect m) ∧ .deregister m ∉ s.workers
  stopping : ∀ off, .stop off ∈ s.workers → s.established = ∅
  plain : ∀ w ∈ s.workers, w ≠ .canDisconnect true ∧ w ≠ .stop true ∧ w ≠ .mnsCleanupInstances
  clients : ∀ m ∈ s.registered, assertMasid size m

theorem agrees_initial : Agrees size initial where
  log := rfl
  valid := nofun
  waiting := nofun
  registered := nofun
  attempt := rfl
  unconnected := nofun
  established := nofun
  stopping := nofun
  plain := nofun
  clients := nofun

theorem Agrees.handled_valid (hs : Agrees size s) (hm : lastRequest m s.handled = some r) :
    assertMasid size m = true := by
  obtain ⟨hmem, rfl⟩ := mem_of_lastRequest hm
  exact hs.valid r (hs.log ▸ List.mem_append_left _ hmem)

/-- While an attempt is under way no instance has an established session. -/
theorem Agrees.established_eq_empty (hs : Agrees size s) (hw : s.mWaitingMasId ≠ ∅) :
    s.established = ∅ := by
  have hattempt := hs.attempt
  rw [if_neg hw] at hattempt
  refine Finset.eq_empty_of_forall_notMem fun m hm => ?_
  exact hs.unconnected (by omega) (hs.established m hm).2.1

theorem agrees_request (hs : Agrees size s) (hr : assertMasid size r.masId) :
    Agrees size { s with messages := s.messages ++ [r], requested := s.requested ++ [r] } where
  log := by rw [← hs.log, List.append_assoc]
  valid := List.forall_mem_append.2 ⟨hs.valid, List.forall_mem_singleton.2 hr⟩
  waiting := hs.waiting
  registered := hs.registered
  attempt := hs.attempt
  unconnected := hs.unconnected
  established := hs.established
  stopping := hs.stopping
  plain := hs.plain
  clients := hs.clients

/-- A `MNS_CONNECT` while the session is connected. -/
theorem agrees_connect_session (hs : Agrees size s) (hmsg : s.messages = .connect masId :: rs)
    (hsession : s.mSession = some true) (hreg : s.Registrable masId) :
    Agrees size ((s.taken (.connect masId) rs).handleConnect size masId true) := by
  have hvalid : assertMasid size masId = true :=
    hs.valid (.connect masId) (hs.log ▸ List.mem_append_right _ (hmsg ▸ List.mem_cons_self))
  have heq : (s.taken (.connect masId) rs).handleConnect size masId true =
      { s with
        messages := rs
        handled := s.handled ++ [.connect masId]
        registered := insert masId s.registered
        established := insert masId s.established } := by
    rw [handleConnect, if_pos (by exact hsession), register]
    by_cases hmem : masId ∈ s.registered
    · simp [hvalid, hmem, taken]
    · simp [hvalid, hmem, taken]
  rw [heq]
  refine ⟨?_, hs.valid, fun m hm => lastRequest_append_connect (.inr (hs.waiting m hm)), fun m hm =>
    ?_, hs.attempt, hs.unconnected, fun m hm => ?_, fun off hoff => ?_, hs.plain, ?_⟩
  · change (s.handled ++ [_]) ++ rs = s.requested
    rw [← hs.log, hmsg, List.append_assoc, List.singleton_append]
  · obtain rfl | hm := Finset.mem_insert.1 hm
    · exact .inl (lastRequest_append_connect (.inl rfl))
    · exact (hs.registered m hm).imp (fun h => lastRequest_append_connect (.inr h)) id
  · obtain rfl | hm := Finset.mem_insert.1 hm
    · exact ⟨Finset.mem_insert_self _ _, hsession, lastRequest_append_connect (.inl rfl), hreg.1⟩
    · obtain ⟨h1, h2, h3, h4⟩ := hs.established m hm
      exact ⟨Finset.mem_insert_of_mem h1, h2, lastRequest_append_connect (.inr h3), h4⟩
  · obtain ⟨h1, h2⟩ := hreg.2 _ hoff
    cases off
    · exact absurd rfl h1
    · exact absurd rfl h2
  · exact (Finset.forall_mem_insert _ _ _).2 ⟨hvalid, hs.clients⟩

/-- A `MNS_CONNECT` without a connected session: the instance waits. -/
theorem agrees_connect_waiting {ok : Bool} (hs : Agrees size s)
    (hmsg : s.messages = .connect masId :: rs) (hsession : s.mSession ≠ some true) :
    Agrees size ((s.taken (.connect masId) rs).handleConnect size masId ok) := by
  have hnone : s.established = ∅ :=
    Finset.eq_empty_of_forall_notMem fun m hm => hsession (hs.established m hm).2.1
  have heq : (s.taken (.connect masId) rs).handleConnect size masId ok =
      { s with
        messages := rs
        handled := s.handled ++ [.connect masId]
        mWaitingMasId := insert masId s.mWaitingMasId
        connectThreads := if s.mWaitingMasId = ∅ then s.connectThreads + 1
          else s.connectThreads } := by
    rw [handleConnect, if_neg (by exact hsession)]
    by_cases hw : s.mWaitingMasId = ∅
    · simp [hw, hnone, taken]
    · simp [hw, hnone, taken]
  have hattempt := hs.attempt
  rw [heq]
  refine ⟨?_, hs.valid, fun m hm => ?_, fun m hm => ?_, ?_, fun _ => hsession, ?_, hs.stopping,
    hs.plain, hs.clients⟩
  · change (s.handled ++ [_]) ++ rs = s.requested
    rw [← hs.log, hmsg, List.append_assoc, List.singleton_append]
  · exact lastRequest_append_connect ((Finset.mem_insert.1 hm).imp id (hs.waiting m))
  · exact (hs.registered m hm).imp (fun h => lastRequest_append_connect (.inr h)) id
  · dsimp only
    rw [if_neg (Finset.insert_ne_empty _ _)]
    split_ifs at hattempt ⊢ <;> omega
  · dsimp only
    rw [hnone]
    exact nofun

/-- A `MNS_DISCONNECT` for an instance that does not wait. -/
theorem agrees_disconnect (hs : Agrees size s) (hmsg : s.messages = .disconnect masId :: rs)
    (hw : masId ∉ s.mWaitingMasId) :
    Agrees size ((s.taken (.disconnect masId) rs).handleDisconnect masId) := by
  have hlast {m : ℤ} (hne : m ≠ masId) :
      lastRequest m (s.handled ++ [.disconnect masId]) = lastRequest m s.handled :=
    lastRequest_append_of_ne (r := .disconnect masId) (Ne.symm hne)
  refine ⟨?_, hs.valid, fun m hm => ?_, fun m hm => ?_, hs.attempt, hs.unconnected, fun m hm => ?_,
    fun off hoff => ?_, ?_, hs.clients⟩
  · change (s.handled ++ [_]) ++ rs = s.requested
    rw [← hs.log, hmsg, List.append_assoc, List.singleton_append]
  · have hne : m ≠ masId := fun heq => hw (heq ▸ hm)
    exact (hlast hne).trans (hs.waiting m hm)
  · by_cases hne : m = masId
    · exact .inr (hne ▸ List.mem_append_right _ (List.mem_singleton_self _))
    · exact (hs.registered m hm).imp (hlast hne).trans (List.mem_append_left _)
  · obtain ⟨hne, hm⟩ := Finset.mem_erase.1 hm
    obtain ⟨h1, h2, h3, h4⟩ := hs.established m hm
    refine ⟨h1, h2, (hlast hne).trans h3, fun hmem => ?_⟩
    obtain hmem | hmem := List.mem_append.1 hmem
    · exact h4 hmem
    · exact hne (Worker.deregister.inj (List.mem_singleton.1 hmem))
  · obtain hoff | hoff := List.mem_append.1 hoff
    · change s.established.erase masId = ∅
      rw [hs.stopping off hoff, Finset.erase_empty]
    · cases List.mem_singleton.1 hoff
  · exact List.forall_mem_append.2 ⟨hs.plain, List.forall_mem_singleton.2 ⟨nofun, nofun, nofun⟩⟩

theorem agrees_connectThreadEnds {n : ℕ} {o : Outcome} (hs : Agrees size s)
    (hn : s.connectThreads = n + 1) :
    Agrees size { s with connectThreads := n, outcomes := s.outcomes ++ [o] } := by
  have hsum : n + (s.outcomes ++ [o]).length = s.connectThreads + s.outcomes.length := by
    rw [hn, List.length_append, List.length_singleton]
    omega
  refine ⟨hs.log, hs.valid, hs.waiting, hs.registered, hsum.trans hs.attempt, ?_, hs.established,
    hs.stopping, hs.plain, hs.clients⟩
  dsimp only
  rw [hsum]
  exact hs.unconnected

/-- An outcome is only there while an instance waits. -/
theorem Agrees.of_outcome {o : Outcome} {os : List Outcome} (hs : Agrees size s)
    (ho : s.outcomes = o :: os) :
    s.mWaitingMasId ≠ ∅ ∧ s.connectThreads + os.length = 0 ∧ s.established = ∅ := by
  have hattempt := hs.attempt
  rw [ho, List.length_cons] at hattempt
  have hw : s.mWaitingMasId ≠ ∅ := by
    intro hempty
    rw [if_pos hempty] at hattempt
    omega
  rw [if_neg hw] at hattempt
  exact ⟨hw, by omega, hs.established_eq_empty hw⟩

theorem agrees_rfcommConnected {os : List Outcome} (hs : Agrees size s)
    (ho : s.outcomes = .rfcommConnected :: os)
    (hreg : ∀ m ∈ s.mWaitingMasId, s.Registrable m) :
    Agrees size ({ s with outcomes := os }.handleRfcommConnected size obex) := by
  obtain ⟨hw, hzero, hnone⟩ := hs.of_outcome ho
  refine ⟨hs.log, hs.valid, nofun, fun m hm => ?_, hzero, ?_, fun m hm => ?_, fun off hoff => ?_,
    hs.plain, fun m hm => ?_⟩
  · obtain hm | hm := Finset.mem_union.1 hm
    · exact hs.registered m hm
    · exact .inl (hs.waiting m (Finset.mem_filter.1 hm).1)
  · intro hpos
    change 0 < s.connectThreads + os.length at hpos
    omega
  · -- only the instances that were waiting
    have hwaits : obex = true ∧ m ∈ s.mWaitingMasId := by
      simp only [handleRfcommConnected, hnone] at hm
      split_ifs at hm with hobex
      · exact ⟨hobex, by simpa using hm⟩
      · cases hm
    clear hm
    obtain ⟨rfl, hm⟩ := hwaits
    have hvalid := hs.handled_valid (hs.waiting m hm)
    refine ⟨Finset.mem_union_right _ (Finset.mem_filter.2 ⟨hm, hvalid⟩), rfl, hs.waiting m hm, ?_⟩
    exact (hreg m hm).1
  · obtain ⟨m, hm⟩ := Finset.nonempty_iff_ne_empty.2 hw
    obtain ⟨h1, h2⟩ := (hreg m hm).2 _ hoff
    cases off
    · exact absurd rfl h1
    · exact absurd rfl h2
  · obtain hm | hm := Finset.mem_union.1 hm
    · exact hs.clients m hm
    · exact (Finset.mem_filter.1 hm).2

theorem agrees_rfcommError {os : List Outcome} (hs : Agrees size s)
    (ho : s.outcomes = .rfcommError :: os) :
    Agrees size ({ s with outcomes := os }.handleRfcommError) := by
  obtain ⟨hw, hzero, hnone⟩ := hs.of_outcome ho
  have heq : ({ s with outcomes := os } : Registration).handleRfcommError =
      { s with outcomes := os, registered := ∅, mWaitingMasId := ∅, mSession := none } := by
    simp [handleRfcommError, deregisterAll, canDisconnect, stop]
  rw [heq]
  refine ⟨hs.log, hs.valid, nofun, nofun, hzero, nofun, ?_, hs.stopping, hs.plain, nofun⟩
  dsimp only
  rw [hnone]
  exact nofun

/-! ### Workers -/

theorem mem_set_of_ne {l : List Worker} (hi : l[i]? = some w) (hmem : w' ∈ l) (hne : w' ≠ w)
    (v : Worker) :
    w' ∈ l.set i v := by
  obtain ⟨j, hj⟩ := List.mem_iff_getElem?.1 hmem
  refine List.mem_of_getElem? (i := j) ?_
  have hij : i ≠ j := by
    rintro rfl
    exact hne (Option.some.inj (hj.symm.trans hi))
  rw [List.getElem?_set_ne hij, hj]

/-- A worker goes on to `v`, where it deregisters nothing, and nothing else changes. -/
theorem agrees_set {v : Worker} (hs : Agrees size s) (hi : s.workers[i]? = some w)
    (hw : ∀ m, w ≠ .deregister m) (hv : ∀ m, v ≠ .deregister m)
    (hstop : ∀ off, v = .stop off → s.established = ∅)
    (hplain : v ≠ .canDisconnect true ∧ v ≠ .stop true ∧ v ≠ .mnsCleanupInstances) :
    Agrees size { s with workers := s.workers.set i v } where
  log := hs.log
  valid := hs.valid
  waiting := hs.waiting
  registered m hm := (hs.registered m hm).imp id fun h => mem_set_of_ne hi h (Ne.symm (hw m)) v
  attempt := hs.attempt
  unconnected := hs.unconnected
  established m hm := by
    obtain ⟨h1, h2, h3, h4⟩ := hs.established m hm
    refine ⟨h1, h2, h3, fun hmem => ?_⟩
    obtain hmem | hmem := List.mem_or_eq_of_mem_set hmem
    · exact h4 hmem
    · exact hv m hmem.symm
  stopping off hoff := by
    obtain hoff | hoff := List.mem_or_eq_of_mem_set hoff
    · exact hs.stopping off hoff
    · exact hstop off hoff.symm
  plain w hmem := by
    obtain hmem | rfl := List.mem_or_eq_of_mem_set hmem
    · exact hs.plain w hmem
    · exact hplain
  clients := hs.clients

theorem agrees_deregister (hs : Agrees size s) (hi : s.workers[i]? = some (.deregister masId)) :
    Agrees size
      { s.deregister size masId with workers := s.workers.set i (.canDisconnect false) } := by
  have hmem : Worker.deregister masId ∈ s.workers := List.mem_of_getElem? hi
  have hset {m : ℤ} (h : Worker.deregister m ∈ s.workers.set i (.canDisconnect false)) :
      Worker.deregister m ∈ s.workers := by
    obtain h | h := List.mem_or_eq_of_mem_set h
    · exact h
    · cases h
  have heq : { s.deregister size masId with workers := s.workers.set i (.canDisconnect false) } =
      { s with
        registered := if assertMasid size masId then s.registered.erase masId else s.registered
        workers := s.workers.set i (.canDisconnect false) } := by
    rw [deregister]
    by_cases hvalid : assertMasid size masId <;> simp [hvalid]
  -- no other client has the instance
  have herase {m : ℤ}
    (hm : m ∈ if assertMasid size masId then s.registered.erase masId else s.registered) :
      m ∈ s.registered ∧ m ≠ masId := by
    split_ifs at hm with hvalid
    · exact (Finset.mem_erase.1 hm).symm
    · exact ⟨hm, fun heq => hvalid (heq ▸ hs.clients m hm)⟩
  rw [heq]
  refine ⟨hs.log, hs.valid, hs.waiting, fun m hm => ?_, hs.attempt, hs.unconnected, fun m hm => ?_,
    fun off hoff => ?_, fun w hmem => ?_, fun m hm => hs.clients m (herase hm).1⟩
  · obtain ⟨hm', hne⟩ := herase hm
    refine (hs.registered m hm').imp id fun h => mem_set_of_ne hi h ?_ _
    exact fun heq => hne (Worker.deregister.inj heq)
  · obtain ⟨h1, h2, h3, h4⟩ := hs.established m hm
    have hne : m ≠ masId := fun heq => h4 (heq ▸ hmem)
    refine ⟨?_, h2, h3, fun h => h4 (hset h)⟩
    dsimp only
    split_ifs
    · exact Finset.mem_erase.2 ⟨hne, h1⟩
    · exact h1
  · obtain hoff | hoff := List.mem_or_eq_of_mem_set hoff
    · exact hs.stopping off hoff
    · cases hoff
  · obtain hmem | rfl := List.mem_or_eq_of_mem_set hmem
    · exact hs.plain w hmem
    · exact ⟨nofun, nofun, nofun⟩

/-- Stopping the session, when no instance relies on it. -/
theorem agrees_stop (hs : Agrees size s) (hnone : s.established = ∅) : Agrees size s.stop :=
  ⟨hs.log, hs.valid, hs.waiting, hs.registered, hs.attempt, fun _ => nofun,
    by rw [stop, hnone]; exact nofun, hs.stopping, hs.plain, hs.clients⟩

theorem agrees_workerStep {v : Worker} (hs : Agrees size s) (hi : s.workers[i]? = some w)
    (hw : s.workerStep size w = some (v, t)) :
      Agrees size { t with workers := t.workers.set i v } := by
  have hplain := hs.plain w (List.mem_of_getElem? hi)
  have hstopping := hs.stopping
  cases w with
  | deregister masId =>
    obtain ⟨rfl, rfl⟩ := Prod.mk.inj (Option.some.inj hw)
    have hworkers : (s.deregister size masId).workers = s.workers := by
      rw [deregister]
      split_ifs <;> rfl
    rw [hworkers]
    exact agrees_deregister hs hi
  | canDisconnect off =>
    obtain ⟨rfl, rfl⟩ := Prod.mk.inj (Option.some.inj hw)
    cases off with
    | true => exact absurd rfl hplain.1
    | false =>
      by_cases hcan : s.canDisconnect = true
      · -- nothing is registered, so no instance relies on the session
        rw [if_pos hcan]
        have hempty : s.registered = ∅ := by simpa [canDisconnect] using hcan
        refine agrees_set hs hi nofun nofun (fun _ _ => ?_) ⟨nofun, nofun, nofun⟩
        refine Finset.eq_empty_of_forall_notMem fun m hm => ?_
        have hmem := (hs.established m hm).1
        rw [hempty] at hmem
        cases hmem
      · rw [if_neg hcan]
        exact agrees_set hs hi nofun nofun nofun ⟨nofun, nofun, nofun⟩
  | stop off =>
    obtain ⟨rfl, rfl⟩ := Prod.mk.inj (Option.some.inj hw)
    cases off with
    | true => exact absurd rfl hplain.2.1
    | false =>
      have hnone := hstopping false (List.mem_of_getElem? hi)
      have hset := agrees_set (v := .ended) hs hi nofun nofun nofun ⟨nofun, nofun, nofun⟩
      exact agrees_stop hset hnone
  | mnsCleanupInstances => exact absurd rfl hplain.2.2
  | ended => cases hw

theorem agrees_step {a : Action} (hs : Agrees size s) (hscope : InScope size a)
    (hcross : s.Uncrossed a) (h : s.step size a = some t) : Agrees size t := by
  cases a with
  | request r =>
    obtain rfl := Option.some.inj h
    exact agrees_request hs hscope
  | handleRequest ok =>
    obtain rfl : ok = true := hscope
    rw [step] at h
    split at h
    · cases h
    · next masId rs hmsg =>
      obtain rfl := Option.some.inj h
      simp only [Uncrossed, hmsg, List.head?_cons, decide_eq_true_eq] at hcross
      by_cases hsession : s.mSession = some true
      · exact agrees_connect_session hs hmsg hsession (hcross hsession)
      · exact agrees_connect_waiting hs hmsg hsession
    · next masId rs hmsg =>
      obtain rfl := Option.some.inj h
      simp only [Uncrossed, hmsg, List.head?_cons, decide_eq_true_eq] at hcross
      exact agrees_disconnect hs hmsg hcross
  | connectThreadEnds o =>
    rw [step] at h
    split at h
    · cases h
    · next n hn =>
      obtain rfl := Option.some.inj h
      exact agrees_connectThreadEnds hs hn
  | handleOutcome obex =>
    rw [step] at h
    split at h
    · cases h
    · next os ho =>
      obtain rfl := Option.some.inj h
      simp only [Uncrossed, ho, List.head?_cons, true_imp_iff, decide_eq_true_eq] at hcross
      exact agrees_rfcommConnected hs ho hcross
    · next os ho =>
      obtain rfl := Option.some.inj h
      exact agrees_rfcommError hs ho
  | handleSessionError => cases hscope
  | handleBluetoothOff => cases hscope
  | worker i =>
    rw [step] at h
    obtain ⟨w, hi, h⟩ := Option.bind_eq_some_iff.1 h
    obtain ⟨⟨v, u⟩, hw, h⟩ := Option.bind_eq_some_iff.1 h
    obtain rfl := Option.some.inj h
    exact agrees_workerStep hs hi hw

/-- Nothing is left to be done: no message, no connection attempt and no worker. -/
def Quiet (s : Registration) : Prop :=
  s.messages = [] ∧ s.outcomes = [] ∧ s.connectThreads = 0 ∧ ∀ w ∈ s.workers, w = .ended

instance : Decidable s.Quiet := inferInstanceAs (Decidable (_ ∧ _ ∧ _ ∧ ∀ w ∈ s.workers, _))

end Registration

/-! ### Runs of the service -/

section Runs

variable {size : ℕ} {s t : State} {a : Action} {as : List Action} {m : ℤ}

/-- The request that a step makes. -/
def Action.requested : Action → Option Request
  | .registration (.request r) => some r
  | _ => none

theorem requested_handleConnect {s : Registration} {masId : ℤ} {ok : Bool} :
    (s.handleConnect size masId ok).requested = s.requested := by
  simp only [Registration.handleConnect, Registration.register]
  cases ok <;> split_ifs <;> rfl

theorem requested_workerStep {s t : Registration} {w v : Worker}
    (h : s.workerStep size w = some (v, t)) : t.requested = s.requested := by
  cases w with
  | deregister masId =>
    obtain ⟨-, rfl⟩ := Prod.mk.inj (Option.some.inj h)
    rw [Registration.deregister]
    split_ifs <;> rfl
  | ended => cases h
  | _ =>
    obtain ⟨-, rfl⟩ := Prod.mk.inj (Option.some.inj h)
    rfl

theorem requested_registration {s t : Registration} {a : Registration.Action}
    (h : s.step size a = some t) :
    t.requested = s.requested ++ (Action.requested (.registration a)).toList := by
  cases a with
  | request r =>
    obtain rfl := Option.some.inj h
    rfl
  | worker i =>
    rw [Registration.step] at h
    obtain ⟨w, -, h⟩ := Option.bind_eq_some_iff.1 h
    obtain ⟨⟨v, u⟩, hw, h⟩ := Option.bind_eq_some_iff.1 h
    obtain rfl := Option.some.inj h
    exact (requested_workerStep hw).trans (List.append_nil _).symm
  | handleRequest ok =>
    refine Eq.trans ?_ (List.append_nil _).symm
    rw [Registration.step] at h
    split at h
    · cases h
    · obtain rfl := Option.some.inj h
      exact requested_handleConnect
    · obtain rfl := Option.some.inj h
      rfl
  | handleOutcome obex =>
    refine Eq.trans ?_ (List.append_nil _).symm
    rw [Registration.step] at h
    split at h
    · cases h
    · obtain rfl := Option.some.inj h
      rfl
    · obtain rfl := Option.some.inj h
      rw [Registration.handleRfcommError]
      split_ifs <;> rfl
  | connectThreadEnds o =>
    refine Eq.trans ?_ (List.append_nil _).symm
    rw [Registration.step] at h
    split at h
    · cases h
    · obtain rfl := Option.some.inj h
      rfl
  | handleSessionError =>
    obtain rfl := Option.some.inj h
    exact (List.append_nil _).symm
  | handleBluetoothOff =>
    obtain rfl := Option.some.inj h
    exact (List.append_nil _).symm

theorem requested_step (h : step size s a = some t) :
    t.registration.requested = s.registration.requested ++ a.requested.toList := by
  cases a with
  | registration a => exact requested_registration (step_registration h).1
  | sending a =>
    refine Eq.trans ?_ (List.append_nil _).symm
    obtain ⟨u, -, rfl⟩ := Option.map_eq_some_iff.1 h
    dsimp only
    split_ifs <;> rfl

/-- The requests, connection attempts and workers, next to sending that does not time out. -/
def InScope (size : ℕ) : Action → Bool
  | .registration a => Registration.InScope size a
  | .sending a => a ≠ .handleSendTimeout

/-- The crossings that are excluded. -/
def Uncrossed (s : State) : Action → Bool
  | .registration a => s.registration.Uncrossed a
  | .sending _ => true

theorem agrees_run (h : Run (step size) (fun s a => InScope size a ∧ Uncrossed s a) .initial as s) :
    s.registration.Agrees size := by
  refine h.invariant (I := fun s => s.registration.Agrees size) Registration.agrees_initial ?_
  rintro s a t ⟨hscope, hcross⟩ hs hstep
  cases a with
  | registration a => exact Registration.agrees_step hs hscope hcross (step_registration hstep).1
  | sending a => rwa [(step_sending hstep).2 (of_decide_eq_true hscope)]

/-- Two instances connect, and the first disconnects again. -/
def sampleRequests : List Action :=
  [.request (.connect 0), .request (.connect 1), .handleRequest true, .handleRequest true,
    .connectThreadEnds .rfcommConnected, .handleOutcome true, .request (.disconnect 0),
    .handleRequest true, .worker 0, .worker 0].map .registration

end Runs

end Mns

end Map

end Msm8909w
