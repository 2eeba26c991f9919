import Msm8909w.Lib.Runs
import Msm8909w.LocApi.ClientHandles

/-!
# Runs of location clients

`locClientOpenInstance`, `locClientOpen` and `locClientClose` called in any order for any number of
variables for handles.

* `Released` : what a call has to leave behind, and for whom,
* `Kept` : what the handles point to, and that no two of them share a client,
* `doesItsPart_iff` : exactly when a call of a run does its part.
-/

namespace Msm8909w

namespace LocApi

namespace Clients

open LocSync (Status)

variable {V : Type*} [DecidableEq V]

/-! ### Calls -/

/-- A call of a user; `none` stands for a null pointer. -/
inductive Event (V : Type*)
  | openInstance (c : OpenCalls) (instanceId : Int) (callbacks : Bool) (pHandle : Option V)
  | locClientOpen (calls : ℕ → OpenCalls) (target : GnssType) (callbacks : Bool)
      (pHandle : Option V)
  | locClientClose (ok : Bool) (pHandle : Option V)

/-- What a call returns, and the state after it; `none` if it waits for ever. -/
def call (s : State V) : Event V → Option (Status × State V)
  | .openInstance c instanceId callbacks pHandle => openInstance c instanceId callbacks pHandle s
  | .locClientOpen calls target callbacks pHandle =>
    locClientOpen calls target callbacks pHandle s
  | .locClientClose ok pHandle => some (locClientClose ok pHandle s)

def step (s : State V) (e : Event V) : Option (State V) := (call s e).map Prod.snd

/-- Another try to close the handle succeeds if the client can be released. -/
def Usable (s : State V) (v : V) : Prop := (locClientClose true (some v) s).1 = .success

/-- What is left of a call that opens a client: nothing, or one client with its record. -/
structure OpenReleased (s t : State V) (st : Status) (pHandle : Option V) : Prop where
  error : st ≠ .success →
    (∀ v, pHandle = some v → t.handle v = none) ∧ s.pool.Leaves t.pool []
  success : st = .success → ∃ v r client, pHandle = some v ∧ t.handle v = some r ∧
    t.data r = ⟨some client, some r⟩ ∧
    s.pool.Leaves t.pool [(r, .callbackData), (client, .client)]

/-- What is asked of a call that leads from `s` to `t`. -/
def Released (s t : State V) (st : Status) : Event V → Prop
  | .openInstance _ _ _ pHandle | .locClientOpen _ _ _ pHandle => OpenReleased s t st pHandle
  | .locClientClose _ pHandle => st ≠ .success → ∀ v, pHandle = some v →
      t.handle v = s.handle v ∧ (t.handle v ≠ none → Usable t v)

/-- No handle is released again after it has been given back. -/
def NotTwice (s : State V) : Prop :=
  s.releases.Pairwise fun a b => ¬ (a.2 = true ∧ a.1 = b.1)

omit [DecidableEq V] in
instance (s : State V) : Decidable (NotTwice s) :=
  inferInstanceAs (Decidable (s.releases.Pairwise fun a b => ¬ (a.2 = true ∧ a.1 = b.1)))

/-- If the call returns, it leaves behind what it has to. -/
def DoesItsPart (s : State V) (e : Event V) : Prop :=
  ∀ st t, call s e = some (st, t) → Released s t st e ∧ NotTwice t

/-- What holds of the results of each try of `locClientOpen` that is made. -/
def TriesAll (P : OpenCalls → Prop) (calls : ℕ → OpenCalls) (instanceId : Int)
    (pHandle : Option V) : ℕ → State V → Prop
  | 0, _ => P (calls maxOpenRetries)
  | left + 1, s => P (calls (maxOpenRetries - (left + 1))) ∧
      ∀ st t, openInstance (calls (maxOpenRetries - (left + 1))) instanceId true pHandle s =
        some (st, t) → st ≠ .success → TriesAll P calls instanceId pHandle left t

/-- In a call with its arguments, a failure to make a notifier finds the variable for it empty. -/
def Initialised (s : State V) : Event V → Prop
  | .openInstance c _ callbacks pHandle =>
    ∀ v, pHandle = some v → callbacks = true → c.Initialised
  | .locClientOpen calls target callbacks pHandle =>
    ∀ v, pHandle = some v → callbacks = true →
      TriesAll OpenCalls.Initialised calls target.instanceId pHandle maxOpenRetries s
  | .locClientClose _ _ => True

/-- The calls after which nothing is left: with a table of callbacks by their results, and without
one if the variable has no client. -/
def Orderly (s : State V) : Event V → Prop
  | .openInstance c _ callbacks pHandle => ∀ v, pHandle = some v →
      if callbacks then c.Orderly else s.handle v = none
  | .locClientOpen calls target callbacks pHandle => ∀ v, pHandle = some v →
      if callbacks then
        TriesAll OpenCalls.Orderly calls target.instanceId pHandle maxOpenRetries s
      else s.handle v = none
  | .locClientClose _ _ => True

/-! ### What the handles point to -/

/-- Each handle has a record with a client, both are held, and no two handles share one. -/
structure Kept (s : State V) : Prop where
  books : Books s
  live : ∀ v r, s.handle v = some r → (r, .callbackData) ∈ s.pool.held ∧
    ∃ client, s.data r = ⟨some client, some r⟩ ∧ (client, .client) ∈ s.pool.held
  inj : ∀ v w r, s.handle v = some r → s.handle w = some r → v = w
  injClient : ∀ v w r r' client, s.handle v = some r → s.handle w = some r' →
    (s.data r).userHandle = some client → (s.data r').userHandle = some client → v = w

variable {s t : State V} {v : V} {st : Status}

omit [DecidableEq V] in
theorem kept_initial : Kept ({} : State V) :=
  ⟨books_initial, by simp, by simp, by simp⟩

omit [DecidableEq V] in
/-- Handles that are left alone, with their records and what is held. -/
theorem Kept.of_subset (h : Kept s) (hbooks : Books t)
    (hhandle : ∀ w r, t.handle w = some r → s.handle w = some r ∧ t.data r = s.data r ∧
      ∀ x ∈ s.pool.held, (x.1 = r ∨ some x.1 = (s.data r).userHandle) → x ∈ t.pool.held) :
    Kept t := by
  refine ⟨hbooks, fun w r hw => ?_, fun w w' r hw hw' => ?_,
    fun w w' r r' client hw hw' hc hc' => ?_⟩
  · obtain ⟨hs, hdata, hheld⟩ := hhandle w r hw
    obtain ⟨hrecord, client, hc, hclient⟩ := h.live w r hs
    exact ⟨hheld _ hrecord (.inl rfl), client, hdata.trans hc,
      hheld _ hclient (.inr (by rw [hc]))⟩
  · exact h.inj w w' r (hhandle w r hw).1 (hhandle w' r hw').1
  · obtain ⟨hs, hdata, -⟩ := hhandle w r hw
    obtain ⟨hs', hdata', -⟩ := hhandle w' r' hw'
    rw [hdata] at hc
    rw [hdata'] at hc'
    exact h.injClient w w' r r' client hs hs' hc hc'

omit [DecidableEq V] in
/-- The handle is good for the client of its record. -/
theorem Kept.validClient (h : Kept s) {r : ℕ} (hv : s.handle v = some r) :
    ∃ client, Clients.validClient s v = some client ∧ (s.data r).userHandle = some client ∧
      (client, Resource.client) ∈ s.pool.held := by
  obtain ⟨-, client, hc, hclient⟩ := h.live v r hv
  exact ⟨client, by simp [Clients.validClient, hv, hc], by rw [hc], hclient⟩

theorem Kept.usable (h : Kept s) (hv : s.handle v ≠ none) : Usable s v := by
  obtain ⟨r, hr⟩ := Option.ne_none_iff_exists'.1 hv
  obtain ⟨client, hvalid, -⟩ := h.validClient hr
  rw [Usable, locClientClose_of_valid hr hvalid]
  rfl

omit [DecidableEq V] in
/-- A record has been made before. -/
theorem Kept.lt (h : Kept s) {r : ℕ} (hv : s.handle v = some r) : r < s.pool.next :=
  s.pool.lt _ (h.live v r hv).1

/-- The calls that open a client. -/
theorem Kept.of_outcome {clean : Prop} (h : Kept s) (hbooks : Books t)
    (hdata : ∀ r < s.pool.next, t.data r = s.data r) (ho : Outcome v s t clean st) : Kept t := by
  cases ho with
  | refused hst hhandle hpool =>
    refine h.of_subset hbooks fun w r hw => ?_
    rw [hhandle] at hw
    have hne : w ≠ v := by
      rintro rfl
      rw [Function.update_self] at hw
      cases hw
    rw [Function.update_of_ne hne] at hw
    refine ⟨hw, hdata r (h.lt hw), fun x hx _ => ?_⟩
    rw [hpool.held]
    exact List.mem_append_left _ hx
  | @opened r₀ client₀ new hhandle hrecord hpool hmemRecord hmemClient =>
    have hheld : ∀ x ∈ s.pool.held, x ∈ t.pool.held := fun x hx => by
      rw [hpool.held]
      exact List.mem_append_left _ hx
    have hr₀ : s.pool.next ≤ r₀ := hpool.le _ hmemRecord
    have hclient₀ : s.pool.next ≤ client₀ := hpool.le _ hmemClient
    have hnewHeld : ∀ x ∈ new, x ∈ t.pool.held := fun x hx => by
      rw [hpool.held]
      exact List.mem_append_right _ hx
    have hcases : ∀ w r, t.handle w = some r →
        (w = v ∧ r = r₀) ∨ (s.handle w = some r ∧ r < s.pool.next ∧ t.data r = s.data r) := by
      intro w r hw
      rw [hhandle] at hw
      by_cases hne : w = v
      · rw [hne, Function.update_self] at hw
        exact .inl ⟨hne, (Option.some.inj hw).symm⟩
      · rw [Function.update_of_ne hne] at hw
        exact .inr ⟨hw, h.lt hw, hdata r (h.lt hw)⟩
    -- the client of an old record is older than the new client
    have hold : ∀ w r client, s.handle w = some r → t.data r = s.data r →
        (t.data r).userHandle = some client → client < s.pool.next := by
      intro w r client hw hr hc
      obtain ⟨client', -, hc', hmem⟩ := h.validClient hw
      rw [hr, hc'] at hc
      obtain rfl := Option.some.inj hc
      exact s.pool.lt _ hmem
    have hnew : ∀ client, (t.data r₀).userHandle = some client → s.pool.next ≤ client := by
      intro client hc
      rw [hrecord] at hc
      rwa [← Option.some.inj hc]
    refine ⟨hbooks, fun w r hw => ?_, fun w w' r hw hw' => ?_,
      fun w w' r r' client hw hw' hc hc' => ?_⟩
    · rcases hcases w r hw with ⟨rfl, rfl⟩ | ⟨hs, -, hr⟩
      · exact ⟨hnewHeld _ hmemRecord, client₀, hrecord, hnewHeld _ hmemClient⟩
      · obtain ⟨hmem, client, hc, hclient⟩ := h.live w r hs
        exact ⟨hheld _ hmem, client, hr.trans hc, hheld _ hclient⟩
    · rcases hcases w r hw with ⟨rfl, rfl⟩ | ⟨hs, hlt, -⟩
      · rcases hcases w' r hw' with ⟨rfl, -⟩ | ⟨-, hlt, -⟩
        · rfl
        · omega
      · rcases hcases w' r hw' with ⟨rfl, rfl⟩ | ⟨hs', -, -⟩
        · omega
        · exact h.inj w w' r hs hs'
    · rcases hcases w r hw with ⟨rfl, rfl⟩ | ⟨hs, -, hr⟩
      · rcases hcases w' r' hw' with ⟨rfl, -⟩ | ⟨hs', -, hr'⟩
        · rfl
        · have hge := hnew client hc
          have hlt := hold w' r' client hs' hr' hc'
          omega
      · rcases hcases w' r' hw' with ⟨rfl, rfl⟩ | ⟨hs', -, hr'⟩
        · have hge := hnew client hc'
          have hlt := hold w r client hs hr hc
          omega
        · exact h.injClient w w' r r' client hs hs' (hr ▸ hc) (hr' ▸ hc')

/-- Closing a handle. -/
theorem kept_locClientClose (h : Kept s) (ok : Bool) (pHandle : Option V) :
    Kept (locClientClose ok pHandle s).2 := by
  cases pHandle with
  | none => exact h
  | some v =>
    cases hv : s.handle v with
    | none =>
      have hsame : (locClientClose ok (some v) s).2 = s := by simp [locClientClose, hv]
      rwa [hsame]
    | some r =>
      obtain ⟨client, hvalid, hc, hclient⟩ := h.validClient hv
      rw [locClientClose_of_valid hv hvalid]
      have hbooks : Books (qmiClientRelease client ok s) := h.books.qmiClientRelease hclient
      cases ok with
      | false => exact ⟨hbooks, h.live, h.inj, h.injClient⟩
      | true =>
        refine h.of_subset (hbooks.free rfl rfl) fun w r' hw => ?_
        simp only [Bool.not_true, Bool.false_eq_true, if_false] at hw ⊢
        have hne : w ≠ v := by
          rintro rfl
          rw [Function.update_self] at hw
          cases hw
        rw [Function.update_of_ne hne] at hw
        have hr : r' ≠ r := by
          rintro rfl
          exact hne (h.inj w v r' hw hv)
        refine ⟨hw, Function.update_of_ne hr _ _, fun x hx howns => ?_⟩
        obtain ⟨hrecord, -⟩ := h.live v r hv
        obtain ⟨hrecord', -⟩ := h.live w r' hw
        obtain ⟨client', -, hc', hclient'⟩ := h.validClient hw
        have hkinds : x.1 ≠ client ∧ x.1 ≠ r := by
          rcases howns with hx' | hx'
          · rw [hx']
            refine ⟨?_, hr⟩
            rintro rfl
            cases Pool.eq_of_mem hrecord' hclient
          · rw [hc', Option.some.injEq] at hx'
            rw [hx']
            constructor
            · rintro rfl
              exact hne (h.injClient w v r' r client' hw hv hc' hc)
            · rintro rfl
              cases Pool.eq_of_mem hclient' hrecord
        exact Pool.mem_held_release.2 ⟨Pool.mem_held_release.2 ⟨hx, hkinds.1⟩, hkinds.2⟩

/-! ### The loop of `locClientOpen` -/

/-- A call without its arguments is refused. -/
theorem openInstance_of_invalid {c : OpenCalls} {instanceId : Int} {pHandle : Option V}
    {callbacks : Bool} (h : pHandle = none ∨ callbacks = false) :
    openInstance c instanceId callbacks pHandle s = some (.failureInvalidParameter, s) := by
  rcases h with rfl | rfl
  · rfl
  · cases pHandle <;> rfl

theorem tries_of_invalid {calls : ℕ → OpenCalls} {instanceId : Int} {pHandle : Option V}
    {callbacks : Bool} (h : pHandle = none ∨ callbacks = false) (left : ℕ) :
    tries calls instanceId callbacks pHandle left s = some (.failureInvalidParameter, s) := by
  induction left with
  | zero => rw [tries, openInstance_of_invalid h]
  | succ left ih =>
    rw [tries, openInstance_of_invalid h]
    simpa using ih

/-- A refused call and what comes after it. -/
theorem Outcome.after_refused {u : State V} {st' : Status} {clean clean' : Prop}
    (h : Outcome v s t clean st) (hst : st ≠ .success) (h' : Outcome v t u clean' st') :
    Outcome v s u (clean ∧ clean') st' := by
  cases h with
  | opened => exact absurd rfl hst
  | @refused _ new _ hhandle hpool hnew =>
    cases h' with
    | refused hst' hhandle' hpool' hnew' =>
      refine .refused hst' (by rw [hhandle', hhandle, Function.update_idem])
        (hpool.trans hpool') ?_
      rw [List.append_eq_nil_iff, hnew, hnew']
    | @opened r client new' hhandle' hdata hpool' hrecord hclient hlength hnew' =>
      refine .opened (by rw [hhandle', hhandle, Function.update_idem]) hdata
        (hpool.trans hpool') (List.mem_append_right _ hrecord) (List.mem_append_right _ hclient)
        ?_ ?_
      · rw [List.length_append]
        omega
      · rw [← hnew, ← hnew']
        constructor
        · intro heq
          have htotal := congrArg List.length heq
          simp only [List.length_append, List.length_cons, List.length_nil] at htotal
          obtain rfl : new = [] := List.length_eq_zero_iff.1 (by omega)
          exact ⟨rfl, heq⟩
        · rintro ⟨rfl, rfl⟩
          rfl

/-- **What the tries come to.** -/
theorem tries_spec {calls : ℕ → OpenCalls} {instanceId : Int} {left : ℕ} (hs : Books s)
    (hc : TriesAll OpenCalls.Initialised calls instanceId (some v) left s)
    (h : tries calls instanceId true (some v) left s = some (st, t)) :
    Books t ∧ (∀ r < s.pool.next, t.data r = s.data r) ∧
      Outcome v s t (TriesAll OpenCalls.Orderly calls instanceId (some v) left s) st := by
  induction left generalizing s with
  | zero => exact openInstance_spec hc hs h
  | succ left ih =>
    obtain ⟨hfirst, hrest⟩ := hc
    obtain ⟨⟨st₁, u⟩, hopen, heq⟩ := Option.bind_eq_some_iff.1 h
    obtain ⟨hu, hdata, houtcome⟩ := openInstance_spec hfirst hs hopen
    have hthis : ∀ st' t', openInstance (calls (maxOpenRetries - (left + 1))) instanceId true
        (some v) s = some (st', t') → st' = st₁ ∧ t' = u := by
      intro st' t' hopen'
      exact Prod.mk.inj (Option.some.inj (hopen'.symm.trans hopen))
    by_cases hst : st₁ = .success
    · simp only [hst, ne_eq, not_true_eq_false, if_false, Option.some.injEq, Prod.mk.injEq] at heq
      obtain ⟨rfl, rfl⟩ := heq
      have hiff : TriesAll OpenCalls.Orderly calls instanceId (some v) (left + 1) s ↔
          (calls (maxOpenRetries - (left + 1))).Orderly := by
        refine ⟨fun h => h.1, fun h => ⟨h, fun st' t' hopen' hne => ?_⟩⟩
        exact absurd ((hthis st' t' hopen').1.trans hst) hne
      rw [hst, ← hiff] at houtcome
      exact ⟨hu, hdata, houtcome⟩
    · simp only [hst, ne_eq, not_false_eq_true, if_true] at heq
      obtain ⟨ht, hdata', houtcome'⟩ := ih hu (hrest st₁ u hopen hst) heq
      have hiff : TriesAll OpenCalls.Orderly calls instanceId (some v) (left + 1) s ↔
          (calls (maxOpenRetries - (left + 1))).Orderly ∧
            TriesAll OpenCalls.Orderly calls instanceId (some v) left u := by
        refine ⟨fun h => ⟨h.1, h.2 st₁ u hopen hst⟩, fun h => ⟨h.1, fun st' t' hopen' _ => ?_⟩⟩
        rw [(hthis st' t' hopen').2]
        exact h.2
      rw [hiff]
      refine ⟨ht, fun r hr => ?_, houtcome.after_refused hst houtcome'⟩
      have hnext : s.pool.next ≤ u.pool.next := by
        cases houtcome with
        | refused _ _ hpool _ => exact hpool.next_le
        | opened _ _ hpool => exact hpool.next_le
      rw [hdata' r (Nat.lt_of_lt_of_le hr hnext), hdata r hr]

/-! ### Runs -/

theorem Outcome.released_iff {clean : Prop} (h : Outcome v s t clean st) :
    OpenReleased s t st (some v) ↔ clean := by
  cases h with
  | refused hst hhandle hpool hnew =>
    rw [← hnew]
    constructor
    · exact fun h => hpool.unique (h.error hst).2
    · rintro rfl
      refine ⟨fun _ => ⟨fun w hw => ?_, hpool⟩, fun h => absurd h hst⟩
      obtain rfl := Option.some.inj hw
      rw [hhandle, Function.update_self]
  | @opened r client new hhandle hdata hpool _ _ _ hnew =>
    have hr : t.handle v = some r := by rw [hhandle, Function.update_self]
    rw [← hnew]
    constructor
    · intro h
      obtain ⟨v', r', client', hv, hr', hdata', hpool'⟩ := h.success rfl
      obtain rfl := Option.some.inj hv
      obtain rfl := Option.some.inj (hr.symm.trans hr')
      have hclient : client = client' := by simpa using hdata.symm.trans hdata'
      rw [hclient]
      exact hpool.unique hpool'
    · rintro rfl
      exact ⟨fun h => absurd rfl h, fun _ => ⟨v, r, client, rfl, hr, hdata, hpool⟩⟩

omit [DecidableEq V] in
theorem openReleased_invalid_iff {pHandle : Option V} :
    OpenReleased s s .failureInvalidParameter pHandle ↔
      ∀ v, pHandle = some v → s.handle v = none :=
  ⟨fun h => (h.error (by decide)).1, fun h => ⟨fun _ => ⟨h, .refl _⟩, fun h => by cases h⟩⟩

/-- **One call that opens a client.** -/
theorem openInstance_released (h : Kept s) {c : OpenCalls} {instanceId : Int} {callbacks : Bool}
    {pHandle : Option V} (hi : Initialised s (.openInstance c instanceId callbacks pHandle))
    (hcall : openInstance c instanceId callbacks pHandle s = some (st, t)) :
    Kept t ∧ (OpenReleased s t st pHandle ↔
      Orderly s (.openInstance c instanceId callbacks pHandle)) := by
  rcases pHandle with _ | v
  · rw [openInstance_of_invalid (.inl rfl)] at hcall
    obtain ⟨rfl, rfl⟩ := Prod.mk.inj (Option.some.inj hcall)
    exact ⟨h, by simp [openReleased_invalid_iff, Orderly]⟩
  · cases callbacks with
    | false =>
      rw [openInstance_of_invalid (.inr rfl)] at hcall
      obtain ⟨rfl, rfl⟩ := Prod.mk.inj (Option.some.inj hcall)
      exact ⟨h, openReleased_invalid_iff⟩
    | true =>
      obtain ⟨hbooks, hdata, ho⟩ := openInstance_spec (hi v rfl rfl) h.books hcall
      exact ⟨h.of_outcome hbooks hdata ho, by simp [ho.released_iff, Orderly]⟩

/-- **The same with more than one try.** -/
theorem locClientOpen_released (h : Kept s) {calls : ℕ → OpenCalls} {target : GnssType}
    {callbacks : Bool} {pHandle : Option V}
    (hi : Initialised s (.locClientOpen calls target callbacks pHandle))
    (hcall : locClientOpen calls target callbacks pHandle s = some (st, t)) :
    Kept t ∧ (OpenReleased s t st pHandle ↔
      Orderly s (.locClientOpen calls target callbacks pHandle)) := by
  rcases pHandle with _ | v
  · rw [locClientOpen, tries_of_invalid (.inl rfl)] at hcall
    obtain ⟨rfl, rfl⟩ := Prod.mk.inj (Option.some.inj hcall)
    exact ⟨h, by simp [openReleased_invalid_iff, Orderly]⟩
  · cases callbacks with
    | false =>
      rw [locClientOpen, tries_of_invalid (.inr rfl)] at hcall
      obtain ⟨rfl, rfl⟩ := Prod.mk.inj (Option.some.inj hcall)
      exact ⟨h, openReleased_invalid_iff⟩
    | true =>
      obtain ⟨hbooks, hdata, ho⟩ := tries_spec h.books (hi v rfl rfl) hcall
      exact ⟨h.of_outcome hbooks hdata ho, by simp [ho.released_iff, Orderly]⟩

/-- A handle that cannot be closed stays as it was. -/
theorem locClientClose_released (h : Kept s) (ok : Bool) (pHandle : Option V)
    (hst : (locClientClose ok pHandle s).1 ≠ .success) (hv : pHandle = some v) :
    (locClientClose ok pHandle s).2.handle v = s.handle v ∧
      ((locClientClose ok pHandle s).2.handle v ≠ none →
        Usable (locClientClose ok pHandle s).2 v) := by
  refine ⟨?_, (kept_locClientClose h ok pHandle).usable⟩
  obtain rfl := hv
  cases hhandle : s.handle v with
  | none => simp [locClientClose, hhandle]
  | some r =>
    obtain ⟨client, hvalid, -⟩ := h.validClient hhandle
    rw [locClientClose_of_valid hhandle hvalid] at hst ⊢
    cases ok with
    | true => exact absurd rfl hst
    | false => exact hhandle

/-- **One call of a run.** -/
theorem step_released (h : Kept s) {e : Event V} (hi : Initialised s e)
    (hcall : call s e = some (st, t)) : Kept t ∧ (Released s t st e ↔ Orderly s e) := by
  cases e with
  | openInstance c instanceId callbacks pHandle => exact openInstance_released h hi hcall
  | locClientOpen calls target callbacks pHandle => exact locClientOpen_released h hi hcall
  | locClientClose ok pHandle =>
    obtain ⟨rfl, rfl⟩ := Prod.ext_iff.1 (Option.some.inj hcall)
    exact ⟨kept_locClientClose h ok pHandle, fun _ => trivial,
      fun _ hst v hv => locClientClose_released h ok pHandle hst hv⟩

/-- **When a call of a run does its part.** -/
theorem doesItsPart_iff {es : List (Event V)} {e : Event V}
    (h : Run step Initialised ({} : State V) es s) (hi : Initialised s e)
    (hreturns : (call s e).isSome = true) : DoesItsPart s e ↔ Orderly s e := by
  have hkept : Kept s := by
    refine h.invariant kept_initial fun s e t hi hs hstep => ?_
    obtain ⟨⟨st, t⟩, hcall, rfl⟩ := Option.map_eq_some_iff.1 hstep
    exact (step_released hs hi hcall).1
  obtain ⟨⟨st, t⟩, hcall⟩ := Option.isSome_iff_exists.1 hreturns
  obtain ⟨ht, hreleased⟩ := step_released hkept hi hcall
  rw [← hreleased]
  constructor
  · exact fun h => (h st t hcall).1
  · intro h st' t' hcall'
    obtain ⟨rfl, rfl⟩ := Prod.mk.inj (Option.some.inj (hcall.symm.trans hcall'))
    exact ⟨h, ht.books.twice⟩

/-- All calls succeed. -/
def sampleOpen : OpenCalls := {}

/-- The state after a client was opened and closed. -/
def afterClose : State Unit :=
  ((openInstance sampleOpen (-1) true (some ()) {}).map
    fun r => (locClientClose true (some ()) r.2).2).getD {}

/-- A client is opened, and its release fails. -/
theorem doesItsPart_iff_sample :
    ∃ s : State Unit, s.handle () = some 0 ∧ DoesItsPart s (.locClientClose false (some ())) := by
  have hopen : Initialised ({} : State Unit) (.openInstance sampleOpen (-1) true (some ())) :=
    fun _ _ _ _ _ h => by cases h
  have hrun : Run step Initialised ({} : State Unit)
      [.openInstance sampleOpen (-1) true (some ())] _ := .cons hopen rfl (.nil _)
  let e : Event Unit := .locClientClose false (some ())
  have hi : ∀ s, Initialised s e := fun _ => trivial
  have he : ∀ s, Orderly s e := fun _ => trivial
  exact ⟨_, rfl, (doesItsPart_iff hrun (hi _) rfl).2 (he _)⟩

/-- The error callback cannot be registered; the events cannot be registered, and the client cannot
be released; the notifier cannot be released; no notifier can be made, and in the variable for it
stands one that has been released before. -/
theorem not_doesItsPart_samples :
    ¬ DoesItsPart ({} : State Unit)
      (.openInstance { init := { registerErrorCb := false } } (-1) true (some ())) ∧
    ¬ DoesItsPart ({} : State Unit)
      (.openInstance { regEvents := .sendErr, release := false } (-1) true (some ())) ∧
    ¬ DoesItsPart ({} : State Unit)
      (.openInstance { init := { notifierRelease := false } } (-1) true (some ())) ∧
    Run step (fun _ _ => True) {} [.openInstance sampleOpen (-1) true (some ()),
      .locClientClose true (some ())] afterClose ∧
    ¬ DoesItsPart afterClose
      (.openInstance { init := { notifierInit := false, notifier := some 1 } } (-1) true
        (some ())) := by
  refine ⟨fun h => ?_, fun h => ?_, fun h => ?_,
    .cons trivial rfl (.cons trivial rfl (.nil _)), fun h => ?_⟩
  · exact absurd ((h _ _ rfl).1.error (by decide)).2.held (by decide)
  · exact absurd ((h _ _ rfl).1.error (by decide)).2.held (by decide)
  · obtain ⟨v, r, client, -, -, -, hpool⟩ := (h _ _ rfl).1.success rfl
    have hlength : 3 = 2 := congrArg List.length hpool.held
    exact absurd hlength (by decide)
  · exact absurd (h _ _ rfl).2 (by decide)

end Clients

end LocApi

end Msm8909w
