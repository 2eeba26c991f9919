import Msm8909w.LocSync.Answers

/-!
# Indications and the requests they answer

`loc_sync_process_ind` remembers an indication in `ind_has_arrived` only if nobody waits for it
yet.  A slot whose thread has been signalled, or has given up, therefore takes further indications
until it is freed.  In runs in which no indication comes in at such a moment (`Timely`), every
payload goes to one request and every request gets one payload (`oneAnswer_of_run`).
-/

namespace Msm8909w

namespace LocSync

variable {args : CallId → Args} {s t : State} {c c' : CallId} {i j : SlotId} {a : Action}

/-- The event is a copy into the buffer of the call. -/
def Event.copiesTo (c : CallId) : Event → Bool
  | copied _ c' => c' = c
  | _ => false

/-- The event is a copy of the payload of the delivery. -/
def Event.copiesOf (k : ℕ) : Event → Bool
  | copied k' _ => k' = k
  | _ => false

/-- The slot of a call that is about to free it. -/
def Pc.releases : Pc → Option SlotId
  | releasing i _ => some i
  | _ => none

/-- No indication comes in for a request that has been signalled or has stopped waiting, while its
slot is not freed; and waits do not end spuriously. -/
def Timely : State → Action → Prop
  | s, .deliver ind => ∀ i, (s.slots i).matches (s.slotInUse i) ind = true →
      (s.slots i).signalled = false ∧ ∀ c, (s.pc c).releases ≠ some i
  | _, .wake _ reason => reason ≠ .spurious
  | _, _ => True

/-! ### Counting copies -/

section Counting

variable {slots : SlotId → Slot} {used : SlotId → Bool} {ind : Ind} {k : ℕ} {is : List SlotId}

theorem countP_copiesTo_deliveryEvents :
    (deliveryEvents slots ind k is).countP (Event.copiesTo c) =
      is.countP fun i => (slots i).copyTo ind = some c := by
  induction is with
  | nil => rfl
  | cons i is ih =>
    rw [deliveryEvents, List.countP_append, ih, List.countP_cons]
    cases hcopy : (slots i).copyTo ind with
    | none => simp [Slot.events, hcopy, Event.copiesTo]
    | some c' => simp [Slot.events, hcopy, Event.copiesTo, List.countP_cons]

theorem countP_copiesOf_deliveryEvents {k' : ℕ} :
    (deliveryEvents slots ind k is).countP (Event.copiesOf k') =
      if k = k' then is.countP fun i => ((slots i).copyTo ind).isSome else 0 := by
  induction is with
  | nil => simp [deliveryEvents]
  | cons i is ih =>
    rw [deliveryEvents, List.countP_append, ih, List.countP_cons]
    cases hcopy : (slots i).copyTo ind with
    | none => simp [Slot.events, hcopy, Event.copiesOf]
    | some c' =>
      by_cases hk : k = k'
      · simp [Slot.events, hcopy, Event.copiesOf, hk]
      · simp [Slot.events, hcopy, Event.copiesOf, hk]

/-- One served slot at most takes the payload. -/
theorem countP_isSome_served_le :
    ((served used slots ind is).countP fun i => ((slots i).copyTo ind).isSome) ≤ 1 := by
  induction is with
  | nil => simp [served]
  | cons i is ih =>
    rw [served]
    split_ifs with hm hc
    · simp [hc]
    · simpa [List.countP_cons, hc] using ih
    · exact ih

theorem countP_copyTo_served_le :
    ((served used slots ind is).countP fun i => (slots i).copyTo ind = some c) ≤ 1 := by
  refine le_trans (List.countP_mono_left fun i _ hi => ?_) countP_isSome_served_le
  rw [of_decide_eq_true hi]
  rfl

end Counting

/-! ### One buffer for each payload, one payload for each buffer -/

/-- The number of copies into the buffer of a call. -/
def State.writes (s : State) (c : CallId) : ℕ := s.log.countP (Event.copiesTo c)

/-- The call has not been answered. -/
def Open (c : CallId) (s : State) : Prop :=
  s.pc c = .idle ∨ (∃ i, s.pc c = .allocated i) ∨
    ∃ i, (s.pc c).filled = some i ∧ (s.slots i).indHasArrived = false ∧
      (s.slots i).signalled = false

/-- The buffer of a call is written once at most, and not before the call is answered. -/
structure Written (c : CallId) (s : State) : Prop where
  once : s.writes c ≤ 1
  zero : Open c s → s.writes c = 0

theorem countP_copiesTo_eq_zero {es : List Event} (h : ∀ e ∈ es, e.call ≠ some c) :
    es.countP (Event.copiesTo c) = 0 := by
  refine List.countP_eq_zero.2 fun e he hcopy => ?_
  cases e with
  | copied k c' =>
    have hc : c' = c := by simpa [Event.copiesTo] using hcopy
    exact h _ he (congrArg some hc)
  | _ => cases hcopy

theorem Written.of_eq (h : Written c s) (hw : t.writes c = s.writes c)
    (hopen : Open c t → Open c s) : Written c t :=
  ⟨hw ▸ h.once, fun ht => hw ▸ h.zero (hopen ht)⟩

theorem Written.frame (h : Written c s) (hf : Frame c s t) : Written c t := by
  obtain ⟨es, hlog, hes⟩ := hf.log
  refine h.of_eq ?_ ?_
  · rw [State.writes, hlog, List.countP_append, countP_copiesTo_eq_zero hes, Nat.zero_add]
    rfl
  · unfold Open
    rw [hf.pc]
    rintro (h | h | ⟨i, hi, harr, hsig⟩)
    · exact .inl h
    · exact .inr (.inl h)
    · rw [hf.slot i (Pc.slot_of_filled hi)] at harr hsig
      exact .inr (.inr ⟨i, hi, harr, hsig⟩)

theorem not_open_of_returned {status : Status} (h : s.pc c = .returned status) : ¬ Open c s := by
  rintro (h' | ⟨i, h'⟩ | ⟨i, h', -⟩) <;> rw [h] at h' <;> cases h'

/-- The steps of the call itself copy nothing. -/
theorem Written.step (h : Written c s) (hcont : Contents args s) (hs : Step args s a t)
    (ha : a.call = some c) : Written c t := by
  have hc := hcont c
  have hown : ∀ {i : SlotId} {pc : Pc} {slot : Slot} {es : List Event},
      (s.pc c).slot = some i → pc.filled = some i →
      (∀ e ∈ es, e.copiesTo c = false) →
      (slot.indHasArrived = false → slot.signalled = false → Open c s) →
      Written c (s.own c i pc slot es) := by
    intro i pc slot es hslot hpc hes hopen
    refine h.of_eq ?_ ?_
    · rw [State.writes, State.own, List.countP_append, List.countP_eq_zero.2, Nat.zero_add]
      · rfl
      · intro e he
        rw [hes e he]
        exact Bool.false_ne_true
    · have hat : (s.own c i pc slot es).pc c = pc := Function.update_self ..
      have hsl : (s.own c i pc slot es).slots i = slot := Function.update_self ..
      unfold Open
      rw [hat]
      rintro (rfl | ⟨j, rfl⟩ | ⟨j, hj, harr, hsig⟩)
      · cases hpc
      · cases hpc
      · obtain rfl : i = j := Option.some.inj (hpc.symm.trans hj)
        rw [hsl] at harr hsig
        exact hopen harr hsig
  cases hs with
  | @alloc c i hpc hfree =>
    obtain rfl := Option.some.inj ha
    exact h.of_eq rfl fun _ => .inl hpc
  | full hpc _ =>
    obtain rfl := Option.some.inj ha
    exact h.of_eq rfl fun ho => absurd ho (not_open_of_returned (Function.update_self ..))
  | select hpc =>
    obtain rfl := Option.some.inj ha
    exact hown (by rw [hpc]; rfl) rfl (by simp [Event.copiesTo]) fun _ _ => .inr (.inl ⟨_, hpc⟩)
  | sendOk hpc =>
    obtain rfl := Option.some.inj ha
    exact hown (by rw [hpc]; rfl) rfl (by simp [Event.copiesTo])
      fun h1 h2 => .inr (.inr ⟨_, by rw [hpc]; rfl, h1, h2⟩)
  | sendFailed hpc _ =>
    obtain rfl := Option.some.inj ha
    exact hown (by rw [hpc]; rfl) rfl (by simp [Event.copiesTo])
      fun h1 h2 => .inr (.inr ⟨_, by rw [hpc]; rfl, h1, h2⟩)
  | check hpc _ =>
    obtain rfl := Option.some.inj ha
    exact hown (by rw [hpc]; rfl) rfl (by simp)
      fun h1 h2 => .inr (.inr ⟨_, by rw [hpc]; rfl, h1, h2⟩)
  | invalid hpc _ =>
    obtain rfl := Option.some.inj ha
    exact h.of_eq rfl fun ho => absurd ho (not_open_of_returned (Function.update_self ..))
  | arrived hpc _ =>
    obtain rfl := Option.some.inj ha
    exact hown (by rw [hpc]; rfl) rfl (by simp)
      fun h1 h2 => .inr (.inr ⟨_, by rw [hpc]; rfl, h1, h2⟩)
  | busy hpc _ =>
    obtain rfl := Option.some.inj ha
    exact hown (by rw [hpc]; rfl) rfl (by simp)
      fun h1 h2 => .inr (.inr ⟨_, by rw [hpc]; rfl, h1, h2⟩)
  | @wait c i hpc harr _ =>
    obtain rfl := Option.some.inj ha
    rw [hpc] at hc
    have hsig := (hc.flags i rfl).2
    exact hown (by rw [hpc]; rfl) rfl (by simp)
      fun _ _ => .inr (.inr ⟨i, by rw [hpc]; rfl, harr, hsig⟩)
  | wake hpc _ =>
    obtain rfl := Option.some.inj ha
    exact hown (by rw [hpc]; rfl) rfl (by simp)
      fun h1 h2 => .inr (.inr ⟨_, by rw [hpc]; rfl, h1, h2⟩)
  | free hpc =>
    obtain rfl := Option.some.inj ha
    exact h.of_eq rfl fun ho => absurd ho (not_open_of_returned (Function.update_self ..))
  | deliver ind => cases ha

/-- The log after a delivery. -/
theorem writes_locSyncProcessInd (hinv : Inv s) (ind : Ind) :
    (locSyncProcessInd s ind).writes c =
      ((s.served ind).countP fun i => (s.slots i).copyTo ind = some c) + s.writes c := by
  rw [locSyncProcessInd_eq hinv.inUse, State.writes, List.countP_append,
    countP_copiesTo_deliveryEvents]
  rfl

/-- A slot that has been served is answered. -/
theorem answered_notified (slot : Slot) (ind : Ind) :
    (slot.notified ind).indHasArrived = true ∨ (slot.notified ind).signalled = true := by
  unfold Slot.notified
  split_ifs
  · exact .inr rfl
  · exact .inl rfl

/-- A delivery does not take an answer back. -/
theorem unanswered_of_notifyAll {ind : Ind} {is : List SlotId}
    (harr : (notifyAll s.slots ind is i).indHasArrived = false)
    (hsig : (notifyAll s.slots ind is i).signalled = false) :
    (s.slots i).indHasArrived = false ∧ (s.slots i).signalled = false ∧ i ∉ is := by
  by_cases hmem : i ∈ is
  · rw [notifyAll_of_mem hmem] at harr hsig
    rcases answered_notified (s.slots i) ind with h | h
    · exact absurd (h.symm.trans harr) (by decide)
    · exact absurd (h.symm.trans hsig) (by decide)
  · rw [notifyAll_of_notMem hmem] at harr hsig
    exact ⟨harr, hsig, hmem⟩

/-- The owner of a slot with a payload pointer has filled it in. -/
theorem Inv.filled_of_copyTo (hinv : Inv s) (hcont : Contents args s) {ind : Ind}
    (hcopy : (s.slots i).copyTo ind = some c) : (s.pc c).filled = some i := by
  have hslot := hinv.slot_of_copyTo hcopy
  have hempty := (hcont c).empty i
  cases hpc : s.pc c with
  | allocated j =>
    rw [hpc] at hslot
    obtain rfl : j = i := Option.some.inj hslot
    rw [Slot.copyTo, hempty hpc, ite_self] at hcopy
    cases hcopy
  | _ =>
    rw [hpc] at hslot
    exact hslot

theorem Written.deliver (h : Written c s) (hinv : Inv s) (hcont : Contents args s) {ind : Ind}
    (hG : Timely s (.deliver ind)) : Written c (locSyncProcessInd s ind) := by
  have hopen : Open c (locSyncProcessInd s ind) →
      Open c s ∧ ∀ i, (s.pc c).filled = some i → i ∉ s.served ind := by
    rw [locSyncProcessInd_eq hinv.inUse]
    rintro (hpc | ⟨i, hpc⟩ | ⟨i, hpc, harr, hsig⟩)
    · refine ⟨.inl hpc, fun i hi => ?_⟩
      rw [show s.pc c = .idle from hpc] at hi
      cases hi
    · refine ⟨.inr (.inl ⟨i, hpc⟩), fun j hj => ?_⟩
      rw [show s.pc c = .allocated i from hpc] at hj
      cases hj
    · obtain ⟨harr, hsig, hmem⟩ := unanswered_of_notifyAll harr hsig
      refine ⟨.inr (.inr ⟨i, hpc, harr, hsig⟩), fun j hj => ?_⟩
      rwa [Option.some.inj (hj.symm.trans hpc)]
  have hw := writes_locSyncProcessInd (c := c) hinv ind
  by_cases hzero : ((s.served ind).countP fun i => (s.slots i).copyTo ind = some c) = 0
  · rw [hzero, Nat.zero_add] at hw
    exact h.of_eq hw fun ho => (hopen ho).1
  · -- the payload goes to this call, which has not been answered before
    obtain ⟨i, hi, hcopy⟩ := List.countP_pos_iff.1 (Nat.pos_of_ne_zero hzero)
    have hfilled := hinv.filled_of_copyTo hcont (of_decide_eq_true hcopy)
    have hm := matches_of_mem_served hi
    have hbefore : s.writes c = 0 :=
      h.zero (.inr (.inr ⟨i, hfilled, (matches_iff.1 hm).2.2.2, (hG i hm).1⟩))
    rw [hbefore, Nat.add_zero] at hw
    exact ⟨hw.trans_le countP_copyTo_served_le, fun ho => absurd hi ((hopen ho).2 i hfilled)⟩

/-- The payloads of the deliveries so far have been copied once at most. -/
def CopiedOnce (s : State) : Prop :=
  ∀ k, s.log.countP (Event.copiesOf k) ≤ if k < s.deliveries then 1 else 0

theorem Event.copiesOf_eq_false {e : Event} {k : ℕ} (h : ∀ k c, e ≠ .copied k c) :
    e.copiesOf k = false := by
  cases e with
  | copied k' c => exact absurd rfl (h k' c)
  | _ => rfl

theorem CopiedOnce.append (h : CopiedOnce s) (hd : t.deliveries = s.deliveries) (es : List Event)
    (hlog : t.log = es ++ s.log) (hes : ∀ e ∈ es, ∀ k c, e ≠ .copied k c) : CopiedOnce t := by
  intro k
  have hzero : es.countP (Event.copiesOf k) = 0 := by
    refine List.countP_eq_zero.2 fun e he => ?_
    rw [Event.copiesOf_eq_false (hes e he)]
    exact Bool.false_ne_true
  rw [hlog, hd, List.countP_append, hzero, Nat.zero_add]
  exact h k

theorem CopiedOnce.step (h : CopiedOnce s) (hinv : Inv s) (hs : Step args s a t) :
    CopiedOnce t := by
  cases hs with
  | @select c i hpc => exact h.append rfl [.selected c i] rfl (by simp)
  | @sendOk c _ hpc =>
    exact h.append rfl [.sent c .success] rfl (by simp)
  | @sendFailed c _ status hpc _ =>
    exact h.append rfl [.sent c status] rfl (by simp)
  | @full c hpc _ =>
    exact h.append rfl [.returned c .success] rfl (by simp)
  | @invalid c _ hpc _ =>
    exact h.append rfl [.returned c .failureInternal] rfl (by simp)
  | @free c _ status hpc =>
    exact h.append rfl [.returned c status] rfl (by simp)
  | deliver ind =>
    intro k
    rw [locSyncProcessInd_eq hinv.inUse]
    show List.countP _ (_ ++ _) ≤ _
    rw [List.countP_append, countP_copiesOf_deliveryEvents]
    have hk := h k
    have hone : ((s.served ind).countP fun i => ((s.slots i).copyTo ind).isSome) ≤ 1 :=
      countP_isSome_served_le
    by_cases heq : s.deliveries = k
    · rw [if_pos heq, if_pos (by simp [heq])]
      rw [if_neg (by simp [heq])] at hk
      rw [Nat.le_zero.1 hk]
      exact hone
    · rw [if_neg heq, Nat.zero_add]
      refine hk.trans ?_
      split_ifs with h1 h2
      · exact le_rfl
      · exact absurd (Nat.lt_succ_of_lt h1) h2
      · exact Nat.zero_le 1
      · exact le_rfl
  | _ => exact h.append rfl [] rfl (by simp)

/-! ### As many indications as requests -/

/-- The slot of a call between `loc_sync_select_ind` and the end of its wait. -/
def Pc.active : Pc → Option SlotId
  | selected i | sent i | entering i | waiting i => some i
  | _ => none

theorem Pc.filled_of_active {pc : Pc} (h : pc.active = some i) : pc.filled = some i := by
  cases pc <;> first | exact h | cases h

/-- The call waits for a payload of the client and the `ind_id`. -/
def Args.Asks (a : Args) (handle indId : ℕ) : Prop :=
  a.clientHandle = handle ∧ a.indId = indId ∧ a.wantsPayload = true

/-- The request of the call is pending: it has selected the indication, it has not been answered,
and it has not stopped waiting. -/
def Pending (args : CallId → Args) (handle indId : ℕ) (s : State) (c : CallId) : Prop :=
  (args c).Asks handle indId ∧ ∃ i, (s.pc c).active = some i ∧
    (s.slots i).indHasArrived = false ∧ (s.slots i).signalled = false

/-- Whether an action delivers an indication of the client and the `ind_id`. -/
def Action.delivers (handle indId : ℕ) : Action → Bool
  | deliver ind => ind.clientHandle = handle ∧ ind.indId = indId
  | _ => false

/-- The indications of the client and the `ind_id` have a payload, no further request for them is
made, and the pending ones are sent and do not time out. -/
def Undisturbed (args : CallId → Args) (handle indId : ℕ) (s : State) : Action → Prop
  | .deliver ind => ind.clientHandle = handle → ind.indId = indId → ind.hasPayload = true
  | .select c => ¬ (args c).Asks handle indId
  | .send c status => Pending args handle indId s c → status = .success
  | .wake c reason => Pending args handle indId s c → reason ≠ .timeout
  | _ => True

section Pending

variable {handle indId : ℕ}

theorem pending_of_frame (hf : Frame c s t) :
    Pending args handle indId t c ↔ Pending args handle indId s c := by
  unfold Pending
  rw [hf.pc]
  refine and_congr_right fun _ => exists_congr fun i => and_congr_right fun hi => ?_
  rw [hf.slot i (Pc.slot_of_filled (Pc.filled_of_active hi))]

theorem not_pending_of_active (h : (s.pc c).active = none) : ¬ Pending args handle indId s c := by
  rintro ⟨-, i, hi, -⟩
  rw [h] at hi
  cases hi

/-- The call goes on with its slot. -/
theorem pending_own {pc : Pc} {slot : Slot} {es : List Event} (hfrom : (s.pc c).active = some i)
    (hto : pc.active = some i) (harr : slot.indHasArrived = (s.slots i).indHasArrived)
    (hsig : slot.signalled = (s.slots i).signalled) :
    Pending args handle indId (s.own c i pc slot es) c ↔ Pending args handle indId s c := by
  have hat : (s.own c i pc slot es).pc c = pc := Function.update_self ..
  have hslot : (s.own c i pc slot es).slots i = slot := Function.update_self ..
  unfold Pending
  rw [hat, hfrom, hto]
  refine and_congr_right fun _ => exists_congr fun j => and_congr_right fun hj => ?_
  rw [← Option.some.inj hj, hslot, harr, hsig]

/-- A call that is not pending and does not become pending. -/
theorem pending_congr_of_not (hs : ¬ Pending args handle indId s c)
    (ht : ¬ Pending args handle indId t c) :
    Pending args handle indId t c ↔ Pending args handle indId s c :=
  ⟨fun h => absurd h ht, fun h => absurd h hs⟩

/-- The steps of a call that is pending leave it pending, and no call becomes pending. -/
theorem pending_own_step (hinv : Inv s) (hcont : Contents args s) (hT : Timely s a)
    (hU : Undisturbed args handle indId s a) (hs : Step args s a t) (ha : a.call = some c) :
    Pending args handle indId t c ↔ Pending args handle indId s c := by
  have hc := hcont c
  have hleave : ∀ {i : SlotId} {status : Status} {slot : Slot} {es : List Event},
      ¬ Pending args handle indId (s.own c i (.releasing i status) slot es) c := fun {_ _ _ _} =>
    not_pending_of_active (by simp [State.own, Pc.active])
  have hreturn : ∀ {u : State} {status : Status},
      ¬ Pending args handle indId (u.return c status) c := fun {_ _} =>
    not_pending_of_active (by simp [State.return, Pc.active])
  cases hs with
  | alloc hpc hfree =>
    obtain rfl := Option.some.inj ha
    exact pending_congr_of_not (not_pending_of_active (by rw [hpc]; rfl))
      (not_pending_of_active (by simp [State.goto, Pc.active]))
  | full hpc _ =>
    obtain rfl := Option.some.inj ha
    exact pending_congr_of_not (not_pending_of_active (by rw [hpc]; rfl)) hreturn
  | select hpc =>
    obtain rfl := Option.some.inj ha
    exact pending_congr_of_not (fun h => hU h.1) (fun h => hU h.1)
  | sendOk hpc =>
    obtain rfl := Option.some.inj ha
    exact pending_own (by rw [hpc]; rfl) rfl rfl rfl
  | sendFailed hpc hst =>
    obtain rfl := Option.some.inj ha
    exact pending_congr_of_not (fun h => hst (hU h)) hleave
  | check hpc _ =>
    obtain rfl := Option.some.inj ha
    exact pending_own (by rw [hpc]; rfl) rfl rfl rfl
  | invalid hpc huse =>
    have := hinv.owned _ _ (by rw [hpc]; rfl)
    exact absurd (this.symm.trans huse) (by decide)
  | @arrived c i hpc harr =>
    obtain rfl := Option.some.inj ha
    refine pending_congr_of_not ?_ hleave
    rintro ⟨-, j, hj, hj', -⟩
    rw [hpc] at hj
    obtain rfl : i = j := Option.some.inj hj
    exact absurd (harr.symm.trans hj') (by decide)
  | busy hpc hwait =>
    obtain rfl := Option.some.inj ha
    rw [hpc] at hc
    exact absurd ((hc.flags _ rfl).1.symm.trans hwait) (by decide)
  | wait hpc harr hwait =>
    obtain rfl := Option.some.inj ha
    rw [hpc] at hc
    exact pending_own (by rw [hpc]; rfl) rfl rfl (hc.flags _ rfl).2.symm
  | @wake c i reason hpc hsig =>
    obtain rfl := Option.some.inj ha
    refine pending_congr_of_not (fun hp => ?_) hleave
    cases reason with
    | signal =>
      obtain ⟨-, j, hj, -, hj'⟩ := hp
      rw [hpc] at hj
      obtain rfl : i = j := Option.some.inj hj
      exact absurd ((hsig rfl).symm.trans hj') (by decide)
    | timeout => exact hU hp rfl
    | spurious => exact hT rfl
  | free hpc =>
    obtain rfl := Option.some.inj ha
    exact pending_congr_of_not (not_pending_of_active (by rw [hpc]; rfl)) hreturn
  | deliver ind => cases ha

/-- The slot of a call that asks for other indications is not served. -/
theorem asks_of_mem_served (hcont : Contents args s) {ind : Ind} (hi : i ∈ s.served ind)
    (hc : (s.pc c).filled = some i) :
    (args c).clientHandle = ind.clientHandle ∧ (args c).indId = ind.indId := by
  obtain ⟨-, hh, hd, -⟩ := matches_iff.1 (matches_of_mem_served hi)
  have hf := (hcont c).filled i hc
  exact ⟨hf.handle.symm.trans hh, hf.indId.symm.trans hd.symm⟩

/-- A delivery leaves the slots it does not serve alone, and answers the others. -/
theorem pending_deliver (hinv : Inv s) (ind : Ind) :
    Pending args handle indId (locSyncProcessInd s ind) c ↔
      Pending args handle indId s c ∧ ∀ i, (s.pc c).active = some i → i ∉ s.served ind := by
  rw [locSyncProcessInd_eq hinv.inUse]
  constructor
  · rintro ⟨hask, i, hi, harr, hsig⟩
    obtain ⟨harr, hsig, hmem⟩ := unanswered_of_notifyAll harr hsig
    refine ⟨⟨hask, i, hi, harr, hsig⟩, fun j hj => ?_⟩
    rwa [Option.some.inj (hj.symm.trans hi)]
  · rintro ⟨⟨hask, i, hi, harr, hsig⟩, hmem⟩
    refine ⟨hask, i, hi, ?_, ?_⟩
    · exact (congrArg Slot.indHasArrived (notifyAll_of_notMem (hmem i hi))).trans harr
    · exact (congrArg Slot.signalled (notifyAll_of_notMem (hmem i hi))).trans hsig

/-- The call a served slot belongs to is pending, if the delivery is timely. -/
theorem pending_of_copyTo (hinv : Inv s) (hcont : Contents args s) {ind : Ind}
    (hT : Timely s (.deliver ind)) (hi : i ∈ s.served ind)
    (hcopy : (s.slots i).copyTo ind = some c) :
    Pending args ind.clientHandle ind.indId s c ∧ (s.pc c).active = some i := by
  have hfilled := hinv.filled_of_copyTo hcont hcopy
  have hm := matches_of_mem_served hi
  obtain ⟨hsig, hrel⟩ := hT i hm
  obtain ⟨hh, hd⟩ := asks_of_mem_served hcont hi hfilled
  have hactive : (s.pc c).active = some i := by
    cases hpc : s.pc c with
    | releasing j status =>
      rw [hpc] at hfilled
      obtain rfl : j = i := Option.some.inj hfilled
      exact absurd (congrArg Pc.releases hpc) (hrel c)
    | _ =>
      rw [hpc] at hfilled
      exact hfilled
  have hwants : (args c).wantsPayload = true := by
    unfold Slot.copyTo at hcopy
    split_ifs at hcopy
    rw [((hcont c).filled i hfilled).ptr] at hcopy
    by_contra hw
    rw [if_neg hw] at hcopy
    cases hcopy
  exact ⟨⟨⟨hh, hd, hwants⟩, i, hactive, (matches_iff.1 hm).2.2.2, hsig⟩, hactive⟩

/-- A delivery with a payload answers one of the pending requests. -/
theorem exists_answered (hinv : Inv s) (hcont : Contents args s) {ind : Ind}
    (hT : Timely s (.deliver ind)) (hpay : ind.hasPayload = true)
    (hc : Pending args ind.clientHandle ind.indId s c) :
    ∃ c', Pending args ind.clientHandle ind.indId s c' ∧
      1 ≤ (locSyncProcessInd s ind).writes c' ∧
      ∀ d, Pending args ind.clientHandle ind.indId (locSyncProcessInd s ind) d ↔
        Pending args ind.clientHandle ind.indId s d ∧ d ≠ c' := by
  have htakes : ∀ {d : CallId} {j : SlotId}, Pending args ind.clientHandle ind.indId s d →
      (s.pc d).active = some j → (s.slots j).copyTo ind = some d := by
    rintro d j ⟨hask, -⟩ hj
    rw [Slot.copyTo, if_pos hpay, ((hcont d).filled j (Pc.filled_of_active hj)).ptr,
      if_pos hask.2.2]
  obtain ⟨⟨hh, hd, hw⟩, i, hi, harr, hsig⟩ := id hc
  have hf := (hcont c).filled i (Pc.filled_of_active hi)
  have hm : (s.slots i).matches (s.slotInUse i) ind = true :=
    matches_iff.2 ⟨hinv.owned c i (Pc.slot_of_filled (Pc.filled_of_active hi)), hf.handle.trans hh,
      (hf.indId.trans hd).symm, harr⟩
  have htake : ((s.slots i).copyTo ind).isSome = true := by
    rw [htakes hc hi]
    rfl
  obtain ⟨j, hj, hcopy⟩ := exists_served (List.mem_finRange i) hm htake
  obtain ⟨c', hc'⟩ := Option.isSome_iff_exists.1 hcopy
  obtain ⟨hpend, hactive⟩ := pending_of_copyTo hinv hcont hT hj hc'
  refine ⟨c', hpend, ?_, fun d => (pending_deliver hinv ind).trans (and_congr_right fun hd => ?_)⟩
  · rw [writes_locSyncProcessInd hinv]
    exact le_add_right (List.countP_pos_iff.2 ⟨j, hj, decide_eq_true hc'⟩)
  · constructor
    · rintro hnot rfl
      exact hnot j hactive hj
    · -- the served slot of another pending request would have taken the payload
      intro hne l hl hmem
      have htake' := htakes hd hl
      obtain rfl : l = j := copyTo_unique hmem hj (by rw [htake']; rfl) hcopy
      exact hne (Option.some.inj (htake'.symm.trans hc'))

/-- A step that does not deliver such an indication leaves the pending requests pending. -/
theorem pending_step (hinv : Inv s) (hcont : Contents args s) (hT : Timely s a)
    (hU : Undisturbed args handle indId s a) (hs : Step args s a t)
    (ha : a.delivers handle indId = false) :
    Pending args handle indId t c ↔ Pending args handle indId s c := by
  cases hcall : a.call with
  | none =>
    cases hs with
    | deliver ind =>
      rw [pending_deliver hinv, and_iff_left_iff_imp]
      rintro ⟨hask, -⟩ i hi hmem
      obtain ⟨hh, hd⟩ := asks_of_mem_served hcont hmem (Pc.filled_of_active hi)
      have hkey : ind.clientHandle = handle ∧ ind.indId = indId :=
        ⟨hh.symm.trans hask.1, hd.symm.trans hask.2.1⟩
      exact of_decide_eq_false ha hkey
    | _ => cases hcall
  | some c' =>
    by_cases hne : c = c'
    · subst hne
      exact pending_own_step hinv hcont hT hU hs hcall
    · exact pending_of_frame (hs.frame hinv hcall hne)

end Pending

/-! ### Whole runs -/

/-- What holds in the states of a timely run. -/
structure Orderly (args : CallId → Args) (s : State) : Prop where
  inv : Inv s
  contents : Contents args s
  written : ∀ c, Written c s
  copied : CopiedOnce s

theorem orderly_locSyncReqInit : Orderly args locSyncReqInit :=
  ⟨inv_locSyncReqInit, contents_locSyncReqInit, fun _ => ⟨Nat.zero_le 1, fun _ => rfl⟩,
    fun _ => Nat.zero_le _⟩

theorem Orderly.step (h : Orderly args s) (hT : Timely s a) (hs : Step args s a t) :
    Orderly args t := by
  refine ⟨h.inv.step hs, h.contents.step h.inv hs, fun c => ?_, h.copied.step h.inv hs⟩
  cases ha : a.call with
  | none =>
    cases hs with
    | deliver ind => exact (h.written c).deliver h.inv h.contents hT
    | _ => cases ha
  | some c' =>
    by_cases hne : c = c'
    · subst hne
      exact (h.written c).step h.contents hs ha
    · exact (h.written c).frame (hs.frame h.inv ha hne)

/-- What has been copied stays copied. -/
theorem Step.writes_le (hs : Step args s a t) (hinv : Inv s) : s.writes c ≤ t.writes c := by
  have hcons : ∀ e : Event, s.writes c ≤ (e :: s.log).countP (Event.copiesTo c) := fun e =>
    (List.sublist_cons_self e s.log).countP_le
  cases hs with
  | deliver ind =>
    rw [writes_locSyncProcessInd hinv]
    exact Nat.le_add_left _ _
  | select => exact hcons _
  | sendOk => exact hcons _
  | sendFailed => exact hcons _
  | full => exact hcons _
  | invalid => exact hcons _
  | free => exact hcons _
  | _ => exact le_rfl

/-- Every pending request has been answered at the end of an undisturbed run with as many
deliveries as there were pending requests. -/
theorem writes_of_undisturbed {handle indId : ℕ} {bs : List Action} {cs : List CallId}
    (h : Run (step args) (fun s a => Timely s a ∧ Undisturbed args handle indId s a) s bs t)
    (hs : Orderly args s) (hnd : cs.Nodup) (hcs : ∀ c, Pending args handle indId s c ↔ c ∈ cs)
    (hcount : bs.countP (Action.delivers handle indId) = cs.length) :
    (∀ c, s.writes c ≤ t.writes c) ∧ ∀ c ∈ cs, 1 ≤ t.writes c := by
  induction h generalizing cs with
  | nil s =>
    obtain rfl := List.length_eq_zero_iff.1 hcount.symm
    exact ⟨fun _ => le_rfl, nofun⟩
  | @cons s u t a bs hG hstep _ ih =>
    have hstep : Step args s a u := .of_step hstep
    have hu := hs.step hG.1 hstep
    rw [List.countP_cons] at hcount
    have hmono : (∀ c, u.writes c ≤ t.writes c) → ∀ c, s.writes c ≤ t.writes c :=
      fun h c => (hstep.writes_le hs.inv).trans (h c)
    by_cases ha : a.delivers handle indId = true
    · rw [if_pos ha] at hcount
      obtain ⟨c, cs', rfl⟩ := List.exists_cons_of_length_eq_add_one hcount.symm
      cases hstep with
      | deliver ind =>
        obtain ⟨rfl, rfl⟩ : ind.clientHandle = handle ∧ ind.indId = indId := of_decide_eq_true ha
        obtain ⟨c', hc', hw, hleft⟩ := exists_answered hs.inv hs.contents hG.1 (hG.2 rfl rfl)
          ((hcs c).2 List.mem_cons_self)
        have hmem := (hcs c').1 hc'
        have hlen : bs.countP (Action.delivers ind.clientHandle ind.indId) =
            ((c :: cs').erase c').length := by
          rw [List.length_erase_of_mem hmem]
          exact Nat.eq_sub_of_add_eq hcount
        obtain ⟨h1, h2⟩ := ih hu (hnd.erase c')
          (fun d => by rw [hleft, hcs, hnd.mem_erase_iff, and_comm]) hlen
        refine ⟨hmono h1, fun d hd => ?_⟩
        by_cases hdc : d = c'
        · rw [hdc]
          exact hw.trans (h1 c')
        · exact h2 d ((List.mem_erase_of_ne hdc).2 hd)
      | _ => cases ha
    · have ha := Bool.eq_false_iff.2 ha
      rw [ha] at hcount
      obtain ⟨h1, h2⟩ := ih hu hnd
        (fun c => by rw [pending_step hs.inv hs.contents hG.1 hG.2 hstep ha, hcs]) hcount
      exact ⟨hmono h1, h2⟩

theorem orderly_of_run {as : List Action} (hs : Orderly args s)
    (h : Run (step args) Timely s as t) :
    Orderly args t :=
  h.invariant hs fun _ _ _ hT ho hstep => ho.step hT (.of_step hstep)

theorem Pending.open {handle indId : ℕ} (h : Pending args handle indId s c) : Open c s := by
  obtain ⟨-, i, hi, harr, hsig⟩ := h
  exact .inr (.inr ⟨i, Pc.filled_of_active hi, harr, hsig⟩)

/-- **One indication for one request**, in every timely run: every payload is copied to one buffer
at most, every buffer is written once at most, and as many indications as there are pending requests
answer all of them. -/
theorem oneAnswer_of_run {as : List Action} (h : Run (step args) Timely locSyncReqInit as s) :
    (∀ k, s.log.countP (Event.copiesOf k) ≤ 1) ∧ (∀ c, s.writes c ≤ 1) ∧
    ∀ (handle indId : ℕ) (cs : List CallId) (bs : List Action) (t : State), cs.Nodup →
      (∀ c, Pending args handle indId s c ↔ c ∈ cs) →
      Run (step args) (fun s a => Timely s a ∧ Undisturbed args handle indId s a) s bs t →
      bs.countP (Action.delivers handle indId) = cs.length →
      ∀ c ∈ cs, s.writes c = 0 ∧ t.writes c = 1 := by
  have hs := orderly_of_run orderly_locSyncReqInit h
  refine ⟨fun k => (hs.copied k).trans ?_, fun c => (hs.written c).once, ?_⟩
  · split_ifs
    · exact le_rfl
    · exact Nat.zero_le 1
  · intro handle indId cs bs t hnd hcs hrun hcount c hc
    have ht := orderly_of_run hs (hrun.mono fun _ _ hG => hG.1)
    refine ⟨(hs.written c).zero ((hcs c).2 hc).open, ?_⟩
    exact le_antisymm (ht.written c).once ((writes_of_undisturbed hrun hs hnd hcs hcount).2 c hc)

/-! ### Two calls -/

/-- `Timely`, for the calls below a bound. -/
def TimelyBelow (n : ℕ) (s : State) : Action → Prop
  | .deliver ind => ∀ i, (s.slots i).matches (s.slotInUse i) ind = true →
      (s.slots i).signalled = false ∧ ∀ c < n, (s.pc c).releases ≠ some i
  | .alloc c => c < n
  | .wake _ reason => reason ≠ .spurious
  | _ => True

instance {n : ℕ} {s : State} : ∀ a, Decidable (TimelyBelow n s a)
  | .deliver ind =>
      inferInstanceAs (Decidable (∀ i, (s.slots i).matches (s.slotInUse i) ind = true →
      (s.slots i).signalled = false ∧ ∀ c < n, (s.pc c).releases ≠ some i))
  | .alloc c => inferInstanceAs (Decidable (c < n))
  | .wake _ reason => inferInstanceAs (Decidable (reason ≠ .spurious))
  | .select _ | .send .. | .check _ | .enter _ | .free _ => inferInstanceAs (Decidable True)

instance {a : Args} {handle indId : ℕ} : Decidable (a.Asks handle indId) :=
  inferInstanceAs (Decidable (_ ∧ _ ∧ _))

instance {handle indId : ℕ} : Decidable (Pending args handle indId s c) :=
  inferInstanceAs (Decidable (_ ∧ _))

instance {handle indId : ℕ} : ∀ a, Decidable (Undisturbed args handle indId s a)
  | .deliver _ => inferInstanceAs (Decidable (_ → _ → _))
  | .select _ => inferInstanceAs (Decidable (¬ _))
  | .send .. => inferInstanceAs (Decidable (_ → _))
  | .wake .. => inferInstanceAs (Decidable (_ → _))
  | .alloc _ | .check _ | .enter _ | .free _ => inferInstanceAs (Decidable True)

/-- The calls from a bound on have not been made. -/
def IdleFrom (n : ℕ) (s : State) : Prop := ∀ c, n ≤ c → s.pc c = .idle

theorem IdleFrom.step {n : ℕ} (h : IdleFrom n s) (hT : TimelyBelow n s a)
    (hstep : step args s a = some t) : IdleFrom n t := by
  have hs : Step args s a t := .of_step hstep
  have hupdate : ∀ {c : CallId} {pc : Pc}, c < n → IdleFrom n { s with
      pc := Function.update s.pc c pc } := fun {c pc} hc d hd => by
    rw [← h d hd]
    exact Function.update_of_ne (hc.trans_le hd).ne' _ _
  have hbelow : ∀ {c : CallId}, s.pc c ≠ .idle → c < n := fun {c} hc => by
    by_contra hle
    exact hc (h c (not_lt.1 hle))
  cases hs with
  | alloc => exact hupdate hT
  | full => exact hupdate hT
  | select hpc => exact hupdate (hbelow (by rw [hpc]; nofun))
  | sendOk hpc => exact hupdate (hbelow (by rw [hpc]; nofun))
  | sendFailed hpc => exact hupdate (hbelow (by rw [hpc]; nofun))
  | check hpc => exact hupdate (hbelow (by rw [hpc]; nofun))
  | invalid hpc => exact hupdate (hbelow (by rw [hpc]; nofun))
  | arrived hpc => exact hupdate (hbelow (by rw [hpc]; nofun))
  | busy hpc => exact hupdate (hbelow (by rw [hpc]; nofun))
  | wait hpc => exact hupdate (hbelow (by rw [hpc]; nofun))
  | wake hpc => exact hupdate (hbelow (by rw [hpc]; nofun))
  | free hpc => exact hupdate (hbelow (by rw [hpc]; nofun))
  | deliver ind =>
    intro c hc
    unfold locSyncProcessInd
    split_ifs
    · exact h c hc
    · exact h c hc

theorem timely_of_below {n : ℕ} (h : IdleFrom n s) (hT : TimelyBelow n s a) : Timely s a := by
  cases a with
  | deliver ind =>
    intro i hm
    refine ⟨(hT i hm).1, fun c => ?_⟩
    by_cases hc : c < n
    · exact (hT i hm).2 c hc
    · rw [h c (not_lt.1 hc)]
      nofun
  | wake => exact hT
  | _ => trivial

/-- Two calls that wait for the same indication. -/
def bothWaiting : List Action :=
  [.alloc 0, .select 0, .send 0 .success, .check 0, .enter 0,
    .alloc 1, .select 1, .send 1 .success, .check 1, .enter 1]

/-- Two calls and two indications, the second of which comes in after the first call has returned:
each call gets one of them. -/
theorem oneAnswer_two_calls :
    ∃ s t, Run (step sampleArgs) Timely locSyncReqInit bothWaiting s ∧
      Run (step sampleArgs) Timely s
        [.deliver ⟨1, 9, some [5]⟩, .wake 0 .signal, .free 0, .deliver ⟨1, 9, some [6]⟩] t ∧
      s.writes 0 = 0 ∧ t.writes 0 = 1 ∧ s.writes 1 = 0 ∧ t.writes 1 = 1 := by
  have hex : (exec (step sampleArgs) (TimelyBelow 2) locSyncReqInit bothWaiting).any (fun s =>
      (Pending sampleArgs 1 9 s 0 ∧ Pending sampleArgs 1 9 s 1) ∧
      (exec (step sampleArgs) (fun s a => TimelyBelow 2 s a ∧ Undisturbed sampleArgs 1 9 s a) s
        [.deliver ⟨1, 9, some [5]⟩, .wake 0 .signal, .free 0,
          .deliver ⟨1, 9, some [6]⟩]).isSome) = true := by
    decide
  obtain ⟨s, hs, hmem⟩ := (Option.any_eq_true ..).1 hex
  obtain ⟨⟨h0, h1⟩, ht⟩ := of_decide_eq_true hmem
  obtain ⟨t, ht⟩ := Option.isSome_iff_exists.1 ht
  have hstep : ∀ (s : State) (a : Action) (t : State), TimelyBelow 2 s a → IdleFrom 2 s →
      step sampleArgs s a = some t → IdleFrom 2 t := fun _ _ _ hT h => h.step hT
  have hrun := run_of_exec hs
  have hidle : IdleFrom 2 s := hrun.invariant (fun _ _ => rfl) hstep
  have hrun := hrun.mono_of_invariant (fun _ _ => rfl) hstep fun _ _ hT h => timely_of_below h hT
  have hrun' := (run_of_exec ht).mono_of_invariant hidle
    (fun s a t hG => hstep s a t hG.1) fun _ _ hG h => And.intro (timely_of_below h hG.1) hG.2
  have hcs : ∀ c, Pending sampleArgs 1 9 s c ↔ c ∈ [0, 1] := by
    rintro (_ | _ | c)
    · simpa using h0
    · simpa using h1
    · have hnot : ¬ Pending sampleArgs 1 9 s (c + 2) :=
        not_pending_of_active (by rw [hidle (c + 2) (Nat.le_add_left 2 c)]; rfl)
      simpa using hnot
  have hall := (oneAnswer_of_run hrun).2.2 1 9 [0, 1] _ t (by decide) hcs hrun' (by decide)
  exact ⟨s, t, hrun, hrun'.mono fun _ _ hG => hG.1, (hall 0 (by decide)).1,
    (hall 0 (by decide)).2, (hall 1 (by decide)).1, (hall 1 (by decide)).2⟩

/-- Two indications in a row both go to the first of two waiting calls: its answer is overwritten,
and the second call gets none. -/
theorem answer_overwritten :
    ∃ s t, Run (step sampleArgs) (fun _ _ => True) locSyncReqInit bothWaiting s ∧
      Pending sampleArgs 1 9 s 0 ∧ Pending sampleArgs 1 9 s 1 ∧
      Run (step sampleArgs) (Undisturbed sampleArgs 1 9) s
        [.deliver ⟨1, 9, some [5]⟩, .deliver ⟨1, 9, some [6]⟩] t ∧
      t.writes 0 = 2 ∧ t.writes 1 = 0 := by
  have hex : (exec (step sampleArgs) (fun _ _ => True) locSyncReqInit bothWaiting).any (fun s =>
      (Pending sampleArgs 1 9 s 0 ∧ Pending sampleArgs 1 9 s 1) ∧
      (exec (step sampleArgs) (Undisturbed sampleArgs 1 9) s
        [.deliver ⟨1, 9, some [5]⟩, .deliver ⟨1, 9, some [6]⟩]).any (fun t =>
          t.writes 0 = 2 ∧ t.writes 1 = 0)) = true := by
    decide
  obtain ⟨s, hs, hmem⟩ := (Option.any_eq_true ..).1 hex
  obtain ⟨⟨h0, h1⟩, ht⟩ := of_decide_eq_true hmem
  obtain ⟨t, ht, hw⟩ := (Option.any_eq_true ..).1 ht
  obtain ⟨hw0, hw1⟩ := of_decide_eq_true hw
  exact ⟨s, t, run_of_exec hs, h0, h1, run_of_exec ht, hw0, hw1⟩

end LocSync

end Msm8909w
