import Msm8909w.LocSync.SyncReq

/-!
# Who owns a slot

Every slot in use belongs to exactly one call in progress, from `loc_alloc_slot` to
`loc_free_slot`.  `Step` lists what a step can do; `Inv` is the invariant it preserves.

* `inv_of_run` : the invariant holds in every state of every run,
* `ownership_of_run` : what it means for the slots and the payload buffers.
-/

namespace Msm8909w

namespace LocSync

variable {args : CallId → Args}

/-! ### What a step can do -/

/-- The step of a call that keeps its slot: it goes on at `pc`, changes the slot to `slot` and
leaves the events `es` behind. -/
def State.own (s : State) (c : CallId) (i : SlotId) (pc : Pc) (slot : Slot) (es : List Event) :
    State :=
  { s with
    slots := Function.update s.slots i slot
    pc := Function.update s.pc c pc
    log := es ++ s.log }

/-- The steps a state can make. -/
inductive Step (args : CallId → Args) (s : State) : Action → State → Prop
  | alloc {c : CallId} {i : SlotId} (hpc : s.pc c = .idle) (hfree : s.slotInUse i = false) :
      Step args s (.alloc c) ({ s with
        inUse := true, slotInUse := Function.update s.slotInUse i true }.goto c (.allocated i))
  | full {c : CallId} (hpc : s.pc c = .idle) (hfull : ∀ i, s.slotInUse i = true) :
      Step args s (.alloc c) (s.return c .success)
  | select {c : CallId} {i : SlotId} (hpc : s.pc c = .allocated i) :
      Step args s (.select c) (s.own c i (.selected i) ((args c).slot c) [.selected c i])
  | sendOk {c : CallId} {i : SlotId} (hpc : s.pc c = .selected i) :
      Step args s (.send c .success) (s.own c i (.sent i) (s.slots i) [.sent c .success])
  | sendFailed {c : CallId} {i : SlotId} {status : Status} (hpc : s.pc c = .selected i)
      (hst : status ≠ .success) : Step args s (.send c status)
        (s.own c i (.releasing i status) (s.slots i) [.sent c status])
  | check {c : CallId} {i : SlotId} (hpc : s.pc c = .sent i) (huse : s.slotInUse i = true) :
      Step args s (.check c) (s.own c i (.entering i) (s.slots i) [])
  | invalid {c : CallId} {i : SlotId} (hpc : s.pc c = .sent i) (huse : s.slotInUse i = false) :
      Step args s (.check c) (s.return c .failureInternal)
  | arrived {c : CallId} {i : SlotId} (hpc : s.pc c = .entering i)
      (harr : (s.slots i).indHasArrived = true) :
      Step args s (.enter c) (s.own c i (.releasing i .success) (s.slots i) [])
  | busy {c : CallId} {i : SlotId} (hpc : s.pc c = .entering i)
      (hwait : (s.slots i).indIsWaiting = true) :
      Step args s (.enter c) (s.own c i (.releasing i .failureInternal) (s.slots i) [])
  | wait {c : CallId} {i : SlotId} (hpc : s.pc c = .entering i)
      (harr : (s.slots i).indHasArrived = false) (hwait : (s.slots i).indIsWaiting = false) :
      Step args s (.enter c) (s.own c i (.waiting i)
        { s.slots i with indIsWaiting := true, signalled := false } [])
  | wake {c : CallId} {i : SlotId} {reason : Reason} (hpc : s.pc c = .waiting i)
      (hsig : reason = .signal → (s.slots i).signalled = true) :
      Step args s (.wake c reason) (s.own c i
        (.releasing i (if reason = .timeout then .failureTimeout else .success))
        { s.slots i with indIsWaiting := false } [])
  | free {c : CallId} {i : SlotId} {status : Status} (hpc : s.pc c = .releasing i status) :
      Step args s (.free c) ((locFreeSlot s i).return c status)
  | deliver (ind : Ind) : Step args s (.deliver ind) (locSyncProcessInd s ind)

theorem own_self {s : State} (c : CallId) (i : SlotId) (pc : Pc) :
    s.own c i pc (s.slots i) [] = s.goto c pc := by
  simp only [State.own, State.goto, Function.update_eq_self, List.nil_append]

theorem freeSlot_eq_some {s : State} {i : SlotId} (h : s.freeSlot = some i) :
    s.slotInUse i = false := by
  simpa using List.find?_some h

theorem freeSlot_eq_none {s : State} (h : s.freeSlot = none) (i : SlotId) :
    s.slotInUse i = true := by
  simpa using List.find?_eq_none.1 h i (List.mem_finRange i)

theorem Step.of_step {s t : State} {a : Action} (h : step args s a = some t) :
    Step args s a t := by
  cases a with
  | alloc c =>
    simp only [step] at h
    split at h
    · rename_i hpc
      cases hfree : s.freeSlot with
      | none =>
        rw [hfree] at h
        obtain rfl := Option.some.inj h
        exact .full hpc (freeSlot_eq_none hfree)
      | some i =>
        rw [hfree] at h
        obtain rfl := Option.some.inj h
        exact .alloc hpc (freeSlot_eq_some hfree)
    · cases h
  | select c =>
    simp only [step] at h
    split at h
    · rename_i i hpc
      obtain rfl := Option.some.inj h
      exact .select hpc
    · cases h
  | send c status =>
    simp only [step] at h
    split at h
    · rename_i i hpc
      obtain rfl := Option.some.inj h
      by_cases hst : status = .success
      · subst hst
        simpa [State.own, State.goto] using @Step.sendOk args s c i hpc
      · simpa [State.own, State.goto, hst] using @Step.sendFailed args s c i status hpc hst
    · cases h
  | check c =>
    simp only [step] at h
    split at h
    · rename_i i hpc
      split_ifs at h with huse
      · obtain rfl := Option.some.inj h
        rw [← own_self]
        exact .check hpc huse
      · obtain rfl := Option.some.inj h
        exact .invalid hpc (Bool.eq_false_iff.2 huse)
    · cases h
  | enter c =>
    simp only [step] at h
    split at h
    · rename_i i hpc
      split_ifs at h with harr hwait
      · obtain rfl := Option.some.inj h
        rw [← own_self]
        exact .arrived hpc harr
      · obtain rfl := Option.some.inj h
        rw [← own_self]
        exact .busy hpc hwait
      · obtain rfl := Option.some.inj h
        exact .wait hpc (Bool.eq_false_iff.2 harr) (Bool.eq_false_iff.2 hwait)
    · cases h
  | wake c reason =>
    simp only [step] at h
    split at h
    · rename_i i hpc
      split_ifs at h with hsig
      obtain rfl := Option.some.inj h
      have hstatus : waitStatus reason.retVal =
          if reason = .timeout then .failureTimeout else .success := by
        cases reason <;> rfl
      rw [hstatus]
      exact .wake hpc fun hr => by simpa [hr] using hsig
    · cases h
  | free c =>
    simp only [step] at h
    split at h
    · rename_i i status hpc
      obtain rfl := Option.some.inj h
      exact .free hpc
    · cases h
  | deliver ind =>
    obtain rfl := Option.some.inj h
    exact .deliver ind

/-! ### The invariant -/

/-- The slots in use, their owners and their payload pointers. -/
structure Inv (s : State) : Prop where
  inUse : s.inUse = true ↔ ∃ i, s.slotInUse i = true
  owned : ∀ c i, (s.pc c).slot = some i → s.slotInUse i = true
  owner : ∀ i, s.slotInUse i = true → ∃ c, (s.pc c).slot = some i
  unique : ∀ c c' i, (s.pc c).slot = some i → (s.pc c').slot = some i → c = c'
  unused : ∀ i, s.slotInUse i = false → s.slots i = .unused
  /-- A payload pointer points to the buffer of the owner. -/
  ptr : ∀ c i, (s.slots i).recvIndPayloadPtr = some c → (s.pc c).slot = some i

theorem inv_locSyncReqInit : Inv locSyncReqInit := by
  refine ⟨?_, nofun, nofun, nofun, fun _ _ => rfl, nofun⟩
  simp [locSyncReqInit]

section

variable {s : State} {c : CallId} {i : SlotId} {pc : Pc}

/-- The owner of a slot keeps it and changes it. -/
theorem Inv.own (h : Inv s) (hc : (s.pc c).slot = some i) (hpc : pc.slot = some i) {slot : Slot}
    (hptr : ∀ c', slot.recvIndPayloadPtr = some c' → c' = c) (es : List Event) :
    Inv (s.own c i pc slot es) := by
  have hslot : ∀ c', (Function.update s.pc c pc c').slot = (s.pc c').slot := by
    intro c'
    by_cases heq : c' = c
    · rw [heq, Function.update_self, hpc, hc]
    · rw [Function.update_of_ne heq]
  have huse := h.owned c i hc
  refine ⟨h.inUse, fun c' j hj => ?_, fun j hj => ?_, fun c' c'' j hj hj' => ?_, fun j hj => ?_,
    fun c' j hj => ?_⟩
  · exact h.owned c' j ((hslot c').symm.trans hj)
  · obtain ⟨c', hc'⟩ := h.owner j hj
    exact ⟨c', (hslot c').trans hc'⟩
  · exact h.unique c' c'' j ((hslot c').symm.trans hj) ((hslot c'').symm.trans hj')
  · have hne : j ≠ i := by
      rintro rfl
      exact absurd (huse.symm.trans hj) (by decide)
    exact (Function.update_of_ne hne _ _).trans (h.unused j hj)
  · simp only [State.own] at hj ⊢
    rw [hslot c']
    by_cases heq : j = i
    · subst heq
      rw [Function.update_self] at hj
      rw [hptr c' hj, hc]
    · rw [Function.update_of_ne heq] at hj
      exact h.ptr c' j hj

theorem Inv.own_self (h : Inv s) (hc : (s.pc c).slot = some i) (hpc : pc.slot = some i)
    (es : List Event) : Inv (s.own c i pc (s.slots i) es) :=
  h.own hc hpc (fun c' hptr => h.unique c' c i (h.ptr c' i hptr) hc) es

/-- A call that owns no slot returns. -/
theorem Inv.return (h : Inv s) (hc : (s.pc c).slot = none) (status : Status) :
    Inv (s.return c status) := by
  have hslot : ∀ c', (Function.update s.pc c (.returned status) c').slot = (s.pc c').slot := by
    intro c'
    by_cases heq : c' = c
    · rw [heq, Function.update_self, hc, Pc.slot]
    · rw [Function.update_of_ne heq]
  refine ⟨h.inUse, fun c' j hj => ?_, fun j hj => ?_, fun c' c'' j hj hj' => ?_, h.unused,
    fun c' j hj => ?_⟩
  · exact h.owned c' j ((hslot c').symm.trans hj)
  · obtain ⟨c', hc'⟩ := h.owner j hj
    exact ⟨c', (hslot c').trans hc'⟩
  · exact h.unique c' c'' j ((hslot c').symm.trans hj) ((hslot c'').symm.trans hj')
  · exact (hslot c').trans (h.ptr c' j hj)

/-- A call takes a free slot. -/
theorem Inv.alloc (h : Inv s) (hc : (s.pc c).slot = none) (hfree : s.slotInUse i = false) :
    Inv ({ s with inUse := true, slotInUse := Function.update s.slotInUse i true }.goto c
      (.allocated i)) := by
  have hother : ∀ c' j, (s.pc c').slot = some j → j ≠ i ∧ c' ≠ c := by
    intro c' j hj
    refine ⟨?_, ?_⟩
    · rintro rfl
      exact absurd ((h.owned c' j hj).symm.trans hfree) (by decide)
    · rintro rfl
      cases hc.symm.trans hj
  have hslot : ∀ c' j, (Function.update s.pc c (.allocated i) c').slot = some j ↔
      (c' = c ∧ j = i) ∨ (s.pc c').slot = some j := by
    intro c' j
    by_cases heq : c' = c
    · subst heq
      rw [Function.update_self, hc]
      simp [Pc.slot, eq_comm]
    · simp [heq]
  have hin : ∀ j, Function.update s.slotInUse i true j = true ↔ j = i ∨ s.slotInUse j = true := by
    intro j
    by_cases heq : j = i
    · simp [heq]
    · simp [heq]
  refine ⟨⟨fun _ => ⟨i, (hin i).2 (.inl rfl)⟩, fun _ => rfl⟩, fun c' j hj => ?_, fun j hj => ?_,
    fun c' c'' j hj hj' => ?_, fun j hj => ?_, fun c' j hj => (hslot c' j).2 (.inr (h.ptr c' j hj))⟩
  · rcases (hslot c' j).1 hj with ⟨-, heq⟩ | hj
    · exact (hin j).2 (.inl heq)
    · exact (hin j).2 (.inr (h.owned c' j hj))
  · rcases (hin j).1 hj with heq | huse
    · exact ⟨c, (hslot c j).2 (.inl ⟨rfl, heq⟩)⟩
    · obtain ⟨c', hc'⟩ := h.owner j huse
      exact ⟨c', (hslot c' j).2 (.inr hc')⟩
  · rcases (hslot c' j).1 hj with ⟨hc', hji⟩ | hk <;>
      rcases (hslot c'' j).1 hj' with ⟨hc'', hji'⟩ | hk'
    · rw [hc', hc'']
    · exact absurd hji (hother c'' j hk').1
    · exact absurd hji' (hother c' j hk).1
    · exact h.unique c' c'' j hk hk'
  · have hnot : ¬ (j = i ∨ s.slotInUse j = true) := by
      rw [← hin j]
      exact Bool.eq_false_iff.1 hj
    exact h.unused j (Bool.eq_false_iff.2 fun huse => hnot (.inr huse))

/-- The owner of a slot frees it and returns. -/
theorem Inv.free (h : Inv s) (hc : (s.pc c).slot = some i) (status : Status) :
    Inv ((locFreeSlot s i).return c status) := by
  have hslot : ∀ c' j, (Function.update s.pc c (.returned status) c').slot = some j ↔
      j ≠ i ∧ (s.pc c').slot = some j := by
    intro c' j
    by_cases heq : c' = c
    · subst heq
      rw [Function.update_self, hc]
      simpa [Pc.slot] using fun hne (heq : i = j) => hne heq.symm
    · rw [Function.update_of_ne heq]
      refine ⟨fun hj => ⟨?_, hj⟩, fun hj => hj.2⟩
      rintro rfl
      exact heq (h.unique c' c j hj hc)
  have hin : ∀ j, Function.update s.slotInUse i false j = true ↔ j ≠ i ∧ s.slotInUse j = true := by
    intro j
    by_cases heq : j = i
    · simp [heq]
    · simp [heq]
  refine ⟨?_, fun c' j hj => ?_, fun j hj => ?_, fun c' c'' j hj hj' => ?_, fun j hj => ?_,
    fun c' j hj => ?_⟩
  · simp only [State.return, locFreeSlot]
    split_ifs with hany
    · obtain ⟨j, -, hj⟩ := List.any_eq_true.1 hany
      exact ⟨fun _ => ⟨j, hj⟩, fun _ => h.inUse.2 ⟨j, ((hin j).1 hj).2⟩⟩
    · refine ⟨nofun, fun ⟨j, hj⟩ => ?_⟩
      exact absurd (List.any_eq_true.2 ⟨j, List.mem_finRange j, hj⟩) hany
  · obtain ⟨hne, hj⟩ := (hslot c' j).1 hj
    exact (hin j).2 ⟨hne, h.owned c' j hj⟩
  · obtain ⟨hne, hj⟩ := (hin j).1 hj
    obtain ⟨c', hc'⟩ := h.owner j hj
    exact ⟨c', (hslot c' j).2 ⟨hne, hc'⟩⟩
  · exact h.unique c' c'' j ((hslot c' j).1 hj).2 ((hslot c'' j).1 hj').2
  · simp only [State.return, locFreeSlot] at hj ⊢
    by_cases heq : j = i
    · rw [heq, Function.update_self]
    · rw [Function.update_of_ne heq] at hj ⊢
      exact h.unused j hj
  · simp only [State.return, locFreeSlot] at hj
    by_cases heq : j = i
    · rw [heq, Function.update_self] at hj
      cases hj
    · rw [Function.update_of_ne heq] at hj
      exact (hslot c' j).2 ⟨heq, h.ptr c' j hj⟩

theorem notified_ptr (slot : Slot) (ind : Ind) :
    (slot.notified ind).recvIndPayloadPtr = slot.recvIndPayloadPtr := by
  unfold Slot.notified
  split_ifs <;> rfl

theorem slotInUse_of_mem_served {ind : Ind} (hi : i ∈ s.served ind) : s.slotInUse i = true := by
  have hm := matches_of_mem_served hi
  simp only [Slot.matches, Bool.and_eq_true] at hm
  exact hm.1.1.1

theorem Inv.deliver (h : Inv s) (ind : Ind) : Inv (locSyncProcessInd s ind) := by
  rw [locSyncProcessInd_eq h.inUse]
  refine ⟨h.inUse, h.owned, h.owner, h.unique, fun j hj => ?_, fun c' j hj => ?_⟩
  · have hnot : j ∉ s.served ind := fun hmem =>
      absurd ((slotInUse_of_mem_served hmem).symm.trans hj) (by decide)
    exact (if_neg hnot).trans (h.unused j hj)
  · refine h.ptr c' j ?_
    simp only [notifyAll] at hj
    split_ifs at hj
    · rwa [notified_ptr] at hj
    · exact hj

/-- Every step preserves the invariant. -/
theorem Inv.step {t : State} {a : Action} (h : Inv s) (hs : Step args s a t) : Inv t := by
  cases hs with
  | alloc hpc hfree => exact h.alloc (by rw [hpc]; rfl) hfree
  | full hpc _ => exact h.return (by rw [hpc]; rfl) _
  | select hpc =>
    refine h.own (by rw [hpc]; rfl) rfl (fun c' hc' => ?_) _
    simp only [Args.slot] at hc'
    split_ifs at hc'
    exact (Option.some.inj hc').symm
  | sendOk hpc => exact h.own_self (by rw [hpc]; rfl) rfl _
  | sendFailed hpc _ => exact h.own_self (by rw [hpc]; rfl) rfl _
  | check hpc _ => exact h.own_self (by rw [hpc]; rfl) rfl _
  | invalid hpc huse =>
    -- the owner of a slot finds it in use
    have := h.owned _ _ (by rw [hpc]; rfl)
    exact absurd (this.symm.trans huse) (by decide)
  | arrived hpc _ => exact h.own_self (by rw [hpc]; rfl) rfl _
  | busy hpc _ => exact h.own_self (by rw [hpc]; rfl) rfl _
  | @wait c i hpc _ _ =>
    have hc : (s.pc c).slot = some i := by rw [hpc]; rfl
    refine h.own hc ?_ (fun c' hptr => ?_) _
    · rfl
    · exact h.unique c' c i (h.ptr c' i hptr) hc
  | @wake c i _ hpc _ =>
    have hc : (s.pc c).slot = some i := by rw [hpc]; rfl
    refine h.own hc ?_ (fun c' hptr => ?_) _
    · rfl
    · exact h.unique c' c i (h.ptr c' i hptr) hc
  | free hpc => exact h.free (by rw [hpc]; rfl) _
  | deliver ind => exact h.deliver ind

end

/-- The invariant holds in every state of every run. -/
theorem inv_of_run {G : State → Action → Prop} {as : List Action} {s : State}
    (h : Run (step args) G locSyncReqInit as s) : Inv s :=
  h.invariant inv_locSyncReqInit fun _ _ _ _ hs hstep => hs.step (.of_step hstep)

/-! ### Calls that have returned -/

/-- A call that has been made and has not returned. -/
def Pc.InProgress : Pc → Prop
  | idle | returned _ => False
  | _ => True

theorem Pc.inProgress_of_slot {pc : Pc} {i : SlotId} (h : pc.slot = some i) : pc.InProgress := by
  cases pc <;> cases h <;> trivial

/-- The first event is not a copy into the buffer of a call whose return is the second. -/
def NotLate (newer older : Event) : Prop :=
  ∀ k c status, newer = .copied k c → older ≠ .returned c status

/-- The calls whose return is in the log have returned, and their buffers are not written after
that. -/
structure LogInv (s : State) : Prop where
  returned : ∀ c status, Event.returned c status ∈ s.log → ∃ st, s.pc c = .returned st
  notLate : s.log.Pairwise NotLate

section

variable {s t : State}

theorem mem_deliveryEvents {slots : SlotId → Slot} {ind : Ind} {k : ℕ} {is : List SlotId}
    {e : Event} (h : e ∈ deliveryEvents slots ind k is) :
    ∃ i ∈ is, e = .processed ind.clientHandle ind.indId i ∨
      ∃ c, (slots i).copyTo ind = some c ∧ e = .copied k c := by
  induction is with
  | nil => cases h
  | cons i is ih =>
    rcases List.mem_append.1 h with h | h
    · obtain ⟨j, hj, h⟩ := ih h
      exact ⟨j, List.mem_cons_of_mem i hj, h⟩
    · refine ⟨i, List.mem_cons_self, ?_⟩
      simpa [Slot.events, eq_comm] using h

theorem Inv.slot_of_copyTo (h : Inv s) {i : SlotId} {ind : Ind} {c : CallId}
    (hcopy : (s.slots i).copyTo ind = some c) : (s.pc c).slot = some i := by
  unfold Slot.copyTo at hcopy
  split_ifs at hcopy
  exact h.ptr c i hcopy

/-- A step that only adds events about calls, none of them a copy. -/
theorem LogInv.cons (h : LogInv s) {e : Event} (hlog : t.log = e :: s.log)
    (he : ∀ k c, e ≠ .copied k c)
    (hret : ∀ c status, e = .returned c status → ∃ st, t.pc c = .returned st)
    (hpc : ∀ c status, s.pc c = .returned status → t.pc c = s.pc c) : LogInv t := by
  constructor
  · intro c status hmem
    rw [hlog] at hmem
    rcases List.mem_cons.1 hmem with heq | hmem
    · exact hret c status heq.symm
    · obtain ⟨st, hst⟩ := h.returned c status hmem
      exact ⟨st, by rw [hpc c st hst, hst]⟩
  · rw [hlog]
    exact List.pairwise_cons.2 ⟨fun _ _ k c _ heq => absurd heq (he k c), h.notLate⟩

theorem LogInv.same (h : LogInv s) (hlog : t.log = s.log)
    (hpc : ∀ c status, s.pc c = .returned status → t.pc c = s.pc c) : LogInv t := by
  refine ⟨fun c status hmem => ?_, hlog ▸ h.notLate⟩
  obtain ⟨st, hst⟩ := h.returned c status (hlog ▸ hmem)
  exact ⟨st, by rw [hpc c st hst, hst]⟩

theorem LogInv.deliver (h : LogInv s) (hinv : Inv s) (ind : Ind) :
    LogInv (locSyncProcessInd s ind) := by
  rw [locSyncProcessInd_eq hinv.inUse]
  constructor
  · intro c status hmem
    rcases List.mem_append.1 hmem with hmem | hmem
    · obtain ⟨i, -, heq | ⟨c', -, heq⟩⟩ := mem_deliveryEvents hmem <;> cases heq
    · exact h.returned c status hmem
  · refine List.pairwise_append.2 ⟨?_, h.notLate, ?_⟩
    · refine List.pairwise_of_forall_mem_list fun e _ e' he' k c status _ heq' => ?_
      subst heq'
      obtain ⟨i, -, heq | ⟨c', -, heq⟩⟩ := mem_deliveryEvents he' <;> cases heq
    · -- the payload goes to a call that owns a slot, so it has not returned
      rintro e he _ he' k c status rfl rfl
      obtain ⟨st, hst⟩ := h.returned c status he'
      obtain ⟨i, -, heq | ⟨c', hcopy, heq⟩⟩ := mem_deliveryEvents he
      · cases heq
      · cases heq
        have hslot := hinv.slot_of_copyTo hcopy
        rw [hst] at hslot
        cases hslot

theorem LogInv.step {a : Action} (h : LogInv s) (hinv : Inv s) (hs : Step args s a t) :
    LogInv t := by
  have hkeep : ∀ {c c' : CallId} {pc : Pc} {status : Status}, (∀ st, s.pc c ≠ .returned st) →
      s.pc c' = .returned status → Function.update s.pc c pc c' = s.pc c' := by
    intro c c' pc status hc hc'
    refine Function.update_of_ne ?_ _ _
    rintro rfl
    exact hc status hc'
  cases hs with
  | alloc hpc _ => exact h.same rfl fun _ _ => hkeep (by rw [hpc]; nofun)
  | @full c hpc _ =>
    refine h.cons (e := .returned c .success) rfl nofun ?_ fun _ _ => hkeep (by rw [hpc]; nofun)
    rintro _ _ ⟨⟩
    exact ⟨_, Function.update_self ..⟩
  | @select c i hpc =>
    exact h.cons (e := .selected c i) rfl nofun nofun fun _ _ => hkeep (by rw [hpc]; nofun)
  | @sendOk c _ hpc =>
    exact h.cons (e := .sent c .success) rfl nofun nofun fun _ _ => hkeep (by rw [hpc]; nofun)
  | @sendFailed c _ status hpc _ =>
    exact h.cons (e := .sent c status) rfl nofun nofun fun _ _ => hkeep (by rw [hpc]; nofun)
  | check hpc _ => exact h.same rfl fun _ _ => hkeep (by rw [hpc]; nofun)
  | @invalid c _ hpc _ =>
    refine h.cons (e := .returned c .failureInternal) rfl nofun ?_
      fun _ _ => hkeep (by rw [hpc]; nofun)
    rintro _ _ ⟨⟩
    exact ⟨_, Function.update_self ..⟩
  | arrived hpc _ => exact h.same rfl fun _ _ => hkeep (by rw [hpc]; nofun)
  | busy hpc _ => exact h.same rfl fun _ _ => hkeep (by rw [hpc]; nofun)
  | wait hpc _ _ => exact h.same rfl fun _ _ => hkeep (by rw [hpc]; nofun)
  | wake hpc _ => exact h.same rfl fun _ _ => hkeep (by rw [hpc]; nofun)
  | @free c _ status hpc =>
    refine h.cons (e := .returned c status) rfl nofun ?_ fun _ _ => hkeep (by rw [hpc]; nofun)
    rintro _ _ ⟨⟩
    exact ⟨_, Function.update_self ..⟩
  | deliver ind => exact h.deliver hinv ind

end

/-! ### Ownership -/

/-- Who owns the slots of a state, and whose buffers have been written. -/
structure Ownership (s : State) : Prop where
  /-- `in_use` says whether a slot is in use. -/
  inUse : s.inUse = true ↔ ∃ i, s.slotInUse i = true
  /-- A slot in use belongs to exactly one call in progress. -/
  owner : ∀ i, s.slotInUse i = true → ∃! c, (s.pc c).InProgress ∧ (s.pc c).slot = some i
  /-- No two calls own the same slot. -/
  unique : ∀ c c' i, (s.pc c).slot = some i → (s.pc c').slot = some i → c = c'
  /-- A slot that is not in use has no client and no payload pointer. -/
  unused : ∀ i, s.slotInUse i = false →
    (s.slots i).clientHandle = invalidHandle ∧ (s.slots i).recvIndPayloadPtr = none
  /-- Nothing is copied into the buffer of a call after its return. -/
  notLate : s.log.Pairwise NotLate

/-- **Slot ownership.**  In every state of every run, every slot in use belongs to exactly one call
in progress, and no payload goes to a call that has returned. -/
theorem ownership_of_run {as : List Action} {s : State}
    (h : Run (step args) (fun _ _ => True) locSyncReqInit as s) : Ownership s := by
  have hinv := inv_of_run h
  have hlog : Inv s ∧ LogInv s := by
    refine h.invariant (I := fun s => Inv s ∧ LogInv s)
      ⟨inv_locSyncReqInit, nofun, List.Pairwise.nil⟩ ?_
    rintro u a t - ⟨hu, hl⟩ hstep
    exact ⟨hu.step (.of_step hstep), hl.step hu (.of_step hstep)⟩
  refine ⟨hinv.inUse, fun i hi => ?_, hinv.unique, fun i hi => ?_, hlog.2.notLate⟩
  · obtain ⟨c, hc⟩ := hinv.owner i hi
    exact ⟨c, ⟨Pc.inProgress_of_slot hc, hc⟩, fun c' hc' => hinv.unique c' c i hc'.2 hc⟩
  · rw [hinv.unused i hi]
    exact ⟨rfl, rfl⟩

/-- Calls that all wait for indication 9 of client 1. -/
def sampleArgs (_ : CallId) : Args := ⟨1, 7, 9, true⟩

/-- Two calls, the first of which is answered while the second has not filled in its slot. -/
theorem ownership_two_calls :
    ∃ s, Run (step sampleArgs) (fun _ _ => True) locSyncReqInit
      [.alloc 0, .select 0, .alloc 1, .send 0 .success, .deliver ⟨1, 9, some [5]⟩] s ∧
      Ownership s := by
  obtain ⟨s, hs⟩ := Option.isSome_iff_exists.1 (by decide :
    (exec (step sampleArgs) (fun _ _ => True) locSyncReqInit
      [.alloc 0, .select 0, .alloc 1, .send 0 .success, .deliver ⟨1, 9, some [5]⟩]).isSome = true)
  have hrun := run_of_exec hs
  exact ⟨s, hrun, ownership_of_run hrun⟩

end LocSync

end Msm8909w
