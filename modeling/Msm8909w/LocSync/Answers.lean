import Msm8909w.LocSync.Slots

/-!
# Requests and their answers

What a call of `loc_sync_send_req` knows when it returns.  A call reports success when it finds no
free slot and when its wait ends without a signal; in runs without these steps (`Served`) a success
is an answer (`answered_of_run`).

Invariants of a call are proved from its own steps and from deliveries; the steps of the other calls
do not concern it (`Step.frame`).
-/

namespace Msm8909w

namespace LocSync

variable {args : CallId → Args} {s t : State} {c c' : CallId} {i : SlotId} {a : Action}

/-! ### The steps of other calls -/

/-- The call that takes the step. -/
def Action.call : Action → Option CallId
  | alloc c | select c | send c _ | check c | enter c | wake c _ | free c => some c
  | deliver _ => none

/-- The call an event is about. -/
def Event.call : Event → Option CallId
  | selected c _ | sent c _ | copied _ c | returned c _ => some c
  | processed .. => none

/-- The step does not concern the call: it stays where it is, its slot is not touched, and nothing
is logged about it. -/
structure Frame (c : CallId) (s t : State) : Prop where
  pc : t.pc c = s.pc c
  slot : ∀ i, (s.pc c).slot = some i → t.slots i = s.slots i
  log : ∃ es, t.log = es ++ s.log ∧ ∀ e ∈ es, e.call ≠ some c

/-- The slot of another call is another slot. -/
theorem Inv.ne_slot (h : Inv s) {j : SlotId} (hc : (s.pc c).slot = some i)
    (hc' : (s.pc c').slot = some j) (hne : c' ≠ c) : j ≠ i := by
  rintro rfl
  exact hne (h.unique c' c j hc' hc)

theorem Frame.own (hinv : Inv s) (hc : (s.pc c).slot = some i) (hne : c' ≠ c) {pc : Pc}
    {slot : Slot} {es : List Event} (hes : ∀ e ∈ es, e.call = some c) :
    Frame c' s (s.own c i pc slot es) := by
  refine ⟨Function.update_of_ne hne _ _, fun j hj => ?_, es, rfl, fun e he => ?_⟩
  · exact Function.update_of_ne (hinv.ne_slot hc hj hne) _ _
  · rw [hes e he]
    exact fun h => hne (Option.some.inj h).symm

theorem Frame.return (hne : c' ≠ c) (status : Status) : Frame c' s (s.return c status) := by
  refine ⟨Function.update_of_ne hne _ _, fun _ _ => rfl, [.returned c status], rfl, ?_⟩
  simpa [Event.call] using hne.symm

/-- The steps of the other calls do not concern a call. -/
theorem Step.frame (hs : Step args s a t) (hinv : Inv s) (ha : a.call = some c)
    (hne : c' ≠ c) : Frame c' s t := by
  cases hs with
  | alloc hpc hfree =>
    obtain rfl := Option.some.inj ha
    exact ⟨Function.update_of_ne hne _ _, fun _ _ => rfl, [], rfl, by simp⟩
  | full hpc _ =>
    obtain rfl := Option.some.inj ha
    exact .return hne _
  | select hpc =>
    obtain rfl := Option.some.inj ha
    exact .own hinv (by rw [hpc]; rfl) hne (by simp [Event.call])
  | sendOk hpc =>
    obtain rfl := Option.some.inj ha
    exact .own hinv (by rw [hpc]; rfl) hne (by simp [Event.call])
  | sendFailed hpc _ =>
    obtain rfl := Option.some.inj ha
    exact .own hinv (by rw [hpc]; rfl) hne (by simp [Event.call])
  | check hpc _ =>
    obtain rfl := Option.some.inj ha
    exact .own hinv (by rw [hpc]; rfl) hne (by simp)
  | invalid hpc _ =>
    obtain rfl := Option.some.inj ha
    exact .return hne _
  | arrived hpc _ =>
    obtain rfl := Option.some.inj ha
    exact .own hinv (by rw [hpc]; rfl) hne (by simp)
  | busy hpc _ =>
    obtain rfl := Option.some.inj ha
    exact .own hinv (by rw [hpc]; rfl) hne (by simp)
  | wait hpc _ _ =>
    obtain rfl := Option.some.inj ha
    exact .own hinv (by rw [hpc]; rfl) hne (by simp)
  | wake hpc _ =>
    obtain rfl := Option.some.inj ha
    exact .own hinv (by rw [hpc]; rfl) hne (by simp)
  | @free c i status hpc =>
    obtain rfl := Option.some.inj ha
    have hc : (s.pc c).slot = some i := by rw [hpc]; rfl
    refine ⟨Function.update_of_ne hne _ _, fun j hj => ?_, [.returned c status], rfl, ?_⟩
    · exact Function.update_of_ne (hinv.ne_slot hc hj hne) _ _
    · simpa [Event.call] using hne.symm
  | deliver ind => cases ha

/-! ### What is in a slot -/

/-- The slot is filled in with the arguments of the call. -/
structure Filled (a : Args) (c : CallId) (slot : Slot) : Prop where
  handle : slot.clientHandle = a.clientHandle
  indId : slot.recvIndId = a.indId
  ptr : slot.recvIndPayloadPtr = if a.wantsPayload then some c else none

/-- The slot of a call that has filled it in. -/
def Pc.filled : Pc → Option SlotId
  | allocated _ => none
  | pc => pc.slot

/-- The flags of the slot of a call that stands at a point. -/
def Pc.Flags (slot : Slot) : Pc → Prop
  | waiting _ => slot.indIsWaiting = true ∧ slot.indHasArrived = false
  | releasing .. => slot.indIsWaiting = false
  | _ => slot.indIsWaiting = false ∧ slot.signalled = false

/-- What the slot of a call holds while the call stands at a point. -/
structure Content (a : Args) (c : CallId) (slots : SlotId → Slot) (pc : Pc) : Prop where
  empty : ∀ i, pc = .allocated i → (slots i).recvIndPayloadPtr = none
  filled : ∀ i, pc.filled = some i → Filled a c (slots i)
  flags : ∀ i, pc.filled = some i → pc.Flags (slots i)

theorem Pc.slot_of_filled {pc : Pc} (h : pc.filled = some i) : pc.slot = some i := by
  cases pc <;> first | exact h | cases h

theorem Content.of_none {a : Args} {slots : SlotId → Slot} {pc : Pc} (h : pc.slot = none) :
    Content a c slots pc := by
  refine ⟨fun i hi => ?_, fun i hi => ?_, fun i hi => ?_⟩
  · rw [hi] at h
    cases h
  · rw [Pc.slot_of_filled hi] at h
    cases h
  · rw [Pc.slot_of_filled hi] at h
    cases h

theorem Content.of_filled {a : Args} {slots : SlotId → Slot} {pc : Pc} (hpc : pc.filled = some i)
    (hfilled : Filled a c (slots i)) (hflags : pc.Flags (slots i)) : Content a c slots pc := by
  refine ⟨fun j hj => ?_, fun j hj => ?_, fun j hj => ?_⟩
  · rw [hj] at hpc
    cases hpc
  · rwa [Option.some.inj (hj.symm.trans hpc)]
  · rwa [Option.some.inj (hj.symm.trans hpc)]

theorem Content.congr {a : Args} {slots slots' : SlotId → Slot} {pc : Pc}
    (h : Content a c slots pc) (hslots : ∀ i, pc.slot = some i → slots' i = slots i) :
    Content a c slots' pc := by
  refine ⟨fun i hi => ?_, fun i hi => ?_, fun i hi => ?_⟩
  · rw [hslots i (by rw [hi]; rfl)]
    exact h.empty i hi
  · rw [hslots i (Pc.slot_of_filled hi)]
    exact h.filled i hi
  · rw [hslots i (Pc.slot_of_filled hi)]
    exact h.flags i hi

theorem Filled.notified {a : Args} {slot : Slot} {ind : Ind} (h : Filled a c slot)
    (hind : ind.indId = slot.recvIndId) : Filled a c (slot.notified ind) := by
  unfold Slot.notified
  split_ifs
  · exact ⟨h.handle, hind.trans h.indId, h.ptr⟩
  · exact ⟨h.handle, h.indId, h.ptr⟩

theorem Pc.Flags.notified {pc : Pc} {slot : Slot} (h : pc.Flags slot) (ind : Ind) :
    pc.Flags (slot.notified ind) := by
  cases pc <;> simp_all [Pc.Flags, Slot.notified]

theorem matches_iff {slot : Slot} {used : Bool} {ind : Ind} :
    slot.matches used ind = true ↔ used = true ∧ slot.clientHandle = ind.clientHandle ∧
      ind.indId = slot.recvIndId ∧ slot.indHasArrived = false := by
  simp [Slot.matches, and_assoc]

theorem notifyAll_of_mem {slots : SlotId → Slot} {ind : Ind} {is : List SlotId} (h : i ∈ is) :
    notifyAll slots ind is i = (slots i).notified ind := if_pos h

theorem notifyAll_of_notMem {slots : SlotId → Slot} {ind : Ind} {is : List SlotId} (h : i ∉ is) :
    notifyAll slots ind is i = slots i := if_neg h

theorem Content.deliver {a : Args} {pc : Pc} (h : Content a c s.slots pc) (ind : Ind) :
    Content a c (notifyAll s.slots ind (s.served ind)) pc := by
  refine ⟨fun i hi => ?_, fun i hi => ?_, fun i hi => ?_⟩
  · by_cases hmem : i ∈ s.served ind
    · rw [notifyAll_of_mem hmem, notified_ptr]
      exact h.empty i hi
    · rw [notifyAll_of_notMem hmem]
      exact h.empty i hi
  · by_cases hmem : i ∈ s.served ind
    · rw [notifyAll_of_mem hmem]
      exact (h.filled i hi).notified (matches_iff.1 (matches_of_mem_served hmem)).2.2.1
    · rw [notifyAll_of_notMem hmem]
      exact h.filled i hi
  · by_cases hmem : i ∈ s.served ind
    · rw [notifyAll_of_mem hmem]
      exact (h.flags i hi).notified ind
    · rw [notifyAll_of_notMem hmem]
      exact h.flags i hi

/-- The slots of all calls hold what they should. -/
def Contents (args : CallId → Args) (s : State) : Prop := ∀ c, Content (args c) c s.slots (s.pc c)

theorem contents_locSyncReqInit : Contents args locSyncReqInit := fun _ => .of_none rfl

/-- The call that takes the step, and what its slot holds afterwards. -/
theorem Content.own {a : Args} {pc : Pc} {slot : Slot} {es : List Event} (hpc : pc.filled = some i)
    (hfilled : Filled a c slot) (hflags : pc.Flags slot) :
    Content a c (s.own c i pc slot es).slots ((s.own c i pc slot es).pc c) := by
  have hslot : (s.own c i pc slot es).slots i = slot := Function.update_self ..
  have hat : (s.own c i pc slot es).pc c = pc := Function.update_self ..
  rw [hat]
  exact .of_filled hpc (by rwa [hslot]) (by rwa [hslot])

theorem Contents.step (h : Contents args s) (hinv : Inv s) (hs : Step args s a t) :
    Contents args t := by
  intro c
  cases ha : a.call with
  | none =>
    cases hs with
    | deliver ind =>
      rw [locSyncProcessInd_eq hinv.inUse]
      exact (h c).deliver ind
    | _ => cases ha
  | some c' =>
    by_cases hne : c = c'
    · subst hne
      have hc := h c
      cases hs with
      | @alloc c i hpc hfree =>
        obtain rfl := Option.some.inj ha
        have hat : Function.update s.pc c (.allocated i) c = .allocated i := Function.update_self ..
        refine ⟨fun j hj => ?_, fun j hj => ?_, fun j hj => ?_⟩
        · obtain rfl : i = j := by simpa [State.goto] using hj
          exact congrArg Slot.recvIndPayloadPtr (hinv.unused i hfree)
        · simp [State.goto, Pc.filled] at hj
        · simp [State.goto, Pc.filled] at hj
      | full hpc _ =>
        obtain rfl := Option.some.inj ha
        exact .of_none (by simp [State.return, Pc.slot])
      | select hpc =>
        obtain rfl := Option.some.inj ha
        exact .own rfl ⟨rfl, rfl, rfl⟩ ⟨rfl, rfl⟩
      | sendOk hpc =>
        obtain rfl := Option.some.inj ha
        rw [hpc] at hc
        exact .own rfl (hc.filled _ rfl) (hc.flags _ rfl)
      | sendFailed hpc _ =>
        obtain rfl := Option.some.inj ha
        rw [hpc] at hc
        exact .own rfl (hc.filled _ rfl) (hc.flags _ rfl).1
      | check hpc _ =>
        obtain rfl := Option.some.inj ha
        rw [hpc] at hc
        exact .own rfl (hc.filled _ rfl) (hc.flags _ rfl)
      | invalid hpc _ =>
        obtain rfl := Option.some.inj ha
        exact .of_none (by simp [State.return, Pc.slot])
      | arrived hpc _ =>
        obtain rfl := Option.some.inj ha
        rw [hpc] at hc
        exact .own rfl (hc.filled _ rfl) (hc.flags _ rfl).1
      | busy hpc _ =>
        obtain rfl := Option.some.inj ha
        rw [hpc] at hc
        exact .own rfl (hc.filled _ rfl) (hc.flags _ rfl).1
      | wait hpc harr _ =>
        obtain rfl := Option.some.inj ha
        rw [hpc] at hc
        obtain ⟨h1, h2, h3⟩ := hc.filled _ rfl
        exact .own rfl ⟨h1, h2, h3⟩ ⟨rfl, harr⟩
      | wake hpc _ =>
        obtain rfl := Option.some.inj ha
        rw [hpc] at hc
        obtain ⟨h1, h2, h3⟩ := hc.filled _ rfl
        exact .own rfl ⟨h1, h2, h3⟩ rfl
      | free hpc =>
        obtain rfl := Option.some.inj ha
        exact .of_none (by simp [State.return, Pc.slot])
      | deliver ind => cases ha
    · have hframe := hs.frame hinv ha hne
      rw [hframe.pc]
      exact (h c).congr hframe.slot

/-! ### A success is an answer -/

/-- Calls find a free slot, and waits do not end spuriously. -/
def Served : State → Action → Prop
  | s, .alloc _ => s.freeSlot.isSome = true
  | _, .wake _ reason => reason ≠ .spurious
  | _, _ => True

instance : ∀ s a, Decidable (Served s a)
  | s, .alloc _ => inferInstanceAs (Decidable (s.freeSlot.isSome = true))
  | _, .wake _ reason => inferInstanceAs (Decidable (reason ≠ .spurious))
  | _, .select _ | _, .send .. | _, .check _ | _, .enter _ | _, .free _ | _, .deliver _ =>
    inferInstanceAs (Decidable True)

/-- The call returned success, after it had selected a slot, handed its request to
`locClientSendReq`, and an indication with its handle and its `ind_id` was processed for the
slot. -/
def Answered (a : Args) (c : CallId) (log : List Event) : Prop :=
  ∃ i later mid before, log = later ++ .returned c .success :: (mid ++ .selected c i :: before) ∧
    .sent c .success ∈ mid ∧ .processed a.clientHandle a.indId i ∈ mid

/-- What has happened since the call selected its slot. -/
structure Progress (a : Args) (c : CallId) (i : SlotId) (pc : Pc) (slot : Slot)
    (mid : List Event) : Prop where
  sent : pc = .sent i ∨ pc = .entering i ∨ pc = .waiting i ∨ pc = .releasing i .success →
    .sent c .success ∈ mid
  processed : slot.indHasArrived = true ∨ slot.signalled = true →
    .processed a.clientHandle a.indId i ∈ mid
  success : pc = .releasing i .success → .processed a.clientHandle a.indId i ∈ mid

/-- The call is on its way to an answer. -/
def Answering (a : Args) (c : CallId) (s : State) : Prop :=
  ∀ i, (s.pc c).filled = some i → ∃ mid before, s.log = mid ++ .selected c i :: before ∧
    Progress a c i (s.pc c) (s.slots i) mid

theorem Answering.of_none {a : Args} (h : (s.pc c).filled = none) : Answering a c s := by
  intro i hi
  rw [h] at hi
  cases hi

theorem Answering.frame {a : Args} (h : Answering a c s) (hf : Frame c s t) : Answering a c t := by
  intro i hi
  rw [hf.pc] at hi ⊢
  rw [hf.slot i (Pc.slot_of_filled hi)]
  obtain ⟨mid, before, hlog, hp⟩ := h i hi
  obtain ⟨es, hes, -⟩ := hf.log
  refine ⟨es ++ mid, before, by rw [hes, hlog, List.append_assoc], ?_⟩
  exact ⟨fun h => List.mem_append_right es (hp.sent h),
    fun h => List.mem_append_right es (hp.processed h),
    fun h => List.mem_append_right es (hp.success h)⟩

/-- The call goes on with its slot, which it has selected before. -/
theorem Answering.own {a : Args} {pc : Pc} {slot : Slot} {es : List Event} (h : Answering a c s)
    (hfrom : (s.pc c).filled = some i) (hto : pc.filled = some i)
    (hp : ∀ mid, Progress a c i (s.pc c) (s.slots i) mid →
      Progress a c i pc slot (es ++ mid)) : Answering a c (s.own c i pc slot es) := by
  have hat : (s.own c i pc slot es).pc c = pc := Function.update_self ..
  have hslot : (s.own c i pc slot es).slots i = slot := Function.update_self ..
  intro j hj
  rw [hat] at hj ⊢
  obtain rfl : i = j := Option.some.inj (hto.symm.trans hj)
  obtain ⟨mid, before, hlog, hprog⟩ := h i hfrom
  refine ⟨es ++ mid, before, ?_, ?_⟩
  · rw [List.append_assoc, ← hlog]
    rfl
  · rw [hslot]
    exact hp mid hprog

theorem processed_mem_deliveryEvents {slots : SlotId → Slot} {ind : Ind} {k : ℕ}
    {is : List SlotId} (h : i ∈ is) :
    .processed ind.clientHandle ind.indId i ∈ deliveryEvents slots ind k is := by
  induction is with
  | nil => cases h
  | cons j is ih =>
    rw [deliveryEvents]
    rcases List.mem_cons.1 h with rfl | h
    · exact List.mem_append_right _ List.mem_cons_self
    · exact List.mem_append_left _ (ih h)

theorem Answering.deliver {a : Args} (h : Answering a c s) (hc : Content a c s.slots (s.pc c))
    (hinv : Inv s) (ind : Ind) : Answering a c (locSyncProcessInd s ind) := by
  rw [locSyncProcessInd_eq hinv.inUse]
  intro i hi
  obtain ⟨mid, before, hlog, hp⟩ := h i hi
  refine ⟨deliveryEvents s.slots ind s.deliveries (s.served ind) ++ mid, before,
    by rw [hlog, List.append_assoc], fun h => List.mem_append_right _ (hp.sent h), ?_,
    fun h => List.mem_append_right _ (hp.success h)⟩
  by_cases hmem : i ∈ s.served ind
  · -- the slot is served: the event is in the log of this delivery
    obtain ⟨-, hhandle, hind, -⟩ := matches_iff.1 (matches_of_mem_served hmem)
    have hfilled := hc.filled i hi
    intro _
    rw [← hfilled.handle, ← hfilled.indId, hhandle, ← hind]
    exact List.mem_append_left _ (processed_mem_deliveryEvents hmem)
  · dsimp only
    rw [notifyAll_of_notMem hmem]
    exact fun h => List.mem_append_right _ (hp.processed h)

/-- The steps of the call itself. -/
theorem Answering.step (h : Answering (args c) c s) (hG : Served s a) (hs : Step args s a t)
    (ha : a.call = some c) : Answering (args c) c t := by
  cases hs with
  | alloc hpc hfree =>
    obtain rfl := Option.some.inj ha
    exact .of_none (by simp [State.goto, Pc.filled])
  | full hpc _ =>
    obtain rfl := Option.some.inj ha
    exact .of_none (by simp [State.return, Pc.filled, Pc.slot])
  | @select c i hpc =>
    obtain rfl := Option.some.inj ha
    intro j hj
    obtain rfl : i = j := by simpa [State.own, Pc.filled, Pc.slot] using hj
    refine ⟨[], s.log, rfl, ?_⟩
    simp only [State.own, Function.update_self]
    refine ⟨by simp, by simp [Args.slot], ?_⟩
    intro h
    cases h
  | sendOk hpc =>
    obtain rfl := Option.some.inj ha
    refine h.own (by rw [hpc]; rfl) rfl fun mid hp => ⟨?_, ?_, ?_⟩
    · exact fun _ => List.mem_cons_self
    · exact fun h => List.mem_cons_of_mem _ (hp.processed h)
    · intro h
      cases h
  | sendFailed hpc hst =>
    obtain rfl := Option.some.inj ha
    refine h.own (by rw [hpc]; rfl) rfl fun mid hp => ⟨?_, ?_, ?_⟩
    · rintro (h | h | h | h) <;> first | exact absurd (Pc.releasing.inj h).2 hst | cases h
    · exact fun h => List.mem_cons_of_mem _ (hp.processed h)
    · exact fun h => absurd (Pc.releasing.inj h).2 hst
  | check hpc _ =>
    obtain rfl := Option.some.inj ha
    refine h.own (by rw [hpc]; rfl) rfl fun mid hp => ⟨?_, hp.processed, ?_⟩
    · exact fun _ => hp.sent (.inl hpc)
    · intro h
      cases h
  | invalid hpc _ =>
    obtain rfl := Option.some.inj ha
    exact .of_none (by simp [State.return, Pc.filled, Pc.slot])
  | arrived hpc harr =>
    obtain rfl := Option.some.inj ha
    refine h.own (by rw [hpc]; rfl) rfl fun mid hp => ⟨?_, hp.processed, ?_⟩
    · exact fun _ => hp.sent (.inr (.inl hpc))
    · exact fun _ => hp.processed (.inl harr)
  | busy hpc _ =>
    obtain rfl := Option.some.inj ha
    refine h.own (by rw [hpc]; rfl) rfl fun mid hp => ⟨by simp, hp.processed, ?_⟩
    intro h
    cases h
  | wait hpc harr _ =>
    obtain rfl := Option.some.inj ha
    refine h.own (by rw [hpc]; rfl) rfl fun mid hp => ⟨?_, ?_, ?_⟩
    · exact fun _ => hp.sent (.inr (.inl hpc))
    · rintro (h | h)
      · exact hp.processed (.inl h)
      · cases h
    · intro h
      cases h
  | @wake c i reason hpc hsig =>
    obtain rfl := Option.some.inj ha
    refine h.own (by rw [hpc]; rfl) rfl fun mid hp => ⟨?_, hp.processed, ?_⟩
    · exact fun _ => hp.sent (.inr (.inr (.inl hpc)))
    · -- not spurious, and a timeout is not a success
      intro hto
      have hreason : reason = .signal := by
        cases reason with
        | signal => rfl
        | timeout => cases hto
        | spurious => exact absurd rfl hG
      exact hp.processed (.inr (hsig hreason))
  | free hpc =>
    obtain rfl := Option.some.inj ha
    exact .of_none (by simp [State.return, Pc.filled, Pc.slot])
  | deliver ind => cases ha

/-- The calls that have returned success have been answered. -/
def AllAnswered (args : CallId → Args) (s : State) : Prop :=
  ∀ c, .returned c .success ∈ s.log → Answered (args c) c s.log

theorem Answered.append {a : Args} {log : List Event} (h : Answered a c log) (es : List Event) :
    Answered a c (es ++ log) := by
  obtain ⟨i, later, mid, before, rfl, hsent, hproc⟩ := h
  exact ⟨i, es ++ later, mid, before, (List.append_assoc ..).symm, hsent, hproc⟩

/-- A step in which no call returns success. -/
theorem AllAnswered.append (h : AllAnswered args s) (es : List Event) (hlog : t.log = es ++ s.log)
    (hes : ∀ c, .returned c .success ∉ es) : AllAnswered args t := by
  intro c hc
  rw [hlog] at hc ⊢
  rcases List.mem_append.1 hc with hc | hc
  · exact absurd hc (hes c)
  · exact (h c hc).append es

theorem AllAnswered.step (h : AllAnswered args s) (hway : ∀ c, Answering (args c) c s)
    (hinv : Inv s) (hG : Served s a) (hs : Step args s a t) : AllAnswered args t := by
  cases hs with
  | alloc hpc hfree => exact h.append [] rfl (by simp)
  | full hpc hfull =>
    obtain ⟨i, hi⟩ := Option.isSome_iff_exists.1 hG
    exact absurd ((hfull i).symm.trans (freeSlot_eq_some hi)) (by decide)
  | @select c i hpc => exact h.append [.selected c i] rfl (by simp)
  | @sendOk c _ hpc => exact h.append [.sent c .success] rfl (by simp)
  | @sendFailed c _ status hpc _ => exact h.append [.sent c status] rfl (by simp)
  | check hpc _ => exact h.append [] rfl (by simp)
  | @invalid c _ hpc _ => exact h.append [.returned c .failureInternal] rfl (by simp)
  | arrived hpc _ => exact h.append [] rfl (by simp)
  | busy hpc _ => exact h.append [] rfl (by simp)
  | wait hpc _ _ => exact h.append [] rfl (by simp)
  | wake hpc _ => exact h.append [] rfl (by simp)
  | @free c i status hpc =>
    by_cases hst : status = .success
    · subst hst
      obtain ⟨mid, before, hlog, hp⟩ := hway c i (by rw [hpc]; rfl)
      intro c' hc'
      by_cases heq : c' = c
      · subst heq
        refine ⟨i, [], mid, before, ?_, hp.sent (.inr (.inr (.inr hpc))), hp.success hpc⟩
        rw [← hlog]
        rfl
      · have hc' : .returned c' .success ∈ s.log := by
          simpa [State.return, locFreeSlot, heq] using hc'
        exact (h c' hc').append [.returned c .success]
    · refine h.append [.returned c status] rfl fun c' => ?_
      simpa using fun _ heq => hst heq.symm
  | deliver ind =>
    rw [locSyncProcessInd_eq hinv.inUse]
    refine h.append (deliveryEvents s.slots ind s.deliveries (s.served ind)) rfl ?_
    intro c hc
    obtain ⟨i, -, heq | ⟨c', -, heq⟩⟩ := mem_deliveryEvents hc <;> cases heq

/-- **A success is an answer**, in every run in which calls find a free slot and waits do not end
spuriously. -/
theorem answered_of_run {as : List Action} (h : Run (step args) Served locSyncReqInit as s) :
    ∀ c, .returned c .success ∈ s.log → Answered (args c) c s.log := by
  have hall : Inv s ∧ Contents args s ∧ (∀ c, Answering (args c) c s) ∧ AllAnswered args s := by
    refine h.invariant (I := fun s => Inv s ∧ Contents args s ∧ (∀ c, Answering (args c) c s) ∧
      AllAnswered args s) ⟨inv_locSyncReqInit, contents_locSyncReqInit, fun _ => .of_none rfl,
        nofun⟩ ?_
    rintro u a t hG ⟨hinv, hcont, hway, hans⟩ hstep
    have hs : Step args u a t := .of_step hstep
    refine ⟨hinv.step hs, hcont.step hinv hs, fun c => ?_, hans.step hway hinv hG hs⟩
    cases ha : a.call with
    | none =>
      cases hs with
      | deliver ind => exact (hway c).deliver (hcont c) hinv ind
      | _ => cases ha
    | some c' =>
      by_cases hne : c = c'
      · subst hne
        exact (hway c).step hG hs ha
      · exact (hway c).frame (hs.frame hinv ha hne)
  exact hall.2.2.2

/-- A call that waits, is signalled and returns. -/
theorem answered_one_call :
    ∃ s, Run (step sampleArgs) Served locSyncReqInit [.alloc 0, .select 0, .send 0 .success,
        .check 0, .enter 0, .deliver ⟨1, 9, some [5]⟩, .wake 0 .signal, .free 0] s ∧
      Answered (sampleArgs 0) 0 s.log := by
  have hlog : (exec (step sampleArgs) Served locSyncReqInit [.alloc 0, .select 0,
      .send 0 .success, .check 0, .enter 0, .deliver ⟨1, 9, some [5]⟩, .wake 0 .signal,
      .free 0]).any (fun s => .returned 0 .success ∈ s.log) = true := by decide
  obtain ⟨s, hs, hmem⟩ := (Option.any_eq_true ..).1 hlog
  have hrun := run_of_exec hs
  exact ⟨s, hrun, answered_of_run hrun 0 (by simpa using hmem)⟩

/-- Two successes without an answer: the ninth of nine calls finds no slot and sends nothing, and
a call whose wait ends spuriously has seen no indication. -/
theorem success_without_answer :
    (∃ s, Run (step sampleArgs) (fun _ _ => True) locSyncReqInit ((List.range 9).map .alloc) s ∧
      .returned 8 .success ∈ s.log ∧ ¬ Answered (sampleArgs 8) 8 s.log) ∧
    ∃ s, Run (step sampleArgs) (fun _ _ => True) locSyncReqInit [.alloc 0, .select 0,
        .send 0 .success, .check 0, .enter 0, .wake 0 .spurious, .free 0] s ∧
      .returned 0 .success ∈ s.log ∧ ¬ Answered (sampleArgs 0) 0 s.log := by
  constructor
  · have hlog : (exec (step sampleArgs) (fun _ _ => True) locSyncReqInit
        ((List.range 9).map .alloc)).any (fun s =>
          .returned 8 .success ∈ s.log ∧ .sent 8 .success ∉ s.log) = true := by
      decide
    obtain ⟨s, hs, hmem⟩ := (Option.any_eq_true ..).1 hlog
    obtain ⟨hret, hnot⟩ := of_decide_eq_true hmem
    refine ⟨s, run_of_exec hs, hret, ?_⟩
    rintro ⟨i, later, mid, before, hdec, hsent, -⟩
    exact hnot (by simp [hdec, hsent])
  · have hlog : (exec (step sampleArgs) (fun _ _ => True) locSyncReqInit [.alloc 0, .select 0,
        .send 0 .success, .check 0, .enter 0, .wake 0 .spurious, .free 0]).any (fun s =>
          .returned 0 .success ∈ s.log ∧ ∀ i, .processed 1 9 i ∉ s.log) = true := by
      decide
    obtain ⟨s, hs, hmem⟩ := (Option.any_eq_true ..).1 hlog
    obtain ⟨hret, hnot⟩ := of_decide_eq_true hmem
    refine ⟨s, run_of_exec hs, hret, ?_⟩
    rintro ⟨i, later, mid, before, hdec, -, hproc⟩
    refine hnot i ?_
    rw [hdec]
    exact List.mem_append_right _ (List.mem_cons_of_mem _ (List.mem_append_left _ hproc))

end LocSync

end Msm8909w
