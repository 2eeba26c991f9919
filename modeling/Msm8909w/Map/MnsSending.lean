import Msm8909w.Map.Mns

/-!
# One notification at a time

Who may send is encoded in the flag `mSendingEvent`, the queue of events and the completion message
that a task posts at its end.  `Orderly` relates them in every reachable state; the number of tasks
that are active is counted, and every step changes the counts by its own task only.

* `one_at_a_time` : at most one task is active, and the tasks are those of the posted events, in
  order,
* `queue_drains` : the queue does not get stuck as long as no timeout is handled before the active
  task has checked for it,
* `stuck_after_timeout` : otherwise it does.
-/

namespace Msm8909w

namespace Map

namespace Mns

/-! ### Counting tasks -/

/-- A task that has something left to do. -/
def Task.active (t : Task) : Bool := t.pc ≠ .ended

/-- A task that has not set its timeout yet. -/
def Task.starting (t : Task) : Bool := t.pc = .setTimeout

/-- A task that has set its timeout and not checked for it yet. -/
def Task.armed (t : Task) : Bool := t.pc = .sendEvent ∨ t.pc = .hasMessages

/-- A task that has found its timeout pending. -/
def Task.checked (t : Task) : Bool := t.pc = .removeMessages ∨ t.pc = .sendEventDone

section Counting

variable {l : List Task} {t t' : Task} {i : ℕ} {p : Task → Bool}

theorem countP_active :
    l.countP Task.active = l.countP Task.starting + l.countP Task.armed + l.countP
      Task.checked := by
  induction l with
  | nil => rfl
  | cons t l ih =>
    rw [List.countP_cons, List.countP_cons, List.countP_cons, List.countP_cons, ih]
    obtain ⟨e, pc⟩ := t
    cases pc <;> simp [Task.active, Task.starting, Task.armed, Task.checked] <;> omega

/-- One task goes on. -/
theorem countP_set_add (h : l[i]? = some t) :
    (l.set i t').countP p + (if p t then 1 else 0) = l.countP p + if p t' then 1 else 0 := by
  obtain ⟨hi, ht⟩ := List.getElem?_eq_some_iff.1 h
  have hle := List.boole_getElem_le_countP (p := p) hi
  rw [List.countP_set hi, ht]
  rw [ht] at hle
  omega

theorem map_event_set {pc : TaskPc} (h : l[i]? = some t) :
    (l.set i { t with pc }).map Task.event = l.map Task.event := by
  obtain ⟨hi, ht⟩ := List.getElem?_eq_some_iff.1 h
  have hi' : i < (l.map Task.event).length := by rwa [List.length_map]
  have hget : (l.map Task.event)[i] = t.event := by rw [List.getElem_map, ht]
  rw [List.map_set]
  dsimp only
  rw [← hget, List.set_getElem_self]

end Counting

namespace Sending

variable {s t : Sending} {a : Action} {i : ℕ} {e : Event}

/-! ### What a step can do -/

/-- What the step of a task leaves alone. -/
theorem taskStep_frame {pc pc' : TaskPc} {u : Sending} (h : s.taskStep pc = some (pc', u)) :
    u.tasks = s.tasks ∧ u.mSendingEvent = s.mSendingEvent ∧ u.mEventQueue = s.mEventQueue ∧
      u.sendEvents = s.sendEvents ∧ u.posted = s.posted := by
  cases pc with
  | ended => cases h
  | _ =>
    obtain ⟨-, rfl⟩ := Prod.mk.inj (Option.some.inj h)
    exact ⟨rfl, rfl, rfl, rfl, rfl⟩

/-- A task takes a step: its place in the list stays, and the messages change as `taskStep` says. -/
theorem step_task (h : s.step (.task i) = some t) : ∃ x pc u, s.tasks[i]? = some x ∧
    s.taskStep x.pc = some (pc, u) ∧ t = { u with tasks := s.tasks.set i { x with pc } } := by
  rw [step] at h
  obtain ⟨x, hx, h⟩ := Option.bind_eq_some_iff.1 h
  obtain ⟨⟨pc, u⟩, hu, h⟩ := Option.bind_eq_some_iff.1 h
  obtain rfl := Option.some.inj h
  refine ⟨x, pc, u, hx, hu, ?_⟩
  rw [(taskStep_frame hu).1]

theorem step_handleSendEvent (h : s.step .handleSendEvent = some t) : ∃ e es,
    s.sendEvents = e :: es ∧
    (s.mSendingEvent = true ∧ t = { s with sendEvents := es, mEventQueue := s.mEventQueue ++ [e] } ∨
      s.mSendingEvent = false ∧
        t = { s with
          sendEvents := es
          mSendingEvent := true
          tasks := s.tasks ++ [⟨e, .setTimeout⟩] }) := by
  rw [step] at h
  split at h
  · cases h
  · next e es hes =>
    obtain rfl := Option.some.inj h
    refine ⟨e, es, hes, ?_⟩
    cases hs : s.mSendingEvent
    · exact .inr ⟨rfl, by simp [start]⟩
    · exact .inl ⟨rfl, by simp⟩

theorem step_handleSendEventDone (h : s.step .handleSendEventDone = some t) : ∃ n, s.dones = n + 1 ∧
    (s.mEventQueue = [] ∧ t = { s with dones := n, mSendingEvent := false } ∨
      ∃ p ps, s.mEventQueue = p :: ps ∧
        t = { s with
          dones := n
          mEventQueue := ps
          tasks := s.tasks ++ [⟨p, .setTimeout⟩] }) := by
  rw [step] at h
  split at h
  · cases h
  · next n hn =>
    obtain rfl := Option.some.inj h
    refine ⟨n, hn, ?_⟩
    cases hq : s.mEventQueue with
    | nil => exact .inl ⟨rfl, by simp⟩
    | cons p ps => exact .inr ⟨p, ps, rfl, by simp [start]⟩

theorem step_handleSendTimeout (h : s.step .handleSendTimeout = some t) :
    ∃ n, s.timeouts = n + 1 ∧ t = { s with timeouts := n } := by
  rw [step] at h
  split at h
  · cases h
  · next n hn => exact ⟨n, hn, (Option.some.inj h).symm⟩

/-! ### Order -/

/-- There is at most one active task or completion message, and none while the flag is off; then no
event waits either.  The tasks, the waiting events and the unhandled ones are the posted events. -/
structure Orderly (s : Sending) : Prop where
  one : s.tasks.countP Task.active + s.dones ≤ 1
  idle : s.mSendingEvent = false → s.tasks.countP Task.active + s.dones = 0 ∧ s.mEventQueue = []
  order : s.tasks.map Task.event ++ s.mEventQueue ++ s.sendEvents = s.posted

theorem orderly_initial : Orderly initial := ⟨Nat.zero_le _, fun _ => ⟨rfl, rfl⟩, rfl⟩

theorem countP_start {l : List Task} :
    (l ++ [(⟨e, .setTimeout⟩ : Task)]).countP Task.active = l.countP Task.active + 1 := by
  rw [List.countP_append]
  rfl

/-- The step of a task keeps or ends it; at the end it may post its completion. -/
theorem countP_taskStep {x : Task} {pc : TaskPc} {u : Sending} (hx : s.tasks[i]? = some x)
    (hu : s.taskStep x.pc = some (pc, u)) :
    (s.tasks.set i { x with pc }).countP Task.active + u.dones ≤
      s.tasks.countP Task.active + s.dones := by
  have hcount := @countP_set_add s.tasks x { x with pc } i Task.active hx
  cases hpc : x.pc <;> rw [hpc, taskStep] at hu <;> try split_ifs at hu
  all_goals cases hu
  all_goals
    simp only [Task.active, hpc] at hcount
    dsimp at hcount ⊢
    omega

theorem orderly_step (hs : Orderly s) (h : s.step a = some t) : Orderly t := by
  cases a with
  | post e =>
    obtain rfl := Option.some.inj h
    exact ⟨hs.one,
      hs.idle, by rw [← hs.order, List.append_assoc, List.append_assoc, List.append_assoc]⟩
  | handleSendEvent =>
    obtain ⟨e, es, hes, ⟨hflag, rfl⟩ | ⟨hflag, rfl⟩⟩ := step_handleSendEvent h
    · refine ⟨hs.one, fun hf => absurd (hflag.symm.trans hf) nofun, ?_⟩
      simp [← hs.order, hes]
    · -- nobody sends and nothing waits, so the event is the next one
      obtain ⟨hzero, hqueue⟩ := hs.idle hflag
      refine ⟨?_, nofun, ?_⟩
      · dsimp only
        rw [countP_start]
        omega
      · simp [← hs.order, hes, hqueue]
  | handleSendEventDone =>
    obtain ⟨n, hn, ⟨hq, rfl⟩ | ⟨p, ps, hq, rfl⟩⟩ := step_handleSendEventDone h
    · have hone := hs.one
      refine ⟨?_, fun _ => ⟨?_, hq⟩, hs.order⟩
      · dsimp only
        omega
      · dsimp only
        omega
    · have hone := hs.one
      have hflag : s.mSendingEvent = true := by
        cases hf : s.mSendingEvent
        · rw [(hs.idle hf).2] at hq
          cases hq
        · rfl
      refine ⟨?_, fun hf => absurd (hflag.symm.trans hf) nofun, ?_⟩
      · dsimp only
        rw [countP_start]
        omega
      · simp [← hs.order, hq]
  | handleSendTimeout =>
    obtain ⟨n, -, rfl⟩ := step_handleSendTimeout h
    exact ⟨hs.one, hs.idle, hs.order⟩
  | task i =>
    obtain ⟨x, pc, u, hx, hu, rfl⟩ := step_task h
    have hcount := countP_taskStep hx hu
    obtain ⟨-, hflag, hqueue, hevents, hposted⟩ := taskStep_frame hu
    refine ⟨le_trans hcount hs.one, fun hf => ?_, ?_⟩
    · obtain ⟨hzero, hnil⟩ := hs.idle (hflag ▸ hf)
      dsimp only
      exact ⟨by omega, hqueue.trans hnil⟩
    · dsimp only
      rw [map_event_set hx, hqueue, hevents, hposted, hs.order]

/-! ### Progress -/

/-- While the flag is on there is an active task or a completion message, and a task that has yet to
check for its timeout will find it. -/
structure Draining (s : Sending) : Prop extends Orderly s where
  busy : s.mSendingEvent = true → s.tasks.countP Task.active + s.dones = 1
  armed : 0 < s.tasks.countP Task.armed → 0 < s.timeouts

theorem draining_initial : Draining initial := ⟨orderly_initial, nofun, nofun⟩

/-- No task is on its way to the check. -/
def Checked (s : Sending) : Prop := ∀ t ∈ s.tasks, ¬ t.starting ∧ ¬ t.armed

instance : Decidable s.Checked := inferInstanceAs (Decidable (∀ t ∈ s.tasks, _))

theorem Checked.countP_armed (hs : s.Checked) : s.tasks.countP Task.armed = 0 :=
  List.countP_eq_zero.2 fun t ht => (hs t ht).2

/-- The step of a task, when it finds its timeout pending. -/
theorem draining_taskStep {x : Task} {pc : TaskPc} {u : Sending} (hs : Draining s)
    (hx : s.tasks[i]? = some x) (hu : s.taskStep x.pc = some (pc, u)) :
    (s.tasks.set i { x with pc }).countP Task.active + u.dones =
      s.tasks.countP Task.active + s.dones ∧
    (0 < (s.tasks.set i { x with pc }).countP Task.armed → 0 < u.timeouts) := by
  have hactive := @countP_set_add s.tasks x { x with pc } i Task.active hx
  have harmed := @countP_set_add s.tasks x { x with pc } i Task.armed hx
  have hmem : x ∈ s.tasks := List.mem_of_getElem? hx
  have hpending := hs.armed
  cases hpc : x.pc <;> rw [hpc, taskStep] at hu
  case hasMessages =>
    have hpos : s.timeouts > 0 :=
      hpending (List.countP_pos_iff.2 ⟨x, hmem, by simp [Task.armed, hpc]⟩)
    rw [if_pos hpos] at hu
    cases hu
    simp only [Task.active, Task.armed, hpc] at hactive harmed
    dsimp at hactive harmed ⊢
    exact ⟨by omega, fun _ => hpos⟩
  case removeMessages =>
    -- all timeouts are removed, but no other task is waiting for one
    have hchecked : 0 < s.tasks.countP Task.checked :=
      List.countP_pos_iff.2 ⟨x, hmem, by simp [Task.checked, hpc]⟩
    have hsum := @countP_active s.tasks
    have hone := hs.one
    cases hu
    simp only [Task.active, Task.armed, hpc] at hactive harmed
    dsimp at hactive harmed ⊢
    omega
  all_goals cases hu
  all_goals
    simp only [Task.active, Task.armed, hpc] at hactive harmed
    dsimp at hactive harmed ⊢
    omega

theorem draining_step (hs : Draining s) (hcheck : a = .handleSendTimeout → s.Checked)
    (h : s.step a = some t) : Draining t := by
  have ht := orderly_step hs.toOrderly h
  have hstart {l : List Task} {e : Event} :
      (l ++ [(⟨e, .setTimeout⟩ : Task)]).countP Task.armed = l.countP Task.armed := by
    rw [List.countP_append]
    rfl
  cases a with
  | post e =>
    obtain rfl := Option.some.inj h
    exact ⟨ht, hs.busy, hs.armed⟩
  | handleSendEvent =>
    obtain ⟨e, es, hes, ⟨hflag, rfl⟩ | ⟨hflag, rfl⟩⟩ := step_handleSendEvent h
    · exact ⟨ht, hs.busy, hs.armed⟩
    · refine ⟨ht, fun _ => ?_, ?_⟩
      · have hzero := (hs.idle hflag).1
        dsimp only
        rw [countP_start]
        omega
      · dsimp only
        rw [hstart]
        exact hs.armed
  | handleSendEventDone =>
    obtain ⟨n, hn, ⟨hq, rfl⟩ | ⟨p, ps, hq, rfl⟩⟩ := step_handleSendEventDone h
    · exact ⟨ht, nofun, hs.armed⟩
    · refine ⟨ht, fun hf => ?_, ?_⟩
      · have hone := hs.busy hf
        dsimp only
        rw [countP_start]
        omega
      · dsimp only
        rw [hstart]
        exact hs.armed
  | handleSendTimeout =>
    have hzero := (hcheck rfl).countP_armed
    obtain ⟨n, -, rfl⟩ := step_handleSendTimeout h
    refine ⟨ht, hs.busy, fun hpos => ?_⟩
    dsimp only at hpos
    omega
  | task i =>
    obtain ⟨x, pc, u, hx, hu, rfl⟩ := step_task h
    obtain ⟨-, hflag, -⟩ := taskStep_frame hu
    obtain ⟨hcount, harmed⟩ := draining_taskStep hs hx hu
    exact ⟨ht, fun hf => hcount.trans (hs.busy (hflag ▸ hf)), harmed⟩

end Sending

/-! ### Runs of the service -/

section Runs

variable {size : ℕ} {s t : State} {a : Action} {as : List Action} {G : State → Action → Prop}

/-- The event that a step posts. -/
def Action.posted : Action → Option Event
  | .sending (.post e) => some e
  | _ => none

theorem posted_step (h : step size s a = some t) :
    t.sending.posted = s.sending.posted ++ a.posted.toList := by
  cases a with
  | registration a =>
    rw [(step_registration h).2]
    exact (List.append_nil _).symm
  | sending a =>
    obtain ⟨h, -⟩ := step_sending h
    cases a with
    | post e =>
      rw [← Option.some.inj h]
      rfl
    | handleSendEvent =>
      obtain ⟨e, es, -, ⟨-, ht⟩ | ⟨-, ht⟩⟩ := Sending.step_handleSendEvent h <;>
        simp [ht, Action.posted]
    | handleSendEventDone =>
      obtain ⟨n, -, ⟨-, ht⟩ | ⟨p, ps, -, ht⟩⟩ := Sending.step_handleSendEventDone h <;>
        simp [ht, Action.posted]
    | handleSendTimeout =>
      obtain ⟨n, -, ht⟩ := Sending.step_handleSendTimeout h
      simp [ht, Action.posted]
    | task i =>
      obtain ⟨x, pc, u, -, hu, ht⟩ := Sending.step_task h
      obtain ⟨-, -, -, -, hposted⟩ := Sending.taskStep_frame hu
      simp [ht, hposted, Action.posted]

theorem orderly_run (h : Run (step size) G .initial as s) : s.sending.Orderly := by
  refine h.invariant (I := fun s => s.sending.Orderly) Sending.orderly_initial ?_
  intro s a t _ hs hstep
  cases a with
  | registration a => rwa [(step_registration hstep).2]
  | sending a => exact Sending.orderly_step hs (step_sending hstep).1

/-- **One notification at a time, in order.**  In every run at most one task is active, and the
`k`-th task is that of the `k`-th event that was posted. -/
theorem one_at_a_time (h : Run (step size) (fun _ _ => True) .initial as s) :
    s.sending.tasks.countP Task.active ≤ 1 ∧
      s.sending.tasks.map Task.event <+: as.filterMap Action.posted := by
  have hs := orderly_run h
  have hposted := h.log_eq (fun s => s.sending.posted) fun _ _ _ => posted_step
  refine ⟨le_trans (Nat.le_add_right _ _) hs.one, ?_⟩
  rw [← List.nil_append (as.filterMap _)]
  refine List.IsPrefix.trans ?_ (hs.order.trans hposted ▸ List.prefix_append _ _)
  exact List.prefix_append _ _

/-- The event of a sample run. -/
def sampleEvent (masId : ℤ) : Event := ⟨masId, js "<event/>"⟩

/-- Two events are posted, and the task of the first is sent and completed. -/
def sampleActions : List Action :=
  [.post (sampleEvent 0), .post (sampleEvent 1), .handleSendEvent, .handleSendEvent, .task 0,
    .task 0, .task 0, .task 0, .task 0, .handleSendEventDone].map .sending

/-- Then the task of the second is active. -/
theorem one_at_a_time_sample : ∃ s, Run (step 1) (fun _ _ => True) .initial sampleActions s ∧
    s.sending.tasks = [⟨sampleEvent 0, .ended⟩, ⟨sampleEvent 1, .setTimeout⟩] ∧
    s.sending.tasks.countP Task.active ≤ 1 ∧
    s.sending.tasks.map Task.event <+: sampleActions.filterMap Action.posted := by
  have hexec : (exec (step 1) (fun _ _ => True) .initial sampleActions).map (·.sending.tasks) =
      some [⟨sampleEvent 0, .ended⟩, ⟨sampleEvent 1, .setTimeout⟩] := by decide
  obtain ⟨s, hs, htasks⟩ := exists_run_of_exec hexec
  exact ⟨s, hs, htasks, one_at_a_time hs⟩

/-- A timeout is handled only when the active task has checked for it. -/
def TimeoutAfterCheck (s : State) (a : Action) : Prop :=
  a = .sending .handleSendTimeout → s.sending.Checked

instance : Decidable (TimeoutAfterCheck s a) := inferInstanceAs (Decidable (_ → _))

theorem draining_run (h : Run (step size) TimeoutAfterCheck .initial as s) :
    s.sending.Draining := by
  refine h.invariant (I := fun s => s.sending.Draining) Sending.draining_initial ?_
  intro s a t hG hs hstep
  cases a with
  | registration a => rwa [(step_registration hstep).2]
  | sending a =>
    refine Sending.draining_step hs (fun ha => ?_) (step_sending hstep).1
    exact hG (congrArg Action.sending ha)

/-- **The queue drains.**  In a run in which no timeout is handled before the active task has
checked for it: when no task is active and no completion message is pending, the flag is off and no
event waits, and the next event is sent when it is handled. -/
theorem queue_drains (h : Run (step size) TimeoutAfterCheck .initial as s)
    (hactive : s.sending.tasks.countP Task.active = 0) (hdones : s.sending.dones = 0) :
    s.sending.mSendingEvent = false ∧ s.sending.mEventQueue = [] ∧
      ∀ e es, s.sending.sendEvents = e :: es → ∃ t, step size s (.sending .handleSendEvent) =
        some t ∧
        t.sending.tasks = s.sending.tasks ++ [⟨e, .setTimeout⟩] := by
  have hs := draining_run h
  have hflag : s.sending.mSendingEvent = false := by
    cases hf : s.sending.mSendingEvent
    · rfl
    · have hone := hs.busy hf
      omega
  refine ⟨hflag, (hs.idle hflag).2, ?_⟩
  intro e es hes
  refine ⟨_, by rw [step, Sending.step, hes]; rfl, ?_⟩
  simp [hflag, Sending.start]

/-- Both events are sent and a third one is posted. -/
theorem queue_drains_sample : ∃ as s, Run (step 1) TimeoutAfterCheck .initial as s ∧
    s.sending.tasks.countP Task.active = 0 ∧ s.sending.dones = 0 ∧
    s.sending.sendEvents = [sampleEvent 0] ∧ s.sending.mSendingEvent = false := by
  have hexec : (exec (step 1) TimeoutAfterCheck .initial (sampleActions ++
      [.task 1, .task 1, .task 1, .task 1, .task 1, .handleSendEventDone, .post (sampleEvent 0)].map
        .sending)).map (fun s => (s.sending.tasks.countP Task.active, s.sending.dones,
          s.sending.sendEvents)) = some (0, 0, [sampleEvent 0]) := by decide
  obtain ⟨s, hs, hend⟩ := exists_run_of_exec hexec
  obtain ⟨hactive, hend⟩ := Prod.mk.inj hend
  obtain ⟨hdones, hevents⟩ := Prod.mk.inj hend
  exact ⟨_, s, hs, hactive, hdones, hevents, (queue_drains hs hactive hdones).1⟩

/-- **A late completion.**  The timeout is handled while the task is sending.  The task then ends
without a completion message: nothing is active or pending, the flag stays on, and the next event
only waits in the queue. -/
theorem stuck_after_timeout : ∃ as s, Run (step 1) (fun _ _ => True) .initial as s ∧
    s.sending.tasks.countP Task.active = 0 ∧ s.sending.dones = 0 ∧
    s.sending.mSendingEvent = true ∧ s.sending.mEventQueue = [sampleEvent 1] ∧
    s.sending.tasks.map Task.event = [sampleEvent 0] := by
  have hexec : (exec (step 1) (fun _ _ => True) .initial ([.post (sampleEvent 0), .handleSendEvent,
      .task 0, .handleSendTimeout, .task 0, .task 0, .post (sampleEvent 1), .handleSendEvent].map
        .sending)).map (fun s => (s.sending.tasks.countP Task.active, s.sending.dones,
          s.sending.mSendingEvent, s.sending.mEventQueue, s.sending.tasks.map Task.event)) =
      some (0, 0, true, [sampleEvent 1], [sampleEvent 0]) := by decide
  obtain ⟨s, hs, hend⟩ := exists_run_of_exec hexec
  simp only [Prod.mk.injEq] at hend
  exact ⟨_, s, hs, hend⟩

end Runs

end Mns

end Map

end Msm8909w
