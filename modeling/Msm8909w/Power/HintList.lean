import Mathlib.Data.Finset.Card
import Mathlib.Data.List.Find
import Mathlib.Data.Multiset.AddSub
import Msm8909w.Lib.Runs
import Msm8909w.Lib.Walk
import Msm8909w.Power.Utils

/-!
# The list of active hints in memory

`list.c`, `hint_compare` and the two functions of `utils.c` that use them, with the nodes of the
list and the hints as blocks of memory.  The list has a static head node, whose `compare` function
is set when the first hint is carried out; nodes are found by the id of their hint and taken out by
their address.  Which block `malloc` returns, or that it fails, and which handle `perf_lock_acq`
returns is up to the outside world.

`Mem.log` is what has been asked of the perflock library, and `heldOf` the locks that are held after
it, the most recent ones first.

* `ledger_of_run` : in every sequence of calls the list is the ledger of the locks that are held,
* `Mem.Abstracts.perform`, `Mem.Abstracts.undo` : the functions do to the list in memory what
  `performHintAction` and `undoHintAction` do to the list of nodes.
-/

namespace Msm8909w

namespace Power

namespace HintList

/-! ### Memory -/

/-- The address of a `list_node`: `active_hint_list_head`, or a block of the heap. -/
inductive NodeAddr where
  | activeHead
  | heap (block : ℕ)
  deriving DecidableEq, Repr

/-- The address of a `hint_data`: a block of the heap, or the local variable of
`undo_hint_action`. -/
inductive HintAddr where
  | heap (block : ℕ)
  | temp
  deriving DecidableEq, Repr

/-- `struct list_node`.  The function `dump` is never called. -/
structure ListNode where
  next : Option NodeAddr := none
  data : Option HintAddr := none
  /-- `compare` is `hint_compare`, and not null. -/
  compare : Bool := false
  deriving DecidableEq, Repr

/-- What the perflock library is asked for. -/
inductive Event where
  | acquired (hintId handle : ℤ)
  | released (handle : ℤ)
  deriving DecidableEq, Repr

/-- The memory, and what has been asked of the perflock library. -/
structure Mem where
  node : NodeAddr → ListNode := fun _ => {}
  hint : HintAddr → HintData := fun _ => ⟨0, 0⟩
  /-- The blocks that are in use for nodes. -/
  nodes : Finset ℕ := ∅
  /-- The blocks that are in use for hints. -/
  hints : Finset ℕ := ∅
  /-- Newest first. -/
  log : List Event := []

/-- What the outside world does during a call. -/
structure Env where
  /-- The handle `perf_lock_acq` returns, or `-1`. -/
  lockHandle : ℤ
  /-- The block `malloc` returns for the `hint_data`. -/
  newHint : Option ℕ
  /-- The block `malloc` returns for the `list_node`. -/
  newNode : Option ℕ

/-- Assign a `list_node`. -/
def Mem.setNode (m : Mem) (a : NodeAddr) (v : ListNode) : Mem :=
  { m with node := Function.update m.node a v }

/-- Assign a `hint_data`. -/
def Mem.setHint (m : Mem) (b : HintAddr) (v : HintData) : Mem :=
  { m with hint := Function.update m.hint b v }

/-- `free` of a `list_node`. -/
def Mem.freeNode (m : Mem) : NodeAddr → Mem
  | .activeHead => m
  | .heap a => { m with nodes := m.nodes.erase a }

/-- `free` of a `hint_data`. -/
def Mem.freeHint (m : Mem) : HintAddr → Mem
  | .temp => m
  | .heap b => { m with hints := m.hints.erase b }

/-- The pointer to the next node. -/
def Mem.next (m : Mem) (a : NodeAddr) : Option NodeAddr := (m.node a).next

/-- More turns than a walk through nodes in use can take. -/
def Mem.fuel (m : Mem) : ℕ := m.nodes.card + 1

/-! ### The list -/

/-- `add_list_node`; the result is the new node, in the block that `malloc` has returned. -/
def addListNode (m : Mem) (head : NodeAddr) (data : HintAddr) (malloc : Option ℕ) :
    Mem × Option NodeAddr :=
  match malloc with
  | none => (m, none)
  | some a =>
    let m := { m with nodes := insert a m.nodes }
    let m := m.setNode (.heap a)
      { next := (m.node head).next, data := some data, compare := (m.node head).compare }
    (m.setNode head { m.node head with next := some (.heap a) }, some (.heap a))

/-- `hint_compare`. -/
def hintCompare (m : Mem) (firstHint otherHint : Option HintAddr) : ℤ :=
  if firstHint = otherHint then 0
  else
    match firstHint, otherHint with
    | some first, some other => if (m.hint first).hintId = (m.hint other).hintId then 0 else 1
    | _, _ => 1

/-- `find_node`. -/
def findNode (m : Mem) (head : NodeAddr) (comparisonData : HintAddr) : Option (Option NodeAddr) :=
  seek m.next
    (fun a => (m.node a).compare && hintCompare m (m.node a).data (some comparisonData) == 0)
    m.fuel head

/-- `remove_list_node`. -/
def removeListNode (m : Mem) (head delNode : NodeAddr) : Option Mem :=
  if m.next head = none then some m
  else
    match precede m.next delNode m.fuel head (m.next head) with
    | none => none
    | some (_, none) => some m
    | some (saved, some current) =>
      some ((m.setNode saved { m.node saved with next := m.next current }).freeNode delNode)

/-! ### Hints -/

/-- `perf_lock_acq` and `perf_lock_rel`. -/
def Mem.record (m : Mem) (e : Event) : Mem := { m with log := e :: m.log }

/-- What `perform_hint_action` does with a new `hint_data`, before it puts it into the list. -/
def Mem.fillHint (m : Mem) (b : ℕ) (hintId handle : ℤ) : Mem :=
  let m := { m with hints := insert b m.hints }
  let m :=
    if !(m.node .activeHead).compare then
      m.setNode .activeHead { m.node .activeHead with compare := true }
    else m
  m.setHint (.heap b) ⟨hintId, handle⟩

/-- `perform_hint_action`. -/
def performHintAction (cfg : Config) (env : Env) (hintId : ℤ) (m : Mem) : Mem :=
  if cfg.perfLockAcq then
    if env.lockHandle = -1 then m
    else
      let m := m.record (.acquired hintId env.lockHandle)
      let giveUp (m : Mem) : Mem :=
        if cfg.perfLockRel then m.record (.released env.lockHandle) else m
      match env.newHint with
      | none => giveUp m
      | some b =>
        match addListNode (m.fillHint b hintId env.lockHandle) .activeHead (.heap b)
            env.newNode with
        | (m, none) => giveUp (m.freeHint (.heap b))
        | (m, some _) => m
  else m

/-- `undo_hint_action`; `none` if a loop does not end. -/
def undoHintAction (cfg : Config) (hintId : ℤ) (m : Mem) : Option Mem :=
  if cfg.perfLockRel then
    let m := m.setHint .temp ⟨hintId, 0⟩
    match findNode m .activeHead .temp with
    | none => none
    | some none => some m
    | some (some foundNode) =>
      let m :=
        match (m.node foundNode).data with
        | none => m
        | some d => (m.record (.released (m.hint d).perflockHandle)).freeHint d
      removeListNode m .activeHead foundNode
  else some m

/-- A call. -/
inductive Call where
  | perform (hintId : ℤ) (env : Env)
  | undo (hintId : ℤ)

/-- The next call. -/
def step (cfg : Config) (m : Mem) : Call → Option Mem
  | .perform hintId env => some (performHintAction cfg env hintId m)
  | .undo hintId => undoHintAction cfg hintId m

/-! ### Locks -/

/-- The locks that are held, the most recent ones first. -/
def heldOf : List Event → List HintData
  | [] => []
  | .acquired hintId handle :: log => ⟨hintId, handle⟩ :: heldOf log
  | .released handle :: log => (heldOf log).eraseP fun e => e.perflockHandle == handle

/-- Every handle that is released is held at that time. -/
def ReleasedOnce : List Event → Prop
  | [] => True
  | .acquired _ _ :: log => ReleasedOnce log
  | .released handle :: log => handle ∈ (heldOf log).map (·.perflockHandle) ∧ ReleasedOnce log

/-- The handles that have been acquired. -/
def acquired (log : List Event) : Multiset ℤ :=
  log.filterMap fun
    | .acquired _ handle => some handle
    | .released _ => none

/-- The handles that have been released. -/
def released (log : List Event) : Multiset ℤ :=
  log.filterMap fun
    | .acquired _ _ => none
    | .released handle => some handle

/-- The outside world returns blocks that are not in use and handles that are not held. -/
def Mem.Fresh (m : Mem) : Call → Prop
  | .perform _ env => (∀ b ∈ env.newHint, b ∉ m.hints) ∧ (∀ a ∈ env.newNode, a ∉ m.nodes) ∧
      (env.lockHandle ≠ -1 → env.lockHandle ∉ (heldOf m.log).map (·.perflockHandle))
  | .undo _ => True

/-! ### The nodes of the list -/

/-- The nodes of the list are in the blocks `l`, in this order; each of them can be found, and has a
hint of its own. -/
structure Mem.Lists (m : Mem) (l : List ℕ) : Prop where
  walk : Walk m.next (m.next .activeHead) (l.map .heap)
  used : ∀ a ∈ l, a ∈ m.nodes
  compare : ∀ a ∈ l, (m.node (.heap a)).compare = true
  data : ∀ a ∈ l, ∃ b ∈ m.hints, (m.node (.heap a)).data = some (.heap b)
  distinct : (l.map fun a => (m.node (.heap a)).data).Nodup

/-- The hint of a node. -/
def Mem.entry (m : Mem) (a : ℕ) : HintData := (((m.node (.heap a)).data).map m.hint).getD ⟨0, 0⟩

/-- The hints of the nodes. -/
def Mem.entries (m : Mem) (l : List ℕ) : List HintData := l.map m.entry

section

variable {m m' : Mem} {l l₁ l₂ : List ℕ} {cfg : Config} {env : Env} {hintId : ℤ}

theorem Mem.Lists.nodup (h : m.Lists l) : l.Nodup := List.Nodup.of_map _ h.walk.nodup

/-- The list is not longer than a walk may be. -/
theorem Mem.Lists.length_lt (h : m.Lists l) : l.length < m.fuel := by
  have hcard := Finset.card_le_card fun a ha => h.used a (List.mem_toFinset.1 ha)
  rw [List.toFinset_card_of_nodup h.nodup] at hcard
  exact Nat.lt_succ_of_le hcard

/-- The list does not see what happens to other nodes and other hints. -/
theorem Mem.Lists.congr (h : m.Lists l) (hhead : m'.next .activeHead = m.next .activeHead)
    (hnode : ∀ a ∈ l, m'.node (.heap a) = m.node (.heap a)) (hused : ∀ a ∈ l, a ∈ m'.nodes)
    (hhints : ∀ a ∈ l, ∀ b, (m.node (.heap a)).data = some (.heap b) → b ∈ m.hints → b ∈ m'.hints) :
    m'.Lists l where
  walk := by
    rw [hhead]
    refine h.walk.congr ?_
    simp only [List.forall_mem_map, Mem.next]
    exact fun a ha => congrArg ListNode.next (hnode a ha)
  used := hused
  compare a ha := by rw [hnode a ha]; exact h.compare a ha
  data a ha := by
    obtain ⟨b, hb, hdata⟩ := h.data a ha
    exact ⟨b, hhints a ha b hdata hb, by rw [hnode a ha]; exact hdata⟩
  distinct := by
    rw [List.map_congr_left fun a ha => congrArg ListNode.data (hnode a ha)]
    exact h.distinct

theorem Mem.entries_congr (hdata : ∀ a ∈ l, (m'.node (.heap a)).data = (m.node (.heap a)).data)
    (hhint : ∀ a ∈ l, ∀ d ∈ (m.node (.heap a)).data, m'.hint d = m.hint d) :
    m'.entries l = m.entries l := by
  refine List.map_congr_left fun a ha => ?_
  rw [Mem.entry, Mem.entry, hdata a ha, Option.map_congr (hhint a ha)]

/-- The blocks `l` are the list in both memories, with the same hints. -/
structure Mem.SameList (m m' : Mem) (l : List ℕ) : Prop where
  lists : m'.Lists l
  entries : m'.entries l = m.entries l

theorem Mem.SameList.record (h : m.SameList m' l) (e : Event) : m.SameList (m'.record e) l :=
  ⟨⟨h.lists.walk, h.lists.used, h.lists.compare, h.lists.data, h.lists.distinct⟩, h.entries⟩

theorem Mem.SameList.trans {m'' : Mem} (h : m.SameList m' l) (h' : m'.SameList m'' l) :
    m.SameList m'' l :=
  ⟨h'.lists, h'.entries.trans h.entries⟩

theorem Mem.Lists.data_ne (h : m.Lists l) {b : ℕ} (hb : b ∉ m.hints) :
    ∀ c ∈ l, (m.node (.heap c)).data ≠ some (.heap b) := by
  intro c hc heq
  obtain ⟨b', hb', hdata⟩ := h.data c hc
  obtain rfl := HintAddr.heap.inj (Option.some.inj (hdata.symm.trans heq))
  exact hb hb'

/-- A hint that is not in the list is freed. -/
theorem Mem.Lists.freeHint (h : m.Lists l) {b : ℕ}
    (hb : ∀ c ∈ l, (m.node (.heap c)).data ≠ some (.heap b)) :
    m.SameList (m.freeHint (.heap b)) l := by
  refine ⟨h.congr rfl (fun _ _ => rfl) h.used ?_, rfl⟩
  intro c hc b' hdata hb'
  refine Finset.mem_erase.2 ⟨?_, hb'⟩
  rintro rfl
  exact hb c hc hdata

theorem node_fillHint (m : Mem) (b : ℕ) (hintId handle : ℤ) :
    ((m.fillHint b hintId handle).node .activeHead =
        { m.node .activeHead with compare := true }) ∧
      ∀ a, (m.fillHint b hintId handle).node (.heap a) = m.node (.heap a) := by
  cases hc : (m.node .activeHead).compare with
  | true =>
    have hself : { m.node .activeHead with compare := true } = m.node .activeHead := by rw [← hc]
    rw [hself]
    simp [Mem.fillHint, Mem.setHint, hc]
  | false => simp [Mem.fillHint, Mem.setHint, Mem.setNode, hc]

theorem fillHint_eq (m : Mem) (b : ℕ) (hintId handle : ℤ) :
    m.fillHint b hintId handle = { m with
      node := (m.fillHint b hintId handle).node
      hints := insert b m.hints
      hint := Function.update m.hint (.heap b) ⟨hintId, handle⟩ } := by
  unfold Mem.fillHint
  dsimp only
  split_ifs <;> rfl

@[simp] theorem nodes_fillHint (m : Mem) (b : ℕ) (hintId handle : ℤ) :
    (m.fillHint b hintId handle).nodes = m.nodes := by
  rw [fillHint_eq]

@[simp] theorem hints_fillHint (m : Mem) (b : ℕ) (hintId handle : ℤ) :
    (m.fillHint b hintId handle).hints = insert b m.hints := by
  rw [fillHint_eq]

@[simp] theorem hint_fillHint (m : Mem) (b : ℕ) (hintId handle : ℤ) :
    (m.fillHint b hintId handle).hint = Function.update m.hint (.heap b) ⟨hintId, handle⟩ := by
  rw [fillHint_eq]

@[simp] theorem log_fillHint (m : Mem) (b : ℕ) (hintId handle : ℤ) :
    (m.fillHint b hintId handle).log = m.log := by
  rw [fillHint_eq]

/-- A new hint does not touch the hints in the list. -/
theorem Mem.Lists.fillHint (h : m.Lists l) {b : ℕ} (hb : b ∉ m.hints) (hintId handle : ℤ) :
    m.SameList (m.fillHint b hintId handle) l := by
  obtain ⟨hhead, hheap⟩ := node_fillHint m b hintId handle
  constructor
  · refine h.congr ?_ (fun a _ => hheap a) ?_ ?_
    · rw [Mem.next, hhead, Mem.next]
    · rw [nodes_fillHint]
      exact h.used
    · intro a _ c _ hc
      rw [hints_fillHint]
      exact Finset.mem_insert_of_mem hc
  · refine Mem.entries_congr (fun a _ => congrArg _ (hheap a)) ?_
    intro a ha d hd
    obtain ⟨c, hc, hdata⟩ := h.data a ha
    obtain rfl := Option.some.inj (hd.symm.trans hdata)
    rw [hint_fillHint, Function.update_of_ne]
    intro heq
    obtain rfl := HintAddr.heap.inj heq
    exact hb hc

/-- A node for the new hint is put in front of the list. -/
theorem Mem.Lists.addListNode (h : m.Lists l) {a b : ℕ} (ha : a ∉ m.nodes) (hb : b ∈ m.hints)
    (hdistinct : ∀ c ∈ l, (m.node (.heap c)).data ≠ some (.heap b))
    (hcompare : (m.node .activeHead).compare = true) :
    (addListNode m .activeHead (.heap b) (some a)).1.Lists (a :: l) ∧
      (addListNode m .activeHead (.heap b) (some a)).1.entries (a :: l) =
        m.hint (.heap b) :: m.entries l := by
  have hal : ∀ c ∈ l, c ≠ a := fun c hc heq => ha (heq ▸ h.used c hc)
  have hother : ∀ c ∈ l, (HintList.addListNode m .activeHead (.heap b) (some a)).1.node (.heap c) =
      m.node (.heap c) := by
    intro c hc
    simp [HintList.addListNode, Mem.setNode, hal c hc]
  have hnew : (HintList.addListNode m .activeHead (.heap b) (some a)).1.node (.heap a) =
      ⟨m.next .activeHead, some (.heap b), true⟩ := by
    simp [HintList.addListNode, Mem.setNode, Mem.next, hcompare]
  constructor
  · constructor
    · refine h.walk.push ?_ ?_ ?_
      · simp [HintList.addListNode, Mem.setNode, Mem.next]
      · rw [Mem.next, hnew]
      · simp only [List.forall_mem_map]
        exact fun c hc => congrArg ListNode.next (hother c hc)
    · exact List.forall_mem_cons.2 ⟨Finset.mem_insert_self a m.nodes,
        fun c hc => Finset.mem_insert_of_mem (h.used c hc)⟩
    · refine List.forall_mem_cons.2 ⟨?_, fun c hc => ?_⟩
      · rw [hnew]
      · rw [hother c hc]
        exact h.compare c hc
    · refine List.forall_mem_cons.2 ⟨⟨b, hb, ?_⟩, fun c hc => ?_⟩
      · rw [hnew]
      · rw [hother c hc]
        exact h.data c hc
    · rw [List.map_cons, hnew, List.map_congr_left fun c hc => congrArg ListNode.data (hother c hc)]
      refine List.nodup_cons.2 ⟨fun hmem => ?_, h.distinct⟩
      obtain ⟨c, hc, hdata⟩ := List.mem_map.1 hmem
      exact hdistinct c hc hdata
  · rw [Mem.entries, List.map_cons, Mem.entry, hnew]
    refine congrArg _ (Mem.entries_congr (fun c hc => congrArg _ (hother c hc)) ?_)
    exact fun _ _ _ _ => rfl

/-- What `perform_hint_action` does: nothing without a lock, and else it acquires the lock and lists
it, or gives it back. -/
theorem perform_cases (h : m.Lists l) (hacq : cfg.perfLockAcq = true)
    (hrel : cfg.perfLockRel = true)
    (hfresh : m.Fresh (.perform hintId env)) :
    env.lockHandle = -1 ∧ performHintAction cfg env hintId m = m ∨ env.lockHandle ≠ -1 ∧
      (¬ (env.newHint.isSome = true ∧ env.newNode.isSome = true) ∧
          (performHintAction cfg env hintId m).log =
            .released env.lockHandle :: .acquired hintId env.lockHandle :: m.log ∧
          m.SameList (performHintAction cfg env hintId m) l ∨
        (env.newHint.isSome = true ∧ env.newNode.isSome = true) ∧
          (performHintAction cfg env hintId m).log = .acquired hintId env.lockHandle :: m.log ∧
          ∃ a, (performHintAction cfg env hintId m).Lists (a :: l) ∧
            (performHintAction cfg env hintId m).entries (a :: l) =
              ⟨hintId, env.lockHandle⟩ :: m.entries l) := by
  obtain ⟨hhint, hnode, -⟩ := hfresh
  unfold performHintAction
  rw [if_pos hacq]
  split_ifs with hlock
  · exact .inl ⟨hlock, rfl⟩
  · refine .inr ⟨hlock, ?_⟩
    have hm : m.SameList (m.record (.acquired hintId env.lockHandle)) l :=
      Mem.SameList.record ⟨h, rfl⟩ _
    cases hb : env.newHint with
    | none =>
      refine .inl ⟨fun hsome => Bool.noConfusion hsome.1, rfl, ?_⟩
      exact hm.record _
    | some b =>
      have hb := hhint b hb
      have hfill := hm.lists.fillHint hb hintId env.lockHandle
      obtain ⟨hhead, hheap⟩ :=
        node_fillHint (m.record (.acquired hintId env.lockHandle)) b hintId env.lockHandle
      have hne : ∀ c ∈ l, (((m.record (.acquired hintId env.lockHandle)).fillHint b hintId
          env.lockHandle).node (.heap c)).data ≠ some (.heap b) := by
        intro c hc
        rw [hheap c]
        exact hm.lists.data_ne hb c hc
      cases ha : env.newNode with
      | none =>
        refine .inl ⟨fun hsome => Bool.noConfusion hsome.2, ?_, ?_⟩
        · simp [HintList.addListNode, Mem.freeHint, Mem.record]
        · simp only [HintList.addListNode]
          exact ((hm.trans hfill).trans (hfill.lists.freeHint hne)).record _
      | some a =>
        have hfresh : a ∉ ((m.record (.acquired hintId env.lockHandle)).fillHint b hintId
            env.lockHandle).nodes := by
          rw [nodes_fillHint]
          exact hnode a ha
        obtain ⟨hlists, hentries⟩ := hfill.lists.addListNode (b := b) hfresh (by simp) hne
          (by rw [hhead])
        refine .inr ⟨⟨rfl, rfl⟩, ?_, a, hlists, hentries.trans ?_⟩
        · simp [HintList.addListNode, Mem.setNode, Mem.record]
        · rw [hint_fillHint, Function.update_self, hfill.entries]
          rfl

theorem hint_setTemp (m : Mem) (v : HintData) (b : ℕ) :
    (m.setHint .temp v).hint (.heap b) = m.hint (.heap b) := by
  simp [Mem.setHint]

/-- The local variable of `undo_hint_action` is not in the list. -/
theorem Mem.Lists.setTemp (h : m.Lists l) (v : HintData) : m.SameList (m.setHint .temp v) l := by
  refine ⟨h.congr rfl (fun _ _ => rfl) h.used fun _ _ _ _ hb => hb, ?_⟩
  refine Mem.entries_congr (fun _ _ => rfl) fun a ha d hd => ?_
  obtain ⟨b, -, hdata⟩ := h.data a ha
  obtain rfl := Option.some.inj (hd.symm.trans hdata)
  exact hint_setTemp m v b

/-- `find_node` finds the first hint with the id. -/
theorem findNode_eq (h : m.Lists l) (hintId handle : ℤ) :
    findNode (m.setHint .temp ⟨hintId, handle⟩) .activeHead .temp =
      some ((l.find? fun a => (m.entry a).hintId == hintId).map .heap) := by
  have htemp := h.setTemp ⟨hintId, handle⟩
  have hlen : (l.map NodeAddr.heap).length < (m.setHint .temp ⟨hintId, handle⟩).fuel := by
    rw [List.length_map]
    exact htemp.lists.length_lt
  rw [findNode, seek_eq htemp.lists.walk hlen, List.find?_map]
  refine congrArg (fun o => some (Option.map NodeAddr.heap o)) ?_
  refine List.find?_congr fun a ha => ?_
  obtain ⟨b, -, hdata⟩ := h.data a ha
  have hself : (m.setHint .temp ⟨hintId, handle⟩).hint .temp = ⟨hintId, handle⟩ := by
    simp [Mem.setHint]
  have hnode : (m.setHint .temp ⟨hintId, handle⟩).node (.heap a) = m.node (.heap a) := rfl
  simp [hnode, h.compare a ha, hdata, hintCompare, hint_setTemp, hself, Mem.entry]

/-- The node before the one in the block `a`, if the nodes in front of it are in the blocks `l₁`. -/
def before (l₁ : List ℕ) : NodeAddr :=
  (NodeAddr.activeHead :: l₁.map .heap).getLast (List.cons_ne_nil _ _)

theorem removeListNode_eq {a : ℕ}
    (hwalk : Walk m.next (m.next .activeHead) (l₁.map .heap ++ .heap a :: l₂.map .heap))
    (hfuel : l₁.length < m.fuel) :
    removeListNode m .activeHead (.heap a) =
      some ((m.setNode (before l₁) { m.node (before l₁) with next := m.next (.heap a) }).freeNode
        (.heap a)) := by
  have hnext : m.next .activeHead ≠ none := by
    intro hnone
    rw [hnone] at hwalk
    cases hl : l₁.map NodeAddr.heap with
    | nil =>
      rw [hl] at hwalk
      cases hwalk.1
    | cons c l =>
      rw [hl] at hwalk
      cases hwalk.1
  have hprecede : precede m.next (.heap a) m.fuel .activeHead (m.next .activeHead) =
      some (before l₁, some (.heap a)) :=
    precede_eq hwalk (by rwa [List.length_map])
  rw [removeListNode, if_neg hnext, hprecede]

/-- A node is taken out of the list; the others stay. -/
theorem Mem.Lists.removeListNode {a b : ℕ} (h : m.Lists (l₁ ++ a :: l₂))
    (hdata : (m.node (.heap a)).data = some (.heap b)) :
    ∃ t, removeListNode (m.freeHint (.heap b)) .activeHead (.heap a) = some t ∧ t.log = m.log ∧
      m.SameList t (l₁ ++ l₂) := by
  have hwalk : Walk m.next (m.next .activeHead) (l₁.map .heap ++ .heap a :: l₂.map .heap) := by
    simpa using h.walk
  have hfuel : l₁.length < m.fuel := by
    have hlen := h.length_lt
    rw [List.length_append, List.length_cons] at hlen
    omega
  refine ⟨_, removeListNode_eq (m := m.freeHint (.heap b)) hwalk hfuel, rfl, ?_⟩
  set t := ((m.freeHint (.heap b)).setNode (before l₁)
    { (m.freeHint (.heap b)).node (before l₁) with
      next := (m.freeHint (.heap b)).next (.heap a) }).freeNode (.heap a) with ht
  have hnext : t.next = Function.update m.next (before l₁) (m.next (.heap a)) := by
    funext c
    by_cases hc : c = before l₁
    · subst hc
      simp [ht, Mem.freeNode, Mem.setNode, Mem.next, Mem.freeHint]
    · simp [ht, Mem.freeNode, Mem.setNode, Mem.next, Mem.freeHint, hc]
  have hnode : ∀ c,
      (t.node c).data = (m.node c).data ∧ (t.node c).compare = (m.node c).compare := by
    intro c
    by_cases hc : c = before l₁
    · subst hc
      simp [ht, Mem.freeNode, Mem.setNode, Mem.freeHint]
    · simp [ht, Mem.freeNode, Mem.setNode, Mem.freeHint, hc]
  have hsub : ∀ c ∈ l₁ ++ l₂, c ∈ l₁ ++ a :: l₂ := by
    intro c hc
    rcases List.mem_append.1 hc with hc | hc
    · exact List.mem_append_left _ hc
    · exact List.mem_append_right _ (List.mem_cons_of_mem a hc)
  have hnd := List.nodup_middle.1 h.nodup
  have hdistinct := h.distinct
  rw [List.map_append, List.map_cons, List.nodup_middle] at hdistinct
  constructor
  · constructor
    · rw [List.map_append, hnext]
      exact hwalk.unlink
    · intro c hc
      refine Finset.mem_erase.2 ⟨?_, h.used c (hsub c hc)⟩
      rintro rfl
      exact (List.nodup_cons.1 hnd).1 hc
    · intro c hc
      rw [(hnode _).2]
      exact h.compare c (hsub c hc)
    · intro c hc
      rw [(hnode _).1]
      obtain ⟨b', hb', hd⟩ := h.data c (hsub c hc)
      refine ⟨b', Finset.mem_erase.2 ⟨?_, hb'⟩, hd⟩
      rintro rfl
      refine (List.nodup_cons.1 hdistinct).1 ?_
      rw [hdata, ← hd, ← List.map_append]
      exact List.mem_map_of_mem hc
    · simp only [(hnode _).1]
      rw [List.map_append]
      exact (List.nodup_cons.1 hdistinct).2
  · exact Mem.entries_congr (fun c _ => (hnode _).1) fun _ _ _ _ => rfl

/-- What `undo_hint_action` does: it releases the lock of the first hint with the id and takes the
hint out of the list, or nothing if there is none. -/
theorem undo_cases (h : m.Lists l) (hrel : cfg.perfLockRel = true) :
    ∃ t, undoHintAction cfg hintId m = some t ∧
      ((∀ e ∈ m.entries l, e.hintId ≠ hintId) ∧ t.log = m.log ∧ m.SameList t l ∨
        ∃ l₁ a l₂, l = l₁ ++ a :: l₂ ∧ (∀ e ∈ m.entries l₁, e.hintId ≠ hintId) ∧
          (m.entry a).hintId = hintId ∧ t.log = .released (m.entry a).perflockHandle :: m.log ∧
          m.SameList t (l₁ ++ l₂)) := by
  have htemp := h.setTemp ⟨hintId, 0⟩
  have hfind := findNode_eq h hintId 0
  simp only [undoHintAction, if_pos hrel]
  rw [hfind]
  cases hl : l.find? fun a => (m.entry a).hintId == hintId with
  | none =>
    refine ⟨_, rfl, .inl ⟨?_, rfl, htemp⟩⟩
    simp only [Mem.entries, List.forall_mem_map]
    intro a ha heq
    exact List.find?_eq_none.1 hl a ha (beq_iff_eq.2 heq)
  | some a =>
    obtain ⟨hid, l₁, l₂, rfl, hnot⟩ := List.find?_eq_some_iff_append.1 hl
    have hmem : a ∈ l₁ ++ a :: l₂ := List.mem_append_right _ List.mem_cons_self
    obtain ⟨b, -, hdata⟩ := h.data a hmem
    have hnode : ((m.setHint .temp ⟨hintId, 0⟩).node (.heap a)).data = some (.heap b) := hdata
    have hentry : m.entry a = m.hint (.heap b) := by
      rw [Mem.entry, hdata]
      rfl
    -- the memory when the hint is freed
    have hm : m.SameList ((m.setHint .temp ⟨hintId, 0⟩).record
        (.released ((m.setHint .temp ⟨hintId, 0⟩).hint (.heap b)).perflockHandle)) _ :=
      htemp.record _
    obtain ⟨t, ht, hlog, hsame⟩ := hm.lists.removeListNode hdata
    refine ⟨t, ?_, .inr ⟨l₁, a, l₂, rfl, ?_, beq_iff_eq.1 hid, ?_, hsame.lists, ?_⟩⟩
    · simpa only [Option.map_some, hnode] using ht
    · simp only [Mem.entries, List.forall_mem_map]
      intro c hc heq
      simpa [heq] using hnot c hc
    · rw [hlog, hentry, ← hint_setTemp m ⟨hintId, 0⟩]
      rfl
    · rw [hsame.entries]
      have hentries := hm.entries
      simp only [Mem.entries, List.map_append, List.map_cons] at hentries ⊢
      obtain ⟨h₁, h₂⟩ := List.append_inj hentries (by simp)
      rw [h₁, (List.cons.inj h₂).2]

end

/-! ### The ledger -/

/-- What has been acquired is what has been released and what is held. -/
theorem acquired_eq {log : List Event} (h : ReleasedOnce log) :
    acquired log = released log + ((heldOf log).map (·.perflockHandle) : Multiset ℤ) := by
  induction log with
  | nil => rfl
  | cons e log ih =>
    cases e with
    | acquired id handle =>
      have ih := ih h
      simp only [acquired, released, heldOf, List.filterMap_cons, List.map_cons] at ih ⊢
      rw [← Multiset.cons_coe, ih, ← Multiset.cons_coe, Multiset.add_cons]
    | released handle =>
      obtain ⟨hheld, h⟩ := h
      have ih := ih h
      obtain ⟨e, he, rfl⟩ := List.mem_map.1 hheld
      obtain ⟨e', l₁, l₂, -, he', hsplit, herase⟩ :=
        List.exists_of_eraseP (p := fun e' => e'.perflockHandle == e.perflockHandle) he
          (beq_self_eq_true e.perflockHandle)
      have hperm : ((heldOf log).map (·.perflockHandle) : Multiset ℤ) =
          e.perflockHandle ::ₘ ((l₁ ++ l₂).map (·.perflockHandle) : Multiset ℤ) := by
        rw [hsplit, ← beq_iff_eq.1 he', Multiset.cons_coe, Multiset.coe_eq_coe]
        simp
      simp only [acquired, released, heldOf, List.filterMap_cons] at ih ⊢
      rw [ih, herase, hperm, ← Multiset.cons_coe, Multiset.cons_add, Multiset.add_cons]

/-- The most recent lock is the first one with its handle. -/
theorem eraseP_handle (e : HintData) (es : List HintData) :
    (e :: es).eraseP (fun e' => e'.perflockHandle == e.perflockHandle) = es := by
  simp

/-- The list is the ledger of the locks: its hints are the locks that are held, the most recent one
first. -/
structure Mem.Ledger (m : Mem) (l : List ℕ) : Prop where
  lists : m.Lists l
  held : heldOf m.log = m.entries l
  nodup : ((m.entries l).map (·.perflockHandle)).Nodup
  once : ReleasedOnce m.log

section

variable {m t : Mem} {l : List ℕ} {cfg : Config}

theorem Mem.Ledger.perform (h : m.Ledger l) (hacq : cfg.perfLockAcq = true)
    (hrel : cfg.perfLockRel = true) {hintId : ℤ} {env : Env}
    (hfresh : m.Fresh (.perform hintId env)) :
    ∃ l', (performHintAction cfg env hintId m).Ledger l' := by
  have hnot := hfresh.2.2
  rcases perform_cases h.lists hacq hrel hfresh with ⟨-, heq⟩ | ⟨hlock, hcase⟩
  · rw [heq]
    exact ⟨l, h⟩
  · rcases hcase with ⟨-, hlog, hsame⟩ | ⟨-, hlog, a, hlists, hentries⟩
    · -- the lock is acquired and given back
      refine ⟨l, hsame.lists, ?_, ?_, ?_⟩
      · rw [hlog, heldOf, heldOf, hsame.entries, ← h.held]
        exact eraseP_handle ⟨hintId, env.lockHandle⟩ _
      · rw [hsame.entries]
        exact h.nodup
      · rw [hlog]
        exact ⟨List.mem_cons_self, h.once⟩
    · refine ⟨a :: l, hlists, ?_, ?_, ?_⟩
      · rw [hlog, hentries, heldOf, h.held]
      · rw [hentries, List.map_cons, List.nodup_cons]
        refine ⟨?_, h.nodup⟩
        rw [← h.held]
        exact hnot hlock
      · rw [hlog]
        exact h.once

theorem Mem.Ledger.undo (h : m.Ledger l) (hrel : cfg.perfLockRel = true) (hintId : ℤ) :
    ∃ t, undoHintAction cfg hintId m = some t ∧ (∃ l', t.Ledger l') ∧
      t.log = ((heldOf m.log).find? (·.hintId == hintId)).elim m.log
        fun e => .released e.perflockHandle :: m.log := by
  obtain ⟨t, ht, hcase⟩ := @undo_cases m l cfg hintId h.lists hrel
  refine ⟨t, ht, ?_⟩
  rcases hcase with ⟨hnone, hlog, hsame⟩ | ⟨l₁, a, l₂, rfl, hnot, hid, hlog, hsame⟩
  · have hfind : (m.entries l).find? (·.hintId == hintId) = none :=
      List.find?_eq_none.2 fun e he heq => hnone e he (beq_iff_eq.1 heq)
    refine ⟨⟨l, hsame.lists, ?_, ?_, ?_⟩, ?_⟩
    · rw [hlog, h.held, hsame.entries]
    · rw [hsame.entries]
      exact h.nodup
    · rw [hlog]
      exact h.once
    · rw [h.held, hfind, hlog]
      rfl
  · have hentries : m.entries (l₁ ++ a :: l₂) = m.entries l₁ ++ m.entry a :: m.entries l₂ := by
      simp [Mem.entries]
    have hentries' : m.entries (l₁ ++ l₂) = m.entries l₁ ++ m.entries l₂ := by
      simp [Mem.entries]
    have hnodup := h.nodup
    rw [hentries, List.map_append, List.map_cons, List.nodup_middle, List.nodup_cons] at hnodup
    -- no other lock has the handle
    have hother : ∀ e ∈ m.entries l₁,
        ¬ (e.perflockHandle == (m.entry a).perflockHandle) = true := by
      intro e he heq
      refine hnodup.1 (List.mem_append_left _ ?_)
      rw [← beq_iff_eq.1 heq]
      exact List.mem_map_of_mem he
    refine ⟨⟨l₁ ++ l₂, hsame.lists, ?_, ?_, ?_⟩, ?_⟩
    · rw [hlog, heldOf, h.held, hsame.entries, hentries, hentries',
        List.eraseP_append_right _ hother, eraseP_handle]
    · rw [hsame.entries, hentries', List.map_append]
      exact hnodup.2
    · rw [hlog]
      refine ⟨?_, h.once⟩
      rw [h.held, hentries]
      exact List.mem_map_of_mem (List.mem_append_right _ List.mem_cons_self)
    · have hfind : (m.entries (l₁ ++ a :: l₂)).find? (·.hintId == hintId) = some (m.entry a) := by
        refine List.find?_eq_some_iff_append.2
          ⟨beq_iff_eq.2 hid, m.entries l₁, m.entries l₂, hentries, ?_⟩
        intro e he
        simpa using hnot e he
      rw [h.held, hfind, hlog]
      rfl

end

/-! ### The list of nodes -/

/-- The list in memory, and the locks that are held, are those of the state of `Utils`. -/
def Mem.Abstracts (m : Mem) (s : Hal) : Prop :=
  ∃ l, m.Lists l ∧ s.active = (m.entries l).map (⟨·, true⟩) ∧
    s.held = (heldOf m.log).map (·.perflockHandle)

section

variable {m : Mem} {s : Hal} {cfg : Config}

theorem map_eraseP (es : List HintData) (handle : ℤ) :
    (es.eraseP fun e => e.perflockHandle == handle).map (·.perflockHandle) =
      (es.map (·.perflockHandle)).erase handle := by
  rw [List.erase_eq_eraseP', List.eraseP_map]
  rfl

theorem Mem.Abstracts.perform (h : m.Abstracts s) (hacq : cfg.perfLockAcq = true)
    (hrel : cfg.perfLockRel = true) {hintId : ℤ} {env : Env}
    (hfresh : m.Fresh (.perform hintId env)) :
    (performHintAction cfg env hintId m).Abstracts
      (Power.performHintAction cfg ⟨env.lockHandle, env.newHint.isSome, env.newNode.isSome⟩ hintId
        s) := by
  obtain ⟨l, hl, hactive, hheld⟩ := h
  rcases perform_cases hl hacq hrel hfresh with ⟨hlock, heq⟩ | ⟨hlock, hcase⟩
  · rw [heq]
    refine ⟨l, hl, ?_, ?_⟩
    · simpa [Power.performHintAction, hacq, hlock] using hactive
    · simpa [Power.performHintAction, hacq, hlock] using hheld
  · rcases hcase with ⟨hnot, hlog, hsame⟩ | ⟨⟨hb, ha⟩, hlog, a, hlists, hentries⟩
    · have hs : (Power.performHintAction cfg ⟨env.lockHandle, env.newHint.isSome,
            env.newNode.isSome⟩ hintId s).active = s.active ∧
          (Power.performHintAction cfg ⟨env.lockHandle, env.newHint.isSome,
            env.newNode.isSome⟩ hintId s).held = s.held := by
        cases hb : env.newHint.isSome with
        | false => simp [Power.performHintAction, hacq, hrel, hlock, Hal.acquire, Hal.release]
        | true =>
          have ha : env.newNode.isSome = false := by
            rw [← Bool.not_eq_true]
            exact fun ha => hnot ⟨hb, ha⟩
          simp [Power.performHintAction, hacq, hrel, hlock, ha, Hal.acquire, Hal.release]
      refine ⟨l, hsame.lists, ?_, ?_⟩
      · rw [hs.1, hsame.entries, hactive]
      · rw [hs.2, hlog, heldOf, heldOf, hheld]
        exact congrArg _ (eraseP_handle ⟨hintId, env.lockHandle⟩ _).symm
    · rw [performHintAction_eq hacq ⟨hlock, hb, ha⟩]
      refine ⟨a :: l, hlists, ?_, ?_⟩
      · rw [hentries, hactive, List.map_cons]
      · rw [hlog, heldOf, hheld, List.map_cons]

theorem Mem.Abstracts.undo (h : m.Abstracts s) (hrel : cfg.perfLockRel = true) (hintId : ℤ) :
    ∃ t, undoHintAction cfg hintId m = some t ∧
      t.Abstracts (Power.undoHintAction cfg hintId s) := by
  obtain ⟨l, hl, hactive, hheld⟩ := h
  obtain ⟨t, ht, hcase⟩ := @undo_cases m l cfg hintId hl hrel
  refine ⟨t, ht, ?_⟩
  rcases hcase with ⟨hnone, hlog, hsame⟩ | ⟨l₁, a, l₂, rfl, hnot, hid, hlog, hsame⟩
  · have hfind : Power.findNode s.active hintId = none := by
      rw [hactive]
      refine List.findIdx?_eq_none_iff.2 ?_
      simp only [List.forall_mem_map, Bool.true_and, beq_eq_false_iff_ne]
      exact hnone
    rw [undoHintAction_eq_of_none hfind]
    exact ⟨l, hsame.lists, by rw [hsame.entries, hactive], by rw [hlog, hheld]⟩
  · have hsplit : s.active =
        (m.entries l₁).map (⟨·, true⟩) ++ ⟨m.entry a, true⟩ :: (m.entries l₂).map (⟨·, true⟩) := by
      rw [hactive]
      simp [Mem.entries]
    have hfind : Power.findNode s.active hintId =
        some ((m.entries l₁).map (Node.mk · true)).length := by
      have hfirst : ((m.entries l₁).map (Node.mk · true)).findIdx?
          (fun node => node.compare && node.data.hintId == hintId) = none := by
        refine List.findIdx?_eq_none_iff.2 ?_
        simp only [List.forall_mem_map, Bool.true_and, beq_eq_false_iff_ne]
        exact hnot
      rw [hsplit, Power.findNode, List.findIdx?_append, hfirst, List.findIdx?_cons]
      simp [hid]
    have hnode :
        s.active[((m.entries l₁).map (Node.mk · true)).length]? = some ⟨m.entry a, true⟩ := by
      rw [hsplit, List.getElem?_append_right (Nat.le_refl _)]
      simp
    rw [undoHintAction_eq_of_some hrel hfind hnode]
    refine ⟨l₁ ++ l₂, hsame.lists, ?_, ?_⟩
    · rw [hsame.entries, hsplit, List.eraseIdx_append_of_length_le (Nat.le_refl _)]
      simp [Mem.entries]
    · rw [hlog, heldOf, map_eraseP, ← hheld]

end

/-- **The list of active hints is the ledger of the locks.**  In every sequence of calls, whatever
`malloc` and `perf_lock_acq` return: the handles in the list are those that have been acquired and
not been released; no handle is released twice; no call gets stuck; and `undo_hint_action` releases
the most recent lock of the id that is held and nothing else, or nothing if there is none. -/
theorem ledger_of_run {cfg : Config} {calls : List Call} {m : Mem}
    (hacq : cfg.perfLockAcq = true) (hrel : cfg.perfLockRel = true)
    (hrun : Run (step cfg) Mem.Fresh {} calls m) :
    (∃ l, m.Lists l ∧ heldOf m.log = m.entries l ∧
        acquired m.log =
          released m.log + ((m.entries l).map (·.perflockHandle) : Multiset ℤ)) ∧
      (ReleasedOnce m.log ∧ ((acquired m.log).Nodup → (released m.log).Nodup)) ∧
      (∀ call, m.Fresh call → ∃ t, step cfg m call = some t) ∧
      ∀ hintId, ∃ t, step cfg m (.undo hintId) = some t ∧
        t.log = ((heldOf m.log).find? (·.hintId == hintId)).elim m.log
          fun e => .released e.perflockHandle :: m.log := by
  have hinv : ∃ l, m.Ledger l := by
    refine hrun.invariant (I := fun m => ∃ l, m.Ledger l) ⟨[], ?_⟩ ?_
    · exact ⟨⟨rfl, by simp, by simp, by simp, by simp⟩, rfl, List.nodup_nil, trivial⟩
    · rintro u call t hfresh ⟨l, hl⟩ hstep
      cases call with
      | perform hintId env =>
        obtain rfl := Option.some.inj hstep
        exact hl.perform hacq hrel hfresh
      | undo hintId =>
        obtain ⟨t', ht', hl', -⟩ := hl.undo hrel hintId
        obtain rfl := Option.some.inj (ht'.symm.trans hstep)
        exact hl'
  obtain ⟨l, hl⟩ := hinv
  have hacquired := acquired_eq hl.once
  refine ⟨⟨l, hl.lists, hl.held, ?_⟩, ⟨hl.once, fun hnd => ?_⟩, ?_, fun hintId => ?_⟩
  · rw [← hl.held]
    exact hacquired
  · rw [hacquired] at hnd
    exact Multiset.nodup_of_le (Multiset.le_add_right _ _) hnd
  · intro call _
    cases call with
    | perform hintId env => exact ⟨_, rfl⟩
    | undo hintId =>
      obtain ⟨t, ht, -⟩ := hl.undo hrel hintId
      exact ⟨t, ht⟩
  · obtain ⟨t, ht, -, hlog⟩ := hl.undo hrel hintId
    exact ⟨t, ht, hlog⟩

/-- Two hints with the same id, the second of which cannot be listed; the lock of the first one is
released when the id is undone. -/
theorem ledger_undo :
    ∃ m, Run (step ⟨true, true, none, true⟩) Mem.Fresh {}
        [.perform 2560 ⟨7, some 0, some 0⟩, .perform 2560 ⟨8, some 1, none⟩, .undo 2560] m ∧
      m.log = [.released 7, .released 8, .acquired 2560 8, .acquired 2560 7] := by
  have hrun : Run (step ⟨true, true, none, true⟩) Mem.Fresh {}
      [.perform 2560 ⟨7, some 0, some 0⟩, .perform 2560 ⟨8, some 1, none⟩]
      (performHintAction ⟨true, true, none, true⟩ ⟨8, some 1, none⟩ 2560
        (performHintAction ⟨true, true, none, true⟩ ⟨7, some 0, some 0⟩ 2560 {})) := by
    refine .cons ⟨by decide, by decide, by decide⟩ rfl (.cons ⟨?_, ?_, ?_⟩ rfl (.nil _))
    · decide
    · decide
    · decide
  obtain ⟨t, hstep, hlog⟩ := (ledger_of_run rfl rfl hrun).2.2.2 2560
  exact ⟨t, hrun.append (.cons trivial hstep (.nil t)), hlog⟩

end HintList

end Power

end Msm8909w
