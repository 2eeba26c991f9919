import Mathlib.Data.List.Perm.Basic
import Msm8909w.Lib.Bytes

/-!
# Power hints: metadata and the list of active hints

`metadata-parser.c`, `list.c`, `hint-data.c` and the part of `utils.c` that takes and gives back
perflocks.  A hint comes with a text such as `hint_id=2560;state=1`.  For every hint that is carried
out, `perform_hint_action` takes a perflock and puts its handle into the list of active hints, where
`undo_hint_action` finds it again by the id of the hint.

The library with `perf_lock_acq` and `perf_lock_rel` is outside: which handle an acquisition returns
is part of `Env`, and `Hal.held` is the list of the handles that have been acquired through
`perform_hint_action` and not been given back.
-/

namespace Msm8909w

namespace Power

/-! ### Metadata -/

/-- The fields of `video_encode_metadata_t` and `video_decode_metadata_t`. -/
structure VideoMetadata where
  hintId : ℤ
  state : ℤ
  deriving DecidableEq, Repr

/-- The size of the buffers for an attribute and for its value. -/
def attributeSize : ℕ := 1024

/-- The attribute and the value of a piece of the metadata, as `parse_metadata` copies them to its
buffers. -/
def parseAttribute (attributeString : Bytes) : Bytes × Bytes :=
  let delim := attributeString.idxOf 61
  if delim < attributeString.length then
    let name := attributeString.take (min delim (attributeSize - 1))
    let bytesToCopy := min (attributeString.length - name.length - 1) (attributeSize - 1)
    (name, (attributeString.drop (delim + 1)).take bytesToCopy)
  else ([], [])

/-- What the loop over the attributes does with one of them. -/
def VideoMetadata.assign (m : VideoMetadata) (attributeString : Bytes) : VideoMetadata :=
  let (name, value) := parseAttribute attributeString
  let m :=
    if name = ascii "hint_id" ∧ value ≠ [] then { m with hintId := atoi value } else m
  if name = ascii "state" ∧ value ≠ [] then { m with state := atoi value } else m

/-- The pieces `strtok_r` cuts a text into. -/
def strtok (delim : UInt8) (text : Bytes) : List Bytes :=
  (text.splitOnP (· == delim)).filter (· ≠ [])

/-- `parse_video_encode_metadata` and `parse_video_decode_metadata`, which never fail. -/
def parseVideoMetadata (m : VideoMetadata) (metadata : Bytes) : VideoMetadata :=
  (strtok 59 metadata).foldl VideoMetadata.assign m

/-! ### Active hints -/

/-- `struct hint_data`. -/
structure HintData where
  hintId : ℤ
  perflockHandle : ℤ
  deriving DecidableEq, Repr

/-- `struct list_node`. -/
structure Node where
  data : HintData
  /-- The node has a `compare` function. -/
  compare : Bool
  deriving DecidableEq, Repr

/-- The parts of the outside world that do not change. -/
structure Config where
  /-- The functions of the perflock library are present. -/
  perfLockAcq : Bool
  perfLockRel : Bool
  /-- The content of the scaling governor's node; `none` if it cannot be read. -/
  scalingGovernor : Option Bytes
  /-- The handlers of `power-8909.c` are linked in. -/
  msm8909 : Bool

/-- What the outside world does during a call. -/
structure Env where
  /-- The handle `perf_lock_acq` returns, or `-1`. -/
  lockHandle : ℤ
  /-- `malloc` returns a `hint_data`. -/
  newHint : Bool := true
  /-- `malloc` returns a `list_node`. -/
  newNode : Bool := true

/-- The static variables, and the perflocks. -/
structure Hal where
  /-- `active_hint_list_head.compare` is set. -/
  compare : Bool := false
  /-- The nodes behind `active_hint_list_head`. -/
  active : List Node := []
  displayHintSent : Bool := false
  /-- The handles that have been acquired through `perform_hint_action` and not been released. -/
  held : List ℤ := []
  deriving DecidableEq, Repr

/-- `perf_lock_acq` returns the handle. -/
def Hal.acquire (s : Hal) (handle : ℤ) : Hal := { s with held := handle :: s.held }

/-- `perf_lock_rel`. -/
def Hal.release (s : Hal) (handle : ℤ) : Hal := { s with held := s.held.erase handle }

/-- `find_node` for the hint with the id: nodes without a `compare` function are passed over. -/
def findNode (active : List Node) (hintId : ℤ) : Option ℕ :=
  active.findIdx? fun node => node.compare && node.data.hintId == hintId

/-- `perform_hint_action`. -/
def performHintAction (cfg : Config) (env : Env) (hintId : ℤ) (s : Hal) : Hal :=
  if cfg.perfLockAcq then
    if env.lockHandle = -1 then s
    else
      let s := s.acquire env.lockHandle
      let giveUp (s : Hal) : Hal := if cfg.perfLockRel then s.release env.lockHandle else s
      if env.newHint then
        let s := { s with compare := true }
        if env.newNode then
          { s with active := ⟨⟨hintId, env.lockHandle⟩, s.compare⟩ :: s.active }
        else giveUp s
      else giveUp s
  else s

/-- `undo_hint_action`. -/
def undoHintAction (cfg : Config) (hintId : ℤ) (s : Hal) : Hal :=
  if cfg.perfLockRel then
    match findNode s.active hintId with
    | some i =>
      let s := match s.active[i]? with
        | some node => s.release node.data.perflockHandle
        | none => s
      { s with active := s.active.eraseIdx i }
    | none => s
  else s

/-! ### The ledger -/

/-- The handles of the active hints are the handles that are held. -/
structure Hal.Ledger (s : Hal) : Prop where
  compare : ∀ node ∈ s.active, node.compare = true
  held : s.held.Perm (s.active.map fun node => node.data.perflockHandle)

/-- The number of active hints with the id. -/
def Hal.count (s : Hal) (hintId : ℤ) : ℕ := s.active.countP fun node => node.data.hintId == hintId

theorem Hal.Ledger.held_eq_nil {s : Hal} (h : s.Ledger) : s.held = [] ↔ ∀ id, s.count id = 0 := by
  have hactive : s.held = [] ↔ s.active = [] := by
    rw [← List.length_eq_zero_iff, h.held.length_eq, List.length_map, List.length_eq_zero_iff]
  rw [hactive]
  constructor
  · intro hnil id
    simp [Hal.count, hnil]
  · intro hzero
    refine List.eq_nil_iff_forall_not_mem.2 fun node hnode => ?_
    exact List.countP_eq_zero.1 (hzero node.data.hintId) node hnode (beq_self_eq_true _)

section

variable {cfg : Config} {env : Env} {s : Hal} {hintId : ℤ}

/-- Nothing fails when a lock is acquired. -/
def Env.Succeeds (env : Env) : Prop :=
  env.lockHandle ≠ -1 ∧ env.newHint = true ∧ env.newNode = true

theorem performHintAction_eq (hacq : cfg.perfLockAcq = true) (hok : env.Succeeds) :
    performHintAction cfg env hintId s = { s with
      compare := true
      active := ⟨⟨hintId, env.lockHandle⟩, true⟩ :: s.active
      held := env.lockHandle :: s.held } := by
  obtain ⟨hh, hn, hl⟩ := hok
  simp [performHintAction, hacq, hh, hn, hl, Hal.acquire]

theorem undoHintAction_eq_of_none (h : findNode s.active hintId = none) :
    undoHintAction cfg hintId s = s := by
  simp [undoHintAction, h]

theorem undoHintAction_eq_of_some (hrel : cfg.perfLockRel = true) {i : ℕ} {node : Node}
    (h : findNode s.active hintId = some i) (hnode : s.active[i]? = some node) :
    undoHintAction cfg hintId s = { s with
      active := s.active.eraseIdx i, held := s.held.erase node.data.perflockHandle } := by
  simp [undoHintAction, hrel, h, hnode, Hal.release]

/-- The node that is found is there, and it has the id. -/
theorem exists_of_findNode {i : ℕ} (h : findNode s.active hintId = some i) :
    ∃ node, s.active[i]? = some node ∧ node.data.hintId = hintId := by
  obtain ⟨hi, hp, -⟩ := List.findIdx?_eq_some_iff_getElem.1 h
  refine ⟨s.active[i], List.getElem?_eq_getElem hi, ?_⟩
  simp only [Bool.and_eq_true, beq_iff_eq] at hp
  exact hp.2

theorem Hal.Ledger.perform (h : s.Ledger) (hacq : cfg.perfLockAcq = true) (hok : env.Succeeds) :
    (performHintAction cfg env hintId s).Ledger := by
  rw [performHintAction_eq hacq hok]
  refine ⟨fun node hnode => ?_, h.held.cons _⟩
  rcases List.mem_cons.1 hnode with rfl | hnode
  · rfl
  · exact h.compare node hnode

theorem perm_erase_eraseIdx {l : List Node} {i : ℕ} {node : Node} (h : l[i]? = some node) :
    l.Perm (node :: l.eraseIdx i) := by
  obtain ⟨hi, rfl⟩ := List.getElem?_eq_some_iff.1 h
  exact (List.getElem_cons_eraseIdx_perm hi).symm

theorem Hal.Ledger.undo (h : s.Ledger) (hrel : cfg.perfLockRel = true) :
    (undoHintAction cfg hintId s).Ledger := by
  cases hfind : findNode s.active hintId with
  | none => rwa [undoHintAction_eq_of_none hfind]
  | some i =>
    obtain ⟨node, hnode, -⟩ := exists_of_findNode hfind
    rw [undoHintAction_eq_of_some hrel hfind hnode]
    refine ⟨fun n hn => h.compare n (List.mem_of_mem_eraseIdx hn), ?_⟩
    have hperm := h.held.trans ((perm_erase_eraseIdx hnode).map fun n => n.data.perflockHandle)
    simpa using hperm.erase node.data.perflockHandle

theorem count_performHintAction (hacq : cfg.perfLockAcq = true) (hok : env.Succeeds) (id : ℤ) :
    (performHintAction cfg env hintId s).count id =
      if hintId = id then s.count id + 1 else s.count id := by
  rw [performHintAction_eq hacq hok]
  simp only [Hal.count, List.countP_cons, beq_iff_eq]
  split_ifs <;> rfl

theorem count_undoHintAction (h : s.Ledger) (hrel : cfg.perfLockRel = true) (id : ℤ) :
    (undoHintAction cfg hintId s).count id =
      if hintId = id then s.count id - 1 else s.count id := by
  cases hfind : findNode s.active hintId with
  | none =>
    rw [undoHintAction_eq_of_none hfind]
    split_ifs with hid
    · -- no node has the id
      have hzero : s.count id = 0 := by
        refine List.countP_eq_zero.2 fun node hnode hmatch => ?_
        have hnot := List.findIdx?_eq_none_iff.1 hfind node hnode
        rw [h.compare node hnode, hid, hmatch] at hnot
        exact absurd hnot (by decide)
      rw [hzero]
    · rfl
  | some i =>
    obtain ⟨node, hnode, hnodeId⟩ := exists_of_findNode hfind
    have hcount := (perm_erase_eraseIdx hnode).countP_eq fun n => n.data.hintId == id
    rw [List.countP_cons, hnodeId] at hcount
    rw [undoHintAction_eq_of_some hrel hfind hnode]
    simp only [Hal.count, hcount, beq_iff_eq]
    split_ifs
    · exact (Nat.add_sub_cancel _ 1).symm
    · rfl

end

end Power

end Msm8909w
