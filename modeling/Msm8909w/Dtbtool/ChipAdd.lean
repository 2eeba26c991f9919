import Mathlib.Data.List.Nodup
import Mathlib.Data.List.Perm.Subperm
import Msm8909w.Lib.Linked
import Msm8909w.Lib.Loop
import Msm8909w.Dtbtool.ChipList

/-!
# The pointers of `chip_add`

`ChipList` models the list of `dtbtool.c` as a list.  Here are the nodes with their pointers `prev`
and `next`, the global `chip_list`, and the writes of `chip_add` one after the other.  A node that
has not been added has arbitrary pointers.

* `exists_loop_chipAddTurn` : the loop of `chip_add` ends, and does to the nodes what `chipAdd` does
  to the list,
* `chip_add_exact` : after any sequence of calls with fresh nodes the list has one node for each
  tuple, linked in both directions; a call is refused exactly if its tuple is there, and then
  changes nothing.
-/

namespace Msm8909w

namespace Dtbtool

/-- The address of a `struct chipInfo_t`. -/
abbrev Addr := ℕ

/-- A `struct chipInfo_t` with the pointers of the chip list. -/
structure Node where
  info : ChipInfo
  prev : Option Addr
  next : Option Addr
  deriving DecidableEq, Repr

/-- The global `chip_list` and the nodes. -/
structure Memory where
  chipList : Option Addr
  node : Addr → Node

/-- `RC_SUCCESS` and `RC_ERROR`. -/
inductive Rc
  | success
  | error
  deriving DecidableEq, Repr

namespace Memory

/-- `a->next = p`. -/
def setNext (m : Memory) (a : Addr) (p : Option Addr) : Memory :=
  { m with node := Function.update m.node a { m.node a with next := p } }

/-- `a->prev = p`. -/
def setPrev (m : Memory) (a : Addr) (p : Option Addr) : Memory :=
  { m with node := Function.update m.node a { m.node a with prev := p } }

/-- `chip_list = p`. -/
def setChipList (m : Memory) (p : Option Addr) : Memory := { m with chipList := p }

def next (m : Memory) (a : Addr) : Option Addr := (m.node a).next

def prev (m : Memory) (a : Addr) : Option Addr := (m.node a).prev

def info (m : Memory) (a : Addr) : ChipInfo := (m.node a).info

section Writes

variable (m : Memory) (a b : Addr) (p : Option Addr)

@[simp] theorem chipList_setNext : (m.setNext a p).chipList = m.chipList := rfl

@[simp] theorem chipList_setPrev : (m.setPrev a p).chipList = m.chipList := rfl

@[simp] theorem chipList_setChipList : (m.setChipList p).chipList = p := rfl

@[simp] theorem next_setChipList : (m.setChipList p).next = m.next := rfl

@[simp] theorem prev_setChipList : (m.setChipList p).prev = m.prev := rfl

@[simp] theorem info_setChipList : (m.setChipList p).info = m.info := rfl

theorem node_setNext :
    (m.setNext a p).node b = if b = a then { m.node a with next := p } else m.node b :=
  Function.update_apply _ _ _ _

theorem node_setPrev :
    (m.setPrev a p).node b = if b = a then { m.node a with prev := p } else m.node b :=
  Function.update_apply _ _ _ _

@[simp] theorem next_setNext : (m.setNext a p).next b = if b = a then p else m.next b := by
  unfold next
  rw [node_setNext]
  split_ifs <;> rfl

@[simp] theorem prev_setPrev : (m.setPrev a p).prev b = if b = a then p else m.prev b := by
  unfold prev
  rw [node_setPrev]
  split_ifs <;> rfl

@[simp] theorem prev_setNext : (m.setNext a p).prev b = m.prev b := by
  unfold prev
  rw [node_setNext]
  split_ifs with h
  · rw [h]
  · rfl

@[simp] theorem next_setPrev : (m.setPrev a p).next b = m.next b := by
  unfold next
  rw [node_setPrev]
  split_ifs with h
  · rw [h]
  · rfl

@[simp] theorem info_setNext : (m.setNext a p).info = m.info := by
  funext b
  unfold info
  rw [node_setNext]
  split_ifs with h
  · rw [h]
  · rfl

@[simp] theorem info_setPrev : (m.setPrev a p).info = m.info := by
  funext b
  unfold info
  rw [node_setPrev]
  split_ifs with h
  · rw [h]
  · rfl

end Writes

end Memory

/-- One turn of the loop of `chip_add`, at the node `x`. -/
def chipAddTurn (c : Addr) (st : Addr × Memory) : (Addr × Memory) ⊕ (Rc × Memory) :=
  let (x, m) := st
  if (m.info c).id.before (m.info x).id then
    match m.prev x with
    | none =>
      .inr (.success,
        (((m.setNext c (some x)).setPrev c none).setPrev x (some c)).setChipList (some c))
    | some p =>
      .inr (.success, (((m.setNext c (some x)).setPrev c (some p)).setNext p (some c)).setPrev
        x (some c))
  else if (m.info c).id = (m.info x).id then .inr (.error, m)
  else
    match m.next x with
    | none => .inr (.success, ((m.setPrev c (some x)).setNext c none).setNext x (some c))
    | some y => .inl (y, m)

/-- `chip_add(c)`, with a bound on the turns of its loop. -/
def chipAddPtr (fuel : ℕ) (m : Memory) (c : Addr) : Option (Rc × Memory) :=
  match m.chipList with
  | none => some (.success, ((m.setChipList (some c)).setNext c none).setPrev c none)
  | some x => loop (chipAddTurn c) fuel (x, m)

/-- A sequence of calls. -/
def chipAddAll (fuel : ℕ) (m : Memory) : List Addr → Option Memory
  | [] => some m
  | c :: cs => (chipAddPtr fuel m c).bind fun r => chipAddAll fuel r.2 cs

/-- The nodes `l` are the chip list: finite, without cycles, and linked in both directions. -/
structure IsChipList (m : Memory) (l : List Addr) : Prop where
  head : m.chipList = l.head?
  nodup : l.Nodup
  linked : Linked m.next m.prev none l none

/-! ### One call -/

section Call

variable {m m' : Memory} {c x : Addr} {l pre post : List Addr}

/-- The insertion in front of `x`, when `x` is the first node. -/
theorem isChipList_insert_head (h : IsChipList m (x :: post)) (hc : c ∉ x :: post) :
    IsChipList (((m.setNext c (some x)).setPrev c none).setPrev x (some c) |>.setChipList (some c))
      (c :: x :: post) where
  head := rfl
  nodup := List.nodup_cons.2 ⟨hc, h.nodup⟩
  linked := by
    obtain ⟨hcx, hcpost⟩ := List.ne_and_not_mem_of_not_mem_cons hc
    obtain ⟨hxpost, -⟩ := List.nodup_cons.1 h.nodup
    refine h.linked.insert_head (by simp) (by simp [hcx]) (by simp [Ne.symm hcx]) (by simp)
      fun a ha => ?_
    have hac : a ≠ c := fun hac => hcpost (hac ▸ ha)
    have hax : a ≠ x := fun hax => hxpost (hax ▸ ha)
    simp [hac, hax]

/-- The insertion in front of `x`, when `p` comes before it. -/
theorem isChipList_insert {p : Addr} (h : IsChipList m (pre ++ [p] ++ x :: post))
    (hc : c ∉ pre ++ [p] ++ x :: post) :
    IsChipList (((m.setNext c (some x)).setPrev c (some p)).setNext p (some c) |>.setPrev
      x (some c))
      (pre ++ [p] ++ c :: x :: post) where
  head := by
    rw [Memory.chipList_setPrev, Memory.chipList_setNext, Memory.chipList_setPrev,
      Memory.chipList_setNext, h.head]
    simp only [List.append_assoc, List.head?_append, List.singleton_append, List.head?_cons]
  nodup := List.nodup_middle.2 (List.nodup_cons.2 ⟨hc, h.nodup⟩)
  linked := by
    have hn := h.nodup
    simp only [List.nodup_append, List.nodup_cons, List.mem_append, List.mem_cons, List.not_mem_nil,
      or_false, not_or] at hn hc
    obtain ⟨⟨hcpre, hcp⟩, hcx, hcpost⟩ := hc
    obtain ⟨⟨-, -, hprep⟩, ⟨hxpost, -⟩, hsep⟩ := hn
    have hpx : p ≠ x := hsep p (.inr rfl) x (.inl rfl)
    refine h.linked.insert (by simp [hcp]) (by simp [hcx]) (by simp) (by simp [Ne.symm hcp, hpx])
      (by simp [Ne.symm hcx, Ne.symm hpx]) (by simp) (fun a ha => ?_) fun a ha => ?_
    · have hac : a ≠ c := fun hac => hcpre (hac ▸ ha)
      have hap : a ≠ p := hprep a ha p rfl
      have hax : a ≠ x := hsep a (.inl ha) x (.inl rfl)
      simp [hac, hap, hax]
    · have hac : a ≠ c := fun hac => hcpost (hac ▸ ha)
      have hap : a ≠ p := Ne.symm (hsep p (.inr rfl) a (.inr ha))
      have hax : a ≠ x := fun hax => hxpost (hax ▸ ha)
      simp [hac, hap, hax]

/-- The insertion after the last node. -/
theorem isChipList_concat (h : IsChipList m (pre ++ [x])) (hc : c ∉ pre ++ [x]) :
    IsChipList (((m.setPrev c (some x)).setNext c none).setNext x (some c))
      (pre ++ [x] ++ [c]) where
  head := by
    rw [Memory.chipList_setNext, Memory.chipList_setNext, Memory.chipList_setPrev, h.head]
    simp only [List.append_assoc, List.head?_append, List.singleton_append, List.head?_cons]
  nodup := by
    rw [List.nodup_append]
    refine ⟨h.nodup, List.nodup_singleton c, fun a ha b hb hab => hc ?_⟩
    rwa [← List.mem_singleton.1 hb, ← hab]
  linked := by
    have hn := h.nodup
    simp only [List.nodup_append, List.mem_append, List.mem_singleton, not_or] at hn hc
    obtain ⟨hcpre, hcx⟩ := hc
    refine h.linked.concat (by simp [hcx]) (by simp) (by simp) (by simp [Ne.symm hcx]) fun a ha =>
      ?_
    have hac : a ≠ c := fun hac => hcpre (hac ▸ ha)
    have hax : a ≠ x := hn.2.2 a ha x rfl
    simp [hac, hax]

/-- The turn at a node with a larger key. -/
theorem exists_turn_before (h : IsChipList m (pre ++ x :: post)) (hc : c ∉ pre ++ x :: post)
    (hb : (m.info c).id.before (m.info x).id = true) :
    ∃ m', chipAddTurn c (x, m) = .inr (.success, m') ∧ m'.info = m.info ∧
      IsChipList m' (pre ++ c :: x :: post) := by
  have hprev := h.linked.middle.1
  rw [Option.or_none] at hprev
  rcases List.eq_nil_or_concat pre with rfl | ⟨pre, p, rfl⟩
  · refine ⟨_, ?_, ?_, isChipList_insert_head h hc⟩
    · rw [chipAddTurn, if_pos hb, hprev]
      rfl
    · simp
  · rw [List.concat_eq_append] at h hc hprev ⊢
    refine ⟨_, ?_, ?_, isChipList_insert h hc⟩
    · rw [chipAddTurn, if_pos hb, hprev, List.getLast?_concat]
    · simp

/-- The turn at the last node, when its key is not larger and its tuple is another one. -/
theorem exists_turn_last (h : IsChipList m (pre ++ [x])) (hc : c ∉ pre ++ [x])
    (hb : ¬ (m.info c).id.before (m.info x).id = true) (he : (m.info c).id ≠ (m.info x).id) :
    ∃ m', chipAddTurn c (x, m) = .inr (.success, m') ∧ m'.info = m.info ∧
      IsChipList m' (pre ++ [x] ++ [c]) := by
  have hnext : m.next x = none := h.linked.middle.2
  refine ⟨_, ?_, ?_, isChipList_concat h hc⟩
  · rw [chipAddTurn, if_neg hb, if_neg he, hnext]
  · simp

/-- What the loop does to the nodes `rest`, which come after the nodes `pre`: it refuses the node
`c` if `chipAdd` does, and otherwise puts it where `chipAdd` puts it. -/
def Added (m : Memory) (c : Addr) (pre rest : List Addr) (rc : Rc) (m' : Memory) : Prop :=
  match chipAdd (m.info c) (rest.map m.info) with
  | none => rc = .error ∧ m' = m
  | some s => rc = .success ∧ m'.info = m.info ∧
    ∃ l, IsChipList m' (pre ++ l) ∧ l.map m.info = s ∧ ∀ a, a ∈ l ↔ a = c ∨ a ∈ rest

/-- A node that is passed by. -/
theorem Added.cons {rc : Rc} (hb : ¬ (m.info c).id.before (m.info x).id = true)
    (he : (m.info c).id ≠ (m.info x).id) (h : Added m c (pre ++ [x]) post rc m') :
    Added m c pre (x :: post) rc m' := by
  unfold Added at h ⊢
  rw [List.map_cons, chipAdd, if_neg hb, if_neg he]
  cases hadd : chipAdd (m.info c) (post.map m.info) with
  | none =>
    rw [hadd] at h
    exact h
  | some s =>
    rw [hadd] at h
    obtain ⟨hrc, hinfo, l, hlist, hmap, hmem⟩ := h
    refine ⟨hrc, hinfo, x :: l, ?_, by rw [List.map_cons, hmap], fun a => ?_⟩
    · rwa [List.append_cons]
    · rw [List.mem_cons, hmem, List.mem_cons, or_left_comm]

/-- The loop ends.  The induction is on the nodes that are still to be visited. -/
theorem exists_loop_chipAddTurn {fuel : ℕ} (h : IsChipList m (pre ++ x :: post))
    (hc : c ∉ pre ++ x :: post) (hfuel : post.length < fuel) :
    ∃ rc m', loop (chipAddTurn c) fuel (x, m) = some (rc, m') ∧
      Added m c pre (x :: post) rc m' := by
  induction fuel generalizing pre x post with
  | zero => cases hfuel
  | succ fuel ih =>
    rw [loop]
    by_cases hb : (m.info c).id.before (m.info x).id = true
    · obtain ⟨m', hturn, hinfo, hlist⟩ := exists_turn_before h hc hb
      rw [hturn]
      refine ⟨.success, m', rfl, ?_⟩
      rw [Added, List.map_cons, chipAdd, if_pos hb]
      exact ⟨rfl, hinfo, c :: x :: post, hlist, rfl, fun a => List.mem_cons⟩
    by_cases he : (m.info c).id = (m.info x).id
    · have hturn : chipAddTurn c (x, m) = .inr (.error, m) := by
        rw [chipAddTurn, if_neg hb, if_pos he]
      rw [hturn]
      refine ⟨.error, m, rfl, ?_⟩
      rw [Added, List.map_cons, chipAdd, if_neg hb, if_pos he]
      exact ⟨rfl, rfl⟩
    cases post with
    | nil =>
      obtain ⟨m', hturn, hinfo, hlist⟩ := exists_turn_last h hc hb he
      rw [hturn]
      exact ⟨.success, m', rfl, Added.cons hb he ⟨rfl, hinfo, [c], hlist, rfl, by simp⟩⟩
    | cons y post =>
      have hnext : m.next x = some y := h.linked.middle.2
      have hturn : chipAddTurn c (x, m) = .inl (y, m) := by
        rw [chipAddTurn, if_neg hb, if_neg he, hnext]
      rw [hturn]
      rw [List.append_cons] at h hc
      obtain ⟨rc, m', hloop, hadded⟩ := ih h hc (Nat.lt_of_succ_lt_succ hfuel)
      exact ⟨rc, m', hloop, hadded.cons hb he⟩

/-- One call, on the whole list. -/
theorem exists_chipAddPtr {fuel : ℕ} (h : IsChipList m l) (hc : c ∉ l) (hfuel : l.length ≤ fuel) :
    ∃ rc m', chipAddPtr fuel m c = some (rc, m') ∧ Added m c [] l rc m' := by
  rw [chipAddPtr, h.head]
  cases l with
  | nil =>
    refine ⟨.success, _, rfl, rfl, by simp, [c], ⟨rfl, List.nodup_singleton c, ?_⟩, rfl, by simp⟩
    exact ⟨by simp, by simp, trivial⟩
  | cons x post => exact exists_loop_chipAddTurn h hc hfuel

end Call

/-! ### Sequences of calls -/

/-- The chip list has exactly one node for each of the tuples, and `chip_list` is the node without a
predecessor. -/
structure OneForEach (m : Memory) (l : List Addr) (offered : List ChipId) : Prop where
  list : IsChipList m l
  first : ∀ a ∈ l, m.prev a = none ↔ m.chipList = some a
  once : ∀ t ∈ offered, ∃! a, a ∈ l ∧ (m.info a).id = t
  offered : ∀ a ∈ l, (m.info a).id ∈ offered

/-- What holds after the calls `cs`, if `info` are the contents of the nodes. -/
structure AddedAll (info : Addr → ChipInfo) (cs : List Addr) (m : Memory) (l : List Addr) :
    Prop where
  info_eq : m.info = info
  list : IsChipList m l
  sorted : Sorted (l.map info)
  subset : l ⊆ cs
  mem : ∀ t, t ∈ l.map (fun a => (info a).id) ↔ t ∈ cs.map fun a => (info a).id
  ids : (l.map fun a => (info a).id).Nodup

section Calls

variable {info : Addr → ChipInfo} {cs l : List Addr} {m : Memory} {c : Addr}

theorem AddedAll.oneForEach (h : AddedAll info cs m l) :
    OneForEach m l (cs.map fun a => (info a).id) where
  list := h.list
  first a ha := by rw [h.list.linked.prev_eq_none_iff h.list.nodup ha, h.list.head]
  once t ht := by
    obtain ⟨a, ha, rfl⟩ := List.mem_map.1 ((h.mem t).2 ht)
    rw [h.info_eq]
    refine ⟨a, ⟨ha, rfl⟩, ?_⟩
    rintro b ⟨hb, hid⟩
    exact List.inj_on_of_nodup_map h.ids hb ha hid
  offered a ha := by
    rw [h.info_eq]
    exact (h.mem _).1 (List.mem_map_of_mem ha)

theorem AddedAll.length_le (h : AddedAll info cs m l) : l.length ≤ cs.length :=
  (List.Nodup.subperm h.list.nodup h.subset).length_le

/-- A call with a fresh node. -/
theorem AddedAll.call (h : AddedAll info cs m l) (hc : c ∉ cs) {fuel : ℕ}
    (hfuel : cs.length ≤ fuel) :
    ∃ rc m' l', chipAddPtr fuel m c = some (rc, m') ∧ AddedAll info (cs ++ [c]) m' l' ∧
      (rc = .error ↔ (info c).id ∈ l.map fun a => (info a).id) ∧
      (rc = .error → m' = m ∧ l' = l) := by
  have hcl : c ∉ l := fun hmem => hc (h.subset hmem)
  obtain ⟨rc, m', hcall, hadded⟩ := exists_chipAddPtr h.list hcl (h.length_le.trans hfuel)
  have hnone := chipAdd_eq_none_iff (c := info c) h.sorted
  rw [Added, h.info_eq] at hadded
  have hmem : (∃ x ∈ l.map info, x.id = (info c).id) ↔ (info c).id ∈ l.map fun a =>
      (info a).id := by
    simp only [List.mem_map, exists_exists_and_eq_and]
  rw [hmem] at hnone
  cases hadd : chipAdd (info c) (l.map info) with
  | none =>
    rw [hadd] at hadded
    obtain ⟨rfl, rfl⟩ := hadded
    have hdup := hnone.1 hadd
    refine ⟨.error, m', l, hcall, ?_, iff_of_true rfl hdup, fun _ => ⟨rfl, rfl⟩⟩
    refine ⟨h.info_eq, h.list, h.sorted, fun a ha => List.mem_append_left _ (h.subset ha), ?_,
      h.ids⟩
    intro t
    rw [List.map_append, List.mem_append, ← h.mem, List.map_singleton, List.mem_singleton]
    refine ⟨.inl, ?_⟩
    rintro (ht | rfl)
    · exact ht
    · exact hdup
  | some s =>
    rw [hadd] at hadded
    obtain ⟨rfl, hinfo, l', hlist, rfl, hmem'⟩ := hadded
    have hnew : (info c).id ∉ l.map fun a => (info a).id := by
      intro hdup
      rw [hnone.2 hdup] at hadd
      cases hadd
    refine ⟨.success, m', l', hcall, ?_, iff_of_false nofun hnew, nofun⟩
    have hids := nodup_chipAdd h.sorted (by rw [List.map_map]; exact h.ids) hadd
    rw [List.map_map] at hids
    refine ⟨hinfo, hlist, sorted_chipAdd h.sorted hadd, fun a ha => ?_, fun t => ?_,
      hids⟩
    · rcases (hmem' a).1 ha with rfl | ha
      · exact List.mem_append_right _ (List.mem_singleton_self a)
      · exact List.mem_append_left _ (h.subset ha)
    · rw [List.map_append, List.mem_append, ← h.mem]
      simp only [List.mem_map, hmem', List.map_singleton, List.mem_singleton]
      constructor
      · rintro ⟨a, rfl | ha, rfl⟩
        · exact .inr rfl
        · exact .inl ⟨a, ha, rfl⟩
      · rintro (⟨a, ha, rfl⟩ | rfl)
        · exact ⟨a, .inr ha, rfl⟩
        · exact ⟨c, .inl rfl, rfl⟩

/-- Calls one after the other. -/
theorem AddedAll.calls (h : AddedAll info cs m l) {ds : List Addr} (hfresh : (cs ++ ds).Nodup)
    {fuel : ℕ} (hfuel : (cs ++ ds).length ≤ fuel + 1) :
    ∃ m' l', chipAddAll fuel m ds = some m' ∧ AddedAll info (cs ++ ds) m' l' := by
  induction ds generalizing cs m l with
  | nil =>
    rw [List.append_nil]
    exact ⟨m, l, rfl, h⟩
  | cons c ds ih =>
    have hc : c ∉ cs := by
      intro hmem
      exact (List.nodup_append.1 hfresh).2.2 c hmem c List.mem_cons_self rfl
    rw [List.length_append, List.length_cons] at hfuel
    have hlen : cs.length ≤ fuel := by omega
    obtain ⟨rc, m₁, l₁, hcall, h₁, -⟩ := h.call hc hlen
    rw [List.append_cons] at hfresh ⊢
    obtain ⟨m', l', hall, h'⟩ :=
      ih h₁ hfresh (by simp only [List.length_append, List.length_singleton]; omega)
    exact ⟨m', l', by rw [chipAddAll, hcall]; exact hall, h'⟩

/-- **`chip_add` is an exact set insertion.**  After the calls `cs` with fresh nodes, starting from
the empty list, the chip list has exactly one node for each tuple offered, linked in both
directions; the next call is refused exactly if its tuple is on the list, and then changes
nothing. -/
theorem chip_add_exact (node : Addr → Node) {cs : List Addr} {c : Addr} {fuel : ℕ}
    (hfresh : (cs ++ [c]).Nodup) (hfuel : cs.length ≤ fuel) :
    ∃ m l rc m' l', chipAddAll fuel ⟨none, node⟩ cs = some m ∧
      OneForEach m l (cs.map fun a => (node a).info.id) ∧
      chipAddPtr fuel m c = some (rc, m') ∧
      OneForEach m' l' ((cs ++ [c]).map fun a => (node a).info.id) ∧
      (rc = .error ↔ (node c).info.id ∈ l.map fun a => (m.info a).id) ∧
      (rc = .error → m' = m ∧ l' = l) := by
  have h0 : AddedAll (fun a => (node a).info) [] ⟨none, node⟩ [] :=
    ⟨rfl, ⟨rfl, List.nodup_nil, trivial⟩, List.Pairwise.nil, fun a ha => ha, fun t => Iff.rfl,
      List.nodup_nil⟩
  obtain ⟨hcs, -, hc⟩ := List.nodup_append.1 hfresh
  have hlen : ([] ++ cs).length ≤ fuel + 1 := by
    rw [List.nil_append]
    omega
  obtain ⟨m, l, hall, h⟩ := h0.calls hcs hlen
  obtain ⟨rc, m', l', hcall, h', hrc, hsame⟩ :=
    h.call (c := c) (fun hmem => hc c hmem c (List.mem_singleton_self c) rfl) hfuel
  refine ⟨m, l, rc, m', l', hall, h.oneForEach, hcall, h'.oneForEach, ?_, hsame⟩
  rw [hrc, h.info_eq]

end Calls

/-- Three nodes, the last of which has the tuple of the first one. -/
def sampleNode (a : Addr) : Node :=
  ⟨⟨⟨if a = 1 then 206 else 207, 0, 0, 0, 0, 0, 0, 0⟩, 0⟩, some 9, some 9⟩

/-- The third node of the sample is refused. -/
theorem chip_add_exact_sample : ([0, 1] ++ [2] : List Addr).Nodup ∧
    ∃ m l rc m' l', chipAddAll 2 ⟨none, sampleNode⟩ [0, 1] = some m ∧
      OneForEach m l ([0, 1].map fun a => (sampleNode a).info.id) ∧
      chipAddPtr 2 m 2 = some (rc, m') ∧
      OneForEach m' l' (([0, 1] ++ [2]).map fun a => (sampleNode a).info.id) ∧
      (rc = .error ↔ (sampleNode 2).info.id ∈ l.map fun a => (m.info a).id) ∧
      (rc = .error → m' = m ∧ l' = l) :=
  ⟨by decide, chip_add_exact sampleNode (by decide) (by decide)⟩

end Dtbtool

end Msm8909w
