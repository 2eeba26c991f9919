import Mathlib.Data.List.Basic

/-!
# Doubly linked lists

Nodes are given by their addresses, and `next` and `prev` are the pointers stored in them.
`Linked next prev p l n` says that the nodes `l` are linked to each other in both directions, the
first of them with `p` before it and the last one with `n` after it.

* `linked_append` : a linked list is cut anywhere,
* `Linked.insert`, `Linked.concat` : what the pointers have to be for a node to be put before
  another one or at the end,
* `Linked.prev_eq_none_iff` : only the first node has no predecessor.
-/

namespace Msm8909w

variable {α : Type*} {next prev next' prev' : α → Option α} {p n : Option α} {l l₁ l₂ : List α}
  {c x : α}

/-- The nodes `l` are linked in both directions, with `p` before the first one and `n` after the
last one. -/
def Linked (next prev : α → Option α) : Option α → List α → Option α → Prop
  | _, [], _ => True
  | p, a :: l, n => prev a = p ∧ next a = l.head?.or n ∧ Linked next prev (some a) l n

theorem linked_append : Linked next prev p (l₁ ++ l₂) n ↔
    Linked next prev p l₁ (l₂.head?.or n) ∧ Linked next prev (l₁.getLast?.or p) l₂ n := by
  induction l₁ generalizing p with
  | nil => simp [Linked]
  | cons a l₁ ih =>
    have hhead : (l₁ ++ l₂).head?.or n = l₁.head?.or (l₂.head?.or n) := by
      rw [List.head?_append, Option.or_assoc]
    have hlast : (a :: l₁).getLast?.or p = l₁.getLast?.or (some a) := by
      rw [List.getLast?_cons]
      cases l₁.getLast? <;> rfl
    rw [List.cons_append, Linked, Linked, hhead, hlast, ih]
    tauto

namespace Linked

/-- The links only depend on the pointers of the nodes in the list. -/
theorem congr (h : Linked next prev p l n)
    (hl : ∀ a ∈ l, next' a = next a ∧ prev' a = prev a) : Linked next' prev' p l n := by
  induction l generalizing p with
  | nil => trivial
  | cons a l ih =>
    obtain ⟨hp, hn, h⟩ := h
    obtain ⟨⟨hna, hpa⟩, hl⟩ := List.forall_mem_cons.1 hl
    exact ⟨hpa.trans hp, hna.trans hn, ih h hl⟩

/-- The links around a node. -/
theorem middle (h : Linked next prev p (l₁ ++ x :: l₂) n) :
    prev x = l₁.getLast?.or p ∧ next x = l₂.head?.or n := by
  obtain ⟨-, hp, hn, -⟩ := linked_append.1 h
  exact ⟨hp, hn⟩

/-- The node `c` in front of the list. -/
theorem insert_head (h : Linked next prev p (x :: l) n) (hcn : next' c = some x) (hcp : prev' c = p)
    (hxn : next' x = next x) (hxp : prev' x = some c)
    (hl : ∀ a ∈ l, next' a = next a ∧ prev' a = prev a) : Linked next' prev' p (c :: x :: l) n := by
  obtain ⟨-, hn, h⟩ := h
  exact ⟨hcp, hcn, hxp, hxn.trans hn, h.congr hl⟩

/-- The node `c` between `y` and `x`. -/
theorem insert {y : α} (h : Linked next prev p (l₁ ++ [y] ++ x :: l₂) n)
    (hcn : next' c = some x) (hcp : prev' c = some y) (hyn : next' y = some c)
    (hyp : prev' y = prev y) (hxn : next' x = next x) (hxp : prev' x = some c)
    (hl₁ : ∀ a ∈ l₁, next' a = next a ∧ prev' a = prev a)
    (hl₂ : ∀ a ∈ l₂, next' a = next a ∧ prev' a = prev a) :
    Linked next' prev' p (l₁ ++ [y] ++ c :: x :: l₂) n := by
  rw [linked_append, linked_append, List.getLast?_concat, Option.some_or] at h ⊢
  obtain ⟨⟨hinit, hy, -⟩, hrest⟩ := h
  exact ⟨⟨hinit.congr hl₁, hyp.trans hy, hyn, trivial⟩,
    hrest.insert_head hcn hcp hxn hxp hl₂⟩

/-- The node `c` at the end. -/
theorem concat (h : Linked next prev p (l ++ [x]) none) (hcn : next' c = none)
    (hcp : prev' c = some x) (hxn : next' x = some c) (hxp : prev' x = prev x)
    (hl : ∀ a ∈ l, next' a = next a ∧ prev' a = prev a) :
    Linked next' prev' p (l ++ [x] ++ [c]) none := by
  rw [linked_append] at h
  obtain ⟨hinit, hx, -⟩ := h
  rw [linked_append, linked_append, List.getLast?_concat, Option.some_or]
  exact ⟨⟨hinit.congr hl, hxp.trans hx, hxn, trivial⟩, hcp, hcn, trivial⟩

/-- Only the first node has no predecessor. -/
theorem prev_eq_none_iff (h : Linked next prev none l n) (hnodup : l.Nodup) (hx : x ∈ l) :
    prev x = none ↔ l.head? = some x := by
  obtain ⟨l₁, l₂, rfl⟩ := List.append_of_mem hx
  rw [h.middle.1, Option.or_none, List.getLast?_eq_none_iff]
  constructor
  · rintro rfl
    rfl
  · intro hhead
    cases l₁ with
    | nil => rfl
    | cons y l₁ =>
      obtain rfl := Option.some.inj hhead
      exact absurd (List.mem_append_right l₁ List.mem_cons_self) (List.nodup_cons.1 hnodup).1

end Linked

end Msm8909w
