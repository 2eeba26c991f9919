import Mathlib.Data.List.Basic
import Mathlib.Logic.Function.Basic

/-!
# Singly linked lists

Nodes are given by their addresses, and `next` are the pointers stored in them.  `Walk next p l`
says that who follows the pointers from `p` on comes through the nodes `l`, in this order, and then
to a null pointer.

* `Walk.nodup` : a walk that ends comes through no node twice,
* `Walk.push`, `Walk.unlink` : a node is put behind a head node, and one is taken out,
* `seek`, `precede` : the loops that look for a node from a head node on, and what they find.
-/

namespace Msm8909w

variable {α : Type*} {next next' : α → Option α} {p : Option α} {l l' l₁ l₂ : List α} {c h x : α}

/-- The nodes on the way from the pointer `p` to a null pointer. -/
def Walk (next : α → Option α) : Option α → List α → Prop
  | p, [] => p = none
  | p, a :: l => p = some a ∧ Walk next (next a) l

namespace Walk

/-- The way only depends on the pointers in the nodes on it. -/
theorem congr (hw : Walk next p l) (hl : ∀ a ∈ l, next' a = next a) : Walk next' p l := by
  induction l generalizing p with
  | nil => exact hw
  | cons a l ih =>
    obtain ⟨hp, hw⟩ := hw
    obtain ⟨ha, hl⟩ := List.forall_mem_cons.1 hl
    refine ⟨hp, ?_⟩
    rw [ha]
    exact ih hw hl

theorem unique (hw : Walk next p l) (hw' : Walk next p l') : l = l' := by
  induction l generalizing p l' with
  | nil =>
    cases l' with
    | nil => rfl
    | cons a l' =>
      obtain ⟨hp, -⟩ := hw'
      exact absurd (hw.symm.trans hp) (Option.some_ne_none a).symm
  | cons a l ih =>
    obtain ⟨hp, hw⟩ := hw
    cases l' with
    | nil => exact absurd (hp.symm.trans hw') (Option.some_ne_none a)
    | cons a' l' =>
      obtain ⟨hp', hw'⟩ := hw'
      obtain rfl := Option.some.inj (hp.symm.trans hp')
      rw [ih hw hw']

/-- The way from a node on it. -/
theorem suffix (hw : Walk next p (l₁ ++ x :: l₂)) : Walk next (some x) (x :: l₂) := by
  induction l₁ generalizing p with
  | nil => exact ⟨rfl, hw.2⟩
  | cons a l₁ ih => exact ih hw.2

/-- If a node came up again, so would everything behind it. -/
theorem nodup (hw : Walk next p l) : l.Nodup := by
  induction l generalizing p with
  | nil => exact List.nodup_nil
  | cons a l ih =>
    refine List.nodup_cons.2 ⟨fun ha => ?_, ih hw.2⟩
    obtain ⟨l₁, l₂, rfl⟩ := List.append_of_mem ha
    have hself : Walk next (some a) (a :: (l₁ ++ a :: l₂)) := ⟨rfl, hw.2⟩
    have heq := unique (suffix hw.2) hself
    have hlen := congrArg List.length heq
    simp only [List.length_cons, List.length_append] at hlen
    omega

theorem notMem_head (hw : Walk next (next h) l) : h ∉ l :=
  (List.nodup_cons.1 (nodup (p := some h) ⟨rfl, hw⟩)).1

/-- A new node is put behind the head. -/
theorem push (hw : Walk next (next h) l) (hh : next' h = some x) (hx : next' x = next h)
    (hother : ∀ a ∈ l, next' a = next a) : Walk next' (next' h) (x :: l) := by
  refine ⟨hh, ?_⟩
  rw [hx]
  exact hw.congr hother

/-- The node `x` is taken out of the list by the assignment of its pointer to the node before it. -/
theorem unlink [DecidableEq α] (hw : Walk next (next h) (l₁ ++ x :: l₂)) :
    Walk (Function.update next ((h :: l₁).getLast (List.cons_ne_nil h l₁)) (next x))
      (Function.update next ((h :: l₁).getLast (List.cons_ne_nil h l₁)) (next x) h) (l₁ ++ l₂) := by
  induction l₁ generalizing h with
  | nil =>
    have hh : h ∉ x :: l₂ := notMem_head hw
    rw [List.getLast_singleton, Function.update_self]
    refine hw.2.congr fun a ha => Function.update_of_ne ?_ _ _
    rintro rfl
    exact hh (List.mem_cons_of_mem x ha)
  | cons y l₁ ih =>
    have hh : h ∉ y :: l₁ ++ x :: l₂ := notMem_head hw
    obtain ⟨hy, hw⟩ := hw
    rw [List.getLast_cons (List.cons_ne_nil y l₁)]
    have hne : h ≠ (y :: l₁).getLast (List.cons_ne_nil y l₁) := by
      intro heq
      refine hh (List.mem_append_left _ ?_)
      rw [heq]
      exact List.getLast_mem _
    refine ⟨?_, ih hw⟩
    rw [Function.update_of_ne hne]
    exact hy

end Walk

/-- Look for a node with the property behind the node `c`; `none` if the fuel does not last. -/
def seek (next : α → Option α) (q : α → Bool) : ℕ → α → Option (Option α)
  | 0, _ => none
  | fuel + 1, c =>
    match next c with
    | none => some none
    | some a => if q a then some (some a) else seek next q fuel a

theorem seek_eq {q : α → Bool} {fuel : ℕ} (hw : Walk next (next c) l) (hfuel : l.length < fuel) :
    seek next q fuel c = some (l.find? q) := by
  induction l generalizing c fuel with
  | nil =>
    obtain ⟨fuel, rfl⟩ := Nat.exists_eq_add_of_lt hfuel
    rw [seek, show next c = none from hw]
    rfl
  | cons a l ih =>
    obtain ⟨hc, hw⟩ := hw
    cases fuel with
    | zero => exact absurd hfuel (Nat.not_lt_zero _)
    | succ fuel =>
      rw [List.length_cons] at hfuel
      rw [seek, hc]
      dsimp only
      split_ifs with ha
      · rw [List.find?_cons_of_pos ha]
      · rw [List.find?_cons_of_neg ha, ih hw (by omega)]

/-- Go on from the nodes `saved` and `current` to the node `del` or to the end. -/
def precede [DecidableEq α] (next : α → Option α) (del : α) : ℕ → α → Option α →
    Option (α × Option α)
  | 0, _, _ => none
  | fuel + 1, saved, current =>
    match current with
    | none => some (saved, none)
    | some a => if a ≠ del then precede next del fuel a (next a) else some (saved, some a)

/-- The node before the one that is looked for. -/
theorem precede_eq [DecidableEq α] {fuel : ℕ} (hw : Walk next (next c) (l₁ ++ x :: l₂))
    (hfuel : l₁.length < fuel) :
    precede next x fuel c (next c) = some ((c :: l₁).getLast (List.cons_ne_nil c l₁), some x) := by
  induction l₁ generalizing c fuel with
  | nil =>
    obtain ⟨hc, -⟩ := hw
    cases fuel with
    | zero => exact absurd hfuel (Nat.not_lt_zero _)
    | succ fuel => rw [hc, precede, if_neg (not_not.2 rfl), List.getLast_singleton]
  | cons y l₁ ih =>
    have hne : y ≠ x := by
      rintro rfl
      have hnd := (List.nodup_cons.1 hw.nodup).1
      exact hnd (List.mem_append_right _ List.mem_cons_self)
    obtain ⟨hc, hw⟩ := hw
    cases fuel with
    | zero => exact absurd hfuel (Nat.not_lt_zero _)
    | succ fuel =>
      rw [List.length_cons] at hfuel
      rw [hc, precede, if_pos hne, ih hw (by omega), List.getLast_cons (List.cons_ne_nil y l₁)]

end Msm8909w
