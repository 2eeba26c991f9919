import Mathlib.Data.Finset.Card
import Mathlib.Data.List.Basic
import Mathlib.Tactic.SplitIfs

/-!
# Acquiring and releasing

A sequence of operations that acquire and release locks of different kinds; to release a lock of
which none is held does nothing.  Nothing is held at the end if and only if no end of the sequence
acquires more than it releases (`heldAfter_eq_zero`).

* `Matching` : the members of a list with one property are matched with later members with another,
* `Matching.countP_le` : then no end of the list has more of the first than of the second.
-/

namespace Msm8909w

/-- An operation on the locks. -/
inductive LockOp (ι : Type*) where
  | acquire (i : ι)
  | release (i : ι)
  deriving DecidableEq

section Held

variable {ι : Type*} [DecidableEq ι] {i : ι} {n : ℕ} {ops : List (LockOp ι)}

/-- The number of locks of one kind that are held after the operations, if `n` are held before. -/
def heldAfter (i : ι) : ℕ → List (LockOp ι) → ℕ
  | n, [] => n
  | n, .acquire j :: ops => heldAfter i (if j = i then n + 1 else n) ops
  | n, .release j :: ops => heldAfter i (if j = i then n - 1 else n) ops

theorem heldAfter_append {ops' : List (LockOp ι)} :
    heldAfter i n (ops ++ ops') = heldAfter i (heldAfter i n ops) ops' := by
  induction ops generalizing n with
  | nil => rfl
  | cons op ops ih =>
    cases op with
    | acquire j => exact ih
    | release j => exact ih

/-- No end of the sequence acquires more locks of the kind than it releases. -/
def Covered (i : ι) (ops : List (LockOp ι)) : Prop :=
  ∀ s, s <:+ ops → s.count (.acquire i) ≤ s.count (.release i)

theorem covered_nil : Covered i [] := by
  intro s hs
  rw [List.suffix_nil.1 hs]
  exact le_rfl

theorem covered_cons {op : LockOp ι} : Covered i (op :: ops) ↔
    (op :: ops).count (.acquire i) ≤ (op :: ops).count (.release i) ∧ Covered i ops := by
  constructor
  · exact fun h => ⟨h _ List.suffix_rfl, fun s hs => h s (hs.trans (List.suffix_cons op ops))⟩
  · rintro ⟨hall, h⟩ s hs
    rcases List.suffix_cons_iff.1 hs with rfl | hs
    · exact hall
    · exact h s hs

theorem heldAfter_eq_zero_iff : heldAfter i n ops = 0 ↔
    n + ops.count (.acquire i) ≤ ops.count (.release i) ∧ Covered i ops := by
  induction ops generalizing n with
  | nil => simp [heldAfter, covered_nil]
  | cons op ops ih =>
    have htail : Covered i ops → ops.count (.acquire i) ≤ ops.count (.release i) :=
      fun h => h ops List.suffix_rfl
    rw [covered_cons]
    cases op with
    | acquire j =>
      rw [heldAfter, ih]
      by_cases hj : j = i
      · subst hj
        simp only [List.count_cons, beq_self_eq_true, reduceCtorEq, beq_iff_eq, if_true, if_false]
        constructor
        · exact fun ⟨h1, h2⟩ => ⟨by omega, by omega, h2⟩
        · exact fun ⟨h1, h2, h3⟩ => ⟨by omega, h3⟩
      · simp only [List.count_cons, reduceCtorEq, LockOp.acquire.injEq, beq_iff_eq, hj, if_false]
        exact ⟨fun ⟨h1, h2⟩ => ⟨h1, htail h2, h2⟩, fun ⟨h1, _, h2⟩ => ⟨h1, h2⟩⟩
    | release j =>
      rw [heldAfter, ih]
      by_cases hj : j = i
      · subst hj
        simp only [List.count_cons, beq_self_eq_true, reduceCtorEq, beq_iff_eq, if_true, if_false]
        constructor
        · rintro ⟨h1, h2⟩
          have := htail h2
          exact ⟨by omega, by omega, h2⟩
        · rintro ⟨h1, h2, h3⟩
          have := htail h3
          exact ⟨by omega, h3⟩
      · simp only [List.count_cons, reduceCtorEq, LockOp.release.injEq, beq_iff_eq, hj, if_false]
        exact ⟨fun ⟨h1, h2⟩ => ⟨h1, htail h2, h2⟩, fun ⟨h1, _, h2⟩ => ⟨h1, h2⟩⟩

/-- Nothing is held at the end if and only if no end of the sequence acquires more than it
releases. -/
theorem heldAfter_eq_zero : heldAfter i 0 ops = 0 ↔ Covered i ops := by
  rw [heldAfter_eq_zero_iff, Nat.zero_add]
  exact and_iff_right_of_imp fun h => h ops List.suffix_rfl

end Held

section Matching

variable {α : Type*} {p q : α → Bool} {l s : List α} {m : ℕ → ℕ}

/-- The function `m` matches the members of `l` that satisfy `p` with later ones that satisfy `q`,
and no two with the same. -/
structure Matching (p q : α → Bool) (l : List α) (m : ℕ → ℕ) : Prop where
  later : ∀ i a, l[i]? = some a → p a = true → i < m i ∧ ∃ b, l[m i]? = some b ∧ q b = true
  inj : ∀ i j a b, l[i]? = some a → p a = true → l[j]? = some b → p b = true → m i = m j → i = j

theorem countP_eq_card :
    l.countP p = ((Finset.range l.length).filter fun i => l[i]?.any p = true).card := by
  induction l using List.reverseRecOn with
  | nil => rfl
  | append_singleton l a ih =>
    have hold : ((Finset.range l.length).filter fun i => (l ++ [a])[i]?.any p = true) =
        (Finset.range l.length).filter fun i => l[i]?.any p = true := by
      refine Finset.filter_congr fun i hi => ?_
      rw [List.getElem?_append_left (Finset.mem_range.1 hi)]
    have hlast : (l ++ [a])[l.length]?.any p = p a := by simp
    rw [List.countP_append, List.length_append, List.length_singleton, Finset.range_add_one,
      Finset.filter_insert, hold, hlast, ih]
    by_cases ha : p a = true
    · rw [if_pos ha, Finset.card_insert_of_notMem (by simp)]
      simp [ha]
    · rw [if_neg ha]
      simp [ha]

/-- No end of the list has more members that are matched than members they can be matched with. -/
theorem Matching.countP_le (h : Matching p q l m) (hs : s <:+ l) : s.countP p ≤ s.countP q := by
  obtain ⟨pre, rfl⟩ := hs
  have hat : ∀ i, (pre ++ s)[pre.length + i]? = s[i]? := fun i => by
    rw [List.getElem?_append_right (Nat.le_add_right _ i), Nat.add_sub_cancel_left]
  rw [countP_eq_card, countP_eq_card]
  refine Finset.card_le_card_of_injOn (fun i => m (pre.length + i) - pre.length) ?_ ?_
  · intro i hi
    obtain ⟨a, ha, hp⟩ := (Option.any_eq_true ..).1 (Finset.mem_filter.1 hi).2
    obtain ⟨hlater, b, hb, hq⟩ := h.later (pre.length + i) a ((hat i).trans ha) hp
    obtain ⟨k, hk⟩ :=
      Nat.exists_eq_add_of_le (Nat.le_of_lt ((Nat.le_add_right _ i).trans_lt hlater))
    rw [hk, hat] at hb
    refine Finset.mem_coe.2 (Finset.mem_filter.2 ?_)
    simp only [hk, Nat.add_sub_cancel_left]
    exact ⟨Finset.mem_range.2 (List.getElem?_eq_some_iff.1 hb).1,
      (Option.any_eq_true ..).2 ⟨b, hb, hq⟩⟩
  · intro i hi j hj heq
    obtain ⟨a, ha, hp⟩ := (Option.any_eq_true ..).1 (Finset.mem_filter.1 hi).2
    obtain ⟨b, hb, hp'⟩ := (Option.any_eq_true ..).1 (Finset.mem_filter.1 hj).2
    have hi' := (h.later (pre.length + i) a ((hat i).trans ha) hp).1
    have hj' := (h.later (pre.length + j) b ((hat j).trans hb) hp').1
    have hm : m (pre.length + i) = m (pre.length + j) := by
      simp only at heq
      omega
    exact Nat.add_left_cancel (h.inj _ _ a b ((hat i).trans ha) hp ((hat j).trans hb) hp' hm)

end Matching

end Msm8909w
