import Msm8909w.Lib.Search

/-!
# Replacing a word

`replaceAll w r s` replaces the occurrences of `w` in `s` by `r`, from the left to the right.

* `replaceAll_of_found`, `replaceAll_of_absent` : the first occurrence, and a text without one,
* `replace_induction` : induction over the occurrences,
* `replaceAll_append_cons` : texts on both sides of an element that is not in `w` do not touch each
  other.
-/

namespace Msm8909w

section Replace

variable {α : Type*} [DecidableEq α] {w r s t pre post : List α} {c : α}

/-- Replace behind `k` elements that belong to an occurrence. -/
def replaceFrom (w r : List α) : ℕ → List α → List α
  | _, [] => []
  | k + 1, _ :: s => replaceFrom w r k s
  | 0, a :: s => if w <+: a :: s then r ++ replaceFrom w r (w.length - 1) s
      else a :: replaceFrom w r 0 s

/-- `s.replace(w, r)` for a word `w` that is not empty. -/
def replaceAll (w r s : List α) : List α := replaceFrom w r 0 s

theorem replaceFrom_append (k : List α) :
    replaceFrom w r k.length (k ++ s) = replaceFrom w r 0 s := by
  induction k with
  | nil => rfl
  | cons a k ih => exact ih

theorem replaceAll_prefix (hw : w ≠ []) : replaceAll w r (w ++ s) = r ++ replaceAll w r s := by
  obtain ⟨a, w', rfl⟩ := List.exists_cons_of_ne_nil hw
  have hprefix : a :: w' <+: a :: (w' ++ s) := List.prefix_append (a :: w') s
  rw [replaceAll, List.cons_append, replaceFrom, if_pos hprefix, List.length_cons,
    Nat.add_sub_cancel, replaceFrom_append]
  rfl

theorem replaceAll_of_found (hw : w ≠ []) (h : Found w s pre post) :
    replaceAll w r s = pre ++ (r ++ replaceAll w r post) := by
  obtain ⟨heq, hindex⟩ := h
  induction pre generalizing s with
  | nil =>
    rw [heq, List.nil_append, replaceAll_prefix hw]
    rfl
  | cons a pre ih =>
    rw [List.cons_append, List.cons_append] at heq
    subst heq
    rw [firstIndex] at hindex
    split_ifs at hindex with hprefix
    · cases hindex
    · obtain ⟨i, hi, hlen⟩ := Option.map_eq_some_iff.1 hindex
      have htail : firstIndex w (pre ++ w ++ post) = some pre.length := by
        rw [hi]
        exact congrArg some (Nat.succ.inj hlen)
      have hrest : replaceAll w r (pre ++ w ++ post) = pre ++ (r ++ replaceAll w r post) :=
        ih rfl htail
      rw [replaceAll, replaceFrom, if_neg hprefix, ← replaceAll, hrest]
      rfl

theorem replaceAll_of_absent (h : ¬ w <:+: s) : replaceAll w r s = s := by
  induction s with
  | nil => rfl
  | cons a s ih =>
    rw [List.infix_cons_iff, not_or] at h
    rw [replaceAll, replaceFrom, if_neg h.1, ← replaceAll, ih h.2]

/-- Induction over the occurrences of a word. -/
theorem replace_induction {P : List α → Prop} (hw : w ≠ []) (absent : ∀ s, ¬ w <:+: s → P s)
    (found : ∀ s pre post, Found w s pre post → P post → P s) (s : List α) : P s := by
  by_cases h : w <:+: s
  · obtain ⟨pre, post, hfound⟩ := exists_found h
    have hlt : post.length < s.length := by
      have hlen := congrArg List.length hfound.eq
      have hpos := List.length_pos_iff.2 hw
      rw [List.length_append, List.length_append] at hlen
      omega
    exact found s pre post hfound (replace_induction hw absent found post)
  · exact absent s h
termination_by s.length

theorem replaceAll_eq_nil_iff (hw : w ≠ []) (hr : r ≠ []) : replaceAll w r s = [] ↔ s = [] := by
  by_cases h : w <:+: s
  · obtain ⟨pre, post, hfound⟩ := exists_found h
    rw [replaceAll_of_found hw hfound]
    constructor
    · intro hnil
      exact absurd (List.append_eq_nil_iff.1 (List.append_eq_nil_iff.1 hnil).2).1 hr
    · rintro rfl
      exact absurd (List.infix_nil.1 h) hw
  · rw [replaceAll_of_absent h]

/-- The replacement is in the text if the word was. -/
theorem infix_replaceAll (hw : w ≠ []) (h : w <:+: s) : r <:+: replaceAll w r s := by
  obtain ⟨pre, post, hfound⟩ := exists_found h
  rw [replaceAll_of_found hw hfound]
  exact ⟨pre, _, by rw [List.append_assoc]⟩

/-- An element that is not in the word separates what is replaced. -/
theorem replaceAll_append_cons (hw : w ≠ []) (hc : c ∉ w) (s t : List α) :
    replaceAll w r (s ++ c :: t) = replaceAll w r s ++ c :: replaceAll w r t := by
  induction s using replace_induction hw with
  | absent s h =>
    rw [replaceAll_of_absent h]
    induction s with
    | nil =>
      have hnot : ¬ w <+: c :: t := by
        have h' : ¬ w <+: [] ++ c :: t := by
          rw [prefix_append_cons_iff hc, List.prefix_nil]
          exact hw
        exact h'
      rw [List.nil_append, replaceAll, replaceFrom, if_neg hnot]
      rfl
    | cons a s ih =>
      rw [List.infix_cons_iff, not_or] at h
      have hnot : ¬ w <+: a :: s ++ c :: t := by
        rw [prefix_append_cons_iff hc]
        exact h.1
      rw [List.cons_append] at hnot ⊢
      rw [replaceAll, replaceFrom, if_neg hnot, ← replaceAll, ih h.2]
      rfl
  | found s pre post h ih =>
    rw [replaceAll_of_found hw (h.append (c :: t)), replaceAll_of_found hw h, ih]
    simp

end Replace

end Msm8909w
