import Mathlib.Data.List.Pairwise

/-!
# Dictionaries as lists

A dictionary is a list of records with pairwise different keys; `assign key d a` gives the key of
`a` the record `a`.  The order of the records carries no meaning.

* `mem_assign` : assigning replaces the record of that key and keeps the others,
* `mem_foldl_assign` : after a sequence of assignments, the records are those that no later
  assignment has replaced,
* `lookupKey_assign`, `lookupKey_eraseKey_of_ne` : looking a key up after a change,
* `map_assign`, `lookup_map` : dictionaries with other values for the same keys.
-/

namespace Msm8909w

section Dict

variable {α β κ : Type*} [DecidableEq κ] {key : α → κ} {d : List α} {a b : α} {k : κ}

/-- `d[key a] = a`. -/
def assign (key : α → κ) : List α → α → List α
  | [], a => [a]
  | b :: d, a => if key b = key a then a :: d else b :: assign key d a

/-- The keys are pairwise different. -/
def IsDict (key : α → κ) (d : List α) : Prop := d.Pairwise fun a b => key a ≠ key b

theorem mem_assign (h : IsDict key d) : b ∈ assign key d a ↔ b = a ∨ b ∈ d ∧ key b ≠ key a := by
  induction d with
  | nil => simp [assign]
  | cons c d ih =>
    obtain ⟨hc, hd⟩ := List.pairwise_cons.1 h
    by_cases hk : key c = key a
    · rw [assign, if_pos hk, List.mem_cons, List.mem_cons]
      constructor
      · rintro (rfl | hb)
        · exact .inl rfl
        · exact .inr ⟨.inr hb, fun hba => hc b hb (hk.trans hba.symm)⟩
      · rintro (rfl | ⟨rfl | hb, hne⟩)
        · exact .inl rfl
        · exact absurd hk hne
        · exact .inr hb
    · rw [assign, if_neg hk, List.mem_cons, List.mem_cons, ih hd]
      constructor
      · rintro (rfl | rfl | ⟨hb, hne⟩)
        · exact .inr ⟨.inl rfl, hk⟩
        · exact .inl rfl
        · exact .inr ⟨.inr hb, hne⟩
      · rintro (rfl | ⟨rfl | hb, hne⟩)
        · exact .inr (.inl rfl)
        · exact .inl rfl
        · exact .inr (.inr ⟨hb, hne⟩)

theorem isDict_assign (h : IsDict key d) : IsDict key (assign key d a) := by
  induction d with
  | nil => exact List.pairwise_singleton _ _
  | cons c d ih =>
    obtain ⟨hc, hd⟩ := List.pairwise_cons.1 h
    by_cases hk : key c = key a
    · rw [assign, if_pos hk]
      exact List.pairwise_cons.2 ⟨fun b hb => hk ▸ hc b hb, hd⟩
    · rw [assign, if_neg hk]
      refine List.pairwise_cons.2 ⟨fun b hb => ?_, ih hd⟩
      obtain rfl | ⟨hb, -⟩ := (mem_assign hd).1 hb
      · exact hk
      · exact hc b hb

/-- A sequence of assignments keeps the records that no later assignment replaces. -/
theorem mem_foldl_assign {l : List α} (h : IsDict key d) :
    b ∈ l.foldl (assign key) d ↔
      (b ∈ d ∧ ∀ c ∈ l, key c ≠ key b) ∨
        ∃ pre post, l = pre ++ b :: post ∧ ∀ c ∈ post, key c ≠ key b := by
  induction l generalizing d with
  | nil => simp
  | cons a l ih =>
    rw [List.foldl_cons, ih (isDict_assign h), mem_assign h]
    constructor
    · rintro (⟨rfl | ⟨hb, hne⟩, hl⟩ | ⟨pre, post, rfl, hpost⟩)
      · exact .inr ⟨[], l, rfl, hl⟩
      · exact .inl ⟨hb, List.forall_mem_cons.2 ⟨Ne.symm hne, hl⟩⟩
      · exact .inr ⟨a :: pre, post, rfl, hpost⟩
    · rintro (⟨hb, hl⟩ | ⟨pre, post, heq, hpost⟩)
      · obtain ⟨hne, hl⟩ := List.forall_mem_cons.1 hl
        exact .inl ⟨.inr ⟨hb, Ne.symm hne⟩, hl⟩
      · cases pre with
        | nil =>
          obtain ⟨rfl, rfl⟩ := List.cons.inj heq
          exact .inl ⟨.inl rfl, hpost⟩
        | cons c pre =>
          obtain ⟨rfl, rfl⟩ := List.cons.inj heq
          exact .inr ⟨pre, post, rfl, hpost⟩

theorem isDict_foldl_assign {l : List α} (h : IsDict key d) :
    IsDict key (l.foldl (assign key) d) := by
  induction l generalizing d with
  | nil => exact h
  | cons a l ih => exact ih (isDict_assign h)

omit [DecidableEq κ] in
theorem eq_of_key_eq (h : IsDict key d) (ha : a ∈ d) (hb : b ∈ d) (hk : key a = key b) :
    a = b := by
  by_contra hne
  have : Std.Symm fun a b => key a ≠ key b := ⟨fun _ _ h => Ne.symm h⟩
  exact List.Pairwise.forall h ha hb hne hk

/-- Assigning in a dictionary with the same keys and other records. -/
theorem map_assign {key' : β → κ} {f : α → β} (hf : ∀ a, key' (f a) = key a) :
    (assign key d a).map f = assign key' (d.map f) (f a) := by
  induction d with
  | nil => rfl
  | cons b d ih =>
    by_cases hk : key b = key a
    · rw [assign, if_pos hk, List.map_cons, List.map_cons, assign, if_pos (by rw [hf, hf, hk])]
    · rw [assign, if_neg hk, List.map_cons, List.map_cons, assign, if_neg (by rwa [hf, hf]), ih]

omit [DecidableEq κ] in
theorem lookup_map [BEq κ] [LawfulBEq κ] {f : α → β} (h : IsDict key d) (ha : a ∈ d) :
    (d.map fun a => (key a, f a)).lookup (key a) = some (f a) := by
  induction d with
  | nil => cases ha
  | cons b d ih =>
    obtain ⟨hb, hd⟩ := List.pairwise_cons.1 h
    rw [List.map_cons, List.lookup_cons]
    obtain rfl | ha := List.mem_cons.1 ha
    · rw [beq_self_eq_true]
    · rw [beq_eq_false_iff_ne.2 (Ne.symm (hb a ha))]
      exact ih hd ha

/-- The record of the key `k`. -/
def lookupKey (key : α → κ) (d : List α) (k : κ) : Option α := d.find? fun a => key a = k

/-- The dictionary without the record of the key `k`. -/
def eraseKey (key : α → κ) (d : List α) (k : κ) : List α := d.filter fun a => key a ≠ k

theorem lookupKey_eq_none : lookupKey key d k = none ↔ ∀ a ∈ d, key a ≠ k := by
  simp [lookupKey]

theorem lookupKey_eq_some (h : IsDict key d) : lookupKey key d k = some a ↔ a ∈ d ∧ key a = k := by
  constructor
  · intro ha
    exact ⟨List.mem_of_find?_eq_some ha, by simpa using List.find?_some ha⟩
  · rintro ⟨ha, rfl⟩
    cases hb : lookupKey key d (key a) with
    | none => exact absurd rfl (lookupKey_eq_none.1 hb a ha)
    | some b =>
      have hk : key b = key a := by simpa using List.find?_some hb
      rw [eq_of_key_eq h (List.mem_of_find?_eq_some hb) ha hk]

theorem lookupKey_eraseKey_of_ne {k' : κ} (h : k' ≠ k) :
    lookupKey key (eraseKey key d k) k' = lookupKey key d k' := by
  rw [lookupKey, eraseKey, List.find?_filter]
  congr 1
  funext a
  by_cases ha : key a = k'
  · simp [ha, h]
  · simp [ha]

/-- A record of a new key comes at the end. -/
theorem assign_of_forall_ne (h : ∀ b ∈ d, key b ≠ key a) : assign key d a = d ++ [a] := by
  induction d with
  | nil => rfl
  | cons b d ih =>
    obtain ⟨hb, hd⟩ := List.forall_mem_cons.1 h
    rw [assign, if_neg hb, ih hd, List.cons_append]

@[simp] theorem lookupKey_eraseKey_same : lookupKey key (eraseKey key d k) k = none := by
  simp [lookupKey, eraseKey]

theorem isDict_eraseKey (h : IsDict key d) : IsDict key (eraseKey key d k) := h.filter _

theorem lookupKey_cons :
    lookupKey key (b :: d) k = if key b = k then some b else lookupKey key d k := by
  by_cases hb : key b = k
  · simp [lookupKey, hb]
  · simp [lookupKey, hb]

theorem lookupKey_assign :
    lookupKey key (assign key d a) k = if key a = k then some a else lookupKey key d k := by
  induction d with
  | nil => rw [assign, lookupKey_cons]
  | cons b d ih =>
    by_cases hk : key b = key a
    · rw [assign, if_pos hk, lookupKey_cons, lookupKey_cons, hk]
      by_cases ha : key a = k
      · rw [if_pos ha, if_pos ha]
      · rw [if_neg ha, if_neg ha, if_neg ha]
    · rw [assign, if_neg hk, lookupKey_cons, lookupKey_cons, ih]
      by_cases hb : key b = k
      · rw [if_pos hb, if_pos hb, if_neg (fun ha => hk (hb.trans ha.symm))]
      · rw [if_neg hb, if_neg hb]

end Dict

end Msm8909w
