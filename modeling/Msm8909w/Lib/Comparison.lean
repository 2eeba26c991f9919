import Msm8909w.Lib.Dict

/-!
# Comparing two dictionaries by consuming the old one

The records of a new dictionary are gone through one by one.  Each of them takes the record of its
key out of the old dictionary and is added to a third one if it is new in comparison with what it
took out.  What remains of the old dictionary are the records that are gone.

* `foldl_compareStep` : the three dictionaries at the end, in the order of the new records,
* `perm_map_filter_iff` : when two selections of the same records report the same.
-/

namespace Msm8909w

section Comparison

variable {α κ : Type*} [DecidableEq κ] {key : α → κ} {l : List α}

/-- The dictionaries of a comparison. -/
structure Comparison (α : Type*) where
  old : List α
  new : List α
  added : List α

/-- One record of the new dictionary. -/
def compareStep (key : α → κ) (isNew : Option α → α → Bool) (s : Comparison α) (a : α) :
    Comparison α where
  old := eraseKey key s.old (key a)
  new := assign key s.new a
  added := if isNew (lookupKey key s.old (key a)) a then assign key s.added a else s.added

variable {isNew : Option α → α → Bool} {s : Comparison α}

/-- **Comparing by consuming.**  If the keys of `l` are different from one another and from those
noted so far, the old dictionary keeps the records whose key is not in `l`, and those records of `l`
are added that are new in comparison with the old dictionary. -/
theorem foldl_compareStep (h : IsDict key l) (hnew : ∀ a ∈ l, ∀ b ∈ s.new, key b ≠ key a)
    (hadded : ∀ a ∈ l, ∀ b ∈ s.added, key b ≠ key a) :
    l.foldl (compareStep key isNew) s =
      { old := s.old.filter fun b => ∀ a ∈ l, key a ≠ key b
        new := s.new ++ l
        added := s.added ++ l.filter fun a => isNew (lookupKey key s.old (key a)) a } := by
  induction l generalizing s with
  | nil =>
    have hold : (s.old.filter fun b => ∀ a ∈ ([] : List α), key a ≠ key b) = s.old :=
      List.filter_eq_self.2 (by simp)
    rw [List.foldl_nil, hold, List.append_nil, List.filter_nil, List.append_nil]
  | cons a l ih =>
    obtain ⟨ha, hl⟩ := List.pairwise_cons.1 h
    obtain ⟨hnewa, hnewl⟩ := List.forall_mem_cons.1 hnew
    obtain ⟨haddeda, haddedl⟩ := List.forall_mem_cons.1 hadded
    have hfresh {d : List α} (hd : ∀ c ∈ l, ∀ b ∈ d, key b ≠ key c) :
        ∀ c ∈ l, ∀ b ∈ d ++ [a], key b ≠ key c := by
      intro c hc b hb
      obtain hb | hb := List.mem_append.1 hb
      · exact hd c hc b hb
      · obtain rfl := List.mem_singleton.1 hb
        exact ha c hc
    have hstep : compareStep key isNew s a =
        { old := eraseKey key s.old (key a)
          new := s.new ++ [a]
          added := s.added ++ [a].filter fun a => isNew (lookupKey key s.old (key a)) a } := by
      rw [compareStep, assign_of_forall_ne hnewa, assign_of_forall_ne haddeda]
      by_cases hn : isNew (lookupKey key s.old (key a)) a <;> simp [hn]
    rw [List.foldl_cons, hstep, ih hl (hfresh hnewl)]
    · -- the later records do not look up the key of `a`
      have hfilter :
        (l.filter fun c => isNew (lookupKey key (eraseKey key s.old (key a)) (key c)) c) =
          l.filter fun c => isNew (lookupKey key s.old (key c)) c := by
        refine List.filter_congr fun c hc => ?_
        rw [lookupKey_eraseKey_of_ne (Ne.symm (ha c hc))]
      rw [Comparison.mk.injEq]
      refine ⟨?_, by rw [List.append_assoc, List.singleton_append], ?_⟩
      · rw [eraseKey, List.filter_filter]
        refine List.filter_congr fun b _ => ?_
        simp only [List.forall_mem_cons, Bool.decide_and]
        rw [Bool.and_comm]
        congr 2
        exact propext ⟨Ne.symm, Ne.symm⟩
      · rw [hfilter, List.append_assoc, ← List.filter_append, List.singleton_append]
    · intro c hc b hb
      refine hfresh haddedl c hc b ?_
      obtain hb | hb := List.mem_append.1 hb
      · exact List.mem_append_left _ hb
      · exact List.mem_append_right _ (List.mem_filter.1 hb |>.1)

/-- Of two filters of a list, one below the other, the images are the same exactly if the filters
are. -/
theorem perm_map_filter_iff {β : Type*} {f : α → β} {p q : α → Bool}
    (h : ∀ a ∈ l, p a = true → q a = true) :
    ((l.filter p).map f).Perm ((l.filter q).map f) ↔ ∀ a ∈ l, q a = true → p a = true := by
  have hpq : (l.filter q).filter p = l.filter p := by
    rw [List.filter_filter]
    refine List.filter_congr fun a ha => ?_
    cases hp : p a with
    | false => rfl
    | true => rw [h a ha hp]; rfl
  constructor
  · intro hperm a ha hq
    have hlen := hperm.length_eq
    rw [List.length_map, List.length_map, ← hpq, List.length_filter_eq_length_iff] at hlen
    exact hlen a (List.mem_filter.2 ⟨ha, hq⟩)
  · intro hqp
    rw [List.filter_congr fun a ha => Bool.eq_iff_iff.2 ⟨h a ha, hqp a ha⟩]

end Comparison

end Msm8909w
