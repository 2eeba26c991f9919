import Mathlib.Data.List.Basic
import Mathlib.Data.List.Infix
import Mathlib.Tactic.SplitIfs

/-!
# Searching for keywords

`firstIndex w s` and `lastIndex w s` are the positions of the first and of the last occurrence of
`w` in `s`.  A keyword such as `KEY:VALUE` has a mark in it, and every occurrence has its mark at
one of the marks of the text, with `KEY` right before and `VALUE` right behind it.  So a search can
go from mark to mark:

* `Found.here` : the keyword is found at the first mark,
* `Found.skip` : it is not there, and the search goes on behind the mark,
* `Found.glue` : the same for a stretch of marks none of which follows on `KEY`,
* `Found.past` : a keyword without line ends is searched for from line to line,
* `infix_mark_iff` : where a keyword can be in a line with one mark.
-/

namespace Msm8909w

section Index

variable {α : Type*} [DecidableEq α]

/-- The position of the first occurrence. -/
def firstIndex (w : List α) : List α → Option ℕ
  | [] => if w = [] then some 0 else none
  | a :: s => if w <+: a :: s then some 0 else (firstIndex w s).map (· + 1)

/-- The position of the last occurrence. -/
def lastIndex (w : List α) : List α → Option ℕ
  | [] => if w = [] then some 0 else none
  | a :: s =>
    match lastIndex w s with
    | some i => some (i + 1)
    | none => if w <+: a :: s then some 0 else none

theorem lastIndex_append {w s : List α} {i : ℕ} (h : lastIndex w s = some i) (pre : List α) :
    lastIndex w (pre ++ s) = some (pre.length + i) := by
  induction pre with
  | nil => simpa using h
  | cons a pre ih =>
    rw [List.cons_append, lastIndex, ih, List.length_cons]
    simp only [Option.some.injEq]
    omega

theorem notMem_of_lastIndex_eq_none {c : α} {s : List α} (h : lastIndex [c] s = none) : c ∉ s := by
  induction s with
  | nil => exact List.not_mem_nil
  | cons a s ih =>
    rw [lastIndex] at h
    split at h
    · cases h
    · next hnone =>
      split_ifs at h with hprefix
      rw [List.mem_cons, not_or]
      refine ⟨?_, ih hnone⟩
      rintro rfl
      exact hprefix (List.cons_prefix_cons.2 ⟨rfl, List.nil_prefix⟩)

/-- The last occurrence of an element. -/
theorem exists_of_lastIndex_singleton {c : α} {s : List α} {i : ℕ} (h : lastIndex [c] s = some i) :
    ∃ pre post, s = pre ++ c :: post ∧ c ∉ post ∧ pre.length = i := by
  induction s generalizing i with
  | nil => cases h
  | cons a s ih =>
    rw [lastIndex] at h
    split at h
    · next j hj =>
      obtain ⟨pre, post, rfl, hpost, rfl⟩ := ih hj
      obtain rfl := Option.some.inj h
      exact ⟨a :: pre, post, rfl, hpost, rfl⟩
    · next hnone =>
      split_ifs at h with hprefix
      obtain rfl := Option.some.inj h
      obtain rfl := (List.cons_prefix_cons.1 hprefix).1
      exact ⟨[], s, rfl, notMem_of_lastIndex_eq_none hnone, rfl⟩

/-- The last occurrence splits the text. -/
theorem exists_of_lastIndex {w s : List α} {i : ℕ} (h : lastIndex w s = some i) :
    ∃ pre post, s = pre ++ w ++ post ∧ pre.length = i := by
  induction s generalizing i with
  | nil =>
    rw [lastIndex] at h
    split_ifs at h with hw
    obtain rfl := Option.some.inj h
    exact ⟨[], [], by simp [hw], rfl⟩
  | cons a s ih =>
    rw [lastIndex] at h
    split at h
    · next j hj =>
      obtain ⟨pre, post, rfl, rfl⟩ := ih hj
      obtain rfl := Option.some.inj h
      exact ⟨a :: pre, post, rfl, rfl⟩
    · split_ifs at h with hprefix
      obtain rfl := Option.some.inj h
      obtain ⟨post, hpost⟩ := hprefix
      exact ⟨[], post, by simp [hpost], rfl⟩

theorem firstIndex_of_prefix {w s : List α} (h : w <+: s) : firstIndex w s = some 0 := by
  cases s with
  | nil => rw [List.prefix_nil.1 h, firstIndex, if_pos rfl]
  | cons a s => rw [firstIndex, if_pos h]

/-- The word does not start before its first occurrence. -/
theorem not_prefix_of_lt {w s : List α} {i j : ℕ} (h : firstIndex w s = some i) (hj : j < i) :
    ¬ w <+: s.drop j := by
  induction s generalizing i j with
  | nil =>
    rw [firstIndex] at h
    split_ifs at h
    obtain rfl := Option.some.inj h
    omega
  | cons a s ih =>
    rw [firstIndex] at h
    split_ifs at h with hprefix
    · obtain rfl := Option.some.inj h
      omega
    · obtain ⟨i', hi', rfl⟩ := Option.map_eq_some_iff.1 h
      cases j with
      | zero => exact hprefix
      | succ j => exact ih hi' (by omega)

/-- A search goes on behind the places where the word does not start. -/
theorem firstIndex_drop {w s : List α} {n : ℕ} (hn : n ≤ s.length)
    (h : ∀ j < n, ¬ w <+: s.drop j) : firstIndex w s = (firstIndex w (s.drop n)).map (n + ·) := by
  induction n generalizing s with
  | zero => simp
  | succ n ih =>
    cases s with
    | nil => simp at hn
    | cons a s =>
      have hhere : ¬ w <+: a :: s := h 0 (by omega)
      have hrest := @ih s (by simpa using hn) fun j hj => h (j + 1) (by omega)
      rw [firstIndex, if_neg hhere, hrest, Option.map_map, List.drop_succ_cons]
      congr 1
      funext i
      simp only [Function.comp_apply]
      omega

theorem firstIndex_eq_none {w s : List α} : firstIndex w s = none ↔ ¬ w <:+: s := by
  induction s with
  | nil =>
    rw [firstIndex, List.infix_nil]
    split_ifs with h <;> simp [h]
  | cons a s ih =>
    rw [firstIndex, List.infix_cons_iff, not_or]
    split_ifs with h
    · simp [h]
    · rw [Option.map_eq_none_iff, ih, and_iff_right h]

end Index

section Mark

variable {α : Type*} {c : α} {K V p rest : List α}

/-- The mark of a keyword is the first mark of a text that starts with it. -/
theorem prefix_mark_iff (hK : c ∉ K) (hp : c ∉ p) :
    K ++ c :: V <+: p ++ c :: rest ↔ K = p ∧ V <+: rest := by
  induction K generalizing p with
  | nil =>
    cases p with
    | nil => simp
    | cons a p =>
      have hne : c ≠ a := fun h => hp (h ▸ List.mem_cons_self)
      simp [hne]
  | cons b K ih =>
    obtain ⟨hb, hK⟩ := not_or.1 (mt List.mem_cons.2 hK)
    cases p with
    | nil =>
      have hne : b ≠ c := Ne.symm hb
      simp [hne]
    | cons a p =>
      have hp := (not_or.1 (mt List.mem_cons.2 hp)).2
      simp only [List.cons_append, List.cons_prefix_cons, ih hK hp, List.cons.injEq, and_assoc]

/-- In a text with one mark a keyword can only be at this mark. -/
theorem prefix_of_infix_mark (hp : c ∉ p) (hrest : c ∉ rest) (h : K ++ c :: V <:+: p ++ c :: rest) :
    V <+: rest := by
  obtain ⟨a, b, heq⟩ := h
  rw [← List.append_assoc, List.append_assoc (a ++ K), List.cons_append] at heq
  obtain ⟨-, -, htail⟩ := (List.append_cons_inj_of_notMem hp hrest).1 heq.symm
  exact ⟨b, htail.symm⟩

/-- A keyword in a text with one mark. -/
theorem infix_mark_iff (hp : c ∉ p) (hrest : c ∉ rest) :
    K ++ c :: V <:+: p ++ c :: rest ↔ K <:+ p ∧ V <+: rest := by
  constructor
  · intro h
    refine ⟨?_, prefix_of_infix_mark hp hrest h⟩
    obtain ⟨a, b, heq⟩ := h
    rw [← List.append_assoc, List.append_assoc (a ++ K), List.cons_append] at heq
    obtain ⟨hfront, -, -⟩ := (List.append_cons_inj_of_notMem hp hrest).1 heq.symm
    exact ⟨a, hfront.symm⟩
  · rintro ⟨⟨a, rfl⟩, ⟨b, rfl⟩⟩
    exact ⟨a, b, by simp⟩

/-- A text without the element `c` that starts a text starts the part before the first `c`. -/
theorem prefix_append_cons_iff {w : List α} (hw : c ∉ w) : w <+: p ++ c :: rest ↔ w <+: p := by
  constructor
  · intro h
    rcases List.prefix_or_prefix_of_prefix h (List.prefix_append p (c :: rest)) with h1 | ⟨t, rfl⟩
    · exact h1
    · obtain ⟨b, hb⟩ := h
      rw [List.append_assoc] at hb
      cases t with
      | nil => rw [List.append_nil]
      | cons d t =>
        obtain ⟨rfl, -⟩ := List.cons.inj (List.append_cancel_left hb)
        exact absurd (List.mem_append_right p List.mem_cons_self) hw
  · exact fun h => h.trans (List.prefix_append _ _)

/-- A text that ends with a key that is no end of `K`, and of which `K` is no end. -/
theorem not_suffix_append {k : List α} (h : ¬ K <:+ k) (h' : ¬ k <:+ K) (v : List α) :
    ¬ K <:+ v ++ k := by
  intro hs
  rcases List.suffix_or_suffix_of_suffix hs (List.suffix_append v k) with h1 | h1
  · exact h h1
  · exact h' h1

theorem not_prefix_append {k : List α} (h : ¬ V <+: k) (h' : ¬ k <+: V) (v : List α) :
    ¬ V <+: k ++ v := by
  intro hs
  rcases List.prefix_or_prefix_of_prefix hs (List.prefix_append k v) with h1 | h1
  · exact h h1
  · exact h' h1

end Mark

section Found

variable {α : Type*} [DecidableEq α] {c : α} {K V p rest pre post : List α}

/-- The first occurrence of `w` in `s` is between `pre` and `post`. -/
structure Found (w s pre post : List α) : Prop where
  eq : s = pre ++ w ++ post
  index : firstIndex w s = some pre.length

/-- The first occurrence splits the text. -/
theorem found_of_firstIndex {w s : List α} {i : ℕ} (h : firstIndex w s = some i) :
    ∃ pre post, Found w s pre post ∧ pre.length = i := by
  induction s generalizing i with
  | nil =>
    rw [firstIndex] at h
    split_ifs at h with hw
    obtain rfl := Option.some.inj h
    exact ⟨[], [], ⟨by simp [hw], by simp [firstIndex, hw]⟩, rfl⟩
  | cons a s ih =>
    have hindex := h
    rw [firstIndex] at h
    split_ifs at h with hprefix
    · obtain rfl := Option.some.inj h
      obtain ⟨post, hpost⟩ := hprefix
      exact ⟨[], post, ⟨by simp [hpost], hindex⟩, rfl⟩
    · obtain ⟨j, hj, rfl⟩ := Option.map_eq_some_iff.1 h
      obtain ⟨pre, post, hfound, rfl⟩ := ih hj
      exact ⟨a :: pre, post, ⟨by rw [hfound.eq]; simp, hindex⟩, rfl⟩

/-- A text with the word in it has a first one. -/
theorem exists_found {w s : List α} (h : w <:+: s) : ∃ pre post, Found w s pre post := by
  cases hi : firstIndex w s with
  | none => exact absurd h (firstIndex_eq_none.1 hi)
  | some i =>
    obtain ⟨pre, post, hfound, -⟩ := found_of_firstIndex hi
    exact ⟨pre, post, hfound⟩

theorem Found.occurs {w s : List α} (h : Found w s pre post) : w <:+: s := ⟨pre, post, h.eq.symm⟩

theorem Found.drop_eq {w s : List α} (h : Found w s pre post) : s.drop pre.length = w ++ post := by
  rw [h.eq, List.append_assoc, List.drop_left]

theorem Found.unique {w s pre' post' : List α} (h : Found w s pre post)
    (h' : Found w s pre' post') :
    pre' = pre ∧ post' = post := by
  have hlen : pre'.length = pre.length := Option.some.inj (h'.index.symm.trans h.index)
  have heq : pre' ++ (w ++ post') = pre ++ (w ++ post) := by
    rw [← List.append_assoc, ← List.append_assoc, ← h'.eq, ← h.eq]
  obtain ⟨hpre, hrest⟩ := List.append_inj heq hlen
  exact ⟨hpre, List.append_cancel_left hrest⟩

/-- What follows on a text does not change where a word is found first. -/
theorem Found.append {w s : List α} (h : Found w s pre post) (t : List α) :
    Found w (s ++ t) pre (post ++ t) := by
  obtain ⟨heq, hindex⟩ := h
  refine ⟨by simp [heq], ?_⟩
  induction pre generalizing s with
  | nil =>
    rw [heq]
    exact firstIndex_of_prefix ⟨post ++ t, by simp⟩
  | cons a pre ih =>
    rw [List.cons_append, List.cons_append] at heq
    subst heq
    rw [firstIndex] at hindex
    split_ifs at hindex with hprefix
    · cases hindex
    · obtain ⟨i, hi, hlen⟩ := Option.map_eq_some_iff.1 hindex
      have htail : firstIndex w (pre ++ w ++ post) = some pre.length := by
        rw [hi]
        exact congrArg some (Nat.succ.inj hlen)
      -- the word does not reach into what follows
      have hnot : ¬ w <+: a :: (pre ++ w ++ post ++ t) := by
        intro hp
        refine hprefix (List.prefix_of_prefix_length_le hp ?_ ?_)
        · exact List.prefix_append (a :: (pre ++ w ++ post)) t
        · simp only [List.length_cons, List.length_append]
          omega
      rw [List.cons_append, firstIndex, if_neg hnot, ih rfl htail]
      rfl

/-- A line without the word is passed over; `c` ends the line. -/
theorem Found.past {w s : List α} (hw : c ∉ w) (hne : w ≠ []) (hp : ¬ w <:+: p)
    (h : Found w s pre post) : Found w (p ++ c :: s) (p ++ c :: pre) post := by
  refine ⟨by simp [h.eq], ?_⟩
  induction p with
  | nil =>
    have hnot : ¬ w <+: [] ++ c :: s := by
      rw [prefix_append_cons_iff hw, List.prefix_nil]
      exact hne
    rw [List.nil_append] at hnot ⊢
    rw [firstIndex, if_neg hnot, h.index]
    rfl
  | cons a p ih =>
    rw [List.infix_cons_iff, not_or] at hp
    have hnot : ¬ w <+: a :: p ++ c :: s := by
      rw [prefix_append_cons_iff hw]
      exact hp.1
    rw [List.cons_append] at hnot ⊢
    rw [firstIndex, if_neg hnot, ih hp.2]
    rfl

theorem Found.here (hK : c ∉ K) (hp : c ∉ p) (post : List α) :
    Found (K ++ c :: V) (p ++ K ++ c :: (V ++ post)) p post := by
  refine ⟨by simp, ?_⟩
  induction p with
  | nil => exact firstIndex_of_prefix ⟨post, by simp⟩
  | cons a p ih =>
    have hp' := (not_or.1 (mt List.mem_cons.2 hp)).2
    have hmem : c ∉ a :: p ++ K := fun h => (List.mem_append.1 h).elim hp hK
    have hnot : ¬ K ++ c :: V <+: a :: p ++ K ++ c :: (V ++ post) := by
      rw [prefix_mark_iff hK hmem]
      rintro ⟨heq, -⟩
      have := congrArg List.length heq
      simp at this
      omega
    rw [List.cons_append, List.cons_append] at hnot ⊢
    rw [firstIndex, if_neg hnot, ih hp']
    rfl

/-- The first mark does not belong to the keyword. -/
theorem Found.skip (hK : c ∉ K) (hp : c ∉ p) (hmiss : ¬ (K <:+ p ∧ V <+: rest))
    (h : Found (K ++ c :: V) rest pre post) :
    Found (K ++ c :: V) (p ++ c :: rest) (p ++ c :: pre) post := by
  refine ⟨by simp [h.eq], ?_⟩
  induction p with
  | nil =>
    have hnot : ¬ K ++ c :: V <+: [] ++ c :: rest := by
      rw [prefix_mark_iff hK hp]
      rintro ⟨rfl, hV⟩
      exact hmiss ⟨List.suffix_rfl, hV⟩
    rw [List.nil_append] at hnot ⊢
    rw [firstIndex, if_neg hnot, h.index]
    rfl
  | cons a p ih =>
    have hp' := (not_or.1 (mt List.mem_cons.2 hp)).2
    have hnot : ¬ K ++ c :: V <+: a :: p ++ c :: rest := by
      rw [prefix_mark_iff hK hp]
      rintro ⟨rfl, hV⟩
      exact hmiss ⟨List.suffix_rfl, hV⟩
    have hmiss' : ¬ (K <:+ p ∧ V <+: rest) := fun ⟨hs, hV⟩ =>
      hmiss ⟨hs.trans (List.suffix_cons a p), hV⟩
    rw [List.cons_append] at hnot ⊢
    rw [firstIndex, if_neg hnot, ih hp' hmiss']
    rfl

/-- Texts and keys, each key followed by a mark. -/
def glue (c : α) : List (List α) → List (List α) → List α → List α
  | v :: vs, k :: ks, rest => v ++ k ++ c :: glue c vs ks rest
  | _, _, rest => rest

theorem Found.glue (h : Found (K ++ c :: V) rest pre post) (vs ks : List (List α)) (hK : c ∉ K)
    (hvs : ∀ v ∈ vs, c ∉ v) (hks : ∀ k ∈ ks, c ∉ k ∧ ¬ K <:+ k ∧ ¬ k <:+ K) :
    Found (K ++ c :: V) (Msm8909w.glue c vs ks rest) (Msm8909w.glue c vs ks pre) post := by
  induction vs generalizing ks with
  | nil => exact h
  | cons v vs ih =>
    cases ks with
    | nil => exact h
    | cons k ks =>
      obtain ⟨hk, h1, h2⟩ := hks k List.mem_cons_self
      have hrest := ih ks (fun v' hv' => hvs v' (List.mem_cons_of_mem v hv'))
        fun k' hk' => hks k' (List.mem_cons_of_mem k hk')
      refine hrest.skip hK ?_ fun hs => not_suffix_append h1 h2 v hs.1
      rw [List.mem_append, not_or]
      exact ⟨hvs v List.mem_cons_self, hk⟩

/-- A word that starts with the mark and has no other is found at the first mark. -/
theorem found_mark (hp : c ∉ p) (post : List α) :
    Found (c :: V) (p ++ c :: (V ++ post)) p post := by
  have h := @Found.here α _ c [] V p List.not_mem_nil hp post
  simpa using h

end Found

end Msm8909w
