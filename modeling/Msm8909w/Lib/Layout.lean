import Msm8909w.Lib.Bytes

/-!
# Blocks laid out one after another

A list of names `ms` with a block `blob m` of `size m` elements for each name is laid out as
`ms.flatMap blob`; `place size ms m` is the position of the block of `m`.  The names often come
from a longer list in which they are repeated: `firsts seen l` lists the members of `l` that are
not in `seen`, each once, in the order of their first occurrence.

* `slice_place` : the block of `m` stands at its place,
* `slice_flatMap_take` : the block with a given index stands behind the blocks before it,
* `place_disjoint`, `exists_place` : the blocks are disjoint and cover everything,
* `mem_firsts`, `nodup_firsts` : `firsts` enumerates without repetition.
-/

namespace Msm8909w

section Layout

variable {α β : Type*} [DecidableEq α] {size : α → ℕ} {blob : α → List β} {ms ns : List α}
    {m m' : α}

/-- The position of the block of `m`. -/
def place (size : α → ℕ) (ms : List α) (m : α) : ℕ := ((ms.takeWhile (· ≠ m)).map size).sum

theorem place_cons_self : place size (m :: ms) m = 0 := by
  simp only [place, ne_eq, not_true_eq_false, decide_false, List.takeWhile_cons,
    Bool.false_eq_true, ↓reduceIte, List.map_nil, List.sum_nil]

theorem place_cons_of_ne (h : m' ≠ m) : place size (m' :: ms) m = size m' + place size ms m := by
  simp only [place, ne_eq, h, not_false_eq_true, decide_true, List.takeWhile_cons, ↓reduceIte,
    List.map_cons, List.sum_cons]

theorem place_append (h : m ∈ ms) : place size (ms ++ ns) m = place size ms m := by
  induction ms with
  | nil => cases h
  | cons a ms ih =>
    by_cases ha : a = m
    · subst ha
      rw [List.cons_append, place_cons_self, place_cons_self]
    · rw [List.cons_append, place_cons_of_ne ha, place_cons_of_ne ha,
        ih ((List.mem_cons.1 h).resolve_left (Ne.symm ha))]

/-- A new block goes to the end. -/
theorem place_append_self (h : m ∉ ms) : place size (ms ++ m :: ns) m = (ms.map size).sum := by
  induction ms with
  | nil => exact place_cons_self
  | cons a ms ih =>
    obtain ⟨ha, hms⟩ := not_or.1 (mt List.mem_cons.2 h)
    rw [List.cons_append, place_cons_of_ne (Ne.symm ha), ih hms, List.map_cons, List.sum_cons]

theorem place_add_le (h : m ∈ ms) : place size ms m + size m ≤ (ms.map size).sum := by
  induction ms with
  | nil => cases h
  | cons a ms ih =>
    rw [List.map_cons, List.sum_cons]
    by_cases ha : a = m
    · subst ha
      rw [place_cons_self]
      omega
    · have hle := ih ((List.mem_cons.1 h).resolve_left (Ne.symm ha))
      rw [place_cons_of_ne ha]
      omega

theorem dvd_place {k : ℕ} (hk : ∀ m ∈ ms, k ∣ size m) (m : α) : k ∣ place size ms m := by
  induction ms with
  | nil => exact Nat.dvd_zero k
  | cons a ms ih =>
    by_cases ha : a = m
    · subst ha
      rw [place_cons_self]
      exact Nat.dvd_zero k
    · rw [place_cons_of_ne ha]
      exact Nat.dvd_add (hk a List.mem_cons_self) (ih fun m hm => hk m (List.mem_cons_of_mem _ hm))

/-- Different blocks do not overlap. -/
theorem place_disjoint (h : m ∈ ms) (h' : m' ∈ ms) (hne : m ≠ m') :
    place size ms m + size m ≤ place size ms m' ∨
      place size ms m' + size m' ≤ place size ms m := by
  induction ms with
  | nil => cases h
  | cons a ms ih =>
    by_cases ha : a = m
    · subst ha
      rw [place_cons_self, place_cons_of_ne hne]
      omega
    · by_cases ha' : a = m'
      · subst ha'
        rw [place_cons_self, place_cons_of_ne ha]
        omega
      · have hrest := ih ((List.mem_cons.1 h).resolve_left (Ne.symm ha))
          ((List.mem_cons.1 h').resolve_left (Ne.symm ha'))
        rw [place_cons_of_ne ha, place_cons_of_ne ha']
        omega

/-- Every position belongs to a block. -/
theorem exists_place (hnd : ms.Nodup) {p : ℕ} (hp : p < (ms.map size).sum) :
    ∃ m ∈ ms, place size ms m ≤ p ∧ p < place size ms m + size m := by
  induction ms generalizing p with
  | nil => simp at hp
  | cons a ms ih =>
    obtain ⟨hnot, hnd'⟩ := List.nodup_cons.1 hnd
    rw [List.map_cons, List.sum_cons] at hp
    by_cases hlt : p < size a
    · refine ⟨a, List.mem_cons_self, ?_⟩
      rw [place_cons_self]
      omega
    · obtain ⟨m, hm, h1, h2⟩ := @ih hnd' (p - size a) (by omega)
      have hne : a ≠ m := by rintro rfl; exact hnot hm
      refine ⟨m, List.mem_cons_of_mem _ hm, ?_⟩
      rw [place_cons_of_ne hne]
      omega

omit [DecidableEq α] in
theorem length_flatMap_blob (hl : ∀ m ∈ ms, (blob m).length = size m) :
    (ms.flatMap blob).length = (ms.map size).sum := by
  rw [List.length_flatMap]
  congr 1
  exact List.map_congr_left hl

/-- The block of `m` stands at its place. -/
theorem slice_place (hl : ∀ m ∈ ms, (blob m).length = size m) (h : m ∈ ms) :
    slice (ms.flatMap blob) (place size ms m) (size m) = blob m := by
  induction ms with
  | nil => cases h
  | cons a ms ih =>
    have ha' := hl a List.mem_cons_self
    rw [List.flatMap_cons]
    by_cases ha : a = m
    · subst ha
      rw [place_cons_self, slice, List.drop_zero, ← ha', List.take_left']
      rfl
    · have hrest := ih (fun m hm => hl m (List.mem_cons_of_mem _ hm))
        ((List.mem_cons.1 h).resolve_left (Ne.symm ha))
      rw [place_cons_of_ne ha, ← ha', slice_append_right]
      exact hrest

omit [DecidableEq α] in
theorem length_flatMap_const {k : ℕ} (hl : ∀ a ∈ ms, (blob a).length = k) :
    (ms.flatMap blob).length = k * ms.length := by
  induction ms with
  | nil => rfl
  | cons b ms ih =>
    rw [List.flatMap_cons, List.length_append, hl b List.mem_cons_self,
      ih fun a ha => hl a (List.mem_cons_of_mem _ ha), List.length_cons]
    ring

omit [DecidableEq α] in
/-- Records of a fixed length: the record with index `i`. -/
theorem slice_flatMap_const {k i : ℕ} {a : α} (hl : ∀ a ∈ ms, (blob a).length = k)
    (hi : ms[i]? = some a) : slice (ms.flatMap blob) (k * i) k = blob a := by
  induction ms generalizing i with
  | nil => cases hi
  | cons b ms ih =>
    have hb := hl b List.mem_cons_self
    rw [List.flatMap_cons]
    cases i with
    | zero =>
      cases hi
      rw [Nat.mul_zero, slice, List.drop_zero, ← hb]
      exact List.take_left' rfl
    | succ i =>
      have hrest := ih (fun m hm => hl m (List.mem_cons_of_mem _ hm)) hi
      rw [show k * (i + 1) = (blob b).length + k * i by rw [hb]; ring, slice_append_right, hrest]

omit [DecidableEq α] in
/-- The block with index `i` stands behind the blocks before it. -/
theorem slice_flatMap_take {i : ℕ} {a : α} (hl : ∀ a ∈ ms, (blob a).length = size a)
    (hi : ms[i]? = some a) :
    ((ms.take i).map size).sum + size a ≤ (ms.map size).sum ∧
      slice (ms.flatMap blob) ((ms.take i).map size).sum (size a) = blob a := by
  induction ms generalizing i with
  | nil => cases hi
  | cons b ms ih =>
    have hb := hl b List.mem_cons_self
    rw [List.flatMap_cons, List.map_cons, List.sum_cons]
    cases i with
    | zero =>
      cases hi
      rw [List.take_zero, List.map_nil, List.sum_nil]
      exact ⟨by omega, slice_prefix hb⟩
    | succ i =>
      obtain ⟨hle, hrest⟩ := ih (fun a ha => hl a (List.mem_cons_of_mem _ ha)) hi
      rw [List.take_succ_cons, List.map_cons, List.sum_cons]
      refine ⟨by omega, ?_⟩
      rw [← hb, slice_append_right]
      exact hrest

end Layout

section Firsts

variable {α : Type*} [DecidableEq α] {seen l : List α} {m : α}

/-- The members of `l` outside `seen`, in the order of their first occurrence. -/
def firsts (seen : List α) : List α → List α
  | [] => []
  | m :: l => if m ∈ seen then firsts seen l else m :: firsts (seen ++ [m]) l

theorem mem_firsts : m ∈ seen ++ firsts seen l ↔ m ∈ seen ∨ m ∈ l := by
  induction l generalizing seen with
  | nil => simp [firsts]
  | cons a l ih =>
    rw [firsts]
    split_ifs with ha
    · rw [ih, List.mem_cons]
      constructor
      · exact fun h => h.imp_right .inr
      · rintro (h | rfl | h)
        · exact .inl h
        · exact .inl ha
        · exact .inr h
    · rw [List.append_cons, ih, List.mem_append, List.mem_singleton, List.mem_cons, or_assoc]

theorem nodup_firsts (h : seen.Nodup) : (seen ++ firsts seen l).Nodup := by
  induction l generalizing seen with
  | nil => simpa [firsts] using h
  | cons a l ih =>
    rw [firsts]
    split_ifs with ha
    · exact ih h
    · rw [List.append_cons]
      refine ih (List.nodup_append.2 ⟨h, List.nodup_cons.2 ⟨List.not_mem_nil, List.nodup_nil⟩, ?_⟩)
      rintro x hx y hy rfl
      exact ha (List.mem_singleton.1 hy ▸ hx)

theorem mem_firsts_nil : m ∈ firsts [] l ↔ m ∈ l := by
  have h : m ∈ [] ++ firsts [] l ↔ _ := mem_firsts
  simpa using h

theorem nodup_firsts_nil : (firsts [] l).Nodup := by
  have h : ([] ++ firsts [] l).Nodup := nodup_firsts List.nodup_nil
  simpa using h

theorem firsts_append {l' : List α} :
    firsts seen (l ++ l') = firsts seen l ++ firsts (seen ++ firsts seen l) l' := by
  induction l generalizing seen with
  | nil => rw [List.nil_append, firsts, List.append_nil, List.nil_append]
  | cons a l ih =>
    rw [List.cons_append, firsts, firsts]
    split_ifs with ha
    · exact ih
    · rw [ih, List.cons_append, List.append_assoc seen, List.singleton_append]

end Firsts

end Msm8909w
