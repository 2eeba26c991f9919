import Mathlib.Data.List.Pairwise

/-!
# Resources under numbers

What a program holds of resources that it is given under a number and gives back under it.  The
numbers go up, so that none of them is given out twice, and the resources that are held stand in the
order in which they came.

`p.Leaves q new` says that from `p` to `q` the program has got and given back resources, that it
still holds `new` of those it got, and that it has touched nothing it held before.

* `Leaves.trans` : one part of a program after the other,
* `Leaves.bracket` : a part between getting a resource and giving it back,
* `held_release_of_eq` : giving back a resource that is held.
-/

namespace Msm8909w

/-- The resources of the kinds `κ` that are held. -/
structure Pool (κ : Type*) where
  /-- The next number to be given out. -/
  next : ℕ := 0
  held : List (ℕ × κ) := []
  lt : ∀ x ∈ held, x.1 < next := by exact List.forall_mem_nil _
  sorted : held.Pairwise (fun x y => x.1 < y.1) := by exact .nil

namespace Pool

variable {κ : Type*} {p q r : Pool κ} {k : κ} {c : ℕ} {new more L M : List (ℕ × κ)}

/-- A resource is got under the next number. -/
def acquire (p : Pool κ) (k : κ) : Pool κ where
  next := p.next + 1
  held := p.held ++ [(p.next, k)]
  lt := by
    intro x hx
    rcases List.mem_append.1 hx with hx | hx
    · exact Nat.lt_succ_of_lt (p.lt x hx)
    · rw [List.mem_singleton.1 hx]
      exact Nat.lt_succ_self _
  sorted := by
    refine List.pairwise_append.2 ⟨p.sorted, List.pairwise_singleton _ _, ?_⟩
    intro x hx y hy
    rw [List.mem_singleton.1 hy]
    exact p.lt x hx

/-- What is held under the number is given back. -/
def release (p : Pool κ) (c : ℕ) : Pool κ where
  next := p.next
  held := p.held.filter (fun x => x.1 ≠ c)
  lt := fun x hx => p.lt x (List.mem_filter.1 hx).1
  sorted := p.sorted.sublist List.filter_sublist

@[simp] theorem next_acquire : (p.acquire k).next = p.next + 1 := rfl

@[simp] theorem held_acquire : (p.acquire k).held = p.held ++ [(p.next, k)] := rfl

@[simp] theorem next_release : (p.release c).next = p.next := rfl

@[simp] theorem mem_held_release {x : ℕ × κ} : x ∈ (p.release c).held ↔ x ∈ p.held ∧ x.1 ≠ c := by
  simp [release]

/-- Nothing is held twice under one number. -/
theorem eq_of_mem {k' : κ} (h : (c, k) ∈ p.held) (h' : (c, k') ∈ p.held) : k = k' := by
  by_contra hne
  have hpairwise : p.held.Pairwise (fun x y => x.1 ≠ y.1) :=
    p.sorted.imp fun hlt => Nat.ne_of_lt hlt
  have hsymm : Std.Symm (fun x y : ℕ × κ => x.1 ≠ y.1) := ⟨fun _ _ h => h.symm⟩
  have hpair : (c, k) ≠ (c, k') := fun heq => hne (Prod.ext_iff.1 heq).2
  exact hpairwise.forall h h' hpair rfl

/-- A resource that is held is given back. -/
theorem held_release_of_eq (h : p.held = L ++ (c, k) :: M) : (p.release c).held = L ++ M := by
  have hsorted := p.sorted
  rw [h, List.pairwise_append, List.pairwise_cons] at hsorted
  obtain ⟨-, ⟨hafter, -⟩, hbefore⟩ := hsorted
  have hL : L.filter (fun x => x.1 ≠ c) = L := by
    refine List.filter_eq_self.2 fun x hx => decide_eq_true ?_
    exact Nat.ne_of_lt (hbefore x hx _ List.mem_cons_self)
  have hM : M.filter (fun x => x.1 ≠ c) = M := by
    refine List.filter_eq_self.2 fun x hx => decide_eq_true ?_
    exact Nat.ne_of_gt (hafter x hx)
  calc (p.release c).held = (L ++ (c, k) :: M).filter (fun x => x.1 ≠ c) := by rw [← h]; rfl
    _ = L ++ M := by
      rw [List.filter_append, List.filter_cons_of_neg (by simp), hL, hM]

/-! ### What a part of a program leaves behind -/

/-- From `p` to `q`, `new` has been got and not given back. -/
structure Leaves (p q : Pool κ) (new : List (ℕ × κ)) : Prop where
  next_le : p.next ≤ q.next
  held : q.held = p.held ++ new
  le : ∀ x ∈ new, p.next ≤ x.1

namespace Leaves

theorem refl (p : Pool κ) : p.Leaves p [] :=
  ⟨Nat.le_refl _, (List.append_nil _).symm, by simp⟩

theorem acquire (p : Pool κ) (k : κ) : p.Leaves (p.acquire k) [(p.next, k)] :=
  ⟨Nat.le_succ _, rfl, by simp⟩

theorem trans (h : p.Leaves q new) (h' : q.Leaves r more) : p.Leaves r (new ++ more) := by
  refine ⟨Nat.le_trans h.next_le h'.next_le, ?_, ?_⟩
  · rw [h'.held, h.held, List.append_assoc]
  · intro x hx
    rcases List.mem_append.1 hx with hx | hx
    · exact h.le x hx
    · exact Nat.le_trans h.next_le (h'.le x hx)

/-- One of the resources that are left is given back. -/
theorem release (h : p.Leaves q (L ++ (c, k) :: M)) : p.Leaves (q.release c) (L ++ M) := by
  refine ⟨h.next_le, ?_, fun x hx => h.le x ?_⟩
  · have hheld : q.held = (p.held ++ L) ++ (c, k) :: M := by rw [h.held, List.append_assoc]
    rw [held_release_of_eq hheld, List.append_assoc]
  · rcases List.mem_append.1 hx with hx | hx
    · exact List.mem_append_left _ hx
    · exact List.mem_append_right _ (List.mem_cons_of_mem _ hx)

/-- Between getting a resource and giving it back. -/
theorem bracket (h : (p.acquire k).Leaves q new) : p.Leaves (q.release p.next) new :=
  release (L := []) ((acquire p k).trans h)

/-- What is left is determined by what is held. -/
theorem unique (h : p.Leaves q new) (h' : p.Leaves q more) : new = more :=
  List.append_cancel_left (h.held.symm.trans h'.held)

/-- What is left is what is held under new numbers. -/
theorem mem_iff (h : p.Leaves q new) {x : ℕ × κ} : (x ∈ q.held ∧ p.next ≤ x.1) ↔ x ∈ new := by
  rw [h.held, List.mem_append]
  constructor
  · rintro ⟨hx | hx, hle⟩
    · exact absurd (p.lt x hx) (Nat.not_lt.2 hle)
    · exact hx
  · exact fun hx => ⟨.inr hx, h.le x hx⟩

end Leaves

end Pool

end Msm8909w
