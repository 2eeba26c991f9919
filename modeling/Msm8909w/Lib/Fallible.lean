import Mathlib.Data.List.Forall2

/-!
# Computations that may fail

A computation in `Except` has a result exactly if each of its parts has one, and a loop over a list
exactly if each of its turns has.

* `ok_bind`, `error_bind`, `bind_eq_ok`, `map_eq_ok` : two parts, one after the other,
* `foldlM_cons_eq_ok` : the first turn of a loop and the rest,
* `foldlM_mono` : a loop in `Option` whose turns are replaced by turns with more results,
* `exists_mapM` : turns that all have a result.
-/

namespace Msm8909w

variable {ε α β : Type} {as : List α} {b c : β}

@[simp] theorem ok_bind (a : α) (f : α → Except ε β) : (Except.ok a >>= f) = f a := rfl

@[simp] theorem error_bind (e : ε) (f : α → Except ε β) : (Except.error e >>= f) = .error e := rfl

theorem bind_eq_ok {x : Except ε α} {f : α → Except ε β} :
    x >>= f = .ok b ↔ ∃ a, x = .ok a ∧ f a = .ok b := by
  constructor
  · intro h
    cases x with
    | error e => cases h
    | ok a => exact ⟨a, rfl, h⟩
  · rintro ⟨a, rfl, h⟩
    exact h

theorem map_eq_ok {x : Except ε α} {f : α → β} :
    x.map f = .ok b ↔ ∃ a, x = .ok a ∧ f a = b := by
  cases x with
  | error e => simp [Except.map]
  | ok a => simp [Except.map]

theorem foldlM_cons_eq_ok {f : β → α → Except ε β} {a : α} :
    (a :: as).foldlM f b = .ok c ↔ ∃ b', f b a = .ok b' ∧ as.foldlM f b' = .ok c := by
  rw [List.foldlM_cons, bind_eq_ok]

/-- A loop that comes to an end does so with turns that have more results. -/
theorem foldlM_mono {f g : β → α → Option β} (h : ∀ b a c, f b a = some c → g b a = some c)
    (hf : as.foldlM f b = some c) : as.foldlM g b = some c := by
  induction as generalizing b with
  | nil => exact hf
  | cons a as ih =>
    rw [List.foldlM_cons] at hf ⊢
    obtain ⟨b', hfirst, hrest⟩ := Option.bind_eq_some_iff.1 hf
    exact Option.bind_eq_some_iff.2 ⟨b', h b a b' hfirst, ih hrest⟩

/-- If every element has a result with `R`, then they all have. -/
theorem exists_mapM {f : α → Option β} {R : α → β → Prop} (h : ∀ a ∈ as, ∃ b, f a = some b ∧ R a b) :
    ∃ bs, as.mapM f = some bs ∧ List.Forall₂ R as bs := by
  induction as with
  | nil => exact ⟨[], rfl, .nil⟩
  | cons a as ih =>
    obtain ⟨b, hb, hR⟩ := h a List.mem_cons_self
    obtain ⟨bs, hbs, hRs⟩ := ih fun x hx => h x (List.mem_cons_of_mem _ hx)
    refine ⟨b :: bs, ?_, .cons hR hRs⟩
    rw [List.mapM_cons, hb, hbs]
    rfl

end Msm8909w
