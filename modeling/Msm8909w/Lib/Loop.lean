import Mathlib.Logic.Function.Iterate

/-!
# Loops that may not end

One turn of a loop takes a state to the next one or ends the loop with a result.  `Ends turn s r`
says that the loop, entered in the state `s`, ends with `r`; a loop that ends with nothing runs for
ever.

* `Ends.unique` : a loop ends with one result at most,
* `ends_iff_of_goOn`, `ends_iff_of_stop`, `not_ends_of_same` : one turn,
* `ends_of_iterate` : a loop that counts its turns, `not_ends_of_invariant` : one that never stops,
* `ends_iff_iterate`, `visits_iff_iterate` : the end and the states of a loop with one body,
* `ends_of_loop`, `exists_loop_of_ends` : loops by evaluation.
-/

namespace Msm8909w

variable {S R : Type*} {turn : S → S ⊕ R} {s t : S} {r r' : R}

/-- The loop ends with the result `r`. -/
inductive Ends (turn : S → S ⊕ R) : S → R → Prop
  | stop {s : S} {r : R} (h : turn s = .inr r) : Ends turn s r
  | goOn {s t : S} {r : R} (h : turn s = .inl t) (h' : Ends turn t r) : Ends turn s r

theorem ends_iff_of_stop (h : turn s = .inr r) : Ends turn s r' ↔ r' = r := by
  constructor
  · intro he
    cases he with
    | stop h' => exact (Sum.inr.inj (h.symm.trans h')).symm
    | goOn h' _ => cases h.symm.trans h'
  · rintro rfl
    exact .stop h

theorem ends_iff_of_goOn (h : turn s = .inl t) : Ends turn s r ↔ Ends turn t r := by
  constructor
  · intro he
    cases he with
    | stop h' => cases h.symm.trans h'
    | goOn h' he =>
      obtain rfl := Sum.inl.inj (h.symm.trans h')
      exact he
  · exact .goOn h

/-- A turn that leaves everything as it is comes again and again. -/
theorem not_ends_of_same (h : turn s = .inl s) : ¬ Ends turn s r := by
  intro he
  induction he with
  | stop hs => cases h.symm.trans hs
  | goOn hs _ ih =>
    obtain rfl := Sum.inl.inj (h.symm.trans hs)
    exact ih h

/-- A loop ends in one way. -/
theorem Ends.unique (h : Ends turn s r) (h' : Ends turn s r') : r' = r := by
  induction h with
  | stop hs => exact (ends_iff_of_stop hs).1 h'
  | goOn hs _ ih => exact ih ((ends_iff_of_goOn hs).1 h')

/-- A loop that goes on in a set of states stays in it for ever. -/
theorem not_ends_of_invariant {I : S → Prop} (hgo : ∀ s, I s → ∃ t, turn s = .inl t ∧ I t)
    (h : I s) : ¬ Ends turn s r := by
  intro he
  induction he with
  | @stop s r hs =>
    obtain ⟨t, ht, -⟩ := hgo s h
    cases ht.symm.trans hs
  | @goOn s t r hs _ ih =>
    obtain ⟨t', ht, hI⟩ := hgo s h
    obtain rfl := Sum.inl.inj (ht.symm.trans hs)
    exact ih hI

/-- A loop that takes `n` turns, each of them the body `f`, and then stops. -/
theorem ends_of_iterate {f : S → S} {n : ℕ} (hgo : ∀ k < n, turn (f^[k] s) = .inl (f^[k + 1] s))
    (hstop : turn (f^[n] s) = .inr r) : Ends turn s r := by
  induction n generalizing s with
  | zero => exact .stop hstop
  | succ n ih =>
    refine .goOn (hgo 0 n.succ_pos) (ih (fun k hk => ?_) hstop)
    exact hgo (k + 1) (Nat.succ_lt_succ hk)

section Body

variable {f : S → S}

/-- A loop with the body `f` ends after a number of turns, if it ends. -/
theorem ends_iff_iterate (hbody : ∀ s t, turn s = .inl t → t = f s) : Ends turn s r ↔
    ∃ n, (∀ k < n, turn (f^[k] s) = .inl (f^[k + 1] s)) ∧ turn (f^[n] s) = .inr r := by
  constructor
  · intro h
    induction h with
    | stop h => exact ⟨0, fun k hk => absurd hk k.not_lt_zero, h⟩
    | @goOn s t r h _ ih =>
      obtain rfl := hbody s t h
      obtain ⟨n, hgo, hstop⟩ := ih
      refine ⟨n + 1, fun k hk => ?_, hstop⟩
      cases k with
      | zero => exact h
      | succ k => exact hgo k (Nat.lt_of_succ_lt_succ hk)
  · rintro ⟨n, hgo, hstop⟩
    exact ends_of_iterate hgo hstop

/-- The loop comes to the second state. -/
inductive Visits (turn : S → S ⊕ R) : S → S → Prop
  | refl (s : S) : Visits turn s s
  | goOn {s t u : S} (h : turn s = .inl t) (h' : Visits turn t u) : Visits turn s u

theorem visits_iff_iterate (hbody : ∀ s t, turn s = .inl t → t = f s) : Visits turn s t ↔
    ∃ n, (∀ k < n, turn (f^[k] s) = .inl (f^[k + 1] s)) ∧ t = f^[n] s := by
  constructor
  · intro h
    induction h with
    | refl s => exact ⟨0, fun k hk => absurd hk k.not_lt_zero, rfl⟩
    | @goOn s t u h _ ih =>
      obtain rfl := hbody s t h
      obtain ⟨n, hgo, hlast⟩ := ih
      refine ⟨n + 1, fun k hk => ?_, hlast⟩
      cases k with
      | zero => exact h
      | succ k => exact hgo k (Nat.lt_of_succ_lt_succ hk)
  · rintro ⟨n, hgo, rfl⟩
    induction n generalizing s with
    | zero => exact .refl s
    | succ n ih =>
      refine .goOn (hgo 0 n.succ_pos) (ih fun k hk => ?_)
      exact hgo (k + 1) (Nat.succ_lt_succ hk)

end Body

/-- Run the loop for a number of turns. -/
def loop (turn : S → S ⊕ R) : ℕ → S → Option R
  | 0, _ => none
  | n + 1, s =>
    match turn s with
    | .inl t => loop turn n t
    | .inr r => some r

theorem ends_of_loop {n : ℕ} (h : loop turn n s = some r) : Ends turn s r := by
  induction n generalizing s with
  | zero => cases h
  | succ n ih =>
    rw [loop] at h
    split at h
    · next ht => exact .goOn ht (ih h)
    · next ht =>
      obtain rfl := Option.some.inj h
      exact .stop ht

theorem exists_loop_of_ends (h : Ends turn s r) : ∃ n, loop turn n s = some r := by
  induction h with
  | stop h => exact ⟨1, by rw [loop, h]⟩
  | goOn h _ ih =>
    obtain ⟨n, hn⟩ := ih
    exact ⟨n + 1, by rw [loop, h]; exact hn⟩

end Msm8909w
