import Mathlib.Data.List.Nodup
import Mathlib.Data.Nat.Notation

/-!
# Loops that count

The loop `for (k = 0; k < n; k++)` is a fold over `List.range n`.

* `foldl_range_invariant` : what every round keeps holds afterwards,
* `foldl_range_places` : rounds that work on a place of their own each,
* `foldl_eq_of_unique` : rounds of which only one does anything,
* `foldl_map_eq` : every round works on all elements of a list.
-/

namespace Msm8909w

variable {S V : Type*} {step : S → ℕ → S} {n : ℕ} {s : S}

theorem foldl_range_succ :
    (List.range (n + 1)).foldl step s = step ((List.range n).foldl step s) n := by
  rw [List.range_succ, List.foldl_append]
  rfl

/-- `I k` holds before round `k`. -/
theorem foldl_range_invariant {I : ℕ → S → Prop} (h0 : I 0 s)
    (hstep : ∀ k < n, ∀ s, I k s → I (k + 1) (step s k)) : I n ((List.range n).foldl step s) := by
  induction n with
  | zero => exact h0
  | succ n ih =>
    rw [foldl_range_succ]
    exact hstep n n.lt_succ_self _ (ih fun k hk => hstep k (Nat.lt_succ_of_lt hk))

/-- Round `k` does `f k` to place `k`, and nothing to the other places. -/
theorem foldl_range_places {view : S → ℕ → V} {f : ℕ → V → V}
    (hown : ∀ s k, view (step s k) k = f k (view s k))
    (hother : ∀ s k i, i ≠ k → view (step s k) i = view s i) (i : ℕ) :
    view ((List.range n).foldl step s) i = if i < n then f i (view s i) else view s i := by
  induction n with
  | zero => rfl
  | succ n ih =>
    rw [foldl_range_succ]
    rcases eq_or_ne i n with rfl | hne
    · rw [hown, ih, if_neg (Nat.lt_irrefl i), if_pos i.lt_succ_self]
    · rw [hother _ _ _ hne, ih]
      exact if_congr (by omega) rfl rfl

section List

variable {α β : Type*} {f : S → β → S} {ks : List β} {j : β}

theorem foldl_eq_self (h : ∀ k ∈ ks, f s k = s) : ks.foldl f s = s := by
  induction ks with
  | nil => rfl
  | cons k ks ih =>
    rw [List.foldl_cons, h k List.mem_cons_self]
    exact ih fun i hi => h i (List.mem_cons_of_mem _ hi)

/-- Only round `j` does anything. -/
theorem foldl_eq_of_unique (hnodup : ks.Nodup) (hj : j ∈ ks)
    (hbefore : ∀ k ∈ ks, k ≠ j → f s k = s)
    (hafter : ∀ k ∈ ks, k ≠ j → f (f s j) k = f s j) : ks.foldl f s = f s j := by
  obtain ⟨as, bs, rfl⟩ := List.append_of_mem hj
  have hnot : j ∉ as ++ bs := (List.nodup_cons.1 (List.nodup_middle.1 hnodup)).1
  have hne {k : β} (hk : k ∈ as ++ bs) : k ≠ j := by
    rintro rfl
    exact hnot hk
  rw [List.foldl_append, List.foldl_cons]
  have has : as.foldl f s = s := foldl_eq_self fun k hk =>
    hbefore k (List.mem_append_left _ hk) (hne (List.mem_append_left _ hk))
  have hbs : bs.foldl f (f s j) = f s j := foldl_eq_self fun k hk =>
    hafter k (List.mem_append_right _ (List.mem_cons_of_mem _ hk))
      (hne (List.mem_append_right _ hk))
  rw [has, hbs]

/-- Every round changes all elements of a list. -/
theorem foldl_map_eq (f : α → β → α) (ks : List β) (l : List α) :
    ks.foldl (fun l k => l.map fun a => f a k) l = l.map fun a => ks.foldl f a := by
  induction ks generalizing l with
  | nil => exact (List.map_id l).symm
  | cons k ks ih =>
    rw [List.foldl_cons, ih, List.map_map]
    rfl

end List

end Msm8909w
