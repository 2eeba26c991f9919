import Mathlib.Logic.Relation
import Mathlib.Data.List.Induction

/-!
# Runs of a guarded step function

A system is a partial step function `step : S → A → Option S`; `none` means that the action cannot
be taken.  `Run step G s as t` says that the actions `as` lead from `s` to `t`, each of them taken
in a state in which the condition `G` holds of it; with the condition `fun _ _ => True` these are
all runs.

* `Run.invariant` : what holds at the start and is preserved by every step holds at the end,
* `Run.length_le` : a measure that every step decreases bounds the length of every run,
* `Run.append`, `Run.mono` : runs one after the other, and under a weaker condition,
* `Run.mono_of_invariant` : the same for a condition that only holds together with an invariant,
* `Run.log_eq` : what the steps add to a log, over a whole run,
* `exec`, `run_of_exec`, `exists_run_of_exec` : runs by evaluation,
* `always_history_iff`, `always_iff` : for a step function that is defined everywhere, when a
  property is never lost,
* `kept`, `foldl_kept` : a run without the actions that change nothing.
-/

namespace Msm8909w

variable {S A : Type*} {step : S → A → Option S} {G G' : S → A → Prop} {s t u : S} {as bs : List A}

/-- The actions `as` lead from the first state to the second, under the condition `G`. -/
inductive Run (step : S → A → Option S) (G : S → A → Prop) : S → List A → S → Prop
  | nil (s : S) : Run step G s [] s
  | cons {s t u : S} {a : A} {as : List A} (hG : G s a) (hstep : step s a = some t)
      (h : Run step G t as u) : Run step G s (a :: as) u

namespace Run

/-- A property that holds at the start and is preserved by every step holds at the end. -/
theorem invariant {I : S → Prop} (h : Run step G s as t) (h0 : I s)
    (hstep : ∀ s a t, G s a → I s → step s a = some t → I t) : I t := by
  induction h with
  | nil s => exact h0
  | cons hG hs _ ih => exact ih (hstep _ _ _ hG h0 hs)

/-- A measure that every step decreases bounds the number of steps. -/
theorem length_le {I : S → Prop} {μ : S → ℕ} (h : Run step G s as t) (h0 : I s)
    (hstep : ∀ s a t, G s a → I s → step s a = some t → I t)
    (hμ : ∀ s a t, G s a → I s → step s a = some t → μ t < μ s) : as.length + μ t ≤ μ s := by
  induction h with
  | nil s => exact Nat.le_of_eq (Nat.zero_add _)
  | cons hG hs _ ih =>
    have hle := ih (hstep _ _ _ hG h0 hs)
    have hlt := hμ _ _ _ hG h0 hs
    rw [List.length_cons]
    omega

/-- A run keeps to every condition that an invariant of it gives. -/
theorem mono_of_invariant {I : S → Prop} (h : Run step G s as t) (h0 : I s)
    (hstep : ∀ s a t, G s a → I s → step s a = some t → I t)
    (hG : ∀ s a, G s a → I s → G' s a) : Run step G' s as t := by
  induction h with
  | nil s => exact .nil s
  | cons hg hs _ ih => exact .cons (hG _ _ hg h0) hs (ih (hstep _ _ _ hg h0 hs))

theorem append (h : Run step G s as t) (h' : Run step G t bs u) : Run step G s (as ++ bs) u := by
  induction h with
  | nil s => exact h'
  | cons hG hs _ ih => exact .cons hG hs (ih h')

theorem mono (h : Run step G s as t) (hG : ∀ s a, G s a → G' s a) : Run step G' s as t := by
  induction h with
  | nil s => exact .nil s
  | cons hg hs _ ih => exact .cons (hG _ _ hg) hs ih

/-- A log to which every step appends what it adds. -/
theorem log_eq {β : Type*} (log : S → List β) {f : A → Option β} (h : Run step G s as t)
    (hstep : ∀ s a t, step s a = some t → log t = log s ++ (f a).toList) :
    log t = log s ++ as.filterMap f := by
  induction h with
  | nil s => rw [List.filterMap_nil, List.append_nil]
  | @cons s t u a as _ hs _ ih =>
    rw [ih, hstep s a t hs, List.append_assoc]
    cases ha : f a with
    | none => rw [List.filterMap_cons_none ha, Option.toList_none, List.nil_append]
    | some b => rw [List.filterMap_cons_some ha, Option.toList_some, List.singleton_append]

end Run

/-- Take the actions one after the other, as long as the condition holds. -/
def exec (step : S → A → Option S) (G : S → A → Prop) [∀ s a, Decidable (G s a)] :
    S → List A → Option S
  | s, [] => some s
  | s, a :: as => if G s a then (step s a).bind fun t => exec step G t as else none

theorem run_of_exec [∀ s a, Decidable (G s a)] (h : exec step G s as = some t) :
    Run step G s as t := by
  induction as generalizing s with
  | nil =>
    obtain rfl := Option.some.inj h
    exact .nil s
  | cons a as ih =>
    rw [exec] at h
    split_ifs at h with hG
    obtain ⟨u, hu, h⟩ := Option.bind_eq_some_iff.1 h
    exact .cons hG hu (ih h)

/-- A run by evaluation of what is to be known of its end. -/
theorem exists_run_of_exec {β : Type*} {f : S → β} {b : β} [∀ s a, Decidable (G s a)]
    (h : (exec step G s as).map f = some b) : ∃ t, Run step G s as t ∧ f t = b := by
  obtain ⟨t, ht, hb⟩ := Option.map_eq_some_iff.1 h
  exact ⟨t, run_of_exec ht, hb⟩

/-! ### Step functions that are defined everywhere -/

/-- A property of states and of what led there that a step keeps exactly if the condition holds of
it is there after every part of a run exactly if the condition holds of every step. -/
theorem always_history_iff {step : S → A → S} {P : S → List A → Prop} {C : S → List A → A → Prop}
    (h0 : P s []) (hstep : ∀ s h a, P s h → (P (step s a) (h ++ [a]) ↔ C s h a)) (as : List A) :
    (∀ pre, pre <+: as → P (pre.foldl step s) pre) ↔
      ∀ pre a, pre ++ [a] <+: as → C (pre.foldl step s) pre a := by
  induction as using List.reverseRecOn with
  | nil =>
    constructor
    · intro _ pre a hpre
      simp at hpre
    · intro _ pre hpre
      rw [List.prefix_nil.1 hpre]
      exact h0
  | append_singleton as b ih =>
    have hlast : P (as.foldl step s) as →
        (P ((as ++ [b]).foldl step s) (as ++ [b]) ↔ C (as.foldl step s) as b) := by
      intro h
      rw [List.foldl_append]
      exact hstep _ _ _ h
    constructor
    · intro h pre a hpre
      have hbefore : ∀ pre, pre <+: as → P (pre.foldl step s) pre :=
        fun pre hpre => h pre (hpre.trans (List.prefix_append as [b]))
      rcases List.prefix_concat_iff.1 hpre with heq | hpre
      · obtain ⟨rfl, rfl⟩ := List.append_singleton_inj.1 heq
        exact (hlast (hbefore pre List.prefix_rfl)).1 (h _ List.prefix_rfl)
      · exact ih.1 hbefore pre a hpre
    · intro h pre hpre
      have hbefore := ih.2 fun pre a hpre => h pre a (hpre.trans (List.prefix_append as [b]))
      rcases List.prefix_concat_iff.1 hpre with rfl | hpre
      · exact (hlast (hbefore as List.prefix_rfl)).2 (h as b List.prefix_rfl)
      · exact hbefore pre hpre

/-- The same for a property of states alone. -/
theorem always_iff {step : S → A → S} {P : S → Prop} (h0 : P s)
    (hstep : ∀ s a, P s → (P (step s a) ↔ G s a)) (as : List A) :
    (∀ pre, pre <+: as → P (pre.foldl step s)) ↔
      ∀ pre a, pre ++ [a] <+: as → G (pre.foldl step s) a :=
  always_history_iff (P := fun s _ => P s) (C := fun s _ a => G s a) h0 (fun s _ a => hstep s a) as

/-- The actions of a run without those that `drop` picks, each in its state. -/
def kept (step : S → A → S) (drop : S → A → Bool) : S → List A → List A
  | _, [] => []
  | s, a :: as => if drop s a then kept step drop (step s a) as
      else a :: kept step drop (step s a) as

/-- Without actions that change nothing a run leads to the same state. -/
theorem foldl_kept {step : S → A → S} {drop : S → A → Bool}
    (h : ∀ pre a, pre ++ [a] <+: as → drop (pre.foldl step s) a = true →
      step (pre.foldl step s) a = pre.foldl step s) :
    (kept step drop s as).foldl step s = as.foldl step s := by
  induction as generalizing s with
  | nil => rfl
  | cons a as ih =>
    have hrest :=
      ih (s := step s a) fun pre b hpre => h (a :: pre) b (List.cons_prefix_cons.2 ⟨rfl, hpre⟩)
    rw [kept, List.foldl_cons, ← hrest]
    split_ifs with hdrop
    · have hsame : step s a = s := h [] a (List.cons_prefix_cons.2 ⟨rfl, List.nil_prefix⟩) hdrop
      rw [hsame]
    · rfl

end Msm8909w
