import Mathlib.Logic.Relation

/-!
# Command programs, their runs and their crash states

A `Prog C R α` is a program that talks to its environment through commands `c : C`, receives a
reply of type `R c` to each of them, and finally returns a value of type `α`.  A `Machine` is an
executable environment.  Running a program on a machine passes through a list of states
(`Prog.visits`), one before each command and one at the end; a crash leaves one of them behind.

A part of the state is *durable* (`dur : S → D`), the rest is lost at a crash.

## Main definitions

* `Prog.run`, `Prog.visits` : the run of a program and the states it passes through.
* `Prog.Spec M dur p d I Q` : started on durable data `d`, whatever the volatile state, every
  state `p` visits satisfies `I` and its result satisfies `Q`.
* `Prog.Interrupt M dur p d d'` : a run of `p` started on `d` can be cut off leaving `d'`.

`Prog.spec_ret`, `Prog.spec_bind`, `Prog.spec_cmd` and `Prog.Spec.mono` are the proof rules,
`Prog.Spec.interrupt` and `Prog.Spec.result` the ways to use a specification.
-/

namespace Msm8909w

universe u v w

/-- A program issuing commands `C` with replies `R`. -/
inductive Prog (C : Type u) (R : C → Type v) (α : Type w) where
  /-- Return a value. -/
  | ret (a : α)
  /-- Issue a command and continue with its reply. -/
  | cmd (c : C) (k : R c → Prog C R α)

/-- An executable environment: a state and a reply to every command. -/
structure Machine (S : Type w) (C : Type u) (R : C → Type v) where
  /-- The reply to a command, and the state after it. -/
  exec : S → (c : C) → R c × S

namespace Prog

variable {C : Type u} {R : C → Type v} {α β S D : Type w}

/-- Sequential composition. -/
def bind : Prog C R α → (α → Prog C R β) → Prog C R β
  | ret a, f => f a
  | cmd c k, f => cmd c fun r => (k r).bind f

instance : Monad (Prog C R) where
  pure := ret
  bind := bind

/-- The program that issues one command. -/
def issue {R : C → Type w} (c : C) : Prog C R (R c) := cmd c ret

/-! ### Runs -/

section

variable (M : Machine S C R)

/-- The result of a complete run and the state it ends in. -/
def run : Prog C R α → S → α × S
  | ret a, s => (a, s)
  | cmd c k, s => (k (M.exec s c).1).run (M.exec s c).2

/-- The states a complete run passes through. -/
def visits : Prog C R α → S → List S
  | ret _, s => [s]
  | cmd c k, s => s :: (k (M.exec s c).1).visits (M.exec s c).2

end

variable {M : Machine S C R}

theorem run_bind (p : Prog C R α) (f : α → Prog C R β) (s : S) :
    (p >>= f).run M s = (f (p.run M s).1).run M (p.run M s).2 := by
  induction p generalizing s with
  | ret a => rfl
  | cmd c k ih => exact ih (M.exec s c).1 (M.exec s c).2

/-- The states of a sequential composition are those of its parts. -/
theorem mem_visits_bind {p : Prog C R α} {f : α → Prog C R β} {s t : S}
    (h : t ∈ (p >>= f).visits M s) :
    t ∈ p.visits M s ∨ t ∈ (f (p.run M s).1).visits M (p.run M s).2 := by
  induction p generalizing s with
  | ret a => exact .inr h
  | cmd c k ih =>
    rcases List.mem_cons.1 h with rfl | h
    · exact .inl List.mem_cons_self
    · exact (ih (M.exec s c).1 h).imp_left (List.mem_cons_of_mem _)

/-! ### Crash specifications -/

section

variable (M : Machine S C R) (dur : S → D)

/-- Started on the durable data `d`, whatever the volatile state, `p` only visits states whose
durable data satisfies `I`, and it ends with a result and durable data satisfying `Q`. -/
def Spec (p : Prog C R α) (d : D) (I : D → Prop) (Q : α → D → Prop) : Prop :=
  ∀ s, dur s = d → (∀ t ∈ p.visits M s, I (dur t)) ∧ Q (p.run M s).1 (dur (p.run M s).2)

/-- A run of `p` started on `d` can be cut off leaving `d'`. -/
def Interrupt (p : Prog C R α) (d d' : D) : Prop :=
  ∃ s, dur s = d ∧ ∃ t ∈ p.visits M s, dur t = d'

end

variable {dur : S → D} {p : Prog C R α} {d d' : D} {I : D → Prop} {Q : α → D → Prop}

theorem spec_ret {a : α} (hI : I d) (hQ : Q a d) : (ret a : Prog C R α).Spec M dur d I Q := by
  rintro s rfl
  exact ⟨fun t ht => by rwa [List.mem_singleton.1 ht], hQ⟩

theorem Spec.mono {I' : D → Prop} {Q' : α → D → Prop} (h : p.Spec M dur d I Q)
    (hI : ∀ d, I d → I' d) (hQ : ∀ a d, Q a d → Q' a d) : p.Spec M dur d I' Q' :=
  fun s hs => ⟨fun t ht => hI _ ((h s hs).1 t ht), hQ _ _ (h s hs).2⟩

/-- The rule for sequential composition. -/
theorem spec_bind {f : α → Prog C R β} {Q' : β → D → Prop} (hp : p.Spec M dur d I Q)
    (hf : ∀ a d', Q a d' → (f a).Spec M dur d' I Q') : (p >>= f).Spec M dur d I Q' := by
  intro s hs
  obtain ⟨hI, hQ⟩ := hp s hs
  obtain ⟨hI', hQ'⟩ := hf _ _ hQ _ rfl
  refine ⟨fun t ht => ?_, ?_⟩
  · rcases mem_visits_bind ht with ht | ht
    · exact hI t ht
    · exact hI' t ht
  · rw [run_bind]; exact hQ'

/-- The rule for one command: what it replies and what it leaves on the durable data. -/
theorem spec_cmd {c : C} {k : R c → Prog C R α} {P : R c → D → Prop} (hI : I d)
    (hc : ∀ s, dur s = d → P (M.exec s c).1 (dur (M.exec s c).2))
    (hk : ∀ r d', P r d' → (k r).Spec M dur d' I Q) : (cmd c k).Spec M dur d I Q := by
  intro s hs
  obtain ⟨hI', hQ⟩ := hk _ _ (hc s hs) _ rfl
  refine ⟨fun t ht => ?_, hQ⟩
  rcases List.mem_cons.1 ht with rfl | ht
  · rwa [hs]
  · exact hI' t ht

/-- Every state a cut-off run leaves satisfies the crash condition. -/
theorem Spec.interrupt (h : p.Spec M dur d I Q) (hc : p.Interrupt M dur d d') : I d' := by
  obtain ⟨s, hs, t, ht, rfl⟩ := hc
  exact (h s hs).1 t ht

theorem Spec.result (h : p.Spec M dur d I Q) {s : S} (hs : dur s = d) :
    Q (p.run M s).1 (dur (p.run M s).2) :=
  (h s hs).2

theorem run_mem_visits (p : Prog C R α) (s : S) : (p.run M s).2 ∈ p.visits M s := by
  induction p generalizing s with
  | ret a => exact List.mem_cons_self
  | cmd c k ih => exact List.mem_cons_of_mem _ (ih _ _)

/-- The end of a run is one of the states it visits. -/
theorem Spec.keep (h : p.Spec M dur d I Q) : p.Spec M dur d I fun a d' => I d' ∧ Q a d' :=
  fun s hs => ⟨(h s hs).1, (h s hs).1 _ (run_mem_visits p s), (h s hs).2⟩

end Prog

end Msm8909w
