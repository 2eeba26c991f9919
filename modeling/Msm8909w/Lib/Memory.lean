import Msm8909w.Lib.Buffer
import Msm8909w.Lib.Prog

/-!
# Programs over a memory, and what they access

What a program does to its environment is the list of the commands of its run, `Prog.issued`.
`Prog.Within A` says that all of them satisfy `A`.  For a program that loads and stores
(`MemProg`), `Prog.Touches P` says that it only touches positions that satisfy `P`, for example
those of a buffer.

* `Prog.within_bind`, `Prog.within_cmd` : the rules for `Prog.Within`,
* `Prog.run_agree` : on two machines that answer the issued commands alike, a program issues the
  same commands and has the same result; what it is not told it cannot depend on,
* `touches_loadAll`, `touches_storeAll` : what copying a number of elements touches.
-/

namespace Msm8909w

universe u v w

namespace Prog

variable {C : Type u} {R : C → Type v} {α β S T : Type w} {M : Machine S C R} {s : S}
  {p : Prog C R α} {A : C → Prop}

/-- The commands of a complete run, one after another. -/
def issued (M : Machine S C R) : Prog C R α → S → List C
  | ret _, _ => []
  | cmd c k, s => c :: (k (M.exec s c).1).issued M (M.exec s c).2

theorem run_pure {x : α} : (pure x : Prog C R α).run M s = (x, s) := rfl

theorem issued_bind (p : Prog C R α) (f : α → Prog C R β) (s : S) :
    (p >>= f).issued M s = p.issued M s ++ (f (p.run M s).1).issued M (p.run M s).2 := by
  induction p generalizing s with
  | ret a => rfl
  | cmd c k ih => exact congrArg (c :: ·) (ih _ _)

/-- The commands of the run satisfy `A`. -/
def Within (M : Machine S C R) (A : C → Prop) (p : Prog C R α) (s : S) : Prop :=
  ∀ c ∈ p.issued M s, A c

instance [DecidablePred A] : Decidable (p.Within M A s) :=
  inferInstanceAs (Decidable (∀ c ∈ p.issued M s, A c))

theorem within_ret {a : α} : (ret a : Prog C R α).Within M A s := List.forall_mem_nil A

theorem within_cmd {c : C} {k : R c → Prog C R α} :
    (cmd c k).Within M A s ↔ A c ∧ (k (M.exec s c).1).Within M A (M.exec s c).2 :=
  List.forall_mem_cons

theorem within_bind {f : α → Prog C R β} : (p >>= f).Within M A s ↔
    p.Within M A s ∧ (f (p.run M s).1).Within M A (p.run M s).2 := by
  rw [Within, issued_bind, List.forall_mem_append]
  rfl

/-- A program that runs on two machines, whose states are related as long as they answer the
commands alike, does the same on both. -/
theorem run_agree {N : Machine T C R} (Rel : S → T → Prop) {t : T} (hrel : Rel s t)
    (hA : p.Within M A s)
    (hstep : ∀ c, A c → ∀ s t, Rel s t →
      (N.exec t c).1 = (M.exec s c).1 ∧ Rel (M.exec s c).2 (N.exec t c).2) :
    (p.run N t).1 = (p.run M s).1 ∧ p.issued N t = p.issued M s ∧
      Rel (p.run M s).2 (p.run N t).2 := by
  induction p generalizing s t with
  | ret a => exact ⟨rfl, rfl, hrel⟩
  | cmd c k ih =>
    obtain ⟨hc, hk⟩ := within_cmd.1 hA
    obtain ⟨hreply, hrel'⟩ := hstep c hc s t hrel
    obtain ⟨h1, h2, h3⟩ := ih _ hrel' hk
    simp only [run, issued, hreply]
    exact ⟨h1, congrArg (c :: ·) h2, h3⟩

end Prog

/-! ### Loads and stores -/

/-- An access to a memory with elements of type `β`. -/
inductive Access (β : Type) where
  /-- Read the element at position `a`. -/
  | load (a : ℕ)
  /-- Write the element at position `a`. -/
  | store (a : ℕ) (x : β)

/-- The reply to an access. -/
abbrev Access.Reply {β : Type} : Access β → Type
  | load _ => β
  | store _ _ => Unit

/-- The position of an access. -/
def Access.addr {β : Type} : Access β → ℕ
  | load a => a
  | store a _ => a

/-- Programs that load and store. -/
abbrev MemProg (β : Type) := Prog (Access β) Access.Reply

variable {β α : Type} {m : Buffer β} {P : ℕ → Prop} {a : ℕ}

/-- Read the element at position `a`. -/
def load (a : ℕ) : MemProg β β := Prog.issue (Access.load a)

/-- Write the element at position `a`. -/
def store (a : ℕ) (x : β) : MemProg β Unit := Prog.issue (Access.store a x)

/-- Read the elements at these positions. -/
def loadAll : List ℕ → MemProg β (List β)
  | [] => return []
  | a :: as => do
    let x ← load a
    let xs ← loadAll as
    return x :: xs

/-- Read the `n` elements from position `a` on. -/
def loadBlock (a n : ℕ) : MemProg β (List β) := loadAll ((List.range n).map (a + ·))

/-- Write these elements from position `a` on. -/
def storeAll (a : ℕ) : List β → MemProg β Unit
  | [] => return
  | x :: xs => do
    store a x
    storeAll (a + 1) xs

/-- The memory after an access, with the reply. -/
def Access.exec (m : Buffer β) : (c : Access β) → c.Reply × Buffer β
  | load a => (m a, m)
  | store a x => ((), m.put a [x])

/-- A memory. -/
def memory (β : Type) : Machine (Buffer β) (Access β) Access.Reply := ⟨Access.exec⟩

/-- The program only touches positions that satisfy `P`. -/
def Prog.Touches (P : ℕ → Prop) (p : MemProg β α) (m : Buffer β) : Prop :=
  p.Within (memory β) (fun c => P c.addr) m

@[simp] theorem run_load : (load a).run (memory β) m = (m a, m) := rfl

@[simp] theorem run_store {x : β} : (store a x).run (memory β) m = ((), m.put a [x]) := rfl

theorem touches_load : (load a).Touches P m ↔ P a :=
  Prog.within_cmd.trans (and_iff_left Prog.within_ret)

theorem touches_store {x : β} : (store a x).Touches P m ↔ P a :=
  Prog.within_cmd.trans (and_iff_left Prog.within_ret)

theorem touches_pure {x : α} : (pure x : MemProg β α).Touches P m := Prog.within_ret

theorem touches_bind {γ : Type} {p : MemProg β α} {f : α → MemProg β γ} : (p >>= f).Touches P m ↔
    p.Touches P m ∧ (f (p.run (memory β) m).1).Touches P (p.run (memory β) m).2 :=
  Prog.within_bind

theorem run_loadAll (as : List ℕ) (m : Buffer β) :
    (loadAll as).run (memory β) m = (as.map m, m) := by
  induction as with
  | nil => rfl
  | cons a as ih =>
    rw [loadAll, Prog.run_bind, run_load, Prog.run_bind, ih]
    rfl

theorem touches_loadAll {as : List ℕ} : (loadAll as).Touches P m ↔ ∀ a ∈ as, P a := by
  induction as with
  | nil => exact iff_of_true touches_pure (List.forall_mem_nil P)
  | cons a as ih =>
    rw [loadAll, touches_bind, touches_load, run_load, touches_bind, ih, List.forall_mem_cons,
      and_iff_left touches_pure]

theorem run_loadBlock (a n : ℕ) (m : Buffer β) :
    (loadBlock a n).run (memory β) m = (m.get a n, m) := by
  rw [loadBlock, run_loadAll, List.map_map]
  rfl

theorem touches_loadBlock {n : ℕ} : (loadBlock a n).Touches P m ↔ ∀ i < n, P (a + i) := by
  rw [loadBlock, touches_loadAll, List.forall_mem_map]
  simp only [List.mem_range]

theorem run_storeAll (xs : List β) (a : ℕ) (m : Buffer β) :
    (storeAll a xs).run (memory β) m = ((), m.put a xs) := by
  induction xs generalizing a m with
  | nil =>
    have hnil : m.put a [] = m := by
      funext i
      simp [Buffer.put]
    rw [hnil]
    rfl
  | cons x xs ih => rw [storeAll, Prog.run_bind, run_store, ih, Buffer.put_cons]

theorem touches_storeAll {xs : List β} :
    (storeAll a xs).Touches P m ↔ ∀ i < xs.length, P (a + i) := by
  induction xs generalizing a m with
  | nil => exact iff_of_true touches_pure (fun i hi => absurd hi (Nat.not_lt_zero i))
  | cons x xs ih =>
    rw [storeAll, touches_bind, touches_store, ih, List.length_cons]
    constructor
    · rintro ⟨h0, h⟩ i hi
      cases i with
      | zero => exact h0
      | succ i =>
        rw [← Nat.add_assoc, Nat.add_right_comm]
        exact h i (by omega)
    · intro h
      refine ⟨h 0 (Nat.succ_pos _), fun i hi => ?_⟩
      rw [Nat.add_right_comm]
      exact h (i + 1) (by omega)

/-! ### An array in a memory -/

/-- The memory starts with the array `p`; what follows the array is arbitrary. -/
def Buffer.Holds (m : Buffer β) (p : List β) : Prop := ∀ i < p.length, p[i]? = some (m i)

variable {p v : List β} {off len : ℕ}

theorem Buffer.Holds.getD (h : m.Holds p) (x : β) {i : ℕ} (hi : i < p.length) :
    p.getD i x = m i := by
  rw [List.getD_eq_getElem?_getD, h i hi, Option.getD_some]

theorem Buffer.Holds.get_eq (h : m.Holds p) (hle : off + len ≤ p.length) :
    m.get off len = slice p off len := by
  refine List.ext_getElem? fun i => ?_
  rw [getElem?_slice, Buffer.get, List.getElem?_map]
  split_ifs with hi
  · rw [List.getElem?_range hi, h _ (by omega)]
    rfl
  · rw [List.getElem?_eq_none (by rw [List.length_range]; omega)]
    rfl

theorem Buffer.Holds.get_length (h : m.Holds p) : m.get 0 p.length = p := by
  rw [h.get_eq (by omega), slice, List.drop_zero, List.take_length]

theorem Buffer.Holds.put (h : m.Holds p) (hle : off + v.length ≤ p.length) :
    (m.put off v).Holds (patch p off v) := by
  intro i hi
  rw [length_patch hle] at hi
  rw [getElem?_patch hle]
  split_ifs with hin
  · obtain ⟨hoff, hlt⟩ := hin
    have hv : i - off < v.length := by omega
    rw [Buffer.put, if_pos hoff, List.getD_eq_getElem _ _ hv, List.getElem?_eq_getElem hv]
  · rw [h i hi]
    rcases Nat.lt_or_ge i off with hlt | hge
    · rw [Buffer.put_apply_of_lt hlt]
    · rw [Buffer.put_apply_of_le (by omega)]

/-- Two memories that agree where a program touches them cannot be told apart by it. -/
theorem run_agree_touched {p : MemProg β α} {m' : Buffer β} (h : p.Touches P m)
    (hagree : ∀ a, P a → m' a = m a) :
    (p.run (memory β) m').1 = (p.run (memory β) m).1 ∧
      p.issued (memory β) m' = p.issued (memory β) m := by
  have hrun := Prog.run_agree (N := memory β) (fun m m' => ∀ a, P a → m' a = m a) hagree h ?_
  · exact ⟨hrun.1, hrun.2.1⟩
  · intro c hc m m' hmm
    cases c with
    | load a => exact ⟨hmm a hc, hmm⟩
    | store a x =>
      refine ⟨rfl, fun i hi => ?_⟩
      simp only [memory, Access.exec, Buffer.put, hmm i hi]

end Msm8909w
