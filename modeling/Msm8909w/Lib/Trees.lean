import Mathlib.Data.List.Nodup
import Msm8909w.Lib.Paths

/-!
# Changes in a tree of directories

`Node.replace` puts something else in the place of a file or a directory, or nothing at all, which
takes it away.  What is found then is what was put there, at the place and below it, and what was
there before, everywhere else.

* `Entries.Distinct` : no two entries of a directory have one name,
* `findIn_replace_append`, `kind_findIn_replace` : at the place and below it, and everywhere else,
* `replace_replace`, `replace_concat` : two changes at one place, and a change one name further
  down,
* `Distinct.replace` : the names stay distinct.

The root itself may be taken away, so that a tree is an `Option (Node ν)`.
-/

namespace Msm8909w

variable {ν : Type*}

/-! ### Entries, one by one -/

namespace Entries

/-- One more entry. -/
def cons (name : ν) : Node ν → Entries ν → Entries ν
  | .file, rest => .file name rest
  | .dir entries, rest => .dir name entries rest

/-- Induction over the entries of one directory, without a look into them. -/
@[elab_as_elim]
theorem cons_induction {motive : Entries ν → Prop} (nil : motive .nil)
    (cons : ∀ name node rest, motive rest → motive (.cons name node rest)) (entries : Entries ν) :
    motive entries := by
  induction entries with
  | nil => exact nil
  | file name rest ih => exact cons name .file rest ih
  | dir name entries rest _ ih => exact cons name (.dir entries) rest ih

/-- The names in a directory. -/
def names : Entries ν → List ν
  | .nil => []
  | .file name rest => name :: rest.names
  | .dir name _ rest => name :: rest.names

/-- The entries of two parts of a directory. -/
def append : Entries ν → Entries ν → Entries ν
  | .nil, others => others
  | .file name rest, others => .file name (rest.append others)
  | .dir name entries rest, others => .dir name entries (rest.append others)

/-- Change what is under a name; `none` takes it away. -/
def alter [DecidableEq ν] (x : ν) (f : Node ν → Option (Node ν)) : Entries ν → Entries ν
  | .nil => .nil
  | .file name rest =>
    if name = x then (f .file).elim rest fun node => .cons name node rest
    else .file name (rest.alter x f)
  | .dir name entries rest =>
    if name = x then (f (.dir entries)).elim rest fun node => .cons name node rest
    else .dir name entries (rest.alter x f)

/-- No two entries of a directory have one name, here and further down. -/
def Distinct : Entries ν → Prop
  | .nil => True
  | .file name rest => name ∉ rest.names ∧ rest.Distinct
  | .dir name entries rest => name ∉ rest.names ∧ entries.Distinct ∧ rest.Distinct

instance decidableDistinct [DecidableEq ν] : (entries : Entries ν) → Decidable entries.Distinct
  | .nil => .isTrue trivial
  | .file name rest =>
    have := rest.decidableDistinct
    inferInstanceAs (Decidable (name ∉ rest.names ∧ rest.Distinct))
  | .dir name entries rest =>
    have := rest.decidableDistinct
    have := entries.decidableDistinct
    inferInstanceAs (Decidable (name ∉ rest.names ∧ entries.Distinct ∧ rest.Distinct))

/-- The number of directories below each other. -/
def height : Entries ν → ℕ
  | .nil => 0
  | .file _ rest => rest.height
  | .dir _ entries rest => max (entries.height + 1) rest.height

end Entries

def Node.Distinct : Node ν → Prop
  | .file => True
  | .dir entries => entries.Distinct

namespace Entries

variable {x y name : ν} {node : Node ν} {entries done rest others : Entries ν}

@[simp] theorem names_nil : (nil : Entries ν).names = [] := rfl

@[simp] theorem names_cons : (cons name node rest).names = name :: rest.names := by
  cases node <;> rfl

@[simp] theorem nil_append : nil.append others = others := rfl

@[simp] theorem cons_append :
    (cons name node rest).append others = cons name node (rest.append others) := by
  cases node <;> rfl

@[simp] theorem append_nil (entries : Entries ν) : entries.append nil = entries := by
  induction entries using cons_induction with
  | nil => rfl
  | cons name node rest ih => rw [cons_append, ih]

theorem append_assoc (entries done others : Entries ν) :
    (entries.append done).append others = entries.append (done.append others) := by
  induction entries using cons_induction with
  | nil => rfl
  | cons name node rest ih => rw [cons_append, cons_append, cons_append, ih]

@[simp] theorem names_append (entries others : Entries ν) :
    (entries.append others).names = entries.names ++ others.names := by
  induction entries using cons_induction with
  | nil => rfl
  | cons name node rest ih => rw [cons_append, names_cons, names_cons, ih, List.cons_append]

theorem distinct_cons :
    (cons name node rest).Distinct ↔ name ∉ rest.names ∧ node.Distinct ∧ rest.Distinct := by
  cases node with
  | file => exact and_congr_right fun _ => (and_iff_right trivial).symm
  | dir entries => exact Iff.rfl

theorem Distinct.nodup (h : entries.Distinct) : entries.names.Nodup := by
  induction entries using cons_induction with
  | nil => exact List.nodup_nil
  | cons name node rest ih =>
    rw [distinct_cons] at h
    rw [names_cons]
    exact List.nodup_cons.2 ⟨h.1, ih h.2.2⟩

variable [DecidableEq ν] {f g : Node ν → Option (Node ν)}

@[simp] theorem lookup_nil : (nil : Entries ν).lookup x = none := rfl

theorem lookup_cons :
    (cons name node rest).lookup x = if name = x then some node else rest.lookup x := by
  cases node <;> rfl

theorem alter_cons : (cons name node rest).alter x f =
    if name = x then (f node).elim rest fun node => cons name node rest
    else cons name node (rest.alter x f) := by
  cases node <;> rfl

theorem lookup_eq_none : entries.lookup x = none ↔ x ∉ entries.names := by
  induction entries using cons_induction with
  | nil => simp
  | cons name node rest ih =>
    rw [lookup_cons, names_cons, List.mem_cons, not_or]
    split_ifs with heq
    · simp [heq]
    · rw [ih, and_iff_right (Ne.symm heq)]

theorem lookup_append (h : x ∉ done.names) :
    (done.append entries).lookup x = entries.lookup x := by
  induction done using cons_induction with
  | nil => rfl
  | cons name node rest ih =>
    rw [names_cons, List.mem_cons, not_or] at h
    rw [cons_append, lookup_cons, if_neg (Ne.symm h.1), ih h.2]

theorem Distinct.lookup (h : entries.Distinct) (hx : entries.lookup x = some node) :
    node.Distinct := by
  induction entries using cons_induction with
  | nil => cases hx
  | cons name node' rest ih =>
    rw [distinct_cons] at h
    rw [lookup_cons] at hx
    split_ifs at hx
    · cases hx
      exact h.2.1
    · exact ih h.2.2 hx

theorem names_alter_sublist (x : ν) (f : Node ν → Option (Node ν)) (entries : Entries ν) :
    (entries.alter x f).names.Sublist entries.names := by
  induction entries using cons_induction with
  | nil => exact List.Sublist.refl _
  | cons name node rest ih =>
    rw [alter_cons, names_cons]
    split_ifs
    · cases f node with
      | none => exact List.sublist_cons_self name rest.names
      | some node =>
        rw [Option.elim_some, names_cons]
    · rw [names_cons]
      exact ih.cons_cons name

theorem alter_of_notMem (h : x ∉ entries.names) : entries.alter x f = entries := by
  induction entries using cons_induction with
  | nil => rfl
  | cons name node rest ih =>
    rw [names_cons, List.mem_cons, not_or] at h
    rw [alter_cons, if_neg (Ne.symm h.1), ih h.2]

theorem alter_append (h : x ∉ done.names) :
    (done.append entries).alter x f = done.append (entries.alter x f) := by
  induction done using cons_induction with
  | nil => rfl
  | cons name node rest ih =>
    rw [names_cons, List.mem_cons, not_or] at h
    rw [cons_append, alter_cons, if_neg (Ne.symm h.1), ih h.2, cons_append]

/-- Only what is under the name counts. -/
theorem alter_congr (h : ∀ node, entries.lookup x = some node → f node = g node) :
    entries.alter x f = entries.alter x g := by
  induction entries using cons_induction with
  | nil => rfl
  | cons name node rest ih =>
    rw [lookup_cons] at h
    rw [alter_cons, alter_cons]
    split_ifs at h ⊢
    · rw [h node rfl]
    · rw [ih h]

/-- Nothing changes if what is under the name is put there again. -/
theorem alter_self (h : entries.lookup x = some node) (hf : f node = some node) :
    entries.alter x f = entries := by
  induction entries using cons_induction with
  | nil => rfl
  | cons name node' rest ih =>
    rw [lookup_cons] at h
    rw [alter_cons]
    split_ifs at h ⊢ with hx
    · cases h
      rw [hf]
      rfl
    · rw [ih h]

/-- What is under the names behind a change. -/
theorem lookup_alter (h : entries.names.Nodup) :
    (entries.alter x f).lookup y = if y = x then (entries.lookup x).bind f else
      entries.lookup y := by
  induction entries using cons_induction with
  | nil => simp [alter]
  | cons name node rest ih =>
    rw [names_cons] at h
    obtain ⟨hname, hrest⟩ := List.nodup_cons.1 h
    rw [alter_cons, lookup_cons, lookup_cons]
    by_cases hx : name = x
    · subst hx
      rw [if_pos rfl, if_pos rfl, Option.bind_some]
      have hself : ∀ m : Option (Node ν), (m.elim rest fun node => cons name node rest).lookup y =
          if y = name then m else rest.lookup y := by
        intro m
        cases m with
        | none =>
          rw [Option.elim_none]
          split_ifs with hy
          · rw [hy, lookup_eq_none.2 hname]
          · rfl
        | some node =>
          rw [Option.elim_some, lookup_cons]
          simp only [eq_comm]
      rw [hself]
      by_cases hy : y = name
      · rw [if_pos hy, if_pos hy]
      · rw [if_neg hy, if_neg hy, if_neg (Ne.symm hy)]
    · rw [if_neg hx, if_neg hx, lookup_cons, ih hrest]
      by_cases hy : name = y
      · rw [if_pos hy, if_pos hy, if_neg (hy ▸ hx)]
      · rw [if_neg hy, if_neg hy]

theorem alter_alter (h : entries.names.Nodup) :
    (entries.alter x f).alter x g = entries.alter x fun node => (f node).bind g := by
  induction entries using cons_induction with
  | nil => rfl
  | cons name node rest ih =>
    rw [names_cons] at h
    obtain ⟨hname, hrest⟩ := List.nodup_cons.1 h
    rw [alter_cons, alter_cons]
    split_ifs with hx
    · subst hx
      cases f node with
      | none => exact alter_of_notMem hname
      | some node => rw [Option.elim_some, alter_cons, if_pos rfl, Option.bind_some]
    · rw [alter_cons, if_neg hx, ih hrest]

theorem Distinct.alter (h : entries.Distinct)
    (hf : ∀ node, entries.lookup x = some node → ∀ m ∈ f node, m.Distinct) :
    (entries.alter x f).Distinct := by
  induction entries using cons_induction with
  | nil => exact trivial
  | cons name node rest ih =>
    rw [distinct_cons] at h
    rw [lookup_cons] at hf
    rw [alter_cons]
    split_ifs at hf ⊢
    · cases hnode : f node with
      | none => exact h.2.2
      | some m => exact distinct_cons.2 ⟨h.1, hf node rfl m hnode, h.2.2⟩
    · have hname : name ∉ (rest.alter x f).names := fun hin =>
        h.1 ((names_alter_sublist x f rest).subset hin)
      exact distinct_cons.2 ⟨hname, h.2.1, ih h.2.2 hf⟩

end Entries

/-! ### Finding -/

/-- What is at a place in a tree. -/
def findIn [DecidableEq ν] (t : Option (Node ν)) (p : List ν) : Option (Node ν) :=
  t.bind fun node => node.find p

inductive Kind
  | file
  | dir
  deriving DecidableEq, Repr

def Node.kind : Node ν → Kind
  | .file => .file
  | .dir _ => .dir

variable [DecidableEq ν] {x : ν} {p q : List ν} {t v w : Option (Node ν)} {node : Node ν}
  {entries : Entries ν}

@[simp] theorem findIn_none (p : List ν) : findIn (none : Option (Node ν)) p = none := rfl

@[simp] theorem findIn_nil (t : Option (Node ν)) : findIn t [] = t := by
  cases t with
  | none => rfl
  | some node => cases node <;> rfl

@[simp] theorem findIn_file_cons (x : ν) (p : List ν) :
    findIn (some Node.file) (x :: p) = none := rfl

@[simp] theorem findIn_dir_cons (entries : Entries ν) (x : ν) (p : List ν) :
    findIn (some (.dir entries)) (x :: p) = findIn (entries.lookup x) p := rfl

theorem findIn_append (t : Option (Node ν)) (p q : List ν) :
    findIn t (p ++ q) = findIn (findIn t p) q := by
  induction p generalizing t with
  | nil => rw [List.nil_append, findIn_nil]
  | cons x p ih =>
    rcases t with _ | _ | entries
    · rfl
    · rfl
    · rw [List.cons_append, findIn_dir_cons, findIn_dir_cons, ih]

theorem findIn_concat (h : findIn t p = some (.dir entries)) (x : ν) :
    findIn t (p ++ [x]) = entries.lookup x := by
  rw [findIn_append, h, findIn_dir_cons, findIn_nil]

/-- One more entry of another name does not hide a file. -/
theorem findIn_cons_of_file {name : ν} (h : name ∉ entries.names)
    (hfile : findIn (some (.dir entries)) p = some .file) :
    findIn (some (.dir (.cons name node entries))) p = some .file := by
  cases p with
  | nil => cases hfile
  | cons x p =>
    rw [findIn_dir_cons] at hfile ⊢
    rw [Entries.lookup_cons, if_neg ?_, hfile]
    rintro rfl
    rw [Entries.lookup_eq_none.2 h] at hfile
    cases hfile

theorem Node.Distinct.findIn (ht : ∀ m ∈ t, m.Distinct) (h : findIn t p = some node) :
    node.Distinct := by
  induction p generalizing t with
  | nil =>
    rw [findIn_nil] at h
    exact ht node h
  | cons x p ih =>
    rcases t with _ | _ | entries
    · cases h
    · cases h
    · refine ih (fun m hm => ?_) h
      exact (ht _ rfl : entries.Distinct).lookup hm

/-! ### Replacing -/

/-- Put `v` at a place, if there is something. -/
def Node.replace (v : Option (Node ν)) : List ν → Node ν → Option (Node ν)
  | [], _ => v
  | _ :: _, .file => some .file
  | x :: p, .dir entries => some (.dir (entries.alter x (Node.replace v p)))

/-- `v` is found at the place. -/
theorem findIn_replace_append (ht : ∀ m ∈ t, m.Distinct) (h : findIn t p ≠ none) (q : List ν) :
    findIn (t.bind (Node.replace v p)) (p ++ q) = findIn v q := by
  induction p generalizing t with
  | nil =>
    rw [findIn_nil] at h
    obtain ⟨node, rfl⟩ := Option.ne_none_iff_exists'.1 h
    rfl
  | cons x p ih =>
    rcases t with _ | _ | entries
    · exact absurd rfl h
    · exact absurd rfl h
    · have hdistinct : entries.Distinct := ht _ rfl
      rw [Option.bind_some, Node.replace, List.cons_append, findIn_dir_cons,
        Entries.lookup_alter hdistinct.nodup, if_pos rfl]
      exact ih (fun m hm => hdistinct.lookup hm) h

theorem findIn_replace (ht : ∀ m ∈ t, m.Distinct) (h : findIn t p ≠ none) :
    findIn (t.bind (Node.replace v p)) p = v := by
  have hfind := findIn_replace_append (v := v) ht h []
  rwa [List.append_nil, findIn_nil] at hfind

/-- Everywhere else there is a file or a directory exactly as before. -/
theorem kind_findIn_replace (ht : ∀ m ∈ t, m.Distinct) (h : ¬ p <+: q) :
    (findIn (t.bind (Node.replace v p)) q).map Node.kind = (findIn t q).map Node.kind := by
  induction p generalizing t q with
  | nil => exact absurd List.nil_prefix h
  | cons x p ih =>
    rcases t with _ | _ | entries
    · rfl
    · rfl
    · have hdistinct : entries.Distinct := ht _ rfl
      rw [Option.bind_some, Node.replace]
      cases q with
      | nil => rfl
      | cons y q =>
        rw [findIn_dir_cons, findIn_dir_cons, Entries.lookup_alter hdistinct.nodup]
        split_ifs with hy
        · subst hy
          rw [List.cons_prefix_cons, and_iff_right rfl] at h
          exact ih (fun m hm => hdistinct.lookup hm) h
        · rfl

/-- Nothing changes if what is at the place is put there again. -/
theorem replace_self (h : findIn t p = some node) : t.bind (Node.replace (some node) p) = t := by
  induction p generalizing t with
  | nil =>
    rw [findIn_nil] at h
    rw [h]
    rfl
  | cons x p ih =>
    rcases t with _ | _ | entries
    · rfl
    · rfl
    · rw [findIn_dir_cons] at h
      cases hx : entries.lookup x with
      | none =>
        rw [hx] at h
        cases h
      | some m =>
        have hm : Node.replace (some node) p m = some m := by
          rw [hx] at h
          exact ih h
        rw [Option.bind_some, Node.replace, Entries.alter_self hx hm]

/-- Of two changes at a place the second one counts. -/
theorem replace_replace (ht : ∀ m ∈ t, m.Distinct) :
    (t.bind (Node.replace (some node) p)).bind (Node.replace v p) = t.bind (Node.replace v p) := by
  induction p generalizing t with
  | nil => cases t <;> rfl
  | cons x p ih =>
    rcases t with _ | _ | entries
    · rfl
    · rfl
    · have hdistinct : entries.Distinct := ht _ rfl
      rw [Option.bind_some, Option.bind_some, Node.replace, Option.bind_some, Node.replace,
        Node.replace, Entries.alter_alter hdistinct.nodup]
      refine congrArg (fun es => some (Node.dir es)) (Entries.alter_congr fun m hm => ?_)
      exact ih fun m' hm' => by
        obtain rfl := Option.some.inj hm'
        exact hdistinct.lookup hm

/-- A change one name further down is a change of the directory. -/
theorem replace_concat (h : findIn t p = some (.dir entries)) (x : ν) :
    t.bind (Node.replace v (p ++ [x])) =
      t.bind (Node.replace (some (.dir (entries.alter x fun _ => v))) p) := by
  induction p generalizing t with
  | nil =>
    rw [findIn_nil] at h
    rw [h]
    rfl
  | cons y p ih =>
    rcases t with _ | _ | entries'
    · rfl
    · rfl
    · rw [Option.bind_some, Option.bind_some, List.cons_append, Node.replace, Node.replace]
      refine congrArg (fun es => some (Node.dir es)) (Entries.alter_congr fun m hm => ?_)
      rw [findIn_dir_cons, hm] at h
      exact ih h

theorem Distinct.replace (ht : ∀ m ∈ t, m.Distinct) (hv : ∀ m ∈ v, m.Distinct) (p : List ν) :
    ∀ m ∈ t.bind (Node.replace v p), m.Distinct := by
  induction p generalizing t with
  | nil =>
    cases t with
    | none => exact nofun
    | some node => exact hv
  | cons x p ih =>
    rcases t with _ | _ | entries
    · exact nofun
    · intro m hm
      cases hm
      exact trivial
    · have hdistinct : entries.Distinct := ht _ rfl
      intro m hm
      obtain rfl := Option.some.inj hm
      refine Entries.Distinct.alter hdistinct fun node hnode => ?_
      refine ih (t := some node) fun m' hm' => ?_
      obtain rfl := Option.some.inj hm'
      exact hdistinct.lookup hnode

end Msm8909w
