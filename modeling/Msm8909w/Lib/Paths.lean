import Mathlib.Data.List.Infix
import Mathlib.Data.List.Basic

/-!
# Paths in a tree of directories

A path is a text whose names are separated by `sep`; the names `.` and `..` are written with `dot`.
A place in the tree is the list of the names that lead to it from the root.  `Entries.locate`
resolves a path the way an operating system does: each directory on the way has to be there.

* `locate_eq_walk` : where a path leads does not depend on the tree,
* `walk_of_stays` : names that never climb above the place they start from lead to a place below it,
* `Within.prefix_walk`, `Within.cut` : a path that is within another one,
* `textOf` : the text of names, which `splitOn` reads back; `textOf_dropLast` takes away the last
  one.
-/

namespace Msm8909w

section Paths

variable {α : Type*} [DecidableEq α] {sep dot : α}

/-- The names in a path; separators that follow on each other count as one. -/
def components (sep : α) (path : List α) : List (List α) := (path.splitOn sep).filter (· ≠ [])

/-- The place a name leads to. -/
def enter (dot : α) (place : List (List α)) (name : List α) : List (List α) :=
  if name = [dot] then place
  else if name = [dot, dot] then place.dropLast
  else place ++ [name]

/-- The place that names lead to, one after the other. -/
def walk (dot : α) (place names : List (List α)) : List (List α) := names.foldl (enter dot) place

/-- The names never climb above the place they start from, nor do they at the depth `d` below it. -/
def stays (dot : α) : ℕ → List (List α) → Bool
  | _, [] => true
  | d, name :: names =>
    if name = [dot] then stays dot d names
    else if name = [dot, dot] then 0 < d && stays dot (d - 1) names
    else stays dot (d + 1) names

/-- The path begins with `root`, and what follows on it never climbs above it. -/
def Within (sep dot : α) (root path : List α) : Prop :=
  root <+: path ∧ (∀ c ∈ (path.drop root.length).head?, c = sep) ∧
    stays dot 0 (components sep (path.drop root.length)) = true

instance (root path : List α) : Decidable (Within sep dot root path) :=
  inferInstanceAs (Decidable (_ ∧ _ ∧ _))

theorem components_append_sep (s t : List α) :
    components sep (s ++ sep :: t) = components sep s ++ components sep t := by
  rw [components, List.splitOn_append_cons_self, List.filter_append]
  rfl

theorem walk_append (place cs ds : List (List α)) :
    walk dot place (cs ++ ds) = walk dot (walk dot place cs) ds := List.foldl_append

theorem walk_of_stays {base q names : List (List α)} (h : stays dot q.length names = true) :
    base <+: walk dot (base ++ q) names := by
  induction names generalizing q with
  | nil => exact List.prefix_append base q
  | cons name names ih =>
    rw [stays] at h
    rw [walk, List.foldl_cons, enter]
    split_ifs at h ⊢ with hdot hdots
    · exact ih h
    · -- a name `..` takes away the last name below `base`
      cases q using List.reverseRecOn with
      | nil => cases h
      | append_singleton q x =>
        rw [Bool.and_eq_true, List.length_append, List.length_singleton] at h
        rw [← List.append_assoc, List.dropLast_concat]
        exact ih h.2
    · rw [List.append_assoc]
      refine ih ?_
      rw [List.length_append]
      exact h

theorem stays_of_append {d : ℕ} {cs ds : List (List α)} (h : stays dot d (cs ++ ds) = true) :
    stays dot d cs = true := by
  induction cs generalizing d with
  | nil => rfl
  | cons c cs ih =>
    rw [List.cons_append, stays] at h
    rw [stays]
    split_ifs at h ⊢ with hdot hdots
    · exact ih h
    · rw [Bool.and_eq_true] at h ⊢
      exact ⟨h.1, ih h.2⟩
    · exact ih h

/-! ### Paths within a path -/

variable {root path name : List α}

theorem within_iff : Within sep dot root path ↔ ∃ rest, path = root ++ rest ∧
    (∀ c ∈ rest.head?, c = sep) ∧
    stays dot 0 (components sep rest) = true := by
  constructor
  · rintro ⟨⟨rest, rfl⟩, hsep, hstays⟩
    rw [List.drop_left] at hsep hstays
    exact ⟨rest, rfl, hsep, hstays⟩
  · rintro ⟨rest, rfl, hsep, hstays⟩
    refine ⟨List.prefix_append root rest, ?_⟩
    rw [List.drop_left]
    exact ⟨hsep, hstays⟩

theorem Within.refl (root : List α) : Within sep dot root root :=
  within_iff.2 ⟨[], (List.append_nil root).symm, nofun, rfl⟩

/-- Such a path leads to a place below that of `root`. -/
theorem Within.prefix_walk (h : Within sep dot root path) :
    walk dot [] (components sep root) <+: walk dot [] (components sep path) := by
  obtain ⟨rest, rfl, hsep, hstays⟩ := within_iff.1 h
  cases rest with
  | nil =>
    rw [List.append_nil]
  | cons c rest =>
    obtain rfl := hsep c rfl
    have hrest : components c (c :: rest) = components c rest := components_append_sep [] rest
    rw [hrest] at hstays
    rw [components_append_sep, walk_append]
    have hprefix : walk dot [] (components c root) <+:
        walk dot (walk dot [] (components c root) ++ []) (components c rest) := walk_of_stays hstays
    rwa [List.append_nil] at hprefix

/-- The last name may be cut off, as long as it follows on `root`. -/
theorem Within.cut (h : Within sep dot root (path ++ sep :: name)) (hname : sep ∉ name)
    (hne : path ++ sep :: name ≠ root) : Within sep dot root path := by
  obtain ⟨rest, heq, hsep, hstays⟩ := within_iff.1 h
  obtain ⟨pre, rfl, hrest⟩ : ∃ pre, path = root ++ pre ∧ rest = pre ++ sep :: name := by
    rcases List.append_eq_append_iff.1 heq with ⟨pre, hroot, hrest⟩ | ⟨pre, hpath, hrest⟩
    · -- the separator is not in `root`, since one follows on it
      cases pre with
      | nil =>
        rw [List.append_nil] at hroot
        exact ⟨[], by rw [hroot, List.append_nil], hrest.symm⟩
      | cons c pre =>
        obtain ⟨-, rfl⟩ := List.cons.inj hrest
        cases rest with
        | nil =>
          rw [List.append_nil] at heq
          exact absurd heq hne
        | cons d rest =>
          rw [hsep d rfl] at hname
          exact absurd (List.mem_append_right _ List.mem_cons_self) hname
    · exact ⟨pre, hpath, hrest⟩
  rw [hrest, components_append_sep] at hstays
  refine within_iff.2 ⟨pre, rfl, fun c hc => ?_, stays_of_append hstays⟩
  refine hsep c ?_
  rw [hrest]
  cases pre with
  | nil => cases hc
  | cons d pre => exact hc

end Paths

/-! ### The text of names -/

section Texts

variable {α : Type*} {sep : α} {names : List (List α)}

/-- The names with separators between them; `none` if there is no name. -/
def textOf (sep : α) (names : List (List α)) : Option (List α) :=
  if names = [] then none else some ([sep].intercalate names)

theorem textOf_nil : textOf sep [] = none := rfl

theorem textOf_of_ne_nil (h : names ≠ []) : textOf sep names = some ([sep].intercalate names) :=
  if_neg h

/-- One more name. -/
theorem intercalate_concat (h : names ≠ []) (name : List α) :
    [sep].intercalate (names ++ [name]) = [sep].intercalate names ++ sep :: name := by
  induction names with
  | nil => exact absurd rfl h
  | cons first names ih =>
    cases names with
    | nil => simp
    | cons second names =>
      rw [List.cons_append, List.cons_append, List.intercalate_cons_cons, ← List.cons_append,
        ih (by simp), List.intercalate_cons_cons]
      simp

theorem map_intercalate {β : Type*} (g : α → β) (names : List (List α)) :
    ([sep].intercalate names).map g = [g sep].intercalate (names.map (List.map g)) := by
  induction names with
  | nil => rfl
  | cons first names ih =>
    cases names with
    | nil => simp
    | cons second names =>
      rw [List.intercalate_cons_cons, List.map_append, List.map_append, ih]
      exact List.intercalate_cons_cons.symm

/-- A word without separators in it is before a separator or behind it. -/
theorem infix_of_append_cons {w front rest : List α} (hw : sep ∉ w)
    (h : w <:+: front ++ sep :: rest) :
    w <:+: front ∨ w <:+: rest := by
  rw [List.infix_append_iff] at h
  rcases h with h | h | ⟨u, v, rfl, hu, hv⟩
  · exact .inl h
  · rcases List.infix_cons_iff.1 h with h | h
    · cases w with
      | nil => exact .inl List.nil_infix
      | cons c w =>
        rw [(List.cons_prefix_cons.1 h).1] at hw
        exact absurd List.mem_cons_self hw
    · exact .inr h
  · cases v with
    | nil => exact .inl (by simpa using hu.isInfix)
    | cons c v =>
      rw [(List.cons_prefix_cons.1 hv).1] at hw
      exact absurd (List.mem_append_right u List.mem_cons_self) hw

/-- A word without separators in it is in one of the names. -/
theorem exists_infix_of_intercalate {w : List α} (hne : names ≠ []) (hw : sep ∉ w)
    (h : w <:+: [sep].intercalate names) : ∃ name ∈ names, w <:+: name := by
  induction names with
  | nil => exact absurd rfl hne
  | cons first names ih =>
    cases names with
    | nil => exact ⟨first, List.mem_singleton_self first, by simpa using h⟩
    | cons second names =>
      rw [List.intercalate_cons_cons, List.append_assoc, List.singleton_append] at h
      rcases infix_of_append_cons hw h with hfirst | hrest
      · exact ⟨first, List.mem_cons_self, hfirst⟩
      · obtain ⟨name, hname, hin⟩ := ih (by simp) hrest
        exact ⟨name, List.mem_cons_of_mem _ hname, hin⟩

variable [DecidableEq α] {path front name : List α}

theorem splitOn_append_last (hname : sep ∉ name) :
    (front ++ sep :: name).splitOn sep = front.splitOn sep ++ [name] := by
  rw [List.splitOn_append_cons_self, List.splitOn_eq_singleton hname]

/-- The text of the names without the last one is what stands before the last separator. -/
theorem textOf_dropLast (hname : sep ∉ name) :
    textOf sep ((front ++ sep :: name).splitOn sep).dropLast = some front := by
  rw [splitOn_append_last hname, List.dropLast_concat,
    textOf_of_ne_nil (List.splitOn_ne_nil sep front), List.intercalate_splitOn]

theorem textOf_dropLast_of_notMem (h : sep ∉ path) :
    textOf sep (path.splitOn sep).dropLast = none := by
  rw [List.splitOn_eq_singleton h]
  rfl

end Texts

/-! ### Trees of directories -/

section Trees

variable {ν α : Type*}

/-- What is in a directory. -/
inductive Entries (ν : Type*)
  | nil
  | file (name : ν) (rest : Entries ν)
  | dir (name : ν) (entries rest : Entries ν)
  deriving DecidableEq

/-- A file, or a directory with what is in it. -/
inductive Node (ν : Type*)
  | file
  | dir (entries : Entries ν)
  deriving DecidableEq

/-- The entry of a name. -/
def Entries.lookup [DecidableEq ν] (x : ν) : Entries ν → Option (Node ν)
  | .nil => none
  | .file name rest => if name = x then some .file else rest.lookup x
  | .dir name entries rest => if name = x then some (.dir entries) else rest.lookup x

/-- What is at a place. -/
def Node.find [DecidableEq ν] : Node ν → List ν → Option (Node ν)
  | node, [] => some node
  | .file, _ :: _ => none
  | .dir entries, name :: place => (entries.lookup name).bind fun node => node.find place

/-- Go through the names from a place.  There has to be a directory at each place that a name is
looked up in; at the place where they lead there need not be anything. -/
def Entries.locate [DecidableEq α] (dot : α) (fs : Entries (List α)) :
    List (List α) → List (List α) → Option (List (List α))
  | place, [] => some place
  | place, name :: names =>
    match (Node.dir fs).find place with
    | some (.dir _) => fs.locate dot (enter dot place name) names
    | _ => none

theorem locate_eq_walk [DecidableEq α] {dot : α} {fs : Entries (List α)}
    {place names p : List (List α)}
    (h : fs.locate dot place names = some p) : p = walk dot place names := by
  induction names generalizing place with
  | nil => exact (Option.some.inj h).symm
  | cons name names ih =>
    rw [Entries.locate] at h
    split at h
    · exact ih h
    · cases h

end Trees

end Msm8909w
