import Msm8909w.Lib.Paths
import Msm8909w.Map.MapUtils

/-!
# Files of the FTP server

`FileUtils.java`, and the methods of `java.io.File` that the server calls.  A `File` is the text of
its path.  The file system is a tree of directories without links, and the working directory is its
root.  It is shared with the rest of the device, so that each request meets one of its own;
`refused` says what the permissions do not allow.

* `Env.place_eq` : where a path leads,
* `prefix_deleteDirectory` : what is touched in a directory that is deleted lies below it.
-/

namespace Msm8909w

namespace Ftp

open Map (JString js)

/-- `/`. -/
def slash : UInt16 := 47

/-- `.`. -/
def dot : UInt16 := 46

/-- The names that lead to a file or a directory from the root. -/
abbrev Place := List JString

/-- What is done with a file or a directory. -/
inductive Op
  | read
  | list
  | create
  | overwrite
  | delete
  deriving DecidableEq, Repr

structure Access where
  op : Op
  place : Place
  deriving DecidableEq, Repr

/-- What a request meets. -/
structure Env where
  /-- `checkMountedState`. -/
  mounted : Bool := true
  /-- The size that `checkAvailableSpace` compares with. -/
  available : ℤ := 0
  fs : Entries JString
  writable : Place → Bool := fun _ => true
  refused : Access → Bool := fun _ => false

section Files

variable {env : Env} {path : JString} {p : Place}

/-! ### `java.io.File` -/

/-- The place that a path leads to, if the directories on the way are there. -/
def Env.place (env : Env) (path : JString) : Option Place :=
  if path = [] then none else env.fs.locate dot [] (components slash path)

/-- The file or directory at a path. -/
def Env.node (env : Env) (path : JString) : Option (Place × Node JString) :=
  (env.place path).bind fun p => ((Node.dir env.fs).find p).map fun node => (p, node)

/-- `exists`. -/
def Env.doesPathExist (env : Env) (path : JString) : Bool := (env.node path).isSome

/-- `isFile`. -/
def Env.isFile (env : Env) (path : JString) : Bool :=
  match env.node path with
  | some (_, .file) => true
  | _ => false

/-- `canWrite`. -/
def Env.canWrite (env : Env) (path : JString) : Bool :=
  match env.node path with
  | some (p, _) => env.writable p
  | none => false

/-- `getName`. -/
def getName (path : JString) : JString := (components slash path).getLast?.getD []

/-- `getParentFile`. -/
def getParentFile (path : JString) : Option JString :=
  let names := components slash path
  let parent := List.intercalate [slash] names.dropLast
  if path.head? = some slash then if names = [] then none else some (slash :: parent)
  else if names.length ≤ 1 then none
  else some parent

/-- `mkdir`. -/
def Env.mkdir (env : Env) (path : JString) : Option Access :=
  match env.place path with
  | some p =>
    if ((Node.dir env.fs).find p).isSome ∨ env.refused ⟨.create, p⟩ then none else some ⟨.create, p⟩
  | none => none

/-- `listFiles`. -/
def Env.listFiles (env : Env) (path : JString) : Option Access :=
  match env.node path with
  | some (p, .dir _) => if env.refused ⟨.list, p⟩ then none else some ⟨.list, p⟩
  | _ => none

/-- `delete`, which also deletes an empty directory. -/
def Env.delete (env : Env) (path : JString) : Option Access :=
  match env.node path with
  | some (p, .file) => if env.refused ⟨.delete, p⟩ then none else some ⟨.delete, p⟩
  | some (p, .dir entries) =>
    if entries ≠ .nil ∨ env.refused ⟨.delete, p⟩ then none else some ⟨.delete, p⟩
  | none => none

/-- `new FileInputStream`. -/
def Env.openInput (env : Env) (path : JString) : Option Access :=
  match env.node path with
  | some (p, .file) => if env.refused ⟨.read, p⟩ then none else some ⟨.read, p⟩
  | _ => none

/-- `new FileOutputStream`; `deleted` says that what was there has been deleted. -/
def Env.openOutput (env : Env) (path : JString) (deleted : Bool) : Option Access :=
  match env.place path with
  | none => none
  | some p =>
    match (Node.dir env.fs).find p, deleted with
    | some .file, false => if env.refused ⟨.overwrite, p⟩ then none else some ⟨.overwrite, p⟩
    | some (.dir _), false => none
    | _, _ => if env.refused ⟨.create, p⟩ then none else some ⟨.create, p⟩

/-! ### `FileUtils` -/

/-- The length of a file fits into the free space. -/
def Env.checkAvailableSpace (env : Env) (filelength : ℤ) : Bool := !(env.available < filelength)

/-- `deleteDirectory`, behind the loop over what is in the directory: what is left of it, and what
has been done. -/
def deleteEmptied (refused : Access → Bool) (dir : Place) (entries : Entries JString)
    (emptied : Entries JString × List Access) : Option (Entries JString) × List Access :=
  if refused ⟨.list, dir⟩ then (some entries, [])
  else if emptied.1 = .nil ∧ ¬refused ⟨.delete, dir⟩ then
    (none, ⟨.list, dir⟩ :: emptied.2 ++ [⟨.delete, dir⟩])
  else (some emptied.1, ⟨.list, dir⟩ :: emptied.2)

/-- The loop of `deleteDirectory`. -/
def deleteEntries (refused : Access → Bool) (dir : Place) : Entries JString →
    Entries JString × List Access
  | .nil => (.nil, [])
  | .file name rest =>
    let (left, accesses) := deleteEntries refused dir rest
    if refused ⟨.delete, dir ++ [name]⟩ then (.file name left, accesses)
    else (left, ⟨.delete, dir ++ [name]⟩ :: accesses)
  | .dir name entries rest =>
    let (left, accesses) := deleteEntries refused dir rest
    match deleteEmptied refused (dir ++ [name])
      entries (deleteEntries refused (dir ++ [name]) entries) with
    | (none, inside) => (left, inside ++ accesses)
    | (some entries, inside) => (.dir name entries left, inside ++ accesses)

/-- `deleteDirectory`; it returns true if nothing is left. -/
def deleteDirectory (refused : Access → Bool) (dir : Place) (entries : Entries JString) :
    Option (Entries JString) × List Access :=
  deleteEmptied refused dir entries (deleteEntries refused dir entries)

/-! ### Places -/

theorem Env.place_eq (h : env.place path = some p) : p = walk dot [] (components slash path) := by
  rw [Env.place] at h
  split_ifs at h
  exact locate_eq_walk h

theorem Env.place_of_node {node : Node JString} (h : env.node path = some (p, node)) :
    env.place path = some p := by
  obtain ⟨q, hq, h⟩ := Option.bind_eq_some_iff.1 h
  obtain ⟨node', -, heq⟩ := Option.map_eq_some_iff.1 h
  rw [hq, (Prod.mk.inj heq).1]

/-- The access is at the path, or below it. -/
def Access.Below (a : Access) (path : JString) : Prop :=
  walk dot [] (components slash path) <+: a.place

variable {a : Access}

theorem Access.below_of_place {op : Op} (h : env.place path = some p) :
    (Access.mk op p).Below path := by
  rw [Access.Below, Env.place_eq h]

theorem Access.below_of_node {op : Op} {node : Node JString} (h : env.node path = some (p, node)) :
    (Access.mk op p).Below path := Access.below_of_place (Env.place_of_node h)

theorem Env.below_mkdir (h : env.mkdir path = some a) : a.Below path := by
  rw [Env.mkdir] at h
  split at h
  · next p hp =>
    split_ifs at h
    cases h
    exact Access.below_of_place hp
  · cases h

theorem Env.below_listFiles (h : env.listFiles path = some a) : a.Below path := by
  rw [Env.listFiles] at h
  split at h
  · next p entries hp =>
    split_ifs at h
    cases h
    exact Access.below_of_node hp
  · cases h

theorem Env.below_delete (h : env.delete path = some a) : a.Below path := by
  rw [Env.delete] at h
  split at h
  · next p hp =>
    split_ifs at h
    cases h
    exact Access.below_of_node hp
  · next p entries hp =>
    split_ifs at h
    cases h
    exact Access.below_of_node hp
  · cases h

theorem Env.below_openInput (h : env.openInput path = some a) : a.Below path := by
  rw [Env.openInput] at h
  split at h
  · next p hp =>
    split_ifs at h
    cases h
    exact Access.below_of_node hp
  · cases h

theorem Env.below_openOutput {deleted : Bool} (h : env.openOutput path deleted = some a) :
    a.Below path := by
  rw [Env.openOutput] at h
  split at h
  · cases h
  · next p hp =>
    split at h
    · split_ifs at h
      cases h
      exact Access.below_of_place hp
    · cases h
    · split_ifs at h
      cases h
      exact Access.below_of_place hp

/-! ### Deleting a directory -/

variable {refused : Access → Bool} {dir : Place} {entries : Entries JString}

theorem prefix_deleteEmptied {emptied : Entries JString × List Access}
    (h : ∀ a ∈ emptied.2, dir <+: a.place) :
    ∀ a ∈ (deleteEmptied refused dir entries emptied).2, dir <+: a.place := by
  have hlist : ∀ a ∈ ⟨.list, dir⟩ :: emptied.2, dir <+: a.place :=
    List.forall_mem_cons.2 ⟨List.prefix_refl dir, h⟩
  rw [deleteEmptied]
  split_ifs
  · exact nofun
  · intro a ha
    rcases List.mem_append.1 ha with ha | ha
    · exact hlist a ha
    · obtain rfl := List.mem_singleton.1 ha
      exact List.prefix_refl dir
  · exact hlist

/-- The loop stays below the directory, one case for each kind of entry. -/
theorem prefix_deleteEntries (refused : Access → Bool) (dir : Place) (entries : Entries JString) :
    ∀ a ∈ (deleteEntries refused dir entries).2, dir <+: a.place := by
  induction entries generalizing dir with
  | nil => exact nofun
  | file name rest ih =>
    rw [deleteEntries]
    simp only
    split_ifs
    · exact ih dir
    · exact List.forall_mem_cons.2 ⟨List.prefix_append dir [name], ih dir⟩
  | dir name entries rest ihe ihr =>
    have hinside : ∀ a ∈ (deleteEmptied refused (dir ++ [name]) entries
        (deleteEntries refused (dir ++ [name]) entries)).2, dir <+: a.place := fun a ha =>
      (List.prefix_append dir [name]).trans (prefix_deleteEmptied (ihe (dir ++ [name])) a ha)
    have hboth : ∀ a ∈ (deleteEmptied refused (dir ++ [name]) entries
        (deleteEntries refused (dir ++ [name]) entries)).2 ++ (deleteEntries refused dir rest).2,
        dir <+: a.place := fun a ha => (List.mem_append.1 ha).elim (hinside a) (ihr dir a)
    rw [deleteEntries]
    simp only
    split
    · next inside heq =>
      rw [heq] at hboth
      exact hboth
    · next left inside heq =>
      rw [heq] at hboth
      exact hboth

theorem prefix_deleteDirectory (refused : Access → Bool) (dir : Place) (entries : Entries JString) :
    ∀ a ∈ (deleteDirectory refused dir entries).2, dir <+: a.place :=
  prefix_deleteEmptied (prefix_deleteEntries refused dir entries)

end Files

end Ftp

end Msm8909w
