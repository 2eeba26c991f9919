import Msm8909w.Lib.Fallible
import Msm8909w.Lib.Trees
import Msm8909w.Ftp.FtpObexServer

/-!
# Deleting a directory

`FileUtils.deleteDirectory`, step by step: the directory is listed, then each of its entries is
deleted, then the directory itself.  The results of the deletions inside are ignored, and so are the
results of the recursive calls; what counts in the end is whether the directory can be deleted.

`deleteDirectory` of `FileUtils.lean` computes what is left of a tree.  Here each call goes to the
file system as it is at that moment, and the file system may refuse any of them; a directory with
something in it cannot be deleted.  The recursion is bounded by `fuel`.

* `Deleting.deleteDirectory` : the code,
* `Deleting.exists_deleteDirectory` : the calls come to an end, and leave what `deleteDirectory`
  computes,
* `Deleting.deletes_only` : the result is true if and only if nothing of the directory remains, the
  rest is unchanged, and the messages are about files of the directory,
* `Server.deleteFile_dir` : the reply to a request that deletes a directory.
-/

namespace Msm8909w

namespace Ftp

open Map (JString js)

namespace Deleting

/-- The tree of files; no two files of a directory have one name. -/
structure FileSystem where
  root : Option (Node JString)
  distinct : ∀ node ∈ root, node.Distinct

namespace FileSystem

/-- The file system with these files and directories in its root. -/
def ofEntries (entries : Entries JString) (h : entries.Distinct) : FileSystem where
  root := some (.dir entries)
  distinct := by
    intro node hnode
    obtain rfl := Option.some.inj hnode
    exact h

/-- The file or directory at a place. -/
def find (fs : FileSystem) (p : Place) : Option (Node JString) := findIn fs.root p

/-- Whether there is a file or a directory at a place. -/
def kind (fs : FileSystem) (p : Place) : Option Kind := (fs.find p).map Node.kind

/-- Take away what is at a place. -/
def remove (fs : FileSystem) (p : Place) : FileSystem where
  root := fs.root.bind (Node.replace none p)
  distinct := Distinct.replace (v := none) fs.distinct nofun p

end FileSystem

structure State where
  fs : FileSystem
  accesses : List Access := []
  /-- The files of the messages `MSG_FILE_DELETED`. -/
  messages : List Place := []

/-! ### The code -/

/-- `isDirectory`. -/
def State.isDirectory (s : State) (file : Place) : Bool := s.fs.kind file = some .dir

/-- `listFiles`. -/
def State.listFiles (refused : Access → Bool) (s : State) (dir : Place) :
    Option (List Place × State) :=
  match s.fs.find dir with
  | some (.dir entries) =>
    if refused ⟨.list, dir⟩ then none
    else some (entries.names.map fun name => dir ++ [name],
      { s with accesses := s.accesses ++ [⟨.list, dir⟩] })
  | _ => none

/-- `delete`, which also deletes an empty directory. -/
def State.delete (refused : Access → Bool) (s : State) (file : Place) : Bool × State :=
  if (s.fs.find file = some .file ∨ s.fs.find file = some (.dir .nil)) ∧
      refused ⟨.delete, file⟩ = false then
    (true, { s with fs := s.fs.remove file, accesses := s.accesses ++ [⟨.delete, file⟩] })
  else (false, s)

/-- `sendMessage` with `MSG_FILE_DELETED`. -/
def State.sendMessage (s : State) (file : Place) : State :=
  { s with messages := s.messages ++ [file] }

/-- A turn of the loop of `deleteDirectory`, which is called for a directory. -/
def deleteEntry (refused : Access → Bool)
    (deleteDirectory : State → Place → Option (Bool × State)) (s : State) (file : Place) :
    Option State :=
  if s.isDirectory file then (deleteDirectory s file).map Prod.snd
  else some ((s.delete refused file).2.sendMessage file)

/-- `deleteDirectory`; `none` if the recursion goes further down than `fuel`. -/
def deleteDirectory (refused : Access → Bool) : ℕ → State → Place → Option (Bool × State)
  | 0, _, _ => none
  | fuel + 1, s, dir =>
    if s.fs.find dir ≠ none then
      match s.listFiles refused dir with
      | none => some (false, s)
      | some (files, s) =>
        (files.foldlM (deleteEntry refused (deleteDirectory refused fuel)) s).map fun s =>
          s.delete refused dir
    else some (s.delete refused dir)

/-! ### What is left -/

/-- What is left of a file or a directory at a place, and what has been done. -/
def deleteNode (refused : Access → Bool) (p : Place) :
    Node JString → Option (Node JString) × List Access
  | .file => if refused ⟨.delete, p⟩ then (some .file, []) else (none, [⟨.delete, p⟩])
  | .dir entries =>
    ((Ftp.deleteDirectory refused p entries).1.map .dir, (Ftp.deleteDirectory refused p entries).2)

/-- From `s` to `s'` only what is at the place has changed, where there was `node`: `left` is left
of it. -/
structure Leaves (s s' : State) (p : Place) (node : Node JString)
    (left : Option (Node JString) × List Access) : Prop where
  root : s'.fs.root = s.fs.root.bind (Node.replace left.1 p)
  accesses : s'.accesses = s.accesses ++ left.2
  messages : ∃ files, s'.messages = s.messages ++ files ∧
    ∀ file ∈ files, ∃ q, file = p ++ q ∧ findIn (some node) q = some .file

variable {refused : Access → Bool} {s s' : State} {dir p : Place} {name : JString}
  {entries done rest : Entries JString} {node : Node JString}

theorem deleteEntries_cons : deleteEntries refused dir (.cons name node rest) =
    ((deleteNode refused (dir ++ [name]) node).1.elim (deleteEntries refused dir rest).1
      fun node => .cons name node (deleteEntries refused dir rest).1,
     (deleteNode refused (dir ++ [name]) node).2 ++ (deleteEntries refused dir rest).2) := by
  cases node with
  | file =>
    rw [Entries.cons, deleteEntries, deleteNode]
    split_ifs <;> rfl
  | dir entries =>
    rw [Entries.cons, deleteEntries, deleteNode, Ftp.deleteDirectory]
    simp only
    split
    · next inside heq =>
      rw [heq]
      rfl
    · next left inside heq =>
      rw [heq]
      rfl

/-! ### One entry -/

/-- The name of an entry is not one of the others. -/
theorem notMem_of_find (h : s.fs.find dir = some (.dir (done.append (.cons name node rest)))) :
    name ∉ done.names ∧ name ∉ rest.names := by
  have hdistinct : (done.append (.cons name node rest)).Distinct :=
    Node.Distinct.findIn s.fs.distinct h
  have hnodup := hdistinct.nodup
  rw [Entries.names_append, Entries.names_cons] at hnodup
  obtain ⟨-, hrest, hdisjoint⟩ := List.nodup_append'.1 hnodup
  exact ⟨fun hin => hdisjoint hin List.mem_cons_self, (List.nodup_cons.1 hrest).1⟩

theorem find_entry (h : s.fs.find dir = some (.dir (done.append (.cons name node rest)))) :
    s.fs.find (dir ++ [name]) = some node := by
  rw [FileSystem.find, findIn_concat h, Entries.lookup_append (notMem_of_find h).1,
    Entries.lookup_cons, if_pos rfl]

/-- What the directory looks like behind the turn of an entry. -/
theorem root_of_entry {left : Option (Node JString)}
    (h : s.fs.find dir = some (.dir (done.append (.cons name node rest))))
    (hroot : s'.fs.root = s.fs.root.bind (Node.replace left (dir ++ [name]))) :
    s'.fs.root = s.fs.root.bind (Node.replace (some (.dir (done.append
      (left.elim rest fun node => .cons name node rest)))) dir) := by
  rw [hroot, replace_concat h, Entries.alter_append (notMem_of_find h).1, Entries.alter_cons,
    if_pos rfl]

theorem find_of_root {v : Option (Node JString)} (h : s.fs.find dir = some node)
    (hroot : s'.fs.root = s.fs.root.bind (Node.replace v dir)) : s'.fs.find dir = v := by
  rw [FileSystem.find, hroot]
  refine findIn_replace s.fs.distinct ?_
  rw [← FileSystem.find, h]
  exact Option.some_ne_none node

/-- A file: it is deleted unless that is refused, and the message is sent in any case. -/
theorem leaves_file (h : s.fs.find p = some .file) :
    Leaves s ((s.delete refused p).2.sendMessage p) p .file (deleteNode refused p .file) := by
  have hmessages : ∀ t : State, t.messages = s.messages →
      ∃ files, (t.sendMessage p).messages = s.messages ++ files ∧
        ∀ file ∈ files, ∃ q, file = p ++ q ∧ findIn (some Node.file) q = some .file := by
    intro t ht
    refine ⟨[p], by rw [State.sendMessage, ht], fun file hfile => ⟨[], ?_, findIn_nil _⟩⟩
    rw [List.mem_singleton.1 hfile, List.append_nil]
  cases hrefused : refused ⟨.delete, p⟩ with
  | true =>
    have hdelete : s.delete refused p = (false, s) := by
      rw [State.delete, if_neg (by simp [hrefused])]
    rw [hdelete, deleteNode, if_pos hrefused]
    exact ⟨(replace_self h).symm, (List.append_nil _).symm, hmessages s rfl⟩
  | false =>
    have hdelete : s.delete refused p = (true, { s with
        fs := s.fs.remove p, accesses := s.accesses ++ [⟨.delete, p⟩] }) := by
      rw [State.delete, if_pos ⟨.inl h, hrefused⟩]
    rw [hdelete, deleteNode, if_neg (by simp [hrefused])]
    exact ⟨rfl, rfl, hmessages _ rfl⟩

/-! ### The loop -/

/-- The loop over the entries `rest`, behind what `done` is left of those before them. -/
def Loops (refused : Access → Bool) (fuel : ℕ) (dir : Place) (rest : Entries JString) : Prop :=
  ∀ (s : State) (done : Entries JString), s.fs.find dir = some (.dir (done.append rest)) →
    ∃ s', (rest.names.map fun name => dir ++ [name]).foldlM
        (deleteEntry refused (deleteDirectory refused fuel)) s = some s' ∧
      Leaves s s' dir (.dir rest) (some (.dir (done.append (deleteEntries refused dir rest).1)),
        (deleteEntries refused dir rest).2)

/-- A turn of the loop, and the turns behind it. -/
theorem loops_cons {fuel : ℕ}
    (hentry : ∀ s : State, s.fs.find (dir ++ [name]) = some node →
      ∃ t, deleteEntry refused (deleteDirectory refused fuel) s (dir ++ [name]) = some t ∧
        Leaves s t (dir ++ [name]) node (deleteNode refused (dir ++ [name]) node))
    (hrest : Loops refused fuel dir rest) : Loops refused fuel dir (.cons name node rest) := by
  intro s done h
  obtain ⟨t, ht, hleaves⟩ := hentry s (find_entry h)
  have hroot := root_of_entry h hleaves.root
  rw [Entries.names_cons, List.map_cons, List.foldlM_cons, ht, deleteEntries_cons]
  -- what is left of the entry is behind `done` in the directory
  obtain ⟨done', hdone, hbehind⟩ : ∃ done' : Entries JString, t.fs.find dir =
      some (.dir (done'.append rest)) ∧ ∀ others : Entries JString, done'.append others =
        done.append ((deleteNode refused (dir ++ [name]) node).1.elim others
          fun node => .cons name node others) := by
    have hdir := find_of_root h hroot
    cases hleft : (deleteNode refused (dir ++ [name]) node).1 with
    | none =>
      rw [hleft] at hdir
      exact ⟨done, hdir, fun others => rfl⟩
    | some left =>
      rw [hleft] at hdir
      refine ⟨done.append (.cons name left .nil), ?_, fun others => ?_⟩
      · rw [hdir, Entries.append_assoc, Entries.cons_append]
        rfl
      · rw [Entries.append_assoc, Entries.cons_append]
        rfl
  obtain ⟨s', hs', hroot', haccesses, files, hmessages, hfiles⟩ := hrest t done' hdone
  refine ⟨s', hs', ?_, ?_, ?_⟩
  · rw [hroot', hbehind, hroot, replace_replace s.fs.distinct]
  · rw [haccesses, hleaves.accesses, List.append_assoc]
  · obtain ⟨first, hfirst, hin⟩ := hleaves.messages
    refine ⟨first ++ files, by rw [hmessages, hfirst, List.append_assoc], fun file hfile => ?_⟩
    rcases List.mem_append.1 hfile with hfile | hfile
    · obtain ⟨q, rfl, hq⟩ := hin file hfile
      refine ⟨name :: q, by rw [List.append_assoc, List.singleton_append], ?_⟩
      rw [findIn_dir_cons, Entries.lookup_cons, if_pos rfl, hq]
    · obtain ⟨q, rfl, hq⟩ := hfiles file hfile
      exact ⟨q, rfl, findIn_cons_of_file (notMem_of_find h).2 hq⟩

/-! ### The directory -/

/-- A call for a directory, from the loop over its entries. -/
theorem deleteDirectory_of_loops {fuel : ℕ} (hloops : Loops refused fuel dir entries)
    (h : s.fs.find dir = some (.dir entries)) :
    ∃ s', deleteDirectory refused (fuel + 1) s dir =
        some ((deleteNode refused dir (.dir entries)).1.isNone, s') ∧
      Leaves s s' dir (.dir entries) (deleteNode refused dir (.dir entries)) := by
  have hexists : s.fs.find dir ≠ none := by
    rw [h]
    exact Option.some_ne_none _
  rw [deleteDirectory, if_pos hexists, State.listFiles, h]
  dsimp only
  by_cases hlist : refused ⟨.list, dir⟩ = true
  · have hleft : deleteNode refused dir (.dir entries) = (some (.dir entries), []) := by
      simp only [deleteNode, Ftp.deleteDirectory, deleteEmptied, if_pos hlist, Option.map_some]
    rw [if_pos hlist, hleft]
    exact ⟨s, rfl, (replace_self h).symm, (List.append_nil _).symm, [], by simp,
      List.forall_mem_nil _⟩
  · obtain ⟨t, ht, hroot, haccesses, hmessages⟩ :=
      hloops { s with accesses := s.accesses ++ [⟨.list, dir⟩] } .nil h
    rw [Entries.nil_append] at hroot
    have hfind : t.fs.find dir = some (.dir (deleteEntries refused dir entries).1) :=
      find_of_root h hroot
    simp only [if_neg hlist, ht, Option.map_some]
    by_cases hdelete : (deleteEntries refused dir entries).1 = .nil ∧ ¬ refused ⟨.delete, dir⟩
    · have hleft : deleteNode refused dir (.dir entries) =
          (none, ⟨.list, dir⟩ :: (deleteEntries refused dir entries).2 ++ [⟨.delete, dir⟩]) := by
        simp only [deleteNode, Ftp.deleteDirectory, deleteEmptied, if_neg hlist, if_pos hdelete,
          Option.map_none]
      have hempty : t.fs.find dir = some (.dir .nil) := by
        rw [hfind, hdelete.1]
      have hdone : t.delete refused dir = (true, { t with
          fs := t.fs.remove dir, accesses := t.accesses ++ [⟨.delete, dir⟩] }) := by
        rw [State.delete, if_pos ⟨.inr hempty, by simpa using hdelete.2⟩]
      rw [hdone, hleft]
      refine ⟨_, rfl, ?_, ?_, hmessages⟩
      · simp only [FileSystem.remove, hroot]
        exact replace_replace s.fs.distinct
      · simp [haccesses]
    · have hleft : deleteNode refused dir (.dir entries) =
          (some (.dir (deleteEntries refused dir entries).1),
            ⟨.list, dir⟩ :: (deleteEntries refused dir entries).2) := by
        simp only [deleteNode, Ftp.deleteDirectory, deleteEmptied, if_neg hlist, if_neg hdelete,
          Option.map_some]
      have hnot : ¬ ((t.fs.find dir = some .file ∨ t.fs.find dir = some (.dir .nil)) ∧
          refused ⟨.delete, dir⟩ = false) := by
        rw [hfind]
        rintro ⟨hfile | hempty, hrefused⟩
        · cases hfile
        · exact hdelete ⟨Node.dir.inj (Option.some.inj hempty), by simp [hrefused]⟩
      have hdone : t.delete refused dir = (false, t) := if_neg hnot
      rw [hdone, hleft]
      refine ⟨t, rfl, hroot, ?_, hmessages⟩
      simp [haccesses]

/-- The loop, by induction on the entries, one case for each kind of entry. -/
theorem loops (refused : Access → Bool) (entries : Entries JString) :
    ∀ (fuel : ℕ) (dir : Place), entries.height ≤ fuel → Loops refused fuel dir entries := by
  induction entries with
  | nil =>
    intro fuel dir _ s done h
    rw [Entries.append_nil] at h
    exact ⟨s, rfl, (replace_self h).symm.trans (by simp [deleteEntries]), (List.append_nil _).symm,
      [], by simp, nofun⟩
  | file name rest ih =>
    intro fuel dir hfuel
    change Loops refused fuel dir (.cons name .file rest)
    refine loops_cons (fun s hfind => ?_) (ih fuel dir hfuel)
    refine ⟨_, ?_, leaves_file hfind⟩
    have hdir : s.isDirectory (dir ++ [name]) = false := by
      simp [State.isDirectory, FileSystem.kind, hfind, Node.kind]
    rw [deleteEntry, hdir]
    rfl
  | dir name entries rest ihe ihr =>
    intro fuel dir hfuel
    rw [Entries.height] at hfuel
    obtain ⟨hinside, hrest⟩ := max_le_iff.1 hfuel
    obtain ⟨n, rfl⟩ : ∃ n, fuel = n + 1 := ⟨fuel - 1, by omega⟩
    change Loops refused (n + 1) dir (.cons name (.dir entries) rest)
    refine loops_cons (fun s hfind => ?_) (ihr _ dir hrest)
    obtain ⟨t, ht, hleaves⟩ := deleteDirectory_of_loops (ihe n _ (by omega)) hfind
    refine ⟨t, ?_, hleaves⟩
    have hdir : s.isDirectory (dir ++ [name]) = true := by
      simp [State.isDirectory, FileSystem.kind, hfind, Node.kind]
    rw [deleteEntry, if_pos hdir, ht]
    rfl

/-! ### The bound of the recursion -/

/-- A call that comes to an end does the same with a higher bound. -/
theorem deleteDirectory_mono {fuel : ℕ} {r : Bool × State}
    (h : deleteDirectory refused fuel s dir = some r) :
    deleteDirectory refused (fuel + 1) s dir = some r := by
  induction fuel generalizing s dir r with
  | zero => cases h
  | succ fuel ih =>
    have hentry : ∀ s file t,
        deleteEntry refused (deleteDirectory refused fuel) s file = some t →
        deleteEntry refused (deleteDirectory refused (fuel + 1)) s file = some t := by
      intro s file t ht
      rw [deleteEntry] at ht ⊢
      split_ifs at ht ⊢
      · obtain ⟨r, hr, rfl⟩ := Option.map_eq_some_iff.1 ht
        rw [ih hr]
        rfl
      · exact ht
    rw [deleteDirectory] at h ⊢
    split_ifs at h ⊢ with hexists
    · cases hlist : s.listFiles refused dir with
      | none =>
        rw [hlist] at h
        exact h
      | some listed =>
        rw [hlist] at h
        obtain ⟨t, ht, rfl⟩ := Option.map_eq_some_iff.1 h
        exact Option.map_eq_some_iff.2 ⟨t, foldlM_mono hentry ht, rfl⟩
    · exact h

theorem deleteDirectory_of_le {n fuel : ℕ} {r : Bool × State} (hle : n ≤ fuel)
    (h : deleteDirectory refused n s dir = some r) :
    deleteDirectory refused fuel s dir = some r := by
  induction fuel, hle using Nat.le_induction with
  | base => exact h
  | succ fuel _ ih => exact deleteDirectory_mono ih

/-- The calls come to an end, however much further down they might go, and leave what
`Ftp.deleteDirectory` computes. -/
theorem exists_deleteDirectory (refused : Access → Bool)
    (h : s.fs.find dir = some (.dir entries)) :
    ∃ s', (∀ fuel > entries.height, deleteDirectory refused fuel s dir =
        some ((Ftp.deleteDirectory refused dir entries).1.isNone, s')) ∧
      Leaves s s' dir (.dir entries) (deleteNode refused dir (.dir entries)) := by
  obtain ⟨s', hs', hleaves⟩ :=
    deleteDirectory_of_loops (loops refused entries entries.height dir le_rfl) h
  rw [deleteNode, Option.isNone_map] at hs'
  exact ⟨s', fun fuel hfuel => deleteDirectory_of_le hfuel hs', hleaves⟩

/-! ### Nothing else -/

/-- The result and the state behind a call for a directory: it is true if and only if nothing of the
directory remains, the rest is unchanged, and the messages are about files of the directory. -/
structure DeletesOnly (s : State) (dir : Place) (r : Bool × State) : Prop where
  result : r.1 = true ↔ ∀ p, dir <+: p → r.2.fs.kind p = none
  outside : ∀ p, ¬ dir <+: p → r.2.fs.kind p = s.fs.kind p
  messages : ∃ files, r.2.messages = s.messages ++ files ∧
    ∀ file ∈ files, dir <+: file ∧ s.fs.kind file = some .file

theorem Leaves.deletesOnly {left : Option (Node JString) × List Access}
    (h : Leaves s s' dir node left) (hdir : s.fs.find dir = some node) :
    DeletesOnly s dir (left.1.isNone, s') := by
  obtain ⟨hroot, -, files, hmessages, hfiles⟩ := h
  have hsome : findIn s.fs.root dir ≠ none := by
    rw [← FileSystem.find, hdir]
    exact Option.some_ne_none node
  have hbelow : ∀ q, s'.fs.find (dir ++ q) = findIn left.1 q := fun q => by
    rw [FileSystem.find, hroot]
    exact findIn_replace_append s.fs.distinct hsome q
  refine ⟨?_, fun p hp => ?_, files, hmessages, fun file hfile => ?_⟩
  · rw [Option.isNone_iff_eq_none]
    constructor
    · rintro hnone p ⟨q, rfl⟩
      rw [FileSystem.kind, hbelow, hnone]
      rfl
    · intro hall
      have hdir' := hall (dir ++ []) (List.prefix_append dir [])
      rw [FileSystem.kind, hbelow, findIn_nil] at hdir'
      exact Option.map_eq_none_iff.1 hdir'
  · rw [FileSystem.kind, FileSystem.find, hroot]
    exact kind_findIn_replace s.fs.distinct hp
  · obtain ⟨q, rfl, hq⟩ := hfiles file hfile
    refine ⟨List.prefix_append dir q, ?_⟩
    rw [FileSystem.kind, FileSystem.find, findIn_append, ← FileSystem.find, hdir, hq]
    rfl

/-- `/a/b` cannot be deleted, which keeps `/a`, but not `/a/f`. -/
def stubborn : State where
  fs := .ofEntries (.dir (js "a") (.file (js "f") (.dir (js "b") .nil .nil)) (.file (js "g") .nil))
    (by decide)

end Deleting

/-- The reply to a request that deletes a directory says what the result of the call was, and what
has been done. -/
theorem Server.deleteFile_dir {server : Server} {env : Env} {path : JString} {dir : Place}
    {entries : Entries JString} (hdistinct : env.fs.Distinct)
    (hnode : env.node path = some (dir, .dir entries)) (hwrite : env.canWrite path = true) :
    ∃ n r, (∀ fuel ≥ n, Deleting.deleteDirectory env.refused fuel
        ⟨.ofEntries env.fs hdistinct, [], []⟩ dir = some r) ∧
      server.deleteFile env path = ⟨server.mCurrentPath,
        if r.1 then .OBEX_HTTP_OK else .OBEX_HTTP_UNAUTHORIZED, r.2.accesses⟩ := by
  have hfind : (Deleting.FileSystem.ofEntries env.fs hdistinct).find dir = some (.dir entries) := by
    obtain ⟨p, -, hmap⟩ := Option.bind_eq_some_iff.1 hnode
    obtain ⟨node, hfind, heq⟩ := Option.map_eq_some_iff.1 hmap
    obtain ⟨rfl, rfl⟩ := Prod.mk.inj heq
    exact hfind
  obtain ⟨s', hs', hleaves⟩ :=
    Deleting.exists_deleteDirectory (s := ⟨.ofEntries env.fs hdistinct, [], []⟩) env.refused hfind
  refine ⟨entries.height + 1, _, hs', ?_⟩
  rw [hleaves.accesses, Server.deleteFile, hnode]
  simp only [hwrite, Deleting.deleteNode]
  cases hleft : deleteDirectory env.refused dir entries with
  | mk left accesses => cases left <;> rfl

end Ftp

end Msm8909w
