import Msm8909w.Lib.Trees
import Msm8909w.Lib.Runs
import Msm8909w.Ftp.Upload

/-!
# A file over a session

What a client gets back of a file that it has put on the device.  A session is looked at from one
place in the storage: `Shelf` is the server with what is in the file at the place, if there is one.
The rest of the device may change the file system between two requests in any way, as long as it
leaves that file alone: there is one at the place exactly if the server has left one there.

* `Access.alter` : what an access does to the file at the place,
* `Shelf.file_of_decides` : an accepted PUT leaves its body, and an accepted DELETE nothing,
* `Shelf.file_of_undisturbed` : every request that does not lead there leaves the file as it is,
* `Shelf.getFile_session` : a GET at the end of a session sends what the last PUT has left.
-/

namespace Msm8909w

namespace Ftp

open Map (JString js Exn)

/-- The place that a path leads to. -/
def leadsTo (path : JString) : Place := walk dot [] (components slash path)

/-! ### What a request does to the file -/

/-- A request, with the body of a PUT as it arrives. -/
inductive Asked
  | setPath (headers : Option Headers) (backup create : Bool)
  | get (headers : Option Headers) (sent : Response)
  | put (headers : Option Headers) (opened : Bool) (u : Upload)
  | delete (headers : Option Headers)

namespace Asked

def request : Asked → Request
  | .setPath headers backup create => .setPath headers backup create
  | .get headers sent => .get headers sent
  | .put headers opened u => .put headers opened (u.received (extractLength headers))
  | .delete headers => .delete headers

/-- What is in a file that the request writes; SETPATH creates directories only. -/
def written : Asked → Option Bytes
  | .put headers _ u => some (u.file (extractLength headers))
  | _ => none

end Asked

/-- What is in the file at the place behind an access. -/
def Access.alter (p : Place) (written file : Option Bytes) (a : Access) : Option Bytes :=
  if a.place = p then
    match a.op with
    | .read | .list => file
    | .create | .overwrite => written
    | .delete => none
  else file

/-- The server, and what is in the file at the place, if there is one. -/
structure Shelf where
  server : Server
  file : Option Bytes

namespace Shelf

/-- A request in a session, which an exception ends. -/
def step (p : Place) (x : Shelf) (a : Env × Asked) : Option Shelf :=
  match x.server.serve a.1 a.2.request with
  | .ok reply => some
    { server := { x.server with
        mCurrentPath := reply.mCurrentPath
        touched := x.server.touched ++ reply.accesses }
      file := reply.accesses.foldl (Access.alter p a.2.written) x.file }
  | .error _ => none

/-- There is a file at the place exactly if the server has left one. -/
def Meets (p : Place) (x : Shelf) (env : Env) : Prop :=
  (Node.dir env.fs).find p = some .file ↔ x.file ≠ none

instance (p : Place) (x : Shelf) (env : Env) : Decidable (Meets p x env) :=
  inferInstanceAs (Decidable (_ ↔ _))

/-- The request is answered with `OBEX_HTTP_OK`. -/
def Accepted (x : Shelf) (a : Env × Asked) : Prop :=
  ∃ reply, x.server.serve a.1 a.2.request = .ok reply ∧ reply.response = .OBEX_HTTP_OK

/-- The request would change the file: a PUT to the place, or a DELETE of it or of a directory
above it. -/
def Disturbs (p : Place) (x : Shelf) (a : Env × Asked) : Prop :=
  ∃ path ∈ x.server.named a.2.request,
    match a.2 with
    | .put _ _ _ => leadsTo path = p
    | .delete _ => leadsTo path <+: p
    | _ => False

/-- The request says what is to be in the file: a PUT to the place of a body whose length the client
has announced, with no abort on the way, or a DELETE. -/
inductive Decides (p : Place) (x : Shelf) : Asked → Option Bytes → Prop
  | put {headers : Option Headers} {opened : Bool} {u : Upload} {path : JString}
      (hpath : path ∈ x.server.named (Asked.put headers opened u).request)
      (hplace : leadsTo path = p) (hlength : extractLength headers = u.body.length)
      (hlt : u.body.length < 2 ^ 31) (habort : ∀ t ∈ u.turns, t.abort = false) :
      Decides p x (.put headers opened u) (some u.body)
  | delete {headers : Option Headers} {path : JString}
      (hpath : path ∈ x.server.named (Asked.delete headers).request)
      (hplace : leadsTo path <+: p) : Decides p x (.delete headers) none

/-- A GET request for a file: what is sent, and the answer. -/
def Gets (x : Shelf) (env : Env) (headers : Headers) (d : Download)
    (lengthHeader : ℤ → Except Exn Unit) (r : Sent) : Prop :=
  let reply := x.server.onGetInternal env (some headers) .OBEX_HTTP_OK
  if reply.response = .OBEX_HTTP_OK then
    Download.Sends { d with contents := x.file.getD [] } lengthHeader r
  else r = ⟨[], [], .ok reply.response⟩

end Shelf

/-! ### Where the accesses of a request are -/

section Accesses

variable {s : Server} {env : Env} {path : JString} {a : Access} {headers : Option Headers}

theorem place_delete (h : env.delete path = some a) : a = ⟨.delete, leadsTo path⟩ := by
  rw [Env.delete] at h
  split at h
  · next p hp =>
    split_ifs at h
    obtain rfl := Option.some.inj h
    rw [Env.place_eq (Env.place_of_node hp)]
    rfl
  · next p entries hp =>
    split_ifs at h
    obtain rfl := Option.some.inj h
    rw [Env.place_eq (Env.place_of_node hp)]
    rfl
  · cases h

theorem place_openOutput {deleted : Bool} (h : env.openOutput path deleted = some a) :
    a.place = leadsTo path := by
  rw [Env.openOutput] at h
  split at h
  · cases h
  · next p hp =>
    rw [leadsTo, ← Env.place_eq hp]
    split at h
    · split_ifs at h
      obtain rfl := Option.some.inj h
      rfl
    · cases h
    · split_ifs at h
      obtain rfl := Option.some.inj h
      rfl

/-- A directory is only made where there is nothing. -/
theorem find_of_mkdir (h : env.mkdir path = some a) :
    a.op = .create ∧ (Node.dir env.fs).find a.place = none := by
  rw [Env.mkdir] at h
  split at h
  · next p hp =>
    split_ifs at h with hfree
    obtain rfl := Option.some.inj h
    exact ⟨rfl, Option.not_isSome_iff_eq_none.1 fun hsome => hfree (.inl hsome)⟩
  · cases h

theorem find_of_changePath {name tmp : Option JString} {backup create : Bool}
    (ha : a ∈ (s.changePath env name backup create tmp).accesses) :
    a.op = .create ∧ (Node.dir env.fs).find a.place = none := by
  unfold Server.changePath at ha
  cases tmp with
  | none =>
    simp only at ha
    split_ifs at ha <;> cases ha
  | some path =>
    simp only at ha
    split_ifs at ha
    · split at ha
      · next access haccess =>
        rw [List.mem_singleton.1 ha]
        exact find_of_mkdir haccess
      · cases ha
    all_goals cases ha

/-- SETPATH makes directories only. -/
theorem find_of_onSetPathInternal {backup create : Bool} {reply : Reply}
    (h : s.onSetPathInternal env headers backup create = .ok reply) (ha : a ∈ reply.accesses) :
    a.op = .create ∧ (Node.dir env.fs).find a.place = none := by
  unfold Server.onSetPathInternal at h
  split at h
  · obtain rfl := Except.ok.inj h
    cases ha
  · cases headers with
    | none =>
      obtain rfl := Except.ok.inj h
      cases ha
    | some hd =>
      simp only at h
      split_ifs at h
      · obtain rfl := Except.ok.inj h
        cases ha
      · split at h
        · obtain rfl := Except.ok.inj h
          cases ha
        · next path hpath =>
          cases htmp : s.backUp path with
          | error e =>
            rw [htmp] at h
            cases h
          | ok tmp =>
            rw [htmp] at h
            obtain rfl := Except.ok.inj h
            exact find_of_changePath ha
      · obtain rfl := Except.ok.inj h
        exact find_of_changePath ha

theorem op_of_sendFolder {sent : Response} (ha : a ∈ (s.sendFolder env path sent).accesses) :
    a.op = .read ∨ a.op = .list := by
  rw [Server.sendFolder] at ha
  split at ha
  · next access haccess =>
    rw [List.mem_singleton.1 ha]
    rw [Env.listFiles] at haccess
    split at haccess
    · split_ifs at haccess
      obtain rfl := Option.some.inj haccess
      exact .inr rfl
    · cases haccess
  · cases ha

theorem op_of_sendFileContents {sent : Response}
    (ha : a ∈ (s.sendFileContents env path sent).accesses) : a.op = .read ∨ a.op = .list := by
  rw [Server.sendFileContents] at ha
  split_ifs at ha
  · cases ha
  · split at ha
    · next access haccess =>
      rw [List.mem_singleton.1 ha]
      rw [Env.openInput] at haccess
      split at haccess
      · split_ifs at haccess
        obtain rfl := Option.some.inj haccess
        exact .inl rfl
      · cases haccess
    · cases ha

/-- GET changes nothing. -/
theorem op_of_onGetInternal {sent : Response}
    (ha : a ∈ (s.onGetInternal env headers sent).accesses) : a.op = .read ∨ a.op = .list := by
  unfold Server.onGetInternal at ha
  split at ha
  · cases ha
  cases headers with
  | none => cases ha
  | some hd =>
    simp only at ha
    split_ifs at ha
    · cases ha
    · split at ha
      · split_ifs at ha
        · unfold Server.getListing at ha
          split at ha
          · cases ha
          · split_ifs at ha
            · exact op_of_sendFolder ha
            · simp only at ha
              split_ifs at ha
              · exact op_of_sendFolder ha
              · cases ha
            · exact op_of_sendFolder ha
        · cases ha
      · exact op_of_sendFileContents ha

theorem place_of_receiveFile {received : Received}
    (ha : a ∈ (s.receiveFile env path received).accesses) : a.place = leadsTo path := by
  have hdeleted : ∀ a ∈ (env.delete path).toList, a.place = leadsTo path := by
    intro a ha
    rw [place_delete (Option.mem_toList.1 ha)]
  unfold Server.receiveFile at ha
  split at ha
  · cases ha
  · split_ifs at ha
    · cases ha
    · cases ha
    · simp only at ha
      split at ha
      · exact hdeleted a ha
      · next access haccess =>
        have hplace := place_openOutput haccess
        -- what is cleaned up is the file that has been written
        have hall : ∀ {l : List Access}, (∀ a ∈ l, a.place = leadsTo path) →
            ∀ a ∈ (env.delete path).toList ++ access :: l, a.place = leadsTo path := by
          intro l hl a ha
          rcases List.mem_append.1 ha with ha | ha
          · exact hdeleted a ha
          · rcases List.mem_cons.1 ha with rfl | ha
            · exact hplace
            · exact hl a ha
        cases received with
        | complete => exact hall (List.forall_mem_nil _) a ha
        | unclosed => exact hall (List.forall_mem_nil _) a ha
        | aborted =>
          refine hall ?_ a ha
          intro b hb
          split_ifs at hb
          · cases hb
          · rw [List.mem_singleton.1 hb, hplace]

/-- What a PUT does is done where its name leads. -/
theorem place_of_onPutInternal {opened : Bool} {received : Received}
    (ha : a ∈ (s.onPutInternal env headers opened received).accesses) :
    ∃ path ∈ s.named (.put headers opened received), a.place = leadsTo path := by
  unfold Server.onPutInternal at ha
  split at ha
  · cases ha
  cases headers with
  | none => cases ha
  | some hd =>
    simp only at ha
    split_ifs at ha with hdots hname
    · cases ha
    · cases ha
    · cases ha
    · cases ha
    · refine ⟨subPath s.mCurrentPath hd.name, ?_, place_of_receiveFile ha⟩
      rw [Server.named, if_neg (not_or.2 ⟨hdots, hname⟩)]
      rfl

end Accesses

/-! ### Deleting -/

section Deleting

variable {refused : Access → Bool} {dir q : Place} {entries : Entries JString} {a : Access}

theorem op_of_deleteEmptied {emptied : Entries JString × List Access}
    (h : ∀ a ∈ emptied.2, a.op = .list ∨ a.op = .delete) :
    ∀ a ∈ (deleteEmptied refused dir entries emptied).2, a.op = .list ∨ a.op = .delete := by
  have hlist : ∀ a ∈ ⟨.list, dir⟩ :: emptied.2, a.op = .list ∨ a.op = .delete :=
    List.forall_mem_cons.2 ⟨.inl rfl, h⟩
  rw [deleteEmptied]
  split_ifs
  · exact List.forall_mem_nil _
  · intro a ha
    rcases List.mem_append.1 ha with ha | ha
    · exact hlist a ha
    · obtain rfl := List.mem_singleton.1 ha
      exact .inr rfl
  · exact hlist

theorem op_of_deleteEntries (refused : Access → Bool) (dir : Place) (entries : Entries JString) :
    ∀ a ∈ (deleteEntries refused dir entries).2, a.op = .list ∨ a.op = .delete := by
  induction entries generalizing dir with
  | nil => exact List.forall_mem_nil _
  | file name rest ih =>
    rw [deleteEntries]
    simp only
    split_ifs
    · exact ih dir
    · exact List.forall_mem_cons.2 ⟨.inr rfl, ih dir⟩
  | dir name entries rest ihe ihr =>
    have hboth : ∀ a ∈ (deleteEmptied refused (dir ++ [name]) entries
        (deleteEntries refused (dir ++ [name]) entries)).2 ++ (deleteEntries refused dir rest).2,
        a.op = .list ∨ a.op = .delete := fun a ha =>
      (List.mem_append.1 ha).elim (op_of_deleteEmptied (ihe (dir ++ [name])) a) (ihr dir a)
    rw [deleteEntries]
    simp only
    split
    · next inside heq =>
      rw [heq] at hboth
      exact hboth
    · next left inside heq =>
      rw [heq] at hboth
      exact hboth

/-- A directory of which nothing is left has been emptied. -/
theorem emptied_of_deleteEmptied {emptied : Entries JString × List Access} {accesses : List Access}
    (h : deleteEmptied refused dir entries emptied = (none, accesses)) :
    emptied.1 = .nil ∧ accesses = ⟨.list, dir⟩ :: emptied.2 ++ [⟨.delete, dir⟩] := by
  rw [deleteEmptied] at h
  split_ifs at h with hlist hempty
  · cases (Prod.mk.inj h).1
  · exact ⟨hempty.1, (Prod.mk.inj h).2.symm⟩
  · cases (Prod.mk.inj h).1

/-- If nothing is left, every file has been deleted, one case for each kind of entry. -/
theorem mem_deleteEntries (h : (deleteEntries refused dir entries).1 = .nil)
    (hq : findIn (some (.dir entries)) q = some .file) :
    ⟨.delete, dir ++ q⟩ ∈ (deleteEntries refused dir entries).2 := by
  induction entries generalizing dir q with
  | nil => cases q <;> cases hq
  | file name rest ih =>
    rw [deleteEntries] at h ⊢
    simp only at h ⊢
    split_ifs at h ⊢
    cases q with
    | nil => cases hq
    | cons x q =>
      rw [findIn_dir_cons] at hq
      change findIn ((Entries.cons name .file rest).lookup x) q = _ at hq
      rw [Entries.lookup_cons] at hq
      split_ifs at hq with hx
      · subst hx
        cases q with
        | nil => exact List.mem_cons_self
        | cons y q => cases hq
      · exact List.mem_cons_of_mem _ (ih h (by rw [findIn_dir_cons, hq]))
  | dir name entries rest ihe ihr =>
    rw [deleteEntries] at h ⊢
    simp only at h ⊢
    split at h
    · next inside heq =>
      obtain ⟨hempty, hinside⟩ := emptied_of_deleteEmptied heq
      cases q with
      | nil => cases hq
      | cons x q =>
        rw [findIn_dir_cons] at hq
        change findIn ((Entries.cons name (.dir entries) rest).lookup x) q = _ at hq
        rw [Entries.lookup_cons] at hq
        split_ifs at hq with hx
        · subst hx
          have hmem := ihe hempty hq
          rw [List.append_assoc, List.singleton_append] at hmem
          refine List.mem_append_left _ ?_
          rw [hinside]
          exact List.mem_append_left _ (List.mem_cons_of_mem _ hmem)
        · exact List.mem_append_right _ (ihr h (by rw [findIn_dir_cons, hq]))
    · cases h

variable {s : Server} {env : Env} {path : JString} {headers : Option Headers}

theorem op_of_deleteFile (ha : a ∈ (s.deleteFile env path).accesses) :
    (a.op = .list ∨ a.op = .delete) ∧ leadsTo path <+: a.place := by
  rw [Server.deleteFile] at ha
  split at ha
  · cases ha
  · next dir node hnode =>
    have hdir : leadsTo path = dir := (Env.place_eq (Env.place_of_node hnode)).symm
    split_ifs at ha
    · cases ha
    cases node with
    | dir entries =>
      have hop : ∀ a ∈ (deleteEmptied env.refused dir entries
          (deleteEntries env.refused dir entries)).2, a.op = .list ∨ a.op = .delete :=
        op_of_deleteEmptied (op_of_deleteEntries env.refused dir entries)
      have hbelow := prefix_deleteDirectory env.refused dir entries
      simp only [deleteDirectory] at ha hbelow
      split at ha
      · next accesses heq =>
        rw [heq] at hop hbelow
        exact ⟨hop a ha, hdir ▸ hbelow a ha⟩
      · next left accesses heq =>
        rw [heq] at hop hbelow
        exact ⟨hop a ha, hdir ▸ hbelow a ha⟩
    | file =>
      simp only at ha
      split at ha
      · next access haccess =>
        rw [List.mem_singleton.1 ha, place_delete haccess]
        exact ⟨.inr rfl, List.prefix_refl _⟩
      · cases ha

theorem findIn_of_node {dir : Place} {node : Node JString} (h : env.node path = some (dir, node)) :
    findIn (some (.dir env.fs)) dir = some node := by
  obtain ⟨place, -, hmap⟩ := Option.bind_eq_some_iff.1 h
  obtain ⟨node', hnode', heq⟩ := Option.map_eq_some_iff.1 hmap
  obtain ⟨rfl, rfl⟩ := Prod.mk.inj heq
  exact hnode'

/-- An accepted DELETE has deleted every file at the place and below it. -/
theorem mem_deleteFile {p : Place} (hok : (s.deleteFile env path).response = .OBEX_HTTP_OK)
    (hp : leadsTo path <+: p) (hfile : (Node.dir env.fs).find p = some .file) :
    ⟨.delete, p⟩ ∈ (s.deleteFile env path).accesses := by
  obtain ⟨q, rfl⟩ := hp
  rw [Server.deleteFile] at hok ⊢
  split at hok
  · cases hok
  · next dir node hnode =>
    have hdir : leadsTo path = dir := (Env.place_eq (Env.place_of_node hnode)).symm
    have hfind : findIn (some node) q = some .file := by
      rw [← findIn_of_node hnode, ← findIn_append, ← hdir]
      exact hfile
    rw [hdir]
    split_ifs at hok ⊢
    cases node with
    | dir entries =>
      simp only at hok ⊢
      split at hok
      · next accesses heq =>
        obtain ⟨hempty, haccesses⟩ := emptied_of_deleteEmptied heq
        rw [haccesses]
        exact List.mem_append_left _ (List.mem_cons_of_mem _ (mem_deleteEntries hempty hfind))
      · cases hok
    | file =>
      obtain rfl : q = [] := by
        cases q with
        | nil => rfl
        | cons x q => cases hfind
      simp only at hok ⊢
      split at hok
      · next access haccess =>
        rw [place_delete haccess, hdir, List.append_nil]
        exact List.mem_singleton_self _
      · cases hok

/-- What a DELETE does is done where its name leads, and below. -/
theorem op_of_onDeleteInternal (ha : a ∈ (s.onDeleteInternal env headers).accesses) :
    ∃ path ∈ s.named (.delete headers), (a.op = .list ∨ a.op = .delete) ∧
      leadsTo path <+: a.place := by
  unfold Server.onDeleteInternal at ha
  split at ha
  · cases ha
  cases headers with
  | none => cases ha
  | some hd =>
    simp only at ha
    split_ifs at ha with hdots
    · cases ha
    · refine ⟨subPath s.mCurrentPath hd.name, ?_, op_of_deleteFile ha⟩
      rw [Server.named, if_neg hdots]
      rfl

theorem mem_onDeleteInternal {p : Place}
    (hok : (s.onDeleteInternal env headers).response = .OBEX_HTTP_OK)
    (hpath : path ∈ s.named (.delete headers)) (hp : leadsTo path <+: p)
    (hfile : (Node.dir env.fs).find p = some .file) :
    ⟨.delete, p⟩ ∈ (s.onDeleteInternal env headers).accesses := by
  unfold Server.onDeleteInternal at hok ⊢
  split at hok
  · cases hok
  next hmounted =>
  rw [if_neg hmounted]
  cases headers with
  | none => cases hok
  | some hd =>
    simp only at hok ⊢
    split_ifs at hok ⊢ with hdots
    rw [Server.named, if_neg hdots] at hpath
    obtain rfl := Option.some.inj hpath
    exact mem_deleteFile hok hp hfile

end Deleting

/-! ### The file behind a request -/

section Alter

variable {p : Place} {written file : Option Bytes} {accesses : List Access}

/-- Accesses elsewhere, and those that only read. -/
theorem foldl_alter_of_forall
    (h : ∀ a ∈ accesses, a.place = p → a.op = .read ∨ a.op = .list) :
    accesses.foldl (Access.alter p written) file = file := by
  induction accesses with
  | nil => rfl
  | cons a accesses ih =>
    have ha : Access.alter p written file a = file := by
      rw [Access.alter]
      split_ifs with hplace
      · rcases h a List.mem_cons_self hplace with hop | hop <;> rw [hop]
      · rfl
    rw [List.foldl_cons, ha]
    exact ih fun b hb => h b (List.mem_cons_of_mem _ hb)

theorem foldl_alter_none
    (h : ∀ a ∈ accesses, a.op = .create ∨ a.op = .overwrite → written = none) :
    accesses.foldl (Access.alter p written) none = none := by
  induction accesses with
  | nil => rfl
  | cons a accesses ih =>
    have ha : Access.alter p written none a = none := by
      have hwritten := h a List.mem_cons_self
      rw [Access.alter]
      split_ifs
      · cases hop : a.op with
        | read => rfl
        | list => rfl
        | create => exact hwritten (.inl hop)
        | overwrite => exact hwritten (.inr hop)
        | delete => rfl
      · rfl
    rw [List.foldl_cons, ha]
    exact ih fun b hb => h b (List.mem_cons_of_mem _ hb)

/-- What lists or deletes does not write. -/
theorem not_writes {a : Access} (h : a.op = .list ∨ a.op = .delete) :
    ¬ (a.op = .create ∨ a.op = .overwrite) := by
  rcases h with hop | hop <;> simp [hop]

/-- Nothing that is deleted comes back. -/
theorem foldl_alter_delete (h : ∀ a ∈ accesses, a.op = .list ∨ a.op = .delete)
    (hmem : ⟨.delete, p⟩ ∈ accesses) :
    accesses.foldl (Access.alter p written) file = none := by
  induction accesses generalizing file with
  | nil => cases hmem
  | cons a accesses ih =>
    have hrest : ∀ b ∈ accesses, b.op = .list ∨ b.op = .delete :=
      fun b hb => h b (List.mem_cons_of_mem _ hb)
    rw [List.foldl_cons]
    rcases List.mem_cons.1 hmem with rfl | hmem
    · rw [Access.alter, if_pos rfl]
      exact foldl_alter_none fun b hb hop => absurd hop (not_writes (hrest b hb))
    · exact ih hrest hmem

end Alter

/-! ### The body of an upload -/

/-- An upload that comes through has all of the body, if its length has been announced and no abort
comes in between. -/
theorem Upload.file_eq_body {u : Upload} {length : ℤ} (h : u.received length = .complete)
    (hlength : length = u.body.length) (hlt : u.body.length < 2 ^ 31)
    (habort : ∀ t ∈ u.turns, t.abort = false) : u.file length = u.body := by
  rw [Upload.received] at h
  split_ifs at h with hunclosed hflagged hclose
  rw [Upload.flagged, decide_eq_true_eq] at hflagged
  rw [Upload.file, not_not.1 hunclosed]
  obtain ⟨k, hstops, hwritten, -, hfailed⟩ := receive_spec length [] u.turns
  have hzero : toInt ([] : Bytes).length = 0 := by decide
  rw [hzero] at hwritten hfailed
  have hnot : ¬ FailedAt length [] u.turns k := fun hk => hflagged (.inl (hfailed.2 hk))
  simp only
  rw [hwritten]
  have harrived : arrived [] u.turns k ++
      ((u.turns.drop k).flatMap Turn.arriving ++ u.unsent) = u.body := by
    rw [arrived, List.nil_append, Upload.body, ← List.append_assoc, ← List.flatMap_append,
      List.take_append_drop]
  by_cases hmet : Met length [] u.turns k
  -- the announced length is that of the body
  · have hle := congrArg List.length harrived
    rw [List.length_append] at hle
    rw [Met, toInt_eq (by omega) (by omega), hlength] at hmet
    rw [← harrived, List.length_append] at hmet
    have hnil : (u.turns.drop k).flatMap Turn.arriving ++ u.unsent = [] :=
      List.length_eq_zero_iff.1 (by omega)
    rw [hnil, List.append_nil] at harrived
    exact harrived
  -- the loop has come to the end of the body
  · have hend : u.turns[k]? = none := by
      rw [Option.eq_none_iff_forall_ne_some]
      intro t ht
      have hordinary := (hstops.stop.resolve_left hmet) t ht
      exact hnot ⟨hmet, t, ht, habort t (List.mem_of_getElem? ht), hordinary⟩
    have hall : ∀ t ∈ u.turns, t.Ordinary := by
      intro t ht
      refine hstops.ordinary t ?_
      rwa [List.take_of_length_le (List.getElem?_eq_none_iff.1 hend)]
    have hunsent : u.unsent = [] := by
      refine u.unsent_eq fun t ht => ⟨habort t ht, ?_⟩
      obtain ⟨-, buff, hread⟩ := hall t ht
      rw [hread]
      intro hfails
      cases hfails
    rw [List.drop_eq_nil_of_le (List.getElem?_eq_none_iff.1 hend), hunsent] at harrived
    rw [← harrived]
    exact (List.append_nil _).symm

namespace Shelf

variable {p : Place} {x y z : Shelf} {env : Env} {a : Asked} {v : Option Bytes}

/-- The reply that a step takes. -/
theorem exists_of_step (h : step p x (env, a) = some y) :
    ∃ reply, x.server.serve env a.request = .ok reply ∧
      y.file = reply.accesses.foldl (Access.alter p a.written) x.file := by
  rw [step] at h
  split at h
  · next reply hreply =>
    obtain rfl := Option.some.inj h
    exact ⟨reply, hreply, rfl⟩
  · cases h

/-- **A request that does not lead there** leaves the file as it is, one case for each request. -/
theorem file_of_undisturbed (hmeets : Meets p x env) (hnot : ¬ Disturbs p x (env, a))
    (hstep : step p x (env, a) = some y) : y.file = x.file := by
  obtain ⟨reply, hreply, hfile⟩ := exists_of_step hstep
  rw [hfile]
  cases a with
  | setPath headers backup create =>
    by_cases hthere : ∃ a ∈ reply.accesses, a.place = p
    -- there was no file at the place, and there is a directory now
    · obtain ⟨a, ha, rfl⟩ := hthere
      obtain ⟨-, hfree⟩ := find_of_onSetPathInternal hreply ha
      have hnone : x.file = none := by
        by_contra hsome
        rw [hmeets.2 hsome] at hfree
        cases hfree
      rw [hnone]
      exact foldl_alter_none fun _ _ _ => rfl
    · refine foldl_alter_of_forall fun a ha hplace => ?_
      exact absurd ⟨a, ha, hplace⟩ hthere
  | get headers sent =>
    obtain rfl := Except.ok.inj hreply
    exact foldl_alter_of_forall fun a ha _ => op_of_onGetInternal ha
  | put headers opened u =>
    obtain rfl := Except.ok.inj hreply
    refine foldl_alter_of_forall fun a ha hplace => ?_
    obtain ⟨path, hpath, hleads⟩ := place_of_onPutInternal ha
    exact absurd ⟨path, hpath, hleads.symm.trans hplace⟩ hnot
  | delete headers =>
    obtain rfl := Except.ok.inj hreply
    refine foldl_alter_of_forall fun a ha hplace => ?_
    obtain ⟨path, hpath, -, hbelow⟩ := op_of_onDeleteInternal ha
    exact absurd ⟨path, hpath, hplace ▸ hbelow⟩ hnot

/-- A PUT that is accepted, of a body whose length has been announced. -/
theorem file_of_put {headers : Option Headers} {opened : Bool} {u : Upload} {path : JString}
    (hpath : path ∈ x.server.named (Asked.put headers opened u).request)
    (hplace : leadsTo path = p) (hlength : extractLength headers = u.body.length)
    (hlt : u.body.length < 2 ^ 31) (habort : ∀ t ∈ u.turns, t.abort = false)
    (hok : Accepted x (env, .put headers opened u))
    (hstep : step p x (env, .put headers opened u) = some y) : y.file = some u.body := by
  obtain ⟨reply, hreply, hfile⟩ := exists_of_step hstep
  obtain ⟨reply', hreply', hresponse⟩ := hok
  obtain rfl := Except.ok.inj (hreply.symm.trans hreply')
  obtain rfl := Except.ok.inj hreply
  rw [hfile]
  rcases behaves_onPutInternal x.server env headers opened with
    hrefused | ⟨before, access, hop, hcomplete, hunclosed, haborted⟩
  · exact absurd hresponse (hrefused _).1
  cases hreceived : u.received (extractLength headers) with
  | unclosed =>
    rw [hreceived, hunclosed] at hresponse
    cases hresponse
  | aborted =>
    rw [hreceived, haborted] at hresponse
    cases hresponse
  | complete =>
    have haccess : access ∈ (x.server.onPutInternal env headers opened .complete).accesses := by
      rw [hcomplete]
      exact List.mem_append_right _ (List.mem_singleton_self _)
    obtain ⟨path', hpath', hleads⟩ := place_of_onPutInternal haccess
    rw [Asked.request, hreceived] at hpath
    obtain rfl := Option.some.inj (hpath.symm.trans hpath')
    rw [hcomplete, List.foldl_append, List.foldl_cons, List.foldl_nil, Access.alter,
      if_pos (hleads.trans hplace), Asked.written,
      Upload.file_eq_body hreceived hlength hlt habort]
    rcases hop with hop | hop <;> rw [hop]

/-- A DELETE that is accepted, of the file or of a directory above it. -/
theorem file_of_delete {headers : Option Headers} {path : JString} (hmeets : Meets p x env)
    (hpath : path ∈ x.server.named (Asked.delete headers).request) (hplace : leadsTo path <+: p)
    (hok : Accepted x (env, .delete headers))
    (hstep : step p x (env, .delete headers) = some y) : y.file = none := by
  obtain ⟨reply, hreply, hfile⟩ := exists_of_step hstep
  obtain ⟨reply', hreply', hresponse⟩ := hok
  obtain rfl := Except.ok.inj (hreply.symm.trans hreply')
  obtain rfl := Except.ok.inj hreply
  rw [hfile]
  have hops : ∀ a ∈ (x.server.onDeleteInternal env headers).accesses,
      a.op = .list ∨ a.op = .delete := by
    intro a ha
    obtain ⟨-, -, hop, -⟩ := op_of_onDeleteInternal ha
    exact hop
  cases hthere : x.file with
  | none =>
    exact foldl_alter_none fun a ha hop => absurd hop (not_writes (hops a ha))
  | some file =>
    have hfind := hmeets.2 (hthere ▸ Option.some_ne_none file)
    exact foldl_alter_delete hops (mem_onDeleteInternal hresponse hpath hplace hfind)

/-- **A request that decides what is in the file**, if it is accepted. -/
theorem file_of_decides (hmeets : Meets p x env) (hdecides : Decides p x a v)
    (hok : Accepted x (env, a)) (hstep : step p x (env, a) = some y) : y.file = v := by
  cases hdecides with
  | put hpath hplace hlength hlt habort =>
    exact file_of_put hpath hplace hlength hlt habort hok hstep
  | delete hpath hplace => exact file_of_delete hmeets hpath hplace hok hstep

/-- A run that leaves the file alone. -/
theorem file_of_run {as : List (Env × Asked)}
    (h : Run (step p) (fun x a => Meets p x a.1 ∧ ¬ Disturbs p x a) y as z) : z.file = y.file := by
  refine h.invariant (I := fun s => s.file = y.file) rfl ?_
  rintro s ⟨env, a⟩ t ⟨hmeets, hnot⟩ hs hstep
  rw [file_of_undisturbed hmeets hnot hstep, hs]

/-! ### What a client gets -/

theorem Decides.length_lt {body : Bytes} (h : Decides p x a v) (hv : v = some body) :
    body.length < 2 ^ 31 := by
  cases h with
  | put _ _ _ hlt =>
    obtain rfl := Option.some.inj hv
    exact hlt
  | delete => cases hv

/-- A transfer that is answered with `OBEX_HTTP_OK` has sent all of the file. -/
theorem stream_of_sends {d : Download} {lengthHeader : ℤ → Except Exn Unit} {r : Sent}
    (h : d.Sends lengthHeader r) (hok : r.response = .ok .OBEX_HTTP_OK) :
    r.stream = d.contents := by
  rw [Download.Sends] at h
  split at h
  · rw [h] at hok
    cases hok
  · obtain ⟨r', hr', hstream, -⟩ := Download.ends_of_inv d.inv_start
    obtain rfl := Ends.unique h hr'
    exact hstream

/-- A GET for the file is let through exactly if there is one at the place, the storage is mounted,
and the file may be read. -/
theorem onGetInternal_eq_ok_iff {headers : Headers} (htype : headers.type = none)
    (hplace : leadsTo (subPath z.server.mCurrentPath headers.name) = p) (hmeets : Meets p z env) :
    (z.server.onGetInternal env (some headers) .OBEX_HTTP_OK).response = .OBEX_HTTP_OK ↔
      env.mounted = true ∧ isDots headers.name = false ∧
        (env.place (subPath z.server.mCurrentPath headers.name)).isSome ∧
        z.file ≠ none ∧ env.refused ⟨.read, p⟩ = false := by
  have hthere : z.file ≠ none ↔ (Node.dir env.fs).find p = some .file := hmeets.symm
  by_cases hmounted : env.mounted = true
  swap
  · simp [Server.onGetInternal, hmounted]
  by_cases hdots : isDots headers.name = true
  · simp [Server.onGetInternal, hmounted, hdots]
  have hget : z.server.onGetInternal env (some headers) .OBEX_HTTP_OK =
      z.server.sendFileContents env (subPath z.server.mCurrentPath headers.name) .OBEX_HTTP_OK := by
    simp [Server.onGetInternal, hmounted, hdots, htype]
  rw [hget, Server.sendFileContents, Env.doesPathExist, Env.openInput, Env.node, hthere]
  cases hp : env.place (subPath z.server.mCurrentPath headers.name) with
  | none => simp
  | some q =>
    obtain rfl : q = p := (Env.place_eq hp).trans hplace
    rw [Option.bind_some]
    rcases (Node.dir env.fs).find q with - | - | entries
    · simp
    · by_cases hrefused : env.refused ⟨.read, q⟩ = true
      · simp [hrefused]
      · simp [hmounted, hdots, hrefused]
    · simp

/-- **A client gets back what it has put there.**  Behind an accepted request that says what is to
be in the file, and any requests that lead elsewhere, a GET that is answered with `OBEX_HTTP_OK` has
sent exactly that; and it is answered so whenever there is a file that may be read. -/
theorem getFile_session {as : List (Env × Asked)} (hmeets : Meets p x env)
    (hdecides : Decides p x a v) (hok : Accepted x (env, a)) (hstep : step p x (env, a) = some y)
    (hrun : Run (step p) (fun x a => Meets p x a.1 ∧ ¬ Disturbs p x a) y as z)
    {env' : Env} (hmeets' : Meets p z env') {headers : Headers} (htype : headers.type = none)
    (hplace : leadsTo (subPath z.server.mCurrentPath headers.name) = p) (d : Download)
    (lengthHeader : ℤ → Except Exn Unit) :
    (∀ r, Gets z env' headers d lengthHeader r → r.response = .ok .OBEX_HTTP_OK →
      v = some r.stream) ∧
    ∀ body, v = some body → lengthHeader body.length = .ok () → env'.mounted = true →
      isDots headers.name = false →
      (env'.place (subPath z.server.mCurrentPath headers.name)).isSome →
      env'.refused ⟨.read, p⟩ = false →
      ∃ r, Gets z env' headers d lengthHeader r ∧ r.stream = body ∧
        r.response = .ok .OBEX_HTTP_OK := by
  have hfile : z.file = v := (file_of_run hrun).trans (file_of_decides hmeets hdecides hok hstep)
  have hiff := onGetInternal_eq_ok_iff htype hplace hmeets'
  constructor
  · intro r hr hresponse
    rw [Gets] at hr
    split_ifs at hr with hlet
    · obtain ⟨-, -, -, hthere, -⟩ := hiff.1 hlet
      obtain ⟨body, hbody⟩ := Option.ne_none_iff_exists'.1 hthere
      rw [hbody, Option.getD_some] at hr
      rw [← hfile, hbody, stream_of_sends hr hresponse]
    · rw [hr] at hresponse
      exact absurd (Except.ok.inj hresponse) hlet
  · intro body hbody hheader hmounted hdots hfound hread
    rw [hbody] at hfile
    have hlet := hiff.2 ⟨hmounted, hdots, hfound, hfile ▸ Option.some_ne_none body, hread⟩
    have hlt : body.length < 2 ^ 31 := hdecides.length_lt hbody
    obtain ⟨r, hr, hstream, hspec⟩ :=
      @Download.sends_all lengthHeader { d with contents := body } hheader
    rw [if_pos hlt] at hspec
    refine ⟨r, ?_, hstream, hspec.2⟩
    rw [Gets, if_pos hlet, hfile]
    exact hr

/-- A file `note` on the first volume, next to a directory `music`. -/
def noted : Env where
  fs := .dir (js "sd0") (.file (js "note") (.dir (js "music") .nil .nil)) .nil

/-- The place of the file. -/
def note : Place := [js "sd0", js "note"]

/-- Put three bytes there. -/
def putThree : Env × Asked :=
  ({ Server.phone with available := 3 },
    .put (some { name := some (js "note"), length := some 3 }) true (threeBytes false))

/-- A session that is at this path, behind the PUT. -/
def behindPut (path : JString) : Shelf where
  server := { mCurrentPath := some path, touched := [⟨.create, note⟩] }
  file := some [104, 105, 33]

/-- Put three bytes into a file, enter a directory, and get the file from above it. -/
theorem getFile_session_note :
    step note ⟨{ mCurrentPath := some (js "/sd0") }, none⟩ putThree =
      some (behindPut (js "/sd0")) ∧
    step note (behindPut (js "/sd0"))
      (noted, .setPath (some { name := some (js "music") }) false false) =
        some (behindPut (js "/sd0/music")) ∧
    ∃ r, Gets (behindPut (js "/sd0/music")) noted { name := some (js "../note") }
        (Download.zeros 0) Download.fourBytes r ∧
      r.stream = [104, 105, 33] ∧ r.response = .ok .OBEX_HTTP_OK := by
  have hput : step note ⟨{ mCurrentPath := some (js "/sd0") }, none⟩ putThree =
      some (behindPut (js "/sd0")) := rfl
  have henter : step note (behindPut (js "/sd0"))
      (noted, .setPath (some { name := some (js "music") }) false false) =
        some (behindPut (js "/sd0/music")) := rfl
  have hdecides : Decides note ⟨{ mCurrentPath := some (js "/sd0") }, none⟩ putThree.2
      (some [104, 105, 33]) :=
    @Decides.put _ _ _ _ _ (js "/sd0/note") (by decide) (by decide) (by decide) (by decide)
      (by decide)
  have hrun : Run (step note) (fun x a => Meets note x a.1 ∧ ¬ Disturbs note x a)
      (behindPut (js "/sd0")) [(noted, .setPath (some { name := some (js "music") }) false false)]
      (behindPut (js "/sd0/music")) :=
    .cons ⟨by decide, fun h => h.choose_spec.2⟩ henter (.nil _)
  refine ⟨hput, henter, ?_⟩
  exact (getFile_session (by decide) hdecides ⟨_, rfl, rfl⟩ hput hrun (by decide) rfl (by decide)
    (Download.zeros 0) Download.fourBytes).2 [104, 105, 33] rfl
      (Download.fourBytes_eq (by decide) (by decide)) rfl (by decide) (by decide) rfl

end Shelf

end Ftp

end Msm8909w
