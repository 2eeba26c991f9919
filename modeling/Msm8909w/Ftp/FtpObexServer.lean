import Msm8909w.Lib.Runs
import Msm8909w.Ftp.FileUtils

/-!
# The FTP server

`BluetoothFtpObexServer.java` serves the requests of a session one after the other.  It keeps the
path of the current directory as a text; without one, it shows the two storage roots under the names
`PHONE_MEMORY` and `EXTERNAL_MEMORY`.  SETPATH appends a name to the path or cuts the last one off,
and the other requests append a name to it for the file they are about.

What is modelled is where the requests lead.  How the contents of a file get through is given with
the request.

* `serve_inside` : one request touches nothing outside the storage roots, if the path that is made
  of its name never climbs above a root,
* `Stored.exists_step` : no request ends the session with an exception,
* `touched_inside` : the same for a session.
-/

namespace Msm8909w

namespace Ftp

open Map (JString js Exn lastIndexOf substring)

/-! ### The server -/

/-- The fields of `BluetoothFtpObexServer`, and what has been touched so far. -/
structure Server where
  mCurrentPath : Option JString := some []
  rootPrimaryStoragePath : Option JString := none
  rootSecondaryStoragePath : Option JString := none
  touched : List Access := []

/-- A `StorageVolume`. -/
structure StorageVolume where
  path : JString
  isPrimary : Bool
  isRemovable : Bool

/-- The loop over the volumes. -/
def Server.addVolume (s : Server) (v : StorageVolume) : Server :=
  if s.rootPrimaryStoragePath = none ∧ v.isPrimary then
    { s with rootPrimaryStoragePath := some v.path }
  else if s.rootSecondaryStoragePath = none ∧ v.isRemovable then
    { s with rootSecondaryStoragePath := some v.path }
  else s

/-- `onConnectInternal`, behind the checks of the headers. -/
def onConnect (s : Server) (volumes : List StorageVolume) : Server :=
  { volumes.foldl Server.addVolume s with mCurrentPath := none }

inductive Response
  | OBEX_HTTP_OK
  | OBEX_HTTP_CONTINUE
  | OBEX_HTTP_NO_CONTENT
  | OBEX_HTTP_BAD_REQUEST
  | OBEX_HTTP_UNAUTHORIZED
  | OBEX_HTTP_NOT_FOUND
  | OBEX_HTTP_NOT_ACCEPTABLE
  | OBEX_HTTP_ENTITY_TOO_LARGE
  | OBEX_HTTP_INTERNAL_ERROR
  | OBEX_DATABASE_LOCKED
  deriving DecidableEq, Repr

/-- The headers that are read from a request. -/
structure Headers where
  name : Option JString := none
  type : Option JString := none
  length : Option ℤ := none

/-- How the contents of a file have been received: `aborted` is `sIsAborted` behind the loop, and
`unclosed` that a stream cannot be closed. -/
inductive Received
  | complete
  | aborted
  | unclosed
  deriving DecidableEq, Repr

/-- A request; its headers are `none` if reading them fails. -/
inductive Request
  | setPath (headers : Option Headers) (backup create : Bool)
  /-- `sent` is what `pushBytes` returns, or `sendFileContents` behind the opening of the file. -/
  | get (headers : Option Headers) (sent : Response)
  /-- `opened` is what `openInputStream` returns. -/
  | put (headers : Option Headers) (opened : Bool) (received : Received)
  | delete (headers : Option Headers)

/-- What a request does: the path it leaves, what it returns, and what it has touched. -/
structure Reply where
  mCurrentPath : Option JString
  response : Response
  accesses : List Access := []

def TYPE_LISTING : JString := js "x-obex/folder-listing"
def PRIMARY_INTERNAL_FOLDERNAME : JString := js "PHONE_MEMORY"
def SECONDARY_EXTERNAL_FOLDERNAME : JString := js "EXTERNAL_MEMORY"
def FOLDER_NAME_DOT : JString := [dot]
def FOLDER_NAME_DOTDOT : JString := [dot, dot]

/-- The names that no request may have. -/
def isDots (name : Option JString) : Bool :=
  name = some FOLDER_NAME_DOT || name = some FOLDER_NAME_DOTDOT

/-- `mCurrentPath + "/" + name`, in which `null` is written out. -/
def subPath (mCurrentPath name : Option JString) : JString :=
  mCurrentPath.getD (js "null") ++ slash :: name.getD (js "null")

namespace Server

/-- The path is one of the roots. -/
def isRoot (s : Server) (path : JString) : Bool :=
  s.rootPrimaryStoragePath = some path || s.rootSecondaryStoragePath = some path

/-- `onSetPathInternal`, from the check of the new path on. -/
def changePath (s : Server) (env : Env) (name : Option JString) (backup create : Bool)
    (current_path_tmp : Option JString) : Reply :=
  match current_path_tmp with
  | some path =>
    if path.length ≠ 0 then
      if !env.doesPathExist path then
        if create then
          match env.mkdir path with
          | some access => ⟨some path, .OBEX_HTTP_OK, [access]⟩
          | none => ⟨s.mCurrentPath, .OBEX_HTTP_INTERNAL_ERROR, []⟩
        else ⟨s.mCurrentPath, .OBEX_HTTP_NOT_FOUND, []⟩
      else if env.isFile path then
        if create then ⟨s.mCurrentPath, .OBEX_HTTP_INTERNAL_ERROR, []⟩
        else ⟨s.mCurrentPath, .OBEX_HTTP_NOT_FOUND, []⟩
      else ⟨some path, .OBEX_HTTP_OK, []⟩
    else ⟨some path, .OBEX_HTTP_OK, []⟩
  | none =>
    if name ≠ none then
      if create then ⟨s.mCurrentPath, .OBEX_HTTP_NOT_ACCEPTABLE, []⟩
      else if !backup then ⟨s.mCurrentPath, .OBEX_HTTP_NOT_FOUND, []⟩
      else ⟨none, .OBEX_HTTP_OK, []⟩
    else ⟨none, .OBEX_HTTP_OK, []⟩

/-- The path for the backup flag. -/
def backUp (s : Server) (path : JString) : Except Exn (Option JString) :=
  if path.length ≠ 0 ∧ ¬s.isRoot path then (substring path 0 (lastIndexOf path [slash])).map some
  else .ok (if s.isRoot path then none else some path)

/-- The path for a name. -/
def goDown (s : Server) : Option JString → Option JString
  | none => none
  | some name =>
    if name = PRIMARY_INTERNAL_FOLDERNAME ∧ s.mCurrentPath = none then s.rootPrimaryStoragePath
    else if name = SECONDARY_EXTERNAL_FOLDERNAME ∧ s.mCurrentPath = none then
      s.rootSecondaryStoragePath
    else s.mCurrentPath.map fun path => path ++ slash :: name

def onSetPathInternal (s : Server) (env : Env) (headers : Option Headers) (backup create : Bool) :
    Except Exn Reply :=
  if !env.mounted then .ok ⟨s.mCurrentPath, .OBEX_HTTP_NO_CONTENT, []⟩
  else match headers with
    | none => .ok ⟨s.mCurrentPath, .OBEX_HTTP_INTERNAL_ERROR, []⟩
    | some h =>
      if isDots h.name then .ok ⟨s.mCurrentPath, .OBEX_HTTP_NOT_ACCEPTABLE, []⟩
      else if backup then
        match s.mCurrentPath with
        | none => .ok ⟨s.mCurrentPath, .OBEX_HTTP_NOT_ACCEPTABLE, []⟩
        | some path => (s.backUp path).map (s.changePath env h.name backup create)
      else .ok (s.changePath env h.name backup create (s.goDown h.name))

/-- A folder is listed. -/
def sendFolder (s : Server) (env : Env) (path : JString) (sent : Response) : Reply :=
  match env.listFiles path with
  | some access => ⟨s.mCurrentPath, sent, [access]⟩
  | none => ⟨s.mCurrentPath, .OBEX_HTTP_INTERNAL_ERROR, []⟩

/-- A file is sent. -/
def sendFileContents (s : Server) (env : Env) (path : JString) (sent : Response) : Reply :=
  if !env.doesPathExist path then ⟨s.mCurrentPath, .OBEX_HTTP_NOT_FOUND, []⟩
  else match env.openInput path with
    | some access => ⟨s.mCurrentPath, sent, [access]⟩
    | none => ⟨s.mCurrentPath, .OBEX_HTTP_INTERNAL_ERROR, []⟩

/-- A request for a folder listing. -/
def getListing (s : Server) (env : Env) (name : JString) (sent : Response) : Reply :=
  match s.mCurrentPath with
  | none =>
    -- the two names of the storage roots, if there is no name
    ⟨s.mCurrentPath, if name = [] then sent else .OBEX_HTTP_BAD_REQUEST, []⟩
  | some path =>
    if name = [] ∨ s.isRoot path then s.sendFolder env path sent
    else if getName path ≠ name then
      let subFolder := subPath s.mCurrentPath (some name)
      if env.doesPathExist subFolder then s.sendFolder env subFolder sent
      else ⟨s.mCurrentPath, .OBEX_HTTP_NO_CONTENT, []⟩
    else s.sendFolder env path sent

def onGetInternal (s : Server) (env : Env) (headers : Option Headers) (sent : Response) : Reply :=
  if !env.mounted then ⟨s.mCurrentPath, .OBEX_HTTP_NO_CONTENT, []⟩
  else match headers with
    | none => ⟨s.mCurrentPath, .OBEX_HTTP_INTERNAL_ERROR, []⟩
    | some h =>
      if isDots h.name then ⟨s.mCurrentPath, .OBEX_HTTP_NOT_ACCEPTABLE, []⟩
      else match h.type with
        | some type =>
          if type = TYPE_LISTING then s.getListing env (h.name.getD []) sent
          else ⟨s.mCurrentPath, .OBEX_HTTP_BAD_REQUEST, []⟩
        | none => s.sendFileContents env (subPath s.mCurrentPath h.name) sent

/-- `onPutInternal`, from the check of the directory on. -/
def receiveFile (s : Server) (env : Env) (path : JString) (received : Received) : Reply :=
  match getParentFile path with
  | none => ⟨s.mCurrentPath, .OBEX_HTTP_INTERNAL_ERROR, []⟩
  | some parent =>
    if !env.canWrite parent then ⟨s.mCurrentPath, .OBEX_DATABASE_LOCKED, []⟩
    else if env.doesPathExist path ∧ !env.canWrite path then
      ⟨s.mCurrentPath, .OBEX_DATABASE_LOCKED, []⟩
    else
      let deleted := env.delete path
      match env.openOutput path deleted.isSome with
      | none => ⟨s.mCurrentPath, .OBEX_HTTP_INTERNAL_ERROR, deleted.toList⟩
      | some access =>
        match received with
        | .complete => ⟨s.mCurrentPath, .OBEX_HTTP_OK, deleted.toList ++ [access]⟩
        | .unclosed => ⟨s.mCurrentPath, .OBEX_HTTP_INTERNAL_ERROR, deleted.toList ++ [access]⟩
        | .aborted =>
          -- the file that has been written is deleted, unless this is refused
          let cleaned :=
            if env.refused ⟨.delete, access.place⟩ then [] else [⟨.delete, access.place⟩]
          ⟨s.mCurrentPath, .OBEX_HTTP_BAD_REQUEST, deleted.toList ++ access :: cleaned⟩

def onPutInternal (s : Server) (env : Env) (headers : Option Headers) (opened : Bool)
    (received : Received) :
    Reply :=
  if !env.mounted then ⟨s.mCurrentPath, .OBEX_HTTP_NO_CONTENT, []⟩
  else match headers with
    | none => ⟨s.mCurrentPath, .OBEX_HTTP_INTERNAL_ERROR, []⟩
    | some h =>
      if isDots h.name then ⟨s.mCurrentPath, .OBEX_HTTP_NOT_ACCEPTABLE, []⟩
      else if h.name = none ∨ h.name = some [] then ⟨s.mCurrentPath, .OBEX_HTTP_BAD_REQUEST, []⟩
      else if !env.checkAvailableSpace (h.length.getD 0) then
        ⟨s.mCurrentPath, .OBEX_HTTP_ENTITY_TOO_LARGE, []⟩
      else if !opened then ⟨s.mCurrentPath, .OBEX_HTTP_INTERNAL_ERROR, []⟩
      else s.receiveFile env (subPath s.mCurrentPath h.name) received

/-- `onDeleteInternal`, from the check of the file on. -/
def deleteFile (s : Server) (env : Env) (path : JString) : Reply :=
  match env.node path with
  | none => ⟨s.mCurrentPath, .OBEX_HTTP_NOT_FOUND, []⟩
  | some (dir, node) =>
    if !env.canWrite path then ⟨s.mCurrentPath, .OBEX_HTTP_UNAUTHORIZED, []⟩
    else match node with
      | .dir entries =>
        match deleteDirectory env.refused dir entries with
        | (none, accesses) => ⟨s.mCurrentPath, .OBEX_HTTP_OK, accesses⟩
        | (some _, accesses) => ⟨s.mCurrentPath, .OBEX_HTTP_UNAUTHORIZED, accesses⟩
      | .file =>
        match env.delete path with
        | some access => ⟨s.mCurrentPath, .OBEX_HTTP_OK, [access]⟩
        | none => ⟨s.mCurrentPath, .OBEX_HTTP_UNAUTHORIZED, []⟩

def onDeleteInternal (s : Server) (env : Env) (headers : Option Headers) : Reply :=
  if !env.mounted then ⟨s.mCurrentPath, .OBEX_HTTP_NO_CONTENT, []⟩
  else match headers with
    | none => ⟨s.mCurrentPath, .OBEX_HTTP_INTERNAL_ERROR, []⟩
    | some h =>
      if isDots h.name then ⟨s.mCurrentPath, .OBEX_HTTP_UNAUTHORIZED, []⟩
      else s.deleteFile env (subPath s.mCurrentPath h.name)

/-- Serve a request. -/
def serve (s : Server) (env : Env) : Request → Except Exn Reply
  | .setPath headers backup create => s.onSetPathInternal env headers backup create
  | .get headers sent => .ok (s.onGetInternal env headers sent)
  | .put headers opened received => .ok (s.onPutInternal env headers opened received)
  | .delete headers => .ok (s.onDeleteInternal env headers)

/-- A request in a session, which an exception ends. -/
def step (s : Server) (a : Env × Request) : Option Server :=
  match s.serve a.1 a.2 with
  | .ok reply =>
      some { s with mCurrentPath := reply.mCurrentPath, touched := s.touched ++ reply.accesses }
  | .error _ => none

/-! ### The condition -/

def roots (s : Server) : List JString :=
  s.rootPrimaryStoragePath.toList ++ s.rootSecondaryStoragePath.toList

/-- The place lies inside one of the storage roots. -/
def Inside (s : Server) (place : Place) : Prop :=
  ∃ root ∈ s.roots, walk dot [] (components slash root) <+: place

/-- The path begins with one of the storage roots and never climbs above it. -/
def Kept (s : Server) (path : JString) : Prop := ∃ root ∈ s.roots, Within slash dot root path

instance (s : Server) (place : Place) : Decidable (s.Inside place) :=
  inferInstanceAs (Decidable (∃ _ ∈ _, _))

instance (s : Server) (path : JString) : Decidable (s.Kept path) :=
  inferInstanceAs (Decidable (∃ _ ∈ _, _))

/-- The path that a request makes of its name, if it does. -/
def named (s : Server) : Request → Option JString
  | .setPath (some h) false _ =>
    if isDots h.name then none else h.name.bind fun name => s.mCurrentPath.map fun path => path ++
      slash :: name
  | .get (some h) _ =>
    if isDots h.name then none
    else match h.type with
      | none => some (subPath s.mCurrentPath h.name)
      | some type =>
        if type = TYPE_LISTING then
          s.mCurrentPath.bind fun path =>
            if h.name.getD [] = [] ∨ s.isRoot path ∨ getName path = h.name.getD [] then none
            else some (subPath s.mCurrentPath h.name)
        else none
  | .put (some h) _ _ =>
    if isDots h.name ∨ h.name = none ∨ h.name = some [] then none
      else some (subPath s.mCurrentPath h.name)
  | .delete (some h) => if isDots h.name then none else some (subPath s.mCurrentPath h.name)
  | _ => none

/-- The path that the request makes of its name is kept, unless the storage is not mounted. -/
def Confined (s : Server) (a : Env × Request) : Prop :=
  a.1.mounted = true → ∀ path ∈ s.named a.2, s.Kept path

instance (s : Server) (a : Env × Request) : Decidable (s.Confined a) :=
  inferInstanceAs (Decidable (_ → ∀ _ ∈ _, _))

/-! ### One request -/

section Serve

variable {s : Server} {env : Env} {path : JString} {a : Access}

/-- The reply leaves a path that is kept, and has touched nothing outside. -/
structure Good (s : Server) (r : Reply) : Prop where
  path : ∀ path ∈ r.mCurrentPath, s.Kept path
  accesses : ∀ a ∈ r.accesses, s.Inside a.place

theorem Kept.inside (h : s.Kept path) (ha : a.Below path) : s.Inside a.place := by
  obtain ⟨root, hroot, hwithin⟩ := h
  exact ⟨root, hroot, hwithin.prefix_walk.trans ha⟩

theorem isRoot_iff : s.isRoot path = true ↔ path ∈ s.roots := by
  rw [isRoot, roots, List.mem_append, Option.mem_toList, Option.mem_toList, Bool.or_eq_true,
    decide_eq_true_eq, decide_eq_true_eq]

theorem Kept.root (h : path ∈ s.roots) : s.Kept path := ⟨path, h, Within.refl path⟩

/-- `path.substring(0, path.lastIndexOf("/"))`. -/
theorem exists_of_substring {tmp : JString}
    (h : substring path 0 (lastIndexOf path [slash]) = .ok tmp) :
    ∃ name, path = tmp ++ slash :: name ∧ slash ∉ name := by
  rw [lastIndexOf] at h
  split at h
  · next i hi =>
    obtain ⟨pre, name, rfl, hname, rfl⟩ := exists_of_lastIndex_singleton hi
    rw [substring] at h
    split_ifs at h
    obtain rfl := Except.ok.inj h
    refine ⟨name, ?_, hname⟩
    rw [Int.toNat_zero, List.drop_zero, Int.sub_zero, Int.toNat_natCast, List.take_left]
  · rw [substring, if_pos (.inr (.inr (by decide)))] at h
    cases h

/-- What the backup flag leaves of a path. -/
theorem Kept.backUp {tmp : Option JString} (h : s.Kept path) (htmp : s.backUp path = .ok tmp) :
    ∀ p ∈ tmp, s.Kept p := by
  rw [Server.backUp] at htmp
  split_ifs at htmp with hcut hroot
  · cases hsub : substring path 0 (lastIndexOf path [slash]) with
    | error e =>
      rw [hsub] at htmp
      cases htmp
    | ok cut =>
      rw [hsub] at htmp
      cases htmp
      obtain ⟨name, rfl, hname⟩ := exists_of_substring hsub
      obtain ⟨root, hmem, hwithin⟩ := h
      have hne : cut ++ slash :: name ≠ root := by
        rintro rfl
        exact hcut.2 (isRoot_iff.2 hmem)
      rintro p ⟨⟩
      exact ⟨root, hmem, hwithin.cut hname hne⟩
  · cases htmp
    exact nofun
  · cases htmp
    rintro p ⟨⟩
    exact h

/-- A path that is kept can be cut, unless it is a root. -/
theorem Kept.exists_backUp (h : s.Kept path) : ∃ tmp, s.backUp path = .ok tmp := by
  rw [Server.backUp]
  split_ifs with hcut
  · obtain ⟨root, hmem, hwithin⟩ := h
    obtain ⟨rest, rfl, hsep, -⟩ := within_iff.1 hwithin
    have hslash : slash ∈ root ++ rest := by
      cases rest with
      | nil =>
        rw [List.append_nil] at hcut
        exact absurd (isRoot_iff.2 hmem) hcut.2
      | cons c rest =>
        rw [hsep c rfl]
        exact List.mem_append_right root List.mem_cons_self
    cases hlast : lastIndex [slash] (root ++ rest) with
    | none => exact absurd hslash (notMem_of_lastIndex_eq_none hlast)
    | some i =>
      obtain ⟨pre, name, hpath, -, rfl⟩ := exists_of_lastIndex_singleton hlast
      have hle :
          ¬((0 : ℤ) < 0 ∨ ((root ++ rest).length : ℤ) < pre.length ∨ (pre.length : ℤ) < 0) := by
        rw [hpath, List.length_append, List.length_cons]
        omega
      rw [lastIndexOf, hlast]
      simp only
      rw [substring, if_neg hle]
      exact ⟨_, rfl⟩
  · exact ⟨_, rfl⟩
  · exact ⟨_, rfl⟩

/-- What SETPATH makes of a name. -/
theorem Kept.goDown {name : Option JString}
    (h : ∀ n ∈ name, ∀ path ∈ s.mCurrentPath, s.Kept (path ++ slash :: n)) : ∀ p ∈ s.goDown name,
      s.Kept p := by
  intro p hp
  cases name with
  | none => cases hp
  | some n =>
    rw [Server.goDown] at hp
    split_ifs at hp
    · exact .root (List.mem_append_left _ (Option.mem_toList.2 hp))
    · exact .root (List.mem_append_right _ (Option.mem_toList.2 hp))
    · obtain ⟨path, hpath, rfl⟩ := Option.map_eq_some_iff.1 hp
      exact h n rfl path hpath

-- The current path is kept before the request.
variable (hs : ∀ path ∈ s.mCurrentPath, s.Kept path)
include hs

theorem Good.untouched (response : Response) : s.Good ⟨s.mCurrentPath, response, []⟩ := ⟨hs, nofun⟩

/-- A request that is turned down. -/
theorem Good.guard {c : Prop} [Decidable c] {response : Response} {r : Reply} (hr : ¬c → s.Good r) :
    s.Good (if c then ⟨s.mCurrentPath, response, []⟩ else r) := by
  split_ifs with hc
  · exact .untouched hs response
  · exact hr hc

theorem Good.changePath {name tmp : Option JString} {backup create : Bool}
    (htmp : ∀ path ∈ tmp, s.Kept path) : s.Good (s.changePath env name backup create tmp) := by
  unfold Server.changePath
  cases tmp with
  | none =>
    simp only
    split_ifs
    · exact .untouched hs _
    · exact .untouched hs _
    · exact ⟨nofun, nofun⟩
    · exact ⟨nofun, nofun⟩
  | some path =>
    have hpath : s.Kept path := htmp path rfl
    have hset : ∀ p ∈ some path, s.Kept p := by
      rintro p ⟨⟩
      exact hpath
    simp only
    split_ifs
    · split
      · next access haccess =>
        refine ⟨hset, ?_⟩
        intro a ha
        obtain rfl := List.mem_singleton.1 ha
        exact hpath.inside (Env.below_mkdir haccess)
      · exact .untouched hs _
    · exact .untouched hs _
    · exact .untouched hs _
    · exact .untouched hs _
    · exact ⟨hset, nofun⟩
    · exact ⟨hset, nofun⟩

/-- A request that makes at most one access. -/
theorem Good.single {access : Option Access} {granted refused : Response} :
    (∀ a ∈ access, s.Inside a.place) → s.Good (match access with
      | some a => ⟨s.mCurrentPath, granted, [a]⟩
      | none => ⟨s.mCurrentPath, refused, []⟩) := by
  intro h
  cases access with
  | none => exact .untouched hs _
  | some access =>
    refine ⟨hs, ?_⟩
    intro a ha
    rw [List.mem_singleton.1 ha]
    exact h access rfl

theorem Good.sendFolder (hpath : s.Kept path) (sent : Response) :
    s.Good (s.sendFolder env path sent) := by
  refine .single hs ?_
  intro a ha
  exact hpath.inside (Env.below_listFiles ha)

theorem Good.sendFileContents (hpath : s.Kept path) (sent : Response) :
    s.Good (s.sendFileContents env path sent) := by
  refine .guard hs ?_
  intro _
  refine .single hs ?_
  intro a ha
  exact hpath.inside (Env.below_openInput ha)

theorem Good.receiveFile (hpath : s.Kept path) (received : Received) :
    s.Good (s.receiveFile env path received) := by
  have hdeleted : ∀ a ∈ (env.delete path).toList, s.Inside a.place := by
    intro a ha
    exact hpath.inside (Env.below_delete (Option.mem_toList.1 ha))
  unfold Server.receiveFile
  split
  · exact .untouched hs _
  · refine .guard hs fun _ => .guard hs fun _ => ?_
    simp only
    split
    · exact ⟨hs, hdeleted⟩
    · next access haccess =>
      have hwritten : s.Inside access.place := hpath.inside (Env.below_openOutput haccess)
      -- what is cleaned up is the file that has been written
      have hall : ∀ {l : List Access}, (∀ a ∈ l, a.place = access.place) →
          ∀ a ∈ (env.delete path).toList ++ access :: l, s.Inside a.place := by
        intro l hl a ha
        rcases List.mem_append.1 ha with ha | ha
        · exact hdeleted a ha
        · rcases List.mem_cons.1 ha with rfl | ha
          · exact hwritten
          · rw [hl a ha]
            exact hwritten
      cases received with
      | complete => exact ⟨hs, hall nofun⟩
      | unclosed => exact ⟨hs, hall nofun⟩
      | aborted =>
        refine ⟨hs, hall ?_⟩
        intro a ha
        split_ifs at ha
        · cases ha
        · rw [List.mem_singleton.1 ha]

theorem Good.deleteFile (hpath : s.Kept path) : s.Good (s.deleteFile env path) := by
  rw [Server.deleteFile]
  split
  · exact .untouched hs _
  · next dir node hnode =>
    refine .guard hs fun _ => ?_
    cases node with
    | dir entries =>
      have hdir : ∀ a ∈ (deleteDirectory env.refused dir entries).2, s.Inside a.place := by
        intro a ha
        have hbelow : a.Below path := by
          rw [Access.Below, ← Env.place_eq (Env.place_of_node hnode)]
          exact prefix_deleteDirectory env.refused dir entries a ha
        exact hpath.inside hbelow
      simp only
      split
      · next accesses heq =>
        rw [heq] at hdir
        exact ⟨hs, hdir⟩
      · next left accesses heq =>
        rw [heq] at hdir
        exact ⟨hs, hdir⟩
    | file =>
      refine .single hs ?_
      intro a ha
      exact hpath.inside (Env.below_delete ha)

/-! ### The requests -/

variable {headers : Option Headers} {reply : Reply}

/-- A folder listing. -/
theorem Good.getListing {name : JString} (sent : Response)
    (hname : ∀ path, s.mCurrentPath = some path → name ≠ [] → s.isRoot path ≠ true →
      getName path ≠ name →
      s.Kept (subPath s.mCurrentPath (some name))) : s.Good (s.getListing env name sent) := by
  unfold Server.getListing
  split
  · exact .untouched hs _
  · next path hpath =>
    split_ifs with hroot hown
    · exact .sendFolder hs (hs path hpath) sent
    · obtain ⟨hne, hroot⟩ := not_or.1 hroot
      simp only
      split_ifs
      · exact .sendFolder hs (hname path hpath hne hroot hown) sent
      · exact .untouched hs _
    · exact .sendFolder hs (hs path hpath) sent

theorem Good.onSetPathInternal {backup create : Bool}
    (hnamed : s.Confined (env, .setPath headers backup create))
    (h : s.onSetPathInternal env headers backup create = .ok reply) : s.Good reply := by
  unfold Server.onSetPathInternal at h
  by_cases hmounted : (!env.mounted) = true
  · rw [if_pos hmounted] at h
    obtain rfl := Except.ok.inj h
    exact .untouched hs _
  rw [if_neg hmounted] at h
  have hnamed := hnamed (Bool.not_not_eq.1 hmounted)
  cases headers with
  | none =>
    obtain rfl := Except.ok.inj h
    exact .untouched hs _
  | some hd =>
    simp only at h
    split_ifs at h with hdots hbackup
    · obtain rfl := Except.ok.inj h
      exact .untouched hs _
    · split at h
      · obtain rfl := Except.ok.inj h
        exact .untouched hs _
      · next path hpath =>
        cases htmp : s.backUp path with
        | error e =>
          rw [htmp] at h
          cases h
        | ok tmp =>
          rw [htmp] at h
          obtain rfl := Except.ok.inj h
          exact .changePath hs ((hs path hpath).backUp htmp)
    · obtain rfl := Except.ok.inj h
      refine .changePath hs (Kept.goDown fun n hn path hpath => hnamed _ ?_)
      rw [Bool.not_eq_true] at hbackup
      rw [hbackup, Server.named, if_neg hdots, Option.mem_def.1 hn, Option.mem_def.1 hpath]
      rfl

theorem exists_onSetPathInternal (env : Env) (headers : Option Headers) (backup create : Bool) :
    ∃ reply, s.onSetPathInternal env headers backup create = .ok reply := by
  unfold Server.onSetPathInternal
  by_cases hmounted : (!env.mounted) = true
  · rw [if_pos hmounted]
    exact ⟨_, rfl⟩
  rw [if_neg hmounted]
  cases headers with
  | none => exact ⟨_, rfl⟩
  | some hd =>
    simp only
    split_ifs
    · exact ⟨_, rfl⟩
    · split
      · exact ⟨_, rfl⟩
      · next path hpath =>
        obtain ⟨tmp, htmp⟩ := (hs path hpath).exists_backUp
        rw [htmp]
        exact ⟨_, rfl⟩
    · exact ⟨_, rfl⟩

theorem Good.onGetInternal {sent : Response} (hnamed : s.Confined (env, .get headers sent)) :
    s.Good (s.onGetInternal env headers sent) := by
  refine .guard hs fun hmounted => ?_
  have hnamed := hnamed (Bool.not_not_eq.1 hmounted)
  cases headers with
  | none => exact .untouched hs _
  | some hd =>
    refine .guard hs fun hdots => ?_
    rw [Server.named, if_neg hdots] at hnamed
    cases htype : hd.type with
    | none =>
      rw [htype] at hnamed
      exact .sendFileContents hs (hnamed _ rfl) sent
    | some type =>
      rw [htype] at hnamed
      simp only at hnamed ⊢
      split_ifs at hnamed ⊢ with hlisting
      · refine .getListing hs sent fun path hpath hne hroot hown => hnamed _ ?_
        obtain ⟨name, hname⟩ : ∃ name, hd.name = some name := by
          cases hname : hd.name with
          | none => exact absurd (by rw [hname]; rfl) hne
          | some name => exact ⟨name, rfl⟩
        rw [hpath, Option.bind_some, if_neg (not_or.2 ⟨hne, not_or.2 ⟨hroot, hown⟩⟩), hname]
        rfl
      · exact .untouched hs _

theorem Good.onPutInternal {opened : Bool} {received : Received}
    (hnamed : s.Confined (env, .put headers opened received)) :
    s.Good (s.onPutInternal env headers opened received) := by
  refine .guard hs fun hmounted => ?_
  have hnamed := hnamed (Bool.not_not_eq.1 hmounted)
  cases headers with
  | none => exact .untouched hs _
  | some hd =>
    refine .guard hs fun hdots => ?_
    refine .guard hs fun hname => ?_
    refine .guard hs fun _ => ?_
    refine .guard hs fun _ => ?_
    refine .receiveFile hs (hnamed _ ?_) received
    rw [Server.named, if_neg (not_or.2 ⟨hdots, hname⟩)]
    rfl

theorem Good.onDeleteInternal (hnamed : s.Confined (env, .delete headers)) :
    s.Good (s.onDeleteInternal env headers) := by
  refine .guard hs fun hmounted => ?_
  have hnamed := hnamed (Bool.not_not_eq.1 hmounted)
  cases headers with
  | none => exact .untouched hs _
  | some hd =>
    refine .guard hs fun hdots => ?_
    refine .deleteFile hs (hnamed _ ?_)
    rw [Server.named, if_neg hdots]
    rfl

/-- **One request** touches nothing outside the storage roots, if the path that is made of its name
never climbs above one. -/
theorem serve_inside {r : Request} (hnamed : s.Confined (env, r)) (h : s.serve env r = .ok reply) :
    s.Good reply := by
  cases r with
  | setPath headers backup create => exact .onSetPathInternal hs hnamed h
  | get headers sent =>
    obtain rfl := Except.ok.inj h
    exact .onGetInternal hs hnamed
  | put headers opened received =>
    obtain rfl := Except.ok.inj h
    exact .onPutInternal hs hnamed
  | delete headers =>
    obtain rfl := Except.ok.inj h
    exact .onDeleteInternal hs hnamed

end Serve

/-! ### A session -/

section Session

variable {s t : Server} {as : List (Env × Request)} {volumes : List StorageVolume}

/-- The path and everything that has been touched are inside the roots, which do not change. -/
structure Stored (s₀ s : Server) : Prop where
  primary : s.rootPrimaryStoragePath = s₀.rootPrimaryStoragePath
  secondary : s.rootSecondaryStoragePath = s₀.rootSecondaryStoragePath
  path : ∀ path ∈ s.mCurrentPath, s.Kept path
  touched : ∀ a ∈ s.touched, s.Inside a.place

theorem Stored.step {s₀ : Server} {a : Env × Request} (h : Stored s₀ s) (hG : s.Confined a)
    (hstep : s.step a = some t) : Stored s₀ t := by
  rw [Server.step] at hstep
  split at hstep
  · next reply hreply =>
    obtain rfl := Option.some.inj hstep
    have hgood := serve_inside h.path hG hreply
    refine ⟨h.primary, h.secondary, hgood.path, fun a ha => ?_⟩
    rcases List.mem_append.1 ha with ha | ha
    · exact h.touched a ha
    · exact hgood.accesses a ha
  · cases hstep

/-- No exception ends the session. -/
theorem Stored.exists_step {s₀ : Server} (h : Stored s₀ s) (a : Env × Request) :
    ∃ t, s.step a = some t := by
  obtain ⟨env, r⟩ := a
  have hreply : ∃ reply, s.serve env r = .ok reply := by
    cases r with
    | setPath headers backup create =>
      exact exists_onSetPathInternal h.path env headers backup create
    | get headers sent => exact ⟨_, rfl⟩
    | put headers opened received => exact ⟨_, rfl⟩
    | delete headers => exact ⟨_, rfl⟩
  obtain ⟨reply, hreply⟩ := hreply
  rw [Server.step, hreply]
  exact ⟨_, rfl⟩

theorem touched_onConnect (s : Server) (volumes : List StorageVolume) :
    (onConnect s volumes).touched = s.touched := by
  have hvolumes : (volumes.foldl Server.addVolume s).touched = s.touched := by
    induction volumes generalizing s with
    | nil => rfl
    | cons v volumes ih =>
      rw [List.foldl_cons, ih, Server.addVolume]
      split_ifs
      · rfl
      · rfl
      · rfl
  exact hvolumes

/-- **The server stays in the shared storage.**  In a session after a connection in which no path
that is made of a name climbs above the storage roots, everything that is touched lies inside one of
them. -/
theorem touched_inside (hs : s.touched = [])
    (h : Run Server.step Server.Confined (onConnect s volumes) as t) :
    ∀ a ∈ t.touched, (onConnect s volumes).Inside a.place := by
  have hstored : Stored (onConnect s volumes) t := by
    refine h.invariant ⟨rfl, rfl, nofun, ?_⟩ fun s a t hG hs hstep => hs.step hG hstep
    rw [touched_onConnect, hs]
    exact nofun
  intro a ha
  have hinside := hstored.touched a ha
  rw [Inside, roots, hstored.primary, hstored.secondary] at hinside
  exact hinside

/-- The volumes of a phone. -/
def sdVolumes : List StorageVolume := [⟨js "/sd0", true, false⟩, ⟨js "/sd1", false, true⟩]

/-- A file `/etc/hosts`, and a file and a directory on the first volume. -/
def phone : Env where
  fs := .dir (js "etc") (.file (js "hosts") .nil)
    (.dir (js "sd0") (.file (js "song") (.dir (js "music") .nil .nil)) .nil)

/-- Enter the memory of the phone and get a file. -/
def fetch (name : JString) : List (Env × Request) :=
  [(phone, .setPath (some { name := some PRIMARY_INTERNAL_FOLDERNAME }) false false),
    (phone, .get (some { name := some name }) .OBEX_HTTP_OK)]

theorem touched_inside_fetch : ∃ t,
    Run Server.step Server.Confined (onConnect {} sdVolumes) (fetch (js "music/../song")) t ∧
      t.touched = [⟨.read, [js "sd0", js "song"]⟩] ∧
      ∀ a ∈ t.touched, (onConnect {} sdVolumes).Inside a.place := by
  have hexec :
    (exec Server.step Server.Confined (onConnect {} sdVolumes) (fetch (js "music/../song"))).map
      Server.touched = some [⟨.read, [js "sd0", js "song"]⟩] := by decide
  obtain ⟨t, hrun, ht⟩ := exists_run_of_exec hexec
  exact ⟨t, hrun, ht, touched_inside rfl hrun⟩

/-- A name with more than one component climbs above the storage root. -/
theorem outside_read : ∃ t,
    Run Server.step (fun _ _ => True) (onConnect {} sdVolumes) (fetch (js "../etc/hosts")) t ∧
      ∃ a ∈ t.touched, ¬(onConnect {} sdVolumes).Inside a.place := by
  have hexec :
    (exec Server.step (fun _ _ => True) (onConnect {} sdVolumes) (fetch (js "../etc/hosts"))).map
      Server.touched = some [⟨.read, [js "etc", js "hosts"]⟩] := by decide
  obtain ⟨t, hrun, ht⟩ := exists_run_of_exec hexec
  refine ⟨t, hrun, ⟨.read, [js "etc", js "hosts"]⟩, ?_, by decide⟩
  rw [ht]
  exact List.mem_singleton.2 rfl

end Session

end Server

end Ftp

end Msm8909w
