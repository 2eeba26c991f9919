import Msm8909w.Lib.Paths
import Msm8909w.Lib.Runs
import Msm8909w.Map.MmsPush

/-!
# The current folder

`checkPath` and `setPath` of `BluetoothMasAppIf.java` keep the folder in which the client is, as the
text of its path.  `onSetPathInternal` of `BluetoothMasObexServer.java` serves the requests that
change it.  Going up and entering a folder are two stages of one request, and the path is
overwritten after the first one.

* `checkPath`, `onSetPathInternal`, `step` : the code, and the server between two requests,
* `Rooted.checkPath` : on a path that begins with `telecom` nothing fails, and every path does,
* `changesNothing_iff` : a request that is not answered with `OBEX_HTTP_OK` leaves everything as it
  was exactly if its name can be read, and it does not go up to a folder in which the name is not
  found.

The folder list is the one that `getCompleteFolderList` returns when it is called.
-/

namespace Msm8909w

namespace Map

namespace Folders

/-! ### Upper and lower case -/

/-- Upper and lower case, by the tables of the Unicode version and the locale of the device. -/
structure CaseMaps where
  /-- `Character.toLowerCase(Character.toUpperCase(c))`. -/
  fold : UInt16 → UInt16
  /-- `s.toUpperCase()`. -/
  toUpperCase : JString → JString
  /-- The characters that are equal to an ASCII character but for their case. -/
  fold_latin : ∀ c d, d < 128 → (fold c = fold d ↔ foldCase c = foldCase d)
  /-- A text whose upper case has this word in it has it in upper or lower case. -/
  gmail_of_toUpperCase : ∀ s, js "GMAIL" <:+: toUpperCase s → (js "gmail").map fold <:+: s.map fold

/-- `s.equalsIgnoreCase(t)`. -/
def CaseMaps.equalsIgnoreCase (M : CaseMaps) (s t : JString) : Bool := s.map M.fold = t.map M.fold

/-- `s` has the word in it, in upper or lower case. -/
def CaseMaps.Mentions (M : CaseMaps) (s word : JString) : Prop := word.map M.fold <:+: s.map M.fold

instance (M : CaseMaps) (s word : JString) : Decidable (M.Mentions s word) :=
  inferInstanceAs (Decidable (_ <:+: _))

/-- The upper case of a Latin letter, and of the `i` without a dot. -/
def latinUpper (c : UInt16) : UInt16 :=
  if 97 ≤ c ∧ c ≤ 122 then c - 32 else if c = 0x131 then 73 else c

theorem foldCase_latinUpper (c : UInt16) : foldCase (latinUpper c) = foldCase c := by
  unfold latinUpper
  split_ifs with hsmall hdotless
  · have hbig : 65 ≤ c - 32 ∧ c - 32 ≤ 90 := by
      have hle : (32 : UInt16) ≤ c := UInt16.le_trans (by decide) hsmall.1
      rw [UInt16.le_iff_toNat_le, UInt16.le_iff_toNat_le, UInt16.toNat_sub_of_le c 32 hle]
      rw [UInt16.le_iff_toNat_le, UInt16.le_iff_toNat_le] at hsmall
      simp only [UInt16.reduceToNat] at hsmall ⊢
      omega
    rw [foldCase, if_pos hbig, UInt16.sub_add_cancel, foldCase]
    grind
  · rw [hdotless]
    rfl
  · rfl

/-- The tables, as far as the Latin letters go. -/
def latin : CaseMaps where
  fold := foldCase
  toUpperCase := List.map latinUpper
  fold_latin _ _ _ := Iff.rfl
  gmail_of_toUpperCase s h := by
    have hfold := h.map foldCase
    have hsame : (s.map latinUpper).map foldCase = s.map foldCase := by
      rw [List.map_map]
      exact List.map_congr_left fun c _ => foldCase_latinUpper c
    rw [hsame] at hfold
    exact hfold

/-! ### The code -/

def TELECOM : JString := js "telecom"
def MSG : JString := js "msg"

/-- The folders of the SMS and MMS application. -/
def FORLDER_LIST_SMS_MMS : List JString := [INBOX, OUTBOX, SENT, DELETED, DRAFT]

section Code

variable (M : CaseMaps) (folders : List JString)

/-- `checkPath`, upwards: the path of the folder above. -/
def goUp (mCurrentPath : JString) : Except Exn (Option JString) := do
  let path ←
    if js "GMAIL" <:+: M.toUpperCase mCurrentPath then
      substring mCurrentPath 0 (lastIndexOf mCurrentPath [47])
    else pure mCurrentPath
  let LastIndex := lastIndexOf path [47]
  if LastIndex < 0 then return none else return some (← substring path 0 LastIndex)

/-- `checkPath`, downwards: what is returned, and the path. -/
def goDown (name : JString) (setPathFlag : Bool) : Option JString → Bool × Option JString
  | none =>
    if TELECOM = name then (true, if setPathFlag then some TELECOM else none) else (false, none)
  | some mCurrentPath =>
    let entered := mCurrentPath ++ if setPathFlag then 47 :: name else []
    match (splitPath mCurrentPath).length with
    | 0 => (false, some mCurrentPath)
    | 1 => if name = MSG then (true, some entered) else (false, some mCurrentPath)
    | _ =>
      if folders.any fun FolderName => M.equalsIgnoreCase FolderName name then (true, some entered)
      else (false, some mCurrentPath)

/-- `checkPath`: what is returned, and the path.  If it fails, the path is as before. -/
def checkPath (up : Bool) (name : Option JString) (setPathFlag : Bool)
    (mCurrentPath : Option JString) : Except Exn (Bool × Option JString) :=
  match up, name, mCurrentPath with
  | false, none, path | false, some [], path => .ok (true, if setPathFlag then none else path)
  | false, some name, path => .ok (goDown M folders name setPathFlag path)
  | true, _, none => .ok (false, none)
  | true, none, some path | true, some [], some path => do return (true, ← goUp M path)
  | true, some name, some path => do return goDown M folders name setPathFlag (← goUp M path)

/-- `setPath`. -/
def setPath (up : Bool) (name mCurrentPath : Option JString) : Except Exn (Bool × Option JString) :=
  checkPath M folders up name true mCurrentPath

/-- The states of the server that the code takes. -/
inductive MasState
  | MAS_SERVER_CONNECTED
  | MAS_SERVER_DISCONNECTED
  | MAS_SERVER_SET_FOLDER
  deriving DecidableEq, Repr

/-- The answers to a request. -/
inductive ResponseCode
  | OBEX_HTTP_OK
  | OBEX_HTTP_BAD_REQUEST
  | OBEX_HTTP_NOT_FOUND
  | OBEX_HTTP_INTERNAL_ERROR
  | OBEX_HTTP_UNAVAILABLE
  deriving DecidableEq, Repr

/-- Why a header cannot be read. -/
inductive HeaderFailure
  | IOException
  | IllegalArgumentException
  deriving DecidableEq, Repr

/-- A request, with what `getHeader` returns for its name. -/
structure SetPathRequest where
  backup : Bool
  create : Bool
  name : Except HeaderFailure (Option JString)

/-- What the server keeps between two requests. -/
structure Server where
  mState : MasState
  mCurrentPath : Option JString
  deriving DecidableEq, Repr

/-- `onSetPathInternal`.  The flag `create` is only used for a variable that is not read. -/
def onSetPathInternal (r : SetPathRequest) (s : Server) : Except Exn ResponseCode × Server :=
  if s.mState ≠ .MAS_SERVER_CONNECTED then (.ok .OBEX_HTTP_UNAVAILABLE, s)
  else
    let s := { s with mState := .MAS_SERVER_SET_FOLDER }
    match r.name with
    | .error .IOException => (.ok .OBEX_HTTP_INTERNAL_ERROR, s)
    | .error .IllegalArgumentException => (.ok .OBEX_HTTP_BAD_REQUEST, s)
    | .ok tmpPath =>
      match setPath M folders r.backup tmpPath s.mCurrentPath with
      | .error e => (.error e, s)
      | .ok (retVal, path) =>
        (.ok (if retVal then .OBEX_HTTP_OK else .OBEX_HTTP_NOT_FOUND),
          { mState := .MAS_SERVER_CONNECTED, mCurrentPath := path })

end Code

/-! ### The folder above -/

section Above

variable {M : CaseMaps} {path : JString}

variable (M) in
/-- The path of the folder above: the path without its last name, or without its last two if there
is a `gmail` in it. -/
def above (path : JString) : Option JString :=
  textOf 47 (if js "GMAIL" <:+: M.toUpperCase path then (path.splitOn 47).dropLast.dropLast
    else (path.splitOn 47).dropLast)

theorem lastSlash_cases (path : JString) : (47 ∉ path ∧ lastIndexOf path [47] = -1) ∨
    ∃ front name, path = front ++ 47 :: name ∧ 47 ∉ name ∧
      lastIndexOf path [47] = front.length := by
  rw [lastIndexOf]
  cases h : lastIndex [47] path with
  | none => exact .inl ⟨notMem_of_lastIndex_eq_none h, rfl⟩
  | some i =>
    obtain ⟨front, name, hpath, hname, rfl⟩ := exists_of_lastIndex_singleton h
    exact .inr ⟨front, name, hpath, hname, rfl⟩

theorem substring_front (front rest : JString) :
    substring (front ++ rest) 0 front.length = .ok front := by
  have h := substring_append (a := []) (y := front) (z := rest)
  simpa using h

/-- The last stage of going up takes away the last name. -/
theorem cutLast_eq (path : JString) :
    (if lastIndexOf path [47] < 0 then return none
      else return some (← substring path 0 (lastIndexOf path [47])) : Except Exn (Option JString)) =
      .ok (textOf 47 (path.splitOn 47).dropLast) := by
  rcases lastSlash_cases path with ⟨hpath, hlast⟩ | ⟨front, name, rfl, hname, hlast⟩
  · rw [hlast, if_pos (by decide), textOf_dropLast_of_notMem hpath]
    rfl
  · rw [hlast, if_neg (by omega), substring_front, textOf_dropLast hname]
    rfl

/-- Going up leads to the folder above. -/
theorem goUp_eq (h : js "GMAIL" <:+: M.toUpperCase path → 47 ∈ path) :
    goUp M path = .ok (above M path) := by
  rw [goUp, above]
  split_ifs with hgmail
  · rcases lastSlash_cases path with ⟨hpath, -⟩ | ⟨front, name, rfl, hname, hlast⟩
    · exact absurd (h hgmail) hpath
    · rw [hlast, substring_front, splitOn_append_last hname, List.dropLast_concat]
      exact cutLast_eq front
  · exact cutLast_eq path

/-- The folder above has a shorter path. -/
theorem above_ne (path : JString) : above M path ≠ some path := by
  have hshorter : ∀ p q : JString, textOf 47 (p.splitOn 47).dropLast = some q →
      q.length < p.length := by
    intro p q hq
    rcases lastSlash_cases p with ⟨hp, -⟩ | ⟨front, name, rfl, hname, -⟩
    · rw [textOf_dropLast_of_notMem hp] at hq
      cases hq
    · rw [textOf_dropLast hname] at hq
      obtain rfl := Option.some.inj hq
      simp
  rw [above]
  split_ifs with hgmail
  · intro h
    rcases lastSlash_cases path with ⟨hpath, -⟩ | ⟨front, name, rfl, hname, -⟩
    · rw [List.splitOn_eq_singleton hpath] at h
      cases h
    · rw [splitOn_append_last hname, List.dropLast_concat] at h
      have hlt := hshorter _ _ h
      simp at hlt
  · exact fun h => absurd (hshorter _ _ h) (lt_irrefl _)

end Above

/-! ### Sessions -/

/-- What happens to the server. -/
inductive Event
  /-- `onConnectInternal` accepts a connection. -/
  | connect
  | disconnect
  /-- A request, with the folder list of that time. -/
  | setPath (folders : List JString) (r : SetPathRequest)
  /-- `pushMsg` looks for the folder of a message. -/
  | pushMsg (folders : List JString) (name : Option JString)

section Sessions

variable (M : CaseMaps)

/-- The server after an event. -/
def step (s : Server) : Event → Server
  | .connect => { s with mState := .MAS_SERVER_CONNECTED }
  | .disconnect => { s with mState := .MAS_SERVER_DISCONNECTED }
  | .setPath folders r => (onSetPathInternal M folders r s).2
  | .pushMsg folders name =>
    match checkPath M folders false name false s.mCurrentPath with
    | .ok (_, path) => { s with mCurrentPath := path }
    | .error _ => s

def newServer : Server := ⟨.MAS_SERVER_DISCONNECTED, none⟩

/-- The server is in the state `s` after some events. -/
def Reachable (s : Server) : Prop := ∃ events : List Event, events.foldl (step M) newServer = s

/-- The name is found in the folder with this path. -/
def opens (folders : List JString) (name : JString) : Option JString → Bool
  | none => TELECOM = name
  | some path =>
    match (splitPath path).length with
    | 0 => false
    | 1 => name = MSG
    | _ => folders.any fun FolderName => M.equalsIgnoreCase FolderName name

/-- The path of a folder in the one with this path. -/
def entered (name : JString) : Option JString → JString
  | none => TELECOM
  | some path => path ++ 47 :: name

/-- A request that is not answered with `OBEX_HTTP_OK` leaves the server as it was. -/
def ChangesNothing (folders : List JString) (r : SetPathRequest) (s : Server) : Prop :=
  (onSetPathInternal M folders r s).1 ≠ .ok .OBEX_HTTP_OK → (onSetPathInternal M folders r s).2 = s

/-- If the server is connected, the name can be read; and if the request goes up to another folder,
its name is found there. -/
def Harmless (folders : List JString) (r : SetPathRequest) (s : Server) : Prop :=
  s.mState = .MAS_SERVER_CONNECTED → ∃ name, r.name = .ok name ∧
    ∀ path n, r.backup = true → s.mCurrentPath = some path → name = some n → n ≠ [] →
      opens M folders n (above M path) = true

end Sessions

section Paths

variable {M : CaseMaps} {folders : List JString} {path : JString} {name : JString} {flag : Bool}

/-- The path begins with `telecom`. -/
def Rooted : Option JString → Prop
  | none => True
  | some path => (path.splitOn 47).head? = some TELECOM

/-- A name in which one of the letters of `gmail` is missing. -/
theorem not_mentions_gmail {l : UInt16} (hl : l ∈ js "gmail")
    (h : ∀ c ∈ name, foldCase c ≠ foldCase l) : ¬ M.Mentions name (js "gmail") := by
  intro hgmail
  obtain ⟨c, hc, hfold⟩ := List.mem_map.1 (hgmail.subset (List.mem_map_of_mem hl))
  have hascii : ∀ l ∈ js "gmail", l < 128 := List.all_iff_forall_prop.1 (by decide)
  exact h c hc ((M.fold_latin c l (hascii l hl)).1 hfold)

theorem not_gmail_telecom : ¬ js "GMAIL" <:+: M.toUpperCase TELECOM := by
  intro h
  have hg : ∀ c ∈ TELECOM, foldCase c ≠ foldCase 103 := List.all_iff_forall_prop.1 (by decide)
  exact not_mentions_gmail List.mem_cons_self hg (M.gmail_of_toUpperCase _ h)

theorem Rooted.slash (h : Rooted (some path)) (hgmail : js "GMAIL" <:+: M.toUpperCase path) :
    47 ∈ path := by
  by_contra hpath
  have htelecom : path = TELECOM := by
    have hhead : (path.splitOn 47).head? = some TELECOM := h
    rw [List.splitOn_eq_singleton hpath] at hhead
    exact Option.some.inj hhead
  exact not_gmail_telecom (htelecom ▸ hgmail)

theorem Rooted.goUp (h : Rooted (some path)) : goUp M path = .ok (above M path) := goUp_eq h.slash

theorem Rooted.front {front : JString} (h : Rooted (some (front ++ 47 :: name))) :
    Rooted (some front) := by
  have hhead : ((front ++ 47 :: name).splitOn 47).head? = some TELECOM := h
  rw [List.splitOn_append_cons_self,
    List.head?_append_of_ne_nil _ (List.splitOn_ne_nil 47 front)] at hhead
  exact hhead

theorem Rooted.cutLast (h : Rooted (some path)) :
    Rooted (textOf 47 (path.splitOn 47).dropLast) := by
  rcases lastSlash_cases path with ⟨hpath, -⟩ | ⟨front, name, rfl, hname, -⟩
  · rw [textOf_dropLast_of_notMem hpath]
    trivial
  · rw [textOf_dropLast hname]
    exact h.front

theorem Rooted.above (h : Rooted (some path)) : Rooted (above M path) := by
  rw [Folders.above]
  split_ifs with hgmail
  · obtain ⟨front, name, rfl, hname, -⟩ := (lastSlash_cases path).resolve_left
      fun hno => hno.1 (h.slash hgmail)
    rw [splitOn_append_last hname, List.dropLast_concat]
    exact h.front.cutLast
  · exact h.cutLast

theorem goDown_eq (current : Option JString) : goDown M folders name flag current =
    if opens M folders name current then
      (true, if flag then some (entered name current) else current)
    else (false, current) := by
  cases current with
  | none => simp [goDown, opens, entered]
  | some path =>
    rcases hdepth : (splitPath path).length with _ | _ | n
    · simp [goDown, opens, hdepth]
    · cases flag <;> simp [goDown, opens, entered, hdepth]
    · cases flag <;> simp [goDown, opens, entered, hdepth]

theorem goDown_set (current : Option JString) : goDown M folders name true current =
    if opens M folders name current then (true, some (entered name current))
      else (false, current) :=
  goDown_eq current

theorem goDown_kept (current : Option JString) :
    (goDown M folders name false current).2 = current := by
  rw [goDown_eq]
  cases opens M folders name current <;> rfl

theorem Rooted.entered {current : Option JString} (h : Rooted current) :
    Rooted (some (entered name current)) := by
  cases current with
  | none => exact rfl
  | some path =>
    have hhead : (path.splitOn 47).head? = some TELECOM := h
    rw [Folders.entered, Rooted, List.splitOn_append_cons_self,
      List.head?_append_of_ne_nil _ (List.splitOn_ne_nil 47 path)]
    exact hhead

theorem Rooted.goDown {current : Option JString} (h : Rooted current) :
    Rooted (goDown M folders name flag current).2 := by
  rw [goDown_eq]
  split_ifs
  · exact h.entered
  · exact h
  · exact h

/-! ### One call -/

variable {up : Bool} {given current : Option JString}

/-- There is no name. -/
def NoName (given : Option JString) : Prop := given = none ∨ given = some []

theorem checkPath_back (h : NoName given) : checkPath M folders false given flag current =
    .ok (true, if flag then none else current) := by
  rcases h with rfl | rfl <;> rfl

theorem checkPath_down (hname : name ≠ []) : checkPath M folders false (some name) flag current =
    .ok (goDown M folders name flag current) := by
  cases name with
  | nil => exact absurd rfl hname
  | cons c name => rfl

theorem checkPath_root : checkPath M folders true given flag none = .ok (false, none) := by
  cases given with
  | none => rfl
  | some name => cases name <;> rfl

theorem checkPath_up (h : Rooted (some path)) (hname : NoName given) :
    checkPath M folders true given flag (some path) = .ok (true, above M path) := by
  rcases hname with rfl | rfl
  all_goals
    rw [checkPath, h.goUp]
    rfl

theorem checkPath_upDown (h : Rooted (some path)) (hname : name ≠ []) :
    checkPath M folders true (some name) flag (some path) =
      .ok (goDown M folders name flag (above M path)) := by
  cases name with
  | nil => exact absurd rfl hname
  | cons c name =>
    rw [checkPath, h.goUp]
    · rfl
    · exact hname

theorem noName_or (given : Option JString) :
    NoName given ∨ ∃ name, given = some name ∧ name ≠ [] := by
  cases given with
  | none => exact .inl (.inl rfl)
  | some name =>
    cases name with
    | nil => exact .inl (.inr rfl)
    | cons c name => exact .inr ⟨_, rfl, List.cons_ne_nil c name⟩

/-- A path that begins with `telecom` is never lost, and nothing fails on it. -/
theorem Rooted.checkPath (h : Rooted current) (up : Bool) (given : Option JString) (flag : Bool) :
    ∃ found next, checkPath M folders up given flag current = .ok (found, next) ∧ Rooted next := by
  cases up with
  | false =>
    rcases noName_or given with hname | ⟨name, rfl, hname⟩
    · refine ⟨_, _, checkPath_back hname, ?_⟩
      cases flag with
      | false => exact h
      | true => trivial
    · exact ⟨_, _, checkPath_down hname, h.goDown⟩
  | true =>
    cases current with
    | none => exact ⟨_, _, checkPath_root, trivial⟩
    | some path =>
      rcases noName_or given with hname | ⟨name, rfl, hname⟩
      · exact ⟨_, _, checkPath_up h hname, h.above⟩
      · exact ⟨_, _, checkPath_upDown h hname, h.above.goDown⟩

/-- Looking for a folder leaves the path as it was exactly if it does not go up from a folder. -/
theorem checkPath_keeps_iff (h : Rooted current) :
    (∀ found next, checkPath M folders up given false current = .ok (found, next) →
      next = current) ↔ ¬ (up = true ∧ current ≠ none) := by
  cases up with
  | false =>
    refine iff_of_true ?_ (by simp)
    intro found next heq
    rcases noName_or given with hname | ⟨name, rfl, hname⟩
    · rw [checkPath_back hname] at heq
      cases heq
      rfl
    · rw [checkPath_down hname] at heq
      have hkept : (goDown M folders name false current).2 = current := goDown_kept current
      rwa [Except.ok.inj heq] at hkept
  | true =>
    cases current with
    | none =>
      refine iff_of_true ?_ (by simp)
      intro found next heq
      rw [checkPath_root] at heq
      cases heq
      rfl
    | some path =>
      refine iff_of_false ?_ (by simp)
      intro hkeeps
      rcases noName_or given with hname | ⟨name, rfl, hname⟩
      · exact above_ne path (hkeeps _ _ (checkPath_up h hname))
      · have hnext : (goDown M folders name false (above M path)).2 = some path :=
          hkeeps _ _ (checkPath_upDown h hname)
        rw [goDown_kept] at hnext
        exact above_ne path hnext

end Paths

/-! ### Requests -/

section Requests

variable {M : CaseMaps} {folders : List JString} {s : Server} {r : SetPathRequest} {found : Bool}
  {given current next : Option JString}

/-- A name that is not found leaves the path as it was exactly if the path has not been changed
before. -/
theorem setPath_failed_iff {up : Bool} (h : Rooted current)
    (heq : setPath M folders up given current = .ok (found, next)) :
    (found = false → next = current) ↔ ∀ path n, up = true → current = some path → given = some n →
      n ≠ [] → opens M folders n (above M path) = true := by
  rw [setPath] at heq
  cases up with
  | false =>
    refine iff_of_true ?_ nofun
    intro hfound
    rcases noName_or given with hname | ⟨name, rfl, hname⟩
    · rw [checkPath_back hname] at heq
      cases heq
      cases hfound
    · rw [checkPath_down hname, goDown_set] at heq
      split_ifs at heq
      · cases heq
        cases hfound
      · cases heq
        rfl
  | true =>
    cases current with
    | none =>
      rw [checkPath_root] at heq
      cases heq
      exact iff_of_true (fun _ => rfl) nofun
    | some path =>
      rcases noName_or given with hname | ⟨name, rfl, hname⟩
      -- going up alone does not fail
      · rw [checkPath_up h hname] at heq
        cases heq
        refine iff_of_true nofun ?_
        rintro path n - - rfl hn
        rcases hname with hname | hname
        · cases hname
        · exact absurd (Option.some.inj hname) hn
      -- the path is that of the folder above when the name is looked for
      · rw [checkPath_upDown h hname, goDown_set] at heq
        split_ifs at heq with hopens
        · cases heq
          refine iff_of_true nofun ?_
          rintro path' n - ⟨⟩ ⟨⟩ -
          exact hopens
        · cases heq
          refine iff_of_false (fun hsame => above_ne path (hsame rfl)) ?_
          exact fun hall => hopens (hall path name rfl rfl rfl hname)

theorem onSetPathInternal_eq (hconnected : s.mState = .MAS_SERVER_CONNECTED)
    (hname : r.name = .ok given)
    (hset : setPath M folders r.backup given s.mCurrentPath = .ok (found, next)) :
    onSetPathInternal M folders r s = (.ok (if found then .OBEX_HTTP_OK else .OBEX_HTTP_NOT_FOUND),
      { mState := .MAS_SERVER_CONNECTED, mCurrentPath := next }) := by
  rw [onSetPathInternal, if_neg (not_not.2 hconnected)]
  simp only [hname, hset]

theorem onSetPathInternal_disconnected (h : s.mState ≠ .MAS_SERVER_CONNECTED) :
    onSetPathInternal M folders r s = (.ok .OBEX_HTTP_UNAVAILABLE, s) := if_pos h

/-- The name cannot be read: the server stays in the state in which it looks for a folder. -/
theorem onSetPathInternal_unread {e : HeaderFailure} (hconnected : s.mState = .MAS_SERVER_CONNECTED)
    (hname : r.name = .error e) : ∃ code, code ≠ .OBEX_HTTP_OK ∧ onSetPathInternal M folders r s =
      (.ok code, { s with mState := .MAS_SERVER_SET_FOLDER }) := by
  rw [onSetPathInternal, if_neg (not_not.2 hconnected)]
  simp only [hname]
  cases e with
  | IOException => exact ⟨_, by decide, rfl⟩
  | IllegalArgumentException => exact ⟨_, by decide, rfl⟩

/-- What a request does in a state with a path that begins with `telecom`. -/
theorem onSetPathInternal_cases (h : Rooted s.mCurrentPath) :
    (s.mState ≠ .MAS_SERVER_CONNECTED ∧
        onSetPathInternal M folders r s = (.ok .OBEX_HTTP_UNAVAILABLE, s)) ∨
      (s.mState = .MAS_SERVER_CONNECTED ∧ (∃ e, r.name = .error e) ∧
        ∃ code, code ≠ .OBEX_HTTP_OK ∧ onSetPathInternal M folders r s =
          (.ok code, { s with mState := .MAS_SERVER_SET_FOLDER })) ∨
      (s.mState = .MAS_SERVER_CONNECTED ∧ ∃ given found next, r.name = .ok given ∧
        setPath M folders r.backup given s.mCurrentPath = .ok (found, next) ∧ Rooted next ∧
        onSetPathInternal M folders r s =
          (.ok (if found then .OBEX_HTTP_OK else .OBEX_HTTP_NOT_FOUND),
            { mState := .MAS_SERVER_CONNECTED, mCurrentPath := next })) := by
  by_cases hconnected : s.mState = .MAS_SERVER_CONNECTED
  · cases hname : r.name with
    | error e => exact .inr (.inl ⟨hconnected, ⟨e, rfl⟩, onSetPathInternal_unread hconnected hname⟩)
    | ok given =>
      obtain ⟨found, next, hset, hnext⟩ : ∃ found next,
          setPath M folders r.backup given s.mCurrentPath = .ok (found, next) ∧ Rooted next :=
        h.checkPath r.backup given true
      exact .inr (.inr ⟨hconnected, given, found, next, rfl, hset, hnext,
        onSetPathInternal_eq hconnected hname hset⟩)
  · exact .inl ⟨hconnected, onSetPathInternal_disconnected hconnected⟩

theorem Rooted.step (h : Rooted s.mCurrentPath) (e : Event) : Rooted (step M s e).mCurrentPath := by
  cases e with
  | connect => exact h
  | disconnect => exact h
  | setPath folders r =>
    rw [Folders.step]
    rcases onSetPathInternal_cases (M := M) h with ⟨-, heq⟩ | ⟨-, -, code, -, heq⟩ |
      ⟨-, given, found, next, -, -, hnext, heq⟩
    · rw [heq]
      exact h
    · rw [heq]
      exact h
    · rw [heq]
      exact hnext
  | pushMsg folders name =>
    obtain ⟨found, next, heq, hnext⟩ : ∃ found next,
        Folders.checkPath M folders false name false s.mCurrentPath = .ok (found, next) ∧
          Rooted next :=
      h.checkPath false name false
    rw [Folders.step, heq]
    exact hnext

theorem Reachable.rooted (h : Reachable M s) : Rooted s.mCurrentPath := by
  obtain ⟨events, rfl⟩ := h
  induction events using List.reverseRecOn with
  | nil => trivial
  | append_singleton events e ih =>
    rw [List.foldl_append]
    exact ih.step e

theorem Reachable.foldl (h : Reachable M s) (events : List Event) :
    Reachable M (events.foldl (step M) s) := by
  obtain ⟨before, rfl⟩ := h
  exact ⟨before ++ events, List.foldl_append⟩

/-- In a state with a path that begins with `telecom`. -/
theorem changesNothing_iff_of_rooted (h : Rooted s.mCurrentPath) :
    ChangesNothing M folders r s ↔ Harmless M folders r s := by
  rw [ChangesNothing, Harmless]
  rcases onSetPathInternal_cases (M := M) h with ⟨hstate, heq⟩ |
    ⟨hstate, ⟨e, hname⟩, code, hcode, heq⟩ | ⟨hstate, given, found, next, hname, hset, -, heq⟩
  · rw [heq]
    exact iff_of_true (fun _ => rfl) fun hconnected => absurd hconnected hstate
  -- the name cannot be read, and the state is not reset
  · rw [heq]
    refine iff_of_false ?_ ?_
    · intro hsame
      have hstuck := hsame fun hok => hcode (Except.ok.inj hok)
      rw [← hstuck] at hstate
      cases hstate
    · intro hharmless
      obtain ⟨name, hread, -⟩ := hharmless hstate
      rw [hname] at hread
      cases hread
  -- the state is reset, so that it is about the path alone
  · have hcurrent : (⟨.MAS_SERVER_CONNECTED, next⟩ : Server) = s ↔ next = s.mCurrentPath := by
      constructor
      · exact fun hs => congrArg Server.mCurrentPath hs
      · intro hnext
        rw [hnext, ← hstate]
    have hfailed : (.ok (if found then .OBEX_HTTP_OK else .OBEX_HTTP_NOT_FOUND) :
        Except Exn ResponseCode) ≠ .ok .OBEX_HTTP_OK ↔ found = false := by
      cases found <;> simp
    rw [heq, hfailed, hcurrent, setPath_failed_iff h hset]
    constructor
    · exact fun hfound _ => ⟨given, hname, hfound⟩
    · intro hharmless
      obtain ⟨name, hread, hfound⟩ := hharmless hstate
      obtain rfl : given = name := Except.ok.inj (hname.symm.trans hread)
      exact hfound

variable (M) in
/-- The event is a request that fails. -/
def failed (s : Server) : Event → Bool
  | .setPath folders r => (onSetPathInternal M folders r s).1 ≠ .ok .OBEX_HTTP_OK
  | _ => false

variable (M) in
/-- The event is no request, or a harmless one. -/
def HarmlessEvent (s : Server) : Event → Prop
  | .setPath folders r => Harmless M folders r s
  | _ => True

theorem step_failed (h : Rooted s.mCurrentPath) {e : Event} (he : HarmlessEvent M s e)
    (hfailed : failed M s e = true) : step M s e = s := by
  cases e with
  | setPath folders r => exact (changesNothing_iff_of_rooted h).2 he (of_decide_eq_true hfailed)
  | connect => cases hfailed
  | disconnect => cases hfailed
  | pushMsg folders name => cases hfailed

/-- **Requests that fail**: in every state of a server, a request is answered, and if it fails, it
leaves everything as it was exactly if it is harmless; looking for a folder leaves the path as it
was exactly if it does not go up; and if all requests are harmless, what follows is the same without
those that fail. -/
theorem changesNothing_iff (h : Reachable M s) :
    (∀ folders r, (∃ code, (onSetPathInternal M folders r s).1 = .ok code) ∧
      (ChangesNothing M folders r s ↔ Harmless M folders r s)) ∧
    (∀ folders up given, (∀ found next,
        checkPath M folders up given false s.mCurrentPath = .ok (found, next) →
          next = s.mCurrentPath) ↔
      ¬ (up = true ∧ s.mCurrentPath ≠ none)) ∧
    ∀ events, (∀ pre e, pre ++ [e] <+: events → HarmlessEvent M (pre.foldl (step M) s) e) →
      (kept (step M) (failed M) s events).foldl (step M) s = events.foldl (step M) s := by
  refine ⟨fun folders r => ⟨?_, changesNothing_iff_of_rooted h.rooted⟩,
    fun folders up given => checkPath_keeps_iff h.rooted, fun events hall => foldl_kept ?_⟩
  · rcases onSetPathInternal_cases (M := M) h.rooted with ⟨-, heq⟩ | ⟨-, -, code, -, heq⟩ |
      ⟨-, given, found, next, -, -, -, heq⟩
    all_goals
      rw [heq]
      exact ⟨_, rfl⟩
  · intro pre e hpre hfailed
    exact step_failed (h.foldl pre).rooted (hall pre e hpre) hfailed

/-- A server that is connected, in the folder of the messages. -/
def sampleServer : Server := ⟨.MAS_SERVER_CONNECTED, some (js "telecom/msg")⟩

theorem reachable_sampleServer : Reachable latin sampleServer :=
  ⟨[.connect, .setPath [] ⟨false, false, .ok (some TELECOM)⟩,
    .setPath [] ⟨false, false, .ok (some MSG)⟩], by decide⟩

theorem changesNothing_sampleServer :
    let r : SetPathRequest := ⟨false, false, .ok (some (js "nowhere"))⟩
    (onSetPathInternal latin FORLDER_LIST_SMS_MMS r sampleServer).1 = .ok .OBEX_HTTP_NOT_FOUND ∧
      ChangesNothing latin FORLDER_LIST_SMS_MMS r sampleServer := by
  intro r
  refine ⟨by decide, (((changesNothing_iff reachable_sampleServer).1 FORLDER_LIST_SMS_MMS r).2).2
    ?_⟩
  exact fun _ => ⟨_, rfl, nofun⟩

/-- **A request that fails and changes something**: the name is not found in the folder above, the
name cannot be read, and a folder is only looked for. -/
theorem failedRequest_leavesTraces : Reachable latin sampleServer ∧
    ¬ ChangesNothing latin FORLDER_LIST_SMS_MMS ⟨true, false, .ok (some (js "nowhere"))⟩
      sampleServer ∧
    ¬ ChangesNothing latin FORLDER_LIST_SMS_MMS ⟨false, false, .error .IOException⟩ sampleServer ∧
    checkPath latin FORLDER_LIST_SMS_MMS true none false sampleServer.mCurrentPath =
      .ok (true, some TELECOM) := by
  refine ⟨reachable_sampleServer, ?_, ?_, by decide⟩
  · intro h
    have hpath : some TELECOM = some (js "telecom/msg") :=
      congrArg Server.mCurrentPath (h (by decide))
    exact absurd hpath (by decide)
  · intro h
    have hstate : MasState.MAS_SERVER_SET_FOLDER = .MAS_SERVER_CONNECTED :=
      congrArg Server.mState (h (by decide))
    cases hstate

end Requests

end Folders

end Map

end Msm8909w
