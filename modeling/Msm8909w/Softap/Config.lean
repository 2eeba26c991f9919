import Mathlib.Data.List.DropRight
import Msm8909w.Lib.Bytes
import Msm8909w.Lib.Lines

/-!
# Configuration files of the soft AP (`qsap_api.c`)

`hostapd.conf` and the driver's ini file are lists of lines `name=value`, of which some are
commented out by a `#`.  `qsap_read_cfg` looks a parameter up, `qsap_write_cfg` sets it and
`qsap_change_cfg` comments its lines or takes the comment marks away.  All three read the file with
`fgets` into a buffer of `MAX_CONF_LINE_LEN` bytes; the latter two write a temporary file that
replaces the configuration file in the end.

* `setLines_cases` : setting a parameter replaces its first line or adds one,
* `confLines_writeText` : the lines of the file afterwards, when the new line fits the buffer and
  does not run into its neighbours,
* `readCfg_writeText` : the other parameters keep their values.
-/

namespace Msm8909w

namespace Softap

/-! ### C strings and the messages -/

/-- `'\n'`. -/
def lf : UInt8 := 10

/-- `'\r'`. -/
def cr : UInt8 := 13

/-- `'#'`. -/
def hash : UInt8 := 35

/-- `'='`. -/
def equals : UInt8 := 61

/-- The string a buffer holds, up to its terminating NUL. -/
def cstr (b : Bytes) : Bytes := b.takeWhile (· ≠ 0)

/-- `qsap_scnprintf`: the text that ends up in a buffer of `size` bytes.  Its length is the return
value. -/
def scnprintf (size : ℕ) (text : Bytes) : Bytes := text.take (size - 1)

/-- `SUCCESS`. -/
def success : Bytes := ascii "success"

/-- `ERR_INVALID_ARG`. -/
def errInvalidArg : Bytes := ascii "failure invalid arguments"

/-- `ERR_INVALID_PARAM`. -/
def errInvalidParam : Bytes := ascii "failure invalid parameter"

/-- `ERR_UNKNOWN`. -/
def errUnknown : Bytes := ascii "failure unknown error"

/-- `ERR_FEATURE_NOT_ENABLED`. -/
def errFeatureNotEnabled : Bytes := ascii "failure feature not enabled"

/-- `ERR_NOT_SUPPORTED`. -/
def errNotSupported : Bytes := ascii "failure not supported"

/-- `ERR_RES_UNAVAILABLE`. -/
def errResUnavailable : Bytes := ascii "failure resource unavailable"

/-- The members of `enum error_val` that the functions on configuration files return; `-1` is
`eERR_UNKNOWN`. -/
inductive ErrorVal where
  | unknown
  | success
  | fileOpen
  | configParamMissing
  | featureNotEnabled
  deriving DecidableEq, Repr

/-- A text without `=`, `#`, end of line and NUL, as the names of all parameters are. -/
structure IsName (name : Bytes) : Prop where
  ne_nil : name ≠ []
  noEquals : equals ∉ name
  noHash : hash ∉ name
  noLf : lf ∉ name
  noNul : 0 ∉ name

instance : DecidablePred IsName := fun name =>
  decidable_of_iff (name ≠ [] ∧ equals ∉ name ∧ hash ∉ name ∧ lf ∉ name ∧ 0 ∉ name)
    ⟨fun ⟨h1, h2, h3, h4, h5⟩ => ⟨h1, h2, h3, h4, h5⟩, fun ⟨h1, h2, h3, h4, h5⟩ =>
      ⟨h1, h2, h3, h4, h5⟩⟩

/-- `struct Command`. -/
structure Command where
  name : Bytes
  defaultValue : Option Bytes
  isName : IsName name

/-! ### Reading -/

/-- `MAX_CONF_LINE_LEN`. -/
def maxConfLineLen : ℕ := 156

/-- What `while (fgets(buf, MAX_CONF_LINE_LEN, fcfg))` finds in the buffer, round by round. -/
def confLines (text : Bytes) : List Bytes := (chunks lf (maxConfLineLen - 1) text).map cstr

/-- The line in the buffer without its comment mark. -/
def uncomment (buf : Bytes) : Bytes := if buf.head? = some hash then buf.tail else buf

/-- `!strncmp(pline, name, strlen(name)) && pline[strlen(name)] == '='`. -/
def matchesName (name pline : Bytes) : Bool := (name ++ [equals]).isPrefixOf pline

/-- One round of the loop of `qsap_read_cfg`: the line, when it sets the parameter. -/
def readLine (name : Bytes) (ignoreComment : Bool) (buf : Bytes) : Option Bytes :=
  if buf.head? = some hash then
    if ignoreComment then if matchesName name buf.tail then some buf.tail else none else none
  else if matchesName name buf then some buf else none

/-- A line without the `\r` and `\n` at its end. -/
def trimEol (line : Bytes) : Bytes := line.rdropWhile fun c => c = cr || c = lf

/-- The return value and the response once the loop has ended. -/
def readResponse (cmd : Command) (plen : ℕ) (var : Option Bytes) :
    Option Bytes → ErrorVal × Bytes
  | some pline =>
    match var with
    | some var =>
      (.success, scnprintf plen
        (success ++ ascii " " ++ var ++ (trimEol pline).dropWhile (· ≠ equals)))
    | none => (.success, scnprintf plen (success ++ ascii " " ++ trimEol pline))
  | none =>
    match cmd.defaultValue with
    | some value =>
      (.success, scnprintf plen (success ++ ascii " " ++ var.getD cmd.name ++ [equals] ++ value))
    | none => (.configParamMissing, scnprintf plen errFeatureNotEnabled)

/-- `qsap_read_cfg`: the return value and the response, of `plen` bytes at most.  The file is `none`
when it cannot be opened. -/
def readCfg (file : Option Bytes) (cmd : Command) (plen : ℕ) (var : Option Bytes)
    (ignoreComment : Bool) : ErrorVal × Bytes :=
  match file with
  | none => (.fileOpen, scnprintf plen errResUnavailable)
  | some text =>
    readResponse cmd plen var ((confLines text).findSome? (readLine cmd.name ignoreComment))

/-! ### Writing -/

/-- The results of the file operations of one rewrite.  `written` is what reaches the disk of the
text that is printed to the temporary file. -/
structure FileOps where
  openRead : Bool
  openTmp : Bool
  written : Bytes → Bytes
  rename : Bool
  chmod : Bool
  chown : Bool

/-- All file operations succeed. -/
structure FileOps.Ok (ops : FileOps) : Prop where
  openRead : ops.openRead = true
  openTmp : ops.openTmp = true
  written : ∀ text, ops.written text = text
  rename : ops.rename = true
  chmod : ops.chmod = true
  chown : ops.chown = true

/-- The line `name=val`, printed to a buffer of `MAX_CONF_LINE_LEN + 1` bytes. -/
def confLine (name val : Bytes) : Bytes :=
  scnprintf (maxConfLineLen + 1) (name ++ [equals] ++ val ++ [lf])

/-- The first loop of `qsap_write_cfg`: what it prints, `result`, and what is left to be read.  An
ini file is only read up to `END`. -/
def writeLoop (name val : Bytes) (inifile : Bool) : Bool → List Bytes → Bytes × Bool × List Bytes
  | result, [] => ([], result, [])
  | result, buf :: bufs =>
    let hit := !result && matchesName name (uncomment buf)
    let buf' := if hit then confLine name val else buf
    -- `pline` keeps pointing behind the comment mark of the line that was read
    let pline := if buf.head? = some hash then buf'.tail else buf'
    if inifile && (ascii "END").isPrefixOf pline then ([], result || hit, bufs)
    else
      let rest := writeLoop name val inifile (result || hit) bufs
      (buf' ++ rest.1, rest.2)

/-- The text `qsap_write_cfg` prints to the temporary file. -/
def writeText (name val : Bytes) (inifile : Bool) (text : Bytes) : Bytes :=
  let loop := writeLoop name val inifile false (confLines text)
  loop.1 ++ (if loop.2.1 then [] else confLine name val) ++
    if inifile then ascii "END" ++ [lf] ++ loop.2.2.flatten else []

/-- `qsap_write_cfg`: the return value, the response, and the file.  When the ownership of the new
file cannot be set, the file is removed. -/
def writeCfg (ops : FileOps) (file : Option Bytes) (cmd : Command) (val : Bytes) (plen : ℕ)
    (inifile : Bool) : ErrorVal × Bytes × Option Bytes :=
  match file with
  | none => (.fileOpen, scnprintf plen errResUnavailable, none)
  | some text =>
    if ops.openRead && ops.openTmp then
      let file' :=
        if ops.rename then some (ops.written (writeText cmd.name val inifile text)) else file
      let presp := scnprintf plen (if ops.rename then success else errFeatureNotEnabled)
      if ops.chmod && ops.chown then
        (if ops.rename then .success else .featureNotEnabled, presp, file')
      else (.unknown, presp, none)
    else (.fileOpen, scnprintf plen errResUnavailable, file)

/-! ### Enabling and disabling -/

/-- One round of the loop of `qsap_change_cfg`: what it prints for a line. -/
def changeLine (name : Bytes) (status : Bool) (buf : Bytes) : Bytes :=
  if matchesName name (uncomment buf) then
    if status then uncomment buf else hash :: uncomment buf
  else buf

/-- The text `qsap_change_cfg` prints to the temporary file. -/
def changeText (name : Bytes) (status : Bool) (text : Bytes) : Bytes :=
  (confLines text).flatMap (changeLine name status)

/-- `qsap_change_cfg`: the return value and the file. -/
def changeCfg (ops : FileOps) (file : Option Bytes) (cmd : Command) (status : Bool) :
    ErrorVal × Option Bytes :=
  match file with
  | none => (.unknown, none)
  | some text =>
    if ops.openRead && ops.openTmp && ops.rename then
      if ops.chmod && ops.chown then
        (.success, some (ops.written (changeText cmd.name status text)))
      else (.unknown, none)
    else (.unknown, file)

theorem FileOps.Ok.writeCfg {ops : FileOps} (hops : ops.Ok) (text : Bytes) (cmd : Command)
    (val : Bytes) (plen : ℕ) (inifile : Bool) :
    writeCfg ops (some text) cmd val plen inifile =
      (.success, scnprintf plen success, some (writeText cmd.name val inifile text)) := by
  simp only [Softap.writeCfg, hops.openRead, hops.openTmp, hops.rename, hops.chmod, hops.chown,
    hops.written, Bool.and_self, if_true]

theorem FileOps.Ok.changeCfg {ops : FileOps} (hops : ops.Ok) (text : Bytes) (cmd : Command)
    (status : Bool) :
    changeCfg ops (some text) cmd status = (.success, some (changeText cmd.name status text)) := by
  simp only [Softap.changeCfg, hops.openRead, hops.openTmp, hops.rename, hops.chmod, hops.chown,
    hops.written, Bool.and_self, if_true]

/-! ### Names and lines -/

theorem takeWhile_of_matchesName {name line : Bytes} (hname : equals ∉ name)
    (h : matchesName name line) : line.takeWhile (· ≠ equals) = name := by
  obtain ⟨rest, rfl⟩ := List.isPrefixOf_iff_prefix.1 h
  rw [List.append_assoc, List.takeWhile_append_of_pos]
  · simp
  · intro c hc
    simp only [ne_eq, decide_eq_true_eq]
    rintro rfl
    exact hname hc

/-- A line sets at most one parameter. -/
theorem eq_of_matchesName {name name' line : Bytes} (hname : equals ∉ name)
    (hname' : equals ∉ name') (h : matchesName name line) (h' : matchesName name' line) :
    name' = name :=
  (takeWhile_of_matchesName hname' h').symm.trans (takeWhile_of_matchesName hname h)

/-- A line that sets a parameter does not start with a comment mark. -/
theorem head?_ne_hash {name line : Bytes} (hname : IsName name) (h : matchesName name line) :
    line.head? ≠ some hash := by
  obtain ⟨rest, rfl⟩ := List.isPrefixOf_iff_prefix.1 h
  cases name with
  | nil => exact absurd rfl hname.ne_nil
  | cons c name =>
    have hc : c ≠ hash := fun hc => hname.noHash (hc ▸ List.mem_cons_self)
    simpa using hc

/-- A line of one parameter is of no interest to the readers of another. -/
theorem readLine_eq_none {name name' buf : Bytes} (hname : equals ∉ name) (hname' : equals ∉ name')
    (hne : name' ≠ name) (h : matchesName name (uncomment buf)) (ignoreComment : Bool) :
    readLine name' ignoreComment buf = none := by
  have hno : matchesName name' (uncomment buf) = false := by
    by_contra hm
    exact hne (eq_of_matchesName hname hname' h (by simpa using hm))
  rw [uncomment] at hno
  rw [readLine]
  split_ifs with hhash hic <;> simp_all

/-! ### Setting a parameter -/

/-- The lines of the file with `new` for the first line of a parameter, or at the end. -/
def setLines (name new : Bytes) : List Bytes → List Bytes
  | [] => [new]
  | buf :: bufs =>
    if matchesName name (uncomment buf) then new :: bufs else buf :: setLines name new bufs

theorem setLines_cases (name new : Bytes) (bufs : List Bytes) :
    (∃ pre old post, bufs = pre ++ old :: post ∧ matchesName name (uncomment old) ∧
        (∀ buf ∈ pre, ¬ matchesName name (uncomment buf)) ∧
        setLines name new bufs = pre ++ new :: post) ∨
      ((∀ buf ∈ bufs, ¬ matchesName name (uncomment buf)) ∧
        setLines name new bufs = bufs ++ [new]) := by
  induction bufs with
  | nil => exact .inr ⟨by simp, rfl⟩
  | cons buf bufs ih =>
    by_cases hm : matchesName name (uncomment buf)
    · exact .inl ⟨[], buf, bufs, rfl, hm, by simp, by rw [setLines, if_pos hm]; rfl⟩
    · rw [setLines, if_neg hm]
      obtain ⟨pre, old, post, rfl, hold, hpre, hset⟩ | ⟨hnone, hset⟩ := ih
      · exact .inl ⟨buf :: pre, old, post, rfl, hold, List.forall_mem_cons.2 ⟨hm, hpre⟩, by
          rw [hset, List.cons_append]⟩
      · exact .inr ⟨List.forall_mem_cons.2 ⟨hm, hnone⟩, by rw [hset, List.cons_append]⟩

theorem writeLoop_true (name val : Bytes) (bufs : List Bytes) :
    writeLoop name val false true bufs = (bufs.flatten, true, []) := by
  induction bufs with
  | nil => rfl
  | cons buf bufs ih => simp [writeLoop, ih]

theorem writeLoop_false (name val : Bytes) (bufs : List Bytes) :
    (writeLoop name val false false bufs).1 ++
        (if (writeLoop name val false false bufs).2.1 then [] else confLine name val) =
      (setLines name (confLine name val) bufs).flatten := by
  induction bufs with
  | nil => simp [writeLoop, setLines]
  | cons buf bufs ih =>
    by_cases hm : matchesName name (uncomment buf)
    · simp [writeLoop, setLines, hm, writeLoop_true]
    · simp only [Bool.not_eq_true] at hm
      simp only [writeLoop, setLines, hm, Bool.not_false, Bool.and_false, Bool.false_and,
        Bool.or_false, Bool.false_eq_true, if_false, List.flatten_cons, List.append_assoc, ih]

/-- The text `qsap_write_cfg` prints for `hostapd.conf`. -/
theorem writeText_eq (name val text : Bytes) :
    writeText name val false text =
      (setLines name (confLine name val) (confLines text)).flatten := by
  rw [writeText, ← writeLoop_false]
  simp

/-! ### The lines after a parameter has been set -/

/-- The last line of the file ends, or has filled the buffer. -/
def Ended (text : Bytes) : Prop :=
  ∀ l, (chunks lf (maxConfLineLen - 1) text).getLast? = some l →
    l.getLast? = some lf ∨ l.length = maxConfLineLen - 1

/-- What `qsap_write_cfg` relies on: the file is free of NULs, no further line of the value looks
like a parameter, the new line fits the buffer or is the last one, and it is not printed behind an
unfinished one. -/
structure CanSet (name val text : Bytes) : Prop where
  noNul : 0 ∉ text
  noSpill : ∀ a b, val = a ++ lf :: b → equals ∉ b
  fits : name.length + 1 + val.length < maxConfLineLen ∨
    ∀ pre old post, confLines text = pre ++ old :: post →
      matchesName name (uncomment old) → post = []
  ended : (∃ buf ∈ confLines text, matchesName name (uncomment buf)) ∨ Ended text

theorem cstr_eq_self {b : Bytes} (h : 0 ∉ b) : cstr b = b := by
  rw [cstr, List.takeWhile_eq_self_iff]
  intro c hc
  simp only [ne_eq, decide_eq_true_eq]
  rintro rfl
  exact h hc

theorem map_cstr_eq_self {bufs : List Bytes} (h : 0 ∉ bufs.flatten) : bufs.map cstr = bufs := by
  refine (List.map_congr_left fun buf hbuf => ?_).trans (List.map_id _)
  exact cstr_eq_self fun h0 => h (List.mem_flatten.2 ⟨buf, hbuf, h0⟩)

theorem confLines_eq_chunks {text : Bytes} (h : 0 ∉ text) :
    confLines text = chunks lf (maxConfLineLen - 1) text := by
  refine map_cstr_eq_self ?_
  rwa [flatten_chunks (by decide)]

theorem confLine_eq {name val : Bytes} (h : name.length + 1 + val.length < maxConfLineLen) :
    confLine name val = name ++ [equals] ++ val ++ [lf] := by
  rw [confLine, scnprintf, List.take_of_length_le]
  simp only [List.length_append, List.length_singleton]
  omega

/-- A text that is too short for a parameter or has no `=`. -/
def Blank (b : Bytes) : Prop := equals ∉ b ∨ b.length ≤ 1

theorem Blank.sublist {b b' : Bytes} (h : Blank b) (hsub : b'.Sublist b) : Blank b' :=
  h.imp (fun h hmem => h (hsub.subset hmem)) hsub.length_le.trans

theorem Blank.not_matchesName {name b : Bytes} (hname : IsName name) (h : Blank b) :
    ¬ matchesName name b := by
  intro hm
  have hpre := List.isPrefixOf_iff_prefix.1 hm
  obtain h | h := h
  · exact h (hpre.subset (List.mem_append_right name (List.mem_singleton_self equals)))
  · have hlen := hpre.length_le
    have hpos := List.length_pos_of_ne_nil hname.ne_nil
    rw [List.length_append, List.length_singleton] at hlen
    omega

/-- What `confLine` prints behind the name has no `=` behind an end of line either. -/
theorem confLine_eq_append {name val : Bytes} (hroom : name.length + 1 < maxConfLineLen)
    (hspill : ∀ a b, val = a ++ lf :: b → equals ∉ b) :
    ∃ w, confLine name val = name ++ [equals] ++ w ∧ ∀ a b, w = a ++ lf :: b → equals ∉ b := by
  have hlen : (name ++ [equals]).length ≤ maxConfLineLen := by
    rw [List.length_append, List.length_singleton]
    omega
  refine ⟨(val ++ [lf]).take (maxConfLineLen - (name ++ [equals]).length), ?_, ?_⟩
  · rw [confLine, scnprintf, Nat.add_sub_cancel, List.append_assoc (name ++ [equals]),
      List.take_append, List.take_of_length_le hlen]
  · intro a b hw hmem
    obtain ⟨rest, hrest⟩ :=
      List.take_prefix (maxConfLineLen - (name ++ [equals]).length) (val ++ [lf])
    rw [hw, List.append_assoc, List.cons_append] at hrest
    have hmem' : equals ∈ b ++ rest := List.mem_append_left rest hmem
    rcases List.eq_nil_or_concat' (b ++ rest) with hnil | ⟨c, x, hc⟩
    · rw [hnil] at hmem'
      cases hmem'
    · rw [hc, ← List.cons_append, ← List.append_assoc] at hrest
      obtain ⟨hval, hx⟩ := List.append_inj' hrest rfl
      rw [hc, hx, List.mem_append, List.mem_singleton] at hmem'
      exact hspill a c hval.symm (hmem'.resolve_right (by decide))

/-- The chunks a new line is read back as: its first line, and what is not taken for a parameter. -/
theorem chunks_confLine {name val : Bytes} (hname : IsName name)
    (hroom : name.length + 1 < maxConfLineLen)
    (hspill : ∀ a b, val = a ++ lf :: b → equals ∉ b) :
    ∃ p ps, chunks lf (maxConfLineLen - 1) (confLine name val) = p :: ps ∧
      (name ++ [equals]) <+: p ∧ ∀ q ∈ ps, Blank q := by
  have hn : 0 < maxConfLineLen - 1 := by decide
  obtain ⟨w, hw, hwspill⟩ := confLine_eq_append hroom hspill
  have hpre : (name ++ [equals]) <+: confLine name val := hw ▸ List.prefix_append _ _
  have hlen : (confLine name val).length ≤ maxConfLineLen := List.length_take_le _ _
  have hlf : lf ∉ name ++ [equals] := by
    rw [List.mem_append, List.mem_singleton, not_or]
    exact ⟨hname.noLf, by decide⟩
  obtain hopen | ⟨l, r, hl, hr⟩ := open_or_closed_append lf (maxConfLineLen - 1) (confLine name val)
  · have hne : confLine name val ≠ [] := by
      rintro hnil
      rw [hnil, List.prefix_nil] at hpre
      simp at hpre
    exact ⟨_, [], chunks_open hopen hne, hpre, by simp⟩
  · have hblank : ∀ u, Blank u → ∀ q ∈ chunks lf (maxConfLineLen - 1) u, Blank q := by
      intro u hu q hq
      have hsub := List.sublist_flatten_of_mem hq
      rw [flatten_chunks hn] at hsub
      exact hu.sublist hsub
    have hcases := List.prefix_or_prefix_of_prefix hpre (hr ▸ List.prefix_append l r)
    refine ⟨l, chunks lf (maxConfLineLen - 1) r, by rw [hr, chunks_closed_append hn hl], ?_⟩
    obtain ⟨b, -, -, rfl⟩ | ⟨-, hfull⟩ := hl
    · have hpre' : (name ++ [equals]) <+: b ++ [lf] := hcases.resolve_right fun h =>
        hlf (h.subset (List.mem_append_right b (List.mem_singleton_self lf)))
      refine ⟨hpre', hblank r (.inl ?_)⟩
      obtain heq | ⟨a, rfl⟩ := List.prefix_concat_iff.1 hpre'
      · cases (List.append_inj' heq rfl).2
      · have hcancel : (name ++ [equals]) ++ w = (name ++ [equals]) ++ (a ++ lf :: r) := by
          rw [← hw, hr, List.append_assoc, List.append_assoc, List.singleton_append]
        exact hwspill a r (List.append_cancel_left hcancel)
    · have hpre' : (name ++ [equals]) <+: l := by
        obtain h | h := hcases
        · exact h
        · have heq : l = name ++ [equals] :=
            h.eq_of_length_le (by rw [List.length_append, List.length_singleton]; omega)
          exact heq ▸ List.prefix_rfl
      refine ⟨hpre', hblank r (.inr ?_)⟩
      rw [hr, List.length_append] at hlen
      omega

/-- The first line of the new text is of no interest to the readers of another parameter. -/
theorem readLine_of_prefix {name name' p : Bytes} (hname : IsName name) (hname' : IsName name')
    (hne : name' ≠ name) (hp : (name ++ [equals]) <+: p) (ignoreComment : Bool) :
    readLine name' ignoreComment (cstr p) = none := by
  obtain ⟨rest, rfl⟩ := hp
  have hnul : ∀ c ∈ name ++ [equals], decide (c ≠ 0) = true := by
    intro c hc
    simp only [ne_eq, decide_eq_true_eq]
    rintro rfl
    obtain h | h := List.mem_append.1 hc
    · exact hname.noNul h
    · cases List.mem_singleton.1 h
  have hc : cstr (name ++ [equals] ++ rest) = name ++ [equals] ++ cstr rest :=
    List.takeWhile_append_of_pos hnul
  have hm : matchesName name (cstr (name ++ [equals] ++ rest)) := by
    rw [hc]
    exact List.isPrefixOf_iff_prefix.2 (List.prefix_append _ _)
  refine readLine_eq_none hname.noEquals hname'.noEquals hne ?_ ignoreComment
  rwa [uncomment, if_neg (head?_ne_hash hname hm)]

theorem readLine_of_blank {name q : Bytes} (hname : IsName name) (hq : Blank q)
    (ignoreComment : Bool) : readLine name ignoreComment (cstr q) = none := by
  have hc : Blank (cstr q) := hq.sublist (List.takeWhile_sublist _)
  have hno := hc.not_matchesName hname
  have hno' := (hc.sublist (List.tail_sublist _)).not_matchesName hname
  rw [readLine, if_neg hno, if_neg hno', ite_self, ite_self]


/-- The chunks of a file whose last line ends are closed. -/
theorem closed_of_ended {text : Bytes} (h : Ended text) :
    ∀ l ∈ chunks lf (maxConfLineLen - 1) text, Closed lf (maxConfLineLen - 1) l := by
  have hn : 0 < maxConfLineLen - 1 := by decide
  rcases List.eq_nil_or_concat' (chunks lf (maxConfLineLen - 1) text) with hnil | ⟨ls, l, hls⟩
  · rw [hnil]
    simp
  · have hclosed := closed_of_chunks_append hn hls (by simp)
    have hlast := h l (by rw [hls, List.getLast?_concat])
    rw [hls]
    intro l' hl'
    rcases List.mem_append.1 hl' with hl' | hl'
    · exact hclosed l' hl'
    · rw [List.mem_singleton.1 hl']
      refine (chunks_closed_or_open hn (s := text) (by rw [hls]; simp)).resolve_right ?_
      rintro ⟨hlf, hlt⟩
      rcases hlast with hlast | hlast
      · exact hlf (List.mem_of_getLast? hlast)
      · omega

theorem ended_concat (b : Bytes) : Ended (b ++ [lf]) := by
  have hn : 0 < maxConfLineLen - 1 := by decide
  intro l hl
  obtain ⟨ls, hls⟩ := List.getLast?_eq_some_iff.1 hl
  have hne : l ≠ [] := ne_nil_of_mem_chunks hn (s := b ++ [lf]) (by rw [hls]; simp)
  have hflat : (chunks lf (maxConfLineLen - 1) (b ++ [lf])).flatten = b ++ [lf] :=
    flatten_chunks hn _
  rw [hls, List.flatten_append, List.flatten_singleton] at hflat
  have hlast := congrArg List.getLast? hflat
  rw [List.getLast?_concat, List.getLast?_append_of_ne_nil _ hne] at hlast
  exact .inl hlast

/-- The lines of the file after a parameter has been set: the new line stands for the first line of
the parameter, or at the end. -/
theorem confLines_writeText {name val text : Bytes} (h : CanSet name val text) :
    ∃ pre old post : List Bytes, confLines text = pre ++ old ++ post ∧
      confLines (writeText name val false text) =
        pre ++ (chunks lf (maxConfLineLen - 1) (confLine name val)).map cstr ++ post ∧
      ∀ buf ∈ old, matchesName name (uncomment buf) := by
  have hn : 0 < maxConfLineLen - 1 := by decide
  have hlines := confLines_eq_chunks h.noNul
  have hnul : 0 ∉ (confLines text).flatten := by
    rw [hlines, flatten_chunks hn]
    exact h.noNul
  rw [writeText_eq]
  obtain ⟨pre, old, post, heq, hold, -, hset⟩ | ⟨hnone, hset⟩ :=
    setLines_cases name (confLine name val) (confLines text)
  · refine ⟨pre, [old], post, by rw [heq]; simp, ?_, by simpa using hold⟩
    have hpre := closed_of_chunks_append hn (hlines.symm.trans heq) (by simp)
    have hsplit : chunks lf (maxConfLineLen - 1) text = (pre ++ [old]) ++ post := by
      rw [← hlines, heq, List.append_assoc, List.singleton_append]
    have hpost := chunks_flatten_of_append hn hsplit
    -- a line that is followed by another one ends
    have hchunks : chunks lf (maxConfLineLen - 1) (confLine name val ++ post.flatten) =
        chunks lf (maxConfLineLen - 1) (confLine name val) ++ post := by
      obtain hfits | hlast := h.fits
      · have hclosed := closed_of_ended (ended_concat (name ++ [equals] ++ val))
        rw [← confLine_eq hfits] at hclosed
        have happend := chunks_flatten_append (s := post.flatten) hn hclosed
        rwa [flatten_chunks hn, hpost] at happend
      · rw [hlast pre old post heq hold, List.flatten_nil, List.append_nil, List.append_nil]
    rw [heq] at hnul
    simp only [List.flatten_append, List.flatten_cons, List.mem_append, not_or] at hnul
    rw [hset, List.flatten_append, List.flatten_cons, confLines, chunks_flatten_append hn hpre,
      hchunks, List.map_append, List.map_append, map_cstr_eq_self hnul.1, map_cstr_eq_self hnul.2.2,
      List.append_assoc]
  · have hended := h.ended.resolve_left fun ⟨buf, hbuf, hm⟩ => hnone buf hbuf hm
    refine ⟨confLines text, [], [], by simp, ?_, by simp⟩
    have hall := closed_of_ended hended
    rw [← hlines] at hall
    rw [hset, List.flatten_append, List.flatten_singleton, confLines,
      chunks_flatten_append hn hall, List.map_append, map_cstr_eq_self hnul, List.append_nil]

/-- Setting a parameter leaves what is read for the others. -/
theorem readCfg_writeText {name val text : Bytes} (hname : IsName name)
    (hroom : name.length + 1 < maxConfLineLen) (h : CanSet name val text) {cmd : Command}
    (hne : cmd.name ≠ name) (plen : ℕ) (var : Option Bytes) (ignoreComment : Bool) :
    readCfg (some (writeText name val false text)) cmd plen var ignoreComment =
      readCfg (some text) cmd plen var ignoreComment := by
  obtain ⟨pre, old, post, heq, hset, hold⟩ := confLines_writeText h
  obtain ⟨p, ps, hchunks, hp, hps⟩ := chunks_confLine hname hroom h.noSpill
  have hold' : old.findSome? (readLine cmd.name ignoreComment) = none :=
    List.findSome?_eq_none_iff.2 fun buf hbuf =>
      readLine_eq_none hname.noEquals cmd.isName.noEquals hne (hold buf hbuf) ignoreComment
  have hnew : ((p :: ps).map cstr).findSome? (readLine cmd.name ignoreComment) = none := by
    refine List.findSome?_eq_none_iff.2 fun buf hbuf => ?_
    obtain ⟨q, hq, rfl⟩ := List.mem_map.1 hbuf
    obtain rfl | hq := List.mem_cons.1 hq
    · exact readLine_of_prefix hname cmd.isName hne hp ignoreComment
    · exact readLine_of_blank cmd.isName (hps q hq) ignoreComment
  simp only [readCfg, heq, hset, hchunks, List.findSome?_append, hold', hnew]

end Softap

end Msm8909w
