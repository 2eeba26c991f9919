import Msm8909w.Softap.RoundTrip

/-!
# The configuration file over whole runs

What `hostapd.conf` is for: a store that keeps a value for each parameter, and for each value
whether it is enabled (`Conf`).  `qsap_write_cfg` and `qsap_change_cfg` change the entries of one
parameter (`Conf.set`, `Conf.change`), and each rewrite takes effect, leaves the file as it is, or
loses it, depending on its file operations (`ConfOp.outcome`).

* `entries` : the entries a file holds,
* `entries_writeLines`, `entries_map_changeLine` : what the rewrites do to them,
* `ConfOp.run_spec` : one rewrite,
* `readCfg_runConf` : after any sequence of rewrites, of which some may fail, every parameter reads
  as the store says.
-/

namespace Msm8909w

namespace Softap

/-! ### The store -/

/-- A value of a parameter: whether it counts, and the text `name=value`. -/
structure Entry where
  enabled : Bool
  text : Bytes
  deriving DecidableEq

/-- The values of every parameter, in the order of the file. -/
abbrev Conf := Bytes → List Entry

namespace Conf

/-- Set a parameter: its first value is replaced, and it is enabled. -/
def set (s : Conf) (name text : Bytes) : Conf :=
  Function.update s name (⟨true, text⟩ :: (s name).tail)

/-- Enable or disable all values of a parameter. -/
def change (s : Conf) (name : Bytes) (status : Bool) : Conf :=
  Function.update s name ((s name).map fun e => { e with enabled := status })

/-- The first value that is enabled, or the first one at all. -/
def read (s : Conf) (name : Bytes) (ignoreComment : Bool) : Option Bytes :=
  ((s name).find? fun e => e.enabled || ignoreComment).map Entry.text

end Conf

/-- A store that may have been lost. -/
def respond (store : Option Conf) (cmd : Command) (plen : ℕ) (var : Option Bytes)
    (ignoreComment : Bool) : ErrorVal × Bytes :=
  match store with
  | none => (.fileOpen, scnprintf plen errResUnavailable)
  | some s => readResponse cmd plen var (s.read cmd.name ignoreComment)

/-! ### The entries of a file -/

/-- The entry of a line. -/
def entry (l : Bytes) : Entry := ⟨l.head? ≠ some hash, trimEol (uncomment l)⟩

/-- The entries of a file. -/
def entries (lines : List Bytes) : Conf := fun name =>
  (lines.filter fun l => matchesName name (uncomment l)).map entry

/-- A line that fits the buffer without its comment mark. -/
def Stored (l : Bytes) : Prop :=
  ∃ b, lf ∉ b ∧ 0 ∉ b ∧ l = b ++ [lf] ∧ (uncomment b).length ≤ 154

section

variable {name name' val l : Bytes} {lines : List Bytes} {status ignoreComment : Bool}

theorem IsConfLine.stored (h : IsConfLine 154 l) : Stored l := by
  obtain ⟨b, hb, rfl⟩ := h
  exact ⟨b, hb.noLf, hb.noNul, rfl, (length_uncomment_le b).trans hb.length_le⟩

theorem Stored.isLine (h : Stored l) : IsLine l := by
  obtain ⟨b, hlf, h0, rfl, hlen⟩ := h
  refine ⟨b, hlf, h0, rfl, .inl ?_⟩
  rcases uncomment_cases b with hb | ⟨-, hb⟩
  · have hcons := congrArg List.length hb
    rw [List.length_cons] at hcons
    rw [hcons]
    exact Nat.succ_lt_succ (Nat.lt_succ_of_le hlen)
  · rw [hb] at hlen
    exact hlen.trans_lt (by decide)

/-- Nothing but the end of a line is read separately. -/
theorem Stored.drop (h : Stored l) (hlen : ¬ l.length < maxConfLineLen) :
    l = l.take (maxConfLineLen - 1) ++ [lf] ∧ l.drop (maxConfLineLen - 1) = [lf] := by
  obtain ⟨b, hlf, h0, rfl, hb⟩ := h
  have hmax : maxConfLineLen = 156 := rfl
  have hle : b.length ≤ 155 := by
    rcases uncomment_cases b with heq | ⟨-, heq⟩
    · have hcons := congrArg List.length heq
      rw [List.length_cons] at hcons
      omega
    · rw [heq] at hb
      omega
  rw [List.length_append, List.length_singleton] at hlen
  have hb155 : b.length = maxConfLineLen - 1 := by omega
  rw [← hb155, List.take_left, List.drop_left]
  exact ⟨rfl, rfl⟩

theorem stored_of_fitsLine (hname : IsName name) (hval : FitsLine name val) :
    Stored (confLine name val) := by
  rw [hval.confLine_eq]
  exact IsConfLine.stored ⟨_, hval.isShort hname, rfl⟩

theorem stored_newline : Stored [lf] := ⟨[], by simp, by simp, rfl, by simp [uncomment]⟩

theorem stored_changeLine (hname : IsName name) (h : Stored l) :
    Stored (changeLine name status l) := by
  by_cases hm : matchesName name (uncomment l) = true
  · have hsame := @uncomment_changeLine name l status hname hm
    obtain ⟨b', hlf', h0', hb', -⟩ := @isLine_changeLine name l status h.isLine
    obtain ⟨b, -, -, rfl, hlen⟩ := h
    refine ⟨b', hlf', h0', hb', ?_⟩
    rw [hb', uncomment_append_lf, uncomment_append_lf] at hsame
    rwa [List.append_cancel_right hsame]
  · rwa [changeLine_of_not_matches hm]

theorem stored_writeLines {new : Bytes} (hnew : Stored new) (h : ∀ l ∈ lines, Stored l) :
    ∀ l ∈ writeLines name new lines, Stored l := by
  induction lines with
  | nil => simpa [writeLines] using hnew
  | cons l ls ih =>
    obtain ⟨hl, hls⟩ := List.forall_mem_cons.1 h
    have htail : ∀ p ∈ (parts l).tail, Stored p := by
      rw [parts]
      split_ifs with hlen
      · simp
      · rw [List.tail_cons, List.forall_mem_singleton, (hl.drop hlen).2]
        exact stored_newline
    rw [writeLines]
    split_ifs
    · rw [List.forall_mem_cons, List.forall_mem_append]
      exact ⟨hnew, htail, hls⟩
    · exact List.forall_mem_cons.2 ⟨hl, ih hls⟩

/-! ### The rewrites on the entries -/

theorem entry_of_matches (hm : matchesName name l = true) (hname : IsName name) :
    entry l = ⟨true, trimEol l⟩ := by
  have hhead := head?_ne_hash hname hm
  rw [entry, uncomment, if_neg hhead]
  simp [hhead]

theorem entry_changeLine (hname : IsName name) (hm : matchesName name (uncomment l) = true) :
    entry (changeLine name status l) = { entry l with enabled := status } := by
  rw [entry, uncomment_changeLine hname hm, changeLine, if_pos hm]
  cases status with
  | true => simp [entry, head?_ne_hash hname hm]
  | false => simp [entry]

theorem matchesName_changeLine (hname : IsName name) (l : Bytes) :
    matchesName name (uncomment (changeLine name status l)) = matchesName name (uncomment l) := by
  by_cases hm : matchesName name (uncomment l) = true
  · rw [uncomment_changeLine hname hm]
  · rw [changeLine_of_not_matches hm]

/-- Enabling and disabling. -/
theorem entries_map_changeLine (hname : IsName name) (hname' : IsName name')
    (lines : List Bytes) :
    entries (lines.map (changeLine name status)) name' =
      (entries lines).change name status name' := by
  rw [Conf.change, Function.update_apply, entries, List.filter_map, List.map_map]
  split_ifs with heq
  · have hsame : (fun l => matchesName name (uncomment l)) ∘ changeLine name status =
        fun l => matchesName name (uncomment l) := by
      funext l
      exact matchesName_changeLine hname l
    rw [heq, hsame, entries, List.map_map]
    refine List.map_congr_left fun l hl => ?_
    exact entry_changeLine hname (List.mem_filter.1 hl).2
  · have hsame : (fun l => matchesName name' (uncomment l)) ∘ changeLine name status =
        fun l => matchesName name' (uncomment l) := by
      funext l
      exact matchesName_changeLine_of_ne hname hname' heq
    rw [hsame]
    refine List.map_congr_left fun l hl => ?_
    rw [Function.comp_apply, changeLine_of_ne hname hname' heq (List.mem_filter.1 hl).2]

theorem entries_cons_of_matches (h : matchesName name (uncomment l) = true) (ls : List Bytes) :
    entries (l :: ls) name = entry l :: entries ls name := by
  rw [entries, List.filter_cons_of_pos (by exact h), List.map_cons, entries]

theorem entries_cons_of_not_matches (h : ¬ matchesName name (uncomment l) = true)
    (ls : List Bytes) : entries (l :: ls) name = entries ls name := by
  rw [entries, List.filter_cons_of_neg (by exact h), entries]

/-- The rest of a line that was read in two parts is for no parameter. -/
theorem entries_tail_parts (hname : IsName name) (h : Stored l) (ls : List Bytes) :
    entries ((parts l).tail ++ ls) name = entries ls name := by
  rw [parts]
  split_ifs with hlen
  · rfl
  · rw [List.tail_cons, (h.drop hlen).2, List.singleton_append]
    refine entries_cons_of_not_matches (fun hm => ?_) ls
    have hle := (List.isPrefixOf_iff_prefix.1 hm).length_le
    have hpos := List.length_pos_of_ne_nil hname.ne_nil
    rw [List.length_append, List.length_singleton] at hle
    have hone : (uncomment [lf]).length = 1 := rfl
    omega

/-- Setting a parameter. -/
theorem entries_writeLines {new : Bytes} (hname : IsName name) (hname' : IsName name')
    (hnew : matchesName name new = true) (h : ∀ l ∈ lines, Stored l) :
    entries (writeLines name new lines) name' =
      (entries lines).set name (trimEol new) name' := by
  have hnew' : matchesName name (uncomment new) = true := by
    rwa [uncomment, if_neg (head?_ne_hash hname hnew)]
  have hother : ∀ {l : Bytes}, name' ≠ name → matchesName name (uncomment l) = true →
      ¬ matchesName name' (uncomment l) = true := fun hne hm hm' =>
    hne (eq_of_matchesName hname.noEquals hname'.noEquals hm hm')
  rw [Conf.set, Function.update_apply]
  induction lines with
  | nil =>
    rw [writeLines]
    split_ifs with heq
    · rw [heq, entries_cons_of_matches hnew', entry_of_matches hnew hname]
      rfl
    · rw [entries_cons_of_not_matches (hother heq hnew')]
  | cons l ls ih =>
    obtain ⟨hl, hls⟩ := List.forall_mem_cons.1 h
    have ih := ih hls
    rw [writeLines]
    by_cases hm : matchesName name (uncomment l) = true
    · rw [if_pos hm]
      split_ifs with heq
      · rw [heq, entries_cons_of_matches hnew', entries_tail_parts hname hl,
          entries_cons_of_matches hm, List.tail_cons, entry_of_matches hnew hname]
      · rw [entries_cons_of_not_matches (hother heq hnew'), entries_tail_parts hname' hl,
          entries_cons_of_not_matches (hother heq hm)]
    · rw [if_neg hm, entries_cons_of_not_matches hm]
      by_cases hm' : matchesName name' (uncomment l) = true
      · have hne : name' ≠ name := by
          rintro rfl
          exact hm hm'
        rw [if_neg hne] at ih ⊢
        rw [entries_cons_of_matches hm', entries_cons_of_matches hm', ih]
      · rw [entries_cons_of_not_matches hm', entries_cons_of_not_matches hm', ih]

/-! ### Reading -/

/-- What a line is read as, with the comment marks. -/
theorem readLine_eq_entry (name l : Bytes) :
    readLine name ignoreComment l =
      if matchesName name (uncomment l) ∧ ((entry l).enabled || ignoreComment) then
        some (uncomment l) else none := by
  rw [readLine, entry, uncomment]
  by_cases hhash : l.head? = some hash
  · cases ignoreComment <;> simp [hhash]
  · simp [hhash]

/-- Reading goes line by line, also through the comment marks. -/
theorem findSome?_stored_parts (hname : ShortName name) (h : Stored l) :
    ((parts l).findSome? (readLine name ignoreComment)).map trimEol =
      (readLine name ignoreComment l).map trimEol := by
  rw [parts]
  split_ifs with hlen
  · rw [List.findSome?_singleton]
  · obtain ⟨htake, hdrop⟩ := h.drop hlen
    have hno : readLine name ignoreComment (l.drop (maxConfLineLen - 1)) = none :=
      readLine_of_passed (matchesName_drop hname h.isLine hlen) ignoreComment
    rw [List.findSome?_cons, List.findSome?_singleton, hno]
    have hhead : l.head? = (l.take (maxConfLineLen - 1)).head? := by
      rw [List.head?_take, if_neg (by decide)]
    have huncomment : uncomment l = uncomment (l.take (maxConfLineLen - 1)) ++ [lf] := by
      conv_lhs => rw [htake, uncomment_append_lf]
    rw [readLine_eq_entry, readLine_eq_entry name l, matchesName_take hname]
    have henabled : (entry (l.take (maxConfLineLen - 1))).enabled = (entry l).enabled := by
      rw [entry, entry, hhead]
    rw [henabled]
    split_ifs
    · rw [Option.map_some, Option.map_some, huncomment, trimEol_append_lf]
    · rfl

/-- What is found in the lines is what the entries say. -/
theorem findSome?_eq_read (name : Bytes) (lines : List Bytes) :
    (lines.findSome? (readLine name ignoreComment)).map trimEol =
      (entries lines).read name ignoreComment := by
  rw [Conf.read]
  induction lines with
  | nil => rfl
  | cons l ls ih =>
    rw [List.findSome?_cons, readLine_eq_entry]
    by_cases hm : matchesName name (uncomment l) = true
    · rw [entries_cons_of_matches hm, List.find?_cons]
      by_cases he : ((entry l).enabled || ignoreComment) = true
      · rw [if_pos ⟨hm, he⟩, he]
        rfl
      · rw [if_neg fun h => he h.2, Bool.eq_false_iff.2 he]
        exact ih
    · rw [if_neg fun h => hm h.1, entries_cons_of_not_matches hm]
      exact ih

theorem trimEol_trimEol (b : Bytes) : trimEol (trimEol b) = trimEol b := by
  induction b using List.reverseRecOn with
  | nil => rfl
  | append_singleton b c ih =>
    by_cases hc : c = cr ∨ c = lf
    · rw [trimEol_concat_of_eol hc, ih]
    · rw [trimEol_concat hc, trimEol_concat hc]

/-- A file answers as its entries do. -/
theorem readCfg_stored {cmd : Command} (hcmd : ShortName cmd.name) (h : ∀ l ∈ lines, Stored l)
    (plen : ℕ) (var : Option Bytes) :
    readCfg (some lines.flatten) cmd plen var ignoreComment =
      respond (some (entries lines)) cmd plen var ignoreComment := by
  rw [readCfg, confLines_flatten fun l hl => (h l hl).isLine, respond]
  refine readResponse_congr ?_
  have hparts : ((lines.flatMap parts).findSome? (readLine cmd.name ignoreComment)).map trimEol =
      (lines.findSome? (readLine cmd.name ignoreComment)).map trimEol := by
    induction lines with
    | nil => rfl
    | cons l ls ih =>
      obtain ⟨hl, hls⟩ := List.forall_mem_cons.1 h
      have hpart := @findSome?_stored_parts cmd.name l ignoreComment hcmd hl
      rw [List.flatMap_cons, List.findSome?_append, List.findSome?_cons]
      cases hread : readLine cmd.name ignoreComment l with
      | none =>
        rw [hread, Option.map_none, Option.map_eq_none_iff] at hpart
        rw [hpart, Option.none_or]
        exact ih hls
      | some pline =>
        rw [hread, Option.map_some] at hpart
        obtain ⟨pline', hfind, htrim⟩ := Option.map_eq_some_iff.1 hpart
        rw [hfind, Option.some_or, Option.map_some, Option.map_some, htrim]
  rw [hparts, ← findSome?_eq_read, Option.map_map]
  congr 1
  funext b
  exact (trimEol_trimEol b).symm

end

/-! ### Rewrites -/

/-- A rewrite of the configuration file. -/
inductive ConfOp where
  | write (cmd : Command) (val : Bytes) (plen : ℕ)
  | change (cmd : Command) (status : Bool)

/-- What becomes of the file. -/
inductive Outcome where
  | done
  | unchanged
  | lost
  deriving DecidableEq, Repr

namespace ConfOp

/-- The file after a rewrite. -/
def run (ops : FileOps) (file : Option Bytes) : ConfOp → Option Bytes
  | .write cmd val plen => (writeCfg ops file cmd val plen false).2.2
  | .change cmd status => (changeCfg ops file cmd status).2

/-- The parameter of a rewrite. -/
def cmd : ConfOp → Command
  | .write cmd _ _ => cmd
  | .change cmd _ => cmd

/-- `qsap_write_cfg` sets the mode and the owner also of a file that it could not replace. -/
def outcome (ops : FileOps) : ConfOp → Outcome
  | .write .. =>
    if ops.openRead && ops.openTmp then
      if ops.chmod && ops.chown then if ops.rename then .done else .unchanged else .lost
    else .unchanged
  | .change .. =>
    if ops.openRead && ops.openTmp && ops.rename then
      if ops.chmod && ops.chown then .done else .lost
    else .unchanged

/-- What a rewrite is for. -/
def apply (s : Conf) : ConfOp → Conf
  | .write cmd val _ => s.set cmd.name (trimEol (cmd.name ++ [equals] ++ val))
  | .change cmd status => s.change cmd.name status

/-- A rewrite of a store that may have been lost. -/
def step (ops : FileOps) (store : Option Conf) (op : ConfOp) : Option Conf :=
  match op.outcome ops with
  | .done => store.map op.apply
  | .unchanged => store
  | .lost => none

/-- The value fits a line. -/
def Fits : ConfOp → Prop
  | .write cmd val _ => FitsLine cmd.name val
  | .change _ _ => True

end ConfOp

/-- The entries of a file that is there are those of the store. -/
def Holds : Option Bytes → Option Conf → Prop
  | some text, some s => ∃ lines : List Bytes, text = lines.flatten ∧ (∀ l ∈ lines, Stored l) ∧
      ∀ name, IsName name → entries lines name = s name
  | none, none => True
  | _, _ => False

section

variable {ops : FileOps} {file : Option Bytes} {store : Option Conf} {op : ConfOp} {text : Bytes}
  {s : Conf} {lines : List Bytes} {name val : Bytes} {status : Bool}

theorem holds_entries (h : ∀ l ∈ lines, Stored l) :
    Holds (some lines.flatten) (some (entries lines)) := ⟨lines, rfl, h, fun _ _ => rfl⟩

/-- A file answers as the store does. -/
theorem Holds.readCfg {cmd : Command} (h : Holds file store) (hcmd : ShortName cmd.name) (plen : ℕ)
    (var : Option Bytes) (ignoreComment : Bool) :
    readCfg file cmd plen var ignoreComment = respond store cmd plen var ignoreComment := by
  match file, store, h with
  | none, none, _ => rfl
  | some _, some s, ⟨lines, rfl, hlines, hs⟩ =>
    rw [readCfg_stored hcmd hlines, respond, respond, Conf.read, Conf.read, hs _ hcmd.1]

theorem holds_writeText (h : Holds (some text) (some s)) (hname : ShortName name)
    (hval : FitsLine name val) :
    Holds (some (writeText name val false text))
      (some (s.set name (trimEol (name ++ [equals] ++ val)))) := by
  obtain ⟨lines, rfl, hlines, hs⟩ := h
  have hnew : matchesName name (confLine name val) = true := by
    rw [hval.confLine_eq, List.append_assoc _ val]
    exact List.isPrefixOf_iff_prefix.2 (List.prefix_append _ _)
  rw [writeText_flatten hname fun l hl => (hlines l hl).isLine]
  refine ⟨_, rfl, stored_writeLines (stored_of_fitsLine hname.1 hval) hlines, fun name' hname' => ?_⟩
  rw [entries_writeLines hname.1 hname' hnew hlines, hval.confLine_eq, trimEol_append_lf, Conf.set,
    Conf.set, Function.update_apply, Function.update_apply, hs name hname.1, hs name' hname']

theorem holds_changeText (h : Holds (some text) (some s)) (hname : ShortName name) :
    Holds (some (changeText name status text)) (some (s.change name status)) := by
  obtain ⟨lines, rfl, hlines, hs⟩ := h
  rw [changeText_flatten hname fun l hl => (hlines l hl).isLine]
  refine ⟨_, rfl, fun l hl => ?_, fun name' hname' => ?_⟩
  · obtain ⟨l', hl', rfl⟩ := List.mem_map.1 hl
    exact stored_changeLine hname.1 (hlines l' hl')
  · rw [entries_map_changeLine hname.1 hname', Conf.change, Conf.change, Function.update_apply,
      Function.update_apply, hs name hname.1, hs name' hname']

/-- **One rewrite**: the file keeps to the store, whatever its file operations return. -/
theorem ConfOp.run_spec (h : Holds file store) (hname : ShortName op.cmd.name) (hfits : op.Fits)
    (hwritten : ∀ t, ops.written t = t) : Holds (op.run ops file) (op.step ops store) := by
  match file, store, h with
  | none, none, h =>
    have hstep : op.step ops none = none := by
      rw [ConfOp.step]
      cases op.outcome ops <;> rfl
    rw [hstep]
    cases op <;> exact h
  | some text, some s, h =>
    cases op with
    | write cmd val plen =>
      have hset : Holds (some (writeText cmd.name val false text))
          (some (ConfOp.apply s (.write cmd val plen))) := holds_writeText h hname hfits
      simp only [ConfOp.run, ConfOp.step, ConfOp.outcome, writeCfg, hwritten]
      by_cases hopen : (ops.openRead && ops.openTmp) = true
      · by_cases hmode : (ops.chmod && ops.chown) = true
        · by_cases hrename : ops.rename = true
          · simpa only [hopen, hmode, hrename, if_true, Option.map_some] using hset
          · simpa only [hopen, hmode, hrename, if_true, Bool.false_eq_true, if_false] using h
        · simp only [hopen, hmode, if_true, Bool.false_eq_true, if_false]
          trivial
      · simpa only [hopen, Bool.false_eq_true, if_false] using h
    | change cmd status =>
      have hchange : Holds (some (changeText cmd.name status text))
          (some (ConfOp.apply s (.change cmd status))) := holds_changeText h hname
      simp only [ConfOp.run, ConfOp.step, ConfOp.outcome, changeCfg, hwritten]
      by_cases hopen : (ops.openRead && ops.openTmp && ops.rename) = true
      · by_cases hmode : (ops.chmod && ops.chown) = true
        · simpa only [hopen, hmode, if_true, Option.map_some] using hchange
        · simp only [hopen, hmode, if_true, Bool.false_eq_true, if_false]
          trivial
      · simpa only [hopen, Bool.false_eq_true, if_false] using h

/-! ### Runs -/

/-- The file after a sequence of rewrites, each with its file operations. -/
def runConf (steps : List (FileOps × ConfOp)) (file : Option Bytes) : Option Bytes :=
  steps.foldl (fun file st => st.2.run st.1 file) file

/-- The store after the same sequence. -/
def runStore (steps : List (FileOps × ConfOp)) (store : Option Conf) : Option Conf :=
  steps.foldl (fun store st => st.2.step st.1 store) store

theorem holds_runConf {steps : List (FileOps × ConfOp)} (h : Holds file store)
    (hname : ∀ st ∈ steps, ShortName st.2.cmd.name) (hfits : ∀ st ∈ steps, st.2.Fits)
    (hwritten : ∀ st ∈ steps, ∀ t, st.1.written t = t) :
    Holds (runConf steps file) (runStore steps store) := by
  induction steps generalizing file store with
  | nil => exact h
  | cons st steps ih =>
    rw [List.forall_mem_cons] at hname hfits hwritten
    exact ih (ConfOp.run_spec h hname.1 hfits.1 hwritten.1) hname.2 hfits.2 hwritten.2

end

end Softap

end Msm8909w
