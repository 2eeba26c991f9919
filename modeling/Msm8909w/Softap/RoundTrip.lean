import Msm8909w.Softap.Commands
import Msm8909w.Softap.Passes

/-!
# Reading what has been written

`qsap_write_cfg` replaces the first line of a parameter, commented or not, or puts a new line in
front of `END` or at the end; `qsap_read_cfg` takes the first line of the parameter that is not
commented.  The new line is the one that is found: everything in front of it is for other parameters
(`Passed`), and is read through the buffer as before.

* `writeText_eq_append`, `readCfg_of_passed` : what stands in front of the new line, and that the
  new line is read,
* `readCfg_writeCfg` : a value that has been written is read back,
* `changeCfg_passes` : the passes of `qsap_change_cfg` keep the other lines, the last one for a
  parameter counts, and passes for different parameters commute.
-/

namespace Msm8909w

namespace Softap

/-! ### In front of a line -/

/-- Lines in front of the first one of a parameter: each of them is read by one `fgets`. -/
def Passed (name : Bytes) (pre : List Bytes) : Prop :=
  ∀ l ∈ pre, Closed lf (maxConfLineLen - 1) l ∧ 0 ∉ l ∧ ¬ matchesName name (uncomment l)

/-- A line of its own that fits the buffer. -/
structure IsShort (n : ℕ) (l : Bytes) : Prop where
  noLf : lf ∉ l
  noNul : 0 ∉ l
  length_le : l.length ≤ n

section

variable {name val text new rest : Bytes} {pre : List Bytes} {cmd : Command}

theorem IsShort.closed {l : Bytes} (h : IsShort 154 l) :
    Closed lf (maxConfLineLen - 1) (l ++ [lf]) :=
  .inl ⟨l, h.noLf, Nat.lt_of_le_of_lt h.length_le (by decide), rfl⟩

theorem IsShort.zero_notMem {n : ℕ} {l : Bytes} (h : IsShort n l) : 0 ∉ l ++ [lf] := by
  rw [List.mem_append, List.mem_singleton, not_or]
  exact ⟨h.noNul, by decide⟩

/-- The lines in front are read as they are, and so is the one behind them. -/
theorem confLines_of_passed (hpre : Passed name pre) (hnew : Closed lf (maxConfLineLen - 1) new)
    (h0 : 0 ∉ new) : confLines (pre.flatten ++ new ++ rest) = pre ++ new :: confLines rest := by
  have hn : 0 < maxConfLineLen - 1 := by decide
  have hnul : 0 ∉ pre.flatten := by
    intro hmem
    obtain ⟨l, hl, h0l⟩ := List.mem_flatten.1 hmem
    exact (hpre l hl).2.1 h0l
  rw [confLines, List.append_assoc, chunks_flatten_append hn fun l hl => (hpre l hl).1,
    chunks_closed_append hn hnew, List.map_append, List.map_cons, map_cstr_eq_self hnul,
    cstr_eq_self h0]
  rfl

theorem readLine_of_passed {l : Bytes} (h : ¬ matchesName name (uncomment l))
    (ignoreComment : Bool) : readLine name ignoreComment l = none := by
  rw [uncomment] at h
  rw [readLine]
  split_ifs at h ⊢ <;> rfl

/-- The line behind the ones in front is what is read, if it is for the parameter. -/
theorem findSome?_of_passed (hpre : Passed name pre) {ignoreComment : Bool} {pline : Bytes}
    {bufs : List Bytes} (hnew : readLine name ignoreComment new = some pline) :
    (pre ++ new :: bufs).findSome? (readLine name ignoreComment) = some pline := by
  have hnone : pre.findSome? (readLine name ignoreComment) = none :=
    List.findSome?_eq_none_iff.2 fun l hl => readLine_of_passed (hpre l hl).2.2 ignoreComment
  rw [List.findSome?_append, hnone, List.findSome?_cons, hnew]
  rfl

/-- What is read from a file with such lines in front. -/
theorem readCfg_of_passed (hpre : Passed cmd.name pre)
    (hclosed : Closed lf (maxConfLineLen - 1) new) (h0 : 0 ∉ new) {ignoreComment : Bool}
    {pline : Bytes} (hnew : readLine cmd.name ignoreComment new = some pline) (plen : ℕ)
    (var : Option Bytes) :
    readCfg (some (pre.flatten ++ new ++ rest)) cmd plen var ignoreComment =
      readResponse cmd plen var (some pline) := by
  rw [readCfg, confLines_of_passed hpre hclosed h0, findSome?_of_passed hpre hnew]

end

/-! ### Writing -/

/-- Neither the lines of the parameter nor their tails are taken for the end of an ini file. -/
def NotEnd (name : Bytes) : Prop :=
  ¬ ascii "END" <+: name ++ [equals] ∧ ¬ ascii "END" <+: (name ++ [equals]).tail

instance : DecidablePred NotEnd := fun name =>
  inferInstanceAs (Decidable (¬ ascii "END" <+: name ++ [equals] ∧
    ¬ ascii "END" <+: (name ++ [equals]).tail))

theorem notEnd_cmdList (c : EsapCmd) : NotEnd (cmdList c).name := by
  cases c <;> decide

theorem notEnd_qsapStr (s : EsapStr) : NotEnd (qsapStr s).name := by
  cases s <;> decide

section

variable {name val text : Bytes} {ini : Bool} {bufs : List Bytes}

theorem end_not_prefix_append {x : Bytes} (hx : equals ∈ x) (h : ¬ ascii "END" <+: x) (w : Bytes) :
    ¬ ascii "END" <+: x ++ w := by
  intro hpre
  rcases List.prefix_or_prefix_of_prefix hpre (List.prefix_append x w) with h' | h'
  · exact h h'
  · exact absurd (h'.subset hx) (by decide)

/-- The new line does not end the file, also behind the comment mark of the old one. -/
theorem NotEnd.confLine (h : NotEnd name) (hname : name ≠ []) (w : Bytes) :
    ¬ ascii "END" <+: name ++ [equals] ++ w ∧ ¬ ascii "END" <+: (name ++ [equals] ++ w).tail := by
  refine ⟨end_not_prefix_append (by simp) h.1 w, ?_⟩
  cases name with
  | nil => exact absurd rfl hname
  | cons c name => exact end_not_prefix_append (by simp) h.2 w

/-- What `qsap_write_cfg` has printed in the end, given what its first loop leaves. -/
def afterLoop (new : Bytes) (ini : Bool) (loop : Bytes × Bool × List Bytes) : Bytes :=
  loop.1 ++ (if loop.2.1 then [] else new) ++
    if ini then ascii "END" ++ [lf] ++ loop.2.2.flatten else []

theorem afterLoop_append (new : Bytes) (ini : Bool) (b : Bytes) (loop : Bytes × Bool × List Bytes) :
    afterLoop new ini (b ++ loop.1, loop.2) = b ++ afterLoop new ini loop := by
  simp [afterLoop]

/-- A line for the parameter is replaced. -/
theorem writeLoop_hit {buf : Bytes} (hm : matchesName name (uncomment buf) = true)
    (hend : (ini && (ascii "END").isPrefixOf
      (if buf.head? = some hash then (confLine name val).tail else confLine name val)) = false) :
    writeLoop name val ini false (buf :: bufs) =
      (confLine name val ++ (writeLoop name val ini true bufs).1,
        (writeLoop name val ini true bufs).2) := by
  simp only [writeLoop, hm, Bool.not_false, Bool.and_self, Bool.or_true, if_true, hend,
    Bool.false_eq_true, if_false]

/-- A line that is not replaced ends the file or is printed. -/
theorem writeLoop_miss {buf : Bytes} (hm : matchesName name (uncomment buf) = false) :
    writeLoop name val ini false (buf :: bufs) =
      if ini && (ascii "END").isPrefixOf (uncomment buf) then ([], false, bufs)
      else
        (buf ++ (writeLoop name val ini false bufs).1, (writeLoop name val ini false bufs).2) := by
  simp only [writeLoop, hm, Bool.and_false, Bool.or_false, Bool.false_eq_true, if_false]
  rfl

/-- What is printed up to the new line. -/
theorem afterLoop_writeLoop (hend : ∀ buf : Bytes, (ini && (ascii "END").isPrefixOf
      (if buf.head? = some hash then (confLine name val).tail else confLine name val)) = false) :
    ∃ pre rest, pre <+: bufs ∧ (∀ l ∈ pre, ¬ matchesName name (uncomment l)) ∧
      afterLoop (confLine name val) ini (writeLoop name val ini false bufs) =
        pre.flatten ++ confLine name val ++ rest := by
  induction bufs with
  | nil => exact ⟨[], _, List.prefix_rfl, by simp, rfl⟩
  | cons buf bufs ih =>
    by_cases hm : matchesName name (uncomment buf) = true
    · rw [writeLoop_hit hm (hend buf), afterLoop_append]
      exact ⟨[], _, List.nil_prefix, by simp, rfl⟩
    · rw [writeLoop_miss (Bool.eq_false_iff.2 hm)]
      split_ifs with hini
      · exact ⟨[], _, List.nil_prefix, by simp, rfl⟩
      · obtain ⟨pre, rest, hpre, hnot, heq⟩ := ih
        refine ⟨buf :: pre, rest, List.cons_prefix_cons.2 ⟨rfl, hpre⟩,
          List.forall_mem_cons.2 ⟨hm, hnot⟩, ?_⟩
        rw [afterLoop_append, heq, List.flatten_cons, List.append_assoc, List.append_assoc,
          List.append_assoc]

/-- A value that can be written on one line. -/
structure FitsLine (name val : Bytes) : Prop where
  noLf : lf ∉ val
  noNul : 0 ∉ val
  length_le : name.length + 1 + val.length + 1 ≤ maxConfLineLen - 1

theorem FitsLine.isShort (h : FitsLine name val) (hname : IsName name) :
    IsShort 154 (name ++ [equals] ++ val) where
  noLf := by
    simp only [List.mem_append, List.mem_singleton, not_or]
    exact ⟨⟨hname.noLf, by decide⟩, h.noLf⟩
  noNul := by
    simp only [List.mem_append, List.mem_singleton, not_or]
    exact ⟨⟨hname.noNul, by decide⟩, h.noNul⟩
  length_le := by
    have hle : name.length + 1 + val.length + 1 ≤ 155 := h.length_le
    simp only [List.length_append, List.length_singleton]
    omega

theorem FitsLine.confLine_eq (h : FitsLine name val) :
    confLine name val = name ++ [equals] ++ val ++ [lf] := by
  have hle := h.length_le
  exact Softap.confLine_eq (by omega)

/-- **Where the new line stands**: in front of it there are only lines of other parameters, which
are read as before. -/
theorem writeText_eq_append (hname : IsName name) (hnotEnd : ini = true → NotEnd name)
    (hval : FitsLine name val) (hnul : 0 ∉ text) (hended : Ended text) :
    ∃ pre rest, Passed name pre ∧
      writeText name val ini text = pre.flatten ++ (name ++ [equals] ++ val ++ [lf]) ++ rest := by
  have hend : ∀ buf : Bytes, (ini && (ascii "END").isPrefixOf
      (if buf.head? = some hash then (confLine name val).tail else confLine name val)) = false := by
    intro buf
    rw [Bool.and_eq_false_imp]
    intro hini
    obtain ⟨hno, hno'⟩ := (hnotEnd hini).confLine hname.ne_nil (val ++ [lf])
    rw [hval.confLine_eq, Bool.eq_false_iff, Ne, List.isPrefixOf_iff_prefix,
      List.append_assoc _ val]
    split_ifs
    · exact hno'
    · exact hno
  obtain ⟨pre, rest, hpre, hnot, heq⟩ := @afterLoop_writeLoop name val ini (confLines text) hend
  refine ⟨pre, rest, fun l hl => ?_, hval.confLine_eq ▸ heq⟩
  have hmem : l ∈ chunks lf (maxConfLineLen - 1) text := by
    rw [← confLines_eq_chunks hnul]
    exact hpre.subset hl
  refine ⟨closed_of_ended hended l hmem, fun h0 => hnul ?_, hnot l hl⟩
  rw [← @flatten_chunks _ _ lf _ (show 0 < maxConfLineLen - 1 by decide) text]
  exact List.mem_flatten.2 ⟨l, hmem, h0⟩

end

/-! ### Read after write -/

/-- Every line of the file ends. -/
def NewlineTerminated (text : Bytes) : Prop := text ≠ [] → text.getLast? = some lf

theorem NewlineTerminated.ended {text : Bytes} (h : NewlineTerminated text) : Ended text := by
  rcases List.eq_nil_or_concat' text with rfl | ⟨b, c, rfl⟩
  · intro l hl
    cases hl
  · have hc := h (by simp)
    rw [List.getLast?_concat, Option.some.injEq] at hc
    rw [hc]
    exact ended_concat b

/-- An entry of one of the two tables. -/
def IsKey (cmd : Command) : Prop := (∃ c, cmd = cmdList c) ∨ ∃ s, cmd = qsapStr s

theorem IsKey.notEnd {cmd : Command} (h : IsKey cmd) : NotEnd cmd.name := by
  rcases h with ⟨c, rfl⟩ | ⟨s, rfl⟩
  · exact notEnd_cmdList c
  · exact notEnd_qsapStr s

section

variable {name val text : Bytes} {ini : Bool} {cmd : Command}

/-- Only the value of a line can lose its end. -/
theorem trimEol_append (name w : Bytes) :
    trimEol (name ++ [equals] ++ w) = name ++ [equals] ++ trimEol w := by
  induction w using List.reverseRecOn with
  | nil =>
    rw [List.append_nil, trimEol_concat (by decide)]
    exact (List.append_nil _).symm
  | append_singleton w c ih =>
    rw [← List.append_assoc]
    by_cases hc : c = cr ∨ c = lf
    · rw [trimEol_concat_of_eol hc, trimEol_concat_of_eol hc, ih]
    · rw [trimEol_concat hc, trimEol_concat hc, List.append_assoc _ w]

theorem trimEol_of_value (hcr : cr ∉ val) (hlf : lf ∉ val) :
    trimEol (name ++ [equals] ++ val ++ [lf]) = name ++ [equals] ++ val := by
  have hval : trimEol val = val := by
    rcases List.eq_nil_or_concat' val with rfl | ⟨v, c, rfl⟩
    · rfl
    · simp only [List.mem_append, List.mem_singleton, not_or] at hcr hlf
      exact trimEol_concat (not_or.2 ⟨Ne.symm hcr.2, Ne.symm hlf.2⟩) v
  rw [trimEol_append_lf, trimEol_append, hval]

/-- A line of the parameter that is not commented is read. -/
theorem readLine_eq_some (hname : IsName name) (w : Bytes) (ignoreComment : Bool) :
    readLine name ignoreComment (name ++ [equals] ++ w) = some (name ++ [equals] ++ w) := by
  have hm : matchesName name (name ++ [equals] ++ w) = true :=
    List.isPrefixOf_iff_prefix.2 (List.prefix_append _ _)
  rw [readLine, if_neg (head?_ne_hash hname hm), if_pos hm]

/-- The line that has been written is read. -/
theorem readCfg_writeText_self (hnotEnd : ini = true → NotEnd cmd.name)
    (hval : FitsLine cmd.name val) (hnul : 0 ∉ text) (hended : Ended text) (plen : ℕ)
    (var : Option Bytes) (ignoreComment : Bool) :
    readCfg (some (writeText cmd.name val ini text)) cmd plen var ignoreComment =
      readResponse cmd plen var (some (cmd.name ++ [equals] ++ val ++ [lf])) := by
  obtain ⟨pre, rest, hpre, heq⟩ := writeText_eq_append cmd.isName hnotEnd hval hnul hended
  have hshort := hval.isShort cmd.isName
  rw [heq]
  refine readCfg_of_passed hpre hshort.closed hshort.zero_notMem ?_ plen var
  rw [List.append_assoc _ val]
  exact readLine_eq_some cmd.isName _ ignoreComment

/-- A rewrite that succeeds leaves what it has printed. -/
theorem file_of_writeCfg {ops : FileOps} {plen : ℕ} (hwritten : ∀ t, ops.written t = t)
    (hok : (writeCfg ops (some text) cmd val plen ini).1 = .success) :
    (writeCfg ops (some text) cmd val plen ini).2.2 = some (writeText cmd.name val ini text) := by
  unfold writeCfg at hok ⊢
  dsimp only at hok ⊢
  split_ifs at hok ⊢ with hopen hmode hrename
  · rw [hwritten]

end

/-! ### Passes -/

section

variable {name name' l : Bytes} {status status' : Bool}

theorem uncomment_changeLine (hname : IsName name) (hm : matchesName name (uncomment l) = true) :
    uncomment (changeLine name status l) = uncomment l := by
  rw [changeLine, if_pos hm]
  cases status with
  | true => exact if_neg (head?_ne_hash hname hm)
  | false => rfl

/-- The last pass for a parameter counts. -/
theorem changeLine_changeLine (hname : IsName name) (l : Bytes) :
    changeLine name status (changeLine name status' l) = changeLine name status l := by
  by_cases hm : matchesName name (uncomment l) = true
  · have hu := @uncomment_changeLine name l status' hname hm
    rw [changeLine, hu, if_pos hm, changeLine, if_pos hm]
  · rw [changeLine_of_not_matches hm]

/-- Passes for different parameters commute. -/
theorem changeLine_comm (hname : IsName name) (hname' : IsName name') (hne : name ≠ name')
    (l : Bytes) :
    changeLine name status (changeLine name' status' l) =
      changeLine name' status' (changeLine name status l) := by
  by_cases hm : matchesName name (uncomment l) = true
  · have hm' : matchesName name (uncomment (changeLine name status l)) = true := by
      rwa [uncomment_changeLine hname hm]
    rw [changeLine_of_ne hname' hname hne hm, changeLine_of_ne hname' hname hne hm']
  · have hm' : ¬ matchesName name (uncomment (changeLine name' status' l)) = true := by
      rwa [matchesName_changeLine_of_ne hname' hname hne]
    rw [changeLine_of_not_matches hm, changeLine_of_not_matches hm']

/-- A line of at most `n` characters, with its end. -/
def IsConfLine (n : ℕ) (l : Bytes) : Prop := ∃ b, IsShort n b ∧ l = b ++ [lf]

/-- Disabling a parameter makes a line longer by one character at most. -/
theorem IsConfLine.changeLine {n : ℕ} (h : IsConfLine n l) :
    IsConfLine (n + 1) (changeLine name status l) := by
  obtain ⟨b, hb, rfl⟩ := h
  have hb' : IsShort n (uncomment b) := by
    refine ⟨fun hm => hb.noLf ?_, fun hm => hb.noNul ?_,
      (length_uncomment_le b).trans hb.length_le⟩
    · rw [uncomment] at hm
      split_ifs at hm
      · exact List.mem_of_mem_tail hm
      · exact hm
    · rw [uncomment] at hm
      split_ifs at hm
      · exact List.mem_of_mem_tail hm
      · exact hm
  rw [Softap.changeLine, uncomment_append_lf]
  split_ifs
  · exact ⟨_, ⟨hb'.noLf, hb'.noNul, hb'.length_le.trans (Nat.le_succ n)⟩, rfl⟩
  · refine ⟨hash :: uncomment b, ⟨?_, ?_, Nat.succ_le_succ hb'.length_le⟩, rfl⟩
    · rw [List.mem_cons, not_or]
      exact ⟨by decide, hb'.noLf⟩
    · rw [List.mem_cons, not_or]
      exact ⟨by decide, hb'.noNul⟩
  · exact ⟨b, ⟨hb.noLf, hb.noNul, hb.length_le.trans (Nat.le_succ n)⟩, rfl⟩

variable {lines : List Bytes}

/-- Lines that fit the buffer are read one by one. -/
theorem confLines_of_isConfLine (h : ∀ l ∈ lines, IsConfLine 154 l) :
    confLines lines.flatten = lines := by
  have hn : 0 < maxConfLineLen - 1 := by decide
  have hnul : 0 ∉ lines.flatten := by
    intro hmem
    obtain ⟨l, hl, h0⟩ := List.mem_flatten.1 hmem
    obtain ⟨b, hb, rfl⟩ := h l hl
    exact hb.zero_notMem h0
  rw [confLines_eq_chunks hnul]
  refine chunks_flatten hn fun l hl => ?_
  obtain ⟨b, hb, rfl⟩ := h l hl
  exact hb.closed

theorem changeText_eq (h : ∀ l ∈ lines, IsConfLine 154 l) :
    changeText name status lines.flatten = (lines.map (changeLine name status)).flatten := by
  rw [changeText, confLines_of_isConfLine h, List.flatMap_def]

theorem changeCfg_eq {ops : FileOps} (hops : ops.Ok) (h : ∀ l ∈ lines, IsConfLine 154 l)
    (cmd : Command) :
    changeCfg ops (some lines.flatten) cmd status =
      (.success, some (lines.map (changeLine cmd.name status)).flatten) := by
  rw [hops.changeCfg, changeText_eq h]

end

theorem okOps_ok : okOps.Ok := ⟨rfl, rfl, fun _ => rfl, rfl, rfl, rfl⟩

end Softap

end Msm8909w
