import Msm8909w.Datatop.Helpers
import Msm8909w.Datatop.Str
import Msm8909w.Lib.Rounds

/-!
# Files with names and values on two lines

`datatop_dual_line_poll.c` reads files such as `/proc/net/netstat`, which consist of pairs of lines,
the names of counters and their values.  `dtop_dual_line_search` makes a data point of every name,
and `dtop_dual_line_poll` reads the file again and stores the values.  Every line is read twice:
from one copy the dictionary of names and values is made, from the other one the prefix.

A data point keeps pointers to its name and prefix, which are in the lines, and the lines are
overwritten by every poll: a pointer is the number of a line and a position in it.
-/

namespace Msm8909w

namespace Datatop

def DTOP_DUAL_SIZE : ℕ := 8192
/-- `DTOP_DUAL_SIZE >> 2`. -/
def DTOP_DUAL_LINE : ℕ := 2048

/-- `struct dtop_dual_line_vars`. -/
structure DualLineVars where
  line : ℕ → Buffer UInt8
  line2 : ℕ → Buffer UInt8
  line_count : ℕ

/-- A data point, with the pointers to its name and its prefix. -/
structure DualPoint where
  name : ℕ × ℕ
  namePrefix : ℕ × ℕ
  dp : DataPoint

/-- What is in memory that `malloc` returns. -/
structure Junk where
  line : ℕ → Buffer UInt8
  line2 : ℕ → Buffer UInt8
  data : Buffer UInt8
  dict : ℕ → ProcDict ℕ
  prefix_dict : ℕ → ProcDict ℕ
  data_points : ℕ → DataPoint

/-! ### Reading the file -/

/-- `dtop_get_file_line_amount`; the byte `0xFF` is taken for the end of the file. -/
def dtopGetFileLineAmount : Bytes → ℕ
  | [] => 0
  | c :: file =>
    if c = 0xFF then 0 else (if c = 10 then 1 else 0) + dtopGetFileLineAmount file

/-- `dt_read_file`: the buffer, and the number of bytes read. -/
def dtReadFile (file : Bytes) (data : Buffer UInt8) (len : ℕ) : Buffer UInt8 × ℕ :=
  (data.put 0 (file.take len), (file.take len).length)

/-- The lines that have been read, their lengths, and where the next one starts. -/
structure LinesRead where
  line : ℕ → Buffer UInt8
  line_len : ℕ → ℕ
  sum : ℕ

/-- Line `n` is read. -/
def readNth (data : Buffer UInt8) (line_count : ℕ) (s : LinesRead) (n : ℕ) : LinesRead :=
  let r := dtReadLine (s.line n) DTOP_DUAL_LINE data DTOP_DUAL_SIZE s.sum
  { line := Function.update s.line n r.1
    line_len := Function.update s.line_len n r.2
    -- one more byte, for the newline; also if the line was cut
    sum := if n + 2 ≤ line_count then s.sum + (r.2 + 1) else s.sum }

/-- The loop that reads the lines, into both copies. -/
def readLines (data : Buffer UInt8) (line_count : ℕ) (line line2 : ℕ → Buffer UInt8) :
    LinesRead × LinesRead :=
  (List.range line_count).foldl
    (fun s n => (readNth data line_count s.1 n, readNth data line_count s.2 n))
    (⟨line, fun _ => 0, 0⟩, ⟨line2, fun _ => 0, 0⟩)

/-- The lines and the dictionaries made of them. -/
structure LinesParsed where
  line : ℕ → Buffer UInt8
  dict : ℕ → ProcDict ℕ

/-- Pair `i` of the first copy is parsed. -/
def parsePair (line_len : ℕ → ℕ) (s : LinesParsed) (i : ℕ) : LinesParsed :=
  let r := dtParseProcDictionary (s.line (2 * i)) (line_len (2 * i)) (s.line (2 * i + 1))
    (line_len (2 * i + 1)) (s.dict i)
  { line := Function.update (Function.update s.line (2 * i) r.1) (2 * i + 1) r.2.1
    dict := Function.update s.dict i r.2.2 }

/-- The first line of pair `i` of the second copy is parsed. -/
def parseNamePrefix (line_len : ℕ → ℕ) (s : LinesParsed) (i : ℕ) : LinesParsed :=
  let r := dtParseForPrefix (s.line (2 * i)) (line_len (2 * i)) (s.dict i)
  { line := Function.update s.line (2 * i) r.1
    dict := Function.update s.dict i r.2 }

/-- The loop that makes the dictionaries of names and values. -/
def parsePairs (line_count : ℕ) (s : LinesRead) (dict : ℕ → ProcDict ℕ) : LinesParsed :=
  (List.range (line_count / 2)).foldl (parsePair s.line_len) ⟨s.line, dict⟩

/-- The loop that makes the dictionaries of prefixes. -/
def parseNamePrefixes (line_count : ℕ) (s2 : LinesRead) (dict : ℕ → ProcDict ℕ) : LinesParsed :=
  (List.range (line_count / 2)).foldl (parseNamePrefix s2.line_len) ⟨s2.line, dict⟩

/-- The part that the search and the poll share: both copies with their dictionaries; `none` if
nothing could be read. -/
def readDual (file : Bytes) (junk : Junk) (storage : DualLineVars) :
    Option (LinesParsed × LinesParsed) :=
  let (data, read) := dtReadFile file junk.data DTOP_DUAL_SIZE
  if read = 0 then none
  else
    let (s, s2) := readLines data storage.line_count storage.line storage.line2
    some (parsePairs storage.line_count s junk.dict,
      parseNamePrefixes storage.line_count s2 junk.prefix_dict)

/-! ### The search -/

/-- The data point for entry `i` of dictionary `j`. -/
def dualPoint (s s2 : LinesParsed) (fresh : DataPoint) (j i : ℕ) : DualPoint where
  name := (2 * j, (s.dict j).key i)
  namePrefix := (2 * j, (s2.dict j).val i)
  dp := { fresh with
    type := if s.line (2 * j + 1) ((s.dict j).val i) = 45 then DTOP_LONG else DTOP_ULONG
    initial_data_populated := false }

/-- The entries of the dictionaries, one after another. -/
def dictEntries (count : ℕ) (dict : ℕ → ProcDict ℕ) : List (ℕ × ℕ) :=
  (List.range count).flatMap fun j => (List.range (dict j).max).map fun i => (j, i)

/-- `dtop_dual_line_search`: the lines and the data points, `none` for `DTOP_POLL_IO_ERR`. -/
def dtopDualLineSearch (file : Bytes) (junk : Junk) (line_count : ℕ) :
    Option (DualLineVars × List DualPoint) :=
  (readDual file junk ⟨junk.line, junk.line2, line_count⟩).map fun (s, s2) =>
    (⟨s.line, s2.line, line_count⟩, (dictEntries (line_count / 2) s.dict).mapIdx fun k e =>
      dualPoint s s2 (junk.data_points k) e.1 e.2)

/-- `dtop_dual_line_init`: a file with an odd number of lines is not searched. -/
def dtopDualLineInit (file : Bytes) (junk : Junk) : Option (DualLineVars × List DualPoint) :=
  let line_count := dtopGetFileLineAmount file
  if line_count % 2 ≠ 0 then none else dtopDualLineSearch file junk line_count

/-! ### The poll -/

/-- The string a pointer points to. -/
def strAt (line : ℕ → Buffer UInt8) (p : ℕ × ℕ) : Bytes := cstr (line p.1) DTOP_DUAL_LINE p.2

section Poll

variable (undef : ℕ → ℤ → ℕ)

/-- The body of the loops of `dtop_dual_line_poll`, for pair `k` and a data point.  The numbers that
are stored fit into the union, so that the storing succeeds. -/
def assignPoint (s s2 : LinesParsed) (d : DualPoint) (k : ℕ) : DualPoint :=
  match dtFindDictIdx (strAt s.line d.name) (s.line (2 * k)) DTOP_DUAL_LINE (s.dict k) with
  | none => d
  | some i =>
    if i < (s.dict k).max ∧
        strAt s2.line d.namePrefix = strAt s2.line (2 * k, (s2.dict k).val i) then
      { d with dp :=
        (dtopStoreDp undef d.dp (strAt s.line (2 * k + 1, (s.dict k).val i))).getD d.dp }
    else d

/-- `dtop_dual_line_poll`: the lines and the data points afterwards, `none` for
`DTOP_POLL_IO_ERR`. -/
def dtopDualLinePoll (file : Bytes) (junk : Junk) (storage : DualLineVars)
    (data_points : List DualPoint) : Option (DualLineVars × List DualPoint) :=
  (readDual file junk storage).map fun (s, s2) =>
    (⟨s.line, s2.line, storage.line_count⟩, (List.range (storage.line_count / 2)).foldl
      (fun ps k => ps.map fun d => assignPoint undef s s2 d k) data_points)

end Poll

/-! ### Lines that have been read -/

/-- The text of a file with the given lines. -/
def fileText (rows : List Row) : Bytes := rows.flatMap fun r => r.text ++ [10]

/-- One of the two copies. -/
def readCopy (data : Buffer UInt8) (line_count : ℕ) (line : ℕ → Buffer UInt8) : LinesRead :=
  (List.range line_count).foldl (readNth data line_count) ⟨line, fun _ => 0, 0⟩

/-- The lines `n < line_count` hold the rows. -/
def LinesRead.Hold (s : LinesRead) (rows : List Row) (line_count : ℕ) : Prop :=
  ∀ n < line_count, ∀ r, rows[n]? = some r →
    HoldsLine (s.line n) r.text ∧ s.line_len n = r.text.length

/-- The lines before line `n` have been read, and line `n`, if there is one, is next. -/
def LinesRead.UpTo (s : LinesRead) (rows : List Row) (line_count n : ℕ) : Prop :=
  s.Hold rows n ∧ (n < line_count → s.sum = (fileText (rows.take n)).length)

section Read

variable {rows : List Row} {r : Row} {data : Buffer UInt8} {line_count n : ℕ} {s : LinesRead}

/-- Where a row is in the text of the file. -/
theorem fileText_eq (h : rows[n]? = some r) : fileText rows =
    fileText (rows.take n) ++ ((r.text ++ [10]) ++ fileText (rows.drop (n + 1))) := by
  obtain ⟨hn, rfl⟩ := List.getElem?_eq_some_iff.1 h
  have hsplit : rows = rows.take n ++ rows[n] :: rows.drop (n + 1) := by
    rw [← List.drop_eq_getElem_cons hn, List.take_append_drop]
  conv_lhs => rw [hsplit]
  rw [fileText, List.flatMap_append, List.flatMap_cons]
  rfl

theorem length_fileText_take_succ (h : rows[n]? = some r) :
    (fileText (rows.take (n + 1))).length =
      (fileText (rows.take n)).length + (r.text.length + 1) := by
  rw [List.take_add_one, h, Option.toList_some, fileText, List.flatMap_append, List.length_append,
    List.flatMap_singleton, List.length_append]
  rfl

/-- Line `n` is read, if it is no longer than `DTOP_DUAL_LINE`. -/
theorem dtReadLine_row (h : rows[n]? = some r) (hnl : 10 ∉ r.text)
    (hshort : r.text.length < DTOP_DUAL_LINE)
    (hdata : data.get 0 (fileText rows).length = fileText rows)
    (hsize : (fileText rows).length < DTOP_DUAL_SIZE) (buf : Buffer UInt8) :
    HoldsLine (dtReadLine buf DTOP_DUAL_LINE data DTOP_DUAL_SIZE
        (fileText (rows.take n)).length).1 r.text ∧
      (dtReadLine buf DTOP_DUAL_LINE data DTOP_DUAL_SIZE
        (fileText (rows.take n)).length).2 = r.text.length := by
  rw [fileText_eq h] at hdata hsize
  obtain ⟨-, hrest⟩ := Buffer.get_eq_append hdata
  obtain ⟨hline, -⟩ := Buffer.get_eq_append hrest
  rw [Nat.zero_add, List.length_append, List.length_singleton] at hline
  simp only [List.length_append] at hsize
  exact dtReadLine_line hnl hline hshort (by omega)

/-- One round reads one line. -/
theorem LinesRead.UpTo.readNth (h : s.UpTo rows line_count n) (hn : n < line_count)
    (hcount : line_count ≤ rows.length) (hnl : ∀ r ∈ rows, 10 ∉ r.text)
    (hshort : ∀ r ∈ rows, r.text.length < DTOP_DUAL_LINE)
    (hdata : data.get 0 (fileText rows).length = fileText rows)
    (hsize : (fileText rows).length < DTOP_DUAL_SIZE) :
    (readNth data line_count s n).UpTo rows line_count (n + 1) := by
  obtain ⟨hold, hsum⟩ := h
  obtain ⟨r, hr⟩ : ∃ r, rows[n]? = some r := ⟨_, List.getElem?_eq_getElem (by omega)⟩
  have hmem := List.mem_of_getElem? hr
  obtain ⟨hline, hlen⟩ := dtReadLine_row hr (hnl r hmem) (hshort r hmem) hdata hsize (s.line n)
  rw [← hsum hn] at hline hlen
  refine ⟨fun i hi q hq => ?_, fun hn' => ?_⟩
  · rcases Nat.lt_succ_iff_lt_or_eq.1 hi with hlt | rfl
    · -- earlier lines are not written again
      simp only [Datatop.readNth, Function.update_of_ne (Nat.ne_of_lt hlt)]
      exact hold i hlt q hq
    · obtain rfl := Option.some.inj (hr.symm.trans hq)
      simp only [Datatop.readNth, Function.update_self]
      exact ⟨hline, hlen⟩
  · rw [length_fileText_take_succ hr, ← hsum hn, ← hlen, Datatop.readNth, if_pos (by omega)]

/-- All rounds read all lines. -/
theorem hold_readCopy (hcount : line_count ≤ rows.length) (hnl : ∀ r ∈ rows, 10 ∉ r.text)
    (hshort : ∀ r ∈ rows, r.text.length < DTOP_DUAL_LINE)
    (hdata : data.get 0 (fileText rows).length = fileText rows)
    (hsize : (fileText rows).length < DTOP_DUAL_SIZE) (line : ℕ → Buffer UInt8) :
    (readCopy data line_count line).Hold rows line_count := by
  have h0 : LinesRead.UpTo ⟨line, fun _ => 0, 0⟩ rows line_count 0 :=
    ⟨fun n hn => absurd hn n.not_lt_zero, fun _ => rfl⟩
  have hrun := @foldl_range_invariant _ _ line_count _
    (fun n s => LinesRead.UpTo s rows line_count n) h0 fun n hn s hs =>
      hs.readNth hn hcount hnl hshort hdata hsize
  exact hrun.1

/-- No line is longer than the buffers. -/
theorem line_len_readCopy_lt (data : Buffer UInt8) (line_count : ℕ) (line : ℕ → Buffer UInt8)
    (n : ℕ) : (readCopy data line_count line).line_len n < DTOP_DUAL_LINE := by
  have hpos : 0 < DTOP_DUAL_LINE := by decide
  refine @foldl_range_invariant _ (readNth data line_count) line_count ⟨line, fun _ => 0, 0⟩
    (fun _ s => ∀ n, s.line_len n < DTOP_DUAL_LINE) (fun _ => hpos) (fun k _ s hs n => ?_) n
  rcases eq_or_ne n k with rfl | hne
  · simp only [readNth, Function.update_self]
    exact dtReadLine_snd_lt hpos
  · simp only [readNth, Function.update_of_ne hne]
    exact hs n

/-- Of a line that is too long the first part is taken for a line, and what follows behind one more
byte for the next one. -/
theorem hold_readCopy_cut {r₁ r₂ : Row} {x : UInt8} {l : Bytes}
    (hdata : data.get 0 (r₁.text ++ ([x] ++ ((r₂.text ++ [10]) ++ l))).length =
      r₁.text ++ ([x] ++ ((r₂.text ++ [10]) ++ l)))
    (hlong : r₁.text.length + 1 = DTOP_DUAL_LINE) (hnl₁ : 10 ∉ r₁.text) (hnl₂ : 10 ∉ r₂.text)
    (hshort : r₂.text.length < DTOP_DUAL_LINE) (line : ℕ → Buffer UInt8) :
    (readCopy data 2 line).Hold [r₁, r₂] 2 := by
  have hsum : DTOP_DUAL_LINE + DTOP_DUAL_LINE < DTOP_DUAL_SIZE := by decide
  -- the byte `x` is skipped as if it were the newline
  obtain ⟨hfirst, hrest⟩ := Buffer.get_eq_append hdata
  obtain ⟨-, hrest⟩ := Buffer.get_eq_append hrest
  obtain ⟨hsecond, -⟩ := Buffer.get_eq_append hrest
  rw [Nat.zero_add, List.length_singleton, List.length_append, List.length_singleton] at hsecond
  obtain ⟨hline, hlen⟩ := @dtReadLine_cut (line 0) _ _ DTOP_DUAL_SIZE _ _ hnl₁ hfirst hlong
    (show 0 + r₁.text.length < DTOP_DUAL_SIZE by omega)
  obtain ⟨hline', hlen'⟩ := @dtReadLine_line (line 1) _ _ DTOP_DUAL_SIZE _ _ hnl₂ hsecond hshort
    (show r₁.text.length + 1 + r₂.text.length < DTOP_DUAL_SIZE by omega)
  have hread : readCopy data 2 line =
      readNth data 2 (readNth data 2 ⟨line, fun _ => 0, 0⟩ 0) 1 := rfl
  intro n hn r hr
  rw [hread]
  have h01 : (0 : ℕ) ≠ 1 := by decide
  have h10 : (1 : ℕ) ≠ 0 := by decide
  rcases Nat.lt_succ_iff_lt_or_eq.1 hn with hn | rfl
  · obtain rfl := Nat.lt_one_iff.1 hn
    obtain rfl := Option.some.inj hr
    simp only [readNth, Function.update_of_ne h01, Function.update_self]
    exact ⟨hline, hlen⟩
  · obtain rfl := Option.some.inj hr
    simp only [readNth, Function.update_of_ne h10, Function.update_self, hlen, Nat.zero_add,
      Nat.le_refl, if_true]
    exact ⟨hline', hlen'⟩

/-- Both copies are read the same way. -/
theorem readLines_eq (data : Buffer UInt8) (line_count : ℕ) (line line2 : ℕ → Buffer UInt8) :
    readLines data line_count line line2 =
      (readCopy data line_count line, readCopy data line_count line2) :=
  List.foldl_hom₂ _ Prod.mk _ _ _ _ _ fun _ _ _ => rfl

/-- There are no more lines than newlines. -/
theorem dtopGetFileLineAmount_le (file : Bytes) : dtopGetFileLineAmount file ≤ file.count 10 := by
  induction file with
  | nil => exact Nat.le_refl 0
  | cons c file ih =>
    rw [dtopGetFileLineAmount, List.count_cons]
    simp only [beq_iff_eq]
    split_ifs <;> omega

theorem count_fileText (hnl : ∀ r ∈ rows, 10 ∉ r.text) :
    (fileText rows).count 10 = rows.length := by
  induction rows with
  | nil => rfl
  | cons r rows ih =>
    rw [fileText, List.flatMap_cons, List.count_append, List.count_append,
      List.count_eq_zero_of_not_mem (hnl r List.mem_cons_self), List.length_cons, ← fileText,
      ih fun q hq => hnl q (List.mem_cons_of_mem _ hq)]
    exact Nat.add_comm _ _

/-- A file that is not longer than the buffer is read as a whole. -/
theorem readDual_eq {file : Bytes} (hne : file ≠ []) (hsize : file.length < DTOP_DUAL_SIZE)
    (junk : Junk) (storage : DualLineVars) : readDual file junk storage = some
      (parsePairs storage.line_count
          (readCopy (junk.data.put 0 file) storage.line_count storage.line) junk.dict,
        parseNamePrefixes storage.line_count
          (readCopy (junk.data.put 0 file) storage.line_count storage.line2) junk.prefix_dict) := by
  have hread : dtReadFile file junk.data DTOP_DUAL_SIZE = (junk.data.put 0 file, file.length) := by
    rw [dtReadFile, List.take_of_length_le (Nat.le_of_lt hsize)]
  rw [readDual, hread]
  dsimp only
  rw [if_neg (mt List.length_eq_zero_iff.1 hne), readLines_eq]

end Read

/-! ### Lines that have been parsed -/

/-- What is found of pair `i` after parsing: the rows in the first copy with their dictionary, and
the prefix in the second one. -/
structure Reads (r₁ r₂ : Row) (P : Bytes) (s s2 : LinesParsed) (i : ℕ) : Prop where
  names : r₁.SplitIn (s.line (2 * i))
  values : r₂.SplitIn (s.line (2 * i + 1))
  key : r₁.PointedBy (s.dict i).key
  val : r₂.PointedBy (s.dict i).val
  max : (s.dict i).max = min r₁.items.length r₂.items.length
  prefix_val : ∀ j < r₁.items.length, (s2.dict i).val j = 0
  namePrefix : cstr (s2.line (2 * i)) DTOP_DUAL_LINE 0 = P

section Parse

variable {L L2 : LinesRead} {rows : List Row} {r₁ r₂ : Row} {P : Bytes} {line_count i : ℕ}

theorem foldl_parsePair (line_len : ℕ → ℕ) (s : LinesParsed) {m : ℕ} (hi : i < m) :
    let t := (List.range m).foldl (parsePair line_len) s
    (t.line (2 * i), t.line (2 * i + 1), t.dict i) =
      dtParseProcDictionary (s.line (2 * i)) (line_len (2 * i)) (s.line (2 * i + 1))
        (line_len (2 * i + 1)) (s.dict i) := by
  have hplaces := @foldl_range_places _ _ (parsePair line_len) m s
    (fun s i => (s.line (2 * i), s.line (2 * i + 1), s.dict i))
    (fun i v => dtParseProcDictionary v.1 (line_len (2 * i)) v.2.1 (line_len (2 * i + 1)) v.2.2)
    (fun s k => ?_) (fun s k j hj => ?_) i
  · rw [if_pos hi] at hplaces
    exact hplaces
  · -- a round works on its own two lines and its own dictionary
    have hne : 2 * k ≠ 2 * k + 1 := by omega
    simp only [parsePair, Function.update_self, Function.update_of_ne hne]
  · have h1 : 2 * j ≠ 2 * k := by omega
    have h2 : 2 * j ≠ 2 * k + 1 := by omega
    have h3 : 2 * j + 1 ≠ 2 * k := by omega
    have h4 : 2 * j + 1 ≠ 2 * k + 1 := by omega
    simp only [parsePair, Function.update_of_ne hj, Function.update_of_ne h1,
      Function.update_of_ne h2, Function.update_of_ne h3, Function.update_of_ne h4]

theorem foldl_parseNamePrefix (line_len : ℕ → ℕ) (s : LinesParsed) {m : ℕ} (hi : i < m) :
    let t := (List.range m).foldl (parseNamePrefix line_len) s
    (t.line (2 * i), t.dict i) =
      dtParseForPrefix (s.line (2 * i)) (line_len (2 * i)) (s.dict i) := by
  have hplaces := @foldl_range_places _ _ (parseNamePrefix line_len) m s
    (fun s i => (s.line (2 * i), s.dict i))
    (fun i v => dtParseForPrefix v.1 (line_len (2 * i)) v.2)
    (fun s k => ?_) (fun s k j hj => ?_) i
  · rw [if_pos hi] at hplaces
    exact hplaces
  · simp only [parseNamePrefix, Function.update_self]
  · have h1 : 2 * j ≠ 2 * k := by omega
    simp only [parseNamePrefix, Function.update_of_ne hj, Function.update_of_ne h1]

/-- Two lines that hold rows are parsed as these rows. -/
theorem LinesRead.Hold.reads (hL : L.Hold rows line_count) (hL2 : L2.Hold rows line_count)
    (dict prefix_dict : ℕ → ProcDict ℕ) (hi : i < line_count / 2) (h₁ : rows[2 * i]? = some r₁)
    (h₂ : rows[2 * i + 1]? = some r₂) (hne₁ : r₁.head = P ++ [58]) (hP : 58 ∉ P)
    (hne₂ : r₂.text ≠ []) (hshort : r₁.text.length < DTOP_DUAL_LINE) :
    Reads r₁ r₂ P (parsePairs line_count L dict) (parseNamePrefixes line_count L2 prefix_dict)
      i := by
  obtain ⟨hline₁, hlen₁⟩ := hL (2 * i) (by omega) r₁ h₁
  obtain ⟨hline₂, hlen₂⟩ := hL (2 * i + 1) (by omega) r₂ h₂
  obtain ⟨hline2, hlen2⟩ := hL2 (2 * i) (by omega) r₁ h₁
  have hne : r₁.text ≠ [] := by
    rw [Row.text, hne₁, List.append_assoc]
    exact List.append_ne_nil_of_right_ne_nil _ (List.cons_ne_nil _ _)
  obtain ⟨line₁, line₂, key, val, heq, hs₁, hs₂, hp₁, hp₂⟩ :=
    Row.dtParseProcDictionary_rows hline₁ hline₂ hne hne₂ (dict i)
  obtain ⟨line', dict', heq', hval, hstr⟩ :=
    Row.dtParseForPrefix_row hline2 hne₁ hP hshort (prefix_dict i)
  have hpair := foldl_parsePair L.line_len ⟨L.line, dict⟩ hi
  have hnamePrefix := foldl_parseNamePrefix L2.line_len ⟨L2.line, prefix_dict⟩ hi
  simp only [hlen₁, hlen₂, hlen2, heq, heq', Prod.mk.injEq] at hpair hnamePrefix
  obtain ⟨hl₁, hl₂, hd⟩ := hpair
  obtain ⟨hl, hd'⟩ := hnamePrefix
  rw [parsePairs, parseNamePrefixes]
  refine ⟨?_, ?_, ?_, ?_, ?_, ?_, ?_⟩
  · rw [hl₁]; exact hs₁
  · rw [hl₂]; exact hs₂
  · rw [hd]; exact hp₁
  · rw [hd]; exact hp₂
  · rw [hd]
  · rw [hd']; exact hval
  · rw [hl]; exact hstr

end Parse

/-! ### Data points -/

/-- The data point has the prefix and the name. -/
def PointsAt (line line2 : ℕ → Buffer UInt8) (d : DualPoint) (P n : Bytes) : Prop :=
  strAt line2 d.namePrefix = P ∧ strAt line d.name = n

/-- The type that the search gives to a counter with the given value. -/
def scanType (v : Bytes) : NumType := if v.head? = some 45 then .long else .ulong

section Points

variable {undef : ℕ → ℤ → ℕ} {r₁ r₂ r₂' : Row} {s s2 w w2 : LinesParsed} {d : DualPoint}
  {P Q n v : Bytes} {i j k : ℕ}

theorem Reads.lt_max (h : Reads r₁ r₂ P s s2 k) (hn : r₁.items[i]? = some n)
    (hv : r₂.items[i]? = some v) : i < (s.dict k).max := by
  rw [h.max]
  exact Nat.lt_min.2 ⟨(List.getElem?_eq_some_iff.1 hn).1, (List.getElem?_eq_some_iff.1 hv).1⟩

theorem Reads.max_le (h : Reads r₁ r₂ P s s2 k) : (s.dict k).max ≤ r₁.items.length := by
  rw [h.max]
  exact Nat.min_le_left _ _

theorem Reads.value_eq (h : Reads r₁ r₂ P s s2 k) (hshort : r₂.text.length < DTOP_DUAL_LINE)
    (hv : r₂.items[i]? = some v) : strAt s.line (2 * k + 1, (s.dict k).val i) = v := by
  have hlen : i < r₂.items.length := (List.getElem?_eq_some_iff.1 hv).1
  exact Option.some.inj ((h.values.cstr_eq h.val hshort hlen).symm.trans hv)

theorem Reads.prefix_eq (h : Reads r₁ r₂ P s s2 k) (hi : i < r₁.items.length) :
    strAt s2.line (2 * k, (s2.dict k).val i) = P := by
  rw [h.prefix_val i hi]
  exact h.namePrefix

/-- The type that the search chooses. -/
theorem Reads.type_dualPoint (h : Reads r₁ r₂ P s s2 j) (hshort : r₂.text.length < DTOP_DUAL_LINE)
    (hv : r₂.items[i]? = some v) (fresh : DataPoint) :
    (dualPoint s s2 fresh j i).dp.type = (scanType v).code := by
  have hlt : (s.dict j).val i < DTOP_DUAL_LINE :=
    h.val.lt hshort (List.getElem?_eq_some_iff.1 hv).1
  have hminus : (strAt s.line (2 * j + 1, (s.dict j).val i)).head? = some 45 ↔ _ :=
    head?_cstr_eq_iff hlt (by decide)
  rw [h.value_eq hshort hv] at hminus
  simp only [dualPoint, scanType, hminus]
  split_ifs <;> rfl

/-- In the lines of a later poll with the same names, the pointers of a data point point to the
same strings. -/
theorem Reads.pointsAt_dualPoint (h : Reads r₁ r₂ P s s2 j) (hw : Reads r₁ r₂' Q w w2 j)
    (hshort : r₁.text.length < DTOP_DUAL_LINE) (hn : r₁.items[i]? = some n) (fresh : DataPoint) :
    PointsAt w.line w2.line (dualPoint s s2 fresh j i) Q n := by
  have hlen : i < r₁.items.length := (List.getElem?_eq_some_iff.1 hn).1
  refine ⟨?_, Option.some.inj ((hw.names.cstr_eq h.key hshort hlen).symm.trans hn)⟩
  rw [dualPoint, h.prefix_val i hlen]
  exact hw.namePrefix

/-- The body of the loops leaves a data point as it is whose counter is of another pair. -/
theorem Reads.assignPoint_of_ne (h : Reads r₁ r₂ P s s2 k)
    (hshort : r₁.text.length < DTOP_DUAL_LINE) (hd : PointsAt s.line s2.line d Q n)
    (hne : Q = P → n ∉ r₁.items) : assignPoint undef s s2 d k = d := by
  obtain ⟨hQ, hn⟩ := hd
  rw [assignPoint, hn]
  split
  · rfl
  · next i hfind =>
    obtain ⟨hi, hitem⟩ := Row.getElem?_of_dtFindDictIdx h.names h.key hshort h.max_le hfind
    -- a name of this pair, but then it has another prefix
    refine if_neg fun hcond => ?_
    rw [hQ, h.prefix_eq (Nat.lt_of_lt_of_le hi h.max_le)] at hcond
    exact hne hcond.2 (List.mem_of_getElem? hitem)

/-- The body of the loops stores the value of a counter in its data point. -/
theorem Reads.assignPoint_eq (h : Reads r₁ r₂ P s s2 k) (hshort₁ : r₁.text.length < DTOP_DUAL_LINE)
    (hshort₂ : r₂.text.length < DTOP_DUAL_LINE) (hnodup : r₁.items.Nodup)
    (hn : r₁.items[i]? = some n) (hv : r₂.items[i]? = some v)
    (hd : PointsAt s.line s2.line d P n) :
    assignPoint undef s s2 d k = { d with dp := (dtopStoreDp undef d.dp v).getD d.dp } := by
  obtain ⟨hP, hname⟩ := hd
  have hi := h.lt_max hn hv
  have hfind := Row.dtFindDictIdx_eq h.names h.key hshort₁ h.max_le hnodup hi hn
  have hsame : strAt s2.line (2 * k, (s2.dict k).val i) = P :=
    h.prefix_eq (Nat.lt_of_lt_of_le hi h.max_le)
  rw [assignPoint, hname, hfind]
  dsimp only
  rw [if_pos ⟨hi, by rw [hP, hsame]⟩, h.value_eq hshort₂ hv]

end Points

/-! ### What the search finds -/

section Search

variable {file : Bytes} {junk : Junk} {storage : DualLineVars} {points : List DualPoint}
  {s s2 : LinesParsed}

theorem readDual_nil (junk : Junk) (storage : DualLineVars) : readDual [] junk storage = none := rfl

theorem mem_dictEntries_iff {count : ℕ} {dict : ℕ → ProcDict ℕ} {e : ℕ × ℕ} :
    e ∈ dictEntries count dict ↔ e.1 < count ∧ e.2 < (dict e.1).max := by
  obtain ⟨j, i⟩ := e
  simp only [dictEntries, List.mem_flatMap, List.mem_map, List.mem_range, Prod.mk.injEq]
  constructor
  · rintro ⟨j, hj, i, hi, rfl, rfl⟩
    exact ⟨hj, hi⟩
  · rintro ⟨hj, hi⟩
    exact ⟨j, hj, i, hi, rfl, rfl⟩

/-- The search ends with the lines of the file, and data points of the entries of the
dictionaries. -/
theorem dtopDualLineInit_eq_some_iff : dtopDualLineInit file junk = some (storage, points) ↔
    dtopGetFileLineAmount file % 2 = 0 ∧ ∃ s s2,
      readDual file junk ⟨junk.line, junk.line2, dtopGetFileLineAmount file⟩ = some (s, s2) ∧
      storage = ⟨s.line, s2.line, dtopGetFileLineAmount file⟩ ∧
      points = (dictEntries (dtopGetFileLineAmount file / 2) s.dict).mapIdx fun k e =>
        dualPoint s s2 (junk.data_points k) e.1 e.2 := by
  simp only [dtopDualLineInit, dtopDualLineSearch, Option.map_eq_some_iff, Prod.exists,
    Prod.mk.injEq, eq_comm (b := storage), eq_comm (b := points), Option.ite_none_left_eq_some,
    not_not]

/-- The data points are those of the entries. -/
theorem exists_of_mem_mapIdx {entries : List (ℕ × ℕ)} {f : ℕ → DataPoint} {d : DualPoint}
    (h : d ∈ entries.mapIdx fun k e => dualPoint s s2 (f k) e.1 e.2) :
    ∃ e ∈ entries, ∃ fresh, d = dualPoint s s2 fresh e.1 e.2 := by
  obtain ⟨k, hk, rfl⟩ := List.mem_mapIdx.1 h
  exact ⟨_, List.getElem_mem hk, _, rfl⟩

theorem exists_mem_mapIdx {entries : List (ℕ × ℕ)} (f : ℕ → DataPoint) {e : ℕ × ℕ}
    (h : e ∈ entries) :
    ∃ k, dualPoint s s2 (f k) e.1 e.2 ∈
      entries.mapIdx fun k e => dualPoint s s2 (f k) e.1 e.2 := by
  obtain ⟨k, hk, rfl⟩ := List.getElem_of_mem h
  exact ⟨k, List.mem_mapIdx.2 ⟨k, hk, rfl⟩⟩

end Search

end Datatop

end Msm8909w
