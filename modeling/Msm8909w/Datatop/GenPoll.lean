import Msm8909w.Datatop.DualLine
import Msm8909w.Lib.Fallible

/-!
# Files with values only

`datatop_gen_poll.c` makes a gatherer of every file of a directory, with a data point for every
value in the first line of the file.  `dtop_gen_poll` reads the line again, splits it at blanks,
commas and tabulators, and stores one value after the other.

* `dtSingleLineParse_spec` : the dictionary holds the values of the line,
* `dtopGenPoll_values`, `dtopGenPoll_unread` : a poll stores them, or leaves everything as it is,
* `getNumberOfValues_eq`, `searchEntries_eq` : the search finds all files and all their values.
-/

namespace Msm8909w

namespace Datatop

def DTOP_GEN_SIZE : ℕ := 8192
/-- `DTOP_GEN_SIZE >> 2`. -/
def DTOP_GEN_LINE : ℕ := 2048

/-- A blank, a comma or a tabulator. -/
def isSeparator (c : UInt8) : Bool := c = 32 || c = 44 || c = 9

/-- The loop of `dt_single_line_parse`, over the `n` positions from `i` on; `k` pointers have been
stored so far. -/
def splitSeparators : ℕ → ℕ → ℕ → Buffer UInt8 → Buffer ℕ → Buffer UInt8 × Buffer ℕ × ℕ
  | 0, _, k, line, val => (line, val, k)
  | n + 1, i, k, line, val =>
    if isSeparator (line i) then
      splitSeparators n (i + 1) (k + 1) (line.put i [0]) (val.put k [i + 1])
    else splitSeparators n (i + 1) k line val

/-- `dt_single_line_parse`: the line and the dictionary afterwards. -/
def dtSingleLineParse (line1 : Buffer UInt8) (len1 : ℕ) (dict : ProcDict ℕ) :
    Buffer UInt8 × ProcDict ℕ :=
  let (line, val, k) := splitSeparators len1 0 1 line1 (dict.val.put 0 [0])
  (line, { dict with max := k, val })

/-! ### Gatherers -/

/-- A data point with its name and its prefix. -/
structure NamedPoint where
  name : Bytes
  dpPrefix : Option Bytes
  dp : DataPoint

/-- `struct dtop_data_point_gatherer`, of the kind that `dtop_gen_poll` polls. -/
structure Gatherer where
  dpgPrefix : Bytes
  file : Bytes
  data_points : List NamedPoint

/-- What a poll or a search finds in the memory that it uses. -/
structure GenJunk where
  data : Buffer UInt8
  line : Buffer UInt8
  dict : ProcDict ℕ

/-- `dt_read_file` and `dt_read_line`: the first line and its length, `none` if nothing could be
read.  A file that cannot be opened is `none`. -/
def readFirstLine (file : Option Bytes) (junk : GenJunk) : Option (Buffer UInt8 × ℕ) :=
  file.bind fun text =>
    let (data, read) := dtReadFile text junk.data DTOP_GEN_SIZE
    if read = 0 then none
    else some (dtReadLine junk.line DTOP_GEN_LINE data DTOP_GEN_SIZE 0)

/-- `get_number_of_values`; a separator at the end of the line does not count. -/
def getNumberOfValues (file : Option Bytes) (junk : GenJunk) : ℕ :=
  match readFirstLine file junk with
  | none => 0
  | some (line, line_len) =>
    if line_len < 1 then 0
    else 1 + (List.range line_len).countP fun i => isSeparator (line i) && line (i + 1) ≠ 0

/-- Data point `i` of `num`; of the index in the name, `snprintf` keeps six characters. -/
def genPoint (name : Bytes) (num : ℕ) (fresh : DataPoint) (i : ℕ) : NamedPoint where
  name := if num = 1 then name else name ++ (ascii "[" ++ decimalNat i ++ ascii "]:").take 6
  dpPrefix := none
  dp := { fresh with type := DTOP_ULONG, initial_data_populated := false }

/-- `dpg_construction`: the gatherer, if there is one; `fresh` is what is in the memory of the data
points. -/
def dpgConstruction (dir name : Bytes) (file : Option Bytes) (junk : GenJunk)
    (fresh : ℕ → DataPoint) : Option Gatherer :=
  let num := getNumberOfValues file junk
  if num = 0 then none
  else some
    { dpgPrefix := dir
      file := dir ++ name
      data_points := (List.range num).map fun i => genPoint name num (fresh i) i }

/-! ### The search -/

/-- An entry of a directory, as `readdir` and `stat` show it; `opens` is whether `opendir` succeeds
on a directory. -/
inductive Entry
  | reg (name : Bytes)
  | dir (name : Bytes) (opens : Bool) (entries : List Entry)
  | other (name : Bytes)

section Search

variable (files : Bytes → Option Bytes) (junk : Bytes → GenJunk) (fresh : Bytes → ℕ → DataPoint)

/-- `dtop_register`: the new gatherer becomes the first of the list. -/
def dtopRegister (dpg : Option Gatherer) (first_dpg_list : List Gatherer) : List Gatherer :=
  dpg.toList ++ first_dpg_list

/-- The gatherer that is made of a file. -/
def construct (dir name : Bytes) : Option Gatherer :=
  let both := dir ++ name
  dpgConstruction dir name (files both) (junk both) (fresh both)

mutual

/-- The body of the loop of `dtop_search`. -/
def searchEntry (dir : Bytes) (l : List Gatherer) : Entry → List Gatherer
  | .reg name => dtopRegister (construct files junk fresh dir name) l
  | .dir name opens entries =>
    if name = ascii "." ∨ name = ascii ".." ∨ !opens then l
    else searchEntries (dir ++ name ++ ascii "/") l entries
  | .other _ => l

/-- `dtop_search`, for a directory that can be opened. -/
def searchEntries (dir : Bytes) (l : List Gatherer) : List Entry → List Gatherer
  | [] => l
  | e :: es => searchEntries dir (searchEntry dir l e) es

end

mutual

/-- The directory and the name of every file that is searched. -/
def Entry.paths (dir : Bytes) : Entry → List (Bytes × Bytes)
  | .reg name => [(dir, name)]
  | .dir name opens entries =>
    if name = ascii "." ∨ name = ascii ".." ∨ !opens then []
    else entriesPaths (dir ++ name ++ ascii "/") entries
  | .other _ => []

def entriesPaths (dir : Bytes) : List Entry → List (Bytes × Bytes)
  | [] => []
  | e :: es => e.paths dir ++ entriesPaths dir es

end

end Search

/-! ### The poll -/

section Poll

variable (undef : ℕ → ℤ → ℕ)

/-- A text is stored in a data point; a minus sign makes it a signed one. -/
def genStore (p : NamedPoint) (text : Bytes) : Option NamedPoint :=
  let dp := if text.head? = some 45 then { p.dp with type := DTOP_LONG } else p.dp
  (dtopStoreDp undef dp text).map fun dp => { p with dp }

/-- `dtop_gen_poll`: the gatherer afterwards, `none` if a value leaves its union. -/
def dtopGenPoll (dpg : Gatherer) (file : Option Bytes) (junk : GenJunk) : Option Gatherer :=
  match readFirstLine file junk with
  | none => some dpg
  | some (line, line_len) =>
    let (line, dict) := dtSingleLineParse line line_len junk.dict
    ((dpg.data_points.mapIdx fun i p => (p, cstr line DTOP_GEN_LINE (dict.val i))).mapM fun e =>
      genStore undef e.1 e.2).map fun data_points => { dpg with data_points }

end Poll

/-! ### Splitting a line -/

variable {line line1 : Buffer UInt8} {val : Buffer ℕ} {dict : ProcDict ℕ} {i k n size : ℕ}
  {l x : Bytes} {ps : List (UInt8 × Bytes)}

/-- What follows the first value: the other values, each behind its separator. -/
def separated (ps : List (UInt8 × Bytes)) : Bytes := ps.flatMap fun p => p.1 :: p.2

theorem separated_cons (p : UInt8 × Bytes) :
    separated (p :: ps) = p.1 :: (p.2 ++ separated ps) := by
  rw [separated, List.flatMap_cons, List.cons_append]
  rfl

theorem length_separated (ps : List (UInt8 × Bytes)) :
    (separated ps).length = (joined 0 (ps.map Prod.snd)).length := by
  induction ps with
  | nil => rfl
  | cons p ps ih =>
    rw [separated_cons, List.map_cons, joined_cons, List.length_cons, List.length_cons,
      List.length_append, List.length_append, ih]

/-- A text without separators is passed over. -/
theorem splitSeparators_append (hl : ∀ c ∈ l, isSeparator c = false)
    (hget : line.get i l.length = l) (n : ℕ) :
    splitSeparators (l.length + n) i k line val = splitSeparators n (i + l.length) k line val := by
  induction l generalizing i with
  | nil => rw [List.length_nil, Nat.zero_add, Nat.add_zero]
  | cons c l ih =>
    rw [List.length_cons, Buffer.get_succ, List.cons.injEq] at hget
    have hc : isSeparator (line i) = false := by rw [hget.1, hl c List.mem_cons_self]
    rw [List.length_cons, Nat.add_right_comm, splitSeparators, hc, if_neg Bool.false_ne_true,
      ih (fun d hd => hl d (List.mem_cons_of_mem _ hd)) hget.2]
    congr 1
    omega

/-- The values of `ps` and their separators. -/
structure Split (ps : List (UInt8 × Bytes)) : Prop where
  separator : ∀ p ∈ ps, isSeparator p.1 = true
  value : ∀ p ∈ ps, ∀ c ∈ p.2, isSeparator c = false

/-- The separators become zero bytes, and what follows each of them is pointed to. -/
theorem splitSeparators_spec (hps : Split ps) (i k : ℕ) (line : Buffer UInt8) (val : Buffer ℕ)
    (hget : line.get i (separated ps).length = separated ps) :
    ∃ line' val', splitSeparators (separated ps).length i k line val =
        (line', val', k + ps.length) ∧
      line'.get i (separated ps).length = joined 0 (ps.map Prod.snd) ∧
      (∀ j, j < i ∨ i + (separated ps).length ≤ j → line' j = line j) ∧
      val'.get k ps.length = itemStarts i (ps.map Prod.snd) ∧ ∀ j < k, val' j = val j := by
  induction ps generalizing i k line val with
  | nil => exact ⟨line, val, rfl, rfl, fun _ _ => rfl, rfl, fun _ _ => rfl⟩
  | cons p ps ih =>
    have hlen : (separated (p :: ps)).length = p.2.length + (separated ps).length + 1 := by
      rw [separated_cons, List.length_cons, List.length_append]
    have hsep := hps.separator p List.mem_cons_self
    rw [hlen, Buffer.get_succ, separated_cons, List.cons.injEq, Buffer.get_add] at hget
    obtain ⟨hfirst, hrest⟩ := hget
    obtain ⟨hvalue, hrest⟩ := List.append_inj hrest (by rw [Buffer.length_get])
    -- overwriting the separator changes nothing behind it
    have hput (m j : ℕ) (hj : i < j) : (line.put i [0]).get j m = line.get j m :=
      Buffer.get_congr fun q hq _ => Buffer.put_one_of_ne (by omega)
    obtain ⟨line', val', heq, hline, hout, hval, hold⟩ :=
      ih ⟨fun q hq => hps.separator q (List.mem_cons_of_mem _ hq),
        fun q hq => hps.value q (List.mem_cons_of_mem _ hq)⟩ (i + 1 + p.2.length) (k + 1)
        (line.put i [0]) (val.put k [i + 1]) (by rw [hput _ _ (by omega), hrest])
    refine ⟨line', val', ?_, ?_, fun j hj => ?_, ?_, fun j hj => ?_⟩
    · rw [hlen, splitSeparators, hfirst, if_pos hsep,
        splitSeparators_append (hps.value p List.mem_cons_self)
          (by rw [hput _ _ (by omega), hvalue]), heq, List.length_cons]
      congr 2
      omega
    · have hkeep : line'.get (i + 1) p.2.length = p.2 := by
        rw [Buffer.get_congr fun j hj hj' => hout j (.inl hj'), hput _ _ (by omega), hvalue]
      rw [hlen, Buffer.get_succ, Buffer.get_add, hkeep, hline, hout i (.inl (by omega)),
        Buffer.put_one_self, List.map_cons, joined_cons]
    · rw [hlen] at hj
      rw [hout j (by omega), Buffer.put_one_of_ne (by omega)]
    · rw [List.length_cons, Buffer.get_succ, hval, hold k (Nat.lt_succ_self k),
        Buffer.put_one_self, List.map_cons, itemStarts]
    · rw [hold j (by omega), Buffer.put_apply_of_lt hj]

/-- The first line of a file: a value, and the other values with their separators. -/
structure ValueLine where
  first : Bytes
  more : List (UInt8 × Bytes)

namespace ValueLine

def text (w : ValueLine) : Bytes := w.first ++ separated w.more

def values (w : ValueLine) : List Bytes := w.first :: w.more.map Prod.snd

/-- The values are apart, and the line can be read as a whole. -/
structure Good (w : ValueLine) : Prop where
  first : ∀ c ∈ w.first, isSeparator c = false
  more : Split w.more
  notMem : ∀ x ∈ w.values, 0 ∉ x ∧ 10 ∉ x
  length_lt : w.text.length + 1 < DTOP_GEN_LINE

end ValueLine

variable {w : ValueLine}

theorem mem_separated {c : UInt8} (h : c ∈ separated ps) :
    (∃ p ∈ ps, c = p.1) ∨ ∃ p ∈ ps, c ∈ p.2 := by
  obtain ⟨p, hp, hc⟩ := List.mem_flatMap.1 h
  rcases List.mem_cons.1 hc with rfl | hc
  · exact .inl ⟨p, hp, rfl⟩
  · exact .inr ⟨p, hp, hc⟩

theorem ValueLine.Good.notMem_text (h : w.Good) {c : UInt8} (hc : isSeparator c = false)
    (hvalues : ∀ x ∈ w.values, c ∉ x) : c ∉ w.text := by
  rw [ValueLine.text, List.mem_append, not_or]
  refine ⟨hvalues _ List.mem_cons_self, fun hmem => ?_⟩
  rcases mem_separated hmem with ⟨p, hp, rfl⟩ | ⟨p, hp, hcp⟩
  · exact absurd ((h.more.separator p hp).symm.trans hc) (by decide)
  · exact hvalues p.2 (List.mem_cons_of_mem _ (List.mem_map_of_mem hp)) hcp

/-- The dictionary points to the values. -/
theorem dtSingleLineParse_spec (h : w.Good) (hline : HoldsLine line w.text)
    (hsize : w.text.length < size) (dict : ProcDict ℕ) (hx : w.values[i]? = some x) :
    cstr (dtSingleLineParse line w.text.length dict).1 size
      ((dtSingleLineParse line w.text.length dict).2.val i) = x := by
  have hlen : w.text.length = w.first.length + (separated w.more).length := List.length_append
  have hparts : line.get 0 (w.text.length + 1) = w.first ++ (separated w.more ++ [0]) := by
    rw [hline, ValueLine.text, List.append_assoc]
  obtain ⟨hfirst, hrest⟩ := Buffer.get_eq_append hparts
  obtain ⟨hmore, hend⟩ := Buffer.get_eq_append hrest
  rw [Nat.zero_add] at hmore hend
  obtain ⟨line', val', heq, hline', hout, hval, hold⟩ :=
    splitSeparators_spec h.more w.first.length 1 line (dict.val.put 0 [0]) hmore
  have hparse : dtSingleLineParse line w.text.length dict =
      (line', { dict with max := 1 + w.more.length, val := val' }) := by
    rw [dtSingleLineParse, hlen, splitSeparators_append h.first hfirst, Nat.zero_add, heq]
  rw [hparse]
  -- the bytes behind the first value, with the zero byte at the end of the line
  have hjoined : line'.get w.first.length ((joined 0 (w.more.map Prod.snd)).length + 1) =
      joined 0 (w.more.map Prod.snd) ++ [0] := by
    rw [← length_separated, Buffer.get_add, hline', ← hend]
    exact congrArg _ (Buffer.get_congr fun j hj _ => hout j (.inr hj))
  cases i with
  | zero =>
    cases hx
    have hzero : line'.get w.first.length 1 = [0] := by
      obtain ⟨t, ht⟩ := exists_joined_append (w.more.map Prod.snd)
      rw [ht, Buffer.get_succ] at hjoined
      rw [Buffer.get_succ, (List.cons.inj hjoined).1]
      rfl
    have hpos : val' 0 = 0 := (hold 0 Nat.zero_lt_one).trans Buffer.put_one_self
    show cstr line' size (val' 0) = w.first
    rw [hpos]
    refine cstr_eq ?_ (h.notMem _ List.mem_cons_self).1 (by omega)
    rw [Buffer.get_add, Nat.zero_add, hzero,
      Buffer.get_congr fun j _ hj => hout j (.inl (by omega)), hfirst]
  | succ j =>
    have hvalue : (w.more.map Prod.snd)[j]? = some x := hx
    have hroom : w.first.length + (joined 0 (w.more.map Prod.snd)).length < size := by
      rw [← length_separated, ← hlen]
      exact hsize
    have hstarts := map_cstr_itemStarts hjoined
      (fun y hy => (h.notMem y (List.mem_cons_of_mem _ hy)).1) hroom
    rw [← hval, Buffer.get, List.map_map] at hstarts
    rw [← hstarts, List.getElem?_map] at hvalue
    obtain ⟨k, hk, hcstr⟩ := Option.map_eq_some_iff.1 hvalue
    obtain ⟨hlt, hk⟩ := List.getElem?_eq_some_iff.1 hk
    rw [List.getElem_range] at hk
    rw [← hcstr, ← hk, Function.comp_apply, Nat.add_comm 1 j]

/-! ### Reading a file -/

/-- A file that cannot be opened, or that is empty. -/
def Unread (file : Option Bytes) : Prop := file = none ∨ file = some []

theorem readFirstLine_unread {file : Option Bytes} (h : Unread file) (junk : GenJunk) :
    readFirstLine file junk = none := by
  rcases h with rfl | rfl
  · rfl
  · rfl

theorem readFirstLine_line {l : Bytes} (hnl : 10 ∉ l) (hlen : l.length + 1 < DTOP_GEN_LINE)
    (rest : Bytes) (junk : GenJunk) :
    ∃ line, readFirstLine (some (l ++ 10 :: rest)) junk = some (line, l.length) ∧
      HoldsLine line l := by
  rw [DTOP_GEN_LINE] at hlen
  have htake : (l ++ 10 :: rest).take DTOP_GEN_SIZE =
      l ++ 10 :: rest.take (DTOP_GEN_SIZE - l.length - 1) := by
    obtain ⟨n, hn⟩ := Nat.exists_eq_add_of_le (show l.length + 1 ≤ DTOP_GEN_SIZE by
      rw [DTOP_GEN_SIZE]; omega)
    rw [hn, Nat.add_assoc, List.take_length_add_append, Nat.add_comm 1 n, List.take_succ_cons]
    congr 3
    omega
  have hput := @Buffer.get_put_same _ junk.data ((l ++ 10 :: rest).take DTOP_GEN_SIZE) 0
  rw [htake] at hput
  obtain ⟨hl, hbehind⟩ := Buffer.get_eq_append hput
  rw [List.length_cons, Buffer.get_succ] at hbehind
  have hfile : dtReadFile (l ++ 10 :: rest) junk.data DTOP_GEN_SIZE =
      (junk.data.put 0 (l ++ 10 :: rest.take (DTOP_GEN_SIZE - l.length - 1)),
        (l ++ 10 :: rest.take (DTOP_GEN_SIZE - l.length - 1)).length) := by
    rw [dtReadFile, htake]
  have hspec := @holdsLine_dtReadLine junk.line
    (junk.data.put 0 (l ++ 10 :: rest.take (DTOP_GEN_SIZE - l.length - 1))) DTOP_GEN_LINE
    DTOP_GEN_SIZE 0 l (by decide) (by decide) hnl hl
    (.inr ⟨by rw [DTOP_GEN_LINE, DTOP_GEN_SIZE]; omega, (List.cons.inj hbehind).1⟩)
  refine ⟨_, ?_, hspec.1⟩
  rw [readFirstLine, Option.bind_some, hfile]
  refine (if_neg ?_).trans (congrArg some (Prod.ext rfl hspec.2))
  rw [List.length_append, List.length_cons]
  omega

/-! ### What is stored -/

/-- A number is stored, and kept as the first one if there was none. -/
theorem exists_storeCase_initial {convert : ℕ → ℤ → ℕ} {k : ℕ} (hk : k ≤ DTOP_DP_MAX_STR_LEN)
    (dp : DataPoint) {str : Bytes} {n : ℤ} (hn : scanDecimal str = some n) :
    ∃ stored, storeCase k (scanNumber convert k str) dp = some stored ∧ stored.type = dp.type ∧
      stored.data.unsigned k = convert k n % 256 ^ k ∧ stored.initial_data_populated = true ∧
      stored.initial_data.unsigned k = if dp.initial_data_populated then
        dp.initial_data.unsigned k else convert k n % 256 ^ k := by
  obtain ⟨data, hset, hvalue⟩ := dp.data.exists_set hk (convert k n)
  have hread : scanNumber convert k str dp.data = some data := by rw [scanNumber, hn]; exact hset
  rw [storeCase, hread, Option.bind_some, populate]
  cases hpop : dp.initial_data_populated with
  | true => exact ⟨_, if_pos rfl, rfl, hvalue, rfl, (if_pos rfl).symm⟩
  | false =>
    have hlen : (slice data.bytes 0 k).length = k := length_slice (by rw [data.length_bytes]; omega)
    have hbytes : toLE k (data.unsigned k) = slice data.bytes 0 k := by
      have hself := toLE_ofLE (slice data.bytes 0 k)
      rwa [hlen] at hself
    obtain ⟨initial, hinitial, hfirst⟩ := dp.initial_data.exists_set hk (data.unsigned k)
    rw [hbytes] at hinitial
    rw [if_neg Bool.false_ne_true, hinitial]
    refine ⟨_, rfl, rfl, hvalue, rfl, ?_⟩
    rw [if_neg Bool.false_ne_true, ← hvalue, hfirst, Nat.mod_eq_of_lt (data.unsigned_lt hk)]

/-- The number that a data point of one of the types of 64 bits holds. -/
def HoldsNumber (dp : DataPoint) (v : ℤ) : Prop :=
  dp.type = DTOP_ULONG ∧ (dp.data.d_ulong : ℤ) = v ∨ dp.type = DTOP_LONG ∧ dp.data.d_long = v

/-- The number is one of `int64_t`. -/
def IsInt64 (v : ℤ) : Prop := -2 ^ 63 ≤ v ∧ v < 2 ^ 63

theorem head?_decimalInt (v : ℤ) : (decimalInt v).head? = some 45 ↔ v < 0 := by
  rw [decimalInt]
  split_ifs with h
  · exact iff_of_true rfl h
  · refine iff_of_false (fun hhead => ?_) h
    have hdigit := isDigit_of_mem_decimalNat (List.mem_of_mem_head? hhead)
    exact absurd hdigit (by decide)

/-- The number of 64 bits that is stored for `v`. -/
theorem unsigned_cases {v : ℤ} (hv : IsInt64 v) {u : DataUnion}
    (hu : u.unsigned 8 = (v % (256 ^ 8 : ℕ)).toNat % 256 ^ 8) :
    u.d_long = v ∧ (0 ≤ v → (u.d_ulong : ℤ) = v) := by
  obtain ⟨hge, hlt⟩ := hv
  have hpow : (256 ^ 8 : ℕ) = 2 ^ 64 := by decide
  rw [DataUnion.d_long, DataUnion.signed, DataUnion.d_ulong, hu, hpow]
  constructor
  · rw [Int.bmod_def]
    push_cast
    split_ifs <;> omega
  · intro hpos
    push_cast
    omega

theorem storeCase_int64 {convert : ℕ → ℤ → ℕ} {v : ℤ} (hv : IsInt64 v)
    (hconvert : convert 8 v = (v % (256 ^ 8 : ℕ)).toNat) (dp : DataPoint) :
    ∃ stored, storeCase 8 (scanNumber convert 8 (decimalInt v)) dp = some stored ∧
      stored.type = dp.type ∧ stored.data.d_long = v ∧ (0 ≤ v → (stored.data.d_ulong : ℤ) = v) ∧
      stored.initial_data_populated = true ∧ stored.initial_data.d_long =
        if dp.initial_data_populated then dp.initial_data.d_long else v := by
  obtain ⟨stored, heq, htype, hvalue, hpop, hinitial⟩ :=
    @exists_storeCase_initial convert 8 (by decide) dp _ _ (scanDecimal_decimalInt v)
  rw [hconvert] at hvalue hinitial
  obtain ⟨hlong, hulong⟩ := unsigned_cases hv hvalue
  refine ⟨stored, heq, htype, hlong, hulong, hpop, ?_⟩
  cases hdp : dp.initial_data_populated with
  | true =>
    rw [hdp, if_pos rfl] at hinitial
    rw [if_pos rfl]
    show DataUnion.signed 8 stored.initial_data = DataUnion.signed 8 dp.initial_data
    rw [DataUnion.signed, DataUnion.signed, hinitial]
  | false =>
    rw [hdp, if_neg Bool.false_ne_true] at hinitial
    rw [if_neg Bool.false_ne_true]
    exact (unsigned_cases hv hinitial).1

/-- A number is stored, whatever type the data point had. -/
theorem genStore_spec (undef : ℕ → ℤ → ℕ) {p : NamedPoint} {v : ℤ}
    (htype : p.dp.type = DTOP_ULONG ∨ p.dp.type = DTOP_LONG) (hv : IsInt64 v) :
    ∃ dp, genStore undef p (decimalInt v) = some { p with dp } ∧ HoldsNumber dp v ∧
      dp.initial_data_populated = true ∧ dp.initial_data.d_long =
        if p.dp.initial_data_populated then p.dp.initial_data.d_long else v := by
  have hpow : (256 ^ 8 : ℕ) = 2 ^ 64 := by decide
  have hint := hv
  obtain ⟨hge, hlt⟩ := hint
  have hD : convertD undef 8 v = (v % (256 ^ 8 : ℕ)).toNat :=
    if_pos (by rw [hpow]; push_cast; omega)
  by_cases hneg : v < 0
  · -- the data point becomes a signed one
    obtain ⟨dp, heq, hdptype, hlong, -, hpop, hinitial⟩ :=
      storeCase_int64 hv hD { p.dp with type := DTOP_LONG }
    refine ⟨dp, ?_, .inr ⟨hdptype, hlong⟩, hpop, hinitial⟩
    have hne : ¬ DTOP_LONG = DTOP_ULONG := by decide
    rw [genStore, if_pos ((head?_decimalInt v).2 hneg), dtopStoreDp, if_neg hne, if_pos rfl, heq,
      Option.map_some]
  · have hU : convertU undef 8 v = (v % (256 ^ 8 : ℕ)).toNat :=
      if_pos (by rw [hpow]; omega)
    have hhead : ¬ (decimalInt v).head? = some 45 := mt (head?_decimalInt v).1 hneg
    rcases htype with htype | htype
    · obtain ⟨dp, heq, hdptype, -, hulong, hpop, hinitial⟩ := storeCase_int64 hv hU p.dp
      refine ⟨dp, ?_, .inl ⟨hdptype.trans htype, hulong (by omega)⟩, hpop, hinitial⟩
      rw [genStore, if_neg hhead, dtopStoreDp, if_pos htype, heq, Option.map_some]
    · obtain ⟨dp, heq, hdptype, hlong, -, hpop, hinitial⟩ := storeCase_int64 hv hD p.dp
      refine ⟨dp, ?_, .inr ⟨hdptype.trans htype, hlong⟩, hpop, hinitial⟩
      rw [genStore, if_neg hhead, dtopStoreDp, if_neg (by rw [htype]; decide), if_pos htype, heq,
        Option.map_some]

/-! ### The poll -/

/-- The first line of the file shows the numbers `vs`. -/
def Shows (file : Option Bytes) (vs : List ℤ) : Prop :=
  ∃ w : ValueLine, w.values = vs.map decimalInt ∧ (∀ p ∈ w.more, isSeparator p.1 = true) ∧
    w.text.length + 1 < DTOP_GEN_LINE ∧ ∃ rest, file = some (w.text ++ 10 :: rest)

theorem notMem_decimalInt {c : UInt8} (hdigit : isDigit c = false) (hc : c ≠ 45) (v : ℤ) :
    c ∉ decimalInt v := by
  have hnat (n : ℕ) : c ∉ decimalNat n := fun hmem =>
    Bool.false_ne_true (hdigit.symm.trans (isDigit_of_mem_decimalNat hmem))
  rw [decimalInt]
  split_ifs
  · exact List.not_mem_cons_of_ne_of_not_mem hc (hnat _)
  · exact hnat _

theorem isSeparator_of_mem_decimalInt {c : UInt8} {v : ℤ} (h : c ∈ decimalInt v) :
    isSeparator c = false := by
  by_contra hsep
  rw [Bool.not_eq_false, isSeparator, Bool.or_eq_true, Bool.or_eq_true, decide_eq_true_eq,
    decide_eq_true_eq, decide_eq_true_eq] at hsep
  rcases hsep with (rfl | rfl) | rfl
  · exact notMem_decimalInt (by decide) (by decide) v h
  · exact notMem_decimalInt (by decide) (by decide) v h
  · exact notMem_decimalInt (by decide) (by decide) v h

theorem decimalInt_ne_nil (v : ℤ) : decimalInt v ≠ [] := by
  rw [decimalInt]
  split_ifs
  · exact List.cons_ne_nil _ _
  · exact decimalNat_ne_nil _

theorem good_of_numbers {vs : List ℤ} (hvalues : w.values = vs.map decimalInt)
    (hsep : ∀ p ∈ w.more, isSeparator p.1 = true) (hlen : w.text.length + 1 < DTOP_GEN_LINE) :
    w.Good := by
  have hnum : ∀ x ∈ w.values, ∃ v, x = decimalInt v := by
    intro x hx
    rw [hvalues] at hx
    obtain ⟨v, -, rfl⟩ := List.mem_map.1 hx
    exact ⟨v, rfl⟩
  have hplain : ∀ x ∈ w.values, ∀ c ∈ x, isSeparator c = false := by
    intro x hx c hc
    obtain ⟨v, rfl⟩ := hnum x hx
    exact isSeparator_of_mem_decimalInt hc
  refine ⟨hplain _ List.mem_cons_self, ⟨hsep, fun p hp => ?_⟩, fun x hx => ?_, hlen⟩
  · exact hplain _ (List.mem_cons_of_mem _ (List.mem_map_of_mem hp))
  · obtain ⟨v, rfl⟩ := hnum x hx
    exact ⟨notMem_decimalInt (by decide) (by decide) v, notMem_decimalInt (by decide) (by decide) v⟩

/-- A line of numbers is read, and the dictionary points to them. -/
theorem exists_firstLine {file : Option Bytes} {vs : List ℤ} (h : Shows file vs)
    (junk : GenJunk) : ∃ (w : ValueLine) (line : Buffer UInt8), w.Good ∧
      w.values = vs.map decimalInt ∧ HoldsLine line w.text ∧
      readFirstLine file junk = some (line, w.text.length) := by
  obtain ⟨w, hvalues, hsep, hlen, rest, rfl⟩ := h
  have hgood := good_of_numbers hvalues hsep hlen
  have hnl : 10 ∉ w.text := hgood.notMem_text (by decide) fun x hx => (hgood.notMem x hx).2
  obtain ⟨line, hread, hline⟩ := readFirstLine_line hnl hlen rest junk
  exact ⟨w, line, hgood, hvalues, hline, hread⟩

theorem dtopGenPoll_unread (undef : ℕ → ℤ → ℕ) {file : Option Bytes} (h : Unread file)
    (dpg : Gatherer) (junk : GenJunk) : dtopGenPoll undef dpg file junk = some dpg := by
  rw [dtopGenPoll, readFirstLine_unread h]

/-- What a poll makes of a data point in whose place the number `v` stands. -/
structure Polled (p : NamedPoint) (v : ℤ) (q : NamedPoint) : Prop where
  name : q.name = p.name
  dpPrefix : q.dpPrefix = p.dpPrefix
  holds : HoldsNumber q.dp v
  populated : q.dp.initial_data_populated = true
  initial : q.dp.initial_data.d_long =
    if p.dp.initial_data_populated then p.dp.initial_data.d_long else v

/-- Every data point gets the number in its place. -/
theorem dtopGenPoll_values (undef : ℕ → ℤ → ℕ) {file : Option Bytes} {vs : List ℤ}
    (h : Shows file vs) (hv : ∀ v ∈ vs, IsInt64 v) {dpg : Gatherer}
    (hlen : dpg.data_points.length = vs.length)
    (htype : ∀ p ∈ dpg.data_points, p.dp.type = DTOP_ULONG ∨ p.dp.type = DTOP_LONG)
    (junk : GenJunk) :
    ∃ points, dtopGenPoll undef dpg file junk = some { dpg with data_points := points } ∧
      List.Forall₂ (fun e q => Polled e.1 e.2 q) (dpg.data_points.zip vs) points := by
  obtain ⟨w, line, hgood, hvalues, hline, hread⟩ := exists_firstLine h junk
  have hsize : w.text.length < DTOP_GEN_LINE := Nat.lt_of_succ_lt hgood.length_lt
  obtain ⟨r, hr⟩ : ∃ r, dtSingleLineParse line w.text.length junk.dict = r := ⟨_, rfl⟩
  have hcstr (i : ℕ) (x : Bytes) (hx : w.values[i]? = some x) :
      cstr r.1 DTOP_GEN_LINE (r.2.val i) = x := by
    rw [← hr]
    exact dtSingleLineParse_spec hgood hline hsize junk.dict hx
  -- the text in the place of a data point is that of its number
  have hpairs : dpg.data_points.mapIdx (fun i p => (p, cstr r.1 DTOP_GEN_LINE (r.2.val i))) =
      (dpg.data_points.zip vs).map fun e => (e.1, decimalInt e.2) := by
    refine List.ext_getElem (by simp [hlen]) fun i hi hi' => ?_
    rw [List.length_mapIdx] at hi
    rw [List.getElem_mapIdx, List.getElem_map, List.getElem_zip,
      hcstr i (decimalInt vs[i]) (by
        rw [hvalues, List.getElem?_map, List.getElem?_eq_getElem (hlen ▸ hi), Option.map_some])]
  have hstore : ∀ e ∈ dpg.data_points.zip vs, ∃ q,
      genStore undef e.1 (decimalInt e.2) = some q ∧ Polled e.1 e.2 q := by
    rintro ⟨p, v⟩ he
    obtain ⟨hp, hvs⟩ := List.of_mem_zip he
    obtain ⟨dp, heq, hholds, hpop, hinitial⟩ := genStore_spec undef (htype p hp) (hv v hvs)
    exact ⟨_, heq, rfl, rfl, hholds, hpop, hinitial⟩
  obtain ⟨points, hmap, hpoints⟩ := exists_mapM hstore
  refine ⟨points, ?_, hpoints⟩
  have hloop : (dpg.data_points.mapIdx fun i p =>
      (p, cstr r.1 DTOP_GEN_LINE (r.2.val i))).mapM (fun e => genStore undef e.1 e.2) =
        some points := by
    rw [hpairs, List.mapM_map]
    exact hmap
  rw [dtopGenPoll, hread]
  simp only [hr, hloop, Option.map_some]

/-! ### The number of values -/

theorem countP_plain (hl : ∀ c ∈ l, isSeparator c = false) (hget : line.get i l.length = l) :
    (List.range' i l.length).countP (fun j => isSeparator (line j) && line (j + 1) ≠ 0) = 0 := by
  rw [List.countP_eq_zero]
  intro j hj
  obtain ⟨q, hq, rfl⟩ := List.mem_range'.1 hj
  have hmem : line (i + 1 * q) ∈ l := by
    rw [← hget, Nat.one_mul]
    exact List.mem_map_of_mem (List.mem_range.2 hq)
  rw [hl _ hmem, Bool.false_and]
  exact Bool.false_ne_true

/-- The separators in front of a value are counted, one for every value behind the first. -/
theorem countP_separated (hps : Split ps) (hvalue : ∀ p ∈ ps, p.2 ≠ [] ∧ 0 ∉ p.2)
    (hget : line.get i (separated ps).length = separated ps) :
    (List.range' i (separated ps).length).countP
      (fun j => isSeparator (line j) && line (j + 1) ≠ 0) = ps.length := by
  induction ps generalizing i with
  | nil => rfl
  | cons p ps ih =>
    have hlen : (separated (p :: ps)).length = p.2.length + (separated ps).length + 1 := by
      rw [separated_cons, List.length_cons, List.length_append]
    rw [hlen, Buffer.get_succ, separated_cons, List.cons.injEq] at hget
    obtain ⟨hfirst, hrest⟩ := hget
    rw [Buffer.get_add] at hrest
    obtain ⟨htext, hrest⟩ := List.append_inj hrest (by rw [Buffer.length_get])
    obtain ⟨c, l, hcl⟩ := List.exists_cons_of_ne_nil (hvalue p List.mem_cons_self).1
    have hnext : line (i + 1) = c := by
      rw [hcl, List.length_cons, Buffer.get_succ] at htext
      exact (List.cons.inj htext).1
    have hc : c ≠ 0 := by
      rintro rfl
      exact (hvalue p List.mem_cons_self).2 (by rw [hcl]; exact List.mem_cons_self)
    have hnone := countP_plain (hps.value p List.mem_cons_self) htext
    have hsep : (isSeparator (line i) && decide (line (i + 1) ≠ 0)) = true := by
      rw [hfirst, hps.separator p List.mem_cons_self, hnext, Bool.true_and]
      exact decide_eq_true hc
    rw [hlen, List.range'_succ, List.countP_cons, if_pos hsep, ← List.range'_append_1,
      List.countP_append, hnone, Nat.zero_add,
      ih ⟨fun q hq => hps.separator q (List.mem_cons_of_mem _ hq),
        fun q hq => hps.value q (List.mem_cons_of_mem _ hq)⟩
        (fun q hq => hvalue q (List.mem_cons_of_mem _ hq)) hrest, List.length_cons]

/-- Numbers are counted. -/
theorem getNumberOfValues_eq {file : Option Bytes} {vs : List ℤ} (h : Shows file vs)
    (junk : GenJunk) : getNumberOfValues file junk = vs.length := by
  obtain ⟨w, line, hgood, hvalues, hline, hread⟩ := exists_firstLine h junk
  have hne : ∀ x ∈ w.values, x ≠ [] ∧ 0 ∉ x := by
    intro x hx
    refine ⟨?_, (hgood.notMem x hx).1⟩
    rw [hvalues] at hx
    obtain ⟨v, -, rfl⟩ := List.mem_map.1 hx
    exact decimalInt_ne_nil v
  have hlen : w.text.length = w.first.length + (separated w.more).length := List.length_append
  have hpos : 0 < w.first.length := List.length_pos_of_ne_nil (hne _ List.mem_cons_self).1
  have hparts : line.get 0 (w.text.length + 1) = w.first ++ (separated w.more ++ [0]) := by
    rw [hline, ValueLine.text, List.append_assoc]
  obtain ⟨hfirst, hrest⟩ := Buffer.get_eq_append hparts
  obtain ⟨hmore, -⟩ := Buffer.get_eq_append hrest
  have hnone := countP_plain hgood.first hfirst
  have hcount := countP_separated hgood.more
    (fun p hp => hne _ (List.mem_cons_of_mem _ (List.mem_map_of_mem hp))) hmore
  have hvs : vs.length = 1 + w.more.length := by
    have := congrArg List.length hvalues
    rw [ValueLine.values, List.length_cons, List.length_map, List.length_map] at this
    omega
  rw [getNumberOfValues, hread]
  show (if w.text.length < 1 then 0 else _) = _
  rw [if_neg (by omega), List.range_eq_range', hlen, ← List.range'_append_1, List.countP_append,
    hnone, hcount, hvs, Nat.zero_add]

/-! ### The gatherers that are found -/

section Search

variable {files : Bytes → Option Bytes} {junk : Bytes → GenJunk} {fresh : Bytes → ℕ → DataPoint}

/-- The gatherers of some files, those of the last ones first. -/
def found (files : Bytes → Option Bytes) (junk : Bytes → GenJunk) (fresh : Bytes → ℕ → DataPoint)
    (paths : List (Bytes × Bytes)) : List Gatherer :=
  (paths.filterMap fun q => construct files junk fresh q.1 q.2).reverse

theorem found_append (qs rs : List (Bytes × Bytes)) :
    found files junk fresh (qs ++ rs) = found files junk fresh rs ++ found files junk fresh qs := by
  rw [found, List.filterMap_append, List.reverse_append]
  rfl

mutual

theorem searchEntry_eq (dir : Bytes) (l : List Gatherer) (e : Entry) :
    searchEntry files junk fresh dir l e = found files junk fresh (e.paths dir) ++ l := by
  cases e with
  | reg name =>
    rw [searchEntry, Entry.paths, found, dtopRegister]
    cases hg : construct files junk fresh dir name with
    | none => simp [hg]
    | some g => simp [hg]
  | dir name opens entries =>
    rw [searchEntry, Entry.paths]
    split_ifs
    · rfl
    · exact searchEntries_eq _ l entries
  | other name => rfl

/-- Every file of the directory is searched. -/
theorem searchEntries_eq (dir : Bytes) (l : List Gatherer) (es : List Entry) :
    searchEntries files junk fresh dir l es = found files junk fresh (entriesPaths dir es) ++ l := by
  cases es with
  | nil => rfl
  | cons e es =>
    rw [searchEntries, searchEntries_eq dir _ es, searchEntry_eq dir l e, entriesPaths,
      found_append, List.append_assoc]

end

/-- A gatherer has a data point for every number of its file, and none of them has been polled. -/
theorem construct_eq_some {dir name : Bytes} {g : Gatherer}
    (h : construct files junk fresh dir name = some g) : g.dpgPrefix = dir ∧ g.file = dir ++ name ∧
      g.data_points.length = getNumberOfValues (files g.file) (junk g.file) ∧
      ∀ p ∈ g.data_points, p.dpPrefix = none ∧ p.dp.type = DTOP_ULONG ∧
        p.dp.initial_data_populated = false := by
  rw [construct, dpgConstruction] at h
  split_ifs at h
  cases h
  refine ⟨rfl, rfl, ?_, fun p hp => ?_⟩
  · rw [List.length_map, List.length_range]
  · obtain ⟨i, -, rfl⟩ := List.mem_map.1 hp
    exact ⟨rfl, rfl, rfl⟩

end Search

end Datatop

end Msm8909w
