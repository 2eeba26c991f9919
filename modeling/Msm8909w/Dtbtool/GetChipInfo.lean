import Mathlib.Data.List.Flatten
import Mathlib.Data.List.Nodup
import Mathlib.Data.List.Perm.Basic
import Msm8909w.Lib.Lines
import Msm8909w.Lib.Numerals
import Msm8909w.Lib.Search
import Msm8909w.Lib.Tokens
import Msm8909w.Dtbtool.ChipList

/-!
# Extracting the id tuples of a blob

`getChipInfo` of `dtbtool.c` reads the output of `dtc` line by line.  Behind each of three tags it
reads the cells in groups, pairs for `qcom,msm-id` and `qcom,board-id` and quadruples for
`qcom,pmic-id`, and collects the complete groups in three lists.  Then it goes through all
combinations and makes one node for each.  `GetVersionInfo` finds out from the tags which of them
are to be read.

The nodes of the lists are inserted behind the first one, so that a list of nodes linked by `t_next`
is modelled by a list; a node of the result has the number of its allocation as its address.  The
calls of `malloc` succeed.

* `perm_entries` : what the three lists hold after a text has been read,
* `getChipInfo_product` : the nodes are the full product of the complete groups.
-/

namespace Msm8909w

namespace Dtbtool

/-! ### Reading the cells -/

/-- `QCDT_DT_TAG`, `QCDT_BOARD_TAG` and `QCDT_PMIC_TAG`. -/
inductive Tag
  | dt
  | board
  | pmic
  deriving DecidableEq, Repr

/-- What follows on `qcom,` in a tag. -/
def Tag.name : Tag → Bytes
  | .dt => ascii "msm-id = <"
  | .board => ascii "board-id = <"
  | .pmic => ascii "pmic-id = <"

def Tag.text (tag : Tag) : Bytes := ascii "qcom" ++ 44 :: tag.name

/-- The number of cells in a group, from version 2 on. -/
def Tag.size : Tag → ℕ
  | .dt => 2
  | .board => 2
  | .pmic => 4

/-- A delimiter of `strtok_r(pos, " \t", &sptr)`. -/
def blank (c : UInt8) : Bool := c == 32 || c == 9

/-- What one round of the loop over the groups reads: the cells, the two flags, and `sptr`. -/
structure Entry where
  data : List UInt32
  valid : Bool
  ended : Bool
  sptr : Bytes
  deriving DecidableEq

/-- The loop over the cells of a group. -/
def readEntry : ℕ → Bytes → Entry
  | 0, sptr => ⟨[], true, false, sptr⟩
  | n + 1, sptr =>
    match strtokR blank sptr with
    -- the loop goes on, and `strtok_r` returns nothing again
    | none =>
      { readEntry n sptr with
        data := 0 :: (readEntry n sptr).data
        valid := false
        ended := true }
    | some (tok, sptr) =>
      if tok.head? = some 62 then ⟨[], false, true, sptr⟩
      else { readEntry n sptr with data := UInt32.ofNat (strtoul tok) :: (readEntry n sptr).data }

/-- The loop over the groups of `n` cells, in at most `fuel` rounds: the groups that are valid. -/
def readEntries (n : ℕ) : ℕ → Bytes → List (List UInt32)
  | 0, _ => []
  | fuel + 1, sptr =>
    let e := readEntry n sptr
    (if e.valid then [e.data] else []) ++ if e.ended then [] else readEntries n fuel e.sptr

/-- The groups behind a tag. -/
def readCells (n : ℕ) (pos : Bytes) : List (List UInt32) := readEntries n (pos.length + 1) pos

/-- A new node comes behind the first one. -/
def insertAfterHead {α : Type*} : List α → α → List α
  | [], a => [a]
  | first :: rest, a => first :: a :: rest

/-- The lists `chipId`, `chipSt` and `chipPt`, and the flags `entryEndedDT`, `entryEndedST` and
`entryEndedPT`, which have no value before they are set. -/
structure Parse where
  entries : Tag → List (List UInt32)
  ended : Tag → Bool

/-- Look for a tag in a line: the line, which `strtok_r` ends behind the first token, and the
lists. -/
def scanTag (tag : Tag) (line : Bytes) (s : Parse) : Bytes × Parse :=
  match firstIndex tag.text line with
  | none => (line, s)
  | some i =>
    let start := i + tag.text.length
    let pos := line.drop start
    let first := (pos.takeWhile blank).length + ((pos.dropWhile blank).takeWhile (!blank ·)).length
    (line.take (start + first),
      { entries := Function.update s.entries tag
          ((readCells tag.size pos).foldl insertAfterHead (s.entries tag))
        ended := Function.update s.ended tag true })

/-- One line in the loop for the versions 2 and 3. -/
def scanLine (s : Parse) (line : Bytes) : Parse :=
  let (line, s) := scanTag .dt line s
  let (line, s) := scanTag .board line s
  (scanTag .pmic line s).2

/-- The lines that `getline` returns, as C strings. -/
def getlines (text : Bytes) : List Bytes :=
  (chunks 10 (text.length + 1) text).map fun line => line.takeWhile (· ≠ 0)

def parse (lines : List Bytes) : Parse := lines.foldl scanLine ⟨fun _ => [], fun _ => false⟩

/-! ### The nodes -/

/-- A node: its address, its ids and the address of its master. -/
structure ChipNode where
  addr : ℕ
  id : ChipId
  master : ℕ
  deriving DecidableEq, Repr

/-- A new node, whose master is the first one. -/
def insertNode (chip : List ChipNode) (id : ChipId) : List ChipNode :=
  match chip with
  | [] => [⟨0, id, 0⟩]
  | first :: rest => first :: ⟨(first :: rest).length, id, first.addr⟩ :: rest

/-- The ids of a combination: `chipset` and `revNum`, `platform` and `subtype`, and the pmic ids. -/
def combine (id st pt : List UInt32) : ChipId where
  chipset := id.getD 0 0
  platform := st.getD 0 0
  subtype := st.getD 1 0
  revNum := id.getD 1 0
  pmic0 := pt.getD 0 0
  pmic1 := pt.getD 1 0
  pmic2 := pt.getD 2 0
  pmic3 := pt.getD 3 0

/-- `while (cPt != NULL)`. -/
def walkPt (id st : List UInt32) : List (List UInt32) → List ChipNode → List ChipNode
  | [], chip => chip
  | pt :: cPt, chip => walkPt id st cPt (insertNode chip (combine id st pt))

/-- `while (cSt != NULL)`; the inner loop starts at `tmp_pt` each time, since `cPt` is set back. -/
def walkSt (msmversion : ℕ) (tmp_pt : List (List UInt32)) (id : List UInt32) :
    List (List UInt32) → List ChipNode → List ChipNode
  | [], chip => chip
  | st :: cSt, chip =>
    walkSt msmversion tmp_pt id cSt
      (if msmversion = 3 then walkPt id st tmp_pt chip
        else insertNode chip (combine id st [0, 0, 0, 0]))

/-- `while (cId != NULL)`; `cSt` is set back to `tmp_st`. -/
def walkId (msmversion : ℕ) (tmp_st tmp_pt : List (List UInt32)) :
    List (List UInt32) → List ChipNode → List ChipNode
  | [], chip => chip
  | id :: cId, chip => walkId msmversion tmp_st tmp_pt cId (walkSt msmversion tmp_pt id tmp_st chip)

/-- The loop for version 1, which ends with the first line that has the tag. -/
def chipInfoV1 : List Bytes → Option (ℕ × List ChipNode)
  | [] => none
  | line :: lines =>
    match firstIndex Tag.dt.text line with
    | none => chipInfoV1 lines
    | some i =>
      let groups := readCells 3 (line.drop (i + Tag.dt.text.length))
      let chip := groups.foldl (fun chip g => insertNode chip
        ⟨g.getD 0 0, g.getD 1 0, 0, g.getD 2 0, 0, 0, 0, 0⟩) []
      if chip.isEmpty then none else some (groups.length, chip)

/-- `getChipInfo` on the output of `dtc`: `*num` and the nodes, the first of which is returned;
`none` is `NULL`. -/
def getChipInfo (text : Bytes) (msmversion : ℕ) : Option (ℕ × List ChipNode) :=
  if msmversion = 1 then chipInfoV1 (getlines text)
  else
    let s := parse (if msmversion = 2 ∨ msmversion = 3 then getlines text else [])
    let count1 := (s.entries .dt).length
    if count1 = 0 then none
    else if (s.entries .board).length = 0 then none
    else if (s.entries .pmic).length = 0 ∧ msmversion = 3 then none
    else
      let chip := walkId msmversion (s.entries .board) (s.entries .pmic) (s.entries .dt) []
      if s.ended .board ∧ s.ended .dt ∧ (s.ended .pmic ∨ msmversion = 2) then some (count1, chip)
        else none

/-- The loop of `GetVersionInfo`. -/
def versionLoop : ℕ → List Bytes → ℕ
  | v, [] => v
  | v, line :: lines =>
    let v := if (firstIndex Tag.board.text line).isSome then 2 else v
    if (firstIndex Tag.pmic.text line).isSome then 3 else versionLoop v lines

/-- `GetVersionInfo` on the output of `dtc`. -/
def getVersionInfo (text : Bytes) : ℕ := versionLoop 1 (getlines text)

/-! ### Texts -/

/-- A cell as it is printed, with the blanks behind it. -/
structure Cell where
  text : Bytes
  value : ℕ
  number : IsNumber text value
  gap : Bytes
  gap_blank : ∀ c ∈ gap, blank c = true

/-- A line with a tag: cells separated by blanks, then `>;` and the end of the line. -/
structure CellRow where
  tag : Tag
  indent : Bytes
  indent_blank : ∀ c ∈ indent, blank c = true
  lead : Bytes
  lead_blank : ∀ c ∈ lead, blank c = true
  cells : List Cell
  gaps : ∀ c ∈ cells.dropLast, c.gap ≠ []

/-- What is behind the cells of a line. -/
def rowEnd : Bytes := ascii ">;" ++ [10]

def CellRow.body (row : CellRow) : Bytes :=
  row.lead ++ (row.cells.flatMap (fun c => c.text ++ c.gap) ++ rowEnd)

/-- A line of the output: one with a tag, or one in which there is no tag. -/
inductive Row
  | cells (row : CellRow)
  | other (line : Bytes) (single : 10 ∉ line) (plain : ∀ tag : Tag, ¬tag.text <:+: line ++ [10])

def Row.line : Row → Bytes
  | .cells row => row.indent ++ row.tag.text ++ row.body
  | .other line _ _ => line ++ [10]

/-- The text of the lines. -/
def render (doc : List Row) : Bytes := (doc.map Row.line).flatten

/-- The complete groups of `n` elements. -/
def complete {α : Type*} (n : ℕ) (l : List α) : List (List α) :=
  (List.range (l.length / n)).map fun i => (l.drop (i * n)).take n

/-- The complete groups of a line. -/
def Row.groups (tag : Tag) : Row → List (List UInt32)
  | .cells row =>
    if row.tag = tag then complete tag.size (row.cells.map fun c => UInt32.ofNat c.value) else []
  | .other _ _ _ => []

/-- The complete groups of a text. -/
def groups (tag : Tag) (doc : List Row) : List (List UInt32) := doc.flatMap (Row.groups tag)

/-- All combinations; for version 2 the pmic ids are 0. -/
def product (msmversion : ℕ) (doc : List Row) : List ChipId :=
  (groups .dt doc).flatMap fun id => (groups .board doc).flatMap fun st =>
    (if msmversion = 3 then groups .pmic doc else [[0, 0, 0, 0]]).map fun pt => combine id st pt

/-! ### Groups -/

section Groups

variable {α : Type*} {n fuel : ℕ} {s : Bytes} {ns ws : List Bytes}

theorem complete_of_lt {l : List α} (h : l.length < n) : complete n l = [] := by
  rw [complete, Nat.div_eq_of_lt h]
  rfl

theorem complete_of_le {l : List α} (hn : 0 < n) (h : n ≤ l.length) :
    complete n l = l.take n :: complete n (l.drop n) := by
  have hdiv : l.length / n = (l.length - n) / n + 1 := by
    rw [← Nat.add_div_right _ hn, Nat.sub_add_cancel h]
  rw [complete, complete, hdiv, List.range_succ_eq_map, List.map_cons, List.map_map,
    List.length_drop, Nat.zero_mul, List.drop_zero]
  congr 1
  refine List.map_congr_left fun i _ => ?_
  rw [Function.comp_apply, List.drop_drop, Nat.succ_mul, Nat.add_comm]

/-- The value of a token. -/
def tokenValue (tok : Bytes) : UInt32 := UInt32.ofNat (strtoul tok)

/-- Enough numbers make a valid group. -/
theorem readEntry_full (h : Tokens blank s (ns ++ ws)) (hns : ∀ t ∈ ns, t.head? ≠ some 62) :
    ∃ s', readEntry ns.length s = ⟨ns.map tokenValue, true, false, s'⟩ ∧ Tokens blank s' ws := by
  induction ns generalizing s with
  | nil => exact ⟨s, rfl, h⟩
  | cons t ns ih =>
    obtain ⟨ht, hns⟩ := List.forall_mem_cons.1 hns
    cases h with
    | cons hs hrest =>
      obtain ⟨s', hread, htok⟩ := ih hrest hns
      refine ⟨s', ?_, htok⟩
      rw [List.length_cons, readEntry, hs]
      simp only
      rw [if_neg ht, hread]
      rfl

/-- A group that lacks numbers ends the loop. -/
theorem readEntry_short (h : Tokens blank s (ns ++ ws)) (hns : ∀ t ∈ ns, t.head? ≠ some 62)
    (hws : ∀ t ∈ ws.head?, t.head? = some 62) (hlt : ns.length < n) :
    (readEntry n s).valid = false ∧ (readEntry n s).ended = true := by
  induction ns generalizing n s with
  | nil =>
    obtain ⟨m, rfl⟩ := Nat.exists_eq_add_of_lt hlt
    rw [List.nil_append] at h
    rw [readEntry]
    cases h with
    | nil hs => rw [hs]; exact ⟨rfl, rfl⟩
    | cons hs hrest =>
      rw [hs]
      simp only
      rw [if_pos (hws _ rfl)]
      exact ⟨rfl, rfl⟩
  | cons t ns ih =>
    obtain ⟨ht, hns⟩ := List.forall_mem_cons.1 hns
    cases n with
    | zero => cases hlt
    | succ n =>
      cases h with
      | cons hs hrest =>
        have hshort := ih hrest hns (Nat.lt_of_succ_lt_succ hlt)
        rw [readEntry, hs]
        simp only
        rw [if_neg ht]
        exact hshort

/-- **The loop over the groups** returns the complete groups. -/
theorem readEntries_eq (hn : 0 < n) (h : Tokens blank s (ns ++ ws))
    (hns : ∀ t ∈ ns, t.head? ≠ some 62)
    (hws : ∀ t ∈ ws.head?, t.head? = some 62) (hfuel : ns.length < fuel) :
    readEntries n fuel s = complete n (ns.map tokenValue) := by
  induction fuel generalizing ns s with
  | zero => cases hfuel
  | succ fuel ih =>
    rw [readEntries]
    by_cases hlt : ns.length < n
    · obtain ⟨hvalid, hended⟩ := readEntry_short h hns hws hlt
      rw [complete_of_lt (by rw [List.length_map]; exact hlt)]
      simp [hvalid, hended]
    · have hle := not_lt.1 hlt
      have hsplit : Tokens blank s (ns.take n ++ (ns.drop n ++ ws)) := by
        rw [← List.append_assoc, List.take_append_drop]
        exact h
      obtain ⟨s', hread, htok⟩ := readEntry_full hsplit fun t ht => hns t (List.mem_of_mem_take ht)
      rw [List.length_take_of_le hle] at hread
      have hrest := ih htok (fun t ht => hns t (List.mem_of_mem_drop ht))
        (by rw [List.length_drop]; omega)
      rw [complete_of_le hn (by rw [List.length_map]; exact hle), ← List.map_take, ← List.map_drop,
        ← hrest, hread]
      rfl

end Groups

/-! ### Lines -/

section Lines

variable {row : CellRow} {s : Parse} {tag : Tag} {line : Bytes}

theorem blank_le {c : UInt8} (h : blank c = true) : c ≤ 47 := by
  refine le_of_isSpace ?_
  simp only [blank, Bool.or_eq_true, beq_iff_eq] at h
  rcases h with rfl | rfl <;> decide

theorem Cell.isWord (c : Cell) : IsWord blank c.text := by
  refine ⟨c.number.ne_nil, fun a ha => ?_⟩
  cases hb : blank a with
  | false => rfl
  | true =>
    have hlt := c.number.digitValue_lt ha
    rw [digitValue_of_le (blank_le hb)] at hlt
    exact absurd hlt (by decide)

theorem Cell.head_ne (c : Cell) (tail : Bytes) : (c.text ++ tail).head? ≠ some 62 := by
  obtain ⟨d, t, ht, hd⟩ := c.number.head_isDigit
  rw [ht]
  intro heq
  rw [Option.some.inj heq] at hd
  revert hd
  decide

theorem Cell.tokenValue (c : Cell) (tail : Bytes) (htail : ∀ a ∈ tail.head?, 36 ≤ digitValue a) :
    tokenValue (c.text ++ tail) = UInt32.ofNat c.value := by
  rw [Dtbtool.tokenValue, strtoul_append c.number htail]

theorem isWord_rowEnd : IsWord blank rowEnd := by
  refine ⟨by decide, ?_⟩
  intro a ha
  have hall : rowEnd.all (fun c => !blank c) = true := by decide
  have hnot := List.all_eq_true.1 hall a ha
  rwa [Bool.not_eq_true'] at hnot

/-- The tokens of a line: the numbers, the last of which may have the end of the line on it. -/
theorem tokens_body (row : CellRow) : ∃ ns ws, Tokens blank row.body (ns ++ ws) ∧
    (∀ t ∈ ns, t.head? ≠ some 62) ∧ (∀ t ∈ ws.head?, t.head? = some 62) ∧
    ns.map tokenValue = row.cells.map fun c => UInt32.ofNat c.value := by
  have hwords : ∀ cells : List Cell, ∃ ns ws,
      withEnd (cells.map fun c => (c.text, c.gap)) rowEnd = ns ++ ws ∧
        (∀ t ∈ ns, t.head? ≠ some 62) ∧
        (∀ t ∈ ws.head?, t.head? = some 62) ∧ ns.map tokenValue = cells.map fun c =>
          UInt32.ofNat c.value := by
    intro cells
    induction cells with
    | nil =>
      refine ⟨[], [rowEnd], rfl, ?_, ?_, rfl⟩
      · intro t ht
        cases ht
      · intro t ht
        obtain rfl := Option.some.inj ht
        decide
    | cons c cells ih =>
      obtain ⟨ns, ws, hend, hns, hws, hvalues⟩ := ih
      rw [List.map_cons, withEnd]
      split_ifs with hlast
      · rw [Bool.and_eq_true, List.isEmpty_iff, List.map_eq_nil_iff] at hlast
        refine ⟨[c.text ++ rowEnd], [], rfl, ?_, ?_, ?_⟩
        · intro t ht
          rw [List.mem_singleton.1 ht]
          exact c.head_ne rowEnd
        · intro t ht
          cases ht
        · rw [hlast.1, List.map_singleton, List.map_singleton, c.tokenValue]
          intro a ha
          obtain rfl := Option.some.inj ha
          decide
      · refine ⟨c.text :: ns, ws, by rw [hend]; rfl, List.forall_mem_cons.2 ⟨?_, hns⟩, hws, ?_⟩
        · have := c.head_ne []
          rwa [List.append_nil] at this
        · have hvalue := c.tokenValue [] (by intro a ha; cases ha)
          rw [List.append_nil] at hvalue
          rw [List.map_cons, List.map_cons, hvalues, hvalue]
  obtain ⟨ns, ws, hend, hns, hws, hvalues⟩ := hwords row.cells
  refine ⟨ns, ws, ?_, hns, hws, hvalues⟩
  have htok := tokens_words (row.cells.map fun c => (c.text, c.gap)) row.lead_blank
    (fun p hp => by
      obtain ⟨c, -, rfl⟩ := List.mem_map.1 hp
      exact ⟨c.isWord, c.gap_blank⟩)
    (fun p hp => by
      rw [← List.map_dropLast] at hp
      obtain ⟨c, hc, rfl⟩ := List.mem_map.1 hp
      exact row.gaps c hc)
    isWord_rowEnd
  rw [hend, List.flatMap_map] at htok
  exact htok

theorem readCells_body (row : CellRow) {n : ℕ} (hn : 0 < n) :
    readCells n row.body = complete n (row.cells.map fun c => UInt32.ofNat c.value) := by
  obtain ⟨ns, ws, htok, hns, hws, hvalues⟩ := tokens_body row
  have hlen := htok.length_le
  rw [List.length_append] at hlen
  rw [readCells, readEntries_eq hn htok hns hws (by omega), hvalues]

/-- What a line with a tag is made of, but for the tag and the end of the line. -/
theorem mem_body {c : UInt8} (hc : c ∈ row.body) :
    blank c = true ∨ digitValue c < 36 ∨ c ∈ rowEnd := by
  simp only [CellRow.body, List.mem_append, List.mem_flatMap] at hc
  rcases hc with hc | ⟨cell, -, hc | hc⟩ | hc
  · exact .inl (row.lead_blank c hc)
  · exact .inr (.inl (cell.number.digitValue_lt hc))
  · exact .inl (cell.gap_blank c hc)
  · exact .inr (.inr hc)

theorem notMem_body {c : UInt8} (hblank : blank c = false) (hdigit : digitValue c = 36)
    (hend : c ∉ rowEnd) :
    c ∉ row.body := by
  intro hc
  rcases mem_body hc with h | h | h
  · rw [hblank] at h
    cases h
  · omega
  · exact hend h

theorem notMem_indent (row : CellRow) {c : UInt8} (hblank : blank c = false) : c ∉ row.indent := by
  intro hc
  rw [row.indent_blank c hc] at hblank
  cases hblank

theorem line_cells (row : CellRow) :
    (Row.cells row).line = row.indent ++ ascii "qcom" ++ 44 :: (row.tag.name ++ row.body) := by
  simp [Row.line, Tag.text, List.append_assoc]

/-- The tag of a line is found behind the indentation. -/
theorem firstIndex_tag (row : CellRow) :
    firstIndex row.tag.text (Row.cells row).line = some row.indent.length := by
  rw [line_cells]
  exact (Found.here (by decide) (notMem_indent row (by decide)) row.body).index

/-- No other tag is in it. -/
theorem not_infix_line (row : CellRow) (h : tag ≠ row.tag) :
    ¬tag.text <:+: (Row.cells row).line := by
  rw [line_cells]
  intro htag
  have hp : 44 ∉ row.indent ++ ascii "qcom" := by
    rw [List.mem_append, not_or]
    exact ⟨notMem_indent row (by decide), by decide⟩
  have hrest : 44 ∉ row.tag.name ++ row.body := by
    rw [List.mem_append, not_or]
    refine ⟨?_, notMem_body (by decide) (by decide) (by decide)⟩
    cases row.tag <;> decide
  have hprefix := prefix_of_infix_mark hp hrest htag
  refine not_prefix_append ?_ ?_ row.body hprefix
  · revert h
    cases tag <;> cases row.tag <;> decide
  · revert h
    cases tag <;> cases row.tag <;> decide

theorem scanTag_of_no_tag (h : ¬tag.text <:+: line) : scanTag tag line s = (line, s) := by
  rw [scanTag, firstIndex_eq_none.2 h]

/-- What a line with a tag adds. -/
def Parse.add (s : Parse) (tag : Tag) (gs : List (List UInt32)) : Parse where
  entries := Function.update s.entries tag (gs.foldl insertAfterHead (s.entries tag))
  ended := Function.update s.ended tag true

theorem scanTag_line (row : CellRow) (s : Parse) : ∃ line, line <+: (Row.cells row).line ∧
    scanTag row.tag (Row.cells row).line s =
      (line, s.add row.tag ((Row.cells row).groups row.tag)) := by
  have hdrop : (Row.cells row).line.drop (row.indent.length + row.tag.text.length) = row.body := by
    rw [← List.length_append]
    exact List.drop_left
  have hread : readCells row.tag.size row.body = (Row.cells row).groups row.tag := by
    rw [readCells_body row (by cases row.tag <;> decide), Row.groups, if_pos rfl]
  rw [scanTag, firstIndex_tag]
  simp only [hdrop, hread]
  exact ⟨_, List.take_prefix _ _, rfl⟩

/-- A line with a tag in the loop. -/
theorem scanLine_cells (row : CellRow) (s : Parse) :
    scanLine s (Row.cells row).line = s.add row.tag ((Row.cells row).groups row.tag) := by
  obtain ⟨line, hprefix, hscan⟩ := scanTag_line row s
  have hother : ∀ {tag}, tag ≠ row.tag → ¬tag.text <:+: line :=
    fun hne htag => not_infix_line row hne (htag.trans hprefix.isInfix)
  unfold scanLine
  cases htag : row.tag with
  | dt =>
    rw [htag] at hscan hother
    rw [hscan]
    simp only
    rw [scanTag_of_no_tag (hother (by decide)), scanTag_of_no_tag (hother (by decide))]
  | board =>
    have hdt : ¬Tag.dt.text <:+: (Row.cells row).line := not_infix_line row (by rw [htag]; decide)
    rw [htag] at hscan hother
    rw [scanTag_of_no_tag hdt]
    simp only
    rw [hscan]
    simp only
    rw [scanTag_of_no_tag (hother (by decide))]
  | pmic =>
    have hdt : ¬Tag.dt.text <:+: (Row.cells row).line := not_infix_line row (by rw [htag]; decide)
    have hboard : ¬Tag.board.text <:+: (Row.cells row).line :=
      not_infix_line row (by rw [htag]; decide)
    rw [htag] at hscan
    rw [scanTag_of_no_tag hdt]
    simp only
    rw [scanTag_of_no_tag hboard]
    simp only
    rw [hscan]

theorem scanLine_plain (h : ∀ tag : Tag, ¬tag.text <:+: line) : scanLine s line = s := by
  unfold scanLine
  rw [scanTag_of_no_tag (h .dt)]
  simp only
  rw [scanTag_of_no_tag (h .board)]
  simp only
  rw [scanTag_of_no_tag (h .pmic)]

end Lines

/-! ### The text -/

section Text

variable {doc : List Row} {s : Parse} {tag : Tag}

/-- A line ends with its only line feed. -/
theorem Row.exists_line (r : Row) : ∃ b, 10 ∉ b ∧ r.line = b ++ [10] := by
  cases r with
  | other line single _ => exact ⟨line, single, rfl⟩
  | cells row =>
    refine ⟨row.indent ++ row.tag.text ++
      (row.lead ++ (row.cells.flatMap (fun c => c.text ++ c.gap) ++ ascii ">;")),
      ?_, by simp [Row.line, CellRow.body, rowEnd]⟩
    have hblank : ∀ {l : Bytes}, (∀ c ∈ l, blank c = true) → 10 ∉ l := by
      intro l hl hmem
      exact absurd (hl 10 hmem) (by decide)
    have htag : 10 ∉ row.tag.text := by cases row.tag <;> decide
    have hcells : 10 ∉ row.cells.flatMap fun c => c.text ++ c.gap := by
      rw [List.mem_flatMap]
      rintro ⟨c, -, hc⟩
      rcases List.mem_append.1 hc with hc | hc
      · exact absurd (c.number.digitValue_lt hc) (by decide)
      · exact hblank c.gap_blank hc
    simp only [List.mem_append, not_or]
    exact ⟨⟨hblank row.indent_blank, htag⟩, hblank row.lead_blank, hcells, by decide⟩

theorem getlines_render (doc : List Row) :
    getlines (render doc) = doc.map fun r => r.line.takeWhile (· ≠ 0) := by
  have hclosed : ∀ l ∈ doc.map Row.line, Closed 10 ((render doc).length + 1) l := by
    intro l hl
    have hle : l.length ≤ (render doc).length := (List.sublist_flatten_of_mem hl).length_le
    obtain ⟨r, -, rfl⟩ := List.mem_map.1 hl
    obtain ⟨b, hb, hline⟩ := r.exists_line
    refine .inl ⟨b, hb, ?_, hline⟩
    rw [hline, List.length_append] at hle
    omega
  have hlines : chunks 10 ((render doc).length + 1) (render doc) = doc.map Row.line :=
    chunks_flatten (Nat.succ_pos _) hclosed
  rw [getlines, hlines, List.map_map]
  rfl

/-- A line with a tag has no zero in it, so that all of it is read. -/
theorem takeWhile_line (row : CellRow) :
    (Row.cells row).line.takeWhile (· ≠ 0) = (Row.cells row).line := by
  have hzero : 0 ∉ (Row.cells row).line := by
    simp only [Row.line, List.mem_append, not_or]
    refine ⟨⟨notMem_indent row (by decide), ?_⟩, notMem_body (by decide) (by decide) (by decide)⟩
    cases row.tag <;> decide
  refine List.takeWhile_eq_self_iff.2 fun c hc => decide_eq_true ?_
  rintro rfl
  exact hzero hc

/-- What the loop does with a line of the text. -/
def Parse.row (s : Parse) : Row → Parse
  | .cells row => s.add row.tag ((Row.cells row).groups row.tag)
  | .other _ _ _ => s

theorem scanLine_row (s : Parse) (r : Row) : scanLine s (r.line.takeWhile (· ≠ 0)) = s.row r := by
  cases r with
  | cells row =>
    rw [takeWhile_line]
    exact scanLine_cells row s
  | other line single plain =>
    exact scanLine_plain fun tag h => plain tag (h.trans (List.takeWhile_prefix _).isInfix)

theorem parse_render (doc : List Row) :
    parse (getlines (render doc)) = doc.foldl Parse.row ⟨fun _ => [], fun _ => false⟩ := by
  rw [parse, getlines_render, List.foldl_map]
  congr 1
  funext s r
  exact scanLine_row s r

/-- **The three lists** hold the complete groups of the text. -/
theorem entries_foldl (doc : List Row) (s : Parse) (tag : Tag) :
    (doc.foldl Parse.row s).entries tag =
      (groups tag doc).foldl insertAfterHead (s.entries tag) := by
  induction doc generalizing s with
  | nil => rfl
  | cons r doc ih =>
    have hrow : (s.row r).entries tag = (r.groups tag).foldl insertAfterHead (s.entries tag) := by
      cases r with
      | other line single plain => rfl
      | cells row =>
        by_cases htag : tag = row.tag
        · subst htag
          exact Function.update_self ..
        · rw [Row.groups, if_neg (Ne.symm htag)]
          exact Function.update_of_ne htag ..
    have hgroups : groups tag (r :: doc) = r.groups tag ++ groups tag doc := List.flatMap_cons
    rw [List.foldl_cons, ih, hrow, hgroups, List.foldl_append]

/-- A list that is not empty has been ended. -/
theorem ended_foldl (hs : ∀ tag, s.entries tag ≠ [] → s.ended tag = true) (doc : List Row)
    (tag : Tag)
    (h : (doc.foldl Parse.row s).entries tag ≠ []) : (doc.foldl Parse.row s).ended tag = true := by
  induction doc generalizing s with
  | nil => exact hs tag h
  | cons r doc ih =>
    refine ih (fun t ht => ?_) h
    cases r with
    | other line single plain => exact hs t ht
    | cells row =>
      by_cases htag : t = row.tag
      · subst htag
        exact Function.update_self ..
      · have hsame : (s.row (.cells row)).entries t = s.entries t := Function.update_of_ne htag ..
        rw [hsame] at ht
        have hended : (s.row (.cells row)).ended t = s.ended t := Function.update_of_ne htag ..
        rw [hended]
        exact hs t ht

/-- The line has the tag. -/
def Row.has (tag : Tag) : Row → Bool
  | .cells row => row.tag = tag
  | .other _ _ _ => false

theorem isSome_firstIndex (tag : Tag) (r : Row) :
    (firstIndex tag.text (r.line.takeWhile (· ≠ 0))).isSome = r.has tag := by
  cases r with
  | cells row =>
    rw [takeWhile_line, Row.has]
    by_cases htag : row.tag = tag
    · subst htag
      rw [firstIndex_tag, decide_eq_true rfl]
      rfl
    · rw [firstIndex_eq_none.2 (not_infix_line row (Ne.symm htag)), decide_eq_false htag]
      rfl
  | other line single plain =>
    have hnone : ¬tag.text <:+: (line ++ [10]).takeWhile (· ≠ 0) :=
      fun h => plain tag (h.trans (List.takeWhile_prefix _).isInfix)
    rw [Row.line, firstIndex_eq_none.2 hnone]
    rfl

/-- The version is that of the tags. -/
theorem versionLoop_render (doc : List Row) (v : ℕ) :
    versionLoop v (doc.map fun r => r.line.takeWhile (· ≠ 0)) =
      if doc.any (Row.has .pmic) then 3 else if doc.any (Row.has .board) then 2 else v := by
  induction doc generalizing v with
  | nil => rfl
  | cons r doc ih =>
    rw [List.map_cons, versionLoop]
    simp only [isSome_firstIndex, ih, List.any_cons]
    by_cases hpmic : r.has .pmic = true
    · simp [hpmic]
    · by_cases hboard : r.has .board = true
      · simp [hpmic, hboard]
      · simp [hpmic, hboard]

theorem getVersionInfo_render (doc : List Row) :
    getVersionInfo (render doc) =
      if doc.any (Row.has .pmic) then 3 else if doc.any (Row.has .board) then 2 else 1 := by
  rw [getVersionInfo, getlines_render, versionLoop_render]

end Text

/-! ### The nodes of the result -/

section Nodes

variable {α : Type*}

theorem perm_insertAfterHead (l : List α) (a : α) : (insertAfterHead l a).Perm (a :: l) := by
  cases l with
  | nil => exact .refl _
  | cons first rest => exact .swap a first rest

theorem perm_foldl_insertAfterHead (gs l : List α) :
    (gs.foldl insertAfterHead l).Perm (gs ++ l) := by
  induction gs generalizing l with
  | nil => exact .refl _
  | cons g gs ih =>
    refine (ih _).trans ?_
    exact ((perm_insertAfterHead l g).append_left gs).trans List.perm_middle

/-- The loops make a node for each combination, in the order in which they go through them. -/
theorem walkPt_eq (id st : List UInt32) (pts : List (List UInt32)) (chip : List ChipNode) :
    walkPt id st pts chip = (pts.map (combine id st)).foldl insertNode chip := by
  induction pts generalizing chip with
  | nil => rfl
  | cons pt pts ih => exact ih _

theorem walkSt_eq (v : ℕ) (pts : List (List UInt32)) (id : List UInt32) (sts : List (List UInt32))
    (chip : List ChipNode) :
    walkSt v pts id sts chip =
      (sts.flatMap fun st => (if v = 3 then pts else [[0, 0, 0, 0]]).map (combine id st)).foldl
        insertNode chip := by
  induction sts generalizing chip with
  | nil => rfl
  | cons st sts ih =>
    rw [walkSt, ih, List.flatMap_cons, List.foldl_append]
    congr 1
    by_cases hv : v = 3
    · rw [if_pos hv, if_pos hv, walkPt_eq]
    · rw [if_neg hv, if_neg hv]
      rfl

theorem walkId_eq (v : ℕ) (sts pts ids : List (List UInt32)) (chip : List ChipNode) :
    walkId v sts pts ids chip =
      (ids.flatMap fun id => sts.flatMap fun st =>
        (if v = 3 then pts else [[0, 0, 0, 0]]).map (combine id st)).foldl insertNode chip := by
  induction ids generalizing chip with
  | nil => rfl
  | cons id ids ih => rw [walkId, ih, walkSt_eq, List.flatMap_cons, List.foldl_append]

/-- The nodes are numbered, and the first one is the master of all. -/
structure Nodes (chip : List ChipNode) : Prop where
  lt : ∀ n ∈ chip, n.addr < chip.length
  nodup : (chip.map ChipNode.addr).Nodup
  master : ∀ first ∈ chip.head?, ∀ n ∈ chip, n.master = first.addr

theorem Nodes.nil : Nodes [] := ⟨nofun, List.nodup_nil, nofun⟩

theorem perm_map_insertNode (chip : List ChipNode) (id : ChipId) :
    ((insertNode chip id).map ChipNode.id).Perm (id :: chip.map ChipNode.id) := by
  cases chip with
  | nil => exact .refl _
  | cons first rest => exact .swap id first.id (rest.map ChipNode.id)

theorem Nodes.insertNode {chip : List ChipNode} (h : Nodes chip) (id : ChipId) :
    Nodes (insertNode chip id) := by
  cases chip with
  | nil =>
    refine ⟨?_, List.nodup_singleton _, ?_⟩
    · intro n hn
      rw [List.mem_singleton.1 hn]
      exact Nat.zero_lt_one
    · rintro first ⟨⟩ n hn
      rw [List.mem_singleton.1 hn]
  | cons first rest =>
    have hnew : ∀ n ∈ first :: rest, n.addr ≠ (first :: rest).length := fun n hn => (h.lt n hn).ne
    obtain ⟨hfirst, hrest⟩ := List.forall_mem_cons.1 hnew
    obtain ⟨hnotin, hnodup⟩ := List.nodup_cons.1 h.nodup
    refine ⟨?_, ?_, ?_⟩
    · intro n hn
      have hcases : n = ⟨(first :: rest).length, id, first.addr⟩ ∨ n ∈ first :: rest := by
        rcases List.mem_cons.1 hn with hn | hn
        · exact .inr (hn ▸ List.mem_cons_self)
        · exact (List.mem_cons.1 hn).imp_right (List.mem_cons_of_mem _)
      rcases hcases with rfl | hn
      · exact Nat.lt_succ_self _
      · exact (h.lt n hn).trans (Nat.lt_succ_self _)
    · refine List.nodup_cons.2 ⟨?_, List.nodup_cons.2 ⟨?_, hnodup⟩⟩
      · rw [List.map_cons, List.mem_cons, not_or]
        exact ⟨hfirst, hnotin⟩
      · intro hmem
        obtain ⟨n, hn, heq⟩ := List.mem_map.1 hmem
        exact hrest n hn heq
    · rintro first' ⟨⟩ n hn
      rcases List.mem_cons.1 hn with rfl | hn
      · exact h.master _ rfl _ List.mem_cons_self
      · rcases List.mem_cons.1 hn with rfl | hn
        · rfl
        · exact h.master _ rfl n (List.mem_cons_of_mem _ hn)

/-- A run of the loops over the combinations. -/
theorem Nodes.foldl {chip : List ChipNode} (h : Nodes chip) (ids : List ChipId) :
    Nodes (ids.foldl Dtbtool.insertNode chip) ∧
      ((ids.foldl Dtbtool.insertNode chip).map ChipNode.id).Perm (ids ++ chip.map ChipNode.id) := by
  induction ids generalizing chip with
  | nil => exact ⟨h, .refl _⟩
  | cons id ids ih =>
    obtain ⟨hnodes, hperm⟩ := ih (h.insertNode id)
    refine ⟨hnodes, hperm.trans ?_⟩
    exact ((perm_map_insertNode chip id).append_left ids).trans List.perm_middle

end Nodes

/-! ### The full product -/

section Product

variable {doc : List Row}

theorem perm_entries (doc : List Row) (tag : Tag) :
    ((parse (getlines (render doc))).entries tag).Perm (groups tag doc) := by
  rw [parse_render, entries_foldl]
  have hperm := perm_foldl_insertAfterHead (groups tag doc) []
  rwa [List.append_nil] at hperm

theorem ended_parse (doc : List Row) (tag : Tag) (h : groups tag doc ≠ []) :
    (parse (getlines (render doc))).ended tag = true := by
  rw [parse_render]
  refine ended_foldl (fun t ht => absurd rfl ht) doc tag fun hnil => h ?_
  have hperm := perm_entries doc tag
  rw [parse_render, hnil] at hperm
  exact List.nil_perm.1 hperm

/-- Lists with the same elements have the same combinations. -/
theorem perm_product {α β γ δ : Type*} {as as' : List α} {bs bs' : List β} {cs cs' : List γ}
    (f : α → β → γ → δ) (ha : as.Perm as') (hb : bs.Perm bs') (hc : cs.Perm cs') :
    (as.flatMap fun a => bs.flatMap fun b => cs.map (f a b)).Perm
      (as'.flatMap fun a => bs'.flatMap fun b => cs'.map (f a b)) := by
  refine ha.flatMap fun a _ => ?_
  refine hb.flatMap fun b _ => ?_
  exact hc.map (f a b)

/-- The combinations of the lists are those of the text. -/
theorem perm_walkId (doc : List Row) (v : ℕ) {s : Parse} (hs : s = parse (getlines (render doc))) :
    ((walkId v (s.entries .board) (s.entries .pmic) (s.entries .dt) []).map ChipNode.id).Perm
      (product v doc) ∧
      Nodes (walkId v (s.entries .board) (s.entries .pmic) (s.entries .dt) []) := by
  subst hs
  rw [walkId_eq]
  obtain ⟨hnodes, hperm⟩ :=
    Nodes.nil.foldl ((parse (getlines (render doc))).entries .dt |>.flatMap fun id =>
    (parse (getlines (render doc))).entries .board |>.flatMap fun st =>
      (if v = 3 then (parse (getlines (render doc))).entries .pmic else [[0, 0, 0, 0]]).map
        (combine id st))
  rw [List.map_nil, List.append_nil] at hperm
  refine ⟨hperm.trans (perm_product combine (perm_entries doc .dt) (perm_entries doc .board) ?_),
    hnodes⟩
  by_cases hv : v = 3
  · rw [if_pos hv, if_pos hv]
    exact perm_entries doc .pmic
  · rw [if_neg hv, if_neg hv]

/-- The groups that a version needs. -/
def Present (v : ℕ) (doc : List Row) : Prop :=
  groups .dt doc ≠ [] ∧ groups .board doc ≠ [] ∧ (v = 3 → groups .pmic doc ≠ [])

/-- `getChipInfo` for the versions 2 and 3. -/
theorem getChipInfo_render (doc : List Row) {v : ℕ} (hv : v = 2 ∨ v = 3) :
    (Present v doc → getChipInfo (render doc) v =
      some ((groups .dt doc).length, walkId v ((parse (getlines (render doc))).entries .board)
        ((parse (getlines (render doc))).entries .pmic)
          ((parse (getlines (render doc))).entries .dt) [])) ∧
    (¬Present v doc → getChipInfo (render doc) v = none) := by
  have hne1 : v ≠ 1 := by omega
  have hlen : ∀ tag, ((parse (getlines (render doc))).entries tag).length =
      (groups tag doc).length :=
    fun tag => (perm_entries doc tag).length_eq
  simp only [getChipInfo, if_neg hne1, if_pos hv, hlen, List.length_eq_zero_iff]
  constructor
  · rintro ⟨hdt, hboard, hpmic⟩
    have hended : (parse (getlines (render doc))).ended .pmic = true ∨ v = 2 := by
      rcases hv with hv | hv
      · exact .inr hv
      · exact .inl (ended_parse doc .pmic (hpmic hv))
    rw [if_neg hdt, if_neg hboard, if_neg fun h => hpmic h.2 h.1,
      if_pos ⟨ended_parse doc .board hboard, ended_parse doc .dt hdt, hended⟩]
  · intro hnot
    split_ifs with hdt hboard hpmic
    · rfl
    · rfl
    · rfl
    · exact absurd ⟨hdt, hboard, fun h3 hnil => hpmic ⟨hnil, h3⟩⟩ hnot
    · rfl

theorem version_of_tag (htag : ∃ row, Row.cells row ∈ doc ∧ row.tag ≠ .dt) :
    getVersionInfo (render doc) = 2 ∨ getVersionInfo (render doc) = 3 := by
  obtain ⟨row, hmem, hdt⟩ := htag
  rw [getVersionInfo_render]
  by_cases hpmic : doc.any (Row.has .pmic) = true
  · rw [if_pos hpmic]
    exact .inr rfl
  · have hboard : doc.any (Row.has .board) = true := by
      refine List.any_eq_true.2 ⟨_, hmem, decide_eq_true ?_⟩
      cases hrow : row.tag with
      | dt => exact absurd hrow hdt
      | board => rfl
      | pmic => exact absurd (List.any_eq_true.2 ⟨_, hmem, decide_eq_true hrow⟩) hpmic
    rw [if_neg hpmic, if_pos hboard]
    exact .inl rfl

theorem ne_nil_of_perm_product {v : ℕ} {chip : List ChipNode} (h : Present v doc)
    (hperm : (chip.map ChipNode.id).Perm (product v doc)) : chip ≠ [] := by
  rintro rfl
  have hnil : product v doc = [] := List.nil_perm.1 hperm
  obtain ⟨id, hid⟩ := List.exists_mem_of_ne_nil _ h.1
  obtain ⟨st, hst⟩ := List.exists_mem_of_ne_nil _ h.2.1
  have hpt : (if v = 3 then groups .pmic doc else [[0, 0, 0, 0]]) ≠ [] := by
    split_ifs with hv
    · exact h.2.2 hv
    · exact List.cons_ne_nil _ _
  obtain ⟨pt, hpt⟩ := List.exists_mem_of_ne_nil _ hpt
  have hmem : combine id st pt ∈ product v doc :=
    List.mem_flatMap.2 ⟨id, hid, List.mem_flatMap.2 ⟨st, hst, List.mem_map_of_mem hpt⟩⟩
  rw [hnil] at hmem
  cases hmem

/-- **Tag extraction is the full product.**  For a text with a line of board or pmic ids,
`getChipInfo` with the version of `GetVersionInfo` returns a list if all the groups of that version
are there; its nodes are those of the combinations of complete groups, each as often as it occurs,
and the first node is the master of all. -/
theorem getChipInfo_product (doc : List Row) (htag : ∃ row, Row.cells row ∈ doc ∧ row.tag ≠ .dt) :
    let v := getVersionInfo (render doc)
    ((getChipInfo (render doc) v).isSome ↔
      groups .dt doc ≠ [] ∧ groups .board doc ≠ [] ∧ (v = 3 → groups .pmic doc ≠ [])) ∧
    ∀ num chip, getChipInfo (render doc) v = some (num, chip) →
      (chip.map ChipNode.id).Perm (product v doc) ∧ (chip.map ChipNode.addr).Nodup ∧
        ∃ first rest, chip = first :: rest ∧ ∀ n ∈ chip, n.master = first.addr := by
  intro v
  have hv : v = 2 ∨ v = 3 := version_of_tag htag
  obtain ⟨hsome, hnone⟩ := getChipInfo_render doc hv
  by_cases hpresent : Present v doc
  · rw [hsome hpresent]
    refine ⟨iff_of_true rfl hpresent, ?_⟩
    rintro num chip ⟨⟩
    obtain ⟨hperm, hnodes⟩ := perm_walkId doc v rfl
    refine ⟨hperm, hnodes.nodup, ?_⟩
    obtain ⟨first, rest, hchip⟩ :=
      List.exists_cons_of_ne_nil (ne_nil_of_perm_product hpresent hperm)
    refine ⟨first, rest, hchip, hnodes.master first ?_⟩
    rw [hchip]
    rfl
  · rw [hnone hpresent]
    exact ⟨iff_of_false Bool.false_ne_true hpresent, nofun⟩

/-- Decimal digits with a blank behind them. -/
def digitCell (d : UInt8) (hd : d ≠ 48) (h : IsDigits 10 [d]) : Cell where
  text := [d]
  value := ofDigits 10 [d]
  number := by
    have hlt : digitValue d < 10 := h d (List.mem_singleton.2 rfl)
    refine ⟨?_, .inr (.inr ⟨d, [], hd, h, rfl, rfl⟩)⟩
    change 10 * 0 + digitValue d < 2 ^ 32
    omega
  gap := [32]
  gap_blank := List.forall_mem_singleton.2 rfl

/-- A line with a tag and the same number some times. -/
def repeatRow (tag : Tag) (n : ℕ) (d : UInt8) (hd : d ≠ 48) (h : IsDigits 10 [d]) : CellRow where
  tag := tag
  indent := [9]
  indent_blank := List.forall_mem_singleton.2 rfl
  lead := []
  lead_blank := nofun
  cells := List.replicate n (digitCell d hd h)
  gaps := by
    intro c hc
    rw [List.eq_of_mem_replicate (List.mem_of_mem_dropLast hc)]
    exact List.cons_ne_nil _ _

/-- Three cells of `qcom,msm-id`, the last of which makes no pair, and two pairs of
`qcom,board-id`. -/
def boardDoc : List Row :=
  [.other (ascii "/dts-v1/;") (by decide) (by intro tag; cases tag <;> decide),
    .cells (repeatRow .dt 3 53 (by decide) (List.forall_mem_singleton.2 (by decide))),
    .cells (repeatRow .board 4 56 (by decide) (List.forall_mem_singleton.2 (by decide)))]

theorem getChipInfo_product_board :
    (∃ row, Row.cells row ∈ boardDoc ∧ row.tag ≠ .dt) ∧
      (getChipInfo (render boardDoc) (getVersionInfo (render boardDoc))).isSome ∧
      product 2 boardDoc = [⟨5, 8, 8, 5, 0, 0, 0, 0⟩, ⟨5, 8, 8, 5, 0, 0, 0, 0⟩] := by
  have htag : ∃ row, Row.cells row ∈ boardDoc ∧ row.tag ≠ .dt :=
    ⟨_, List.mem_cons_of_mem _ (List.mem_cons_of_mem _ List.mem_cons_self), by decide⟩
  refine ⟨htag, (getChipInfo_product boardDoc htag).1.2 ⟨by decide, by decide, ?_⟩, by decide⟩
  intro hv
  rw [getVersionInfo_render] at hv
  revert hv
  decide

end Product

end Dtbtool

end Msm8909w
