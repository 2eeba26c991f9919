import Mathlib.Data.List.Basic

/-!
# Comma-separated values

A reader of tables in which every cell ends with a comma and every row with a newline; what is
between two quotes is part of its cell, whatever it is.

* `Csv.isCell_of_plain`, `Csv.isCell_quoted` : the texts that are read as one cell,
* `Csv.read_lines` : a table that was written row by row is read back.
-/

namespace Msm8909w

/-- The signs of the notation. -/
structure Csv (α : Type*) where
  comma : α
  newline : α
  quote : α
  comma_ne_newline : comma ≠ newline
  comma_ne_quote : comma ≠ quote
  newline_ne_quote : newline ≠ quote

namespace Csv

variable {α : Type*}

/-- What has been read so far; `inside` is true between two quotes. -/
structure Reader (α : Type*) where
  inside : Bool := false
  cell : List α := []
  row : List (List α) := []
  rows : List (List (List α)) := []

/-- `text` belongs to the cell. -/
def Reader.put (s : Reader α) (text : List α) : Reader α := { s with cell := s.cell ++ text }

@[simp] theorem Reader.inside_put (s : Reader α) (text : List α) :
    (s.put text).inside = s.inside := rfl

@[simp] theorem Reader.put_nil (s : Reader α) : s.put [] = s := by rw [put, List.append_nil]

theorem Reader.put_put (s : Reader α) (t u : List α) : (s.put t).put u = s.put (t ++ u) := by
  simp only [put, List.append_assoc]

variable [DecidableEq α] (C : Csv α)

def step (s : Reader α) (c : α) : Reader α :=
  if c = C.quote then { s with inside := !s.inside }
  else if s.inside then s.put [c]
  else if c = C.comma then { s with cell := [], row := s.row ++ [s.cell] }
  else if c = C.newline then { rows := s.rows ++ [s.row ++ [s.cell]] }
  else s.put [c]

/-- The rows that are complete. -/
def read (text : List α) : List (List (List α)) := (text.foldl C.step {}).rows

/-- A row, with a comma behind every cell. -/
def line (cells : List (List α)) : List α := cells.flatMap (· ++ [C.comma]) ++ [C.newline]

/-- Outside of quotes, `text` is read as (a part of) a cell that holds `value`. -/
def IsCell (text value : List α) : Prop :=
  ∀ s : Reader α, s.inside = false → text.foldl C.step s = s.put value

variable {C} {value s : List α} {texts values : List (List α)}

theorem isCell_of_plain (hcomma : C.comma ∉ s) (hnewline : C.newline ∉ s) (hquote : C.quote ∉ s) :
    C.IsCell s s := by
  intro r hr
  induction s generalizing r with
  | nil => exact r.put_nil.symm
  | cons c s ih =>
    rw [List.mem_cons, not_or] at hcomma hnewline hquote
    have hstep : C.step r c = r.put [c] := by
      rw [step, if_neg (Ne.symm hquote.1), hr, if_neg Bool.false_ne_true,
        if_neg (Ne.symm hcomma.1), if_neg (Ne.symm hnewline.1)]
    rw [List.foldl_cons, hstep, ih hcomma.2 hnewline.2 hquote.2 (r.put [c]) hr, Reader.put_put,
      List.singleton_append]

theorem foldl_inside (hquote : C.quote ∉ s) (r : Reader α) (hr : r.inside = true) :
    s.foldl C.step r = r.put s := by
  induction s generalizing r with
  | nil => exact r.put_nil.symm
  | cons c s ih =>
    rw [List.mem_cons, not_or] at hquote
    have hstep : C.step r c = r.put [c] := by rw [step, if_neg (Ne.symm hquote.1), if_pos hr]
    rw [List.foldl_cons, hstep, ih hquote.2 (r.put [c]) hr, Reader.put_put, List.singleton_append]

theorem isCell_quoted (hquote : C.quote ∉ s) : C.IsCell (C.quote :: (s ++ [C.quote])) s := by
  intro r hr
  have hopen : C.step r C.quote = { r with inside := true } := by rw [step, if_pos rfl, hr]; rfl
  have hclose : C.step (Reader.put { r with inside := true } s) C.quote = r.put s := by
    rw [step, if_pos rfl, Reader.inside_put, Bool.not_true, ← hr]
    rfl
  rw [List.foldl_cons, hopen, List.foldl_append, foldl_inside hquote _ rfl, List.foldl_cons,
    List.foldl_nil, hclose]

/-- The cells of a row, each with its comma. -/
theorem foldl_cells (h : List.Forall₂ C.IsCell texts values) (rows : List (List (List α)))
    (row : List (List α)) :
    (texts.flatMap (· ++ [C.comma])).foldl C.step { row := row, rows := rows } =
      { row := row ++ values, rows := rows } := by
  induction h generalizing row with
  | nil => rw [List.append_nil]; rfl
  | @cons text value texts values htext _ ih =>
    have hcomma : C.step (Reader.put { row := row, rows := rows } value) C.comma =
        { row := row ++ [value], rows := rows } := by
      rw [step, if_neg C.comma_ne_quote, Reader.inside_put, if_neg Bool.false_ne_true, if_pos rfl]
      rfl
    rw [List.flatMap_cons, List.foldl_append, List.foldl_append, htext _ rfl, List.foldl_cons,
      List.foldl_nil, hcomma, ih, List.append_assoc, List.singleton_append]

theorem foldl_line (h : List.Forall₂ C.IsCell texts values) (rows : List (List (List α))) :
    (C.line texts).foldl C.step { rows := rows } = { rows := rows ++ [values ++ [[]]] } := by
  rw [line, List.foldl_append, foldl_cells h, List.foldl_cons, List.foldl_nil, step,
    if_neg C.newline_ne_quote, if_neg Bool.false_ne_true, if_neg (Ne.symm C.comma_ne_newline),
    if_pos rfl, List.nil_append]

/-- **A table that was written row by row is read back**, with an empty cell behind the last comma
of every row. -/
theorem read_lines {lines table : List (List (List α))}
    (h : List.Forall₂ (List.Forall₂ C.IsCell) lines table) :
    C.read (lines.flatMap C.line) = table.map (· ++ [[]]) := by
  suffices ∀ rows, (lines.flatMap C.line).foldl C.step { rows := rows } =
      { rows := rows ++ table.map (· ++ [[]]) } by
    rw [read, this, List.nil_append]
  intro rows
  induction h generalizing rows with
  | nil => rw [List.map_nil, List.append_nil]; rfl
  | cons hrow _ ih =>
    rw [List.flatMap_cons, List.foldl_append, foldl_line hrow, ih, List.map_cons,
      List.append_assoc, List.singleton_append]

end Csv

end Msm8909w
