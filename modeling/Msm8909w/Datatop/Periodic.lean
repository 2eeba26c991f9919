import Msm8909w.Datatop.GenPoll
import Msm8909w.Lib.Csv

/-!
# Polling periodically

`dtop_poll_periodically` of `datatop.c` writes a row for every poll of the gatherers, and on request
prints how far the values have moved since the last reset.  The gatherers are those that
`dtop_search` finds in a directory.

* `Track` : what is to be remembered of a gatherer, the last values and those to compare with,
* `does_pollLoop` : the loop writes and prints what the tracks say, as far as `fprintf` succeeds,
* `pollPeriodically_spec` : a whole run, from the gatherers as they were built.
-/

namespace Msm8909w

namespace Datatop

/-! ### Output -/

/-- `struct timeval`. -/
structure Timeval where
  tv_sec : ℕ
  tv_usec : ℕ

/-- A text of at least `n` characters, with `c` in front. -/
def padLeft (n : ℕ) (c : UInt8) (s : Bytes) : Bytes := List.replicate (n - s.length) c ++ s

/-- `f` for one after the other, up to the first that fails. -/
def untilError {α : Type} (f : α → File → ℤ × File) : List α → File → ℤ × File
  | [], fw => (FILE_SUCCESS, fw)
  | a :: as, fw =>
    let r := f a fw
    if r.1 = FILE_ERROR then (FILE_ERROR, r.2) else untilError f as r.2

/-- What `dtop_format_dp_names` prints between its quotes. -/
def columnName (dpgPrefix : Bytes) (dpPrefix : Option Bytes) (name : Bytes) : Bytes :=
  match dpPrefix with
  | some dpPrefix => dpgPrefix ++ ascii ":" ++ dpPrefix ++ ascii ":" ++ name
  | none => dpgPrefix ++ ascii "::" ++ name

/-- `dtop_format_dp_names`. -/
def dtopFormatDpNames (dpgPrefix : Bytes) (p : NamedPoint) (fw : File) : ℤ × File :=
  prints fw [ascii "\"" ++ columnName dpgPrefix p.dpPrefix p.name ++ ascii "\","]

/-- `dtop_print_dp_csv`. -/
def dtopPrintDpCsv (p : NamedPoint) (fw : File) : ℤ × File :=
  let r := dtopFormatDpValues p.dp fw
  if r.1 = FILE_ERROR then (FILE_ERROR, r.2) else prints r.2 [ascii ","]

/-- `dtop_print_dpg_csv`. -/
def dtopPrintDpgCsv (dpg : Gatherer) (fw : File) : ℤ × File :=
  untilError dtopPrintDpCsv dpg.data_points fw

/-- `dtop_print_dpg_names_csv`. -/
def dtopPrintDpgNamesCsv (dpg : Gatherer) (fw : File) : ℤ × File :=
  untilError (dtopFormatDpNames dpg.dpgPrefix) dpg.data_points fw

/-- `dtop_write_pollingdata_csv`. -/
def dtopWritePollingdataCsv (dpg_list : List Gatherer) (fw : File) : ℤ × File :=
  let r := untilError dtopPrintDpgCsv dpg_list fw
  if r.1 = FILE_ERROR then (FILE_ERROR, r.2) else prints r.2 [ascii "\n"]

/-- The time in seconds, and the microseconds. -/
def timeTexts (tv : Timeval) : List Bytes :=
  [padLeft 10 32 (decimalNat tv.tv_sec),
    ascii "." ++ padLeft 6 48 (decimalNat tv.tv_usec) ++ ascii ","]

/-- `dtop_print_time_at_poll`. -/
def dtopPrintTimeAtPoll (tv : Timeval) (fw : File) : ℤ × File := prints fw (timeTexts tv)

/-! ### Differences -/

section Snapshot

/- What a subtraction yields whose result is not an `int64_t`; C leaves this open. -/
variable (overflow : ℤ → ℤ → ℤ)

def subInt64 (a b : ℤ) : ℤ :=
  if -2 ^ 63 ≤ a - b ∧ a - b < 2 ^ 63 then a - b else overflow a b

/-- The difference that `dtop_handle_dp_type_for_snapshot` takes. -/
def snapshotDelta (dp : DataPoint) : ℤ :=
  if dp.type = DTOP_LONG then subInt64 overflow dp.data.d_long dp.initial_data.d_long
  else if dp.type = DTOP_UINT then subInt64 overflow dp.data.d_uint dp.initial_data.d_uint
  else if dp.type = DTOP_INT then subInt64 overflow dp.data.d_int dp.initial_data.d_int
  else
    -- the bits of the two unsigned numbers are taken for those of signed ones
    subInt64 overflow (Int.bmod dp.data.d_ulong (2 ^ 64)) (Int.bmod dp.initial_data.d_ulong (2 ^ 64))

/-- `dtop_format_text_for_snapshot`. -/
def dtopFormatTextForSnapshot (dpgPrefix : Bytes) (dpPrefix : Option Bytes) (name : Bytes) :
    Bytes :=
  dpgPrefix ++ ascii ":" ++
    (match dpPrefix with | some dpPrefix => dpPrefix ++ ascii ":" | none => []) ++ name ++ ascii "::"

/-- `dtop_handle_dp_type_for_snapshot`: what is printed. -/
def dtopHandleDpTypeForSnapshot (dpgPrefix : Bytes) (p : NamedPoint) : Bytes :=
  let int64 := snapshotDelta overflow p.dp
  if int64 ≠ 0 then
    dtopFormatTextForSnapshot dpgPrefix p.dpPrefix p.name ++ percentD int64 ++ ascii "\n"
  else []

/-- `dtop_print_snapshot_diff`: what is printed. -/
def dtopPrintSnapshotDiff (dpg_list : List Gatherer) : Bytes :=
  ascii "\n" ++ ascii "Change In Datapoint Values\n" ++ ascii "---------------------------\n" ++
    dpg_list.flatMap (fun dpg =>
      dpg.data_points.flatMap (dtopHandleDpTypeForSnapshot overflow dpg.dpgPrefix)) ++
    ascii "\n"

end Snapshot

/-- `dtop_reset_dp_initial_values`. -/
def dtopResetDpInitialValues (dpg_list : List Gatherer) : List Gatherer :=
  dpg_list.map fun dpg => { dpg with
    data_points := dpg.data_points.map fun p =>
      { p with dp := { p.dp with initial_data_populated := false } } }

/-- `dtop_print_interactive_opts`. -/
def interactiveOpts : Bytes :=
  ascii "The following interactive commands are:\n" ++
  ascii "\tq | quit\tTerminate program at any time\n" ++
  ascii "\ti\t\tPrint dp differences, reset initial dp values\n" ++
  ascii "\tl\t\tPrint dp differences since last reset\n" ++
  ascii "\n"

/-! ### The loop -/

def POLL_NOT_SPECIFIED : ℤ := -1
def QUIT : ℤ := 1

/-- What a round of the loop meets: the word that is typed, if there is one, the times that
`gettimeofday` returns, and the files with the memory that reading them uses. -/
structure Round where
  inp : Option Bytes
  tv : Timeval
  poll_tv : Timeval
  files : Bytes → Option Bytes
  junk : Gatherer → GenJunk

/-- The gatherers, the file that is written, and what has been printed. -/
structure Session where
  dpg_list : List Gatherer
  fw : File
  terminal : Bytes := []

/-- How the loop ends: with a result, in wait for another round, or with a value outside of its
union. -/
inductive Ending
  | returned (result : ℤ)
  | waiting
  | corrupt
  deriving DecidableEq

section Loop

variable (undef : ℕ → ℤ → ℕ) (overflow : ℤ → ℤ → ℤ)

/-- `dtop_poll`. -/
def dtopPoll (r : Round) (dpg_list : List Gatherer) : Option (List Gatherer) :=
  dpg_list.mapM fun dpg => dtopGenPoll undef dpg (r.files dpg.file) (r.junk dpg)

def isQuit (inp : Option Bytes) : Bool := inp = some (ascii "quit") || inp = some (ascii "q")

/-- The commands `i` and `l`. -/
def interactive (inp : Option Bytes) (s : Session) : Session :=
  if inp = some (ascii "i") then
    { s with
      dpg_list := dtopResetDpInitialValues s.dpg_list
      terminal := s.terminal ++ dtopPrintSnapshotDiff overflow s.dpg_list }
  else if inp = some (ascii "l") then
    { s with terminal := s.terminal ++ dtopPrintSnapshotDiff overflow s.dpg_list }
  else s

/-- `Polled at %ld.%06ld\n`. -/
def polledAt (tv : Timeval) : Bytes :=
  ascii "Polled at " ++ decimalNat tv.tv_sec ++ ascii "." ++ padLeft 6 48 (decimalNat tv.tv_usec) ++
    ascii "\n"

/-- The loop of `dtop_poll_periodically`; `quit` is what the variable holds that is not set before
the loop. -/
def pollLoop (poll_time endtime quit : ℤ) : List Round → ℤ → Session → Ending × Session
  | [], curtime, s =>
    if curtime < endtime ∨ poll_time = POLL_NOT_SPECIFIED then (.waiting, s)
    else (.returned FILE_SUCCESS, if quit ≠ QUIT then
      { s with terminal := s.terminal ++ dtopPrintSnapshotDiff overflow s.dpg_list } else s)
  | r :: rs, curtime, s =>
    if curtime < endtime ∨ poll_time = POLL_NOT_SPECIFIED then
      if isQuit r.inp then (.returned FILE_SUCCESS, s)
      else
        let s := interactive overflow r.inp s
        match dtopPoll undef r s.dpg_list with
        | none => (.corrupt, s)
        | some dpg_list =>
          let s := { s with dpg_list, terminal := s.terminal ++ polledAt r.tv }
          let t := dtopPrintTimeAtPoll r.poll_tv s.fw
          if t.1 = FILE_ERROR then (.returned FILE_ERROR, { s with fw := t.2 })
          else
            let w := dtopWritePollingdataCsv dpg_list t.2
            if w.1 = FILE_ERROR then (.returned FILE_ERROR, { s with fw := w.2 })
            else pollLoop poll_time endtime quit rs r.tv.tv_sec { s with fw := w.2 }
    else (.returned FILE_SUCCESS, if quit ≠ QUIT then
      { s with terminal := s.terminal ++ dtopPrintSnapshotDiff overflow s.dpg_list } else s)

/-- `dtop_poll_periodically`, from the time `start` on. -/
def dtopPollPeriodically (poll_time : ℤ) (start : Timeval) (quit : ℤ) (rounds : List Round)
    (dpg_list : List Gatherer) (fw : File) : Ending × Session :=
  let t := prints fw [ascii "\"Time\","]
  if t.1 = FILE_ERROR then (.returned FILE_ERROR, { dpg_list, fw := t.2 })
  else
    let n := untilError dtopPrintDpgNamesCsv dpg_list t.2
    if n.1 = FILE_ERROR then (.returned FILE_ERROR, { dpg_list, fw := n.2 })
    else
      let e := prints n.2 [ascii "\n"]
      if e.1 = FILE_ERROR then (.returned FILE_ERROR, { dpg_list, fw := e.2 })
      else
        pollLoop undef overflow poll_time (start.tv_sec + poll_time) quit rounds start.tv_sec
          { dpg_list, fw := e.2, terminal := interactiveOpts }

end Loop

/-! ### Writing -/

variable {fw fw₁ fw₂ : File} {xs ys : List Bytes} {whole more : Bytes} {c c' : Prop}

theorem prints_append (fw : File) (xs ys : List Bytes) : prints fw (xs ++ ys) =
    if (prints fw xs).1 = FILE_ERROR then (FILE_ERROR, (prints fw xs).2)
    else prints (prints fw xs).2 ys := by
  induction xs generalizing fw with
  | nil => rfl
  | cons x xs ih =>
    rw [List.cons_append, prints, prints]
    cases fprintf fw x with
    | none => rfl
    | some fw => exact ih fw

/-- Printing in a loop is printing all texts one after the other. -/
theorem untilError_eq {α β : Type} {R : α → β → Prop} {f : α → File → ℤ × File}
    {texts : β → List Bytes} {as : List α} {bs : List β} (h : List.Forall₂ R as bs)
    (hf : ∀ a b, R a b → ∀ fw, f a fw = prints fw (texts b)) (fw : File) :
    untilError f as fw = prints fw (bs.flatMap texts) := by
  induction h generalizing fw with
  | nil => rfl
  | cons hab _ ih =>
    rw [untilError, hf _ _ hab, List.flatMap_cons, prints_append]
    simp only [ih]

theorem flatMap_eq {α β γ : Type} {R : α → β → Prop} {f : α → List γ} {g : β → List γ}
    {as : List α} {bs : List β} (h : List.Forall₂ R as bs) (hf : ∀ a b, R a b → f a = g b) :
    as.flatMap f = bs.flatMap g := by
  induction h with
  | nil => rfl
  | cons hab _ ih => rw [List.flatMap_cons, List.flatMap_cons, hf _ _ hab, ih]

theorem exists_related {α β : Type} {R : α → β → Prop} {as : List α} {bs : List β}
    (h : List.Forall₂ R as bs) {a : α} (ha : a ∈ as) : ∃ b, R a b := by
  induction h with
  | nil => cases ha
  | cons hab _ ih =>
    rcases List.mem_cons.1 ha with rfl | ha
    · exact ⟨_, hab⟩
    · exact ih ha

/-- As much of `whole` is written to the file as there was no error, and all of it under the
condition `c`. -/
def Writes (fw fw' : File) (whole : Bytes) (c : Prop) : Prop :=
  ∃ rest, fw.text ++ whole = fw'.text ++ rest ∧ (c → rest = [])

theorem Writes.append (h : Writes fw fw₁ whole True) (h' : Writes fw₁ fw₂ more c) :
    Writes fw fw₂ (whole ++ more) c := by
  obtain ⟨_, heq, hrest⟩ := h
  obtain ⟨rest, heq', hrest'⟩ := h'
  rw [hrest trivial, List.append_nil] at heq
  exact ⟨rest, by rw [← List.append_assoc, heq, heq'], hrest'⟩

theorem Writes.cut (h : Writes fw fw₁ whole c) (hc : ¬ c') (more : Bytes) :
    Writes fw fw₁ (whole ++ more) c' := by
  obtain ⟨rest, heq, -⟩ := h
  exact ⟨rest ++ more, by rw [← List.append_assoc, heq, List.append_assoc], fun h => absurd h hc⟩

theorem writes_nil (fw : File) : Writes fw fw [] True := ⟨[], rfl, fun _ => rfl⟩

theorem Writes.mono (h : Writes fw fw₁ whole c) (hc : c' → c) : Writes fw fw₁ whole c' := by
  obtain ⟨rest, heq, hrest⟩ := h
  exact ⟨rest, heq, fun h => hrest (hc h)⟩

theorem writes_prints (fw : File) (xs : List Bytes) :
    Writes fw (prints fw xs).2 xs.flatten ((prints fw xs).1 ≠ FILE_ERROR) := by
  induction xs generalizing fw with
  | nil => exact (writes_nil fw).mono fun _ => trivial
  | cons x xs ih =>
    rw [prints, List.flatten_cons]
    cases hx : fprintf fw x with
    | none => exact (writes_nil fw).cut (fun h => h rfl) _
    | some fw₁ =>
      have htext : fw₁.text = fw.text ++ x := by
        rw [fprintf] at hx
        split at hx
        · cases hx
        · cases hx
          rfl
      have hfirst : Writes fw fw₁ x True := ⟨[], by rw [htext, List.append_nil], fun _ => rfl⟩
      exact hfirst.append (ih fw₁)

/-! ### Tracks -/

/-- A data point, with its last value and the one to compare with. -/
structure Column where
  name : Bytes
  dpPrefix : Option Bytes
  last : ℤ
  base : ℤ

/-- A gatherer; it is `fresh` until the first poll after a reset. -/
structure Track where
  dpgPrefix : Bytes
  file : Bytes
  columns : List Column
  fresh : Bool

/-- The numbers that a poll has read, if it could read any. -/
def Track.poll (t : Track) : Option (List ℤ) → Track
  | none => t
  | some vs => { t with
      columns := List.zipWith
        (fun c v => { c with last := v, base := if t.fresh then v else c.base }) t.columns vs
      fresh := false }

def Track.reset (t : Track) : Track := { t with fresh := true }

/-- The difference that is shown for a column. -/
def Column.delta (overflow : ℤ → ℤ → ℤ) (c : Column) : ℤ :=
  subInt64 overflow (Int.bmod c.last (2 ^ 64)) c.base

/-- The line that is shown for a column, if it has changed. -/
def Column.line (overflow : ℤ → ℤ → ℤ) (dpgPrefix : Bytes) (c : Column) : Bytes :=
  if c.delta overflow ≠ 0 then
    dtopFormatTextForSnapshot dpgPrefix c.dpPrefix c.name ++ decimalInt (c.delta overflow) ++
      ascii "\n"
  else []

/-- The differences of all columns. -/
def snapshotText (overflow : ℤ → ℤ → ℤ) (ts : List Track) : Bytes :=
  ascii "\n" ++ ascii "Change In Datapoint Values\n" ++ ascii "---------------------------\n" ++
    ts.flatMap (fun t => t.columns.flatMap (Column.line overflow t.dpgPrefix)) ++ ascii "\n"

/-- The data point holds what the column says. -/
structure HoldsColumn (fresh : Bool) (p : NamedPoint) (c : Column) : Prop where
  name : p.name = c.name
  dpPrefix : p.dpPrefix = c.dpPrefix
  last : HoldsNumber p.dp c.last
  base : p.dp.initial_data.d_long = c.base
  populated : p.dp.initial_data_populated = !fresh

/-- The gatherer is what the track says. -/
structure Follows (g : Gatherer) (t : Track) : Prop where
  dpgPrefix : g.dpgPrefix = t.dpgPrefix
  file : g.file = t.file
  columns : List.Forall₂ (HoldsColumn t.fresh) g.data_points t.columns

variable {g : Gatherer} {t : Track} {gs : List Gatherer} {ts : List Track} {b : Bool}
  {p q : NamedPoint} {col : Column} {points points' : List NamedPoint} {cols : List Column}
  {overflow : ℤ → ℤ → ℤ}

/-! ### What is printed for a column -/

theorem HoldsNumber.type {dp : DataPoint} {v : ℤ} (h : HoldsNumber dp v) :
    dp.type = DTOP_ULONG ∨ dp.type = DTOP_LONG := h.imp And.left And.left

theorem dtopFormatDpValues_number {dp : DataPoint} {v : ℤ} (h : HoldsNumber dp v) (fw : File) :
    dtopFormatDpValues dp fw = prints fw [decimalInt v] := by
  rw [dtopFormatDpValues]
  rcases h with ⟨htype, hv⟩ | ⟨htype, hv⟩
  · rw [if_pos htype, percentU, ← decimalInt_natCast, hv]
  · rw [if_neg (by rw [htype]; decide), if_pos htype, percentD, hv]

theorem dtopPrintDpCsv_eq (h : HoldsColumn b p col) (fw : File) :
    dtopPrintDpCsv p fw = prints fw [decimalInt col.last, ascii ","] := by
  rw [dtopPrintDpCsv, dtopFormatDpValues_number h.last]
  exact (prints_append fw [decimalInt col.last] [ascii ","]).symm

theorem bmod_d_ulong (u : DataUnion) : Int.bmod u.d_ulong (2 ^ 64) = u.d_long := by
  rw [DataUnion.d_ulong, DataUnion.d_long, DataUnion.signed, show (256 ^ 8 : ℕ) = 2 ^ 64 by decide]

theorem snapshotDelta_eq (h : HoldsColumn b p col) :
    snapshotDelta overflow p.dp = col.delta overflow := by
  rw [snapshotDelta, Column.delta]
  rcases h.last with ⟨htype, hv⟩ | ⟨htype, hv⟩
  · rw [if_neg (by rw [htype]; decide), if_neg (by rw [htype]; decide),
      if_neg (by rw [htype]; decide), hv, bmod_d_ulong, h.base]
  · rw [if_pos htype, h.base, ← hv, DataUnion.d_long, DataUnion.signed,
      show (256 ^ 8 : ℕ) = 2 ^ 64 by decide, Int.bmod_bmod]

theorem dtopHandleDpTypeForSnapshot_eq (h : HoldsColumn b p col) (dpgPrefix : Bytes) :
    dtopHandleDpTypeForSnapshot overflow dpgPrefix p = col.line overflow dpgPrefix := by
  rw [dtopHandleDpTypeForSnapshot, snapshotDelta_eq h, h.name, h.dpPrefix]
  rfl

/-! ### What is printed for a gatherer -/

/-- The texts that a row consists of, behind its time. -/
def rowTexts (ts : List Track) : List Bytes :=
  ts.flatMap fun t => t.columns.flatMap fun c => [decimalInt c.last, ascii ","]

/-- The texts that the first row consists of, behind its first cell. -/
def nameTexts (ts : List Track) : List Bytes :=
  ts.flatMap fun t => t.columns.flatMap fun c =>
    [ascii "\"" ++ columnName t.dpgPrefix c.dpPrefix c.name ++ ascii "\","]

theorem untilError_dtopPrintDpgCsv (h : List.Forall₂ Follows gs ts) (fw : File) :
    untilError dtopPrintDpgCsv gs fw = prints fw (rowTexts ts) :=
  untilError_eq h (fun _ _ hg => untilError_eq hg.columns fun _ _ => dtopPrintDpCsv_eq) fw

theorem untilError_dtopPrintDpgNamesCsv (h : List.Forall₂ Follows gs ts) (fw : File) :
    untilError dtopPrintDpgNamesCsv gs fw = prints fw (nameTexts ts) := by
  refine untilError_eq h (fun g t hg => untilError_eq hg.columns fun p c hp fw => ?_) fw
  rw [dtopFormatDpNames, hg.dpgPrefix, hp.name, hp.dpPrefix]

theorem dtopWritePollingdataCsv_eq (h : List.Forall₂ Follows gs ts) (fw : File) :
    dtopWritePollingdataCsv gs fw = prints fw (rowTexts ts ++ [ascii "\n"]) := by
  rw [dtopWritePollingdataCsv, untilError_dtopPrintDpgCsv h, prints_append]

theorem dtopPrintSnapshotDiff_eq (h : List.Forall₂ Follows gs ts) :
    dtopPrintSnapshotDiff overflow gs = snapshotText overflow ts := by
  have hlines : gs.flatMap (fun g =>
      g.data_points.flatMap (dtopHandleDpTypeForSnapshot overflow g.dpgPrefix)) =
        ts.flatMap fun t => t.columns.flatMap (Column.line overflow t.dpgPrefix) := by
    refine flatMap_eq h fun g t hg => ?_
    rw [hg.dpgPrefix]
    exact flatMap_eq hg.columns fun p c hp => dtopHandleDpTypeForSnapshot_eq hp t.dpgPrefix
  rw [dtopPrintSnapshotDiff, hlines, snapshotText]

/-! ### What a reset and a poll do -/

theorem follows_reset (h : Follows g t) :
    Follows { g with data_points := g.data_points.map fun p =>
      { p with dp := { p.dp with initial_data_populated := false } } } t.reset := by
  refine ⟨h.dpgPrefix, h.file, List.forall₂_map_left_iff.2 (h.columns.imp fun p c hp => ?_)⟩
  exact ⟨hp.name, hp.dpPrefix, hp.last, hp.base, rfl⟩

theorem follows_dtopResetDpInitialValues (h : List.Forall₂ Follows gs ts) :
    List.Forall₂ Follows (dtopResetDpInitialValues gs) (ts.map Track.reset) :=
  List.forall₂_map_left_iff.2 (List.forall₂_map_right_iff.2 (h.imp fun _ _ => follows_reset))

/-- What is read of a file that is to show `n` numbers. -/
def Readable (file : Option Bytes) (n : ℕ) : Option (List ℤ) → Prop
  | none => Unread file
  | some vs => Shows file vs ∧ vs.length = n ∧ ∀ v ∈ vs, IsInt64 v

theorem holdsColumn_of_polled (h : HoldsColumn b p col) {v : ℤ} (hq : Polled p v q) :
    HoldsColumn false q { col with last := v, base := if b then v else col.base } := by
  refine ⟨hq.name.trans h.name, hq.dpPrefix.trans h.dpPrefix, hq.holds, ?_, hq.populated⟩
  rw [hq.initial, h.populated, h.base]
  cases b with
  | true => rfl
  | false => rfl

theorem holdsColumns_of_polled {vs : List ℤ} (h : List.Forall₂ (HoldsColumn b) points cols)
    (hq : List.Forall₂ (fun e q => Polled e.1 e.2 q) (points.zip vs) points') :
    List.Forall₂ (HoldsColumn false) points'
      (List.zipWith (fun c v => { c with last := v, base := if b then v else c.base }) cols vs) := by
  induction h generalizing vs points' with
  | nil =>
    cases hq
    exact .nil
  | @cons p c points cols hp _ ih =>
    cases vs with
    | nil =>
      cases hq
      exact .nil
    | cons v vs =>
      cases hq with
      | cons hpolled hrest => exact .cons (holdsColumn_of_polled hp hpolled) (ih hrest)

theorem exists_dtopGenPoll (undef : ℕ → ℤ → ℕ) (h : Follows g t) {file : Option Bytes}
    {reading : Option (List ℤ)} (hread : Readable file t.columns.length reading)
    (junk : GenJunk) : ∃ g', dtopGenPoll undef g file junk = some g' ∧ Follows g' (t.poll reading) := by
  cases reading with
  | none => exact ⟨g, dtopGenPoll_unread undef hread g junk, h⟩
  | some vs =>
    obtain ⟨hshows, hlen, hint⟩ := hread
    obtain ⟨points, hpoll, hpoints⟩ := dtopGenPoll_values undef hshows hint
      (h.columns.length_eq.trans hlen.symm) (fun p hp => by
        obtain ⟨c, hpc⟩ := exists_related h.columns hp
        exact hpc.last.type) junk
    exact ⟨_, hpoll, h.dpgPrefix, h.file, holdsColumns_of_polled h.columns hpoints⟩

/-! ### Rounds -/

/-- What is read in a round, by the name of the file. -/
abbrev Readings := Round → Bytes → Option (List ℤ)

variable {vals : Readings} {r : Round} {rs : List Round} {s : Session}

/-- A round, for a gatherer. -/
def Track.round (vals : Readings) (r : Round) (t : Track) : Track :=
  (if r.inp = some (ascii "i") then t.reset else t).poll (vals r t.file)

/-- In the round, every file can be read or not as `vals` says. -/
def RoundReads (vals : Readings) (ts : List Track) (r : Round) : Prop :=
  ∀ t ∈ ts, Readable (r.files t.file) t.columns.length (vals r t.file)

@[simp] theorem Track.file_poll (t : Track) (reading : Option (List ℤ)) :
    (t.poll reading).file = t.file := by
  cases reading with
  | none => rfl
  | some vs => rfl

@[simp] theorem Track.dpgPrefix_poll (t : Track) (reading : Option (List ℤ)) :
    (t.poll reading).dpgPrefix = t.dpgPrefix := by
  cases reading with
  | none => rfl
  | some vs => rfl

@[simp] theorem Track.file_round (vals : Readings) (r : Round) (t : Track) :
    (t.round vals r).file = t.file := by
  rw [Track.round, Track.file_poll]
  split_ifs
  · rfl
  · rfl

@[simp] theorem Track.dpgPrefix_round (vals : Readings) (r : Round) (t : Track) :
    (t.round vals r).dpgPrefix = t.dpgPrefix := by
  rw [Track.round, Track.dpgPrefix_poll]
  split_ifs
  · rfl
  · rfl

theorem Track.length_poll {reading : Option (List ℤ)} {file : Option Bytes}
    (h : Readable file t.columns.length reading) :
    (t.poll reading).columns.length = t.columns.length := by
  cases reading with
  | none => rfl
  | some vs =>
    rw [Track.poll, List.length_zipWith, h.2.1, Nat.min_self]

theorem Track.length_round {file : Option Bytes}
    (h : Readable file t.columns.length (vals r t.file)) :
    (t.round vals r).columns.length = t.columns.length := by
  rw [Track.round]
  split_ifs
  · exact @Track.length_poll t.reset _ _ h
  · exact Track.length_poll h

/-- The rounds after one that was read are read as well. -/
theorem RoundReads.map_round {r' : Round} (h : RoundReads vals ts r) (h' : RoundReads vals ts r') :
    RoundReads vals (ts.map (Track.round vals r)) r' := by
  intro u hu
  obtain ⟨t, ht, rfl⟩ := List.mem_map.1 hu
  rw [Track.file_round, Track.length_round (h t ht)]
  exact h' t ht

theorem exists_dtopPoll (undef : ℕ → ℤ → ℕ) (r : Round) (h : List.Forall₂ Follows gs ts)
    (hread : RoundReads vals ts r) : ∃ gs', dtopPoll undef r gs = some gs' ∧
      List.Forall₂ Follows gs' (ts.map fun t => t.poll (vals r t.file)) := by
  induction h with
  | nil => exact ⟨[], rfl, .nil⟩
  | @cons g t gs ts hg _ ih =>
    obtain ⟨g', hpoll, hg'⟩ := exists_dtopGenPoll undef hg
      (hread t List.mem_cons_self) (r.junk g)
    obtain ⟨gs', hpolls, hgs'⟩ := ih fun u hu => hread u (List.mem_cons_of_mem _ hu)
    refine ⟨g' :: gs', ?_, .cons hg' hgs'⟩
    rw [dtopPoll, List.mapM_cons, hg.file, hpoll]
    rw [dtopPoll] at hpolls
    rw [hpolls]
    rfl

/-! ### The loop -/

/-- The signs of the file that is written. -/
def csv : Csv UInt8 where
  comma := 44
  newline := 10
  quote := 34
  comma_ne_newline := by decide
  comma_ne_quote := by decide
  newline_ne_quote := by decide

/-- The cell with the time of a poll. -/
def timeCell (tv : Timeval) : Bytes :=
  padLeft 10 32 (decimalNat tv.tv_sec) ++ (ascii "." ++ padLeft 6 48 (decimalNat tv.tv_usec))

/-- The cells of a row. -/
def rowCells (ts : List Track) (r : Round) : List Bytes :=
  timeCell r.poll_tv :: ts.flatMap fun t => t.columns.map fun c => decimalInt c.last

/-- The rows of the polls of some rounds. -/
def rows (vals : Readings) : List Track → List Round → List (List Bytes)
  | _, [] => []
  | ts, r :: rs =>
    rowCells (ts.map (Track.round vals r)) r :: rows vals (ts.map (Track.round vals r)) rs

/-- Why no further round is polled. -/
inductive Stop
  | quit
  | time
  | waiting

/-- The rounds that are polled. -/
def polledRounds (poll_time endtime : ℤ) : List Round → ℤ → List Round × Stop
  | [], curtime =>
    if curtime < endtime ∨ poll_time = POLL_NOT_SPECIFIED then ([], .waiting) else ([], .time)
  | r :: rs, curtime =>
    if curtime < endtime ∨ poll_time = POLL_NOT_SPECIFIED then
      if isQuit r.inp then ([], .quit)
      else
        let p := polledRounds poll_time endtime rs r.tv.tv_sec
        (r :: p.1, p.2)
    else ([], .time)

def Stop.ending : Stop → Ending
  | waiting => .waiting
  | _ => .returned FILE_SUCCESS

/-- What is printed when the loop has ended. -/
def closing (overflow : ℤ → ℤ → ℤ) (quit : ℤ) (ts : List Track) : Stop → Bytes
  | .time => if quit ≠ QUIT then snapshotText overflow ts else []
  | _ => []

/-- What is printed in some rounds and after them. -/
def messages (overflow : ℤ → ℤ → ℤ) (vals : Readings) (quit : ℤ) (stop : Stop) :
    List Track → List Round → Bytes
  | ts, [] => closing overflow quit ts stop
  | ts, r :: rs =>
    (if r.inp = some (ascii "i") ∨ r.inp = some (ascii "l") then snapshotText overflow ts else []) ++
      polledAt r.tv ++ messages overflow vals quit stop (ts.map (Track.round vals r)) rs

/-- The loop goes on from `s` to `out`: it writes `lines`, ends with `ending` and prints `printed`,
unless a call of `fprintf` has failed. -/
structure Does (s : Session) (out : Ending × Session) (lines : Bytes) (ending : Ending)
    (printed : Bytes) : Prop where
  writes : Writes s.fw out.2.fw lines (out.1 ≠ .returned FILE_ERROR)
  ends : out.1 = .returned FILE_ERROR ∨
    out.1 = ending ∧ out.2.terminal = s.terminal ++ printed

theorem flatten_row (ts : List Track) (r : Round) :
    (timeTexts r.poll_tv).flatten ++ (rowTexts ts ++ [ascii "\n"]).flatten =
      csv.line (rowCells ts r) := by
  have hcells : (rowTexts ts).flatten =
      (ts.flatMap fun t => t.columns.map fun c => decimalInt c.last).flatMap (· ++ [csv.comma]) := by
    induction ts with
    | nil => rfl
    | cons t ts ih =>
      rw [rowTexts] at ih
      rw [rowTexts, List.flatMap_cons, List.flatten_append, ih, List.flatMap_cons,
        List.flatMap_append]
      congr 1
      induction t.columns with
      | nil => rfl
      | cons c cs ihc =>
        rw [List.flatMap_cons, List.flatten_append, ihc, List.map_cons, List.flatMap_cons]
        rfl
  rw [List.flatten_append, hcells, Csv.line, rowCells, List.flatMap_cons, timeCell, timeTexts]
  simp only [List.flatten_cons, List.flatten_nil, List.append_nil, List.append_assoc]
  rfl

theorem interactive_spec (h : List.Forall₂ Follows s.dpg_list ts) :
    (interactive overflow r.inp s).fw = s.fw ∧
      (interactive overflow r.inp s).terminal = s.terminal ++
        (if r.inp = some (ascii "i") ∨ r.inp = some (ascii "l") then snapshotText overflow ts
          else []) ∧
      List.Forall₂ Follows (interactive overflow r.inp s).dpg_list
        (ts.map fun t => if r.inp = some (ascii "i") then t.reset else t) := by
  have hne : ¬ some (ascii "l") = some (ascii "i") := by decide
  rw [interactive]
  by_cases hi : r.inp = some (ascii "i")
  · rw [if_pos hi, if_pos (.inl hi), dtopPrintSnapshotDiff_eq h]
    refine ⟨rfl, rfl, ?_⟩
    simp only [if_pos hi]
    exact follows_dtopResetDpInitialValues h
  · simp only [if_neg hi, List.map_id']
    by_cases hl : r.inp = some (ascii "l")
    · rw [if_pos hl, if_pos (.inr hl), dtopPrintSnapshotDiff_eq h]
      exact ⟨rfl, rfl, h⟩
    · rw [if_neg hl, if_neg (by rw [not_or]; exact ⟨hi, hl⟩), List.append_nil]
      exact ⟨rfl, rfl, h⟩

theorem exists_poll_round (undef : ℕ → ℤ → ℕ) (h : List.Forall₂ Follows s.dpg_list ts)
    (hread : RoundReads vals ts r) :
    ∃ gs', dtopPoll undef r (interactive overflow r.inp s).dpg_list = some gs' ∧
      List.Forall₂ Follows gs' (ts.map (Track.round vals r)) := by
  have hsame (t : Track) : (if r.inp = some (ascii "i") then t.reset else t).file = t.file ∧
      (if r.inp = some (ascii "i") then t.reset else t).columns = t.columns := by
    split_ifs
    · exact ⟨rfl, rfl⟩
    · exact ⟨rfl, rfl⟩
  obtain ⟨gs', hpoll, hgs'⟩ := exists_dtopPoll undef r (interactive_spec h).2.2 fun u hu => by
    obtain ⟨t, ht, rfl⟩ := List.mem_map.1 hu
    rw [(hsame t).1, (hsame t).2]
    exact hread t ht
  refine ⟨gs', hpoll, ?_⟩
  rw [List.map_map] at hgs'
  have hround : (fun t => (if r.inp = some (ascii "i") then t.reset else t).poll
      (vals r (if r.inp = some (ascii "i") then t.reset else t).file)) = Track.round vals r := by
    funext t
    rw [(hsame t).1, Track.round]
  rw [← hround]
  exact hgs'

theorem does_finish (h : List.Forall₂ Follows s.dpg_list ts) (quit : ℤ) :
    Does s (.returned FILE_SUCCESS, if quit ≠ QUIT then
      { s with terminal := s.terminal ++ dtopPrintSnapshotDiff overflow s.dpg_list } else s) []
      (.returned FILE_SUCCESS) (closing overflow quit ts .time) := by
  rw [dtopPrintSnapshotDiff_eq h, closing]
  split_ifs
  · exact ⟨(writes_nil _).mono fun _ => trivial, .inr ⟨rfl, rfl⟩⟩
  · exact ⟨(writes_nil _).mono fun _ => trivial, .inr ⟨rfl, (List.append_nil _).symm⟩⟩

/-- The loop writes a row for every poll, and prints what the tracks say.  The induction is on the
rounds; the tracks are those of the gatherers that the loop has reached. -/
theorem does_pollLoop (undef : ℕ → ℤ → ℕ) (overflow : ℤ → ℤ → ℤ) (poll_time endtime quit : ℤ)
    (h : List.Forall₂ Follows s.dpg_list ts) (hread : ∀ r ∈ rs, RoundReads vals ts r)
    (curtime : ℤ) :
    Does s (pollLoop undef overflow poll_time endtime quit rs curtime s)
      ((rows vals ts (polledRounds poll_time endtime rs curtime).1).flatMap csv.line)
      (polledRounds poll_time endtime rs curtime).2.ending
      (messages overflow vals quit (polledRounds poll_time endtime rs curtime).2 ts
        (polledRounds poll_time endtime rs curtime).1) := by
  induction rs generalizing curtime s ts with
  | nil =>
    rw [pollLoop, polledRounds]
    by_cases hrun : curtime < endtime ∨ poll_time = POLL_NOT_SPECIFIED
    · rw [if_pos hrun, if_pos hrun]
      exact ⟨(writes_nil _).mono fun _ => trivial, .inr ⟨rfl, (List.append_nil _).symm⟩⟩
    · rw [if_neg hrun, if_neg hrun]
      exact does_finish h quit
  | cons r rs ih =>
    by_cases hrun : curtime < endtime ∨ poll_time = POLL_NOT_SPECIFIED
    swap
    · rw [pollLoop, polledRounds, if_neg hrun, if_neg hrun]
      exact does_finish h quit
    rw [pollLoop, polledRounds, if_pos hrun, if_pos hrun]
    split_ifs with hquit
    · exact ⟨(writes_nil _).mono fun _ => trivial, .inr ⟨rfl, (List.append_nil _).symm⟩⟩
    obtain ⟨hfw, hterminal, -⟩ := @interactive_spec ts overflow r s h
    obtain ⟨gs', hpoll, hgs'⟩ :=
      @exists_poll_round ts overflow vals r s undef h (hread r List.mem_cons_self)
    have htime := writes_prints s.fw (timeTexts r.poll_tv)
    have hvalues := writes_prints (prints s.fw (timeTexts r.poll_tv)).2
      (rowTexts (ts.map (Track.round vals r)) ++ [ascii "\n"])
    rw [rows, List.flatMap_cons, ← flatten_row (ts.map (Track.round vals r)) r, messages]
    simp only [hpoll, dtopPrintTimeAtPoll, hfw, dtopWritePollingdataCsv_eq hgs']
    by_cases ht : (prints s.fw (timeTexts r.poll_tv)).1 = FILE_ERROR
    · -- the time could not be written
      rw [if_pos ht, List.append_assoc]
      exact ⟨htime.cut (fun hne => hne rfl) _, .inl rfl⟩
    have hrow := (htime.mono fun _ => ht).append hvalues
    by_cases hw : (prints (prints s.fw (timeTexts r.poll_tv)).2
        (rowTexts (ts.map (Track.round vals r)) ++ [ascii "\n"])).1 = FILE_ERROR
    · -- the values could not all be written
      rw [if_neg ht, if_pos hw]
      exact ⟨hrow.cut (fun hne => hne rfl) _, .inl rfl⟩
    · rw [if_neg ht, if_neg hw]
      have hrest : ∀ r' ∈ rs, RoundReads vals (ts.map (Track.round vals r)) r' := fun r' hr' =>
        (hread r List.mem_cons_self).map_round (hread r' (List.mem_cons_of_mem _ hr'))
      obtain ⟨hwrites, hends⟩ := @ih _ { dpg_list := gs', fw := _, terminal := _ } hgs' hrest
        r.tv.tv_sec
      refine ⟨(hrow.mono fun _ => hw).append hwrites, hends.imp_right fun hend => ⟨hend.1, ?_⟩⟩
      rw [hend.2, hterminal]
      simp only [List.append_assoc]

/-- The cells of the first row. -/
def headerCells (ts : List Track) : List Bytes :=
  ascii "Time" :: ts.flatMap fun t =>
    t.columns.map fun c => columnName t.dpgPrefix c.dpPrefix c.name

/-- A text between quotes. -/
def quoted (s : Bytes) : Bytes := csv.quote :: (s ++ [csv.quote])

theorem flatten_header (ts : List Track) :
    [ascii "\"Time\","].flatten ++ ((nameTexts ts).flatten ++ [ascii "\n"].flatten) =
      csv.line ((headerCells ts).map quoted) := by
  have hcells : (nameTexts ts).flatten =
      ((ts.flatMap fun t => t.columns.map fun c =>
        columnName t.dpgPrefix c.dpPrefix c.name).map quoted).flatMap (· ++ [csv.comma]) := by
    induction ts with
    | nil => rfl
    | cons t ts ih =>
      rw [nameTexts] at ih
      rw [nameTexts, List.flatMap_cons, List.flatten_append, ih, List.flatMap_cons,
        List.map_append, List.flatMap_append]
      congr 1
      induction t.columns with
      | nil => rfl
      | cons c cs ihc =>
        rw [List.flatMap_cons, List.flatten_append, ihc, List.map_cons, List.map_cons,
          List.flatMap_cons, quoted]
        simp only [List.flatten_cons, List.flatten_nil, List.append_nil, List.append_assoc,
          List.cons_append]
        rfl
  rw [hcells, Csv.line, headerCells, List.map_cons, List.flatMap_cons, List.append_assoc]
  rfl

/-- The whole run: the file and what is printed. -/
theorem pollPeriodically_spec (undef : ℕ → ℤ → ℕ) (overflow : ℤ → ℤ → ℤ) (poll_time : ℤ)
    (start : Timeval) (quit : ℤ) (h : List.Forall₂ Follows gs ts)
    (hread : ∀ r ∈ rs, RoundReads vals ts r) (fw : File) {out : Ending × Session}
    (hout : dtopPollPeriodically undef overflow poll_time start quit rs gs fw = out)
    {p : List Round × Stop}
    (hp : polledRounds poll_time (start.tv_sec + poll_time) rs start.tv_sec = p) :
    Writes fw out.2.fw
        (csv.line ((headerCells ts).map quoted) ++ (rows vals ts p.1).flatMap csv.line)
        (out.1 ≠ .returned FILE_ERROR) ∧
      (out.1 = .returned FILE_ERROR ∨ out.1 = p.2.ending ∧
        out.2.terminal = interactiveOpts ++ messages overflow vals quit p.2 ts p.1) := by
  have htime := writes_prints fw [ascii "\"Time\","]
  have hnames := writes_prints (prints fw [ascii "\"Time\","]).2 (nameTexts ts)
  have hend := writes_prints (prints (prints fw [ascii "\"Time\","]).2 (nameTexts ts)).2
    [ascii "\n"]
  rw [← hout, dtopPollPeriodically, ← flatten_header]
  simp only [untilError_dtopPrintDpgNamesCsv h]
  by_cases ht : (prints fw [ascii "\"Time\","]).1 = FILE_ERROR
  · rw [if_pos ht, List.append_assoc]
    exact ⟨htime.cut (fun hne => hne rfl) _, .inl rfl⟩
  by_cases hn : (prints (prints fw [ascii "\"Time\","]).2 (nameTexts ts)).1 = FILE_ERROR
  · rw [if_neg ht, if_pos hn, ← List.append_assoc, List.append_assoc]
    exact ⟨((htime.mono fun _ => ht).append hnames).cut (fun hne => hne rfl) _, .inl rfl⟩
  have hheader := (htime.mono fun _ => ht).append ((hnames.mono fun _ => hn).append hend)
  by_cases he : (prints (prints (prints fw [ascii "\"Time\","]).2 (nameTexts ts)).2
      [ascii "\n"]).1 = FILE_ERROR
  · rw [if_neg ht, if_neg hn, if_pos he]
    exact ⟨hheader.cut (fun hne => hne rfl) _, .inl rfl⟩
  · rw [if_neg ht, if_neg hn, if_neg he]
    obtain ⟨hwrites, hends⟩ := @does_pollLoop ts vals rs
      { dpg_list := gs, fw := _, terminal := interactiveOpts } undef overflow poll_time
      (start.tv_sec + poll_time) quit h hread start.tv_sec
    rw [hp] at hwrites hends
    exact ⟨(hheader.mono fun _ => he).append hwrites, hends⟩

end Datatop

end Msm8909w
