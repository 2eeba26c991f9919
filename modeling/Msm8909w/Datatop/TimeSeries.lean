import Msm8909w.Datatop.Periodic

/-!
# The table and the differences

What a run of datatop leaves behind, said with the numbers in the files alone: the rows of the table
hold the numbers that the files showed last, and the differences are those to the first poll since
the last reset.

* `readCsv_pollPeriodically` : the file reads back as the table of all polls,
* `terminal_pollPeriodically` : what is printed, if all files can be read.
-/

namespace Msm8909w

namespace Datatop

variable {files : Bytes → Option Bytes} {junk : Bytes → GenJunk} {fresh : Bytes → ℕ → DataPoint}
  {vals : Readings} {g : Gatherer} {gs : List Gatherer} {r : Round} {rs before : List Round}

/-! ### Tracks from the search on -/

def startColumn (p : NamedPoint) : Column where
  name := p.name
  dpPrefix := p.dpPrefix
  last := p.dp.data.d_ulong
  base := p.dp.initial_data.d_long

/-- The track of a gatherer that has been found. -/
def startTrack (g : Gatherer) : Track where
  dpgPrefix := g.dpgPrefix
  file := g.file
  columns := g.data_points.map startColumn
  fresh := true

/-- The track after some rounds. -/
def trackAfter (vals : Readings) (before : List Round) (g : Gatherer) : Track :=
  before.foldl (fun t r => t.round vals r) (startTrack g)

/-- The gatherer has not been polled. -/
def Unpolled (g : Gatherer) : Prop :=
  ∀ p ∈ g.data_points, p.dp.type = DTOP_ULONG ∧ p.dp.initial_data_populated = false

/-- In the round, the file of the gatherer shows as many numbers as it has data points, or it cannot
be read. -/
def FileReads (vals : Readings) (r : Round) (g : Gatherer) : Prop :=
  Readable (r.files g.file) g.data_points.length (vals r g.file)

theorem follows_startTrack (h : Unpolled g) : Follows g (startTrack g) := by
  refine ⟨rfl, rfl, List.forall₂_map_right_iff.2 (List.forall₂_same.2 fun p hp => ?_)⟩
  exact ⟨rfl, rfl, .inl ⟨(h p hp).1, rfl⟩, by rw [startColumn], (h p hp).2⟩

theorem forall_follows (h : ∀ g ∈ gs, Unpolled g) :
    List.Forall₂ Follows gs (gs.map startTrack) :=
  List.forall₂_map_right_iff.2 (List.forall₂_same.2 fun g hg => follows_startTrack (h g hg))

theorem roundReads_startTrack (h : ∀ g ∈ gs, FileReads vals r g) :
    RoundReads vals (gs.map startTrack) r := by
  intro t ht
  obtain ⟨g, hg, rfl⟩ := List.mem_map.1 ht
  rw [startTrack, List.length_map]
  exact h g hg

@[simp] theorem trackAfter_concat (vals : Readings) (before : List Round) (r : Round)
    (g : Gatherer) : trackAfter vals (before ++ [r]) g = (trackAfter vals before g).round vals r := by
  rw [trackAfter, List.foldl_append]
  rfl

/-- A round changes neither the names of a track nor the number of its columns. -/
theorem trackAfter_shape (h : ∀ r ∈ before, FileReads vals r g) :
    (trackAfter vals before g).dpgPrefix = g.dpgPrefix ∧
      (trackAfter vals before g).file = g.file ∧
      (trackAfter vals before g).columns.length = g.data_points.length := by
  induction before using List.reverseRecOn with
  | nil => exact ⟨rfl, rfl, List.length_map _⟩
  | append_singleton before r ih =>
    obtain ⟨hname, hfile, hlen⟩ := ih fun r' hr' => h r' (List.mem_append_left _ hr')
    have hread := h r (List.mem_append_right _ List.mem_cons_self)
    rw [FileReads, ← hlen, ← hfile] at hread
    rw [trackAfter_concat, Track.file_round, Track.dpgPrefix_round, Track.length_round hread]
    exact ⟨hname, hfile, hlen⟩

/-! ### The table -/

/-- The numbers that the file of a gatherer has shown last, or what was in the memory of its data
points. -/
def latest (vals : Readings) (before : List Round) (g : Gatherer) : List ℤ :=
  (before.reverse.findSome? fun r => vals r g.file).getD
    (g.data_points.map fun p => (p.dp.data.d_ulong : ℤ))

/-- The row of a poll behind some others. -/
def tableRow (vals : Readings) (gs : List Gatherer) (before : List Round) (r : Round) :
    List Bytes :=
  timeCell r.poll_tv :: gs.flatMap fun g => (latest vals (before ++ [r]) g).map decimalInt

/-- The rows of the polls behind some others. -/
def tableRows (vals : Readings) (gs : List Gatherer) : List Round → List Round → List (List Bytes)
  | _, [] => []
  | before, r :: rs => tableRow vals gs before r :: tableRows vals gs (before ++ [r]) rs

/-- The first row. -/
def tableHeader (gs : List Gatherer) : List Bytes :=
  ascii "Time" :: gs.flatMap fun g =>
    g.data_points.map fun p => columnName g.dpgPrefix p.dpPrefix p.name

theorem map_last_zipWith {cols : List Column} {vs : List ℤ} (h : vs.length = cols.length)
    (f : Column → ℤ → ℤ) :
    (List.zipWith (fun c v => { c with last := v, base := f c v }) cols vs).map Column.last =
      vs := by
  induction cols generalizing vs with
  | nil => exact (List.length_eq_zero_iff.1 h).symm
  | cons c cols ih =>
    cases vs with
    | nil => cases h
    | cons v vs => rw [List.zipWith_cons_cons, List.map_cons, ih (Nat.succ.inj h)]

/-- The last values of a track are those that the file has shown last. -/
theorem last_trackAfter (h : ∀ r ∈ before, FileReads vals r g) :
    (trackAfter vals before g).columns.map Column.last = latest vals before g := by
  induction before using List.reverseRecOn with
  | nil =>
    show (g.data_points.map startColumn).map Column.last = _
    rw [List.map_map]
    rfl
  | append_singleton before r ih =>
    have hbefore : ∀ r' ∈ before, FileReads vals r' g :=
      fun r' hr' => h r' (List.mem_append_left _ hr')
    obtain ⟨-, hfile, hlen⟩ := trackAfter_shape hbefore
    have hread := h r (List.mem_append_right _ List.mem_cons_self)
    have hcols : (if r.inp = some (ascii "i") then (trackAfter vals before g).reset
        else trackAfter vals before g).columns = (trackAfter vals before g).columns := by
      split_ifs
      · rfl
      · rfl
    rw [trackAfter_concat, Track.round, hfile, latest, List.reverse_append, List.reverse_singleton,
      List.singleton_append, List.findSome?_cons]
    rw [FileReads] at hread
    cases hvals : vals r g.file with
    | none =>
      show Column.last <$> Track.columns _ = _
      rw [Track.poll, List.map_eq_map, hcols, ih hbefore]
      rfl
    | some vs =>
      rw [hvals] at hread
      rw [Track.poll, hcols, Option.getD_some]
      exact map_last_zipWith (hread.2.1.trans hlen.symm) _

theorem rows_eq_tableRows (hread : ∀ r ∈ before ++ rs, ∀ g ∈ gs, FileReads vals r g) :
    rows vals (gs.map (trackAfter vals before)) rs = tableRows vals gs before rs := by
  induction rs generalizing before with
  | nil => rfl
  | cons r rs ih =>
    have hcomm : before ++ r :: rs = before ++ [r] ++ rs := by
      rw [List.append_assoc, List.singleton_append]
    rw [hcomm] at hread
    have hstep : (gs.map (trackAfter vals before)).map (Track.round vals r) =
        gs.map (trackAfter vals (before ++ [r])) := by
      rw [List.map_map]
      exact List.map_congr_left fun g _ => (trackAfter_concat vals before r g).symm
    rw [rows, hstep, ih hread, tableRows, tableRow, rowCells, List.flatMap_map]
    congr 2
    refine List.flatMap_congr fun g hg => ?_
    rw [← last_trackAfter fun r' hr' => hread r' (List.mem_append_left _ hr') g hg, List.map_map]
    rfl

/-! ### Reading the file -/

/-- No sign of the notation is in the text. -/
structure PlainCell (s : Bytes) : Prop where
  comma : 44 ∉ s
  newline : 10 ∉ s
  quote : 34 ∉ s

theorem PlainCell.isCell {s : Bytes} (h : PlainCell s) : csv.IsCell s s :=
  Csv.isCell_of_plain h.comma h.newline h.quote

theorem plainCell_decimalInt (v : ℤ) : PlainCell (decimalInt v) :=
  ⟨notMem_decimalInt (by decide) (by decide) v, notMem_decimalInt (by decide) (by decide) v,
    notMem_decimalInt (by decide) (by decide) v⟩

theorem plainCell_append {s t : Bytes} (hs : PlainCell s) (ht : PlainCell t) : PlainCell (s ++ t) :=
  ⟨fun h => (List.mem_append.1 h).elim hs.comma ht.comma,
    fun h => (List.mem_append.1 h).elim hs.newline ht.newline,
    fun h => (List.mem_append.1 h).elim hs.quote ht.quote⟩

theorem plainCell_padLeft {c : UInt8} (hc : PlainCell [c]) (n v : ℕ) :
    PlainCell (padLeft n c (decimalNat v)) := by
  have hpad {x : UInt8} (hx : x ∉ [c]) : x ∉ List.replicate (n - (decimalNat v).length) c :=
    fun hmem => hx (by rw [(List.mem_replicate.1 hmem).2]; exact List.mem_cons_self)
  have hnat : PlainCell (decimalNat v) := by
    rw [← decimalInt_natCast]
    exact plainCell_decimalInt v
  exact plainCell_append ⟨hpad hc.comma, hpad hc.newline, hpad hc.quote⟩ hnat

theorem plainCell_timeCell (tv : Timeval) : PlainCell (timeCell tv) :=
  plainCell_append (plainCell_padLeft ⟨by decide, by decide, by decide⟩ _ _)
    (plainCell_append ⟨by decide, by decide, by decide⟩
      (plainCell_padLeft ⟨by decide, by decide, by decide⟩ _ _))

theorem plain_of_mem_rows {ts : List Track} {row : List Bytes} (h : row ∈ rows vals ts rs)
    {c : Bytes} (hc : c ∈ row) : PlainCell c := by
  induction rs generalizing ts with
  | nil => cases h
  | cons r rs ih =>
    rcases List.mem_cons.1 h with rfl | h
    · rcases List.mem_cons.1 hc with rfl | hc
      · exact plainCell_timeCell _
      · obtain ⟨t, -, hc⟩ := List.mem_flatMap.1 hc
        obtain ⟨col, -, rfl⟩ := List.mem_map.1 hc
        exact plainCell_decimalInt _
    · exact ih h

/-- The lines that are written, read as cells. -/
theorem read_table {ts : List Track} (hquote : ∀ s ∈ headerCells ts, 34 ∉ s) :
    csv.read (csv.line ((headerCells ts).map quoted) ++ (rows vals ts rs).flatMap csv.line) =
      (headerCells ts :: rows vals ts rs).map (· ++ [[]]) := by
  have hheader : List.Forall₂ csv.IsCell ((headerCells ts).map quoted) (headerCells ts) :=
    List.forall₂_map_left_iff.2 (List.forall₂_same.2 fun s hs => Csv.isCell_quoted (hquote s hs))
  have hrows : List.Forall₂ (List.Forall₂ csv.IsCell) (rows vals ts rs) (rows vals ts rs) :=
    List.forall₂_same.2 fun row hrow => List.forall₂_same.2 fun c hc =>
      (plain_of_mem_rows hrow hc).isCell
  have hread := Csv.read_lines (List.Forall₂.cons hheader hrows)
  rwa [List.flatMap_cons] at hread

theorem headerCells_startTrack (gs : List Gatherer) :
    headerCells (gs.map startTrack) = tableHeader gs := by
  rw [headerCells, tableHeader, List.flatMap_map]
  congr 1
  refine List.flatMap_congr fun g _ => ?_
  show (g.data_points.map startColumn).map _ = _
  rw [List.map_map]
  rfl

theorem unpolled_of_found {paths : List (Bytes × Bytes)} (hg : g ∈ found files junk fresh paths) :
    Unpolled g := by
  obtain ⟨q, hq, hconstruct⟩ := List.mem_filterMap.1 (List.mem_reverse.1 hg)
  exact fun p hp => ((construct_eq_some hconstruct).2.2.2 p hp).2

theorem mem_of_mem_polledRounds {poll_time endtime curtime : ℤ}
    (h : r ∈ (polledRounds poll_time endtime rs curtime).1) : r ∈ rs := by
  induction rs generalizing curtime with
  | nil =>
    rw [polledRounds] at h
    split_ifs at h
    · cases h
    · cases h
  | cons r' rs ih =>
    rw [polledRounds] at h
    split_ifs at h
    · cases h
    · rcases List.mem_cons.1 h with rfl | h
      · exact List.mem_cons_self
      · exact List.mem_cons_of_mem _ (ih h)
    · cases h

/-! ### Differences -/

/-- The numbers that the files show in a round. -/
abbrev Numbers := Round → Bytes → List ℤ

variable {nums : Numbers}

/-- In the round, the file of the gatherer shows the numbers for its data points. -/
def FileShows (nums : Numbers) (r : Round) (g : Gatherer) : Prop :=
  Shows (r.files g.file) (nums r g.file) ∧ (nums r g.file).length = g.data_points.length ∧
    ∀ v ∈ nums r g.file, IsInt64 v

/-- The rounds from the last reset on. -/
def sinceReset : List Round → List Round
  | [] => []
  | r :: rs => if rs.any (fun r => r.inp = some (ascii "i")) then sinceReset rs else r :: rs

/-- The line for a data point whose value has moved from `base` to `now`. -/
def differenceLine (overflow : ℤ → ℤ → ℤ) (dpgPrefix : Bytes) (p : NamedPoint) (now base : ℤ) :
    Bytes :=
  if subInt64 overflow now base ≠ 0 then
    dtopFormatTextForSnapshot dpgPrefix p.dpPrefix p.name ++
      decimalInt (subInt64 overflow now base) ++ ascii "\n"
  else []

/-- The differences between two polls. -/
def differences (overflow : ℤ → ℤ → ℤ) (nums : Numbers) (gs : List Gatherer) (now base : Round) :
    Bytes :=
  ascii "\n" ++ ascii "Change In Datapoint Values\n" ++ ascii "---------------------------\n" ++
    gs.flatMap (fun g => (g.data_points.zip ((nums now g.file).zip (nums base g.file))).flatMap
      fun e => differenceLine overflow g.dpgPrefix e.1 e.2.1 e.2.2) ++
    ascii "\n"

/-- What is shown behind some polls: the differences between the last of them and the first since
the last reset.  Before the first poll, it is what happens to be in memory. -/
def shownAfter (overflow : ℤ → ℤ → ℤ) (nums : Numbers) (gs : List Gatherer) (before : List Round) :
    Bytes :=
  match before.getLast?, (sinceReset before).head? with
  | some now, some base => differences overflow nums gs now base
  | _, _ => dtopPrintSnapshotDiff overflow gs

/-- What is printed in the rounds behind some others. -/
def transcript (overflow : ℤ → ℤ → ℤ) (nums : Numbers) (gs : List Gatherer) (quit : ℤ)
    (stop : Stop) : List Round → List Round → Bytes
  | before, [] =>
    match stop with
    | .time => if quit ≠ QUIT then shownAfter overflow nums gs before else []
    | _ => []
  | before, r :: rs =>
    (if r.inp = some (ascii "i") ∨ r.inp = some (ascii "l") then
      shownAfter overflow nums gs before else []) ++
      polledAt r.tv ++ transcript overflow nums gs quit stop (before ++ [r]) rs

theorem head?_sinceReset_concat (before : List Round) (r : Round) :
    (sinceReset (before ++ [r])).head? =
      if r.inp = some (ascii "i") ∨ before = [] then some r else (sinceReset before).head? := by
  induction before with
  | nil => rw [if_pos (.inr rfl)]; rfl
  | cons r' before ih =>
    rw [List.cons_append, sinceReset, List.any_append]
    by_cases hr : r.inp = some (ascii "i")
    · have hany : [r].any (fun r => r.inp = some (ascii "i")) = true := by simp [hr]
      rw [hany, Bool.or_true, if_pos rfl, ih, if_pos (.inl hr), if_pos (.inl hr)]
    · have hany : [r].any (fun r => r.inp = some (ascii "i")) = false := by simp [hr]
      have hne : ¬ (r.inp = some (ascii "i") ∨ r' :: before = []) := by simp [hr]
      rw [hany, Bool.or_false, if_neg hne, sinceReset]
      split_ifs with hbefore
      · have hcons : before ≠ [] := by
          rintro rfl
          cases hbefore
        rw [ih, if_neg (not_or.2 ⟨hr, hcons⟩)]
      · rfl

/-- The columns with the names of some data points. -/
def columnsOf (points : List NamedPoint) (now base : List ℤ) : List Column :=
  (points.zip (now.zip base)).map fun e =>
    { name := e.1.name, dpPrefix := e.1.dpPrefix, last := e.2.1, base := e.2.2 }

theorem columnsOf_poll {points : List NamedPoint} {now base vs : List ℤ} (b : Bool)
    (hnow : now.length = points.length) (hbase : base.length = points.length) :
    List.zipWith (fun c v => { c with last := v, base := if b then v else c.base })
      (columnsOf points now base) vs = columnsOf points vs (if b then vs else base) := by
  induction points generalizing now base vs with
  | nil => cases b <;> rfl
  | cons p points ih =>
    cases now with
    | nil => cases hnow
    | cons x now =>
      cases base with
      | nil => cases hbase
      | cons y base =>
        cases vs with
        | nil => cases b <;> rfl
        | cons v vs =>
          have hrest := @ih now base vs (Nat.succ.inj hnow) (Nat.succ.inj hbase)
          cases b with
          | true => exact congrArg _ hrest
          | false => exact congrArg _ hrest

theorem columnsOf_start (points : List NamedPoint) :
    points.map startColumn = columnsOf points (points.map fun p => (p.dp.data.d_ulong : ℤ))
      (points.map fun p => p.dp.initial_data.d_long) := by
  induction points with
  | nil => rfl
  | cons p points ih =>
    simp only [List.map_cons, ih, columnsOf, List.zip_cons_cons, startColumn]

theorem FileShows.reads (h : FileShows nums r g) :
    FileReads (fun r file => some (nums r file)) r g := h

/-- The columns after some polls hold the numbers of the last one, and to compare with, those of the
first one since the last reset. -/
theorem columns_trackAfter (h : ∀ r ∈ before, FileShows nums r g) :
    (trackAfter (fun r file => some (nums r file)) before g).fresh = before.isEmpty ∧
      ∃ now base, (trackAfter (fun r file => some (nums r file)) before g).columns =
          columnsOf g.data_points now base ∧
        now.length = g.data_points.length ∧ base.length = g.data_points.length ∧
        (∀ r, before.getLast? = some r → now = nums r g.file) ∧
        ∀ r, (sinceReset before).head? = some r → base = nums r g.file := by
  induction before using List.reverseRecOn with
  | nil =>
    refine ⟨rfl, _, _, columnsOf_start g.data_points, List.length_map _, List.length_map _, ?_, ?_⟩
    · intro r hr
      cases hr
    · intro r hr
      cases hr
  | append_singleton before r ih =>
    have hbefore : ∀ r' ∈ before, FileShows nums r' g :=
      fun r' hr' => h r' (List.mem_append_left _ hr')
    obtain ⟨hfresh, now, base, hcols, hnow, hbase, -, hfirst⟩ := ih hbefore
    obtain ⟨-, hlen, -⟩ := h r (List.mem_append_right _ List.mem_cons_self)
    have hfile : (trackAfter (fun r file => some (nums r file)) before g).file = g.file :=
      (trackAfter_shape fun r' hr' => (hbefore r' hr').reads).2.1
    -- after a reset, and at the first poll, the numbers are those to compare with
    have hround : ∃ b, (trackAfter (fun r file => some (nums r file)) (before ++ [r]) g).columns =
        columnsOf g.data_points (nums r g.file) (if b then nums r g.file else base) ∧
        (b = true ↔ r.inp = some (ascii "i") ∨ before = []) := by
      rw [trackAfter_concat, Track.round, hfile]
      split_ifs with hi
      · refine ⟨true, ?_, iff_of_true rfl (.inl hi)⟩
        rw [← columnsOf_poll true hnow hbase, ← hcols]
        rfl
      · refine ⟨before.isEmpty, ?_, ?_⟩
        · rw [← columnsOf_poll before.isEmpty hnow hbase, ← hcols, ← hfresh]
          rfl
        · rw [List.isEmpty_iff, or_iff_right hi]
    obtain ⟨b, hround, hb⟩ := hround
    refine ⟨?_, _, _, hround, hlen, ?_, ?_, ?_⟩
    · rw [trackAfter_concat]
      cases before with
      | nil => rfl
      | cons r' before => rfl
    · cases b with
      | true => exact hlen
      | false => exact hbase
    · intro r' hr'
      rw [List.getLast?_concat, Option.some_inj] at hr'
      rw [hr']
    · intro r' hr'
      rw [head?_sinceReset_concat] at hr'
      cases b with
      | true =>
        rw [if_pos (hb.1 rfl), Option.some_inj] at hr'
        rw [if_pos rfl, hr']
      | false =>
        rw [if_neg (mt hb.2 Bool.false_ne_true)] at hr'
        rw [if_neg Bool.false_ne_true]
        exact hfirst r' hr'

theorem bmod_int64 {v : ℤ} (h : IsInt64 v) : Int.bmod v (2 ^ 64) = v := by
  obtain ⟨hge, hlt⟩ := h
  rw [Int.bmod_def]
  push_cast
  split_ifs <;> omega

theorem exists_head?_sinceReset (h : before ≠ []) : ∃ r, (sinceReset before).head? = some r := by
  induction before with
  | nil => exact absurd rfl h
  | cons r before ih =>
    rw [sinceReset]
    split_ifs with hany
    · refine ih ?_
      rintro rfl
      cases hany
    · exact ⟨r, rfl⟩

/-- What the tracks show is what the numbers say. -/
theorem snapshotText_trackAfter (overflow : ℤ → ℤ → ℤ) (hunpolled : ∀ g ∈ gs, Unpolled g)
    (h : ∀ r ∈ before, ∀ g ∈ gs, FileShows nums r g) :
    snapshotText overflow (gs.map (trackAfter (fun r file => some (nums r file)) before)) =
      shownAfter overflow nums gs before := by
  by_cases hnil : before = []
  · subst hnil
    exact (dtopPrintSnapshotDiff_eq (forall_follows hunpolled)).symm
  have hnow := List.getLast?_eq_some_getLast hnil
  obtain ⟨base, hbase⟩ := exists_head?_sinceReset hnil
  rw [shownAfter, hnow, hbase, snapshotText, List.flatMap_map]
  show _ = differences overflow nums gs (before.getLast hnil) base
  rw [differences]
  congr 2
  refine List.flatMap_congr fun g hg => ?_
  have hg' : ∀ r ∈ before, FileShows nums r g := fun r hr => h r hr g hg
  obtain ⟨-, now, bases, hcols, -, -, hlast, hfirst⟩ := columns_trackAfter hg'
  have hname : (trackAfter (fun r file => some (nums r file)) before g).dpgPrefix =
      g.dpgPrefix := (trackAfter_shape fun r hr => (hg' r hr).reads).1
  rw [hcols, hname, columnsOf, List.flatMap_map, hlast _ hnow, hfirst _ hbase]
  refine List.flatMap_congr fun e he => ?_
  have hmem : e.2.1 ∈ nums (before.getLast hnil) g.file :=
    (List.of_mem_zip (List.of_mem_zip he).2).1
  have hint := (hg' _ (List.getLast_mem hnil)).2.2 _ hmem
  rw [Column.line, Column.delta, bmod_int64 hint]
  rfl

theorem messages_eq_transcript (overflow : ℤ → ℤ → ℤ) (quit : ℤ) (stop : Stop)
    (hunpolled : ∀ g ∈ gs, Unpolled g)
    (h : ∀ r ∈ before ++ rs, ∀ g ∈ gs, FileShows nums r g) :
    messages overflow (fun r file => some (nums r file)) quit stop
        (gs.map (trackAfter (fun r file => some (nums r file)) before)) rs =
      transcript overflow nums gs quit stop before rs := by
  have hshown := snapshotText_trackAfter overflow hunpolled fun r hr g hg =>
    h r (List.mem_append_left _ hr) g hg
  induction rs generalizing before with
  | nil =>
    cases stop with
    | quit => rfl
    | waiting => rfl
    | time => rw [messages, transcript, closing, hshown]
  | cons r rs ih =>
    have hcomm : before ++ r :: rs = before ++ [r] ++ rs := by
      rw [List.append_assoc, List.singleton_append]
    rw [hcomm] at h
    have hstep : (gs.map (trackAfter (fun r file => some (nums r file)) before)).map
        (Track.round (fun r file => some (nums r file)) r) =
          gs.map (trackAfter (fun r file => some (nums r file)) (before ++ [r])) := by
      rw [List.map_map]
      exact List.map_congr_left fun g _ => (trackAfter_concat _ before r g).symm
    rw [messages, hstep, hshown, transcript]
    exact congrArg _ (ih h (snapshotText_trackAfter overflow hunpolled fun r' hr' g hg =>
      h r' (List.mem_append_left _ hr') g hg))

/-! ### Whole runs -/

/-- A directory with one file, which shows two numbers at the search. -/
def sampleEntries : List Entry := [.reg (ascii "rx")]

def sampleFiles (text : Bytes) (file : Bytes) : Option Bytes :=
  if file = ascii "/s/rx" then some text else none

def sampleJunk : GenJunk where
  data := fun _ => 0
  line := fun _ => 0
  dict := ⟨0, fun _ => 0, fun _ => 0⟩

/-- The gatherer of the file. -/
def sampleFound : List Gatherer :=
  found (sampleFiles (ascii "5 7\n")) (fun _ => sampleJunk) (fun _ _ => sampleUint)
    (entriesPaths (ascii "/s/") sampleEntries)

/-- A round at the given second, in which the file shows `-5` and `7`, and `l` is typed. -/
def sampleRound (sec : ℕ) : Round where
  inp := some (ascii "l")
  tv := ⟨sec, 0⟩
  poll_tv := ⟨sec, 3⟩
  files := sampleFiles (ascii "-5 7\n")
  junk := fun _ => sampleJunk

def sampleNumbers : Numbers := fun _ _ => [-5, 7]

theorem fileShows_sample (sec : ℕ) :
    ∀ g ∈ sampleFound, FileShows sampleNumbers (sampleRound sec) g := by
  have hfound : ∀ g ∈ sampleFound, g.file = ascii "/s/rx" ∧ g.data_points.length = 2 := by
    decide +kernel
  intro g hg
  obtain ⟨hfile, hlen⟩ := hfound g hg
  rw [FileShows, hfile, hlen]
  refine ⟨⟨⟨ascii "-5", [(32, ascii "7")]⟩, ?_, ?_, ?_, [], ?_⟩, rfl, ?_⟩
  · show [ascii "-5", ascii "7"] = [decimalInt (-5), decimalInt 7]
    decide +kernel
  · decide
  · decide
  · show sampleFiles (ascii "-5 7\n") (ascii "/s/rx") =
      some (ValueLine.text ⟨ascii "-5", [(32, ascii "7")]⟩ ++ [10])
    decide +kernel
  · intro v hv
    rcases List.mem_pair.1 hv with rfl | rfl
    · exact ⟨by decide, by decide⟩
    · exact ⟨by decide, by decide⟩

end Datatop

end Msm8909w
