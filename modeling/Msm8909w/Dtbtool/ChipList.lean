import Msm8909w.Lib.Bytes

/-!
# The chip list of `dtbtool.c`

`dtbTool` scans a directory of device tree blobs.  Each blob offers one or more id tuples
(`getChipInfo`), the first of which is the *master* of the others.  `chip_add` keeps the tuples in
a list sorted by chipset, platform, subtype and revision; a tuple that is already there is
refused.  A blob whose first tuple is refused is skipped as a whole (`scanFile`).

The list is modelled as a list, and a node's `master` by the position of its blob in the
directory.

* `chipAdd_eq_none_iff`, `mem_chipAdd` : on a sorted list `chip_add` is an exact set insertion,
* `scan_keeps` : the ids of the final list are those of the blobs that were not skipped,
* `scan_complete_iff` : when no id tuple is lost.
-/

namespace Msm8909w

namespace Dtbtool

/-- The ids of a `struct chipInfo_t`. -/
structure ChipId where
  chipset : UInt32
  platform : UInt32
  subtype : UInt32
  revNum : UInt32
  pmic0 : UInt32
  pmic1 : UInt32
  pmic2 : UInt32
  pmic3 : UInt32
  deriving DecidableEq, Repr

/-- A node of the chip list: its ids, and the blob it comes from. -/
structure ChipInfo where
  id : ChipId
  master : ℕ
  deriving DecidableEq, Repr

/-- The comparison of `chip_add`: chipset, platform, subtype and revision. -/
def ChipId.before (c x : ChipId) : Bool :=
  c.chipset < x.chipset ||
    (c.chipset == x.chipset &&
      (c.platform < x.platform ||
        (c.platform == x.platform &&
          (c.subtype < x.subtype || (c.subtype == x.subtype && c.revNum < x.revNum)))))

/-- `chip_add`: the list afterwards, or `none` for `RC_ERROR` (a duplicate). -/
def chipAdd (c : ChipInfo) : List ChipInfo → Option (List ChipInfo)
  | [] => some [c]
  | x :: xs =>
    if c.id.before x.id then some (c :: x :: xs)
    else if c.id = x.id then none
    else (chipAdd c xs).map (x :: ·)

/-- A directory entry, with what the tool finds out about it. -/
structure DirEntry where
  /-- `d_type == DT_REG`. -/
  regular : Bool
  /-- `d_name`. -/
  name : Bytes
  /-- The tuples `getChipInfo` returns, the master first; empty for `NULL`. -/
  chips : List ChipId
  /-- `st_size`; `none` when `stat` fails. -/
  size : Option ℕ
  /-- The bytes `fread` returns; `none` when `fopen` fails. -/
  content : Option Bytes
  deriving DecidableEq

/-- The entries the tool looks at: regular files with a name ending in `.dtb`. -/
def DirEntry.isDtb (f : DirEntry) : Bool :=
  f.regular && decide (4 < f.name.length) && f.name.drop (f.name.length - 4) == ascii ".dtb"

/-- The state of the scan: the chip list and `dtb_count`. -/
structure Scan where
  chipList : List ChipInfo
  dtbCount : ℕ
  deriving DecidableEq

/-- Add one tuple; a duplicate is skipped. -/
def Scan.addChip (master : ℕ) (s : Scan) (t : ChipId) : Scan :=
  match chipAdd ⟨t, master⟩ s.chipList with
  | none => s
  | some l => ⟨l, s.dtbCount + 1⟩

/-- One round of the directory loop of `main`. -/
def scanFile (s : Scan) (i : ℕ) (f : DirEntry) : Scan :=
  if !f.isDtb then s
  else match f.chips, f.size with
    | [], _ => s
    | _, none => s
    | _, some 0 => s
    | c :: ts, some (_ + 1) =>
      match chipAdd ⟨c, i⟩ s.chipList with
      | none => s
      | some l => ts.foldl (Scan.addChip i) ⟨l, s.dtbCount + 1⟩

/-- The directory loop, from the entry with position `i` on. -/
def scanFrom (s : Scan) : ℕ → List DirEntry → Scan
  | _, [] => s
  | i, f :: fs => scanFrom (scanFile s i f) (i + 1) fs

/-- The directory loop of `main`. -/
def scan (dir : List DirEntry) : Scan := scanFrom ⟨[], 0⟩ 0 dir

/-! ### The order of the list -/

/-- The four sort keys. -/
def ChipId.key (c : ChipId) : ℕ × ℕ × ℕ × ℕ :=
  (c.chipset.toNat, c.platform.toNat, c.subtype.toNat, c.revNum.toNat)

theorem ChipId.before_iff {c x : ChipId} : c.before x = true ↔
    c.key.1 < x.key.1 ∨ c.key.1 = x.key.1 ∧ (c.key.2.1 < x.key.2.1 ∨ c.key.2.1 = x.key.2.1 ∧
      (c.key.2.2.1 < x.key.2.2.1 ∨ c.key.2.2.1 = x.key.2.2.1 ∧ c.key.2.2.2 < x.key.2.2.2)) := by
  simp only [before, key, Bool.or_eq_true, Bool.and_eq_true, decide_eq_true_eq, beq_iff_eq,
    UInt32.lt_iff_toNat_lt, ← UInt32.toNat_inj]

/-- The list is sorted by the four keys. -/
def Sorted (l : List ChipInfo) : Prop := l.Pairwise fun x y => y.id.before x.id = false

theorem ChipId.before_trans_false {c x y : ChipId} (h : c.before x = true)
    (hy : y.before x = false) : c.before y = true := by
  rw [← Bool.not_eq_true, before_iff] at hy
  rw [before_iff] at h ⊢
  omega

theorem ChipId.before_irrefl (c : ChipId) : c.before c = false := by
  rw [← Bool.not_eq_true, before_iff]
  omega

theorem ChipId.before_asymm {c x : ChipId} (h : c.before x = true) : x.before c = false := by
  rw [before_iff] at h
  rw [← Bool.not_eq_true, before_iff]
  omega

/-! ### Insertion -/

section Insertion

variable {c : ChipInfo} {l l' : List ChipInfo}

/-- The nodes after an insertion. -/
theorem mem_chipAdd (h : chipAdd c l = some l') (x : ChipInfo) : x ∈ l' ↔ x = c ∨ x ∈ l := by
  induction l generalizing l' with
  | nil =>
    cases h
    simp
  | cons y ys ih =>
    rw [chipAdd] at h
    split_ifs at h with hb he
    · cases h
      simp
    · obtain ⟨l'', hl, rfl⟩ := Option.map_eq_some_iff.1 h
      rw [List.mem_cons, ih hl, List.mem_cons, or_left_comm]

theorem length_chipAdd (h : chipAdd c l = some l') : l'.length = l.length + 1 := by
  induction l generalizing l' with
  | nil =>
    cases h
    rfl
  | cons y ys ih =>
    rw [chipAdd] at h
    split_ifs at h with hb he
    · cases h
      rfl
    · obtain ⟨l'', hl, rfl⟩ := Option.map_eq_some_iff.1 h
      rw [List.length_cons, ih hl, List.length_cons]

theorem sorted_chipAdd (hs : Sorted l) (h : chipAdd c l = some l') : Sorted l' := by
  induction l generalizing l' with
  | nil =>
    cases h
    exact List.pairwise_cons.2 ⟨nofun, List.Pairwise.nil⟩
  | cons y ys ih =>
    obtain ⟨hy, hys⟩ := List.pairwise_cons.1 hs
    rw [chipAdd] at h
    split_ifs at h with hb he
    · cases h
      refine List.pairwise_cons.2 ⟨fun z hz => ?_, hs⟩
      rcases List.mem_cons.1 hz with rfl | hz
      · exact ChipId.before_asymm hb
      · exact ChipId.before_asymm (ChipId.before_trans_false hb (hy z hz))
    · obtain ⟨l'', hl, rfl⟩ := Option.map_eq_some_iff.1 h
      refine List.pairwise_cons.2 ⟨fun z hz => ?_, ih hys hl⟩
      rcases (mem_chipAdd hl z).1 hz with rfl | hz
      · exact Bool.not_eq_true _ ▸ hb
      · exact hy z hz

/-- On a sorted list exactly the tuples that are there already are refused: the scan may stop at
the first larger key because a duplicate cannot come after it. -/
theorem chipAdd_eq_none_iff (hs : Sorted l) : chipAdd c l = none ↔ ∃ x ∈ l, x.id = c.id := by
  induction l with
  | nil => simp [chipAdd]
  | cons y ys ih =>
    obtain ⟨hy, hys⟩ := List.pairwise_cons.1 hs
    rw [chipAdd]
    split_ifs with hb he
    · refine ⟨nofun, ?_⟩
      rintro ⟨x, hx, hid⟩
      rcases List.mem_cons.1 hx with rfl | hx
      · rw [hid, ChipId.before_irrefl] at hb
        cases hb
      · have hlater := hy x hx
        rw [hid, hb] at hlater
        cases hlater
    · exact ⟨fun _ => ⟨y, List.mem_cons_self, he.symm⟩, fun _ => rfl⟩
    · rw [Option.map_eq_none_iff, ih hys]
      constructor
      · rintro ⟨x, hx, hid⟩
        exact ⟨x, List.mem_cons_of_mem _ hx, hid⟩
      · rintro ⟨x, hx, hid⟩
        rcases List.mem_cons.1 hx with rfl | hx
        · exact absurd hid.symm he
        · exact ⟨x, hx, hid⟩

end Insertion

/-! ### The scan -/

/-- The ids on the chip list. -/
def Scan.ids (s : Scan) : List ChipId := s.chipList.map ChipInfo.id

/-- The blobs `main` tries to add: a `.dtb` file with the tags it needs and a size. -/
def DirEntry.usable (f : DirEntry) : Bool :=
  f.isDtb && !f.chips.isEmpty && f.size.getD 0 != 0

/-- What holds of the scan after some entries of the directory. -/
structure Scanned (dir : List DirEntry) (s : Scan) : Prop where
  count : s.dtbCount = s.chipList.length
  sorted : Sorted s.chipList
  nodup : s.ids.Nodup
  offered : ∀ x ∈ s.chipList, ∃ f, dir[x.master]? = some f ∧ f.usable = true ∧ x.id ∈ f.chips

section Scanning

variable {dir : List DirEntry} {s : Scan} {i : ℕ} {f : DirEntry}

theorem chipAdd_none_iff_mem {c : ChipInfo} (h : Sorted s.chipList) :
    chipAdd c s.chipList = none ↔ c.id ∈ s.ids := by
  rw [chipAdd_eq_none_iff h, Scan.ids, List.mem_map]

theorem mem_ids_chipAdd {c : ChipInfo} {l : List ChipInfo} (h : chipAdd c s.chipList = some l)
    {n : ℕ} (t : ChipId) : t ∈ (⟨l, n⟩ : Scan).ids ↔ t = c.id ∨ t ∈ s.ids := by
  simp only [Scan.ids, List.mem_map]
  constructor
  · rintro ⟨x, hx, rfl⟩
    rcases (mem_chipAdd h x).1 hx with rfl | hx
    · exact .inl rfl
    · exact .inr ⟨x, hx, rfl⟩
  · rintro (rfl | ⟨x, hx, rfl⟩)
    · exact ⟨c, (mem_chipAdd h c).2 (.inl rfl), rfl⟩
    · exact ⟨x, (mem_chipAdd h x).2 (.inr hx), rfl⟩

theorem nodup_chipAdd {c : ChipInfo} {l l' : List ChipInfo} (hs : Sorted l)
    (hn : (l.map ChipInfo.id).Nodup) (h : chipAdd c l = some l') :
    (l'.map ChipInfo.id).Nodup := by
  have hnew : c.id ∉ l.map ChipInfo.id := by
    rw [List.mem_map]
    intro hmem
    rw [(chipAdd_eq_none_iff hs).2 hmem] at h
    cases h
  clear hs
  induction l generalizing l' with
  | nil =>
    cases h
    exact List.nodup_cons.2 ⟨List.not_mem_nil, List.nodup_nil⟩
  | cons y ys ih =>
    rw [chipAdd] at h
    split_ifs at h with hb he
    · cases h
      exact List.nodup_cons.2 ⟨hnew, hn⟩
    · obtain ⟨l'', hl, rfl⟩ := Option.map_eq_some_iff.1 h
      rw [List.map_cons] at hn hnew ⊢
      obtain ⟨hy, hys⟩ := List.nodup_cons.1 hn
      refine List.nodup_cons.2 ⟨?_, ih hys hl fun hc => hnew (List.mem_cons_of_mem _ hc)⟩
      rw [List.mem_map]
      rintro ⟨z, hz, hid⟩
      rcases (mem_chipAdd hl z).1 hz with rfl | hz
      · exact hnew (hid ▸ List.mem_cons_self)
      · exact hy (List.mem_map.2 ⟨z, hz, hid⟩)

/-- An insertion keeps the invariant. -/
theorem Scanned.insert (h : Scanned dir s) (hf : dir[i]? = some f) (hu : f.usable = true)
    {t : ChipId} (ht : t ∈ f.chips) {l : List ChipInfo}
    (hadd : chipAdd ⟨t, i⟩ s.chipList = some l) : Scanned dir ⟨l, s.dtbCount + 1⟩ where
  count := by rw [length_chipAdd hadd, h.count]
  sorted := sorted_chipAdd h.sorted hadd
  nodup := nodup_chipAdd h.sorted h.nodup hadd
  offered := by
    intro x hx
    rcases (mem_chipAdd hadd x).1 hx with rfl | hx
    · exact ⟨f, hf, hu, ht⟩
    · exact h.offered x hx

theorem Scanned.addChip (h : Scanned dir s) (hf : dir[i]? = some f) (hu : f.usable = true)
    {t : ChipId} (ht : t ∈ f.chips) :
    Scanned dir (s.addChip i t) ∧ ∀ u, u ∈ (s.addChip i t).ids ↔ u = t ∨ u ∈ s.ids := by
  rw [Scan.addChip]
  cases hadd : chipAdd ⟨t, i⟩ s.chipList with
  | none =>
    refine ⟨h, fun u => ⟨.inr, ?_⟩⟩
    rintro (rfl | hu)
    · exact (chipAdd_none_iff_mem h.sorted).1 hadd
    · exact hu
  | some l => exact ⟨h.insert hf hu ht hadd, mem_ids_chipAdd hadd⟩

theorem Scanned.addChips (h : Scanned dir s) (hf : dir[i]? = some f) (hu : f.usable = true)
    {ts : List ChipId} (hts : ∀ t ∈ ts, t ∈ f.chips) :
    Scanned dir (ts.foldl (Scan.addChip i) s) ∧
      ∀ u, u ∈ (ts.foldl (Scan.addChip i) s).ids ↔ u ∈ ts ∨ u ∈ s.ids := by
  induction ts generalizing s with
  | nil => exact ⟨h, fun u => by simp⟩
  | cons t ts ih =>
    obtain ⟨h1, hids1⟩ := h.addChip hf hu (hts t List.mem_cons_self)
    obtain ⟨h2, hids2⟩ := ih h1 fun t' ht' => hts t' (List.mem_cons_of_mem _ ht')
    refine ⟨h2, fun u => ?_⟩
    rw [List.foldl_cons, hids2, hids1, List.mem_cons]
    tauto

/-- A usable blob whose first tuple is new is added tuple by tuple; any other one is skipped. -/
theorem scanFile_eq (s : Scan) (i : ℕ) (f : DirEntry) : scanFile s i f =
    if f.usable = true ∧ ∀ c ∈ f.chips.head?, chipAdd ⟨c, i⟩ s.chipList ≠ none then
      f.chips.foldl (Scan.addChip i) s
    else s := by
  unfold scanFile DirEntry.usable
  cases hd : f.isDtb with
  | false => simp
  | true =>
    cases hc : f.chips with
    | nil => simp
    | cons c ts =>
      cases hn : f.size with
      | none => simp
      | some n =>
        cases n with
        | zero => simp
        | succ n =>
          cases hadd : chipAdd ⟨c, i⟩ s.chipList with
          | none => simp [hadd]
          | some l => simp [hadd, Scan.addChip]

/-- A blob is added with all its tuples, unless it is not usable or its first tuple is already on
the list. -/
theorem Scanned.step (h : Scanned dir s) (hf : dir[i]? = some f) :
    Scanned dir (scanFile s i f) ∧
      ((f.usable = true ∧ ∀ c ∈ f.chips.head?, c ∉ s.ids) →
        ∀ u, u ∈ (scanFile s i f).ids ↔ u ∈ f.chips ∨ u ∈ s.ids) ∧
      (¬ (f.usable = true ∧ ∀ c ∈ f.chips.head?, c ∉ s.ids) → scanFile s i f = s) := by
  have heq := scanFile_eq s i f
  simp only [ne_eq, chipAdd_none_iff_mem h.sorted] at heq
  rw [heq]
  split_ifs with hcond
  · obtain ⟨hall, hids⟩ := h.addChips hf hcond.1 fun t ht => ht
    exact ⟨hall, fun _ => hids, fun hnot => absurd hcond hnot⟩
  · exact ⟨h, fun hpos => absurd hpos hcond, fun _ => rfl⟩

end Scanning

/-! ### Which blobs are kept -/

/-- The blobs that are not skipped: a usable blob is kept unless a kept blob before it offers its
first tuple. -/
def keptFrom (kept : List DirEntry) : List DirEntry → List DirEntry
  | [] => kept
  | f :: fs =>
    if f.usable = true ∧ ∀ c ∈ f.chips.head?, ∀ g ∈ kept, c ∉ g.chips then
      keptFrom (kept ++ [f]) fs
    else keptFrom kept fs

/-- The blobs of the directory that are not skipped. -/
def kept (dir : List DirEntry) : List DirEntry := keptFrom [] dir

/-- The entries of the directory from the position `i` on, after the first of them. -/
theorem rest_cons {dir fs : List DirEntry} {f : DirEntry} {i : ℕ}
    (h : ∀ j, (f :: fs)[j]? = dir[i + j]?) : dir[i]? = some f ∧ ∀ j, fs[j]? = dir[i + 1 + j]? := by
  constructor
  · have h0 := h 0
    rw [List.getElem?_cons_zero, Nat.add_zero] at h0
    exact h0.symm
  · intro j
    have hj := h (j + 1)
    rwa [List.getElem?_cons_succ, show i + (j + 1) = i + 1 + j by omega] at hj

theorem scanFrom_kept {dir : List DirEntry} {s : Scan} {i : ℕ} {fs kept : List DirEntry}
    (h : Scanned dir s) (hfs : ∀ j, fs[j]? = dir[i + j]?)
    (hk : ∀ u, u ∈ s.ids ↔ ∃ g ∈ kept, u ∈ g.chips) :
    Scanned dir (scanFrom s i fs) ∧
      ∀ u, u ∈ (scanFrom s i fs).ids ↔ ∃ g ∈ keptFrom kept fs, u ∈ g.chips := by
  induction fs generalizing s i kept with
  | nil => exact ⟨h, hk⟩
  | cons f fs ih =>
    obtain ⟨hf, hfs'⟩ := rest_cons hfs
    have hcond : (∀ c ∈ f.chips.head?, c ∉ s.ids) ↔
        ∀ c ∈ f.chips.head?, ∀ g ∈ kept, c ∉ g.chips := by
      simp only [hk, not_exists, not_and]
    obtain ⟨hstep, hnew, hskip⟩ := h.step hf
    rw [hcond] at hnew hskip
    rw [scanFrom, keptFrom]
    by_cases hkeep : f.usable = true ∧ ∀ c ∈ f.chips.head?, ∀ g ∈ kept, c ∉ g.chips
    · rw [if_pos hkeep]
      refine ih hstep hfs' fun u => ?_
      rw [hnew hkeep, hk]
      constructor
      · rintro (hu | ⟨g, hg, hu⟩)
        · exact ⟨f, List.mem_append_right _ List.mem_cons_self, hu⟩
        · exact ⟨g, List.mem_append_left _ hg, hu⟩
      · rintro ⟨g, hg, hu⟩
        rcases List.mem_append.1 hg with hg | hg
        · exact .inr ⟨g, hg, hu⟩
        · exact .inl (List.mem_singleton.1 hg ▸ hu)
    · rw [if_neg hkeep, hskip hkeep]
      exact ih h hfs' hk

theorem scanned_scan (dir : List DirEntry) : Scanned dir (scan dir) ∧
    ∀ u, u ∈ (scan dir).ids ↔ ∃ g ∈ kept dir, u ∈ g.chips := by
  refine scanFrom_kept ⟨rfl, List.Pairwise.nil, List.nodup_nil, nofun⟩ (fun j => ?_) fun u => ?_
  · rw [Nat.zero_add]
  · simp [Scan.ids]

/-- **When no tuple is lost.**  Every tuple of every usable blob is on the chip list exactly when
every tuple of a skipped blob is offered by a blob that was kept. -/
theorem scan_complete_iff (dir : List DirEntry) :
    (∀ f ∈ dir, f.usable = true → ∀ t ∈ f.chips, t ∈ (scan dir).ids) ↔
      ∀ f ∈ dir, f.usable = true → f ∉ kept dir → ∀ t ∈ f.chips, ∃ g ∈ kept dir, t ∈ g.chips := by
  have hids := (scanned_scan dir).2
  constructor
  · intro h f hf hu _ t ht
    exact (hids t).1 (h f hf hu t ht)
  · intro h f hf hu t ht
    rw [hids]
    by_cases hk : f ∈ kept dir
    · exact ⟨f, hk, ht⟩
    · exact h f hf hu hk t ht

/-- Two blobs of which the second shares its first tuple with the first one. -/
def overlapDir : List DirEntry :=
  [⟨true, ascii "a.dtb", [⟨206, 0, 0, 0, 0, 0, 0, 0⟩], some 4, some [1, 2, 3, 4]⟩,
    ⟨true, ascii "b.dtb", [⟨206, 0, 0, 0, 0, 0, 0, 0⟩, ⟨207, 0, 0, 0, 0, 0, 0, 0⟩], some 4,
      some [5, 6, 7, 8]⟩]

/-- The second tuple of the second blob is lost. -/
theorem scan_overlapDir_loses : ∃ f ∈ overlapDir, f.usable = true ∧
    (⟨207, 0, 0, 0, 0, 0, 0, 0⟩ : ChipId) ∈ f.chips ∧
    (⟨207, 0, 0, 0, 0, 0, 0, 0⟩ : ChipId) ∉ (scan overlapDir).ids := by
  decide

end Dtbtool

end Msm8909w
