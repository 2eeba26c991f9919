import Msm8909w.Dtbtool.Image

/-!
# The order of the table

`dtbtool.txt` promises a table sorted by platform, variant, subtype, soc revision and the four pmic
models.  `chip_add` compares the first four of these only, and puts a tuple behind those with the
same four keys, so these stay in the order in which the scan met them.

* `filter_scan` : for each key, the tuples of the list are those that arrived, in that order,
* `entryIds_image` : an entry of the table carries the eight ids of its node,
* `table_sorted_iff` : the table is sorted as documented exactly if tuples that differ in the pmic
  models only arrive in their order.
-/

namespace Msm8909w

namespace Dtbtool

/-- The eight ids of a table entry, in the order of the documentation. -/
def ChipId.fields (c : ChipId) : List ℕ :=
  [c.chipset.toNat, c.platform.toNat, c.subtype.toNat, c.revNum.toNat, c.pmic0.toNat, c.pmic1.toNat,
    c.pmic2.toNat, c.pmic3.toNat]

/-- The pmic models, which `chip_add` does not compare. -/
def ChipId.pmics (c : ChipId) : List ℕ :=
  [c.pmic0.toNat, c.pmic1.toNat, c.pmic2.toNat, c.pmic3.toNat]

/-- The ids in the table entry with index `i`. -/
def entryIds (image : Bytes) (i : ℕ) : List ℕ :=
  (List.range 8).map fun k => ofLE (slice image (12 + 40 * i + 4 * k) 4)

/-- The tuples of the blobs that are not skipped, each once, in the order in which the scan meets
them. -/
def arrivals (dir : List DirEntry) : List ChipId := firsts [] ((kept dir).flatMap DirEntry.chips)

/-! ### Tuples with the same key -/

section Order

variable {c x : ChipId}

/-- The lexicographic order of the eight ids. -/
theorem ChipId.fields_lt_iff :
    c.fields < x.fields ↔ c.before x = true ∨ c.key = x.key ∧ c.pmics < x.pmics := by
  rw [before_iff]
  simp only [fields, pmics, key, List.cons_lt_cons_iff, Prod.mk.injEq]
  tauto

theorem ChipId.key_ne_of_before (h : c.before x = true) : c.key ≠ x.key := by
  intro hk
  rw [before_iff, hk] at h
  omega

theorem ChipId.key_eq_of_not_before (h : c.before x = false) (h' : x.before c = false) :
    c.key = x.key := by
  rw [← Bool.not_eq_true, before_iff] at h h'
  refine Prod.ext ?_ (Prod.ext ?_ (Prod.ext ?_ ?_)) <;> omega

/-- Insertion is stable: a tuple comes behind those with its key. -/
theorem filter_chipAdd {a : ChipInfo} {l l' : List ChipInfo} (hs : Sorted l)
    (h : chipAdd a l = some l') (k : ℕ × ℕ × ℕ × ℕ) :
    (l'.map ChipInfo.id).filter (fun t => t.key = k) =
      (l.map ChipInfo.id ++ [a.id]).filter fun t => t.key = k := by
  induction l generalizing l' with
  | nil =>
    cases h
    rfl
  | cons y ys ih =>
    obtain ⟨hy, hys⟩ := List.pairwise_cons.1 hs
    rw [chipAdd] at h
    split_ifs at h with hb he
    · -- all keys of the list are larger
      cases h
      rw [List.map_cons, List.filter_cons, List.filter_append]
      by_cases hk : a.id.key = k
      · have hnone : ((y :: ys).map ChipInfo.id).filter (fun t => t.key = k) = [] := by
          rw [List.filter_eq_nil_iff]
          intro t ht
          obtain ⟨z, hz, rfl⟩ := List.mem_map.1 ht
          have hbz : a.id.before z.id = true := by
            rcases List.mem_cons.1 hz with rfl | hz
            · exact hb
            · exact ChipId.before_trans_false hb (hy z hz)
          rw [decide_eq_true_eq, ← hk]
          exact (ChipId.key_ne_of_before hbz).symm
        rw [hnone, List.nil_append, List.filter_singleton, hk]
        simp
      · simp [hk]
    · obtain ⟨l'', hl, rfl⟩ := Option.map_eq_some_iff.1 h
      rw [List.map_cons, List.map_cons, List.cons_append, List.filter_cons, List.filter_cons,
        ih hys hl]

/-- A relation between members with the same key, key by key. -/
theorem pairwise_iff_filter {α κ : Type*} [DecidableEq κ] {f : α → κ} {r : α → α → Prop}
    {l : List α} : l.Pairwise (fun a b => f a = f b → r a b) ↔
      ∀ k, (l.filter fun a => f a = k).Pairwise r := by
  constructor
  · intro h k
    rw [List.pairwise_filter]
    refine h.imp fun hab ha hb => hab ?_
    rw [of_decide_eq_true ha, of_decide_eq_true hb]
  · intro h
    induction l with
    | nil => exact List.Pairwise.nil
    | cons a l ih =>
      refine List.pairwise_cons.2 ⟨fun b hb hab => ?_, ih fun k => ?_⟩
      · have ha := h (f a)
        rw [List.filter_cons, if_pos (by simp)] at ha
        exact (List.pairwise_cons.1 ha).1 b (List.mem_filter.2 ⟨hb, by simp [hab]⟩)
      · have hk := h k
        rw [List.filter_cons] at hk
        split_ifs at hk with ha
        · exact (List.pairwise_cons.1 hk).2
        · exact hk

end Order

/-! ### The scan -/

section Scan

variable {dir : List DirEntry} {s : Scan} {i : ℕ} {f : DirEntry} {seen : List ChipId}

/-- For each key, the list has the tuples `seen`, in their order. -/
def SameOrder (s : Scan) (seen : List ChipId) : Prop :=
  ∀ k, (s.ids.filter fun t => t.key = k) = seen.filter fun t => t.key = k

theorem SameOrder.mem_iff (h : SameOrder s seen) (t : ChipId) : t ∈ s.ids ↔ t ∈ seen := by
  have hk := h t.key
  have hmem : ∀ l : List ChipId, t ∈ l ↔ t ∈ l.filter fun u => u.key = t.key := by
    intro l
    rw [List.mem_filter, decide_eq_true_eq]
    exact (and_iff_left rfl).symm
  rw [hmem s.ids, hk, ← hmem]

theorem SameOrder.addChip (h : SameOrder s seen) (hs : Sorted s.chipList) (t : ChipId) :
    SameOrder (s.addChip i t) (seen ++ firsts seen [t]) := by
  have hdup := chipAdd_none_iff_mem (s := s) (c := ⟨t, i⟩) hs
  rw [h.mem_iff] at hdup
  rw [Scan.addChip, firsts, firsts]
  cases hadd : chipAdd ⟨t, i⟩ s.chipList with
  | none =>
    rw [if_pos (hdup.1 hadd), List.append_nil]
    exact h
  | some l =>
    have hnew : t ∉ seen := by
      intro ht
      rw [hdup.2 ht] at hadd
      cases hadd
    rw [if_neg hnew, firsts]
    intro k
    have hstable := filter_chipAdd hs hadd k
    rw [List.filter_append] at hstable ⊢
    rw [← h k]
    exact hstable

/-- The tuples of a blob, one after the other. -/
theorem SameOrder.addChips (h : SameOrder s seen) (hscan : Scanned dir s) (hf : dir[i]? = some f)
    (hu : f.usable = true) {ts : List ChipId} (hts : ∀ t ∈ ts, t ∈ f.chips) :
    SameOrder (ts.foldl (Scan.addChip i) s) (seen ++ firsts seen ts) := by
  induction ts generalizing s seen with
  | nil =>
    rw [firsts, List.append_nil]
    exact h
  | cons t ts ih =>
    obtain ⟨ht, hts⟩ := List.forall_mem_cons.1 hts
    have hnext := ih (h.addChip (i := i) hscan.sorted t) (hscan.addChip hf hu ht).1 hts
    rw [List.append_assoc, ← firsts_append, List.singleton_append] at hnext
    exact hnext

theorem sameOrder_scanFrom {fs kept : List DirEntry} (h : Scanned dir s)
    (hfs : ∀ j, fs[j]? = dir[i + j]?) (hk : SameOrder s (firsts [] (kept.flatMap DirEntry.chips))) :
    SameOrder (scanFrom s i fs) (firsts [] ((keptFrom kept fs).flatMap DirEntry.chips)) := by
  induction fs generalizing s i kept with
  | nil => exact hk
  | cons f fs ih =>
    obtain ⟨hf, hfs'⟩ := rest_cons hfs
    have hmem : ∀ u, u ∈ s.ids ↔ ∃ g ∈ kept, u ∈ g.chips := by
      intro u
      rw [hk.mem_iff, mem_firsts_nil, List.mem_flatMap]
    have hcond : (∀ c ∈ f.chips.head?, chipAdd ⟨c, i⟩ s.chipList ≠ none) ↔
        ∀ c ∈ f.chips.head?, ∀ g ∈ kept, c ∉ g.chips := by
      simp only [ne_eq, chipAdd_none_iff_mem h.sorted, hmem, not_exists, not_and]
    have hstep := (h.step hf).1
    rw [scanFrom, keptFrom]
    by_cases hkeep : f.usable = true ∧ ∀ c ∈ f.chips.head?, ∀ g ∈ kept, c ∉ g.chips
    · rw [if_pos hkeep]
      refine ih hstep hfs' ?_
      rw [scanFile_eq, if_pos ⟨hkeep.1, hcond.2 hkeep.2⟩, List.flatMap_append, firsts_append,
        List.flatMap_singleton]
      exact hk.addChips h hf hkeep.1 fun t ht => ht
    · rw [if_neg hkeep]
      refine ih hstep hfs' ?_
      rw [scanFile_eq, if_neg fun hpos => hkeep ⟨hpos.1, hcond.1 hpos.2⟩]
      exact hk

/-- **Equal keys stay in the order of arrival.** -/
theorem filter_scan (dir : List DirEntry) : SameOrder (scan dir) (arrivals dir) := by
  have h0 : Scanned dir ⟨[], 0⟩ := ⟨rfl, List.Pairwise.nil, List.nodup_nil, nofun⟩
  exact sameOrder_scanFrom h0 (fun j => by rw [Nat.zero_add]) fun k => rfl

end Scan

/-! ### The entries of the image -/

theorem ChipId.lt_of_mem_fields {c : ChipId} {x : ℕ} (h : x ∈ c.fields) : x < 2 ^ 32 := by
  simp only [fields, List.mem_cons, List.not_mem_nil, or_false] at h
  rcases h with rfl | rfl | rfl | rfl | rfl | rfl | rfl | rfl <;> exact UInt32.toNat_lt _

/-- The ids of a node, read back word by word. -/
theorem words_idBytes {b : Bytes} {o : ℕ} {c : ChipId} (h : slice b o 32 = (idBytes c).flatten) :
    ((List.range 8).map fun k => ofLE (slice b (o + 4 * k) 4)) = c.fields := by
  have hflat : (idBytes c).flatten = c.fields.flatMap le32 := rfl
  refine List.ext_getElem rfl fun k hk hk' => ?_
  have hk8 : k < 8 := hk'
  have hfield : c.fields[k] ∈ c.fields := List.getElem_mem hk'
  rw [List.getElem_map, List.getElem_range, ← slice_slice (by omega : 4 * k + 4 ≤ 32), h, hflat,
    slice_flatMap_const (fun a _ => length_le32 a) (List.getElem?_eq_getElem hk'), le32, ofLE_toLE]
  exact Nat.mod_eq_of_lt (ChipId.lt_of_mem_fields hfield)

/-- The first entry of a table, and the others. -/
theorem exists_writeTable_cons (size : ℕ → ℕ) (w : Walk) (c : ChipInfo) (cs : List ChipInfo) :
    ∃ w' v, v.length = 8 ∧ (writeTable size w (c :: cs)).1.flatten =
      (idBytes c.id).flatten ++ v ++ (writeTable size w' cs).1.flatten := by
  rw [writeTable]
  split_ifs with hm
  · refine ⟨w, le32 (w.masterOffset c.master) ++ le32 (size c.master), by simp, ?_⟩
    simp only [List.flatten_append, List.flatten_cons, List.flatten_nil, List.append_nil,
      List.append_assoc]
  · refine ⟨⟨w.expected + size c.master,
      Function.update w.masterOffset c.master (w.expected % 2 ^ 32)⟩,
      le32 w.expected ++ le32 (size c.master), by simp, ?_⟩
    simp only [List.flatten_append, List.flatten_cons, List.flatten_nil, List.append_nil,
      List.append_assoc]

theorem slice_writeTable {size : ℕ → ℕ} {w : Walk} {l : List ChipInfo} {i : ℕ} {c : ChipInfo}
    (hi : l[i]? = some c) (rest : Bytes) :
    slice ((writeTable size w l).1.flatten ++ rest) (40 * i) 32 = (idBytes c.id).flatten := by
  induction l generalizing w i with
  | nil => cases hi
  | cons a l ih =>
    obtain ⟨w', v, hv, htable⟩ := exists_writeTable_cons size w a l
    have hids := length_idBytes a.id
    rw [htable]
    cases i with
    | zero =>
      obtain rfl : a = c := Option.some.inj hi
      rw [List.append_assoc, List.append_assoc, Nat.mul_zero]
      exact slice_prefix hids
    | succ i =>
      have hlen : ((idBytes a.id).flatten ++ v).length = 40 := by
        rw [List.length_append, hids, hv]
      rw [List.append_assoc, show 40 * (i + 1) = 40 + 40 * i by omega]
      rw [← hlen, slice_append_right, hlen]
      exact ih hi

/-- An entry of the table carries the ids of its node. -/
theorem entryIds_image {page : ℕ} {dir : List DirEntry} {i : ℕ} {c : ChipInfo}
    (hi : (scan dir).chipList[i]? = some c) : entryIds (image page dir) i = c.id.fields := by
  have hheader : (ascii "QCDT" ++ le32 qcdtVersion ++ le32 (scan dir).dtbCount).length = 12 := by
    simp only [List.length_append, length_le32]
    decide
  refine words_idBytes ?_
  rw [image, generate]
  simp only [List.flatten_append, List.flatten_cons, List.flatten_nil, List.append_nil,
    List.append_assoc]
  rw [← List.append_assoc, ← List.append_assoc, ← hheader, slice_append_right]
  exact slice_writeTable hi _

/-- The entries of the table, one after the other. -/
theorem map_entryIds_image (page : ℕ) (dir : List DirEntry) :
    (List.range (scan dir).dtbCount).map (entryIds (image page dir)) =
      (scan dir).ids.map ChipId.fields := by
  have hcount := (scanned_scan dir).1.count
  rw [hcount, Scan.ids, List.map_map]
  refine List.ext_getElem ?_ fun i hi hi' => ?_
  · rw [List.length_map, List.length_range, List.length_map]
  · rw [List.length_map] at hi'
    rw [List.getElem_map, List.getElem_range, List.getElem_map,
      entryIds_image (List.getElem?_eq_getElem hi')]
    rfl

/-- **When the table is sorted as documented.**  The entries are strictly increasing in the
lexicographic order of the eight ids exactly if tuples with the same chipset, platform, subtype and
revision arrive in the order of their pmic models. -/
theorem table_sorted_iff (page : ℕ) (dir : List DirEntry) :
    ((List.range (scan dir).dtbCount).map (entryIds (image page dir))).Pairwise (· < ·) ↔
      (arrivals dir).Pairwise fun t u => t.key = u.key → t.pmics < u.pmics := by
  have hsorted : (scan dir).ids.Pairwise fun t u => u.before t = false :=
    List.pairwise_map.2 (scanned_scan dir).1.sorted
  rw [map_entryIds_image, List.pairwise_map, pairwise_iff_filter]
  simp only [← filter_scan dir _]
  rw [← pairwise_iff_filter]
  constructor
  · refine fun h => h.imp fun hlt hk => ?_
    rcases ChipId.fields_lt_iff.1 hlt with hb | ⟨-, hp⟩
    · exact absurd hk (ChipId.key_ne_of_before hb)
    · exact hp
  · refine fun h => (hsorted.and h).imp @fun t u htu => ChipId.fields_lt_iff.2 ?_
    obtain ⟨hub, hp⟩ := htu
    cases hb : t.before u with
    | true => exact .inl rfl
    | false =>
      have hk := ChipId.key_eq_of_not_before hb hub
      exact .inr ⟨hk, hp hk⟩

/-- Two blobs that differ in a pmic model, the larger one first. -/
def pmicDir : List DirEntry :=
  [⟨true, ascii "a.dtb", [⟨206, 8, 0, 1, 2, 0, 0, 0⟩], some 4, some [1, 2, 3, 4]⟩,
    ⟨true, ascii "b.dtb", [⟨206, 8, 0, 1, 1, 0, 0, 0⟩], some 4, some [5, 6, 7, 8]⟩]

/-- The table of the two blobs is in the order of the directory. -/
theorem pmicDir_unsorted :
    ¬ ((List.range (scan pmicDir).dtbCount).map (entryIds (image 64 pmicDir))).Pairwise
      (· < ·) := by
  rw [map_entryIds_image]
  decide

end Dtbtool

end Msm8909w
