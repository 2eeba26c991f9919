import Msm8909w.Lib.Layout
import Msm8909w.Dtbtool.ChipList

/-!
# The image `dtbtool.c` writes

After the scan, `main` walks the chip list twice.  The first walk writes the table and hands out
offsets: the first entry of a blob gets the running total `expected`, which is kept in its
master's `master_offset` for the later ones.  The second walk writes the blobs, each once.  No
write is checked on its own: the counts are added up and compared with `expected` at the end.

The calls to `write` are modelled as a list of buffers (`generate`), since nothing depends on
their results before the end, and an oracle for the number of bytes each of them moves
(`writeAll`).

`main_layout` : when `main` succeeds, the file starts with a table of the chip list whose entries
point to the blobs, aligned, disjoint, and covering the rest of the image.
-/

namespace Msm8909w

namespace Dtbtool

/-- `write(out_fd, &x, sizeof(uint32_t))` on a little-endian host. -/
def le32 (x : ℕ) : Bytes := toLE 4 x

/-- `QCDT_VERSION`. -/
def qcdtVersion : ℕ := 3

/-- `page_size - (n % page_size)`. -/
def padding (page n : ℕ) : ℕ := page - n % page

/-- `dtb_size` of the blob at position `m` of the directory. -/
def dtbSize (page : ℕ) (dir : List DirEntry) (m : ℕ) : ℕ :=
  let size := (dir[m]?.bind DirEntry.size).getD 0
  (size + padding page size) % 2 ^ 32

/-- The ids of a table entry. -/
def idBytes (c : ChipId) : List Bytes :=
  [le32 c.chipset.toNat, le32 c.platform.toNat, le32 c.subtype.toNat, le32 c.revNum.toNat,
    le32 c.pmic0.toNat, le32 c.pmic1.toNat, le32 c.pmic2.toNat, le32 c.pmic3.toNat]

/-- The state of the first walk: `expected`, and the `master_offset` of each blob. -/
structure Walk where
  expected : ℕ
  masterOffset : ℕ → ℕ

/-- The first walk: the buffers of the table, and the state afterwards. -/
def writeTable (size : ℕ → ℕ) (w : Walk) : List ChipInfo → List Bytes × Walk
  | [] => ([], w)
  | c :: cs =>
    if w.masterOffset c.master ≠ 0 then
      let res := writeTable size w cs
      (idBytes c.id ++ [le32 (w.masterOffset c.master), le32 (size c.master)] ++ res.1, res.2)
    else
      let res := writeTable size ⟨w.expected + size c.master,
        Function.update w.masterOffset c.master (w.expected % 2 ^ 32)⟩ cs
      (idBytes c.id ++ [le32 w.expected, le32 (size c.master)] ++ res.1, res.2)

/-- The blocks `fread` returns, of at most `COPY_BLK` bytes. -/
def copyBlocks : ℕ → Bytes → List Bytes
  | 0, _ => []
  | fuel + 1, b => if b = [] then [] else b.take 1024 :: copyBlocks fuel (b.drop 1024)

/-- The second walk: the buffers of the blobs, and whether it got to the end.  A blob that cannot
be opened or whose size has changed stops it. -/
def writeDtbs (page : ℕ) (size : ℕ → ℕ) (content : ℕ → Option Bytes) (wrote : ℕ → Bool) :
    List ChipInfo → List Bytes × Bool
  | [] => ([], true)
  | c :: cs =>
    if wrote c.master then writeDtbs page size content wrote cs
    else match content c.master with
      | none => ([], false)
      | some b =>
        if (b.length + padding page b.length) % 2 ^ 32 ≠ size c.master then
          (copyBlocks b.length b, false)
        else
          let res := writeDtbs page size content (Function.update wrote c.master true) cs
          (copyBlocks b.length b ++ List.replicate (padding page b.length) 0 :: res.1, res.2)

/-- The bytes of the blob at position `m`. -/
def blobContent (dir : List DirEntry) (m : ℕ) : Option Bytes := dir[m]?.bind DirEntry.content

/-- The offset of the end of the table. -/
def tableEnd (count : ℕ) : ℕ := 12 + 40 * count + 4

/-- `dtb_offset`: the offset of the first blob. -/
def dtbOffset (page count : ℕ) : ℕ := tableEnd count + padding page (tableEnd count)

/-- What `main` writes: the buffers, `expected`, and whether the second walk got to the end. -/
structure Output where
  buffers : List Bytes
  expected : ℕ
  ok : Bool

/-- The part of `main` that generates the image. -/
def generate (page : ℕ) (dir : List DirEntry) : Output :=
  let s := scan dir
  let table := writeTable (dtbSize page dir) ⟨dtbOffset page s.dtbCount, fun _ => 0⟩ s.chipList
  let dtbs := writeDtbs page (dtbSize page dir) (blobContent dir) (fun _ => false) s.chipList
  { buffers := [ascii "QCDT", le32 qcdtVersion, le32 s.dtbCount] ++ table.1 ++
      [le32 0, List.replicate (padding page (tableEnd s.dtbCount)) 0] ++ dtbs.1
    expected := table.2.expected
    ok := dtbs.2 }

/-- The calls to `write`: the sum of their results and the output file, written from `pos` on.
`moved n len` is what the `n`-th call moves of `len` bytes (`none` when it returns `-1`). -/
def writeAll (moved : ℕ → ℕ → Option ℕ) : ℕ → ℕ → Bytes → List Bytes → ℤ × Bytes
  | _, _, file, [] => (0, file)
  | n, pos, file, b :: bs =>
    match moved n b.length with
    | none =>
      let res := writeAll moved (n + 1) pos file bs
      (res.1 - 1, res.2)
    | some k =>
      let data := b.take k
      let res := writeAll moved (n + 1) (pos + data.length) (patch file pos data) bs
      (res.1 + data.length, res.2)

/-- `main` after the command line: `0` and the output file, or `-1`.  The file is opened without
`O_TRUNC`, so it starts as the file that was there before (`old`), if any.  Without any tuple no
file is written. -/
def main (page : ℕ) (moved : ℕ → ℕ → Option ℕ) (old : Bytes) (dir : List DirEntry) :
    ℤ × Option Bytes :=
  if (scan dir).dtbCount = 0 then (0, none)
  else
    let out := generate page dir
    let res := writeAll moved 0 0 old out.buffers
    -- `wrote` and `expected` are of type `size_t`
    if out.ok ∧ (out.expected : ℤ) % 2 ^ 64 = res.1 % 2 ^ 64 then (0, some res.2) else (-1, none)

/-! ### The two walks -/

/-- A table entry, with blobs laid out from `base` on in the order `ms`. -/
def entryBytes (size : ℕ → ℕ) (base : ℕ) (ms : List ℕ) (c : ChipInfo) : Bytes :=
  (idBytes c.id).flatten ++ le32 (base + place size ms c.master) ++ le32 (size c.master)

/-- A blob with its padding. -/
def blobBytes (page : ℕ) (content : ℕ → Option Bytes) (m : ℕ) : Bytes :=
  let b := (content m).getD []
  b ++ List.replicate (padding page b.length) 0

theorem padding_pos {page : ℕ} (h : 0 < page) (n : ℕ) : 0 < padding page n := by
  have := Nat.mod_lt n h
  unfold padding
  omega

theorem dvd_add_padding {page : ℕ} (h : 0 < page) (n : ℕ) : page ∣ n + padding page n := by
  have hlt := Nat.mod_lt n h
  have hdiv := Nat.div_add_mod n page
  refine ⟨n / page + 1, ?_⟩
  unfold padding
  rw [Nat.mul_add, Nat.mul_one]
  omega

@[simp] theorem length_le32 (x : ℕ) : (le32 x).length = 4 := length_toLE 4 x

theorem le32_ne_nil (x : ℕ) : le32 x ≠ [] :=
  List.ne_nil_of_length_pos (by rw [length_le32]; decide)

theorem length_idBytes (c : ChipId) : (idBytes c).flatten.length = 32 := by
  simp [idBytes]

theorem length_entryBytes (size : ℕ → ℕ) (base : ℕ) (ms : List ℕ) (c : ChipInfo) :
    (entryBytes size base ms c).length = 40 := by
  rw [entryBytes, List.length_append, List.length_append, length_idBytes, length_le32, length_le32]

/-- The first walk: every entry gets the offset its blob has in the order of first occurrence. -/
theorem writeTable_spec {size : ℕ → ℕ} {base : ℕ} (hbase : 0 < base) (seen : List ℕ) {w : Walk}
    {l : List ChipInfo} (hexp : w.expected = base + (seen.map size).sum)
    (hoff : ∀ m, w.masterOffset m = if m ∈ seen then base + place size seen m else 0)
    (hlt : base + ((seen ++ firsts seen (l.map ChipInfo.master)).map size).sum < 2 ^ 32) :
    (writeTable size w l).1.flatten =
        l.flatMap (entryBytes size base (seen ++ firsts seen (l.map ChipInfo.master))) ∧
      (writeTable size w l).2.expected =
        base + ((seen ++ firsts seen (l.map ChipInfo.master)).map size).sum := by
  induction l generalizing w seen with
  | nil =>
    simp only [writeTable, List.map_nil, firsts, List.append_nil, List.flatten_nil,
      List.flatMap_nil, true_and]
    exact hexp
  | cons c cs ih =>
    rw [List.map_cons, firsts] at hlt ⊢
    by_cases hm : c.master ∈ seen
    · rw [if_pos hm] at hlt ⊢
      obtain ⟨htable, hend⟩ := ih seen hexp hoff hlt
      have hne : w.masterOffset c.master ≠ 0 := by
        rw [hoff, if_pos hm]
        omega
      rw [writeTable, if_pos hne]
      refine ⟨?_, hend⟩
      rw [hoff, if_pos hm, List.flatMap_cons, ← htable, entryBytes, place_append hm]
      simp only [List.flatten_append, List.flatten_cons, List.flatten_nil, List.append_nil,
        List.append_assoc]
    · rw [if_neg hm, List.append_cons] at hlt ⊢
      have hzero : ¬ w.masterOffset c.master ≠ 0 := by
        rw [hoff, if_neg hm, ne_eq, not_not]
      -- the running total still fits `master_offset`
      have hfit : w.expected < 2 ^ 32 := by
        rw [List.map_append, List.sum_append, List.map_append, List.sum_append] at hlt
        omega
      have hexp' : w.expected + size c.master = base + ((seen ++ [c.master]).map size).sum := by
        rw [hexp, List.map_append, List.sum_append, List.map_singleton, List.sum_singleton]
        omega
      have hoff' : ∀ m, Function.update w.masterOffset c.master (w.expected % 2 ^ 32) m =
          if m ∈ seen ++ [c.master] then base + place size (seen ++ [c.master]) m else 0 := by
        intro m
        by_cases hmc : m = c.master
        · subst hmc
          rw [Function.update_self, if_pos (by simp), place_append_self hm, Nat.mod_eq_of_lt hfit,
            hexp]
        · rw [Function.update_of_ne hmc, hoff]
          by_cases hms : m ∈ seen
          · rw [if_pos hms, if_pos (List.mem_append_left _ hms), place_append hms]
          · rw [if_neg hms, if_neg (by simp [hms, hmc])]
      obtain ⟨htable, hend⟩ := ih (seen ++ [c.master]) (w := ⟨w.expected + size c.master,
        Function.update w.masterOffset c.master (w.expected % 2 ^ 32)⟩) hexp' hoff' hlt
      rw [writeTable, if_neg hzero]
      refine ⟨?_, hend⟩
      have hplace : w.expected = base + place size
          (seen ++ [c.master] ++ firsts (seen ++ [c.master]) (cs.map ChipInfo.master))
          c.master := by
        rw [← List.append_cons, place_append_self hm, hexp]
      rw [List.flatMap_cons, ← htable, entryBytes, ← hplace]
      simp only [List.flatten_append, List.flatten_cons, List.flatten_nil, List.append_nil,
        List.append_assoc]

theorem flatten_copyBlocks {fuel : ℕ} {b : Bytes} (h : b.length ≤ fuel) :
    (copyBlocks fuel b).flatten = b := by
  induction fuel generalizing b with
  | zero =>
    rw [List.length_eq_zero_iff.1 (Nat.le_zero.1 h)]
    rfl
  | succ fuel ih =>
    rw [copyBlocks]
    split_ifs with hb
    · rw [hb]
      rfl
    · have hpos : 0 < b.length := List.length_pos_of_ne_nil hb
      rw [List.flatten_cons, ih (by rw [List.length_drop]; omega), List.take_append_drop]

/-- The second walk: when it gets to the end, it has written every blob once, in the order of first
occurrence, and each of them had the size the table says. -/
theorem writeDtbs_spec {page : ℕ} {size : ℕ → ℕ} {content : ℕ → Option Bytes} (seen : List ℕ)
    {wrote : ℕ → Bool} {l : List ChipInfo} (hw : ∀ m, wrote m = decide (m ∈ seen))
    (hok : (writeDtbs page size content wrote l).2 = true) :
    (writeDtbs page size content wrote l).1.flatten =
        (firsts seen (l.map ChipInfo.master)).flatMap (blobBytes page content) ∧
      ∀ m ∈ firsts seen (l.map ChipInfo.master), (content m).isSome = true ∧
        (blobBytes page content m).length % 2 ^ 32 = size m := by
  induction l generalizing wrote seen with
  | nil => exact ⟨rfl, nofun⟩
  | cons c cs ih =>
    rw [writeDtbs, hw] at hok ⊢
    rw [List.map_cons, firsts]
    by_cases hm : c.master ∈ seen
    · simp only [hm, decide_true, ↓reduceIte] at hok ⊢
      exact ih seen hw hok
    · simp only [hm, decide_false, Bool.false_eq_true, ↓reduceIte] at hok ⊢
      cases hb : content c.master with
      | none => rw [hb] at hok; cases hok
      | some b =>
        rw [hb] at hok
        simp only at hok ⊢
        by_cases hsize : (b.length + padding page b.length) % 2 ^ 32 = size c.master
        swap
        · rw [if_pos hsize] at hok
          cases hok
        rw [if_neg (not_not_intro hsize)] at hok ⊢
        have hw' : ∀ m, Function.update wrote c.master true m =
            decide (m ∈ seen ++ [c.master]) := by
          intro m
          by_cases hmc : m = c.master
          · subst hmc
            simp
          · simp [hmc, hw]
        obtain ⟨hflat, hall⟩ := ih _ hw' hok
        have hblob : blobBytes page content c.master =
            b ++ List.replicate (padding page b.length) 0 := by
          rw [blobBytes, hb]
          rfl
        constructor
        · rw [List.flatten_append, List.flatten_cons, flatten_copyBlocks (Nat.le_refl _), hflat,
            List.flatMap_cons, hblob, List.append_assoc]
        · intro m hmem
          rcases List.mem_cons.1 hmem with rfl | hmem
          · refine ⟨by rw [hb]; rfl, ?_⟩
            rw [hblob, List.length_append, List.length_replicate, hsize]
          · exact hall m hmem

theorem length_writeTable (size : ℕ → ℕ) (w : Walk) (l : List ChipInfo) :
    (writeTable size w l).1.flatten.length = 40 * l.length := by
  induction l generalizing w with
  | nil => rfl
  | cons c cs ih =>
    rw [writeTable]
    split_ifs <;>
      simp only [List.flatten_append, List.flatten_cons, List.flatten_nil, List.append_nil,
        List.length_append, length_idBytes, length_le32, ih, List.length_cons] <;>
      omega

/-! ### No buffer is empty -/

theorem ne_nil_of_mem_writeTable {size : ℕ → ℕ} {w : Walk} {l : List ChipInfo} {b : Bytes}
    (h : b ∈ (writeTable size w l).1) : b ≠ [] := by
  induction l generalizing w with
  | nil => cases h
  | cons c cs ih =>
    rw [writeTable] at h
    split_ifs at h <;>
      simp only [idBytes, List.mem_append, List.mem_cons, List.not_mem_nil, or_false] at h <;>
      rcases h with ((rfl | rfl | rfl | rfl | rfl | rfl | rfl | rfl) | rfl | rfl) | h <;>
      first | exact le32_ne_nil _ | exact ih h

theorem ne_nil_of_mem_copyBlocks {fuel : ℕ} {b x : Bytes} (h : x ∈ copyBlocks fuel b) :
    x ≠ [] := by
  induction fuel generalizing b with
  | zero => cases h
  | succ fuel ih =>
    rw [copyBlocks] at h
    split_ifs at h with hb
    · cases h
    · rcases List.mem_cons.1 h with rfl | h
      · exact fun hc => hb (List.take_eq_nil_iff.1 hc |>.resolve_left (by decide))
      · exact ih h

theorem ne_nil_of_mem_writeDtbs {page : ℕ} (hpage : 0 < page) {size : ℕ → ℕ}
    {content : ℕ → Option Bytes} {wrote : ℕ → Bool} {l : List ChipInfo} {x : Bytes}
    (h : x ∈ (writeDtbs page size content wrote l).1) : x ≠ [] := by
  induction l generalizing wrote with
  | nil => cases h
  | cons c cs ih =>
    rw [writeDtbs] at h
    split_ifs at h with hw
    · exact ih h
    · cases hb : content c.master with
      | none => rw [hb] at h; cases h
      | some b =>
        rw [hb] at h
        simp only at h
        split_ifs at h with hsize
        · exact ne_nil_of_mem_copyBlocks h
        · rcases List.mem_append.1 h with h | h
          · exact ne_nil_of_mem_copyBlocks h
          · rcases List.mem_cons.1 h with rfl | h
            · refine List.ne_nil_of_length_pos ?_
              rw [List.length_replicate]
              exact padding_pos hpage b.length
            · exact ih h

theorem length_le_flatten {bs : List Bytes} (h : ∀ b ∈ bs, b ≠ []) :
    bs.length ≤ bs.flatten.length := by
  induction bs with
  | nil => exact Nat.le_refl _
  | cons b bs ih =>
    have hb := List.length_pos_of_ne_nil (h b List.mem_cons_self)
    have hrest := ih fun b' hb' => h b' (List.mem_cons_of_mem _ hb')
    rw [List.length_cons, List.flatten_cons, List.length_append]
    omega

/-! ### The writes -/

theorem patch_append {file a v : Bytes} {pos : ℕ} (h : pos ≤ file.length) :
    patch (patch file pos a) (pos + a.length) v = patch file pos (a ++ v) := by
  have hl : (file.take pos ++ a).length = pos + a.length := by
    rw [List.length_append, List.length_take]
    omega
  have htake : (patch file pos a).take (pos + a.length) = file.take pos ++ a := by
    rw [patch, List.take_append_of_le_length (by omega), List.take_of_length_le (by omega)]
  have hdrop : (patch file pos a).drop (pos + a.length + v.length) =
      file.drop (pos + (a ++ v).length) := by
    rw [patch, ← List.drop_drop, List.drop_left' hl, List.drop_drop, List.length_append,
      Nat.add_assoc]
  conv_lhs => rw [patch, htake, hdrop]
  simp only [patch, List.append_assoc]

/-- The sum of the results is at most the number of bytes, and reaches it only when every buffer
was written. -/
theorem writeAll_spec (moved : ℕ → ℕ → Option ℕ) {n pos : ℕ} {file : Bytes} (bs : List Bytes)
    (hpos : pos ≤ file.length) :
    -(bs.length : ℤ) ≤ (writeAll moved n pos file bs).1 ∧
      (writeAll moved n pos file bs).1 ≤ bs.flatten.length ∧
      ((writeAll moved n pos file bs).1 = bs.flatten.length →
        (writeAll moved n pos file bs).2 = patch file pos bs.flatten) := by
  induction bs generalizing n pos file with
  | nil =>
    refine ⟨by simp [writeAll], by simp [writeAll], fun _ => ?_⟩
    simp [writeAll, patch]
  | cons b bs ih =>
    rw [writeAll]
    cases moved n b.length with
    | none =>
      obtain ⟨h1, h2, -⟩ := ih (n := n + 1) hpos
      simp only [List.length_cons, List.flatten_cons, List.length_append]
      refine ⟨by omega, by omega, fun h => ?_⟩
      push_cast at h
      omega
    | some k =>
      have hle : (b.take k).length ≤ b.length := by rw [List.length_take]; omega
      have hpos' : pos + (b.take k).length ≤ (patch file pos (b.take k)).length := by
        simp only [patch, List.length_append, List.length_take, List.length_drop]
        omega
      obtain ⟨h1, h2, h3⟩ := ih (n := n + 1) hpos'
      simp only [List.length_cons, List.flatten_cons, List.length_append]
      refine ⟨by omega, by push_cast; omega, fun h => ?_⟩
      push_cast at h
      have hfull : b.take k = b := by
        refine List.take_of_length_le ?_
        rw [List.length_take] at h h2
        omega
      rw [hfull] at h h1 h2 h3 ⊢
      rw [h3 (by omega), patch_append hpos]

/-! ### The layout -/

/-- The offset in the table entry with index `i`. -/
def entryOffset (image : Bytes) (i : ℕ) : ℕ := ofLE (slice image (12 + 40 * i + 32) 4)

/-- The size in the table entry with index `i`. -/
def entrySize (image : Bytes) (i : ℕ) : ℕ := ofLE (slice image (12 + 40 * i + 36) 4)

/-- An image with a table of the nodes `l`, which come from the blobs of `dir`. -/
structure QcdtLayout (page : ℕ) (dir : List DirEntry) (l : List ChipInfo) (image : Bytes) :
    Prop where
  /-- The header: magic, version and the number of table entries. -/
  magic : slice image 0 4 = ascii "QCDT"
  version : ofLE (slice image 4 4) = qcdtVersion
  count : ofLE (slice image 8 4) = l.length
  /-- A table entry carries the ids of its node. -/
  ids : ∀ i c, l[i]? = some c → slice image (12 + 40 * i) 32 = (idBytes c.id).flatten
  /-- The table is followed by zeros: the end marker and the padding. -/
  filler : slice image (12 + 40 * l.length) (4 + padding page (tableEnd l.length)) =
    List.replicate (4 + padding page (tableEnd l.length)) 0
  /-- A table entry points to a blob that offers its ids, followed by zeros. -/
  blob : ∀ i c, l[i]? = some c → ∃ f b, dir[c.master]? = some f ∧ c.id ∈ f.chips ∧
    f.content = some b ∧ b.length < entrySize image i ∧
    slice image (entryOffset image i) (entrySize image i) =
      b ++ List.replicate (entrySize image i - b.length) 0
  /-- The blobs lie behind the table, on page boundaries. -/
  aligned : ∀ i < l.length, page ∣ entryOffset image i ∧
    dtbOffset page l.length ≤ entryOffset image i ∧
    entryOffset image i + entrySize image i ≤ image.length
  /-- Entries of the same blob share its place, and different blobs do not overlap. -/
  shared : ∀ i j c c', l[i]? = some c → l[j]? = some c' → c.master = c'.master →
    entryOffset image i = entryOffset image j ∧ entrySize image i = entrySize image j
  disjoint : ∀ i j c c', l[i]? = some c → l[j]? = some c' → c.master ≠ c'.master →
    entryOffset image i + entrySize image i ≤ entryOffset image j ∨
      entryOffset image j + entrySize image j ≤ entryOffset image i
  /-- Nothing else is in the image. -/
  covered : ∀ p < image.length, p < dtbOffset page l.length ∨
    ∃ i < l.length, entryOffset image i ≤ p ∧ p < entryOffset image i + entrySize image i

/-- The image in parts: header, table, end marker and padding, blobs. -/
def assemble (page : ℕ) (size : ℕ → ℕ) (content : ℕ → Option Bytes) (l : List ChipInfo)
    (ms : List ℕ) : Bytes :=
  ascii "QCDT" ++ le32 qcdtVersion ++ le32 l.length ++
    (l.flatMap (entryBytes size (dtbOffset page l.length) ms) ++
      (List.replicate (4 + padding page (tableEnd l.length)) 0 ++
        ms.flatMap (blobBytes page content)))

section Assemble

variable {page : ℕ} {size : ℕ → ℕ} {content : ℕ → Option Bytes} {l : List ChipInfo} {ms : List ℕ}

theorem length_table {base : ℕ} :
    (l.flatMap (entryBytes size base ms)).length = 40 * l.length :=
  length_flatMap_const fun c _ => length_entryBytes size base ms c

theorem length_assemble : (assemble page size content l ms).length =
    dtbOffset page l.length + (ms.flatMap (blobBytes page content)).length := by
  have hmagic : (ascii "QCDT").length = 4 := by decide
  simp only [assemble, List.length_append, length_table, List.length_replicate, hmagic,
    length_le32, dtbOffset, tableEnd]
  omega

/-- A stretch of the header. -/
theorem slice_header {o n : ℕ} (h : o + n ≤ 12) : slice (assemble page size content l ms) o n =
    slice (ascii "QCDT" ++ le32 qcdtVersion ++ le32 l.length) o n := by
  have hmagic : (ascii "QCDT").length = 4 := by decide
  refine slice_append_left ?_
  simp only [List.length_append, hmagic, length_le32]
  omega

/-- A stretch behind the header. -/
theorem slice_body (o n : ℕ) : slice (assemble page size content l ms) (12 + o) n =
    slice (l.flatMap (entryBytes size (dtbOffset page l.length) ms) ++
      (List.replicate (4 + padding page (tableEnd l.length)) 0 ++
        ms.flatMap (blobBytes page content))) o n := by
  have hlen : (ascii "QCDT" ++ le32 qcdtVersion ++ le32 l.length).length = 12 := by
    have hmagic : (ascii "QCDT").length = 4 := by decide
    simp only [List.length_append, hmagic, length_le32]
  rw [assemble, ← hlen]
  exact slice_append_right

theorem slice_entry {i : ℕ} {c : ChipInfo} (hi : l[i]? = some c) :
    slice (assemble page size content l ms) (12 + 40 * i) 40 =
      entryBytes size (dtbOffset page l.length) ms c := by
  have hlt : i < l.length := (List.getElem?_eq_some_iff.1 hi).1
  rw [slice_body, slice_append_left (by rw [length_table]; omega)]
  exact slice_flatMap_const (fun c _ => length_entryBytes size _ ms c) hi

/-- A stretch of the blobs. -/
theorem slice_blobs (o n : ℕ) :
    slice (assemble page size content l ms) (dtbOffset page l.length + o) n =
      slice (ms.flatMap (blobBytes page content)) o n := by
  have hsum : dtbOffset page l.length + o =
      12 + ((l.flatMap (entryBytes size (dtbOffset page l.length) ms)).length +
        ((List.replicate (4 + padding page (tableEnd l.length)) (0 : UInt8)).length + o)) := by
    rw [length_table, List.length_replicate, dtbOffset, tableEnd]
    omega
  rw [hsum, slice_body, slice_append_right, slice_append_right]

/-- The fields of a table entry. -/
theorem entry_fields {i : ℕ} {c : ChipInfo} (hi : l[i]? = some c)
    (hoff : dtbOffset page l.length + place size ms c.master < 2 ^ 32)
    (hsize : size c.master < 2 ^ 32) :
    slice (assemble page size content l ms) (12 + 40 * i) 32 = (idBytes c.id).flatten ∧
      entryOffset (assemble page size content l ms) i =
        dtbOffset page l.length + place size ms c.master ∧
      entrySize (assemble page size content l ms) i = size c.master := by
  have hentry : slice (assemble page size content l ms) (12 + 40 * i) 40 =
      entryBytes size (dtbOffset page l.length) ms c := slice_entry hi
  have hpow : 256 ^ 4 = 2 ^ 32 := by decide
  have hsub : ∀ o n, o + n ≤ 40 → slice (assemble page size content l ms) (12 + 40 * i + o) n =
      slice (entryBytes size (dtbOffset page l.length) ms c) o n := by
    intro o n hle
    rw [← hentry, slice_slice hle]
  have hids := length_idBytes c.id
  refine ⟨?_, ?_, ?_⟩
  · have h0 := hsub 0 32 (by omega)
    rw [Nat.add_zero] at h0
    rw [h0, entryBytes, List.append_assoc, slice_prefix hids]
  · rw [entryOffset, hsub 32 4 (by omega), entryBytes, slice_middle hids (length_le32 _), le32,
      ofLE_toLE, hpow, Nat.mod_eq_of_lt hoff]
  · rw [entrySize, hsub 36 4 (by omega), entryBytes,
      slice_suffix (by rw [List.length_append, hids, length_le32]) (length_le32 _), le32, ofLE_toLE,
      hpow, Nat.mod_eq_of_lt hsize]

theorem header_assemble (h : l.length < 2 ^ 32) :
    slice (assemble page size content l ms) 0 4 = ascii "QCDT" ∧
      ofLE (slice (assemble page size content l ms) 4 4) = qcdtVersion ∧
      ofLE (slice (assemble page size content l ms) 8 4) = l.length := by
  have hpow : 256 ^ 4 = 2 ^ 32 := by decide
  have hmagic : (ascii "QCDT").length = 4 := by decide
  refine ⟨?_, ?_, ?_⟩
  · rw [slice_header (by decide), List.append_assoc, slice_prefix hmagic]
  · rw [slice_header (by decide), slice_middle hmagic (length_le32 _), le32, ofLE_toLE]
    decide
  · rw [slice_header (by decide),
      slice_suffix (by rw [List.length_append, hmagic, length_le32]) (length_le32 _), le32,
      ofLE_toLE, hpow, Nat.mod_eq_of_lt h]

/-- The place of a blob holds its content, followed by zeros. -/
theorem slice_blob (hpage : 0 < page) (hblob : ∀ m ∈ ms, (content m).isSome = true ∧
    (blobBytes page content m).length = size m) {m : ℕ} (hm : m ∈ ms) :
    ∃ b, content m = some b ∧ b.length < size m ∧
      slice (assemble page size content l ms) (dtbOffset page l.length + place size ms m) (size m) =
        b ++ List.replicate (size m - b.length) 0 := by
  obtain ⟨hsome, hblen⟩ := hblob m hm
  obtain ⟨b, hb⟩ := Option.isSome_iff_exists.1 hsome
  have hbytes : blobBytes page content m = b ++ List.replicate (padding page b.length) 0 := by
    rw [blobBytes, hb]; rfl
  rw [hbytes, List.length_append, List.length_replicate] at hblen
  have hpos := padding_pos hpage b.length
  refine ⟨b, hb, by omega, ?_⟩
  rw [slice_blobs, slice_place (fun m hm => (hblob m hm).2) hm, hbytes]
  congr 2
  omega

theorem dvd_length_blobBytes (hpage : 0 < page) (m : ℕ) :
    page ∣ (blobBytes page content m).length := by
  rw [blobBytes, List.length_append, List.length_replicate]
  exact dvd_add_padding hpage _

end Assemble

/-- The parts of the image, put together. -/
theorem layout_assemble {page : ℕ} {size : ℕ → ℕ} {dir : List DirEntry} {l : List ChipInfo}
    (hpage : 0 < page)
    (hoffered : ∀ c ∈ l, ∃ f, dir[c.master]? = some f ∧ c.id ∈ f.chips)
    (hblob : ∀ m ∈ firsts [] (l.map ChipInfo.master), (blobContent dir m).isSome = true ∧
      (blobBytes page (blobContent dir) m).length = size m)
    (hlen : (assemble page size (blobContent dir) l
      (firsts [] (l.map ChipInfo.master))).length < 2 ^ 32) :
    QcdtLayout page dir l
      (assemble page size (blobContent dir) l (firsts [] (l.map ChipInfo.master))) := by
  have hmem : ∀ m, m ∈ firsts [] (l.map ChipInfo.master) ↔ m ∈ l.map ChipInfo.master :=
    fun _ => mem_firsts_nil
  have hnodup : (firsts [] (l.map ChipInfo.master)).Nodup := nodup_firsts_nil
  generalize firsts [] (l.map ChipInfo.master) = ms at hblob hlen hmem hnodup ⊢
  have hsum : (ms.flatMap (blobBytes page (blobContent dir))).length = (ms.map size).sum :=
    length_flatMap_blob fun m hm => (hblob m hm).2
  have hlength : (assemble page size (blobContent dir) l ms).length = _ := length_assemble
  rw [hsum] at hlength
  rw [hlength] at hlen
  have hcount : dtbOffset page l.length = tableEnd l.length + padding page (tableEnd l.length) :=
    rfl
  have htable : tableEnd l.length = 12 + 40 * l.length + 4 := rfl
  have hmaster : ∀ (i : ℕ) (c : ChipInfo), l[i]? = some c → c.master ∈ ms := by
    intro i c hi
    exact (hmem _).2 (List.mem_map.2 ⟨c, List.mem_of_getElem? hi, rfl⟩)
  have hplace : ∀ (i : ℕ) (c : ChipInfo), l[i]? = some c →
      place size ms c.master + size c.master ≤ (ms.map size).sum :=
    fun i c hi => place_add_le (hmaster i c hi)
  generalize himage : assemble page size (blobContent dir) l ms = image at *
  have hfields : ∀ (i : ℕ) (c : ChipInfo), l[i]? = some c →
      slice image (12 + 40 * i) 32 = (idBytes c.id).flatten ∧
        entryOffset image i = dtbOffset page l.length + place size ms c.master ∧
        entrySize image i = size c.master := by
    intro i c hi
    have hle := hplace i c hi
    rw [← himage]
    exact entry_fields hi (by omega) (by omega)
  have hnode : ∀ i < l.length, ∃ c, l[i]? = some c :=
    fun i hi => ⟨l[i], List.getElem?_eq_getElem hi⟩
  obtain ⟨hmagic, hversion, hcountField⟩ : slice image 0 4 = ascii "QCDT" ∧
      ofLE (slice image 4 4) = qcdtVersion ∧ ofLE (slice image 8 4) = l.length := by
    rw [← himage]
    exact header_assemble (by omega)
  refine ⟨hmagic, hversion, hcountField, fun i c hi => (hfields i c hi).1, ?_, ?_, ?_, ?_, ?_, ?_⟩
  · rw [← himage, slice_body, ← List.append_assoc, slice_middle length_table
      (List.length_replicate ..)]
  · -- the blob of an entry
    intro i c hi
    obtain ⟨-, hoff, hsize⟩ := hfields i c hi
    obtain ⟨f, hf, hid⟩ := hoffered c (List.mem_of_getElem? hi)
    obtain ⟨b, hb, hlt, hslice⟩ := slice_blob (l := l) hpage hblob (hmaster i c hi)
    rw [blobContent, hf] at hb
    refine ⟨f, b, hf, hid, hb, by omega, ?_⟩
    rw [hoff, hsize, ← himage]
    exact hslice
  · -- alignment
    intro i hi
    obtain ⟨c, hc⟩ := hnode i hi
    obtain ⟨-, hoff, hsize⟩ := hfields i c hc
    have hle := hplace i c hc
    refine ⟨?_, by omega, by omega⟩
    rw [hoff]
    refine Nat.dvd_add (dvd_add_padding hpage _) (dvd_place (fun m hm => ?_) _)
    rw [← (hblob m hm).2]
    exact dvd_length_blobBytes hpage m
  · intro i j c c' hi hj heq
    obtain ⟨-, hoff, hsize⟩ := hfields i c hi
    obtain ⟨-, hoff', hsize'⟩ := hfields j c' hj
    rw [hoff, hoff', hsize, hsize', heq]
    exact ⟨rfl, rfl⟩
  · intro i j c c' hi hj hne
    obtain ⟨-, hoff, hsize⟩ := hfields i c hi
    obtain ⟨-, hoff', hsize'⟩ := hfields j c' hj
    have hdis : place size ms c.master + size c.master ≤ place size ms c'.master ∨
        place size ms c'.master + size c'.master ≤ place size ms c.master :=
      place_disjoint (hmaster i c hi) (hmaster j c' hj) hne
    omega
  · -- a position behind the table belongs to some blob, which belongs to some entry
    intro p hp
    by_cases hlt : p < dtbOffset page l.length
    · exact .inl hlt
    · have hp' : p - dtbOffset page l.length < (ms.map size).sum := by omega
      obtain ⟨m, hm, h1, h2⟩ := exists_place hnodup hp'
      obtain ⟨c, hc, rfl⟩ := List.mem_map.1 ((hmem m).1 hm)
      obtain ⟨i, hi, hget⟩ := List.mem_iff_getElem.1 hc
      have hi' : l[i]? = some c := by rw [List.getElem?_eq_getElem hi, hget]
      obtain ⟨-, hoff, hsize⟩ := hfields i c hi'
      exact .inr ⟨i, hi, by omega, by omega⟩

/-- The bytes `main` hands to `write`. -/
def image (page : ℕ) (dir : List DirEntry) : Bytes := (generate page dir).buffers.flatten

/-- When the second walk gets to the end, the two walks agree. -/
theorem image_eq_assemble {page : ℕ} {dir : List DirEntry}
    (hok : (generate page dir).ok = true) (hlen : (image page dir).length < 2 ^ 31) :
    image page dir = assemble page (dtbSize page dir) (blobContent dir) (scan dir).chipList
        (firsts [] ((scan dir).chipList.map ChipInfo.master)) ∧
      (generate page dir).expected = (image page dir).length ∧
      ∀ m ∈ firsts [] ((scan dir).chipList.map ChipInfo.master),
        (blobContent dir m).isSome = true ∧
          (blobBytes page (blobContent dir) m).length = dtbSize page dir m := by
  have hcount := (scanned_scan dir).1.count
  obtain ⟨hdtbs, hsizes⟩ := writeDtbs_spec [] (fun _ => rfl) hok
  have hmagic : (ascii "QCDT").length = 4 := by decide
  have hflat : image page dir = ascii "QCDT" ++ le32 qcdtVersion ++
    le32 (scan dir).chipList.length ++
      ((writeTable (dtbSize page dir) ⟨dtbOffset page (scan dir).chipList.length, fun _ => 0⟩
        (scan dir).chipList).1.flatten ++
        (List.replicate (4 + padding page (tableEnd (scan dir).chipList.length)) 0 ++
          (firsts [] ((scan dir).chipList.map ChipInfo.master)).flatMap
            (blobBytes page (blobContent dir)))) := by
    rw [← hdtbs, image, generate, hcount, List.replicate_add]
    simp only [List.flatten_append, List.flatten_cons, List.flatten_nil, List.append_nil,
      List.append_assoc]
    rfl
  have hlength : (image page dir).length = dtbOffset page (scan dir).chipList.length +
      ((firsts [] ((scan dir).chipList.map ChipInfo.master)).flatMap
        (blobBytes page (blobContent dir))).length := by
    rw [hflat]
    simp only [List.length_append, length_writeTable, List.length_replicate, hmagic, length_le32,
      dtbOffset, tableEnd]
    omega
  -- the sizes of the table are the sizes of the blobs
  have hblob : ∀ m ∈ firsts [] ((scan dir).chipList.map ChipInfo.master),
      (blobContent dir m).isSome = true ∧
        (blobBytes page (blobContent dir) m).length = dtbSize page dir m := by
    intro m hm
    obtain ⟨hsome, hmod⟩ := hsizes m hm
    refine ⟨hsome, ?_⟩
    have hle : place (fun m => (blobBytes page (blobContent dir) m).length) _ m +
        (blobBytes page (blobContent dir) m).length ≤ _ := place_add_le hm
    rw [← length_flatMap_blob fun _ _ => rfl] at hle
    rw [← hmod, Nat.mod_eq_of_lt (by omega)]
  have hsum := length_flatMap_blob fun m hm => (hblob m hm).2
  have hbase : 0 < dtbOffset page (scan dir).chipList.length := by
    unfold dtbOffset tableEnd
    omega
  obtain ⟨htable, hexp⟩ := writeTable_spec hbase []
    (w := ⟨dtbOffset page (scan dir).chipList.length, fun _ => 0⟩) (l := (scan dir).chipList)
    rfl (fun _ => rfl) (by rw [List.nil_append, ← hsum]; omega)
  refine ⟨?_, ?_, hblob⟩
  · rw [hflat, htable]
    rfl
  · rw [hlength, hsum, ← hcount] at *
    exact hexp

/-- **The layout of the image.**  When `main` succeeds, whatever the calls to `write` did, the
output file starts with the whole image, and the image has a table of the chip list whose entries
point to their blobs. -/
theorem main_layout {page : ℕ} (hpage : 0 < page) {moved : ℕ → ℕ → Option ℕ} {old file : Bytes}
    {dir : List DirEntry} (h : main page moved old dir = (0, some file))
    (hlen : (image page dir).length < 2 ^ 31) :
    file = image page dir ++ old.drop (image page dir).length ∧
      QcdtLayout page dir (scan dir).chipList (image page dir) := by
  unfold main at h
  dsimp only at h
  split_ifs at h with hzero hwrote
  · exact absurd (Prod.mk.inj h).2 nofun
  swap
  · exact absurd (Prod.mk.inj h).1 (by decide)
  obtain ⟨hok, hcong⟩ := hwrote
  obtain ⟨himage, hexp, hblob⟩ := image_eq_assemble hok hlen
  -- the sum of the results can only agree with `expected` when every write was complete
  have hne : ∀ b ∈ (generate page dir).buffers, b ≠ [] := by
    intro b hb
    have hpad : List.replicate (padding page (tableEnd (scan dir).dtbCount)) (0 : UInt8) ≠ [] :=
      List.ne_nil_of_length_pos (by rw [List.length_replicate]; exact padding_pos hpage _)
    rcases List.mem_append.1 hb with hb | hb
    · rcases List.mem_append.1 hb with hb | hb
      · rcases List.mem_append.1 hb with hb | hb
        · simp only [List.mem_cons, List.not_mem_nil, or_false] at hb
          rcases hb with rfl | rfl | rfl
          · decide
          · exact le32_ne_nil _
          · exact le32_ne_nil _
        · exact ne_nil_of_mem_writeTable hb
      · simp only [List.mem_cons, List.not_mem_nil, or_false] at hb
        rcases hb with rfl | rfl
        · exact le32_ne_nil _
        · exact hpad
    · exact ne_nil_of_mem_writeDtbs hpage hb
  have hnum := length_le_flatten hne
  obtain ⟨hlow, hhigh, hfull⟩ := writeAll_spec moved (n := 0) (generate page dir).buffers
    (Nat.zero_le old.length)
  have hsum : (writeAll moved 0 0 old (generate page dir).buffers).1 = (image page dir).length := by
    rw [hexp] at hcong
    change _ ≤ (image page dir).length at hnum
    change _ ≤ ((image page dir).length : ℤ) at hhigh
    omega
  constructor
  · have hfile := (Prod.mk.inj h).2
    rw [hfull hsum] at hfile
    rw [← Option.some.inj hfile, patch, List.take_zero, List.nil_append, Nat.zero_add]
    rfl
  · rw [himage] at hlen ⊢
    refine layout_assemble hpage (fun c hc => ?_) hblob (by omega)
    obtain ⟨f, hf, -, hid⟩ := (scanned_scan dir).1.offered c hc
    exact ⟨f, hf, hid⟩

/-- Two blobs whose tuples alternate in the table. -/
def sampleDir : List DirEntry :=
  [⟨true, ascii "a.dtb", [⟨206, 0, 0, 1, 0, 0, 0, 0⟩, ⟨206, 0, 0, 3, 0, 0, 0, 0⟩], some 4,
      some [1, 2, 3, 4]⟩,
    ⟨true, ascii "b.dtb", [⟨206, 0, 0, 2, 0, 0, 0, 0⟩], some 3, some [5, 6, 7]⟩]

/-- The image of the two blobs with pages of 64 bytes. -/
theorem main_layout_sampleDir :
    main 64 (fun _ len => some len) [] sampleDir = (0, some (image 64 sampleDir)) ∧
      QcdtLayout 64 sampleDir (scan sampleDir).chipList (image 64 sampleDir) := by
  have hmain : main 64 (fun _ len => some len) [] sampleDir = (0, some (image 64 sampleDir)) := by
    decide +kernel
  exact ⟨hmain, (main_layout (by decide) hmain (by decide +kernel)).2⟩

end Dtbtool

end Msm8909w
