import Msm8909w.Lib.Dict
import Msm8909w.Lib.Layout

/-!
# The single bootloader image of `make_image_tool.py`

The tool packs the boot images into `bootloader.img`: a `meta_header_t`, an `img_header_entry_t`
for each image, and the images.  The offset of the first image is computed from the number of
requested images, before any of them is opened; an image that cannot be opened is skipped.  Names
and version are filled up with zeros to the length of their fields but never cut.

* `parseArgs_spec` : the dictionaries hold, for each image name, the last pair of the command line,
* `exists_item_of_mem_infos`, `exists_info_of_mem_items`, `startOffset_of_infos` : the entries
  describe the files that could be opened, one after another,
* `directory_iff` : the directory of the image is right exactly when every requested file opens
  and reads as many bytes as it was said to have, and the names and the version fit their fields.
-/

namespace Msm8909w

namespace MetaImage

/-! ### The command line -/

/-- `str.split()`. -/
def split (s : Bytes) : List Bytes := (s.splitOnP isSpace).filter (· ≠ [])

/-- `temp_image_name`. -/
def imageName (holder : Bytes) : Bytes :=
  if holder = ascii "aboot" then ascii "apps"
  else if holder = ascii "sbl1" then ascii "boot"
  else holder

/-- The variables the command line is read into.  Both dictionaries have the image names as keys. -/
structure Args where
  optionsVersion : Bytes
  imageNameList : List (Bytes × Bytes)
  partitionNameMap : List (Bytes × Bytes)

/-- The loop over `input_cmdargs`, from index `i` on; `-v` without a version is an `IndexError`. -/
def parseLoop : ℕ → Bytes → Args → List Bytes → Option Args
  | _, _, st, [] => some st
  | i, holder, st, a :: rest =>
    if a = ascii "-v" then rest.head?.map fun version => { st with optionsVersion := version }
    else if i % 2 = 1 then parseLoop (i + 1) a st rest
    else parseLoop (i + 1) holder
      { st with
        imageNameList := assign Prod.fst st.imageNameList (imageName holder, a)
        partitionNameMap := assign Prod.fst st.partitionNameMap (imageName holder, holder) } rest

/-- The variables after the command line has been read. -/
def parseArgs (words : List Bytes) : Option Args := parseLoop 1 [] ⟨[], [], []⟩ words

/-! ### The entries -/

/-- What becomes of `open` and `os.stat` on a path.  The content is what `read` returns later on,
when the image is written; nothing forces it to have the size `os.stat` has reported. -/
inductive FileResult where
  | ioError
  | statError
  | file (stSize : ℕ) (content : Bytes)
  deriving DecidableEq

/-- `ImageHeader`, with the bytes of its file. -/
structure ImageHeader where
  ptnName : Bytes
  startOffset : ℕ
  size : ℕ
  content : Bytes
  deriving DecidableEq

/-- The loop that fills `image_info_list`.  It gives up when a file that has been opened cannot be
examined. -/
def imageInfos (fs : Bytes → FileResult) (partitionNameMap : List (Bytes × Bytes)) :
    ℕ → List (Bytes × Bytes) → Option (List ImageHeader)
  | _, [] => some []
  | offset, (name, path) :: items =>
    match fs path with
    | .ioError => imageInfos fs partitionNameMap offset items
    | .statError => none
    | .file stSize content => do
      let ptnName ← partitionNameMap.lookup name
      let infos ← imageInfos fs partitionNameMap (offset + stSize) items
      some (⟨ptnName, offset, stSize, content⟩ :: infos)

/-! ### The image -/

/-- `META_HEADER_SIZE`. -/
def metaHeaderSize : ℕ := 76

/-- `IMAGE_HEADER_SIZE`. -/
def imageHeaderSize : ℕ := 80

/-- A text, filled up with zeros to `n` bytes. -/
def pad (n : ℕ) (text : Bytes) : Bytes := text ++ List.replicate (n - text.length) 0

/-- `struct.pack('<H', v)`. -/
def packH (v : ℕ) : Option Bytes := if v < 2 ^ 16 then some (toLE 2 v) else none

/-- `struct.pack('<I', v)`. -/
def packI (v : ℕ) : Option Bytes := if v < 2 ^ 32 then some (toLE 4 v) else none

/-- An `img_header_entry_t`. -/
def writeEntry (info : ImageHeader) : Option Bytes := do
  let startOffset ← packI info.startOffset
  let size ← packI info.size
  some (pad 72 info.ptnName ++ startOffset ++ size)

/-- The `img_header_entry` list. -/
def writeEntries : List ImageHeader → Option Bytes
  | [] => some []
  | info :: infos => do
    let entry ← writeEntry info
    let entries ← writeEntries infos
    some (entry ++ entries)

/-- The `meta_header_t`. -/
def writeHeader (args : Args) : Option Bytes := do
  let magic ← packI 0xce1ad63c
  let major ← packH 1
  let minor ← packH 0
  let metaHdrSz ← packH metaHeaderSize
  let imgHdrSz ← packH (imageHeaderSize * args.imageNameList.length)
  some (magic ++ major ++ minor ++ pad 64 args.optionsVersion ++ metaHdrSz ++ imgHdrSz)

/-- The content of `bootloader.img`. -/
def writeBootloader (args : Args) (infos : List ImageHeader) : Option Bytes := do
  let header ← writeHeader args
  let entries ← writeEntries infos
  some (header ++ entries ++ infos.flatMap ImageHeader.content)

/-- The order in which `iteritems` lists a dictionary, which is arbitrary. -/
structure IterOrder where
  items : List (Bytes × Bytes) → List (Bytes × Bytes)
  perm : ∀ d, (items d).Perm d

/-- The script: `image_info_list` and `bootloader.img`, when it is written to the end. -/
def makeImage (fs : Bytes → FileResult) (order : IterOrder) (argv : Bytes) :
    Option (List ImageHeader × Bytes) := do
  let args ← parseArgs (split argv)
  let infos ← imageInfos fs args.partitionNameMap
    (metaHeaderSize + imageHeaderSize * args.imageNameList.length) (order.items args.imageNameList)
  let image ← writeBootloader args infos
  some (infos, image)

/-! ### What the command line asks for -/

/-- The pairs of partition and path before `-v`. -/
def argPairs : List Bytes → List (Bytes × Bytes)
  | p :: q :: rest =>
    if p = ascii "-v" ∨ q = ascii "-v" then [] else (p, q) :: argPairs rest
  | _ => []

/-- The version behind `-v`, if any. -/
def argVersion : List Bytes → Bytes
  | a :: b :: rest => if a = ascii "-v" then b else argVersion (b :: rest)
  | _ => []

/-- The file at `path` is the one given for the partition `ptn`: the pair stands on the command
line, and no later pair has the same image name (which one with the same partition would have). -/
def Given (words : List Bytes) (ptn path : Bytes) : Prop :=
  ∃ pre post, argPairs words = pre ++ (ptn, path) :: post ∧
    ∀ q ∈ post, imageName q.1 ≠ imageName ptn

/-- The pairs the tool works on. -/
def requests (words : List Bytes) : List (Bytes × Bytes) :=
  (argPairs words).foldl (assign fun p => imageName p.1) []

theorem isDict_requests (words : List Bytes) :
    IsDict (fun p : Bytes × Bytes => imageName p.1) (requests words) :=
  isDict_foldl_assign List.Pairwise.nil

theorem mem_requests {words : List Bytes} {ptn path : Bytes} :
    (ptn, path) ∈ requests words ↔ Given words ptn path := by
  rw [requests, mem_foldl_assign List.Pairwise.nil]
  simp [Given]

/-- The dictionaries that hold the pairs `d`. -/
def argsOf (version : Bytes) (d : List (Bytes × Bytes)) : Args :=
  ⟨version, d.map fun p => (imageName p.1, p.2), d.map fun p => (imageName p.1, p.1)⟩

theorem length_imageNameList (version : Bytes) (d : List (Bytes × Bytes)) :
    (argsOf version d).imageNameList.length = d.length := List.length_map _

/-- The loop, from an odd index on: it assigns the pairs one after another. -/
theorem parseLoop_spec {words : List Bytes} {i : ℕ} {holder : Bytes} {d : List (Bytes × Bytes)}
    {args : Args} (hi : i % 2 = 1) (h : parseLoop i holder (argsOf [] d) words = some args) :
    args = argsOf (argVersion words)
      ((argPairs words).foldl (assign fun p => imageName p.1) d) := by
  induction words using argPairs.induct generalizing i holder d with
  | case1 p q rest hv =>
    rw [argPairs, if_pos hv, argVersion]
    by_cases hp : p = ascii "-v"
    · rw [parseLoop, if_pos hp] at h
      rw [if_pos hp]
      exact (Option.some.inj h).symm
    · have hq := hv.resolve_left hp
      rw [parseLoop, if_neg hp, if_pos hi, parseLoop, if_pos hq] at h
      cases rest with
      | nil => cases h
      | cons version rest =>
        rw [if_neg hp, argVersion, if_pos hq]
        exact (Option.some.inj h).symm
  | case2 p q rest hv ih =>
    obtain ⟨hp, hq⟩ := not_or.1 hv
    have hi' : ¬ (i + 1) % 2 = 1 := by omega
    rw [parseLoop, if_neg hp, if_pos hi, parseLoop, if_neg hq, if_neg hi'] at h
    have hd : (⟨[], assign Prod.fst (argsOf [] d).imageNameList (imageName p, q),
        assign Prod.fst (argsOf [] d).partitionNameMap (imageName p, p)⟩ : Args) =
        argsOf [] (assign (fun p => imageName p.1) d (p, q)) := by
      simp only [argsOf, Args.mk.injEq, true_and]
      exact ⟨(map_assign (f := fun p : Bytes × Bytes => (imageName p.1, p.2)) (a := (p, q))
          fun _ => rfl).symm,
        (map_assign (f := fun p : Bytes × Bytes => (imageName p.1, p.1)) (a := (p, q))
          fun _ => rfl).symm⟩
    have hversion : argVersion (p :: q :: rest) = argVersion rest := by
      rw [argVersion, if_neg hp]
      cases rest with
      | nil => rfl
      | cons r rest => rw [argVersion, if_neg hq]
    have hodd : (i + 1 + 1) % 2 = 1 := by omega
    rw [argPairs, if_neg hv, List.foldl_cons, hversion]
    exact ih hodd (hd ▸ h)
  | case3 words hshort =>
    -- a partition without a path is dropped, `-v` without a version does not get here
    have hpairs : argPairs words = [] := by rw [argPairs]; exact hshort
    match words with
    | [] => exact (Option.some.inj h).symm
    | [p] =>
      by_cases hp : p = ascii "-v"
      · rw [parseLoop, if_pos hp] at h
        cases h
      · rw [parseLoop, if_neg hp, if_pos hi] at h
        exact (Option.some.inj h).symm
    | p :: q :: rest => exact absurd rfl (hshort p q rest)

theorem parseArgs_spec {words : List Bytes} {args : Args} (h : parseArgs words = some args) :
    args = argsOf (argVersion words) (requests words) :=
  parseLoop_spec (d := []) rfl h

/-! ### The entries describe the files that open -/

section Infos

variable {fs : Bytes → FileResult} {names items : List (Bytes × Bytes)} {offset : ℕ}
  {infos : List ImageHeader}

theorem imageInfos_cons {name path : Bytes}
    (h : imageInfos fs names offset ((name, path) :: items) = some infos) :
    (fs path = .ioError ∧ imageInfos fs names offset items = some infos) ∨
      ∃ stSize content ptn rest, fs path = .file stSize content ∧
        names.lookup name = some ptn ∧
        imageInfos fs names (offset + stSize) items = some rest ∧
        infos = ⟨ptn, offset, stSize, content⟩ :: rest := by
  rw [imageInfos] at h
  split at h
  · rename_i hfs
    exact .inl ⟨hfs, h⟩
  · cases h
  · rename_i stSize content hfs
    simp only [Option.bind_eq_bind, Option.bind_eq_some_iff, Option.some.injEq] at h
    obtain ⟨ptn, hptn, rest, hrest, heq⟩ := h
    exact .inr ⟨stSize, content, ptn, rest, hfs, hptn, hrest, heq.symm⟩

/-- Every entry describes a file that has been opened. -/
theorem exists_item_of_mem_infos (h : imageInfos fs names offset items = some infos)
    {info : ImageHeader} (hmem : info ∈ infos) :
    ∃ name path, (name, path) ∈ items ∧ names.lookup name = some info.ptnName ∧
      fs path = .file info.size info.content := by
  induction items generalizing offset infos with
  | nil =>
    cases h
    cases hmem
  | cons item items ih =>
    obtain ⟨-, hrest⟩ | ⟨stSize, content, ptn, rest, hfs, hptn, hrest, rfl⟩ := imageInfos_cons h
    · obtain ⟨name, path, hitem, hinfo⟩ := ih hrest hmem
      exact ⟨name, path, List.mem_cons_of_mem _ hitem, hinfo⟩
    · obtain rfl | hmem := List.mem_cons.1 hmem
      · exact ⟨item.1, item.2, List.mem_cons_self, hptn, hfs⟩
      · obtain ⟨name, path, hitem, hinfo⟩ := ih hrest hmem
        exact ⟨name, path, List.mem_cons_of_mem _ hitem, hinfo⟩

/-- A request either gets an entry or its file could not be opened. -/
theorem exists_info_of_mem_items (h : imageInfos fs names offset items = some infos)
    {name path : Bytes} (hmem : (name, path) ∈ items) :
    fs path = .ioError ∨ ∃ info ∈ infos, names.lookup name = some info.ptnName ∧
      fs path = .file info.size info.content := by
  induction items generalizing offset infos with
  | nil => cases hmem
  | cons item items ih =>
    obtain ⟨hio, hrest⟩ | ⟨stSize, content, ptn, rest, hfs, hptn, hrest, rfl⟩ := imageInfos_cons h
    · obtain rfl | hmem := List.mem_cons.1 hmem
      · exact .inl hio
      · exact ih hrest hmem
    · obtain rfl | hmem := List.mem_cons.1 hmem
      · exact .inr ⟨_, List.mem_cons_self, hptn, hfs⟩
      · obtain hio | ⟨info, hinfo, hspec⟩ := ih hrest hmem
        · exact .inl hio
        · exact .inr ⟨info, List.mem_cons_of_mem _ hinfo, hspec⟩

theorem length_imageInfos_le (h : imageInfos fs names offset items = some infos) :
    infos.length ≤ items.length := by
  induction items generalizing offset infos with
  | nil =>
    cases h
    exact le_rfl
  | cons item items ih =>
    obtain ⟨-, hrest⟩ | ⟨stSize, content, ptn, rest, -, -, hrest, rfl⟩ := imageInfos_cons h
    · exact (ih hrest).trans (Nat.le_succ _)
    · exact Nat.succ_le_succ (ih hrest)

/-- No request is lost exactly when every file opens. -/
theorem length_imageInfos_eq_iff (h : imageInfos fs names offset items = some infos) :
    infos.length = items.length ↔ ∀ item ∈ items, fs item.2 ≠ .ioError := by
  induction items generalizing offset infos with
  | nil =>
    cases h
    simp
  | cons item items ih =>
    rw [List.forall_mem_cons]
    obtain ⟨hio, hrest⟩ | ⟨stSize, content, ptn, rest, hfs, -, hrest, rfl⟩ := imageInfos_cons h
    · have hle := length_imageInfos_le hrest
      constructor
      · intro heq
        rw [List.length_cons] at heq
        omega
      · exact fun hall => absurd hio hall.1
    · rw [List.length_cons, List.length_cons, Nat.add_right_cancel_iff, ih hrest, hfs]
      simp

/-- The images follow each other from `offset` on. -/
theorem startOffset_of_infos (h : imageInfos fs names offset items = some infos) {i : ℕ}
    {info : ImageHeader} (hi : infos[i]? = some info) :
    info.startOffset = offset + ((infos.take i).map ImageHeader.size).sum := by
  induction items generalizing offset infos i with
  | nil =>
    cases h
    cases hi
  | cons item items ih =>
    obtain ⟨-, hrest⟩ | ⟨stSize, content, ptn, rest, -, -, hrest, rfl⟩ := imageInfos_cons h
    · exact ih hrest hi
    · cases i with
      | zero =>
        cases hi
        simp
      | succ i =>
        rw [ih hrest hi, List.take_succ_cons, List.map_cons, List.sum_cons, Nat.add_assoc]

end Infos

/-! ### Reading the image back -/

/-- `meta_hdr_sz`. -/
def metaHdrSz (image : Bytes) : ℕ := ofLE (slice image 72 2)

/-- `img_hdr_sz`. -/
def imgHdrSz (image : Bytes) : ℕ := ofLE (slice image 74 2)

/-- `img_version`. -/
def imgVersion (image : Bytes) : Bytes := slice image 8 64

/-- The bytes of the `img_header_entry_t` with index `i`. -/
def entryAt (image : Bytes) (i : ℕ) : Bytes :=
  slice image (metaHdrSz image + imageHeaderSize * i) imageHeaderSize

/-- `ptn_name` of an entry. -/
def ptnName (entry : Bytes) : Bytes := slice entry 0 72

/-- `start_offset` of an entry. -/
def startOffset (entry : Bytes) : ℕ := ofLE (slice entry 72 4)

/-- `size` of an entry. -/
def size (entry : Bytes) : ℕ := ofLE (slice entry 76 4)

/-- The directory of the image is right. -/
structure Directory (fs : Bytes → FileResult) (words : List Bytes) (infos : List ImageHeader)
    (image : Bytes) : Prop where
  /-- The version stands in a field of 64 bytes. -/
  version : imgVersion image = pad 64 (argVersion words)
  /-- The first entry follows the header. -/
  metaHdr : metaHdrSz image = metaHeaderSize
  /-- The size of the list is that of the entries that were written. -/
  imgHdr : imgHdrSz image = imageHeaderSize * infos.length
  /-- The entries carry the names of their partitions. -/
  names : ∀ i info, infos[i]? = some info → ptnName (entryAt image i) = pad 72 info.ptnName
  /-- The entries locate the files that were given for their partitions. -/
  located : ∀ i info, infos[i]? = some info → ∃ path stSize content,
    Given words info.ptnName path ∧ fs path = .file stSize content ∧
      startOffset (entryAt image i) + size (entryAt image i) ≤ image.length ∧
      slice image (startOffset (entryAt image i)) (size (entryAt image i)) = content

/-- What the tool relies on: every file it is given opens and reads as many bytes as it was said
to have, and the names and the version fit their fields. -/
structure Fits (fs : Bytes → FileResult) (words : List Bytes) : Prop where
  opens : ∀ ptn path, Given words ptn path → ∃ content, fs path = .file content.length content
  names : ∀ ptn path, Given words ptn path → ptn.length ≤ 72
  version : (argVersion words).length ≤ 64

/-- The bytes of an entry. -/
def entryBytes (info : ImageHeader) : Bytes :=
  pad 72 info.ptnName ++ toLE 4 info.startOffset ++ toLE 4 info.size

/-- The bytes of the header. -/
def headerBytes (args : Args) : Bytes :=
  toLE 4 0xce1ad63c ++ toLE 2 1 ++ toLE 2 0 ++ pad 64 args.optionsVersion ++
    toLE 2 metaHeaderSize ++ toLE 2 (imageHeaderSize * args.imageNameList.length)

theorem length_pad {n : ℕ} {text : Bytes} (h : text.length ≤ n) : (pad n text).length = n := by
  rw [pad, List.length_append, List.length_replicate]
  omega

theorem le_length_pad (n : ℕ) (text : Bytes) : text.length ≤ (pad n text).length := by
  rw [pad, List.length_append]
  omega

/-- A text that is read back from a field of `n` bytes fits it. -/
theorem length_le_of_slice_eq_pad {image text : Bytes} {off n : ℕ}
    (h : slice image off n = pad n text) : text.length ≤ n := by
  have hle : (slice image off n).length ≤ n := List.length_take_le _ _
  rw [h] at hle
  exact (le_length_pad n text).trans hle

theorem packI_eq_some {v : ℕ} {b : Bytes} (h : packI v = some b) : v < 2 ^ 32 ∧ b = toLE 4 v := by
  rw [packI] at h
  split_ifs at h with hv
  exact ⟨hv, (Option.some.inj h).symm⟩

theorem packH_eq_some {v : ℕ} {b : Bytes} (h : packH v = some b) : v < 2 ^ 16 ∧ b = toLE 2 v := by
  rw [packH] at h
  split_ifs at h with hv
  exact ⟨hv, (Option.some.inj h).symm⟩

theorem writeEntries_spec {infos : List ImageHeader} {entries : Bytes}
    (h : writeEntries infos = some entries) :
    entries = infos.flatMap entryBytes ∧
      ∀ info ∈ infos, info.startOffset < 2 ^ 32 ∧ info.size < 2 ^ 32 := by
  induction infos generalizing entries with
  | nil =>
    cases h
    exact ⟨rfl, fun info hinfo => by cases hinfo⟩
  | cons info infos ih =>
    simp only [writeEntries, writeEntry, Option.bind_eq_bind, Option.bind_eq_some_iff,
      Option.some.injEq] at h
    obtain ⟨_, ⟨_, hstart, _, hsize, rfl⟩, rest, hrest, rfl⟩ := h
    obtain ⟨hstart_lt, rfl⟩ := packI_eq_some hstart
    obtain ⟨hsize_lt, rfl⟩ := packI_eq_some hsize
    obtain ⟨rfl, hlt⟩ := ih hrest
    exact ⟨rfl, List.forall_mem_cons.2 ⟨⟨hstart_lt, hsize_lt⟩, hlt⟩⟩

theorem writeBootloader_spec {args : Args} {infos : List ImageHeader} {image : Bytes}
    (h : writeBootloader args infos = some image) :
    image = headerBytes args ++ infos.flatMap entryBytes ++ infos.flatMap ImageHeader.content ∧
      imageHeaderSize * args.imageNameList.length < 2 ^ 16 ∧
      ∀ info ∈ infos, info.startOffset < 2 ^ 32 ∧ info.size < 2 ^ 32 := by
  simp only [writeBootloader, writeHeader, Option.bind_eq_bind, Option.bind_eq_some_iff,
    Option.some.injEq] at h
  obtain ⟨_, ⟨_, hmagic, _, hmajor, _, hminor, _, hmeta, _, himg, rfl⟩, entries, hentries, rfl⟩ := h
  obtain ⟨-, rfl⟩ := packI_eq_some hmagic
  obtain ⟨-, rfl⟩ := packH_eq_some hmajor
  obtain ⟨-, rfl⟩ := packH_eq_some hminor
  obtain ⟨-, rfl⟩ := packH_eq_some hmeta
  obtain ⟨himg_lt, rfl⟩ := packH_eq_some himg
  obtain ⟨rfl, hlt⟩ := writeEntries_spec hentries
  exact ⟨rfl, himg_lt, hlt⟩

section Layout

variable {args : Args} {infos : List ImageHeader} {tail : Bytes}

theorem length_headerBytes (hv : args.optionsVersion.length ≤ 64) :
    (headerBytes args).length = metaHeaderSize := by
  simp only [headerBytes, List.length_append, length_toLE, length_pad hv, metaHeaderSize]

theorem length_entryBytes {info : ImageHeader} (hn : info.ptnName.length ≤ 72) :
    (entryBytes info).length = imageHeaderSize := by
  simp only [entryBytes, List.length_append, length_toLE, length_pad hn, imageHeaderSize]

theorem imgVersion_headerBytes (hv : args.optionsVersion.length ≤ 64) :
    imgVersion (headerBytes args ++ tail) = pad 64 args.optionsVersion := by
  have hsplit : headerBytes args ++ tail =
      (toLE 4 0xce1ad63c ++ toLE 2 1 ++ toLE 2 0) ++ pad 64 args.optionsVersion ++
        (toLE 2 metaHeaderSize ++
          (toLE 2 (imageHeaderSize * args.imageNameList.length) ++ tail)) := by
    simp only [headerBytes, List.append_assoc]
  rw [imgVersion, hsplit]
  exact slice_middle (by simp) (length_pad hv)

theorem metaHdrSz_headerBytes (hv : args.optionsVersion.length ≤ 64) :
    metaHdrSz (headerBytes args ++ tail) = metaHeaderSize := by
  have hsplit : headerBytes args ++ tail =
      (toLE 4 0xce1ad63c ++ toLE 2 1 ++ toLE 2 0 ++ pad 64 args.optionsVersion) ++
        toLE 2 metaHeaderSize ++
          (toLE 2 (imageHeaderSize * args.imageNameList.length) ++ tail) := by
    simp only [headerBytes, List.append_assoc]
  rw [metaHdrSz, hsplit, slice_middle (by simp [length_pad hv]) (length_toLE 2 _), ofLE_toLE]
  rfl

theorem imgHdrSz_headerBytes (hv : args.optionsVersion.length ≤ 64)
    (hlt : imageHeaderSize * args.imageNameList.length < 2 ^ 16) :
    imgHdrSz (headerBytes args ++ tail) = imageHeaderSize * args.imageNameList.length := by
  rw [imgHdrSz, headerBytes, slice_middle (by simp [length_pad hv]) (length_toLE 2 _), ofLE_toLE]
  exact Nat.mod_eq_of_lt hlt

theorem entryAt_headerBytes (hv : args.optionsVersion.length ≤ 64)
    (hn : ∀ info ∈ infos, info.ptnName.length ≤ 72) {i : ℕ} {info : ImageHeader}
    (hi : infos[i]? = some info) :
    entryAt (headerBytes args ++ infos.flatMap entryBytes ++ tail) i = entryBytes info := by
  have hl : ∀ info ∈ infos, (entryBytes info).length = imageHeaderSize :=
    fun info hinfo => length_entryBytes (hn info hinfo)
  have hlt : i < infos.length := (List.getElem?_eq_some_iff.1 hi).1
  have hend : imageHeaderSize * i + imageHeaderSize ≤ (infos.flatMap entryBytes).length := by
    rw [length_flatMap_const hl, ← Nat.mul_succ]
    exact Nat.mul_le_mul_left _ hlt
  rw [entryAt, List.append_assoc, metaHdrSz_headerBytes hv, ← length_headerBytes hv,
    slice_append_right, slice_append_left hend, slice_flatMap_const hl hi]

theorem ptnName_entryBytes {info : ImageHeader} (hn : info.ptnName.length ≤ 72) :
    ptnName (entryBytes info) = pad 72 info.ptnName := by
  rw [ptnName, entryBytes, List.append_assoc]
  exact slice_prefix (length_pad hn)

theorem startOffset_entryBytes {info : ImageHeader} (hn : info.ptnName.length ≤ 72)
    (hlt : info.startOffset < 2 ^ 32) : startOffset (entryBytes info) = info.startOffset := by
  rw [startOffset, entryBytes, slice_middle (length_pad hn) (length_toLE 4 _), ofLE_toLE]
  exact Nat.mod_eq_of_lt hlt

theorem size_entryBytes {info : ImageHeader} (hn : info.ptnName.length ≤ 72)
    (hlt : info.size < 2 ^ 32) : size (entryBytes info) = info.size := by
  rw [size, entryBytes, slice_suffix (by simp [length_pad hn]) (length_toLE 4 _), ofLE_toLE]
  exact Nat.mod_eq_of_lt hlt

end Layout

/-! ### The directory -/

section Correctness

variable {fs : Bytes → FileResult} {order : IterOrder} {argv : Bytes} {infos : List ImageHeader}
  {image : Bytes}

/-- The entries and the image of a run that gets to the end. -/
theorem makeImage_spec (h : makeImage fs order argv = some (infos, image)) :
    let args := argsOf (argVersion (split argv)) (requests (split argv))
    imageInfos fs args.partitionNameMap
        (metaHeaderSize + imageHeaderSize * args.imageNameList.length)
        (order.items args.imageNameList) = some infos ∧
      writeBootloader args infos = some image := by
  simp only [makeImage, Option.bind_eq_bind, Option.bind_eq_some_iff, Option.some.injEq,
    Prod.mk.injEq] at h
  obtain ⟨args, hargs, infos, hinfos, image, himage, rfl, rfl⟩ := h
  cases parseArgs_spec hargs
  exact ⟨hinfos, himage⟩

/-- The requests a dictionary entry stands for. -/
theorem mem_items {words : List Bytes} {version name path : Bytes} :
    (name, path) ∈ order.items (argsOf version (requests words)).imageNameList ↔
      ∃ ptn, Given words ptn path ∧ imageName ptn = name := by
  rw [(order.perm _).mem_iff]
  simp only [argsOf, List.mem_map, Prod.exists, Prod.mk.injEq, mem_requests]
  constructor
  · rintro ⟨ptn, path, hgiven, rfl, rfl⟩
    exact ⟨ptn, hgiven, rfl⟩
  · rintro ⟨ptn, hgiven, rfl⟩
    exact ⟨ptn, path, hgiven, rfl, rfl⟩

theorem lookup_partitionNameMap {words : List Bytes} {version ptn path : Bytes}
    (h : Given words ptn path) :
    (argsOf version (requests words)).partitionNameMap.lookup (imageName ptn) = some ptn :=
  lookup_map (f := Prod.fst) (isDict_requests words) (mem_requests.2 h)

theorem given_unique {words : List Bytes} {ptn path path' : Bytes} (h : Given words ptn path)
    (h' : Given words ptn path') : path = path' := by
  have := eq_of_key_eq (isDict_requests words) (mem_requests.2 h) (mem_requests.2 h') rfl
  exact congrArg Prod.snd this

/-- Every entry stands for a file that was given. -/
theorem given_of_mem_infos (h : makeImage fs order argv = some (infos, image))
    {info : ImageHeader} (hinfo : info ∈ infos) :
    ∃ path, Given (split argv) info.ptnName path ∧ fs path = .file info.size info.content := by
  obtain ⟨hinfos, -⟩ := makeImage_spec h
  obtain ⟨name, path, hitem, hptn, hfs⟩ := exists_item_of_mem_infos hinfos hinfo
  obtain ⟨ptn, hgiven, rfl⟩ := mem_items.1 hitem
  rw [lookup_partitionNameMap hgiven] at hptn
  cases hptn
  exact ⟨path, hgiven, hfs⟩

/-- A file that was given and opens has an entry. -/
theorem exists_info_of_given (h : makeImage fs order argv = some (infos, image)) {ptn path : Bytes}
    (hgiven : Given (split argv) ptn path) :
    fs path = .ioError ∨
      ∃ info ∈ infos, info.ptnName = ptn ∧ fs path = .file info.size info.content := by
  obtain ⟨hinfos, -⟩ := makeImage_spec h
  obtain hio | ⟨info, hinfo, hptn, hfs⟩ :=
    exists_info_of_mem_items hinfos (mem_items.2 ⟨ptn, hgiven, rfl⟩)
  · exact .inl hio
  · rw [lookup_partitionNameMap hgiven] at hptn
    exact .inr ⟨info, hinfo, (Option.some.inj hptn).symm, hfs⟩

/-- No request is lost exactly when every file opens. -/
theorem length_infos_eq_iff (h : makeImage fs order argv = some (infos, image)) :
    infos.length = (requests (split argv)).length ↔
      ∀ ptn path, Given (split argv) ptn path → fs path ≠ .ioError := by
  obtain ⟨hinfos, -⟩ := makeImage_spec h
  have hlen := (order.perm (argsOf (argVersion (split argv))
    (requests (split argv))).imageNameList).length_eq
  rw [length_imageNameList] at hlen
  rw [← hlen, length_imageInfos_eq_iff hinfos, Prod.forall]
  constructor
  · exact fun hall ptn path hgiven => hall _ path (mem_items.2 ⟨ptn, hgiven, rfl⟩)
  · intro hall name path hitem
    obtain ⟨ptn, hgiven, -⟩ := mem_items.1 hitem
    exact hall ptn path hgiven

theorem image_eq (h : makeImage fs order argv = some (infos, image)) :
    image = headerBytes (argsOf (argVersion (split argv)) (requests (split argv))) ++
        infos.flatMap entryBytes ++ infos.flatMap ImageHeader.content ∧
      imageHeaderSize * (requests (split argv)).length < 2 ^ 16 ∧
      ∀ info ∈ infos, info.startOffset < 2 ^ 32 ∧ info.size < 2 ^ 32 := by
  obtain ⟨-, himage⟩ := makeImage_spec h
  obtain ⟨heq, hlt, hfit⟩ := writeBootloader_spec himage
  rw [length_imageNameList] at hlt
  exact ⟨heq, hlt, hfit⟩

/-- With a version and names that fit, the header and the entries are where they are expected. -/
theorem image_layout (h : makeImage fs order argv = some (infos, image))
    (hv : (argVersion (split argv)).length ≤ 64) :
    imgVersion image = pad 64 (argVersion (split argv)) ∧ metaHdrSz image = metaHeaderSize ∧
      imgHdrSz image = imageHeaderSize * (requests (split argv)).length ∧
      ((∀ info ∈ infos, info.ptnName.length ≤ 72) → ∀ i info, infos[i]? = some info →
        ptnName (entryAt image i) = pad 72 info.ptnName ∧
        startOffset (entryAt image i) = info.startOffset ∧
        size (entryAt image i) = info.size) := by
  obtain ⟨rfl, hlt, hfit⟩ := image_eq h
  rw [← length_imageNameList (argVersion (split argv))] at hlt ⊢
  refine ⟨?_, ?_, ?_, ?_⟩
  · rw [List.append_assoc]
    exact imgVersion_headerBytes hv
  · rw [List.append_assoc]
    exact metaHdrSz_headerBytes hv
  · rw [List.append_assoc]
    exact imgHdrSz_headerBytes hv hlt
  · intro hn i info hi
    have hinfo := List.mem_of_getElem? hi
    rw [entryAt_headerBytes hv hn hi]
    exact ⟨ptnName_entryBytes (hn info hinfo),
      startOffset_entryBytes (hn info hinfo) (hfit info hinfo).1,
      size_entryBytes (hn info hinfo) (hfit info hinfo).2⟩

/-- The images stand where the entries say, when no request is lost and the sizes are right. -/
theorem slice_image (h : makeImage fs order argv = some (infos, image))
    (hv : (argVersion (split argv)).length ≤ 64) (hn : ∀ info ∈ infos, info.ptnName.length ≤ 72)
    (hs : ∀ info ∈ infos, info.content.length = info.size)
    (hlen : infos.length = (requests (split argv)).length) {i : ℕ} {info : ImageHeader}
    (hi : infos[i]? = some info) :
    info.startOffset + info.size ≤ image.length ∧
      slice image info.startOffset info.size = info.content := by
  obtain ⟨hinfos, -⟩ := makeImage_spec h
  obtain ⟨rfl, -, -⟩ := image_eq h
  have hstart := startOffset_of_infos hinfos hi
  obtain ⟨hle, hslice⟩ := slice_flatMap_take hs hi
  have hfront : (headerBytes (argsOf (argVersion (split argv)) (requests (split argv))) ++
      infos.flatMap entryBytes).length =
      metaHeaderSize + imageHeaderSize * (requests (split argv)).length := by
    rw [List.length_append, length_headerBytes hv,
      length_flatMap_const fun info hinfo => length_entryBytes (hn info hinfo), hlen]
  rw [length_imageNameList, ← hfront] at hstart
  rw [hstart]
  constructor
  · have htotal := length_flatMap_blob hs
    simp only [List.length_append]
    omega
  · rw [slice_append_right]
    exact hslice

/-- **The directory of `bootloader.img`**: whenever the tool writes the image to the end, its
directory is right if and only if every file it was given opens and reads as many bytes as it was
said to have, no partition name is longer than 72 bytes and the version no longer than 64. -/
theorem directory_iff (h : makeImage fs order argv = some (infos, image)) :
    Directory fs (split argv) infos image ↔ Fits fs (split argv) := by
  constructor
  · intro hdir
    have hv := length_le_of_slice_eq_pad hdir.version
    have hn : ∀ info ∈ infos, info.ptnName.length ≤ 72 := by
      intro info hinfo
      obtain ⟨i, hi⟩ := List.getElem?_of_mem hinfo
      exact length_le_of_slice_eq_pad (hdir.names i info hi)
    obtain ⟨-, -, himg, hentries⟩ := image_layout h hv
    -- the size of the list in the header counts the requests
    have hlen : infos.length = (requests (split argv)).length := by
      have := himg.symm.trans hdir.imgHdr
      exact (Nat.eq_of_mul_eq_mul_left (by decide) this).symm
    have hopen := (length_infos_eq_iff h).1 hlen
    have hentry : ∀ ptn path, Given (split argv) ptn path →
        (∃ content, fs path = .file content.length content) ∧ ptn.length ≤ 72 := by
      intro ptn path hgiven
      obtain ⟨info, hinfo, rfl, hfs⟩ := (exists_info_of_given h hgiven).resolve_left
        (hopen ptn path hgiven)
      obtain ⟨i, hi⟩ := List.getElem?_of_mem hinfo
      obtain ⟨-, hstart, hsize⟩ := hentries hn i info hi
      obtain ⟨path', stSize, content, hgiven', hfs', hbound, hslice⟩ := hdir.located i info hi
      cases given_unique hgiven hgiven'
      rw [hstart, hsize] at hbound hslice
      have hlength : content.length = stSize := by
        rw [← hslice, length_slice hbound]
        exact (FileResult.file.inj (hfs.symm.trans hfs')).1
      exact ⟨⟨content, hlength ▸ hfs'⟩, hn info hinfo⟩
    exact ⟨fun ptn path hgiven => (hentry ptn path hgiven).1,
      fun ptn path hgiven => (hentry ptn path hgiven).2, hv⟩
  · intro hfits
    have hn : ∀ info ∈ infos, info.ptnName.length ≤ 72 := by
      intro info hinfo
      obtain ⟨path, hgiven, -⟩ := given_of_mem_infos h hinfo
      exact hfits.names info.ptnName path hgiven
    have hs : ∀ info ∈ infos, info.content.length = info.size := by
      intro info hinfo
      obtain ⟨path, hgiven, hfs⟩ := given_of_mem_infos h hinfo
      obtain ⟨content, hcontent⟩ := hfits.opens info.ptnName path hgiven
      obtain ⟨hsize, hcont⟩ := FileResult.file.inj (hfs.symm.trans hcontent)
      rw [hsize, hcont]
    have hlen : infos.length = (requests (split argv)).length := by
      refine (length_infos_eq_iff h).2 fun ptn path hgiven hio => ?_
      obtain ⟨content, hcontent⟩ := hfits.opens ptn path hgiven
      cases hio.symm.trans hcontent
    obtain ⟨hversion, hmeta, himg, hentries⟩ := image_layout h hfits.version
    refine ⟨hversion, hmeta, hlen ▸ himg, fun i info hi => (hentries hn i info hi).1,
      fun i info hi => ?_⟩
    obtain ⟨-, hstart, hsize⟩ := hentries hn i info hi
    obtain ⟨path, hgiven, hfs⟩ := given_of_mem_infos h (List.mem_of_getElem? hi)
    rw [hstart, hsize]
    exact ⟨path, info.size, info.content, hgiven, hfs,
      slice_image h hfits.version hn hs hlen hi⟩

end Correctness

/-! ### A small run -/

/-- A file system that holds the bytes `1, 2, 3` under `s`, and nothing else. -/
def sampleFs (path : Bytes) : FileResult :=
  if path = ascii "s" then .file 3 [1, 2, 3] else .ioError

/-- Dictionaries listed in the order of insertion. -/
def insertionOrder : IterOrder := ⟨fun d => d, fun d => List.Perm.refl d⟩

/-- The directory of a run with a single image, `sbl1 s -v 1`. -/
theorem directory_sampleFs : ∃ infos image,
    makeImage sampleFs insertionOrder (ascii "sbl1 s -v 1") = some (infos, image) ∧
      Directory sampleFs (split (ascii "sbl1 s -v 1")) infos image := by
  have hrun : (makeImage sampleFs insertionOrder (ascii "sbl1 s -v 1")).isSome := by decide
  obtain ⟨⟨infos, image⟩, h⟩ := Option.isSome_iff_exists.1 hrun
  have hpairs : ∀ ptn path, Given (split (ascii "sbl1 s -v 1")) ptn path →
      ptn = ascii "sbl1" ∧ path = ascii "s" := by
    intro ptn path hgiven
    have hmem := mem_requests.2 hgiven
    have hreq : requests (split (ascii "sbl1 s -v 1")) = [(ascii "sbl1", ascii "s")] := by
      decide
    rw [hreq, List.mem_singleton, Prod.mk.injEq] at hmem
    exact hmem
  refine ⟨infos, image, h, (directory_iff h).2 ⟨?_, ?_, by decide⟩⟩
  · intro ptn path hgiven
    obtain ⟨-, rfl⟩ := hpairs ptn path hgiven
    exact ⟨[1, 2, 3], rfl⟩
  · intro ptn path hgiven
    obtain ⟨rfl, -⟩ := hpairs ptn path hgiven
    decide

/-- An image that cannot be opened is skipped, but the header still counts it. -/
theorem skipped_image_counted : ∃ infos image,
    makeImage sampleFs insertionOrder (ascii "sbl1 s tz t -v 1") = some (infos, image) ∧
      infos.length = 1 ∧ imgHdrSz image = 160 ∧
      ¬ Directory sampleFs (split (ascii "sbl1 s tz t -v 1")) infos image := by
  have hrun : ((makeImage sampleFs insertionOrder (ascii "sbl1 s tz t -v 1")).map
      fun r => (r.1.length, imgHdrSz r.2)) = some (1, 160) := by decide
  obtain ⟨⟨infos, image⟩, h, hread⟩ := Option.map_eq_some_iff.1 hrun
  obtain ⟨hlen, himg⟩ := Prod.mk.inj hread
  refine ⟨infos, image, h, hlen, himg, fun hdir => ?_⟩
  have := hdir.imgHdr
  rw [himg, hlen] at this
  cases this

end MetaImage

end Msm8909w
