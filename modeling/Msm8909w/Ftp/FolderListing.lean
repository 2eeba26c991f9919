import Msm8909w.Lib.XmlPages
import Msm8909w.Map.BmessageSMS
import Msm8909w.Map.Listing

/-!
# Folder listings

The texts that list a folder: `sendFolderListingXml` of the FTP server, with files, sizes and
permissions, and `folderListingXML` of the FTP and of the MAP server, with names of folders only.
All three paste the names into an XML document as they are, and the first one keeps the permission
of a file that may neither be read nor written from the file before it.

* `Listing.sendFolderListingXml_eq`, `Listing.folderListingXML_eq` : the texts as pages of XML,
* `Listing.carries_iff` : which permissions are a file's own,
* `Listing.described_iff` : the documents say of each entry what it is, exactly if no name has a
  character that has to be escaped or that XML does not have, and no file without a permission is
  behind one that has one.

A name is a text of UTF-16 units, and the documents are read as such.  The digits of the local
calendar are those of ASCII.
-/

namespace Msm8909w

namespace Ftp

open Map (JString js crlf decimal)

namespace Listing

/-! ### The code -/

/-- The local time of the last change. -/
structure Modified where
  year : ℕ
  month : ℕ
  date : ℕ
  hour : ℕ
  minute : ℕ
  deriving DecidableEq, Repr

/-- A `File`, as the system describes it. -/
structure File where
  name : JString
  isDirectory : Bool := false
  canRead : Bool := true
  canWrite : Bool := true
  length : ℕ := 0
  lastModified : Modified := ⟨1970, 1, 1, 0, 0⟩
  deriving DecidableEq, Repr

def INDEX_YEAR : ℕ := 0
def INDEX_MONTH : ℕ := 1
def INDEX_DATE : ℕ := 2
def INDEX_TIME : ℕ := 3
def INDEX_TIME_HOUR : ℕ := 0
def INDEX_TIME_MINUTE : ℕ := 1

/-- A number with zeros in front of it up to a width. -/
def padded (width n : ℕ) : JString :=
  List.replicate (width - (decimal n).length) 48 ++ decimal n

/-- `format` of a `SimpleDateFormat` with the pattern `yyyy MM dd HH:mm`. -/
def format (t : Modified) : JString :=
  padded 4 t.year ++ 32 :: (padded 2 t.month ++ 32 :: (padded 2 t.date ++ 32 ::
    (padded 2 t.hour ++ 58 :: padded 2 t.minute)))

/-- The time of the last change in a listing. -/
def xmldateformat (t : Modified) : JString :=
  let dateset := (format t).splitOn 32
  let timeset := (dateset.getD INDEX_TIME []).splitOn 58
  dateset.getD INDEX_YEAR [] ++ dateset.getD INDEX_MONTH [] ++ dateset.getD INDEX_DATE [] ++
    js "T" ++ timeset.getD INDEX_TIME_HOUR [] ++ timeset.getD INDEX_TIME_MINUTE [] ++ js "00Z"

/-- The variable `permission` behind its assignments in a turn. -/
def assignPermission (permission : JString) (file : File) : JString :=
  if file.canRead && file.canWrite then js "RW"
  else if file.canRead then js "R"
  else if file.canWrite then js "W"
  else permission

/-- What a turn of the loop appends. -/
def entryText (permission : JString) (file : File) : JString :=
  js "<" ++ (if file.isDirectory then js "folder name" else js "file name") ++ js "=\"" ++
    file.name ++ js "\"" ++ js " size=\"" ++ decimal file.length ++ js "\"" ++ js " user-perm=\"" ++
    permission ++ js "\"" ++ js " modified=\"" ++ xmldateformat file.lastModified ++ js "\"" ++
    js "/>" ++ crlf

/-- The loop of `sendFolderListingXml`. -/
def entriesText : JString → List File → JString
  | _, [] => []
  | permission, file :: files =>
    let permission := assignPermission permission file
    entryText permission file ++ entriesText permission files

/-- `sendFolderListingXml`, the text that is sent. -/
def sendFolderListingXml (files : List File) : JString :=
  js "<?xml version=\"1.0\"?>" ++ crlf ++
    js "<!DOCTYPE folder-listing SYSTEM \"obex-folder-listing.dtd\">" ++ crlf ++
    js "<folder-listing version=\"1.0\">" ++ crlf ++ entriesText (js "") files ++
    js "</folder-listing>" ++ crlf

/-- `folderListingXML` of the FTP server, which is that of the MAP server. -/
def folderListingXML (list : List JString) : JString := Map.Listing.folderListingXML list

/-! ### The listings as pages -/

def root : Xml.Tag := ⟨js "folder-listing", [(js "version", js "1.0")]⟩

def fileTag (permission : JString) (file : File) : Xml.Tag where
  name := if file.isDirectory then js "folder" else js "file"
  attributes := [(js "name", file.name), (js "size", decimal file.length),
    (js "user-perm", permission), (js "modified", xmldateformat file.lastModified)]

def fileTags : JString → List File → List Xml.Tag
  | _, [] => []
  | permission, file :: files =>
    let permission := assignPermission permission file
    fileTag permission file :: fileTags permission files

def folderTag (folder : JString) : Xml.Tag := ⟨js "folder", [(js "name", folder)]⟩

variable {permission : JString} {file : File} {files : List File} {folders : List JString}

/-- The text before a value, behind the quote of the value before it. -/
theorem key_eq : js " size=\"" = 32 :: (js "size" ++ [61, 34]) ∧
    js " user-perm=\"" = 32 :: (js "user-perm" ++ [61, 34]) ∧
    js " modified=\"" = 32 :: (js "modified" ++ [61, 34]) := ⟨rfl, rfl, rfl⟩

theorem entryText_eq :
    entryText permission file = 60 :: ((fileTag permission file).body ++ 47 :: 62 :: crlf) := by
  have hkind : (if file.isDirectory then js "folder name" else js "file name") =
      (if file.isDirectory then js "folder" else js "file") ++ 32 :: js "name" := by
    split_ifs <;> rfl
  have hopen : js "<" = [60] := rfl
  have hassign : js "=\"" = [61, 34] := rfl
  have hquote : js "\"" = [34] := rfl
  have hclose : js "/>" = [47, 62] := rfl
  simp only [entryText, hkind, hopen, hassign, hquote, hclose, key_eq, fileTag, Xml.Tag.body,
    Xml.attrsText, Xml.attrText, List.flatMap_cons, List.flatMap_nil, List.append_assoc,
    List.cons_append, List.nil_append]

theorem entriesText_eq (permission : JString) (files : List File) :
    entriesText permission files = Xml.tagsText crlf (fileTags permission files) := by
  induction files generalizing permission with
  | nil => rfl
  | cons file files ih =>
    simp only [entriesText, fileTags, entryText_eq, ih, Xml.tagsText, List.flatMap_cons]

theorem sendFolderListingXml_eq (files : List File) : sendFolderListingXml files =
    Xml.page crlf (js "obex-folder-listing.dtd") root (fileTags [] files) := by
  have hdoctype : js "<!DOCTYPE folder-listing SYSTEM \"obex-folder-listing.dtd\">" =
      js "<!DOCTYPE " ++ (root.name ++ (js " SYSTEM \"" ++ (js "obex-folder-listing.dtd" ++
        js "\">"))) := rfl
  have hroot : js "<folder-listing version=\"1.0\">" = 60 :: (root.body ++ [62]) := rfl
  have hend : js "</folder-listing>" = 60 :: 47 :: (root.name ++ [62]) := rfl
  rw [sendFolderListingXml, hdoctype, hroot, hend, entriesText_eq]
  simp only [Xml.page, List.append_assoc, List.cons_append, List.nil_append]
  rfl

theorem folderListingXML_eq (folders : List JString) : folderListingXML folders =
    Xml.page [] (js "obex-folder-listing.dtd") root (folders.map folderTag) := by
  have hfront : js
      "<?xml version=\"1.0\"?><!DOCTYPE folder-listing SYSTEM \"obex-folder-listing.dtd\">" =
      js "<?xml version=\"1.0\"?>" ++ (js "<!DOCTYPE " ++ (root.name ++ (js " SYSTEM \"" ++
        (js "obex-folder-listing.dtd" ++ js "\">")))) := rfl
  have hroot : js "<folder-listing version=\"1.0\">" = 60 :: (root.body ++ [62]) := rfl
  have hend : js "</folder-listing>" = 60 :: 47 :: (root.name ++ [62]) := rfl
  have htags : (folders.flatMap fun s => js "<folder name=\"" ++ s ++ js "\"/>") =
      Xml.tagsText [] (folders.map folderTag) := by
    rw [Xml.tagsText, List.flatMap_map]
    refine List.flatMap_congr fun s _ => ?_
    have hopen : js "<folder name=\"" = 60 :: (js "folder" ++ 32 :: (js "name" ++ [61, 34])) := rfl
    have hclose : js "\"/>" = [34, 47, 62] := rfl
    simp only [hopen, hclose, folderTag, Xml.Tag.body, Xml.attrsText, Xml.attrText,
      List.flatMap_cons, List.flatMap_nil, List.append_assoc, List.cons_append, List.nil_append]
  rw [folderListingXML, Map.Listing.folderListingXML, hfront, hroot, hend, htags]
  simp only [Xml.page, List.append_assoc, List.cons_append, List.nil_append]
  rfl

/-! ### Texts that XML leaves alone -/

/-- The characters are legal, and none of them has to be escaped. -/
def Verbatim (v : JString) : Prop := Xml.Legal v ∧ Xml.Plain v

instance (v : JString) : Decidable (Verbatim v) := inferInstanceAs (Decidable (_ ∧ _))

/-- Digits and capital letters. -/
theorem verbatim_of_alnum {v : JString}
    (h : ∀ c ∈ v, 48 ≤ c.toNat ∧ c.toNat ≤ 57 ∨ 65 ≤ c.toNat ∧ c.toNat ≤ 90) : Verbatim v := by
  constructor
  · refine Xml.legal_of_isChar fun c hc => ?_
    have hrange := h c hc
    simp only [Xml.isChar, Xml.inRanges, List.any_cons, List.any_nil, Bool.or_false,
      Bool.or_eq_true, Bool.and_eq_true, decide_eq_true_eq]
    omega
  · intro c hc
    have hrange := h c hc
    have hne : ∀ d : UInt16, d.toNat < 48 ∨ 57 < d.toNat ∧ d.toNat < 65 → c ≠ d := by
      rintro d hd rfl
      omega
    simp only [Xml.isBare, Bool.and_eq_true, decide_eq_true_eq]
    exact ⟨⟨⟨⟨⟨hne 34 (by decide), hne 60 (by decide)⟩, hne 38 (by decide)⟩, hne 9 (by decide)⟩,
      hne 10 (by decide)⟩, hne 13 (by decide)⟩

theorem mem_padded {width n : ℕ} {c : UInt16} (hc : c ∈ padded width n) :
    48 ≤ c.toNat ∧ c.toNat ≤ 57 := by
  rcases List.mem_append.1 hc with hc | hc
  · rw [List.eq_of_mem_replicate hc]
    decide
  · exact Map.mem_decimal (Int.natCast_nonneg n) hc

theorem xmldateformat_eq (t : Modified) : xmldateformat t =
    padded 4 t.year ++ padded 2 t.month ++ padded 2 t.date ++ js "T" ++ padded 2 t.hour ++
      padded 2 t.minute ++ js "00Z" := by
  have hno : ∀ (sep : UInt16) (width n : ℕ), ¬ (48 ≤ sep.toNat ∧ sep.toNat ≤ 57) →
      sep ∉ padded width n := fun sep width n hsep hin => hsep (mem_padded hin)
  have hlast : 32 ∉ padded 2 t.hour ++ 58 :: padded 2 t.minute := by
    rw [List.mem_append, List.mem_cons]
    rintro (hin | hin | hin)
    · exact hno 32 _ _ (by decide) hin
    · cases hin
    · exact hno 32 _ _ (by decide) hin
  have hdateset : (format t).splitOn 32 = [padded 4 t.year, padded 2 t.month, padded 2 t.date,
      padded 2 t.hour ++ 58 :: padded 2 t.minute] := by
    rw [format, List.splitOn_append_cons_self, List.splitOn_append_cons_self,
      List.splitOn_append_cons_self, List.splitOn_eq_singleton hlast,
      List.splitOn_eq_singleton (hno 32 _ _ (by decide)),
      List.splitOn_eq_singleton (hno 32 _ _ (by decide)),
      List.splitOn_eq_singleton (hno 32 _ _ (by decide))]
    rfl
  have htimeset : (padded 2 t.hour ++ 58 :: padded 2 t.minute).splitOn 58 =
      [padded 2 t.hour, padded 2 t.minute] := by
    rw [List.splitOn_append_cons_self, List.splitOn_eq_singleton (hno 58 _ _ (by decide)),
      List.splitOn_eq_singleton (hno 58 _ _ (by decide))]
    rfl
  rw [xmldateformat, hdateset]
  simp only [INDEX_YEAR, INDEX_MONTH, INDEX_DATE, INDEX_TIME, INDEX_TIME_HOUR, INDEX_TIME_MINUTE,
    List.getD_cons_zero, List.getD_cons_succ, htimeset]

theorem verbatim_xmldateformat (t : Modified) : Verbatim (xmldateformat t) := by
  refine verbatim_of_alnum fun c hc => ?_
  simp only [xmldateformat_eq, List.mem_append] at hc
  have hletter : ∀ c ∈ js "T" ++ js "00Z", 48 ≤ c.toNat ∧ c.toNat ≤ 57 ∨
      65 ≤ c.toNat ∧ c.toNat ≤ 90 := List.all_iff_forall_prop.1 (by decide)
  rcases hc with (((((hc | hc) | hc) | hc) | hc) | hc) | hc
  · exact .inl (mem_padded hc)
  · exact .inl (mem_padded hc)
  · exact .inl (mem_padded hc)
  · exact hletter c (List.mem_append_left _ hc)
  · exact .inl (mem_padded hc)
  · exact .inl (mem_padded hc)
  · exact hletter c (List.mem_append_right _ hc)

theorem verbatim_decimal (n : ℕ) : Verbatim (decimal n) :=
  verbatim_of_alnum fun _ hc => .inl (Map.mem_decimal (Int.natCast_nonneg n) hc)

theorem verbatim_assignPermission (h : Verbatim permission) (file : File) :
    Verbatim (assignPermission permission file) := by
  rw [assignPermission]
  split_ifs
  · decide
  · decide
  · decide
  · exact h

/-! ### What a listing should say -/

def File.kind (file : File) : JString := if file.isDirectory then js "folder" else js "file"

/-- The permission of the file itself. -/
def File.userPerm (file : File) : JString :=
  (if file.canRead then js "R" else []) ++ if file.canWrite then js "W" else []

/-- The element says what the file is. -/
structure DescribesFile (file : File) (e : Xml.Element) : Prop where
  kind : e.name = file.kind
  name : e.attributes.lookup (js "name") = some file.name
  size : e.attributes.lookup (js "size") = some (decimal file.length)
  permission : e.attributes.lookup (js "user-perm") = some file.userPerm

/-- The element says what the folder is. -/
structure DescribesFolder (folder : JString) (e : Xml.Element) : Prop where
  kind : e.name = js "folder"
  name : e.attributes.lookup (js "name") = some folder

/-- The text is well formed, with one element for each entry, in their order. -/
def Lists {α : Type} (describes : α → Xml.Element → Prop) (entries : List α) (text : JString) :
    Prop :=
  ∃ root, Xml.document text = some root ∧ List.Forall₂ describes entries root.inside.elements

section Page

variable {α : Type} {describes : α → Xml.Element → Prop} {entries : List α} {tags : List Xml.Tag}
  {eol : JString} {es : List Xml.Element}

/-- Elements that describe the entries have the names of the tags. -/
theorem names_of_describes
    (hnames : List.Forall₂ (fun a (tag : Xml.Tag) => ∀ e, describes a e → tag.Names e) entries tags)
    (h : List.Forall₂ describes entries es) : List.Forall₂ Xml.Tag.Names tags es := by
  induction hnames generalizing es with
  | nil =>
    obtain rfl := List.forall₂_nil_left_iff.1 h
    exact .nil
  | cons hname _ ih =>
    obtain ⟨e, es, he, hes, rfl⟩ := List.forall₂_cons_left_iff.1 h
    exact .cons (hname e he) (ih hes)

theorem page_root (heol : ∀ c ∈ eol, Xml.isSpace c = true) :
    Xml.Page eol (js "obex-folder-listing.dtd") root where
  spaces := heol
  literal := List.all_iff_forall_prop.1 (by decide)
  proper := ⟨by decide, by decide, by decide, by decide⟩
  plain := (by decide : ∀ a ∈ root.attributes, Xml.Plain a.2)
  legal := by decide

/-- A page lists the entries exactly if its tags describe them and have no characters that get
lost. -/
theorem lists_page_iff (heol : ∀ c ∈ eol, Xml.isSpace c = true)
    (htags : ∀ tag ∈ tags, tag.Proper)
    (hnames : List.Forall₂ (fun a (tag : Xml.Tag) => ∀ e, describes a e → tag.Names e) entries
      tags) :
    Lists describes entries (Xml.page eol (js "obex-folder-listing.dtd") root tags) ↔
      (∀ tag ∈ tags, ∀ a ∈ tag.attributes, Verbatim a.2) ∧
        List.Forall₂ describes entries
          (tags.map fun tag => ⟨tag.name, tag.attributes, .nil⟩) := by
  have hread : (∀ tag ∈ tags, ∀ a ∈ tag.attributes, Verbatim a.2) →
      Xml.document (Xml.page eol (js "obex-folder-listing.dtd") root tags) =
        some ⟨root.name, root.attributes, Xml.forest tags⟩ := fun h =>
    Xml.document_of_plain (page_root heol) htags (fun tag htag a ha => (h tag htag a ha).1)
      fun tag htag a ha => (h tag htag a ha).2
  constructor
  · rintro ⟨e, hdocument, hdescribes⟩
    obtain ⟨hlegal, hplain⟩ := Xml.plain_of_document (page_root heol) htags hdocument
      (names_of_describes hnames hdescribes)
    have hall : ∀ tag ∈ tags, ∀ a ∈ tag.attributes, Verbatim a.2 := fun tag htag a ha =>
      ⟨hlegal tag htag a ha, hplain tag htag a ha⟩
    rw [hread hall] at hdocument
    obtain rfl := Option.some.inj hdocument
    rw [Xml.forest_elements] at hdescribes
    exact ⟨hall, hdescribes⟩
  · rintro ⟨hall, hdescribes⟩
    refine ⟨_, hread hall, ?_⟩
    rwa [Xml.forest_elements]

end Page

/-! ### Files -/

/-- The file may be read or written. -/
def File.HasPermission (file : File) : Prop := file.canRead = true ∨ file.canWrite = true

instance (file : File) : Decidable file.HasPermission := inferInstanceAs (Decidable (_ ∨ _))

theorem assignPermission_of_hasPermission (permission : JString) (h : file.HasPermission) :
    assignPermission permission file = file.userPerm ∧ file.userPerm ≠ [] := by
  rw [assignPermission, File.userPerm]
  rcases hread : file.canRead <;> rcases hwrite : file.canWrite
  · simp [File.HasPermission, hread, hwrite] at h
  · exact ⟨rfl, by decide⟩
  · exact ⟨rfl, by decide⟩
  · exact ⟨rfl, by decide⟩

theorem assignPermission_of_not (permission : JString) (h : ¬ file.HasPermission) :
    assignPermission permission file = permission ∧ file.userPerm = [] := by
  rw [File.HasPermission, not_or, Bool.not_eq_true, Bool.not_eq_true] at h
  rw [assignPermission, File.userPerm, h.1, h.2]
  exact ⟨rfl, rfl⟩

/-- The element that is written for a file describes it if the permission is its own. -/
theorem describesFile_iff : DescribesFile file
    ⟨(fileTag permission file).name, (fileTag permission file).attributes, .nil⟩ ↔
      permission = file.userPerm := by
  constructor
  · intro h
    exact Option.some.inj h.permission
  · intro h
    exact ⟨rfl, rfl, rfl, congrArg some h⟩

/-- The permissions are the files' own exactly if no file without one is behind one that has one,
and behind a permission from before there is no file without one. -/
theorem carries_iff (permission : JString) (files : List File) :
    List.Forall₂ DescribesFile files
        ((fileTags permission files).map fun tag => ⟨tag.name, tag.attributes, .nil⟩) ↔
      (permission ≠ [] → ∀ file ∈ files, file.HasPermission) ∧
        files.Pairwise fun before file => before.HasPermission → file.HasPermission := by
  induction files generalizing permission with
  | nil => simp [fileTags]
  | cons file files ih =>
    rw [fileTags, List.map_cons, List.forall₂_cons, describesFile_iff, ih, List.pairwise_cons,
      List.forall_mem_cons]
    by_cases hfile : file.HasPermission
    · obtain ⟨hassign, hne⟩ := assignPermission_of_hasPermission permission hfile
      rw [hassign]
      constructor
      · rintro ⟨-, hall, hpairwise⟩
        exact ⟨fun _ => ⟨hfile, hall hne⟩, fun f hf _ => hall hne f hf, hpairwise⟩
      · rintro ⟨-, hbehind, hpairwise⟩
        exact ⟨rfl, fun _ f hf => hbehind f hf hfile, hpairwise⟩
    · obtain ⟨hassign, hnil⟩ := assignPermission_of_not permission hfile
      rw [hassign, hnil]
      constructor
      · rintro ⟨rfl, -, hpairwise⟩
        exact ⟨fun hne => absurd rfl hne, fun f _ h => absurd h hfile, hpairwise⟩
      · rintro ⟨hall, -, hpairwise⟩
        have hpermission : permission = [] := by
          by_contra hne
          exact hfile (hall hne).1
        exact ⟨hpermission, fun hne => absurd hpermission hne, hpairwise⟩

theorem proper_fileTag (h : Verbatim permission) : (fileTag permission file).Proper where
  name := by
    change Xml.IsName (if file.isDirectory then js "folder" else js "file")
    split_ifs <;> decide
  keys := by
    have hkeys : ∀ k ∈ [js "name", js "size", js "user-perm", js "modified"], Xml.IsName k := by
      decide
    exact fun a ha => hkeys a.1 (List.mem_map_of_mem ha)
  nodup := (by decide : [js "name", js "size", js "user-perm", js "modified"].Nodup)
  tail := by
    rw [fileTag, List.tail_cons, List.forall_mem_cons, List.forall_mem_cons,
      List.forall_mem_singleton]
    exact ⟨(verbatim_decimal _).2, h.2, (verbatim_xmldateformat _).2⟩

theorem proper_fileTags (h : Verbatim permission) :
    ∀ tag ∈ fileTags permission files, tag.Proper := by
  induction files generalizing permission with
  | nil => exact nofun
  | cons file files ih =>
    have hassign := verbatim_assignPermission h file
    exact List.forall_mem_cons.2 ⟨proper_fileTag hassign, ih hassign⟩

theorem verbatim_fileTags (h : Verbatim permission) :
    (∀ tag ∈ fileTags permission files, ∀ a ∈ tag.attributes, Verbatim a.2) ↔
      ∀ file ∈ files, Verbatim file.name := by
  induction files generalizing permission with
  | nil => exact iff_of_true nofun nofun
  | cons file files ih =>
    have hassign := verbatim_assignPermission h file
    rw [fileTags, List.forall_mem_cons, List.forall_mem_cons, ih hassign]
    refine and_congr_left fun _ => ?_
    rw [fileTag, List.forall_mem_cons, List.forall_mem_cons, List.forall_mem_cons,
      List.forall_mem_singleton]
    exact and_iff_left ⟨verbatim_decimal _, hassign, verbatim_xmldateformat _⟩

theorem names_fileTags (permission : JString) (files : List File) :
    List.Forall₂ (fun file (tag : Xml.Tag) => ∀ e, DescribesFile file e → tag.Names e) files
      (fileTags permission files) := by
  induction files generalizing permission with
  | nil => exact .nil
  | cons file files ih =>
    refine .cons (fun e he a ha => ?_) (ih _)
    obtain rfl := Option.some.inj ha
    exact he.name

/-- The text with files. -/
theorem lists_files_iff (files : List File) :
    Lists DescribesFile files (sendFolderListingXml files) ↔
      (∀ file ∈ files, Verbatim file.name) ∧
        files.Pairwise fun before file => before.HasPermission → file.HasPermission := by
  have hempty : Verbatim [] := by decide
  rw [sendFolderListingXml_eq, lists_page_iff (List.all_eq_true.1 (by decide))
    (proper_fileTags hempty) (names_fileTags [] files), verbatim_fileTags hempty, carries_iff]
  refine and_congr_right fun _ => ⟨fun h => h.2, fun h => ⟨fun hne => absurd rfl hne, h⟩⟩

/-! ### Folders -/

theorem proper_folderTag (folder : JString) : (folderTag folder).Proper where
  name := (by decide : Xml.IsName (js "folder"))
  keys := List.forall_mem_singleton.2 (by decide : Xml.IsName (js "name"))
  nodup := List.nodup_singleton _
  tail := nofun

/-- The text with folders. -/
theorem lists_folders_iff (folders : List JString) :
    Lists DescribesFolder folders (folderListingXML folders) ↔
      ∀ folder ∈ folders, Verbatim folder := by
  have htags : ∀ tag ∈ folders.map folderTag, tag.Proper :=
    List.forall_mem_map.2 fun folder _ => proper_folderTag folder
  have hnames : List.Forall₂ (fun folder (tag : Xml.Tag) =>
      ∀ e, DescribesFolder folder e → tag.Names e) folders (folders.map folderTag) := by
    rw [List.forall₂_map_right_iff, List.forall₂_same]
    intro folder _ e he a ha
    obtain rfl := Option.some.inj ha
    exact he.name
  have hdescribes : List.Forall₂ DescribesFolder folders
      ((folders.map folderTag).map fun tag => ⟨tag.name, tag.attributes, .nil⟩) := by
    rw [List.map_map, List.forall₂_map_right_iff, List.forall₂_same]
    exact fun folder _ => ⟨rfl, rfl⟩
  rw [folderListingXML_eq, lists_page_iff (List.all_eq_true.1 (by decide)) htags hnames,
    and_iff_left hdescribes, List.forall_mem_map]
  exact forall₂_congr fun folder _ => List.forall_mem_singleton

/-! ### All listings -/

/-- The three texts say of each entry what it is: files in a folder, the storages at the root of the
FTP server, and the folders of the MAP server. -/
structure Described (files : List File) (storages folders : List JString) : Prop where
  files : Lists DescribesFile files (sendFolderListingXml files)
  storages : Lists DescribesFolder storages (folderListingXML storages)
  folders : Lists DescribesFolder folders (Map.Listing.folderListingXML folders)

/-- What has to be true of the entries. -/
structure Harmless (files : List File) (storages folders : List JString) : Prop where
  /-- No name has a character that XML does not have or that has to be escaped. -/
  names : ∀ name ∈ files.map File.name ++ storages ++ folders, Verbatim name
  /-- No file that may neither be read nor written is behind one that may. -/
  permissions : files.Pairwise fun before file => before.HasPermission → file.HasPermission

/-- **The listings describe the folder**, for all entries, exactly if no name has a character that
gets lost in XML, and no file without a permission is behind one with a permission. -/
theorem described_iff (files : List File) (storages folders : List JString) :
    Described files storages folders ↔ Harmless files storages folders := by
  have hmap : Lists DescribesFolder folders (Map.Listing.folderListingXML folders) ↔
      ∀ folder ∈ folders, Verbatim folder := lists_folders_iff folders
  constructor
  · rintro ⟨hfiles, hstorages, hfolders⟩
    rw [lists_files_iff] at hfiles
    rw [lists_folders_iff] at hstorages
    rw [hmap] at hfolders
    refine ⟨fun name hname => ?_, hfiles.2⟩
    rcases List.mem_append.1 hname with hname | hname
    · rcases List.mem_append.1 hname with hname | hname
      · obtain ⟨file, hfile, rfl⟩ := List.mem_map.1 hname
        exact hfiles.1 file hfile
      · exact hstorages name hname
    · exact hfolders name hname
  · rintro ⟨hnames, hpermissions⟩
    simp only [List.forall_mem_append, List.forall_mem_map] at hnames
    exact ⟨(lists_files_iff files).2 ⟨hnames.1.1, hpermissions⟩,
      (lists_folders_iff storages).2 hnames.1.2, hmap.2 hnames.2⟩

/-- A name with `&`, and a file that may neither be read nor written behind one that may be read:
neither listing is right. -/
theorem not_described : ¬ Described [{ name := js "a&b" }] [] [] ∧
    ¬ Described [{ name := js "a", canWrite := false },
      { name := js "b", canRead := false, canWrite := false }] [] [] := by
  constructor
  · intro h
    exact absurd ((lists_files_iff _).1 h.files).1 (by decide)
  · intro h
    exact absurd ((lists_files_iff _).1 h.files).2 (by decide)

end Listing

end Ftp

end Msm8909w
