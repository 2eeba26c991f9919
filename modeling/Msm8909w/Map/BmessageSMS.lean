import Msm8909w.Lib.Decimal
import Msm8909w.Map.MapUtils

/-!
# An SMS as a bMessage, and back

The text `toBmessageSMS` writes, cut at its colons, and what the searches of `fromBmessageSMS` find
in it.  No value in the header has a colon or a line end in it, so a keyword can only be found where
the writer has put its key (`Found.skip`, `Found.glue`); the body comes after all the keywords that
are searched for from the front, and before the last `END:MSG`.
-/

namespace Msm8909w

namespace Map

/-! ### Numbers -/

theorem digit_ofNat {d : ℕ} (h : d < 10) : digit (UInt16.ofNat (48 + d)) = some d := by
  have hall : ∀ d < 10, digit (UInt16.ofNat (48 + d)) = some d := by decide
  exact hall d h

theorem mapM_digit {ds : List ℕ} (h : ∀ d ∈ ds, d < 10) :
    (ds.map fun d => UInt16.ofNat (48 + d)).mapM digit = some ds := by
  induction ds with
  | nil => rfl
  | cons d ds ih =>
    rw [List.map_cons, List.mapM_cons, digit_ofNat (h d List.mem_cons_self),
      ih fun d' hd' => h d' (List.mem_cons_of_mem d hd')]
    rfl

/-- The decimal notation of a positive number consists of digits. -/
theorem decimal_eq {n : ℤ} (h : 0 < n) :
    decimal n = (Nat.digits 10 n.natAbs).reverse.map fun d => UInt16.ofNat (48 + d) := by
  simp [decimal, not_lt.2 h.le, h.ne']

theorem mem_digits {n : ℤ} {c : UInt16}
    (hc : c ∈ if n = 0 then [48] else
      (Nat.digits 10 n.natAbs).reverse.map fun d => UInt16.ofNat (48 + d)) :
    48 ≤ c.toNat ∧ c.toNat ≤ 57 := by
  split at hc
  · rw [List.mem_singleton.1 hc]
    decide
  · obtain ⟨d, hd, rfl⟩ := List.mem_map.1 hc
    have hlt := digits_lt hd
    rw [UInt16.toNat_ofNat']
    omega

theorem mem_decimal {n : ℤ} (h : 0 ≤ n) {c : UInt16} (hc : c ∈ decimal n) :
    48 ≤ c.toNat ∧ c.toNat ≤ 57 := by
  rw [decimal, if_neg (not_lt.2 h)] at hc
  exact mem_digits hc

/-- `Integer.valueOf` reads the decimal notation. -/
theorem valueOf_decimal {n : ℤ} (h : 0 < n) (hmax : n ≤ 2 ^ 31 - 1) :
    valueOf (decimal n) = .ok n := by
  have hne : Nat.digits 10 n.natAbs ≠ [] := Nat.digits_ne_nil_iff_ne_zero.2 (by omega)
  have hhead : ∀ c, (decimal n).head? = some c → 48 ≤ c.toNat := fun c hc =>
    (mem_decimal h.le (List.mem_of_mem_head? hc)).1
  have hminus : ¬ (decimal n).head? = some 45 := fun hc => absurd (hhead 45 hc) (by decide)
  have hplus : ¬ (decimal n).head? = some 43 := fun hc => absurd (hhead 43 hc) (by decide)
  have hmap : (decimal n).mapM digit = some (Nat.digits 10 n.natAbs).reverse := by
    rw [decimal_eq h]
    exact mapM_digit fun d hd => digits_lt hd
  have hvalue : ((n.natAbs : ℕ) : ℤ) = n := Int.natAbs_of_nonneg h.le
  obtain ⟨d, ds, hds⟩ := List.exists_cons_of_ne_nil (mt List.reverse_eq_nil_iff.1 hne)
  have hfold := foldl_digits n.natAbs
  rw [hds] at hmap hfold
  simp only [valueOf, hminus, hplus, or_self, if_false, hmap, hfold, hvalue]
  rw [if_pos (by omega)]

/-! ### The text, cut at its colons -/

/-- The colon. -/
def mark : UInt16 := 58

/-- A key at the beginning of a line. -/
def key (s : String) : JString := crlf ++ js s

/-- The keys of the first lines. -/
def topKeys : List JString := [key "VERSION", key "STATUS", key "TYPE", key "FOLDER"]

/-- The keys of a vCard. -/
def cardKeys : List JString := [key "VERSION", key "N", key "TEL", key "END"]

/-- The values of a bMessage. -/
structure Fields where
  bmsgVersion : JString
  status : JString
  type : JString
  folder : JString
  vcardVersion : JString
  originatorName : JString
  originatorNumber : JString
  recipientName : JString
  recipientNumber : JString
  charset : JString
  encoding : JString
  length : ℤ
  msg : JString

namespace Fields

variable (f : Fields)

/-- What comes behind the body. -/
def afterMsg : JString :=
  crlf ++ js "END:MSG" ++ crlf ++ js "END:BBODY" ++ crlf ++ js "END:BENV" ++ crlf ++
    js "END:BMSG" ++ crlf

/-- From the colon of `BEGIN:MSG` on. -/
def msgPart : JString := js "MSG" ++ (crlf ++ f.msg ++ afterMsg)

/-- From the value of `LENGTH` on. -/
def lengthPart : JString := decimal f.length ++ key "BEGIN" ++ mark :: f.msgPart

/-- From the colon of `BEGIN:BBODY` on. -/
def bodyPart : JString :=
  glue mark [js "BBODY", f.charset, f.encoding] [key "CHARSET", key "ENCODING", key "LENGTH"]
    f.lengthPart

/-- From the colon of the recipient's `END:VCARD` on. -/
def afterRecipient : JString := js "VCARD" ++ key "BEGIN" ++ mark :: f.bodyPart

/-- From the colon of the recipient's `BEGIN:VCARD` on. -/
def recipientPart : JString :=
  glue mark [js "VCARD", f.vcardVersion, f.recipientName, f.recipientNumber] cardKeys
    f.afterRecipient

/-- From the colon of `BEGIN:BENV` on. -/
def envelopePart : JString := js "BENV" ++ key "BEGIN" ++ mark :: f.recipientPart

/-- From the colon of the originator's `BEGIN:VCARD` on. -/
def originatorPart : JString :=
  glue mark [js "VCARD", f.vcardVersion, f.originatorName, f.originatorNumber] cardKeys
    (js "VCARD" ++ key "BEGIN" ++ mark :: f.envelopePart)

/-- From the value of `FOLDER` on. -/
def folderPart : JString := f.folder ++ key "BEGIN" ++ mark :: f.originatorPart

/-- The text. -/
def text : JString :=
  js "BEGIN" ++ mark :: glue mark [js "BMSG", f.bmsgVersion, f.status, f.type] topKeys f.folderPart

/-- The values as a `BmessageConsts`. -/
def bmsg (b : BmessageConsts) : BmessageConsts := { b with
  bmsgVersion := some f.bmsgVersion
  status := some f.status
  type := some f.type
  folder := some f.folder
  vcardVersion := some f.vcardVersion
  originatorVcardName := some f.originatorName
  originatorVcardPhoneNumber := some f.originatorNumber
  recipientVcardName := some f.recipientName
  recipientVcardPhoneNumber := some f.recipientNumber
  bodyCharset := some f.charset
  bodyEncoding := some f.encoding
  bodyLength := f.length
  bodyMsg := some f.msg }

end Fields

theorem property_eq {k s : String} (hk : js k = js s ++ [mark]) (v : JString) :
    property k (some v) = js s ++ mark :: (v ++ crlf) := by
  simp [property, hk]

/-- The text the writer makes of the values. -/
theorem toBmessageSMS_eq (f : Fields) (b : BmessageConsts) (h : f.length ≠ 0) :
    toBmessageSMS (f.bmsg b) = f.text := by
  have h1 : js "BEGIN:BMSG" = js "BEGIN" ++ mark :: js "BMSG" := by decide
  have h2 : js "BEGIN:VCARD" = js "BEGIN" ++ mark :: js "VCARD" := by decide
  have h3 : js "BEGIN:BENV" = js "BEGIN" ++ mark :: js "BENV" := by decide
  have h4 : js "BEGIN:BBODY" = js "BEGIN" ++ mark :: js "BBODY" := by decide
  have h5 : js "BEGIN:MSG" = js "BEGIN" ++ mark :: js "MSG" := by decide
  have h6 : js "END:VCARD" = js "END" ++ mark :: js "VCARD" := by decide
  have h7 : js "LENGTH:" = js "LENGTH" ++ [mark] := by decide
  have p1 := @property_eq "VERSION:" "VERSION" (by decide)
  have p2 := @property_eq "STATUS:" "STATUS" (by decide)
  have p3 := @property_eq "TYPE:" "TYPE" (by decide)
  have p4 := @property_eq "FOLDER:" "FOLDER" (by decide)
  have p5 := @property_eq "N:" "N" (by decide)
  have p6 := @property_eq "TEL:" "TEL" (by decide)
  have p7 := @property_eq "CHARSET:" "CHARSET" (by decide)
  have p8 := @property_eq "ENCODING:" "ENCODING" (by decide)
  unfold toBmessageSMS
  simp only [Fields.bmsg, vcardSMS, messageSMS, h1, h2, h3, h4, h5, h6, h7, p1, p2, p3, p4, p5,
    p6, p7, p8, ne_eq, h, not_false_eq_true, if_true, Fields.text, Fields.folderPart,
    Fields.originatorPart, Fields.envelopePart, Fields.recipientPart, Fields.afterRecipient,
    Fields.bodyPart, Fields.lengthPart, Fields.msgPart, Fields.afterMsg, glue, topKeys, cardKeys,
      key,
    List.append_assoc, List.cons_append, List.nil_append]

/-! ### What is found -/

/-- A value without line ends and colons. -/
def Clean (s : JString) : Prop := 13 ∉ s ∧ 10 ∉ s ∧ mark ∉ s

instance (s : JString) : Decidable (Clean s) := inferInstanceAs (Decidable (_ ∧ _ ∧ _))

/-- The values of the header are clean. -/
structure Fields.Clean (f : Fields) : Prop where
  bmsgVersion : Map.Clean f.bmsgVersion
  status : Map.Clean f.status
  type : Map.Clean f.type
  folder : Map.Clean f.folder
  vcardVersion : Map.Clean f.vcardVersion
  originatorName : Map.Clean f.originatorName
  originatorNumber : Map.Clean f.originatorNumber
  recipientName : Map.Clean f.recipientName
  recipientNumber : Map.Clean f.recipientNumber
  charset : Map.Clean f.charset
  encoding : Map.Clean f.encoding

/-- The keys before the body other than `BEGIN`. -/
def headerKeys : List JString := topKeys ++ cardKeys

/-- The key is passed over in a search for `K` and a colon. -/
def Apart (K k : JString) : Prop := mark ∉ k ∧ ¬ K <:+ k ∧ ¬ k <:+ K

/-- A `BEGIN` of something is passed over in a search for `K`, a colon and `V`. -/
def ApartBegin (K V w : JString) : Prop := Apart K (key "BEGIN") ∨ ¬ V <+: w ∧ ¬ w <+: V

instance (K k : JString) : Decidable (Apart K k) := inferInstanceAs (Decidable (_ ∧ _ ∧ _))

instance (K V w : JString) : Decidable (ApartBegin K V w) := inferInstanceAs (Decidable (_ ∨ _))

section Search

variable {f : Fields} {K V w v t pre post : JString}

theorem mark_notMem_append {s t : JString} (hs : mark ∉ s) (ht : mark ∉ t) : mark ∉ s ++ t :=
  fun h => (List.mem_append.1 h).elim hs ht

theorem prefix_glue {v k : JString} {vs ks : List JString} {rest : JString} :
    v <+: glue mark (v :: vs) (k :: ks) rest := by
  rw [glue, List.append_assoc]
  exact List.prefix_append _ _

theorem found_begin (hK : mark ∉ K) (hv : mark ∉ v) (ha : ApartBegin K V w) (ht : w <+: t)
    (h : Found (K ++ mark :: V) t pre post) :
    Found (K ++ mark :: V) (v ++ key "BEGIN" ++ mark :: t) (v ++ key "BEGIN" ++ mark :: pre)
      post := by
  refine h.skip hK (mark_notMem_append hv (by decide)) ?_
  rintro ⟨hs, hp⟩
  rcases ha with ⟨-, h1, h2⟩ | ⟨h1, h2⟩
  · exact not_suffix_append h1 h2 v hs
  · obtain ⟨x, rfl⟩ := ht
    exact not_prefix_append h1 h2 x hp

/-- The search goes on behind the first lines. -/
theorem found_top (hf : f.Clean) (hK : mark ∉ K) (hkeys : ∀ k ∈ headerKeys, Apart K k)
    (ha : ApartBegin K V (js "BMSG")) (h : Found (K ++ mark :: V) f.folderPart pre post) :
    ∃ pre', pre' ≠ [] ∧ Found (K ++ mark :: V) f.text pre' post := by
  have hglue : Found (K ++ mark :: V)
      (glue mark [js "BMSG", f.bmsgVersion, f.status, f.type] topKeys f.folderPart)
      (glue mark [js "BMSG", f.bmsgVersion, f.status, f.type] topKeys pre) post := by
    refine h.glue _ _ hK ?_ fun k hk => hkeys k (List.mem_append_left cardKeys hk)
    simp only [List.forall_mem_cons, List.not_mem_nil, false_implies, implies_true, and_true]
    exact ⟨by decide, hf.bmsgVersion.2.2, hf.status.2.2, hf.type.2.2⟩
  refine ⟨_, ?_, hglue.skip hK (by decide) ?_⟩
  · exact List.append_ne_nil_of_right_ne_nil _ (List.cons_ne_nil _ _)
  · rintro ⟨hs, hp⟩
    rcases ha with ⟨-, h1, h2⟩ | ⟨h1, h2⟩
    · exact h1 (hs.trans (List.suffix_append crlf (js "BEGIN")))
    · obtain ⟨x, hx⟩ : js "BMSG" <+:
          glue mark [js "BMSG", f.bmsgVersion, f.status, f.type] topKeys f.folderPart := prefix_glue
      rw [← hx] at hp
      exact not_prefix_append h1 h2 x hp

/-- The search goes on behind a vCard. -/
theorem found_card {version name number rest : JString} (hversion : Clean version)
    (hname : Clean name) (hnumber : Clean number) (hK : mark ∉ K)
    (hkeys : ∀ k ∈ headerKeys, Apart K k) (h : Found (K ++ mark :: V) rest pre post) :
    Found (K ++ mark :: V) (glue mark [js "VCARD", version, name, number] cardKeys rest)
      (glue mark [js "VCARD", version, name, number] cardKeys pre) post := by
  refine h.glue _ _ hK ?_ fun k hk => hkeys k (List.mem_append_right topKeys hk)
  simp only [List.forall_mem_cons, List.not_mem_nil, false_implies, implies_true, and_true]
  exact ⟨by decide, hversion.2.2, hname.2.2, hnumber.2.2⟩

/-- A keyword of the body is searched for behind the two vCards. -/
theorem found_body (hf : f.Clean) (hK : mark ∉ K) (hkeys : ∀ k ∈ headerKeys, Apart K k)
    (ha : ∀ w ∈ [js "BMSG", js "VCARD", js "BENV", js "BBODY"], ApartBegin K V w)
    (h : Found (K ++ mark :: V) f.bodyPart pre post) :
    ∃ pre', pre' ≠ [] ∧ Found (K ++ mark :: V) f.text pre' post := by
  have hcard : ApartBegin K V (js "VCARD") := ha _ (by simp)
  have h1 : Found (K ++ mark :: V) f.afterRecipient _ post :=
    found_begin hK (by decide) (ha (js "BBODY") (by simp)) prefix_glue h
  have h2 : Found (K ++ mark :: V) f.recipientPart _ post :=
    found_card hf.vcardVersion hf.recipientName hf.recipientNumber hK hkeys h1
  have h3 : Found (K ++ mark :: V) f.envelopePart _ post :=
    found_begin hK (by decide) hcard prefix_glue h2
  have henv : js "BENV" <+: f.envelopePart := by
    rw [Fields.envelopePart, List.append_assoc]
    exact List.prefix_append _ _
  have h4 := found_begin hK (by decide : mark ∉ js "VCARD") (ha (js "BENV") (by simp)) henv
    h3
  have h5 : Found (K ++ mark :: V) f.originatorPart _ post :=
    found_card hf.vcardVersion hf.originatorName hf.originatorNumber hK hkeys h4
  have h6 : Found (K ++ mark :: V) f.folderPart _ post :=
    found_begin hK hf.folder.2.2 hcard prefix_glue h5
  exact found_top hf hK hkeys (ha _ (by simp)) h6

/-- A keyword is found at the first one of its key. -/
theorem found_key {s : String} (hs : mark ∉ js s) (hv : mark ∉ v) (post : JString) :
    Found (js s ++ [mark]) (v ++ key s ++ mark :: post) (v ++ crlf) post := by
  have h := @Found.here _ _ mark (js s) [] (v ++ crlf) hs
    (mark_notMem_append hv (by decide)) post
  simpa [key] using h

/-- A keyword of the first lines. -/
theorem found_topKey {s : String} {vs ks : List JString} (hs : mark ∉ js s)
    (hbegin : ¬ js s <:+ js "BEGIN") (hvs : ∀ v ∈ vs, mark ∉ v) (hks : ∀ k ∈ ks, Apart (js s) k)
    (hv : mark ∉ v) (post : JString) :
    ∃ pre, pre ≠ [] ∧ Found (js s ++ [mark])
      (js "BEGIN" ++ mark :: glue mark vs ks (v ++ key s ++ mark :: post)) pre post := by
  refine ⟨_, ?_, ((found_key hs hv post).glue vs ks hs hvs hks).skip hs (by decide)
    fun h => hbegin h.1⟩
  exact List.append_ne_nil_of_right_ne_nil _ (List.cons_ne_nil _ _)

end Search

/-! ### The fields -/

section Fetch

variable {f : Fields}

theorem fetchProperty_of_found {k s : String} {missing : Option JString} {t value post : JString}
    (hk : js k = js s ++ [mark]) (h : ∃ pre, pre ≠ [] ∧ Found (js s ++ [mark]) t pre post)
    (hline : value ++ crlf <+: post) (hvalue : 13 ∉ value) :
    fetchProperty k missing t = .ok (some value) := by
  obtain ⟨pre, hpre, h⟩ := h
  obtain ⟨rest, rfl⟩ := hline
  rw [← hk] at h
  exact fetchProperty_eq h hpre hvalue

/-- A value is followed by the end of its line. -/
theorem prefix_line {v x : JString} {s : String} : v ++ crlf <+: v ++ key s ++ x := by
  refine ⟨js s ++ x, ?_⟩
  simp [key]

theorem fetchVersion_text (hf : f.Clean) : fetchVersion f.text = .ok (some f.bmsgVersion) := by
  have h := @found_topKey (js "BMSG") "VERSION" [] [] (by decide) (by decide)
    nofun nofun (by decide) (glue mark [f.bmsgVersion, f.status, f.type]
      [key "STATUS", key "TYPE", key "FOLDER"] f.folderPart)
  exact fetchProperty_of_found (by decide) h prefix_line hf.bmsgVersion.1

theorem fetchReadStatus_text (hf : f.Clean) : fetchReadStatus f.text = .ok (some f.status) := by
  have h := @found_topKey f.bmsgVersion "STATUS" [js "BMSG"] [key "VERSION"] (by decide)
    (by decide) (by decide) (by decide) hf.bmsgVersion.2.2
    (glue mark [f.status, f.type] [key "TYPE", key "FOLDER"] f.folderPart)
  exact fetchProperty_of_found (by decide) h prefix_line hf.status.1

theorem fetchType_text (hf : f.Clean) : fetchType f.text = .ok (some f.type) := by
  have h := @found_topKey f.status "TYPE" [js "BMSG", f.bmsgVersion] [key "VERSION", key "STATUS"]
    (by decide) (by decide)
    (by simpa using ⟨by decide, hf.bmsgVersion.2.2⟩) (by decide) hf.status.2.2
    (glue mark [f.type] [key "FOLDER"] f.folderPart)
  exact fetchProperty_of_found (by decide) h prefix_line hf.type.1

theorem fetchFolder_text (hf : f.Clean) : fetchFolder f.text = .ok (some f.folder) := by
  have h := @found_topKey f.type "FOLDER" [js "BMSG", f.bmsgVersion, f.status]
    [key "VERSION", key "STATUS", key "TYPE"] (by decide) (by decide)
    (by simpa using ⟨by decide, hf.bmsgVersion.2.2, hf.status.2.2⟩) (by decide)
    hf.type.2.2 f.folderPart
  exact fetchProperty_of_found (by decide) h prefix_line hf.folder.1

theorem fetchBodyEncoding_text (hf : f.Clean) :
    fetchBodyEncoding f.text = .ok (some f.encoding) := by
  have h := (@found_key f.charset "ENCODING" (by decide) hf.charset.2.2
    (glue mark [f.encoding] [key "LENGTH"] f.lengthPart)).glue [js "BBODY"]
    [key "CHARSET"] (by decide) (by decide) (by decide)
  exact fetchProperty_of_found (by decide)
    (found_body hf (by decide) (by decide) (by decide) h) prefix_line
    hf.encoding.1

theorem fetchBodyLength_text (hf : f.Clean) (hlen : 0 < f.length) (hmax : f.length ≤ 2 ^ 31 - 1) :
    fetchBodyLength f.text = .ok (some f.length) := by
  have h := (@found_key f.encoding "LENGTH" (by decide) hf.encoding.2.2
    f.lengthPart).glue [js "BBODY", f.charset] [key "CHARSET", key "ENCODING"]
    (by decide) (by simpa using ⟨by decide, hf.charset.2.2⟩) (by decide)
  have hdigits : 13 ∉ decimal f.length := fun hmem =>
    absurd (mem_decimal hlen.le hmem).1 (by decide)
  have hfetch : fetchProperty "LENGTH:" none f.text = .ok (some (decimal f.length)) :=
    fetchProperty_of_found (by decide)
      (found_body hf (by decide) (by decide) (by decide) h) prefix_line
      hdigits
  simp only [fetchBodyLength, hfetch]
  show (do let n ← valueOf (decimal f.length); Except.ok (some n)) = _
  rw [valueOf_decimal hlen hmax]
  rfl

/-! ### The body and the vCard -/

section Fetch

variable {f : Fields}

theorem lastIndex_afterMsg : lastIndex (crlf ++ js "END:MSG") Fields.afterMsg = some 0 := by
  decide

/-- The text, split before and behind the body. -/
theorem exists_text_eq (hf : f.Clean) (hlen : 0 < f.length) :
    ∃ pre, pre ≠ [] ∧ Found (js "BEGIN:MSG") f.text pre (crlf ++ f.msg ++ Fields.afterMsg) := by
  have hlength : mark ∉ decimal f.length := fun hmem =>
    absurd (mem_decimal hlen.le hmem).2 (by decide)
  have h := (@Found.here _ _ mark (js "BEGIN") (js "MSG") (decimal f.length ++ crlf)
    (by decide) (mark_notMem_append hlength (by decide)) (crlf ++ f.msg ++ Fields.afterMsg))
  have hpart : decimal f.length ++ crlf ++ js "BEGIN" ++
      mark :: (js "MSG" ++ (crlf ++ f.msg ++ Fields.afterMsg)) = f.lengthPart := by
    simp [Fields.lengthPart, Fields.msgPart, key]
  rw [hpart] at h
  have h := h.glue [js "BBODY", f.charset, f.encoding]
    [key "CHARSET", key "ENCODING", key "LENGTH"] (by decide)
    (by simpa using ⟨by decide, hf.charset.2.2, hf.encoding.2.2⟩) (by decide)
  have hkey : js "BEGIN:MSG" = js "BEGIN" ++ mark :: js "MSG" := by decide
  rw [hkey]
  exact found_body hf (by decide) (by decide) (by decide) h

theorem fetchBodyMsg_text (hf : f.Clean) (hlen : 0 < f.length) :
    fetchBodyMsg f.text = .ok f.msg := by
  obtain ⟨pre, hpre, h⟩ := exists_text_eq hf hlen
  have hpos : (0 : ℤ) < pre.length := by exact_mod_cast List.length_pos_iff.2 hpre
  have htext : f.text = (pre ++ js "BEGIN:MSG" ++ crlf) ++ f.msg ++ Fields.afterMsg := by
    rw [h.eq]
    simp
  have hlast : lastIndexOf f.text (crlf ++ js "END:MSG") =
      ((pre ++ js "BEGIN:MSG" ++ crlf).length + f.msg.length : ℕ) := by
    rw [lastIndexOf, htext, lastIndex_append lastIndex_afterMsg]
    simp only [List.length_append, Nat.add_zero]
  have hbegin : (pre.length : ℤ) + ((js "BEGIN:MSG").length + crlf.length : ℕ) =
      (pre ++ js "BEGIN:MSG" ++ crlf).length := by
    simp only [List.length_append]
    omega
  have hend : ¬ (((pre ++ js "BEGIN:MSG" ++ crlf).length + f.msg.length : ℕ) : ℤ) = -1 := by
    omega
  have hcut := @substring_append (pre ++ js "BEGIN:MSG" ++ crlf) f.msg Fields.afterMsg
  simp only [fetchBodyMsg, indexOf_zero h, hpos, if_true, hlast, hbegin, if_neg hend]
  rw [htext, Nat.cast_add]
  exact hcut

/-- The recipient's vCard, without the end of its last line. -/
def Fields.recipientVcard (f : Fields) : JString :=
  js "BEGIN:VCARD" ++ crlf ++ property "VERSION:" (some f.vcardVersion) ++
    property "N:" (some f.recipientName) ++ property "TEL:" (some f.recipientNumber) ++
    js "END:VCARD"

end Fetch

theorem recipientVcard_eq : crlf ++ f.recipientVcard = key "BEGIN" ++ mark ::
    glue mark [js "VCARD", f.vcardVersion, f.recipientName] [key "VERSION", key "N", key "TEL"]
      (f.recipientNumber ++ crlf) ++ (js "END" ++ mark :: js "VCARD") := by
  have h1 : js "BEGIN:VCARD" = js "BEGIN" ++ mark :: js "VCARD" := by decide
  have h2 : js "END:VCARD" = js "END" ++ mark :: js "VCARD" := by decide
  have p1 := @property_eq "VERSION:" "VERSION" (by decide)
  have p2 := @property_eq "N:" "N" (by decide)
  have p3 := @property_eq "TEL:" "TEL" (by decide)
  simp only [Fields.recipientVcard, h1, h2, p1, p2, p3, glue, key, List.append_assoc,
    List.cons_append]

/-- The envelope. -/
theorem found_envelope (hf : f.Clean) : ∃ pre, pre ≠ [] ∧
    Found (key "BEGIN" ++ mark :: js "BENV") f.text pre
      (key "BEGIN" ++ mark :: f.recipientPart) := by
  have h := @Found.here _ _ mark (key "BEGIN") (js "BENV") (js "VCARD") (by decide)
    (by decide) (key "BEGIN" ++ mark :: f.recipientPart)
  have hpart : js "BENV" ++ (key "BEGIN" ++ mark :: f.recipientPart) = f.envelopePart := by
    rw [Fields.envelopePart, List.append_assoc]
  rw [hpart] at h
  have h1 : Found (key "BEGIN" ++ mark :: js "BENV") f.originatorPart _ _ :=
    found_card hf.vcardVersion hf.originatorName hf.originatorNumber (by decide)
      (by decide) h
  have h2 : Found (key "BEGIN" ++ mark :: js "BENV") f.folderPart _ _ :=
    found_begin (by decide) hf.folder.2.2
      (by decide : ApartBegin _ _ (js "VCARD")) prefix_glue h1
  exact found_top hf (by decide) (by decide) (by decide) h2

/-- The vCard in the envelope. -/
theorem found_recipient : ∃ post, Found (key "BEGIN" ++ mark :: js "VCARD")
    (key "BEGIN" ++ mark :: f.envelopePart) (key "BEGIN" ++ mark :: js "BENV") post ∧
    js "VCARD" ++ post = f.recipientPart := by
  obtain ⟨post, hpost⟩ : js "VCARD" <+: f.recipientPart := prefix_glue
  refine ⟨post, ?_, hpost⟩
  have h := @Found.here _ _ mark (key "BEGIN") (js "VCARD") (js "BENV") (by decide)
    (by decide) post
  rw [hpost] at h
  refine h.skip (by decide) (by decide) fun hs => ?_
  refine absurd hs.2 ?_
  rw [Fields.envelopePart, List.append_assoc]
  exact not_prefix_append (by decide) (by decide) _

/-- The end of the vCard. -/
theorem found_end (hf : f.Clean) : Found (js "END" ++ mark :: js "VCARD")
    (key "BEGIN" ++ mark :: f.recipientPart)
    (key "BEGIN" ++ mark :: glue mark [js "VCARD", f.vcardVersion, f.recipientName]
      [key "VERSION", key "N", key "TEL"] (f.recipientNumber ++ crlf))
    (key "BEGIN" ++ mark :: f.bodyPart) := by
  have h := @Found.here _ _ mark (js "END") (js "VCARD") (f.recipientNumber ++ crlf)
    (by decide) (mark_notMem_append hf.recipientNumber.2.2 (by decide))
    (key "BEGIN" ++ mark :: f.bodyPart)
  have h := h.glue [js "VCARD", f.vcardVersion, f.recipientName]
    [key "VERSION", key "N", key "TEL"] (by decide)
    (by simpa using ⟨by decide, hf.vcardVersion.2.2, hf.recipientName.2.2⟩)
    (by decide)
  have hpart : glue mark [js "VCARD", f.vcardVersion, f.recipientName]
      [key "VERSION", key "N", key "TEL"] (f.recipientNumber ++ crlf ++ js "END" ++
        mark :: (js "VCARD" ++ (key "BEGIN" ++ mark :: f.bodyPart))) = f.recipientPart := by
    simp [Fields.recipientPart, Fields.afterRecipient, glue, cardKeys, key]
  rw [hpart] at h
  exact h.skip (by decide) (by decide) fun hs => absurd hs.1 (by decide)

/-- **The recipient's vCard** is the one that is handed to the parser. -/
theorem fetchRecipientVcard_text (hf : f.Clean) :
    fetchRecipientVcard f.text = .ok f.recipientVcard := by
  obtain ⟨pre, hpre, henv⟩ := found_envelope hf
  obtain ⟨post, hcard, hpost⟩ := @found_recipient f
  have hend := found_end hf
  set front := glue mark [js "VCARD", f.vcardVersion, f.recipientName]
    [key "VERSION", key "N", key "TEL"] (f.recipientNumber ++ crlf) with hfront
  have hk1 : crlf ++ js "BEGIN:BENV" = key "BEGIN" ++ mark :: js "BENV" := by decide
  have hk2 : crlf ++ js "BEGIN:VCARD" = key "BEGIN" ++ mark :: js "VCARD" := by decide
  have hk3 : js "END:VCARD" = js "END" ++ mark :: js "VCARD" := by decide
  have hvcard : f.recipientVcard = js "BEGIN" ++ mark :: front ++ js "END:VCARD" := by
    have heq := @recipientVcard_eq f
    rw [key, List.append_assoc, List.append_assoc, ← hfront, ← hk3] at heq
    rw [List.append_cancel_left heq]
    simp
  have hpart : crlf ++ js "BEGIN:VCARD" ++ post = key "BEGIN" ++ mark :: f.recipientPart := by
    rw [hk2, ← hpost]
    simp
  have henvelope : crlf ++ js "BEGIN:BENV" ++ (key "BEGIN" ++ mark :: f.recipientPart) =
      key "BEGIN" ++ mark :: f.envelopePart := by
    rw [hk1, Fields.envelopePart]
    simp
  have hfrontKey : crlf ++ (js "BEGIN" ++ mark :: front) = key "BEGIN" ++ mark :: front := by
    rw [key, List.append_assoc]
  rw [← hk1] at henv
  rw [← hk2, ← henvelope] at hcard
  rw [← hk3, ← hpart, ← hfrontKey] at hend
  rw [hvcard]
  exact fetchRecipientVcard_found henv hcard (fun h => hpre (List.append_eq_nil_iff.1 h).1) hend

end Fetch

/-! ### Round trip -/

/-- A field that is not null and has no line end and no colon in it. -/
def CleanField (field : Option JString) : Prop := ∃ s, field = some s ∧ Clean s

/-- The header fields of a message are not null and clean. -/
structure HeaderClean (b : BmessageConsts) : Prop where
  bmsgVersion : CleanField b.bmsgVersion
  status : CleanField b.status
  type : CleanField b.type
  folder : CleanField b.folder
  vcardVersion : CleanField b.vcardVersion
  originatorName : CleanField b.originatorVcardName
  originatorNumber : CleanField b.originatorVcardPhoneNumber
  recipientName : CleanField b.recipientVcardName
  recipientNumber : CleanField b.recipientVcardPhoneNumber
  charset : CleanField b.bodyCharset
  encoding : CleanField b.bodyEncoding

/-- The recipient's vCard of a message, without the end of its last line. -/
def recipientVcard (b : BmessageConsts) : JString :=
  js "BEGIN:VCARD" ++ crlf ++ property "VERSION:" b.vcardVersion ++
    property "N:" b.recipientVcardName ++ property "TEL:" b.recipientVcardPhoneNumber ++
    js "END:VCARD"

/-- The values of a message. -/
theorem exists_fields {b : BmessageConsts} (hb : HeaderClean b) {msg : JString}
    (hmsg : b.bodyMsg = some msg) :
    ∃ f : Fields, f.Clean ∧ f.bmsg b = b ∧ f.length = b.bodyLength ∧ f.msg = msg := by
  obtain ⟨v, hv, hv'⟩ := hb.bmsgVersion
  obtain ⟨s, hs, hs'⟩ := hb.status
  obtain ⟨t, ht, ht'⟩ := hb.type
  obtain ⟨d, hd, hd'⟩ := hb.folder
  obtain ⟨vv, hvv, hvv'⟩ := hb.vcardVersion
  obtain ⟨on, hon, hon'⟩ := hb.originatorName
  obtain ⟨ot, hot, hot'⟩ := hb.originatorNumber
  obtain ⟨rn, hrn, hrn'⟩ := hb.recipientName
  obtain ⟨rt, hrt, hrt'⟩ := hb.recipientNumber
  obtain ⟨c, hc, hc'⟩ := hb.charset
  obtain ⟨e, he, he'⟩ := hb.encoding
  refine ⟨⟨v, s, t, d, vv, on, ot, rn, rt, c, e, b.bodyLength, msg⟩,
    ⟨hv', hs', ht', hd', hvv', hon', hot', hrn', hrt', hc', he'⟩, ?_, rfl, rfl⟩
  simp only [Fields.bmsg, ← hv, ← hs, ← ht, ← hd, ← hvv, ← hon, ← hot, ← hrn, ← hrt, ← hc, ← he,
    ← hmsg]

/-- **Round trip of an SMS**: what `toBmessageSMS` writes, `fromBmessageSMS` reads, whatever the
message is; and the vCard that is handed to the parser is the recipient's. -/
theorem fromBmessageSMS_toBmessageSMS {parserV21 parserV30 : VCardParser} {b : BmessageConsts}
    {msg tel : JString} (hb : HeaderClean b) (hlen : 0 < b.bodyLength)
    (hmax : b.bodyLength ≤ 2 ^ 31 - 1) (hmsg : b.bodyMsg = some msg)
    (hparse : ∃ version, parseVCard parserV21 parserV30 (recipientVcard b) = .ok ⟨tel, version⟩)
    (htel : tel ≠ [] ∧ 44 ∉ tel ∧ 59 ∉ tel) :
    fetchRecipientVcard (toBmessageSMS b) = .ok (recipientVcard b) ∧
    ∃ r, fromBmessageSMS parserV21 parserV30 (toBmessageSMS b) = .ok r ∧
      r.bmsgVersion = b.bmsgVersion ∧ r.status = b.status ∧ r.type = b.type ∧
      r.folder = b.folder ∧ r.bodyLength = b.bodyLength ∧ r.bodyMsg = b.bodyMsg ∧
      r.bodyEncoding = b.bodyEncoding := by
  obtain ⟨f, hf, hfb, hflen, rfl⟩ := exists_fields hb hmsg
  obtain ⟨version, hparse⟩ := hparse
  have hcard : recipientVcard b = f.recipientVcard := by
    rw [← hfb]
    rfl
  have htext : toBmessageSMS b = f.text := by
    rw [← hfb]
    exact toBmessageSMS_eq f b (by omega)
  have hvcard := fetchRecipientVcard_text hf
  have hbad : ¬ (tel.length = 0 ∨ 44 ∈ tel ∨ 59 ∈ tel) := by
    rw [List.length_eq_zero_iff]
    exact fun h => h.elim htel.1 (fun h => h.elim htel.2.1 htel.2.2)
  rw [hcard] at hparse
  rw [htext, hcard]
  refine ⟨hvcard, ?_⟩
  simp only [fromBmessageSMS, hvcard, bind, Except.bind, hparse, hbad, if_false,
    fetchVersion_text hf, fetchReadStatus_text hf, fetchType_text hf, fetchFolder_text hf,
    fetchBodyLength_text hf (hflen ▸ hlen) (hflen ▸ hmax), fetchBodyMsg_text hf (hflen ▸ hlen),
    fetchBodyEncoding_text hf, pure, Except.pure]
  refine ⟨_, rfl, ?_⟩
  rw [← hfb]
  exact ⟨rfl, rfl, rfl, rfl, rfl, rfl, rfl⟩

/-- A message whose text looks like the end of a message. -/
def sampleBmessage : BmessageConsts where
  bmsgVersion := some (js "1.0")
  status := some (js "UNREAD")
  type := some (js "SMS_GSM")
  folder := some (js "telecom/msg/outbox")
  vcardVersion := some (js "2.1")
  originatorVcardName := some (js "BEGIN")
  originatorVcardPhoneNumber := some (js "1")
  recipientVcardName := some (js "END")
  recipientVcardPhoneNumber := some (js "5550100")
  bodyCharset := some (js "UTF-8")
  bodyEncoding := some (js "G-7BIT")
  bodyLength := 44
  bodyMsg := some (js "BEGIN:MSG\r\nLENGTH:7\r\nEND:MSG")

/-- A parser that takes the first `TEL`. -/
def sampleParser : VCardParser := fun vCard recipient =>
  match fetchProperty "TEL:" none vCard with
  | .ok (some tel) => ({ recipient with mTel := tel }, .done)
  | _ => (recipient, .vcardException)

/-- The message comes back with its text. -/
theorem roundTrip_sampleBmessage :
    ∃ r, fromBmessageSMS sampleParser sampleParser (toBmessageSMS sampleBmessage) = .ok r ∧
      r.folder = some (js "telecom/msg/outbox") ∧ r.bodyLength = 44 ∧
      r.bodyMsg = some (js "BEGIN:MSG\r\nLENGTH:7\r\nEND:MSG") := by
  have hb : HeaderClean sampleBmessage :=
    ⟨⟨_, rfl, by decide⟩, ⟨_, rfl, by decide⟩, ⟨_, rfl, by decide⟩,
      ⟨_, rfl, by decide⟩, ⟨_, rfl, by decide⟩, ⟨_, rfl, by decide⟩,
      ⟨_, rfl, by decide⟩, ⟨_, rfl, by decide⟩, ⟨_, rfl, by decide⟩,
      ⟨_, rfl, by decide⟩, ⟨_, rfl, by decide⟩⟩
  have hparse : parseVCard sampleParser sampleParser (recipientVcard sampleBmessage) =
      .ok ⟨js "5550100", js "2.1"⟩ := by
    decide
  obtain ⟨-, r, hr, -, -, -, hfolder, hlength, hmsg, -⟩ :=
    fromBmessageSMS_toBmessageSMS hb (by decide) (by decide) rfl ⟨_, hparse⟩ (by decide)
  exact ⟨r, hr, hfolder, hlength, hmsg⟩

end Map

end Msm8909w
