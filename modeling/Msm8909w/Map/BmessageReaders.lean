import Msm8909w.Map.BmessageSMS
import Msm8909w.Map.MmsPush
import Msm8909w.Map.RecipientVCard

/-!
# Malformed bMessages

The readers of `MapUtils.java` cut substrings between two searches, and convert what they find to a
number.  `OnlyBadRequest` says of a reader that it returns or throws a `BadRequestException`.

* `onlyBadRequest_bind` : one step after the other,
* `onlyBadRequest_fetchProperty`, `onlyBadRequest_fetchBodyLength` : the fields,
* `emptyLine_eq` : the loops that search for an empty line,
* `readers_onlyBadRequest_iff` : for each of the three readers, exactly when it does so.
-/

namespace Msm8909w

namespace Map

/-! ### The reader of MMS -/

/-- `parseVCard`, for what is kept of the vCard. -/
def parseWith {R : Type} (setVersion : JString → R → R) (new : R)
    (parserV21 parserV30 : JString → R → R × ParseStatus) (vCard : JString) : Except Exn R :=
  if vCard.length = 0 then .ok new
  else
    match parserV21 vCard (setVersion (js "2.1") new) with
    | (recipient, .done) => .ok recipient
    | (recipient, .versionException) =>
      match parserV30 vCard (setVersion (js "3.0") recipient) with
      | (recipient, .done) => .ok recipient
      | _ => .error (.badRequest "Unable to parse vCard")
    | _ => .error (.badRequest "Unable to parse vCard")

/-- A parser that fills in all fields. -/
abbrev RecipientParser := JString → Recipient → Recipient × ParseStatus

/-- `parseVCard`. -/
def parseRecipient (parserV21 parserV30 : RecipientParser) : JString → Except Exn Recipient :=
  parseWith (fun version r => { r with mVersion := version }) {} parserV21 parserV30

/-- For SMS only some of the fields are looked at. -/
theorem parseVCard_eq (parserV21 parserV30 : VCardParser) :
    parseVCard parserV21 parserV30 =
      parseWith (fun version r => { r with mVersion := version }) {} parserV21 parserV30 := by
  funext vCard
  simp only [parseVCard, parseWith]
  split_ifs with hlen
  · rfl
  · rcases parserV21 vCard { mVersion := js "2.1" } with ⟨recipient, status⟩
    cases status with
    | versionException =>
      simp only
      rcases parserV30 vCard { recipient with mVersion := js "3.0" } with ⟨recipient', status'⟩
      cases status' <;> rfl
    | _ => rfl

/-- `fetchBodyMsgMMS`. -/
def fetchBodyMsgMMS (body : JString) : Except Exn JString :=
  let pos := indexOf body (js "BEGIN:MSG") 0
  if pos > 0 then
    let beginPos := pos
    let endPos := indexOf body (js "END:MSG") beginPos + (js "END:MSG").length
    substring body beginPos endPos
  else .ok []

/-- The address of the recipient: an e-mail address, or one telephone number. -/
def recipientAddress (recipient : Recipient) : Except Exn JString :=
  if recipient.mEmail.length > 0 then .ok recipient.mEmail
  else if ¬ (recipient.mTel.length = 0 ∨ 44 ∈ recipient.mTel ∨ 59 ∈ recipient.mTel) then
    .ok recipient.mTel
  else .error (.badRequest "Invalid Email/Tel in vCard")

/-- The value of an `Integer`. -/
def unbox : Option ℤ → Except Exn ℤ
  | some n => .ok n
  | none => .error .nullPointer

/-- The fields of a message for which the address and the version of the vCard are known. -/
def readFields (fetchMsg : JString → Except Exn JString) (bmsg phoneNumber vcardVersion : JString) :
    Except Exn BmessageConsts := do
  let bmsgVersion ← fetchVersion bmsg
  let status ← fetchReadStatus bmsg
  let type ← fetchType bmsg
  let folder ← fetchFolder bmsg
  let bodyLength ← fetchBodyLength bmsg >>= unbox
  let bodyMsg ← fetchMsg bmsg
  let bodyEncoding ← fetchBodyEncoding bmsg
  return {
    recipientVcardPhoneNumber := some phoneNumber
    vcardVersion := some vcardVersion
    bmsgVersion := bmsgVersion
    status := status
    type := type
    folder := folder
    bodyLength := bodyLength
    bodyMsg := some bodyMsg
    bodyEncoding := bodyEncoding }

/-- `fromBmessageMMS`. -/
def fromBmessageMMS (parserV21 parserV30 : RecipientParser) (bmsg : JString) :
    Except Exn BmessageConsts := do
  let vCard ← fetchRecipientVcard bmsg
  let recipient ← parseRecipient parserV21 parserV30 vCard
  let phoneNumber ← recipientAddress recipient
  readFields fetchBodyMsgMMS bmsg phoneNumber recipient.mVersion

/-- The number of the recipient of an SMS. -/
def recipientTel (recipient : RecipientVCard) : Except Exn JString :=
  if recipient.mTel.length = 0 ∨ 44 ∈ recipient.mTel ∨ 59 ∈ recipient.mTel then
    .error (.badRequest "Invalid TEL in vCard")
  else .ok recipient.mTel

/-- For SMS the same fields are read. -/
theorem fromBmessageSMS_eq (parserV21 parserV30 : VCardParser) (bmsg : JString) :
    fromBmessageSMS parserV21 parserV30 bmsg =
      (do
        let vCard ← fetchRecipientVcard bmsg
        let recipient ← parseVCard parserV21 parserV30 vCard
        let tel ← recipientTel recipient
        readFields fetchBodyMsg bmsg tel recipient.mVersion) := by
  unfold fromBmessageSMS
  congr 1
  funext vCard
  congr 1
  funext recipient
  rw [recipientTel]
  split_ifs with htel
  · rfl
  · show _ = readFields fetchBodyMsg bmsg recipient.mTel recipient.mVersion
    simp only [readFields, bind_assoc]
    repeat
      congr 1
      funext _
    next n => cases n <;> rfl

/-! ### The body of an e-mail -/

/-- The value behind a keyword, up to the next `stop`. -/
def valueBehind (s key stop : JString) (start : ℤ) (missing : Option JString) :
    Except Exn (Option JString) :=
  let pos := indexOf s key start
  if pos > 0 then do
    let beginPos := pos + key.length
    let endPos := indexOf s stop beginPos
    let value ← substring s beginPos endPos
    return some value
  else return missing

/-- `fetchBoundary`. -/
def fetchBoundary (body : JString) : Except Exn (Option JString) :=
  valueBehind body (js "boundary=\"") (js "\"") 0 none

/-- `"--" + boundary`; a missing boundary is written as `null`. -/
def dashes (boundary : Option JString) : JString := js "--" ++ boundary.getD (js "null")

/-- `fetchContentType`. -/
def fetchContentType (bmsg : JString) (boundary : Option JString) : Except Exn (Option JString) :=
  valueBehind bmsg (js "Content-Type:") crlf (indexOf bmsg (dashes boundary) 0) none

/-- `s.trim()`. -/
def trim (s : JString) : JString :=
  ((s.dropWhile (· ≤ 32)).reverse.dropWhile (· ≤ 32)).reverse

/-- There is a boundary (`mimeFlag`). -/
def hasBoundary (boundary : Option JString) : Bool := boundary ≠ none ∧ boundary ≠ some []

/-- Where the search for the empty line starts (`pos1`). -/
def headerStart (body : JString) (boundary : Option JString) : ℤ :=
  if hasBoundary boundary then indexOf body (dashes boundary) 0 else indexOf body (js "Date:") 0

/-- The content is a message itself (`rfc822Flag`). -/
def isRfc822 (body : JString) (boundary : Option JString) : Except Exn Bool :=
  if indexOf body (js "Content-Type") (headerStart body boundary) > 0 then do
    match ← fetchContentType body boundary with
    | some contentType => return equalsIgnoreCase (trim contentType) (js "message/rfc822")
    | none => return false
  else return false

theorem length_drop_firstIndex {s : JString} {i : ℕ} (h : firstIndex crlf s = some i) :
    (s.drop (i + 2)).length < s.length := by
  obtain ⟨pre, post, hfound, rfl⟩ := found_of_firstIndex h
  have hlen := congrArg List.length hfound.eq
  simp only [List.length_append, crlf, List.length_cons, List.length_nil] at hlen
  rw [List.length_drop]
  omega

/-- The loops that search for an empty line, from line to line: the number of characters before it.
-/
def emptyLine (s : JString) : Option ℕ :=
  if crlf <+: s then some 0
  else
    match h : firstIndex crlf s with
    | none => none
    | some i => (emptyLine (s.drop (i + 2))).map (i + 2 + ·)
termination_by s.length
decreasing_by exact length_drop_firstIndex h

/-- An index that is out of bounds means that there is no end boundary. -/
def catchIndex (x : Except Exn JString) : Except Exn JString :=
  match x with
  | .error .indexOutOfBounds => .error (.badRequest "Ill-formatted bMessage, no end boundary")
  | x => x

/-- What is returned if there is no empty line: the message between its tags. -/
def messageBetweenTags (body : JString) : Except Exn JString :=
  let beginMsg := indexOf body (js "BEGIN:MSG") 0
  if beginMsg = -1 then .error (.badRequest "Ill-formatted bMessage, no BEGIN:MSG")
  else
    let endMsg := indexOf body (js "END:MSG") beginMsg
    if endMsg = -1 then .error (.badRequest "Ill-formatted bMessage, no END:MSG")
    else substring body (beginMsg + (js "BEGIN:MSG").length) (endMsg - crlf.length)

/-- The body from `beginPos` on, behind the empty line. -/
def bodyFrom (body : JString) (boundary : Option JString) (rfc822 : Bool) (beginPos : ℤ) :
    Except Exn JString :=
  if rfc822 = false then
    if hasBoundary boundary = false then
      let endPos := indexOf body (js "END:MSG") beginPos
      if endPos ≠ -1 then substring body beginPos (endPos - crlf.length)
      else substring body beginPos body.length
    else
      let endPos := indexOf body (dashes boundary ++ js "--") beginPos - crlf.length
      catchIndex (substring body beginPos endPos)
  else do
    let endPos := indexOf body (dashes boundary ++ js "--") beginPos
    let body ← catchIndex (substring body beginPos endPos)
    let pos2 := indexOf body crlf 0 + crlf.length
    match emptyLine (body.drop pos2.toNat) with
    | some i => substring body (pos2 + i + crlf.length) body.length
    | none => .error (.badRequest "Ill-formatted bMessage, no empty line")

/-- `fetchBodyEmail`; it never returns `null`, since the loop ends at an empty line or with a
result. -/
def fetchBodyEmail (body : JString) : Except Exn JString := do
  let boundary ← fetchBoundary body
  let rfc822 ← isRfc822 body boundary
  let pos := indexOf body crlf (headerStart body boundary) + crlf.length
  match emptyLine (body.drop pos.toNat) with
  | some i => bodyFrom body boundary rfc822 (pos + i + crlf.length)
  | none => messageBetweenTags body

/-! ### What is asked for -/

/-- The reader returns, or throws a `BadRequestException`. -/
def OnlyBadRequest {α : Type} (x : Except Exn α) : Prop :=
  ∀ e, x = .error e → ∃ reason, e = .badRequest reason

section OnlyBadRequest

variable {α β : Type} {x : Except Exn α} {f : α → Except Exn β}

theorem onlyBadRequest_ok (a : α) : OnlyBadRequest (.ok a) := nofun

theorem onlyBadRequest_badRequest (reason : String) :
    OnlyBadRequest (.error (.badRequest reason) : Except Exn α) := by
  rintro _ ⟨⟩
  exact ⟨reason, rfl⟩

theorem not_onlyBadRequest {e : Exn} (h : ∀ reason, e ≠ .badRequest reason) :
    ¬ OnlyBadRequest (.error e : Except Exn α) := by
  intro hx
  obtain ⟨reason, hreason⟩ := hx e rfl
  exact h reason hreason

/-- One step after the other. -/
theorem onlyBadRequest_bind : OnlyBadRequest (x >>= f) ↔
    OnlyBadRequest x ∧ ∀ a, x = .ok a → OnlyBadRequest (f a) := by
  cases x with
  | error e =>
    constructor
    · intro h
      refine ⟨?_, nofun⟩
      rintro _ ⟨⟩
      exact h e rfl
    · rintro ⟨h, -⟩ _ ⟨⟩
      exact h e rfl
  | ok a =>
    constructor
    · intro h
      refine ⟨onlyBadRequest_ok a, ?_⟩
      rintro _ ⟨⟩
      exact h
    · exact fun h => h.2 a rfl

/-- A step with nothing that can go wrong behind it. -/
theorem onlyBadRequest_map (g : α → β) :
    OnlyBadRequest (do let a ← x; return g a) ↔ OnlyBadRequest x := by
  rw [onlyBadRequest_bind]
  exact and_iff_left fun a _ => onlyBadRequest_ok (g a)

theorem onlyBadRequest_substring {s : JString} {start stop : ℤ} :
    OnlyBadRequest (substring s start stop) ↔ 0 ≤ start ∧ stop ≤ s.length ∧ start ≤ stop := by
  rw [substring]
  split_ifs with h
  · refine iff_of_false (not_onlyBadRequest ?_) ?_
    · rintro _ ⟨⟩
    · omega
  · refine iff_of_true (onlyBadRequest_ok _) ?_
    omega

theorem onlyBadRequest_catchIndex_substring (s : JString) (start stop : ℤ) :
    OnlyBadRequest (catchIndex (substring s start stop)) := by
  rw [substring]
  split_ifs
  · exact onlyBadRequest_badRequest _
  · exact onlyBadRequest_ok _

end OnlyBadRequest

/-! ### Searches -/

section Searches

variable {s w : JString} {start : ℤ}

/-- What a search finds. -/
theorem indexOf_cases (s w : JString) (start : ℤ) :
    (indexOf s w start = -1 ∧ ¬ w <:+: s.drop start.toNat) ∨
      ∃ pre post, Found w (s.drop start.toNat) pre post ∧
        indexOf s w start = (start.toNat + pre.length : ℕ) := by
  cases h : firstIndex w (s.drop start.toNat) with
  | none => exact .inl ⟨by rw [indexOf, h], firstIndex_eq_none.1 h⟩
  | some i =>
    obtain ⟨pre, post, hfound, rfl⟩ := found_of_firstIndex h
    refine .inr ⟨pre, post, hfound, ?_⟩
    rw [indexOf, h]
    exact (Nat.cast_add _ _).symm

theorem indexOf_eq_neg_one_iff : indexOf s w start = -1 ↔ ¬ w <:+: s.drop start.toNat := by
  rcases indexOf_cases s w start with ⟨h, hnot⟩ | ⟨pre, post, hfound, h⟩
  · exact iff_of_true h hnot
  · refine iff_of_false (by omega) (not_not.2 hfound.occurs)

/-- A word that is found is inside the text, at the place where the search starts or behind it. -/
theorem indexOf_bounds (hw : w ≠ []) (h : indexOf s w start ≠ -1) :
    start ≤ indexOf s w start ∧ 0 ≤ indexOf s w start ∧
      indexOf s w start + w.length ≤ s.length := by
  rcases indexOf_cases s w start with ⟨h', -⟩ | ⟨pre, post, hfound, h'⟩
  · exact absurd h' h
  · have hlen := congrArg List.length hfound.eq
    have hpos := List.length_pos_iff.2 hw
    rw [List.length_drop, List.length_append, List.length_append] at hlen
    omega

/-- A cut that ends at the next occurrence of a word. -/
theorem onlyBadRequest_cut {b : ℕ} (hw : w ≠ []) :
    OnlyBadRequest (substring s b (indexOf s w b)) ↔ w <:+: s.drop b := by
  rw [onlyBadRequest_substring]
  by_cases h : indexOf s w b = -1
  · refine iff_of_false (by omega) ?_
    simpa using indexOf_eq_neg_one_iff.1 h
  · have hbounds := indexOf_bounds hw h
    refine iff_of_true (by omega) ?_
    rw [indexOf_eq_neg_one_iff, not_not] at h
    simpa using h

end Searches

/-! ### Values behind a keyword -/

section Values

variable {s key stop pre post value rest : JString} {start : ℤ} {missing : Option JString}

/-- The keyword stands at one of the places that count: not at the very beginning of the text. -/
structure KeyAt (s key : JString) (start : ℤ) (pre post : JString) : Prop where
  found : Found key (s.drop start.toNat) pre post
  pos : 0 < start.toNat + pre.length

theorem KeyAt.indexOf_eq (h : KeyAt s key start pre post) :
    indexOf s key start = (start.toNat + pre.length : ℕ) := by
  rw [indexOf, h.found.index]
  exact (Nat.cast_add _ _).symm

/-- What stands behind the keyword. -/
theorem KeyAt.drop_eq (h : KeyAt s key start pre post) :
    s.drop (start.toNat + pre.length + key.length) = post := by
  rw [Nat.add_assoc, ← List.drop_drop, h.found.eq, ← List.length_append, List.drop_left]

theorem KeyAt.unique {pre' post' : JString} (h : KeyAt s key start pre post)
    (h' : KeyAt s key start pre' post') : pre' = pre ∧ post' = post := h.found.unique h'.found

/-- If the keyword is at none of these places, the search gives nothing. -/
theorem indexOf_le_zero (h : ∀ pre post, ¬ KeyAt s key start pre post) :
    ¬ indexOf s key start > 0 := by
  rcases indexOf_cases s key start with ⟨hnone, -⟩ | ⟨pre, post, hfound, heq⟩
  · omega
  · intro hpos
    exact h pre post ⟨hfound, by omega⟩

theorem valueBehind_missing (h : ∀ pre post, ¬ KeyAt s key start pre post) :
    valueBehind s key stop start missing = .ok missing := if_neg (indexOf_le_zero h)

theorem valueBehind_keyAt (h : KeyAt s key start pre post) :
    valueBehind s key stop start missing = do
      let value ← substring s (start.toNat + pre.length + key.length : ℕ)
        (indexOf s stop (start.toNat + pre.length + key.length : ℕ))
      return some value := by
  have hpos : indexOf s key start > 0 := by
    rw [h.indexOf_eq]
    exact_mod_cast h.pos
  rw [valueBehind, if_pos hpos, h.indexOf_eq]
  push_cast
  rfl

/-- The value is what stands before the next `stop`. -/
theorem valueBehind_found (h : KeyAt s key start pre post) (hne : stop ≠ [])
    (hstop : Found stop post value rest) :
    valueBehind s key stop start missing = .ok (some value) := by
  have hdrop := h.drop_eq
  rw [valueBehind_keyAt h]
  generalize start.toNat + pre.length + key.length = b at hdrop ⊢
  have hindex : indexOf s stop b = b + value.length := by
    rw [indexOf, Int.toNat_natCast, hdrop, hstop.index]
  have hlen : b + value.length ≤ s.length := by
    have hpos := List.length_pos_iff.2 hne
    have hpost := congrArg List.length hstop.eq
    rw [← hdrop, List.length_drop, List.length_append, List.length_append] at hpost
    omega
  have hcond :
      ¬ ((b : ℤ) < 0 ∨ (s.length : ℤ) < b + value.length ∨ (b + value.length : ℤ) < b) := by
    omega
  rw [hindex, substring, if_neg hcond, Int.toNat_natCast, hdrop, hstop.eq]
  simp [List.append_assoc]

/-- A keyword whose value has an end. -/
def Ended (s key stop : JString) (start : ℤ) : Prop :=
  ∀ pre post, KeyAt s key start pre post → stop <:+: post

theorem onlyBadRequest_valueBehind (hstop : stop ≠ []) :
    OnlyBadRequest (valueBehind s key stop start missing) ↔ Ended s key stop start := by
  by_cases h : ∃ pre post, KeyAt s key start pre post
  · obtain ⟨pre, post, hkey⟩ := h
    rw [valueBehind_keyAt hkey, onlyBadRequest_map, onlyBadRequest_cut hstop, hkey.drop_eq]
    constructor
    · intro hpost pre' post' hkey'
      obtain ⟨-, rfl⟩ := hkey.unique hkey'
      exact hpost
    · exact fun hended => hended pre post hkey
  · simp only [not_exists] at h
    rw [valueBehind_missing h]
    exact iff_of_true (onlyBadRequest_ok _) fun pre post hkey => absurd hkey (h pre post)

theorem onlyBadRequest_fetchProperty {key : String} {missing : Option JString} {t : JString} :
    OnlyBadRequest (fetchProperty key missing t) ↔ Ended t (js key) crlf 0 :=
  onlyBadRequest_valueBehind (by decide)

end Values

/-! ### The fields -/

section Fields

variable {α β : Type} {x : Except Exn α} {f : α → Except Exn β} {P : Prop} {t : JString}

/-- What never throws a `BadRequestException` has to return. -/
theorem onlyBadRequest_iff_ok (hx : ∀ reason, x ≠ .error (.badRequest reason)) :
    OnlyBadRequest x ↔ ∃ a, x = .ok a := by
  cases x with
  | ok a => exact iff_of_true (onlyBadRequest_ok a) ⟨a, rfl⟩
  | error e =>
    refine iff_of_false (not_onlyBadRequest fun reason he => hx reason (by rw [he])) ?_
    rintro ⟨a, ⟨⟩⟩

/-- Steps that do not depend on each other. -/
theorem onlyBadRequest_seq (hx : ∀ reason, x ≠ .error (.badRequest reason))
    (hf : ∀ a, OnlyBadRequest (f a) ↔ P) : OnlyBadRequest (x >>= f) ↔ OnlyBadRequest x ∧ P := by
  rw [onlyBadRequest_bind]
  refine and_congr_right fun h => ?_
  obtain ⟨a, rfl⟩ := (onlyBadRequest_iff_ok hx).1 h
  constructor
  · exact fun hall => (hf a).1 (hall a rfl)
  · rintro hP _ ⟨⟩
    exact (hf a).2 hP

theorem bind_ne_badRequest {reason : String} (hx : x ≠ .error (.badRequest reason))
    (hf : ∀ a, f a ≠ .error (.badRequest reason)) : x >>= f ≠ .error (.badRequest reason) := by
  cases x with
  | ok a => exact hf a
  | error e =>
    intro heq
    exact hx (congrArg Except.error (Except.error.inj heq))

theorem substring_ne_badRequest (s : JString) (start stop : ℤ) (reason : String) :
    substring s start stop ≠ .error (.badRequest reason) := by
  rw [substring]
  split_ifs <;> rintro ⟨⟩

theorem valueBehind_ne_badRequest (s key stop : JString) (start : ℤ) (missing : Option JString)
    (reason : String) : valueBehind s key stop start missing ≠ .error (.badRequest reason) := by
  rw [valueBehind]
  split_ifs
  · exact bind_ne_badRequest (substring_ne_badRequest s _ _ reason) fun _ => nofun
  · nofun

/-- The length can be read: there is one, its line has an end, and it is an `int`. -/
def LengthReadable (t : JString) : Prop :=
  ∃ pre post value rest n, KeyAt t (js "LENGTH:") 0 pre post ∧ Found crlf post value rest ∧
    valueOf value = .ok n

theorem valueOf_ne_badRequest (value : JString) (reason : String) :
    valueOf value ≠ .error (.badRequest reason) := by
  simp only [valueOf]
  split
  · rintro ⟨⟩
  · rintro ⟨⟩
  · split_ifs <;> rintro ⟨⟩

theorem fetchBodyLength_ne_badRequest (t : JString) (reason : String) :
    fetchBodyLength t >>= unbox ≠ .error (.badRequest reason) := by
  refine bind_ne_badRequest (bind_ne_badRequest ?_ ?_) ?_
  · exact valueBehind_ne_badRequest t (js "LENGTH:") crlf 0 none reason
  · rintro (_ | value)
    · nofun
    · exact bind_ne_badRequest (valueOf_ne_badRequest value reason) fun _ => nofun
  · rintro (_ | n) <;> nofun

theorem onlyBadRequest_fetchBodyLength :
    OnlyBadRequest (fetchBodyLength t >>= unbox) ↔ LengthReadable t := by
  by_cases hkey : ∃ pre post, KeyAt t (js "LENGTH:") 0 pre post
  · obtain ⟨pre, post, hkey⟩ := hkey
    by_cases hline : crlf <:+: post
    · obtain ⟨value, rest, hline⟩ := exists_found hline
      have hvalue : fetchProperty "LENGTH:" none t = .ok (some value) :=
        valueBehind_found hkey (by decide) hline
      have hlength : fetchBodyLength t >>= unbox = valueOf value := by
        rw [fetchBodyLength, hvalue]
        cases h : valueOf value <;> simp [Bind.bind, Except.bind, h, pure, Except.pure, unbox]
      rw [hlength, onlyBadRequest_iff_ok (valueOf_ne_badRequest value)]
      constructor
      · rintro ⟨n, hn⟩
        exact ⟨pre, post, value, rest, n, hkey, hline, hn⟩
      · rintro ⟨pre', post', value', rest', n, hkey', hline', hn⟩
        obtain ⟨-, rfl⟩ := hkey.unique hkey'
        obtain ⟨rfl, -⟩ := hline.unique hline'
        exact ⟨n, hn⟩
    · refine iff_of_false (fun h => hline ?_) ?_
      · have hfetch := (onlyBadRequest_bind.1 (onlyBadRequest_bind.1 h).1).1
        exact onlyBadRequest_fetchProperty.1 hfetch pre post hkey
      · rintro ⟨pre', post', value', rest', n, hkey', hline', -⟩
        obtain ⟨-, rfl⟩ := hkey.unique hkey'
        exact hline hline'.occurs
  · have hmissing : fetchProperty "LENGTH:" none t = .ok none :=
      valueBehind_missing fun pre post h => hkey ⟨pre, post, h⟩
    refine iff_of_false ?_ ?_
    · rw [fetchBodyLength, hmissing]
      refine not_onlyBadRequest ?_
      rintro _ ⟨⟩
    · rintro ⟨pre, post, -, -, -, h, -, -⟩
      exact hkey ⟨pre, post, h⟩

/-- The fields that both readers read. -/
structure FieldsReadable (t : JString) : Prop where
  version : Ended t (js "VERSION:") crlf 0
  status : Ended t (js "STATUS:") crlf 0
  type : Ended t (js "TYPE:") crlf 0
  folder : Ended t (js "FOLDER:") crlf 0
  length : LengthReadable t
  encoding : Ended t (js "ENCODING:") crlf 0

theorem onlyBadRequest_readFields {fetchMsg : JString → Except Exn JString}
    (hmsg : ∀ reason, fetchMsg t ≠ .error (.badRequest reason)) (phoneNumber version : JString) :
    OnlyBadRequest (readFields fetchMsg t phoneNumber version) ↔
      FieldsReadable t ∧ OnlyBadRequest (fetchMsg t) := by
  have hfetch (key : String) (missing : Option JString) (reason : String) :
      fetchProperty key missing t ≠ .error (.badRequest reason) :=
    valueBehind_ne_badRequest t (js key) crlf 0 missing reason
  have hsteps : OnlyBadRequest (readFields fetchMsg t phoneNumber version) ↔
      OnlyBadRequest (fetchVersion t) ∧ OnlyBadRequest (fetchReadStatus t) ∧
        OnlyBadRequest (fetchType t) ∧ OnlyBadRequest (fetchFolder t) ∧
        OnlyBadRequest (fetchBodyLength t >>= unbox) ∧ OnlyBadRequest (fetchMsg t) ∧
        OnlyBadRequest (fetchBodyEncoding t) := by
    refine onlyBadRequest_seq (hfetch _ _) fun _ => ?_
    refine onlyBadRequest_seq (hfetch _ _) fun _ => ?_
    refine onlyBadRequest_seq (hfetch _ _) fun _ => ?_
    refine onlyBadRequest_seq (hfetch _ _) fun _ => ?_
    refine onlyBadRequest_seq (fetchBodyLength_ne_badRequest t) fun _ => ?_
    refine onlyBadRequest_seq hmsg fun _ => ?_
    exact onlyBadRequest_map _
  rw [hsteps, fetchVersion, fetchReadStatus, fetchType, fetchFolder, fetchBodyEncoding,
    onlyBadRequest_fetchBodyLength]
  simp only [onlyBadRequest_fetchProperty]
  constructor
  · rintro ⟨hversion, hstatus, htype, hfolder, hlength, hbody, hencoding⟩
    exact ⟨⟨hversion, hstatus, htype, hfolder, hlength, hencoding⟩, hbody⟩
  · rintro ⟨⟨hversion, hstatus, htype, hfolder, hlength, hencoding⟩, hbody⟩
    exact ⟨hversion, hstatus, htype, hfolder, hlength, hbody, hencoding⟩

end Fields

/-! ### The body of an SMS and of an MMS -/

section Bodies

variable {t : JString}

/-- The last end tag is behind the beginning of the message. -/
def SmsBody (t : JString) : Prop :=
  ∀ pre post i, KeyAt t (js "BEGIN:MSG") 0 pre post →
    lastIndex (crlf ++ js "END:MSG") t = some i → pre.length + 11 ≤ i

theorem fetchBodyMsg_ne_badRequest (t : JString) (reason : String) :
    fetchBodyMsg t ≠ .error (.badRequest reason) := by
  simp only [fetchBodyMsg]
  split_ifs
  · rintro ⟨⟩
  · exact substring_ne_badRequest _ _ _ _
  · rintro ⟨⟩

theorem onlyBadRequest_fetchBodyMsg : OnlyBadRequest (fetchBodyMsg t) ↔ SmsBody t := by
  by_cases hkey : ∃ pre post, KeyAt t (js "BEGIN:MSG") 0 pre post
  · obtain ⟨pre, post, hkey⟩ := hkey
    have hindex := hkey.indexOf_eq
    have hpos := hkey.pos
    have hlen : ((js "BEGIN:MSG").length + crlf.length : ℕ) = 11 := by decide
    simp only [Int.toNat_zero, Nat.zero_add] at hindex hpos
    rw [fetchBodyMsg, hindex, if_pos (by exact_mod_cast hpos), hlen, lastIndexOf]
    cases hlast : lastIndex (crlf ++ js "END:MSG") t with
    | none =>
      refine iff_of_true (onlyBadRequest_ok _) fun pre' post' i _ hi => ?_
      rw [hlast] at hi
      cases hi
    | some i =>
      have hle : i ≤ t.length := by
        obtain ⟨front, back, heq, rfl⟩ := exists_of_lastIndex hlast
        rw [heq, List.append_assoc, List.length_append]
        exact Nat.le_add_right _ _
      have hfound : ¬ (i : ℤ) = -1 := by omega
      simp only [hfound, if_false, onlyBadRequest_substring]
      constructor
      · intro h pre' post' i' hkey' hi'
        obtain ⟨rfl, -⟩ := hkey.unique hkey'
        obtain rfl := Option.some.inj (hlast.symm.trans hi')
        omega
      · intro h
        have hi := h pre post i hkey hlast
        omega
  · simp only [not_exists] at hkey
    rw [fetchBodyMsg, if_neg (indexOf_le_zero hkey)]
    exact iff_of_true (onlyBadRequest_ok _) fun pre post _ h => absurd h (hkey pre post)

/-- There is an end tag behind the beginning of the message; or the message begins so early that the
length of the tag that is not there is enough. -/
def MmsBody (t : JString) : Prop :=
  ∀ pre post, KeyAt t (js "BEGIN:MSG") 0 pre post → js "END:MSG" <:+: post ∨ pre.length ≤ 6

theorem fetchBodyMsgMMS_ne_badRequest (t : JString) (reason : String) :
    fetchBodyMsgMMS t ≠ .error (.badRequest reason) := by
  simp only [fetchBodyMsgMMS]
  split_ifs
  · exact substring_ne_badRequest _ _ _ _
  · nofun

/-- The end tag is not in the begin tag. -/
theorem firstIndex_endTag (post : JString) :
    firstIndex (js "END:MSG") (js "BEGIN:MSG" ++ post) =
      (firstIndex (js "END:MSG") post).map (9 + ·) := by
  have hbegin : js "BEGIN:MSG" = [66, 69, 71, 73, 78, 58, 77, 83, 71] := by decide
  have hend : js "END:MSG" = [69, 78, 68, 58, 77, 83, 71] := by decide
  rw [hbegin, hend]
  refine firstIndex_drop (n := 9) (by simp) fun j hj => ?_
  interval_cases j <;> simp

theorem endTag_infix_iff {post : JString} :
    js "END:MSG" <:+: js "BEGIN:MSG" ++ post ↔ js "END:MSG" <:+: post := by
  rw [← not_iff_not, ← firstIndex_eq_none, ← firstIndex_eq_none, firstIndex_endTag,
    Option.map_eq_none_iff]

theorem onlyBadRequest_fetchBodyMsgMMS : OnlyBadRequest (fetchBodyMsgMMS t) ↔ MmsBody t := by
  by_cases hkey : ∃ pre post, KeyAt t (js "BEGIN:MSG") 0 pre post
  · obtain ⟨pre, post, hkey⟩ := hkey
    have hindex := hkey.indexOf_eq
    have hpos := hkey.pos
    have hfirst := hkey.found
    simp only [Int.toNat_zero, Nat.zero_add, List.drop_zero] at hindex hpos hfirst
    have hlen : pre.length + 9 ≤ t.length := by
      have hbegin : (js "BEGIN:MSG").length = 9 := by decide
      rw [hfirst.eq, List.length_append, List.length_append, hbegin]
      omega
    have hend : (js "END:MSG").length = 7 := by decide
    have hiff : MmsBody t ↔ js "END:MSG" <:+: post ∨ pre.length ≤ 6 := by
      constructor
      · exact fun h => h pre post hkey
      · intro h pre' post' hkey'
        obtain ⟨rfl, rfl⟩ := hkey.unique hkey'
        exact h
    rw [fetchBodyMsgMMS, hindex, if_pos (by exact_mod_cast hpos), hiff, ← endTag_infix_iff]
    simp only [onlyBadRequest_substring, hend]
    by_cases hfound : indexOf t (js "END:MSG") pre.length = -1
    · have hnot := indexOf_eq_neg_one_iff.1 hfound
      rw [Int.toNat_natCast, hfirst.drop_eq] at hnot
      rw [hfound, or_iff_right hnot]
      omega
    · have hbounds := indexOf_bounds (by decide) hfound
      rw [indexOf_eq_neg_one_iff, not_not, Int.toNat_natCast, hfirst.drop_eq] at hfound
      rw [hend] at hbounds
      refine iff_of_true ?_ (.inl hfound)
      omega
  · simp only [not_exists] at hkey
    rw [fetchBodyMsgMMS, if_neg (indexOf_le_zero hkey)]
    exact iff_of_true (onlyBadRequest_ok _) fun pre post h => absurd h (hkey pre post)

end Bodies

/-! ### The body of an e-mail -/

section Email

variable {s t : JString} {i : ℕ}

/-- The number of characters before the first empty line. -/
def blankLine (s : JString) : Option ℕ :=
  if crlf <+: s then some 0 else (firstIndex (crlf ++ crlf) s).map (· + 2)

/-- Two line ends in a row are not found before the first one, nor in the middle of it. -/
theorem firstIndex_blank (h : firstIndex crlf s = some i) (hnext : ¬ crlf <+: s.drop (i + 2)) :
    firstIndex (crlf ++ crlf) s =
      (firstIndex (crlf ++ crlf) (s.drop (i + 2))).map (i + 2 + ·) := by
  obtain ⟨pre, post, hfound, rfl⟩ := found_of_firstIndex h
  have hat : s.drop pre.length = 13 :: 10 :: post := hfound.drop_eq
  have hbehind : s.drop (pre.length + 2) = post := by
    rw [← List.drop_drop, hat]
    rfl
  have hle : pre.length + 2 ≤ s.length := by
    have hlen := congrArg List.length hat
    rw [List.length_drop, List.length_cons, List.length_cons] at hlen
    omega
  refine firstIndex_drop hle fun j hj hblank => ?_
  rcases Nat.lt_trichotomy j pre.length with hlt | rfl | hgt
  · exact not_prefix_of_lt h hlt ((List.prefix_append _ _).trans hblank)
  · rw [hat] at hblank
    rw [hbehind] at hnext
    simp only [crlf, List.cons_append, List.nil_append, List.cons_prefix_cons, true_and] at hblank
    exact hnext (by simpa [crlf] using hblank)
  · obtain rfl : j = pre.length + 1 := by omega
    rw [← List.drop_drop, hat] at hblank
    simp [crlf] at hblank

/-- The loops find the first empty line. -/
theorem emptyLine_eq (s : JString) : emptyLine s = blankLine s := by
  induction s using emptyLine.induct with
  | case1 s hprefix => rw [emptyLine, blankLine, if_pos hprefix, if_pos hprefix]
  | case2 s hprefix hnone =>
    have hblank : firstIndex (crlf ++ crlf) s = none := by
      rw [firstIndex_eq_none] at hnone ⊢
      exact fun h => hnone ((List.prefix_append crlf crlf).isInfix.trans h)
    rw [emptyLine, blankLine, if_neg hprefix, if_neg hprefix, hblank]
    split
    · rfl
    · next i hi => rw [hnone] at hi; cases hi
  | case3 s hprefix i hi ih =>
    have hstep : emptyLine s = (blankLine (s.drop (i + 2))).map (i + 2 + ·) := by
      rw [emptyLine, if_neg hprefix, ← ih]
      split
      · next hnone => rw [hi] at hnone; cases hnone
      · next i' hi' =>
        obtain rfl := Option.some.inj (hi.symm.trans hi')
        rfl
    rw [hstep, blankLine, blankLine, if_neg hprefix]
    split_ifs with hnext
    · -- two line ends in a row, the first of them at `i`
      obtain ⟨pre, post, hfound, rfl⟩ := found_of_firstIndex hi
      have hpost : s.drop (pre.length + 2) = post := by
        rw [← List.drop_drop, hfound.drop_eq]
        rfl
      have hhere : crlf ++ crlf <+: s.drop pre.length := by
        rw [hfound.drop_eq, List.prefix_append_right_inj, ← hpost]
        exact hnext
      have hbefore : ∀ j < pre.length, ¬ crlf ++ crlf <+: s.drop j := fun j hj hblank =>
        not_prefix_of_lt hi hj ((List.prefix_append _ _).trans hblank)
      have hle : pre.length ≤ s.length := by
        rw [hfound.eq]
        simp
      rw [firstIndex_drop hle hbefore, firstIndex_of_prefix hhere]
      rfl
    · rw [firstIndex_blank hi hnext, Option.map_map, Option.map_map]
      rfl

theorem emptyLine_le (h : emptyLine s = some i) : i + 2 ≤ s.length := by
  rw [emptyLine_eq, blankLine] at h
  split_ifs at h with hprefix
  · obtain rfl := Option.some.inj h
    exact hprefix.length_le
  · obtain ⟨j, hj, rfl⟩ := Option.map_eq_some_iff.1 h
    obtain ⟨pre, post, hfound, rfl⟩ := found_of_firstIndex hj
    have hlen := congrArg List.length hfound.eq
    simp only [crlf, List.length_append, List.length_cons, List.length_nil] at hlen
    omega

/-- What is read behind a keyword: the value before the next `stop`, or nothing. -/
def ValueIs (s key stop : JString) (start : ℤ) : Option JString → Prop
  | some value => ∃ pre post rest, KeyAt s key start pre post ∧ Found stop post value rest
  | none => ∀ pre post, ¬ KeyAt s key start pre post

theorem valueBehind_eq_ok_iff {key stop : JString} {start : ℤ} {value : Option JString}
    (hstop : stop ≠ []) :
    valueBehind s key stop start none = .ok value ↔ ValueIs s key stop start value := by
  constructor
  · intro h
    by_cases hkey : ∃ pre post, KeyAt s key start pre post
    · obtain ⟨pre, post, hkey⟩ := hkey
      have hended := (onlyBadRequest_valueBehind hstop).1 (h ▸ onlyBadRequest_ok value)
      obtain ⟨v, rest, hv⟩ := exists_found (hended pre post hkey)
      rw [valueBehind_found hkey hstop hv] at h
      obtain rfl := Except.ok.inj h
      exact ⟨pre, post, rest, hkey, hv⟩
    · simp only [not_exists] at hkey
      rw [valueBehind_missing hkey] at h
      obtain rfl := Except.ok.inj h
      exact hkey
  · intro h
    cases value with
    | none => exact valueBehind_missing h
    | some v =>
      obtain ⟨pre, post, rest, hkey, hv⟩ := h
      exact valueBehind_found hkey hstop hv

/-- The content type can be read, and says whether the content is a message itself. -/
def ContentIs (t : JString) (boundary : Option JString) (rfc822 : Bool) : Prop :=
  if indexOf t (js "Content-Type") (headerStart t boundary) > 0 then
    ∃ contentType,
      ValueIs t (js "Content-Type:") crlf (indexOf t (dashes boundary) 0) contentType ∧
        rfc822 = contentType.any fun v => equalsIgnoreCase (trim v) (js "message/rfc822")
  else rfc822 = false

theorem isRfc822_eq_ok_iff {boundary : Option JString} {rfc822 : Bool} :
    isRfc822 t boundary = .ok rfc822 ↔ ContentIs t boundary rfc822 := by
  rw [isRfc822, ContentIs]
  split_ifs with hindex
  · simp only [← valueBehind_eq_ok_iff (show crlf ≠ [] by decide)]
    change (fetchContentType t boundary >>= _) = _ ↔ ∃ contentType, fetchContentType t boundary =
      .ok contentType ∧ _
    cases fetchContentType t boundary with
    | error e => simp [Bind.bind, Except.bind]
    | ok contentType =>
      cases contentType <;> simp [Bind.bind, Except.bind, pure, Except.pure, eq_comm]
  · simp [pure, Except.pure, eq_comm]

theorem isRfc822_ne_badRequest (t : JString) (boundary : Option JString) (reason : String) :
    isRfc822 t boundary ≠ .error (.badRequest reason) := by
  rw [isRfc822]
  split_ifs
  · refine bind_ne_badRequest (valueBehind_ne_badRequest _ _ _ _ _ reason) ?_
    rintro (_ | contentType) <;> nofun
  · nofun

theorem neg_one_le_indexOf (s w : JString) (start : ℤ) : -1 ≤ indexOf s w start := by
  rcases indexOf_cases s w start with ⟨h, -⟩ | ⟨pre, post, -, h⟩ <;> omega

/-- Where the header of the content starts. -/
def contentStart (t : JString) (boundary : Option JString) : ℕ :=
  (indexOf t crlf (headerStart t boundary) + crlf.length).toNat

/-- The message stands between its tags, on lines of its own. -/
def TagsApart (t : JString) : Prop :=
  ∀ pre post msg rest, Found (js "BEGIN:MSG") t pre post → Found (js "END:MSG") post msg rest →
    2 ≤ msg.length

/-- The end tag is on a line of its own behind the empty line. -/
def EndApart (t : JString) : Prop :=
  ∀ msg rest, Found (js "END:MSG") t msg rest → 2 ≤ msg.length

/-- There is no empty line and the message is cut out between its tags, or there is one and the end
of the message is searched for behind it. -/
def EmailBody (t : JString) (boundary : Option JString) (rfc822 : Bool) : Prop :=
  match blankLine (t.drop (contentStart t boundary)) with
  | none => TagsApart t
  | some i =>
    hasBoundary boundary = false → rfc822 = false →
      EndApart (t.drop (contentStart t boundary + i + 2))

theorem onlyBadRequest_messageBetweenTags :
    OnlyBadRequest (messageBetweenTags t) ↔ TagsApart t := by
  have hbegin : (js "BEGIN:MSG").length = 9 := by decide
  rw [messageBetweenTags]
  rcases indexOf_cases t (js "BEGIN:MSG") 0 with ⟨h, hnot⟩ | ⟨pre, post, hfound, h⟩
  · rw [if_pos h]
    refine iff_of_true (onlyBadRequest_badRequest _) fun pre post msg rest hfound _ => ?_
    exact absurd hfound.occurs hnot
  · simp only [Int.toNat_zero, List.drop_zero, Nat.zero_add] at hfound h
    rw [h, if_neg (by omega)]
    have hiff : TagsApart t ↔ ∀ msg rest, Found (js "END:MSG") post msg rest → 2 ≤ msg.length := by
      constructor
      · exact fun hall msg rest hend => hall pre post msg rest hfound hend
      · intro hall pre' post' msg rest hfound' hend
        obtain ⟨-, rfl⟩ := hfound.unique hfound'
        exact hall msg rest hend
    have hlen := congrArg List.length hfound.eq
    rw [hiff]
    cases hi : firstIndex (js "END:MSG") post with
    | none =>
      have hend : indexOf t (js "END:MSG") pre.length = -1 := by
        rw [indexOf, Int.toNat_natCast, hfound.drop_eq, firstIndex_endTag, hi]
        rfl
      simp only [hend, if_true]
      refine iff_of_true (onlyBadRequest_badRequest _) fun msg rest hmsg => ?_
      exact absurd hmsg.occurs (firstIndex_eq_none.1 hi)
    | some i =>
      have hend : indexOf t (js "END:MSG") pre.length = pre.length + 9 + i := by
        rw [indexOf, Int.toNat_natCast, hfound.drop_eq, firstIndex_endTag, hi]
        simp only [Option.map_some]
        push_cast
        omega
      obtain ⟨msg, rest, hmsg, rfl⟩ := found_of_firstIndex hi
      have hpost := congrArg List.length hmsg.eq
      rw [List.length_append, List.length_append] at hlen hpost
      simp only [hend]
      rw [if_neg (by omega), onlyBadRequest_substring, hbegin]
      have hcrlf : crlf.length = 2 := rfl
      constructor
      · intro h msg' rest' hmsg'
        obtain ⟨rfl, -⟩ := hmsg.unique hmsg'
        omega
      · intro h
        have h2 := h msg rest hmsg
        omega

theorem onlyBadRequest_bodyFrom {boundary : Option JString} {rfc822 : Bool} {b : ℕ}
    (hb : b ≤ t.length) :
    OnlyBadRequest (bodyFrom t boundary rfc822 b) ↔
      (hasBoundary boundary = false → rfc822 = false → EndApart (t.drop b)) := by
  rw [bodyFrom]
  split_ifs with hrfc hboundary
  · simp only [hrfc, hboundary, forall_const]
    have hcrlf : crlf.length = 2 := rfl
    rcases indexOf_cases t (js "END:MSG") b with ⟨h, hnot⟩ | ⟨msg, rest, hmsg, h⟩
    · simp only [h, ne_eq, not_true_eq_false, if_false, onlyBadRequest_substring]
      refine iff_of_true (by omega) fun msg rest hmsg => ?_
      exact absurd hmsg.occurs (by simpa using hnot)
    · rw [Int.toNat_natCast] at hmsg h
      have hlen := congrArg List.length hmsg.eq
      rw [List.length_drop, List.length_append, List.length_append] at hlen
      push_cast at h
      have hfound : indexOf t (js "END:MSG") b ≠ -1 := by omega
      simp only [hfound, ne_eq, not_false_eq_true, if_true, onlyBadRequest_substring]
      constructor
      · intro hcut msg' rest' hmsg'
        obtain ⟨rfl, -⟩ := hmsg.unique hmsg'
        omega
      · intro hall
        have h2 := hall msg rest hmsg
        omega
  · refine iff_of_true (onlyBadRequest_catchIndex_substring _ _ _) fun h => absurd h hboundary
  · -- the empty line is inside the content, so the last cut is inside it too
    refine iff_of_true ?_ fun _ h => absurd h hrfc
    rw [onlyBadRequest_bind]
    refine ⟨onlyBadRequest_catchIndex_substring _ _ _, fun body _ => ?_⟩
    have hpos := neg_one_le_indexOf body crlf 0
    have hcrlf : crlf.length = 2 := rfl
    dsimp only
    split
    · next i hi =>
      have hle := emptyLine_le hi
      rw [List.length_drop] at hle
      rw [onlyBadRequest_substring]
      omega
    · exact onlyBadRequest_badRequest _

/-- An e-mail that is read: the boundary and the content type have an end, and so has the body. -/
def EmailReadable (t : JString) : Prop :=
  ∃ boundary rfc822, ValueIs t (js "boundary=\"") (js "\"") 0 boundary ∧
    ContentIs t boundary rfc822 ∧ EmailBody t boundary rfc822

theorem onlyBadRequest_searchEmpty (boundary : Option JString) (rfc822 : Bool) :
    OnlyBadRequest (
      let pos := indexOf t crlf (headerStart t boundary) + crlf.length
      match emptyLine (t.drop pos.toNat) with
      | some i => bodyFrom t boundary rfc822 (pos + i + crlf.length)
      | none => messageBetweenTags t) ↔ EmailBody t boundary rfc822 := by
  have hstart : indexOf t crlf (headerStart t boundary) + crlf.length =
      contentStart t boundary := by
    have hpos := neg_one_le_indexOf t crlf (headerStart t boundary)
    have hcrlf : crlf.length = 2 := rfl
    rw [contentStart]
    omega
  simp only [hstart, Int.toNat_natCast, EmailBody, ← emptyLine_eq]
  cases hi : emptyLine (t.drop (contentStart t boundary)) with
  | none => exact onlyBadRequest_messageBetweenTags
  | some i =>
    have hle := emptyLine_le hi
    have hbody : contentStart t boundary + i + 2 ≤ t.length := by
      rw [List.length_drop] at hle
      omega
    exact onlyBadRequest_bodyFrom hbody

theorem onlyBadRequest_fetchBodyEmail : OnlyBadRequest (fetchBodyEmail t) ↔ EmailReadable t := by
  have hquote : js "\"" ≠ [] := by decide
  rw [fetchBodyEmail, onlyBadRequest_bind]
  simp only [onlyBadRequest_bind, onlyBadRequest_searchEmpty]
  constructor
  · rintro ⟨hboundary, hrest⟩
    obtain ⟨boundary, hok⟩ :=
      (onlyBadRequest_iff_ok (valueBehind_ne_badRequest _ _ _ _ _)).1 hboundary
    obtain ⟨hcontent, hbody⟩ := hrest boundary hok
    obtain ⟨rfc822, hrfc⟩ := (onlyBadRequest_iff_ok (isRfc822_ne_badRequest t boundary)).1 hcontent
    exact ⟨boundary, rfc822, (valueBehind_eq_ok_iff hquote).1 hok, isRfc822_eq_ok_iff.1 hrfc,
      hbody rfc822 hrfc⟩
  · rintro ⟨boundary, rfc822, hboundary, hcontent, hbody⟩
    have hok : fetchBoundary t = .ok boundary := (valueBehind_eq_ok_iff hquote).2 hboundary
    have hrfc := isRfc822_eq_ok_iff.2 hcontent
    rw [hok]
    refine ⟨onlyBadRequest_ok _, ?_⟩
    rintro _ ⟨⟩
    rw [hrfc]
    refine ⟨onlyBadRequest_ok _, ?_⟩
    rintro _ ⟨⟩
    exact hbody

end Email

/-! ### The three readers -/

section Readers

/-- The vCard is there and is parsed, and has a number. -/
def AcceptedSMS (parserV21 parserV30 : VCardParser) (t : JString) : Prop :=
  ∃ vCard recipient tel, fetchRecipientVcard t = .ok vCard ∧
    parseVCard parserV21 parserV30 vCard = .ok recipient ∧ recipientTel recipient = .ok tel

/-- The vCard is there and is parsed, and has an address. -/
def AcceptedMMS (parserV21 parserV30 : RecipientParser) (t : JString) : Prop :=
  ∃ vCard recipient address, fetchRecipientVcard t = .ok vCard ∧
    parseRecipient parserV21 parserV30 vCard = .ok recipient ∧
      recipientAddress recipient = .ok address

theorem onlyBadRequest_fetchRecipientVcard (t : JString) :
    OnlyBadRequest (fetchRecipientVcard t) := by
  simp only [fetchRecipientVcard]
  generalize indexOf t (crlf ++ js "BEGIN:VCARD") (indexOf t (crlf ++ js "BEGIN:BENV") 0) = pos
  split_ifs with hneg hpos hend
  · exact onlyBadRequest_badRequest _
  · exact onlyBadRequest_badRequest _
  · have hfound : indexOf t (js "END:VCARD") pos ≠ -1 := by omega
    have hbounds := indexOf_bounds (by decide) hfound
    have hlen : (js "END:VCARD").length = 9 := by decide
    have hcrlf : crlf.length = 2 := rfl
    rw [onlyBadRequest_substring]
    omega
  · exact onlyBadRequest_ok _

theorem onlyBadRequest_parseWith {R : Type} (setVersion : JString → R → R) (new : R)
    (parserV21 parserV30 : JString → R → R × ParseStatus) (vCard : JString) :
    OnlyBadRequest (parseWith setVersion new parserV21 parserV30 vCard) := by
  rw [parseWith]
  split_ifs
  · exact onlyBadRequest_ok _
  · split
    · exact onlyBadRequest_ok _
    · split
      · exact onlyBadRequest_ok _
      · exact onlyBadRequest_badRequest _
    · exact onlyBadRequest_badRequest _

/-- The steps before the fields are read reject what they do not accept. -/
theorem onlyBadRequest_reader {R : Type} {parse : JString → Except Exn R}
    {address : R → Except Exn JString} {version : R → JString}
    {fetchMsg : JString → Except Exn JString} {t : JString}
    (hparse : ∀ vCard, OnlyBadRequest (parse vCard)) (haddress : ∀ r, OnlyBadRequest (address r))
    (hmsg : ∀ reason, fetchMsg t ≠ .error (.badRequest reason)) :
    OnlyBadRequest (do
        let vCard ← fetchRecipientVcard t
        let recipient ← parse vCard
        let number ← address recipient
        readFields fetchMsg t number (version recipient)) ↔
      ((∃ vCard recipient number, fetchRecipientVcard t = .ok vCard ∧ parse vCard = .ok recipient ∧
          address recipient = .ok number) → FieldsReadable t ∧ OnlyBadRequest (fetchMsg t)) := by
  simp only [onlyBadRequest_bind, onlyBadRequest_readFields hmsg]
  constructor
  · rintro ⟨-, h⟩ ⟨vCard, recipient, number, hvCard, hrecipient, hnumber⟩
    exact ((h vCard hvCard).2 recipient hrecipient).2 number hnumber
  · intro h
    refine ⟨onlyBadRequest_fetchRecipientVcard t, fun vCard hvCard => ⟨hparse vCard, ?_⟩⟩
    refine fun recipient hrecipient => ⟨haddress recipient, fun number hnumber => ?_⟩
    exact h ⟨vCard, recipient, number, hvCard, hrecipient, hnumber⟩

theorem onlyBadRequest_recipientTel (recipient : RecipientVCard) :
    OnlyBadRequest (recipientTel recipient) := by
  rw [recipientTel]
  split_ifs
  · exact onlyBadRequest_badRequest _
  · exact onlyBadRequest_ok _

theorem onlyBadRequest_recipientAddress (recipient : Recipient) :
    OnlyBadRequest (recipientAddress recipient) := by
  rw [recipientAddress]
  split_ifs
  · exact onlyBadRequest_ok _
  · exact onlyBadRequest_badRequest _
  · exact onlyBadRequest_ok _

/-- **When a reader returns or rejects.**  For an SMS and an MMS the vCard is the only part whose
absence is noticed: once it is accepted, every other field has to be well formed. -/
theorem readers_onlyBadRequest_iff (smsV21 smsV30 : VCardParser) (mmsV21 mmsV30 : RecipientParser)
    (t : JString) :
    (OnlyBadRequest (fromBmessageSMS smsV21 smsV30 t) ↔
      (AcceptedSMS smsV21 smsV30 t → FieldsReadable t ∧ SmsBody t)) ∧
    (OnlyBadRequest (fromBmessageMMS mmsV21 mmsV30 t) ↔
      (AcceptedMMS mmsV21 mmsV30 t → FieldsReadable t ∧ MmsBody t)) ∧
    (OnlyBadRequest (fetchBodyEmail t) ↔ EmailReadable t) := by
  refine ⟨?_, ?_, onlyBadRequest_fetchBodyEmail⟩
  · have hparse (vCard : JString) : OnlyBadRequest (parseVCard smsV21 smsV30 vCard) := by
      rw [parseVCard_eq]
      exact onlyBadRequest_parseWith _ _ _ _ vCard
    rw [fromBmessageSMS_eq, onlyBadRequest_reader hparse onlyBadRequest_recipientTel
      (fetchBodyMsg_ne_badRequest t), onlyBadRequest_fetchBodyMsg]
    rfl
  · have hparse (vCard : JString) : OnlyBadRequest (parseRecipient mmsV21 mmsV30 vCard) :=
      onlyBadRequest_parseWith _ _ _ _ vCard
    rw [fromBmessageMMS, onlyBadRequest_reader hparse onlyBadRequest_recipientAddress
      (fetchBodyMsgMMS_ne_badRequest t), onlyBadRequest_fetchBodyMsgMMS]
    rfl

/-- A message with a vCard and no `LENGTH`. -/
def withoutLength : JString :=
  js "BEGIN:BMSG\r\nBEGIN:BENV\r\nBEGIN:VCARD\r\nTEL:1\r\nEND:VCARD\r\nEND:BENV\r\nEND:BMSG\r\n"

/-- A parser that takes the first `TEL`. -/
def sampleRecipientParser : RecipientParser := fun vCard recipient =>
  match fetchProperty "TEL:" none vCard with
  | .ok (some tel) => ({ recipient with mTel := tel }, .done)
  | _ => (recipient, .vcardException)

/-- **Malformed messages are not rejected**: without a length `null` is unboxed, and an e-mail with
an empty body is cut at an index before the body. -/
theorem malformed_escapes :
    ¬ OnlyBadRequest (fromBmessageSMS sampleParser sampleParser withoutLength) ∧
    ¬ OnlyBadRequest (fromBmessageMMS sampleRecipientParser sampleRecipientParser withoutLength) ∧
    ¬ OnlyBadRequest (fetchBodyEmail (js "BEGIN:MSG\r\nSubject: x\r\n\r\nEND:MSG\r\n")) := by
  have hsms : fromBmessageSMS sampleParser sampleParser withoutLength = .error .nullPointer := by
    decide +kernel
  have hmms : fromBmessageMMS sampleRecipientParser sampleRecipientParser withoutLength =
      .error .nullPointer := by
    decide +kernel
  have hemail : fetchBodyEmail (js "BEGIN:MSG\r\nSubject: x\r\n\r\nEND:MSG\r\n") =
      .error .indexOutOfBounds := by
    simp only [fetchBodyEmail, emptyLine_eq]
    decide +kernel
  rw [hsms, hmms, hemail]
  refine ⟨not_onlyBadRequest fun _ h => ?_, not_onlyBadRequest fun _ h => ?_,
    not_onlyBadRequest fun _ h => ?_⟩ <;> cases h

end Readers

end Map

end Msm8909w
