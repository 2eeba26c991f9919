import Mathlib.Data.Bool.AllAny
import Mathlib.Data.Nat.Digits.Defs
import Msm8909w.Lib.Search

/-!
# bMessages

The part of `MapUtils.java` that writes an SMS as a bMessage and reads it back.  The reader does not
follow the structure of the text: it searches the whole text for keywords.

* `toBmessageSMS`, `fromBmessageSMS` : writer and reader,
* `fromBmessageSMS_toBmessageSMS` : the reader finds what the writer has written, whatever the body
  of the message is.

Strings are sequences of UTF-16 code units.  The parser for vCards is outside; `VCardParser` is what
`parseVCard` calls.
-/

namespace Msm8909w

namespace Map

/-! ### Strings -/

/-- A Java string. -/
abbrev JString := List UInt16

/-- The string of an ASCII text. -/
def js (s : String) : JString := s.toList.map fun c => UInt16.ofNat c.toNat

/-- `CRLF`. -/
def crlf : JString := [13, 10]

/-- What can be thrown. -/
inductive Exn where
  | badRequest (reason : String)
  | indexOutOfBounds
  | numberFormat
  | nullPointer
  deriving DecidableEq, Repr

/-- `s.indexOf(w, from)`. -/
def indexOf (s w : JString) (start : ℤ) : ℤ :=
  match firstIndex w (s.drop start.toNat) with
  | some i => start.toNat + i
  | none => -1

/-- `s.lastIndexOf(w)`. -/
def lastIndexOf (s w : JString) : ℤ :=
  match lastIndex w s with
  | some i => i
  | none => -1

/-- `s.substring(from, to)`. -/
def substring (s : JString) (start stop : ℤ) : Except Exn JString :=
  if start < 0 ∨ s.length < stop ∨ stop < start then .error .indexOutOfBounds
  else .ok ((s.drop start.toNat).take (stop - start).toNat)

/-- The zeros of the scripts with decimal digits. -/
def digitZeros : List ℕ :=
  [0x30, 0x660, 0x6F0, 0x7C0, 0x966, 0x9E6, 0xA66, 0xAE6, 0xB66, 0xBE6, 0xC66, 0xCE6, 0xD66, 0xE50,
    0xED0, 0xF20, 0x1040, 0x1090, 0x17E0, 0x1810, 0x1946, 0x19D0, 0x1A80, 0x1A90, 0x1B50, 0x1BB0,
    0x1C40, 0x1C50, 0xA620, 0xA8D0, 0xA900, 0xA9D0, 0xAA50, 0xABF0, 0xFF10]

/-- `Character.digit(c, 10)`. -/
def digit (c : UInt16) : Option ℕ :=
  digitZeros.findSome? fun z =>
    if z ≤ c.toNat ∧ c.toNat ≤ z + 9 then some (c.toNat - z) else none

/-- `Integer.valueOf(s)`. -/
def valueOf (s : JString) : Except Exn ℤ :=
  let negative := s.head? = some 45
  let digits := if s.head? = some 45 ∨ s.head? = some 43 then s.tail else s
  match digits.mapM digit with
  | none | some [] => .error .numberFormat
  | some ds =>
    let n : ℤ := (ds.foldl (fun n d => 10 * n + d) 0 : ℕ)
    let value := if negative then -n else n
    if -2 ^ 31 ≤ value ∧ value ≤ 2 ^ 31 - 1 then .ok value else .error .numberFormat

/-- The decimal notation of an `int`. -/
def decimal (n : ℤ) : JString :=
  let digits := (Nat.digits 10 n.natAbs).reverse.map fun d => UInt16.ofNat (48 + d)
  (if n < 0 then [45] else []) ++ if n = 0 then [48] else digits

/-! ### The writer -/

/-- `BmessageConsts`; `none` is `null`. -/
structure BmessageConsts where
  bmsgVersion : Option JString := none
  status : Option JString := none
  type : Option JString := none
  folder : Option JString := none
  vcardVersion : Option JString := none
  recipientVcardName : Option JString := none
  recipientVcardPhoneNumber : Option JString := none
  recipientVcardEmail : Option JString := none
  originatorVcardName : Option JString := none
  originatorVcardPhoneNumber : Option JString := none
  originatorVcardEmail : Option JString := none
  bodyEncoding : Option JString := none
  bodyLength : ℤ := 0
  bodyMsg : Option JString := none
  bodyPartId : Option JString := none
  bodyLanguage : Option JString := none
  bodyCharset : Option JString := none
  subject : Option JString := none
  deriving DecidableEq, Repr

/-- A line with a property, if it has a value. -/
def property (key : String) (value : Option JString) : JString :=
  match value with
  | some v => js key ++ v ++ crlf
  | none => []

/-- A vCard with a name and a phone number. -/
def vcardSMS (version name phoneNumber : Option JString) : JString :=
  js "BEGIN:VCARD" ++ crlf ++ property "VERSION:" version ++ property "N:" name ++
    property "TEL:" phoneNumber ++ js "END:VCARD" ++ crlf

/-- The message between its tags, if there is one. -/
def messageSMS : Option JString → JString
  | some msg => js "BEGIN:MSG" ++ crlf ++ msg ++ crlf ++ js "END:MSG" ++ crlf
  | none => []

/-- `toBmessageSMS`. -/
def toBmessageSMS (bmsg : BmessageConsts) : JString :=
  js "BEGIN:BMSG" ++ crlf ++ property "VERSION:" bmsg.bmsgVersion ++
    property "STATUS:" bmsg.status ++ property "TYPE:" bmsg.type ++
    property "FOLDER:" bmsg.folder ++
    -- originator
    vcardSMS bmsg.vcardVersion bmsg.originatorVcardName bmsg.originatorVcardPhoneNumber ++
    js "BEGIN:BENV" ++ crlf ++
    -- recipient
    vcardSMS bmsg.vcardVersion bmsg.recipientVcardName bmsg.recipientVcardPhoneNumber ++
    js "BEGIN:BBODY" ++ crlf ++ property "CHARSET:" bmsg.bodyCharset ++
    property "ENCODING:" bmsg.bodyEncoding ++
    (if bmsg.bodyLength ≠ 0 then js "LENGTH:" ++ decimal bmsg.bodyLength ++ crlf else []) ++
    messageSMS bmsg.bodyMsg ++
    js "END:BBODY" ++ crlf ++ js "END:BENV" ++ crlf ++ js "END:BMSG" ++ crlf

/-! ### The reader -/

/-- The value behind the first occurrence of a keyword, up to the end of the line. -/
def fetchProperty (key : String) (missing : Option JString) (bmsg : JString) :
    Except Exn (Option JString) :=
  let pos := indexOf bmsg (js key) 0
  if pos > 0 then do
    let beginPos := pos + (js key).length
    let endPos := indexOf bmsg crlf beginPos
    let value ← substring bmsg beginPos endPos
    return some value
  else return missing

/-- `fetchVersion`. -/
def fetchVersion : JString → Except Exn (Option JString) := fetchProperty "VERSION:" (some [])

/-- `fetchReadStatus`. -/
def fetchReadStatus : JString → Except Exn (Option JString) := fetchProperty "STATUS:" (some [])

/-- `fetchType`. -/
def fetchType : JString → Except Exn (Option JString) := fetchProperty "TYPE:" none

/-- `fetchFolder`. -/
def fetchFolder : JString → Except Exn (Option JString) := fetchProperty "FOLDER:" none

/-- `fetchBodyEncoding`. -/
def fetchBodyEncoding : JString → Except Exn (Option JString) := fetchProperty "ENCODING:" none

/-- `fetchBodyLength`. -/
def fetchBodyLength (bmsg : JString) : Except Exn (Option ℤ) := do
  match ← fetchProperty "LENGTH:" none bmsg with
  | some value => return some (← valueOf value)
  | none => return none

/-- `fetchBodyMsg`. -/
def fetchBodyMsg (bmsg : JString) : Except Exn JString :=
  let pos := indexOf bmsg (js "BEGIN:MSG") 0
  if pos > 0 then
    let beginPos := pos + ((js "BEGIN:MSG").length + crlf.length : ℕ)
    let endPos := lastIndexOf bmsg (crlf ++ js "END:MSG")
    if endPos = -1 then .ok [] else substring bmsg beginPos endPos
  else .ok []

/-- `fetchRecipientVcard`. -/
def fetchRecipientVcard (bmsg : JString) : Except Exn JString :=
  let locBENV := indexOf bmsg (crlf ++ js "BEGIN:BENV") 0
  let pos := indexOf bmsg (crlf ++ js "BEGIN:VCARD") locBENV
  if pos < 0 then .error (.badRequest "No vCard in BENV")
  else if pos > 0 then
    let beginPos := pos + crlf.length
    let endPos := indexOf bmsg (js "END:VCARD") pos
    if endPos < 0 then .error (.badRequest "No END:VCARD in BENV")
    else substring bmsg beginPos (endPos + (js "END:VCARD").length)
  else .ok []

/-- The fields of `RecipientVCard` that are read. -/
structure RecipientVCard where
  mTel : JString := []
  mVersion : JString := []
  deriving DecidableEq, Repr

/-- How the parser ends. -/
inductive ParseStatus where
  | done
  | versionException
  | vcardException
  | ioException
  deriving DecidableEq, Repr

/-- A parser for vCards fills in the `RecipientVCard` it is given. -/
abbrev VCardParser := JString → RecipientVCard → RecipientVCard × ParseStatus

/-- `parseVCard`. -/
def parseVCard (parserV21 parserV30 : VCardParser) (vCard : JString) : Except Exn RecipientVCard :=
  if vCard.length = 0 then .ok {}
  else
    match parserV21 vCard { mVersion := js "2.1" } with
    | (recipient, .done) => .ok recipient
    | (recipient, .versionException) =>
      match parserV30 vCard { recipient with mVersion := js "3.0" } with
      | (recipient, .done) => .ok recipient
      | _ => .error (.badRequest "Unable to parse vCard")
    | _ => .error (.badRequest "Unable to parse vCard")

/-- `fromBmessageSMS`. -/
def fromBmessageSMS (parserV21 parserV30 : VCardParser) (bmsg : JString) :
    Except Exn BmessageConsts := do
  let vCard ← fetchRecipientVcard bmsg
  let recipient ← parseVCard parserV21 parserV30 vCard
  if recipient.mTel.length = 0 ∨ 44 ∈ recipient.mTel ∨ 59 ∈ recipient.mTel then
    throw (.badRequest "Invalid TEL in vCard")
  let bmsgVersion ← fetchVersion bmsg
  let status ← fetchReadStatus bmsg
  let type ← fetchType bmsg
  let folder ← fetchFolder bmsg
  let bodyLength ← match ← fetchBodyLength bmsg with
    | some n => pure n
    | none => throw .nullPointer
  let bodyMsg ← fetchBodyMsg bmsg
  let bodyEncoding ← fetchBodyEncoding bmsg
  return {
    recipientVcardPhoneNumber := some recipient.mTel
    vcardVersion := some recipient.mVersion
    bmsgVersion := bmsgVersion
    status := status
    type := type
    folder := folder
    bodyLength := bodyLength
    bodyMsg := some bodyMsg
    bodyEncoding := bodyEncoding }

/-! ### Searching and cutting -/

section Cut

variable {a t w pre post y z value rest : JString}

theorem indexOf_append (h : Found w t pre post) :
    indexOf (a ++ t) w a.length = a.length + pre.length := by
  simp [indexOf, h.index]

theorem indexOf_zero (h : Found w t pre post) : indexOf t w 0 = pre.length := by
  simp [indexOf, h.index]

theorem substring_append :
    substring (a ++ y ++ z) a.length (a.length + y.length) = .ok y := by
  have hcond : ¬ ((a.length : ℤ) < 0 ∨ ((a ++ y ++ z).length : ℤ) < a.length + y.length ∨
      (a.length + y.length : ℤ) < a.length) := by
    simp only [List.length_append]
    omega
  rw [substring, if_neg hcond, Int.toNat_natCast, List.append_assoc, List.drop_left]
  simp

/-- The value is what stands before the next end of a line. -/
theorem fetchProperty_found {key : String} {missing : Option JString}
    (h : Found (js key) t pre post) (hpre : pre ≠ []) (hline : Found crlf post value rest) :
    fetchProperty key missing t = .ok (some value) := by
  have hpos : (0 : ℤ) < pre.length := by
    exact_mod_cast List.length_pos_iff.2 hpre
  have hbegin : (pre.length : ℤ) + (js key).length = (pre ++ js key).length := by simp
  have hend : indexOf t crlf (pre ++ js key).length = (pre ++ js key).length + value.length := by
    rw [h.eq]
    exact indexOf_append hline
  have hcut : substring t (pre ++ js key).length ((pre ++ js key).length + value.length) =
      .ok value := by
    rw [h.eq, hline.eq, List.append_assoc value, ← List.append_assoc (pre ++ js key)]
    exact substring_append
  simp only [fetchProperty, indexOf_zero h, hpos, if_true, hbegin, hend, hcut]
  rfl

theorem fetchProperty_eq {key : String} {missing : Option JString}
    (h : Found (js key) t pre (value ++ crlf ++ rest)) (hpre : pre ≠ []) (hvalue : 13 ∉ value) :
    fetchProperty key missing t = .ok (some value) := by
  have hline : Found crlf (value ++ crlf ++ rest) value rest := by
    simpa [crlf] using found_mark (c := 13) (V := [10]) hvalue rest
  exact fetchProperty_found h hpre hline

/-- The vCard that is handed to the parser: the envelope, the vCard behind it and the end of the
vCard are searched for, each from where the one before was found. -/
theorem fetchRecipientVcard_found {env mid card cardPost back : JString}
    (henv : Found (crlf ++ js "BEGIN:BENV") t pre env)
    (hcard : Found (crlf ++ js "BEGIN:VCARD") (crlf ++ js "BEGIN:BENV" ++ env) mid cardPost)
    (hpos : pre ++ mid ≠ [])
    (hend : Found (js "END:VCARD") (crlf ++ js "BEGIN:VCARD" ++ cardPost) (crlf ++ card) back) :
    fetchRecipientVcard t = .ok (card ++ js "END:VCARD") := by
  -- the text, split before the envelope, before the vCard, and around the vCard
  have htext1 : t = pre ++ (crlf ++ js "BEGIN:BENV" ++ env) := by
    rw [henv.eq, List.append_assoc]
  have htext2 : t = (pre ++ mid) ++ (crlf ++ js "BEGIN:VCARD" ++ cardPost) := by
    rw [htext1, hcard.eq]
    simp only [List.append_assoc]
  have htext3 : t = (pre ++ mid ++ crlf) ++ (card ++ js "END:VCARD") ++ back := by
    rw [htext2, hend.eq]
    simp only [List.append_assoc]
  have hloc : indexOf t (crlf ++ js "BEGIN:BENV") 0 = pre.length := indexOf_zero henv
  have hvcard : indexOf t (crlf ++ js "BEGIN:VCARD") pre.length = (pre ++ mid).length := by
    rw [htext1, indexOf_append hcard]
    simp
  have hstop : indexOf t (js "END:VCARD") (pre ++ mid).length =
      (pre ++ mid).length + (crlf ++ card).length := by
    rw [htext2, indexOf_append hend]
  have hne : (0 : ℤ) < (pre ++ mid).length := by
    exact_mod_cast List.length_pos_iff.2 hpos
  have hstopPos : ¬ ((pre ++ mid).length + (crlf ++ card).length : ℤ) < 0 := by omega
  have hstart : ((pre ++ mid).length : ℤ) + crlf.length = (pre ++ mid ++ crlf).length := by
    simp only [List.length_append]
    omega
  have hlast : ((pre ++ mid).length + (crlf ++ card).length : ℤ) + (js "END:VCARD").length =
      (pre ++ mid ++ crlf).length + (card ++ js "END:VCARD").length := by
    simp only [List.length_append]
    omega
  simp only [fetchRecipientVcard, hloc, hvcard, not_lt.2 hne.le, if_false, hne, if_true, hstop,
    hstopPos, hstart, hlast]
  rw [htext3]
  exact substring_append

end Cut

end Map

end Msm8909w
