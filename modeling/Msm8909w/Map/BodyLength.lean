import Msm8909w.Lib.Utf8
import Msm8909w.Map.Folders
import Msm8909w.Map.MimeBody

/-!
# The lengths of messages

A bMessage has a line with the length of the message in bytes, from `BEGIN:MSG` to the end of the
last `END:MSG`.  The three functions that build bMessages compute it before the writers put the body
between these lines, and the files are written in UTF-8.

* `bldSmsBmsg`, `bldMmsBmsg`, `bldEmailBmsg` : the code, from the rows of the providers on,
* `Announces` : the file has a line with the number of bytes of its message,
* `hasLength_render_iff` : when a writer comes to the line with the length,
* `length_utf8_mimeText` : when the body of an MMS has as many bytes as characters,
* `announces_iff` : exactly when the three files have the right length.
-/

namespace Msm8909w

namespace Map

namespace BodyLength

open Folders MimeBody

/-! ### Who the message is from, and to -/

/-- What is known of the owner and of the contacts. -/
structure Phone where
  /-- `getOwnerName`. -/
  ownerName : Option JString
  /-- `getOwnerNumber`. -/
  ownerNumber : Option JString
  /-- The name that `getVcardContent` finds for an address; it is empty if there is no contact. -/
  contactName : Option JString → Option JString
  /-- The phone is a CDMA phone. -/
  cdma : Bool

/-- `getVcardContent`, for the name and the number. -/
def Phone.getVcardContent (phone : Phone) (address : Option JString) :
    Option JString × Option JString :=
  (phone.contactName address, address)

/-- The owner is the recipient of what is in the inbox, and the originator of anything else. -/
def Phone.setVcards (phone : Phone) (inbox : Bool) (vcard : Option JString × Option JString)
    (bmsg : BmessageConsts) : BmessageConsts :=
  if inbox then
    { bmsg with
      originatorVcardName := vcard.1
      originatorVcardPhoneNumber := vcard.2
      recipientVcardName := phone.ownerName
      recipientVcardPhoneNumber := phone.ownerNumber }
  else
    { bmsg with
      recipientVcardName := vcard.1
      recipientVcardPhoneNumber := vcard.2
      originatorVcardName := phone.ownerName
      originatorVcardPhoneNumber := phone.ownerNumber }

/-- `READ` or `UNREAD`. -/
def readStatus (read : JString) : JString :=
  if equalsIgnoreCase read (js "1") then js "READ" else js "UNREAD"

/-- `TELECOM + "/" + MSG + "/" + containingFolder`. -/
def folderPath (containingFolder : JString) : JString :=
  TELECOM ++ js "/" ++ MSG ++ js "/" ++ containingFolder

/-! ### SMS -/

/-- A row of the SMS provider; `pdu` is what `getSMSDeliverPdu` makes of it. -/
structure SmsRow where
  read : JString
  type : JString
  address : Option JString
  body : JString
  containingFolder : JString
  pdu : JString

/-- `smsBody`. -/
def smsBody (charset : ℤ) (row : SmsRow) : JString :=
  if charset = 1 then row.body else if charset = 0 then row.pdu else js " "

/-- `body_length`. -/
def smsBodyLength (charset : ℤ) (row : SmsRow) : ℤ :=
  if charset = 1 then (utf8 (smsBody charset row)).length else (smsBody charset row).length

/-- The bMessage of an SMS. -/
def smsBmsg (phone : Phone) (charset : ℤ) (row : SmsRow) : BmessageConsts :=
  phone.setVcards (equalsIgnoreCase row.type (js "1")) (phone.getVcardContent row.address)
    { type := some (if phone.cdma then js "SMS_CDMA" else js "SMS_GSM")
      bmsgVersion := some (js "1.0")
      status := some (readStatus row.read)
      folder := some (folderPath row.containingFolder)
      vcardVersion := some (js "2.1")
      bodyCharset := if charset = 1 then some (js "UTF-8") else none
      bodyEncoding := if charset = 0 then some (js "G-7BIT") else none
      bodyLength := 22 + smsBodyLength charset row
      bodyMsg := some (smsBody charset row) }

/-- `bldSmsBmsg`. -/
def bldSmsBmsg (phone : Phone) (charset : ℤ) (row : SmsRow) : JString :=
  toBmessageSMS (smsBmsg phone charset row)

/-! ### MMS -/

/-- A row of the MMS provider, with what the other queries give for it: the address, the date as a
text, and the text. -/
structure MmsRow where
  read : JString
  msgBox : JString
  containingFolder : JString
  address : Option JString
  date : JString
  text : Option JString

/-- The names of the contacts of a list of addresses. -/
def Phone.names (phone : Phone) (tokens : List JString) : JString :=
  tokens.flatMap fun token =>
    match (phone.getVcardContent (some token)).1 with
    | none | some [] => js " ;"
    | some name => name ++ js ";"

/-- The name and the number of an address, or the lists of them. -/
def Phone.addressVcard (phone : Phone) (address : Option JString) :
    Option JString × Option JString :=
  match address with
  | some list =>
    if 59 ∈ list then
      (some (phone.names (split 59 list)), some ((split 59 list).flatMap fun t => t ++ js ";"))
    else phone.getVcardContent (some list)
  | none => phone.getVcardContent none

/-- The bMessage before its body is known. -/
def mmsBmsg (phone : Phone) (row : MmsRow) : BmessageConsts :=
  phone.setVcards (equalsIgnoreCase row.msgBox (js "1")) (phone.addressVcard row.address)
    { type := some (js "MMS")
      bmsgVersion := some (js "1.0")
      status := some (readStatus row.read)
      folder := some (folderPath row.containingFolder)
      vcardVersion := some (js "2.1") }

/-- The body, if a boundary that can be used is drawn. -/
def mmsBody (phone : Phone) (row : MmsRow) (draws : List ℕ) : Option JString :=
  (bldMMSBody (mmsBmsg phone row) true row.text draws).map fun body =>
    js "Date: " ++ row.date ++ crlf ++ body

/-- The bMessage with its body. -/
def withMmsBody (bmsg : BmessageConsts) (sb : JString) : BmessageConsts :=
  { bmsg with
    bodyMsg := some sb
    bodyLength := sb.length + 22
    bodyEncoding := some (js "8BIT") }

/-- `bldMmsBmsg`, if a boundary that can be used is drawn. -/
def bldMmsBmsg (phone : Phone) (row : MmsRow) (draws : List ℕ) : Option JString :=
  (mmsBody phone row draws).map fun sb => toBmessageMMS (withMmsBody (mmsBmsg phone row) sb)

/-! ### E-mail -/

/-- A row of the message table of the e-mail provider, with its date as two texts. -/
structure EmailRow where
  flagRead : JString
  containingFolder : JString
  subject : Option JString
  fromList : Option JString
  toList : Option JString
  /-- `date.toString()`. -/
  date : JString
  /-- The date as the car kits of one maker read it. -/
  dateUs : JString

/-- A row of the body table. -/
structure EmailContent where
  textContent : Option JString
  htmlContent : Option JString

/-- `BMW`. -/
def BMW : JString := js "BMW"

/-- The name and the address around the character 2; `none` if nothing is set. -/
def splitAddress (list : JString) : Except Exn (Option JString × Option JString) :=
  match split 2 list with
  | [] => .ok (none, none)
  | [_] => .error .indexOutOfBounds
  | email :: name :: _ => .ok (some (trim name), some (trim email))

/-- A list of addresses, with semicolons for the character between them. -/
def multiRecipients (c : UInt16) (list : JString) : Option JString :=
  some (trim (list.map fun d => if d = c then 59 else d))

/-- The name and the address of the sender. -/
def emailOriginator : Option JString → Except Exn (Option JString × Option JString)
  | none => .ok (none, none)
  | some senderName =>
    if 2 ∈ senderName then splitAddress senderName
    else .ok (some (trim senderName), some (trim senderName))

/-- The names and the addresses of the recipients. -/
def emailRecipient : Option JString → Except Exn (Option JString × Option JString)
  | none => .ok (none, none)
  | some recipientName =>
    if 2 ∈ recipientName then splitAddress recipientName
    else if 1 ∈ recipientName then
      .ok (multiRecipients 1 recipientName, multiRecipients 1 recipientName)
    else if 44 ∈ recipientName then
      .ok (multiRecipients 44 recipientName, multiRecipients 44 recipientName)
    else .ok (some (trim recipientName), some (trim recipientName))

/-- The bMessage before its body is known. -/
def emailBmsg (row : EmailRow) (originator recipient : Option JString × Option JString) :
    BmessageConsts where
  type := some (js "EMAIL")
  bmsgVersion := some (js "1.0")
  status := some (readStatus row.flagRead)
  folder := some (folderPath row.containingFolder)
  vcardVersion := some (js "2.1")
  originatorVcardName := originator.1
  originatorVcardEmail := originator.2
  recipientVcardName := recipient.1
  recipientVcardEmail := recipient.2

/-- `emailBody`; `html` makes a text of an HTML document. -/
def emailText (html : JString → JString) (content : Option EmailContent) : Option JString :=
  match content with
  | none => none
  | some ⟨some (c :: text), _⟩ => some (c :: text)
  | some ⟨_, some htmlContent⟩ => some (html htmlContent)
  | some ⟨textContent, none⟩ => textContent

/-- The addresses, in front of the body. -/
def emailAddresses (bmsg : BmessageConsts) : JString :=
  js "From:" ++ orNull bmsg.originatorVcardEmail ++ crlf ++
    js "To:" ++ orNull bmsg.recipientVcardEmail ++ crlf

/-- The body for the car kits of one maker. -/
def plainEmail (bmsg : BmessageConsts) (row : EmailRow) (emailBody : Option JString) : JString :=
  emailAddresses bmsg ++ js "Mime-Version: 1.0" ++ crlf ++
    js "Content-Type: text/plain; charset=\"UTF-8\"" ++ crlf ++
    js "Content-Transfer-Encoding: 8bit" ++ crlf ++
    js "Date:" ++ row.dateUs ++ crlf ++
    js "Subject:" ++ orNull row.subject ++ crlf ++ crlf ++ orNull emailBody ++ crlf

/-- The body for anything else. -/
def mimeEmail (bmsg : BmessageConsts) (row : EmailRow) (emailBody : Option JString)
    (boundary : JString) : JString :=
  emailAddresses bmsg ++ js "Date: " ++ row.date ++ crlf ++
    js "Subject:" ++ orNull row.subject ++ crlf ++
    js "Mime-Version: 1.0" ++ crlf ++
    js "Content-Type: multipart/mixed; boundary=\"" ++ boundary ++ js "\"" ++ crlf ++
    js "Content-Transfer-Encoding: 8bit" ++ crlf ++ crlf ++
    js "MIME Message" ++ crlf ++
    js "--" ++ boundary ++ crlf ++
    js "Content-Type: text/plain; charset=\"UTF-8\"" ++ crlf ++
    js "Content-Transfer-Encoding: 8bit" ++ crlf ++
    js "Content-Disposition:inline" ++ crlf ++ crlf ++
    orNull emailBody ++ crlf ++
    js "--" ++ boundary ++ js "--" ++ crlf

/-- The body, if a boundary that can be used is drawn. -/
def emailBody (bmsg : BmessageConsts) (row : EmailRow) (text remoteDeviceName : Option JString)
    (draws : List ℕ) : Option JString :=
  if BMW <+: remoteDeviceName.getD [] then some (plainEmail bmsg row text)
  else (drawBoundary text draws).map (mimeEmail bmsg row text)

/-- The bMessage with its body. -/
def withEmailBody (bmsg : BmessageConsts) (sb : JString) : BmessageConsts :=
  { bmsg with
    bodyMsg := some sb
    bodyLength := (utf8 sb).length + 22 }

/-- `bldEmailBmsg`, if a boundary that can be used is drawn. -/
def bldEmailBmsg (html : JString → JString) (row : EmailRow) (content : Option EmailContent)
    (remoteDeviceName : Option JString) (draws : List ℕ) : Except Exn (Option JString) := do
  let originator ← emailOriginator row.fromList
  let recipient ← emailRecipient row.toList
  let bmsg := emailBmsg row originator recipient
  let body := emailBody bmsg row (emailText html content) remoteDeviceName draws
  return body.map fun sb => toBmessageEmail (withEmailBody bmsg sb)

/-! ### The length in the file -/

/-- The message between its tags. -/
def framed (body : JString) : JString :=
  js "BEGIN:MSG" ++ crlf ++ body ++ crlf ++ js "END:MSG" ++ crlf

/-- What follows on the message; there is no `END:MSG` in it. -/
def closing : JString :=
  js "END:BBODY" ++ crlf ++ js "END:BENV" ++ crlf ++ js "END:BMSG" ++ crlf

/-- The line before the message says that its length is `n`. -/
def HasLength (file body : JString) (n : ℤ) : Prop :=
  ∃ front, file = front ++ (js "LENGTH:" ++ decimal n ++ crlf ++ (framed body ++ closing))

/-- **The length in the file is right**: there is one, and it is the number of bytes from
`BEGIN:MSG` up to the end of the last `END:MSG`. -/
def Announces (file body : JString) : Prop := HasLength file body (utf8 (framed body)).length

section Announces

variable {file body : JString} {n m : ℤ}

theorem length_utf8_framed (body : JString) :
    (utf8 (framed body)).length = (utf8 body).length + 22 := by
  have hframed : framed body = [] ++ (js "BEGIN:MSG" ++ crlf ++ (body ++
      (crlf ++ js "END:MSG" ++ crlf ++ []))) := by
    simp [framed]
  rw [hframed, length_utf8_append_ascii (by decide) (by decide),
    length_utf8_append_ascii (by decide) (by decide), utf8_nil]
  simp [js, crlf]
  omega

/-- The message is a part of the file in bytes, too. -/
theorem HasLength.utf8_eq (h : HasLength file body n) :
    ∃ front, utf8 file = front ++ utf8 (framed body) ++ utf8 closing := by
  obtain ⟨front, rfl⟩ := h
  have hB : ∀ t, ∀ d ∈ (framed body ++ t).head?, ¬ IsLow d := by
    intro t d hd
    obtain rfl : 66 = d := by simpa [framed, js] using hd
    decide
  have hE : ∀ d ∈ closing.head?, ¬ IsLow d := by
    intro d hd
    obtain rfl : 69 = d := Option.some.inj hd
    decide
  refine ⟨utf8 (front ++ (js "LENGTH:" ++ decimal n ++ crlf)), ?_⟩
  rw [← List.append_assoc front, utf8_append (.inr (hB closing)), utf8_append (.inr hE),
    ← List.append_assoc (utf8 _)]

theorem decimal_inj (hn : 0 < n) (hm : 0 < m) (h : decimal n = decimal m) : n = m := by
  have hdigits : ∀ k : ℤ, 0 < k →
      (decimal k).mapM digit = some (Nat.digits 10 k.natAbs).reverse := by
    intro k hk
    rw [decimal_eq hk]
    exact mapM_digit fun d hd => digits_lt hd
  have heq := hdigits n hn
  rw [h, hdigits m hm, Option.some_inj, List.reverse_inj] at heq
  have habs := Nat.digits_inj_iff.1 heq
  omega

/-- What stands behind the last mark of a text. -/
theorem append_cons_inj_right {c : UInt16} {a b s t : JString} (hs : c ∉ s) (ht : c ∉ t)
    (h : a ++ c :: s = b ++ c :: t) : s = t := by
  rcases List.append_eq_append_iff.1 h with ⟨x, -, hx⟩ | ⟨x, -, hx⟩
  · cases x with
    | nil => exact (List.cons.inj hx).2
    | cons d x =>
      have hmem : c ∈ s := by
        rw [(List.cons.inj hx).2]
        simp
      exact absurd hmem hs
  · cases x with
    | nil => exact (List.cons.inj hx).2.symm
    | cons d x =>
      have hmem : c ∈ t := by
        rw [(List.cons.inj hx).2]
        simp
      exact absurd hmem ht

/-- A file has only one length. -/
theorem HasLength.unique (hn : 0 < n) (hm : 0 < m) (h : HasLength file body n)
    (h' : HasLength file body m) : n = m := by
  obtain ⟨front, heq⟩ := h
  obtain ⟨front', heq'⟩ := h'
  have hdigits : ∀ k : ℤ, 0 < k → 58 ∉ decimal k := by
    intro k hk hmem
    have hrange := mem_decimal hk.le hmem
    exact absurd hrange.2 (by decide)
  have hcolon : js "LENGTH:" = js "LENGTH" ++ [58] := by decide
  have hcut : ∀ (front : JString) (k : ℤ),
      front ++ (js "LENGTH:" ++ decimal k ++ crlf ++ (framed body ++ closing)) =
        (front ++ js "LENGTH") ++ 58 :: decimal k ++ (crlf ++ (framed body ++ closing)) := by
    intro front k
    rw [hcolon]
    simp only [List.append_assoc, List.cons_append, List.nil_append]
  rw [heq, hcut, hcut] at heq'
  exact decimal_inj hn hm (append_cons_inj_right (hdigits n hn) (hdigits m hm)
    (List.append_cancel_right heq'))

/-- A file whose length is the number of bytes of its body and of the lines around it. -/
theorem announces_iff_of_hasLength (hn : 0 < n) (h : HasLength file body n) :
    Announces file body ↔ n = (utf8 body).length + 22 := by
  rw [Announces, length_utf8_framed]
  push_cast
  constructor
  · exact fun h' => h.unique hn (by omega) h'
  · rintro rfl
    exact h

end Announces

/-! ### The length lines of the writers -/

section Writers

variable {b : BmessageConsts} {body : JString} {n : ℤ}
  {card : Option JString → Option JString → Option JString → List Piece}

theorem messageSMS_append (body : JString) :
    messageSMS (some body) ++ js "END:BBODY" ++ crlf ++ js "END:BENV" ++ crlf ++ js "END:BMSG" ++
      crlf = framed body ++ closing := by
  unfold messageSMS framed closing
  simp only [List.append_assoc]

theorem hasLength_toBmessageSMS (hlength : b.bodyLength ≠ 0) (hmsg : b.bodyMsg = some body) :
    HasLength (toBmessageSMS b) body b.bodyLength := by
  have happend : ∀ a b c d e f g h i : JString, a ++ b ++ c ++ d ++ e ++ f ++ g ++ h ++ i =
      a ++ (b ++ (c ++ d ++ e ++ f ++ g ++ h ++ i)) := by
    intros
    simp only [List.append_assoc]
  unfold toBmessageSMS
  rw [if_pos hlength, hmsg, happend, messageSMS_append]
  exact ⟨_, rfl⟩

theorem render_length (hlength : b.bodyLength ≠ 0) (hmsg : b.bodyMsg = some body) :
    render (lengthLine b ++ messagePieces b ++ closers) =
      js "LENGTH:" ++ decimal b.bodyLength ++ crlf ++ (framed body ++ closing) := by
  have hlines : lengthLine b ++ messagePieces b ++ closers =
      [.line "LENGTH" (decimal b.bodyLength), .opens .MSG, .text body, .closes .MSG,
        .closes .BBODY, .closes .BENV, .closes .BMSG] := by
    rw [lengthLine, if_pos hlength, messagePieces, hmsg]
    rfl
  have h1 : js "LENGTH:" = js "LENGTH" ++ js ":" := by decide
  have h2 : js "BEGIN:MSG" = js "BEGIN:" ++ js "MSG" := by decide
  have h3 : js "END:MSG" = js "END:" ++ js "MSG" := by decide
  have h4 : js "END:BBODY" = js "END:" ++ js "BBODY" := by decide
  have h5 : js "END:BENV" = js "END:" ++ js "BENV" := by decide
  have h6 : js "END:BMSG" = js "END:" ++ js "BMSG" := by decide
  rw [hlines]
  unfold render framed closing
  simp only [List.flatMap_cons, List.flatMap_nil, Piece.render, Block.tag, h1, h2, h3, h4, h5, h6,
    List.append_assoc, List.append_nil]

theorem cards_of_stopped (version : Option JString) (addresses names : List JString)
    (h : (cards card version addresses names).stopped = true) :
    cardStart version <:+ (cards card version addresses names).pieces := by
  induction addresses generalizing names with
  | nil => cases h
  | cons address addresses ih =>
    cases names with
    | nil => exact List.suffix_rfl
    | cons name names => exact (ih names h).trans (List.suffix_append _ _)

/-- If the loop over the recipients stops, it does so at the beginning of a vCard, or before the
first one. -/
theorem recipients_of_stopped (version name addresses : Option JString)
    (h : (recipients card version name addresses).stopped = true) :
    cardStart version <:+ (recipients card version name addresses).pieces ∨
      (recipients card version name addresses).pieces = [] := by
  cases addresses with
  | none => cases h
  | some list =>
    by_cases hmem : 59 ∈ list
    · cases name with
      | none =>
        right
        simp only [recipients, hmem, if_true]
      | some names =>
        simp only [recipients, hmem, if_true] at h ⊢
        exact .inl (cards_of_stopped version _ _ h)
    · simp only [recipients, hmem, if_false, Bool.false_eq_true] at h

theorem suffix_render {ps qs : List Piece} (h : ps <:+ qs) : render ps <:+ render qs := by
  obtain ⟨rs, rfl⟩ := h
  rw [render_append]
  exact List.suffix_append _ _

/-- A text that does not end as the files with a length do. -/
theorem not_hasLength {file last : JString} (h : last <:+ file)
    (hlast : ¬ js "BMSG" ++ crlf <:+ last) (hshort : ¬ last <:+ js "BMSG" ++ crlf) (n : ℤ) :
    ¬ HasLength file body n := by
  rintro ⟨front, hfile⟩
  have hend : js "BMSG" ++ crlf <:+ file := by
    refine ⟨front ++ (js "LENGTH:" ++ decimal n ++ crlf ++ (framed body ++ (js "END:BBODY" ++
      crlf ++ js "END:BENV" ++ crlf ++ js "END:"))), ?_⟩
    have hclose : js "END:BMSG" = js "END:" ++ js "BMSG" := by decide
    rw [hfile]
    unfold closing
    simp only [hclose, List.append_assoc]
  exact (List.suffix_or_suffix_of_suffix hend h).elim hlast hshort

/-- **A writer writes the length** exactly if it comes to it: if each of the recipients has a
name. -/
theorem hasLength_render_iff {key : String} (hcard : WritesRecipient key card)
    (hkey : "VERSION" ≠ key) (front back : List Piece) (name addresses : Option JString)
    (hlength : b.bodyLength ≠ 0) (hmsg : b.bodyMsg = some body) :
    (Named name addresses → HasLength (render (front ++ [.opens .BENV] ++
      (recipients card (some (js "2.1")) name addresses).andThen
        (back ++ (lengthLine b ++ messagePieces b ++ closers)))) body b.bodyLength) ∧
    (¬ Named name addresses → ∀ n, ¬ HasLength (render (front ++ [.opens .BENV] ++
      (recipients card (some (js "2.1")) name addresses).andThen
        (back ++ (lengthLine b ++ messagePieces b ++ closers)))) body n) := by
  constructor
  · intro hnamed
    have hstopped := (recipients_of_named hcard (some (js "2.1")) hnamed).1
    rw [Written.andThen, hstopped, if_neg Bool.false_ne_true, ← List.append_assoc,
      ← List.append_assoc, render_append, render_length hlength hmsg]
    exact ⟨_, rfl⟩
  · intro hnamed n
    have hstopped := (recipients_of_not_named hcard hkey (some (js "2.1")) hnamed).1
    rw [Written.andThen, if_pos hstopped]
    rcases recipients_of_stopped (some (js "2.1")) name addresses hstopped with hcut | hcut
    · -- the version of the next vCard is the last line
      refine not_hasLength (suffix_render (hcut.trans (List.suffix_append _ _))) ?_ ?_ n
      · decide
      · decide
    · rw [hcut, List.append_nil]
      refine not_hasLength (suffix_render (List.suffix_append _ _)) ?_ ?_ n
      · decide
      · decide

/-- The length in a file that a writer comes to: it is the one that was computed. -/
theorem announces_iff_of_render (hlength : 0 < b.bodyLength) {file : JString} {P : Prop}
    (hlines : P → HasLength file body b.bodyLength) (hnone : ¬ P → ∀ n, ¬ HasLength file body n) :
    Announces file body ↔ P ∧ b.bodyLength = (utf8 body).length + 22 := by
  by_cases hP : P
  · rw [announces_iff_of_hasLength hlength (hlines hP), and_iff_right hP]
  · exact iff_of_false (hnone hP _) fun h => hP h.1

theorem announces_toBmessageMMS (hversion : b.vcardVersion = some (js "2.1"))
    (hlength : 0 < b.bodyLength) (hmsg : b.bodyMsg = some body) :
    Announces (toBmessageMMS b) body ↔
      Named b.recipientVcardName b.recipientVcardPhoneNumber ∧
        b.bodyLength = (utf8 body).length + 22 := by
  have hpieces : piecesMMS b = header b
      (cardMMS b.vcardVersion b.originatorVcardName b.originatorVcardPhoneNumber) ++
        [.opens .BENV] ++ (recipients cardMMS (some (js "2.1")) b.recipientVcardName
          b.recipientVcardPhoneNumber).andThen (bodyLines b ++
            (lengthLine b ++ messagePieces b ++ closers)) := by
    rw [piecesMMS, hversion]
    simp only [bodyMMS, bodyLines, List.append_assoc]
  obtain ⟨hlines, hnone⟩ := hasLength_render_iff writesRecipient_cardMMS (by decide)
    (header b (cardMMS b.vcardVersion b.originatorVcardName b.originatorVcardPhoneNumber))
    (bodyLines b) b.recipientVcardName b.recipientVcardPhoneNumber hlength.ne' hmsg
  rw [← hpieces] at hlines hnone
  exact announces_iff_of_render hlength hlines hnone

theorem announces_toBmessageEmail (hversion : b.vcardVersion = some (js "2.1"))
    (hlength : 0 < b.bodyLength) (hmsg : b.bodyMsg = some body) :
    Announces (toBmessageEmail b) body ↔
      Named b.recipientVcardName b.recipientVcardEmail ∧
        b.bodyLength = (utf8 body).length + 22 := by
  obtain ⟨front, hfront⟩ : ∃ front, front = header b
      (cardStart b.vcardVersion ++ field "N" b.originatorVcardName ++ [.line "TEL" []] ++
        field "EMAIL" b.originatorVcardEmail ++ [.closes .VCARD]) := ⟨_, rfl⟩
  obtain ⟨back, hback⟩ : ∃ back, back = [Piece.opens .BBODY,
      .line "ENCODING" (b.bodyEncoding.getD (js "8BIT")), .line "CHARSET" (js "UTF-8")] :=
    ⟨_, rfl⟩
  have hpieces : piecesEmail b = front ++ [.opens .BENV] ++
      (recipients cardEmail (some (js "2.1")) b.recipientVcardName
        b.recipientVcardEmail).andThen (back ++
          (lengthLine b ++ messagePieces b ++ closers)) := by
    rw [hfront, hback, piecesEmail, hversion]
    simp only [bodyEmail, List.append_assoc]
  obtain ⟨hlines, hnone⟩ := hasLength_render_iff writesRecipient_cardEmail (by decide) front back
    b.recipientVcardName b.recipientVcardEmail hlength.ne' hmsg
  rw [← hpieces] at hlines hnone
  exact announces_iff_of_render hlength hlines hnone

end Writers

/-! ### The body of an MMS in bytes -/

section MmsBytes

variable {date number text boundary : JString}

/-- What stands between the number and the text. -/
def beforeText (boundary : JString) : JString :=
  crlf ++ js "Mime-Version: 1.0" ++ crlf ++
    js "Content-Type: multipart/mixed; boundary=\"" ++ boundary ++ js "\"" ++ crlf ++
    js "Content-Transfer-Encoding: 7bit" ++ crlf ++ crlf ++ js "MIME Message" ++ crlf ++
    js "--" ++ boundary ++ crlf ++ js "Content-Type: text/plain" ++ crlf ++
    js "Content-Transfer-Encoding: 8bit" ++ crlf ++ js "Content-Disposition:inline" ++ crlf ++ crlf

/-- What stands behind the text. -/
def behindText (boundary : JString) : JString :=
  crlf ++ js "--" ++ boundary ++ js "--" ++ crlf ++ crlf

theorem mimeText_eq (date number text boundary : JString) :
    js "Date: " ++ date ++ crlf ++ mimeBody number text boundary =
      [] ++ (js "Date: " ++ (date ++ (crlf ++ js "To:" ++ (number ++ (beforeText boundary ++
        (text ++ (behindText boundary ++ []))))))) := by
  unfold mimeBody beforeText behindText
  simp only [List.append_assoc, List.nil_append, List.append_nil]

theorem ascii_append {s t : JString} : Ascii (s ++ t) ↔ Ascii s ∧ Ascii t := List.forall_mem_append

theorem ascii_boundaryOf (n : ℕ) : Ascii (boundaryOf n) := by
  intro c hc
  by_contra hlarge
  refine notMem_boundaryOf n (fun hword => ?_) (.inr (by omega)) hc
  have hascii : Ascii (js "MessageBoundary.") := by decide
  exact hlarge (hascii c hword)

/-- **The body has as many bytes as characters** exactly if the date, the number and the text do. -/
theorem length_utf8_mimeText (date number text : JString) (n : ℕ) :
    (utf8 (js "Date: " ++ date ++ crlf ++ mimeBody number text (boundaryOf n))).length =
      (js "Date: " ++ date ++ crlf ++ mimeBody number text (boundaryOf n)).length ↔
        Narrow date ∧ Narrow number ∧ Narrow text := by
  have hboundary := ascii_boundaryOf n
  have hbefore : Ascii (beforeText (boundaryOf n)) := by
    unfold beforeText
    simp only [ascii_append, hboundary, and_true]
    decide
  have hbehind : Ascii (behindText (boundaryOf n)) := by
    unfold behindText
    simp only [ascii_append, hboundary, and_true]
    decide
  have hne : ∀ b, beforeText b ≠ [] ∧ behindText b ≠ [] := by
    intro b
    rw [← List.length_pos_iff, ← List.length_pos_iff]
    unfold beforeText behindText crlf
    simp only [List.length_append, List.length_cons]
    omega
  rw [mimeText_eq, length_utf8_append_ascii (by decide) (by decide),
    length_utf8_append_ascii (by decide) (by decide), length_utf8_append_ascii hbefore (hne _).1,
    length_utf8_append_ascii hbehind (hne _).2]
  obtain ⟨hle1, hiff1⟩ := length_utf8 date
  obtain ⟨hle2, hiff2⟩ := length_utf8 number
  obtain ⟨hle3, hiff3⟩ := length_utf8 text
  simp only [List.length_append, List.length_nil, utf8_nil]
  rw [← hiff1, ← hiff2, ← hiff3]
  omega

end MmsBytes

/-! ### The three files -/

section Files

theorem setVcards_fields (phone : Phone) (inbox : Bool) (vcard : Option JString × Option JString)
    (b : BmessageConsts) :
    (phone.setVcards inbox vcard b).bodyLength = b.bodyLength ∧
      (phone.setVcards inbox vcard b).bodyMsg = b.bodyMsg ∧
      (phone.setVcards inbox vcard b).vcardVersion = b.vcardVersion := by
  cases inbox <;> exact ⟨rfl, rfl, rfl⟩

theorem announces_bldSmsBmsg (phone : Phone) (row : SmsRow) :
    Announces (bldSmsBmsg phone 1 row) row.body := by
  have hlength : (smsBmsg phone 1 row).bodyLength = 22 + (utf8 row.body).length :=
    (setVcards_fields phone _ _ _).1
  have hmsg : (smsBmsg phone 1 row).bodyMsg = some row.body := (setVcards_fields phone _ _ _).2.1
  have hline := hasLength_toBmessageSMS (by omega) hmsg
  rw [hlength] at hline
  rw [bldSmsBmsg, announces_iff_of_hasLength (by omega) hline]
  omega

/-- The length of an MMS is the number of characters, not of bytes. -/
theorem announces_bldMmsBmsg {phone : Phone} {row : MmsRow} {draws : List ℕ} {sb : JString}
    (hsb : mmsBody phone row draws = some sb) :
    ∃ file, bldMmsBmsg phone row draws = some file ∧ (Announces file sb ↔
      Named (mmsBmsg phone row).recipientVcardName (mmsBmsg phone row).recipientVcardPhoneNumber ∧
        Narrow row.date ∧ Narrow (orNull (mmsBmsg phone row).recipientVcardPhoneNumber) ∧
        Narrow (orNull row.text)) := by
  refine ⟨toBmessageMMS (withMmsBody (mmsBmsg phone row) sb), by rw [bldMmsBmsg, hsb]; rfl, ?_⟩
  have hversion : (withMmsBody (mmsBmsg phone row) sb).vcardVersion = some (js "2.1") :=
    (setVcards_fields phone _ _ _).2.2
  have hlength : (withMmsBody (mmsBmsg phone row) sb).bodyLength = sb.length + 22 := rfl
  rw [announces_toBmessageMMS hversion (by omega) rfl, hlength]
  refine and_congr_right fun _ => ?_
  obtain ⟨body, hbody, rfl⟩ := Option.map_eq_some_iff.1 hsb
  obtain ⟨boundary, hdraw, rfl⟩ := Option.map_eq_some_iff.1 hbody
  obtain ⟨n, -, rfl⟩ := List.mem_map.1 (List.mem_of_find?_eq_some hdraw)
  rw [← length_utf8_mimeText _ _ _ n]
  omega

theorem announces_bldEmailBmsg {html : JString → JString} {row : EmailRow}
    {content : Option EmailContent} {remoteDeviceName : Option JString} {draws : List ℕ}
    {originator recipient : Option JString × Option JString} {sb : JString}
    (horiginator : emailOriginator row.fromList = .ok originator)
    (hrecipient : emailRecipient row.toList = .ok recipient)
    (hsb : emailBody (emailBmsg row originator recipient) row (emailText html content)
      remoteDeviceName draws = some sb) :
    ∃ file, bldEmailBmsg html row content remoteDeviceName draws = .ok (some file) ∧
      (Announces file sb ↔ Named recipient.1 recipient.2) := by
  refine ⟨toBmessageEmail (withEmailBody (emailBmsg row originator recipient) sb), ?_, ?_⟩
  · rw [bldEmailBmsg, horiginator, hrecipient]
    dsimp only [Bind.bind, Except.bind]
    rw [hsb]
    rfl
  · rw [announces_toBmessageEmail rfl (by dsimp only [withEmailBody]; omega) rfl]
    exact and_iff_left rfl

end Files

/-- **When the length in the file is the number of bytes of the message**: always for an SMS in
UTF-8; for an e-mail if each recipient has a name, since otherwise the writer does not come to the
length; for an MMS if moreover the date, the number and the text have a byte for each character. -/
theorem announces_iff (phone : Phone) :
    (∀ row, Announces (bldSmsBmsg phone 1 row) row.body) ∧
    (∀ html row content remoteDeviceName draws originator recipient sb,
      emailOriginator row.fromList = .ok originator → emailRecipient row.toList = .ok recipient →
      emailBody (emailBmsg row originator recipient) row (emailText html content)
        remoteDeviceName draws = some sb →
      ∃ file, bldEmailBmsg html row content remoteDeviceName draws = .ok (some file) ∧
        (Announces file sb ↔ Named recipient.1 recipient.2)) ∧
    (∀ row draws sb, mmsBody phone row draws = some sb →
      ∃ file, bldMmsBmsg phone row draws = some file ∧ (Announces file sb ↔
        Named (mmsBmsg phone row).recipientVcardName
          (mmsBmsg phone row).recipientVcardPhoneNumber ∧
        Narrow row.date ∧ Narrow (orNull (mmsBmsg phone row).recipientVcardPhoneNumber) ∧
        Narrow (orNull row.text))) := by
  refine ⟨announces_bldSmsBmsg phone, ?_, fun row draws sb hsb => announces_bldMmsBmsg hsb⟩
  intro html row content remoteDeviceName draws originator recipient sb horiginator hrecipient hsb
  exact announces_bldEmailBmsg horiginator hrecipient hsb

/-- An owner without a name in the SIM card, and no contacts. -/
def samplePhone : Phone := ⟨some (js "Owner"), some (js "+491"), fun _ => some [], false⟩

/-- An MMS with an `e` with an accent. -/
def sampleMms : MmsRow :=
  ⟨js "1", js "1", js "inbox", some (js "+492"), js "Thu Jan 01 00:00:00 UTC 2015", some [0xE9]⟩

/-- An e-mail with the same text, to somebody with a name. -/
def sampleEmail : EmailRow :=
  ⟨js "0", js "inbox", none, some (js "a@b.c"), some (js "d@e.f" ++ 2 :: js "Doe"), js "1", js "2"⟩

/-- Of the three messages the length of the MMS is not the number of its bytes. -/
theorem not_announces_sampleMms :
    ∃ sb file, mmsBody samplePhone sampleMms [7] = some sb ∧
      bldMmsBmsg samplePhone sampleMms [7] = some file ∧ ¬ Announces file sb := by
  obtain ⟨sb, hsb⟩ : ∃ sb, mmsBody samplePhone sampleMms [7] = some sb := by
    rw [← Option.isSome_iff_exists]
    decide
  obtain ⟨file, hfile, hiff⟩ := announces_bldMmsBmsg hsb
  refine ⟨sb, file, hsb, hfile, fun h => ?_⟩
  obtain ⟨-, -, -, htext⟩ := hiff.1 h
  have hwide : ¬ OneByte 0xE9 := by decide
  exact hwide htext

theorem announces_samples :
    (∃ sb file, mmsBody samplePhone { sampleMms with text := some (js "e") } [7] = some sb ∧
      bldMmsBmsg samplePhone { sampleMms with text := some (js "e") } [7] = some file ∧
        Announces file sb) ∧
    ∃ sb file, emailBody (emailBmsg sampleEmail (some (js "a@b.c"), some (js "a@b.c"))
        (some (js "Doe"), some (js "d@e.f"))) sampleEmail (some [0xE9]) none [7] = some sb ∧
      bldEmailBmsg id sampleEmail (some ⟨some [0xE9], none⟩) none [7] = .ok (some file) ∧
        Announces file sb := by
  have hnamed : ∀ name address : JString, 59 ∉ address → Named (some name) (some address) := by
    rintro name address hnot list ⟨⟩ hmem
    exact absurd hmem hnot
  have hascii : ∀ t : JString, Ascii t → Narrow t := fun t => narrow_of_ascii
  constructor
  · obtain ⟨sb, hsb⟩ : ∃ sb,
        mmsBody samplePhone { sampleMms with text := some (js "e") } [7] = some sb := by
      rw [← Option.isSome_iff_exists]
      decide
    obtain ⟨file, hfile, hiff⟩ := (announces_iff samplePhone).2.2 _ [7] sb hsb
    refine ⟨sb, file, hsb, hfile, hiff.2 ⟨hnamed _ _ (by decide), ?_, ?_, ?_⟩⟩
    · exact hascii _ (by decide)
    · exact hascii _ (by decide)
    · exact hascii _ (by decide)
  · obtain ⟨sb, hsb⟩ : ∃ sb, emailBody (emailBmsg sampleEmail (some (js "a@b.c"), some (js "a@b.c"))
        (some (js "Doe"), some (js "d@e.f"))) sampleEmail (some [0xE9]) none [7] = some sb := by
      rw [← Option.isSome_iff_exists]
      decide
    obtain ⟨file, hfile, hiff⟩ := (announces_iff samplePhone).2.1 id sampleEmail
      (some ⟨some [0xE9], none⟩) none [7] _ _ sb (by decide) (by decide) hsb
    exact ⟨sb, file, hsb, hfile, hiff.2 (hnamed _ _ (by decide))⟩

end BodyLength

end Map

end Msm8909w
