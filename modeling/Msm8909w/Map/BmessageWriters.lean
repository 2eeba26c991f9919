import Msm8909w.Map.MapUtils

/-!
# The writers of MMS and e-mails

`toBmessageMMS` and `toBmessageEmail` append line after line, and return what they have appended so
far when an exception is thrown.  The list of addresses and the list of names of the recipients are
split independently of each other, and read at the same indices.

* `Piece`, `render` : what is appended, and its text,
* `toBmessageMMS`, `toBmessageEmail` : the writers,
* `Outline` : the blocks that are open, and the recipients that have been written,
* `writers_complete_iff` : exactly when the text is a complete bMessage.
-/

namespace Msm8909w

namespace Map

/-! ### What is appended -/

/-- The blocks of a bMessage. -/
inductive Block where
  | BMSG
  | VCARD
  | BENV
  | BBODY
  | MSG
  deriving DecidableEq, Repr

/-- The name of a block. -/
def Block.tag : Block → JString
  | .BMSG => js "BMSG"
  | .VCARD => js "VCARD"
  | .BENV => js "BENV"
  | .BBODY => js "BBODY"
  | .MSG => js "MSG"

/-- A line, or the message itself. -/
inductive Piece where
  | opens (block : Block)
  | closes (block : Block)
  | line (key : String) (value : JString)
  | text (msg : JString)
  deriving DecidableEq, Repr

/-- The text of a piece. -/
def Piece.render : Piece → JString
  | .opens block => js "BEGIN:" ++ block.tag ++ crlf
  | .closes block => js "END:" ++ block.tag ++ crlf
  | .line key value => js key ++ js ":" ++ value ++ crlf
  | .text msg => msg ++ crlf

/-- The text of what has been appended. -/
def render (ps : List Piece) : JString := ps.flatMap Piece.render

/-- A line, if there is a value. -/
def field (key : String) (value : Option JString) : List Piece :=
  match value with
  | some v => [.line key v]
  | none => []

/-! ### The recipients -/

/-- `s.split(c)`, for a single character. -/
def split (c : UInt16) (s : JString) : List JString :=
  if s = [] then [[]] else ((s.splitOn c).reverse.dropWhile (· = [])).reverse

/-- The first lines of a vCard. -/
def cardStart (version : Option JString) : List Piece := .opens .VCARD :: field "VERSION" version

/-- The vCards of an MMS. -/
def cardMMS (version name phoneNumber : Option JString) : List Piece :=
  cardStart version ++ field "N" name ++ field "TEL" phoneNumber ++ [.closes .VCARD]

/-- The vCards of the recipients of an e-mail. -/
def cardEmail (version name email : Option JString) : List Piece :=
  cardStart version ++ field "N" name ++ field "FN" name ++ [.line "TEL" []] ++
    field "EMAIL" email ++ [.closes .VCARD]

/-- What has been appended, and whether an exception was thrown. -/
structure Written where
  pieces : List Piece
  stopped : Bool

/-- What is appended next, if no exception was thrown. -/
def Written.andThen (w : Written) (ps : List Piece) : List Piece :=
  if w.stopped then w.pieces else w.pieces ++ ps

/-- The loop over the addresses. -/
def cards (card : Option JString → Option JString → Option JString → List Piece)
    (version : Option JString) : List JString → List JString → Written
  | [], _ => ⟨[], false⟩
  -- `nameTokens[i]` is out of bounds
  | _ :: _, [] => ⟨cardStart version, true⟩
  | address :: addresses, name :: names =>
    let rest := cards card version addresses names
    ⟨card version (some name) (some address) ++ rest.pieces, rest.stopped⟩

/-- The vCards of the recipients. -/
def recipients (card : Option JString → Option JString → Option JString → List Piece)
    (version name addresses : Option JString) : Written :=
  match addresses with
  | some list =>
    if 59 ∈ list then
      match name with
      | some names => cards card version (split 59 list) (split 59 names)
      -- `null.split(";")`
      | none => ⟨[], true⟩
    else ⟨card version name addresses, false⟩
  | none => ⟨card version name addresses, false⟩

/-! ### The writers -/

/-- The lines before the envelope. -/
def header (bmsg : BmessageConsts) (originator : List Piece) : List Piece :=
  [.opens .BMSG] ++ field "VERSION" bmsg.bmsgVersion ++ field "STATUS" bmsg.status ++
    field "TYPE" bmsg.type ++ field "FOLDER" bmsg.folder ++ originator

/-- The length, if it is not zero. -/
def lengthLine (bmsg : BmessageConsts) : List Piece :=
  if bmsg.bodyLength ≠ 0 then [.line "LENGTH" (decimal bmsg.bodyLength)] else []

/-- The message, if there is one. -/
def messagePieces (bmsg : BmessageConsts) : List Piece :=
  match bmsg.bodyMsg with
  | some msg => [.opens .MSG, .text msg, .closes .MSG]
  | none => []

/-- The last lines. -/
def closers : List Piece := [.closes .BBODY, .closes .BENV, .closes .BMSG]

/-- The lines before the message of an MMS. -/
def bodyMMS (bmsg : BmessageConsts) : List Piece :=
  [.opens .BBODY, .line "PARTID" (js "26988")] ++ field "ENCODING" bmsg.bodyEncoding ++
    [.line "CHARSET" (js "UTF-8"), .line "LANGUAGE" []] ++ lengthLine bmsg

/-- The lines before the message of an e-mail. -/
def bodyEmail (bmsg : BmessageConsts) : List Piece :=
  [.opens .BBODY, .line "ENCODING" (bmsg.bodyEncoding.getD (js "8BIT")),
    .line "CHARSET" (js "UTF-8")] ++ lengthLine bmsg

/-- What `toBmessageMMS` appends. -/
def piecesMMS (bmsg : BmessageConsts) : List Piece :=
  header bmsg
      (cardMMS bmsg.vcardVersion bmsg.originatorVcardName bmsg.originatorVcardPhoneNumber) ++
    [.opens .BENV] ++
    (recipients cardMMS bmsg.vcardVersion bmsg.recipientVcardName
      bmsg.recipientVcardPhoneNumber).andThen (bodyMMS bmsg ++ messagePieces bmsg ++ closers)

/-- What `toBmessageEmail` appends. -/
def piecesEmail (bmsg : BmessageConsts) : List Piece :=
  header bmsg
      (cardStart bmsg.vcardVersion ++ field "N" bmsg.originatorVcardName ++ [.line "TEL" []] ++
        field "EMAIL" bmsg.originatorVcardEmail ++ [.closes .VCARD]) ++
    [.opens .BENV] ++
    (recipients cardEmail bmsg.vcardVersion bmsg.recipientVcardName
      bmsg.recipientVcardEmail).andThen (bodyEmail bmsg ++ messagePieces bmsg ++ closers)

/-- `toBmessageMMS`. -/
def toBmessageMMS (bmsg : BmessageConsts) : JString := render (piecesMMS bmsg)

/-- `toBmessageEmail`. -/
def toBmessageEmail (bmsg : BmessageConsts) : JString := render (piecesEmail bmsg)

/-! ### The outline of a text -/

/-- The open blocks, whether the blocks were closed in order, and the addresses of the recipients.
-/
structure Outline where
  stack : List Block := []
  nested : Bool := true
  address : Option JString := none
  addresses : List (Option JString) := []
  deriving DecidableEq, Repr

/-- The next piece.  A recipient is a vCard in the envelope; `key` is the key of its address. -/
def Outline.next (key : String) (o : Outline) : Piece → Outline
  | .opens block => { o with stack := block :: o.stack, address := none }
  | .closes block =>
    { stack := o.stack.tail
      nested := o.nested && o.stack.head? == some block
      address := none
      addresses := if o.stack = [.VCARD, .BENV, .BMSG] then o.addresses ++ [o.address]
        else o.addresses }
  | .line k value => if k = key then { o with address := some value } else o
  | .text _ => o

/-- The outline of what has been appended. -/
def outline (key : String) (o : Outline) (ps : List Piece) : Outline :=
  ps.foldl (Outline.next key) o

/-- The entries of a list of recipients; `null` stands for a recipient without an address. -/
def entries : Option JString → List (Option JString)
  | some list => if 59 ∈ list then (split 59 list).map some else [some list]
  | none => [none]

/-- A complete bMessage, with one recipient for each entry. -/
structure WholeBmessage (key : String) (ps : List Piece) (recipients : List (Option JString)) :
    Prop where
  ends : js "END:BMSG" ++ crlf <:+ render ps
  nested : (outline key {} ps).nested = true ∧ (outline key {} ps).stack = []
  addresses : (outline key {} ps).addresses = recipients

/-- A list of recipients has a name for each of them. -/
def Named (name addresses : Option JString) : Prop :=
  ∀ list ∈ addresses, 59 ∈ list →
    ∃ names ∈ name, (split 59 list).length ≤ (split 59 names).length

/-! ### Outlines of the parts -/

section Outlines

variable {key : String}

theorem outline_append (key : String) (o : Outline) (ps qs : List Piece) :
    outline key o (ps ++ qs) = outline key (outline key o ps) qs := List.foldl_append

theorem outline_cons (key : String) (o : Outline) (p : Piece) (ps : List Piece) :
    outline key o (p :: ps) = outline key (o.next key p) ps := rfl

theorem outline_nil (key : String) (o : Outline) : outline key o [] = o := rfl

/-- A line with another key. -/
theorem outline_field_ne {k : String} (h : k ≠ key) (o : Outline) (value : Option JString) :
    outline key o (field k value) = o := by
  cases value with
  | none => rfl
  | some v => exact if_neg h

/-- The line with the address. -/
theorem outline_field_self (key : String) (stack : List Block) (nested : Bool)
    (addresses : List (Option JString)) (value : Option JString) :
    outline key ⟨stack, nested, none, addresses⟩ (field key value) =
      ⟨stack, nested, value, addresses⟩ := by
  cases value with
  | none => rfl
  | some v => exact if_pos rfl

/-- In the envelope, with the recipients that have been written. -/
def envelope (addresses : List (Option JString)) : Outline :=
  ⟨[.BENV, .BMSG], true, none, addresses⟩

/-- Each vCard in the envelope is a recipient. -/
def WritesRecipient (key : String)
    (card : Option JString → Option JString → Option JString → List Piece) : Prop :=
  ∀ version name address addresses,
    outline key (envelope addresses) (card version name address) = envelope (addresses ++ [address])

theorem outline_cardStart (h : "VERSION" ≠ key) (o : Outline) (version : Option JString) :
    outline key o (cardStart version) = { o with stack := .VCARD :: o.stack, address := none } := by
  rw [cardStart, outline_cons, outline_field_ne h]
  rfl

theorem writesRecipient_cardMMS : WritesRecipient "TEL" cardMMS := by
  intro version name address addresses
  rw [cardMMS, outline_append, outline_append, outline_append, outline_cardStart (by decide),
    outline_field_ne (k := "N") (by decide)]
  simp only [envelope, outline_field_self]
  rfl

theorem writesRecipient_cardEmail : WritesRecipient "EMAIL" cardEmail := by
  intro version name address addresses
  rw [cardEmail, outline_append, outline_append, outline_append, outline_append, outline_append,
    outline_cardStart (by decide), outline_field_ne (k := "N") (by decide),
    outline_field_ne (k := "FN") (by decide)]
  show outline "EMAIL" (outline "EMAIL" ⟨[.VCARD, .BENV, .BMSG], true, none, addresses⟩
    (field "EMAIL" address)) _ = _
  rw [outline_field_self]
  rfl

/-- The loop writes a vCard for each address if there are enough names. -/
theorem cards_of_le {card : Option JString → Option JString → Option JString → List Piece}
    (hcard : WritesRecipient key card) (version : Option JString) {list names : List JString}
    (h : list.length ≤ names.length) (addresses : List (Option JString)) :
    (cards card version list names).stopped = false ∧
      outline key (envelope addresses) (cards card version list names).pieces =
        envelope (addresses ++ list.map some) := by
  induction list generalizing names addresses with
  | nil => exact ⟨rfl, by simp [cards, outline_nil]⟩
  | cons address list ih =>
    cases names with
    | nil => cases h
    | cons name names =>
      obtain ⟨hstopped, houtline⟩ := ih (Nat.le_of_succ_le_succ h) (addresses ++ [some address])
      refine ⟨hstopped, ?_⟩
      simp only [cards, outline_append, hcard version (some name) (some address) addresses,
        houtline]
      simp

/-- With fewer names than addresses the loop stops in the middle of a vCard. -/
theorem cards_of_lt {card : Option JString → Option JString → Option JString → List Piece}
    (hcard : WritesRecipient key card) (hkey : "VERSION" ≠ key) (version : Option JString)
    {list names : List JString} (h : names.length < list.length)
    (addresses : List (Option JString)) :
    (cards card version list names).stopped = true ∧
      (outline key (envelope addresses) (cards card version list names).pieces).stack =
        [.VCARD, .BENV, .BMSG] := by
  induction list generalizing names addresses with
  | nil => cases h
  | cons address list ih =>
    cases names with
    | nil =>
      refine ⟨rfl, ?_⟩
      rw [cards, outline_cardStart hkey]
      rfl
    | cons name names =>
      obtain ⟨hstopped, hstack⟩ := ih (Nat.lt_of_succ_lt_succ h) (addresses ++ [some address])
      refine ⟨hstopped, ?_⟩
      simp only [cards, outline_append, hcard version (some name) (some address) addresses, hstack]

end Outlines

/-! ### Complete texts -/

section WholeBmessage

variable {key : String} {card : Option JString → Option JString → Option JString → List Piece}

/-- The recipients are written, one for each entry, if they are named. -/
theorem recipients_of_named (hcard : WritesRecipient key card)
    (version : Option JString) {name addresses : Option JString} (h : Named name addresses) :
    (recipients card version name addresses).stopped = false ∧
      outline key (envelope []) (recipients card version name addresses).pieces =
        envelope (entries addresses) := by
  cases addresses with
  | none => exact ⟨rfl, hcard version name none []⟩
  | some list =>
    by_cases hmem : 59 ∈ list
    · obtain ⟨names, hname, hle⟩ := h list rfl hmem
      rw [Option.mem_def.1 hname]
      simp only [recipients, entries, hmem, if_true]
      exact cards_of_le hcard version hle []
    · simp only [recipients, entries, hmem, if_false, true_and]
      exact hcard version name (some list) []

/-- Otherwise the writer stops in the envelope. -/
theorem recipients_of_not_named (hcard : WritesRecipient key card) (hkey : "VERSION" ≠ key)
    (version : Option JString) {name addresses : Option JString} (h : ¬ Named name addresses) :
    (recipients card version name addresses).stopped = true ∧
      (outline key (envelope []) (recipients card version name addresses).pieces).stack ≠ [] := by
  rw [Named] at h
  push Not at h
  obtain ⟨list, hlist, hmem, hnames⟩ := h
  rw [Option.mem_def.1 hlist]
  simp only [recipients, hmem, if_true]
  cases name with
  | none => exact ⟨rfl, List.cons_ne_nil _ _⟩
  | some names =>
    obtain ⟨hstopped, hstack⟩ := cards_of_lt hcard hkey version (hnames names rfl) []
    refine ⟨hstopped, ?_⟩
    rw [hstack]
    exact List.cons_ne_nil _ _

theorem render_append (ps qs : List Piece) : render (ps ++ qs) = render ps ++ render qs :=
  List.flatMap_append

/-- A text that ends with the last lines. -/
theorem ends_closers (ps : List Piece) : js "END:BMSG" ++ crlf <:+ render (ps ++ closers) := by
  rw [render_append]
  refine List.IsSuffix.trans ?_ (List.suffix_append (render ps) (render closers))
  decide

/-- A writer whose first lines lead into the envelope, and whose last lines lead out of it. -/
theorem wholeBmessage_iff (hcard : WritesRecipient key card) (hkey : "VERSION" ≠ key)
    {version name addresses : Option JString} {front back : List Piece}
    (hfront : outline key {} front = envelope [])
    (hback : ∀ addresses, outline key (envelope addresses) (back ++ closers) =
      ⟨[], true, none, addresses⟩) :
    WholeBmessage key (front ++ (recipients card version name addresses).andThen (back ++ closers))
      (entries addresses) ↔ Named name addresses := by
  constructor
  · intro hcomplete
    by_contra hnamed
    obtain ⟨hstopped, hstack⟩ := recipients_of_not_named hcard hkey version hnamed
    have hempty := hcomplete.nested.2
    rw [Written.andThen, if_pos hstopped, outline_append, hfront] at hempty
    exact hstack hempty
  · intro hnamed
    obtain ⟨hstopped, houtline⟩ := recipients_of_named hcard version hnamed
    have hall : outline key {} (front ++
        (recipients card version name addresses).andThen (back ++ closers)) =
        ⟨[], true, none, entries addresses⟩ := by
      rw [Written.andThen, hstopped, if_neg Bool.false_ne_true, outline_append, outline_append,
        hfront, houtline, hback]
    refine ⟨?_, ⟨by rw [hall], by rw [hall]⟩, by rw [hall]⟩
    rw [Written.andThen, hstopped, if_neg Bool.false_ne_true, ← List.append_assoc,
      ← List.append_assoc]
    exact ends_closers _

/-- The lines before the envelope leave no block open, and no recipient. -/
theorem outline_header {bmsg : BmessageConsts} {originator : List Piece}
    (hkeys : "VERSION" ≠ key ∧ "STATUS" ≠ key ∧ "TYPE" ≠ key ∧ "FOLDER" ≠ key)
    (horiginator : outline key ⟨[.BMSG], true, none, []⟩ originator = ⟨[.BMSG], true, none, []⟩) :
    outline key {} (header bmsg originator ++ [.opens .BENV]) = envelope [] := by
  have hopen : outline key {} [.opens .BMSG] = ⟨[.BMSG], true, none, []⟩ := rfl
  simp only [header, outline_append, hopen, outline_field_ne hkeys.1, outline_field_ne hkeys.2.1,
    outline_field_ne hkeys.2.2.1, outline_field_ne hkeys.2.2.2, horiginator]
  rfl

theorem outline_lengthLine (h : "LENGTH" ≠ key) (o : Outline) (bmsg : BmessageConsts) :
    outline key o (lengthLine bmsg) = o := by
  rw [lengthLine]
  split_ifs
  · exact if_neg h
  · rfl

/-- The message and the last lines close the blocks that are open. -/
theorem outline_message (key : String) (bmsg : BmessageConsts) (addresses : List (Option JString)) :
    outline key ⟨[.BBODY, .BENV, .BMSG], true, none, addresses⟩ (messagePieces bmsg ++ closers) =
      ⟨[], true, none, addresses⟩ := by
  rw [messagePieces]
  cases bmsg.bodyMsg <;> rfl

end WholeBmessage

/-- **When a generated text is a complete bMessage**: exactly if the list of recipients has a name
for each of them. -/
theorem writers_complete_iff (b : BmessageConsts) :
    (WholeBmessage "TEL" (piecesMMS b) (entries b.recipientVcardPhoneNumber) ↔
      Named b.recipientVcardName b.recipientVcardPhoneNumber) ∧
    (WholeBmessage "EMAIL" (piecesEmail b) (entries b.recipientVcardEmail) ↔
      Named b.recipientVcardName b.recipientVcardEmail) := by
  constructor
  · refine wholeBmessage_iff writesRecipient_cardMMS (by decide) ?_ fun addresses => ?_
    · refine outline_header (by decide) ?_
      rw [cardMMS, outline_append, outline_append, outline_append, outline_cardStart (by decide),
        outline_field_ne (k := "N") (by decide), outline_field_self]
      rfl
    · have hbody : outline "TEL" (envelope addresses) (bodyMMS b) =
          ⟨[.BBODY, .BENV, .BMSG], true, none, addresses⟩ := by
        rw [bodyMMS, outline_append, outline_append, outline_append,
          outline_field_ne (k := "ENCODING") (by decide), outline_lengthLine (by decide)]
        rfl
      rw [List.append_assoc, outline_append, hbody, outline_message]
  · refine wholeBmessage_iff writesRecipient_cardEmail (by decide) ?_ fun addresses => ?_
    · refine outline_header (by decide) ?_
      have htel : outline "EMAIL" ⟨[.VCARD, .BMSG], true, none, []⟩ [.line "TEL" []] =
          ⟨[.VCARD, .BMSG], true, none, []⟩ := rfl
      simp only [outline_append, outline_cardStart (show "VERSION" ≠ "EMAIL" by decide),
        outline_field_ne (show "N" ≠ "EMAIL" by decide), htel, outline_field_self]
      rfl
    · have hbody : outline "EMAIL" (envelope addresses) (bodyEmail b) =
          ⟨[.BBODY, .BENV, .BMSG], true, none, addresses⟩ := by
        rw [bodyEmail, outline_append, outline_lengthLine (by decide)]
        rfl
      rw [List.append_assoc, outline_append, hbody, outline_message]

/-- Two recipients and one name. -/
def oneName : BmessageConsts where
  recipientVcardPhoneNumber := some (js "1;2")
  recipientVcardEmail := some (js "a@b.c;d@e.f")
  recipientVcardName := some (js "Doe")

/-- **The text ends in the middle of the second vCard.** -/
theorem oneName_incomplete :
    ¬ WholeBmessage "TEL" (piecesMMS oneName) (entries oneName.recipientVcardPhoneNumber) ∧
    ¬ WholeBmessage "EMAIL" (piecesEmail oneName) (entries oneName.recipientVcardEmail) ∧
    toBmessageMMS oneName = js "BEGIN:BMSG\r\nBEGIN:VCARD\r\nEND:VCARD\r\nBEGIN:BENV\r\n" ++
      js "BEGIN:VCARD\r\nN:Doe\r\nTEL:1\r\nEND:VCARD\r\nBEGIN:VCARD\r\n" := by
  refine ⟨fun h => absurd h.nested.2 (by decide), fun h => absurd h.nested.2 (by decide), ?_⟩
  decide

end Map

end Msm8909w
