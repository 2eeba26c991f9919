import Msm8909w.Map.BmessageMMS
import Msm8909w.Map.BmessageReaders

/-!
# The body of an MMS

`bldMMSBody` of `BluetoothMasAppSmsMms.java` puts the text of an MMS into a MIME message with one
part.  The boundary is drawn until the text does not have it in it.  `fetchBodyEmail` finds the part
by searching the whole message for an attribute, for two boundary lines and for an empty line.

* `bldMMSBody` : the code,
* `found_lines` : lines that do not have a word in them are passed over,
* `fetchBodyEmail_part` : what the reader makes of a message with one part,
* `fetchBodyEmail_bldMMSBody` : the text is read back, whatever it is.
-/

namespace Msm8909w

namespace Map

namespace MimeBody

/-! ### The code -/

/-- The boundary for a number that has been drawn. -/
def boundaryOf (randomInt : ℕ) : JString := js "MessageBoundary." ++ decimal randomInt

/-- The boundary is not in the text; `none` is `null`. -/
def suits (mmsMsgTxt : Option JString) (boundary : JString) : Bool :=
  match mmsMsgTxt with
  | some text => ¬ boundary <:+: text
  | none => true

/-- The first boundary that can be used, if it is drawn; `draws` is what `nextInt(1000)` returns one
time after the other. -/
def drawBoundary (mmsMsgTxt : Option JString) (draws : List ℕ) : Option JString :=
  (draws.map boundaryOf).find? (suits mmsMsgTxt)

/-- What is appended for a string. -/
def orNull (s : Option JString) : JString := s.getD (js "null")

/-- The MIME message. -/
def mimeBody (number text boundary : JString) : JString :=
  js "To:" ++ number ++ crlf ++
    js "Mime-Version: 1.0" ++ crlf ++
    js "Content-Type: multipart/mixed; boundary=\"" ++ boundary ++ js "\"" ++ crlf ++
    js "Content-Transfer-Encoding: 7bit" ++ crlf ++ crlf ++
    js "MIME Message" ++ crlf ++
    js "--" ++ boundary ++ crlf ++
    js "Content-Type: text/plain" ++ crlf ++
    js "Content-Transfer-Encoding: 8bit" ++ crlf ++
    js "Content-Disposition:inline" ++ crlf ++ crlf ++
    text ++ crlf ++
    js "--" ++ boundary ++ js "--" ++ crlf ++ crlf

/-- `bldMMSBody`, if a boundary that can be used is drawn; `mmsMsgTxt` is what `getMmsMsgTxt`
returns for the message. -/
def bldMMSBody (bMsg : BmessageConsts) (msgType : Bool) (mmsMsgTxt : Option JString)
    (draws : List ℕ) : Option JString :=
  if msgType then
    (drawBoundary mmsMsgTxt draws).map fun boundary =>
      mimeBody (orNull bMsg.recipientVcardPhoneNumber) (orNull mmsMsgTxt) boundary
  else
    some (js "Subject:" ++ js "Not Implemented" ++ crlf ++
      js "From:" ++ orNull bMsg.originatorVcardPhoneNumber ++ crlf ++
      orNull mmsMsgTxt ++ crlf ++ crlf)

/-! ### Searches from line to line -/

section Lines

variable {w s pre post : JString}

/-- Lines with their ends. -/
def joinLines (lines : List JString) : JString := lines.flatMap fun l => l ++ crlf

theorem found_lines (h13 : 13 ∉ w) (h10 : 10 ∉ w) (hne : w ≠ []) {lines : List JString}
    (hlines : ∀ l ∈ lines, ¬ w <:+: l) (h : Found w s pre post) :
    Found w (joinLines lines ++ s) (joinLines lines ++ pre) post := by
  induction lines with
  | nil => exact h
  | cons l lines ih =>
    have hrest := ih fun l' hl' => hlines l' (List.mem_cons_of_mem l hl')
    have hline := found_lineEnd h13 h10 hne (hlines l List.mem_cons_self) hrest
    simpa only [joinLines, List.flatMap_cons, List.append_assoc] using hline

/-- A word none of whose characters is in the first part of a text. -/
theorem infix_right_of_notMem {a : JString} (hw : ∀ c ∈ w, c ∉ a) (hne : w ≠ [])
    (h : w <:+: a ++ s) : w <:+: s := by
  induction a with
  | nil => exact h
  | cons d a ih =>
    rw [List.cons_append, List.infix_cons_iff] at h
    rcases h with hprefix | hinfix
    · obtain ⟨c, w, rfl⟩ := List.exists_cons_of_ne_nil hne
      obtain ⟨rfl, -⟩ := List.cons_prefix_cons.1 hprefix
      exact absurd List.mem_cons_self (hw c List.mem_cons_self)
    · exact ih (fun c hc hmem => hw c hc (List.mem_cons_of_mem d hmem)) hinfix

/-- A word none of whose characters is in the last part of a text. -/
theorem infix_left_of_notMem {b : JString} (hw : ∀ c ∈ w, c ∉ b) (hne : w ≠ [])
    (h : w <:+: s ++ b) : w <:+: s := by
  rw [← List.reverse_infix, List.reverse_append] at h
  rw [← List.reverse_infix]
  refine infix_right_of_notMem ?_ (by simpa using hne) h
  simpa using hw

end Lines

/-! ### A message with one part -/

section Part

variable {s front boundary head text rest : JString}

theorem found_crlf {line : JString} (h : 13 ∉ line) (rest : JString) :
    Found crlf (line ++ crlf ++ rest) line rest := by
  have hmark := found_mark (V := [10]) h rest
  simpa [crlf] using hmark

/-- The text ends where the line with the last boundary begins. -/
theorem found_endBoundary (hcr : 13 ∉ boundary) (hlf : 10 ∉ boundary) (htext : ¬ boundary <:+: text)
    (rest : JString) :
    Found (dashes (some boundary) ++ js "--")
      (text ++ crlf ++ (dashes (some boundary) ++ js "--" ++ rest)) (text ++ crlf) rest := by
  have hmark : boundary <:+: dashes (some boundary) ++ js "--" :=
    ⟨js "--", js "--", rfl⟩
  have h13 : 13 ∉ dashes (some boundary) ++ js "--" := by
    simp [dashes, js, hcr]
  have h10 : 10 ∉ dashes (some boundary) ++ js "--" := by
    simp [dashes, js, hlf]
  have hline := found_lineEnd h13 h10 (by simp [js]) (fun h => htext (hmark.trans h))
    (found_here (dashes (some boundary) ++ js "--") rest)
  simpa only [List.append_nil] using hline

/-- The empty line at the end of a header is found. -/
theorem emptyLine_header (hstart : ¬ crlf <+: head ++ crlf)
    (hhead : Found (crlf ++ crlf) (head ++ crlf ++ crlf) head []) (rest : JString) :
    emptyLine (head ++ crlf ++ crlf ++ rest) = some (head.length + 2) := by
  have hlen : crlf.length ≤ (head ++ crlf).length := by simp [crlf]
  have hnot : ¬ crlf <+: head ++ crlf ++ crlf ++ rest := by
    rw [List.append_assoc _ crlf]
    exact fun h => hstart (List.prefix_of_prefix_length_le h (List.prefix_append _ _) hlen)
  rw [emptyLine_eq, blankLine, if_neg hnot, (hhead.append rest).index]
  rfl

/-- What stands before the last boundary is cut out. -/
theorem bodyFrom_part {start : ℕ} (hne : boundary ≠ []) (hcr : 13 ∉ boundary) (hlf : 10 ∉ boundary)
    (htext : ¬ boundary <:+: text)
    (hs : s.drop start = text ++ crlf ++ (dashes (some boundary) ++ js "--" ++ rest)) :
    bodyFrom s (some boundary) false start = .ok text := by
  have hhas : hasBoundary (some boundary) = true := by simp [hasBoundary, hne]
  have hindex : indexOf s (dashes (some boundary) ++ js "--") start =
      (start + (text ++ crlf).length : ℕ) := by
    rw [indexOf, Int.toNat_natCast, hs, (found_endBoundary hcr hlf htext rest).index]
    exact (Nat.cast_add _ _).symm
  have hcut : substring s start ((start + (text ++ crlf).length : ℕ) - crlf.length) =
      .ok text := by
    have hcrlf : crlf.length = 2 := rfl
    have hlen := congrArg List.length hs
    rw [List.length_drop, List.length_append, List.length_append] at hlen
    rw [List.length_append, substring, if_neg (by omega), Int.toNat_natCast, hs, List.append_assoc]
    exact congrArg Except.ok (List.take_left' (by omega))
  rw [bodyFrom, if_pos rfl, if_neg (by rw [hhas]; decide), hindex]
  dsimp only
  rw [hcut]
  rfl

/-- **A message with one part**: the reader returns its text if the text does not have the boundary
in it. -/
theorem fetchBodyEmail_part
    (hs : s = front ++ (dashes (some boundary) ++ crlf ++ (head ++ crlf ++ crlf ++
      (text ++ crlf ++ (dashes (some boundary) ++ js "--" ++ rest)))))
    (hboundary : fetchBoundary s = .ok (some boundary)) (hne : boundary ≠ [])
    (hcr : 13 ∉ boundary) (hlf : 10 ∉ boundary)
    (hfront : indexOf s (dashes (some boundary)) 0 = (front.length : ℕ))
    (htype : isRfc822 s (some boundary) = .ok false) (hstart : ¬ crlf <+: head ++ crlf)
    (hhead : Found (crlf ++ crlf) (head ++ crlf ++ crlf) head [])
    (htext : ¬ boundary <:+: text) : fetchBodyEmail s = .ok text := by
  have hhas : hasBoundary (some boundary) = true := by simp [hasBoundary, hne]
  have hheader : headerStart s (some boundary) = (front.length : ℕ) := by
    rw [headerStart, if_pos hhas, hfront]
  have h13 : 13 ∉ dashes (some boundary) := by
    simp [dashes, js, hcr]
  generalize hbody : text ++ crlf ++ (dashes (some boundary) ++ js "--" ++ rest) = body at hs
  -- the empty line is the one behind the header of the part
  have hend : indexOf s crlf (front.length : ℕ) =
      (front.length + (dashes (some boundary)).length : ℕ) := by
    rw [hs, Nat.cast_add]
    exact indexOf_append (found_crlf h13 _)
  have hdrop : s.drop (front.length + (dashes (some boundary)).length + 2) =
      head ++ crlf ++ crlf ++ body := by
    rw [hs, Nat.add_assoc, ← List.drop_drop, List.drop_left]
    exact List.drop_left' (by simp [crlf])
  have hempty := emptyLine_header hstart hhead body
  rw [← hdrop] at hempty
  generalize hpos : front.length + (dashes (some boundary)).length = pos at hend hdrop hempty
  -- the text is between this line and the last boundary
  have hbehind : s.drop (pos + 2 + (head.length + 2) + 2) = body := by
    rw [Nat.add_assoc (pos + 2), ← List.drop_drop, hdrop]
    exact List.drop_left' (by simp [crlf])
  have hfrom := bodyFrom_part hne hcr hlf htext (hbehind.trans hbody.symm)
  have hstart : indexOf s crlf (headerStart s (some boundary)) + crlf.length = (pos + 2 : ℕ) := by
    rw [hheader, hend]
    rfl
  rw [fetchBodyEmail, hboundary]
  dsimp only [Bind.bind, Except.bind]
  rw [htype]
  dsimp only
  rw [hstart, Int.toNat_natCast, hempty]
  exact hfrom

end Part

/-! ### The message of an MMS -/

/-- A text that can stand in a line of the header. -/
structure HeaderText (t : JString) : Prop where
  noCr : 13 ∉ t
  noLf : 10 ∉ t
  noQuote : 34 ∉ t
  noDashes : ¬ js "--" <:+: t

/-- The text that the body is read from. -/
def message (date body : JString) : JString :=
  js "BEGIN:MSG" ++ crlf ++ js "Date: " ++ date ++ crlf ++ body ++ crlf ++ js "END:MSG"

/-- The lines before the part. -/
def headerLines (date number boundary : JString) : List JString :=
  [js "BEGIN:MSG", js "Date: " ++ date, js "To:" ++ number, js "Mime-Version: 1.0",
    js "Content-Type: multipart/mixed; boundary=\"" ++ boundary ++ js "\"",
    js "Content-Transfer-Encoding: 7bit", [], js "MIME Message"]

/-- The header of the part. -/
def partHeader : JString :=
  js "Content-Type: text/plain" ++ crlf ++ js "Content-Transfer-Encoding: 8bit" ++ crlf ++
    js "Content-Disposition:inline"

section Message

variable {date number text boundary s : JString}

theorem found_partHeader : Found (crlf ++ crlf) (partHeader ++ crlf ++ crlf) partHeader [] :=
  ⟨by simp, by decide⟩

theorem message_eq (date number text boundary : JString) :
    message date (mimeBody number text boundary) =
      joinLines (headerLines date number boundary) ++ (dashes (some boundary) ++ crlf ++
        (partHeader ++ crlf ++ crlf ++ (text ++ crlf ++ (dashes (some boundary) ++ js "--" ++
          (crlf ++ crlf ++ crlf ++ js "END:MSG"))))) := by
  unfold message mimeBody partHeader headerLines joinLines dashes
  simp only [List.flatMap_cons, List.flatMap_nil, Option.getD_some, List.append_assoc,
    List.nil_append]

theorem notMem_boundaryOf {c : UInt16} (n : ℕ) (hword : c ∉ js "MessageBoundary.")
    (hdigits : c.toNat < 48 ∨ 57 < c.toNat) : c ∉ boundaryOf n := by
  rw [boundaryOf, List.mem_append, not_or]
  refine ⟨hword, fun hc => ?_⟩
  rcases Nat.eq_zero_or_pos n with rfl | hpos
  · obtain rfl : c = 48 := by simpa [decimal] using hc
    exact absurd hdigits (by decide)
  · have hrange := mem_decimal (Int.natCast_nonneg _) hc
    omega

theorem boundaryOf_ne_nil (n : ℕ) : boundaryOf n ≠ [] := by
  simp [boundaryOf, js]

/-- There are no two dashes before the part. -/
theorem noDashes_headerLines (hdate : HeaderText date) (hnumber : HeaderText number)
    (hboundary : 45 ∉ boundary) :
    ∀ l ∈ headerLines date number boundary, ¬ js "--" <:+: l := by
  have hne : js "--" ≠ [] := by decide
  have hdash : ∀ t : JString, 45 ∉ t → ∀ c ∈ js "--", c ∉ t := by
    intro t ht c hc
    obtain rfl : c = 45 := by simpa [js] using hc
    exact ht
  have hconst : ∀ t : JString, firstIndex (js "--") t = none → ¬ js "--" <:+: t :=
    fun t ht => firstIndex_eq_none.1 ht
  simp only [headerLines, List.forall_mem_cons, List.not_mem_nil, false_imp_iff, implies_true,
    and_true]
  refine ⟨hconst _ rfl, ?_, ?_, hconst _ rfl, ?_, hconst _ rfl, hconst _ rfl, hconst _ rfl⟩
  · exact fun h => hdate.noDashes (infix_right_of_notMem (hdash _ (by decide)) hne h)
  · exact fun h => hnumber.noDashes (infix_right_of_notMem (hdash _ (by decide)) hne h)
  · intro h
    have hfront := infix_left_of_notMem (hdash _ (by decide)) hne h
    exact hconst _ rfl (infix_left_of_notMem (hdash _ hboundary) hne hfront)

/-- What stands before the attribute with the boundary. -/
def beforeBoundary (date number : JString) : JString :=
  joinLines [js "BEGIN:MSG", js "Date: " ++ date, js "To:" ++ number, js "Mime-Version: 1.0"] ++
    js "Content-Type: multipart/mixed; "

theorem message_eq_boundary (date number text boundary : JString) :
    ∃ rest, message date (mimeBody number text boundary) =
      beforeBoundary date number ++ js "boundary=" ++ 34 :: (boundary ++ 34 :: rest) := by
  refine ⟨crlf ++ joinLines [js "Content-Transfer-Encoding: 7bit", [], js "MIME Message"] ++
    (dashes (some boundary) ++ crlf ++ (partHeader ++ crlf ++ crlf ++ (text ++ crlf ++
      (dashes (some boundary) ++ js "--" ++ (crlf ++ crlf ++ crlf ++ js "END:MSG"))))), ?_⟩
  have hattribute : js "Content-Type: multipart/mixed; boundary=\"" =
      js "Content-Type: multipart/mixed; " ++ (js "boundary=" ++ [34]) := by decide
  have hquote : js "\"" = [34] := by decide
  rw [message_eq]
  unfold headerLines joinLines beforeBoundary joinLines
  simp only [hattribute, hquote, List.flatMap_cons, List.flatMap_nil, List.append_assoc,
    List.nil_append, List.cons_append]

theorem fetchBoundary_message (hdate : HeaderText date) (hnumber : HeaderText number) (n : ℕ)
    (text : JString) :
    fetchBoundary (message date (mimeBody number text (boundaryOf n))) =
      .ok (some (boundaryOf n)) := by
  have hquote := notMem_boundaryOf (c := 34) n (by decide) (by decide)
  obtain ⟨rest, heq⟩ := message_eq_boundary date number text (boundaryOf n)
  have hmark : 34 ∉ beforeBoundary date number := by
    have h1 := hdate.noQuote
    have h2 := hnumber.noQuote
    simp [beforeBoundary, joinLines, crlf, js, h1, h2]
  have hpos : 0 < (0 : ℤ).toNat + (beforeBoundary date number).length := by
    simp [beforeBoundary, joinLines, js]
  have hkey := Found.here (V := []) (by decide : 34 ∉ js "boundary=") hmark
    (boundaryOf n ++ 34 :: rest)
  rw [List.nil_append, ← heq] at hkey
  exact valueBehind_found ⟨hkey, hpos⟩ (by decide) (found_mark hquote rest)

theorem indexOf_dashes (hdate : HeaderText date) (hnumber : HeaderText number) (n : ℕ)
    (text : JString) :
    indexOf (message date (mimeBody number text (boundaryOf n))) (dashes (some (boundaryOf n))) 0 =
      ((joinLines (headerLines date number (boundaryOf n))).length : ℕ) := by
  have h13 := notMem_boundaryOf (c := 13) n (by decide) (by decide)
  have h10 := notMem_boundaryOf (c := 10) n (by decide) (by decide)
  have h45 := notMem_boundaryOf (c := 45) n (by decide) (by decide)
  have hdashes : js "--" <:+: dashes (some (boundaryOf n)) :=
    (List.prefix_append _ _).isInfix
  have hlines : ∀ l ∈ headerLines date number (boundaryOf n),
      ¬ dashes (some (boundaryOf n)) <:+: l := fun l hl h =>
    noDashes_headerLines hdate hnumber h45 l hl (hdashes.trans h)
  have hfound := found_lines (by simp [dashes, js, h13]) (by simp [dashes, js, h10])
    (by simp [dashes, js]) hlines (found_here (dashes (some (boundaryOf n))) (crlf ++
      (partHeader ++ crlf ++ crlf ++ (text ++ crlf ++ (dashes (some (boundaryOf n)) ++ js "--" ++
        (crlf ++ crlf ++ crlf ++ js "END:MSG"))))))
  rw [message_eq, List.append_assoc (dashes _), indexOf_zero hfound, List.append_nil]

/-- The content type is looked for behind the boundary line, and is that of the part. -/
theorem found_contentType {w rest : JString} (n : ℕ) (h13 : 13 ∉ w) (h10 : 10 ∉ w) (hC : 67 ∈ w)
    (part : JString) (hpart : part = w ++ rest) :
    Found w (dashes (some (boundaryOf n)) ++ crlf ++ part) (dashes (some (boundaryOf n)) ++ crlf)
      rest := by
  have hword : 67 ∉ dashes (some (boundaryOf n)) := by
    have hC := notMem_boundaryOf (c := 67) n (by decide) (by decide)
    simp [dashes, js, hC]
  have hne : w ≠ [] := List.ne_nil_of_mem hC
  have hfound := found_lineEnd h13 h10 hne (fun h => hword (h.subset hC)) (found_here w rest)
  rw [hpart]
  simpa only [List.append_nil] using hfound

/-- The content of the part is not a message itself. -/
theorem isRfc822_message (hdate : HeaderText date) (hnumber : HeaderText number) (n : ℕ)
    (text : JString) :
    isRfc822 (message date (mimeBody number text (boundaryOf n))) (some (boundaryOf n)) =
      .ok false := by
  have hhas : hasBoundary (some (boundaryOf n)) = true := by
    simp [hasBoundary, boundaryOf_ne_nil]
  have hdashes := indexOf_dashes hdate hnumber n text
  rw [isRfc822, headerStart, if_pos hhas, fetchContentType, hdashes, message_eq]
  generalize hfront : joinLines (headerLines date number (boundaryOf n)) = front
  obtain ⟨rest, hrest⟩ : ∃ rest, partHeader ++ crlf ++ crlf ++ (text ++ crlf ++
      (dashes (some (boundaryOf n)) ++ js "--" ++ (crlf ++ crlf ++ crlf ++ js "END:MSG"))) =
        js "Content-Type:" ++ (js " text/plain" ++ crlf ++ rest) := by
    have htype : js "Content-Type: text/plain" = js "Content-Type:" ++ js " text/plain" := by decide
    unfold partHeader
    rw [htype]
    simp only [List.append_assoc]
    exact ⟨_, rfl⟩
  rw [hrest]
  have hkey : Found (js "Content-Type:") (dashes (some (boundaryOf n)) ++ crlf ++
      (js "Content-Type:" ++ (js " text/plain" ++ crlf ++ rest))) _ _ :=
    found_contentType n (by decide) (by decide) (by decide) _ rfl
  have hword : Found (js "Content-Type") (dashes (some (boundaryOf n)) ++ crlf ++
      (js "Content-Type:" ++ (js " text/plain" ++ crlf ++ rest))) _
        (js ":" ++ (js " text/plain" ++ crlf ++ rest)) :=
    found_contentType n (by decide) (by decide) (by decide) _ rfl
  generalize js "Content-Type:" ++ (js " text/plain" ++ crlf ++ rest) = part at hkey hword ⊢
  have hlen : 0 < front.length + (dashes (some (boundaryOf n)) ++ crlf).length := by
    rw [List.length_append, crlf]
    simp
  have hpos : indexOf (front ++ (dashes (some (boundaryOf n)) ++ crlf ++ part))
      (js "Content-Type") (front.length : ℕ) > 0 := by
    rw [indexOf_append hword]
    omega
  have hline : Found crlf (js " text/plain" ++ crlf ++ rest) _ rest := found_crlf (by decide) rest
  have hvalue : valueBehind (front ++ (dashes (some (boundaryOf n)) ++ crlf ++ part))
      (js "Content-Type:") crlf (front.length : ℕ) none = .ok (some (js " text/plain")) :=
    valueBehind_found ⟨by simpa using hkey, by simpa using hlen⟩ (by decide) hline
  rw [if_pos hpos, hvalue]
  decide

end Message

/-- **The text of an MMS is read back from its MIME body**, whatever it is: if a boundary is drawn
that the text does not have in it, `bldMMSBody` returns, and `fetchBodyEmail` finds exactly the text
in the message. -/
theorem fetchBodyEmail_bldMMSBody {date number text : JString} {draws : List ℕ}
    {bMsg : BmessageConsts} (hdate : HeaderText date) (hnumber : HeaderText number)
    (hrecipient : bMsg.recipientVcardPhoneNumber = some number)
    (hdraws : ∃ n ∈ draws, ¬ boundaryOf n <:+: text) :
    ∃ body, bldMMSBody bMsg true (some text) draws = some body ∧
      fetchBodyEmail (message date body) = .ok text := by
  obtain ⟨boundary, hdraw⟩ : ∃ boundary, drawBoundary (some text) draws = some boundary := by
    obtain ⟨n, hn, htext⟩ := hdraws
    rw [← Option.isSome_iff_exists, drawBoundary, List.find?_isSome]
    exact ⟨boundaryOf n, List.mem_map_of_mem hn, by simpa [suits] using htext⟩
  have htext : ¬ boundary <:+: text := by
    have hsuits := List.find?_some hdraw
    simpa [suits] using hsuits
  obtain ⟨n, -, rfl⟩ := List.mem_map.1 (List.mem_of_find?_eq_some hdraw)
  refine ⟨mimeBody number text (boundaryOf n), ?_, ?_⟩
  · rw [bldMMSBody, if_pos rfl, hdraw, hrecipient]
    rfl
  · exact fetchBodyEmail_part (message_eq date number text (boundaryOf n))
      (fetchBoundary_message hdate hnumber n text) (boundaryOf_ne_nil n)
      (notMem_boundaryOf n (by decide) (by decide)) (notMem_boundaryOf n (by decide) (by decide))
      (indexOf_dashes hdate hnumber n text) (isRfc822_message hdate hnumber n text)
      (by decide) found_partHeader htext

/-- A text that looks like the message around it. -/
def sampleText : JString :=
  crlf ++ js "--MessageBoundary.7" ++ crlf ++ js "Content-Type: message/rfc822" ++ crlf ++ crlf ++
    js "Date: END" ++ crlf

theorem fetchBodyEmail_sampleText :
    ∃ body, bldMMSBody { recipientVcardPhoneNumber := some (js "+49123") } true (some sampleText)
      [7, 12] = some body ∧ fetchBodyEmail (message (js "Sat, 1 Jan") body) = .ok sampleText :=
  fetchBodyEmail_bldMMSBody
    ⟨by decide, by decide, by decide, firstIndex_eq_none.1 (by decide)⟩
    ⟨by decide, by decide, by decide, firstIndex_eq_none.1 (by decide)⟩ rfl
    ⟨12, by decide, firstIndex_eq_none.1 (by decide)⟩


end MimeBody

end Map

end Msm8909w
