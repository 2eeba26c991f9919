import Msm8909w.Map.BmessageReaders
import Msm8909w.Map.BmessageWriters

/-!
# An MMS as a bMessage, and back

What `fromBmessageMMS` finds in the text `toBmessageMMS` has written.  The values of the header have
no line end and no colon in them, so a keyword is found where the writer has put it (`found_pieces`,
`found_start`).  The reader searches for the first end tag behind the begin tag, and the message may
have one in it.

* `fetchRecipientVcard_mms` : the vCard that is handed to the parser,
* `fieldsReadable_mms` : the fields,
* `fetchBodyMsgMMS_first` : the body ends at the first end tag,
* `mmsBody_kept_iff` : exactly when the body comes back.
-/

namespace Msm8909w

namespace Map

/-! ### Lines that are passed over -/

/-- A line that is not the one of the keyword `W:V`. -/
def Skips (W V : JString) : Piece → Prop
  | .opens block => ¬ (W <:+ js "BEGIN" ∧ V <+: block.tag)
  | .closes block => ¬ (W <:+ js "END" ∧ V <+: block.tag)
  | .line k v => Clean (js k) ∧ Clean v ∧ ¬ (W <:+ js k ∧ V <+: v)
  | .text _ => False

instance (W V : JString) : DecidablePred (Skips W V)
  | .opens _ => inferInstanceAs (Decidable (¬ _))
  | .closes _ => inferInstanceAs (Decidable (¬ _))
  | .line _ _ => inferInstanceAs (Decidable (_ ∧ _ ∧ _))
  | .text _ => inferInstanceAs (Decidable False)

section Skips

variable {W V s pre post : JString} {p : Piece}

theorem clean_tag (block : Block) : Clean block.tag := by
  cases block <;> decide

/-- Such a line has one colon. -/
theorem Skips.split (h : Skips W V p) : ∃ K v, p.render = K ++ mark :: v ++ crlf ∧ Clean K ∧
    Clean v ∧ ¬ (W <:+ K ∧ V <+: v) := by
  cases p with
  | opens block => exact ⟨js "BEGIN", block.tag, rfl, by decide, clean_tag block, h⟩
  | closes block => exact ⟨js "END", block.tag, rfl, by decide, clean_tag block, h⟩
  | line k v =>
    refine ⟨js k, v, ?_, h⟩
    have hcolon : js ":" = [mark] := by decide
    rw [Piece.render, hcolon, List.append_assoc (js k)]
    rfl
  | text msg => exact h.elim

theorem skips_field {k : String} (hk : Clean (js k) ∧ ¬ W <:+ js k) {value : Option JString}
    (hv : ∀ v ∈ value, Clean v) : ∀ p ∈ field k value, Skips W V p := by
  cases value with
  | none => exact nofun
  | some v =>
    intro p hp
    rw [field, List.mem_singleton] at hp
    rw [hp]
    exact ⟨hk.1, hv v rfl, fun h => hk.2 h.1⟩

theorem render_cons (p : Piece) (ps : List Piece) : render (p :: ps) = p.render ++ render ps := rfl

theorem clean_mark_append (hW : Clean W) (hV : Clean V) :
    13 ∉ W ++ mark :: V ∧ 10 ∉ W ++ mark :: V := by
  have h13 : (13 : UInt16) ≠ mark := by decide
  have h10 : (10 : UInt16) ≠ mark := by decide
  simp only [List.mem_append, List.mem_cons, not_or]
  exact ⟨⟨hW.1, h13, hV.1⟩, ⟨hW.2.1, h10, hV.2.1⟩⟩

/-- The end of a line is passed over. -/
theorem found_lineEnd {w l : JString} (h13 : 13 ∉ w) (h10 : 10 ∉ w) (hne : w ≠ [])
    (hl : ¬ w <:+: l) (h : Found w s pre post) :
    Found w (l ++ crlf ++ s) (l ++ crlf ++ pre) post := by
  have hnil : ¬ w <:+: [] := fun h => hne (List.infix_nil.1 h)
  have hlf : Found w (10 :: s) (10 :: pre) post := h.past h10 hne hnil
  simpa [crlf] using hlf.past h13 hne hl

/-- Lines are passed over. -/
theorem found_pieces {ps : List Piece} (hps : ∀ p ∈ ps, Skips W V p) (hW : Clean W) (hV : Clean V)
    (h : Found (W ++ mark :: V) s pre post) :
    Found (W ++ mark :: V) (render ps ++ s) (render ps ++ pre) post := by
  induction ps with
  | nil => exact h
  | cons p ps ih =>
    obtain ⟨K, v, hrender, hK, hv, hmiss⟩ := (hps p List.mem_cons_self).split
    have hrest := ih fun q hq => hps q (List.mem_cons_of_mem p hq)
    have hline : ¬ W ++ mark :: V <:+: K ++ mark :: v := by
      rw [infix_mark_iff hK.2.2 hv.2.2]
      exact hmiss
    obtain ⟨h13, h10⟩ := clean_mark_append hW hV
    have hfound := found_lineEnd h13 h10 (by simp) hline hrest
    rw [render_cons, hrender]
    simpa only [List.append_assoc] using hfound

/-- A line that starts with a keyword is found at the end of the line before it. -/
theorem found_start {ps : List Piece} (hne : ps ≠ []) (hps : ∀ p ∈ ps, Skips W V p) (hV : Clean V)
    (hW : Clean W) :
    ∃ front, render ps = front ++ crlf ∧ Found (crlf ++ (W ++ mark :: V))
      (render ps ++ (W ++ mark :: V ++ s)) front s := by
  induction ps with
  | nil => exact absurd rfl hne
  | cons p ps ih =>
    obtain ⟨K, v, hrender, hK, hv, -⟩ := (hps p List.mem_cons_self).split
    have h13 : 13 ∉ K ++ mark :: v := (clean_mark_append hK hv).1
    cases ps with
    | nil =>
      have h := found_mark (c := 13) (V := 10 :: (W ++ mark :: V)) h13 s
      refine ⟨K ++ mark :: v, by simp [render, hrender], ?_⟩
      simpa [render, hrender, crlf] using h
    | cons q ps =>
      obtain ⟨front, hfront, hfound⟩ := ih (List.cons_ne_nil q ps)
        fun r hr => hps r (List.mem_cons_of_mem p hr)
      obtain ⟨K', v', hrender', hK', hv', hmiss⟩ :=
        (hps q (List.mem_cons_of_mem p List.mem_cons_self)).split
      set rest := render (q :: ps) ++ (W ++ mark :: V ++ s) with hrest
      -- the next line starts with another key, or another value
      have hnext : ¬ W ++ mark :: V <+: rest := by
        rw [hrest, render_cons, hrender', List.append_assoc, List.append_assoc, List.append_assoc,
          List.cons_append, prefix_mark_iff hW.2.2 hK'.2.2, crlf, List.cons_append,
          prefix_append_cons_iff hV.1]
        rintro ⟨rfl, hv'⟩
        exact hmiss ⟨List.suffix_rfl, hv'⟩
      have hlf : Found (13 :: 10 :: (W ++ mark :: V)) (10 :: rest) (10 :: front) s := by
        refine ⟨by simp [hfound.eq, crlf], ?_⟩
        have hindex := hfound.index
        rw [firstIndex, if_neg (by simp)]
        simp only [crlf, List.cons_append, List.nil_append] at hindex
        rw [hindex]
        rfl
      have hskip :=
        @Found.skip UInt16 _ 13 [] (10 :: (W ++ mark :: V)) (K ++ mark :: v) (10 :: rest)
        _ _ List.not_mem_nil h13 (fun h => hnext (List.cons_prefix_cons.1 h.2).2) hlf
      refine ⟨K ++ mark :: v ++ crlf ++ front, ?_, ?_⟩
      · rw [render_cons, hrender, hfront]
        simp
      · rw [render_cons, hrender]
        simpa [crlf, hrest] using hskip

end Skips

/-! ### The text of an MMS -/

/-- The fields of the header that are written have no line end and no colon in them; a field may be
null. -/
structure MmsHeaderClean (b : BmessageConsts) : Prop where
  bmsgVersion : ∀ v ∈ b.bmsgVersion, Clean v
  status : ∀ v ∈ b.status, Clean v
  type : ∀ v ∈ b.type, Clean v
  folder : ∀ v ∈ b.folder, Clean v
  vcardVersion : ∀ v ∈ b.vcardVersion, Clean v
  originatorName : ∀ v ∈ b.originatorVcardName, Clean v
  originatorNumber : ∀ v ∈ b.originatorVcardPhoneNumber, Clean v
  recipientName : ∀ v ∈ b.recipientVcardName, Clean v
  recipientNumber : ∀ v ∈ b.recipientVcardPhoneNumber, Clean v
  encoding : ∀ v ∈ b.bodyEncoding, Clean v

/-- The lines before the envelope. -/
def headerMMS (b : BmessageConsts) : List Piece :=
  header b (cardMMS b.vcardVersion b.originatorVcardName b.originatorVcardPhoneNumber)

/-- The lines of the recipient before the end of the vCard. -/
def recipientLines (b : BmessageConsts) : List Piece :=
  cardStart b.vcardVersion ++ field "N" b.recipientVcardName ++
    field "TEL" b.recipientVcardPhoneNumber

/-- The lines of the body before the length. -/
def bodyLines (b : BmessageConsts) : List Piece :=
  [.opens .BBODY, .line "PARTID" (js "26988")] ++ field "ENCODING" b.bodyEncoding ++
    [.line "CHARSET" (js "UTF-8"), .line "LANGUAGE" []]

/-- The lines before the length. -/
def beforeLength (b : BmessageConsts) : List Piece :=
  headerMMS b ++ [.opens .BENV] ++ recipientLines b ++ [.closes .VCARD] ++ bodyLines b

section Text

variable {b : BmessageConsts} {msg W V : JString}

/-- The pieces of an MMS with one recipient, a length and a message. -/
theorem piecesMMS_eq (hnumber : ∀ number ∈ b.recipientVcardPhoneNumber, 59 ∉ number)
    (hlen : 0 < b.bodyLength) (hmsg : b.bodyMsg = some msg) :
    piecesMMS b = beforeLength b ++ [.line "LENGTH" (decimal b.bodyLength)] ++
      ([.opens .MSG, .text msg, .closes .MSG] ++ closers) := by
  have hrecipients : recipients cardMMS b.vcardVersion b.recipientVcardName
      b.recipientVcardPhoneNumber = ⟨recipientLines b ++ [.closes .VCARD], false⟩ := by
    cases h : b.recipientVcardPhoneNumber with
    | none => simp only [recipients, recipientLines, cardMMS, h]
    | some number =>
      have hmem : 59 ∉ number := hnumber number h
      simp only [recipients, hmem, if_false, recipientLines, cardMMS, h]
  have hlength : lengthLine b = [.line "LENGTH" (decimal b.bodyLength)] := if_pos (by omega)
  have hmessage : messagePieces b = [.opens .MSG, .text msg, .closes .MSG] := by
    rw [messagePieces, hmsg]
  simp only [piecesMMS, hrecipients, Written.andThen, Bool.false_eq_true, if_false, bodyMMS,
    hlength, hmessage, beforeLength, headerMMS, bodyLines, List.append_assoc]

theorem skips_cardLines {version name number : Option JString} (hversion : ∀ v ∈ version, Clean v)
    (hname : ∀ v ∈ name, Clean v) (hnumber : ∀ v ∈ number, Clean v)
    (hkeys : ∀ k ∈ ["VERSION", "N", "TEL"], Clean (js k) ∧ ¬ W <:+ js k)
    (hopen : Skips W V (.opens .VCARD)) :
    ∀ p ∈ cardStart version ++ field "N" name ++ field "TEL" number, Skips W V p := by
  simp only [cardStart, List.forall_mem_append, List.forall_mem_cons]
  refine ⟨⟨⟨hopen, ?_⟩, ?_⟩, ?_⟩
  · exact skips_field (hkeys _ (by decide)) hversion
  · exact skips_field (hkeys _ (by decide)) hname
  · exact skips_field (hkeys _ (by decide)) hnumber

theorem skips_headerMMS (hb : MmsHeaderClean b)
    (hkeys : ∀ k ∈ ["VERSION", "STATUS", "TYPE", "FOLDER", "N", "TEL"],
      Clean (js k) ∧ ¬ W <:+ js k)
    (htags : ∀ p ∈ [Piece.opens .BMSG, .opens .VCARD, .closes .VCARD], Skips W V p) :
    ∀ p ∈ headerMMS b, Skips W V p := by
  have hcard := skips_cardLines hb.vcardVersion hb.originatorName hb.originatorNumber
    (fun k hk => hkeys k (List.Sublist.subset (by decide) hk)) (htags (.opens .VCARD) (by decide))
  simp only [headerMMS, header, cardMMS, List.forall_mem_append] at hcard ⊢
  refine ⟨⟨⟨⟨⟨?_, ?_⟩, ?_⟩, ?_⟩, ?_⟩, hcard, ?_⟩
  · exact List.forall_mem_singleton.2 (htags _ (by decide))
  · exact skips_field (hkeys _ (by decide)) hb.bmsgVersion
  · exact skips_field (hkeys _ (by decide)) hb.status
  · exact skips_field (hkeys _ (by decide)) hb.type
  · exact skips_field (hkeys _ (by decide)) hb.folder
  · exact List.forall_mem_singleton.2 (htags _ (by decide))

/-- A keyword that is none of the lines before the length. -/
theorem skips_beforeLength (hb : MmsHeaderClean b)
    (hkeys : ∀ k ∈ ["VERSION", "STATUS", "TYPE", "FOLDER", "N", "TEL", "ENCODING"],
      Clean (js k) ∧ ¬ W <:+ js k)
    (htags : ∀ p ∈ [Piece.opens .BMSG, .opens .VCARD, .closes .VCARD, .opens .BENV, .opens .BBODY,
      .line "PARTID" (js "26988"), .line "CHARSET" (js "UTF-8"), .line "LANGUAGE" []],
      Skips W V p) :
    ∀ p ∈ beforeLength b, Skips W V p := by
  have hheader := skips_headerMMS hb (fun k hk => hkeys k (List.Sublist.subset (by decide) hk))
    (fun p hp => htags p (List.Sublist.subset (by decide) hp))
  have hrecipient := skips_cardLines hb.vcardVersion hb.recipientName hb.recipientNumber
    (fun k hk => hkeys k (List.Sublist.subset (by decide) hk)) (htags (.opens .VCARD) (by decide))
  simp only [beforeLength, bodyLines, List.forall_mem_append]
  refine ⟨⟨⟨⟨hheader, ?_⟩, ?_⟩, ?_⟩, ⟨?_, ?_⟩, ?_⟩
  · exact List.forall_mem_singleton.2 (htags _ (by decide))
  · exact hrecipient
  · exact List.forall_mem_singleton.2 (htags _ (by decide))
  · exact fun p hp => htags p (List.Sublist.subset (by decide) hp)
  · exact skips_field (hkeys _ (by decide)) hb.encoding
  · exact fun p hp => htags p (List.Sublist.subset (by decide) hp)

end Text

/-! ### What the reader finds -/

section Reader

variable {b : BmessageConsts} {t msg rest : JString}

/-- A word at the beginning of a text. -/
theorem found_here (w s : JString) : Found w (w ++ s) [] s :=
  ⟨rfl, firstIndex_of_prefix (List.prefix_append w s)⟩

/-- The vCard of the recipient. -/
theorem recipientVcard_eq_render (b : BmessageConsts) :
    recipientVcard b = render (recipientLines b) ++ js "END:VCARD" := by
  have hproperty (k k' : String) (hk : js k' = js k ++ js ":") (value : Option JString) :
      property k' value = render (field k value) := by
    cases value with
    | none => rfl
    | some v =>
      rw [property, hk]
      exact (List.append_nil _).symm
  rw [recipientVcard, hproperty "VERSION" "VERSION:" (by decide), hproperty "N" "N:" (by decide),
    hproperty "TEL" "TEL:" (by decide), recipientLines, cardStart, render_append, render_append,
    render_cons]
  rfl

/-- The vCard in the envelope is the next one. -/
theorem found_vcard (post : JString) :
    Found (crlf ++ js "BEGIN:VCARD")
      (crlf ++ js "BEGIN:BENV" ++ (crlf ++ js "BEGIN:VCARD" ++ post))
      (crlf ++ js "BEGIN:BENV") post := by
  have h13 : (13 : UInt16) ∉ 10 :: js "BEGIN:BENV" := by decide
  have hline := found_mark (c := 13) (V := 10 :: js "BEGIN:VCARD") h13 post
  have hskip := @Found.skip UInt16 _ 13 [] (10 :: js "BEGIN:VCARD") [] _ _ _ List.not_mem_nil
    List.not_mem_nil (fun h => ?_) hline
  · simpa [crlf] using hskip
  · have hmiss := h.2
    simp [js] at hmiss

/-- **The vCard that is handed to the parser** is the recipient's. -/
theorem fetchRecipientVcard_mms (hb : MmsHeaderClean b) (rest : JString) :
    fetchRecipientVcard (render (headerMMS b ++ [.opens .BENV] ++ recipientLines b ++
      [.closes .VCARD]) ++ rest) = .ok (recipientVcard b) := by
  have hbenv : js "BEGIN:BENV" = js "BEGIN" ++ mark :: js "BENV" := by decide
  have hvcard : js "END:VCARD" = js "END" ++ mark :: js "VCARD" := by decide
  obtain ⟨post, hpost⟩ : js "BEGIN:VCARD" <+: render (recipientLines b) := by
    have hopens : Piece.render (.opens .VCARD) = js "BEGIN:VCARD" ++ crlf := by decide
    rw [recipientLines, render_append, render_append, cardStart, render_cons, hopens]
    exact ⟨_, by rw [List.append_assoc, List.append_assoc, List.append_assoc]⟩
  set tail := js "END:VCARD" ++ (crlf ++ rest) with htail
  have hlines : crlf ++ js "BEGIN:VCARD" ++ (post ++ tail) =
      crlf ++ (render (recipientLines b) ++ tail) := by
    rw [← hpost]
    simp only [List.append_assoc]
  have htext : render (headerMMS b ++ [.opens .BENV] ++ recipientLines b ++ [.closes .VCARD]) ++
      rest = render (headerMMS b) ++
        (js "BEGIN:BENV" ++ (crlf ++ js "BEGIN:VCARD" ++ (post ++ tail))) := by
    have hopens : render [.opens .BENV] = js "BEGIN:BENV" ++ crlf := by decide
    have hcloses : render [.closes .VCARD] = js "END:VCARD" ++ crlf := by decide
    rw [render_append, render_append, render_append, hopens, hcloses, hlines, htail]
    simp only [List.append_assoc]
  obtain ⟨front, hfront, henv⟩ : ∃ front, render (headerMMS b) = front ++ crlf ∧
      Found (crlf ++ js "BEGIN:BENV") (render (headerMMS b) ++
        (js "BEGIN:BENV" ++ (crlf ++ js "BEGIN:VCARD" ++ (post ++ tail)))) front
        (crlf ++ js "BEGIN:VCARD" ++ (post ++ tail)) := by
    rw [hbenv]
    exact found_start (List.cons_ne_nil _ _) (skips_headerMMS hb (by decide) (by decide))
      (by decide)
      (by decide)
  have hend : Found (js "END:VCARD") (crlf ++ (render (recipientLines b) ++ tail))
      (crlf ++ render (recipientLines b)) (crlf ++ rest) := by
    have hskips : ∀ p ∈ recipientLines b, Skips (js "END") (js "VCARD") p :=
      skips_cardLines hb.vcardVersion hb.recipientName hb.recipientNumber (by decide) (by decide)
    have hfound := found_pieces hskips (by decide) (by decide)
      (found_here (js "END" ++ mark :: js "VCARD") (crlf ++ rest))
    rw [← hvcard, List.append_nil] at hfound
    have hnil : ¬ js "END:VCARD" <:+: [] := by decide
    exact found_lineEnd (by decide) (by decide) (by decide) hnil hfound
  rw [← hlines] at hend
  rw [htext, recipientVcard_eq_render]
  refine fetchRecipientVcard_found henv (found_vcard (post ++ tail)) ?_ hend
  rw [Ne, List.append_eq_nil_iff]
  exact fun h => absurd h.2 (by decide)

/-- A text that ends with the end of a line: every value has an end. -/
theorem ended_of_suffix {K : JString} (hsuffix : crlf <:+ t) : Ended t (K ++ [mark]) crlf 0 := by
  rintro pre post ⟨hfound, -⟩
  have heq : t = pre ++ K ++ [mark] ++ post := by
    have h := hfound.eq
    rw [Int.toNat_zero, List.drop_zero] at h
    rw [h]
    simp only [List.append_assoc]
  have hpost : post <:+ t := ⟨_, heq.symm⟩
  rcases List.suffix_or_suffix_of_suffix hsuffix hpost with h | h
  · exact h.isInfix
  · -- the colon of the key is not in the end of the line
    obtain ⟨l, hl⟩ := h
    have hmark : l <:+ pre ++ K ++ [mark] := by
      rw [heq, ← hl] at hsuffix
      exact (List.suffix_append_self_iff).1 hsuffix
    rcases List.suffix_concat_iff.1 hmark with rfl | ⟨l', rfl, -⟩
    · rw [List.nil_append] at hl
      rw [hl]
    · have hmem : mark ∈ crlf := by
        rw [← hl]
        simp
      exact absurd hmem (by decide)

/-- The text behind the begin tag of the message. -/
def behindBegin (msg : JString) : JString :=
  crlf ++ msg ++ crlf ++ js "END:MSG" ++ crlf ++ render closers

/-- The text of an MMS with one recipient, a length and a message. -/
theorem toBmessageMMS_eq (hnumber : ∀ number ∈ b.recipientVcardPhoneNumber, 59 ∉ number)
    (hlen : 0 < b.bodyLength) (hmsg : b.bodyMsg = some msg) :
    toBmessageMMS b = render (beforeLength b) ++ (js "LENGTH:" ++ (decimal b.bodyLength ++ crlf ++
      (js "BEGIN:MSG" ++ behindBegin msg))) := by
  have hlength : render [.line "LENGTH" (decimal b.bodyLength)] =
      js "LENGTH:" ++ decimal b.bodyLength ++ crlf := List.append_nil _
  have hmessage : render [.opens .MSG, .text msg, .closes .MSG] =
      js "BEGIN:MSG" ++ crlf ++ (msg ++ crlf ++ (js "END:MSG" ++ crlf)) := rfl
  rw [toBmessageMMS, piecesMMS_eq hnumber hlen hmsg, render_append, render_append, render_append,
    hlength, hmessage]
  simp only [behindBegin, List.append_assoc]

theorem clean_decimal {n : ℤ} (hn : 0 < n) : Clean (decimal n) := by
  have hdigit (c : UInt16) (hc : c ∈ decimal n) := mem_decimal hn.le hc
  refine ⟨fun h => ?_, fun h => ?_, fun h => ?_⟩
  all_goals
    have := hdigit _ h
    revert this
    decide

/-- The fields can be read. -/
theorem fieldsReadable_mms (hb : MmsHeaderClean b)
    (hnumber : ∀ number ∈ b.recipientVcardPhoneNumber, 59 ∉ number) (hlen : 0 < b.bodyLength)
    (hmax : b.bodyLength ≤ 2 ^ 31 - 1) (hmsg : b.bodyMsg = some msg) :
    FieldsReadable (toBmessageMMS b) := by
  have hsuffix : crlf <:+ toBmessageMMS b := by
    have hclosers : crlf <:+ render closers := by decide
    rw [toBmessageMMS, piecesMMS_eq hnumber hlen hmsg, ← List.append_assoc, render_append]
    exact hclosers.trans (List.suffix_append _ _)
  have hended (k k' : String) (hk : js k' = js k ++ [mark]) :
      Ended (toBmessageMMS b) (js k') crlf 0 := by
    rw [hk]
    exact ended_of_suffix hsuffix
  have hlength : LengthReadable (toBmessageMMS b) := by
    have hkey : js "LENGTH:" = js "LENGTH" ++ mark :: [] := by decide
    have hskips := skips_beforeLength (W := js "LENGTH") (V := []) hb (by decide) (by decide)
    rw [toBmessageMMS_eq hnumber hlen hmsg]
    have hfound := found_pieces hskips (by decide) (by decide)
      (found_here (js "LENGTH" ++ mark :: [])
      (decimal b.bodyLength ++ crlf ++ (js "BEGIN:MSG" ++ behindBegin msg)))
    have hline : Found crlf (decimal b.bodyLength ++ crlf ++ (js "BEGIN:MSG" ++ behindBegin msg))
        (decimal b.bodyLength) (js "BEGIN:MSG" ++ behindBegin msg) := by
      simpa [crlf] using found_mark (c := 13) (V := [10]) (clean_decimal hlen).1
        (js "BEGIN:MSG" ++ behindBegin msg)
    rw [← hkey] at hfound
    refine ⟨_, _, _, _, b.bodyLength, ⟨hfound, ?_⟩, hline, valueOf_decimal hlen hmax⟩
    rw [List.append_nil, Int.toNat_zero, Nat.zero_add, List.length_pos_iff]
    exact List.cons_ne_nil _ _
  exact ⟨hended "VERSION" "VERSION:" (by decide), hended "STATUS" "STATUS:" (by decide),
    hended "TYPE" "TYPE:" (by decide), hended "FOLDER" "FOLDER:" (by decide), hlength,
    hended "ENCODING" "ENCODING:" (by decide)⟩

/-- The message is cut out up to the first end tag behind its begin tag. -/
theorem fetchBodyMsgMMS_found {pre post mid back : JString}
    (hbegin : Found (js "BEGIN:MSG") t pre post) (hpre : pre ≠ [])
    (hend : Found (js "END:MSG") (js "BEGIN:MSG" ++ post) mid back) :
    fetchBodyMsgMMS t = .ok (mid ++ js "END:MSG") := by
  have hpos : (0 : ℤ) < pre.length := by
    exact_mod_cast List.length_pos_iff.2 hpre
  have htext : t = pre ++ (js "BEGIN:MSG" ++ post) := by
    rw [hbegin.eq, List.append_assoc]
  have hindex : indexOf t (js "END:MSG") pre.length + (js "END:MSG").length =
      pre.length + (mid ++ js "END:MSG").length := by
    rw [htext, indexOf_append hend]
    simp only [List.length_append]
    omega
  simp only [fetchBodyMsgMMS, indexOf_zero hbegin, hpos, if_true, hindex]
  rw [htext, hend.eq, ← List.append_assoc]
  exact substring_append

/-- The begin tag of the message. -/
theorem found_begin_mms (hb : MmsHeaderClean b)
    (hnumber : ∀ number ∈ b.recipientVcardPhoneNumber, 59 ∉ number) (hlen : 0 < b.bodyLength)
    (hmsg : b.bodyMsg = some msg) :
    ∃ pre, pre ≠ [] ∧ Found (js "BEGIN:MSG") (toBmessageMMS b) pre (behindBegin msg) := by
  have hbegin : js "BEGIN:MSG" = js "BEGIN" ++ mark :: js "MSG" := by decide
  have hkey : js "LENGTH:" = js "LENGTH" ++ [mark] := by decide
  have hskips := skips_beforeLength (W := js "BEGIN") (V := js "MSG") hb (by decide) (by decide)
  have hline : ¬ js "BEGIN:MSG" <:+: js "LENGTH:" ++ decimal b.bodyLength := by
    rw [hbegin, hkey, List.append_assoc]
    have hkeys : ¬ js "BEGIN" <:+ js "LENGTH" := by decide
    exact fun h => hkeys ((infix_mark_iff (by decide) (clean_decimal hlen).2.2).1 h).1
  have hlength := found_lineEnd (by decide) (by decide) (by decide) hline
    (found_here (js "BEGIN:MSG") (behindBegin msg))
  rw [hbegin] at hlength
  have hfound := found_pieces hskips (by decide) (by decide) hlength
  refine ⟨render (beforeLength b) ++ (js "LENGTH:" ++ decimal b.bodyLength ++ crlf ++ []),
    List.cons_ne_nil _ _, ?_⟩
  rw [toBmessageMMS_eq hnumber hlen hmsg, hbegin]
  simpa only [List.append_assoc] using hfound

/-- Without an end tag in the message the first one is the writer's. -/
theorem found_end_of_absent (h : ¬ js "END:MSG" <:+: msg) :
    Found (js "END:MSG") (js "BEGIN:MSG" ++ behindBegin msg) (js "BEGIN:MSG" ++ crlf ++ msg ++ crlf)
      (crlf ++ render closers) := by
  have hbegin : ¬ js "END:MSG" <:+: js "BEGIN:MSG" := by decide
  have hmsg := found_lineEnd (by decide) (by decide) (by decide) h
    (found_here (js "END:MSG") (crlf ++ render closers))
  have hall := found_lineEnd (by decide) (by decide) (by decide) hbegin hmsg
  simpa only [behindBegin, List.append_assoc, List.append_nil] using hall

/-- With one in it the message is cut at it. -/
theorem found_end_of_found {front back : JString} (h : Found (js "END:MSG") msg front back) :
    Found (js "END:MSG") (js "BEGIN:MSG" ++ behindBegin msg) (js "BEGIN:MSG" ++ crlf ++ front)
      (back ++ (crlf ++ js "END:MSG" ++ crlf ++ render closers)) := by
  have hbegin : ¬ js "END:MSG" <:+: js "BEGIN:MSG" := by decide
  have hall := found_lineEnd (by decide) (by decide) (by decide) hbegin
    (h.append (crlf ++ js "END:MSG" ++ crlf ++ render closers))
  simpa only [behindBegin, List.append_assoc] using hall

/-- The body ends at the first end tag. -/
theorem fetchBodyMsgMMS_first (hb : MmsHeaderClean b)
    (hnumber : ∀ number ∈ b.recipientVcardPhoneNumber, 59 ∉ number) (hlen : 0 < b.bodyLength)
    (hmsg : b.bodyMsg = some msg) {mid back : JString}
    (hend : Found (js "END:MSG") (js "BEGIN:MSG" ++ behindBegin msg) mid back) :
    fetchBodyMsgMMS (toBmessageMMS b) = .ok (mid ++ js "END:MSG") := by
  obtain ⟨pre, hpre, hbegin⟩ := found_begin_mms hb hnumber hlen hmsg
  exact fetchBodyMsgMMS_found hbegin hpre hend

/-- There is a body. -/
theorem exists_fetchBodyMsgMMS (hb : MmsHeaderClean b)
    (hnumber : ∀ number ∈ b.recipientVcardPhoneNumber, 59 ∉ number) (hlen : 0 < b.bodyLength)
    (hmsg : b.bodyMsg = some msg) : ∃ m, fetchBodyMsgMMS (toBmessageMMS b) = .ok m := by
  have htag : js "END:MSG" <:+: js "BEGIN:MSG" ++ behindBegin msg :=
    ⟨js "BEGIN:MSG" ++ crlf ++ msg ++ crlf, crlf ++ render closers, by simp [behindBegin]⟩
  obtain ⟨mid, back, hend⟩ := exists_found htag
  exact ⟨_, fetchBodyMsgMMS_first hb hnumber hlen hmsg hend⟩

theorem fetchBodyMsgMMS_eq_iff (hb : MmsHeaderClean b)
    (hnumber : ∀ number ∈ b.recipientVcardPhoneNumber, 59 ∉ number) (hlen : 0 < b.bodyLength)
    (hmsg : b.bodyMsg = some msg) :
    fetchBodyMsgMMS (toBmessageMMS b) = .ok (js "BEGIN:MSG\r\n" ++ msg ++ js "\r\nEND:MSG") ↔
      ¬ js "END:MSG" <:+: msg := by
  have hopen : js "BEGIN:MSG\r\n" = js "BEGIN:MSG" ++ crlf := by decide
  have hclose : js "\r\nEND:MSG" = crlf ++ js "END:MSG" := by decide
  rw [hopen, hclose]
  constructor
  · intro heq htag
    obtain ⟨front, back, hfound⟩ := exists_found htag
    rw [fetchBodyMsgMMS_first hb hnumber hlen hmsg (found_end_of_found hfound)] at heq
    -- what is cut out is shorter than the message
    have hcut := congrArg List.length (Except.ok.inj heq)
    have hlength := congrArg List.length hfound.eq
    simp only [List.length_append] at hcut hlength
    have hcrlf : crlf.length = 2 := rfl
    omega
  · intro htag
    rw [fetchBodyMsgMMS_first hb hnumber hlen hmsg (found_end_of_absent htag)]
    simp only [List.append_assoc]

/-- The fields that can be read are read, and the message is the one that is cut out. -/
theorem exists_readFields {fetchMsg : JString → Except Exn JString} (h : FieldsReadable t)
    (hmsg : fetchMsg t = .ok msg) (number version : JString) :
    ∃ r, readFields fetchMsg t number version = .ok r ∧ r.bodyMsg = some msg := by
  have hfetch (k : String) (missing : Option JString) (hk : Ended t (js k) crlf 0) :
      ∃ value, fetchProperty k missing t = .ok value :=
    (onlyBadRequest_iff_ok (valueBehind_ne_badRequest t (js k) crlf 0 missing)).1
      (onlyBadRequest_fetchProperty.2 hk)
  obtain ⟨bmsgVersion, hversion⟩ : ∃ v, fetchVersion t = .ok v := hfetch _ _ h.version
  obtain ⟨status, hstatus⟩ : ∃ v, fetchReadStatus t = .ok v := hfetch _ _ h.status
  obtain ⟨type, htype⟩ : ∃ v, fetchType t = .ok v := hfetch _ _ h.type
  obtain ⟨folder, hfolder⟩ : ∃ v, fetchFolder t = .ok v := hfetch _ _ h.folder
  obtain ⟨encoding, hencoding⟩ : ∃ v, fetchBodyEncoding t = .ok v := hfetch _ _ h.encoding
  obtain ⟨n, hlength⟩ := (onlyBadRequest_iff_ok (fetchBodyLength_ne_badRequest t)).1
    (onlyBadRequest_fetchBodyLength.2 h.length)
  refine ⟨{
    recipientVcardPhoneNumber := some number
    vcardVersion := some version
    bmsgVersion := bmsgVersion
    status := status
    type := type
    folder := folder
    bodyLength := n
    bodyMsg := some msg
    bodyEncoding := encoding }, ?_, rfl⟩
  rw [readFields, hversion, hstatus, htype, hfolder, hlength, hmsg, hencoding]
  rfl

end Reader

/-- The address of a recipient with a number and no e-mail address. -/
theorem recipientAddress_tel {recipient : Recipient} (hemail : recipient.mEmail = [])
    (hsemicolon : 59 ∉ recipient.mTel) :
    recipientAddress recipient =
      if recipient.mTel ≠ [] ∧ 44 ∉ recipient.mTel then .ok recipient.mTel
      else .error (.badRequest "Invalid Email/Tel in vCard") := by
  rw [recipientAddress, hemail, if_neg (by simp)]
  refine if_congr ?_ rfl rfl
  rw [List.length_eq_zero_iff]
  push Not
  exact and_congr_right fun _ => and_iff_left hsemicolon

/-- **When the body of an MMS comes back**: if the number is accepted, exactly if there is no end
tag in the message. -/
theorem mmsBody_kept_iff {parserV21 parserV30 : RecipientParser} {b : BmessageConsts}
    {msg number : JString} {recipient : Recipient} (hb : MmsHeaderClean b) (hlen : 0 < b.bodyLength)
    (hmax : b.bodyLength ≤ 2 ^ 31 - 1) (hmsg : b.bodyMsg = some msg)
    (hnumber : b.recipientVcardPhoneNumber = some number) (hsemicolon : 59 ∉ number)
    (hparse : parseRecipient parserV21 parserV30 (recipientVcard b) = .ok recipient)
    (htel : recipient.mTel = number) (hemail : recipient.mEmail = []) :
    (∃ r, fromBmessageMMS parserV21 parserV30 (toBmessageMMS b) = .ok r ∧
      r.bodyMsg = some (js "BEGIN:MSG\r\n" ++ msg ++ js "\r\nEND:MSG")) ↔
      (number ≠ [] ∧ 44 ∉ number) ∧ ¬ js "END:MSG" <:+: msg := by
  have hone : ∀ n ∈ b.recipientVcardPhoneNumber, 59 ∉ n := by
    rintro n hn
    obtain rfl := Option.some.inj (hnumber.symm.trans hn)
    exact hsemicolon
  have hvcard : fetchRecipientVcard (toBmessageMMS b) = .ok (recipientVcard b) := by
    rw [toBmessageMMS_eq hone hlen hmsg, beforeLength, render_append, List.append_assoc]
    exact fetchRecipientVcard_mms hb _
  have hread : fromBmessageMMS parserV21 parserV30 (toBmessageMMS b) =
      (do
        let address ← recipientAddress recipient
        readFields fetchBodyMsgMMS (toBmessageMMS b) address recipient.mVersion) := by
    rw [fromBmessageMMS, hvcard]
    show (parseRecipient parserV21 parserV30 (recipientVcard b) >>= _) = _
    rw [hparse]
    rfl
  have hbody : fetchBodyMsgMMS (toBmessageMMS b) =
      .ok (js "BEGIN:MSG\r\n" ++ msg ++ js "\r\nEND:MSG") ↔ ¬ js "END:MSG" <:+: msg :=
    fetchBodyMsgMMS_eq_iff hb hone hlen hmsg
  rw [hread, recipientAddress_tel hemail (htel ▸ hsemicolon), htel]
  split_ifs with hok
  · rw [and_iff_right hok, ← hbody]
    obtain ⟨m, hm⟩ := exists_fetchBodyMsgMMS hb hone hlen hmsg
    obtain ⟨r, hr, hrm⟩ := exists_readFields (fieldsReadable_mms hb hone hlen hmax hmsg) hm number
      recipient.mVersion
    rw [hm]
    constructor
    · rintro ⟨r', hr', hrm'⟩
      obtain rfl := Except.ok.inj (hr.symm.trans hr')
      rw [← Option.some.inj (hrm.symm.trans hrm')]
    · intro heq
      rw [Except.ok.inj heq] at hrm
      exact ⟨r, hr, hrm⟩
  · refine iff_of_false ?_ fun h => hok h.1
    rintro ⟨r, hr, -⟩
    change (Except.error (.badRequest "Invalid Email/Tel in vCard") : Except Exn _) = .ok r at hr
    cases hr

/-- An MMS with a short text. -/
def sampleMms : BmessageConsts where
  bmsgVersion := some (js "1.0")
  status := some (js "READ")
  type := some (js "MMS")
  folder := some (js "telecom/msg/inbox")
  vcardVersion := some (js "2.1")
  recipientVcardPhoneNumber := some (js "5550100")
  bodyEncoding := some (js "8BIT")
  bodyLength := 24
  bodyMsg := some (js "ab")

/-- The same message with an end tag in its text. -/
def quotingMms : BmessageConsts := { sampleMms with bodyMsg := some (js "a END:MSG b") }

/-- The short text comes back. -/
theorem mmsBody_kept_sampleMms :
    ∃ r, fromBmessageMMS sampleRecipientParser sampleRecipientParser (toBmessageMMS sampleMms) =
      .ok r ∧ r.bodyMsg = some (js "BEGIN:MSG\r\nab\r\nEND:MSG") := by
  have hparse : parseRecipient sampleRecipientParser sampleRecipientParser
      (recipientVcard sampleMms) = .ok { mTel := js "5550100", mVersion := js "2.1" } := by
    decide
  have hb : MmsHeaderClean sampleMms :=
    ⟨by decide, by decide, by decide, by decide, by decide, by decide, by decide, by decide,
      by decide, by decide⟩
  exact (mmsBody_kept_iff hb (by decide) (by decide) rfl rfl (by decide) hparse rfl rfl).2
    ⟨by decide, by decide⟩

/-- **A message with an end tag in it is cut** in the middle. -/
theorem mmsBody_cut :
    MmsHeaderClean quotingMms ∧
    ∃ r, fromBmessageMMS sampleRecipientParser sampleRecipientParser (toBmessageMMS quotingMms) =
        .ok r ∧
      r.bodyMsg = some (js "BEGIN:MSG\r\na END:MSG") ∧
      r.bodyMsg ≠ some (js "BEGIN:MSG\r\n" ++ js "a END:MSG b" ++ js "\r\nEND:MSG") := by
  have hb : MmsHeaderClean quotingMms :=
    ⟨by decide, by decide, by decide, by decide, by decide, by decide, by decide, by decide,
      by decide, by decide⟩
  have hread : fromBmessageMMS sampleRecipientParser sampleRecipientParser
      (toBmessageMMS quotingMms) =
      .ok { bmsgVersion := some (js "1.0"), status := some (js "READ"), type := some (js "MMS"),
            folder := some (js "telecom/msg/inbox"), vcardVersion := some (js "2.1"),
            recipientVcardPhoneNumber := some (js "5550100"), bodyEncoding := some (js "8BIT"),
            bodyLength := 24, bodyMsg := some (js "BEGIN:MSG\r\na END:MSG") } := by
    decide +kernel
  exact ⟨hb, _, hread, rfl, by decide⟩

end Map

end Msm8909w
