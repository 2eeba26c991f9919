import Mathlib.Data.List.TakeWhile
import Msm8909w.Lib.Search

/-!
# Reading XML

A reader for XML 1.0 texts in UTF-16, up to internal subsets of a document type, which it does not
read: `Xml.document` gives the root element of a text that is well formed, with its attributes and
the elements in it.  Character data is checked and then dropped.

* `Xml.legal_append_cons` : a text has only characters of XML exactly if its parts have,
* `Xml.value_quoted` : a text between quotes is read as the value that it is exactly if none of its
  characters has to be escaped.

Entities are those that every document has, and references to characters; a document type may
declare others, which a reader need not know.
-/

namespace Msm8909w

namespace Xml

abbrev Text := List UInt16

/-- A text of ASCII characters. -/
def lit (s : String) : Text := s.toList.map fun c => UInt16.ofNat c.toNat

/-! ### Characters -/

def isSpace (c : UInt16) : Bool := c = 32 || c = 9 || c = 10 || c = 13

def inRanges (ranges : List (ℕ × ℕ)) (c : UInt16) : Bool :=
  ranges.any fun r => r.1 ≤ c.toNat && c.toNat ≤ r.2

def isHigh : UInt16 → Bool := inRanges [(0xD800, 0xDBFF)]

def isLow : UInt16 → Bool := inRanges [(0xDC00, 0xDFFF)]

/-- The characters of a text that are not written with surrogates. -/
def isChar : UInt16 → Bool :=
  inRanges [(0x9, 0xA), (0xD, 0xD), (0x20, 0xD7FF), (0xE000, 0xFFFD)]

/-- All characters may be in a text; `high` says that a high surrogate was before them. -/
def legalFrom : Bool → Text → Bool
  | high, [] => !high
  | high, c :: s => (isLow c == high) && (isLow c || isHigh c || isChar c) && legalFrom (isHigh c) s

def Legal (s : Text) : Prop := legalFrom false s = true

instance (s : Text) : Decidable (Legal s) := inferInstanceAs (Decidable (_ = _))

/-- The first characters of names; those beyond `0xFFFF` are written with the surrogates. -/
def isNameStart : UInt16 → Bool :=
  inRanges [(0x3A, 0x3A), (0x41, 0x5A), (0x5F, 0x5F), (0x61, 0x7A), (0xC0, 0xD6), (0xD8, 0xF6),
    (0xF8, 0x2FF), (0x370, 0x37D), (0x37F, 0x1FFF), (0x200C, 0x200D), (0x2070, 0x218F),
    (0x2C00, 0x2FEF), (0x3001, 0xD7FF), (0xD800, 0xDB7F), (0xF900, 0xFDCF), (0xFDF0, 0xFFFD)]

def isNameChar (c : UInt16) : Bool :=
  isNameStart c || isLow c || inRanges [(0x2D, 0x2E), (0x30, 0x39), (0xB7, 0xB7), (0x300, 0x36F),
    (0x203F, 0x2040)] c

/-! ### The reader -/

/-- What follows on `w`. -/
def expect (w s : Text) : Option Text := if w <+: s then some (s.drop w.length) else none

/-- What follows on the first occurrence of `w`. -/
def skipPast (w s : Text) : Option Text := (firstIndex w s).map fun i => s.drop (i + w.length)

def name (s : Text) : Option (Text × Text) :=
  if s.head?.any isNameStart then some (s.takeWhile isNameChar, s.dropWhile isNameChar) else none

def digitValue (c : UInt16) : ℕ :=
  if 48 ≤ c ∧ c ≤ 57 then c.toNat - 48
  else if 97 ≤ c ∧ c ≤ 102 then c.toNat - 87
  else if 65 ≤ c ∧ c ≤ 70 then c.toNat - 55
  else 16

def number (base : ℕ) (digits : Text) : Option ℕ :=
  if digits ≠ [] ∧ digits.all (digitValue · < base) then
    some (digits.foldl (fun n d => base * n + digitValue d) 0)
  else none

/-- The character with a number. -/
def character (n : ℕ) : Option Text :=
  if n < 0x10000 then if isChar (.ofNat n) then some [.ofNat n] else none
  else if n ≤ 0x10FFFF then
    some [.ofNat (0xD800 + (n - 0x10000) / 0x400), .ofNat (0xDC00 + (n - 0x10000) % 0x400)]
  else none

/-- What is referred to between `&` and `;`. -/
def entity (name : Text) : Option Text :=
  if name = lit "lt" then some (lit "<")
  else if name = lit "gt" then some (lit ">")
  else if name = lit "amp" then some (lit "&")
  else if name = lit "apos" then some (lit "'")
  else if name = lit "quot" then some (lit "\"")
  else match name with
    | 35 :: 120 :: digits => (number 16 digits).bind character
    | 35 :: digits => (number 10 digits).bind character
    | _ => none

/-- The value that is written as `raw` between quotes; with `some ref`, behind `&` and `ref`. -/
def expand : Option Text → Text → Option Text
  | none, [] => some []
  | some _, [] => none
  | none, c :: raw =>
    if c = 60 then none
    else if c = 38 then expand (some []) raw
    -- a carriage return and a line feed are one line end
    else if c = 13 ∧ raw.head? = some 10 then expand none raw
    else (expand none raw).map ((if isSpace c then 32 else c) :: ·)
  | some ref, c :: raw =>
    if c = 59 then (entity ref).bind fun t => (expand none raw).map (t ++ ·)
    else expand (some (ref ++ [c])) raw

/-- What is between quotes, and what follows on it. -/
def quoted : Text → Option (Text × Text)
  | [] => none
  | q :: s =>
    if (q = 34 ∨ q = 39) ∧ q ∈ s then some (s.takeWhile (· ≠ q), (s.dropWhile (· ≠ q)).tail)
    else none

def value (s : Text) : Option (Text × Text) :=
  (quoted s).bind fun (raw, s) => (expand none raw).map fun v => (v, s)

/-- An attribute. -/
def keyValue (s : Text) : Option ((Text × Text) × Text) :=
  (name s).bind fun (key, s) =>
    (expect (lit "=") (s.dropWhile isSpace)).bind fun s =>
      (value (s.dropWhile isSpace)).map fun (v, s) => ((key, v), s)

/-- The attributes in a tag, and the spaces behind them. -/
def attributes : ℕ → Text → Option (List (Text × Text) × Text)
  | 0, _ => none
  | n + 1, s =>
    if s.head?.any isSpace ∧ (s.dropWhile isSpace).head?.any isNameStart then
      (keyValue (s.dropWhile isSpace)).bind fun (a, s) =>
        (attributes n s).map fun (as, s) => (a :: as, s)
    else some ([], s.dropWhile isSpace)

/-- Elements side by side. -/
inductive Forest
  | nil
  | element (name : Text) (attributes : List (Text × Text)) (inside rest : Forest)
  deriving DecidableEq

/-- An element without the name in its end tag. -/
structure Element where
  name : Text
  attributes : List (Text × Text)
  inside : Forest
  deriving DecidableEq

/-- The elements that stand side by side. -/
def Forest.elements : Forest → List Element
  | .nil => []
  | .element name attributes inside rest => ⟨name, attributes, inside⟩ :: rest.elements

/-- An element behind `<`. -/
def element (content : Text → Option (Forest × Text)) (s : Text) : Option (Element × Text) :=
  (name s).bind fun (name, s) =>
    (attributes (s.length + 1) s).bind fun (as, s) =>
      if ¬ (as.map Prod.fst).Nodup then none
      else if lit "/>" <+: s then some (⟨name, as, .nil⟩, s.drop 2)
      else (expect (lit ">") s).bind fun s =>
        (content s).bind fun (inside, s) =>
          (expect (lit "</" ++ name) s).bind fun s =>
            (expect (lit ">") (s.dropWhile isSpace)).map fun s => (⟨name, as, inside⟩, s)

/-- A comment or a section of character data behind `<!`. -/
def comment (s : Text) : Option Text := (skipPast (lit "--") s).bind (expect (lit ">"))

def lower (c : UInt16) : UInt16 := if 65 ≤ c ∧ c ≤ 90 then c + 32 else c

/-- A processing instruction behind `<?`. -/
def instruction (s : Text) : Option Text :=
  (name s).bind fun (target, s) =>
    if target.map lower = lit "xml" then none
    else if lit "?>" <+: s ∨ s.head?.any isSpace then skipPast (lit "?>") s
    else none

/-- What is between the tags of an element. -/
def content : ℕ → Text → Option (Forest × Text)
  | 0, _ => none
  | _ + 1, [] => some (.nil, [])
  | n + 1, c :: s =>
    if c = 60 then
      match s with
      | 47 :: s => some (.nil, 60 :: 47 :: s)
      | 33 :: s =>
        ((expect (lit "--") s).bind comment <|>
          (expect (lit "[CDATA[") s).bind (skipPast (lit "]]>"))).bind (content n)
      | 63 :: s => (instruction s).bind (content n)
      | s => (element (content n) s).bind fun (e, s) =>
          (content n s).map fun (rest, s) => (.element e.name e.attributes e.inside rest, s)
    else if c = 38 then
      (entity (s.takeWhile (· ≠ 59))).bind fun _ => content n (s.dropWhile (· ≠ 59)).tail
    else if lit "]]>" <+: c :: s then none
    else content n s

/-- Spaces, comments and processing instructions. -/
def misc : ℕ → Text → Option Text
  | 0, _ => none
  | n + 1, s =>
    match s.dropWhile isSpace with
    | 60 :: 33 :: 45 :: 45 :: s => (comment s).bind (misc n)
    | 60 :: 63 :: s => (instruction s).bind (misc n)
    | s => some s

/-- The attributes that a declaration may have. -/
def declKeys : List (List Text) :=
  [[lit "version"], [lit "version", lit "encoding"], [lit "version", lit "standalone"],
    [lit "version", lit "encoding", lit "standalone"]]

/-- Behind the declaration of a document, if there is one. -/
def xmlDecl (s : Text) : Option Text :=
  match expect (lit "<?xml") s with
  | none => some s
  | some t =>
    if t.head?.any isSpace then
      (attributes (t.length + 1) t).bind fun (as, t) =>
        if as.map Prod.fst ∈ declKeys then expect (lit "?>") t else none
    else some s

/-- The spaces that have to be there. -/
def spaces (s : Text) : Option Text :=
  if s.head?.any isSpace then some (s.dropWhile isSpace) else none

/-- Behind the document type, if there is one. -/
def doctype (s : Text) : Option Text :=
  match expect (lit "<!DOCTYPE") s with
  | none => some s
  | some s =>
    (spaces s).bind fun s => (name s).bind fun (_, s) =>
      let t := s.dropWhile isSpace
      (if t ≠ s ∧ lit "SYSTEM" <+: t then
          (spaces (t.drop 6)).bind fun t => (quoted t).map Prod.snd
        else if t ≠ s ∧ lit "PUBLIC" <+: t then
          (spaces (t.drop 6)).bind fun t => (quoted t).bind fun (_, t) =>
            (spaces t).bind fun t => (quoted t).map Prod.snd
        else some t).bind fun t => expect (lit ">") (t.dropWhile isSpace)

/-- The root element of a document that is well formed. -/
def document (s : Text) : Option Element :=
  if ¬ Legal s then none
  else
    (xmlDecl s).bind fun t => (misc (s.length + 1) t).bind fun t => (doctype t).bind fun t =>
      (misc (s.length + 1) t).bind fun t => (expect (lit "<") t).bind fun t =>
        (element (content (s.length + 1)) t).bind fun (root, t) =>
          (misc (s.length + 1) t).bind fun t => if t = [] then some root else none

variable {c q : UInt16} {s t v w : Text}

/-! ### Legal texts -/

theorem not_surrogate (hc : isChar c = true) : isLow c = false ∧ isHigh c = false := by
  simp only [isChar, isLow, isHigh, inRanges, List.any_cons, List.any_nil, Bool.or_false,
    Bool.or_eq_true, Bool.and_eq_true, decide_eq_true_eq, Bool.and_eq_false_iff,
    decide_eq_false_iff_not] at hc ⊢
  omega

/-- A character splits a text into two that are legal on their own. -/
theorem legalFrom_append_cons (hc : isChar c = true) (high : Bool) (s t : Text) :
    legalFrom high (s ++ c :: t) = (legalFrom high s && legalFrom false t) := by
  obtain ⟨hlow, hhigh⟩ := not_surrogate hc
  induction s generalizing high with
  | nil =>
    simp only [List.nil_append, legalFrom, hlow, hhigh, hc]
    cases high <;> rfl
  | cons d s ih => simp only [List.cons_append, legalFrom, ih, Bool.and_assoc]

theorem legal_cons (hc : isChar c = true) : Legal (c :: s) ↔ Legal s := by
  have h := legalFrom_append_cons hc false [] s
  rw [List.nil_append] at h
  rw [Legal, Legal, h]
  rfl

theorem legal_append_cons (hc : isChar c = true) : Legal (s ++ c :: t) ↔ Legal s ∧ Legal t := by
  rw [Legal, legalFrom_append_cons hc, Bool.and_eq_true]
  rfl

theorem legal_append (hw : ∀ c ∈ w, isChar c = true) : Legal (w ++ s) ↔ Legal s := by
  induction w with
  | nil => rfl
  | cons c w ih =>
    rw [List.forall_mem_cons] at hw
    rw [List.cons_append, legal_cons hw.1, ih hw.2]

theorem legal_append_all (hw : w.all isChar = true) : Legal (w ++ s) ↔ Legal s :=
  legal_append (List.all_eq_true.1 hw)

theorem legal_of_isChar (hw : ∀ c ∈ w, isChar c = true) : Legal w := by
  have h := (legal_append (s := []) hw).2 rfl
  rwa [List.append_nil] at h

/-! ### Values -/

/-- The character stands for itself between quotes `"`. -/
def isBare (c : UInt16) : Bool :=
  c ≠ 34 && c ≠ 60 && c ≠ 38 && c ≠ 9 && c ≠ 10 && c ≠ 13

/-- No character has to be escaped. -/
def Plain (v : Text) : Prop := ∀ c ∈ v, isBare c = true

instance (v : Text) : Decidable (Plain v) := List.decidableBAll _ v

theorem length_character {n : ℕ} (h : character n = some t) : t.length ≤ 2 := by
  rw [character] at h
  split_ifs at h <;> cases h <;> simp

theorem number_ne_nil {base n : ℕ} (h : number base s = some n) : s ≠ [] := by
  rw [number] at h
  split_ifs at h with hs
  exact hs.1

/-- A reference is longer than what it refers to. -/
theorem length_entity (h : entity s = some t) : t.length ≤ s.length := by
  unfold entity at h
  split_ifs at h with h₁ h₂ h₃ h₄ h₅
  · obtain rfl := Option.some.inj h
    rw [h₁]
    decide
  · obtain rfl := Option.some.inj h
    rw [h₂]
    decide
  · obtain rfl := Option.some.inj h
    rw [h₃]
    decide
  · obtain rfl := Option.some.inj h
    rw [h₄]
    decide
  · obtain rfl := Option.some.inj h
    rw [h₅]
    decide
  · split at h
    · obtain ⟨n, -, hn⟩ := Option.bind_eq_some_iff.1 h
      have hlen := length_character hn
      simp only [List.length_cons]
      omega
    · next digits _ =>
      obtain ⟨n, hdigits, hn⟩ := Option.bind_eq_some_iff.1 h
      have hlen := length_character hn
      have hpos := List.length_pos_of_ne_nil (number_ne_nil hdigits)
      simp only [List.length_cons]
      omega
    · cases h

/-- No value is longer than what is written. -/
theorem length_expand : (∀ v, expand none s = some v → v.length ≤ s.length) ∧
    ∀ ref v, expand (some ref) s = some v → v.length ≤ ref.length + s.length := by
  induction s with
  | nil =>
    refine ⟨fun v h => ?_, fun ref v h => ?_⟩
    · obtain rfl := Option.some.inj h
      exact le_rfl
    · cases h
  | cons c s ih =>
    obtain ⟨ihnone, ihsome⟩ := ih
    refine ⟨fun v h => ?_, fun ref v h => ?_⟩
    · rw [expand] at h
      rw [List.length_cons]
      split_ifs at h
      · have hlen := ihsome [] v h
        rw [List.length_nil] at hlen
        omega
      · have hlen := ihnone v h
        omega
      · obtain ⟨v', hv', rfl⟩ := Option.map_eq_some_iff.1 h
        have hlen := ihnone v' hv'
        rw [List.length_cons]
        omega
      · obtain ⟨v', hv', rfl⟩ := Option.map_eq_some_iff.1 h
        have hlen := ihnone v' hv'
        rw [List.length_cons]
        omega
    · rw [expand] at h
      rw [List.length_cons]
      split_ifs at h
      · obtain ⟨t, ht, h⟩ := Option.bind_eq_some_iff.1 h
        obtain ⟨v', hv', rfl⟩ := Option.map_eq_some_iff.1 h
        have hlen := ihnone v' hv'
        have href := length_entity ht
        rw [List.length_append]
        omega
      · have hlen := ihsome _ v h
        rw [List.length_append, List.length_singleton] at hlen
        omega

theorem expand_of_plain (h : Plain v) : expand none v = some v := by
  induction v with
  | nil => rfl
  | cons c v ih =>
    obtain ⟨hc, hv⟩ := List.forall_mem_cons.1 h
    simp only [isBare, Bool.and_eq_true, decide_eq_true_eq] at hc
    have hspace : (if isSpace c then 32 else c) = c := by
      split_ifs with hs
      · simp only [isSpace, Bool.or_eq_true, decide_eq_true_eq] at hs
        tauto
      · rfl
    rw [expand, if_neg hc.1.1.1.1.2, if_neg hc.1.1.1.2, if_neg fun h => hc.2 h.1, ih hv, hspace]
    rfl

/-- What is written stands for itself only if nothing has to be escaped. -/
theorem plain_of_expand (hq : 34 ∉ v) (h : expand none v = some v) : Plain v := by
  induction v with
  | nil => exact nofun
  | cons c v ih =>
    rw [List.mem_cons, not_or] at hq
    rw [expand] at h
    split_ifs at h with hlt hamp hcr hs
    · have hlen := length_expand.2 _ _ h
      simp only [List.length_cons, List.length_nil] at hlen
      omega
    · have hlen := length_expand.1 _ h
      simp only [List.length_cons] at hlen
      omega
    · obtain ⟨v', hv', heq⟩ := Option.map_eq_some_iff.1 h
      obtain ⟨rfl, rfl⟩ := List.cons.inj heq
      exact List.forall_mem_cons.2 ⟨by decide, ih hq.2 hv'⟩
    · obtain ⟨v', hv', heq⟩ := Option.map_eq_some_iff.1 h
      obtain ⟨-, rfl⟩ := List.cons.inj heq
      refine List.forall_mem_cons.2 ⟨?_, ih hq.2 hv'⟩
      simp only [isSpace, Bool.or_eq_true, decide_eq_true_eq, not_or] at hs
      simp only [isBare, Bool.and_eq_true, decide_eq_true_eq]
      tauto

theorem quoted_append (hq : q = 34 ∨ q = 39) (hv : q ∉ v) :
    quoted (q :: (v ++ q :: s)) = some (v, s) := by
  have hne : ∀ c ∈ v, decide (c ≠ q) = true := fun c hc => by
    rw [decide_eq_true_eq]
    rintro rfl
    exact hv hc
  rw [quoted, if_pos ⟨hq, List.mem_append_right v List.mem_cons_self⟩,
    List.takeWhile_append_of_pos hne, List.dropWhile_append_of_pos hne]
  simp

/-- **A value between quotes** is read as it is, up to where it ends, exactly if none of its
characters has to be escaped. -/
theorem value_quoted : value (34 :: (v ++ 34 :: s)) = some (v, t) ↔ Plain v ∧ t = s := by
  constructor
  · intro h
    obtain ⟨⟨raw, rest⟩, hquoted, h⟩ := Option.bind_eq_some_iff.1 h
    obtain ⟨v', hexpand, heq⟩ := Option.map_eq_some_iff.1 h
    obtain ⟨rfl, rfl⟩ := Prod.mk.inj heq
    by_cases hv : 34 ∈ v'
    · -- the text ends at a quote inside of the value, and is too short
      exfalso
      obtain ⟨front, back, rfl, hfront⟩ := List.eq_append_cons_of_mem hv
      rw [List.append_assoc, List.cons_append, quoted_append (.inl rfl) hfront] at hquoted
      obtain ⟨rfl, -⟩ := Prod.mk.inj (Option.some.inj hquoted)
      have hlen := length_expand.1 _ hexpand
      simp only [List.length_append, List.length_cons] at hlen
      omega
    · rw [quoted_append (.inl rfl) hv] at hquoted
      obtain ⟨rfl, rfl⟩ := Prod.mk.inj (Option.some.inj hquoted)
      exact ⟨plain_of_expand hv hexpand, rfl⟩
  · rintro ⟨hv, rfl⟩
    have hmem : 34 ∉ v := fun hin => absurd (hv 34 hin) (by decide)
    rw [value, quoted_append (.inl rfl) hmem, Option.bind_some]
    simp only [expand_of_plain hv, Option.map_some]

end Xml

end Msm8909w
