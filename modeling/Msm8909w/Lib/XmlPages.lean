import Mathlib.Data.List.Forall2
import Msm8909w.Lib.Xml

/-!
# XML documents with empty elements

What a reader of XML makes of a page that a program writes tag by tag: a declaration, a document
type, and a root with empty elements in it, whose attributes are pasted in as they are.

* `Xml.attributes_attrsText`, `Xml.content_tagsText`, `Xml.document_of_plain` : attributes, elements
  and whole pages are read back, if no value has to be escaped,
* `Xml.plain_of_content`, `Xml.plain_of_document` : and only then, if the first value of each
  element is that of its tag.
-/

namespace Msm8909w

namespace Xml

variable {c : UInt16} {s t : Text}

/-! ### Attributes -/

/-- A name without surrogates. -/
def IsName (k : Text) : Prop :=
  k.head?.any isNameStart = true ∧ ∀ c ∈ k, isNameChar c = true ∧ isChar c = true

instance (k : Text) : Decidable (IsName k) := @instDecidableAnd _ _ _ (List.decidableBAll _ k)

/-- An attribute behind a space. -/
def attrText (a : Text × Text) : Text := 32 :: (a.1 ++ 61 :: 34 :: (a.2 ++ [34]))

def attrsText (as : List (Text × Text)) : Text := as.flatMap attrText

variable {k : Text} {a : Text × Text} {as : List (Text × Text)} {n : ℕ}

theorem attrsText_cons : attrsText (a :: as) ++ s =
    32 :: (a.1 ++ 61 :: 34 :: (a.2 ++ 34 :: (attrsText as ++ s))) := by
  simp [attrsText, attrText]

theorem length_attrsText (as : List (Text × Text)) : as.length ≤ (attrsText as).length := by
  induction as with
  | nil => exact le_rfl
  | cons a as ih =>
    have h : (attrsText (a :: as) ++ []).length = _ := congrArg List.length attrsText_cons
    simp only [List.append_nil, List.length_cons, List.length_append] at h ⊢
    omega

theorem of_isNameStart (hc : isNameStart c = true) :
    isSpace c = false ∧ c ≠ 47 ∧ c ≠ 33 ∧ c ≠ 63 := by
  refine ⟨?_, ?_, ?_, ?_⟩
  · cases hspace : isSpace c with
    | false => rfl
    | true =>
      simp only [isSpace, Bool.or_eq_true, decide_eq_true_eq] at hspace
      rcases hspace with ((rfl | rfl) | rfl) | rfl <;> revert hc <;> decide
  · rintro rfl
    revert hc
    decide
  · rintro rfl
    revert hc
    decide
  · rintro rfl
    revert hc
    decide

theorem head?_append_of_isName (hk : IsName k) (s : Text) :
    (k ++ s).head?.any isNameStart = true := by
  cases k with
  | nil => cases hk.1
  | cons c k => exact hk.1

theorem name_append (hk : IsName k) (hc : isNameChar c = false) :
    name (k ++ c :: s) = some (k, c :: s) := by
  have hall : ∀ c ∈ k, isNameChar c = true := fun c hc => (hk.2 c hc).1
  rw [name, if_pos (head?_append_of_isName hk _), List.takeWhile_append_of_pos hall,
    List.dropWhile_append_of_pos hall, List.takeWhile_cons_of_neg (by simp [hc]),
    List.dropWhile_cons_of_neg (by simp [hc]), List.append_nil]

theorem keyValue_append (hk : IsName k) : keyValue (k ++ 61 :: 34 :: s) =
    (value (34 :: s)).map fun (v, t) => ((k, v), t) := by
  rw [keyValue, name_append hk (by decide)]
  rfl

/-- The first attribute, and those behind it. -/
theorem attributes_cons (hk : IsName k) : attributes (n + 1) (32 :: (k ++ 61 :: 34 :: s)) =
    (value (34 :: s)).bind fun (v, t) => (attributes n t).map fun (as, t) => ((k, v) :: as, t) := by
  have hdrop : (32 :: (k ++ 61 :: 34 :: s)).dropWhile isSpace = k ++ 61 :: 34 :: s := by
    cases k with
    | nil => cases hk.1
    | cons c k =>
      have hc : isSpace c = false := (of_isNameStart hk.1).1
      rw [List.dropWhile_cons_of_pos (by decide), List.cons_append,
        List.dropWhile_cons_of_neg (by simp [hc])]
  rw [attributes, hdrop, if_pos ⟨rfl, head?_append_of_isName hk _⟩, keyValue_append hk]
  cases value (34 :: s) <;> rfl

/-- Attributes are read back if no value has to be escaped. -/
theorem attributes_attrsText (has : ∀ a ∈ as, IsName a.1 ∧ Plain a.2)
    (hs : s.head?.any isSpace = false) (hn : as.length < n) :
    attributes n (attrsText as ++ s) = some (as, s) := by
  induction as generalizing n with
  | nil =>
    obtain ⟨m, rfl⟩ : ∃ m, n = m + 1 := ⟨n - 1, by simp at hn; omega⟩
    have hdrop : s.dropWhile isSpace = s := by
      cases s with
      | nil => rfl
      | cons c s => exact List.dropWhile_cons_of_neg (by simpa using hs)
    rw [attrsText, List.flatMap_nil, List.nil_append, attributes, hdrop, if_neg (by simp [hs])]
  | cons a as ih =>
    obtain ⟨m, rfl⟩ : ∃ m, n = m + 1 := ⟨n - 1, by simp at hn; omega⟩
    rw [List.forall_mem_cons] at has
    rw [attrsText_cons, attributes_cons has.1.1, value_quoted.2 ⟨has.1.2, rfl⟩, Option.bind_some]
    simp only [ih has.2 (Nat.lt_of_succ_lt_succ hn), Option.map_some]

theorem attributes_length (has : ∀ a ∈ as, IsName a.1 ∧ Plain a.2)
    (hs : s.head?.any isSpace = false) :
    attributes ((attrsText as ++ s).length + 1) (attrsText as ++ s) = some (as, s) := by
  refine attributes_attrsText has hs ?_
  have hlen := length_attrsText as
  rw [List.length_append]
  omega

/-! ### Empty elements -/

/-- An element without content. -/
structure Tag where
  name : Text
  attributes : List (Text × Text)

/-- What is between `<` and `/>`. -/
def Tag.body (tag : Tag) : Text := tag.name ++ attrsText tag.attributes

/-- The text of elements, with `eol` behind each. -/
def tagsText (eol : Text) (tags : List Tag) : Text :=
  tags.flatMap fun tag => 60 :: (tag.body ++ 47 :: 62 :: eol)

/-- Names are names, and no attribute is there twice; only the first value may have to be
escaped. -/
structure Tag.Proper (tag : Tag) : Prop where
  name : IsName tag.name
  keys : ∀ a ∈ tag.attributes, IsName a.1
  nodup : (tag.attributes.map Prod.fst).Nodup
  tail : ∀ a ∈ tag.attributes.tail, Plain a.2

/-- No value has to be escaped. -/
def Tag.Plain (tag : Tag) : Prop := ∀ a ∈ tag.attributes, Xml.Plain a.2

def forest : List Tag → Forest
  | [] => .nil
  | tag :: tags => .element tag.name tag.attributes .nil (forest tags)

variable {content' : Text → Option (Forest × Text)} {tag : Tag} {tags : List Tag} {eol : Text}
  {e : Element} {f : Forest}

theorem forest_elements (tags : List Tag) :
    (forest tags).elements = tags.map fun tag => ⟨tag.name, tag.attributes, .nil⟩ := by
  induction tags with
  | nil => rfl
  | cons tag tags ih => rw [forest, Forest.elements, ih, List.map_cons]

theorem Tag.Proper.plain (htag : tag.Proper) (h : ∀ a ∈ tag.attributes.head?, Xml.Plain a.2) :
    tag.Plain := by
  intro a ha
  cases hattributes : tag.attributes with
  | nil =>
    rw [hattributes] at ha
    cases ha
  | cons b as =>
    have htail := htag.tail
    rw [hattributes] at h ha htail
    rcases List.mem_cons.1 ha with rfl | ha
    · exact h a rfl
    · exact htail a ha

theorem name_body (htag : tag.Proper) (hc : isNameChar c = false) :
    name (tag.body ++ c :: s) = some (tag.name, attrsText tag.attributes ++ c :: s) := by
  rw [Tag.body, List.append_assoc]
  cases tag.attributes with
  | nil => exact name_append htag.name hc
  | cons a as =>
    rw [attrsText_cons]
    exact name_append htag.name (by decide)

/-- An empty element is read back if no value has to be escaped. -/
theorem element_tag (htag : tag.Proper) (hplain : tag.Plain) :
    element content' (tag.body ++ 47 :: 62 :: s) = some (⟨tag.name, tag.attributes, .nil⟩, s) := by
  have hattributes := attributes_length (s := 47 :: 62 :: s)
    (fun a ha => ⟨htag.keys a ha, hplain a ha⟩) rfl
  rw [element, name_body htag (by decide), Option.bind_some]
  simp only [hattributes, Option.bind_some, if_neg (not_not.2 htag.nodup)]
  rw [if_pos]
  · rfl
  · exact ⟨s, rfl⟩

/-- What is read as an element has the attributes that were read. -/
theorem attributes_of_element (h : element content' s = some (e, t)) :
    ∃ s₁ t₁, name s = some (e.name, s₁) ∧
      attributes (s₁.length + 1) s₁ = some (e.attributes, t₁) := by
  obtain ⟨⟨name, s₁⟩, hname, h⟩ := Option.bind_eq_some_iff.1 h
  obtain ⟨⟨as, t₁⟩, hattributes, h⟩ := Option.bind_eq_some_iff.1 h
  dsimp only at hattributes h
  split_ifs at h
  · obtain rfl := congrArg Prod.fst (Option.some.inj h)
    exact ⟨s₁, t₁, hname, hattributes⟩
  · obtain ⟨t₂, -, h⟩ := Option.bind_eq_some_iff.1 h
    obtain ⟨⟨inside, t₃⟩, -, h⟩ := Option.bind_eq_some_iff.1 h
    obtain ⟨t₄, -, h⟩ := Option.bind_eq_some_iff.1 h
    obtain ⟨t₅, -, h⟩ := Option.map_eq_some_iff.1 h
    obtain rfl := congrArg Prod.fst h
    exact ⟨s₁, t₁, hname, hattributes⟩

/-- The value of the first attribute of a tag is that of the attribute in the element. -/
def Tag.Names (tag : Tag) (e : Element) : Prop :=
  ∀ a ∈ tag.attributes.head?, e.attributes.lookup a.1 = some a.2

/-- The element has the first value of its tag only if that has not to be escaped. -/
theorem plain_of_element (htag : tag.Proper) (hc : isNameChar c = false)
    (h : element content' (tag.body ++ c :: s) = some (e, t)) (hnames : tag.Names e) :
    tag.Plain := by
  refine htag.plain fun a ha => ?_
  obtain ⟨as, has⟩ : ∃ as, tag.attributes = a :: as := List.head?_eq_some_iff.1 ha
  have hkey : IsName a.1 := htag.keys a (by rw [has]; exact List.mem_cons_self)
  obtain ⟨s₁, t₁, hname, hattributes⟩ := attributes_of_element h
  rw [name_body htag hc, has] at hname
  obtain ⟨-, rfl⟩ := Prod.mk.inj (Option.some.inj hname)
  rw [attrsText_cons, attributes_cons hkey] at hattributes
  obtain ⟨⟨v, t₂⟩, hvalue, hattributes⟩ := Option.bind_eq_some_iff.1 hattributes
  obtain ⟨⟨as', t₃⟩, -, heq⟩ := Option.map_eq_some_iff.1 hattributes
  have hattrs : (a.1, v) :: as' = e.attributes := congrArg Prod.fst heq
  have hlookup := hnames a ha
  rw [← hattrs, List.lookup_cons_self] at hlookup
  obtain rfl := Option.some.inj hlookup
  exact (value_quoted.1 hvalue).1

/-! ### Content -/

theorem content_element (hs : s.head?.any isNameStart = true) :
    content (n + 1) (60 :: s) = (element (content n) s).bind fun (e, s) =>
      (content n s).map fun (rest, s) => (.element e.name e.attributes e.inside rest, s) := by
  cases s with
  | nil => cases hs
  | cons c s =>
    obtain ⟨-, hslash, hmark, hquestion⟩ := of_isNameStart hs
    rw [content.eq_def]
    dsimp only
    rw [if_pos rfl]
    split
    · next heq => exact absurd (List.cons.inj heq).1 hslash
    · next heq => exact absurd (List.cons.inj heq).1 hmark
    · next heq => exact absurd (List.cons.inj heq).1 hquestion
    · rfl

theorem content_space (hc : isSpace c = true) : content (n + 1) (c :: s) = content n s := by
  have hne : c ≠ 60 ∧ c ≠ 38 ∧ 93 ≠ c := by
    simp only [isSpace, Bool.or_eq_true, decide_eq_true_eq] at hc
    rcases hc with ((rfl | rfl) | rfl) | rfl <;> decide
  have hend : ¬ lit "]]>" <+: c :: s := fun h => hne.2.2 (List.cons_prefix_cons.1 h).1
  rw [content.eq_def]
  dsimp only
  rw [if_neg hne.1, if_neg hne.2.1, if_neg hend]

theorem content_eol (heol : ∀ c ∈ eol, isSpace c = true) :
    content (n + eol.length) (eol ++ s) = content n s := by
  induction eol with
  | nil => rfl
  | cons c eol ih =>
    rw [List.forall_mem_cons] at heol
    rw [List.length_cons, ← Nat.add_assoc, List.cons_append, content_space heol.1, ih heol.2]

/-- The spaces are left behind. -/
theorem exists_content_of_eol {r : Forest × Text} (heol : ∀ c ∈ eol, isSpace c = true)
    (h : content n (eol ++ s) = some r) : ∃ m, content m s = some r := by
  induction eol generalizing n with
  | nil => exact ⟨n, h⟩
  | cons c eol ih =>
    rw [List.forall_mem_cons] at heol
    cases n with
    | zero => cases h
    | succ n =>
      rw [List.cons_append, content_space heol.1] at h
      exact ih heol.2 h

theorem tagsText_cons : tagsText eol (tag :: tags) ++ s =
    60 :: (tag.body ++ 47 :: 62 :: (eol ++ (tagsText eol tags ++ s))) := by
  simp [tagsText]

theorem Tag.Proper.head? (htag : tag.Proper) (s : Text) :
    (tag.body ++ s).head?.any isNameStart = true := by
  rw [Tag.body, List.append_assoc]
  exact head?_append_of_isName htag.name _

/-- An element that is read back, and what follows on it. -/
theorem content_tag (htag : tag.Proper) (hplain : tag.Plain) :
    content (n + 1) (tagsText eol (tag :: tags) ++ s) =
      (content n (eol ++ (tagsText eol tags ++ s))).map fun (rest, s) =>
        (.element tag.name tag.attributes .nil rest, s) := by
  rw [tagsText_cons, content_element (htag.head? _), element_tag htag hplain]
  rfl

/-- **Empty elements** are read back if no value has to be escaped. -/
theorem content_tagsText (heol : ∀ c ∈ eol, isSpace c = true) (htags : ∀ tag ∈ tags, tag.Proper)
    (hplain : ∀ tag ∈ tags, tag.Plain) (hn : (tagsText eol tags).length < n) :
    content n (tagsText eol tags ++ 60 :: 47 :: s) = some (forest tags, 60 :: 47 :: s) := by
  induction tags generalizing n with
  | nil =>
    obtain ⟨m, rfl⟩ : ∃ m, n = m + 1 := ⟨n - 1, by omega⟩
    rfl
  | cons tag tags ih =>
    rw [List.forall_mem_cons] at htags hplain
    have hlen : (tagsText eol (tag :: tags) ++ []).length = _ := congrArg List.length tagsText_cons
    simp only [List.append_nil, List.length_cons, List.length_append] at hlen
    obtain ⟨m, rfl⟩ : ∃ m, n = m + eol.length + 1 := ⟨n - eol.length - 1, by omega⟩
    rw [content_tag htags.1 hplain.1, content_eol heol, ih htags.2 hplain.2 (by omega)]
    rfl

/-- **Conversely**, whatever the elements are read as: if each has the first value of its tag, no
value has to be escaped. -/
theorem plain_of_content (heol : ∀ c ∈ eol, isSpace c = true) (htags : ∀ tag ∈ tags, tag.Proper)
    (h : content n (tagsText eol tags ++ s) = some (f, t))
    (hf : List.Forall₂ Tag.Names tags f.elements) : ∀ tag ∈ tags, tag.Plain := by
  induction tags generalizing n f with
  | nil => exact nofun
  | cons tag tags ih =>
    rw [List.forall_mem_cons] at htags
    obtain ⟨m, rfl⟩ : ∃ m, n = m + 1 := by
      cases n with
      | zero => cases h
      | succ m => exact ⟨m, rfl⟩
    have hplain : tag.Plain := by
      rw [tagsText_cons, content_element (htags.1.head? _)] at h
      obtain ⟨⟨e, s₁⟩, he, h⟩ := Option.bind_eq_some_iff.1 h
      obtain ⟨⟨rest, s₂⟩, -, heq⟩ := Option.map_eq_some_iff.1 h
      obtain rfl := congrArg Prod.fst heq
      exact plain_of_element htags.1 (by decide) he (List.forall₂_cons.1 hf).1
    rw [content_tag htags.1 hplain] at h
    obtain ⟨⟨rest, s₁⟩, hrest, heq⟩ := Option.map_eq_some_iff.1 h
    obtain ⟨rfl, rfl⟩ := Prod.mk.inj heq
    obtain ⟨m', hm'⟩ := exists_content_of_eol heol hrest
    exact List.forall_mem_cons.2 ⟨hplain, ih htags.2 hm' (List.forall₂_cons.1 hf).2⟩

/-! ### Documents -/

/-- A document with a document type and empty elements in the root, with `eol` behind each tag. -/
def page (eol system : Text) (root : Tag) (tags : List Tag) : Text :=
  lit "<?xml version=\"1.0\"?>" ++ (eol ++ (lit "<!DOCTYPE " ++ (root.name ++ (lit " SYSTEM \"" ++
    (system ++ (lit "\">" ++ (eol ++ (60 :: (root.body ++ 62 :: (eol ++ (tagsText eol tags ++
      60 :: 47 :: (root.name ++ 62 :: eol))))))))))))

variable {system : Text} {root : Tag}

theorem isChar_of_isSpace (hc : isSpace c = true) : isChar c = true := by
  simp only [isSpace, Bool.or_eq_true, decide_eq_true_eq] at hc
  rcases hc with ((rfl | rfl) | rfl) | rfl <;> decide

theorem legal_name (hk : IsName k) : Legal (k ++ s) ↔ Legal s :=
  legal_append fun c hc => (hk.2 c hc).2

theorem legal_eol (heol : ∀ c ∈ eol, isSpace c = true) : Legal (eol ++ s) ↔ Legal s :=
  legal_append fun c hc => isChar_of_isSpace (heol c hc)

theorem legal_attrsText (has : ∀ a ∈ as, IsName a.1) :
    Legal (attrsText as ++ s) ↔ (∀ a ∈ as, Legal a.2) ∧ Legal s := by
  induction as with
  | nil => simp [attrsText]
  | cons a as ih =>
    rw [List.forall_mem_cons] at has
    rw [attrsText_cons, legal_cons (by decide), legal_name has.1, legal_cons (by decide),
      legal_cons (by decide), legal_append_cons (by decide), ih has.2, List.forall_mem_cons,
      and_assoc]

theorem legal_body (htag : tag.Proper) :
    Legal (tag.body ++ s) ↔ (∀ a ∈ tag.attributes, Legal a.2) ∧ Legal s := by
  rw [Tag.body, List.append_assoc, legal_name htag.name, legal_attrsText htag.keys]

theorem legal_tagsText (heol : ∀ c ∈ eol, isSpace c = true) (htags : ∀ tag ∈ tags, tag.Proper) :
    Legal (tagsText eol tags ++ s) ↔ (∀ tag ∈ tags, ∀ a ∈ tag.attributes, Legal a.2) ∧ Legal s := by
  induction tags with
  | nil => simp [tagsText]
  | cons tag tags ih =>
    rw [List.forall_mem_cons] at htags
    rw [tagsText_cons, legal_cons (by decide), legal_body htags.1, legal_cons (by decide),
      legal_cons (by decide), legal_eol heol, ih htags.2, List.forall_mem_cons, and_assoc]

/-- The fixed parts of a page are in order. -/
structure Page (eol system : Text) (root : Tag) : Prop where
  spaces : ∀ c ∈ eol, isSpace c = true
  literal : ∀ c ∈ system, isChar c = true ∧ c ≠ 34
  proper : root.Proper
  plain : root.Plain
  legal : ∀ a ∈ root.attributes, Legal a.2

theorem legal_page (hpage : Page eol system root) (htags : ∀ tag ∈ tags, tag.Proper) :
    Legal (page eol system root tags) ↔ ∀ tag ∈ tags, ∀ a ∈ tag.attributes, Legal a.2 := by
  have hend : Legal (root.name ++ 62 :: eol) := by
    rw [legal_name hpage.proper.name, legal_cons (by decide)]
    exact legal_of_isChar fun c hc => isChar_of_isSpace (hpage.spaces c hc)
  rw [page, legal_append_all (by decide), legal_eol hpage.spaces, legal_append_all (by decide),
    legal_name hpage.proper.name, legal_append_all (by decide),
    legal_append fun c hc => (hpage.literal c hc).1, legal_append_all (by decide),
    legal_eol hpage.spaces, legal_cons (by decide), legal_body hpage.proper,
    legal_cons (by decide), legal_eol hpage.spaces, legal_tagsText hpage.spaces htags,
    legal_cons (by decide), legal_cons (by decide)]
  exact ⟨fun h => h.2.1, fun h => ⟨hpage.legal, h, hend⟩⟩

/-! The parts of a page, one after the other. -/

theorem expect_append (w s : Text) : expect w (w ++ s) = some s := by
  rw [expect, if_pos (List.prefix_append w s), List.drop_left]

theorem xmlDecl_append (s : Text) : xmlDecl (lit "<?xml version=\"1.0\"?>" ++ s) = some s := by
  have hdecl : lit "<?xml version=\"1.0\"?>" ++ s = lit "<?xml" ++
      (attrsText [(lit "version", lit "1.0")] ++ (lit "?>" ++ s)) := rfl
  have hattributes : attributes _ (attrsText [(lit "version", lit "1.0")] ++ (lit "?>" ++ s)) =
      some ([(lit "version", lit "1.0")], lit "?>" ++ s) := attributes_length (by decide) rfl
  have hspace : (attrsText [(lit "version", lit "1.0")] ++ (lit "?>" ++ s)).head?.any isSpace =
      true := rfl
  have hkeys : [(lit "version", lit "1.0")].map Prod.fst ∈ declKeys := by decide
  rw [hdecl, xmlDecl, expect_append]
  dsimp only
  rw [if_pos hspace, hattributes, Option.bind_some]
  dsimp only
  rw [if_pos hkeys, expect_append]

/-- Spaces before a tag that is neither a comment nor an instruction. -/
theorem misc_tag (heol : ∀ c ∈ eol, isSpace c = true) (h : ¬ lit "!--" <+: s)
    (hquestion : s.head? ≠ some 63) : misc (n + 1) (eol ++ 60 :: s) = some (60 :: s) := by
  rw [misc, List.dropWhile_append_of_pos heol, List.dropWhile_cons_of_neg (by decide)]
  split
  · next t heq =>
    obtain ⟨-, rfl⟩ := List.cons.inj heq
    exact absurd ⟨t, rfl⟩ h
  · next t heq =>
    obtain ⟨-, rfl⟩ := List.cons.inj heq
    exact absurd rfl hquestion
  · rfl

theorem misc_of_isNameStart (heol : ∀ c ∈ eol, isSpace c = true)
    (hs : s.head?.any isNameStart = true) : misc (n + 1) (eol ++ 60 :: s) = some (60 :: s) := by
  cases s with
  | nil => cases hs
  | cons c s =>
    obtain ⟨-, -, hmark, hquestion⟩ := of_isNameStart hs
    refine misc_tag heol (fun h => ?_) fun h => ?_
    · exact hmark (List.cons_prefix_cons.1 h).1.symm
    · exact hquestion (Option.some.inj h)

theorem misc_end (heol : ∀ c ∈ eol, isSpace c = true) (hn : 0 < n) : misc n eol = some [] := by
  obtain ⟨m, rfl⟩ : ∃ m, n = m + 1 := ⟨n - 1, by omega⟩
  rw [misc, List.dropWhile_eq_nil_iff.2 heol]

theorem spaces_cons (hc : isSpace c = true) : spaces (c :: s) = some (s.dropWhile isSpace) := by
  have hhead : (c :: s).head?.any isSpace = true := hc
  rw [spaces, if_pos hhead, List.dropWhile_cons_of_pos hc]

theorem doctype_append (hname : IsName k) (hsystem : ∀ c ∈ system, c ≠ 34) (s : Text) :
    doctype (lit "<!DOCTYPE " ++ (k ++ (lit " SYSTEM \"" ++ (system ++ (lit "\">" ++ s))))) =
      some s := by
  have hquoted : quoted (34 :: (system ++ 34 :: 62 :: s)) = some (system, 62 :: s) :=
    quoted_append (.inl rfl) fun h => hsystem 34 h rfl
  have hspace : (k ++ 32 :: (lit "SYSTEM \"" ++ (system ++ 34 :: 62 :: s))).dropWhile isSpace =
      k ++ 32 :: (lit "SYSTEM \"" ++ (system ++ 34 :: 62 :: s)) := by
    cases k with
    | nil => cases hname.1
    | cons c k => exact List.dropWhile_cons_of_neg (by simp [(of_isNameStart hname.1).1])
  have htext : lit "<!DOCTYPE " ++ (k ++ (lit " SYSTEM \"" ++ (system ++ (lit "\">" ++ s)))) =
      lit "<!DOCTYPE" ++ 32 :: (k ++ 32 :: (lit "SYSTEM \"" ++ (system ++ 34 :: 62 :: s))) := rfl
  have hfirst : spaces (32 :: (k ++ 32 :: (lit "SYSTEM \"" ++ (system ++ 34 :: 62 :: s)))) =
      some (k ++ 32 :: (lit "SYSTEM \"" ++ (system ++ 34 :: 62 :: s))) := by
    rw [spaces_cons (by decide), hspace]
  have hdrop : (32 :: (lit "SYSTEM \"" ++ (system ++ 34 :: 62 :: s))).dropWhile isSpace =
      lit "SYSTEM \"" ++ (system ++ 34 :: 62 :: s) := rfl
  have hsecond : spaces ((lit "SYSTEM \"" ++ (system ++ 34 :: 62 :: s)).drop 6) =
      some (34 :: (system ++ 34 :: 62 :: s)) := rfl
  have hne : lit "SYSTEM \"" ++ (system ++ 34 :: 62 :: s) ≠
      32 :: (lit "SYSTEM \"" ++ (system ++ 34 :: 62 :: s)) := fun h =>
    absurd (List.cons.inj h).1 (by decide)
  have hkeyword : lit "SYSTEM" <+: lit "SYSTEM \"" ++ (system ++ 34 :: 62 :: s) := ⟨_, rfl⟩
  rw [htext, doctype, expect_append]
  simp only [hfirst, Option.bind_some, name_append hname (by decide : isNameChar 32 = false), hdrop,
    if_pos (And.intro hne hkeyword), hsecond, hquoted, Option.map_some]
  rfl

/-- An element with content. -/
theorem element_open (htag : tag.Proper) (hplain : tag.Plain) :
    element content' (tag.body ++ 62 :: s) = (content' s).bind fun (inside, s) =>
      (expect (lit "</" ++ tag.name) s).bind fun s =>
        (expect (lit ">") (s.dropWhile isSpace)).map fun s =>
          (⟨tag.name, tag.attributes, inside⟩, s) := by
  have hattributes := attributes_length (s := 62 :: s)
    (fun a ha => ⟨htag.keys a ha, hplain a ha⟩) rfl
  rw [element, name_body htag (by decide), Option.bind_some]
  simp only [hattributes, Option.bind_some, if_neg (not_not.2 htag.nodup)]
  rw [if_neg]
  · rfl
  · intro h
    exact absurd (List.cons_prefix_cons.1 h).1 (by decide)

/-- What a page comes to, from the elements in its root on. -/
theorem document_page (hpage : Page eol system root) (hlegal : Legal (page eol system root tags)) :
    ∃ n > (tagsText eol tags).length + eol.length, document (page eol system root tags) =
      (content n (eol ++ (tagsText eol tags ++ 60 :: 47 :: (root.name ++ 62 :: eol)))).bind
        fun (inside, s) => (expect (lit "</" ++ root.name) s).bind fun s =>
          (expect (lit ">") (s.dropWhile isSpace)).bind fun s =>
            (misc n s).bind fun s =>
              if s = [] then some ⟨root.name, root.attributes, inside⟩ else none := by
  refine ⟨(page eol system root tags).length + 1, ?_, ?_⟩
  · simp only [page, List.length_append, List.length_cons]
    omega
  rw [document, if_neg (not_not.2 hlegal)]
  generalize (page eol system root tags).length = n
  have hdoctype : ∀ s, misc (n + 1) (eol ++ (lit "<!DOCTYPE " ++ s)) =
      some (lit "<!DOCTYPE " ++ s) := by
    intro s
    refine misc_tag (s := lit "!DOCTYPE " ++ s) hpage.spaces (fun h => ?_) fun h => ?_
    · exact absurd (List.cons_prefix_cons.1 (List.cons_prefix_cons.1 h).2).1 (by decide)
    · have hhead : (lit "!DOCTYPE " ++ s).head? = some 33 := rfl
      rw [hhead] at h
      cases h
  have hroot : ∀ s, misc (n + 1) (eol ++ 60 :: (root.body ++ s)) = some (60 :: (root.body ++ s)) :=
    fun s => misc_of_isNameStart hpage.spaces (hpage.proper.head? s)
  have hopen : ∀ s, expect (lit "<") (60 :: s) = some s := expect_append (lit "<")
  rw [page, xmlDecl_append, Option.bind_some, hdoctype, Option.bind_some,
    doctype_append hpage.proper.name fun c hc => (hpage.literal c hc).2, Option.bind_some, hroot,
    Option.bind_some, hopen, Option.bind_some, element_open hpage.proper hpage.plain]
  cases content (n + 1) (eol ++ (tagsText eol tags ++ 60 :: 47 :: (root.name ++ 62 :: eol))) with
  | none => rfl
  | some r =>
    simp only [Option.bind_some]
    cases expect (lit "</" ++ root.name) r.2 with
    | none => rfl
    | some s =>
      simp only [Option.bind_some]
      cases expect (lit ">") (s.dropWhile isSpace) <;> rfl

/-- **A page** without characters that have to be escaped is read back. -/
theorem document_of_plain (hpage : Page eol system root) (htags : ∀ tag ∈ tags, tag.Proper)
    (hlegal : ∀ tag ∈ tags, ∀ a ∈ tag.attributes, Legal a.2) (hplain : ∀ tag ∈ tags, tag.Plain) :
    document (page eol system root tags) = some ⟨root.name, root.attributes, forest tags⟩ := by
  obtain ⟨n, hn, hdocument⟩ := document_page hpage ((legal_page hpage htags).2 hlegal)
  obtain ⟨m, rfl⟩ : ∃ m, n = m + eol.length := ⟨n - eol.length, by omega⟩
  have hend : lit "</" ++ root.name ++ 62 :: eol = 60 :: 47 :: (root.name ++ 62 :: eol) := rfl
  have hclose : ∀ s, (62 :: s).dropWhile isSpace = lit ">" ++ s := fun s => rfl
  rw [hdocument, content_eol hpage.spaces,
    content_tagsText hpage.spaces htags hplain (by omega), Option.bind_some]
  dsimp only
  rw [← hend, expect_append, Option.bind_some, hclose, expect_append, Option.bind_some,
    misc_end hpage.spaces (by omega), Option.bind_some, if_pos rfl]

/-- **Conversely**, whatever a page is read as: if each element has the first value of its tag,
no value has to be escaped, and all characters are legal. -/
theorem plain_of_document (hpage : Page eol system root) (htags : ∀ tag ∈ tags, tag.Proper)
    (h : document (page eol system root tags) = some e)
    (he : List.Forall₂ Tag.Names tags e.inside.elements) :
    (∀ tag ∈ tags, ∀ a ∈ tag.attributes, Legal a.2) ∧ ∀ tag ∈ tags, tag.Plain := by
  have hlegal : Legal (page eol system root tags) := by
    by_contra hnot
    rw [document, if_pos hnot] at h
    cases h
  refine ⟨(legal_page hpage htags).1 hlegal, ?_⟩
  obtain ⟨n, -, hdocument⟩ := document_page hpage hlegal
  rw [hdocument] at h
  obtain ⟨⟨inside, s₁⟩, hcontent, h⟩ := Option.bind_eq_some_iff.1 h
  obtain ⟨s₂, -, h⟩ := Option.bind_eq_some_iff.1 h
  obtain ⟨s₃, -, h⟩ := Option.bind_eq_some_iff.1 h
  obtain ⟨s₄, -, h⟩ := Option.bind_eq_some_iff.1 h
  split_ifs at h
  obtain rfl := Option.some.inj h
  obtain ⟨m, hm⟩ := exists_content_of_eol hpage.spaces hcontent
  exact plain_of_content hpage.spaces htags hm he

end Xml

end Msm8909w
