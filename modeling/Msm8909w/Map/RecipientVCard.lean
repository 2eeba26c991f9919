import Msm8909w.Lib.Replace
import Msm8909w.Map.MapUtils

/-!
# The interpreter of vCards

The class `RecipientVCard` of `MapUtils.java` is called back by the parser of vCards.  A parser
delivers a property in one of two ways: in parts, the name and then the values, or as a whole.

* `handle` : one callback,
* `deliver_eq` : both ways of delivery have the same effect,
* `Survives` : the first values with a text are kept, with nothing but two entities replaced,
* `survives_iff` : this is so exactly if the texts are in lower case and there is no name.

A name is put together with its first part twice.
-/

namespace Msm8909w

namespace Map

/-! ### The class -/

/-- The fields of `RecipientVCard`. -/
structure Recipient extends RecipientVCard where
  mName : JString := []
  mFormattedName : JString := []
  mEmail : JString := []
  mCurrentProperty : JString := []
  deriving DecidableEq, Repr

def PROPERTY_N : JString := js "N"
def PROPERTY_TEL : JString := js "TEL"
def PROPERTY_EMAIL : JString := js "EMAIL"
def PROPERTY_FN : JString := js "FN"

/-- The entities that are replaced. -/
def ampLt : JString := js "&lt;"
def ampGt : JString := js "&gt;"

section Class

/- `String.toLowerCase`, which depends on the locale of the device. -/
variable (toLowerCase : JString → JString)

/-- `replaceSpecialVcardString`. -/
def replaceSpecialVcardString (input : JString) : JString :=
  let str := replaceAll ampLt (js "<") (toLowerCase input)
  replaceAll ampGt (js ">") (toLowerCase str)

/-- `values.get(0)`. -/
def firstValue : List JString → Except Exn JString
  | v :: _ => .ok v
  | [] => .error .indexOutOfBounds

/-- The text of a name. -/
def joinName (first : JString) (values : List JString) : JString :=
  -- the loop starts with the first value again
  first ++ values.flatMap (js ", " ++ ·)

/-- What `propertyValues` and `onPropertyCreated` do with a property. -/
def interpret (name : JString) (values : List JString) (r : Recipient) : Except Exn Recipient :=
  if PROPERTY_N = name ∧ r.mName.length = 0 then do
    let first ← firstValue values
    return { r with mName := replaceSpecialVcardString toLowerCase (joinName first values) }
  else if PROPERTY_TEL = name ∧ r.mTel.length = 0 then do
    let first ← firstValue values
    return { r with mTel := replaceSpecialVcardString toLowerCase first }
  else if PROPERTY_EMAIL = name ∧ r.mEmail.length = 0 then do
    let first ← firstValue values
    return { r with mEmail := replaceSpecialVcardString toLowerCase first }
  else if PROPERTY_FN = name ∧ r.mFormattedName.length = 0 then do
    let first ← firstValue values
    return { r with mFormattedName := replaceSpecialVcardString toLowerCase first }
  else return r

/-- The callbacks of `VCardInterpreter`. -/
inductive Callback
  | start
  | finish
  | startEntry
  | endEntry
  | startProperty
  | endProperty
  | propertyGroup (group : JString)
  | propertyName (name : JString)
  | propertyParamType (type : JString)
  | propertyParamValue (value : JString)
  | propertyValues (values : List JString)
  | onVCardStarted
  | onVCardEnded
  | onEntryStarted
  | onEntryEnded
  | onPropertyCreated (name : JString) (values : Option (List JString))
  deriving DecidableEq, Repr

/-- Forget what an earlier entry has given. -/
def Recipient.reset (r : Recipient) : Recipient :=
  { r with mName := [], mFormattedName := [], mTel := [], mEmail := [] }

/-- One callback. -/
def handle (r : Recipient) : Callback → Except Exn Recipient
  | .startEntry => return r.reset
  | .onEntryStarted => return r.reset
  | .startProperty => return { r with mCurrentProperty := [] }
  | .endProperty => return { r with mCurrentProperty := [] }
  | .propertyName name => return { r with mCurrentProperty := name }
  | .propertyValues values => interpret toLowerCase r.mCurrentProperty values r
  | .onPropertyCreated _ none => return r
  | .onPropertyCreated name (some values) => interpret toLowerCase name values r
  | _ => return r

/-- Callbacks one after the other. -/
def handleAll (r : Recipient) (cs : List Callback) : Except Exn Recipient :=
  cs.foldlM (handle toLowerCase) r

end Class

/-! ### Entries -/

/-- A property; it has at least one value. -/
structure VProperty where
  name : JString
  values : List JString
  nonempty : values ≠ []

/-- What is said of a property between its name and its values. -/
inductive Param
  | group (group : JString)
  | type (type : JString)
  | value (value : JString)

def Param.callback : Param → Callback
  | group s => .propertyGroup s
  | type s => .propertyParamType s
  | value s => .propertyParamValue s

/-- How a property is delivered. -/
inductive Delivery
  | inParts (params : List Param)
  | whole

def Delivery.callbacks : Delivery → VProperty → List Callback
  | inParts params, p =>
    [.startProperty, .propertyName p.name] ++ params.map Param.callback ++
      [.propertyValues p.values, .endProperty]
  | whole, p => [.onPropertyCreated p.name (some p.values)]

/-- An entry; old parsers and new ones announce it differently. -/
def entryCallbacks (old : Bool) (ps : List (Delivery × VProperty)) : List Callback :=
  [if old then .startEntry else .onEntryStarted] ++ ps.flatMap (fun p => p.1.callbacks p.2) ++
    [if old then .endEntry else .onEntryEnded]

/-! ### What is asked for -/

/-- The two entities replaced. -/
def unescape (s : JString) : JString := replaceAll ampGt (js ">") (replaceAll ampLt (js "<") s)

/-- The values of a property one after the other. -/
def joined (values : List JString) : JString := (js ", ").intercalate values

/-- The texts that a kind of property gives. -/
def texts (name : JString) (text : List JString → JString) (ps : List VProperty) : List JString :=
  (ps.filter (·.name = name)).map fun p => text p.values

/-- The first text that is not empty. -/
def firstText (ts : List JString) : Option JString := ts.find? (· ≠ [])

def firstOf (values : List JString) : JString := values.headD []

/-- What becomes of the first text that is not empty. -/
def slot (f : JString → JString) (ts : List JString) : JString := ((firstText ts).map f).getD []

/-- The first texts are kept as `f` makes them; `nameText` puts a name together. -/
structure KeptBy (f : JString → JString) (nameText : List JString → JString) (ps : List VProperty)
    (r : Recipient) : Prop where
  tel : r.mTel = slot f (texts PROPERTY_TEL firstOf ps)
  email : r.mEmail = slot f (texts PROPERTY_EMAIL firstOf ps)
  formattedName : r.mFormattedName = slot f (texts PROPERTY_FN firstOf ps)
  name : r.mName = slot f (texts PROPERTY_N nameText ps)

/-- The first texts are kept, with nothing but the two entities replaced. -/
abbrev Kept (ps : List VProperty) (r : Recipient) : Prop := KeptBy unescape joined ps r

/-- Whatever way the properties of an entry are delivered, the first texts are kept, and the result
is the same. -/
def Survives (toLowerCase : JString → JString) (ps : List VProperty) : Prop :=
  ∀ (r : Recipient) (old : Bool) (ds : List (Delivery × VProperty)), ds.map Prod.snd = ps →
    ∃ r', handleAll toLowerCase r (entryCallbacks old ds) = .ok r' ∧ Kept ps r' ∧
      ∀ (old' : Bool) (ds' : List (Delivery × VProperty)), ds'.map Prod.snd = ps →
        ∃ r'', handleAll toLowerCase r (entryCallbacks old' ds') = .ok r'' ∧
          { r'' with mCurrentProperty := [] } = { r' with mCurrentProperty := [] }

/-! ### One property -/

section Run

variable {toLowerCase : JString → JString} {r : Recipient} {ps : List VProperty} {p : VProperty}
  {f : JString → JString} {ts : List JString} {t : JString}

/-- The name as the code puts it together. -/
def codeName (values : List JString) : JString := joinName (firstOf values) values

/-- What a property changes. -/
def keep (f : JString → JString) (p : VProperty) (r : Recipient) : Recipient :=
  { r with
    mName := if PROPERTY_N = p.name ∧ r.mName.length = 0 then f (codeName p.values) else r.mName
    mTel := if PROPERTY_TEL = p.name ∧ r.mTel.length = 0 then f (firstOf p.values) else r.mTel
    mEmail := if PROPERTY_EMAIL = p.name ∧ r.mEmail.length = 0 then f (firstOf p.values)
      else r.mEmail
    mFormattedName :=
      if PROPERTY_FN = p.name ∧ r.mFormattedName.length = 0 then f (firstOf p.values)
      else r.mFormattedName }

theorem interpret_eq (p : VProperty) (r : Recipient) :
    interpret toLowerCase p.name p.values r =
      .ok (keep (replaceSpecialVcardString toLowerCase) p r) := by
  obtain ⟨name, values, hne⟩ := p
  obtain ⟨v, vs, rfl⟩ := List.exists_cons_of_ne_nil hne
  have hfirst : firstValue (v :: vs) = .ok v := rfl
  have h1 : PROPERTY_N ≠ PROPERTY_TEL := by decide
  have h2 : PROPERTY_N ≠ PROPERTY_EMAIL := by decide
  have h3 : PROPERTY_N ≠ PROPERTY_FN := by decide
  have h4 : PROPERTY_TEL ≠ PROPERTY_EMAIL := by decide
  have h5 : PROPERTY_TEL ≠ PROPERTY_FN := by decide
  have h6 : PROPERTY_EMAIL ≠ PROPERTY_FN := by decide
  simp only [interpret, keep, hfirst]
  -- a name is the name of one property at most
  split_ifs <;> first | rfl | (exfalso; simp_all)

/-- **Both ways of delivery** do the same, but for the name of the current property. -/
theorem deliver_eq (d : Delivery) (p : VProperty) (r : Recipient) :
    ∃ current, handleAll toLowerCase r (d.callbacks p) =
      .ok { keep (replaceSpecialVcardString toLowerCase) p r with mCurrentProperty := current
        } := by
  cases d with
  | whole =>
    refine ⟨r.mCurrentProperty, ?_⟩
    rw [Delivery.callbacks, handleAll, List.foldlM_cons, handle, interpret_eq]
    rfl
  | inParts params =>
    refine ⟨[], ?_⟩
    have hparams : ∀ r' : Recipient,
        (params.map Param.callback).foldlM (handle toLowerCase) r' = .ok r' := by
      intro r'
      induction params with
      | nil => rfl
      | cons x params ih =>
        rw [List.map_cons, List.foldlM_cons]
        cases x <;> exact ih
    have hvalues := @interpret_eq toLowerCase p { r with mCurrentProperty := p.name }
    rw [Delivery.callbacks, handleAll, List.foldlM_append, List.foldlM_append]
    show (do
      let r' ← (params.map Param.callback).foldlM (handle toLowerCase)
        { r with mCurrentProperty := p.name }
      [Callback.propertyValues p.values, .endProperty].foldlM (handle toLowerCase) r') = _
    rw [hparams]
    show (do
      let r' ← interpret toLowerCase p.name p.values { r with mCurrentProperty := p.name }
      [Callback.endProperty].foldlM (handle toLowerCase) r') = _
    rw [hvalues]
    rfl

/-! ### Slots -/

theorem slot_cons (h : t ≠ []) : slot f (t :: ts) = f t := by
  simp [slot, firstText, h]

theorem slot_append (hf : ∀ t, f t = [] ↔ t = []) :
    slot f (ts ++ [t]) = if (slot f ts).length = 0 then f t else slot f ts := by
  have hlast : slot f [t] = f t := by
    by_cases ht : t = []
    · rw [ht, (hf []).2 rfl]
      rfl
    · exact slot_cons ht
  have hnone : (slot f ts).length = 0 ↔ firstText ts = none := by
    rw [List.length_eq_zero_iff, slot]
    cases hfirst : firstText ts with
    | none => simp
    | some t' =>
      have hne : t' ≠ [] := by simpa using List.find?_some hfirst
      simp [hf, hne]
  have happend : firstText (ts ++ [t]) = (firstText ts).or (firstText [t]) := List.find?_append ..
  split_ifs with h
  · rw [slot, happend, hnone.1 h]
    exact hlast
  · obtain ⟨t', ht'⟩ := Option.ne_none_iff_exists'.1 (mt hnone.2 h)
    rw [slot, slot, happend, ht']
    rfl

theorem texts_append (name : JString) (text : List JString → JString) (ps : List VProperty)
    (p : VProperty) : texts name text (ps ++ [p]) =
      texts name text ps ++ if name = p.name then [text p.values] else [] := by
  rw [texts, List.filter_append, List.map_append, ← texts]
  by_cases h : name = p.name
  · simp [h]
  · simp [h, Ne.symm h]

/-- One slot after one more property. -/
theorem slot_texts_append (hf : ∀ t, f t = [] ↔ t = []) (name : JString)
    (text : List JString → JString) (ps : List VProperty) (p : VProperty) :
    slot f (texts name text (ps ++ [p])) =
      if name = p.name ∧ (slot f (texts name text ps)).length = 0 then f (text p.values)
      else slot f (texts name text ps) := by
  rw [texts_append]
  by_cases h : name = p.name
  · rw [if_pos h, slot_append hf]
    simp only [h, true_and]
  · rw [if_neg h, List.append_nil, if_neg fun hc => h hc.1]

/-- What one more property does to the slots. -/
theorem KeptBy.keep (hf : ∀ t, f t = [] ↔ t = []) (h : KeptBy f codeName ps r) (p : VProperty)
    (current : JString) :
    KeptBy f codeName (ps ++ [p]) { Map.keep f p r with mCurrentProperty := current } := by
  refine ⟨?_, ?_, ?_, ?_⟩
  · rw [slot_texts_append hf, ← h.tel]
    rfl
  · rw [slot_texts_append hf, ← h.email]
    rfl
  · rw [slot_texts_append hf, ← h.formattedName]
    rfl
  · rw [slot_texts_append hf, ← h.name]
    rfl

/-- The properties of an entry, one after the other. -/
theorem exists_delivered (hf : ∀ t, replaceSpecialVcardString toLowerCase t = [] ↔ t = [])
    (ds : List (Delivery × VProperty))
    (h : KeptBy (replaceSpecialVcardString toLowerCase) codeName ps r) :
    ∃ r', handleAll toLowerCase r (ds.flatMap fun d => d.1.callbacks d.2) = .ok r' ∧
      KeptBy (replaceSpecialVcardString toLowerCase) codeName (ps ++ ds.map Prod.snd) r' ∧
      r'.mVersion = r.mVersion := by
  induction ds generalizing ps r with
  | nil => exact ⟨r, rfl, by rwa [List.map_nil, List.append_nil], rfl⟩
  | cons d ds ih =>
    obtain ⟨current, hd⟩ := @deliver_eq toLowerCase d.1 d.2 r
    obtain ⟨r', hr', hkept, hversion⟩ := ih (h.keep hf d.2 current)
    refine ⟨r', ?_, ?_, hversion⟩
    · rw [handleAll] at hd hr' ⊢
      rw [List.flatMap_cons, List.foldlM_append, hd]
      exact hr'
    · rwa [List.append_assoc, List.singleton_append] at hkept

/-- What an entry leaves behind. -/
theorem exists_entry (hf : ∀ t, replaceSpecialVcardString toLowerCase t = [] ↔ t = [])
    (r : Recipient) (old : Bool) (ds : List (Delivery × VProperty)) :
    ∃ r', handleAll toLowerCase r (entryCallbacks old ds) = .ok r' ∧
      KeptBy (replaceSpecialVcardString toLowerCase) codeName (ds.map Prod.snd) r' ∧
      r'.mVersion = r.mVersion := by
  have hstart : KeptBy (replaceSpecialVcardString toLowerCase) codeName [] r.reset :=
    ⟨rfl, rfl, rfl, rfl⟩
  obtain ⟨r', hr', hkept, hversion⟩ := exists_delivered hf ds hstart
  refine ⟨r', ?_, hkept, hversion⟩
  rw [entryCallbacks, handleAll, List.foldlM_append, List.foldlM_append]
  rw [handleAll] at hr'
  cases old with
  | false =>
    show (do
      let r' ← (ds.flatMap fun (d : Delivery × VProperty) => d.1.callbacks d.2).foldlM
        (handle toLowerCase) r.reset
      [Callback.onEntryEnded].foldlM (handle toLowerCase) r') = _
    rw [hr']
    rfl
  | true =>
    show (do
      let r' ← (ds.flatMap fun (d : Delivery × VProperty) => d.1.callbacks d.2).foldlM
        (handle toLowerCase) r.reset
      [Callback.endEntry].foldlM (handle toLowerCase) r') = _
    rw [hr']
    rfl

/-- The slots determine the result, but for the name of the current property. -/
theorem eq_of_keptBy {r' : Recipient} {nameText : List JString → JString}
    (h : KeptBy f nameText ps r) (h' : KeptBy f nameText ps r') (hv : r'.mVersion = r.mVersion) :
    { r' with mCurrentProperty := [] } = { r with mCurrentProperty := [] } := by
  obtain ⟨⟨tel, version⟩, name, fname, email, current⟩ := r
  obtain ⟨⟨tel', version'⟩, name', fname', email', current'⟩ := r'
  have h1 : tel' = tel := h'.tel.trans h.tel.symm
  have h2 : email' = email := h'.email.trans h.email.symm
  have h3 : fname' = fname := h'.formattedName.trans h.formattedName.symm
  have h4 : name' = name := h'.name.trans h.name.symm
  have h5 : version' = version := hv
  subst h1 h2 h3 h4 h5
  rfl

end Run

/-! ### Letters -/

/-- An ASCII character that is no capital letter. -/
def Plain (c : UInt16) : Prop := c < 128 ∧ ¬ (65 ≤ c ∧ c ≤ 90)

instance (c : UInt16) : Decidable (Plain c) := inferInstanceAs (Decidable (_ ∧ _))

/-- What Java says of `toLowerCase`, whatever the locale is: what is in lower case stays so, and an
ASCII character that is no capital letter is in lower case and leaves its neighbours alone. -/
structure LowerCase (toLowerCase : JString → JString) : Prop where
  idem (s : JString) : toLowerCase (toLowerCase s) = toLowerCase s
  eq_nil_iff (s : JString) : toLowerCase s = [] ↔ s = []
  append_cons (s t : JString) {c : UInt16} (hc : Plain c) :
    toLowerCase (s ++ c :: t) = s ++ c :: t ↔ toLowerCase s = s ∧ toLowerCase t = t

theorem unescape_eq_nil_iff (s : JString) : unescape s = [] ↔ s = [] := by
  rw [unescape, replaceAll_eq_nil_iff (by decide) (by decide),
    replaceAll_eq_nil_iff (by decide) (by decide)]

section Lower

variable {L : JString → JString} (hL : LowerCase L) {s t : JString}

include hL

/-- A word of plain characters separates texts too. -/
theorem LowerCase.append_word {w : JString} (hw : ∀ c ∈ w, Plain c) (hne : w ≠ []) :
    L (s ++ (w ++ t)) = s ++ (w ++ t) ↔ L s = s ∧ L t = t := by
  have hnil : L [] = [] := (hL.eq_nil_iff []).2 rfl
  have htail : ∀ v : JString, (∀ c ∈ v, Plain c) → (L (v ++ t) = v ++ t ↔ L t = t) := by
    intro v
    induction v with
    | nil => exact fun _ => Iff.rfl
    | cons c v ih =>
      intro hv
      obtain ⟨hc, hv⟩ := List.forall_mem_cons.1 hv
      have h := hL.append_cons [] (v ++ t) hc
      rw [List.nil_append, ih hv, and_iff_right hnil] at h
      exact h
  obtain ⟨c, v, rfl⟩ := List.exists_cons_of_ne_nil hne
  obtain ⟨hc, hv⟩ := List.forall_mem_cons.1 hw
  rw [List.cons_append, hL.append_cons s (v ++ t) hc, htail v hv]

/-- Replacing plain words by plain words changes no other letters. -/
theorem LowerCase.replaceAll_iff {w x : JString} (hw : ∀ c ∈ w, Plain c) (hx : ∀ c ∈ x, Plain c)
    (hwne : w ≠ []) (hxne : x ≠ []) (s : JString) :
    L (replaceAll w x s) = replaceAll w x s ↔ L s = s := by
  induction s using replace_induction hwne with
  | absent s h => rw [replaceAll_of_absent h]
  | found s pre post h ih =>
    rw [replaceAll_of_found hwne h, hL.append_word hx hxne, ih]
    have hs : s = pre ++ (w ++ post) := by rw [h.eq, List.append_assoc]
    rw [hs, hL.append_word hw hwne]

theorem LowerCase.ampLt_iff (s : JString) :
    L (replaceAll ampLt (js "<") s) = replaceAll ampLt (js "<") s ↔ L s = s :=
  hL.replaceAll_iff (List.all_iff_forall_prop.1 (by decide))
    (List.all_iff_forall_prop.1 (by decide)) (by decide) (by decide) s

theorem LowerCase.unescape_iff (s : JString) : L (unescape s) = unescape s ↔ L s = s := by
  rw [unescape, hL.replaceAll_iff (List.all_iff_forall_prop.1 (by decide))
    (List.all_iff_forall_prop.1 (by decide)) (by decide) (by decide), hL.ampLt_iff]

/-- Only the first of the two calls of `toLowerCase` has an effect. -/
theorem LowerCase.replaceSpecial_eq (s : JString) :
    replaceSpecialVcardString L s = unescape (L s) := by
  have h : L (replaceAll ampLt (js "<") (L s)) = replaceAll ampLt (js "<") (L s) :=
    (hL.ampLt_iff (L s)).2 (hL.idem s)
  simp only [replaceSpecialVcardString, h, unescape]

theorem LowerCase.replaceSpecial_eq_nil_iff (s : JString) :
    replaceSpecialVcardString L s = [] ↔ s = [] := by
  rw [hL.replaceSpecial_eq, unescape_eq_nil_iff, hL.eq_nil_iff]

/-- A text comes out as it should exactly if it is in lower case. -/
theorem LowerCase.replaceSpecial_iff (s : JString) :
    replaceSpecialVcardString L s = unescape s ↔ L s = s := by
  rw [hL.replaceSpecial_eq]
  constructor
  · intro h
    have hstable := (hL.unescape_iff (L s)).2 (hL.idem s)
    rw [h] at hstable
    exact (hL.unescape_iff s).1 hstable
  · intro h
    rw [h]

end Lower

/-! ### Names -/

theorem joined_cons (v : JString) (vs : List JString) :
    joined (v :: vs) = v ++ vs.flatMap (js ", " ++ ·) := by
  rw [joined]
  induction vs generalizing v with
  | nil => simp
  | cons v' vs ih =>
    rw [List.intercalate_cons_cons, ih, List.flatMap_cons, List.append_assoc, List.append_assoc]

theorem codeName_cons (v : JString) (vs : List JString) :
    codeName (v :: vs) = v ++ (js ", " ++ joined (v :: vs)) := by
  rw [codeName, joinName, joined_cons, List.flatMap_cons, List.append_assoc]
  rfl

theorem codeName_ne_nil (values : List JString) (h : values ≠ []) : codeName values ≠ [] := by
  obtain ⟨v, vs, rfl⟩ := List.exists_cons_of_ne_nil h
  rw [codeName_cons]
  intro hnil
  exact absurd (List.append_eq_nil_iff.1 (List.append_eq_nil_iff.1 hnil).2).1 (by decide)

theorem unescape_append_comma (s t : JString) :
    unescape (s ++ (js ", " ++ t)) = unescape s ++ (js ", " ++ unescape t) := by
  have hstep (w x s t : JString) (hw : w ≠ []) (hc : 44 ∉ w) (hb : 32 ∉ w) :
      replaceAll w x (s ++ 44 :: 32 :: t) = replaceAll w x s ++ 44 :: 32 :: replaceAll w x t := by
    have hblank := @replaceAll_append_cons _ _ w x 32 hw hb [] t
    rw [replaceAll_append_cons hw hc]
    rw [List.nil_append] at hblank
    rw [hblank]
    rfl
  have hsep : js ", " = [44, 32] := by decide
  rw [hsep, unescape, unescape, unescape]
  simp only [List.cons_append, List.nil_append]
  rw [hstep _ _ _ _ (by decide) (by decide) (by decide),
    hstep _ _ _ _ (by decide) (by decide) (by decide)]

/-- No entity stands for a comma or a blank. -/
theorem eq_of_unescape_eq_comma {t : JString} (h : unescape t = js ", ") : t = js ", " := by
  rw [unescape] at h
  have h1 : ¬ ampGt <:+: replaceAll ampLt (js "<") t := by
    intro hin
    have hgt : js ">" <:+: js ", " := by
      rw [← h]
      exact infix_replaceAll (by decide) hin
    exact absurd hgt (by decide)
  rw [replaceAll_of_absent h1] at h
  have h2 : ¬ ampLt <:+: t := by
    intro hin
    have hlt : js "<" <:+: js ", " := by
      rw [← h]
      exact infix_replaceAll (by decide) hin
    exact absurd hlt (by decide)
  rwa [replaceAll_of_absent h2] at h

/-- There is no name; or the first one is empty, so that only the separator is kept, and the first
name with a text is nothing but a separator. -/
def NameOk (ts : List JString) : Prop :=
  ts = [] ∨ ts.head? = some [] ∧ firstText ts = some (js ", ")

instance (ts : List JString) : Decidable (NameOk ts) := inferInstanceAs (Decidable (_ ∨ _ ∧ _))

section Name

variable {L : JString → JString} (hL : LowerCase L)

include hL

/-- A name with a text is never put together as it should be. -/
theorem LowerCase.codeName_ne {v : JString} {vs : List JString} :
    replaceSpecialVcardString L (codeName (v :: vs)) ≠ unescape (joined (v :: vs)) := by
  intro h
  have hcomma : ∀ c ∈ js ", ", Plain c := List.all_iff_forall_prop.1 (by decide)
  rw [hL.replaceSpecial_eq] at h
  have hstable := (hL.unescape_iff _).2 (hL.idem (codeName (v :: vs)))
  rw [h] at hstable
  have hj := (hL.unescape_iff _).1 hstable
  have hv : L v = v := by
    cases vs with
    | nil =>
      rw [joined_cons, List.flatMap_nil, List.append_nil] at hj
      exact hj
    | cons v' vs =>
      rw [joined_cons, List.flatMap_cons, List.append_assoc] at hj
      exact ((hL.append_word hcomma (by decide)).1 hj).1
  have hcode : L (codeName (v :: vs)) = codeName (v :: vs) := by
    rw [codeName_cons]
    exact (hL.append_word hcomma (by decide)).2 ⟨hv, hj⟩
  rw [hcode, codeName_cons, unescape_append_comma] at h
  have hlen := congrArg List.length h
  have htwo : (js ", ").length = 2 := by decide
  rw [List.length_append, List.length_append, htwo] at hlen
  omega

/-- When the name is as it should be. -/
theorem LowerCase.name_iff (ps : List VProperty) :
    slot (replaceSpecialVcardString L) (texts PROPERTY_N codeName ps) =
      slot unescape (texts PROPERTY_N joined ps) ↔ NameOk (texts PROPERTY_N joined ps) := by
  cases hns : ps.filter (·.name = PROPERTY_N) with
  | nil =>
    rw [texts, texts, hns]
    exact iff_of_true rfl (.inl rfl)
  | cons p ns =>
    have hcode : slot (replaceSpecialVcardString L) (texts PROPERTY_N codeName ps) =
        replaceSpecialVcardString L (codeName p.values) := by
      have hne := codeName_ne_nil p.values p.nonempty
      rw [texts, hns, List.map_cons, slot_cons hne]
    have htexts : texts PROPERTY_N joined ps =
        joined p.values :: ns.map fun q => joined q.values := by
      rw [texts, hns, List.map_cons]
    rw [hcode, htexts]
    obtain ⟨v, vs, hvalues⟩ := List.exists_cons_of_ne_nil p.nonempty
    rw [hvalues]
    by_cases hj : joined (v :: vs) = []
    · -- the separator alone
      obtain rfl : v = [] := by
        rw [joined_cons] at hj
        exact (List.append_eq_nil_iff.1 hj).1
      have hcomma : codeName ([] :: vs) = js ", " := by
        rw [codeName_cons, hj, List.append_nil, List.nil_append]
      have hlower : L (js ", ") = js ", " := by
        have hnil : L [] = [] := (hL.eq_nil_iff []).2 rfl
        have hword := @LowerCase.append_word L hL [] [] (js ", ")
          (List.all_iff_forall_prop.1 (by decide)) (by decide)
        rw [List.nil_append, List.append_nil] at hword
        exact hword.2 ⟨hnil, hnil⟩
      have hsep : unescape (js ", ") = js ", " := by decide
      rw [hcomma, hL.replaceSpecial_eq, hlower, hsep, NameOk, hj]
      constructor
      · intro h
        refine .inr ⟨rfl, ?_⟩
        rw [slot] at h
        cases hfirst : firstText ([] :: ns.map fun q => joined q.values) with
        | none =>
          rw [hfirst] at h
          exact absurd h (by decide)
        | some t =>
          rw [hfirst] at h
          have ht : unescape t = js ", " := h.symm
          rw [eq_of_unescape_eq_comma ht]
      · rintro (h | ⟨-, h⟩)
        · cases h
        · rw [slot, h]
          exact hsep.symm
    · rw [slot_cons hj]
      refine iff_of_false hL.codeName_ne ?_
      rintro (h | ⟨h, -⟩)
      · cases h
      · exact hj (Option.some.inj h)

end Name

/-! ### The condition -/

/-- The first telephone number, the first address and the first formatted name are in lower case,
and the names are no names. -/
structure InLowerCase (toLowerCase : JString → JString) (ps : List VProperty) : Prop where
  tel : ∀ t ∈ firstText (texts PROPERTY_TEL firstOf ps), toLowerCase t = t
  email : ∀ t ∈ firstText (texts PROPERTY_EMAIL firstOf ps), toLowerCase t = t
  formattedName : ∀ t ∈ firstText (texts PROPERTY_FN firstOf ps), toLowerCase t = t
  name : NameOk (texts PROPERTY_N joined ps)

section Survives

variable {L : JString → JString} (hL : LowerCase L)

include hL

theorem LowerCase.slot_iff (ts : List JString) :
    slot (replaceSpecialVcardString L) ts = slot unescape ts ↔ ∀ t ∈ firstText ts, L t = t := by
  rw [slot, slot]
  cases firstText ts with
  | none => exact iff_of_true rfl nofun
  | some t =>
    rw [Option.map_some, Option.map_some, Option.getD_some, Option.getD_some, hL.replaceSpecial_iff]
    constructor
    · rintro h t' ⟨⟩
      exact h
    · exact fun h => h t rfl

/-- **Names and addresses survive the interpretation** exactly if they are in lower case and there
is no name. -/
theorem survives_iff (ps : List VProperty) : Survives L ps ↔ InLowerCase L ps := by
  have hf := hL.replaceSpecial_eq_nil_iff
  constructor
  · intro h
    obtain ⟨r', hr', hkept, -⟩ := h {} true (ps.map fun p => (.whole, p)) (by simp)
    obtain ⟨r'', hr'', hcode, -⟩ := exists_entry hf {} true (ps.map fun p => (.whole, p))
    obtain rfl : r' = r'' := Except.ok.inj (hr'.symm.trans hr'')
    have hps : (ps.map fun p => (Delivery.whole, p)).map Prod.snd = ps := by simp
    rw [hps] at hcode
    exact ⟨(hL.slot_iff _).1 (hcode.tel.symm.trans hkept.tel),
      (hL.slot_iff _).1 (hcode.email.symm.trans hkept.email),
      (hL.slot_iff _).1 (hcode.formattedName.symm.trans hkept.formattedName),
      (hL.name_iff ps).1 (hcode.name.symm.trans hkept.name)⟩
  · intro h r old ds hds
    obtain ⟨r', hr', hcode, hversion⟩ := exists_entry hf r old ds
    rw [hds] at hcode
    refine ⟨r', hr', ⟨?_, ?_, ?_, ?_⟩, ?_⟩
    · rw [hcode.tel, (hL.slot_iff _).2 h.tel]
    · rw [hcode.email, (hL.slot_iff _).2 h.email]
    · rw [hcode.formattedName, (hL.slot_iff _).2 h.formattedName]
    · rw [hcode.name, (hL.name_iff ps).2 h.name]
    · intro old' ds' hds'
      obtain ⟨r'', hr'', hcode', hversion'⟩ := exists_entry hf r old' ds'
      rw [hds'] at hcode'
      exact ⟨r'', hr'', eq_of_keptBy hcode hcode' (hversion'.trans hversion.symm)⟩

end Survives

/-- `toLowerCase` of ASCII texts. -/
def asciiLower (s : JString) : JString := s.map fun c => if 65 ≤ c ∧ c ≤ 90 then c + 32 else c

theorem lowerCase_asciiLower : LowerCase asciiLower := by
  have hchar : ∀ c : UInt16, 65 ≤ c ∧ c ≤ 90 → ¬ (65 ≤ c + 32 ∧ c + 32 ≤ 90) := by
    intro c hc hc'
    simp only [UInt16.le_iff_toNat_le, UInt16.toNat_add] at hc hc'
    have h1 : (65 : UInt16).toNat = 65 := rfl
    have h2 : (90 : UInt16).toNat = 90 := rfl
    have h3 : (32 : UInt16).toNat = 32 := rfl
    omega
  refine ⟨?_, ?_, ?_⟩
  · intro s
    rw [asciiLower, asciiLower, List.map_map]
    refine List.map_congr_left fun c _ => ?_
    simp only [Function.comp_apply]
    split_ifs with h1 h2
    · exact absurd h2 (hchar c h1)
    · rfl
    · rfl
  · intro s
    exact List.map_eq_nil_iff
  · intro s t c hc
    have hkeep : (if 65 ≤ c ∧ c ≤ 90 then c + 32 else c) = c := if_neg hc.2
    rw [asciiLower, List.map_append, List.map_cons, hkeep]
    constructor
    · intro h
      obtain ⟨h1, h2⟩ := List.append_inj h (List.length_map _)
      exact ⟨h1, (List.cons.inj h2).2⟩
    · rintro ⟨h1, h2⟩
      rw [asciiLower] at h1 h2
      rw [h1, h2]

/-- A telephone number and an address. -/
def sampleEntry : List VProperty :=
  [⟨js "TEL", [js "5550100"], by decide⟩, ⟨js "EMAIL", [js "&lt;a@b.c&gt;"], by decide⟩]

/-- The entry survives, its entities replaced. -/
theorem survives_sampleEntry : Survives asciiLower sampleEntry ∧
    ∃ r, handleAll asciiLower {} (entryCallbacks false (sampleEntry.map fun p => (.whole, p))) =
      .ok r ∧
      r.mTel = js "5550100" ∧ r.mEmail = js "<a@b.c>" := by
  refine ⟨(survives_iff lowerCase_asciiLower sampleEntry).2
    ⟨by decide, by decide, by decide, by decide⟩, _, rfl, by decide, by decide⟩

/-- A name of two parts. -/
def sampleName : VProperty := ⟨js "N", [js "Doe", js "John"], by decide⟩

/-- **A name is changed**: its first part comes twice, and its capital letters are lost. -/
theorem sampleName_changed :
    (∃ r, handleAll asciiLower {} (entryCallbacks false [(.whole, sampleName)]) = .ok r ∧
      r.mName = js "doe, doe, john") ∧ ¬ Survives asciiLower [sampleName] := by
  have hrun : handleAll asciiLower {} (entryCallbacks false [(.whole, sampleName)]) =
      .ok { mName := js "doe, doe, john" } := by decide
  refine ⟨⟨_, hrun, rfl⟩, ?_⟩
  intro h
  obtain ⟨r, hr, hkept, -⟩ := h {} false [(.whole, sampleName)] rfl
  obtain rfl := Except.ok.inj (hrun.symm.trans hr)
  exact absurd hkept.name (by decide)

end Map

end Msm8909w
