import Msm8909w.Map.MasAppParams

/-!
# Reading application parameters back

`Item` is a parameter as it stands in the header of a request.  `ReadsBack` asks of a list of items
with different tags that `parse` returns `true` and stores their values if all of them are valid,
and that it returns `false` if one of them is not.

* `parseTurn_int`, `parseTurn_text` : one turn of the loop on an item,
* `ends_items` : the whole loop: it ends at the first item that is not let through,
* `readsBack_iff` : `ReadsBack` holds of a list of items exactly under the condition `Readable`.

A notification status is checked by way of the list count and passes only behind a count of 0 or 1;
a parameter mask is put together with wrong shifts and may pass though it is too large; and an
integer with a wrong length at the end of the header leads out of the array.
-/

namespace Msm8909w

namespace Map

/-! ### Items -/

/-- The number of a big-endian byte string. -/
def ofBE (v : Bytes) : ℕ := ofLE v.reverse

/-- A parameter. -/
inductive Item
  | int (t : IntTag) (len : UInt8) (value : Bytes)
  | text (t : TextTag) (chars : Bytes)
  deriving DecidableEq, Repr

namespace Item

def key : Item → IntTag ⊕ TextTag
  | int t _ _ => .inl t
  | text t _ => .inr t

def encode : Item → Bytes
  | int t len value => t.tag :: len :: value
  | text t chars => t.tag :: UInt8.ofNat chars.length :: chars

/-- An integer of the right length has so many bytes, and a mask is not zero; a text is ASCII. -/
def WellEncoded : Item → Prop
  | int t len value =>
    len.toNat = t.LEN → value.length = t.LEN ∧ (t = .PARAMETER_MASK → ofBE value ≠ 0)
  | text _ chars => chars.length ≤ 127 ∧ ∀ c ∈ chars, c.toNat < 128

/-- The length byte is right and the number is inside its range. -/
def Valid : Item → Prop
  | int t len value => len.toNat = t.LEN ∧ t.MIN_VAL ≤ ofBE value ∧ (ofBE value : ℤ) ≤ t.MAX_VAL
  | text _ _ => True

instance : ∀ it : Item, Decidable it.WellEncoded
  | int t len value => inferInstanceAs (Decidable (len.toNat = t.LEN → value.length = t.LEN ∧
      (t = .PARAMETER_MASK → ofBE value ≠ 0)))
  | text _ _ => @instDecidableAnd _ _ (Nat.decLe _ _) (List.decidableBAll _ _)

instance : ∀ it : Item, Decidable it.Valid
  | int t len value => inferInstanceAs (Decidable (len.toNat = t.LEN ∧ t.MIN_VAL ≤ ofBE value ∧
      (ofBE value : ℤ) ≤ t.MAX_VAL))
  | text _ _ => inferInstanceAs (Decidable True)

end Item

def encodeItems (its : List Item) : Bytes := its.flatMap Item.encode

/-- The number given for a tag. -/
def intValue (its : List Item) (t : IntTag) : Option ℤ :=
  its.findSome? fun
    | .int t' _ value => if t' = t then some (ofBE value : ℤ) else none
    | .text _ _ => none

/-- The text given for a tag. -/
def textValue (its : List Item) (t : TextTag) : Option JString :=
  its.findSome? fun
    | .int _ _ _ => none
    | .text t' chars => if t' = t then some (chars.map fun c => UInt16.ofNat c.toNat) else none

open MasAppParamsStore

/-- A valid list is read back, and any other one is refused. -/
def ReadsBack (a : AppParams) (its : List Item) : Prop :=
  ((∀ it ∈ its, it.Valid) →
    ∃ b, Parses (some (encodeItems its)) (clear a) (.returns true b) ∧
      (∀ t : IntTag, t.field (get b) = (intValue its t).getD (t.field (clear a))) ∧
      ∀ t : TextTag, t.field (get b) = (textValue its t).or (t.field (clear a))) ∧
  ((∃ it ∈ its, ¬ it.Valid) →
    ∃ b, Parses (some (encodeItems its)) (clear a) (.returns false b))

/-! ### The condition -/

/-- A list count of 0 or 1. -/
def SmallCount (its : List Item) : Prop :=
  ∃ len value, Item.int .MAX_LIST_COUNT len value ∈ its ∧ ofBE value ≤ 1

/-- The items that `parse` lets through: a notification status behind a list count of 0 or 1,
whatever it is, a mask whose first byte is below 128 and whose second byte is a multiple of 4, and
otherwise what is valid. -/
def LetThrough (before : List Item) : Item → Prop
  | .int .NOTIFICATION_STATUS len _ => len.toNat = 1 ∧ SmallCount before
  | .int .PARAMETER_MASK len value =>
    len.toNat = 4 ∧ (value.getD 0 0).toNat < 128 ∧ (value.getD 1 0).toNat % 4 = 0
  | it => it.Valid

/-- All items are let through, one after the other. -/
def AllThrough : List Item → List Item → Prop
  | _, [] => True
  | before, it :: its => LetThrough before it ∧ AllThrough (before ++ [it]) its

/-- The bytes that the branch of an integer reads are there. -/
def Complete (after : List Item) : Item → Prop
  | .int t _ value => t.LEN ≤ value.length + (encodeItems after).length
  | .text _ _ => True

/-- Valid items are let through if each notification status stands behind a list count of 0 or 1.
Where some item is not valid, there is one that is not let through, and the first such one is not
cut off. -/
def Readable (its : List Item) : Prop :=
  ((∀ it ∈ its, it.Valid) → ∀ front len value back,
    its = front ++ Item.int .NOTIFICATION_STATUS len value :: back → SmallCount front) ∧
  ((∃ it ∈ its, ¬ it.Valid) → ∃ front it back,
    its = front ++ it :: back ∧ AllThrough [] front ∧ ¬ LetThrough front it ∧ Complete back it)

/-! ### Numbers -/

theorem ofBE_one (x : UInt8) : ofBE [x] = x.toNat := by simp [ofBE, ofLE]

theorem ofBE_two (x y : UInt8) : ofBE [x, y] = 256 * x.toNat + y.toNat := by
  simp only [ofBE, List.reverse_cons, List.reverse_nil, List.nil_append, List.cons_append, ofLE]
  omega

theorem ofBE_four (x y z w : UInt8) :
    ofBE [x, y, z, w] = 2 ^ 24 * x.toNat + 2 ^ 16 * y.toNat + 2 ^ 8 * z.toNat + w.toNat := by
  simp only [ofBE, List.reverse_cons, List.reverse_nil, List.nil_append, List.cons_append, ofLE]
  omega

theorem toNat_low (n : UInt8) : (0x000000FF#32 &&& n.toBitVec.signExtend 32).toNat = n.toNat := by
  have h : ∀ x : BitVec 8, (0x000000FF#32 &&& x.signExtend 32).toNat = x.toNat := by decide
  exact h n.toBitVec

theorem toNat_high (n : UInt8) : (0x0000FF00#32 &&& shl n 0x8).toNat = 2 ^ 8 * n.toNat := by
  have h : ∀ x : BitVec 8, (0x0000FF00#32 &&& (x.signExtend 32) <<< (0x8 % 32)).toNat =
      2 ^ 8 * x.toNat := by decide
  exact h n.toBitVec

/-- The number of 16 bits is put together as it should be. -/
theorem getUint16BigEndian_eq (x y : UInt8) : getUint16BigEndian x y = ofBE [x, y] := by
  have hx := UInt8.toNat_lt x
  have hy := UInt8.toNat_lt y
  have hnat :
    ((0x0000FF00#32 &&& shl x 0x8) ||| (0x000000FF#32 &&& y.toBitVec.signExtend 32)).toNat =
      2 ^ 8 * x.toNat + y.toNat := by
    rw [BitVec.toNat_or, toNat_high, toNat_low, Nat.two_pow_add_eq_or_of_lt hy]
  rw [getUint16BigEndian, BitVec.toInt_eq_toNat_of_lt (by rw [hnat]; omega), hnat, ofBE_two]
  rfl

/-- The parts a number of 32 bits is put together from: of the first byte only the sign remains,
and of the second byte two bits, at the wrong place. -/
theorem toNat_parts :
    (∀ x : BitVec 8, ((0xFF000000#32).signExtend 64 &&&
        ((x.signExtend 32) <<< (0x24 % 32)).signExtend 64).toNat =
      2 ^ 24 * if x.toNat < 128 then 0 else 2 ^ 40 - 1) ∧
    (∀ x : BitVec 8, (0x00FF0000#64 &&& ((x.signExtend 32) <<< (0x16 % 32)).signExtend 64).toNat =
      2 ^ 22 * (x.toNat % 4)) ∧
    (∀ x : BitVec 8, (0x0000FF00#64 &&& ((x.signExtend 32) <<< (0x8 % 32)).signExtend 64).toNat =
      2 ^ 8 * x.toNat) ∧
    ∀ x : BitVec 8, (0x000000FF#64 &&& x.signExtend 64).toNat = x.toNat := by
  refine ⟨?_, ?_, ?_, ?_⟩ <;> decide

theorem getUint32BigEndian_eq (x y z w : UInt8) :
    getUint32BigEndian x y z w = (if x.toNat < 128 then 0 else -2 ^ 24) +
      (2 ^ 22 * (y.toNat % 4) + 2 ^ 8 * z.toNat + w.toNat : ℕ) := by
  have hz := UInt8.toNat_lt z
  have hw := UInt8.toNat_lt w
  obtain ⟨h1, h2, h3, h4⟩ := toNat_parts
  have h1 : ((0xFF000000#32).signExtend 64 &&& (shl x 0x24).signExtend 64).toNat =
      2 ^ 24 * if x.toNat < 128 then 0 else 2 ^ 40 - 1 := h1 x.toBitVec
  have h2 : (0x00FF0000#64 &&& (shl y 0x16).signExtend 64).toNat = 2 ^ 22 * (y.toNat % 4) :=
    h2 y.toBitVec
  have h3 : (0x0000FF00#64 &&& (shl z 0x8).signExtend 64).toNat = 2 ^ 8 * z.toNat := h3 z.toBitVec
  have h4 : (0x000000FF#64 &&& w.toBitVec.signExtend 64).toNat = w.toNat := h4 w.toBitVec
  -- the parts do not overlap
  have hnat (k : ℕ) : ((2 ^ 24 * k ||| 2 ^ 22 * (y.toNat % 4)) ||| 2 ^ 8 * z.toNat) ||| w.toNat =
      2 ^ 24 * k + (2 ^ 22 * (y.toNat % 4) + 2 ^ 8 * z.toNat + w.toNat) := by
    rw [← Nat.two_pow_add_eq_or_of_lt (by omega),
      show 2 ^ 24 * k + 2 ^ 22 * (y.toNat % 4) = 2 ^ 22 * (4 * k + y.toNat % 4) by omega,
      ← Nat.two_pow_add_eq_or_of_lt (by omega),
      show 2 ^ 22 * (4 * k + y.toNat % 4) + 2 ^ 8 * z.toNat =
        2 ^ 8 * (2 ^ 14 * (4 * k + y.toNat % 4) + z.toNat) by omega,
      ← Nat.two_pow_add_eq_or_of_lt hw]
    omega
  rw [getUint32BigEndian, BitVec.toInt_eq_toNat_cond]
  simp only [BitVec.toNat_or, h1, h2, h3, h4, hnat]
  split_ifs <;> omega

/-! ### One turn -/

variable {pre x post value chars : Bytes} {a b : AppParams} {t : IntTag} {len c : UInt8} {n : ℕ}
  {it : Item} {its before : List Item}

theorem byteAt_append (pre x : Bytes) (c : UInt8) : byteAt (pre ++ c :: x) pre.length = some c := by
  rw [byteAt, if_pos (Int.natCast_nonneg _), Int.toNat_natCast]
  simp

theorem byteAt_append_one (pre x : Bytes) (c len : UInt8) :
    byteAt (pre ++ c :: len :: x) (pre.length + 1) = some len := by
  have h := byteAt_append (pre ++ [c]) x len
  simpa using h

theorem bytesAt_append (pre x : Bytes) (n : ℕ) :
    bytesAt (pre ++ x) pre.length n = if n ≤ x.length then some (x.take n) else none := by
  have hiff : (0 ≤ (pre.length : ℤ) ∧ (pre.length : ℤ) + n ≤ (pre ++ x).length) ↔ n ≤ x.length := by
    rw [List.length_append]
    omega
  rw [bytesAt, if_congr hiff rfl rfl, Int.toNat_natCast, slice, List.drop_left]

theorem bytesAt_append_two (pre x : Bytes) (c len : UInt8) (n : ℕ) :
    bytesAt (pre ++ c :: len :: x) (pre.length + 2) n =
      if n ≤ x.length then some (x.take n) else none := by
  have h := bytesAt_append (pre ++ [c, len]) x n
  simpa using h

theorem find_intTag (t : IntTag) : intTags.find? (·.tag = t.tag) = some t := by
  cases t <;> decide

theorem find_textTag (t : TextTag) :
    intTags.find? (·.tag = t.tag) = none ∧ textTags.find? (·.tag = t.tag) = some t := by
  cases t <;> decide

theorem toByte_eq_LEN_iff : toByte len = t.LEN ↔ len.toNat = t.LEN := by
  have hlen : t.LEN ≤ 4 := by cases t <;> decide
  have hlt := UInt8.toNat_lt len
  rw [toByte]
  split_ifs <;> omega

theorem validateTag_eq_true_iff {v min max : ℤ} :
    validateTag v (toByte len) min max t.LEN = true ↔ len.toNat = t.LEN ∧ min ≤ v ∧ v ≤ max := by
  rw [validateTag, ← toByte_eq_LEN_iff]
  split_ifs <;> simp <;> omega

theorem length_lt_append : (pre.length : ℤ) < (pre ++ c :: x).length := by
  rw [List.length_append, List.length_cons]
  omega

theorem parseTurn_intTag :
    parseTurn (pre ++ t.tag :: x)
      (pre.length, a) = parseInt t (pre ++ t.tag :: x) pre.length a := by
  simp only [parseTurn, if_pos length_lt_append, byteAt_append, find_intTag]

theorem parseTurn_textTag {t : TextTag} :
    parseTurn (pre ++ t.tag :: x)
      (pre.length, a) = parseText t (pre ++ t.tag :: x) pre.length a := by
  simp only [parseTurn, if_pos length_lt_append, byteAt_append, (find_textTag t).1,
    (find_textTag t).2]

/-- The turn of the loop for an integer. -/
theorem parseTurn_int : parseTurn (pre ++ ((Item.int t len value).encode ++ x)) (pre.length, a) =
    if t.LEN ≤ value.length + x.length then
      let a' := assignInt t (readInt t ((value ++ x).take t.LEN)) a
      if len.toNat = t.LEN ∧ t.MIN_VAL ≤ checkedField t a' ∧ checkedField t a' ≤ t.MAX_VAL then
        .inl (pre.length + 2 + t.LEN, a')
      else .inr (.returns false a')
    else .inr .throws := by
  simp only [Item.encode, List.cons_append]
  rw [parseTurn_intTag]
  simp only [parseInt, bytesAt_append_two, byteAt_append_one, List.length_append]
  by_cases hle : t.LEN ≤ value.length + x.length
  · simp only [if_pos hle, validateTag_eq_true_iff]
  · simp only [if_neg hle]

/-- The turn of the loop for a text. -/
theorem parseTurn_text {t : TextTag} (h : (Item.text t chars).WellEncoded) :
    parseTurn (pre ++ ((Item.text t chars).encode ++ x)) (pre.length, a) =
      .inl (pre.length + 2 + chars.length,
        t.setField (chars.map fun c => UInt16.ofNat c.toNat) a) := by
  obtain ⟨hlen, hascii⟩ := h
  have hbyte : toByte (UInt8.ofNat chars.length) = chars.length := by
    have hn : (UInt8.ofNat chars.length).toNat = chars.length := by
      rw [UInt8.toNat_ofNat']
      omega
    rw [toByte, hn, if_pos (by omega)]
  have hmap : chars.map toChar = chars.map fun c => UInt16.ofNat c.toNat :=
    List.map_congr_left fun c hc => by rw [toChar, if_pos (hascii c hc)]
  simp only [Item.encode, List.cons_append]
  rw [parseTurn_textTag]
  simp only [parseText, byteAt_append_one, hbyte, Int.toNat_natCast, bytesAt_append_two,
    List.length_append, if_pos (Nat.le_add_right chars.length x.length), List.take_left, hmap]
  congr 2
  omega

/-! ### What is stored -/

theorem field_setField (t t' : IntTag) (v : ℤ) (a : AppParams) :
    t.field (t'.setField v a) = if t = t' then v else t.field a := by
  cases t <;> cases t' <;> rfl

theorem textField_setField (t t' : TextTag) (v : JString) (a : AppParams) :
    t.field (t'.setField v a) = if t = t' then some v else t.field a := by
  cases t <;> cases t' <;> rfl

theorem textField_setIntField (t : TextTag) (t' : IntTag) (v : ℤ) (a : AppParams) :
    t.field (t'.setField v a) = t.field a := by
  cases t <;> cases t' <;> rfl

theorem field_setTextField (t : IntTag) (t' : TextTag) (v : JString) (a : AppParams) :
    t.field (t'.setField v a) = t.field a := by
  cases t <;> cases t' <;> rfl

theorem field_assignInt_self (t : IntTag) (v : ℤ) (a : AppParams) :
    t.field (assignInt t v a) =
      if t = .PARAMETER_MASK ∧ v = 0 then MAS_DEFAULT_PARAMETER_MASK else v := by
  rw [assignInt]
  split_ifs <;> rw [field_setField, if_pos rfl]

theorem field_assignInt_of_ne {t t' : IntTag} (h : t ≠ t') (v : ℤ) (a : AppParams) :
    t.field (assignInt t' v a) = t.field a := by
  rw [assignInt]
  split_ifs <;> rw [field_setField, if_neg h]

theorem textField_assignInt (t : TextTag) (t' : IntTag) (v : ℤ) (a : AppParams) :
    t.field (assignInt t' v a) = t.field a := by
  rw [assignInt]
  split_ifs <;> rw [textField_setIntField]

/-- What a turn stores for an item that is let through. -/
def store (a : AppParams) : Item → AppParams
  | .int t _ value => assignInt t (readInt t value) a
  | .text t chars => t.setField (chars.map fun c => UInt16.ofNat c.toNat) a

theorem toByte_range {x : UInt8} {m : ℤ} (hm : m ≤ 127) :
    0 ≤ toByte x ∧ toByte x ≤ m ↔ (0 : ℤ) ≤ (x.toNat : ℤ) ∧ (x.toNat : ℤ) ≤ m := by
  have hlt := UInt8.toNat_lt x
  rw [toByte]
  split_ifs <;> omega

/-- The tags with one signed byte, checked as they are. -/
def isByte : IntTag → Bool
  | .MAX_LIST_COUNT => false
  | .LIST_START_OFFSET => false
  | .PARAMETER_MASK => false
  | .SUBJECT_LENGTH => false
  | .NOTIFICATION_STATUS => false
  | _ => true

theorem isByte_spec (ht : isByte t = true) (len : UInt8) (v : Bytes) (a : AppParams)
    (before : List Item) :
    t.LEN = 1 ∧ t.MIN_VAL = 0 ∧ t.MAX_VAL ≤ 127 ∧ t ≠ .PARAMETER_MASK ∧
      readInt t v = toByte (v.getD 0 0) ∧ checkedField t a = t.field a ∧
      LetThrough before (.int t len v) = (Item.int t len v).Valid := by
  cases t <;> first | exact ⟨rfl, rfl, by decide, by decide, rfl, rfl, rfl⟩ | cases ht

theorem exists_bytes_one (h : value.length = 1) : ∃ x, value = [x] := List.length_eq_one_iff.1 h

theorem exists_bytes_two (h : value.length = 2) : ∃ x y, value = [x, y] := List.length_eq_two.1 h

theorem exists_bytes_four (h : value.length = 4) : ∃ x y z w, value = [x, y, z, w] := by
  match value, h with
  | [x, y, z, w], _ => exact ⟨x, y, z, w, rfl⟩

/-- The check of a mask: the wrong shifts let some masks through that are too large. -/
theorem checked_mask_iff (x y z w : UInt8) (a : AppParams) :
    (0 ≤ IntTag.PARAMETER_MASK.field
        (assignInt .PARAMETER_MASK (getUint32BigEndian x y z w) a) ∧
      IntTag.PARAMETER_MASK.field
        (assignInt .PARAMETER_MASK (getUint32BigEndian x y z w) a) ≤ 0xFFFF) ↔
      x.toNat < 128 ∧ y.toNat % 4 = 0 := by
  have hz := UInt8.toNat_lt z
  have hw := UInt8.toNat_lt w
  rw [field_assignInt_self, getUint32BigEndian_eq, MAS_DEFAULT_PARAMETER_MASK]
  split_ifs <;> omega

/-- The check of a number that is read as it is and checked by its own field. -/
theorem checked_exact_iff (hlen : len.toNat = t.LEN) (hfield : ∀ a, checkedField t a = t.field a)
    (hne : t ≠ .PARAMETER_MASK) (hread : readInt t value = ofBE value) :
    (t.MIN_VAL ≤ checkedField t (assignInt t (readInt t value) a) ∧
      checkedField t (assignInt t (readInt t value) a) ≤ t.MAX_VAL) ↔
      (Item.int t len value).Valid := by
  rw [hfield, field_assignInt_self, if_neg fun h => hne h.1, hread]
  exact (and_iff_right hlen).symm

/-- The check of an integer of the right length. -/
theorem checked_iff (hw : (Item.int t len value).WellEncoded) (hlen : len.toNat = t.LEN)
    (hcount : (0 ≤ a.MaxListCount ∧ a.MaxListCount ≤ 1) ↔ SmallCount before) :
    (t.MIN_VAL ≤ checkedField t (assignInt t (readInt t value) a) ∧
      checkedField t (assignInt t (readInt t value) a) ≤ t.MAX_VAL) ↔
      LetThrough before (.int t len value) := by
  obtain ⟨hvalue, -⟩ := hw hlen
  by_cases hbyte : isByte t = true
  · obtain ⟨h1, hmin, hmax, hne, hread, -, hlet⟩ := isByte_spec hbyte len value a before
    obtain ⟨-, -, -, -, -, hfield, -⟩ :=
      isByte_spec hbyte len value (assignInt t (readInt t value) a) before
    obtain ⟨x, rfl⟩ := exists_bytes_one (hvalue.trans h1)
    rw [hlet, hfield, field_assignInt_self, if_neg (fun h => hne h.1), hread, hmin, Item.Valid,
      ofBE_one, hmin]
    exact (toByte_range hmax).trans (and_iff_right hlen).symm
  · cases t <;> first | exact absurd rfl hbyte | skip
    case MAX_LIST_COUNT =>
      obtain ⟨x, y, rfl⟩ := exists_bytes_two hvalue
      exact checked_exact_iff hlen (fun _ => rfl) (by decide) (getUint16BigEndian_eq x y)
    case LIST_START_OFFSET =>
      obtain ⟨x, y, rfl⟩ := exists_bytes_two hvalue
      exact checked_exact_iff hlen (fun _ => rfl) (by decide) (getUint16BigEndian_eq x y)
    case SUBJECT_LENGTH =>
      obtain ⟨x, rfl⟩ := exists_bytes_one hvalue
      exact checked_exact_iff hlen (fun _ => rfl) (by decide) (by rw [ofBE_one]; rfl)
    case NOTIFICATION_STATUS =>
      have hsame : (assignInt .NOTIFICATION_STATUS (readInt .NOTIFICATION_STATUS value)
          a).MaxListCount = a.MaxListCount :=
        field_assignInt_of_ne (t := .MAX_LIST_COUNT) (by decide) _ a
      rw [checkedField, hsame]
      exact hcount.trans (and_iff_right hlen).symm
    case PARAMETER_MASK =>
      obtain ⟨x, y, z, w, rfl⟩ := exists_bytes_four hvalue
      exact (checked_mask_iff x y z w a).trans (and_iff_right hlen).symm

/-! ### The whole loop -/

theorem smallCount_append_singleton (before : List Item) (it : Item) :
    SmallCount (before ++ [it]) ↔
      SmallCount before ∨ ∃ len value, it = .int .MAX_LIST_COUNT len value ∧ ofBE value ≤ 1 := by
  simp only [SmallCount, List.mem_append, List.mem_singleton]
  constructor
  · rintro ⟨len, value, h | rfl, hv⟩
    · exact .inl ⟨len, value, h, hv⟩
    · exact .inr ⟨len, value, rfl, hv⟩
  · rintro (⟨len, value, h, hv⟩ | ⟨len, value, rfl, hv⟩)
    · exact ⟨len, value, .inl h, hv⟩
    · exact ⟨len, value, .inr rfl, hv⟩

/-- The count in the store tells whether a count of 0 or 1 has been seen. -/
theorem count_store (hw : it.WellEncoded) (hlet : LetThrough before it)
    (hnew : it.key ∉ before.map Item.key)
    (hcount : (0 ≤ a.MaxListCount ∧ a.MaxListCount ≤ 1) ↔ SmallCount before) :
    (0 ≤ (store a it).MaxListCount ∧ (store a it).MaxListCount ≤ 1) ↔
      SmallCount (before ++ [it]) := by
  rw [smallCount_append_singleton]
  cases it with
  | text t chars =>
    have hsame : (store a (.text t chars)).MaxListCount = a.MaxListCount :=
      field_setTextField .MAX_LIST_COUNT t _ a
    rw [hsame, hcount]
    simp
  | int t len value =>
    by_cases ht : t = .MAX_LIST_COUNT
    · subst ht
      obtain ⟨x, y, rfl⟩ := exists_bytes_two (hw hlet.1).1
      have hval : (store a (.int .MAX_LIST_COUNT len [x, y])).MaxListCount = ofBE [x, y] := by
        have h := field_assignInt_self .MAX_LIST_COUNT (getUint16BigEndian x y) a
        rw [if_neg (by simp)] at h
        exact h.trans (getUint16BigEndian_eq x y)
      have hno : ¬ SmallCount before := by
        rintro ⟨len', value', hmem, -⟩
        exact hnew (List.mem_map.2 ⟨_, hmem, rfl⟩)
      rw [hval]
      simp [hno]
    · have hsame : (store a (.int t len value)).MaxListCount = a.MaxListCount :=
        field_assignInt_of_ne (t := .MAX_LIST_COUNT) (Ne.symm ht) _ a
      rw [hsame, hcount]
      simp [ht]

theorem length_of_letThrough (hlet : LetThrough before (.int t len value)) : len.toNat = t.LEN := by
  cases t <;> exact hlet.1

/-- An item that is let through is stored. -/
theorem parseTurn_through (pre x : Bytes) (hw : it.WellEncoded) (hlet : LetThrough before it)
    (hcount : (0 ≤ a.MaxListCount ∧ a.MaxListCount ≤ 1) ↔ SmallCount before) :
    parseTurn (pre ++ (it.encode ++ x)) (pre.length, a) =
      .inl ((pre ++ it.encode).length, store a it) := by
  cases it with
  | text t chars =>
    rw [parseTurn_text hw, List.length_append, Item.encode, List.length_cons, List.length_cons,
      store]
    congr 2
    omega
  | int t len value =>
    have hlen := length_of_letThrough hlet
    have hvalue := (hw hlen).1
    have hchk := (checked_iff hw hlen hcount).2 hlet
    have htake : (value ++ x).take t.LEN = value := List.take_left' hvalue
    rw [parseTurn_int, if_pos (by omega), htake]
    simp only [if_pos (And.intro hlen hchk), store]
    rw [List.length_append, Item.encode, List.length_cons, List.length_cons, hvalue]
    congr 2
    omega

/-- An item that is not let through ends the loop. -/
theorem parseTurn_stop (pre : Bytes) (back : List Item) (hw : it.WellEncoded)
    (hlet : ¬ LetThrough before it)
    (hcount : (0 ≤ a.MaxListCount ∧ a.MaxListCount ≤ 1) ↔ SmallCount before) :
    (Complete back it →
      ∃ b, parseTurn (pre ++ (it.encode ++ encodeItems back)) (pre.length, a) =
        .inr (.returns false b)) ∧
    (¬ Complete back it →
      parseTurn (pre ++ (it.encode ++ encodeItems back)) (pre.length, a) = .inr .throws) := by
  cases it with
  | text t chars => exact absurd trivial hlet
  | int t len value =>
    rw [parseTurn_int]
    constructor
    · intro hc
      have hno : ¬ (len.toNat = t.LEN ∧
          t.MIN_VAL ≤ checkedField t
            (assignInt t (readInt t ((value ++ encodeItems back).take t.LEN)) a) ∧
          checkedField t (assignInt t (readInt t ((value ++ encodeItems back).take t.LEN)) a) ≤
            t.MAX_VAL) := by
        rintro ⟨hlen, hchk⟩
        rw [List.take_left' (hw hlen).1] at hchk
        exact hlet ((checked_iff hw hlen hcount).1 hchk)
      rw [if_pos (show t.LEN ≤ value.length + (encodeItems back).length from hc)]
      simp only [if_neg hno]
      exact ⟨_, rfl⟩
    · intro hc
      exact if_neg hc

/-- The loop ends with the list, or at the first item that is not let through. -/
theorem ends_items (pre : Bytes) (before : List Item) (hw : ∀ it ∈ its, it.WellEncoded)
    (hnd : ((before ++ its).map Item.key).Nodup)
    (hcount : (0 ≤ a.MaxListCount ∧ a.MaxListCount ≤ 1) ↔ SmallCount before) :
    (AllThrough before its ∧ Ends (parseTurn (pre ++ encodeItems its)) (pre.length, a)
        (.returns true (its.foldl store a))) ∨
      ∃ front it back, its = front ++ it :: back ∧ AllThrough before front ∧
        ¬ LetThrough (before ++ front) it ∧
        ∃ o, Ends (parseTurn (pre ++ encodeItems its)) (pre.length, a) o ∧
          (Complete back it → ∃ b, o = .returns false b) ∧ (¬ Complete back it → o = .throws) := by
  induction its generalizing before pre a with
  | nil =>
    refine .inl ⟨trivial, .stop ?_⟩
    have hend : ¬ ((pre.length : ℤ) < (pre ++ encodeItems []).length) := by
      simp [encodeItems]
    simp only [parseTurn, if_neg hend, List.foldl_nil]
  | cons it its ih =>
    obtain ⟨hit, hits⟩ := List.forall_mem_cons.1 hw
    have henc : encodeItems (it :: its) = it.encode ++ encodeItems its := List.flatMap_cons ..
    by_cases hlet : LetThrough before it
    · have hturn := parseTurn_through pre (encodeItems its) hit hlet hcount
      have hnew : it.key ∉ before.map Item.key := by
        rw [List.map_append, List.map_cons] at hnd
        exact fun h => (List.nodup_append.1 hnd).2.2 _ h _ List.mem_cons_self rfl
      have hnd' : ((before ++ [it] ++ its).map Item.key).Nodup := by
        rwa [List.append_assoc, List.singleton_append]
      have hrest :=
        ih (pre ++ it.encode) (before ++ [it]) hits hnd' (count_store hit hlet hnew hcount)
      rw [henc]
      rw [List.append_assoc] at hrest
      obtain ⟨hall, hends⟩ | ⟨front, it', back, rfl, hall, hno, o, hends, ho⟩ := hrest
      · exact .inl ⟨⟨hlet, hall⟩, .goOn hturn hends⟩
      · refine .inr ⟨it :: front, it', back, rfl, ⟨hlet, hall⟩, ?_, o, .goOn hturn hends, ho⟩
        rwa [List.append_assoc, List.singleton_append] at hno
    · obtain ⟨hc, hnc⟩ := parseTurn_stop pre its hit hlet hcount
      rw [henc]
      refine .inr ⟨[], it, its, rfl, trivial, by rwa [List.append_nil], ?_⟩
      by_cases hcomp : Complete its it
      · obtain ⟨b, hb⟩ := hc hcomp
        exact ⟨_, .stop hb, fun _ => ⟨b, rfl⟩, fun h => absurd hcomp h⟩
      · exact ⟨_, .stop (hnc hcomp), fun h => absurd h hcomp, fun _ => rfl⟩

/-! ### The values read back -/

/-- A valid number is stored as it is. -/
theorem field_store_of_valid (hw : (Item.int t len value).WellEncoded)
    (hv : (Item.int t len value).Valid) (a : AppParams) :
    t.field (assignInt t (readInt t value) a) = ofBE value := by
  obtain ⟨hlen, hmin, hmax⟩ := hv
  obtain ⟨hvalue, hmask⟩ := hw hlen
  rw [field_assignInt_self]
  by_cases hm : t = .PARAMETER_MASK
  · subst hm
    obtain ⟨x, y, z, w, rfl⟩ := exists_bytes_four hvalue
    have hne := hmask rfl
    have hread : readInt .PARAMETER_MASK [x, y, z, w] = getUint32BigEndian x y z w := rfl
    rw [IntTag.MAX_VAL] at hmax
    rw [hread, getUint32BigEndian_eq]
    rw [ofBE_four] at hne hmax ⊢
    have hx : x.toNat = 0 := by omega
    have hy : y.toNat = 0 := by omega
    rw [if_neg (by simp only [hx, hy]; omega), hx, hy]
    simp
  · rw [if_neg fun h => hm h.1]
    -- the other numbers have one or two bytes
    have htwo : t.LEN = 2 ∧ (∀ x y, readInt t [x, y] = getUint16BigEndian x y) ∨
        t.LEN = 1 ∧ ((∀ x, readInt t [x] = x.toNat) ∨
          t.MAX_VAL ≤ 127 ∧ ∀ x, readInt t [x] = toByte x) := by
      cases t <;> first
        | exact absurd rfl hm
        | exact .inl ⟨rfl, fun _ _ => rfl⟩
        | exact .inr ⟨rfl, .inr ⟨by decide, fun _ => rfl⟩⟩
        | exact .inr ⟨rfl, .inl fun _ => rfl⟩
    obtain ⟨h2, hread⟩ | ⟨h1, hread | ⟨hle, hread⟩⟩ := htwo
    · obtain ⟨x, y, rfl⟩ := exists_bytes_two (hvalue.trans h2)
      rw [hread, getUint16BigEndian_eq]
    · obtain ⟨x, rfl⟩ := exists_bytes_one (hvalue.trans h1)
      rw [hread, ofBE_one]
    · obtain ⟨x, rfl⟩ := exists_bytes_one (hvalue.trans h1)
      rw [ofBE_one] at hmax ⊢
      rw [hread, toByte, if_pos (by omega)]

theorem intValue_cons_int (t' : IntTag) :
    intValue (.int t len value :: its) t' = if t = t' then some (ofBE value : ℤ)
      else intValue its t' := by
  rw [intValue, List.findSome?_cons]
  split_ifs <;> simp_all [intValue]

theorem textValue_cons_text {t : TextTag} (t' : TextTag) :
    textValue (.text t chars :: its) t' =
      if t = t' then some (chars.map fun c => UInt16.ofNat c.toNat) else textValue its t' := by
  rw [textValue, List.findSome?_cons]
  split_ifs <;> simp_all [textValue]

theorem intValue_eq_none (h : .inl t ∉ its.map Item.key) : intValue its t = none := by
  rw [intValue, List.findSome?_eq_none_iff]
  intro it hit
  cases it with
  | text t' chars => rfl
  | int t' len value =>
    refine if_neg ?_
    rintro rfl
    exact h (List.mem_map.2 ⟨_, hit, rfl⟩)

theorem textValue_eq_none {t : TextTag} (h : .inr t ∉ its.map Item.key) :
    textValue its t = none := by
  rw [textValue, List.findSome?_eq_none_iff]
  intro it hit
  cases it with
  | int t' len value => rfl
  | text t' chars =>
    refine if_neg ?_
    rintro rfl
    exact h (List.mem_map.2 ⟨_, hit, rfl⟩)

theorem field_foldl (hw : ∀ it ∈ its, it.WellEncoded) (hv : ∀ it ∈ its, it.Valid)
    (hnd : (its.map Item.key).Nodup) (t : IntTag) (a : AppParams) :
    t.field (its.foldl store a) = (intValue its t).getD (t.field a) := by
  induction its generalizing a with
  | nil => rfl
  | cons it its ih =>
    obtain ⟨hwi, hw⟩ := List.forall_mem_cons.1 hw
    obtain ⟨hvi, hv⟩ := List.forall_mem_cons.1 hv
    obtain ⟨hnew, hnd⟩ := List.nodup_cons.1 hnd
    rw [List.foldl_cons, ih hw hv hnd]
    cases it with
    | text t' chars => rw [store, field_setTextField]; rfl
    | int t' len value =>
      rw [intValue_cons_int, store]
      by_cases ht : t' = t
      · subst ht
        rw [if_pos rfl, intValue_eq_none hnew, field_store_of_valid hwi hvi]
        rfl
      · rw [if_neg ht, field_assignInt_of_ne (Ne.symm ht)]

theorem textField_foldl (hnd : (its.map Item.key).Nodup) (t : TextTag) (a : AppParams) :
    t.field (its.foldl store a) = (textValue its t).or (t.field a) := by
  induction its generalizing a with
  | nil => rfl
  | cons it its ih =>
    obtain ⟨hnew, hnd⟩ := List.nodup_cons.1 hnd
    rw [List.foldl_cons, ih hnd]
    cases it with
    | int t' len value => rw [store, textField_assignInt]; rfl
    | text t' chars =>
      rw [store, textField_setField, textValue_cons_text]
      by_cases ht : t' = t
      · subst ht
        rw [textValue_eq_none hnew, if_pos rfl, if_pos rfl]
        rfl
      · rw [if_neg (Ne.symm ht), if_neg ht]

/-! ### Both directions -/

theorem allThrough_split {front back : List Item} (h : AllThrough before (front ++ it :: back)) :
    LetThrough (before ++ front) it := by
  induction front generalizing before with
  | nil =>
    rw [List.append_nil]
    exact h.1
  | cons it' front ih =>
    have := ih h.2
    rwa [List.append_assoc, List.singleton_append] at this

/-- There is one first item that is not let through. -/
theorem first_unique {front front' back back' : List Item} {it' : Item}
    (hall : AllThrough before front) (hno : ¬ LetThrough (before ++ front) it)
    (hall' : AllThrough before front') (hno' : ¬ LetThrough (before ++ front') it')
    (h : front ++ it :: back = front' ++ it' :: back') : it = it' ∧ back = back' := by
  induction front generalizing front' before with
  | nil =>
    cases front' with
    | nil => exact List.cons.inj h
    | cons j front' =>
      obtain ⟨rfl, -⟩ := List.cons.inj h
      rw [List.append_nil] at hno
      exact absurd hall'.1 hno
  | cons j front ih =>
    cases front' with
    | nil =>
      obtain ⟨rfl, -⟩ := List.cons.inj h
      rw [List.append_nil] at hno'
      exact absurd hall.1 hno'
    | cons j' front' =>
      obtain ⟨rfl, htail⟩ := List.cons.inj h
      refine ih hall.2 ?_ hall'.2 ?_ htail
      · rwa [List.append_assoc, List.singleton_append]
      · rwa [List.append_assoc, List.singleton_append]

/-- A valid item is let through, a notification status only behind a small count. -/
theorem letThrough_of_valid (hw : it.WellEncoded) (hv : it.Valid)
    (hn : ∀ len value, it = .int .NOTIFICATION_STATUS len value → SmallCount before) :
    LetThrough before it := by
  cases it with
  | text t chars => trivial
  | int t len value =>
    cases t
    case NOTIFICATION_STATUS => exact ⟨hv.1, hn len value rfl⟩
    case PARAMETER_MASK =>
      obtain ⟨hlen, -, hmax⟩ := hv
      obtain ⟨x, y, z, w, rfl⟩ := exists_bytes_four (hw hlen).1
      rw [IntTag.MAX_VAL, ofBE_four] at hmax
      refine ⟨hlen, ?_, ?_⟩
      · show x.toNat < 128
        omega
      · show y.toNat % 4 = 0
        omega
    all_goals exact hv

theorem smallCount_clear (a : AppParams) :
    (0 ≤ (clear a).MaxListCount ∧ (clear a).MaxListCount ≤ 1) ↔ SmallCount [] := by
  refine iff_of_false ?_ ?_
  · rintro ⟨-, h⟩
    exact absurd h (by decide : ¬ (1024 : ℤ) ≤ 1)
  · rintro ⟨_, _, h, -⟩
    cases h

/-- `parse` of a list of parameters with different tags does what it should exactly if the list is
readable. -/
theorem readsBack_iff (a : AppParams) (hw : ∀ it ∈ its, it.WellEncoded)
    (hnd : (its.map Item.key).Nodup) : ReadsBack a its ↔ Readable its := by
  have hends := ends_items [] [] hw hnd (smallCount_clear a)
  constructor
  · intro h
    constructor
    · rintro hv front len value back rfl
      obtain ⟨b, hb, -⟩ := h.1 hv
      obtain ⟨hall, -⟩ | ⟨_, it, after, -, -, -, o, ho, hc, hnc⟩ := hends
      · exact (allThrough_split hall).2
      · obtain rfl := ho.unique hb
        by_cases hcomp : Complete after it
        · obtain ⟨b', hb'⟩ := hc hcomp
          cases hb'
        · cases hnc hcomp
    · intro hinv
      obtain ⟨b, hb⟩ := h.2 hinv
      obtain ⟨-, ht⟩ | ⟨front, it, back, hits, hall, hno, o, ho, -, hnc⟩ := hends
      · cases ht.unique hb
      · refine ⟨front, it, back, hits, hall, hno, ?_⟩
        by_contra hcomp
        obtain rfl := ho.unique hb
        cases hnc hcomp
  · intro h
    constructor
    · intro hv
      obtain ⟨-, ht⟩ | ⟨front, it, back, rfl, -, hno, -⟩ := hends
      · exact ⟨_, ht, fun t => field_foldl hw hv hnd t (clear a),
          fun t => textField_foldl hnd t (clear a)⟩
      · -- a valid item that is not let through is a notification status
        have hmem : it ∈ front ++ it :: back := List.mem_append_right _ List.mem_cons_self
        refine absurd (letThrough_of_valid (hw it hmem) (hv it hmem) ?_) hno
        rintro len value rfl
        exact h.1 hv front len value back rfl
    · intro hinv
      obtain ⟨front, it, back, rfl, hall, hno, hcomp⟩ := h.2 hinv
      obtain ⟨hthrough, -⟩ | ⟨front', it', back', hits, hall', hno', o, ho, hc, -⟩ := hends
      · exact absurd (allThrough_split hthrough) hno
      · obtain ⟨rfl, rfl⟩ := first_unique hall hno hall' hno' hits
        obtain ⟨b, rfl⟩ := hc hcomp
        exact ⟨b, ho⟩

/-- Valid items that are let through are readable. -/
theorem readable_of_allThrough (hv : ∀ it ∈ its, it.Valid) (h : AllThrough [] its) :
    Readable its := by
  constructor
  · rintro - front len value back rfl
    exact (allThrough_split h).2
  · rintro ⟨it, hit, hno⟩
    exact absurd (hv it hit) hno

/-- A store with nothing in it. -/
def noParams : AppParams :=
  { MaxListCount := 0, ListStartOffset := 0, SubjectLength := 0, ParameterMask := 0,
    FilterMessageType := 0, FilterReadStatus := 0, FilterPriority := 0, FilterPeriodBegin := none,
    FilterPeriodEnd := none, FilterRecipient := none, FilterOriginator := none,
    FractionRequest := 0, Charset := 0, Attachment := 0, Retry := 0, Transparent := 0,
    StatusIndicator := 0, StatusValue := 0, Notification := 0 }

/-- A list count of 1, a notification status, a recipient and a mask. -/
def sampleItems : List Item :=
  [.int .MAX_LIST_COUNT 2 [0, 1], .int .NOTIFICATION_STATUS 1 [1],
    .text .FILTER_RECIPIENT [66, 111, 98], .int .PARAMETER_MASK 4 [0, 0, 1, 31]]

theorem readsBack_sampleItems :
    (∀ it ∈ sampleItems, it.Valid) ∧ ReadsBack noParams sampleItems := by
  have hv : ∀ it ∈ sampleItems, it.Valid := by decide
  have hcount : SmallCount [.int .MAX_LIST_COUNT 2 [0, 1]] :=
    ⟨2, [0, 1], List.mem_singleton_self _, by decide⟩
  have hall : AllThrough [] sampleItems :=
    ⟨hv _ List.mem_cons_self, ⟨rfl, hcount⟩, trivial, ⟨rfl, by decide, by decide⟩, trivial⟩
  exact ⟨hv, (readsBack_iff noParams (by decide) (by decide)).2 (readable_of_allThrough hv hall)⟩

/-- A notification status by itself is refused, a mask that is too large is taken, and a list count
with a length of 1 at the end of the header leads out of the array. -/
theorem not_readsBack_notification :
    ¬ ReadsBack noParams [.int .NOTIFICATION_STATUS 1 [1]] ∧
      ¬ ReadsBack noParams [.int .PARAMETER_MASK 4 [0, 4, 0, 1]] ∧
      ¬ ReadsBack noParams [.int .MAX_LIST_COUNT 1 [5]] := by
  refine ⟨fun h => ?_, fun h => ?_, fun h => ?_⟩
  · obtain ⟨b, hb, -⟩ := h.1 (by decide)
    have hends : Ends (parseTurn [0x0E, 1, 1]) (0, clear noParams)
        (.returns false { clear noParams with Notification := 1 }) :=
      ends_of_loop (n := 1) (by decide)
    cases hends.unique hb
  · obtain ⟨b, hb⟩ := h.2 (by decide)
    have hends : Ends (parseTurn [0x10, 4, 0, 4, 0, 1]) (0, clear noParams)
        (.returns true { clear noParams with ParameterMask := 1 }) :=
      ends_of_loop (n := 2) (by decide)
    cases hends.unique hb
  · obtain ⟨b, hb⟩ := h.2 (by decide)
    have hends : Ends (parseTurn [0x01, 1, 5]) (0, clear noParams) .throws :=
      ends_of_loop (n := 1) (by decide)
    cases hends.unique hb

end Map

end Msm8909w
