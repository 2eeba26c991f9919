import Msm8909w.Map.AppParamItems

/-!
# Application parameters from the air

The header of a request may hold any bytes.  The loop of `parse` does not go on at a tag it does not
know, reads the bytes of a value whether they are there or not, and goes back over the array for a
text with a length byte of 128 or more, since the byte is signed.

* `Parsable a params` : known parameters, up to the first one that is refused or to the end,
* `MeetsNegative a params` : the loop comes to a text with such a length byte,
* `returns_of_parsable`, `parsable_of_returns` : the two directions of `parse_returns`.
-/

namespace Msm8909w

namespace Map

open MasAppParamsStore

/-! ### The condition -/

/-- The integer is accepted by `validateTag`, after it has been assigned. -/
def Accepted (t : IntTag) (len : UInt8) (a : AppParams) : Prop :=
  validateTag (checkedField t a) (toByte len) t.MIN_VAL t.MAX_VAL t.LEN = true

/-- Parameters with known tags whose values are there, up to one that is refused or to the end. -/
inductive Parsable : AppParams → Bytes → Prop
  | done {a : AppParams} : Parsable a []
  | refused {a : AppParams} {t : IntTag} {len : UInt8} {value rest : Bytes}
      (hvalue : value.length = t.LEN)
      (hrefused : ¬ Accepted t len (assignInt t (readInt t value) a)) :
      Parsable a (t.tag :: len :: (value ++ rest))
  | int {a : AppParams} {t : IntTag} {len : UInt8} {value rest : Bytes}
      (hvalue : value.length = t.LEN)
      (hrest : Parsable (assignInt t (readInt t value) a) rest) :
      Parsable a (t.tag :: len :: (value ++ rest))
  | text {a : AppParams} {t : TextTag} {len : UInt8} {chars rest : Bytes} (hlen : len.toNat < 128)
      (hchars : chars.length = len.toNat)
        (hrest : Parsable (t.setField (chars.map toChar) a) rest) :
      Parsable a (t.tag :: len :: (chars ++ rest))

/-- The parameters lead to a text with a length byte that is negative. -/
inductive MeetsNegative : AppParams → Bytes → Prop
  | here {a : AppParams} {t : TextTag} {len : UInt8} {rest : Bytes} (hlen : 128 ≤ len.toNat) :
      MeetsNegative a (t.tag :: len :: rest)
  | int {a : AppParams} {t : IntTag} {len : UInt8} {value rest : Bytes}
      (hvalue : value.length = t.LEN)
      (hrest : MeetsNegative (assignInt t (readInt t value) a) rest) :
      MeetsNegative a (t.tag :: len :: (value ++ rest))
  | text {a : AppParams} {t : TextTag} {len : UInt8} {chars rest : Bytes} (hlen : len.toNat < 128)
      (hchars : chars.length = len.toNat)
      (hrest : MeetsNegative (t.setField (chars.map toChar) a) rest) :
      MeetsNegative a (t.tag :: len :: (chars ++ rest))

/-! ### One turn -/

section Turn

variable {pre rest value chars : Bytes} {a b : AppParams} {len : UInt8}

/-- The place behind a parameter. -/
theorem cursor_append (pre value : Bytes) (tag len : UInt8) :
    ((pre.length : ℤ) + 2 + value.length) = (pre ++ tag :: len :: value).length := by
  simp only [List.length_append, List.length_cons]
  omega

/-- The turn for an integer whose value is there. -/
theorem parseTurn_value (pre rest : Bytes) (a : AppParams) {t : IntTag}
    (hvalue : value.length = t.LEN) :
    parseTurn (pre ++ t.tag :: len :: (value ++ rest)) (pre.length, a) =
      if validateTag (checkedField t (assignInt t (readInt t value) a)) (toByte len) t.MIN_VAL
          t.MAX_VAL t.LEN then
        .inl ((pre ++ t.tag :: len :: value).length, assignInt t (readInt t value) a)
      else .inr (.returns false (assignInt t (readInt t value) a)) := by
  have hle : t.LEN ≤ (value ++ rest).length := by
    rw [List.length_append, hvalue]
    exact Nat.le_add_right _ _
  have htake : (value ++ rest).take t.LEN = value := by
    rw [← hvalue, List.take_left]
  rw [parseTurn_intTag, ← cursor_append, hvalue]
  simp only [parseInt, bytesAt_append_two, byteAt_append_one, if_pos hle, htake]

/-- The turn for an integer that is cut off. -/
theorem parseTurn_cutOff {t : IntTag} (hlen : rest.length < t.LEN + 1) :
    parseTurn (pre ++ t.tag :: rest) (pre.length, a) = .inr .throws := by
  have hbytes : bytesAt (pre ++ t.tag :: rest) (pre.length + 2) t.LEN = none := by
    refine if_neg ?_
    rw [List.length_append, List.length_cons]
    omega
  rw [parseTurn_intTag, parseInt, hbytes]

/-- The turn for a text whose characters are there. -/
theorem parseTurn_chars (pre rest : Bytes) (a : AppParams) (t : TextTag) (hlen : len.toNat < 128)
    (hchars : chars.length = len.toNat) :
    parseTurn (pre ++ t.tag :: len :: (chars ++ rest)) (pre.length, a) =
      .inl ((pre ++ t.tag :: len :: chars).length, t.setField (chars.map toChar) a) := by
  have hbyte : toByte len = chars.length := by rw [toByte, if_pos hlen, hchars]
  have hle : chars.length ≤ (chars ++ rest).length := by
    rw [List.length_append]
    exact Nat.le_add_right _ _
  rw [parseTurn_textTag, ← cursor_append]
  simp only [parseText, byteAt_append_one, hbyte, Int.toNat_natCast, bytesAt_append_two, if_pos hle,
    List.take_left]
  congr 2
  omega

/-- The turn for a text that is cut off. -/
theorem parseTurn_textCutOff {t : TextTag} (h : rest = [] ∨ ∃ len chars, rest = len :: chars ∧
    len.toNat < 128 ∧ chars.length < len.toNat) :
    parseTurn (pre ++ t.tag :: rest) (pre.length, a) = .inr .throws := by
  rw [parseTurn_textTag]
  rcases h with rfl | ⟨len, chars, rfl, hlen, hchars⟩
  · have hbyte : byteAt (pre ++ [t.tag]) (pre.length + 1) = none := by
      rw [byteAt, if_pos (by omega)]
      refine List.getElem?_eq_none ?_
      rw [List.length_append, List.length_singleton]
      omega
    rw [parseText, hbyte]
  · have hbyte : toByte len = len.toNat := if_pos hlen
    simp only [parseText, byteAt_append_one, hbyte, Int.toNat_natCast, bytesAt_append_two,
      if_neg (not_le.2 hchars)]

/-- A tag that is not known. -/
theorem parseTurn_unknown {tag : UInt8} (hint : intTags.find? (·.tag = tag) = none)
    (htext : textTags.find? (·.tag = tag) = none) :
    parseTurn (pre ++ tag :: rest) (pre.length, a) = .inl ((pre.length : ℤ), a) := by
  simp only [parseTurn, if_pos length_lt_append, byteAt_append, hint, htext]

/-- The end of the array. -/
theorem parseTurn_done : parseTurn pre (pre.length, a) = .inr (.returns true a) :=
  if_neg (lt_irrefl _)

theorem bytes_append (pre value rest : Bytes) (tag len : UInt8) :
    pre ++ tag :: len :: (value ++ rest) = (pre ++ tag :: len :: value) ++ rest := by simp

end Turn

/-! ### The whole loop -/

section Loop

variable {d : Bytes} {a b : AppParams} {result : Bool}

theorem returns_of_parsable (h : Parsable a d) (pre : Bytes) :
    ∃ result b, Ends (parseTurn (pre ++ d)) (pre.length, a) (.returns result b) := by
  induction h generalizing pre with
  | done =>
    rw [List.append_nil]
    exact ⟨true, _, .stop parseTurn_done⟩
  | refused hvalue hrefused =>
    exact ⟨false, _, .stop ((parseTurn_value pre _ _ hvalue).trans (if_neg hrefused))⟩
  | @int a t len value rest hvalue hrest ih =>
    by_cases haccepted : Accepted t len (assignInt t (readInt t value) a)
    · obtain ⟨result, b, hends⟩ := ih (pre ++ t.tag :: len :: value)
      have hturn := (parseTurn_value pre rest a hvalue).trans (if_pos haccepted)
      rw [← bytes_append] at hends
      exact ⟨result, b, .goOn hturn hends⟩
    · exact ⟨false, _, .stop ((parseTurn_value pre _ _ hvalue).trans (if_neg haccepted))⟩
  | @text a t len chars rest hlen hchars hrest ih =>
    obtain ⟨result, b, hends⟩ := ih (pre ++ t.tag :: len :: chars)
    have hturn := parseTurn_chars pre rest a t hlen hchars
    rw [← bytes_append] at hends
    exact ⟨result, b, .goOn hturn hends⟩

theorem parsable_of_returns (pre : Bytes)
    (h : Ends (parseTurn (pre ++ d)) (pre.length, a) (.returns result b)) :
    Parsable a d ∨ MeetsNegative a d := by
  induction hlen : d.length using Nat.strong_induction_on generalizing pre d a with
  | _ n ih =>
    cases d with
    | nil => exact .inl .done
    | cons tag rest =>
      rw [List.length_cons] at hlen
      cases hint : intTags.find? (·.tag = tag) with
      | some t =>
        obtain rfl : t.tag = tag := by simpa using List.find?_some hint
        by_cases hcut : rest.length < t.LEN + 1
        · rw [ends_iff_of_stop (parseTurn_cutOff hcut)] at h
          cases h
        obtain ⟨len, value, rest, rfl, hvalue⟩ : ∃ len value rest', rest = len :: (value ++ rest') ∧
            value.length = t.LEN := by
          cases rest with
          | nil => simp at hcut
          | cons len rest =>
            refine ⟨len, rest.take t.LEN, rest.drop t.LEN, by simp, ?_⟩
            rw [List.length_cons] at hcut
            rw [List.length_take]
            omega
        by_cases haccepted : Accepted t len (assignInt t (readInt t value) a)
        · have hturn := (parseTurn_value pre rest a hvalue).trans (if_pos haccepted)
          rw [ends_iff_of_goOn hturn, bytes_append] at h
          simp only [List.length_cons, List.length_append] at hlen
          rcases ih rest.length (by omega) _ h rfl with hparsable | hmeets
          · exact .inl (.int hvalue hparsable)
          · exact .inr (.int hvalue hmeets)
        · exact .inl (.refused hvalue haccepted)
      | none =>
        cases htext : textTags.find? (·.tag = tag) with
        | none => exact absurd h (not_ends_of_same (parseTurn_unknown hint htext))
        | some t =>
          obtain rfl : t.tag = tag := by simpa using List.find?_some htext
          cases rest with
          | nil =>
            rw [ends_iff_of_stop (parseTurn_textCutOff (.inl rfl))] at h
            cases h
          | cons len rest =>
            by_cases hneg : 128 ≤ len.toNat
            · exact .inr (.here hneg)
            have hsmall : len.toNat < 128 := not_le.1 hneg
            by_cases hcut : rest.length < len.toNat
            · rw [ends_iff_of_stop
                (parseTurn_textCutOff (.inr ⟨len, rest, rfl, hsmall, hcut⟩))] at h
              cases h
            obtain ⟨chars, rest, rfl, hchars⟩ : ∃ chars rest', rest = chars ++ rest' ∧
                chars.length = len.toNat := by
              refine ⟨rest.take len.toNat, rest.drop len.toNat, by simp, ?_⟩
              rw [List.length_take]
              omega
            have hturn := parseTurn_chars pre rest a t hsmall hchars
            rw [ends_iff_of_goOn hturn, bytes_append] at h
            simp only [List.length_cons, List.length_append] at hlen
            rcases ih rest.length (by omega) _ h rfl with hparsable | hmeets
            · exact .inl (.text hsmall hchars hparsable)
            · exact .inr (.text hsmall hchars hmeets)

end Loop

/-- **When `parse` returns**: on parameters with known tags and whole values it does, up to the
first one that is refused; and if it does, then either they are such, or the loop comes to a text
with a negative length. -/
theorem parse_returns (a : AppParams) (params : Bytes) :
    (Parsable a params → ∃ result b, Parses (some params) a (.returns result b)) ∧
      ((∃ result b, Parses (some params) a (.returns result b)) →
        Parsable a params ∨ MeetsNegative a params) := by
  constructor
  · exact fun h => returns_of_parsable h []
  · rintro ⟨result, b, h⟩
    exact parsable_of_returns [] h

/-- **`parse` hangs** at an unknown tag and at a text of length 254, and throws at a value that is
cut off. -/
theorem parse_hangs :
    (¬ ∃ o, Parses (some [0x0D]) noParams o) ∧ (¬ ∃ o, Parses (some [0x04, 0xFE]) noParams o) ∧
      Parses (some [0x01, 0x02]) noParams .throws := by
  refine ⟨?_, ?_, ?_⟩
  · rintro ⟨o, h⟩
    have hsame : parseTurn [0x0D] (0, noParams) = .inl (0, noParams) := by decide
    exact not_ends_of_same hsame h
  · rintro ⟨o, h⟩
    have hfirst : parseTurn [0x04, 0xFE] (0, noParams) =
        .inl (0, { noParams with FilterPeriodBegin := some [] }) := by decide
    have hsame : parseTurn [0x04, 0xFE] (0, { noParams with FilterPeriodBegin := some [] }) =
        .inl (0, { noParams with FilterPeriodBegin := some [] }) := by decide
    exact not_ends_of_same hsame ((ends_iff_of_goOn hfirst).1 h)
  · exact .stop (by decide)

end Map

end Msm8909w
