import Msm8909w.Lib.Bytes
import Mathlib.Data.List.Infix
import Mathlib.Tactic.Ring

/-!
# UTF-16 and UTF-8

The bytes of a text that is given by its UTF-16 code units.  A surrogate that is not one half of a
pair has no character; it is written as a question mark.

* `utf16Chars`, `utf8` : the characters and the bytes of a text,
* `utf8_append` : texts that are put together, if no pair arises where they meet,
* `length_utf8` : there are at least as many bytes as code units, and
  the same number exactly if each code unit gives one byte (`Narrow`),
* `byteIndex` : where the bytes of a code unit begin.
-/

namespace Msm8909w

/-! ### Surrogates -/

/-- The first half of a pair. -/
def IsHigh (c : UInt16) : Prop := 0xD800 ≤ c.toNat ∧ c.toNat < 0xDC00

/-- The second half of a pair. -/
def IsLow (c : UInt16) : Prop := 0xDC00 ≤ c.toNat ∧ c.toNat < 0xE000

instance (c : UInt16) : Decidable (IsHigh c) := inferInstanceAs (Decidable (_ ∧ _))

instance (c : UInt16) : Decidable (IsLow c) := inferInstanceAs (Decidable (_ ∧ _))

/-- The character of a code unit that is not in a pair. -/
def unitChar (c : UInt16) : Char := if IsHigh c ∨ IsLow c then '?' else Char.ofNat c.toNat

/-- The character of a pair. -/
def pairChar (h l : UInt16) : Char :=
  Char.ofNat (0x10000 + (h.toNat - 0xD800) * 0x400 + (l.toNat - 0xDC00))

/-! ### The characters and the bytes -/

/-- The characters of a text. -/
def utf16Chars : List UInt16 → List Char
  | [] => []
  | [c] => [unitChar c]
  | c :: d :: s =>
    if IsHigh c ∧ IsLow d then pairChar c d :: utf16Chars s else unitChar c :: utf16Chars (d :: s)

/-- The bytes of a text. -/
def utf8 (s : List UInt16) : Bytes := (utf16Chars s).flatMap String.utf8EncodeChar

section Utf8

variable {s t : List UInt16} {c d : UInt16}

@[simp] theorem utf8_nil : utf8 [] = [] := rfl

theorem utf8_pair (h : IsHigh c) (hd : IsLow d) (s : List UInt16) :
    utf8 (c :: d :: s) = String.utf8EncodeChar (pairChar c d) ++ utf8 s := by
  rw [utf8, utf16Chars, if_pos ⟨h, hd⟩]
  rfl

/-- A code unit that is not the first half of a pair. -/
theorem utf8_unit (h : ¬ (IsHigh c ∧ ∃ d ∈ s.head?, IsLow d)) :
    utf8 (c :: s) = String.utf8EncodeChar (unitChar c) ++ utf8 s := by
  cases s with
  | nil => rfl
  | cons d s =>
    have hcond : ¬ (IsHigh c ∧ IsLow d) := fun hpair => h ⟨hpair.1, d, rfl, hpair.2⟩
    rw [utf8, utf16Chars, if_neg hcond]
    rfl

/-- Texts that are put together, if no pair arises where they meet. -/
theorem utf8_append (h : (∀ c ∈ s.getLast?, ¬ IsHigh c) ∨ ∀ d ∈ t.head?, ¬ IsLow d) :
    utf8 (s ++ t) = utf8 s ++ utf8 t := by
  induction s using utf16Chars.induct with
  | case1 => rfl
  | case2 c =>
    have hnot : ¬ (IsHigh c ∧ ∃ d ∈ t.head?, IsLow d) := by
      rintro ⟨hc, d, hd, hlow⟩
      exact h.elim (fun h => h c rfl hc) fun h => h d hd hlow
    rw [List.singleton_append, utf8_unit hnot, utf8_unit (by simp), utf8_nil, List.append_nil]
  | case3 c d s hpair ih =>
    have hrest : (∀ c ∈ s.getLast?, ¬ IsHigh c) ∨ ∀ d ∈ t.head?, ¬ IsLow d := by
      refine h.imp_left fun h c hc => h c ?_
      rw [List.getLast?_cons_cons, List.getLast?_cons, Option.mem_def.1 hc]
      rfl
    rw [List.cons_append, List.cons_append, utf8_pair hpair.1 hpair.2, utf8_pair hpair.1 hpair.2,
      ih hrest, List.append_assoc]
  | case4 c d s hpair ih =>
    have hnot : ∀ s : List UInt16, ¬ (IsHigh c ∧ ∃ d' ∈ (d :: s).head?, IsLow d') := by
      rintro s ⟨hc, d', hd', hlow⟩
      obtain rfl := Option.some.inj hd'
      exact hpair ⟨hc, hlow⟩
    rw [List.getLast?_cons_cons] at h
    rw [List.cons_append, List.cons_append, utf8_unit (hnot _), utf8_unit (hnot _),
      ← List.cons_append, ih h, List.append_assoc]

/-! ### How many bytes there are -/

/-- The code unit gives one byte, unless it is in a pair. -/
def OneByte (c : UInt16) : Prop := c.toNat < 0x80 ∨ IsHigh c ∨ IsLow c

instance (c : UInt16) : Decidable (OneByte c) := inferInstanceAs (Decidable (_ ∨ _ ∨ _))

/-- Each code unit gives one byte: the text consists of ASCII characters, and of surrogates that are
not in a pair. -/
def Narrow : List UInt16 → Prop
  | [] => True
  | [c] => OneByte c
  | c :: d :: s => ¬ (IsHigh c ∧ IsLow d) ∧ OneByte c ∧ Narrow (d :: s)

theorem toNat_ofNat {n : ℕ} (h : n.isValidChar) : (Char.ofNat n).toNat = n := by
  rw [Char.ofNat, dif_pos h]
  rfl

theorem utf8Size_eq (c : Char) : c.utf8Size =
    if c.toNat ≤ 0x7F then 1 else if c.toNat ≤ 0x7FF then 2
    else if c.toNat ≤ 0xFFFF then 3 else 4 :=
  rfl

theorem isValidChar_pair (h : IsHigh c) (hd : IsLow d) :
    (0x10000 + (c.toNat - 0xD800) * 0x400 + (d.toNat - 0xDC00)).isValidChar := by
  obtain ⟨h1, h2⟩ := h
  obtain ⟨h3, h4⟩ := hd
  exact .inr ⟨by omega, by omega⟩

theorem isValidChar_of_not_surrogate (h : ¬ (IsHigh c ∨ IsLow c)) : c.toNat.isValidChar := by
  have hlt := c.toNat_lt
  rw [IsHigh, IsLow] at h
  rw [Nat.isValidChar]
  omega

theorem utf8Size_pairChar (h : IsHigh c) (hd : IsLow d) : (pairChar c d).utf8Size = 4 := by
  rw [utf8Size_eq, pairChar, toNat_ofNat (isValidChar_pair h hd), if_neg (by omega),
    if_neg (by omega), if_neg (by omega)]

theorem utf8Size_unitChar (c : UInt16) :
    1 ≤ (unitChar c).utf8Size ∧ ((unitChar c).utf8Size = 1 ↔ OneByte c) := by
  have hpos := Char.utf8Size_pos (unitChar c)
  refine ⟨hpos, ?_⟩
  rw [unitChar, OneByte]
  split_ifs with hsurrogate
  · exact iff_of_true rfl (.inr hsurrogate)
  · rw [utf8Size_eq, toNat_ofNat (isValidChar_of_not_surrogate hsurrogate),
      or_iff_left hsurrogate]
    split_ifs <;> omega

theorem length_utf8_pair (h : IsHigh c) (hd : IsLow d) (s : List UInt16) :
    (utf8 (c :: d :: s)).length = 4 + (utf8 s).length := by
  rw [utf8_pair h hd, List.length_append, String.length_utf8EncodeChar, utf8Size_pairChar h hd]

theorem length_utf8_unit (h : ¬ (IsHigh c ∧ ∃ d ∈ s.head?, IsLow d)) :
    (utf8 (c :: s)).length = (unitChar c).utf8Size + (utf8 s).length := by
  rw [utf8_unit h, List.length_append, String.length_utf8EncodeChar]

/-- **There are at least as many bytes as code units**, and the same number exactly if each code
unit gives one byte. -/
theorem length_utf8 (s : List UInt16) :
    s.length ≤ (utf8 s).length ∧ ((utf8 s).length = s.length ↔ Narrow s) := by
  induction s using utf16Chars.induct with
  | case1 => exact ⟨Nat.le_refl 0, iff_of_true rfl trivial⟩
  | case2 c =>
    obtain ⟨hpos, hone⟩ := utf8Size_unitChar c
    rw [length_utf8_unit (by simp), utf8_nil, Narrow]
    exact ⟨hpos, hone⟩
  | case3 c d s hpair ih =>
    rw [length_utf8_pair hpair.1 hpair.2, List.length_cons, List.length_cons, Narrow]
    refine ⟨by omega, iff_of_false (by omega) fun h => h.1 hpair⟩
  | case4 c d s hpair ih =>
    obtain ⟨hpos, hone⟩ := utf8Size_unitChar c
    obtain ⟨hle, hrest⟩ := ih
    have hnot : ¬ (IsHigh c ∧ ∃ d' ∈ (d :: s).head?, IsLow d') := by
      rintro ⟨hc, d', hd', hlow⟩
      obtain rfl := Option.some.inj hd'
      exact hpair ⟨hc, hlow⟩
    rw [length_utf8_unit hnot, List.length_cons, Narrow, ← hone, ← hrest]
    refine ⟨by omega, ?_⟩
    constructor
    · intro h
      exact ⟨hpair, by omega, by omega⟩
    · rintro ⟨-, h1, h2⟩
      omega

/-- Only ASCII characters. -/
def Ascii (s : List UInt16) : Prop := ∀ c ∈ s, c.toNat < 0x80

instance (s : List UInt16) : Decidable (Ascii s) := List.decidableBAll _ s

theorem not_isHigh_of_ascii (h : c.toNat < 0x80) : ¬ IsHigh c := by
  rw [IsHigh]
  omega

theorem not_isLow_of_ascii (h : c.toNat < 0x80) : ¬ IsLow c := by
  rw [IsLow]
  omega

theorem narrow_of_ascii (h : Ascii s) : Narrow s := by
  induction s using utf16Chars.induct with
  | case1 => trivial
  | case2 c => exact .inl (h c List.mem_cons_self)
  | case3 c d s hpair ih => exact absurd hpair.1 (not_isHigh_of_ascii (h c List.mem_cons_self))
  | case4 c d s hpair ih =>
    exact ⟨hpair, .inl (h c List.mem_cons_self), ih fun c' hc' => h c' (List.mem_cons_of_mem c hc')⟩

/-- The bytes of a text with ASCII characters in the middle. -/
theorem length_utf8_append_ascii {a : List UInt16} (ha : Ascii a) (hne : a ≠ [])
    (s t : List UInt16) :
    (utf8 (s ++ (a ++ t))).length = (utf8 s).length + a.length + (utf8 t).length := by
  have hhead : ∀ d ∈ (a ++ t).head?, ¬ IsLow d := by
    intro d hd
    rw [List.head?_append_of_ne_nil a hne] at hd
    exact not_isLow_of_ascii (ha d (List.mem_of_mem_head? hd))
  have hlast : ∀ c ∈ a.getLast?, ¬ IsHigh c := fun c hc =>
    not_isHigh_of_ascii (ha c (List.mem_of_getLast? hc))
  rw [utf8_append (.inr hhead), utf8_append (.inl hlast), List.length_append, List.length_append,
    (length_utf8 a).2.2 (narrow_of_ascii ha), Nat.add_assoc]

/-! ### Where the bytes are -/

/-- The bytes of a character that is not an ASCII character are not ASCII characters. -/
theorem le_of_mem_utf8EncodeChar {c : Char} (h : 0x80 ≤ c.toNat) {b : UInt8}
    (hb : b ∈ String.utf8EncodeChar c) : 0x80 ≤ b.toNat := by
  have hv : 0x80 ≤ c.val.toNat := h
  simp only [String.utf8EncodeChar, if_neg (show ¬ c.val.toNat ≤ 0x7F by omega)] at hb
  split_ifs at hb <;> simp only [List.mem_cons, List.not_mem_nil, or_false] at hb <;>
    rcases hb with rfl | rfl | rfl | rfl <;> rw [UInt8.toNat_ofNat'] <;> omega

/-- A code unit that is not ASCII gives no ASCII bytes, but for a question mark. -/
theorem of_mem_utf8EncodeChar_unitChar (h : 0x80 ≤ c.toNat) {b : UInt8}
    (hb : b ∈ String.utf8EncodeChar (unitChar c)) : b = 63 ∨ 0x80 ≤ b.toNat := by
  rw [unitChar] at hb
  split_ifs at hb with hsurrogate
  · exact .inl (List.mem_singleton.1 hb)
  · refine .inr (le_of_mem_utf8EncodeChar ?_ hb)
    rw [toNat_ofNat (isValidChar_of_not_surrogate hsurrogate)]
    exact h

theorem le_of_mem_utf8EncodeChar_pairChar (h : IsHigh c) (hd : IsLow d) {b : UInt8}
    (hb : b ∈ String.utf8EncodeChar (pairChar c d)) : 0x80 ≤ b.toNat := by
  refine le_of_mem_utf8EncodeChar ?_ hb
  rw [pairChar, toNat_ofNat (isValidChar_pair h hd)]
  omega

theorem utf8EncodeChar_unitChar (h : c.toNat < 0x80) :
    String.utf8EncodeChar (unitChar c) = [UInt8.ofNat c.toNat] := by
  have hunit : unitChar c = Char.ofNat c.toNat := by
    rw [unitChar, if_neg]
    rintro (hc | hc)
    · exact not_isHigh_of_ascii h hc
    · exact not_isLow_of_ascii h hc
  have hval : (Char.ofNat c.toNat).val.toNat = c.toNat := toNat_ofNat (.inl (by omega))
  rw [hunit, String.utf8EncodeChar]
  simp only [hval, if_pos (show c.toNat ≤ 0x7F by omega)]

/-- The number of bytes in front of the code unit at `j`. -/
def byteIndex (s : List UInt16) (j : ℕ) : ℕ := (utf8 (s.take j)).length

@[simp] theorem byteIndex_zero (s : List UInt16) : byteIndex s 0 = 0 := rfl

theorem byteIndex_pair (h : IsHigh c) (hd : IsLow d) (s : List UInt16) (j : ℕ) :
    byteIndex (c :: d :: s) (j + 2) = 4 + byteIndex s j := by
  rw [byteIndex, List.take_succ_cons, List.take_succ_cons, length_utf8_pair h hd, byteIndex]

theorem byteIndex_unit (h : ¬ (IsHigh c ∧ ∃ d ∈ s.head?, IsLow d)) (j : ℕ) :
    byteIndex (c :: s) (j + 1) = (unitChar c).utf8Size + byteIndex s j := by
  rw [byteIndex, List.take_succ_cons, length_utf8_unit, byteIndex]
  rintro ⟨hc, d, hd, hlow⟩
  refine h ⟨hc, d, ?_, hlow⟩
  cases s with
  | nil => simp at hd
  | cons e s => cases j with
    | zero => cases hd
    | succ j => exact hd

end Utf8

end Msm8909w
