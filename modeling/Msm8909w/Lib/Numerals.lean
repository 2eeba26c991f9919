import Msm8909w.Lib.Bytes

/-!
# Reading numbers

`strtoul` is the C function for base 0, which finds out the base from the text, on a machine with a
`long` of 64 bits.  `IsNumber t n` says that `t` is the number `n` as C writes it: hexadecimal
behind `0x`, octal behind `0`, or decimal.

* `strtoul_append` : reading a number stops at the first character that is no digit or letter.
-/

namespace Msm8909w

/-- The value of a digit or a letter; other characters have one that is no digit of any base. -/
def digitValue (c : UInt8) : ℕ :=
  if 48 ≤ c ∧ c ≤ 57 then c.toNat - 48
  else if 97 ≤ c ∧ c ≤ 122 then c.toNat - 87
  else if 65 ≤ c ∧ c ≤ 90 then c.toNat - 55
  else 36

/-- `isxdigit`. -/
def isXDigit (c : UInt8) : Bool := digitValue c < 16

/-- The value of digits, the highest first. -/
def ofDigits (base : ℕ) (ds : Bytes) : ℕ := ds.foldl (fun n d => base * n + digitValue d) 0

/-- The base that the text shows, and the digits. -/
def findBase : Bytes → ℕ × Bytes
  | 48 :: x :: d :: ds =>
    if (x = 120 ∨ x = 88) ∧ digitValue d < 16 then (16, d :: ds) else (8, 48 :: x :: d :: ds)
  | 48 :: ds => (8, 48 :: ds)
  | ds => (10, ds)

/-- `strtoul(s, NULL, 0)`. -/
def strtoul (s : Bytes) : ℕ :=
  let s := s.dropWhile isSpace
  let (base, ds) := findBase (if s.head? = some 45 ∨ s.head? = some 43 then s.tail else s)
  let value := ofDigits base (ds.takeWhile fun d => digitValue d < base)
  if 2 ^ 64 ≤ value then 2 ^ 64 - 1
  else if s.head? = some 45 then (2 ^ 64 - value) % 2 ^ 64
  else value

/-- Digits of a base. -/
def IsDigits (base : ℕ) (ds : Bytes) : Prop := ∀ d ∈ ds, digitValue d < base

/-- The text is a number of at most 32 bits. -/
def IsNumber (t : Bytes) (n : ℕ) : Prop :=
  n < 2 ^ 32 ∧
    ((∃ x ds, (x = 120 ∨ x = 88) ∧ ds ≠ [] ∧ IsDigits 16 ds ∧ t = 48 :: x :: ds ∧
      n = ofDigits 16 ds) ∨
      (∃ ds, IsDigits 8 ds ∧ t = 48 :: ds ∧ n = ofDigits 8 ds) ∨
      ∃ d ds, d ≠ 48 ∧ IsDigits 10 (d :: ds) ∧ t = d :: ds ∧ n = ofDigits 10 (d :: ds))

variable {t tail : Bytes} {n : ℕ}

theorem digitValue_of_le {c : UInt8} (h : c ≤ 47) : digitValue c = 36 := by
  have hle : c.toNat ≤ 47 := UInt8.le_iff_toNat_le.1 h
  have hnot : ∀ d : UInt8, 48 ≤ d.toNat → ¬d ≤ c := by
    intro d hd hdc
    have := UInt8.le_iff_toNat_le.1 hdc
    omega
  rw [digitValue, if_neg fun h => hnot 48 (by decide) h.1, if_neg fun h => hnot 97 (by decide) h.1,
    if_neg fun h => hnot 65 (by decide) h.1]

theorem ne_of_isXDigit {c d : UInt8} (hc : isXDigit c) (hd : d ≤ 47) : c ≠ d := by
  rintro rfl
  rw [isXDigit, digitValue_of_le hd] at hc
  exact absurd hc (by decide)

theorem le_of_isSpace {c : UInt8} (h : isSpace c = true) : c ≤ 47 := by
  simp only [isSpace, Bool.or_eq_true, beq_iff_eq, Bool.and_eq_true, decide_eq_true_eq] at h
  rcases h with rfl | ⟨-, h⟩
  · decide
  · have hle : c.toNat ≤ 13 := UInt8.le_iff_toNat_le.1 h
    refine UInt8.le_iff_toNat_le.2 (hle.trans ?_)
    decide

/-- The characters of a number. -/
theorem IsNumber.digitValue_lt (h : IsNumber t n) {c : UInt8} (hc : c ∈ t) : digitValue c < 36 := by
  have hsmall : ∀ {b : ℕ} {ds : Bytes}, b ≤ 36 → IsDigits b ds → c ∈ ds → digitValue c < 36 :=
    fun hb hds hmem => lt_of_lt_of_le (hds c hmem) hb
  obtain ⟨-, ⟨x, ds, hx, -, hds, rfl, -⟩ | ⟨ds, hds, rfl, -⟩ | ⟨d, ds, -, hds, rfl, -⟩⟩ := h
  · rcases List.mem_cons.1 hc with rfl | hc
    · decide
    · rcases List.mem_cons.1 hc with rfl | hc
      · rcases hx with rfl | rfl <;> decide
      · exact hsmall (by decide) hds hc
  · rcases List.mem_cons.1 hc with rfl | hc
    · decide
    · exact hsmall (by decide) hds hc
  · exact hsmall (by decide) hds hc

theorem IsNumber.ne_nil (h : IsNumber t n) : t ≠ [] := by
  obtain ⟨-, ⟨x, ds, -, -, -, rfl, -⟩ | ⟨ds, -, rfl, -⟩ | ⟨d, ds, -, -, rfl, -⟩⟩ := h <;>
    exact List.cons_ne_nil _ _

theorem takeWhile_digits {base : ℕ} {ds : Bytes} (hds : IsDigits base ds) (hbase : base ≤ 36)
    (htail : ∀ c ∈ tail.head?, 36 ≤ digitValue c) :
    (ds ++ tail).takeWhile (fun d => digitValue d < base) = ds := by
  rw [List.takeWhile_append_of_pos fun d hd => decide_eq_true (hds d hd)]
  cases tail with
  | nil => rw [List.takeWhile_nil, List.append_nil]
  | cons c tail =>
    have hc : ¬digitValue c < base := not_lt.2 (hbase.trans (htail c rfl))
    simp [hc]

theorem findBase_octal {s : Bytes} (h : ∀ x ∈ s.head?, x ≠ 120 ∧ x ≠ 88) :
    findBase (48 :: s) = (8, 48 :: s) := by
  match s with
  | [] => rfl
  | [x] => rfl
  | x :: d :: ds =>
    have hx := h x rfl
    simp [findBase, hx.1, hx.2]

theorem findBase_decimal {d : UInt8} (hd : d ≠ 48) (s : Bytes) :
    findBase (d :: s) = (10, d :: s) := by
  unfold findBase
  split
  · next heq => exact absurd (List.cons.inj heq).1 hd
  · next heq => exact absurd (List.cons.inj heq).1 hd
  · rfl

/-- The base and the digits of a number, whatever follows on it. -/
theorem IsNumber.findBase_append (h : IsNumber t n) (htail : ∀ c ∈ tail.head?, 36 ≤ digitValue c) :
    ofDigits (findBase (t ++ tail)).1
      ((findBase (t ++ tail)).2.takeWhile fun d => digitValue d < (findBase (t ++ tail)).1) =
        n := by
  obtain ⟨-, ⟨x, ds, hx, hne, hds, rfl, rfl⟩ | ⟨ds, hds, rfl, rfl⟩ | ⟨d, ds, hd, hds, rfl, rfl⟩⟩ :=
    h
  · obtain ⟨d, ds, rfl⟩ := List.exists_cons_of_ne_nil hne
    have hfind : findBase (48 :: x :: d :: ds ++ tail) = (16, d :: ds ++ tail) := by
      have hd : digitValue d < 16 := hds d List.mem_cons_self
      simp [findBase, hx, hd]
    rw [hfind, takeWhile_digits hds (by decide) htail]
  · have hfind : findBase (48 :: ds ++ tail) = (8, 48 :: ds ++ tail) := by
      refine findBase_octal fun x hx => ?_
      -- neither an octal digit nor what follows on the number is an `x`
      have hvalue : digitValue x < 8 ∨ 36 ≤ digitValue x := by
        cases ds with
        | nil => exact .inr (htail x hx)
        | cons d ds =>
          obtain rfl := Option.some.inj hx
          exact .inl (hds d List.mem_cons_self)
      constructor
      · rintro rfl
        revert hvalue
        decide
      · rintro rfl
        revert hvalue
        decide
    have hzero : IsDigits 8 (48 :: ds) := List.forall_mem_cons.2 ⟨by decide, hds⟩
    rw [hfind, takeWhile_digits hzero (by decide) htail]
    rfl
  · rw [List.cons_append, findBase_decimal hd, ← List.cons_append,
      takeWhile_digits hds (by decide) htail]

/-- The first character of a number is a digit. -/
theorem IsNumber.head_isDigit (h : IsNumber t n) : ∃ d s, t = d :: s ∧ digitValue d < 10 := by
  obtain ⟨-, ⟨x, ds, -, -, -, rfl, -⟩ | ⟨ds, -, rfl, -⟩ | ⟨d, ds, -, hds, rfl, -⟩⟩ := h
  · exact ⟨48, _, rfl, by decide⟩
  · exact ⟨48, _, rfl, by decide⟩
  · exact ⟨d, ds, rfl, hds d List.mem_cons_self⟩

/-- Reading a number stops at the first character that is no digit or letter. -/
theorem strtoul_append (h : IsNumber t n) (htail : ∀ c ∈ tail.head?, 36 ≤ digitValue c) :
    strtoul (t ++ tail) = n := by
  obtain ⟨d, s, hts, hd⟩ := h.head_isDigit
  have hdigit : ∀ c : UInt8, 10 ≤ digitValue c → d ≠ c := by
    rintro c hc rfl
    omega
  have hspace : isSpace d = false := by
    cases hs : isSpace d with
    | false => rfl
    | true =>
      rw [digitValue_of_le (le_of_isSpace hs)] at hd
      exact absurd hd (by decide)
  have hdrop : (t ++ tail).dropWhile isSpace = t ++ tail := by
    rw [hts, List.cons_append,
      List.dropWhile_cons_of_neg (by rw [hspace]; exact Bool.false_ne_true)]
  have hsign : (t ++ tail).head? ≠ some 45 ∧ (t ++ tail).head? ≠ some 43 := by
    rw [hts]
    exact ⟨fun heq => hdigit 45 (by decide) (Option.some.inj heq),
      fun heq => hdigit 43 (by decide) (Option.some.inj heq)⟩
  have hvalue := h.findBase_append htail
  have hlt : ¬2 ^ 64 ≤ n := by
    have := h.1
    omega
  unfold strtoul
  simp only [hdrop, hsign.1, hsign.2, or_self, if_false, hvalue, hlt]

end Msm8909w
