import Mathlib.Data.List.TakeWhile
import Mathlib.Data.Nat.Digits.Lemmas
import Msm8909w.Lib.Bytes

/-!
# Decimal numbers

`decimalInt n` is the decimal notation of a number, as `printf` writes it, and `scanDecimal` reads a
number the way `scanf` does: behind white space, with or without a sign, up to the first character
that is no digit.

* `scanDecimal_decimalInt` : a number is read back.
-/

namespace Msm8909w

/-- The digit `d`. -/
def digitChar (d : ℕ) : UInt8 := UInt8.ofNat (48 + d)

/-- The decimal notation of a natural number. -/
def decimalNat (n : ℕ) : Bytes := if n = 0 then [48] else (Nat.digits 10 n).reverse.map digitChar

/-- The decimal notation of a number. -/
def decimalInt (n : ℤ) : Bytes :=
  if n < 0 then 45 :: decimalNat n.natAbs else decimalNat n.natAbs

/-- The value of decimal digits, the highest first. -/
def digitsValue (ds : Bytes) : ℕ := ds.foldl (fun n c => 10 * n + (c.toNat - 48)) 0

/-- The number at the beginning of a text, if there is one. -/
def scanDecimal (s : Bytes) : Option ℤ :=
  let s := s.dropWhile isSpace
  let digits := (if s.head? = some 45 ∨ s.head? = some 43 then s.tail else s).takeWhile isDigit
  if digits = [] then none
  else if s.head? = some 45 then some (-(digitsValue digits : ℤ))
  else some (digitsValue digits)

theorem foldl_digits (n : ℕ) :
    (Nat.digits 10 n).reverse.foldl (fun n d => 10 * n + d) 0 = n := by
  have hfold : (fun d n => 10 * n + d : ℕ → ℕ → ℕ) = fun d n => d + 10 * n := by
    funext d n
    exact Nat.add_comm _ _
  rw [List.foldl_reverse]
  show List.foldr (fun d n => 10 * n + d) 0 _ = n
  rw [hfold]
  have h := Nat.ofDigits_eq_foldr 10 (Nat.digits 10 n)
  rw [Nat.ofDigits_digits] at h
  exact h.symm

theorem digits_lt {n d : ℕ} (h : d ∈ (Nat.digits 10 n).reverse) : d < 10 :=
  Nat.digits_lt_base (by decide) (List.mem_reverse.1 h)

variable {n d : ℕ}

theorem toNat_digitChar (h : d < 10) : (digitChar d).toNat = 48 + d := by
  rw [digitChar, UInt8.toNat_ofNat']
  omega

theorem isDigit_digitChar (h : d < 10) : isDigit (digitChar d) = true := by
  have hn := toNat_digitChar h
  simp only [isDigit, Bool.and_eq_true, decide_eq_true_eq, UInt8.le_iff_toNat_le, hn]
  exact ⟨Nat.le_add_right 48 d, by show 48 + d ≤ 57; omega⟩

theorem digitsValue_map {ds : List ℕ} (h : ∀ d ∈ ds, d < 10) (m : ℕ) :
    (ds.map digitChar).foldl (fun n c => 10 * n + (c.toNat - 48)) m =
      ds.foldl (fun n d => 10 * n + d) m := by
  induction ds generalizing m with
  | nil => rfl
  | cons d ds ih =>
    obtain ⟨hd, hds⟩ := List.forall_mem_cons.1 h
    rw [List.map_cons, List.foldl_cons, List.foldl_cons, toNat_digitChar hd, ih hds,
      Nat.add_sub_cancel_left]

theorem decimalNat_ne_nil (n : ℕ) : decimalNat n ≠ [] := by
  rw [decimalNat]
  split_ifs with h
  · exact List.cons_ne_nil _ _
  · intro heq
    rw [List.map_eq_nil_iff, List.reverse_eq_nil_iff] at heq
    exact h (Nat.digits_eq_nil_iff_eq_zero.1 heq)

theorem isDigit_of_mem_decimalNat {c : UInt8} (h : c ∈ decimalNat n) : isDigit c = true := by
  rw [decimalNat] at h
  split_ifs at h with h0
  · rw [List.mem_singleton.1 h]
    decide
  · obtain ⟨d, hd, rfl⟩ := List.mem_map.1 h
    exact isDigit_digitChar (digits_lt hd)

theorem digitsValue_decimalNat (n : ℕ) : digitsValue (decimalNat n) = n := by
  rw [decimalNat]
  split_ifs with h
  · rw [h]
    rfl
  · rw [digitsValue, digitsValue_map fun d hd => digits_lt hd, foldl_digits]

/-- A digit is neither white space nor a sign. -/
theorem of_isDigit {c : UInt8} (h : isDigit c = true) :
    isSpace c = false ∧ c ≠ 45 ∧ c ≠ 43 := by
  simp only [isDigit, Bool.and_eq_true, decide_eq_true_eq, UInt8.le_iff_toNat_le] at h
  have h1 : 48 ≤ c.toNat := h.1
  refine ⟨?_, ?_, ?_⟩
  · rw [Bool.eq_false_iff]
    intro hs
    simp only [isSpace, Bool.or_eq_true, beq_iff_eq, Bool.and_eq_true, decide_eq_true_eq,
      UInt8.le_iff_toNat_le] at hs
    rcases hs with rfl | ⟨-, hs⟩
    · exact absurd h1 (by decide)
    · have hs : c.toNat ≤ 13 := hs
      omega
  · rintro rfl
    exact absurd h1 (by decide)
  · rintro rfl
    exact absurd h1 (by decide)

theorem takeWhile_decimalNat (n : ℕ) : (decimalNat n).takeWhile isDigit = decimalNat n :=
  List.takeWhile_eq_self_iff.2 fun _ hc => isDigit_of_mem_decimalNat hc

/-- **A number is read back** from its decimal notation. -/
theorem scanDecimal_decimalInt (n : ℤ) : scanDecimal (decimalInt n) = some n := by
  rw [decimalInt]
  split_ifs with hneg
  · have hdrop : (45 :: decimalNat n.natAbs).dropWhile isSpace = 45 :: decimalNat n.natAbs := rfl
    simp only [scanDecimal, hdrop, List.head?_cons, true_or, if_true, List.tail_cons,
      takeWhile_decimalNat, if_neg (decimalNat_ne_nil _), digitsValue_decimalNat]
    congr 1
    omega
  · obtain ⟨c, cs, hcs⟩ := List.exists_cons_of_ne_nil (decimalNat_ne_nil n.natAbs)
    have hc : c ∈ decimalNat n.natAbs := by
      rw [hcs]
      exact List.mem_cons_self
    obtain ⟨hspace, hminus, hplus⟩ := of_isDigit (isDigit_of_mem_decimalNat hc)
    have hdrop : (decimalNat n.natAbs).dropWhile isSpace = decimalNat n.natAbs := by
      rw [hcs, List.dropWhile_cons_of_neg]
      rw [hspace]
      exact Bool.false_ne_true
    have hhead : (decimalNat n.natAbs).head? = some c := by
      rw [hcs]
      rfl
    simp only [scanDecimal, hdrop, hhead, Option.some.injEq, hminus, hplus, or_self, if_false,
      takeWhile_decimalNat, if_neg (decimalNat_ne_nil _), digitsValue_decimalNat]
    omega

end Msm8909w
