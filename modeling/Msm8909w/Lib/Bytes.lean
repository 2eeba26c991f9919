import Mathlib.Data.List.Basic
import Mathlib.Tactic.Ring
import Mathlib.Tactic.SplitIfs

/-!
# Byte strings

Reading and overwriting a stretch of a list at an offset (`slice`, `patch`), little-endian
numbers (`toLE`, `ofLE`) and ASCII text (`ascii`, `atoi`).  `slice` and `patch` are stated over
arbitrary elements: `getElem?_slice` and `getElem?_patch` describe them position by position and
the algebra of overwriting (`patch_comm`, `patch_patch_same`, `slice_patch_same`,
`slice_patch_of_disjoint`) follows from these two.
-/

namespace Msm8909w

/-- Byte strings. -/
abbrev Bytes := List UInt8

section Patch

variable {α : Type*} {b v w : List α} {o off len : ℕ}

/-- The `len` elements at offset `off` (fewer at the end of the list). -/
def slice (b : List α) (off len : ℕ) : List α := (b.drop off).take len

/-- Overwrite the elements at offset `off` by `v`. -/
def patch (b : List α) (off : ℕ) (v : List α) : List α :=
  b.take off ++ v ++ b.drop (off + v.length)

theorem length_slice (h : off + len ≤ b.length) : (slice b off len).length = len := by
  simp only [slice, List.length_take, List.length_drop]; omega

theorem length_patch (h : off + v.length ≤ b.length) : (patch b off v).length = b.length := by
  simp only [patch, List.length_append, List.length_take, List.length_drop]; omega

theorem getElem?_slice (i : ℕ) :
    (slice b off len)[i]? = if i < len then b[off + i]? else none := by
  simp only [slice, List.getElem?_take, List.getElem?_drop]

theorem getElem?_patch (h : off + v.length ≤ b.length) (i : ℕ) :
    (patch b off v)[i]? = if off ≤ i ∧ i < off + v.length then v[i - off]? else b[i]? := by
  have ht : (b.take off).length = off := by rw [List.length_take]; omega
  simp only [patch, List.append_assoc, List.getElem?_append, List.getElem?_take,
    List.getElem?_drop, ht]
  split_ifs <;> first | rfl | omega | skip
  congr 1; omega

theorem slice_patch_same (h : off + v.length ≤ b.length) :
    slice (patch b off v) off v.length = v := by
  refine List.ext_getElem? fun i => ?_
  rw [getElem?_slice, getElem?_patch h]
  split_ifs with h1 h2
  · congr 1; omega
  · omega
  · exact (List.getElem?_eq_none (by omega)).symm

theorem slice_patch_of_disjoint (h : o + v.length ≤ b.length)
    (hd : off + len ≤ o ∨ o + v.length ≤ off) : slice (patch b o v) off len = slice b off len := by
  refine List.ext_getElem? fun i => ?_
  rw [getElem?_slice, getElem?_slice, getElem?_patch h]
  split_ifs with h1 h2
  · omega
  · rfl
  · rfl

/-- Overwriting a stretch twice keeps the second text only. -/
theorem patch_patch_same (h : off + v.length ≤ b.length) (hl : w.length = v.length) :
    patch (patch b off v) off w = patch b off w := by
  have h' : off + w.length ≤ (patch b off v).length := by rw [length_patch h]; omega
  refine List.ext_getElem? fun i => ?_
  rw [getElem?_patch h', getElem?_patch h, getElem?_patch (by omega)]
  split_ifs <;> first | rfl | omega

/-- Overwriting disjoint stretches commutes. -/
theorem patch_comm (h : off + v.length ≤ b.length) (h' : o + w.length ≤ b.length)
    (hd : off + v.length ≤ o ∨ o + w.length ≤ off) :
    patch (patch b off v) o w = patch (patch b o w) off v := by
  refine List.ext_getElem? fun i => ?_
  rw [getElem?_patch (by rwa [length_patch h]), getElem?_patch h,
    getElem?_patch (by rwa [length_patch h']), getElem?_patch h']
  split_ifs <;> first | rfl | omega

theorem patch_slice_self (h : off + len ≤ b.length) : patch b off (slice b off len) = b := by
  have hl := length_slice h
  refine List.ext_getElem? fun i => ?_
  rw [getElem?_patch (by omega), getElem?_slice, hl]
  split_ifs <;> first | rfl | omega | (congr 1; omega)

theorem patch_eq_self (h : off + v.length ≤ b.length) (hs : slice b off v.length = v) :
    patch b off v = b := by
  conv_lhs => rw [← hs]
  exact patch_slice_self h

theorem slice_append_left (h : off + len ≤ b.length) :
    slice (b ++ v) off len = slice b off len := by
  refine List.ext_getElem? fun i => ?_
  rw [getElem?_slice, getElem?_slice]
  split_ifs with hi
  · exact List.getElem?_append_left (by omega)
  · rfl

theorem slice_append_right : slice (b ++ v) (b.length + off) len = slice v off len := by
  rw [slice, slice, ← List.drop_drop, List.drop_left]

/-- A part of a concatenation. -/
theorem slice_middle (ho : b.length = off) (hl : v.length = len) :
    slice (b ++ v ++ w) off len = v := by
  subst ho hl
  rw [List.append_assoc, slice, List.drop_left]
  exact List.take_left

theorem slice_prefix (hl : v.length = len) : slice (v ++ w) 0 len = v := by
  subst hl
  rw [slice, List.drop_zero]
  exact List.take_left

theorem slice_suffix (ho : b.length = off) (hl : v.length = len) : slice (b ++ v) off len = v := by
  subst ho hl
  rw [slice, List.drop_left]
  exact List.take_length

theorem length_slice_le : (slice b off len).length ≤ len := List.length_take_le _ _

/-- Slices of one length, one after the other. -/
theorem flatMap_slice (b : List α) (n k : ℕ) :
    ((List.range k).flatMap fun i => slice b (i * n) n) = b.take (k * n) := by
  induction k with
  | zero => simp
  | succ k ih =>
    rw [List.range_succ, List.flatMap_append, ih, List.flatMap_singleton, Nat.succ_mul,
      List.take_add]
    rfl

theorem slice_slice {n : ℕ} (h : o + n ≤ len) :
    slice (slice b off len) o n = slice b (off + o) n := by
  refine List.ext_getElem? fun i => ?_
  rw [getElem?_slice, getElem?_slice, getElem?_slice]
  split_ifs with h1 h2
  · rw [Nat.add_assoc]
  · omega
  · rfl

end Patch

/-! ### Little-endian numbers -/

/-- The `n` low bytes of `v`, least significant first. -/
def toLE : ℕ → ℕ → Bytes
  | 0, _ => []
  | n + 1, v => UInt8.ofNat v :: toLE n (v / 256)

/-- The number a little-endian byte string stands for. -/
def ofLE : Bytes → ℕ
  | [] => 0
  | b :: bs => b.toNat + 256 * ofLE bs

@[simp] theorem length_toLE (n v : ℕ) : (toLE n v).length = n := by
  induction n generalizing v with
  | zero => rfl
  | succ n ih => simp [toLE, ih]

theorem ofLE_toLE (n v : ℕ) : ofLE (toLE n v) = v % 256 ^ n := by
  induction n generalizing v with
  | zero => simp [toLE, ofLE, Nat.mod_one]
  | succ n ih =>
    have hv : (UInt8.ofNat v).toNat = v % 256 := UInt8.toNat_ofNat'
    rw [toLE, ofLE, ih, hv, Nat.pow_succ', Nat.mod_mul]

theorem toLE_ofLE (b : Bytes) : toLE b.length (ofLE b) = b := by
  induction b with
  | nil => rfl
  | cons x b ih =>
    have hx : x.toNat < 256 := UInt8.toNat_lt x
    have hdiv : (x.toNat + 256 * ofLE b) / 256 = ofLE b := by omega
    have hmod : UInt8.ofNat (x.toNat + 256 * ofLE b) = x := by
      apply UInt8.toNat_inj.1
      rw [UInt8.toNat_ofNat']
      omega
    rw [List.length_cons, ofLE, toLE, hdiv, hmod, ih]

/-! ### Text -/

/-- C's `isspace`. -/
def isSpace (c : UInt8) : Bool := c == 32 || (9 ≤ c && c ≤ 13)

/-- A decimal digit. -/
def isDigit (c : UInt8) : Bool := 48 ≤ c && c ≤ 57

/-- `atoi`, for an `int` of 32 bits. -/
def atoi (s : Bytes) : ℤ :=
  let s := s.dropWhile isSpace
  let digits := if s.head? = some 45 ∨ s.head? = some 43 then s.tail else s
  let value : ℕ := (digits.takeWhile isDigit).foldl (fun n c => 10 * n + (c.toNat - 48)) 0
  if s.head? = some 45 then max (-(value : ℤ)) (-2 ^ 31) else min (value : ℤ) (2 ^ 31 - 1)

/-- The bytes of an ASCII text. -/
def ascii (s : String) : Bytes := s.toList.map fun c => UInt8.ofNat c.toNat

end Msm8909w
