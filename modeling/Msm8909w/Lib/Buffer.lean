import Mathlib.Data.List.GetD
import Msm8909w.Lib.Bytes

/-!
# Reused buffers

The contents of a buffer that is filled again and again, position by position.  What an earlier
use left behind stays until it is overwritten; how far the buffer goes is up to the code that uses
it, which checks its own indices.

* `Buffer.get_put_same`, `Buffer.get_put_of_disjoint` : reading back what was put,
* `Buffer.get_add` : a stretch is its first part and the part behind it,
* `Buffer.get_swap_putShort`, `shortOf_toLE` : numbers of 16 bits, stored and read back with their
  bytes swapped.
-/

namespace Msm8909w

/-- The contents of a buffer. -/
abbrev Buffer (α : Type*) := ℕ → α

namespace Buffer

variable {α : Type*} {b c : Buffer α} {d : List α} {o off len m n : ℕ}

/-- Overwrite the buffer from `off` on by `d`. -/
def put (b : Buffer α) (off : ℕ) (d : List α) : Buffer α :=
  fun i => if off ≤ i then d.getD (i - off) (b i) else b i

/-- The `len` elements from `off` on. -/
def get (b : Buffer α) (off len : ℕ) : List α := (List.range len).map fun i => b (off + i)

@[simp] theorem length_get : (b.get off len).length = len := by
  rw [get, List.length_map, List.length_range]

@[simp] theorem get_zero : b.get off 0 = [] := rfl

theorem get_add : b.get off (m + n) = b.get off m ++ b.get (off + m) n := by
  simp only [get, List.range_add, List.map_append, List.map_map]
  congr 2
  funext i
  simp only [Function.comp_apply, Nat.add_assoc]

theorem get_succ : b.get off (n + 1) = b off :: b.get (off + 1) n := by
  rw [Nat.add_comm n, get_add]
  rfl

theorem get_congr (h : ∀ i, off ≤ i → i < off + len → b i = c i) :
    b.get off len = c.get off len := by
  refine List.map_congr_left fun i hi => ?_
  have := List.mem_range.1 hi
  exact h _ (by omega) (by omega)

theorem put_apply_of_lt {i : ℕ} (h : i < off) : b.put off d i = b i := if_neg (by omega)

theorem put_apply_of_le {i : ℕ} (h : off + d.length ≤ i) : b.put off d i = b i := by
  rw [put, if_pos (by omega)]
  exact List.getD_eq_default _ _ (by omega)

@[simp] theorem put_one_self {x : α} : b.put off [x] off = x := by simp [put]

theorem put_one_of_ne {x : α} {i : ℕ} (h : i ≠ off) : b.put off [x] i = b i := by
  rcases Nat.lt_or_gt_of_ne h with hlt | hgt
  · exact put_apply_of_lt hlt
  · exact put_apply_of_le (by rw [List.length_singleton]; omega)

/-- The first element, and then what follows it. -/
theorem put_cons {x : α} : (b.put off [x]).put (off + 1) d = b.put off (x :: d) := by
  funext i
  rcases Nat.lt_trichotomy i off with h | rfl | h
  · rw [put_apply_of_lt (by omega), put_apply_of_lt h, put_apply_of_lt h]
  · rw [put_apply_of_lt (by omega)]
    simp [put]
  · obtain ⟨k, rfl⟩ := Nat.exists_eq_add_of_lt h
    have hk : off + k + 1 - off = k + 1 := by omega
    have hk' : off + k + 1 - (off + 1) = k := by omega
    simp only [put]
    rw [if_pos (by omega), if_pos (by omega), if_pos (by omega), hk, hk', List.getD_cons_succ,
      List.getD_cons_succ, List.getD_nil]

/-- Two neighbouring elements, one after the other. -/
theorem put_put_succ {x y : α} : (b.put off [x]).put (off + 1) [y] = b.put off [x, y] := put_cons

theorem get_put_of_disjoint (h : off + len ≤ o ∨ o + d.length ≤ off) :
    (b.put o d).get off len = b.get off len := by
  refine get_congr fun i hi hi' => ?_
  rcases h with h | h
  · exact put_apply_of_lt (by omega)
  · exact put_apply_of_le (by omega)

theorem get_put_same : (b.put off d).get off d.length = d := by
  refine List.ext_getElem (by simp) fun i hi hi' => ?_
  simp only [get, List.getElem_map, List.getElem_range, put, if_pos (Nat.le_add_right off i),
    Nat.add_sub_cancel_left]
  exact List.getD_eq_getElem _ _ hi'

/-- A stretch that starts with `x` holds `x` and then what follows it. -/
theorem get_of_append {x y : List α} (h : b.get off len = (x ++ y).take len) (hx : x.length ≤ len) :
    b.get off x.length = x ∧
      b.get (off + x.length) (len - x.length) = y.take (len - x.length) := by
  rw [← Nat.add_sub_of_le hx, get_add, List.take_length_add_append] at h
  exact List.append_inj h length_get

/-- The two parts of a stretch. -/
theorem get_eq_append {x y : List α} (h : b.get off len = x ++ y) :
    b.get off x.length = x ∧ b.get (off + x.length) y.length = y := by
  have hlen := congrArg List.length h
  rw [length_get, List.length_append] at hlen
  rw [hlen, get_add] at h
  exact List.append_inj h length_get

end Buffer

/-! ### Signed numbers -/

/-- The signed number of 8 bits. -/
def toByte (b : UInt8) : ℤ := if b.toNat < 128 then b.toNat else b.toNat - 256

/-- The signed number of 16 bits with the given high and low byte. -/
def shortOf (hi lo : UInt8) : ℤ :=
  if hi.toNat < 128 then 256 * hi.toNat + lo.toNat else 256 * hi.toNat + lo.toNat - 65536

namespace Buffer

/-- The signed big-endian number at position `i`. -/
def getShort (b : Buffer UInt8) (i : ℕ) : ℤ := shortOf (b i) (b (i + 1))

/-- Store the low 16 bits of `v` at position `i`, big-endian. -/
def putShort (b : Buffer UInt8) (i v : ℕ) : Buffer UInt8 := b.put i (toLE 2 v).reverse

/-- Exchange the bytes at `i` and `i + 1`. -/
def swap (b : Buffer UInt8) (i : ℕ) : Buffer UInt8 := b.put i [b (i + 1), b i]

theorem swap_apply_of_lt {b : Buffer UInt8} {i j : ℕ} (h : j < i) : b.swap i j = b j :=
  put_apply_of_lt h

@[simp] theorem swap_apply_left {b : Buffer UInt8} {i : ℕ} : b.swap i i = b (i + 1) := by
  simp [swap, put]

@[simp] theorem swap_apply_right {b : Buffer UInt8} {i : ℕ} : b.swap i (i + 1) = b i := by
  simp [swap, put]

/-- Storing a number and swapping its bytes stores it little-endian. -/
theorem get_swap_putShort {b : Buffer UInt8} {i v : ℕ} :
    ((b.putShort i v).swap i).get i 2 = toLE 2 v := by
  have hlo : b.putShort i v (i + 1) = UInt8.ofNat v := by simp [putShort, toLE, put]
  have hhi : b.putShort i v i = UInt8.ofNat (v / 256) := by simp [putShort, toLE, put]
  rw [get_succ, get_succ, get_zero, swap_apply_left, swap_apply_right, hlo, hhi]
  rfl

theorem get_swap_of_le {b : Buffer UInt8} {i off len : ℕ} (h : i + 2 ≤ off) :
    (b.swap i).get off len = b.get off len :=
  get_put_of_disjoint (.inr h)

end Buffer

theorem shortOf_toLE {v : ℕ} {lo hi : UInt8} (h : toLE 2 v = [lo, hi]) (hv : v < 2 ^ 15) :
    shortOf hi lo = v := by
  simp only [toLE, List.cons.injEq, and_true] at h
  obtain ⟨rfl, rfl⟩ := h
  have hlo : (UInt8.ofNat v).toNat = v % 256 := UInt8.toNat_ofNat'
  have hhi : (UInt8.ofNat (v / 256)).toNat = v / 256 % 256 := UInt8.toNat_ofNat'
  rw [shortOf, hlo, hhi, if_pos (by omega)]
  omega

end Msm8909w
