import Mathlib.Algebra.BigOperators.Group.List.Basic
import Msm8909w.Lib.Bytes

/-!
# Report descriptors

A device that sends reports tells its host beforehand, in a descriptor, what the bits of each report
mean.  A descriptor is a sequence of short items (`items`); the main items among them, with the
state that the items before have left, are the fields of the reports (`fields`).  What a host takes
from a report is the value of each usage that the report states (`decode`): a variable field has one
usage for each of its elements, an element of an array field names the usage that is on, a constant
field says nothing, and neither does a value outside the logical range.

* `slice_bits`, `toNat_byteBits` : an element of eight bits is a byte of the report,
* `Field.read_flags`, `Field.read_signed`, `Field.read_array`, `Field.read_constant` : what a host
  takes from a field, for the kinds of field there are.
-/

namespace Msm8909w.ReportDescriptor

/-! ### Items -/

/-- A short item: its kind (main, global or local), its tag and its data. -/
structure Item where
  kind : ℕ
  tag : ℕ
  data : Bytes
deriving DecidableEq

/-- The item that begins with the byte `p`: two bits for the size of the data, two for the kind and
four for the tag. -/
def Item.of (p : UInt8) (data : Bytes) : Item where
  kind := p.toNat / 4 % 4
  tag := p.toNat / 16
  data := data

/-- The items of a descriptor; there are none where its last item has no end. -/
def items : Bytes → Option (List Item)
  | [] => some []
  | p :: bs =>
    match p.toNat % 4, bs with
    | 0, bs => (items bs).map (Item.of p [] :: ·)
    | 1, a :: bs => (items bs).map (Item.of p [a] :: ·)
    | 2, a :: b :: bs => (items bs).map (Item.of p [a, b] :: ·)
    | 3, a :: b :: c :: d :: bs => (items bs).map (Item.of p [a, b, c, d] :: ·)
    | _, _ => none

/-- The data of an item as a number without sign. -/
def Item.unsigned (i : Item) : ℕ := ofLE i.data

/-- The data of an item as a number with a sign, in two's complement. -/
def Item.signed (i : Item) : ℤ := Int.bmod (ofLE i.data) (256 ^ i.data.length)

/-! ### Fields -/

/-- What a value is about: a usage page and a place in it. -/
structure Usage where
  page : ℕ
  id : ℕ
deriving DecidableEq, Repr

/-- Which way a report goes. -/
inductive Direction
  | input
  | output
  | feature
deriving DecidableEq

/-- A field of a report: `count` elements of `size` bits each. -/
structure Field where
  direction : Direction
  reportId : ℕ
  usages : List Usage
  logicalMin : ℤ
  logicalMax : ℤ
  size : ℕ
  count : ℕ
  isConstant : Bool
  isVariable : Bool
  isRelative : Bool
deriving DecidableEq

/-- What the items so far have set: the globals stay, the usages are gone after the next main
item. -/
structure ItemState where
  usagePage : ℕ := 0
  logicalMin : ℤ := 0
  logicalMax : ℤ := 0
  size : ℕ := 0
  count : ℕ := 0
  reportId : ℕ := 0
  usages : List ℕ := []
  usageMin : ℕ := 0

/-- The field that a main item declares. -/
def ItemState.field (s : ItemState) (d : Direction) (i : Item) : Field where
  direction := d
  reportId := s.reportId
  usages := s.usages.map (⟨s.usagePage, ·⟩)
  logicalMin := s.logicalMin
  logicalMax := s.logicalMax
  size := s.size
  count := s.count
  isConstant := i.unsigned.testBit 0
  isVariable := i.unsigned.testBit 1
  isRelative := i.unsigned.testBit 2

/-- What a main item leaves. -/
def ItemState.next (s : ItemState) : ItemState := { s with usages := [], usageMin := 0 }

/-- The fields that a sequence of items declares.  Items that a host would need to know and that do
not stand here make the descriptor unreadable. -/
def fieldsFrom (s : ItemState) : List Item → Option (List Field)
  | [] => some []
  | i :: is =>
    match i.kind, i.tag with
    | 0, 8 => (fieldsFrom s.next is).map (s.field .input i :: ·)
    | 0, 9 => (fieldsFrom s.next is).map (s.field .output i :: ·)
    -- a collection groups fields, which says nothing about their bits
    | 0, 10 => fieldsFrom s.next is
    | 0, 11 => (fieldsFrom s.next is).map (s.field .feature i :: ·)
    | 0, 12 => fieldsFrom s.next is
    | 1, 0 => fieldsFrom { s with usagePage := i.unsigned } is
    | 1, 1 => fieldsFrom { s with logicalMin := i.signed } is
    | 1, 2 => fieldsFrom { s with logicalMax := i.signed } is
    | 1, 7 => fieldsFrom { s with size := i.unsigned } is
    | 1, 8 => fieldsFrom { s with reportId := i.unsigned } is
    | 1, 9 => fieldsFrom { s with count := i.unsigned } is
    | 2, 0 => fieldsFrom { s with usages := s.usages ++ [i.unsigned] } is
    | 2, 1 => fieldsFrom { s with usageMin := i.unsigned } is
    | 2, 2 =>
      fieldsFrom { s with
        usages := s.usages ++ List.range' s.usageMin (i.unsigned + 1 - s.usageMin) } is
    | _, _ => none

/-- The fields of a descriptor. -/
def fields (descriptor : Bytes) : Option (List Field) := (items descriptor).bind (fieldsFrom {})

/-- The fields of one report. -/
def fieldsOf (fs : List Field) (d : Direction) (id : ℕ) : List Field :=
  fs.filter fun f => f.direction = d ∧ f.reportId = id

/-- How many bits a field has. -/
def Field.width (f : Field) : ℕ := f.size * f.count

/-- How many bytes a report has. -/
def reportLength (fs : List Field) (d : Direction) (id : ℕ) : ℕ :=
  (((fieldsOf fs d id).map Field.width).sum + 7) / 8

/-! ### Reports -/

/-- The bits of a byte, the lowest first. -/
def byteBits (b : UInt8) : List Bool := (List.range 8).map b.toNat.testBit

/-- The bits of a report. -/
def bits (r : Bytes) : List Bool := r.flatMap byteBits

/-- The number with the given bits. -/
def toNat : List Bool → ℕ
  | [] => 0
  | b :: bs => b.toNat + 2 * toNat bs

/-- The value of an element: with a sign if the logical range has negative numbers. -/
def Field.value (f : Field) (bs : List Bool) : ℤ :=
  if f.logicalMin < 0 then Int.bmod (toNat bs) (2 ^ bs.length) else toNat bs

/-- What the element `k` of a field says, with the value `v`.  The last usage also stands for the
elements behind it. -/
def Field.states (f : Field) (k : ℕ) (v : ℤ) : List (Usage × ℤ) :=
  if f.isConstant ∨ v < f.logicalMin ∨ f.logicalMax < v then []
  else if f.isVariable then (f.usages[min k (f.usages.length - 1)]?.map (·, v)).toList
  else (f.usages[(v - f.logicalMin).toNat]?.map (·, 1)).toList

/-- What the bits of a field say. -/
def Field.read (f : Field) (bs : List Bool) : List (Usage × ℤ) :=
  (List.range f.count).flatMap fun k => f.states k (f.value (slice bs (k * f.size) f.size))

/-- What the fields of a report say, one after the other. -/
def readFields : List Field → List Bool → List (Usage × ℤ)
  | [], _ => []
  | f :: fs, bs => f.read (bs.take f.width) ++ readFields fs (bs.drop f.width)

/-- What a host takes from an input report. -/
def decode (fs : List Field) (id : ℕ) (r : Bytes) : List (Usage × ℤ) :=
  readFields (fieldsOf fs .input id) (bits r)

/-- The usages of a kind that are on. -/
def on (c : Usage → Prop) [DecidablePred c] (vs : List (Usage × ℤ)) : List Usage :=
  vs.filterMap fun p => if p.2 ≠ 0 ∧ c p.1 then some p.1 else none

/-- The sum of the values of a usage. -/
def total (u : Usage) (vs : List (Usage × ℤ)) : ℤ := ((vs.filter (·.1 = u)).map Prod.snd).sum

/-! ### The bits of bytes -/

theorem length_byteBits (b : UInt8) : (byteBits b).length = 8 := by
  rw [byteBits, List.length_map, List.length_range]

theorem bits_cons (b : UInt8) (r : Bytes) : bits (b :: r) = byteBits b ++ bits r :=
  List.flatMap_cons

theorem length_bits (r : Bytes) : (bits r).length = 8 * r.length := by
  induction r with
  | nil => rfl
  | cons b r ih =>
    rw [bits_cons, List.length_append, length_byteBits, ih, List.length_cons]
    omega

theorem toNat_map_testBit (n k : ℕ) : toNat ((List.range k).map n.testBit) = n % 2 ^ k := by
  induction k generalizing n with
  | zero => rw [List.range_zero, List.map_nil, pow_zero, Nat.mod_one, toNat]
  | succ k ih =>
    have htail : (n.testBit ∘ Nat.succ) = (n / 2).testBit := by
      funext i
      exact Nat.testBit_succ n i
    rw [List.range_succ_eq_map, List.map_cons, List.map_map, htail, toNat, ih,
      Nat.testBit_zero, pow_succ', Nat.mod_mul]
    congr 1
    rcases Nat.mod_two_eq_zero_or_one n with h | h <;> rw [h] <;> rfl

/-- Eight bits of a report are a byte of it. -/
theorem toNat_byteBits (b : UInt8) : toNat (byteBits b) = b.toNat := by
  rw [byteBits, toNat_map_testBit]
  exact Nat.mod_eq_of_lt b.toNat_lt

theorem slice_bits {r : Bytes} {k : ℕ} (h : k < r.length) :
    slice (bits r) (k * 8) 8 = byteBits r[k] := by
  induction r generalizing k with
  | nil => exact absurd h (Nat.not_lt_zero k)
  | cons b r ih =>
    rw [bits_cons]
    cases k with
    | zero =>
      rw [Nat.zero_mul]
      exact slice_prefix (length_byteBits b)
    | succ k =>
      have hoff : (k + 1) * 8 = (byteBits b).length + k * 8 := by
        rw [length_byteBits]
        omega
      rw [hoff, slice_append_right, ih (Nat.lt_of_succ_lt_succ h), List.getElem_cons_succ]

/-! ### What a host takes from a field -/

variable {f : Field}

theorem readFields_cons {fs : List Field} {bs cs : List Bool} (h : bs.length = f.width) :
    readFields (f :: fs) (bs ++ cs) = f.read bs ++ readFields fs cs := by
  rw [readFields, ← h, List.take_left, List.drop_left]

theorem Field.read_constant (h : f.isConstant = true) (bs : List Bool) : f.read bs = [] := by
  refine List.flatMap_eq_nil_iff.2 fun k _ => ?_
  rw [Field.states, if_pos (.inl h)]

theorem flatMap_range {α β : Type*} {l : List α} {n : ℕ} (hn : n = l.length) {g : ℕ → List β}
    {h : α → List β} (hg : ∀ k (hk : k < l.length), g k = h l[k]) :
    (List.range n).flatMap g = l.flatMap h := by
  subst hn
  induction l generalizing g with
  | nil => rfl
  | cons a l ih =>
    have htail : (List.range l.length).flatMap (g ∘ Nat.succ) = l.flatMap h := by
      refine ih fun k hk => ?_
      rw [Function.comp_apply, hg (k + 1) (Nat.succ_lt_succ hk), List.getElem_cons_succ]
    rw [List.length_cons, List.range_succ_eq_map, List.flatMap_cons, List.flatMap_map,
      List.flatMap_cons, hg 0 (Nat.succ_pos _), List.getElem_cons_zero, ← htail]
    rfl

/-- A field of flags: one bit for each of its usages. -/
structure Field.IsFlags (f : Field) : Prop where
  isConstant : f.isConstant = false
  isVariable : f.isVariable = true
  size : f.size = 1
  count : f.count = f.usages.length
  logicalMin : f.logicalMin = 0
  logicalMax : f.logicalMax = 1

theorem Field.read_flags (hf : f.IsFlags) {bs : List Bool} (h : bs.length = f.count) :
    f.read bs = (f.usages.zip bs).map fun p => (p.1, (p.2.toNat : ℤ)) := by
  have hlen : f.count = (f.usages.zip bs).length := by
    rw [List.length_zip, h, ← hf.count, min_self]
  -- each element is one bit and has a usage of its own
  rw [List.map_eq_flatMap]
  refine flatMap_range hlen fun k hk => ?_
  have hk' : k < f.usages.length := (List.length_zip ▸ hk).trans_le (min_le_left _ _)
  have hkb : k < bs.length := (List.length_zip ▸ hk).trans_le (min_le_right _ _)
  have hbit : slice bs (k * f.size) f.size = [bs[k]] := by
    rw [hf.size, Nat.mul_one, slice, List.drop_eq_getElem_cons hkb, List.take_succ_cons,
      List.take_zero]
  have hvalue : f.value [bs[k]] = (bs[k].toNat : ℤ) := by
    rw [Field.value, hf.logicalMin, if_neg (lt_irrefl _), toNat, toNat]
    omega
  have hle : bs[k].toNat ≤ 1 := Bool.toNat_le _
  rw [hbit, hvalue, Field.states, hf.isConstant, hf.logicalMin, hf.logicalMax, if_neg (by
    simp only [Bool.false_eq_true, false_or]
    omega), if_pos hf.isVariable, List.getElem_zip,
    Nat.min_eq_left (Nat.le_sub_one_of_lt hk'), List.getElem?_eq_getElem hk']
  rfl

/-- The flags that are on. -/
theorem on_flags {c : Usage → Prop} [DecidablePred c] {u : ℕ → Usage} {n : ℕ}
    (hu : ∀ i < n, c (u i)) (p : ℕ → Bool) :
    on c ((((List.range n).map u).zip ((List.range n).map p)).map
        fun q => (q.1, (q.2.toNat : ℤ))) = ((List.range n).filter p).map u := by
  rw [on, List.zip_map', List.map_map, List.filterMap_map, ← List.filterMap_eq_map',
    List.filterMap_filter]
  refine List.filterMap_congr fun i hi => ?_
  cases hp : p i <;> simp [hp, hu i (List.mem_range.1 hi)]

theorem on_append {c : Usage → Prop} [DecidablePred c] (vs ws : List (Usage × ℤ)) :
    on c (vs ++ ws) = on c vs ++ on c ws := List.filterMap_append

theorem total_append (u : Usage) (vs ws : List (Usage × ℤ)) :
    total u (vs ++ ws) = total u vs + total u ws := by
  rw [total, total, total, List.filter_append, List.map_append, List.sum_append]

theorem total_eq_zero {u : Usage} {vs : List (Usage × ℤ)} (h : ∀ p ∈ vs, p.1 ≠ u) :
    total u vs = 0 := by
  rw [total, List.filter_eq_nil_iff.2 fun p hp => by simpa using h p hp, List.map_nil, List.sum_nil]

/-- The value of an element that is there unless it is out of range. -/
theorem total_element (u v : Usage) (n : ℤ) (c : Prop) [Decidable c] :
    total u (if c then [] else [(v, n)]) = if v = u ∧ ¬ c then n else 0 := by
  by_cases hc : c
  · rw [if_pos hc, if_neg fun h => h.2 hc]
    rfl
  · by_cases hv : v = u <;> simp [total, hc, hv]

/-- A field of numbers of one byte with a sign: one for each of its usages. -/
structure Field.IsSigned (f : Field) : Prop where
  isConstant : f.isConstant = false
  isVariable : f.isVariable = true
  size : f.size = 8
  count : f.count = f.usages.length
  logicalMin : f.logicalMin < 0

theorem Field.read_signed (hf : f.IsSigned) {r : Bytes} (h : r.length = f.count) :
    f.read (bits r) = (f.usages.zip r).flatMap fun p =>
      if p.2.toBitVec.toInt < f.logicalMin ∨ f.logicalMax < p.2.toBitVec.toInt then []
      else [(p.1, p.2.toBitVec.toInt)] := by
  have hlen : f.count = (f.usages.zip r).length := by
    rw [List.length_zip, h, ← hf.count, min_self]
  refine flatMap_range hlen fun k hk => ?_
  have hk' : k < f.usages.length := (List.length_zip ▸ hk).trans_le (min_le_left _ _)
  have hkr : k < r.length := (List.length_zip ▸ hk).trans_le (min_le_right _ _)
  have hvalue : f.value (byteBits r[k]) = r[k].toBitVec.toInt := by
    rw [Field.value, if_pos hf.logicalMin, toNat_byteBits, length_byteBits,
      BitVec.toInt_eq_toNat_bmod]
    rfl
  rw [hf.size, slice_bits hkr, hvalue, Field.states, hf.isConstant, hf.isVariable, List.getElem_zip]
  simp only [Bool.false_eq_true, false_or, if_true]
  split_ifs with hrange
  · rfl
  · rw [Nat.min_eq_left (Nat.le_sub_one_of_lt hk'), List.getElem?_eq_getElem hk']
    rfl

/-- An array of bytes that name usages from zero on. -/
structure Field.IsArray (f : Field) : Prop where
  isConstant : f.isConstant = false
  isVariable : f.isVariable = false
  size : f.size = 8
  logicalMin : f.logicalMin = 0
  logicalMax : f.logicalMax + 1 = f.usages.length

theorem Field.read_array (hf : f.IsArray) {r : Bytes} (h : r.length = f.count) :
    f.read (bits r) = r.flatMap fun b => (f.usages[b.toNat]?.map (·, 1)).toList := by
  refine flatMap_range h.symm fun k hk => ?_
  have hvalue : f.value (byteBits r[k]) = r[k].toNat := by
    rw [Field.value, hf.logicalMin, if_neg (lt_irrefl _), toNat_byteBits]
  have hmax := hf.logicalMax
  rw [hf.size, slice_bits hk, hvalue, Field.states, hf.isConstant, hf.logicalMin, hf.isVariable]
  simp only [Bool.false_eq_true, false_or, if_false, sub_zero, Int.toNat_natCast]
  split_ifs with hrange
  -- a byte above the logical maximum has no usage either
  · have hout : f.usages.length ≤ r[k].toNat := by omega
    rw [List.getElem?_eq_none hout]
    rfl
  · rfl

end Msm8909w.ReportDescriptor
