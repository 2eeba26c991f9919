import Msm8909w.Lib.Decimal

/-!
# Data points of datatop

The functions `dtop_format_dp_values` and `dtop_store_dp` of `datatop_helpers.c` print the value of
a data point and store a value that was read.  The value is in a union, whose members share their
first bytes (little-endian).

* `PrintedReadsBack` : the decimal notation is printed, and storing it yields the same value,
* `printedReadsBack_iff` : this is so exactly if the formats `%d` and `%u`, which are exchanged for
  the types of 32 bits, print the same.
-/

namespace Msm8909w

namespace Datatop

/-! ### Data points -/

def DTOP_ULONG : UInt8 := 0
def DTOP_LONG : UInt8 := 1
def DTOP_UINT : UInt8 := 2
def DTOP_INT : UInt8 := 3
def DTOP_UCHAR : UInt8 := 4
def DTOP_CHAR : UInt8 := 5
def DTOP_STR : UInt8 := 6

def FILE_ERROR : ℤ := -1
def FILE_SUCCESS : ℤ := 0

def DTOP_DP_MAX_STR_LEN : ℕ := 32

/-- `union dtop_data_union`. -/
structure DataUnion where
  bytes : Bytes
  length_bytes : bytes.length = DTOP_DP_MAX_STR_LEN
  deriving DecidableEq

namespace DataUnion

/-- A member that is an unsigned number of `k` bytes. -/
def unsigned (k : ℕ) (u : DataUnion) : ℕ := ofLE (slice u.bytes 0 k)

/-- A member that is a signed number of `k` bytes. -/
def signed (k : ℕ) (u : DataUnion) : ℤ := Int.bmod (u.unsigned k) (256 ^ k)

def d_ulong : DataUnion → ℕ := unsigned 8
def d_long : DataUnion → ℤ := signed 8
def d_uint : DataUnion → ℕ := unsigned 4
def d_int : DataUnion → ℤ := signed 4
def d_uchar : DataUnion → ℕ := unsigned 1
def d_char : DataUnion → ℤ := signed 1

/-- The string in `d_str`. -/
def d_str (u : DataUnion) : Bytes := u.bytes.takeWhile (· ≠ 0)

/-- Overwrite the first bytes, as far as they are in the union. -/
def set (u : DataUnion) (v : Bytes) : Option DataUnion :=
  if h : v.length ≤ DTOP_DP_MAX_STR_LEN then
    some ⟨patch u.bytes 0 v, by rw [length_patch (by rw [u.length_bytes]; omega), u.length_bytes]⟩
  else none

end DataUnion

/-- `struct dtop_data_point`, without the name and the prefix. -/
structure DataPoint where
  type : UInt8
  initial_data : DataUnion
  initial_data_populated : Bool
  data : DataUnion
  deriving DecidableEq

/-! ### Printing -/

/-- A file that is written to: what is in it, and how the next calls of `fprintf` end. -/
structure File where
  text : Bytes := []
  outcomes : List Bool := []

/-- `fprintf`, after the conversion of its arguments; `none` is a negative result. -/
def fprintf (fw : File) (s : Bytes) : Option File :=
  match fw.outcomes with
  | false :: _ => none
  | outcomes => some { text := fw.text ++ s, outcomes := outcomes.tail }

/-- `%u` and `PRIu64`. -/
def percentU (v : ℕ) : Bytes := decimalNat v

/-- The `int` with the bits of an `unsigned int`. -/
def toInt (v : ℕ) : ℤ := Int.bmod v (2 ^ 32)

/-- `%d` and `PRId64`. -/
def percentD (v : ℤ) : Bytes := decimalInt v

/-- A digit of `%X`. -/
def hexDigit (d : ℕ) : UInt8 := UInt8.ofNat (if d < 10 then 48 + d else 55 + d)

/-- `%02X` of a byte. -/
def percent02X (v : ℕ) : Bytes := [hexDigit (v / 16 % 16), hexDigit (v % 16)]

/-- One call of `fprintf` after the other, up to the first that fails. -/
def prints (fw : File) : List Bytes → ℤ × File
  | [] => (FILE_SUCCESS, fw)
  | s :: ss =>
    match fprintf fw s with
    | some fw => prints fw ss
    | none => (FILE_ERROR, fw)

/-- `dtop_format_dp_values`. -/
def dtopFormatDpValues (dp : DataPoint) (fw : File) : ℤ × File :=
  if dp.type = DTOP_ULONG then prints fw [percentU dp.data.d_ulong]
  else if dp.type = DTOP_LONG then prints fw [percentD dp.data.d_long]
  -- the argument of `%d` is taken for an `int`
  else if dp.type = DTOP_UINT then prints fw [percentD (toInt dp.data.d_uint)]
  else if dp.type = DTOP_INT then prints fw [percentU dp.data.d_uint]
  else if dp.type = DTOP_UCHAR then
    prints fw [[UInt8.ofNat dp.data.d_uchar, 44],
      ascii "(0x" ++ percent02X dp.data.d_uchar ++ ascii ")"]
  else if dp.type = DTOP_CHAR then
    prints fw [[UInt8.ofNat (dp.data.d_char % 256).toNat, 44],
      ascii "(" ++ percentD dp.data.d_char ++ ascii ")"]
  else if dp.type = DTOP_STR then prints fw [ascii "\"" ++ dp.data.d_str ++ ascii "\""]
  else prints fw [ascii "UNKNOWN_TYPE"]

/-! ### Storing -/

section Store

/- What `sscanf` stores for a number that the type does not hold; C leaves this open. -/
variable (undef : ℕ → ℤ → ℕ)

/-- The number of `k` bytes that is stored for `%u` and `PRIu64`; a minus sign negates it. -/
def convertU (k : ℕ) (n : ℤ) : ℕ :=
  if n.natAbs < 256 ^ k then (n % (256 ^ k : ℕ)).toNat else undef k n

/-- The number of `k` bytes that is stored for `%d` and `PRId64`. -/
def convertD (k : ℕ) (n : ℤ) : ℕ :=
  if -(256 ^ k : ℕ) ≤ 2 * n ∧ 2 * n < (256 ^ k : ℕ) then (n % (256 ^ k : ℕ)).toNat else undef k n

/-- `sscanf` of a number; if there is none, nothing is stored. -/
def scanNumber (convert : ℕ → ℤ → ℕ) (k : ℕ) (str : Bytes) (u : DataUnion) : Option DataUnion :=
  match scanDecimal str with
  | some n => u.set (toLE k (convert k n))
  | none => some u

/-- `sscanf` with `%c`. -/
def scanChar (str : Bytes) (u : DataUnion) : Option DataUnion :=
  match str with
  | c :: _ => u.set [c]
  | [] => some u

/-- `sscanf` with `%s`: a word and the zero byte behind it, whatever room there is. -/
def scanWord (str : Bytes) (u : DataUnion) : Option DataUnion :=
  match (str.dropWhile isSpace).takeWhile (!isSpace ·) with
  | [] => some u
  | w => u.set (w ++ [0])

/-- Keep the first value; `k` bytes of it are copied. -/
def populate (k : ℕ) (dp : DataPoint) : Option DataPoint :=
  if dp.initial_data_populated then some dp
  else (dp.initial_data.set (slice dp.data.bytes 0 k)).map fun initial =>
    { dp with initial_data := initial, initial_data_populated := true }

/-- A case of `dtop_store_dp`: read the value, and keep the first one. -/
def storeCase (k : ℕ) (read : DataUnion → Option DataUnion) (dp : DataPoint) : Option DataPoint :=
  (read dp.data).bind fun data => populate k { dp with data := data }

/-- `dtop_store_dp`; `none` means that it writes behind the end of the union. -/
def dtopStoreDp (dp : DataPoint) (str : Bytes) : Option DataPoint :=
  if dp.type = DTOP_ULONG then storeCase 8 (scanNumber (convertU undef) 8 str) dp
  else if dp.type = DTOP_LONG then storeCase 8 (scanNumber (convertD undef) 8 str) dp
  else if dp.type = DTOP_UINT then storeCase 4 (scanNumber (convertU undef) 4 str) dp
  else if dp.type = DTOP_INT then storeCase 4 (scanNumber (convertD undef) 4 str) dp
  else if dp.type = DTOP_UCHAR then storeCase 1 (scanChar str) dp
  else if dp.type = DTOP_CHAR then storeCase 1 (scanChar str) dp
  else if dp.type = DTOP_STR then storeCase DTOP_DP_MAX_STR_LEN (scanWord str) dp
  else some dp

end Store

/-! ### Reading back -/

/-- The numeric types. -/
inductive NumType
  | ulong
  | long
  | uint
  | int
  deriving DecidableEq, Repr

namespace NumType

def code : NumType → UInt8
  | ulong => DTOP_ULONG
  | long => DTOP_LONG
  | uint => DTOP_UINT
  | int => DTOP_INT

/-- The value of the type in a union. -/
def value : NumType → DataUnion → ℤ
  | ulong, u => u.d_ulong
  | long, u => u.d_long
  | uint, u => u.d_uint
  | int, u => u.d_int

end NumType

/-- The decimal notation of the value of `dp` is printed, and storing it in `dp'` yields the same
value. -/
def PrintedReadsBack (undef : ℕ → ℤ → ℕ) (t : NumType) (dp dp' : DataPoint) : Prop :=
  dtopFormatDpValues dp {} = (FILE_SUCCESS, { text := decimalInt (t.value dp.data) }) ∧
    ∃ stored, dtopStoreDp undef dp' (dtopFormatDpValues dp {}).2.text = some stored ∧
      t.value stored.data = t.value dp.data

/-- The value is one that `%d` and `%u` print alike. -/
def PrintsAlike : NumType → ℤ → Prop
  | .uint, v => v < 2 ^ 31
  | .int, v => 0 ≤ v
  | _, _ => True

/-! ### Members of the union -/

section Members

variable {u : DataUnion} {k v : ℕ}

theorem DataUnion.unsigned_lt (hk : k ≤ DTOP_DP_MAX_STR_LEN) (u : DataUnion) :
    u.unsigned k < 256 ^ k := by
  have hlen : (slice u.bytes 0 k).length = k := length_slice (by rw [u.length_bytes]; omega)
  have hself := congrArg ofLE (toLE_ofLE (slice u.bytes 0 k))
  rw [hlen, ofLE_toLE] at hself
  rw [DataUnion.unsigned, ← hself]
  exact Nat.mod_lt _ (Nat.pow_pos (by decide))

/-- A number is stored in its member. -/
theorem DataUnion.exists_set (hk : k ≤ DTOP_DP_MAX_STR_LEN) (u : DataUnion) (v : ℕ) :
    ∃ u', u.set (toLE k v) = some u' ∧ u'.unsigned k = v % 256 ^ k := by
  have hle : (toLE k v).length ≤ DTOP_DP_MAX_STR_LEN := by rwa [length_toLE]
  refine ⟨_, dif_pos hle, ?_⟩
  have hslice := @slice_patch_same _ u.bytes (toLE k v) 0 (by rw [u.length_bytes]; omega)
  rw [length_toLE] at hslice
  show ofLE (slice (patch u.bytes 0 (toLE k v)) 0 k) = _
  rw [hslice, ofLE_toLE]

/-- A case of `dtop_store_dp` that reads a number. -/
theorem exists_storeCase {convert : ℕ → ℤ → ℕ} (hk : k ≤ DTOP_DP_MAX_STR_LEN) (dp : DataPoint)
    (str : Bytes) :
    ∃ stored, storeCase k (scanNumber convert k str) dp = some stored ∧ stored.type = dp.type ∧
      ∀ n, scanDecimal str = some n → stored.data.unsigned k = convert k n % 256 ^ k := by
  have hread : ∃ data, scanNumber convert k str dp.data = some data ∧
      ∀ n, scanDecimal str = some n → data.unsigned k = convert k n % 256 ^ k := by
    rw [scanNumber]
    cases hscan : scanDecimal str with
    | none => exact ⟨_, rfl, fun n hn => nomatch hn⟩
    | some n =>
      obtain ⟨data, hset, hvalue⟩ := dp.data.exists_set hk (convert k n)
      refine ⟨data, hset, fun m hm => ?_⟩
      cases hm
      exact hvalue
  obtain ⟨data, hread, hvalue⟩ := hread
  rw [storeCase, hread, Option.bind_some, populate]
  split_ifs with hpop
  · exact ⟨_, rfl, rfl, hvalue⟩
  · have hle : (slice data.bytes 0 k).length ≤ DTOP_DP_MAX_STR_LEN := by
      rwa [length_slice (by rw [data.length_bytes]; omega)]
    rw [DataUnion.set, dif_pos hle]
    exact ⟨_, rfl, rfl, hvalue⟩

end Members

/-! ### What is printed, and what is stored -/

theorem decimalInt_natCast (n : ℕ) : decimalInt n = decimalNat n := by
  rw [decimalInt, if_neg (by omega), Int.natAbs_natCast]

theorem decimalInt_injective {m n : ℤ} (h : decimalInt m = decimalInt n) : m = n := by
  have hscan := congrArg scanDecimal h
  rw [scanDecimal_decimalInt, scanDecimal_decimalInt] at hscan
  exact Option.some.inj hscan

/-- The number that is printed. -/
def shown : NumType → DataUnion → ℤ
  | .ulong, u => u.d_ulong
  | .long, u => u.d_long
  | .uint, u => toInt u.d_uint
  | .int, u => u.d_uint

theorem prints_one (s : Bytes) : prints {} [s] = (FILE_SUCCESS, { text := s }) := rfl

theorem dtopFormatDpValues_eq {t : NumType} {dp : DataPoint} (h : dp.type = t.code) :
    dtopFormatDpValues dp {} = (FILE_SUCCESS, { text := decimalInt (shown t dp.data) }) := by
  rw [dtopFormatDpValues, h]
  cases t with
  | ulong =>
    rw [NumType.code, if_pos rfl, prints_one, percentU]
    simp only [shown, decimalInt_natCast]
  | long =>
    rw [NumType.code, if_neg (by decide), if_pos rfl, prints_one, percentD]
    simp only [shown]
  | uint =>
    rw [NumType.code, if_neg (by decide), if_neg (by decide), if_pos rfl, prints_one, percentD]
    simp only [shown]
  | int =>
    rw [NumType.code, if_neg (by decide), if_neg (by decide), if_neg (by decide), if_pos rfl,
      prints_one, percentU]
    simp only [shown, decimalInt_natCast]

/-- What is printed is the value exactly if both formats print the same. -/
theorem shown_eq_iff (t : NumType) (u : DataUnion) :
    shown t u = t.value u ↔ PrintsAlike t (t.value u) := by
  have hlt : u.unsigned 4 < 2 ^ 32 := u.unsigned_lt (by decide)
  have hpow : (256 ^ 4 : ℕ) = 2 ^ 32 := by decide
  cases t with
  | ulong => simp only [shown, NumType.value, PrintsAlike]
  | long => simp only [shown, NumType.value, PrintsAlike]
  | uint =>
    unfold shown NumType.value PrintsAlike DataUnion.d_uint toInt Int.bmod
    push_cast
    split_ifs <;> omega
  | int =>
    simp only [shown, NumType.value, PrintsAlike, DataUnion.d_uint, DataUnion.d_int,
      DataUnion.signed, hpow, Int.bmod_def]
    push_cast
    split_ifs <;> omega

/-- Storing a notation of a value of the type of a data point yields this value. -/
theorem exists_stored (undef : ℕ → ℤ → ℕ) {t : NumType} {dp : DataPoint} (h : dp.type = t.code)
    (str : Bytes) :
    ∃ stored, dtopStoreDp undef dp str = some stored ∧ stored.type = t.code ∧
      ∀ u, scanDecimal str = some (t.value u) → t.value stored.data = t.value u := by
  have hU (u : DataUnion) (k : ℕ) (hk : k ≤ DTOP_DP_MAX_STR_LEN) :
      convertU undef k (u.unsigned k) % 256 ^ k = u.unsigned k := by
    have hlt := u.unsigned_lt hk
    rw [convertU, if_pos (by omega), ← Int.natCast_mod, Int.toNat_natCast, Nat.mod_eq_of_lt hlt,
      Nat.mod_eq_of_lt hlt]
  have hD (u : DataUnion) (k : ℕ) (hk : 0 < k) :
      Int.bmod (convertD undef k (u.signed k) % 256 ^ k : ℕ) (256 ^ k) = u.signed k := by
    have hpos : 0 < 256 ^ k := Nat.pow_pos (by decide)
    have heven : 256 ^ k % 2 = 0 := by
      rw [Nat.pow_mod, show 256 % 2 = 0 from rfl, Nat.zero_pow hk]
    have hge : -(256 ^ k : ℕ) ≤ 2 * u.signed k := by
      have := Int.le_bmod (x := u.unsigned k) hpos
      rw [DataUnion.signed]
      omega
    have hlt : 2 * u.signed k < (256 ^ k : ℕ) := by
      have := Int.bmod_lt (x := u.unsigned k) hpos
      rw [DataUnion.signed]
      omega
    have hmod : 0 ≤ u.signed k % (256 ^ k : ℕ) := Int.emod_nonneg _ (by omega)
    rw [convertD, if_pos ⟨hge, hlt⟩, Int.natCast_mod, Int.toNat_of_nonneg hmod,
      Int.emod_emod_of_dvd _ (dvd_refl _), Int.emod_bmod, DataUnion.signed, Int.bmod_bmod]
  rw [dtopStoreDp, h]
  cases t with
  | ulong =>
    obtain ⟨stored, hstore, htype, hvalue⟩ :=
      @exists_storeCase 8 (convertU undef) (by decide) dp str
    rw [NumType.code, if_pos rfl]
    refine ⟨stored, hstore, htype.trans h, fun u hu => ?_⟩
    have hstored := (hvalue _ hu).trans (hU u 8 (by decide))
    exact congrArg Nat.cast hstored
  | long =>
    obtain ⟨stored, hstore, htype, hvalue⟩ :=
      @exists_storeCase 8 (convertD undef) (by decide) dp str
    rw [NumType.code, if_neg (by decide), if_pos rfl]
    refine ⟨stored, hstore, htype.trans h, fun u hu => ?_⟩
    have hstored := congrArg (fun n : ℕ => Int.bmod n (256 ^ 8)) (hvalue _ hu)
    exact hstored.trans (hD u 8 (by decide))
  | uint =>
    obtain ⟨stored, hstore, htype, hvalue⟩ :=
      @exists_storeCase 4 (convertU undef) (by decide) dp str
    rw [NumType.code, if_neg (by decide), if_neg (by decide), if_pos rfl]
    refine ⟨stored, hstore, htype.trans h, fun u hu => ?_⟩
    have hstored := (hvalue _ hu).trans (hU u 4 (by decide))
    exact congrArg Nat.cast hstored
  | int =>
    obtain ⟨stored, hstore, htype, hvalue⟩ :=
      @exists_storeCase 4 (convertD undef) (by decide) dp str
    rw [NumType.code, if_neg (by decide), if_neg (by decide), if_neg (by decide), if_pos rfl]
    refine ⟨stored, hstore, htype.trans h, fun u hu => ?_⟩
    have hstored := congrArg (fun n : ℕ => Int.bmod n (256 ^ 4)) (hvalue _ hu)
    exact hstored.trans (hD u 4 (by decide))

/-- **Printed data points read back** exactly if `%d` and `%u` print the value alike. -/
theorem printedReadsBack_iff (undef : ℕ → ℤ → ℕ) {t : NumType} {dp dp' : DataPoint}
    (h : dp.type = t.code) (h' : dp'.type = t.code) : PrintedReadsBack undef t dp dp' ↔
      PrintsAlike t (t.value dp.data) := by
  rw [← shown_eq_iff, PrintedReadsBack, dtopFormatDpValues_eq h]
  constructor
  · rintro ⟨heq, -⟩
    exact decimalInt_injective (congrArg (fun r => r.2.text) heq)
  · intro hshown
    rw [hshown]
    obtain ⟨stored, hstore, -, hvalue⟩ :=
      exists_stored undef h' (decimalInt (t.value dp.data))
    exact ⟨rfl, stored, hstore, hvalue _ (scanDecimal_decimalInt _)⟩

/-- A data point whose value has the given first bytes. -/
def sampleDp (type : UInt8) (first : Bytes) (h : first.length = 4) : DataPoint where
  type := type
  initial_data := ⟨List.replicate 32 0, rfl⟩
  initial_data_populated := false
  data := ⟨first ++ List.replicate 28 0, by rw [List.length_append, h]; rfl⟩

/-- The unsigned number `0x01020304`. -/
def sampleUint : DataPoint := sampleDp DTOP_UINT [4, 3, 2, 1] rfl

theorem printedReadsBack_sampleUint : sampleUint.data.d_uint = 0x01020304 ∧
    PrintedReadsBack (fun _ _ => 0) .uint sampleUint sampleUint := by
  have hvalue : NumType.uint.value sampleUint.data = 0x01020304 := by decide
  refine ⟨by decide, (printedReadsBack_iff _ rfl rfl).2 ?_⟩
  rw [hvalue]
  show (0x01020304 : ℤ) < 2 ^ 31
  decide

/-- The number `-1`. -/
def minusOne : DataPoint := sampleDp DTOP_INT [255, 255, 255, 255] rfl

/-- **A negative number is printed as a positive one.** -/
theorem minusOne_misprinted : minusOne.data.d_int = -1 ∧
    (dtopFormatDpValues minusOne {}).2.text = ascii "4294967295" ∧
    ¬ PrintedReadsBack (fun _ _ => 0) .int minusOne minusOne := by
  have htext : (dtopFormatDpValues minusOne {}).2.text = ascii "4294967295" := by decide +kernel
  have hneg : decimalInt (NumType.int.value minusOne.data) = ascii "-1" := by decide +kernel
  refine ⟨by decide, htext, ?_⟩
  rintro ⟨heq, -⟩
  rw [heq, hneg] at htext
  exact absurd htext (by decide)

end Datatop

end Msm8909w
