import Mathlib.Tactic.IntervalCases

/-!
# The parameters of the wireless charging service

The values that a power transmitting unit reads and writes, with their layout in bytes.  A Java
`byte` is a `BitVec 8` and a `short` a `BitVec 16`; where the code compares them it does so with
signs.

`setValue` takes the three parameters apart and `getValue` puts them together again.  A byte that is
joined with its sign sets all bits of the bytes above it, the static parameter has one field for two
voltages, and the control parameter loses its reserved bytes.

* `getValue_setValue_dynamic`, `getValue_setValue_static`, `getValue_setValue_control` : the bytes
  that come back,
* `survive_iff` : exactly when the three parameters survive.
-/

namespace Msm8909w

namespace A4wp

/-- The low and the high byte of a `short`. -/
def lsb (x : BitVec 16) : BitVec 8 := x.setWidth 8

def msb (x : BitVec 16) : BitVec 8 := (x >>> 8).setWidth 8

/-- `(short)toUnsigned(lo)`, and then `|= (short)(toUnsigned(hi) << 8)`. -/
def toShort (lo hi : BitVec 8) : BitVec 16 := lo.setWidth 16 ||| hi.setWidth 16 <<< 8

/-! ### The dynamic parameter -/

/-- `WipowerDynamicParam`. -/
structure WipowerDynamicParam where
  mOptValidity : BitVec 8 := 0
  mRectVoltage : BitVec 16 := 0
  mRectCurrent : BitVec 16 := 0
  mOutputVoltage : BitVec 16 := 0
  mOutputCurrent : BitVec 16 := 0
  mTemperature : BitVec 8 := 0
  mMinRectVoltageDyn : BitVec 16 := 0
  mMaxRectVoltageDyn : BitVec 16 := 0
  mSetRectVoltageDyn : BitVec 16 := 0
  mAlert : BitVec 8 := 0
  mReserved1 : BitVec 16 := 0
  mReserved2 : BitVec 8 := 0
  deriving DecidableEq, Repr

namespace WipowerDynamicParam

def OVP_BIT : BitVec 8 := 0x80
def OVP_THRESHHOLD_VAL : ℕ := 21500

/-- `getValue`. -/
def getValue (p : WipowerDynamicParam) : Vector (BitVec 8) 20 :=
  -- over voltage is only reported from the threshold on
  let alert :=
    if p.mAlert &&& OVP_BIT = OVP_BIT ∧ p.mRectVoltage.toInt < OVP_THRESHHOLD_VAL then
      p.mAlert &&& ~~~OVP_BIT
    else p.mAlert
  #v[p.mOptValidity, lsb p.mRectVoltage, msb p.mRectVoltage, lsb p.mRectCurrent, msb p.mRectCurrent,
    lsb p.mOutputVoltage, msb p.mOutputVoltage, lsb p.mOutputCurrent, msb p.mOutputCurrent,
      p.mTemperature,
    lsb p.mMinRectVoltageDyn, msb p.mMinRectVoltageDyn, lsb p.mSetRectVoltageDyn,
      msb p.mSetRectVoltageDyn,
    lsb p.mMaxRectVoltageDyn, msb p.mMaxRectVoltageDyn, alert, 0, 0, 0]

/-- `setValue`; the first assignment of `mReserved1` is overwritten by the second. -/
def setValue (value : Vector (BitVec 8) 20) : WipowerDynamicParam where
  mOptValidity := value.get 0
  mRectVoltage := toShort (value.get 1) (value.get 2)
  mRectCurrent := toShort (value.get 3) (value.get 4)
  mOutputVoltage := toShort (value.get 5) (value.get 6)
  mOutputCurrent := toShort (value.get 7) (value.get 8)
  mTemperature := value.get 9
  mMinRectVoltageDyn := toShort (value.get 10) (value.get 11)
  mSetRectVoltageDyn := toShort (value.get 12) (value.get 13)
  mMaxRectVoltageDyn := toShort (value.get 14) (value.get 15)
  mAlert := value.get 16
  mReserved1 := (value.get 18).setWidth 16 <<< 8
  mReserved2 := value.get 19

end WipowerDynamicParam

/-! ### The static parameter -/

/-- `PruStaticParam`, with the values of its constructor. -/
structure PruStaticParam where
  mOptvalidity : BitVec 8 := 0
  mProtoRevision : BitVec 8 := 0
  mRfu : BitVec 8 := 0
  mCategory : BitVec 8 := 3
  mCapabilities : BitVec 8 := 0
  mHwRev : BitVec 8 := 7
  mFwRev : BitVec 8 := 6
  mMaxPowerDesired : BitVec 8 := 0x32
  mVrectMinStatic : BitVec 16 := 7100
  mVrectMaxStatic : BitVec 16 := 19300
  mVrectSet : BitVec 16 := 7200
  mDeltaR1 : BitVec 16 := 1
  mRfuVal : BitVec 32 := 0

/-- `getValue`. -/
def PruStaticParam.getValue (p : PruStaticParam) : List (BitVec 8) :=
  [p.mOptvalidity, p.mProtoRevision, p.mRfu, p.mCategory, p.mCapabilities, p.mHwRev, p.mFwRev,
    p.mMaxPowerDesired, lsb p.mVrectMinStatic, msb p.mVrectMinStatic, lsb p.mVrectMaxStatic,
    msb p.mVrectMaxStatic, lsb p.mVrectSet, msb p.mVrectSet, lsb p.mDeltaR1, msb p.mDeltaR1,
    p.mRfuVal.setWidth 8, (p.mRfuVal >>> 8).setWidth 8, (p.mRfuVal >>> 16).setWidth 8,
    (p.mRfuVal >>> 24).setWidth 8]

/-- `(short)value[i]`, and then `|= (short)(value[j] << 8)`: the bytes keep their signs. -/
def toSignedShort (lo hi : BitVec 8) : BitVec 16 :=
  lo.signExtend 16 ||| (hi.signExtend 32 <<< 8).setWidth 16

/-- The same for the four bytes of an `int`. -/
def toSignedInt (b₀ b₁ b₂ b₃ : BitVec 8) : BitVec 32 :=
  b₀.signExtend 32 ||| b₁.signExtend 32 <<< 8 ||| b₂.signExtend 32 <<< 16 |||
    b₃.signExtend 32 <<< 24

/-- `setValue`; the bytes 10 and 11 go into the field of the bytes 8 and 9. -/
def PruStaticParam.setValue (p : PruStaticParam) (value : Vector (BitVec 8) 20) : PruStaticParam :=
  { p with
    mOptvalidity := value.get 0
    mProtoRevision := value.get 1
    mRfu := value.get 2
    mCategory := value.get 3
    mCapabilities := value.get 4
    mHwRev := value.get 5
    mFwRev := value.get 6
    mMaxPowerDesired := value.get 7
    mVrectMinStatic := toSignedShort (value.get 10) (value.get 11)
    mVrectSet := toSignedShort (value.get 12) (value.get 13)
    mDeltaR1 := toSignedShort (value.get 14) (value.get 15)
    mRfuVal := toSignedInt (value.get 16) (value.get 17) (value.get 18) (value.get 19) }

/-! ### The control parameter -/

/-- `PowerLevel`. -/
inductive PowerLevel
  | minimum
  | medium
  | maximum
  deriving DecidableEq, Repr

/-- `PruControl`. -/
structure PruControl where
  mEnable : BitVec 8 := 0
  mPermission : BitVec 8 := 0
  mTimeSet : BitVec 8 := 0
  mReserved : BitVec 16 := 0
  deriving DecidableEq, Repr

namespace PruControl

/-- `setValue`, of five bytes; the first assignment of `mReserved` is overwritten by the second. -/
def setValue (value : List (BitVec 8)) : PruControl where
  mEnable := value.getD 0 0
  mPermission := value.getD 1 0
  mTimeSet := value.getD 2 0
  mReserved := (value.getD 4 0).setWidth 16 <<< 8

/-- `getValue`; the last byte is taken from the masked `short` without a shift. -/
def getValue (p : PruControl) : List (BitVec 8) :=
  [p.mEnable, p.mPermission, p.mTimeSet, lsb p.mReserved, lsb (p.mReserved &&& 0xFF00)]

def getEnablePruOutput (p : PruControl) : Bool := p.mEnable &&& 0x80 = 0x80

def getPermission (p : PruControl) : Bool := p.mPermission = 0

/-- `getReducePower`; no value is both one and three, so that the level is never medium. -/
def getReducePower (p : PruControl) : PowerLevel :=
  let val := (p.mEnable &&& 0x30) >>> 4
  if val = 0 then .maximum
  else if val = 1 ∧ val = 3 then .medium
  else .minimum

end PruControl

/-! ### Two and four bytes -/

section Bytes

variable (a b c d : BitVec 8)

theorem lsb_toShort : lsb (toShort a b) = a := by
  ext i hi
  simp [lsb, toShort]

theorem msb_toShort : msb (toShort a b) = b := by
  ext i hi
  have h8 : ¬ 8 + i < 8 := by omega
  have h16 : 8 + i < 16 := by omega
  have hlt : i < 16 := by omega
  simp [msb, toShort, hi, h8, h16, hlt]

theorem toNat_toShort : (toShort a b).toNat = a.toNat + 256 * b.toNat := by
  have hlow : a.toNat < 2 ^ 8 := a.isLt
  have hhigh : b.toNat < 2 ^ 8 := b.isLt
  rw [toShort, BitVec.toNat_or, BitVec.toNat_shiftLeft, BitVec.toNat_setWidth,
    BitVec.toNat_setWidth, Nat.or_comm, Nat.mod_eq_of_lt (by omega), Nat.mod_eq_of_lt (by omega),
    Nat.shiftLeft_eq, Nat.mod_eq_of_lt (by omega), ← Nat.shiftLeft_eq,
    ← Nat.shiftLeft_add_eq_or_of_lt hlow, Nat.shiftLeft_eq]
  omega

theorem lsb_toSignedShort : lsb (toSignedShort a b) = a := by
  ext i hi
  have hlt : i < 16 := by omega
  simp [lsb, toSignedShort, hi, hlt, BitVec.getElem_signExtend]

theorem msb_toSignedShort : msb (toSignedShort a b) = b ||| BitVec.fill 8 a.msb := by
  ext i hi
  have h8 : ¬ 8 + i < 8 := by omega
  have h16 : 8 + i < 16 := by omega
  have hlt : i < 16 := by omega
  have hlt' : i < 32 := by omega
  simp [msb, toSignedShort, hi, h8, h16, hlt, hlt', BitVec.getElem_signExtend, Bool.or_comm]

/-- The bytes of an `int`, and the signs of those below. -/
theorem bytes_toSignedInt : (toSignedInt a b c d).setWidth 8 = a ∧
    (toSignedInt a b c d >>> 8).setWidth 8 = b ||| BitVec.fill 8 a.msb ∧
    (toSignedInt a b c d >>> 16).setWidth 8 = c ||| BitVec.fill 8 (a.msb || b.msb) ∧
    (toSignedInt a b c d >>> 24).setWidth 8 = d ||| BitVec.fill 8 (a.msb || b.msb || c.msb) := by
  refine ⟨?_, ?_, ?_, ?_⟩
  · ext i hi
    have h32 : i < 32 := by omega
    simp [toSignedInt, hi, h32, BitVec.getElem_signExtend]
  · ext i hi
    have h8 : ¬ 8 + i < 8 := by omega
    have h16 : 8 + i < 16 := by omega
    have h24 : 8 + i < 24 := by omega
    have h32 : 8 + i < 32 := by omega
    have hlt : i < 32 := by omega
    simp [toSignedInt, hi, h8, h16, h24, h32, hlt, BitVec.getElem_signExtend, Bool.or_comm]
  · ext i hi
    have h8 : ¬ 16 + i < 8 := by omega
    have h8' : ¬ 16 + i - 8 < 8 := by omega
    have h16 : ¬ 16 + i < 16 := by omega
    have h24 : 16 + i < 24 := by omega
    have h32 : 16 + i < 32 := by omega
    have hlt : i < 32 := by omega
    simp [toSignedInt, hi, h8, h8', h16, h24, h32, hlt, BitVec.getElem_signExtend, Bool.or_comm]
  · ext i hi
    have h8 : ¬ 24 + i < 8 := by omega
    have h8' : ¬ 24 + i - 8 < 8 := by omega
    have h8'' : ¬ 24 + i - 16 < 8 := by omega
    have h16 : ¬ 24 + i < 16 := by omega
    have h24 : ¬ 24 + i < 24 := by omega
    have h32 : 24 + i < 32 := by omega
    have hlt : i < 32 := by omega
    simp [toSignedInt, hi, h8, h8', h8'', h16, h24, h32, hlt, BitVec.getElem_signExtend,
      Bool.or_comm, Bool.or_assoc]

end Bytes

/-- A byte is not changed by the sign of another one: this is not set, or all bits of the byte
are. -/
theorem or_fill_eq_iff (b : BitVec 8) (sign : Bool) :
    b ||| BitVec.fill 8 sign = b ↔ (sign = true → b = 0xFF) := by
  cases sign with
  | false => simp
  | true =>
    rw [BitVec.fill_true, BitVec.or_allOnes]
    exact ⟨fun h _ => h.symm, fun h => (h rfl).symm⟩

theorem toList_static {α : Type} (v : Vector α 20) : v.toList =
    [v.get 0, v.get 1, v.get 2, v.get 3, v.get 4, v.get 5, v.get 6, v.get 7, v.get 8, v.get 9,
      v.get 10, v.get 11, v.get 12, v.get 13, v.get 14, v.get 15, v.get 16, v.get 17, v.get 18,
      v.get 19] := by
  refine List.ext_getElem (by simp) fun i h _ => ?_
  rw [Vector.length_toList] at h
  rw [Vector.getElem_toList]
  interval_cases i <;> rfl

theorem toList_control {α : Type} (v : Vector α 5) :
    v.toList = [v.get 0, v.get 1, v.get 2, v.get 3, v.get 4] := by
  refine List.ext_getElem (by simp) fun i h _ => ?_
  rw [Vector.length_toList] at h
  rw [Vector.getElem_toList]
  interval_cases i <;> rfl

/-! ### The measurements -/

/-- The voltage of the rectifier in millivolts, without a sign. -/
def rectVoltage (v : Vector (BitVec 8) 20) : ℕ := (v.get 1).toNat + 256 * (v.get 2).toNat

/-- The current of the rectifier, without a sign. -/
def rectCurrent (v : Vector (BitVec 8) 20) : ℕ := (v.get 3).toNat + 256 * (v.get 4).toNat

/-- One of the bytes of the voltage is positive as a signed number. -/
def PositiveByte (v : Vector (BitVec 8) 20) : Prop :=
  0 < (v.get 1).toNat ∧ (v.get 1).toNat < 128 ∨ 0 < (v.get 2).toNat ∧ (v.get 2).toNat < 128

/-- The alert byte. -/
def alertByte (v : Vector (BitVec 8) 20) : BitVec 8 := v.get 16

/-! ### The parameters -/

open WipowerDynamicParam (OVP_BIT OVP_THRESHHOLD_VAL)

/-- The alert byte after a round trip. -/
def keptAlert (v : Vector (BitVec 8) 20) : BitVec 8 :=
  if alertByte v &&& OVP_BIT = OVP_BIT ∧
      (toShort (v.get 1) (v.get 2)).toInt < OVP_THRESHHOLD_VAL then
    alertByte v &&& ~~~OVP_BIT
  else alertByte v

theorem getValue_setValue_dynamic (v : Vector (BitVec 8) 20) :
    (WipowerDynamicParam.setValue v).getValue = #v[v.get 0, v.get 1, v.get 2, v.get 3, v.get 4,
      v.get 5, v.get 6, v.get 7, v.get 8, v.get 9, v.get 10, v.get 11, v.get 12, v.get 13, v.get 14,
      v.get 15, keptAlert v, 0, 0, 0] := by
  simp only [WipowerDynamicParam.getValue, WipowerDynamicParam.setValue, lsb_toShort, msb_toShort]
  rfl

/-- What becomes of the twenty bytes of the static parameter. -/
theorem getValue_setValue_static (p : PruStaticParam) (v : Vector (BitVec 8) 20) :
    (p.setValue v).getValue =
      [v.get 0, v.get 1, v.get 2, v.get 3, v.get 4, v.get 5, v.get 6, v.get 7, v.get 10,
        v.get 11 ||| BitVec.fill 8 (v.get 10).msb, lsb p.mVrectMaxStatic, msb p.mVrectMaxStatic,
        v.get 12, v.get 13 ||| BitVec.fill 8 (v.get 12).msb, v.get 14,
        v.get 15 ||| BitVec.fill 8 (v.get 14).msb, v.get 16,
        v.get 17 ||| BitVec.fill 8 (v.get 16).msb,
        v.get 18 ||| BitVec.fill 8 ((v.get 16).msb || (v.get 17).msb),
        v.get 19 ||| BitVec.fill 8 ((v.get 16).msb || (v.get 17).msb || (v.get 18).msb)] := by
  obtain ⟨h0, h1, h2, h3⟩ := bytes_toSignedInt (v.get 16) (v.get 17) (v.get 18) (v.get 19)
  simp only [PruStaticParam.getValue, PruStaticParam.setValue, lsb_toSignedShort,
    msb_toSignedShort, h0, h1, h2, h3]

/-- The reserved bytes of the control parameter come back as zero. -/
theorem getValue_setValue_control (v : Vector (BitVec 8) 5) :
    (PruControl.setValue v.toList).getValue = [v.get 0, v.get 1, v.get 2, 0, 0] := by
  have hlow : ∀ x : BitVec 8, lsb (x.setWidth 16 <<< 8) = 0 ∧
      lsb (x.setWidth 16 <<< 8 &&& 0xFF00) = 0 := by decide
  rw [toList_control]
  simp only [PruControl.getValue, PruControl.setValue, List.getD_cons_succ, List.getD_cons_zero,
    hlow]

/-! ### Survival -/

/-- The three parameters come back as they were stored, but for the over-voltage bit, which is
cleared below the threshold. -/
structure Survive (v : Vector (BitVec 8) 20) (p : PruStaticParam) (w : Vector (BitVec 8) 20)
    (u : Vector (BitVec 8) 5) : Prop where
  dynamic : ∀ i : Fin 20, i.val < 16 → (WipowerDynamicParam.setValue v).getValue.get i = v.get i
  alert : alertByte (WipowerDynamicParam.setValue v).getValue =
    if rectVoltage v < 21500 then alertByte v &&& ~~~OVP_BIT else alertByte v
  static : (p.setValue w).getValue = w.toList
  control : (PruControl.setValue u.toList).getValue = u.toList

/-- The static parameter `p` keeps the bytes: those of the smaller voltage are those of the larger
one, which are what `p` has already, and no sign spills over. -/
structure Keeps (p : PruStaticParam) (v : Vector (BitVec 8) 20) : Prop where
  minLow : v.get 10 = v.get 8
  minHigh : v.get 11 ||| BitVec.fill 8 (v.get 10).msb = v.get 9
  maxLow : lsb p.mVrectMaxStatic = v.get 10
  maxHigh : msb p.mVrectMaxStatic = v.get 11
  set : (v.get 12).msb = true → v.get 13 = 0xFF
  deltaR1 : (v.get 14).msb = true → v.get 15 = 0xFF
  rfu₁ : (v.get 16).msb = true → v.get 17 = 0xFF
  rfu₂ : ((v.get 16).msb || (v.get 17).msb) = true → v.get 18 = 0xFF
  rfu₃ : ((v.get 16).msb || (v.get 17).msb || (v.get 18).msb) = true → v.get 19 = 0xFF

theorem static_iff (p : PruStaticParam) (v : Vector (BitVec 8) 20) :
    (p.setValue v).getValue = v.toList ↔ Keeps p v := by
  rw [getValue_setValue_static, toList_static]
  simp only [List.cons.injEq, true_and, and_true, or_fill_eq_iff]
  constructor
  · rintro ⟨h8, h9, h10, h11, h13, h15, h17, h18, h19⟩
    exact ⟨h8, h9, h10, h11, h13, h15, h17, h18, h19⟩
  · rintro ⟨h8, h9, h10, h11, h13, h15, h17, h18, h19⟩
    exact ⟨h8, h9, h10, h11, h13, h15, h17, h18, h19⟩

/-- The alert byte is right unless the voltage looks negative and the bit is set. -/
theorem alert_iff (v : Vector (BitVec 8) 20) :
    keptAlert v =
        (if rectVoltage v < 21500 then alertByte v &&& ~~~OVP_BIT else alertByte v) ↔
      ¬ (alertByte v &&& OVP_BIT = OVP_BIT ∧ 0x8000 ≤ rectVoltage v) := by
  have hclear : ∀ x : BitVec 8, x &&& OVP_BIT ≠ OVP_BIT → x &&& ~~~OVP_BIT = x := by decide
  have hset : ∀ x : BitVec 8, x &&& OVP_BIT = OVP_BIT → x &&& ~~~OVP_BIT ≠ x := by decide
  have hvoltage : (toShort (v.get 1) (v.get 2)).toNat = rectVoltage v := toNat_toShort _ _
  have hlt := (toShort (v.get 1) (v.get 2)).isLt
  have hint : (toShort (v.get 1) (v.get 2)).toInt < OVP_THRESHHOLD_VAL ↔
      rectVoltage v < 21500 ∨ 0x8000 ≤ rectVoltage v := by
    rw [BitVec.toInt_eq_toNat_cond, OVP_THRESHHOLD_VAL]
    split_ifs <;> omega
  simp only [keptAlert, hint]
  by_cases hbit : alertByte v &&& OVP_BIT = OVP_BIT
  · have hne := hset _ hbit
    by_cases hlow : rectVoltage v < 21500
    · have hsmall : ¬ 0x8000 ≤ rectVoltage v := by omega
      simp [hbit, hlow, hsmall]
    · by_cases hbig : 0x8000 ≤ rectVoltage v
      · simp [hbit, hlow, hbig, hne]
      · simp [hbit, hlow, hbig]
  · simp [hbit, hclear _ hbit]

/-- **When the parameters survive**: the dynamic one if the voltage does not look negative while its
over-voltage bit is set, the static one if it keeps the bytes, and the control parameter if its
reserved bytes are zero. -/
theorem survive_iff (v : Vector (BitVec 8) 20) (p : PruStaticParam) (w : Vector (BitVec 8) 20)
    (u : Vector (BitVec 8) 5) :
    Survive v p w u ↔ ¬ (alertByte v &&& OVP_BIT = OVP_BIT ∧ 0x8000 ≤ rectVoltage v) ∧
      Keeps p w ∧ u.get 3 = 0 ∧ u.get 4 = 0 := by
  have hdynamic : ∀ i : Fin 20, i.val < 16 →
      (WipowerDynamicParam.setValue v).getValue.get i = v.get i := by
    rintro ⟨i, hi⟩ hlt
    simp only at hlt
    simp only [getValue_setValue_dynamic]
    interval_cases i <;> rfl
  have halert : alertByte (WipowerDynamicParam.setValue v).getValue = keptAlert v := by
    simp only [getValue_setValue_dynamic]
    rfl
  have hcontrol : (PruControl.setValue u.toList).getValue = u.toList ↔
      u.get 3 = 0 ∧ u.get 4 = 0 := by
    rw [getValue_setValue_control, toList_control]
    simp only [List.cons.injEq, true_and, and_true, eq_comm]
  rw [← alert_iff, ← halert, ← static_iff, ← hcontrol]
  constructor
  · rintro ⟨-, halert, hstatic, hcontrol⟩
    exact ⟨halert, hstatic, hcontrol⟩
  · rintro ⟨halert, hstatic, hcontrol⟩
    exact ⟨hdynamic, halert, hstatic, hcontrol⟩

/-- A static parameter that a new `PruStaticParam` keeps: both voltages are 19300. -/
def sampleStatic : Vector (BitVec 8) 20 :=
  #v[0, 0, 0, 3, 0, 7, 6, 0x32, 0x64, 0x4B, 0x64, 0x4B, 0x20, 0x1C, 1, 0, 0, 0, 0, 0]

/-- The bit of an over-voltage of 32768 mV is cleared, and this is all that goes wrong; a minimum of
7100 mV is lost; and so is the last byte of a control parameter. -/
theorem not_survive_samples :
    ¬ Survive (((Vector.replicate 20 0).set 2 0x80 (by decide)).set 16 0x80 (by decide)) {}
      sampleStatic (Vector.replicate 5 0) ∧
    ¬ Survive (Vector.replicate 20 0) {} ((sampleStatic.set 8 0xBC).set 9 0x1B)
      (Vector.replicate 5 0) ∧
    ¬ Survive (Vector.replicate 20 0) {} sampleStatic #v[0, 0, 0, 0, 1] :=
  ⟨fun h => absurd h.alert (by decide), fun h => absurd h.static (by decide),
    fun h => absurd h.control (by decide)⟩

end A4wp

end Msm8909w
