import Msm8909w.Lib.Buffer
import Msm8909w.Lib.Loop
import Msm8909w.Map.MapUtils

/-!
# Application parameters of the message access server

The class `MasAppParamsStore` of `BluetoothMasObexServer.java` takes the application parameters of
a request out of its header.  Each parameter is a tag, a length and a value; integers are checked
against the length and the range that `BluetoothMasSpecParams.java` gives for the tag.
-/

namespace Msm8909w

namespace Map

/-! ### The parameters -/

/-- The class `BluetoothMasAppParams`. -/
structure AppParams where
  MaxListCount : ℤ
  ListStartOffset : ℤ
  SubjectLength : ℤ
  ParameterMask : ℤ
  FilterMessageType : ℤ
  FilterReadStatus : ℤ
  FilterPriority : ℤ
  FilterPeriodBegin : Option JString
  FilterPeriodEnd : Option JString
  FilterRecipient : Option JString
  FilterOriginator : Option JString
  FractionRequest : ℤ
  Charset : ℤ
  Attachment : ℤ
  Retry : ℤ
  Transparent : ℤ
  StatusIndicator : ℤ
  StatusValue : ℤ
  Notification : ℤ
  deriving DecidableEq, Repr

def MAS_DEFAULT_MAX_LIST_COUNT : ℤ := 1024
def MAS_DEFAULT_SUBJECT_LENGTH : ℤ := 255
def MAS_DEFAULT_PARAMETER_MASK : ℤ := 0xFFFF
def MAS_FRACTION_REQUEST_NOT_SET : ℤ := 0x02

namespace MasAppParamsStore

/-- `clear`; four of the fields keep what they have. -/
def clear (a : AppParams) : AppParams :=
  { a with
    MaxListCount := MAS_DEFAULT_MAX_LIST_COUNT
    ListStartOffset := 0
    SubjectLength := MAS_DEFAULT_SUBJECT_LENGTH
    ParameterMask := MAS_DEFAULT_PARAMETER_MASK
    FilterMessageType := 0
    FilterReadStatus := 0
    FilterPriority := 0
    FilterPeriodBegin := none
    FilterPeriodEnd := none
    FilterRecipient := none
    FilterOriginator := none
    Retry := 1
    Transparent := 0
    FractionRequest := MAS_FRACTION_REQUEST_NOT_SET
    Charset := 0x01 }

/-- `get`: a copy for the application. -/
def get (a : AppParams) : AppParams :=
  { MaxListCount := a.MaxListCount
    ListStartOffset := a.ListStartOffset
    SubjectLength := a.SubjectLength
    ParameterMask := a.ParameterMask
    Attachment := a.Attachment
    Charset := a.Charset
    StatusIndicator := a.StatusIndicator
    StatusValue := a.StatusValue
    Retry := a.Retry
    FilterMessageType := a.FilterMessageType
    FilterReadStatus := a.FilterReadStatus
    FilterPriority := a.FilterPriority
    FilterPeriodBegin := a.FilterPeriodBegin
    FilterPeriodEnd := a.FilterPeriodEnd
    FilterRecipient := a.FilterRecipient
    FilterOriginator := a.FilterOriginator
    Transparent := a.Transparent
    FractionRequest := a.FractionRequest
    Notification := a.Notification }

end MasAppParamsStore

/-- The tags of integers that `parse` knows. -/
inductive IntTag
  | MAX_LIST_COUNT
  | LIST_START_OFFSET
  | FILTER_MESSAGE_TYPE
  | FILTER_READ_STATUS
  | FILTER_PRIORITY
  | ATTACHMENT
  | TRANSPARENT
  | RETRY
  | NOTIFICATION_STATUS
  | PARAMETER_MASK
  | SUBJECT_LENGTH
  | CHARSET
  | FRACTION_REQUEST
  | STATUS_INDICATOR
  | STATUS_VALUE
  deriving DecidableEq, Repr

/-- The tags of texts. -/
inductive TextTag
  | FILTER_PERIOD_BEGIN
  | FILTER_PERIOD_END
  | FILTER_RECIPIENT
  | FILTER_ORIGINATOR
  deriving DecidableEq, Repr

namespace IntTag

/-- `MAS_TAG_*`. -/
def tag : IntTag → UInt8
  | MAX_LIST_COUNT => 0x01
  | LIST_START_OFFSET => 0x02
  | FILTER_MESSAGE_TYPE => 0x03
  | FILTER_READ_STATUS => 0x06
  | FILTER_PRIORITY => 0x09
  | ATTACHMENT => 0x0A
  | TRANSPARENT => 0x0B
  | RETRY => 0x0C
  | NOTIFICATION_STATUS => 0x0E
  | PARAMETER_MASK => 0x10
  | SUBJECT_LENGTH => 0x13
  | CHARSET => 0x14
  | FRACTION_REQUEST => 0x15
  | STATUS_INDICATOR => 0x17
  | STATUS_VALUE => 0x18

/-- `MAS_TAG_*_LEN`. -/
def LEN : IntTag → ℕ
  | MAX_LIST_COUNT => 0x02
  | LIST_START_OFFSET => 0x02
  | PARAMETER_MASK => 0x04
  | _ => 0x01

/-- `MAS_TAG_*_MIN_VAL`. -/
def MIN_VAL : IntTag → ℤ
  | SUBJECT_LENGTH => 0x01
  | _ => 0x00

/-- `MAS_TAG_*_MAX_VAL`. -/
def MAX_VAL : IntTag → ℤ
  | MAX_LIST_COUNT => 0xFFFF
  | LIST_START_OFFSET => 0xFFFF
  | SUBJECT_LENGTH => 0xFF
  | FILTER_MESSAGE_TYPE => 0x0F
  | FILTER_READ_STATUS => 0x02
  | FILTER_PRIORITY => 0x02
  | PARAMETER_MASK => 0xFFFF
  | _ => 0x01

/-- The field of the tag. -/
def field : IntTag → AppParams → ℤ
  | MAX_LIST_COUNT => AppParams.MaxListCount
  | LIST_START_OFFSET => AppParams.ListStartOffset
  | FILTER_MESSAGE_TYPE => AppParams.FilterMessageType
  | FILTER_READ_STATUS => AppParams.FilterReadStatus
  | FILTER_PRIORITY => AppParams.FilterPriority
  | ATTACHMENT => AppParams.Attachment
  | TRANSPARENT => AppParams.Transparent
  | RETRY => AppParams.Retry
  | NOTIFICATION_STATUS => AppParams.Notification
  | PARAMETER_MASK => AppParams.ParameterMask
  | SUBJECT_LENGTH => AppParams.SubjectLength
  | CHARSET => AppParams.Charset
  | FRACTION_REQUEST => AppParams.FractionRequest
  | STATUS_INDICATOR => AppParams.StatusIndicator
  | STATUS_VALUE => AppParams.StatusValue

/-- Assign the field of the tag. -/
def setField (v : ℤ) (a : AppParams) : IntTag → AppParams
  | MAX_LIST_COUNT => { a with MaxListCount := v }
  | LIST_START_OFFSET => { a with ListStartOffset := v }
  | FILTER_MESSAGE_TYPE => { a with FilterMessageType := v }
  | FILTER_READ_STATUS => { a with FilterReadStatus := v }
  | FILTER_PRIORITY => { a with FilterPriority := v }
  | ATTACHMENT => { a with Attachment := v }
  | TRANSPARENT => { a with Transparent := v }
  | RETRY => { a with Retry := v }
  | NOTIFICATION_STATUS => { a with Notification := v }
  | PARAMETER_MASK => { a with ParameterMask := v }
  | SUBJECT_LENGTH => { a with SubjectLength := v }
  | CHARSET => { a with Charset := v }
  | FRACTION_REQUEST => { a with FractionRequest := v }
  | STATUS_INDICATOR => { a with StatusIndicator := v }
  | STATUS_VALUE => { a with StatusValue := v }

end IntTag

namespace TextTag

/-- `MAS_TAG_*`. -/
def tag : TextTag → UInt8
  | FILTER_PERIOD_BEGIN => 0x04
  | FILTER_PERIOD_END => 0x05
  | FILTER_RECIPIENT => 0x07
  | FILTER_ORIGINATOR => 0x08

/-- The field of the tag. -/
def field : TextTag → AppParams → Option JString
  | FILTER_PERIOD_BEGIN => AppParams.FilterPeriodBegin
  | FILTER_PERIOD_END => AppParams.FilterPeriodEnd
  | FILTER_RECIPIENT => AppParams.FilterRecipient
  | FILTER_ORIGINATOR => AppParams.FilterOriginator

/-- Assign the field of the tag. -/
def setField (v : JString) (a : AppParams) : TextTag → AppParams
  | FILTER_PERIOD_BEGIN => { a with FilterPeriodBegin := some v }
  | FILTER_PERIOD_END => { a with FilterPeriodEnd := some v }
  | FILTER_RECIPIENT => { a with FilterRecipient := some v }
  | FILTER_ORIGINATOR => { a with FilterOriginator := some v }

end TextTag

/-! ### `parse` -/

namespace MasAppParamsStore

/-- `b << n` for a Java `byte`, an `int`. -/
def shl (b : UInt8) (n : ℕ) : BitVec 32 := (b.toBitVec.signExtend 32) <<< (n % 32)

/-- `getUint16BigEndian`. -/
def getUint16BigEndian (b1 b2 : UInt8) : ℤ :=
  ((0x0000FF00#32 &&& shl b1 0x8) ||| (0x000000FF#32 &&& b2.toBitVec.signExtend 32)).toInt

/-- `getUint32BigEndian`: the first mask is an `int` and negative as a `long`. -/
def getUint32BigEndian (b1 b2 b3 b4 : UInt8) : ℤ :=
  (((((0xFF000000#32).signExtend 64 &&& (shl b1 0x24).signExtend 64) |||
    (0x00FF0000#64 &&& (shl b2 0x16).signExtend 64)) |||
    (0x0000FF00#64 &&& (shl b3 0x8).signExtend 64)) |||
    (0x000000FF#64 &&& b4.toBitVec.signExtend 64)).toInt

/-- `validateTag`. -/
def validateTag (tagVal tagLen tagMinVal tagMaxVal tagActualLen : ℤ) : Bool :=
  if tagLen ≠ tagActualLen then false
  else if tagVal < tagMinVal ∨ tagVal > tagMaxVal then false
  else true

/-- How `parse` can end: with a result, or with an index out of bounds. -/
inductive Outcome
  | returns (result : Bool) (appParams : AppParams)
  | throws
  deriving DecidableEq, Repr

/-- `params[i]`. -/
def byteAt (params : Bytes) (i : ℤ) : Option UInt8 :=
  if 0 ≤ i then params[i.toNat]? else none

/-- `params[i]`, ..., `params[i + n - 1]`. -/
def bytesAt (params : Bytes) (i : ℤ) (n : ℕ) : Option Bytes :=
  if 0 ≤ i ∧ i + n ≤ params.length then some (slice params i.toNat n) else none

/-- The number a branch of `parse` makes of the bytes of the value. -/
def readInt : IntTag → Bytes → ℤ
  | .MAX_LIST_COUNT, v => getUint16BigEndian (v.getD 0 0) (v.getD 1 0)
  | .LIST_START_OFFSET, v => getUint16BigEndian (v.getD 0 0) (v.getD 1 0)
  | .PARAMETER_MASK, v => getUint32BigEndian (v.getD 0 0) (v.getD 1 0) (v.getD 2 0) (v.getD 3 0)
  | .SUBJECT_LENGTH, v => ((v.getD 0 0).toNat : ℤ)
  | _, v => toByte (v.getD 0 0)

/-- What a branch of `parse` assigns: a mask of 0 stands for all parameters. -/
def assignInt (t : IntTag) (v : ℤ) (a : AppParams) : AppParams :=
  if t = .PARAMETER_MASK ∧ v = 0 then t.setField MAS_DEFAULT_PARAMETER_MASK a
  else t.setField v a

/-- The field a branch of `parse` passes to `validateTag`: its own one, but for the notification
status, which passes `MaxListCount`. -/
def checkedField : IntTag → AppParams → ℤ
  | .NOTIFICATION_STATUS, a => a.MaxListCount
  | t, a => t.field a

/-- The branch of `parse` for an integer. -/
def parseInt (t : IntTag) (params : Bytes) (i : ℤ) (a : AppParams) : (ℤ × AppParams) ⊕ Outcome :=
  match bytesAt params (i + 2) t.LEN, byteAt params (i + 1) with
  | some v, some tagLen =>
    let a := assignInt t (readInt t v) a
    if validateTag (checkedField t a) (toByte tagLen) t.MIN_VAL t.MAX_VAL t.LEN then
      .inl (i + 2 + t.LEN, a)
    else .inr (.returns false a)
  | _, _ => .inr .throws

/-- `(char) b`. -/
def toChar (b : UInt8) : UInt16 :=
  UInt16.ofNat (if b.toNat < 128 then b.toNat else 0xFF00 + b.toNat)

/-- The branch of `parse` for a text. -/
def parseText (t : TextTag) (params : Bytes) (i : ℤ) (a : AppParams) : (ℤ × AppParams) ⊕ Outcome :=
  match byteAt params (i + 1) with
  | some len =>
    -- a negative length reads nothing and leads back
    match bytesAt params (i + 2) (toByte len).toNat with
    | some v => .inl (i + 1 + toByte len + 1, t.setField (v.map toChar) a)
    | none => .inr .throws
  | none => .inr .throws

/-- The tags in the order of the branches. -/
def intTags : List IntTag :=
  [.MAX_LIST_COUNT, .LIST_START_OFFSET, .FILTER_MESSAGE_TYPE, .FILTER_READ_STATUS, .FILTER_PRIORITY,
    .STATUS_INDICATOR, .STATUS_VALUE, .SUBJECT_LENGTH, .PARAMETER_MASK, .CHARSET, .TRANSPARENT,
    .RETRY, .ATTACHMENT, .FRACTION_REQUEST, .NOTIFICATION_STATUS]

def textTags : List TextTag :=
  [.FILTER_PERIOD_BEGIN, .FILTER_PERIOD_END, .FILTER_RECIPIENT, .FILTER_ORIGINATOR]

/-- One turn of the loop of `parse`. -/
def parseTurn (params : Bytes) : ℤ × AppParams → (ℤ × AppParams) ⊕ Outcome
  | (i, a) =>
    if i < params.length then
      match byteAt params i with
      | some tag =>
        match intTags.find? (·.tag = tag), textTags.find? (·.tag = tag) with
        | some t, _ => parseInt t params i a
        | none, some t => parseText t params i a
        -- other tags are not skipped
        | none, none => .inl (i, a)
      | none => .inr .throws
    else .inr (.returns true a)

/-- `parse` ends with an outcome. -/
def Parses (params : Option Bytes) (a : AppParams) (o : Outcome) : Prop :=
  match params with
  | none => o = .returns true a
  | some params => Ends (parseTurn params) (0, a) o

end MasAppParamsStore

end Map

end Msm8909w
