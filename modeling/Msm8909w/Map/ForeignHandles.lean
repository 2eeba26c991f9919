import Msm8909w.Map.Handles

/-!
# Handles that are not one's own

Each instance has a range of numbers for its handles.  `msg` and `msgStatus` have a test for the
range, which no number can meet, and read the number before without catching what is thrown.  So
what becomes of a handle that is not one of the instance is decided by the code behind.

* `SmsMms.msg`, `SmsMms.msgStatus`, `Email.msg`, `Email.msgStatus` : the code,
* `inRange` : the test lets every number through,
* `refused_iff` : for each of the four, exactly when such a handle is refused.
-/

namespace Msm8909w

namespace Map

namespace Foreign

/-! ### The instances -/

/-- `OFFSET_START` of an instance. -/
def offsetStart (masId : ℕ) : ℤ := HANDLE_OFFSET.getD masId 0

/-- `OFFSET_END` of an instance. -/
def offsetEnd (masId : ℕ) : ℤ := HANDLE_OFFSET.getD (masId + 1) 0 - 1

/-- `MMS_OFFSET_START` of an instance. -/
def mmsOffsetStart (masId : ℕ) : ℤ :=
  offsetStart masId + (offsetEnd masId - offsetStart masId) / 2

/-- A `long`. -/
def toLong (n : ℤ) : ℤ := Int.bmod n (2 ^ 64)

/-- The response codes. -/
inductive Response
  | OBEX_HTTP_OK
  | OBEX_HTTP_BAD_REQUEST
  | OBEX_HTTP_NOT_FOUND
  | OBEX_HTTP_NOT_ACCEPTABLE
  | OBEX_HTTP_PRECON_FAILED
  deriving DecidableEq, Repr

/-- What a query comes back with. -/
inductive Query
  | throws
  | null
  | empty
  | found
  deriving DecidableEq, Repr

/-- What is known of the messages. -/
structure Provider where
  /-- `content://sms/`, for an `_id`. -/
  sms : ℤ → Query
  /-- `content://sms/` with an id behind it. -/
  smsUri : ℤ → Query
  /-- `content://mms/part`, for a `mid`. -/
  part : ℤ → Query
  /-- `content://mms/`, for an `_id`. -/
  mms : ℤ → Query
  /-- `content://mms/`, for nothing in particular. -/
  allMms : Query
  /-- The table of the e-mails, for an `_id`. -/
  message : ℤ → Query
  /-- The table of their bodies, for a `messageKey`. -/
  body : ℤ → Query
  /-- `EmailUtils.getAccountId(mMasId)`. -/
  accountId : ℤ

/-- What becomes of a request. -/
inductive Outcome
  | threw
  /-- No message has been read or changed. -/
  | answered (rsp : Response)
  /-- A message has been read or changed, or something else has been asked to change it. -/
  | touched
  deriving DecidableEq, Repr

/-! ### The code of both applications -/

/-- `msg` of `BluetoothMasAppIf`. -/
def msg (masId : ℕ) (getMessageSpecific : ℤ → Outcome) (msgHandle : Option JString) : Outcome :=
  match msgHandle with
  | none | some [] => .answered .OBEX_HTTP_BAD_REQUEST
  | some s =>
    match longValueOf s with
    | .error _ => .threw
    | .ok handle =>
      if handle < offsetStart masId ∧ handle > offsetEnd masId then
        .answered .OBEX_HTTP_NOT_FOUND
      else getMessageSpecific handle

/-- The fields of the request that `msgStatus` looks at. -/
structure Status where
  indicator : ℤ
  value : ℤ
  deriving DecidableEq, Repr

/-- Both fields are 0 or 1. -/
def Status.Valid (status : Status) : Prop :=
  (status.indicator = 0 ∨ status.indicator = 1) ∧ (status.value = 0 ∨ status.value = 1)

/-- `msgStatus`, up to the function that sets the status. -/
def msgStatus (masId : ℕ) (setMsgStatus : ℤ → Outcome) (status : Status) (msgHandle : JString) :
    Outcome :=
  if status.indicator ≠ 0 ∧ status.indicator ≠ 1 then .answered .OBEX_HTTP_PRECON_FAILED
  else if status.value ≠ 0 ∧ status.value ≠ 1 then .answered .OBEX_HTTP_PRECON_FAILED
  else
    match longValueOf msgHandle with
    | .error _ => .threw
    | .ok handle =>
      if handle < offsetStart masId ∧ handle > offsetEnd masId then
        .answered .OBEX_HTTP_NOT_FOUND
      else setMsgStatus handle

/-! ### SMS and MMS -/

namespace SmsMms

variable (P : Provider) (masId : ℕ)

/-- `getMessageSms`. -/
def getMessageSms (msgHandle : ℤ) : Outcome :=
  match P.sms (toLong (msgHandle - offsetStart masId)) with
  | .throws | .null => .answered .OBEX_HTTP_BAD_REQUEST
  | .empty => .answered .OBEX_HTTP_OK
  | .found => .touched

/-- `getMmsMsgHndToID`; `none` if the query throws. -/
def getMmsMsgHndToID (msgHandle : ℤ) : Option ℤ :=
  match P.part (toLong (msgHandle - mmsOffsetStart masId)) with
  | .throws => none
  | .null | .empty => some (-1)
  | .found => some (toLong (msgHandle - mmsOffsetStart masId))

/-- `bldMmsBmsg`. -/
def bldMmsBmsg (msgID : ℤ) : Outcome :=
  match P.mms msgID with
  | .throws => .threw
  | .null => .answered .OBEX_HTTP_NOT_ACCEPTABLE
  | .empty => .answered .OBEX_HTTP_OK
  | .found => .touched

/-- `getMessageMms`. -/
def getMessageMms (msgHandle : ℤ) : Outcome :=
  match getMmsMsgHndToID P masId msgHandle with
  | none => .answered .OBEX_HTTP_BAD_REQUEST
  | some mmsMsgID =>
    if mmsMsgID > 0 then bldMmsBmsg P mmsMsgID else .answered .OBEX_HTTP_OK

/-- `getMessageSpecific`. -/
def getMessageSpecific (charset msgHandle : ℤ) : Outcome :=
  if msgHandle ≥ mmsOffsetStart masId then
    if charset = 0 then .answered .OBEX_HTTP_BAD_REQUEST else getMessageMms P masId msgHandle
  else getMessageSms P masId msgHandle

/-- `setMsgStatusSms`. -/
def setMsgStatusSms (msgHandle : ℤ) : Outcome :=
  match P.smsUri (toLong (msgHandle - offsetStart masId)) with
  | .throws => .threw
  | .null | .empty => .answered .OBEX_HTTP_OK
  | .found => .touched

/-- `setMsgStatusMms`. -/
def setMsgStatusMms (msgHandle : ℤ) : Outcome :=
  match getMmsMsgHndToID P masId msgHandle with
  | none => .threw
  | some handle =>
    if handle > 0 then
      match P.allMms with
      | .throws => .threw
      | .null | .empty => .answered .OBEX_HTTP_OK
      | .found => .touched
    else .answered .OBEX_HTTP_OK

/-- The function that `msgStatus` calls. -/
def setMsgStatus (handle : ℤ) : Outcome :=
  if handle ≥ mmsOffsetStart masId then setMsgStatusMms P masId handle
  else setMsgStatusSms P masId handle

def msg (charset : ℤ) (msgHandle : Option JString) : Outcome :=
  Foreign.msg masId (getMessageSpecific P masId charset) msgHandle

def msgStatus (status : Status) (msgHandle : JString) : Outcome :=
  Foreign.msgStatus masId (setMsgStatus P masId) status msgHandle

end SmsMms

/-! ### E-mail -/

namespace Email

variable (P : Provider) (masId : ℕ)

/-- `bldEmailBmsg`: without a row of the message there is no date, and what is thrown then is not
caught. -/
def bldEmailBmsg (emailMsgID : ℤ) : Outcome :=
  match P.message emailMsgID with
  | .throws => .threw
  | .found => .touched
  | .null | .empty =>
    match P.body emailMsgID with
    | .throws | .empty => .threw
    | .null => .answered .OBEX_HTTP_OK
    | .found => .touched

/-- `getMessageSpecific`. -/
def getMessageSpecific (charset msgHandle : ℤ) : Outcome :=
  if charset = 0 then .answered .OBEX_HTTP_BAD_REQUEST
  else bldEmailBmsg P (toLong (msgHandle - offsetStart masId))

/-- `setMsgStatusEmail`. -/
def setMsgStatusEmail (handle : ℤ) : Outcome :=
  let emailMsgId := toLong (handle - offsetStart masId)
  if P.accountId ≤ -1 ∨ emailMsgId ≤ -1 then .answered .OBEX_HTTP_BAD_REQUEST else .touched

def msg (charset : ℤ) (msgHandle : Option JString) : Outcome :=
  Foreign.msg masId (getMessageSpecific P masId charset) msgHandle

def msgStatus (status : Status) (msgHandle : JString) : Outcome :=
  Foreign.msgStatus masId (setMsgStatusEmail P masId) status msgHandle

end Email

/-! ### Refusals -/

/-- An error response, without an exception and without touching a message. -/
def Refused (o : Outcome) : Prop := ∃ rsp, o = .answered rsp ∧ rsp ≠ .OBEX_HTTP_OK

/-- The text is not a number of the instance: not a number at all, or out of its range. -/
def NotOwn (masId : ℕ) (h : JString) : Prop :=
  ∀ n, longValueOf h = .ok n → n < offsetStart masId ∨ offsetEnd masId < n

section Refused

variable {P : Provider} {masId : ℕ} {h : JString} {n charset : ℤ} {status : Status}

theorem refused_answered {rsp : Response} :
    Refused (.answered rsp) ↔ rsp ≠ .OBEX_HTTP_OK := by
  constructor
  · rintro ⟨_, ⟨⟩, hne⟩
    exact hne
  · exact fun hne => ⟨rsp, rfl, hne⟩

theorem not_refused_threw : ¬ Refused .threw := nofun

theorem not_refused_touched : ¬ Refused .touched := nofun

/-- The ranges of the instances. -/
theorem offset_bounds (hmas : masId < 12) :
    0 ≤ offsetStart masId ∧ offsetStart masId ≤ offsetEnd masId ∧
      offsetEnd masId ≤ 2 ^ 63 - 2 := by
  have hall : ∀ masId < 12, 0 ≤ offsetStart masId ∧ offsetStart masId ≤ offsetEnd masId ∧
      offsetEnd masId ≤ 2 ^ 63 - 2 := by decide
  exact hall masId hmas

/-- **The test lets every number through.** -/
theorem inRange (hmas : masId < 12) (n : ℤ) : ¬ (n < offsetStart masId ∧ n > offsetEnd masId) := by
  have hbounds := offset_bounds hmas
  omega

theorem long_bounds (hn : longValueOf h = .ok n) : -2 ^ 63 ≤ n ∧ n ≤ 2 ^ 63 - 1 := by
  rw [longValueOf] at hn
  dsimp only at hn
  split at hn
  · cases hn
  · cases hn
  · split_ifs at hn with hneg hrange hrange
    · exact Except.ok.inj hn ▸ hrange
    · exact Except.ok.inj hn ▸ hrange

theorem toLong_eq (hlo : -2 ^ 63 ≤ n) (hhi : n ≤ 2 ^ 63 - 1) : toLong n = n :=
  Int.bmod_eq_of_le (by omega) (by omega)

/-- `msg` refuses the empty text, and what the code behind it refuses. -/
theorem refused_msg_iff (hmas : masId < 12) (f : ℤ → Outcome) :
    Refused (msg masId f (some h)) ↔ h = [] ∨ ∃ n, longValueOf h = .ok n ∧ Refused (f n) := by
  cases h with
  | nil => exact iff_of_true (refused_answered.2 nofun) (.inl rfl)
  | cons c s =>
    have hmsg : msg masId f (some (c :: s)) =
        match longValueOf (c :: s) with
        | .error _ => .threw
        | .ok handle =>
          if handle < offsetStart masId ∧ handle > offsetEnd masId then
            .answered .OBEX_HTTP_NOT_FOUND
          else f handle := rfl
    rw [hmsg, or_iff_right (List.cons_ne_nil c s)]
    cases hn : longValueOf (c :: s) with
    | error e =>
      refine iff_of_false not_refused_threw ?_
      rintro ⟨n, ⟨⟩, -⟩
    | ok n =>
      dsimp only
      rw [if_neg (inRange hmas n)]
      constructor
      · exact fun hf => ⟨n, rfl, hf⟩
      · rintro ⟨_, ⟨⟩, hf⟩
        exact hf

/-- `msgStatus` refuses a status that is not valid, and what the code behind it refuses. -/
theorem refused_msgStatus_iff (hmas : masId < 12) (f : ℤ → Outcome) :
    Refused (msgStatus masId f status h) ↔
      ¬ status.Valid ∨ ∃ n, longValueOf h = .ok n ∧ Refused (f n) := by
  rw [msgStatus]
  split_ifs with hindicator hvalue
  · refine iff_of_true (refused_answered.2 nofun) (.inl fun hvalid => ?_)
    exact hvalid.1.elim hindicator.1 hindicator.2
  · refine iff_of_true (refused_answered.2 nofun) (.inl fun hvalid => ?_)
    exact hvalid.2.elim hvalue.1 hvalue.2
  · have hvalid : status.Valid := by
      rw [Status.Valid]
      omega
    rw [or_iff_right (not_not.2 hvalid)]
    cases hn : longValueOf h with
    | error e =>
      refine iff_of_false not_refused_threw ?_
      rintro ⟨n, ⟨⟩, -⟩
    | ok n =>
      dsimp only
      rw [if_neg (inRange hmas n)]
      constructor
      · exact fun hf => ⟨n, rfl, hf⟩
      · rintro ⟨_, ⟨⟩, hf⟩
        exact hf

end Refused

/-! ### SMS and MMS -/

section SmsMms

variable {P : Provider} {masId : ℕ} {n charset : ℤ}

/-- The table of the SMS does not answer. -/
theorem refused_getMessageSms :
    Refused (SmsMms.getMessageSms P masId n) ↔
      P.sms (toLong (n - offsetStart masId)) = .throws ∨
        P.sms (toLong (n - offsetStart masId)) = .null := by
  rw [SmsMms.getMessageSms]
  cases P.sms (toLong (n - offsetStart masId)) with
  | throws => exact iff_of_true (refused_answered.2 nofun) (.inl rfl)
  | null => exact iff_of_true (refused_answered.2 nofun) (.inr rfl)
  | empty => exact iff_of_false (fun h => refused_answered.1 h rfl) (by simp)
  | found => exact iff_of_false not_refused_touched (by simp)

theorem refused_bldMmsBmsg : Refused (SmsMms.bldMmsBmsg P n) ↔ P.mms n = .null := by
  rw [SmsMms.bldMmsBmsg]
  cases P.mms n with
  | throws => exact iff_of_false not_refused_threw nofun
  | null => exact iff_of_true (refused_answered.2 nofun) rfl
  | empty => exact iff_of_false (fun h => refused_answered.1 h rfl) nofun
  | found => exact iff_of_false not_refused_touched nofun

/-- The table of the parts throws an exception, or there is a part and the table of the MMS does not
answer. -/
theorem refused_getMessageMms (hpos : 0 < toLong (n - mmsOffsetStart masId)) :
    Refused (SmsMms.getMessageMms P masId n) ↔
      P.part (toLong (n - mmsOffsetStart masId)) = .throws ∨
        (P.part (toLong (n - mmsOffsetStart masId)) = .found ∧
          P.mms (toLong (n - mmsOffsetStart masId)) = .null) := by
  rw [SmsMms.getMessageMms, SmsMms.getMmsMsgHndToID]
  have hnone : ¬ Refused (if (-1 : ℤ) > 0 then SmsMms.bldMmsBmsg P (-1)
      else .answered .OBEX_HTTP_OK) := by
    rw [if_neg (by decide)]
    exact fun h => refused_answered.1 h rfl
  cases P.part (toLong (n - mmsOffsetStart masId)) with
  | throws => exact iff_of_true (refused_answered.2 nofun) (.inl rfl)
  | null => exact iff_of_false hnone (by simp)
  | empty => exact iff_of_false hnone (by simp)
  | found =>
    dsimp only
    rw [if_pos hpos, refused_bldMmsBmsg]
    simp

/-- Setting a status is never refused. -/
theorem not_refused_setMsgStatus : ¬ Refused (SmsMms.setMsgStatus P masId n) := by
  have hok : ¬ Refused (.answered .OBEX_HTTP_OK) := fun h => refused_answered.1 h rfl
  rw [SmsMms.setMsgStatus]
  split_ifs
  · rw [SmsMms.setMsgStatusMms]
    cases SmsMms.getMmsMsgHndToID P masId n with
    | none => exact not_refused_threw
    | some handle =>
      dsimp only
      split_ifs
      · cases P.allMms with
        | throws => exact not_refused_threw
        | null => exact hok
        | empty => exact hok
        | found => exact not_refused_touched
      · exact hok
  · rw [SmsMms.setMsgStatusSms]
    cases P.smsUri (toLong (n - offsetStart masId)) with
    | throws => exact not_refused_threw
    | null => exact hok
    | empty => exact hok
    | found => exact not_refused_touched

end SmsMms

/-! ### E-mail -/

section Email

variable {P : Provider} {masId : ℕ} {n charset : ℤ}

theorem not_refused_bldEmailBmsg (id : ℤ) : ¬ Refused (Email.bldEmailBmsg P id) := by
  have hok : ¬ Refused (.answered .OBEX_HTTP_OK) := fun h => refused_answered.1 h rfl
  rw [Email.bldEmailBmsg]
  cases P.message id <;> cases P.body id <;>
    first | exact hok | exact not_refused_threw | exact not_refused_touched

theorem refused_getMessageEmail :
    Refused (Email.getMessageSpecific P masId charset n) ↔ charset = 0 := by
  rw [Email.getMessageSpecific]
  split_ifs with hcharset
  · exact iff_of_true (refused_answered.2 nofun) hcharset
  · exact iff_of_false (not_refused_bldEmailBmsg _) hcharset

theorem refused_setMsgStatusEmail :
    Refused (Email.setMsgStatusEmail P masId n) ↔
      P.accountId ≤ -1 ∨ toLong (n - offsetStart masId) ≤ -1 := by
  unfold Email.setMsgStatusEmail
  dsimp only
  split_ifs with hcond
  · exact iff_of_true (refused_answered.2 nofun) hcond
  · exact iff_of_false not_refused_touched hcond

end Email

/-! ### Which handles are refused -/

section NotOwn

variable {masId : ℕ} {n : ℤ}

/-- A number beyond the range is taken for one of an MMS. -/
theorem mms_of_beyond (hmas : masId < 12) (hn : n ≤ 2 ^ 63 - 1) (h : offsetEnd masId < n) :
    mmsOffsetStart masId ≤ n ∧
      toLong (n - mmsOffsetStart masId) = n - mmsOffsetStart masId ∧
      0 < n - mmsOffsetStart masId := by
  obtain ⟨h1, h2, h3⟩ := offset_bounds hmas
  have hstart : mmsOffsetStart masId =
    offsetStart masId + (offsetEnd masId - offsetStart masId) / 2 := rfl
  exact ⟨by omega, toLong_eq (by omega) (by omega), by omega⟩

theorem sms_of_before (hmas : masId < 12) (h : n < offsetStart masId) :
    n < mmsOffsetStart masId := by
  obtain ⟨h1, h2, h3⟩ := offset_bounds hmas
  have hstart : mmsOffsetStart masId =
    offsetStart masId + (offsetEnd masId - offsetStart masId) / 2 := rfl
  omega

/-- The difference to the offset is negative, unless it is too large for a `long`. -/
theorem toLong_sub_iff (hmas : masId < 12) (hlo : -2 ^ 63 ≤ n) (hhi : n ≤ 2 ^ 63 - 1) :
    toLong (n - offsetStart masId) ≤ -1 ↔
      offsetStart masId - 2 ^ 63 ≤ n ∧ n < offsetStart masId := by
  obtain ⟨h1, h2, h3⟩ := offset_bounds hmas
  by_cases hwrap : offsetStart masId - 2 ^ 63 ≤ n
  · rw [toLong_eq (by omega) (by omega), and_iff_right hwrap]
    omega
  · have hmod : toLong (n - offsetStart masId) = n - offsetStart masId + 2 ^ 64 := by
      rw [toLong, ← Int.add_bmod_right]
      exact Int.bmod_eq_of_le (by omega) (by omega)
    rw [hmod]
    omega

end NotOwn

/-- **Which handles are refused** of those that are not the instance's own.  Nothing that is no
number is, but for the empty text; the codes that come back are those of other tests: for the
character set, for the status, for a negative number, and for a table that does not answer. -/
theorem refused_iff {masId : ℕ} (hmas : masId < 12) {h : JString} (hh : NotOwn masId h)
    (P : Provider) (charset : ℤ) (status : Status) :
    (Refused (SmsMms.msg P masId charset (some h)) ↔
      h = [] ∨ ∃ n, longValueOf h = .ok n ∧
        ((offsetEnd masId < n ∧ (charset = 0 ∨
          P.part (n - mmsOffsetStart masId) = .throws ∨
          (P.part (n - mmsOffsetStart masId) = .found ∧
            P.mms (n - mmsOffsetStart masId) = .null))) ∨
        (n < offsetStart masId ∧ (P.sms (toLong (n - offsetStart masId)) = .throws ∨
          P.sms (toLong (n - offsetStart masId)) = .null)))) ∧
    (Refused (SmsMms.msgStatus P masId status h) ↔ ¬ status.Valid) ∧
    (Refused (Email.msg P masId charset (some h)) ↔
      h = [] ∨ charset = 0 ∧ ∃ n, longValueOf h = .ok n) ∧
    (Refused (Email.msgStatus P masId status h) ↔
      ¬ status.Valid ∨ ∃ n, longValueOf h = .ok n ∧ (P.accountId ≤ -1 ∨
        (offsetStart masId - 2 ^ 63 ≤ n ∧ n < offsetStart masId))) := by
  refine ⟨?_, ?_, ?_, ?_⟩
  · rw [SmsMms.msg, refused_msg_iff hmas]
    refine or_congr_right (exists_congr fun n => and_congr_right fun hn => ?_)
    obtain ⟨hlo, hhi⟩ := long_bounds hn
    obtain ⟨h1, h2, h3⟩ := offset_bounds hmas
    rw [SmsMms.getMessageSpecific]
    rcases hh n hn with hbefore | hbeyond
    · have hsms := sms_of_before hmas hbefore
      have hnot : ¬ offsetEnd masId < n := by omega
      rw [if_neg (by omega), refused_getMessageSms, and_iff_right hbefore]
      exact (or_iff_right fun h => hnot h.1).symm
    · obtain ⟨hmms, hid, hpos⟩ := mms_of_beyond hmas hhi hbeyond
      have hnot : ¬ n < offsetStart masId := by omega
      rw [if_pos hmms, and_iff_right hbeyond]
      refine Iff.trans ?_ (or_iff_left fun h => hnot h.1).symm
      split_ifs with hcharset
      · exact iff_of_true (refused_answered.2 nofun) (.inl hcharset)
      · rw [refused_getMessageMms (by omega), hid, or_iff_right hcharset]
  · rw [SmsMms.msgStatus, refused_msgStatus_iff hmas]
    refine or_iff_left ?_
    rintro ⟨n, -, hrefused⟩
    exact not_refused_setMsgStatus hrefused
  · rw [Email.msg, refused_msg_iff hmas]
    refine or_congr_right ?_
    simp only [refused_getMessageEmail]
    constructor
    · rintro ⟨n, hn, hcharset⟩
      exact ⟨hcharset, n, hn⟩
    · rintro ⟨hcharset, n, hn⟩
      exact ⟨n, hn, hcharset⟩
  · rw [Email.msgStatus, refused_msgStatus_iff hmas]
    refine or_congr_right (exists_congr fun n => and_congr_right fun hn => ?_)
    obtain ⟨hlo, hhi⟩ := long_bounds hn
    rw [refused_setMsgStatusEmail, toLong_sub_iff hmas hlo hhi]

/-- A device with all messages. -/
def everything : Provider where
  sms _ := .found
  smsUri _ := .found
  part _ := .found
  mms _ := .found
  allMms := .found
  message _ := .found
  body _ := .found
  accountId := 1

/-- The number behind the range of the first instance is the handle of an MMS there, and that of an
e-mail of the second instance; a text that is no number lets an exception escape. -/
theorem not_refused_beyond :
    NotOwn 0 (js "134217728") ∧ ¬ Refused (SmsMms.msg everything 0 1 (some (js "134217728"))) ∧
    ¬ Refused (SmsMms.msgStatus everything 0 ⟨1, 1⟩ (js "134217728")) ∧
    NotOwn 1 (js "7x") ∧ Email.msg everything 1 1 (some (js "7x")) = .threw ∧
    Email.msgStatus everything 1 ⟨1, 1⟩ (js "7x") = .threw := by
  have hbeyond : longValueOf (js "134217728") = .ok 134217728 := by decide
  have hseven : longValueOf (js "7x") = .error .numberFormat := by decide
  have htouched : SmsMms.msg everything 0 1 (some (js "134217728")) = .touched := by decide
  have hchanged : SmsMms.msgStatus everything 0 ⟨1, 1⟩ (js "134217728") = .touched := by decide
  refine ⟨?_, ?_, ?_, ?_, by decide, by decide⟩
  · intro n hn
    rw [hbeyond] at hn
    obtain rfl := Except.ok.inj hn
    decide
  · rw [htouched]
    exact not_refused_touched
  · rw [hchanged]
    exact not_refused_touched
  · intro n hn
    rw [hseven] at hn
    cases hn

/-- A negative number is refused by `msgStatus` of an instance for e-mails, and by no other. -/
theorem refused_iff_minusOne :
    NotOwn 1 (js "-1") ∧ Refused (Email.msgStatus everything 1 ⟨0, 1⟩ (js "-1")) ∧
    ¬ Refused (SmsMms.msgStatus everything 1 ⟨0, 1⟩ (js "-1")) := by
  have hminus : longValueOf (js "-1") = .ok (-1) := by decide
  have hown : NotOwn 1 (js "-1") := by
    intro n hn
    rw [hminus] at hn
    obtain rfl := Except.ok.inj hn
    decide
  obtain ⟨-, hsms, -, hemail⟩ := refused_iff (by decide) hown everything 1 ⟨0, 1⟩
  refine ⟨hown, hemail.2 (.inr ⟨-1, hminus, .inr (by decide)⟩), fun hrefused => ?_⟩
  exact hsms.1 hrefused ⟨.inl rfl, .inr rfl⟩

end Foreign

end Map

end Msm8909w
