import Msm8909w.Map.AppParamItems

/-!
# Requests of a session

The class `BluetoothMasObexServer` serves the GET and PUT requests of a session one after the other.
Each of them clears the one store of application parameters, parses the parameters of its own header
into it and hands a copy of the store to the application.

* `Reaches` : the stores that the requests of a session leave behind,
* `ends_stored` : what `parse` stores of a well-formed list,
* `independent_iff` : the copy that is handed over depends on the request alone exactly if the
  request itself gives the four fields that `clear` forgets.
-/

namespace Msm8909w

namespace Map

open MasAppParamsStore

/-! ### The requests -/

def TYPE_LISTING : JString := js "x-obex/folder-listing"
def TYPE_MESSAGE_LISTING : JString := js "x-bt/MAP-msg-listing"
def TYPE_MESSAGE : JString := js "x-bt/message"
def TYPE_MESSAGE_STATUS : JString := js "x-bt/messageStatus"
def TYPE_MESSAGE_UPDATE : JString := js "x-bt/MAP-messageUpdate"
def TYPE_MESSAGE_NOTIFICATION : JString := js "x-bt/MAP-NotificationRegistration"

inductive Method
  | get
  | put
  deriving DecidableEq, Repr

/-- The headers that are read from a request. -/
structure Headers where
  type : Option JString
  name : Option JString
  appParams : Option Bytes

/-- A request. -/
structure Request where
  method : Method
  /-- `none` if reading the headers fails. -/
  headers : Option Headers
  /-- The headers of the reply, or the body of the request, get through. -/
  transferred : Bool

/-- A call of the application with parameters of the request. -/
inductive Call
  | folderListing (p : AppParams)
  | msgListing (name : Option JString) (p : AppParams)
  | msg (name : Option JString) (p : AppParams)
  | pushMsg (name : Option JString) (p : AppParams)
  | msgStatus (name : JString) (p : AppParams)
  | notification (p : AppParams)

/-- The parameters of the call. -/
def Call.params : Call → AppParams
  | folderListing p => p
  | msgListing _ p => p
  | msg _ p => p
  | pushMsg _ p => p
  | msgStatus _ p => p
  | notification p => p

/-- `onGetInternal`, behind `parse`. -/
def onGetInternal (h : Headers) (transferred retVal : Bool) (a : AppParams) : Option Call :=
  match h.type, retVal with
  | some type, true =>
    if type = TYPE_LISTING then
      -- `sendFolderListing`
      if a.MaxListCount ≠ 0 ∧ transferred then some (.folderListing (get a)) else none
    else if type = TYPE_MESSAGE_LISTING then some (.msgListing h.name (get a))
    else if type = TYPE_MESSAGE then some (.msg h.name (get a))
    else none
  | _, _ => none

/-- `onPutInternal`, behind `parse`: it does not look at what `parse` returns. -/
def onPutInternal (h : Headers) (transferred : Bool) (a : AppParams) : Option Call :=
  match h.type with
  | some type =>
    if type = TYPE_MESSAGE then
      if transferred then some (.pushMsg h.name (get a)) else none
    else if type = TYPE_MESSAGE_STATUS then
      match h.name with
      | some name => if name.length = 0 then none else some (.msgStatus name (get a))
      | none => none
    else if type = TYPE_MESSAGE_UPDATE then none
    else if type = TYPE_MESSAGE_NOTIFICATION then some (.notification (get a))
    else none
  | none => none

/-- The request takes the store from `a` to `b`, with a call of the application. -/
def Serves (a : AppParams) (r : Request) (b : AppParams) (call : Option Call) : Prop :=
  match r.headers with
  | none => b = a ∧ call = none
  | some h => ∃ retVal, Parses h.appParams (clear a) (.returns retVal b) ∧
      call = match r.method with
        | .get => onGetInternal h r.transferred retVal b
        | .put => onPutInternal h r.transferred b

/-- A new `MasAppParamsStore`. -/
def newStore : AppParams :=
  clear ⟨0, 0, 0, 0, 0, 0, 0, none, none, none, none, 0, 0, 0, 0, 0, 0, 0, 0⟩

/-- The requests leave the store `a` behind.  A request on which `parse` fails with an exception, or
never ends, is the last one of its session. -/
inductive Reaches : List Request → AppParams → Prop
  | start : Reaches [] newStore
  | serve {rs : List Request} {a b : AppParams} {r : Request} {call : Option Call}
      (h : Reaches rs a) (hr : Serves a r b call) : Reaches (rs ++ [r]) b

/-- After any two sequences of requests, the parameters of a new one are the same. -/
def Independent (p : Option Bytes) : Prop :=
  ∀ rs₁ a₁ rs₂ a₂, Reaches rs₁ a₁ → Reaches rs₂ a₂ →
    ∃ r₁ b₁ r₂ b₂, Parses p (clear a₁) (.returns r₁ b₁) ∧ Parses p (clear a₂) (.returns r₂ b₂) ∧
      get b₁ = get b₂

/-- A call carries the parameters after `clear` and `parse`. -/
theorem params_of_serves {a b : AppParams} {r : Request} {call : Call}
    (h : Serves a r b (some call)) :
    call.params = get b := by
  rw [Serves] at h
  split at h
  · cases h.2
  · next hd _ =>
    obtain ⟨retVal, -, hcall⟩ := h
    cases hm : r.method with
    | get =>
      simp only [hm, onGetInternal] at hcall
      split at hcall
      · split_ifs at hcall <;> cases hcall <;> rfl
      · cases hcall
    | put =>
      simp only [hm, onPutInternal] at hcall
      repeat' split at hcall
      all_goals cases hcall <;> rfl

/-! ### The condition -/

/-- A list of different parameters, each of them well encoded and inside its range. -/
def WellFormed (its : List Item) : Prop :=
  (∀ it ∈ its, it.WellEncoded) ∧ (∀ it ∈ its, it.Valid) ∧ (its.map Item.key).Nodup

/-- A notification status without a list count of 0 or 1 before it. -/
def Refused (before : List Item) (it : Item) : Prop :=
  it.key = .inl .NOTIFICATION_STATUS ∧ ¬ SmallCount before

/-- Some item is a list count of 0 or 1. -/
def smallCount (its : List Item) : Bool :=
  its.any fun
    | .int .MAX_LIST_COUNT _ value => ofBE value ≤ 1
    | _ => false

theorem smallCount_iff {its : List Item} : smallCount its = true ↔ SmallCount its := by
  rw [smallCount, List.any_eq_true]
  constructor
  · rintro ⟨it, hit, h⟩
    split at h
    · next len value => exact ⟨len, value, hit, of_decide_eq_true h⟩
    · cases h
  · rintro ⟨len, value, hit, h⟩
    exact ⟨_, hit, decide_eq_true h⟩

instance (its : List Item) : Decidable (SmallCount its) := decidable_of_iff _ smallCount_iff

instance (before : List Item) (it : Item) : Decidable (Refused before it) :=
  inferInstanceAs (Decidable (_ ∧ _))

instance (its : List Item) : Decidable (WellFormed its) := inferInstanceAs (Decidable (_ ∧ _ ∧ _))

/-- What `parse` stores: the items up to the first one that it refuses, and that one. -/
def stored : List Item → List Item → List Item
  | _, [] => []
  | before, it :: its => it :: if Refused before it then [] else stored (before ++ [it]) its

/-- The fields that `clear` leaves as they are. -/
def keptTags : List IntTag := [.ATTACHMENT, .STATUS_INDICATOR, .STATUS_VALUE, .NOTIFICATION_STATUS]

/-- The request gives these fields itself. -/
def Covers (its : List Item) : Prop := ∀ t ∈ keptTags, ∃ it ∈ stored [] its, it.key = .inl t

instance (its : List Item) : Decidable (Covers its) :=
  inferInstanceAs (Decidable (∀ t ∈ keptTags, ∃ it ∈ stored [] its, it.key = .inl t))

/-! ### What is stored -/

section

variable {its before : List Item} {it : Item} {a b : AppParams}

/-- The turn of the loop for an item that is refused: it is stored all the same. -/
theorem parseTurn_refused (pre x : Bytes) (hw : it.WellEncoded) (hv : it.Valid)
    (href : Refused before it)
    (hcount : (0 ≤ a.MaxListCount ∧ a.MaxListCount ≤ 1) ↔ SmallCount before) :
    parseTurn (pre ++ (it.encode ++ x)) (pre.length, a) = .inr (.returns false (store a it)) := by
  obtain ⟨hkey, hno⟩ := href
  cases it with
  | text t chars => cases hkey
  | int t len value =>
    obtain rfl : t = .NOTIFICATION_STATUS := Sum.inl.inj hkey
    have hvalue := (hw hv.1).1
    have htake : (value ++ x).take IntTag.NOTIFICATION_STATUS.LEN = value := List.take_left' hvalue
    have hlet : ¬ LetThrough before (.int .NOTIFICATION_STATUS len value) := fun h => hno h.2
    have hchk := mt (checked_iff (a := a) hw hv.1 hcount).1 hlet
    rw [parseTurn_int, if_pos (by omega), htake]
    exact if_neg fun h => hchk h.2

/-- `parse` of a well-formed list ends, and this is what is in the store then. -/
theorem ends_stored (pre : Bytes) (before : List Item) (hw : ∀ it ∈ its, it.WellEncoded)
    (hv : ∀ it ∈ its, it.Valid) (hnd : ((before ++ its).map Item.key).Nodup)
    (hcount : (0 ≤ a.MaxListCount ∧ a.MaxListCount ≤ 1) ↔ SmallCount before) :
    ∃ r, Ends (parseTurn (pre ++ encodeItems its)) (pre.length, a)
      (.returns r ((stored before its).foldl store a)) := by
  induction its generalizing before pre a with
  | nil =>
    refine ⟨true, .stop ?_⟩
    have hend : ¬ ((pre.length : ℤ) < (pre ++ encodeItems []).length) := by
      simp [encodeItems]
    simp only [parseTurn, if_neg hend, stored, List.foldl_nil]
  | cons it its ih =>
    obtain ⟨hwi, hw⟩ := List.forall_mem_cons.1 hw
    obtain ⟨hvi, hv⟩ := List.forall_mem_cons.1 hv
    have henc : encodeItems (it :: its) = it.encode ++ encodeItems its := List.flatMap_cons ..
    rw [henc, stored]
    by_cases href : Refused before it
    · rw [if_pos href]
      exact ⟨false, .stop (parseTurn_refused pre _ hwi hvi href hcount)⟩
    · have hlet : LetThrough before it := by
        refine letThrough_of_valid hwi hvi ?_
        rintro len value rfl
        by_contra hno
        exact href ⟨rfl, hno⟩
      have hturn := parseTurn_through pre (encodeItems its) hwi hlet hcount
      have hnew : it.key ∉ before.map Item.key := by
        rw [List.map_append, List.map_cons] at hnd
        exact fun h => (List.nodup_append.1 hnd).2.2 _ h _ List.mem_cons_self rfl
      have hnd' : ((before ++ [it] ++ its).map Item.key).Nodup := by
        rwa [List.append_assoc, List.singleton_append]
      obtain ⟨r, hr⟩ := ih (pre ++ it.encode) (before ++ [it]) hw hv hnd'
        (count_store hwi hlet hnew hcount)
      rw [List.append_assoc] at hr
      rw [if_neg href]
      exact ⟨r, .goOn hturn hr⟩

theorem stored_prefix (before its : List Item) : stored before its <+: its := by
  induction its generalizing before with
  | nil => exact List.nil_prefix
  | cons it its ih =>
    rw [stored]
    split_ifs
    · exact List.cons_prefix_cons.2 ⟨rfl, List.nil_prefix⟩
    · exact List.cons_prefix_cons.2 ⟨rfl, ih _⟩

theorem WellFormed.stored (h : WellFormed its) : WellFormed (stored [] its) := by
  have hp := stored_prefix [] its
  exact ⟨fun it hit => h.1 it (hp.subset hit), fun it hit => h.2.1 it (hp.subset hit),
    h.2.2.sublist (hp.sublist.map _)⟩

/-- What `parse` of a well-formed list stores after `clear`. -/
theorem parses_stored (h : WellFormed its) (a : AppParams) :
    ∃ r, Parses (some (encodeItems its)) (clear a)
      (.returns r ((stored [] its).foldl store (clear a))) :=
  ends_stored [] [] h.1 h.2.1 h.2.2 (smallCount_clear a)

end

/-! ### Independence -/

section

variable {its : List Item} {a b a' b' : AppParams}

theorem params_ext (hint : ∀ t : IntTag, t.field a = t.field b)
    (htext : ∀ t : TextTag, t.field a = t.field b) : a = b := by
  have h1 := hint .MAX_LIST_COUNT
  have h2 := hint .LIST_START_OFFSET
  have h3 := hint .FILTER_MESSAGE_TYPE
  have h4 := hint .FILTER_READ_STATUS
  have h5 := hint .FILTER_PRIORITY
  have h6 := hint .ATTACHMENT
  have h7 := hint .TRANSPARENT
  have h8 := hint .RETRY
  have h9 := hint .NOTIFICATION_STATUS
  have h10 := hint .PARAMETER_MASK
  have h11 := hint .SUBJECT_LENGTH
  have h12 := hint .CHARSET
  have h13 := hint .FRACTION_REQUEST
  have h14 := hint .STATUS_INDICATOR
  have h15 := hint .STATUS_VALUE
  have t1 := htext .FILTER_PERIOD_BEGIN
  have t2 := htext .FILTER_PERIOD_END
  have t3 := htext .FILTER_RECIPIENT
  have t4 := htext .FILTER_ORIGINATOR
  cases a
  cases b
  simp_all [IntTag.field, TextTag.field]

/-- `clear` resets every other field. -/
theorem field_clear {t : IntTag} (ht : t ∉ keptTags) (a b : AppParams) :
    t.field (clear a) = t.field (clear b) := by
  cases t <;> first | rfl | exact absurd (by decide) ht

theorem textField_clear (t : TextTag) (a b : AppParams) :
    t.field (clear a) = t.field (clear b) := by
  cases t <;> rfl

theorem field_clear_kept {t : IntTag} (ht : t ∈ keptTags) (a : AppParams) :
    t.field (clear a) = t.field a := by
  cases t <;> first | rfl | exact absurd ht (by decide)

theorem intValue_isSome {t : IntTag} (h : ∃ it ∈ its, it.key = .inl t) :
    ∃ v, intValue its t = some v := by
  obtain ⟨it, hit, hkey⟩ := h
  rw [← Option.isSome_iff_exists, intValue, List.findSome?_isSome_iff]
  refine ⟨it, hit, ?_⟩
  cases it with
  | int t' len value =>
    obtain rfl := Sum.inl.inj hkey
    simp
  | text t' chars => cases hkey

/-- What is stored of a list that gives the kept fields does not depend on the store. -/
theorem foldl_store_clear (h : WellFormed its)
    (hcov : ∀ t ∈ keptTags, ∃ it ∈ its, it.key = .inl t) (a b : AppParams) :
    its.foldl store (clear a) = its.foldl store (clear b) := by
  refine params_ext (fun t => ?_) (fun t => ?_)
  · rw [field_foldl h.1 h.2.1 h.2.2, field_foldl h.1 h.2.1 h.2.2]
    by_cases ht : t ∈ keptTags
    · obtain ⟨v, hv⟩ := intValue_isSome (hcov t ht)
      rw [hv]
      rfl
    · rw [field_clear ht a b]
  · rw [textField_foldl h.2.2, textField_foldl h.2.2, textField_clear t a b]

/-- A request with one byte. -/
def setOne (t : IntTag) : Request :=
  ⟨.put, some ⟨none, none, some (encodeItems [.int t 1 [1]])⟩, true⟩

/-- A kept field can have two values. -/
theorem exists_reaches {t : IntTag} (ht : t ∈ keptTags) :
    ∃ a, Reaches [setOne t] a ∧ t.field a = 1 ∧ t.field newStore = 0 := by
  have hone : ∀ t ∈ keptTags, WellFormed [.int t 1 [1]] ∧ t.field newStore = 0 ∧
      t.field ((stored [] [.int t 1 [1]]).foldl store (clear newStore)) = 1 := by decide
  obtain ⟨hwf, hzero, hone⟩ := hone t ht
  obtain ⟨r, hr⟩ := parses_stored hwf newStore
  exact ⟨_, .serve .start ⟨r, hr, rfl⟩, hone, hzero⟩

/-- **Parameters do not leak** exactly if the request gives the fields that are not cleared. -/
theorem independent_iff {its : Option (List Item)} (h : ∀ l ∈ its, WellFormed l) :
    Independent (its.map encodeItems) ↔ ∃ l ∈ its, Covers l := by
  constructor
  · intro hind
    by_contra hno
    -- some kept field keeps what is in the store
    have hfield : ∃ t ∈ keptTags, ∀ a r b,
        Parses (its.map encodeItems) (clear a) (.returns r b) → t.field b = t.field a := by
      cases its with
      | none =>
        refine ⟨.ATTACHMENT, by decide, ?_⟩
        intro a r b hb
        cases hb
        rfl
      | some l =>
        have hl := h l rfl
        have hcov : ¬ Covers l := fun hc => hno ⟨l, rfl, hc⟩
        rw [Covers] at hcov
        push Not at hcov
        obtain ⟨t, ht, hmem⟩ := hcov
        refine ⟨t, ht, ?_⟩
        intro a r b hb
        obtain ⟨r', hr'⟩ := parses_stored hl a
        cases Ends.unique hr' hb
        have hs := hl.stored
        have hnone : .inl t ∉ (stored [] l).map Item.key := fun hm => by
          obtain ⟨it, hit, hkey⟩ := List.mem_map.1 hm
          exact hmem it hit hkey
        rw [field_foldl hs.1 hs.2.1 hs.2.2, intValue_eq_none hnone, field_clear_kept ht]
        rfl
    obtain ⟨t, ht, hkeep⟩ := hfield
    obtain ⟨a, ha, hone, hzero⟩ := exists_reaches ht
    obtain ⟨r₁, b₁, r₂, b₂, h₁, h₂, heq⟩ := hind [] newStore [setOne t] a .start ha
    have hb₁ := (hkeep _ _ _ h₁).trans hzero
    have hb₂ := (hkeep _ _ _ h₂).trans hone
    have heq : b₁ = b₂ := heq
    rw [heq, hb₂] at hb₁
    exact absurd hb₁ one_ne_zero
  · rintro ⟨l, rfl, hcov⟩
    intro rs₁ a₁ rs₂ a₂ _ _
    have hl := h l rfl
    obtain ⟨r₁, h₁⟩ := parses_stored hl a₁
    obtain ⟨r₂, h₂⟩ := parses_stored hl a₂
    exact ⟨r₁, _, r₂, _, h₁, h₂, by rw [foldl_store_clear hl.stored hcov a₁ a₂]⟩

/-- A request that gives all of the kept fields, behind a list count of 1. -/
def sampleRequest : List Item :=
  [.int .MAX_LIST_COUNT 2 [0, 1], .int .ATTACHMENT 1 [1], .int .STATUS_INDICATOR 1 [1],
    .int .STATUS_VALUE 1 [0], .int .NOTIFICATION_STATUS 1 [1]]

theorem independent_sampleRequest :
    WellFormed sampleRequest ∧ Independent (some (encodeItems sampleRequest)) := by
  have hwf : WellFormed sampleRequest := by decide
  refine ⟨hwf, (@independent_iff (some sampleRequest) ?_).2 ⟨_, rfl, by decide⟩⟩
  rintro l ⟨⟩
  exact hwf

/-- Deletes the message 12. -/
def deleteRequest : Request :=
  ⟨.put, some ⟨some TYPE_MESSAGE_STATUS, some (js "12"),
    some (encodeItems [.int .STATUS_INDICATOR 1 [1], .int .STATUS_VALUE 1 [1]])⟩, true⟩

/-- Sets the status of the message 13, without parameters. -/
def bareRequest : Request := ⟨.put, some ⟨some TYPE_MESSAGE_STATUS, some (js "13"), none⟩, true⟩

/-- **A stale status.**  Without parameters a status request marks a message as not read; after a
request that has deleted another message it deletes the message. -/
theorem stale_status : ¬ Independent none ∧
    (∃ b p, Serves newStore bareRequest b (some (.msgStatus (js "13") p)) ∧
      p.StatusIndicator = 0 ∧ p.StatusValue = 0) ∧
    ∃ a, Reaches [deleteRequest] a ∧
      ∃ b p, Serves a bareRequest b (some (.msgStatus (js "13") p)) ∧
        p.StatusIndicator = 1 ∧ p.StatusValue = 1 := by
  have hwf : WellFormed [.int .STATUS_INDICATOR 1 [1], .int .STATUS_VALUE 1 [1]] := by decide
  obtain ⟨r, hr⟩ := parses_stored hwf newStore
  have hreach : Reaches [deleteRequest] _ := .serve .start ⟨r, hr, rfl⟩
  have hcall (a : AppParams) : Serves a bareRequest (clear a)
      (some (.msgStatus (js "13") (get (clear a)))) := by
    have htype : ¬ TYPE_MESSAGE_STATUS = TYPE_MESSAGE := by decide
    have hname : ¬ (js "13").length = 0 := by decide
    refine ⟨true, rfl, ?_⟩
    simp only [bareRequest, onPutInternal, if_neg htype, if_true, if_neg hname]
  refine ⟨?_, ⟨_, _, hcall newStore, rfl, rfl⟩, _, hreach, _, _, hcall _, by decide, by decide⟩
  intro hind
  obtain ⟨r₁, b₁, r₂, b₂, h₁, h₂, heq⟩ := hind _ _ _ _ .start hreach
  cases h₁
  cases h₂
  exact absurd (congrArg AppParams.StatusValue heq) (by decide)

end

end Map

end Msm8909w
