import Msm8909w.Lib.Quoting
import Msm8909w.Map.AppParamItems
import Msm8909w.Map.BmessageReaders
import Msm8909w.Map.EmailAccounts
import Msm8909w.Map.MasAppParams
import Msm8909w.Map.MmsPush

/-!
# The condition of a listing of emails

`EmailUtils.java` builds the condition for a listing of emails from texts: the mailbox, and the
filters of the request.  The name of the folder is escaped, the filters are not.

* `getWhereIsQueryForTypeEmail`, `getConditionString` : the code,
* `sql` : how the condition is read,
* `outline_folderQuery` : the name of a folder stays in its quotes,
* `staysInQuotes_iff` : the filters stay in theirs exactly if their quotes come in pairs.

The provider of the emails is outside, and so are the upper case of a text and the parser for times.
-/

namespace Msm8909w

namespace Map

namespace EmailCondition

open Lexis

/-! ### The code -/

/-- What is outside. -/
structure Env where
  table : EmailAccounts.MapTable
  /-- The `_id`s of the mailboxes that a condition selects; `none` without a cursor. -/
  mailboxes : JString → Option (List ℤ)
  /-- `s.toUpperCase()`. -/
  toUpperCase : JString → JString
  /-- `time.parse(s)` and `time.toMillis(false)`; `none` for a `TimeFormatException`. -/
  parseTime : JString → Option ℤ

section Code

variable (env : Env) (masId : ℤ)

/-- `folder.replace("'", "''")`. -/
def escaped (folder : JString) : JString :=
  if 39 ∈ folder then folder.flatMap fun c => if c = 39 then [c, c] else [c] else folder

/-- The condition for the mailbox itself. -/
def folderQuery (folder : JString) : JString :=
  js "(accountKey=" ++ decimal (env.table.getAccountId masId) ++
    js ") AND (UPPER(displayName) = '" ++ env.toUpperCase (escaped folder) ++ js "')"

/-- `getWhereIsQueryForTypeEmail`. -/
def getWhereIsQueryForTypeEmail (folder : Option JString) : JString :=
  match folder with
  | none => js "mailboxKey = -1"
  | some folder =>
    match env.mailboxes (folderQuery env masId folder) with
    | some (folderId :: _) => js "mailboxKey = " ++ decimal folderId
    | _ => js "mailboxKey = -1"

/-- A condition is added. -/
def andAlso (whereClauseEmail condition : JString) : JString :=
  (if whereClauseEmail.length ≠ 0 then whereClauseEmail ++ js " AND " else whereClauseEmail) ++
    condition

/-- The filter for read and unread messages. -/
def withReadStatus (a : AppParams) (whereClauseEmail : JString) : JString :=
  if a.FilterReadStatus ≠ 0 then
    let whereClauseEmail :=
      if a.FilterReadStatus % 2 ≠ 0 then andAlso whereClauseEmail (js " flagRead = 0 ")
      else whereClauseEmail
    if a.FilterReadStatus / 2 % 2 ≠ 0 then andAlso whereClauseEmail (js " flagRead = 1 ")
    else whereClauseEmail
  else whereClauseEmail

/-- There is a filter, and it is not `*` alone. -/
def isUsed (filter : JString) : Bool := 0 < filter.length ∧ ¬ equalsIgnoreCase filter (js "*")

/-- `filter.replace('*', '%')`. -/
def replaceStars (filter : JString) : JString :=
  if 42 ∈ filter then filter.map fun c => if c = 42 then 37 else c else filter

/-- The filter for a recipient or an originator.  It is replaced in the parameters too. -/
def withFilter (column : JString) (filter : Option JString) (whereClauseEmail : JString) :
    JString × Option JString :=
  match filter with
  | some text =>
    if isUsed text then
      (andAlso whereClauseEmail (column ++ (js "'%" ++ (trim (replaceStars text) ++ js "%'"))),
        some (replaceStars text))
    else (whereClauseEmail, filter)
  | none => (whereClauseEmail, none)

/-- The filter for one end of the period. -/
def withPeriod (comparison : JString) (period : Option JString) (whereClauseEmail : JString) :
    JString :=
  match period with
  | some text =>
    if text.length ≠ 0 then
      match env.parseTime (trim text) with
      | some time => andAlso whereClauseEmail (comparison ++ decimal time)
      | none => whereClauseEmail
    else whereClauseEmail
  | none => whereClauseEmail

/-- `getConditionString`: the condition, and the parameters as they are then. -/
def getConditionString (folderName : Option JString) (a : AppParams) : JString × AppParams :=
  let whereClauseEmail := getWhereIsQueryForTypeEmail env masId folderName
  let whereClauseEmail := withReadStatus a whereClauseEmail
  let (whereClauseEmail, recipient) :=
    withFilter (js " toList LIKE ") a.FilterRecipient whereClauseEmail
  let (whereClauseEmail, originator) :=
    withFilter (js "fromList LIKE ") a.FilterOriginator whereClauseEmail
  let whereClauseEmail :=
    withPeriod env (js "timeStamp >= ") a.FilterPeriodBegin whereClauseEmail
  let whereClauseEmail :=
    withPeriod env (js "timeStamp < ") a.FilterPeriodEnd whereClauseEmail
  (whereClauseEmail, { a with FilterRecipient := recipient, FilterOriginator := originator })

end Code

/-! ### How the condition is read -/

/-- The characters of SQL. -/
def sql : Lexis UInt16 where
  quote := 39
  isBlank c := c = 32 ∨ 9 ≤ c ∧ c ≤ 13 ∧ c ≠ 11
  isLetter c := 48 ≤ c ∧ c ≤ 57 ∨ 65 ≤ c ∧ c ≤ 90 ∨ 97 ≤ c ∧ c ≤ 122 ∨ c = 36 ∨ c = 95 ∨ 128 ≤ c
  isBlank_quote := by decide
  isLetter_quote := by decide

/-- `AND`. -/
def andToken : Token UInt16 := .word (js "AND")

/-- The conditions for read and unread messages. -/
def readConditions (a : AppParams) : List JString :=
  (if a.FilterReadStatus % 2 ≠ 0 then [js " flagRead = 0 "] else []) ++
    if a.FilterReadStatus / 2 % 2 ≠ 0 then [js " flagRead = 1 "] else []

/-- The condition for one end of the period. -/
def periodConditions (env : Env) (comparison : JString) (period : Option JString) : List JString :=
  match period with
  | some text =>
    if text.length ≠ 0 then
      ((env.parseTime (trim text)).map fun time => comparison ++ decimal time).toList
    else []
  | none => []

/-- The tokens of conditions that no text is pasted into. -/
def ownTokens (conditions : List JString) : List (Token UInt16) :=
  conditions.flatMap fun condition => andToken :: sql.lex condition

/-- `AND column LIKE` and a literal, if the filter is used. -/
def filterTokens (column : String) (filter : Option JString) : List (Token UInt16) :=
  if filter.any isUsed then [andToken, .word (js column), .word (js "LIKE"), .literal []] else []

/-- The tokens outside the literals, with any filters of letters and digits. -/
def expectedTokens (env : Env) (masId : ℤ) (folderName : Option JString) (a : AppParams) :
    List (Token UInt16) :=
  sql.lex (getWhereIsQueryForTypeEmail env masId folderName) ++ (ownTokens (readConditions a) ++
    (filterTokens "toList" a.FilterRecipient ++ (filterTokens "fromList" a.FilterOriginator ++
      (ownTokens (periodConditions env (js "timeStamp >= ") a.FilterPeriodBegin) ++
        ownTokens (periodConditions env (js "timeStamp < ") a.FilterPeriodEnd)))))

/-- The texts of the filters stay in their quotes. -/
def StaysInQuotes (env : Env) (masId : ℤ) (folderName : Option JString) (a : AppParams) : Prop :=
  Lexis.outline (sql.lex (getConditionString env masId folderName a).1) =
    expectedTokens env masId folderName a

/-! ### The condition as a list of conditions -/

/-- The condition for the recipient or the originator. -/
def filterConditions (column : JString) (filter : Option JString) : List (Condition UInt16) :=
  match filter with
  | some text => if isUsed text then [.like column (trim (replaceStars text))] else []
  | none => []

/-- The conditions behind the mailbox. -/
def conditions (env : Env) (a : AppParams) : List (Condition UInt16) :=
  (readConditions a).map .own ++ (filterConditions (js " toList LIKE ") a.FilterRecipient ++
    (filterConditions (js "fromList LIKE ") a.FilterOriginator ++
      ((periodConditions env (js "timeStamp >= ") a.FilterPeriodBegin).map .own ++
        (periodConditions env (js "timeStamp < ") a.FilterPeriodEnd).map .own)))

/-- Conditions behind a first one. -/
def joinedTo (w : JString) (cs : List (Condition UInt16)) : JString :=
  sql.joined 37 (js " AND ") w cs

section Joined

variable {env : Env} {masId : ℤ} {folderName : Option JString} {a : AppParams} {w c : JString}

theorem joinedTo_append (w : JString) (cs ds : List (Condition UInt16)) :
    joinedTo w (cs ++ ds) = joinedTo (joinedTo w cs) ds :=
  joined_append 37 _ w cs ds

theorem joinedTo_ne_nil (hw : w ≠ []) (cs : List (Condition UInt16)) : joinedTo w cs ≠ [] :=
  fun h => hw (List.append_eq_nil_iff.1 h).1

@[simp] theorem joinedTo_nil (w : JString) : joinedTo w [] = w := List.append_nil w

theorem andAlso_eq (hw : w ≠ []) (c : JString) : andAlso w c = w ++ (js " AND " ++ c) := by
  rw [andAlso, if_pos fun h => hw (List.length_eq_zero_iff.1 h), List.append_assoc]

theorem joinedTo_singleton (w : JString) (c : Condition UInt16) :
    joinedTo w [c] = w ++ (js " AND " ++ c.text sql 37) := by
  simp only [joinedTo, Lexis.joined, List.flatMap_cons, List.flatMap_nil, List.append_nil]

theorem andAlso_own (hw : w ≠ []) (c : JString) : andAlso w c = joinedTo w [.own c] := by
  rw [andAlso_eq hw, joinedTo_singleton, Condition.text]

theorem andAlso_like (hw : w ≠ []) (column pattern : JString) :
    andAlso w (column ++ (js "'%" ++ (pattern ++ js "%'"))) =
      joinedTo w [.like column pattern] := by
  rw [andAlso_eq hw, joinedTo_singleton, Condition.text]
  rfl

theorem withReadStatus_eq (hw : w ≠ []) :
    withReadStatus a w = joinedTo w ((readConditions a).map .own) := by
  have hzero : a.FilterReadStatus = 0 → readConditions a = [] := by
    intro h
    rw [readConditions, h]
    rfl
  rw [withReadStatus]
  split_ifs with hstatus hunread hread hread
  · have hne := joinedTo_ne_nil hw [.own (js " flagRead = 0 ")]
    rw [readConditions, if_pos hunread, if_pos hread, andAlso_own hw, andAlso_own hne,
      ← joinedTo_append]
    rfl
  · rw [readConditions, if_pos hunread, if_neg hread, andAlso_own hw]
    rfl
  · rw [readConditions, if_neg hunread, if_pos hread, andAlso_own hw]
    rfl
  · rw [readConditions, if_neg hunread, if_neg hread]
    exact (joinedTo_nil w).symm
  · rw [hzero (not_not.1 hstatus), List.map_nil, joinedTo_nil]

theorem withFilter_eq (hw : w ≠ []) (column : JString) (filter : Option JString) :
    (withFilter column filter w).1 = joinedTo w (filterConditions column filter) := by
  cases filter with
  | none => exact (joinedTo_nil w).symm
  | some text =>
    rw [withFilter, filterConditions]
    split
    · exact andAlso_like hw column _
    · exact (joinedTo_nil w).symm

theorem withPeriod_eq (hw : w ≠ []) (comparison : JString) (period : Option JString) :
    withPeriod env comparison period w =
      joinedTo w ((periodConditions env comparison period).map .own) := by
  cases period with
  | none => exact (joinedTo_nil w).symm
  | some text =>
    rw [withPeriod, periodConditions]
    split
    · cases env.parseTime (trim text) with
      | none => exact (joinedTo_nil w).symm
      | some time => exact andAlso_own hw _
    · exact (joinedTo_nil w).symm

theorem mem_decimal_int {n : ℤ} {c : UInt16} (hc : c ∈ decimal n) :
    c = 45 ∨ 48 ≤ c.toNat ∧ c.toNat ≤ 57 := by
  rw [decimal, List.mem_append] at hc
  rcases hc with hc | hc
  · split at hc
    · exact Or.inl (List.mem_singleton.1 hc)
    · cases hc
  · exact Or.inr (mem_digits hc)

theorem plain_append {s t : JString} (hs : sql.Plain 37 s) (ht : sql.Plain 37 t) :
    sql.Plain 37 (s ++ t) :=
  ⟨fun h => (List.mem_append.1 h).elim hs.1 ht.1, fun h => (List.mem_append.1 h).elim hs.2 ht.2⟩

theorem notMem_decimal {c : UInt16} (hminus : c ≠ 45) (hdigit : ¬ (48 ≤ c.toNat ∧ c.toNat ≤ 57))
    (n : ℤ) : c ∉ decimal n := fun hc => (mem_decimal_int hc).elim hminus hdigit

theorem plain_decimal (n : ℤ) : sql.Plain 37 (decimal n) :=
  ⟨notMem_decimal (by decide) (by decide) n, notMem_decimal (by decide) (by decide) n⟩

instance (s : JString) : Decidable (sql.Plain 37 s) := inferInstanceAs (Decidable (_ ∧ _))

theorem plain_mailbox : sql.Plain 37 (getWhereIsQueryForTypeEmail env masId folderName) := by
  have hnone : sql.Plain 37 (js "mailboxKey = -1") := by decide
  unfold getWhereIsQueryForTypeEmail
  split
  · exact hnone
  · split
    · exact plain_append (by decide) (plain_decimal _)
    · exact hnone

theorem mailbox_ne_nil : getWhereIsQueryForTypeEmail env masId folderName ≠ [] := by
  unfold getWhereIsQueryForTypeEmail
  split
  · exact List.cons_ne_nil _ _
  · split <;> exact List.cons_ne_nil _ _

theorem getConditionString_eq : (getConditionString env masId folderName a).1 =
    joinedTo (getWhereIsQueryForTypeEmail env masId folderName) (conditions env a) := by
  have hw : getWhereIsQueryForTypeEmail env masId folderName ≠ [] := mailbox_ne_nil
  simp only [getConditionString, conditions, joinedTo_append, withReadStatus_eq hw]
  rw [withFilter_eq (joinedTo_ne_nil hw _)]
  have hne := fun cs ds => joinedTo_ne_nil (joinedTo_ne_nil hw cs) ds
  rw [withFilter_eq (hne _ _), withPeriod_eq (joinedTo_ne_nil (hne _ _) _),
    withPeriod_eq (joinedTo_ne_nil (joinedTo_ne_nil (hne _ _) _) _)]

end Joined

/-! ### The quotes -/

section Quotes

variable {env : Env} {masId : ℤ} {folder : JString} {folderName : Option JString} {a : AppParams}

theorem isSign_percent : sql.IsSign 37 := ⟨by decide, rfl, rfl⟩

theorem isGlue_and : sql.IsGlue 37 (js " AND ") where
  plain := by decide
  begins := ⟨32, js "AND ", rfl, rfl⟩
  ends := ⟨js " AND", 32, rfl, rfl⟩

theorem paired_trim (s : JString) : sql.Paired (trim s) ↔ sql.Paired s := by
  have hblank : ∀ t : JString, ∀ c ∈ t.takeWhile (· ≤ 32), c ≠ sql.quote := by
    rintro t c hc rfl
    exact absurd (List.mem_takeWhile_imp hc) (by decide)
  have htail := paired_append_right (L := sql)
    (s := ((s.dropWhile (· ≤ 32)).reverse.dropWhile (· ≤ 32)).reverse)
    (t := ((s.dropWhile (· ≤ 32)).reverse.takeWhile (· ≤ 32)).reverse)
    fun c hc => hblank _ c (List.mem_reverse.1 hc)
  rw [← List.reverse_append, List.takeWhile_append_dropWhile, List.reverse_reverse] at htail
  have hhead := paired_append_of_ne (L := sql) (t := s.dropWhile (· ≤ 32)) (hblank s)
  rw [List.takeWhile_append_dropWhile] at hhead
  rw [trim, ← htail, hhead]

theorem paired_replaceStars (s : JString) : sql.Paired (replaceStars s) ↔ sql.Paired s := by
  rw [replaceStars]
  split
  · refine paired_map fun c => ?_
    split
    next h =>
      subst h
      decide
    next => rfl
  · rfl

/-- What is not used as a filter has no quotes. -/
theorem paired_of_not_isUsed {text : JString} (h : ¬ isUsed text = true) : sql.Paired text := by
  rw [isUsed, decide_eq_true_eq, not_and_not_right] at h
  rcases text with - | ⟨c, text⟩
  · trivial
  · have hstar : (c :: text).map foldCase = [42] := of_decide_eq_true (h (Nat.succ_pos _))
    rw [List.map_cons, List.cons.injEq, List.map_eq_nil_iff] at hstar
    obtain ⟨hc, rfl⟩ := hstar
    intro hquote
    rw [hquote] at hc
    exact absurd hc (by decide)

theorem kept_filterConditions_iff (column : JString) (filter : Option JString) :
    (∀ c ∈ filterConditions column filter, c.Kept sql) ↔
      ∀ text, filter = some text → sql.Paired text := by
  cases filter with
  | none => exact iff_of_true (fun c hc => absurd hc List.not_mem_nil) fun text h => by cases h
  | some text =>
    have hsome : (∀ t, some text = some t → sql.Paired t) ↔ sql.Paired text :=
      ⟨fun h => h text rfl, fun h t ht => Option.some.inj ht ▸ h⟩
    rw [hsome, filterConditions]
    split
    next => rw [List.forall_mem_singleton, Condition.Kept, paired_trim, paired_replaceStars]
    next h => exact iff_of_true (fun c hc => absurd hc List.not_mem_nil) (paired_of_not_isUsed h)

theorem kept_own (texts : List JString) : ∀ c ∈ texts.map Condition.own, c.Kept sql := by
  intro c hc
  obtain ⟨text, -, rfl⟩ := List.mem_map.1 hc
  trivial

theorem kept_conditions_iff : (∀ c ∈ conditions env a, c.Kept sql) ↔
    ∀ text, a.FilterRecipient = some text ∨ a.FilterOriginator = some text → sql.Paired text := by
  simp only [conditions, List.forall_mem_append, kept_filterConditions_iff]
  constructor
  · rintro ⟨-, hrecipient, horiginator, -⟩ text (h | h)
    · exact hrecipient text h
    · exact horiginator text h
  · exact fun h => ⟨kept_own _, fun text ht => h text (Or.inl ht),
      fun text ht => h text (Or.inr ht), kept_own _, kept_own _⟩

theorem plain_readConditions : ∀ text ∈ readConditions a, sql.Plain 37 text := by
  have hread : ∀ text ∈ [js " flagRead = 0 ", js " flagRead = 1 "], sql.Plain 37 text :=
    List.forall_mem_cons.2 ⟨by decide, List.forall_mem_singleton.2 (by decide)⟩
  intro text h
  rw [readConditions, List.mem_append] at h
  apply hread
  rcases h with h | h <;> split at h <;> simp_all

theorem plain_periodConditions {comparison : JString} (hplain : sql.Plain 37 comparison)
    (period : Option JString) :
    ∀ text ∈ periodConditions env comparison period, sql.Plain 37 text := by
  intro text h
  cases period with
  | none => cases h
  | some period =>
    rw [periodConditions] at h
    split at h
    · obtain ⟨time, -, rfl⟩ := Option.map_eq_some_iff.1 (Option.mem_toList.1 h)
      exact plain_append hplain (plain_decimal time)
    · cases h

theorem isPlain_own {texts : List JString} (h : ∀ text ∈ texts, sql.Plain 37 text) :
    ∀ c ∈ texts.map Condition.own, c.IsPlain sql 37 := by
  intro c hc
  obtain ⟨text, ht, rfl⟩ := List.mem_map.1 hc
  exact h text ht

theorem isPlain_filterConditions {column : JString} (hplain : sql.Plain 37 column)
    (hends : sql.EndsBlank column) (filter : Option JString) :
    ∀ c ∈ filterConditions column filter, c.IsPlain sql 37 := by
  intro c hc
  cases filter with
  | none => cases hc
  | some text =>
    rw [filterConditions] at hc
    split at hc
    · rw [List.mem_singleton.1 hc]
      exact ⟨hplain, hends⟩
    · cases hc

theorem isPlain_conditions : ∀ c ∈ conditions env a, c.IsPlain sql 37 := by
  simp only [conditions, List.forall_mem_append]
  exact ⟨isPlain_own plain_readConditions,
    isPlain_filterConditions (by decide) ⟨js " toList LIKE", 32, rfl, rfl⟩ _,
    isPlain_filterConditions (by decide) ⟨js "fromList LIKE", 32, rfl, rfl⟩ _,
    isPlain_own (plain_periodConditions (by decide) _),
    isPlain_own (plain_periodConditions (by decide) _)⟩

theorem expectedJoined_own (texts : List JString) :
    ((texts.map Condition.own).flatMap fun c => sql.lex (js " AND ") ++ c.expected sql) =
      ownTokens texts := by
  rw [List.flatMap_map, ownTokens]
  congr 1

theorem expectedJoined_filter {column : JString} {name : String} (filter : Option JString)
    (hcolumn : sql.lex column = [.word (js name), .word (js "LIKE")]) :
    ((filterConditions column filter).flatMap fun c =>
      sql.lex (js " AND ") ++ c.expected sql) = filterTokens name filter := by
  cases filter with
  | none => rfl
  | some text =>
    rw [filterConditions, filterTokens, Option.any_some]
    split
    · rw [List.flatMap_singleton, Condition.expected, hcolumn]
      rfl
    · rfl

theorem expectedJoined_conditions :
    sql.expectedJoined (js " AND ") (getWhereIsQueryForTypeEmail env masId folderName)
      (conditions env a) = expectedTokens env masId folderName a := by
  rw [expectedJoined, outline_of_plain plain_mailbox, expectedTokens]
  have hto : sql.lex (js " toList LIKE ") = [.word (js "toList"), .word (js "LIKE")] := rfl
  have hfrom : sql.lex (js "fromList LIKE ") = [.word (js "fromList"), .word (js "LIKE")] := rfl
  simp only [conditions, List.flatMap_append, expectedJoined_own, expectedJoined_filter _ hto,
    expectedJoined_filter _ hfrom]

theorem outline_append_closing {lead text : JString} {ts : List (Token UInt16)}
    (hlead : sql.run (.outside []) lead = (.outside [], ts)) (ht : sql.Paired text) :
    Lexis.outline (sql.lex (lead ++ 39 :: (text ++ js "')"))) =
      Lexis.outline ts ++ [.literal [], .symbol 41] := by
  have hopen : sql.run (.outside []) (39 :: (text ++ js "')")) =
      (.outside [], [.literal (sql.unescape text), .symbol 41]) := by
    have hquote : sql.step (.outside []) 39 = (.inside [], []) := rfl
    rw [run_cons, hquote, run_append, run_inside ht]
    rfl
  rw [lex, run_append, hlead, hopen]
  simp [Lexis.outline, Token.outline, Mode.finish, flush]

/-- The name of a folder stays in its quotes, whatever it is. -/
theorem outline_folderQuery (hupper : ∀ s, sql.Paired s → sql.Paired (env.toUpperCase s))
    (folder : JString) :
    Lexis.outline (sql.lex (folderQuery env masId folder)) =
      Lexis.outline (sql.lex (js "(accountKey=" ++ decimal (env.table.getAccountId masId) ++
        js ") AND (UPPER(displayName) = ")) ++ [.literal [], .symbol 41] := by
  have hescaped : sql.Paired (escaped folder) := by
    rw [escaped]
    split
    next => exact paired_flatMap sql folder
    next h =>
      refine paired_of_ne fun c hc hquote => h ?_
      rw [hquote] at hc
      exact hc
  have hplain : sql.Plain 37 (js "(accountKey=" ++ decimal (env.table.getAccountId masId) ++
      js ") AND (UPPER(displayName) = ") :=
    plain_append (plain_append (by decide) (plain_decimal _)) (by decide)
  have hends : sql.EndsBlank (js "(accountKey=" ++ decimal (env.table.getAccountId masId) ++
      js ") AND (UPPER(displayName) = ") :=
    ⟨_, 32, (List.append_assoc _ (js ") AND (UPPER(displayName) =") [32]).symm, rfl⟩
  have hquote : js ") AND (UPPER(displayName) = '" =
      js ") AND (UPPER(displayName) = " ++ [39] := rfl
  rw [← outline_append_closing (run_endsBlank hplain hends) (hupper _ hescaped), folderQuery,
    hquote]
  simp only [List.append_assoc, List.cons_append, List.nil_append]

theorem staysInQuotes_iff_kept :
    StaysInQuotes env masId folderName a ↔ ∀ c ∈ conditions env a, c.Kept sql := by
  rw [StaysInQuotes, getConditionString_eq, joinedTo, ← expectedJoined_conditions,
    outline_joined_iff isSign_percent isGlue_and plain_mailbox isPlain_conditions]

/-- Filters of letters and digits stay in their quotes. -/
theorem staysInQuotes_of_isLetter
    (h : ∀ text, a.FilterRecipient = some text ∨ a.FilterOriginator = some text →
      ∀ c ∈ text, sql.isLetter c = true) : StaysInQuotes env masId folderName a := by
  rw [staysInQuotes_iff_kept, kept_conditions_iff]
  refine fun text ht => paired_of_ne fun c hc hquote => ?_
  have hletter := h text ht c hc
  rw [hquote, sql.isLetter_quote] at hletter
  cases hletter

/-- The filters stay in their quotes exactly if each longest row of quotes in them has an even
number of quotes. -/
theorem staysInQuotes_iff (env : Env) (masId : ℤ) (folderName : Option JString) (a : AppParams) :
    StaysInQuotes env masId folderName a ↔ ∀ text,
      a.FilterRecipient = some text ∨ a.FilterOriginator = some text → sql.Paired text :=
  staysInQuotes_iff_kept.trans kept_conditions_iff

/-- A device with one mailbox. -/
def sampleEnv : Env := ⟨.empty, fun _ => some [3], id, fun _ => none⟩

/-- A recipient that goes on with a condition for another mailbox. -/
def sampleParams : AppParams :=
  { noParams with FilterRecipient := some (js "x' OR mailboxKey = 7 OR toList LIKE 'x") }

theorem not_staysInQuotes_sampleParams :
    (getConditionString sampleEnv 0 (some (js "inbox")) sampleParams).1 =
        js "mailboxKey = 3 AND  toList LIKE '%x' OR mailboxKey = 7 OR toList LIKE 'x%'" ∧
      ¬ StaysInQuotes sampleEnv 0 (some (js "inbox")) sampleParams := by
  constructor
  · rfl
  · rw [StaysInQuotes]
    decide

end Quotes

end EmailCondition

end Map

end Msm8909w
