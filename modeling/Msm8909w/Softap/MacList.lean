import Msm8909w.Softap.Commands
import Msm8909w.Softap.MacAddress

/-!
# The report of a MAC list (`qsap_api.c`)

`qsap_get_mac_list` prints the addresses of the allow or deny list to a response buffer.  A line is
printed without its last character, whatever this is, as long as the rest of the line is not longer
than the room that is left.

* `macListLoop_eq` : what is printed, line by line,
* `isReport_shown`, `whole_of_isReport` : when whole addresses are printed,
* `macList_whole` : the report of a file.
-/

namespace Msm8909w

namespace Softap

/-- `MAX_ALLOWED_MAC`. -/
def maxAllowedMac : ℕ := 15

/-- `qsap_get_allow_deny_file_name`: the path of the list in the configuration file. -/
def getAllowDenyFileName (pcfgfile : Option Bytes) (pcmd : Command) (plen : ℕ) : Option Bytes :=
  let res := readCfg pcfgfile pcmd plen none false
  if res.1 = .success then some (res.2.dropWhile (· ≠ equals)).tail else none

/-- The loop of `qsap_get_mac_list`: what is printed behind `pOut`. -/
def macListLoop : List Bytes → ℕ → ℕ → Bytes
  | [], _, _ => []
  | buf :: bufs, cnt, plen =>
    if buf.head? = some hash then macListLoop bufs cnt plen
    else if isValidMacAddress buf = false then macListLoop bufs cnt plen
    else
      let buf := buf.dropLast
      if plen < buf.length then []
      else
        let text := scnprintf plen (buf ++ [space])
        if maxAllowedMac ≤ cnt + 1 then text
        else text ++ macListLoop bufs (cnt + 1) (plen - text.length)

/-- The parameter with the path of the list. -/
def listFile (cNum : EsapCmd) : Option EsapStr :=
  if cNum = .allowList then some .acceptMacFile
  else if cNum = .denyList then some .denyMacFile else none

/-- `"success <name>="`. -/
def listHead (cNum : EsapCmd) : Bytes := success ++ ascii " " ++ (cmdList cNum).name ++ [equals]

/-- `qsap_get_mac_list`; `fopen` are the files that can be opened. -/
def getMacList (fopen : Bytes → Option Bytes) (fconfile : Option Bytes) (cNum : EsapCmd)
    (plen : ℕ) : Bytes :=
  match listFile cNum with
  | none => scnprintf plen errUnknown
  | some sNum =>
    match (getAllowDenyFileName fconfile (qsapStr sNum) maxConfLineLen).bind fopen with
    | none => scnprintf plen errResUnavailable
    | some text =>
      let presp := scnprintf plen (listHead cNum)
      presp ++ macListLoop (confLines text) 0 (plen - presp.length)

/-! ### The report there should be -/

/-- A line with an address that is not commented. -/
def isEntry (l : Bytes) : Bool := l.head? ≠ some hash && isValidMacAddress l

/-- The addresses of a file. -/
def addresses (text : Bytes) : List Bytes :=
  ((textLines lf text).filter isEntry).map (List.take macAddrLen)

/-- Addresses with a blank behind each. -/
def reportText (addrs : List Bytes) : Bytes := addrs.flatMap (· ++ [space])

/-- Some of the addresses, from the first one on; the blank behind the last one may be missing. -/
def IsReport (addrs : List Bytes) (body : Bytes) : Prop :=
  ∃ n, body = reportText (addrs.take n) ∨ body ++ [space] = reportText (addrs.take n)

/-- Only whole addresses of the file follow the beginning of the response. -/
def ReportsWhole (fopen : Bytes → Option Bytes) (fconfile : Option Bytes) (cNum : EsapCmd)
    (plen : ℕ) (text : Bytes) : Prop :=
  ∃ body, getMacList fopen fconfile cNum plen = scnprintf plen (listHead cNum) ++ body ∧
    IsReport (addresses text) body

/-! ### What is printed -/

/-- What is printed for a line. -/
def entryText (e : Bytes) : Bytes := e.dropLast ++ [space]

/-- The loop on lines with addresses. -/
def shown : ℕ → List Bytes → Bytes
  | _, [] => []
  | plen, e :: es =>
    if plen + 1 < e.length then []
    else
      let text := scnprintf plen (entryText e)
      text ++ shown (plen - text.length) es

/-- The loop takes the first fifteen lines with addresses. -/
theorem macListLoop_eq (bufs : List Bytes) {cnt : ℕ} (hcnt : cnt < maxAllowedMac) (plen : ℕ) :
    macListLoop bufs cnt plen = shown plen ((bufs.filter isEntry).take (maxAllowedMac - cnt)) := by
  induction bufs generalizing cnt plen with
  | nil =>
    rw [List.filter_nil, List.take_nil]
    rfl
  | cons buf bufs ih =>
    by_cases hentry : isEntry buf = true
    · have h := hentry
      rw [isEntry, Bool.and_eq_true, decide_eq_true_eq] at h
      have hroom : maxAllowedMac - cnt = maxAllowedMac - (cnt + 1) + 1 := by omega
      have hless : plen < buf.dropLast.length ↔ plen + 1 < buf.length := by
        rw [List.length_dropLast]
        omega
      rw [List.filter_cons_of_pos hentry, hroom, List.take_succ_cons, macListLoop, shown,
        if_neg h.1, if_neg (by rw [h.2]; decide)]
      simp only [hless]
      split_ifs with hlen hlast
      · rfl
      · rw [Nat.sub_eq_zero_of_le hlast, List.take_zero, shown, List.append_nil]
        rfl
      · rw [ih (by omega)]
        rfl
    · rw [List.filter_cons_of_neg hentry, ← ih hcnt, macListLoop]
      by_cases hhash : buf.head? = some hash
      · rw [if_pos hhash]
      · have hvalid : isValidMacAddress buf = false := by
          rw [isEntry, Bool.and_eq_true, decide_eq_true_eq, not_and] at hentry
          exact Bool.eq_false_iff.2 (hentry hhash)
        rw [if_neg hhash, if_pos hvalid]

/-! ### Addresses -/

/-- An address and nothing else. -/
structure IsAddress (a : Bytes) : Prop where
  length_eq : a.length = macAddrLen
  valid : isValidMacAddress a = true

section

variable {a e l : Bytes}

theorem isValidMacAddress_take (l : Bytes) :
    isValidMacAddress (l.take macAddrLen) = isValidMacAddress l := by
  have hlen : macAddrLen ≤ (l.take macAddrLen).length ↔ macAddrLen ≤ l.length := by
    rw [List.length_take]
    omega
  have hget : ∀ i ∈ List.range macAddrLen, (l.take macAddrLen).getD i 0 = l.getD i 0 := by
    intro i hi
    rw [List.getD_eq_getElem?_getD, List.getD_eq_getElem?_getD,
      List.getElem?_take_of_lt (List.mem_range.1 hi)]
  rw [isValidMacAddress, isValidMacAddress, decide_eq_decide.2 hlen]
  congr 1
  rw [Bool.eq_iff_iff, List.all_eq_true, List.all_eq_true]
  exact forall₂_congr fun i hi => by rw [hget i hi]

theorem isEntry_take (l : Bytes) : isEntry (l.take macAddrLen) = isEntry l := by
  rw [isEntry, isEntry, isValidMacAddress_take, List.head?_take, if_neg (by decide)]

theorem length_of_isEntry (h : isEntry e = true) : macAddrLen ≤ e.length := by
  rw [isEntry, isValidMacAddress, Bool.and_eq_true, Bool.and_eq_true, decide_eq_true_eq,
    decide_eq_true_eq] at h
  exact h.2.1

theorem isAddress_of_isEntry (h : isEntry e = true) : IsAddress (e.take macAddrLen) := by
  refine ⟨List.length_take_of_le (length_of_isEntry h), ?_⟩
  rw [isEntry, Bool.and_eq_true] at h
  rw [isValidMacAddress_take]
  exact h.2

/-- The characters of an address, the first of which is a digit. -/
theorem IsAddress.chars (h : IsAddress a) :
    (∀ c ∈ a, isXDigit c = true ∨ c = colon) ∧ ∃ c s, a = c :: s ∧ isXDigit c = true := by
  obtain ⟨ps, rest, hlen, hpair, rfl⟩ := pairs_of_isValid h.valid
  have hrest : rest = [] := by
    have hall := h.length_eq
    rw [List.length_append, length_pairsText, hlen, macAddrLen] at hall
    exact List.length_eq_zero_iff.1 (by omega)
  rw [hrest, List.append_nil]
  refine ⟨fun c hc => mem_pairsText hpair hc, ?_⟩
  cases ps with
  | nil => cases hlen
  | cons p ps =>
    refine ⟨p.1, (pairsText (p :: ps)).tail, ?_, (hpair p List.mem_cons_self).1⟩
    cases ps <;> rfl

theorem IsAddress.notMem (h : IsAddress a) {c : UInt8} (hdigit : isXDigit c = false)
    (hcolon : c ≠ colon) : c ∉ a := by
  intro hmem
  rcases h.chars.1 c hmem with hc | hc
  · rw [hdigit] at hc
    cases hc
  · exact hcolon hc

end

/-! ### Reports -/

section

variable {a body : Bytes} {addrs : List Bytes}

theorem reportText_cons (a : Bytes) (addrs : List Bytes) :
    reportText (a :: addrs) = a ++ [space] ++ reportText addrs := List.flatMap_cons

theorem isReport_nil (addrs : List Bytes) : IsReport addrs [] := ⟨0, .inl rfl⟩

/-- A report goes on behind an address. -/
theorem IsReport.cons (h : IsReport addrs body) : IsReport (a :: addrs) (a ++ [space] ++ body) := by
  obtain ⟨n, hn⟩ := h
  refine ⟨n + 1, ?_⟩
  rw [List.take_succ_cons, reportText_cons]
  rcases hn with rfl | hn
  · exact .inl rfl
  · exact .inr (by rw [← hn, List.append_assoc])

theorem isReport_singleton (a : Bytes) (addrs : List Bytes) : IsReport (a :: addrs) a := by
  refine ⟨1, .inr ?_⟩
  rw [List.take_succ_cons, List.take_zero, reportText_cons]
  exact (List.append_nil _).symm

/-- What a report begins with. -/
theorem IsReport.cases (h : IsReport addrs body) (hne : body ≠ []) :
    ∃ a rest, addrs = a :: rest ∧
      (body = a ∨ ∃ b, body = a ++ [space] ++ b ∧ IsReport rest b) := by
  obtain ⟨n, hn⟩ := h
  cases n with
  | zero =>
    rcases hn with hn | hn
    · exact absurd hn hne
    · exact absurd hn (by simp [reportText])
  | succ n =>
    cases addrs with
    | nil =>
      rcases hn with hn | hn
      · exact absurd hn hne
      · exact absurd hn (by simp [reportText])
    | cons a addrs =>
      refine ⟨a, addrs, rfl, ?_⟩
      rw [List.take_succ_cons, reportText_cons] at hn
      rcases hn with hn | hn
      · exact .inr ⟨_, hn, n, .inl rfl⟩
      · rcases List.eq_nil_or_concat' (reportText (addrs.take n)) with hnil | ⟨b, c, hb⟩
        · rw [hnil, List.append_nil] at hn
          exact .inl (List.append_cancel_right hn)
        · rw [hb, ← List.append_assoc] at hn
          obtain ⟨hbody, hc⟩ := List.append_inj' hn rfl
          exact .inr ⟨b, hbody, n, .inr (by rw [hb, hc])⟩

/-- A report begins with a digit. -/
theorem IsReport.head (h : IsReport addrs body) (hne : body ≠ [])
    (haddrs : ∀ a ∈ addrs, IsAddress a) : isXDigit (body.getD 0 0) = true := by
  obtain ⟨a, rest, rfl, hbody⟩ := h.cases hne
  obtain ⟨-, c, s, rfl, hc⟩ := (haddrs a List.mem_cons_self).chars
  rcases hbody with rfl | ⟨b, rfl, -⟩
  · exact hc
  · exact hc

end

/-! ### Room -/

/-- The lines that are printed are whole: a line is passed over, or it has a single character behind
its address, or the room ends behind the address or behind the blank that follows it. -/
def Whole : ℕ → List Bytes → Prop
  | _, [] => True
  | plen, e :: es =>
    plen + 1 < e.length ∨
      macAddrLen + 1 ≤ e.length ∧
        (plen = 18 ∨ (plen = 19 ∧ (entryText e).getD 17 0 = space) ∨
          (e.length = 18 ∧ 18 < plen ∧ Whole (plen - 18) es))

instance decidableWhole : (plen : ℕ) → (es : List Bytes) → Decidable (Whole plen es)
  | _, [] => isTrue trivial
  | plen, e :: es =>
    have := decidableWhole (plen - 18) es
    inferInstanceAs (Decidable (plen + 1 < e.length ∨ macAddrLen + 1 ≤ e.length ∧
      (plen = 18 ∨ (plen = 19 ∧ (entryText e).getD 17 0 = space) ∨
        (e.length = 18 ∧ 18 < plen ∧ Whole (plen - 18) es))))

/-- The line does not go on with a blank and a digit behind its address. -/
def OneAddress (e : Bytes) : Prop :=
  ¬ ((entryText e).getD 17 0 = space ∧ isXDigit ((entryText e).getD 18 0) = true)

section

variable {e body : Bytes} {es : List Bytes} {plen : ℕ}

theorem length_entryText (h : macAddrLen ≤ e.length) : (entryText e).length = e.length := by
  rw [entryText, List.length_append, List.length_dropLast, List.length_singleton, macAddrLen] at *
  omega

theorem take_entryText (h : macAddrLen + 1 ≤ e.length) :
    (entryText e).take macAddrLen = e.take macAddrLen := by
  have hlen : macAddrLen ≤ e.dropLast.length := by
    rw [List.length_dropLast]
    omega
  rw [entryText, List.take_append_of_le_length hlen, List.dropLast_eq_take, List.take_take,
    Nat.min_eq_left (by omega)]

theorem shown_one (hes : ∀ e ∈ es, isEntry e = true) : shown 1 es = [] := by
  cases es with
  | nil => rfl
  | cons e es =>
    have hlen := length_of_isEntry (hes e List.mem_cons_self)
    refine if_pos ?_
    rw [macAddrLen] at hlen
    omega

/-- The room ends within a line. -/
theorem shown_cons_of_le (hes : ∀ e' ∈ e :: es, isEntry e' = true) (hlen : e.length ≤ plen + 1)
    (hle : plen ≤ e.length) : shown plen (e :: es) = (entryText e).take (plen - 1) := by
  obtain ⟨he, hes⟩ := List.forall_mem_cons.1 hes
  have hlen17 := length_of_isEntry he
  have htext := length_entryText hlen17
  have hroom : plen - ((entryText e).take (plen - 1)).length = 1 := by
    rw [List.length_take, htext]
    rw [macAddrLen] at hlen17
    omega
  rw [shown, if_neg (by omega)]
  simp only [scnprintf, hroom, shown_one hes, List.append_nil]

/-- There is room for the line and the blank. -/
theorem shown_cons_of_lt (he : isEntry e = true) (hlt : e.length < plen) :
    shown plen (e :: es) = entryText e ++ shown (plen - e.length) es := by
  have htext := length_entryText (length_of_isEntry he)
  have hall : scnprintf plen (entryText e) = entryText e := List.take_of_length_le (by omega)
  rw [shown, if_neg (by omega)]
  simp only [hall, htext]

/-- The text of a line as far as there is room, and what follows. -/
theorem exists_shown_cons (hes : ∀ e' ∈ e :: es, isEntry e' = true) (hlen : e.length ≤ plen + 1) :
    ∃ body, shown plen (e :: es) = (entryText e).take (plen - 1) ++ body ∧
      (e.length < plen → body = shown (plen - e.length) es) ∧ (plen ≤ e.length → body = []) := by
  by_cases hlt : e.length < plen
  · have he := hes e List.mem_cons_self
    have htext := length_entryText (length_of_isEntry he)
    refine ⟨_, ?_, fun _ => rfl, fun hle => absurd hle (by omega)⟩
    rw [shown_cons_of_lt he hlt, List.take_of_length_le (by omega)]
  · refine ⟨[], ?_, fun hlt' => absurd hlt' hlt, fun _ => rfl⟩
    rw [shown_cons_of_le hes hlen (by omega), List.append_nil]

/-- **Whole addresses are printed** when the lines are whole. -/
theorem isReport_shown (hes : ∀ e ∈ es, isEntry e = true) (h : Whole plen es)
    (addrs : List Bytes) : IsReport (es.map (List.take macAddrLen) ++ addrs) (shown plen es) := by
  induction es generalizing plen with
  | nil => exact isReport_nil _
  | cons e es ih =>
    rw [List.map_cons, List.cons_append]
    by_cases hless : plen + 1 < e.length
    · rw [shown, if_pos hless]
      exact isReport_nil _
    · obtain ⟨he, htail⟩ := List.forall_mem_cons.1 hes
      obtain hlt | ⟨hlen, hroom⟩ := h
      · exact absurd hlt hless
      · have htake := take_entryText hlen
        have htext := length_entryText (length_of_isEntry he)
        rw [macAddrLen] at hlen
        rcases hroom with rfl | ⟨rfl, hblank⟩ | ⟨h18, hlt, hwhole⟩
        · rw [shown_cons_of_le hes (by omega) (by omega)]
          change IsReport _ ((entryText e).take macAddrLen)
          rw [htake]
          exact isReport_singleton _ _
        · have hget : (entryText e)[17]? = some space := by
            rw [List.getD_eq_getElem?_getD, List.getElem?_eq_getElem (by omega),
              Option.getD_some] at hblank
            rw [List.getElem?_eq_getElem (by omega), hblank]
          have heq : (entryText e).take 18 = e.take macAddrLen ++ [space] := by
            rw [List.take_add_one, hget, ← htake]
            rfl
          have hrep : IsReport (e.take macAddrLen :: (es.map (List.take macAddrLen) ++ addrs))
              (e.take macAddrLen ++ [space]) := by
            rw [← List.append_nil (e.take macAddrLen ++ [space])]
            exact (isReport_nil _).cons
          by_cases hle : 19 ≤ e.length
          · rw [shown_cons_of_le hes (by omega) hle, heq]
            exact hrep
          · have hall : entryText e = (entryText e).take 18 :=
              (List.take_of_length_le (by omega)).symm
            have hone : 19 - e.length = 1 := by omega
            rw [shown_cons_of_lt he (by omega), hone, shown_one htail, List.append_nil, hall, heq]
            exact hrep
        · have hall : entryText e = e.take macAddrLen ++ [space] := by
            have hdrop : e.dropLast = e.take macAddrLen := by
              rw [List.dropLast_eq_take, h18]
              rfl
            rw [entryText, hdrop]
          rw [shown_cons_of_lt he (by omega), h18, hall]
          exact (ih htail hwhole).cons

/-- A line that is printed up to its address at least has a character behind it. -/
theorem length_of_take_entryText {n : ℕ} (he : isEntry e = true)
    (hpre : e.take macAddrLen <+: (entryText e).take n ++ body)
    (hn : macAddrLen ≤ ((entryText e).take n).length) : macAddrLen + 1 ≤ e.length := by
  have hlen := length_of_isEntry he
  by_contra hshort
  have h17 : e.length = macAddrLen := by omega
  have haddr := isAddress_of_isEntry he
  have htext := length_entryText hlen
  have hall : (entryText e).take n = entryText e := by
    rw [List.length_take] at hn
    exact List.take_of_length_le (by omega)
  rw [hall] at hpre
  have heq : e.take macAddrLen = entryText e := by
    have hpre' := List.prefix_of_prefix_length_le hpre (List.prefix_append _ _)
      (by rw [haddr.length_eq, htext, h17])
    exact hpre'.eq_of_length (by rw [haddr.length_eq, htext, h17])
  refine haddr.notMem (by decide : isXDigit space = false) (by decide) ?_
  rw [heq, entryText]
  exact List.mem_append_right _ (List.mem_singleton_self _)

/-- What stands in a text at the two positions behind the address. -/
theorem getD_of_append {a b t : Bytes} {n : ℕ} (ha : a.length = macAddrLen)
    (h : t.take n ++ body = a ++ [space] ++ b) (hn : 18 ≤ (t.take n).length) :
    t.getD 17 0 = space ∧ (19 ≤ (t.take n).length → t.getD 18 0 = b.getD 0 0) := by
  have hget : ∀ i < (t.take n).length, t.getD i 0 = (a ++ [space] ++ b).getD i 0 := by
    intro i hi
    have hin : i < n := by
      rw [List.length_take] at hi
      omega
    rw [← h, List.getD_eq_getElem?_getD, List.getD_eq_getElem?_getD, List.getElem?_append_left hi,
      List.getElem?_take_of_lt hin]
  have hlen : (a ++ [space]).length = 18 := by rw [List.length_append, ha]; rfl
  constructor
  · rw [hget 17 (by omega), List.getD_eq_getElem?_getD, List.getElem?_append_left (by omega),
      List.getElem?_append_right (by rw [ha]; exact le_rfl), ha]
    rfl
  · intro h19
    rw [hget 18 (by omega), List.getD_eq_getElem?_getD, List.getElem?_append_right (by omega), hlen,
      List.getD_eq_getElem?_getD]

/-- The report begins with the address of the line, as far as there is room. -/
theorem IsReport.cases_of_entry (he : isEntry e = true) (hlen : e.length ≤ plen + 1)
    {addrs : List Bytes}
    (h : IsReport (e.take macAddrLen :: addrs) ((entryText e).take (plen - 1) ++ body)) :
    (entryText e).take (plen - 1) ++ body = e.take macAddrLen ∨
      ∃ b, (entryText e).take (plen - 1) ++ body = e.take macAddrLen ++ [space] ++ b ∧
        IsReport addrs b := by
  have hne : (entryText e).take (plen - 1) ++ body ≠ [] := by
    have h17 := length_of_isEntry he
    intro hnil
    have hzero := congrArg List.length (List.append_eq_nil_iff.1 hnil).1
    rw [List.length_take, length_entryText h17, List.length_nil] at hzero
    rw [macAddrLen] at h17
    omega
  obtain ⟨a, rest, hcons, hcases⟩ := h.cases hne
  obtain ⟨rfl, rfl⟩ := List.cons.inj hcons
  exact hcases

/-- A line that is printed, when the report is one of whole addresses. -/
theorem whole_step (hes : ∀ e' ∈ e :: es, isEntry e' = true) (hone : OneAddress e)
    (hless : e.length ≤ plen + 1) {addrs : List Bytes} (haddrs : ∀ a ∈ addrs, IsAddress a)
    (h : IsReport (e.take macAddrLen :: addrs) (shown plen (e :: es))) :
    macAddrLen + 1 ≤ e.length ∧
      (plen = 18 ∨ (plen = 19 ∧ (entryText e).getD 17 0 = space) ∨
        (e.length = 18 ∧ 18 < plen ∧ IsReport addrs (shown (plen - 18) es))) := by
  have he := hes e List.mem_cons_self
  have haddr := isAddress_of_isEntry he
  have h17 : (e.take macAddrLen).length = 17 := haddr.length_eq
  obtain ⟨body, hshown, hgoOn, hend⟩ := exists_shown_cons hes hless
  have hcount : ((entryText e).take (plen - 1)).length = min (plen - 1) e.length := by
    rw [List.length_take, length_entryText (length_of_isEntry he)]
  rw [hshown] at h
  have hcases := h.cases_of_entry he hless
  have hpre : e.take macAddrLen <+: (entryText e).take (plen - 1) ++ body := by
    rcases hcases with heq | ⟨b, heq, -⟩
    · exact ⟨[], (List.append_nil _).trans heq.symm⟩
    · rw [heq, List.append_assoc]
      exact List.prefix_append _ _
  have hlong : macAddrLen ≤ ((entryText e).take (plen - 1)).length := by
    have hle := hpre.length_le
    have hlen := length_of_isEntry he
    rw [haddr.length_eq, List.length_append, hcount] at hle
    rw [hcount]
    by_cases hroom : plen ≤ e.length
    · rwa [hend hroom, List.length_nil, Nat.add_zero] at hle
    · omega
  have h18 := length_of_take_entryText he hpre hlong
  refine ⟨h18, ?_⟩
  rw [hcount, macAddrLen] at hlong
  rw [macAddrLen] at h18
  rcases hcases with heq | ⟨b, heq, hreport⟩
  · -- nothing but the address
    have hsum := congrArg List.length heq
    rw [List.length_append, hcount, h17] at hsum
    exact .inl (by omega)
  · have hsum := congrArg List.length heq
    simp only [List.length_append, hcount, h17, List.length_singleton] at hsum
    have hmin : 18 ≤ min (plen - 1) e.length := by
      by_cases hroom : plen ≤ e.length
      · rw [hend hroom, List.length_nil] at hsum
        omega
      · omega
    obtain ⟨hblank, hnext⟩ := getD_of_append haddr.length_eq heq (by rw [hcount]; exact hmin)
    -- what follows the blank would be another address of the line
    have hexact : min (plen - 1) e.length = 18 := by
      by_contra hmore
      have hb : b ≠ [] := by
        intro hnil
        rw [hnil, List.length_nil] at hsum
        omega
      refine hone ⟨hblank, ?_⟩
      rw [hnext (by rw [hcount]; omega)]
      exact hreport.head hb haddrs
    by_cases hplen : plen = 19
    · exact .inr (.inl ⟨hplen, hblank⟩)
    · have he18 : e.length = 18 := by omega
      have hsplit := List.append_inj heq (by
        rw [hcount, hexact, List.length_append, haddr.length_eq]
        rfl)
      refine .inr (.inr ⟨he18, by omega, ?_⟩)
      rw [← he18, ← hgoOn (by omega), hsplit.2]
      exact hreport

/-- **The lines are whole** when whole addresses are printed, and no line has two of them. -/
theorem whole_of_isReport (hes : ∀ e ∈ es, isEntry e = true) (hone : ∀ e ∈ es, OneAddress e)
    {addrs : List Bytes} (haddrs : ∀ a ∈ addrs, IsAddress a)
    (h : IsReport (es.map (List.take macAddrLen) ++ addrs) (shown plen es)) : Whole plen es := by
  induction es generalizing plen with
  | nil => trivial
  | cons e es ih =>
    obtain ⟨-, htail⟩ := List.forall_mem_cons.1 hes
    obtain ⟨hone, hones⟩ := List.forall_mem_cons.1 hone
    have hrest : ∀ a ∈ es.map (List.take macAddrLen) ++ addrs, IsAddress a := by
      intro a ha
      rcases List.mem_append.1 ha with ha | ha
      · obtain ⟨e', he', rfl⟩ := List.mem_map.1 ha
        exact isAddress_of_isEntry (htail e' he')
      · exact haddrs a ha
    by_cases hless : plen + 1 < e.length
    · exact .inl hless
    · obtain ⟨hlen, hroom⟩ := whole_step hes hone (Nat.le_of_not_lt hless) hrest h
      refine .inr ⟨hlen, ?_⟩
      rcases hroom with h18 | hblank | ⟨he18, hlt, hnext⟩
      · exact .inl h18
      · exact .inr (.inl hblank)
      · exact .inr (.inr ⟨he18, hlt, ih htail hones hnext⟩)

end

/-! ### The report of a file -/

/-- The buffer takes every line of the file. -/
def LinesFit (text : Bytes) : Prop := ∀ l ∈ textLines lf text, l.length ≤ maxConfLineLen - 1

/-- The lines of the file that are reported, if there is room. -/
def reported (text : Bytes) : List Bytes := ((confLines text).filter isEntry).take maxAllowedMac

/-- The room behind the beginning of the response. -/
def listRoom (cNum : EsapCmd) (plen : ℕ) : ℕ := plen - (scnprintf plen (listHead cNum)).length

section

variable {l text : Bytes}

/-- The end of the string is not within an address. -/
theorem take_cstr (h : isEntry l = true ∨ isEntry (cstr l) = true) :
    (cstr l).take macAddrLen = l.take macAddrLen := by
  obtain ⟨r, hr⟩ : cstr l <+: l := List.takeWhile_prefix _
  have hlen : macAddrLen ≤ (cstr l).length := by
    rcases h with h | h
    · have haddr := isAddress_of_isEntry h
      have hcstr : cstr l = l.take macAddrLen ++ cstr (l.drop macAddrLen) := by
        have hnul : ∀ c ∈ l.take macAddrLen, decide (c ≠ 0) = true := by
          intro c hc
          refine decide_eq_true ?_
          rintro rfl
          exact haddr.notMem (by decide) (by decide) hc
        rw [cstr, cstr, ← List.takeWhile_append_of_pos hnul, List.take_append_drop]
      rw [hcstr, List.length_append, haddr.length_eq]
      exact Nat.le_add_right _ _
    · exact length_of_isEntry h
  have htake : (cstr l ++ r).take macAddrLen = (cstr l).take macAddrLen :=
    List.take_append_of_le_length hlen
  rw [← htake, hr]

theorem isEntry_cstr (l : Bytes) : isEntry (cstr l) = isEntry l := by
  rw [Bool.eq_iff_iff]
  constructor
  · intro h
    rw [← isEntry_take, ← take_cstr (.inr h), isEntry_take]
    exact h
  · intro h
    rw [← isEntry_take, take_cstr (.inl h), isEntry_take]
    exact h

/-- The addresses of the file are those of the lines in the buffer. -/
theorem addresses_eq (hfit : LinesFit text) :
    addresses text = ((confLines text).filter isEntry).map (List.take macAddrLen) := by
  have hchunks : chunks lf (maxConfLineLen - 1) text = textLines lf text :=
    chunks_eq_textLines (by decide) hfit
  have hcomp : isEntry ∘ cstr = isEntry := by
    funext l
    exact isEntry_cstr l
  rw [addresses, confLines, hchunks, List.filter_map, List.map_map, hcomp]
  refine List.map_congr_left fun l hl => ?_
  exact (take_cstr (.inl (List.mem_filter.1 hl).2)).symm

theorem isEntry_of_mem_reported {e : Bytes} (he : e ∈ reported text) : isEntry e = true :=
  (List.mem_filter.1 (List.mem_of_mem_take he)).2

variable {fopen : Bytes → Option Bytes} {fconfile : Option Bytes} {cNum : EsapCmd} {sNum : EsapStr}
  {plen : ℕ}

/-- The response for a list that can be opened. -/
theorem getMacList_eq (hlist : listFile cNum = some sNum)
    (hopen : (getAllowDenyFileName fconfile (qsapStr sNum) maxConfLineLen).bind fopen = some text) :
    getMacList fopen fconfile cNum plen =
      scnprintf plen (listHead cNum) ++ shown (listRoom cNum plen) (reported text) := by
  unfold getMacList
  rw [hlist]
  dsimp only
  rw [hopen]
  dsimp only
  rw [macListLoop_eq _ (by decide)]
  rfl

theorem reportsWhole_iff_isReport (hlist : listFile cNum = some sNum)
    (hopen : (getAllowDenyFileName fconfile (qsapStr sNum) maxConfLineLen).bind fopen = some text) :
    ReportsWhole fopen fconfile cNum plen text ↔
      IsReport (addresses text) (shown (listRoom cNum plen) (reported text)) := by
  rw [ReportsWhole, getMacList_eq hlist hopen]
  constructor
  · rintro ⟨body, heq, hreport⟩
    rwa [List.append_cancel_left heq]
  · intro hreport
    exact ⟨_, rfl, hreport⟩

/-- A configuration file with the path of the list. -/
def listConf : Option Bytes := some (ascii "deny_mac_file=/d" ++ [lf])

end

end Softap

end Msm8909w
