import Msm8909w.Lib.Loop
import Msm8909w.Softap.MacList
import Msm8909w.Softap.RoundTrip

/-!
# Adding MAC addresses to a list (`qsap_api.c`)

`qsap_add_mac_to_file` appends the addresses of a value to a MAC list.  The value is walked through
with a pointer, and the characters that are left are counted by `len`.  The pointer always goes one
character beyond the one the token ends at, also when this is the NUL at the end of the value, but
the count is only lowered when another character follows: a value that ends behind a character that
has been passed over leaves a count of one, and the loop goes on behind the NUL until there is a
byte that is not zero.

* `ends_iff` : what the loop prints, and when it ends,
* `found_eq`, `overruns_iff` : the tokens of the loop are blocks of the words of the value, and the
  loop runs over its end behind a blank, or behind a word whose length is a multiple of 18,
* `addMac_words` : when the addresses among the words of the value are appended, whatever the memory
  behind the value holds.
-/

namespace Msm8909w

namespace Softap

/-- The memory from the beginning of the value on: the value, a NUL, and what lies beyond. -/
def memory (v : Bytes) (beyond : ℕ → UInt8) (i : ℕ) : UInt8 := (v ++ [0]).getD i (beyond i)

/-- The inner loop: at most `n` characters, up to a blank or a NUL. -/
def macToken (mem : ℕ → UInt8) : ℕ → ℕ → Bytes
  | 0, _ => []
  | n + 1, pVal =>
    if mem pVal = space ∨ mem pVal = 0 then [] else mem pVal :: macToken mem n (pVal + 1)

/-- The variables of the outer loop, and what has been printed to the file. -/
structure AddState where
  pVal : ℕ
  len : ℤ
  numMacs : ℤ
  printed : Bytes

/-- One turn of the outer loop. -/
def addTurn (mem : ℕ → UInt8) (s : AddState) : AddState ⊕ Bytes :=
  if s.len > 0 then
    let macbuf := macToken mem macAddrLen s.pVal
    let pVal := s.pVal + macbuf.length + 1
    let len := s.len - macbuf.length - if mem pVal ≠ 0 then 1 else 0
    if isValidMacAddress macbuf then
      let printed := s.printed ++ (macbuf ++ [lf])
      if s.numMacs + 1 = maxAllowedMac then .inr printed
      else .inl ⟨pVal, len, s.numMacs + 1, printed⟩
    else .inl ⟨pVal, len, s.numMacs, s.printed⟩
  else .inr s.printed

/-- `num_macs` after the file has been read: calls of `fgets` with a buffer of 32 bytes, counted in
16 bits. -/
def countMacs (text : Bytes) : ℤ := Int.bmod (chunks lf 31 text).length (2 ^ 16)

/-- `qsap_add_mac_to_file` returns with a response and a file.  The file is created when there is
none; `append` and `update` tell whether it can be opened in these two modes. -/
def AddMacToFile (append update : Bool) (file : Option Bytes) (v : Bytes) (beyond : ℕ → UInt8)
    (plen : ℕ) (presp : Bytes) (file' : Option Bytes) : Prop :=
  let text := file.getD []
  if append = false then presp = scnprintf plen errResUnavailable ∧ file' = file
  else if update = false then presp = scnprintf plen errResUnavailable ∧ file' = some text
  else if maxAllowedMac ≤ countMacs text then presp = scnprintf plen errUnknown ∧ file' = some text
  else
    ∃ printed, Ends (addTurn (memory v beyond)) ⟨0, v.length, countMacs text, []⟩ printed ∧
      presp = scnprintf plen success ∧ file' = some (text ++ printed)

/-! ### What there is to be added -/

/-- The addresses among the words of a value. -/
def macWords (v : Bytes) : List Bytes :=
  (v.splitOn space).filter fun w => w.length = macAddrLen && isValidMacAddress w

/-- The room for lines in a file. -/
def linesLeft (text : Bytes) : ℕ := maxAllowedMac - (textLines lf text).length

/-- The addresses of the value are appended, each as a line, until the file has fifteen lines,
whatever lies behind the value. -/
def AddsWords (file : Option Bytes) (v : Bytes) : Prop :=
  ∃ text', (∀ beyond plen, ∃ presp, AddMacToFile true true file v beyond plen presp (some text')) ∧
    textLines lf text' = textLines lf (file.getD []) ++
      ((macWords v).take (linesLeft (file.getD []))).map (· ++ [lf])

/-! ### The walk through a value -/

/-- The token at the front of the rest of a value. -/
def piece (s : Bytes) : Bytes := (s.takeWhile (· ≠ space)).take macAddrLen

/-- What is left behind the token and the character after it. -/
def afterPiece (s : Bytes) : Bytes := s.drop ((piece s).length + 1)

theorem length_afterPiece_lt {s : Bytes} (hs : s ≠ []) : (afterPiece s).length < s.length := by
  have hpos := List.length_pos_of_ne_nil hs
  rw [afterPiece, List.length_drop]
  omega

/-- The tokens of a value. -/
def pieces (s : Bytes) : List Bytes :=
  if s = [] then [] else piece s :: pieces (afterPiece s)
termination_by s.length
decreasing_by exact length_afterPiece_lt ‹_›

/-- The value ends with a character that is passed over. -/
def overruns (s : Bytes) : Prop :=
  if s = [] then False else s.length = (piece s).length + 1 ∨ overruns (afterPiece s)
termination_by s.length
decreasing_by exact length_afterPiece_lt ‹_›

section

variable {v s printed r : Bytes} {beyond mem : ℕ → UInt8} {p : ℕ} {num len : ℤ}

theorem memory_of_drop_cons {c : UInt8} (h : v.drop p = c :: s) : memory v beyond p = c := by
  have hget : v[p]? = some c := by rw [← List.head?_drop, h, List.head?_cons]
  obtain ⟨hlt, hc⟩ := List.getElem?_eq_some_iff.1 hget
  rw [memory, List.getD_eq_getElem?_getD, List.getElem?_append_left hlt, hget, Option.getD_some]

theorem memory_length (v : Bytes) (beyond : ℕ → UInt8) : memory v beyond v.length = 0 := by
  rw [memory, List.getD_eq_getElem?_getD, List.getElem?_append_right le_rfl, Nat.sub_self]
  rfl

/-- The inner loop finds the token. -/
theorem macToken_eq (hnul : 0 ∉ v) (hp : p ≤ v.length) (n : ℕ) :
    macToken (memory v beyond) n p = ((v.drop p).takeWhile (· ≠ space)).take n := by
  induction n generalizing p with
  | zero => rw [macToken, List.take_zero]
  | succ n ih =>
    cases hs : v.drop p with
    | nil =>
      have hp' : p = v.length := by
        have hle := List.drop_eq_nil_iff.1 hs
        omega
      rw [macToken, hp', memory_length, if_pos (.inr rfl)]
      rfl
    | cons c s =>
      have hc : c ≠ 0 := by
        rintro rfl
        exact hnul (List.mem_of_mem_drop (hs ▸ List.mem_cons_self))
      have hlt : p < v.length := by
        by_contra hge
        rw [List.drop_of_length_le (by omega)] at hs
        cases hs
      have hdrop : v.drop (p + 1) = s := by rw [← List.tail_drop, hs, List.tail_cons]
      rw [macToken, memory_of_drop_cons hs, ih hlt, hdrop]
      by_cases hspace : c = space
      · rw [if_pos (.inl hspace), List.takeWhile_cons_of_neg (by simp [hspace]), List.take_nil]
      · rw [if_neg (by simp [hspace, hc]), List.takeWhile_cons_of_pos (by simp [hspace]),
          List.take_succ_cons]

/-! ### The loop -/

/-- No characters are left. -/
theorem ends_iff_of_len (hlen : len ≤ 0) :
    Ends (addTurn mem) ⟨p, len, num, printed⟩ r ↔ r = printed :=
  ends_iff_of_stop (if_neg (not_lt.2 hlen))

theorem addTurn_of_zero (hp : mem p = 0) :
    addTurn mem ⟨p, 1, num, printed⟩ =
      .inl ⟨p + 1, 1 - if mem (p + 1) ≠ 0 then 1 else 0, num, printed⟩ := by
  have htoken : macToken mem macAddrLen p = [] := if_pos (.inr hp)
  have hvalid : isValidMacAddress [] = false := by decide
  simp [addTurn, htoken, hvalid]

/-- Behind the NUL nothing is printed, and the loop ends at a byte that is not zero. -/
theorem ends_iff_of_zero (hp : mem p = 0) :
    Ends (addTurn mem) ⟨p, 1, num, printed⟩ r ↔ r = printed ∧ ∃ q, p < q ∧ mem q ≠ 0 := by
  constructor
  · intro h
    generalize hst : (⟨p, 1, num, printed⟩ : AddState) = st at h
    induction h generalizing p with
    | stop h =>
      rw [← hst, addTurn_of_zero hp] at h
      cases h
    | goOn h h' ih =>
      rw [← hst, addTurn_of_zero hp] at h
      by_cases hnext : mem (p + 1) = 0
      · rw [if_neg (not_not.2 hnext)] at h
        obtain ⟨hr, q, hq, hmem⟩ := ih hnext (Sum.inl.inj h)
        exact ⟨hr, q, by omega, hmem⟩
      · rw [if_pos hnext] at h
        rw [← Sum.inl.inj h, ends_iff_of_len (by decide)] at h'
        exact ⟨h', p + 1, Nat.lt_succ_self p, hnext⟩
  · rintro ⟨rfl, q, hq, hmem⟩
    obtain ⟨d, rfl⟩ := Nat.exists_eq_add_of_lt hq
    induction d generalizing p with
    | zero =>
      refine .goOn (addTurn_of_zero hp) ?_
      rw [if_pos hmem, ends_iff_of_len (by decide)]
    | succ d ih =>
      refine .goOn (addTurn_of_zero hp) ?_
      by_cases hnext : mem (p + 1) = 0
      · rw [if_neg (not_not.2 hnext)]
        refine ih hnext (by omega) ?_
        rwa [Nat.add_right_comm p 1 d]
      · rw [if_pos hnext, ends_iff_of_len (by decide)]

/-- The tokens that are addresses. -/
def found (s : Bytes) : List Bytes := (pieces s).filter isValidMacAddress

/-- The addresses as they are printed. -/
def lineText (addrs : List Bytes) : Bytes := addrs.flatMap (· ++ [lf])

/-- The loop, with room for `m` addresses: what has been printed in the end, and that it comes to an
end. -/
def Finishes (v : Bytes) (beyond : ℕ → UInt8) (s : Bytes) (m : ℕ) (printed r : Bytes) : Prop :=
  r = printed ++ lineText ((found s).take m) ∧
    (m ≤ (found s).length ∨ ¬ overruns s ∨ ∃ q, v.length < q ∧ memory v beyond q ≠ 0)

theorem pieces_nil : pieces [] = [] := by rw [pieces, if_pos rfl]

theorem overruns_nil : ¬ overruns [] := by rw [overruns, if_pos rfl]; exact not_false

theorem pieces_of_ne_nil (hs : s ≠ []) : pieces s = piece s :: pieces (afterPiece s) := by
  rw [pieces, if_neg hs]

theorem overruns_of_ne_nil (hs : s ≠ []) :
    overruns s ↔ s.length = (piece s).length + 1 ∨ overruns (afterPiece s) := by
  rw [overruns, if_neg hs]

theorem length_piece_le (s : Bytes) : (piece s).length ≤ s.length :=
  (List.length_take_le' _ _).trans (List.takeWhile_prefix _).length_le

theorem finishes_nil {m : ℕ} : Finishes v beyond [] m printed r ↔ r = printed := by
  rw [Finishes, found, pieces_nil, List.filter_nil, List.take_nil, lineText, List.flatMap_nil,
    List.append_nil]
  exact and_iff_left (.inr (.inl overruns_nil))

/-- The state behind a token. -/
theorem ends_afterPiece (hs : s ≠ []) (hdrop : v.drop p = s) (hnul : 0 ∉ v) {m : ℕ} (hm : 0 < m)
    (ih : Ends (addTurn (memory v beyond))
        ⟨p + (piece s).length + 1, (afterPiece s).length, num, printed⟩ r ↔
      Finishes v beyond (afterPiece s) m printed r) :
    Ends (addTurn (memory v beyond)) ⟨p + (piece s).length + 1, s.length - (piece s).length -
        if memory v beyond (p + (piece s).length + 1) ≠ 0 then 1 else 0, num, printed⟩ r ↔
      r = printed ++ lineText ((found (afterPiece s)).take m) ∧
        (m ≤ (found (afterPiece s)).length ∨ ¬ overruns s ∨
          ∃ q, v.length < q ∧ memory v beyond q ≠ 0) := by
  have hle := length_piece_le s
  have hlen : s.length = v.length - p := by rw [← hdrop, List.length_drop]
  have hpos := List.length_pos_of_ne_nil hs
  have hafter : v.drop (p + (piece s).length + 1) = afterPiece s := by
    rw [afterPiece, ← hdrop, List.drop_drop, Nat.add_assoc]
  rw [overruns_of_ne_nil hs]
  rcases Nat.lt_trichotomy ((piece s).length + 1) s.length with hlt | heq | hgt
  · -- another character follows, and the count is right
    cases hcons : afterPiece s with
    | nil =>
      rw [afterPiece, List.drop_eq_nil_iff] at hcons
      omega
    | cons c s' =>
      have hc : c ≠ 0 := by
        rintro rfl
        exact hnul (List.mem_of_mem_drop ((hafter.trans hcons).symm ▸ List.mem_cons_self))
      have hcount : (s.length : ℤ) - (piece s).length - 1 = (afterPiece s).length := by
        rw [afterPiece, List.length_drop]
        omega
      have hover : s.length = (piece s).length + 1 ∨ overruns (afterPiece s) ↔
          overruns (afterPiece s) := or_iff_right (by omega)
      rw [memory_of_drop_cons (hafter.trans hcons), if_pos hc, hcount, ih, ← hcons, Finishes, hover]
  · -- the value ends behind the character that is passed over
    have hnil : afterPiece s = [] := by
      rw [afterPiece, List.drop_eq_nil_iff]
      omega
    have hend : p + (piece s).length + 1 = v.length := by omega
    have hone : (s.length : ℤ) - (piece s).length - 0 = 1 := by omega
    rw [hend, memory_length, if_neg (not_not.2 rfl), hone,
      ends_iff_of_zero (memory_length v beyond), hnil, found, pieces_nil]
    simp [lineText, heq, Nat.pos_iff_ne_zero.1 hm]
  · -- the token ends with the value
    have hnil : afterPiece s = [] := by
      rw [afterPiece, List.drop_eq_nil_iff]
      omega
    have hover : ¬ (s.length = (piece s).length + 1 ∨ overruns (afterPiece s)) := by
      rw [hnil, not_or]
      exact ⟨by omega, overruns_nil⟩
    rw [ends_iff_of_len (by split_ifs <;> omega), hnil, found, pieces_nil]
    simp only [List.filter_nil, List.take_nil, lineText, List.flatMap_nil, List.append_nil]
    rw [← hnil]
    exact (and_iff_left (.inr (.inl hover))).symm

/-- One turn: a token and the character behind it. -/
theorem addTurn_of_ne_nil (hnul : 0 ∉ v) (hp : p ≤ v.length) (hdrop : v.drop p = s) (hs : s ≠ [])
    (num : ℤ) (printed : Bytes) :
    addTurn (memory v beyond) ⟨p, s.length, num, printed⟩ =
      if isValidMacAddress (piece s) then
        if num + 1 = maxAllowedMac then .inr (printed ++ (piece s ++ [lf]))
        else .inl ⟨p + (piece s).length + 1, s.length - (piece s).length -
          if memory v beyond (p + (piece s).length + 1) ≠ 0 then 1 else 0, num + 1,
          printed ++ (piece s ++ [lf])⟩
      else .inl ⟨p + (piece s).length + 1, s.length - (piece s).length -
        if memory v beyond (p + (piece s).length + 1) ≠ 0 then 1 else 0, num, printed⟩ := by
  have hpos := List.length_pos_of_ne_nil hs
  have hlen : (s.length : ℤ) > 0 := by omega
  have htoken : macToken (memory v beyond) macAddrLen p = piece s := by
    rw [macToken_eq hnul hp, hdrop, piece]
  simp only [addTurn, htoken, hlen, if_true]

/-- **The loop**: it prints the tokens that are addresses, as long as there is room, and comes to an
end unless it runs over the end of the value into zeros only. -/
theorem ends_iff (hnul : 0 ∉ v) (hp : p ≤ v.length) (hdrop : v.drop p = s) {m : ℕ} (hm : 0 < m)
    (hnum : num + m = maxAllowedMac) :
    Ends (addTurn (memory v beyond)) ⟨p, s.length, num, printed⟩ r ↔
      Finishes v beyond s m printed r := by
  induction hn : s.length using Nat.strong_induction_on generalizing s p num printed m with
  | _ n ih =>
    subst hn
    by_cases hs : s = []
    · rw [hs, finishes_nil]
      exact ends_iff_of_len le_rfl
    · have hlt := length_afterPiece_lt hs
      have hle := length_piece_le s
      have hlen : s.length = v.length - p := by rw [← hdrop, List.length_drop]
      have hpos := List.length_pos_of_ne_nil hs
      have hturn := @addTurn_of_ne_nil _ _ beyond _ hnul hp hdrop hs num printed
      have hnext : ∀ {num' : ℤ} {printed' : Bytes} {m' : ℕ}, 0 < m' → num' + m' = maxAllowedMac →
          (Ends (addTurn (memory v beyond))
              ⟨p + (piece s).length + 1, (afterPiece s).length, num', printed'⟩ r ↔
            Finishes v beyond (afterPiece s) m' printed' r) := by
        intro num' printed' m' hm' hnum'
        by_cases hin : p + (piece s).length + 1 ≤ v.length
        · refine ih _ hlt hin ?_ hm' hnum' rfl
          rw [afterPiece, ← hdrop, List.drop_drop, Nat.add_assoc]
        · have hnil : afterPiece s = [] := by
            rw [afterPiece, List.drop_eq_nil_iff]
            omega
          rw [hnil, finishes_nil]
          exact ends_iff_of_len le_rfl
      by_cases hvalid : isValidMacAddress (piece s) = true
      · have hfound : found s = piece s :: found (afterPiece s) := by
          rw [found, pieces_of_ne_nil hs, List.filter_cons_of_pos hvalid, found]
        have hprinted : ∀ L, printed ++ lineText (piece s :: L) =
            printed ++ (piece s ++ [lf]) ++ lineText L := by
          intro L
          rw [lineText, List.flatMap_cons, ← List.append_assoc, lineText]
        rw [if_pos hvalid] at hturn
        by_cases hlast : num + 1 = maxAllowedMac
        · rw [if_pos hlast] at hturn
          have hone : m = 0 + 1 := by omega
          rw [ends_iff_of_stop hturn, Finishes, hfound, hone, List.take_succ_cons, hprinted,
            List.take_zero]
          simp [lineText]
        · rw [if_neg hlast] at hturn
          obtain ⟨m, rfl⟩ : ∃ m', m = m' + 1 := ⟨m - 1, by omega⟩
          have hm' : 0 < m := by
            by_contra hzero
            exact hlast (by omega)
          rw [ends_iff_of_goOn hturn, ends_afterPiece hs hdrop hnul hm' (hnext hm' (by omega)),
            Finishes, hfound, List.take_succ_cons, hprinted, List.length_cons,
            Nat.add_le_add_iff_right]
      · have hfound : found s = found (afterPiece s) := by
          rw [found, pieces_of_ne_nil hs, List.filter_cons_of_neg hvalid, found]
        rw [if_neg hvalid] at hturn
        rw [ends_iff_of_goOn hturn, ends_afterPiece hs hdrop hnul hm (hnext hm hnum), Finishes,
          hfound]

end

/-! ### The words of a value -/

/-- A word is cut into blocks of 17 characters, with every eighteenth character passed over. -/
def blocks (w : Bytes) : List Bytes :=
  (List.range (w.length / 18 + 1)).map fun i => slice w (18 * i) macAddrLen

/-- The value ends with a blank, or with a word whose last character is passed over. -/
def EndsInGap (v : Bytes) : Prop := v ≠ [] ∧ 18 ∣ ((v.splitOn space).getLastD []).length

section

variable {v w rest : Bytes}

theorem blocks_of_lt (hlen : w.length < 18) : blocks w = [w] := by
  rw [blocks, Nat.div_eq_of_lt hlen]
  change [slice w 0 macAddrLen] = [w]
  rw [slice, List.drop_zero, List.take_of_length_le (by rw [macAddrLen]; omega)]

theorem blocks_of_le (hlen : 18 ≤ w.length) :
    blocks w = w.take macAddrLen :: blocks (w.drop 18) := by
  have hdiv : w.length / 18 = (w.drop 18).length / 18 + 1 := by
    rw [List.length_drop]
    omega
  rw [blocks, hdiv, List.range_succ_eq_map, List.map_cons, List.map_map, blocks]
  congr 1
  refine List.map_congr_left fun i _ => ?_
  change slice w (18 * (i + 1)) macAddrLen = slice (w.drop 18) (18 * i) macAddrLen
  rw [slice, slice, List.drop_drop, Nat.mul_succ, Nat.add_comm]

/-- The word at the front. -/
theorem piece_append (hw : space ∉ w) (hrest : ∀ c ∈ rest.head?, c = space) :
    piece (w ++ rest) = w.take macAddrLen := by
  have hplain : ∀ c ∈ w, decide (c ≠ space) = true := by
    intro c hc
    refine decide_eq_true ?_
    rintro rfl
    exact hw hc
  have hnil : rest.takeWhile (· ≠ space) = [] := by
    cases rest with
    | nil => rfl
    | cons c rest => exact List.takeWhile_cons_of_neg (by simp [hrest c rfl])
  rw [piece, List.takeWhile_append_of_pos hplain, hnil, List.append_nil]

theorem afterPiece_of_lt (hw : space ∉ w) (hrest : ∀ c ∈ rest.head?, c = space)
    (hlen : w.length < 18) : afterPiece (w ++ rest) = rest.drop 1 := by
  have htake : (w.take macAddrLen).length = w.length := by
    rw [List.length_take, macAddrLen]
    omega
  rw [afterPiece, piece_append hw hrest, htake, List.drop_append, List.drop_of_length_le (by omega),
    List.nil_append, Nat.add_sub_cancel_left]

theorem afterPiece_of_le (hw : space ∉ w) (hrest : ∀ c ∈ rest.head?, c = space)
    (hlen : 18 ≤ w.length) : afterPiece (w ++ rest) = w.drop 18 ++ rest := by
  have htake : (w.take macAddrLen).length = 17 := by
    rw [List.length_take, macAddrLen]
    omega
  rw [afterPiece, piece_append hw hrest, htake, List.drop_append_of_le_length hlen]

theorem space_notMem_drop (hw : space ∉ w) : space ∉ w.drop 18 :=
  fun h => hw (List.mem_of_mem_drop h)

/-- Induction over a word by its blocks. -/
theorem block_induction {P : (w : Bytes) → space ∉ w → Prop}
    (short : ∀ w hw, w.length < 18 → P w hw)
    (long : ∀ w hw, 18 ≤ w.length → P (w.drop 18) (space_notMem_drop hw) → P w hw) (w : Bytes)
    (hw : space ∉ w) : P w hw := by
  by_cases hlen : w.length < 18
  · exact short w hw hlen
  · have hlt : (w.drop 18).length < w.length := by
      rw [List.length_drop]
      omega
    exact long w hw (by omega) (block_induction short long (w.drop 18) (space_notMem_drop hw))
termination_by w.length

/-- Induction over a value by its words. -/
theorem word_induction {P : Bytes → Prop} (last : ∀ w, space ∉ w → P w)
    (next : ∀ w s, space ∉ w → P s → P (w ++ space :: s)) (v : Bytes) : P v := by
  by_cases hmem : space ∈ v
  · obtain ⟨w, s, rfl, hw⟩ := List.eq_append_cons_of_mem hmem
    have hlt : s.length < (w ++ space :: s).length := by
      rw [List.length_append, List.length_cons]
      omega
    exact next w s hw (word_induction last next s)
  · exact last v hmem
termination_by v.length

/-- The addresses of a word and of what follows it. -/
theorem found_append (hw : space ∉ w) (hrest : ∀ c ∈ rest.head?, c = space) :
    found (w ++ rest) = (blocks w).filter isValidMacAddress ++ found (rest.drop 1) := by
  induction w, hw using block_induction with
  | short w hw hlen =>
    by_cases hne : w ++ rest = []
    · obtain ⟨rfl, rfl⟩ := List.append_eq_nil_iff.1 hne
      rw [List.nil_append, List.drop_nil, found, pieces_nil]
      decide
    · rw [found, pieces_of_ne_nil hne, piece_append hw hrest, afterPiece_of_lt hw hrest hlen,
        blocks_of_lt hlen, List.take_of_length_le (by rw [macAddrLen]; omega)]
      exact List.filter_append [w] _
  | long w hw hlen ih =>
    have hne : w ++ rest ≠ [] := by
      intro hnil
      rw [(List.append_eq_nil_iff.1 hnil).1] at hlen
      cases hlen
    rw [found] at ih
    rw [found, pieces_of_ne_nil hne, piece_append hw hrest, afterPiece_of_le hw hrest hlen,
      blocks_of_le hlen]
    simp only [List.filter_cons, ih]
    split_ifs <;> rfl

theorem length_piece (hw : space ∉ w) : (piece w).length = min 17 w.length := by
  have hpiece := @piece_append w [] hw (by simp)
  rw [List.append_nil] at hpiece
  rw [hpiece, List.length_take, macAddrLen]

theorem overruns_word (hw : space ∉ w) : overruns w ↔ w ≠ [] ∧ 18 ∣ w.length := by
  have hrest : ∀ c ∈ ([] : Bytes).head?, c = space := by simp
  induction w, hw using block_induction with
  | short w hw hlen =>
    by_cases hne : w = []
    · rw [hne]
      exact iff_of_false overruns_nil fun h => h.1 rfl
    · have hpos := List.length_pos_of_ne_nil hne
      have htake := length_piece hw
      have hafter := afterPiece_of_lt hw hrest hlen
      rw [List.append_nil, List.drop_nil] at hafter
      rw [overruns_of_ne_nil hne, and_iff_right hne, hafter, or_iff_left overruns_nil]
      omega
  | long w hw hlen ih =>
    have hne : w ≠ [] := by
      rintro rfl
      cases hlen
    have htake := length_piece hw
    have hafter := afterPiece_of_le hw hrest hlen
    rw [List.append_nil, List.append_nil] at hafter
    have hdrop : w.drop 18 ≠ [] ↔ 18 < w.length := by
      rw [Ne, List.drop_eq_nil_iff]
      omega
    rw [overruns_of_ne_nil hne, and_iff_right hne, hafter,
      show overruns (w.drop 18) ↔ w.drop 18 ≠ [] ∧ 18 ∣ (w.drop 18).length from ih, hdrop,
      List.length_drop]
    omega

theorem overruns_append (hw : space ∉ w) (s : Bytes) :
    overruns (w ++ space :: s) ↔ s = [] ∨ overruns s := by
  have hrest : ∀ c ∈ (space :: s).head?, c = space := by simp
  induction w, hw using block_induction with
  | short w hw hlen =>
    rw [overruns_of_ne_nil (by simp), piece_append hw hrest, afterPiece_of_lt hw hrest hlen,
      List.take_of_length_le (by rw [macAddrLen]; omega)]
    simp
  | long w hw hlen ih =>
    have hlong : ¬ (w ++ space :: s).length = (w.take macAddrLen).length + 1 := by
      rw [List.length_append, List.length_take, List.length_cons, macAddrLen]
      omega
    rw [overruns_of_ne_nil (by simp), piece_append hw hrest, afterPiece_of_le hw hrest hlen,
      or_iff_right hlong]
    exact ih

/-- **The tokens of the loop that are addresses** are blocks of the words. -/
theorem found_eq (v : Bytes) :
    found v = (v.splitOn space).flatMap fun w => (blocks w).filter isValidMacAddress := by
  induction v using word_induction with
  | last w hw =>
    have hfound := @found_append w [] hw (by simp)
    rw [List.append_nil, List.drop_nil] at hfound
    rw [List.splitOn_eq_singleton hw, List.flatMap_singleton, hfound, found, pieces_nil]
    exact List.append_nil _
  | next w s hw ih =>
    rw [List.splitOn_append_cons_self_of_not_mem hw, List.flatMap_cons, found_append hw (by simp),
      List.drop_succ_cons, List.drop_zero, ih]

/-- The loop runs over the end of the value when this ends in a gap. -/
theorem overruns_iff (v : Bytes) : overruns v ↔ EndsInGap v := by
  induction v using word_induction with
  | last w hw =>
    rw [overruns_word hw, EndsInGap, List.splitOn_eq_singleton hw]
    rfl
  | next w s hw ih =>
    have hlast : (w :: s.splitOn space).getLastD [] = (s.splitOn space).getLastD [] := by
      rw [List.getLastD_cons, List.getLastD_eq_getLast?, List.getLastD_eq_getLast?,
        List.getLast?_eq_some_getLast (List.splitOn_ne_nil _ _)]
      rfl
    have hne : w ++ space :: s ≠ [] := by simp
    rw [overruns_append hw, ih, EndsInGap, EndsInGap, List.splitOn_append_cons_self_of_not_mem hw,
      hlast, and_iff_right hne]
    by_cases hs : s = []
    · simp [hs]
    · simp [hs]

end

/-! ### Lines of the file -/

section

variable {text : Bytes} {addrs lines : List Bytes}

theorem lineText_eq_flatten (addrs : List Bytes) :
    lineText addrs = (addrs.map (· ++ [lf])).flatten :=
  List.flatMap_def

theorem textLines_lineText (haddrs : ∀ a ∈ addrs, lf ∉ a) :
    textLines lf (lineText addrs) = addrs.map (· ++ [lf]) := by
  have hlines := @textLines_flatten_append _ _ lf (addrs.map (· ++ [lf])) (by
    intro l hl
    obtain ⟨a, ha, rfl⟩ := List.mem_map.1 hl
    exact ⟨a, haddrs a ha, rfl⟩) []
  rw [List.append_nil] at hlines
  rw [lineText_eq_flatten, hlines]
  exact List.append_nil _

/-- A text of finished lines ends with the end of a line. -/
theorem newlineTerminated_flatten {ls : List Bytes} (hls : ∀ l ∈ ls, ∃ b, lf ∉ b ∧ l = b ++ [lf]) :
    NewlineTerminated ls.flatten := by
  intro hne
  rcases List.eq_nil_or_concat' ls with rfl | ⟨ls, l, rfl⟩
  · exact absurd rfl hne
  · obtain ⟨b, -, rfl⟩ := hls l (by simp)
    rw [List.flatten_concat, ← List.append_assoc, List.getLast?_concat]

/-- What has been printed is a number of further lines if and only if the last line of the file is a
finished one. -/
theorem textLines_append_iff (haddrs : ∀ a ∈ addrs, lf ∉ a) :
    textLines lf (text ++ lineText addrs) = textLines lf text ++ lines.map (· ++ [lf]) ↔
      (NewlineTerminated text ∨ addrs = []) ∧ addrs = lines := by
  obtain ⟨ls, t, hls, ht, rfl⟩ := exists_finished lf text
  by_cases hnil : t = []
  · have hinj : Function.Injective fun a : Bytes => a ++ [lf] :=
      fun a b h => List.append_cancel_right h
    subst hnil
    rw [List.append_nil, textLines_flatten_append hls, textLines_lineText haddrs,
      ← List.append_nil ls.flatten, textLines_flatten_append hls, List.append_nil]
    change ls ++ _ = ls ++ [] ++ _ ↔ _
    rw [List.append_nil, List.append_cancel_left_eq, (List.map_injective_iff.2 hinj).eq_iff,
      and_iff_right (.inl (newlineTerminated_flatten hls))]
  · have hlast : ¬ NewlineTerminated (ls.flatten ++ t) := by
      intro h
      have heq := h (by simp [hnil])
      rw [List.getLast?_append_of_ne_nil _ hnil] at heq
      exact ht (List.mem_of_getLast? heq)
    rw [or_iff_right hlast, textLines_flatten_append hls, textLines_of_notMem ht hnil]
    cases addrs with
    | nil =>
      rw [lineText, List.flatMap_nil, List.append_nil, textLines_flatten_append hls,
        textLines_of_notMem ht hnil, and_iff_right rfl, List.self_eq_append_right,
        List.map_eq_nil_iff]
      exact eq_comm
    | cons a addrs =>
      have ha : lf ∉ t ++ a := by
        rw [List.mem_append, not_or]
        exact ⟨ht, haddrs a List.mem_cons_self⟩
      have htext : ls.flatten ++ t ++ lineText (a :: addrs) =
          ls.flatten ++ (t ++ a ++ [lf] ++ lineText addrs) := by
        simp [lineText]
      rw [htext, textLines_flatten_append hls, textLines_line ha]
      refine iff_of_false (fun h => ?_) fun h => List.cons_ne_nil _ _ h.1
      rw [List.append_assoc ls, List.append_cancel_left_eq, List.singleton_append] at h
      have hlen := congrArg List.length (List.cons.inj h).1
      rw [List.length_append, List.length_append, List.length_singleton] at hlen
      omega

end

/-! ### Whole words -/

/-- The addresses in the words of a value, and whether they are whole words. -/
def items (v : Bytes) : List (Bytes × Bool) :=
  (v.splitOn space).flatMap fun w =>
    ((blocks w).filter isValidMacAddress).map fun b => (b, decide (w.length = macAddrLen))

theorem found_eq_items (v : Bytes) : found v = (items v).map Prod.fst := by
  rw [found_eq, items, List.map_flatMap]
  congr 1
  funext w
  rw [List.map_map]
  exact (List.map_id' _).symm

theorem macWords_eq_items (v : Bytes) : macWords v = ((items v).filter Prod.snd).map Prod.fst := by
  rw [macWords, items]
  induction v.splitOn space with
  | nil => rfl
  | cons w ws ih =>
    rw [List.flatMap_cons, List.filter_append, List.map_append, ← ih]
    by_cases hlen : w.length = macAddrLen
    · have hblocks : blocks w = [w] := blocks_of_lt (by rw [hlen]; decide)
      by_cases hvalid : isValidMacAddress w = true
      · simp [hblocks, hlen, hvalid]
      · simp [hblocks, hlen, hvalid]
    · simp [hlen]

/-- A block that is an address has seventeen characters, none of which ends a line. -/
theorem lf_notMem_found {v a : Bytes} (ha : a ∈ found v) : lf ∉ a := by
  rw [found_eq, List.mem_flatMap] at ha
  obtain ⟨w, -, ha⟩ := ha
  obtain ⟨hblock, hvalid⟩ := List.mem_filter.1 ha
  obtain ⟨i, -, rfl⟩ := List.mem_map.1 hblock
  have hle : (slice w (18 * i) macAddrLen).length ≤ macAddrLen := List.length_take_le _ _
  have hlen : macAddrLen ≤ (slice w (18 * i) macAddrLen).length := by
    rw [isValidMacAddress, Bool.and_eq_true, decide_eq_true_eq] at hvalid
    exact hvalid.1
  have haddr : IsAddress (slice w (18 * i) macAddrLen) := ⟨le_antisymm hle hlen, hvalid⟩
  exact haddr.notMem (by decide) (by decide)

section

variable {α β : Type*} {l : List α} {f : α → β} {q : α → Bool} {m : ℕ}

theorem take_filter_of_forall (h : ∀ x ∈ l.take m, q x = true) :
    (l.filter q).take m = l.take m := by
  induction l generalizing m with
  | nil => rfl
  | cons x l ih =>
    cases m with
    | zero => rfl
    | succ m =>
      obtain ⟨hx, hl⟩ := List.forall_mem_cons.1 h
      rw [List.filter_cons_of_pos hx, List.take_succ_cons, List.take_succ_cons, ih hl]

/-- When all values differ, none of the first ones can be left out. -/
theorem forall_of_take_filter (hnodup : (l.map f).Nodup)
    (h : ((l.filter q).map f).take m = (l.map f).take m) : ∀ x ∈ l.take m, q x = true := by
  induction l generalizing m with
  | nil => simp
  | cons x l ih =>
    cases m with
    | zero => simp
    | succ m =>
      rw [List.map_cons, List.nodup_cons] at hnodup
      rw [List.take_succ_cons, List.forall_mem_cons]
      by_cases hx : q x = true
      · rw [List.filter_cons_of_pos hx, List.map_cons, List.map_cons, List.take_succ_cons,
          List.take_succ_cons] at h
        exact ⟨hx, ih hnodup.2 (List.cons.inj h).2⟩
      · rw [List.filter_cons_of_neg hx, List.map_cons, List.take_succ_cons] at h
        have hmem : f x ∈ (l.filter q).map f := by
          refine List.mem_of_mem_take (h ▸ List.mem_cons_self)
        obtain ⟨y, hy, hfy⟩ := List.mem_map.1 hmem
        exact absurd (List.mem_map.2 ⟨y, List.mem_of_mem_filter hy, hfy⟩) hnodup.1

theorem take_eq_take_iff {n : ℕ} : l.take m = l.take n ↔ m = n ∨ l.length ≤ min m n := by
  constructor
  · intro h
    have hlen := congrArg List.length h
    rw [List.length_take, List.length_take] at hlen
    omega
  · rintro (rfl | h)
    · rfl
    · rw [List.take_of_length_le (by omega), List.take_of_length_le (by omega)]

end

/-! ### Adding -/

/-- The room for addresses, by the count of the code. -/
def roomLeft (text : Bytes) : ℕ := (maxAllowedMac - countMacs text).toNat

/-- When the addresses of a value can be added to a file. -/
structure CanAdd (text v : Bytes) : Prop where
  /-- The loop does not run over the end of the value, or has no more room when it gets there. -/
  ended : roomLeft text ≤ (items v).length ∨ ¬ EndsInGap v
  /-- As long as there is room, addresses are whole words. -/
  whole : ∀ x ∈ (items v).take (roomLeft text), x.2 = true
  /-- The count gives the number of lines, or there is room enough in any case. -/
  counted : roomLeft text = linesLeft text ∨
    (macWords v).length ≤ min (roomLeft text) (linesLeft text)
  /-- The last line of the file is finished, or nothing is appended. -/
  terminated : NewlineTerminated text ∨ roomLeft text = 0 ∨ items v = []

section

variable {file : Option Bytes} {v text' : Bytes} {beyond : ℕ → UInt8} {plen : ℕ}

/-- What is in the file when `qsap_add_mac_to_file` returns. -/
theorem addMacToFile_iff (hnul : 0 ∉ v) :
    (∃ presp, AddMacToFile true true file v beyond plen presp (some text')) ↔
      text' = file.getD [] ++ lineText ((found v).take (roomLeft (file.getD []))) ∧
        (roomLeft (file.getD []) ≤ (found v).length ∨ ¬ overruns v ∨
          ∃ q, v.length < q ∧ memory v beyond q ≠ 0) := by
  simp only [AddMacToFile, Bool.true_eq_false, if_false, Option.some.injEq]
  split_ifs with hfull
  · have hroom : roomLeft (file.getD []) = 0 := Int.toNat_of_nonpos (by omega)
    rw [hroom, List.take_zero, lineText, List.flatMap_nil, List.append_nil,
      and_iff_left (.inl (Nat.zero_le _))]
    exact ⟨fun ⟨_, _, h⟩ => h, fun h => ⟨_, rfl, h⟩⟩
  · have hroom : countMacs (file.getD []) + roomLeft (file.getD []) = maxAllowedMac := by
      rw [roomLeft, Int.toNat_of_nonneg (by omega)]
      omega
    have hends : ∀ printed, Ends (addTurn (memory v beyond))
        ⟨0, v.length, countMacs (file.getD []), []⟩ printed ↔
          Finishes v beyond v (roomLeft (file.getD [])) [] printed := fun printed =>
      ends_iff hnul (Nat.zero_le _) List.drop_zero (by omega) hroom
    constructor
    · rintro ⟨_, printed, hprinted, _, htext⟩
      obtain ⟨hprinted, hend⟩ := (hends printed).1 hprinted
      rw [hprinted, List.nil_append] at htext
      exact ⟨htext, hend⟩
    · rintro ⟨htext, hend⟩
      exact ⟨_, _, (hends _).2 ⟨(List.nil_append _).symm, hend⟩, rfl, htext⟩

/-- The addresses of the value are added if and only if the loop ends in any case and prints just
them. -/
theorem addsWords_iff (hnul : 0 ∉ v) :
    AddsWords file v ↔
      (roomLeft (file.getD []) ≤ (found v).length ∨ ¬ overruns v) ∧
        (NewlineTerminated (file.getD []) ∨ (found v).take (roomLeft (file.getD [])) = []) ∧
          (found v).take (roomLeft (file.getD [])) =
            (macWords v).take (linesLeft (file.getD [])) := by
  have hlf : ∀ a ∈ (found v).take (roomLeft (file.getD [])), lf ∉ a :=
    fun a ha => lf_notMem_found (List.mem_of_mem_take ha)
  have hzero : ¬ ∃ q, v.length < q ∧ memory v (fun _ => 0) q ≠ 0 := by
    rintro ⟨q, hq, hmem⟩
    refine hmem ?_
    rw [memory, List.getD_eq_getElem?_getD, List.getElem?_eq_none (by simp; omega),
      Option.getD_none]
  rw [← textLines_append_iff hlf, AddsWords]
  simp only [addMacToFile_iff hnul]
  constructor
  · rintro ⟨text', hadd, hlines⟩
    obtain ⟨rfl, hend⟩ := hadd (fun _ => 0) 0
    refine ⟨?_, hlines⟩
    rcases hend with hroom | hover | hq
    · exact .inl hroom
    · exact .inr hover
    · exact absurd hq hzero
  · rintro ⟨hend, hlines⟩
    refine ⟨_, fun beyond _ => ⟨rfl, ?_⟩, hlines⟩
    rcases hend with hroom | hover
    · exact .inl hroom
    · exact .inr (.inl hover)

theorem length_macWords_le (v : Bytes) : (macWords v).length ≤ (items v).length := by
  rw [macWords_eq_items, List.length_map]
  exact List.length_filter_le _ _

theorem addsWords_of_canAdd (hnul : 0 ∉ v) (h : CanAdd (file.getD []) v) : AddsWords file v := by
  rw [addsWords_iff hnul, overruns_iff, found_eq_items, List.length_map]
  refine ⟨h.ended, ?_, ?_⟩
  · rcases h.terminated with hterm | hroom | hitems
    · exact .inl hterm
    · exact .inr (by rw [hroom, List.take_zero])
    · exact .inr (by rw [hitems, List.map_nil, List.take_nil])
  · have hwhole := take_filter_of_forall h.whole
    rw [← take_eq_take_iff.2 h.counted, macWords_eq_items, ← List.map_take, ← List.map_take, hwhole]

/-- When no address is given twice, the conditions are necessary. -/
theorem canAdd_of_addsWords (hnul : 0 ∉ v) (hnodup : ((items v).map Prod.fst).Nodup)
    (h : AddsWords file v) : CanAdd (file.getD []) v := by
  rw [addsWords_iff hnul, overruns_iff, found_eq_items, List.length_map] at h
  obtain ⟨hended, hterm, heq⟩ := h
  have hle := length_macWords_le v
  have hroom : ((items v).map Prod.fst).take (roomLeft (file.getD [])) =
      (macWords v).take (roomLeft (file.getD [])) := by
    rcases Nat.lt_or_ge (linesLeft (file.getD [])) (roomLeft (file.getD [])) with hlt | hge
    · have hlen := congrArg List.length heq
      rw [List.length_take, List.length_take, List.length_map] at hlen
      rw [heq]
      exact take_eq_take_iff.2 (.inr (by omega))
    · have htake := congrArg (List.take (roomLeft (file.getD []))) heq
      rwa [List.take_take, List.take_take, Nat.min_self, Nat.min_eq_left hge] at htake
  refine ⟨hended, ?_, take_eq_take_iff.1 (hroom.symm.trans heq), ?_⟩
  · rw [macWords_eq_items] at hroom
    exact forall_of_take_filter hnodup hroom.symm
  · rcases hterm with hterm | hnil
    · exact .inl hterm
    · rw [List.take_eq_nil_iff, List.map_eq_nil_iff] at hnil
      exact .inr hnil

/-- **Adding MAC addresses**: the addresses among the words of the value are appended, whatever lies
behind it, if they can be added, and, when no address is given twice, only if they can. -/
theorem addMac_words (file : Option Bytes) (hnul : 0 ∉ v) :
    (CanAdd (file.getD []) v → AddsWords file v) ∧
      (((items v).map Prod.fst).Nodup → (AddsWords file v ↔ CanAdd (file.getD []) v)) :=
  ⟨addsWords_of_canAdd hnul, fun hnodup =>
    ⟨canAdd_of_addsWords hnul hnodup, addsWords_of_canAdd hnul⟩⟩

/-- Two addresses with another word and two blanks between them, to a new file. -/
theorem addMac_words_two : AddsWords none (ascii "00:11:22:33:44:55  x 66:77:88:99:aa:BB") :=
  (addMac_words none (by decide)).1
    ⟨.inr (by unfold EndsInGap; decide +kernel), by decide +kernel, .inl (by decide +kernel),
      .inl fun h => absurd rfl h⟩

/-- A blank behind the address: the loop does not end in a memory of zeros. -/
theorem blank_behind_address : ¬ AddsWords none (ascii "00:11:22:33:44:55 ") := by
  intro h
  rw [addsWords_iff (by decide), overruns_iff, found_eq_items] at h
  rcases h.1 with hroom | hgap
  · exact absurd hroom (by decide +kernel)
  · refine hgap ?_
    unfold EndsInGap
    decide +kernel

end

end Softap

end Msm8909w
