import Mathlib.Data.List.Basic
import Msm8909w.Lib.Buffer

/-!
# Lines and dictionaries of datatop

The functions of `datatop_str.c` that cut a line out of a file and split it in place: the blanks of
a line become zero bytes, and pointers to what follows them are kept in a dictionary.  A pointer is
a position in the line it points into.

* `dtReadLine_line`, `dtReadLine_cut` : a line that fits is read as a whole, and of a longer one as
  much as fits,
* `splitBlanks_spec`, `map_cstr_itemStarts` : the pointers point to the items of the line,
* `dtFindDictIdx_eq` : a key is found where it is.
-/

namespace Msm8909w

namespace Datatop

def DTOP_DICT_SIZE : ℕ := 2048

/-- `struct dt_procdict`; the pointers are of type `P`. -/
structure ProcDict (P : Type) where
  max : ℕ
  key : Buffer P
  val : Buffer P

/-- The string at position `off` of a buffer of `size` bytes. -/
def cstr (b : Buffer UInt8) (size off : ℕ) : Bytes := (b.get off (size - off)).takeWhile (· ≠ 0)

/-! ### Reading a line -/

/-- The loop of `dt_read_line`, for `n` more bytes. -/
def readLineLoop (buf2 : Buffer UInt8) : ℕ → ℕ → ℕ → Buffer UInt8 → Buffer UInt8 × ℕ
  | 0, i, _, buf1 => (buf1, i)
  | n + 1, i, j, buf1 =>
    let buf1 := buf1.put i [buf2 j]
    if buf1 i = 10 then (buf1, i) else readLineLoop buf2 n (i + 1) (j + 1) buf1

/-- `dt_read_line`: the buffer afterwards, and the length of the line. -/
def dtReadLine (buf1 : Buffer UInt8) (len1 : ℕ) (buf2 : Buffer UInt8) (len2 start : ℕ) :
    Buffer UInt8 × ℕ :=
  if len1 < 1 ∨ len2 < 1 ∨ start > len2 then (buf1, 0)
  else
    let (buf1, i) := readLineLoop buf2 (min (len1 - 1) (len2 - start)) 0 start buf1
    (buf1.put i [0], i)

/-! ### Splitting a line -/

/-- The loop that puts zero bytes for blanks, over the `n` positions from `i` on; `k` pointers have
been stored so far. -/
def splitBlanks : ℕ → ℕ → ℕ → Buffer UInt8 → Buffer ℕ → Buffer UInt8 × Buffer ℕ × ℕ
  | 0, _, k, line, ptr => (line, ptr, k)
  | n + 1, i, k, line, ptr =>
    if k < DTOP_DICT_SIZE then
      if line i = 32 then splitBlanks n (i + 1) (k + 1) (line.put i [0]) (ptr.put k [i + 1])
      else splitBlanks n (i + 1) k line ptr
    else (line, ptr, k)

/-- `dt_parse_proc_dictionary`: the two lines and the dictionary afterwards. -/
def dtParseProcDictionary (line1 : Buffer UInt8) (len1 : ℕ) (line2 : Buffer UInt8) (len2 : ℕ)
    (dict : ProcDict ℕ) : Buffer UInt8 × Buffer UInt8 × ProcDict ℕ :=
  if len1 < 1 ∨ len2 < 1 then (line1, line2, dict)
  else
    let (line1, key, j) := splitBlanks len1 0 0 line1 dict.key
    let (line2, val, k) := splitBlanks len2 0 0 line2 dict.val
    (line1, line2, ⟨if j ≠ k ∧ k < j then k else j, key, val⟩)

/-- Put a zero byte for every colon. -/
def zeroColons (len1 : ℕ) (line : Buffer UInt8) : Buffer UInt8 :=
  (List.range len1).foldl (fun line j => if line j = 58 then line.put j [0] else line) line

/-- `dt_parse_for_prefix`: the line and the dictionary afterwards. -/
def dtParseForPrefix (line1 : Buffer UInt8) (len1 : ℕ) (dict : ProcDict ℕ) :
    Buffer UInt8 × ProcDict ℕ :=
  if len1 < 1 then (line1, dict)
  else
    let (line1, key, k) := splitBlanks len1 0 0 line1 dict.key
    let val := (List.range k).foldl (fun val j => val.put j [0]) dict.val
    (zeroColons len1 line1, { dict with key, val })

/-- `dt_find_dict_idx`, for keys that point into `line`; `none` is the result `-1`. -/
def dtFindDictIdx (str : Bytes) (line : Buffer UInt8) (size : ℕ) (dict : ProcDict ℕ) : Option ℕ :=
  (List.range dict.max).find? fun i => cstr line size (dict.key i) == str

/-! ### Strings -/

variable {b line : Buffer UInt8} {size off i j k n : ℕ} {l c : Bytes} {xs : List Bytes}

theorem cstr_eq (h : b.get off (l.length + 1) = l ++ [0]) (h0 : 0 ∉ l)
    (hsize : off + l.length < size) : cstr b size off = l := by
  obtain ⟨r, hr⟩ := Nat.exists_eq_add_of_le (show l.length + 1 ≤ size - off by omega)
  have hl : ∀ x ∈ l, decide (x ≠ 0) = true := by
    intro x hx
    rw [decide_eq_true_eq]
    rintro rfl
    exact h0 hx
  rw [cstr, hr, Buffer.get_add, h, List.append_assoc, List.takeWhile_append_of_pos hl,
    List.singleton_append, List.takeWhile_cons_of_neg (by simp), List.append_nil]

/-- What follows a blank, when the blanks of the items `xs` are at position `i` and later. -/
def itemStarts : ℕ → List Bytes → List ℕ
  | _, [] => []
  | i, x :: xs => (i + 1) :: itemStarts (i + 1 + x.length) xs

@[simp] theorem length_itemStarts (i : ℕ) (xs : List Bytes) :
    (itemStarts i xs).length = xs.length := by
  induction xs generalizing i with
  | nil => rfl
  | cons x xs ih => rw [itemStarts, List.length_cons, List.length_cons, ih]

/-- The items, each behind a separator. -/
def joined (sep : UInt8) (xs : List Bytes) : Bytes := xs.flatMap (sep :: ·)

theorem joined_cons (sep : UInt8) (x : Bytes) (xs : List Bytes) :
    joined sep (x :: xs) = sep :: (x ++ joined sep xs) := by
  rw [joined, List.flatMap_cons, List.cons_append]
  rfl

theorem length_joined (sep sep' : UInt8) (xs : List Bytes) :
    (joined sep xs).length = (joined sep' xs).length := by
  induction xs with
  | nil => rfl
  | cons x xs ih => simp only [joined_cons, List.length_cons, List.length_append, ih]

/-- A joined text starts with its separator, also with a separator behind it. -/
theorem exists_joined_append (xs : List Bytes) : ∃ t, joined 0 xs ++ [0] = 0 :: t := by
  cases xs with
  | nil => exact ⟨[], rfl⟩
  | cons x xs => exact ⟨_, congrArg (· ++ [0]) (joined_cons 0 x xs)⟩

/-- The pointers point to the items. -/
theorem map_cstr_itemStarts (h : b.get i ((joined 0 xs).length + 1) = joined 0 xs ++ [0])
    (h0 : ∀ x ∈ xs, 0 ∉ x) (hsize : i + (joined 0 xs).length < size) :
    (itemStarts i xs).map (cstr b size) = xs := by
  induction xs generalizing i with
  | nil => rfl
  | cons x xs ih =>
    rw [joined_cons] at h hsize
    have hparts : 0 :: (x ++ joined 0 xs) ++ [0] = [0] ++ (x ++ (joined 0 xs ++ [0])) := by
      rw [List.cons_append, List.append_assoc]
      rfl
    obtain ⟨-, h⟩ := Buffer.get_eq_append (h.trans hparts)
    obtain ⟨hx, hrest⟩ := Buffer.get_eq_append h
    rw [List.length_append, List.length_singleton] at hrest
    rw [List.length_singleton] at hx
    rw [List.length_cons, List.length_append] at hsize
    -- behind the item there is a zero byte
    have hend : b.get (i + 1 + x.length) 1 = [0] := by
      obtain ⟨t, ht⟩ := exists_joined_append xs
      rw [ht, Buffer.get_succ] at hrest
      rw [Buffer.get_succ, (List.cons.inj hrest).1]
      rfl
    have hitem : cstr b size (i + 1) = x :=
      cstr_eq (by rw [Buffer.get_add, hx, hend]) (h0 x List.mem_cons_self) (by omega)
    rw [itemStarts, List.map_cons, hitem,
      ih hrest (fun y hy => h0 y (List.mem_cons_of_mem _ hy)) (by omega)]

theorem le_of_mem_itemStarts (h : k ∈ itemStarts i xs) : k ≤ i + (joined 0 xs).length := by
  induction xs generalizing i with
  | nil => cases h
  | cons x xs ih =>
    rw [joined_cons, List.length_cons, List.length_append]
    rcases List.mem_cons.1 h with rfl | h
    · omega
    · have := ih h
      omega

theorem head?_cstr_eq_iff (h : off < size) {x : UInt8} (hx : x ≠ 0) :
    (cstr b size off).head? = some x ↔ b off = x := by
  obtain ⟨m, hm⟩ := Nat.exists_eq_add_of_lt h
  have hlen : size - off = m + 1 := by omega
  rw [cstr, hlen, Buffer.get_succ, List.takeWhile_cons]
  split_ifs with h0
  · rw [List.head?_cons, Option.some_inj]
  · simp only [ne_eq, decide_not, Bool.not_eq_true', decide_eq_false_iff_not, not_not] at h0
    rw [h0]
    constructor
    · intro hnone
      cases hnone
    · intro hx'
      exact absurd hx'.symm hx

/-! ### What the loops do -/

/-- Positions behind the blanks of a text that starts at position `i`. -/
def blankEnds : ℕ → Bytes → List ℕ
  | _, [] => []
  | i, x :: l => if x = 32 then (i + 1) :: blankEnds (i + 1) l else blankEnds (i + 1) l

/-- The text with zero bytes for blanks. -/
def zeroed (l : Bytes) : Bytes := l.map fun x => if x = 32 then 0 else x

theorem blankEnds_append_of_notMem (h : 32 ∉ l) (i : ℕ) (c : Bytes) :
    blankEnds i (l ++ c) = blankEnds (i + l.length) c := by
  induction l generalizing i with
  | nil => rfl
  | cons x l ih =>
    obtain ⟨hx, hl⟩ := not_or.1 (mt List.mem_cons.2 h)
    rw [List.cons_append, blankEnds, if_neg (Ne.symm hx), ih hl, List.length_cons]
    congr 1
    omega

theorem blankEnds_joined (h : ∀ x ∈ xs, 32 ∉ x) (i : ℕ) :
    blankEnds i (joined 32 xs) = itemStarts i xs := by
  induction xs generalizing i with
  | nil => rfl
  | cons x xs ih =>
    rw [joined_cons, blankEnds, if_pos rfl, blankEnds_append_of_notMem (h x List.mem_cons_self),
      ih fun y hy => h y (List.mem_cons_of_mem _ hy), itemStarts]

theorem zeroed_of_notMem (h : 32 ∉ l) : zeroed l = l := by
  rw [zeroed, ← List.map_id l, List.map_map]
  refine List.map_congr_left fun x hx => ?_
  have hne : x ≠ 32 := by
    rintro rfl
    exact h hx
  simp only [Function.comp_apply, id_eq, if_neg hne]

theorem zeroed_joined (h : ∀ x ∈ xs, 32 ∉ x) : zeroed (joined 32 xs) = joined 0 xs := by
  induction xs with
  | nil => rfl
  | cons x xs ih =>
    have hx := zeroed_of_notMem (h x List.mem_cons_self)
    have hxs := ih fun y hy => h y (List.mem_cons_of_mem _ hy)
    rw [zeroed] at hx hxs
    rw [joined_cons, joined_cons, zeroed, List.map_cons, List.map_append, hx, hxs, if_pos rfl]

theorem splitBlanks_full (hk : ¬ k < DTOP_DICT_SIZE) (n i : ℕ) (line : Buffer UInt8)
    (ptr : Buffer ℕ) : splitBlanks n i k line ptr = (line, ptr, k) := by
  cases n with
  | zero => rfl
  | succ n => rw [splitBlanks, if_neg hk]

/-- The loop over a text with no more blanks than there is room for. -/
theorem splitBlanks_spec (l : Bytes) (i k : ℕ) (line : Buffer UInt8) (ptr : Buffer ℕ)
    (hget : line.get i l.length = l) (hroom : k + (blankEnds i l).length ≤ DTOP_DICT_SIZE) :
    ∃ line' ptr', splitBlanks l.length i k line ptr =
        (line', ptr', k + (blankEnds i l).length) ∧
      line'.get i l.length = zeroed l ∧ (∀ j, j < i ∨ i + l.length ≤ j → line' j = line j) ∧
      ptr'.get k (blankEnds i l).length = blankEnds i l ∧ ∀ j < k, ptr' j = ptr j := by
  induction l generalizing i k line ptr with
  | nil => exact ⟨line, ptr, rfl, rfl, fun _ _ => rfl, rfl, fun _ _ => rfl⟩
  | cons x l ih =>
    rw [List.length_cons, Buffer.get_succ, List.cons.injEq] at hget
    obtain ⟨hx, hl⟩ := hget
    -- a blank is overwritten and gives a pointer, any other byte is passed over
    by_cases h32 : x = 32
    · have hends : blankEnds i (x :: l) = (i + 1) :: blankEnds (i + 1) l := by
        rw [blankEnds, if_pos h32]
      rw [hends, List.length_cons] at hroom
      have hrest : (line.put i [0]).get (i + 1) l.length = l := by
        rw [Buffer.get_congr fun j hj _ => Buffer.put_one_of_ne (by omega), hl]
      obtain ⟨line', ptr', heq, hline, hout, hptr, hold⟩ := ih (i + 1) (k + 1) (line.put i [0])
        (ptr.put k [i + 1]) hrest (by omega)
      refine ⟨line', ptr', ?_, ?_, fun j hj => ?_, ?_, fun j hj => ?_⟩
      · rw [List.length_cons, splitBlanks, if_pos (by omega), hx, if_pos h32, heq, hends,
          List.length_cons]
        congr 2
        omega
      · rw [List.length_cons, Buffer.get_succ, hline, hout i (.inl (Nat.lt_succ_self i)),
          Buffer.put_one_self, zeroed, zeroed, List.map_cons, if_pos h32]
      · rw [List.length_cons] at hj
        rw [hout j (by omega), Buffer.put_one_of_ne (by omega)]
      · rw [hends, List.length_cons, Buffer.get_succ, hptr, hold k (Nat.lt_succ_self k),
          Buffer.put_one_self]
      · rw [hold j (by omega), Buffer.put_apply_of_lt hj]
    · have hends : blankEnds i (x :: l) = blankEnds (i + 1) l := by rw [blankEnds, if_neg h32]
      rw [hends] at hroom
      obtain ⟨line', ptr', heq, hline, hout, hptr, hold⟩ := ih (i + 1) k line ptr hl hroom
      refine ⟨line', ptr', ?_, ?_, fun j hj => ?_, ?_, hold⟩
      · rw [List.length_cons, splitBlanks, hx, if_neg h32, hends, heq]
        split_ifs with hk
        · rfl
        · rw [← heq, splitBlanks_full hk]
      · rw [List.length_cons, Buffer.get_succ, hline, hout i (.inl (Nat.lt_succ_self i)), hx,
          zeroed, zeroed, List.map_cons, if_neg h32]
      · rw [List.length_cons] at hj
        exact hout j (by omega)
      · rw [hends, hptr]

/-! ### Lines that are read -/

/-- The buffer holds the text `l`, with a zero byte behind it. -/
def HoldsLine (b : Buffer UInt8) (l : Bytes) : Prop := b.get 0 (l.length + 1) = l ++ [0]

variable {buf1 buf2 : Buffer UInt8} {len1 len2 start : ℕ}

/-- The loop copies a text without newlines, up to its end or to a newline behind it. -/
theorem readLineLoop_spec (l : Bytes) (n i j : ℕ) (buf1 : Buffer UInt8) (hnl : 10 ∉ l)
    (hget : buf2.get j l.length = l) (hn : l.length = n ∨ l.length < n ∧ buf2 (j + l.length) = 10) :
    ∃ b, readLineLoop buf2 n i j buf1 = (b, i + l.length) ∧ b.get i l.length = l ∧
      ∀ p < i, b p = buf1 p := by
  induction l generalizing n i j buf1 with
  | nil =>
    cases n with
    | zero => exact ⟨buf1, rfl, rfl, fun _ _ => rfl⟩
    | succ n =>
      -- the newline is copied too, but it is not counted
      obtain ⟨-, hend⟩ := hn.resolve_left (by simp)
      rw [List.length_nil, Nat.add_zero] at hend
      refine ⟨buf1.put i [10], ?_, rfl, fun p hp => Buffer.put_apply_of_lt hp⟩
      rw [readLineLoop, hend, if_pos Buffer.put_one_self]
      rfl
  | cons x l ih =>
    obtain ⟨hx, hl⟩ := not_or.1 (mt List.mem_cons.2 hnl)
    rw [List.length_cons, Buffer.get_succ, List.cons.injEq] at hget
    obtain ⟨hjx, hrest⟩ := hget
    rw [List.length_cons] at hn
    cases n with
    | zero => omega
    | succ n =>
      have hn' : l.length = n ∨ l.length < n ∧ buf2 (j + 1 + l.length) = 10 := by
        rw [Nat.add_right_comm]
        exact hn.imp (by omega) (And.imp_left (by omega))
      obtain ⟨b, heq, hb, hold⟩ := ih n (i + 1) (j + 1) (buf1.put i [x]) hl hrest hn'
      refine ⟨b, ?_, ?_, fun p hp => ?_⟩
      · rw [readLineLoop, hjx, if_neg (by rw [Buffer.put_one_self]; exact Ne.symm hx), heq,
          List.length_cons]
        congr 1
        omega
      · rw [List.length_cons, Buffer.get_succ, hb, hold i (Nat.lt_succ_self i),
          Buffer.put_one_self]
      · rw [hold p (by omega), Buffer.put_apply_of_lt hp]

theorem holdsLine_dtReadLine {l : Bytes} (hlen : 1 ≤ len1) (hstart : start < len2) (hnl : 10 ∉ l)
    (hget : buf2.get start l.length = l)
    (hend : l.length = min (len1 - 1) (len2 - start) ∨
      l.length < min (len1 - 1) (len2 - start) ∧ buf2 (start + l.length) = 10) :
    HoldsLine (dtReadLine buf1 len1 buf2 len2 start).1 l ∧
      (dtReadLine buf1 len1 buf2 len2 start).2 = l.length := by
  obtain ⟨b, heq, hb, -⟩ := readLineLoop_spec l _ 0 start buf1 hnl hget hend
  rw [Nat.zero_add] at heq
  -- the zero byte overwrites the newline
  rw [dtReadLine, if_neg (by omega), heq]
  change HoldsLine (b.put l.length [0]) l ∧ _
  refine ⟨?_, rfl⟩
  have hkeep : (b.put l.length [0]).get 0 l.length = b.get 0 l.length :=
    Buffer.get_congr fun p _ hp => Buffer.put_apply_of_lt (by omega)
  rw [HoldsLine, Buffer.get_add, hkeep, hb, Nat.zero_add, Buffer.get_succ, Buffer.put_one_self]
  rfl

theorem readLineLoop_snd_le (n i j : ℕ) (buf1 : Buffer UInt8) :
    (readLineLoop buf2 n i j buf1).2 ≤ i + n := by
  induction n generalizing i j buf1 with
  | zero => exact Nat.le_refl i
  | succ n ih =>
    rw [readLineLoop]
    split_ifs
    · exact Nat.le_add_right i _
    · exact (ih _ _ _).trans (by omega)

/-- The length of a line leaves room for the zero byte. -/
theorem dtReadLine_snd_lt (hlen : 0 < len1) : (dtReadLine buf1 len1 buf2 len2 start).2 < len1 := by
  rw [dtReadLine]
  split_ifs
  · exact hlen
  · have hle := @readLineLoop_snd_le buf2 (min (len1 - 1) (len2 - start)) 0 start buf1
    dsimp only
    omega

/-- A line that fits is read as a whole. -/
theorem dtReadLine_line {l : Bytes} (hnl : 10 ∉ l)
    (hget : buf2.get start (l.length + 1) = l ++ [10]) (hlen : l.length < len1)
    (hstart : start + l.length < len2) :
    HoldsLine (dtReadLine buf1 len1 buf2 len2 start).1 l ∧
      (dtReadLine buf1 len1 buf2 len2 start).2 = l.length := by
  obtain ⟨hl, hnewline⟩ := Buffer.get_eq_append hget
  have hend : buf2 (start + l.length) = 10 := (List.cons.inj hnewline).1
  refine holdsLine_dtReadLine (by omega) (by omega) hnl hl ?_
  by_cases hfull : l.length = min (len1 - 1) (len2 - start)
  · exact .inl hfull
  · exact .inr ⟨by omega, hend⟩

/-- Of a longer line, as much as fits is read. -/
theorem dtReadLine_cut {l : Bytes} (hnl : 10 ∉ l) (hget : buf2.get start l.length = l)
    (hlen : l.length + 1 = len1) (hstart : start + l.length < len2) :
    HoldsLine (dtReadLine buf1 len1 buf2 len2 start).1 l ∧
      (dtReadLine buf1 len1 buf2 len2 start).2 = l.length :=
  holdsLine_dtReadLine (by omega) (by omega) hnl hget (.inl (by omega))

/-! ### Rows -/

/-- A line of items, each behind a blank, and what comes before the first blank. -/
structure Row where
  head : Bytes
  items : List Bytes
  head_plain : 32 ∉ head ∧ 0 ∉ head
  items_plain : ∀ x ∈ items, 32 ∉ x ∧ 0 ∉ x
  room : items.length ≤ DTOP_DICT_SIZE

namespace Row

variable {r r₁ r₂ : Row} {line line₁ line₂ : Buffer UInt8} {ptr : Buffer ℕ}

def text (r : Row) : Bytes := r.head ++ joined 32 r.items

/-- Where the items are. -/
def starts (r : Row) : List ℕ := itemStarts r.head.length r.items

@[simp] theorem length_starts (r : Row) : r.starts.length = r.items.length := length_itemStarts _ _

/-- The line holds the row, with zero bytes for blanks. -/
def SplitIn (r : Row) (line : Buffer UInt8) : Prop := HoldsLine line (r.head ++ joined 0 r.items)

/-- The pointers point to the items. -/
def PointedBy (r : Row) (ptr : Buffer ℕ) : Prop := ptr.get 0 r.items.length = r.starts

theorem length_split (r : Row) : (r.head ++ joined 0 r.items).length = r.text.length := by
  rw [text, List.length_append, List.length_append, length_joined 0 32]

theorem splitBlanks_row (r : Row) (ptr : Buffer ℕ) (h : HoldsLine line r.text) :
    ∃ line' ptr', splitBlanks r.text.length 0 0 line ptr = (line', ptr', r.items.length) ∧
      r.SplitIn line' ∧ r.PointedBy ptr' := by
  have hitems : ∀ x ∈ r.items, 32 ∉ x := fun x hx => (r.items_plain x hx).1
  have hends : blankEnds 0 r.text = r.starts := by
    rw [text, blankEnds_append_of_notMem r.head_plain.1, blankEnds_joined hitems, Nat.zero_add]
    rfl
  have hzero : zeroed r.text = r.head ++ joined 0 r.items := by
    have hhead := zeroed_of_notMem r.head_plain.1
    have hjoined := zeroed_joined hitems
    rw [zeroed] at hhead hjoined
    rw [text, zeroed, List.map_append, hhead, hjoined]
  obtain ⟨htext, hend⟩ := Buffer.get_eq_append h
  have hroom : 0 + (blankEnds 0 r.text).length ≤ DTOP_DICT_SIZE := by
    rw [hends, length_starts, Nat.zero_add]
    exact r.room
  obtain ⟨line', ptr', heq, hline, hout, hptr, -⟩ :=
    splitBlanks_spec r.text 0 0 line ptr htext hroom
  rw [hends, length_starts, Nat.zero_add] at heq
  rw [hends, length_starts] at hptr
  refine ⟨line', ptr', heq, ?_, hptr⟩
  rw [SplitIn, HoldsLine, length_split, Buffer.get_add, hline, hzero, Buffer.get_succ,
    hout _ (.inr (by omega))]
  have hlast : line (0 + r.text.length) = 0 := (List.cons.inj hend).1
  rw [hlast]
  rfl

/-- The strings the pointers point to are the items. -/
theorem SplitIn.map_cstr {size : ℕ} (h : r.SplitIn line) (hsize : r.text.length < size) :
    r.starts.map (cstr line size) = r.items := by
  have hlen := r.length_split
  rw [List.length_append] at hlen
  rw [SplitIn, HoldsLine, List.append_assoc] at h
  obtain ⟨-, h⟩ := Buffer.get_eq_append h
  rw [Nat.zero_add, List.length_append, List.length_singleton] at h
  exact map_cstr_itemStarts h (fun x hx => (r.items_plain x hx).2) (by omega)

theorem SplitIn.cstr_eq {size j : ℕ} (h : r.SplitIn line) (hp : r.PointedBy ptr)
    (hsize : r.text.length < size) (hj : j < r.items.length) :
    r.items[j]? = some (cstr line size (ptr j)) := by
  have hmap := h.map_cstr hsize
  rw [← hp, Buffer.get, List.map_map] at hmap
  have hitem := congrArg (·[j]?) hmap
  simp only [List.getElem?_map, List.getElem?_range hj, Option.map_some, Function.comp_apply,
    Nat.zero_add] at hitem
  exact hitem.symm

/-- The pointers are in the line. -/
theorem PointedBy.lt {size j : ℕ} (hp : r.PointedBy ptr) (hsize : r.text.length < size)
    (hj : j < r.items.length) : ptr j < size := by
  have hmem : ptr j ∈ r.starts := by
    rw [← hp, Buffer.get]
    exact List.mem_map.2 ⟨j, List.mem_range.2 hj, congrArg ptr (Nat.zero_add j)⟩
  have hle := le_of_mem_itemStarts hmem
  rw [← List.length_append, length_split] at hle
  omega

/-! ### The dictionary -/

/-- What `dt_parse_proc_dictionary` makes of two rows. -/
theorem dtParseProcDictionary_rows (h₁ : HoldsLine line₁ r₁.text) (h₂ : HoldsLine line₂ r₂.text)
    (hne₁ : r₁.text ≠ []) (hne₂ : r₂.text ≠ []) (dict : ProcDict ℕ) :
    ∃ line₁' line₂' key val,
      dtParseProcDictionary line₁ r₁.text.length line₂ r₂.text.length dict =
        (line₁', line₂', ⟨min r₁.items.length r₂.items.length, key, val⟩) ∧
      r₁.SplitIn line₁' ∧ r₂.SplitIn line₂' ∧ r₁.PointedBy key ∧ r₂.PointedBy val := by
  obtain ⟨line₁', key, heq₁, hs₁, hp₁⟩ := r₁.splitBlanks_row dict.key h₁
  obtain ⟨line₂', val, heq₂, hs₂, hp₂⟩ := r₂.splitBlanks_row dict.val h₂
  refine ⟨line₁', line₂', key, val, ?_, hs₁, hs₂, hp₁, hp₂⟩
  have hpos₁ := List.length_pos_of_ne_nil hne₁
  have hpos₂ := List.length_pos_of_ne_nil hne₂
  rw [dtParseProcDictionary, if_neg (by omega), heq₁, heq₂]
  dsimp only
  congr 3
  -- `j` is taken unless `k` is smaller
  split_ifs <;> omega

theorem zeroColons_apply (n : ℕ) (line : Buffer UInt8) (i : ℕ) :
    zeroColons n line i = if i < n ∧ line i = 58 then 0 else line i := by
  induction n generalizing i with
  | zero => rw [if_neg (by omega)]; rfl
  | succ n ih =>
    have hstep : zeroColons (n + 1) line =
        if zeroColons n line n = 58 then (zeroColons n line).put n [0] else zeroColons n line := by
      rw [zeroColons, List.range_succ, List.foldl_append]
      rfl
    have hsame : zeroColons n line n = line n := by rw [ih, if_neg (by omega)]
    rw [hstep, hsame]
    rcases eq_or_ne i n with rfl | hne
    · split_ifs with h58 h58' h58'
      · exact Buffer.put_one_self
      · exact absurd ⟨Nat.lt_succ_self i, h58⟩ h58'
      · exact absurd h58'.2 h58
      · exact hsame
    · have hcond : i < n + 1 ∧ line i = 58 ↔ i < n ∧ line i = 58 :=
        and_congr_left fun _ => by omega
      simp only [hcond]
      rw [← ih]
      split_ifs
      · exact Buffer.put_one_of_ne hne
      · rfl

theorem foldl_put_zero (k : ℕ) (val : Buffer ℕ) (i : ℕ) :
    (List.range k).foldl (fun val j => val.put j [0]) val i = if i < k then 0 else val i := by
  induction k generalizing i with
  | zero => rfl
  | succ k ih =>
    rw [List.range_succ, List.foldl_append, List.foldl_cons, List.foldl_nil]
    rcases eq_or_ne i k with rfl | hne
    · rw [Buffer.put_one_self, if_pos (Nat.lt_succ_self i)]
    · rw [Buffer.put_one_of_ne hne, ih]
      exact if_congr (by omega) rfl rfl

/-- What `dt_parse_for_prefix` makes of a row whose head ends with a colon. -/
theorem dtParseForPrefix_row {P : Bytes} {size : ℕ} (h : HoldsLine line r.text)
    (hhead : r.head = P ++ [58]) (hP : 58 ∉ P) (hsize : r.text.length < size)
    (dict : ProcDict ℕ) :
    ∃ line' dict', dtParseForPrefix line r.text.length dict = (line', dict') ∧
      (∀ j < r.items.length, dict'.val j = 0) ∧ cstr line' size 0 = P := by
  obtain ⟨line', ptr, heq, hs, -⟩ := r.splitBlanks_row dict.key h
  have hlen : P.length + 1 ≤ r.text.length := by
    rw [text, hhead, List.length_append, List.length_append]
    exact Nat.le_add_right _ _
  rw [dtParseForPrefix, if_neg (by omega), heq]
  refine ⟨_, _, rfl, fun j hj => ?_, cstr_eq ?_ ?_ (by omega)⟩
  · exact (foldl_put_zero _ _ _).trans (if_pos hj)
  · -- the colon behind the prefix becomes a zero byte
    rw [SplitIn, HoldsLine, hhead, List.append_assoc, List.append_assoc, List.append_assoc] at hs
    obtain ⟨hhead', hrest⟩ := Buffer.get_eq_append hs
    obtain ⟨hcolon, -⟩ := Buffer.get_eq_append hrest
    have hkeep : (zeroColons r.text.length line').get 0 P.length = line'.get 0 P.length := by
      refine Buffer.get_congr fun i _ hi => ?_
      rw [zeroColons_apply, if_neg]
      rintro ⟨-, h58⟩
      refine hP ?_
      rw [← hhead', ← h58, Buffer.get]
      exact List.mem_map.2 ⟨i, List.mem_range.2 (by omega), congrArg line' (Nat.zero_add i)⟩
    have h58 : line' (0 + P.length) = 58 := (List.cons.inj hcolon).1
    rw [Buffer.get_add, hkeep, hhead', Buffer.get_succ, zeroColons_apply,
      if_pos ⟨by omega, h58⟩]
    rfl
  · exact fun h0 => r.head_plain.2 (hhead ▸ List.mem_append_left _ h0)

/-! ### Looking up a name -/

/-- The index that is found is that of an item. -/
theorem getElem?_of_dtFindDictIdx {size i : ℕ} {str : Bytes} {dict : ProcDict ℕ}
    (hs : r.SplitIn line) (hp : r.PointedBy dict.key) (hsize : r.text.length < size)
    (hmax : dict.max ≤ r.items.length) (h : dtFindDictIdx str line size dict = some i) :
    i < dict.max ∧ r.items[i]? = some str := by
  have hi := List.mem_range.1 (List.mem_of_find?_eq_some h)
  have hstr := List.find?_some h
  rw [beq_iff_eq] at hstr
  exact ⟨hi, (hs.cstr_eq hp hsize (by omega)).trans (congrArg some hstr)⟩

/-- Among distinct items, the index of an item is found. -/
theorem dtFindDictIdx_eq {size i : ℕ} {str : Bytes} {dict : ProcDict ℕ}
    (hs : r.SplitIn line) (hp : r.PointedBy dict.key) (hsize : r.text.length < size)
    (hmax : dict.max ≤ r.items.length) (hnodup : r.items.Nodup) (hi : i < dict.max)
    (hstr : r.items[i]? = some str) : dtFindDictIdx str line size dict = some i := by
  have hfound : (dtFindDictIdx str line size dict).isSome := by
    refine List.find?_isSome.2 ⟨i, List.mem_range.2 hi, beq_iff_eq.2 ?_⟩
    exact Option.some.inj ((hs.cstr_eq hp hsize (by omega)).symm.trans hstr)
  obtain ⟨j, hj⟩ := Option.isSome_iff_exists.1 hfound
  obtain ⟨hlt, hjstr⟩ := getElem?_of_dtFindDictIdx hs hp hsize hmax hj
  rw [hj, (List.getElem?_inj (by omega) hnodup).1 (hjstr.trans hstr.symm)]

end Row

end Datatop

end Msm8909w
