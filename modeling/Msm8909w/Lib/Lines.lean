import Mathlib.Data.List.Basic
import Mathlib.Tactic.SplitIfs

/-!
# Reading a text in bounded lines

`fgets nl n` takes a stretch of at most `n` elements from the front of a text, up to and including
the first `nl`; `chunks nl n` is what a loop of such calls returns.  A chunk after which the next
call starts afresh is `Closed`: it ends with its only `nl`, or it has all `n` elements.

* `exists_closed` : every text consists of closed chunks and an open rest,
* `chunks_flatten_append` : such a decomposition is what the loop returns,
* `flatten_chunks`, `closed_of_chunks_append` : the chunks make up the text, and all of them but
  the last are closed,
* `chunks_line_append`, `chunks_lines` : lines are read one after the other,
* `chunks_eq_textLines` : the chunks are the lines when these are short.
-/

namespace Msm8909w

section Lines

variable {α : Type*} [DecidableEq α] {nl : α} {n fuel : ℕ} {b l s t : List α} {ls : List (List α)}

/-- The number of elements a call of `fgets` takes. -/
def lineLength (nl : α) : ℕ → List α → ℕ
  | 0, _ => 0
  | _ + 1, [] => 0
  | n + 1, c :: s => if c = nl then 1 else lineLength nl n s + 1

/-- What a call of `fgets` returns, and the rest of the text. -/
def fgets (nl : α) (n : ℕ) (s : List α) : List α × List α :=
  (s.take (lineLength nl n s), s.drop (lineLength nl n s))

/-- A loop of at most `fuel` calls of `fgets`, up to the end of the text. -/
def chunksLoop (nl : α) (n : ℕ) : ℕ → List α → List (List α)
  | 0, _ => []
  | fuel + 1, s =>
    if s = [] then [] else (fgets nl n s).1 :: chunksLoop nl n fuel (fgets nl n s).2

/-- The chunks of a text. -/
def chunks (nl : α) (n : ℕ) (s : List α) : List (List α) := chunksLoop nl n s.length s

/-- A chunk that a further `fgets` does not continue. -/
def Closed (nl : α) (n : ℕ) (l : List α) : Prop :=
  (∃ b, nl ∉ b ∧ b.length < n ∧ l = b ++ [nl]) ∨ (nl ∉ l ∧ l.length = n)

/-- The rest of a text behind its closed chunks. -/
def Open (nl : α) (n : ℕ) (t : List α) : Prop := nl ∉ t ∧ t.length < n

theorem lineLength_newline (hb : nl ∉ b) (hlt : b.length < n) :
    lineLength nl n (b ++ nl :: s) = b.length + 1 := by
  induction b generalizing n with
  | nil =>
    cases n with
    | zero => cases hlt
    | succ n => simp [lineLength]
  | cons c b ih =>
    obtain ⟨hc, hb⟩ := not_or.1 (mt List.mem_cons.2 hb)
    cases n with
    | zero => cases hlt
    | succ n =>
      rw [List.cons_append, lineLength, if_neg (Ne.symm hc), ih hb (Nat.lt_of_succ_lt_succ hlt),
        List.length_cons]

theorem lineLength_full (hl : nl ∉ l) (hlen : l.length = n) :
    lineLength nl n (l ++ s) = l.length := by
  induction l generalizing n with
  | nil =>
    cases hlen
    rfl
  | cons c l ih =>
    obtain ⟨hc, hl⟩ := not_or.1 (mt List.mem_cons.2 hl)
    cases hlen
    rw [List.cons_append, List.length_cons, lineLength, if_neg (Ne.symm hc), ih hl rfl]

theorem lineLength_open (ht : nl ∉ t) (hlt : t.length < n) : lineLength nl n t = t.length := by
  induction t generalizing n with
  | nil => cases n <;> rfl
  | cons c t ih =>
    obtain ⟨hc, ht⟩ := not_or.1 (mt List.mem_cons.2 ht)
    cases n with
    | zero => cases hlt
    | succ n =>
      rw [lineLength, if_neg (Ne.symm hc), ih ht (Nat.lt_of_succ_lt_succ hlt), List.length_cons]

theorem lineLength_closed (h : Closed nl n l) : lineLength nl n (l ++ s) = l.length := by
  obtain ⟨b, hb, hlt, rfl⟩ | ⟨hl, hlen⟩ := h
  · rw [List.append_assoc, List.singleton_append, lineLength_newline hb hlt, List.length_append,
      List.length_singleton]
  · exact lineLength_full hl hlen

theorem fgets_closed (h : Closed nl n l) : fgets nl n (l ++ s) = (l, s) := by
  rw [fgets, lineLength_closed h, List.take_left, List.drop_left]

theorem fgets_open (h : Open nl n t) : fgets nl n t = (t, []) := by
  rw [fgets, lineLength_open h.1 h.2, List.take_length, List.drop_length]

theorem lineLength_pos (hn : 0 < n) (hs : s ≠ []) : 0 < lineLength nl n s := by
  cases n with
  | zero => cases hn
  | succ n =>
    cases s with
    | nil => exact absurd rfl hs
    | cons c s =>
      rw [lineLength]
      split_ifs <;> omega

theorem length_fgets_lt (hn : 0 < n) (hs : s ≠ []) : (fgets nl n s).2.length < s.length := by
  have hpos : 0 < lineLength nl n s := lineLength_pos hn hs
  have hlen : 0 < s.length := List.length_pos_of_ne_nil hs
  rw [fgets, List.length_drop]
  omega

/-- More fuel than the text has elements makes no difference. -/
theorem chunksLoop_congr (hn : 0 < n) {k : ℕ} (hf : s.length ≤ fuel) (hk : s.length ≤ k) :
    chunksLoop nl n fuel s = chunksLoop nl n k s := by
  induction fuel generalizing s k with
  | zero =>
    rw [List.length_eq_zero_iff.1 (Nat.le_zero.1 hf)]
    cases k <;> rfl
  | succ fuel ih =>
    by_cases hs : s = []
    · subst hs
      cases k <;> rfl
    · have hlt : (fgets nl n s).2.length < s.length := length_fgets_lt hn hs
      cases k with
      | zero => omega
      | succ k =>
          rw [chunksLoop, chunksLoop, if_neg hs, if_neg hs, ih (k := k) (by omega) (by omega)]

@[simp] theorem chunks_nil : chunks nl n [] = [] := rfl

theorem chunks_eq_cons (hn : 0 < n) (hs : s ≠ []) :
    chunks nl n s = (fgets nl n s).1 :: chunks nl n (fgets nl n s).2 := by
  have hlt : (fgets nl n s).2.length < s.length := length_fgets_lt hn hs
  rw [chunks, chunksLoop_congr hn (k := s.length + 1) (Nat.le_refl _) (Nat.le_succ _), chunksLoop,
    if_neg hs, chunks, chunksLoop_congr hn (Nat.le_of_lt hlt) (Nat.le_refl _)]

omit [DecidableEq α] in
theorem Closed.ne_nil (hn : 0 < n) (h : Closed nl n l) : l ≠ [] := by
  obtain ⟨b, -, -, rfl⟩ | ⟨-, hlen⟩ := h
  · simp
  · rintro rfl
    rw [List.length_nil] at hlen
    omega

theorem chunks_closed_append (hn : 0 < n) (h : Closed nl n l) :
    chunks nl n (l ++ s) = l :: chunks nl n s := by
  rw [chunks_eq_cons hn (by simp [h.ne_nil hn]), fgets_closed h]

/-- Closed chunks in front of a text are chunks of the whole. -/
theorem chunks_flatten_append (hn : 0 < n) (h : ∀ l ∈ ls, Closed nl n l) :
    chunks nl n (ls.flatten ++ s) = ls ++ chunks nl n s := by
  induction ls with
  | nil => rfl
  | cons l ls ih =>
    obtain ⟨hl, hls⟩ := List.forall_mem_cons.1 h
    rw [List.flatten_cons, List.append_assoc, chunks_closed_append hn hl, ih hls, List.cons_append]

theorem chunks_flatten (hn : 0 < n) (h : ∀ l ∈ ls, Closed nl n l) :
    chunks nl n ls.flatten = ls := by
  have := chunks_flatten_append (s := []) hn h
  rwa [List.append_nil, chunks_nil, List.append_nil] at this

theorem chunks_open (h : Open nl n t) (ht : t ≠ []) : chunks nl n t = [t] := by
  have hn : 0 < n := Nat.zero_lt_of_lt h.2
  rw [chunks_eq_cons hn ht, fgets_open h, chunks_nil]

theorem flatten_chunks (hn : 0 < n) (s : List α) : (chunks nl n s).flatten = s := by
  by_cases hs : s = []
  · subst hs
    rfl
  · have hlt : (fgets nl n s).2.length < s.length := length_fgets_lt hn hs
    rw [chunks_eq_cons hn hs, List.flatten_cons, flatten_chunks hn, fgets, List.take_append_drop]
termination_by s.length

omit [DecidableEq α] in
/-- A text that is not open starts with a closed chunk. -/
theorem open_or_closed_append (nl : α) (n : ℕ) (s : List α) :
    Open nl n s ∨ ∃ l r, Closed nl n l ∧ s = l ++ r := by
  induction s generalizing n with
  | nil =>
    cases n with
    | zero => exact .inr ⟨[], [], .inr ⟨List.not_mem_nil, rfl⟩, rfl⟩
    | succ n => exact .inl ⟨List.not_mem_nil, Nat.succ_pos n⟩
  | cons c s ih =>
    cases n with
    | zero => exact .inr ⟨[], c :: s, .inr ⟨List.not_mem_nil, rfl⟩, rfl⟩
    | succ n =>
      by_cases hc : nl = c
      · subst hc
        exact .inr ⟨[nl], s, .inl ⟨[], List.not_mem_nil, Nat.succ_pos n, rfl⟩, rfl⟩
      · have hcons : ∀ b, nl ∉ b → nl ∉ c :: b := fun b hb => by simp [hb, hc]
        obtain ⟨hs, hlt⟩ | ⟨l, r, ⟨b, hb, hlt, rfl⟩ | ⟨hl, hlen⟩, rfl⟩ := ih n
        · exact .inl ⟨hcons s hs, Nat.succ_lt_succ hlt⟩
        · exact .inr ⟨c :: (b ++ [nl]), r,
            .inl ⟨c :: b, hcons b hb, Nat.succ_lt_succ hlt, rfl⟩, rfl⟩
        · exact .inr ⟨c :: l, r, .inr ⟨hcons l hl, congrArg Nat.succ hlen⟩, rfl⟩

omit [DecidableEq α] in
/-- Every text consists of closed chunks and an open rest. -/
theorem exists_closed (nl : α) (hn : 0 < n) (s : List α) :
    ∃ (ls : List (List α)) (t : List α), (∀ l ∈ ls, Closed nl n l) ∧ Open nl n t ∧
      s = ls.flatten ++ t := by
  obtain hopen | ⟨l, r, hl, rfl⟩ := open_or_closed_append nl n s
  · exact ⟨[], s, by simp, hopen, rfl⟩
  · have hlt : r.length < (l ++ r).length := by
      have := List.length_pos_of_ne_nil (hl.ne_nil hn)
      rw [List.length_append]
      omega
    obtain ⟨ls, t, hls, ht, rfl⟩ := exists_closed nl hn r
    exact ⟨l :: ls, t, List.forall_mem_cons.2 ⟨hl, hls⟩, ht, by simp⟩
termination_by s.length

theorem chunks_closed_or_open (hn : 0 < n) (hl : l ∈ chunks nl n s) :
    Closed nl n l ∨ Open nl n l := by
  obtain ⟨ls, t, hls, ht, rfl⟩ := exists_closed nl hn s
  rw [chunks_flatten_append hn hls, List.mem_append] at hl
  obtain hl | hl := hl
  · exact .inl (hls l hl)
  · by_cases hnil : t = []
    · rw [hnil, chunks_nil] at hl
      cases hl
    · rw [chunks_open ht hnil, List.mem_singleton] at hl
      exact .inr (hl ▸ ht)

theorem ne_nil_of_mem_chunks (hn : 0 < n) (hl : l ∈ chunks nl n s) : l ≠ [] := by
  obtain ⟨ls, t, hls, ht, rfl⟩ := exists_closed nl hn s
  rw [chunks_flatten_append hn hls, List.mem_append] at hl
  obtain hl | hl := hl
  · exact (hls l hl).ne_nil hn
  · rintro rfl
    by_cases hnil : t = []
    · rw [hnil, chunks_nil] at hl
      cases hl
    · rw [chunks_open ht hnil, List.mem_singleton] at hl
      exact hnil hl.symm

/-- A part of the chunks at the end is again what a loop returns. -/
theorem chunks_flatten_of_append {post : List (List α)} (hn : 0 < n)
    (h : chunks nl n s = ls ++ post) : chunks nl n post.flatten = post := by
  induction ls generalizing s with
  | nil =>
    rw [List.nil_append] at h
    rw [← h, flatten_chunks hn, h]
  | cons l ls ih =>
    by_cases hs : s = []
    · rw [hs, chunks_nil] at h
      cases h
    · rw [chunks_eq_cons hn hs, List.cons_append] at h
      exact ih (List.cons.inj h).2

/-- All chunks but the last are closed. -/
theorem closed_of_chunks_append {post : List (List α)} (hn : 0 < n)
    (h : chunks nl n s = ls ++ post) (hpost : post ≠ []) : ∀ l ∈ ls, Closed nl n l := by
  induction ls generalizing s with
  | nil =>
    intro l hl
    cases hl
  | cons l ls ih =>
    obtain hopen | ⟨l', r, hl', rfl⟩ := open_or_closed_append nl n s
    · -- an open text is a single chunk
      by_cases hs : s = []
      · rw [hs, chunks_nil] at h
        cases h
      · rw [chunks_open hopen hs, List.cons_append] at h
        exact absurd (List.append_eq_nil_iff.1 (List.cons.inj h).2.symm).2 hpost
    · rw [chunks_closed_append hn hl', List.cons_append] at h
      obtain ⟨rfl, hr⟩ := List.cons.inj h
      exact List.forall_mem_cons.2 ⟨hl', ih hr⟩

/-- A line in front of a text is read like a text of its own, however many calls it takes. -/
theorem chunks_line_append (hn : 0 < n) {b : List α} (hb : nl ∉ b) (s : List α) :
    chunks nl n (b ++ [nl] ++ s) = chunks nl n (b ++ [nl]) ++ chunks nl n s := by
  by_cases hlt : b.length < n
  · have hclosed : Closed nl n (b ++ [nl]) := .inl ⟨b, hb, hlt, rfl⟩
    have hone : chunks nl n (b ++ [nl]) = [b ++ [nl]] := by
      rw [← List.append_nil (b ++ [nl]), chunks_closed_append hn hclosed, chunks_nil,
        List.append_nil]
    rw [chunks_closed_append hn hclosed, hone, List.singleton_append]
  · -- the buffer is full before the line ends
    have htake : (b.take n).length = n := List.length_take_of_le (by omega)
    have hfull : Closed nl n (b.take n) := .inr ⟨fun h => hb (List.mem_of_mem_take h), htake⟩
    have hdrop : (b.drop n).length < b.length := by
      rw [List.length_drop]
      omega
    have hrest := chunks_line_append hn (fun h => hb (List.mem_of_mem_drop h) : nl ∉ b.drop n) s
    rw [← List.take_append_drop n b, List.append_assoc, List.append_assoc,
      chunks_closed_append hn hfull, List.append_assoc, chunks_closed_append hn hfull,
      ← List.append_assoc, hrest, List.cons_append]
termination_by b.length

/-- The lines of a text are read one after the other. -/
theorem chunks_lines (hn : 0 < n) (h : ∀ l ∈ ls, ∃ b, nl ∉ b ∧ l = b ++ [nl]) :
    chunks nl n ls.flatten = ls.flatMap (chunks nl n) := by
  induction ls with
  | nil => rfl
  | cons l ls ih =>
    obtain ⟨⟨b, hb, rfl⟩, hls⟩ := List.forall_mem_cons.1 h
    rw [List.flatten_cons, chunks_line_append hn hb, ih hls, List.flatMap_cons]

/-! ### Lines of any length -/

/-- The lines of a text with their ends, which the last one may lack. -/
def textLines (nl : α) (s : List α) : List (List α) := chunks nl (s.length + 1) s

theorem lineLength_le_length (nl : α) (n : ℕ) (s : List α) : lineLength nl n s ≤ s.length := by
  induction s generalizing n with
  | nil => cases n <;> exact Nat.le_refl _
  | cons c s ih =>
    cases n with
    | zero => exact Nat.zero_le _
    | succ n =>
      have := ih n
      rw [lineLength, List.length_cons]
      split_ifs <;> omega

/-- A smaller buffer takes less. -/
theorem lineLength_eq_min {m : ℕ} (hnm : n ≤ m) (s : List α) :
    lineLength nl n s = min n (lineLength nl m s) := by
  induction s generalizing n m with
  | nil =>
    cases n <;> cases m <;> simp [lineLength]
  | cons c s ih =>
    cases n with
    | zero => exact (Nat.zero_min _).symm
    | succ n =>
      cases m with
      | zero => exact absurd hnm (Nat.not_succ_le_zero n)
      | succ m =>
        have := ih (Nat.le_of_succ_le_succ hnm)
        rw [lineLength, lineLength]
        split_ifs <;> omega

/-- A buffer that takes the lines whole. -/
theorem chunks_eq_of_length_le {m : ℕ} (hn : 0 < n) (hnm : n ≤ m) {s : List α}
    (h : ∀ l ∈ chunks nl m s, l.length ≤ n) : chunks nl n s = chunks nl m s := by
  by_cases hs : s = []
  · rw [hs, chunks_nil, chunks_nil]
  · have hm : 0 < m := Nat.lt_of_lt_of_le hn hnm
    rw [chunks_eq_cons hm hs, List.forall_mem_cons] at h
    have hle : lineLength nl m s ≤ n := by
      have hfirst := h.1
      rwa [fgets, List.length_take, Nat.min_eq_left (lineLength_le_length nl m s)] at hfirst
    have hfgets : fgets nl n s = fgets nl m s := by
      rw [fgets, fgets, lineLength_eq_min hnm, Nat.min_eq_right hle]
    have hlt : (fgets nl m s).2.length < s.length := length_fgets_lt hm hs
    rw [chunks_eq_cons hn hs, chunks_eq_cons hm hs, hfgets, chunks_eq_of_length_le hn hnm h.2]
termination_by s.length

theorem length_le_of_mem_chunks (hn : 0 < n) (hl : l ∈ chunks nl n s) : l.length ≤ s.length := by
  conv_rhs => rw [← @flatten_chunks _ _ nl _ hn s]
  exact (List.sublist_flatten_of_mem hl).length_le

/-- A buffer larger than the text is as good as any. -/
theorem chunks_of_length_lt (hlt : s.length < n) : chunks nl n s = textLines nl s :=
  (chunks_eq_of_length_le (Nat.succ_pos _) hlt fun _ hl =>
    Nat.le_trans (length_le_of_mem_chunks (Nat.zero_lt_of_lt hlt) hl) (Nat.le_succ _)).symm

/-- The chunks are the lines when the buffer takes every line. -/
theorem chunks_eq_textLines (hn : 0 < n) (h : ∀ l ∈ textLines nl s, l.length ≤ n) :
    chunks nl n s = textLines nl s := by
  by_cases hlt : s.length < n
  · exact chunks_of_length_lt hlt
  · exact chunks_eq_of_length_le hn (by omega) h

theorem textLines_line (hb : nl ∉ b) (s : List α) :
    textLines nl (b ++ [nl] ++ s) = (b ++ [nl]) :: textLines nl s := by
  have hlen : b.length + s.length + 1 = (b ++ [nl] ++ s).length := by
    simp only [List.length_append, List.length_singleton]
    omega
  have hclosed : Closed nl ((b ++ [nl] ++ s).length + 1) (b ++ [nl]) :=
    .inl ⟨b, hb, by omega, rfl⟩
  rw [textLines, chunks_closed_append (Nat.succ_pos _) hclosed, chunks_of_length_lt (by omega)]

theorem textLines_of_notMem (hb : nl ∉ b) (hne : b ≠ []) : textLines nl b = [b] :=
  chunks_open ⟨hb, Nat.lt_succ_self _⟩ hne

/-- Finished lines in front of a text are lines of the whole. -/
theorem textLines_flatten_append (hls : ∀ l ∈ ls, ∃ b, nl ∉ b ∧ l = b ++ [nl]) (s : List α) :
    textLines nl (ls.flatten ++ s) = ls ++ textLines nl s := by
  induction ls with
  | nil => rfl
  | cons l ls ih =>
    obtain ⟨⟨b, hb, rfl⟩, hrest⟩ := List.forall_mem_cons.1 hls
    rw [List.flatten_cons, List.append_assoc, textLines_line hb, ih hrest, List.cons_append]

omit [DecidableEq α] in
/-- Every text consists of finished lines and an unfinished one, which may be empty. -/
theorem exists_finished (nl : α) (s : List α) :
    ∃ (ls : List (List α)) (t : List α), (∀ l ∈ ls, ∃ b, nl ∉ b ∧ l = b ++ [nl]) ∧ nl ∉ t ∧
      s = ls.flatten ++ t := by
  obtain ⟨ls, t, hls, ht, rfl⟩ := exists_closed nl (Nat.succ_pos s.length) s
  refine ⟨ls, t, fun l hl => ?_, ht.1, rfl⟩
  obtain ⟨b, hb, -, hl'⟩ | ⟨-, hlen⟩ := hls l hl
  · exact ⟨b, hb, hl'⟩
  · have hle := (List.sublist_flatten_of_mem hl).length_le
    rw [hlen, List.length_append] at hle
    omega

end Lines

end Msm8909w
