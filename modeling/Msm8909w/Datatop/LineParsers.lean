import Msm8909w.Lib.Memory
import Msm8909w.Datatop.Str

/-!
# Line parsers of datatop

`dt_dev_parse`, `dt_meminfo_parse` and `dt_stat_parse` scan a line in place: they put zero bytes
behind the columns and keep pointers to the columns in a dictionary.  Here they are programs whose
accesses to the line and to the dictionary are visible; a pointer is a position in the line, and a
`while` loop runs on fuel.

The inner loops that look for the end of a column do not look at the length of the line.  In
`dt_stat_parse` they do, so that it never leaves the line.

* `staysInside_iff` : a parser comes to an end inside the line exactly if the line fits (`Fits`):
  for `dt_dev_parse` its last column is followed by a blank, for `dt_meminfo_parse` its second
  column is followed by a blank,
* `not_staysInside_samples` : the usual lines do not fit.
-/

namespace Msm8909w

namespace Datatop

open Prog

/-! ### Programs over a line and a dictionary -/

/-- What a parser does. -/
inductive ParseCmd where
  /-- Read `line1[i]`. -/
  | read (i : ℕ)
  /-- Write `line1[i]`. -/
  | write (i : ℕ) (c : UInt8)
  /-- `dict->key[index] = &line1[p]`. -/
  | key (index p : ℕ)
  /-- `dict->val[index] = &line1[p]`. -/
  | val (index p : ℕ)
  /-- `dict->max = k`. -/
  | max (k : ℕ)

abbrev ParseCmd.Reply : ParseCmd → Type
  | read _ => UInt8
  | _ => Unit

/-- The line and the dictionary. -/
structure LineState where
  line : Buffer UInt8
  dict : ProcDict ℕ

def LineState.exec (s : LineState) : (c : ParseCmd) → c.Reply × LineState
  | .read i => (s.line i, s)
  | .write i c => ((), { s with line := s.line.put i [c] })
  | .key index p => ((), { s with dict := { s.dict with key := s.dict.key.put index [p] } })
  | .val index p => ((), { s with dict := { s.dict with val := s.dict.val.put index [p] } })
  | .max k => ((), { s with dict := { s.dict with max := k } })

def lineParser : Machine LineState ParseCmd ParseCmd.Reply := ⟨LineState.exec⟩

/-- What is touched and what is pointed to lies at the positions `0` to `len`. -/
def ParseCmd.Inside (len : ℕ) : ParseCmd → Prop
  | read i => i ≤ len
  | write i _ => i ≤ len
  | key _ p => p ≤ len
  | val _ p => p ≤ len
  | max _ => True

instance (len : ℕ) : DecidablePred (ParseCmd.Inside len) := fun c => by
  cases c <;> unfold ParseCmd.Inside <;> infer_instance

abbrev ParseProg := Prog ParseCmd ParseCmd.Reply

def readChar (i : ℕ) : ParseProg UInt8 := Prog.issue (ParseCmd.read i)
def writeChar (i : ℕ) (c : UInt8) : ParseProg Unit := Prog.issue (ParseCmd.write i c)
def setKey (index p : ℕ) : ParseProg Unit := Prog.issue (ParseCmd.key index p)
def setVal (index p : ℕ) : ParseProg Unit := Prog.issue (ParseCmd.val index p)
def setMax (k : ℕ) : ParseProg Unit := Prog.issue (ParseCmd.max k)

/-- A tab or a space. -/
def isBlank (c : UInt8) : Bool := c == 9 || c == 32

/-- `while (q(line1[n])) n++`; `none` if the fuel runs out. -/
def scanWhile (q : UInt8 → Bool) : ℕ → ℕ → ParseProg (Option ℕ)
  | 0, _ => return none
  | fuel + 1, n => do
    let c ← readChar n
    if q c then scanWhile q fuel (n + 1) else return some n

/-! ### `dt_dev_parse` -/

/-- The loop that looks for the colon, over the `n` positions from `i` on. -/
def devColon : ℕ → ℕ → ParseProg ℕ
  | 0, _ => return 0
  | n + 1, i => do
    let c ← readChar i
    if c == 58 then
      writeChar (i + 1) 0
      return i + 2
    else devColon n (i + 1)

/-- The loop over the columns, from position `j` on. -/
def devColumns (fuel len1 : ℕ) : ℕ → ℕ → ℕ → ParseProg (Option Unit)
  | 0, _, _ => return none
  | turns + 1, j, k =>
    if j < len1 then do
      let c ← readChar j
      if isBlank c then devColumns fuel len1 turns (j + 1) k
      else
        setVal k j
        match ← scanWhile (!isBlank ·) fuel j with
        | none => return none
        | some n =>
          if n < len1 then writeChar n 0
          devColumns fuel len1 turns (n + 1) (k + 1)
    else return some ()

/-- `dt_dev_parse`. -/
def dtDevParse (fuel len1 index : ℕ) : ParseProg (Option Unit) := do
  match ← scanWhile isBlank fuel 0 with
  | none => return none
  | some i =>
    setKey index i
    let start ← devColon len1 0
    devColumns fuel len1 fuel start 0

/-! ### `dt_meminfo_parse` -/

/-- The second inner loop, from position `n` on, and the zero byte behind the value. -/
def zeroValueEnd (fuel n : ℕ) : ParseProg (Option Unit) := do
  match ← scanWhile (· != 32) fuel n with
  | none => return none
  | some n =>
    writeChar n 0
    return some ()

/-- The loop over the `n` positions from `i` on; its body is run at the first blank. -/
def meminfoLoop (fuel k : ℕ) : ℕ → ℕ → ParseProg (Option Unit)
  | 0, _ => return some ()
  | n + 1, i =>
    if k < DTOP_DICT_SIZE then do
      let c ← readChar i
      if isBlank c then
        writeChar i 0
        match ← scanWhile isBlank fuel (i + 1) with
        | none => return none
        | some n =>
          setVal k n
          zeroValueEnd fuel n
      else meminfoLoop fuel k n (i + 1)
    else return some ()

/-- `dt_meminfo_parse`. -/
def dtMeminfoParse (fuel len1 l : ℕ) : ParseProg (Option ℕ) :=
  if len1 < 1 then return some 0
  else do
    setKey l 0
    match ← meminfoLoop fuel l len1 0 with
    | none => return none
    | some () =>
      setMax (l + 1)
      return some (l + 1)

/-! ### `dt_stat_parse` -/

/-- The loop that puts a zero byte for the first space, over the `n` positions from `i` on; `none`
if there is no space. -/
def zeroSpace : ℕ → ℕ → ParseProg (Option ℕ)
  | 0, _ => return none
  | n + 1, i => do
    let c ← readChar i
    if c == 32 then
      writeChar i 0
      return some i
    else zeroSpace n (i + 1)

/-- The loop over the values, from position `i` on. -/
def statColumns (len1 : ℕ) : ℕ → ℕ → ℕ → ParseProg (Option ℕ)
  | 0, _, _ => return none
  | turns + 1, i, k =>
    if i < len1 ∧ k < DTOP_DICT_SIZE then do
      let c ← readChar i
      if c == 32 then statColumns len1 turns (i + 1) k
      else
        setVal k i
        let j ← zeroSpace (len1 - i) i
        statColumns len1 turns (j.getD len1 + 1) (k + 1)
    else return some k

/-- `dt_stat_parse`. -/
def dtStatParse (fuel len1 nIndex vIndex : ℕ) : ParseProg (Option ℕ) :=
  if len1 < 1 then return some 0
  else do
    setKey nIndex 0
    let space ← zeroSpace len1 0
    match ← statColumns len1 fuel (space.elim 0 (· + 1)) vIndex with
    | none => return none
    | some k =>
      setMax k
      return some k

/-! ### Scans -/

variable {s : LineState} {len fuel i j n : ℕ} {q : UInt8 → Bool}

/-- What a program with this fuel does stays inside the line. -/
abbrev InLine {α : Type} (len : ℕ) (p : ParseProg α) (s : LineState) : Prop :=
  p.Within lineParser (ParseCmd.Inside len) s

theorem inLine_bind {α β : Type} {p : ParseProg α} {f : α → ParseProg β} :
    InLine len (p >>= f) s ↔ InLine len p s ∧
      InLine len (f (p.run lineParser s).1) (p.run lineParser s).2 :=
  within_bind

theorem inLine_pure {α : Type} {x : α} : InLine len (pure x : ParseProg α) s := within_ret

theorem inLine_readChar : InLine len (readChar i) s ↔ i ≤ len :=
  within_cmd.trans (and_iff_left within_ret)

theorem inLine_writeChar {c : UInt8} : InLine len (writeChar i c) s ↔ i ≤ len :=
  within_cmd.trans (and_iff_left within_ret)

theorem inLine_setKey : InLine len (setKey n i) s ↔ i ≤ len :=
  within_cmd.trans (and_iff_left within_ret)

theorem inLine_setVal : InLine len (setVal n i) s ↔ i ≤ len :=
  within_cmd.trans (and_iff_left within_ret)

theorem inLine_setMax : InLine len (setMax n) s :=
  within_cmd.2 ⟨trivial, within_ret⟩

@[simp] theorem run_readChar : (readChar i).run lineParser s = (s.line i, s) := rfl

/-- A scan that comes to its end at `n`. -/
structure Stops (q : UInt8 → Bool) (line : Buffer UInt8) (i n : ℕ) : Prop where
  le : i ≤ n
  before : ∀ j, i ≤ j → j < n → q (line j) = true
  at_end : q (line n) = false

/-- Such a scan ends if there is enough fuel, and changes nothing. -/
theorem run_scanWhile (h : Stops q s.line i n) :
    (scanWhile q fuel i).run lineParser s = (if n < i + fuel then some n else none, s) := by
  obtain ⟨hle, hbefore, hend⟩ := h
  induction fuel generalizing i with
  | zero =>
    rw [if_neg (by omega)]
    rfl
  | succ fuel ih =>
    rw [scanWhile, run_bind, run_readChar]
    dsimp only
    rcases Nat.eq_or_lt_of_le hle with rfl | hlt
    · rw [hend, if_neg Bool.false_ne_true, if_pos (by omega)]
      rfl
    · rw [if_pos (hbefore i le_rfl hlt), ih (by omega) fun j hj => hbefore j (by omega)]
      congr 2
      exact propext (by omega)

theorem inLine_scanWhile (h : Stops q s.line i n) (hn : n ≤ len) :
    InLine len (scanWhile q fuel i) s := by
  obtain ⟨hle, hbefore, hend⟩ := h
  induction fuel generalizing i with
  | zero => exact inLine_pure
  | succ fuel ih =>
    rw [scanWhile]
    refine inLine_bind.2 ⟨inLine_readChar.2 (by omega), ?_⟩
    rw [run_readChar]
    dsimp only
    rcases Nat.eq_or_lt_of_le hle with rfl | hlt
    · rw [hend, if_neg Bool.false_ne_true]
      exact inLine_pure
    · rw [if_pos (hbefore i le_rfl hlt)]
      exact ih (by omega) fun j hj => hbefore j (by omega)

/-- A scan that finds no end in the line leaves it. -/
theorem not_inLine_scanWhile (hi : i ≤ len + 1) (h : ∀ j, i ≤ j → j ≤ len → q (s.line j) = true)
    (hfuel : len + 1 < i + fuel) : ¬ InLine len (scanWhile q fuel i) s := by
  induction fuel generalizing i with
  | zero => omega
  | succ fuel ih =>
    rw [scanWhile, inLine_bind, inLine_readChar, run_readChar]
    rintro ⟨hle, hrest⟩
    dsimp only at hrest
    rw [if_pos (h i le_rfl hle)] at hrest
    exact ih (by omega) (fun j hj => h j (by omega)) (by omega) hrest

/-- A scan either comes to its end in the line or leaves it. -/
theorem stops_or_leaves (q : UInt8 → Bool) (line : Buffer UInt8) (i len : ℕ) :
    (∃ n ≤ len, Stops q line i n) ∨ ∀ j, i ≤ j → j ≤ len → q (line j) = true := by
  by_cases h : ∃ n, i ≤ n ∧ n ≤ len ∧ q (line n) = false
  · obtain ⟨hle, hlen, hq⟩ := Nat.find_spec h
    refine .inl ⟨Nat.find h, hlen, hle, fun j hj hlt => ?_, hq⟩
    by_contra hc
    exact Nat.find_min h hlt ⟨hj, by omega, by rwa [Bool.not_eq_true] at hc⟩
  · refine .inr fun j hj hle => ?_
    by_contra hc
    exact h ⟨j, hj, hle, by rwa [Bool.not_eq_true] at hc⟩

theorem stops_le_of_blank (hj : j ≤ n) (h : isBlank (s.line n) = true) :
    ∃ m ≤ n, Stops (!isBlank ·) s.line j m := by
  refine (stops_or_leaves _ _ _ _).resolve_right fun hall => ?_
  have hn := hall n hj le_rfl
  rw [h] at hn
  cases hn

/-! ### The columns of `dt_dev_parse` -/

section Columns

variable {k turns : ℕ}

/-- One column: the rest of the loop starts behind its end. -/
theorem inLine_devColumn (fuel turns k : ℕ) (hj : j < len) (hblank : isBlank (s.line j) = false)
    (hstop : Stops (!isBlank ·) s.line j n) (hn : n < len) :
    ∃ s', (∀ i, n < i → s'.line i = s.line i) ∧
      (InLine len (devColumns fuel len (turns + 1) j k) s ↔
        (n < j + fuel → InLine len (devColumns fuel len turns (n + 1) (k + 1)) s')) ∧
      (n < j + fuel → ((devColumns fuel len (turns + 1) j k).run lineParser s).1 =
        ((devColumns fuel len turns (n + 1) (k + 1)).run lineParser s').1) := by
  let s₁ : LineState := ((setVal k j).run lineParser s).2
  have hstop₁ : Stops (!isBlank ·) s₁.line j n := hstop
  refine ⟨((writeChar n 0).run lineParser s₁).2, fun i hi => ?_, ?_, fun hfuel => ?_⟩
  · exact Buffer.put_apply_of_le (by rw [List.length_singleton]; omega)
  · rw [devColumns, if_pos hj, inLine_bind, inLine_readChar, run_readChar]
    dsimp only
    rw [hblank, if_neg Bool.false_ne_true, inLine_bind, inLine_setVal, inLine_bind,
      and_iff_right hj.le, and_iff_right hj.le, run_scanWhile hstop₁,
      and_iff_right (inLine_scanWhile hstop₁ hn.le)]
    by_cases hfuel : n < j + fuel
    · rw [if_pos hfuel]
      dsimp only
      rw [if_pos hn, inLine_bind, inLine_writeChar, and_iff_right hn.le]
      exact ⟨fun h _ => h, fun h => h hfuel⟩
    · rw [if_neg hfuel]
      exact iff_of_true inLine_pure fun h => absurd h hfuel
  · rw [devColumns, if_pos hj, run_bind, run_readChar]
    dsimp only
    rw [hblank, if_neg Bool.false_ne_true, run_bind, run_bind, run_scanWhile hstop₁, if_pos hfuel]
    dsimp only
    rw [if_pos hn, run_bind]

theorem inLine_devBlank (fuel turns k : ℕ) (hj : j < len) (hblank : isBlank (s.line j) = true) :
    (InLine len (devColumns fuel len (turns + 1) j k) s ↔
      InLine len (devColumns fuel len turns (j + 1) k) s) ∧
    ((devColumns fuel len (turns + 1) j k).run lineParser s).1 =
      ((devColumns fuel len turns (j + 1) k).run lineParser s).1 := by
  rw [devColumns, if_pos hj, inLine_bind, inLine_readChar, run_bind, run_readChar,
    and_iff_right hj.le]
  dsimp only
  rw [if_pos hblank]
  exact ⟨.rfl, rfl⟩

/-- With a blank at the end of the line, every column has an end. -/
theorem devColumns_fits (h : len ≤ j ∨ isBlank (s.line (len - 1)) = true) :
    InLine len (devColumns fuel len turns j k) s ∧ (len - j < turns → len < fuel →
      ((devColumns fuel len turns j k).run lineParser s).1.isSome) := by
  induction turns generalizing j k s with
  | zero => exact ⟨inLine_pure, fun hlt => absurd hlt (Nat.not_lt_zero _)⟩
  | succ turns ih =>
    by_cases hj : j < len
    swap
    · rw [devColumns, if_neg hj]
      exact ⟨inLine_pure, fun _ _ => rfl⟩
    have hlast := h.resolve_left (by omega)
    cases hblank : isBlank (s.line j) with
    | true =>
      obtain ⟨hiff, hrun⟩ := inLine_devBlank fuel turns k hj hblank
      obtain ⟨hin, hend⟩ := ih (j := j + 1) (k := k) (s := s) (.inr hlast)
      rw [hiff, hrun]
      exact ⟨hin, fun ht => hend (by omega)⟩
    | false =>
      obtain ⟨n, hn, hstop⟩ := stops_le_of_blank (show j ≤ len - 1 by omega) hlast
      obtain ⟨s', hline, hiff, hrun⟩ := inLine_devColumn fuel turns k hj hblank hstop
        (by omega)
      have hrest : len ≤ n + 1 ∨ isBlank (s'.line (len - 1)) = true := by
        rcases Nat.lt_or_ge (n + 1) len with hlt | hge
        · exact .inr (by rwa [hline _ (by omega)])
        · exact .inl hge
      obtain ⟨hin, hend⟩ := ih (k := k + 1) hrest
      refine ⟨hiff.2 fun _ => hin, fun ht hf => ?_⟩
      have hle := hstop.le
      rw [hrun (by omega)]
      exact hend (by omega) hf

/-- Without it, the last column has none, and the scan leaves the line. -/
theorem not_inLine_devColumns (hj : j < len) (hlast : isBlank (s.line (len - 1)) = false)
    (hnul : isBlank (s.line len) = false) (hturns : len - j < turns) (hfuel : len + 1 < fuel) :
    ¬ InLine len (devColumns fuel len turns j k) s := by
  induction turns generalizing j k s with
  | zero => omega
  | succ turns ih =>
    cases hblank : isBlank (s.line j) with
    | true =>
      rw [(inLine_devBlank fuel turns k hj hblank).1]
      have hne : j ≠ len - 1 := by
        rintro rfl
        rw [hlast] at hblank
        cases hblank
      exact ih (by omega) hlast hnul (by omega)
    | false =>
      rcases stops_or_leaves (!isBlank ·) s.line j len with ⟨n, hn, hstop⟩ | hleave
      · have hend := hstop.at_end
        simp only [Bool.not_eq_false'] at hend
        have hne : n ≠ len - 1 ∧ n ≠ len := by
          constructor
          · rintro rfl
            rw [hlast] at hend
            cases hend
          · rintro rfl
            rw [hnul] at hend
            cases hend
        have hle := hstop.le
        obtain ⟨s', hline, hiff, -⟩ := inLine_devColumn fuel turns k hj hblank hstop
          (by omega)
        rw [hiff]
        intro h
        refine ih (j := n + 1) (k := k + 1) (s := s') (by omega) ?_ ?_ (by omega) (h (by omega))
        · rwa [hline _ (by omega)]
        · rwa [hline _ (by omega)]
      · rw [devColumns, if_pos hj, inLine_bind, inLine_readChar, run_readChar]
        dsimp only
        rw [hblank, if_neg Bool.false_ne_true, inLine_bind, inLine_bind]
        rintro ⟨-, -, hscan, -⟩
        exact not_inLine_scanWhile (by omega) hleave (by omega) hscan

end Columns

/-! ### Lines that fit -/

/-- A program with fuel comes to an end, and does so inside the line. -/
def StaysInside {α : Type} (len : ℕ) (p : ℕ → ParseProg (Option α)) (s : LineState) : Prop :=
  (∃ fuel, ((p fuel).run lineParser s).1.isSome) ∧ ∀ fuel, InLine len (p fuel) s

/-- Where `dt_dev_parse` starts to look for columns: two positions behind the first colon. -/
def devStart (line : Buffer UInt8) (len : ℕ) : ℕ :=
  ((List.range' 0 len).find? (line · == 58)).elim 0 (· + 2)

/-- There are no columns, or the line ends with a blank. -/
def DevFits (line : Buffer UInt8) (len : ℕ) : Prop :=
  len ≤ devStart line len ∨ isBlank (line (len - 1)) = true

/-- There is no blank, or behind a blank there is a second column and behind that a space. -/
def MeminfoFits (line : Buffer UInt8) (len : ℕ) : Prop :=
  (∀ i < len, isBlank (line i) = false) ∨
    ∃ i p r, i < p ∧ p < r ∧ r < len ∧ isBlank (line i) = true ∧ isBlank (line p) = false ∧
      line r = 32

theorem devColon_spec (len n i : ℕ) (hn : i + n ≤ len) (s : LineState) :
    InLine len (devColon n i) s ∧ ∃ s', (devColon n i).run lineParser s =
        (((List.range' i n).find? (s.line · == 58)).elim 0 (· + 2), s') ∧
      ∀ m, ((List.range' i n).find? (s.line · == 58)).elim 0 (· + 2) ≤ m →
        s'.line m = s.line m := by
  induction n generalizing i with
  | zero => exact ⟨inLine_pure, s, rfl, fun _ _ => rfl⟩
  | succ n ih =>
    have hi : i ≤ len := by omega
    rw [devColon, inLine_bind, inLine_readChar, and_iff_right hi, run_bind, run_readChar,
      List.range'_succ, List.find?_cons]
    dsimp only
    cases hcolon : s.line i == 58 with
    | true =>
      refine ⟨inLine_bind.2 ⟨inLine_writeChar.2 (by omega), inLine_pure⟩, _, rfl, fun m hm => ?_⟩
      exact Buffer.put_apply_of_le (by rw [List.length_singleton]; exact hm)
    | false => exact ih (i + 1) (by omega)

theorem dtDevParse_staysInside_iff {index : ℕ} (hnul : s.line len = 0) :
    StaysInside len (dtDevParse · len index) s ↔ DevFits s.line len := by
  have hblank : isBlank (s.line len) = false := by rw [hnul]; rfl
  obtain ⟨i, hi, hstop⟩ : ∃ i ≤ len, Stops isBlank s.line 0 i := by
    refine (stops_or_leaves _ _ _ _).resolve_right fun hall => ?_
    rw [hall len (Nat.zero_le len) le_rfl] at hblank
    cases hblank
  let s₁ : LineState := ((setKey index i).run lineParser s).2
  obtain ⟨hcolon, s₂, hrun, hline⟩ := devColon_spec len len 0 (by omega) s₁
  have hstart : ((List.range' 0 len).find? (s₁.line · == 58)).elim 0 (· + 2) =
      devStart s.line len := rfl
  rw [hstart] at hrun hline
  -- what is left to do, once there is enough fuel for the first scan
  have hparse : ∀ fuel, (InLine len (dtDevParse fuel len index) s ↔
      (i < fuel → InLine len (devColumns fuel len fuel (devStart s.line len) 0) s₂)) ∧
      (i < fuel → ((dtDevParse fuel len index).run lineParser s).1 =
        ((devColumns fuel len fuel (devStart s.line len) 0).run lineParser s₂).1) := by
    intro fuel
    rw [dtDevParse, inLine_bind, run_bind, run_scanWhile hstop, Nat.zero_add,
      and_iff_right (inLine_scanWhile hstop hi)]
    by_cases hfuel : i < fuel
    · rw [if_pos hfuel]
      dsimp only
      rw [inLine_bind, inLine_setKey, and_iff_right hi, inLine_bind, and_iff_right hcolon,
        run_bind, run_bind, hrun]
      exact ⟨⟨fun h _ => h, fun h => h hfuel⟩, fun _ => rfl⟩
    · rw [if_neg hfuel]
      exact ⟨iff_of_true inLine_pure fun h => absurd h hfuel, fun h => absurd h hfuel⟩
  constructor
  · rintro ⟨-, hin⟩
    by_contra hfits
    rw [DevFits, not_or, not_le, Bool.not_eq_true] at hfits
    obtain ⟨hlt, hlast⟩ := hfits
    have hcols := (hparse (len + 2)).1.1 (hin _) (by omega)
    refine not_inLine_devColumns hlt ?_ ?_ (by omega) (by omega) hcols
    · rwa [hline _ (by omega)]
    · rwa [hline _ (by omega)]
  · intro hfits
    have hfits₂ : len ≤ devStart s.line len ∨ isBlank (s₂.line (len - 1)) = true := by
      rcases Nat.lt_or_ge (devStart s.line len) len with hlt | hge
      · rw [hline _ (by omega)]
        exact hfits
      · exact .inl hge
    refine ⟨⟨len + 1, ?_⟩, fun fuel => (hparse fuel).1.2 fun _ => (devColumns_fits hfits₂).1⟩
    rw [(hparse (len + 1)).2 (by omega)]
    exact (devColumns_fits hfits₂).2 (by omega) (by omega)

/-! ### `dt_meminfo_parse` -/

/-- `MeminfoFits` of the part of the line from position `i` on. -/
def MeminfoFitsFrom (line : Buffer UInt8) (len i : ℕ) : Prop :=
  (∀ j, i ≤ j → j < len → isBlank (line j) = false) ∨
    ∃ b p r, i ≤ b ∧ b < p ∧ p < r ∧ r < len ∧ isBlank (line b) = true ∧
      isBlank (line p) = false ∧ line r = 32

theorem meminfoFitsFrom_zero {line : Buffer UInt8} :
    MeminfoFitsFrom line len 0 ↔ MeminfoFits line len := by
  simp only [MeminfoFitsFrom, MeminfoFits, Nat.zero_le, true_and, forall_const]

theorem meminfoFitsFrom_succ {line : Buffer UInt8} (h : isBlank (line i) = false) :
    MeminfoFitsFrom line len i ↔ MeminfoFitsFrom line len (i + 1) := by
  constructor
  · rintro (hall | ⟨b, p, r, hib, hbp, hpr, hr, hb, hp, hspace⟩)
    · exact .inl fun j hj => hall j (by omega)
    · have hne : b ≠ i := by
        rintro rfl
        rw [h] at hb
        cases hb
      exact .inr ⟨b, p, r, by omega, hbp, hpr, hr, hb, hp, hspace⟩
  · rintro (hall | ⟨b, p, r, hib, hbp, hpr, hr, hb, hp, hspace⟩)
    · refine .inl fun j hj hlt => ?_
      rcases Nat.eq_or_lt_of_le hj with rfl | hij
      · exact h
      · exact hall j hij hlt
    · exact .inr ⟨b, p, r, by omega, hbp, hpr, hr, hb, hp, hspace⟩

/-- At a blank, with the second column at `n`, the line fits if the column is followed by a
space. -/
theorem meminfoFitsFrom_iff_of_blank {line : Buffer UInt8} (hi : i < len)
    (hb : isBlank (line i) = true) (hn : Stops isBlank line (i + 1) n) :
    MeminfoFitsFrom line len i ↔ ∃ r, n ≤ r ∧ r < len ∧ line r = 32 := by
  constructor
  · rintro (hall | ⟨b, p, r, hib, hbp, hpr, hr, -, hp, hspace⟩)
    · rw [hall i le_rfl hi] at hb
      cases hb
    · refine ⟨r, ?_, hr, hspace⟩
      by_contra hlt
      rw [hn.before p (by omega) (by omega)] at hp
      cases hp
  · rintro ⟨r, hnr, hr, hspace⟩
    have hne : n ≠ r := by
      rintro rfl
      have hend := hn.at_end
      rw [hspace] at hend
      cases hend
    have hle := hn.le
    exact .inr ⟨i, n, r, le_rfl, by omega, by omega, hr, hb, hn.at_end, hspace⟩

/-- The value ends in the line exactly if a space follows. -/
theorem zeroValueEnd_fits (hn : n ≤ len) (hnul : s.line len = 0) :
    ((∃ r, n ≤ r ∧ r < len ∧ s.line r = 32) → ∀ fuel, InLine len (zeroValueEnd fuel n) s ∧
      (len < fuel → ((zeroValueEnd fuel n).run lineParser s).1.isSome)) ∧
    ∀ fuel, len + 1 < fuel → InLine len (zeroValueEnd fuel n) s →
      ∃ r, n ≤ r ∧ r < len ∧ s.line r = 32 := by
  rcases stops_or_leaves (· != 32) s.line n len with ⟨r, hr, hstop⟩ | hleave
  · have hspace : s.line r = 32 := by simpa only [bne_eq_false_iff_eq] using hstop.at_end
    have hne : r ≠ len := by
      rintro rfl
      rw [hnul] at hspace
      cases hspace
    have hle := hstop.le
    refine ⟨fun _ fuel => ?_, fun _ _ _ => ⟨r, hle, by omega, hspace⟩⟩
    rw [zeroValueEnd, inLine_bind, and_iff_right (inLine_scanWhile hstop hr), run_bind,
      run_scanWhile hstop]
    by_cases hfuel : r < n + fuel
    · rw [if_pos hfuel]
      exact ⟨inLine_bind.2 ⟨inLine_writeChar.2 hr, inLine_pure⟩, fun _ => rfl⟩
    · rw [if_neg hfuel]
      exact ⟨inLine_pure, fun h => by omega⟩
  · constructor
    · rintro ⟨r, hnr, hr, hspace⟩
      have hne := hleave r hnr hr.le
      rw [hspace] at hne
      cases hne
    · intro fuel hfuel h
      rw [zeroValueEnd, inLine_bind] at h
      exact absurd h.1 (not_inLine_scanWhile (by omega) hleave (by omega))

/-- The body of the loop, at a blank. -/
theorem meminfoBody_fits {k : ℕ} (hk : k < DTOP_DICT_SIZE) (hi : i < len)
    (hb : isBlank (s.line i) = true) (hnul : s.line len = 0) :
    (MeminfoFitsFrom s.line len i → ∀ fuel, InLine len (meminfoLoop fuel k (n + 1) i) s ∧
      (len < fuel → ((meminfoLoop fuel k (n + 1) i).run lineParser s).1.isSome)) ∧
    ∀ fuel, len + 1 < fuel → InLine len (meminfoLoop fuel k (n + 1) i) s →
      MeminfoFitsFrom s.line len i := by
  let s₁ : LineState := ((writeChar i 0).run lineParser s).2
  have hline : ∀ j, i < j → s₁.line j = s.line j := fun j hj =>
    Buffer.put_apply_of_le (by rw [List.length_singleton]; omega)
  have hblank : isBlank (s.line len) = false := by rw [hnul]; rfl
  obtain ⟨p, hp, hstop⟩ : ∃ p ≤ len, Stops isBlank s.line (i + 1) p := by
    refine (stops_or_leaves _ _ _ _).resolve_right fun hall => ?_
    rw [hall len hi le_rfl] at hblank
    cases hblank
  have hip := hstop.le
  have hstop₁ : Stops isBlank s₁.line (i + 1) p :=
    ⟨hip, fun j hj hjp => by rw [hline j hj]; exact hstop.before j hj hjp,
      by rw [hline p hip]; exact hstop.at_end⟩
  let s₂ : LineState := ((setVal k p).run lineParser s₁).2
  -- what is left to do, once there is enough fuel for the first scan
  have hloop : ∀ fuel, (InLine len (meminfoLoop fuel k (n + 1) i) s ↔
      (p < i + 1 + fuel → InLine len (zeroValueEnd fuel p) s₂)) ∧
      (p < i + 1 + fuel → ((meminfoLoop fuel k (n + 1) i).run lineParser s).1 =
        ((zeroValueEnd fuel p).run lineParser s₂).1) := by
    intro fuel
    rw [meminfoLoop, if_pos hk, inLine_bind, inLine_readChar, and_iff_right hi.le, run_bind,
      run_readChar]
    dsimp only
    rw [if_pos hb, inLine_bind, inLine_writeChar, and_iff_right hi.le, inLine_bind,
      and_iff_right (inLine_scanWhile hstop₁ hp), run_bind, run_bind, run_scanWhile hstop₁]
    by_cases hfuel : p < i + 1 + fuel
    · rw [if_pos hfuel]
      dsimp only
      rw [inLine_bind, inLine_setVal, and_iff_right hp, run_bind]
      exact ⟨⟨fun h _ => h, fun h => h hfuel⟩, fun _ => rfl⟩
    · rw [if_neg hfuel]
      exact ⟨iff_of_true inLine_pure fun h => absurd h hfuel, fun h => absurd h hfuel⟩
  have hspace : (∃ r, p ≤ r ∧ r < len ∧ s₂.line r = 32) ↔ MeminfoFitsFrom s.line len i := by
    rw [meminfoFitsFrom_iff_of_blank hi hb hstop]
    refine exists_congr fun r => and_congr_right fun hpr => ?_
    rw [show s₂.line r = s.line r from hline r (by omega)]
  have hnul₂ : s₂.line len = 0 := (hline len hi).trans hnul
  obtain ⟨hgood, hbad⟩ := zeroValueEnd_fits (s := s₂) hp hnul₂
  rw [hspace] at hgood
  refine ⟨fun h fuel => ⟨(hloop fuel).1.2 fun _ => (hgood h fuel).1, fun hfuel => ?_⟩,
    fun fuel hfuel h => hspace.1 (hbad fuel hfuel ((hloop fuel).1.1 h (by omega)))⟩
  rw [(hloop fuel).2 (by omega)]
  exact (hgood h fuel).2 hfuel

theorem meminfoLoop_fits {k : ℕ} (hk : k < DTOP_DICT_SIZE) (hn : i + n = len)
    (hnul : s.line len = 0) :
    (MeminfoFitsFrom s.line len i → ∀ fuel, InLine len (meminfoLoop fuel k n i) s ∧
      (len < fuel → ((meminfoLoop fuel k n i).run lineParser s).1.isSome)) ∧
    ∀ fuel, len + 1 < fuel → InLine len (meminfoLoop fuel k n i) s →
      MeminfoFitsFrom s.line len i := by
  induction n generalizing i with
  | zero => exact ⟨fun _ _ => ⟨inLine_pure, fun _ => rfl⟩, fun _ _ _ => .inl fun j hj => by omega⟩
  | succ n ih =>
    cases hb : isBlank (s.line i) with
    | true => exact meminfoBody_fits hk (by omega) hb hnul
    | false =>
      have hi : i ≤ len := by omega
      obtain ⟨hgood, hbad⟩ := ih (i := i + 1) (by omega)
      rw [← meminfoFitsFrom_succ hb] at hgood
      have hstep : ∀ fuel, (InLine len (meminfoLoop fuel k (n + 1) i) s ↔
          InLine len (meminfoLoop fuel k n (i + 1)) s) ∧
          (meminfoLoop fuel k (n + 1) i).run lineParser s =
            (meminfoLoop fuel k n (i + 1)).run lineParser s := by
        intro fuel
        rw [meminfoLoop, if_pos hk, inLine_bind, inLine_readChar, and_iff_right hi, run_bind,
          run_readChar]
        dsimp only
        rw [hb, if_neg Bool.false_ne_true]
        exact ⟨.rfl, rfl⟩
      refine ⟨fun h fuel => ?_, fun fuel hfuel h => ?_⟩
      · rw [(hstep fuel).1, (hstep fuel).2]
        exact hgood h fuel
      · exact (meminfoFitsFrom_succ hb).2 (hbad fuel hfuel ((hstep fuel).1.1 h))

/-- Behind the loop, only the dictionary is changed. -/
theorem dtMeminfoParse_eq (fuel l : ℕ) (s : LineState) (hlen : 0 < len) :
    ∃ s', s'.line = s.line ∧ (InLine len (dtMeminfoParse fuel len l) s ↔
        InLine len (meminfoLoop fuel l len 0) s') ∧
      ((dtMeminfoParse fuel len l).run lineParser s).1.isSome =
        ((meminfoLoop fuel l len 0).run lineParser s').1.isSome := by
  refine ⟨((setKey l 0).run lineParser s).2, rfl, ?_⟩
  rw [dtMeminfoParse, if_neg (by omega), inLine_bind, inLine_setKey, run_bind, inLine_bind,
    and_iff_right (Nat.zero_le len), run_bind]
  cases ((meminfoLoop fuel l len 0).run lineParser ((setKey l 0).run lineParser s).2).1 with
  | none => exact ⟨and_iff_left inLine_pure, rfl⟩
  | some u => exact ⟨and_iff_left (inLine_bind.2 ⟨inLine_setMax, inLine_pure⟩), rfl⟩

theorem dtMeminfoParse_staysInside_iff {l : ℕ} (hnul : s.line len = 0) :
    StaysInside len (dtMeminfoParse · len l) s ↔ DTOP_DICT_SIZE ≤ l ∨ MeminfoFits s.line len := by
  rcases Nat.eq_zero_or_pos len with rfl | hlen
  · exact iff_of_true ⟨⟨0, rfl⟩, fun _ => inLine_pure⟩
      (.inr (.inl fun i hi => absurd hi (Nat.not_lt_zero i)))
  by_cases hl : DTOP_DICT_SIZE ≤ l
  · refine iff_of_true ?_ (.inl hl)
    have hloop : ∀ fuel, meminfoLoop fuel l len 0 = return some () := by
      intro fuel
      obtain ⟨n, rfl⟩ := Nat.exists_eq_succ_of_ne_zero hlen.ne'
      rw [meminfoLoop, if_neg (by omega)]
    refine ⟨⟨0, ?_⟩, fun fuel => ?_⟩
    · obtain ⟨s', -, -, hrun⟩ := dtMeminfoParse_eq 0 l s hlen
      rw [hrun, hloop]
      rfl
    · obtain ⟨s', -, hiff, -⟩ := dtMeminfoParse_eq fuel l s hlen
      rw [hiff, hloop]
      exact inLine_pure
  rw [or_iff_right hl, ← meminfoFitsFrom_zero]
  constructor
  · rintro ⟨-, hin⟩
    obtain ⟨s', hline, hiff, -⟩ := dtMeminfoParse_eq (len + 2) l s hlen
    have hfits := (meminfoLoop_fits (s := s') (by omega) (Nat.zero_add len) (by rwa [hline])).2
      (len + 2) (by omega) (hiff.1 (hin _))
    rwa [hline] at hfits
  · intro hfits
    refine ⟨⟨len + 1, ?_⟩, fun fuel => ?_⟩
    · obtain ⟨s', hline, -, hrun⟩ := dtMeminfoParse_eq (len + 1) l s hlen
      rw [hrun]
      exact ((meminfoLoop_fits (s := s') (by omega) (Nat.zero_add len) (by rwa [hline])).1
        (by rwa [hline]) (len + 1)).2 (by omega)
    · obtain ⟨s', hline, hiff, -⟩ := dtMeminfoParse_eq fuel l s hlen
      exact hiff.2 ((meminfoLoop_fits (s := s') (by omega) (Nat.zero_add len) (by rwa [hline])).1
        (by rwa [hline]) fuel).1

/-! ### `dt_stat_parse` -/

/-- The loop stays inside the line, and finds a space behind where it starts. -/
theorem zeroSpace_spec (len n i : ℕ) (hn : i + n ≤ len) (s : LineState) :
    InLine len (zeroSpace n i) s ∧
      ∀ j ∈ ((zeroSpace n i).run lineParser s).1, i ≤ j ∧ j < i + n := by
  induction n generalizing i with
  | zero => exact ⟨inLine_pure, fun j hj => by cases hj⟩
  | succ n ih =>
    have hi : i ≤ len := by omega
    rw [zeroSpace, inLine_bind, inLine_readChar, and_iff_right hi, run_bind, run_readChar]
    dsimp only
    split_ifs with hspace
    · refine ⟨inLine_bind.2 ⟨inLine_writeChar.2 hi, inLine_pure⟩, fun j hj => ?_⟩
      cases hj
      omega
    · obtain ⟨hin, hmem⟩ := ih (i + 1) (by omega)
      refine ⟨hin, fun j hj => ?_⟩
      obtain ⟨h1, h2⟩ := hmem j hj
      omega

theorem statColumns_fits (len turns i k : ℕ) (s : LineState) :
    InLine len (statColumns len turns i k) s ∧
      (len - i < turns → ((statColumns len turns i k).run lineParser s).1.isSome) := by
  induction turns generalizing i k s with
  | zero => exact ⟨inLine_pure, fun h => absurd h (Nat.not_lt_zero _)⟩
  | succ turns ih =>
    rw [statColumns]
    split_ifs with hi
    swap
    · exact ⟨inLine_pure, fun _ => rfl⟩
    rw [inLine_bind, inLine_readChar, and_iff_right hi.1.le, run_bind, run_readChar]
    dsimp only
    split_ifs with hspace
    · obtain ⟨hin, hend⟩ := ih (i + 1) k s
      exact ⟨hin, fun ht => hend (by omega)⟩
    · obtain ⟨hin, hmem⟩ := zeroSpace_spec len (len - i) i (by omega)
        ((setVal k i).run lineParser s).2
      rw [inLine_bind, inLine_setVal, and_iff_right hi.1.le, inLine_bind, and_iff_right hin,
        run_bind, run_bind]
      obtain ⟨hin', hend⟩ := ih (((zeroSpace (len - i) i).run lineParser
        ((setVal k i).run lineParser s).2).1.getD len + 1) (k + 1)
        ((zeroSpace (len - i) i).run lineParser ((setVal k i).run lineParser s).2).2
      refine ⟨hin', fun ht => hend ?_⟩
      cases hj : ((zeroSpace (len - i) i).run lineParser
          ((setVal k i).run lineParser s).2).1 with
      | none =>
        rw [Option.getD_none]
        omega
      | some j =>
        have := hmem j hj
        rw [Option.getD_some]
        omega

/-- `dt_stat_parse` stays inside every line. -/
theorem dtStatParse_staysInside (len nIndex vIndex : ℕ) (s : LineState) :
    StaysInside len (dtStatParse · len nIndex vIndex) s := by
  rcases Nat.eq_zero_or_pos len with rfl | hlen
  · exact ⟨⟨0, rfl⟩, fun _ => inLine_pure⟩
  let s₁ : LineState := ((setKey nIndex 0).run lineParser s).2
  have hspace := (zeroSpace_spec len len 0 (by omega) s₁).1
  let start := (((zeroSpace len 0).run lineParser s₁).1).elim 0 (· + 1)
  let s₂ := ((zeroSpace len 0).run lineParser s₁).2
  have hparse : ∀ fuel, InLine len (dtStatParse fuel len nIndex vIndex) s ∧
      ((dtStatParse fuel len nIndex vIndex).run lineParser s).1.isSome =
        ((statColumns len fuel start vIndex).run lineParser s₂).1.isSome := by
    intro fuel
    have hcols := (statColumns_fits len fuel start vIndex s₂).1
    rw [dtStatParse, if_neg (by omega), inLine_bind, inLine_setKey,
      and_iff_right (Nat.zero_le len), inLine_bind, and_iff_right hspace, inLine_bind,
      and_iff_right hcols, run_bind, run_bind, run_bind]
    cases ((statColumns len fuel start vIndex).run lineParser s₂).1 with
    | none => exact ⟨inLine_pure, rfl⟩
    | some k => exact ⟨inLine_bind.2 ⟨inLine_setMax, inLine_pure⟩, rfl⟩
  refine ⟨⟨len + 1, ?_⟩, fun fuel => (hparse fuel).1⟩
  rw [(hparse (len + 1)).2]
  exact (statColumns_fits len (len + 1) start vIndex s₂).2 (by omega)

/-! ### The three parsers -/

/-- A line with its length; behind the zero byte anything may follow. -/
structure Line where
  line : Buffer UInt8
  len : ℕ
  nul : line len = 0

/-- A call of a parser. -/
inductive LineParser
  | dev (index : ℕ)
  | meminfo (l : ℕ)
  | stat (nIndex vIndex : ℕ)

namespace LineParser

/-- The parser comes to an end, and all it touches and points to lies at the positions `0` to
`len`. -/
def StaysInside (l : Line) (dict : ProcDict ℕ) : LineParser → Prop
  | dev index => Datatop.StaysInside l.len (dtDevParse · l.len index) ⟨l.line, dict⟩
  | meminfo n => Datatop.StaysInside l.len (dtMeminfoParse · l.len n) ⟨l.line, dict⟩
  | stat nIndex vIndex =>
    Datatop.StaysInside l.len (dtStatParse · l.len nIndex vIndex) ⟨l.line, dict⟩

/-- The columns the parser looks for end with a blank; `dt_meminfo_parse` looks for them only if
the dictionary has room. -/
def Fits (l : Line) : LineParser → Prop
  | dev _ => DevFits l.line l.len
  | meminfo n => DTOP_DICT_SIZE ≤ n ∨ MeminfoFits l.line l.len
  | stat _ _ => True

/-- **When a parser stays inside the line.** -/
theorem staysInside_iff (p : LineParser) (l : Line) (dict : ProcDict ℕ) :
    p.StaysInside l dict ↔ p.Fits l := by
  cases p with
  | dev index => exact dtDevParse_staysInside_iff l.nul
  | meminfo n => exact dtMeminfoParse_staysInside_iff l.nul
  | stat nIndex vIndex => exact iff_of_true (dtStatParse_staysInside _ _ _ _) trivial

/-- A line with this text, and zero bytes behind it. -/
def lineOf (text : Bytes) : Line where
  line i := text.getD i 0
  len := text.length
  nul := List.getD_eq_default _ _ le_rfl

/-- Lines of `/proc/net/dev` and `/proc/meminfo` that end with a number. -/
theorem not_staysInside_samples :
    ¬ (dev 0).StaysInside (lineOf (ascii "eth0: 1")) ⟨0, fun _ => 0, fun _ => 0⟩ ∧
      ¬ (meminfo 0).StaysInside (lineOf (ascii "HugePages_Free: 0")) ⟨0, fun _ => 0, fun _ => 0⟩ :=
  ⟨fun h => absurd (h.2 20) (by decide +kernel), fun h => absurd (h.2 20) (by decide +kernel)⟩

end LineParser

end Datatop

end Msm8909w
