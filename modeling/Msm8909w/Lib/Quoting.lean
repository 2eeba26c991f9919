import Mathlib.Data.List.Basic
import Mathlib.Tactic.Linarith

/-!
# Literals in quotes

The tokens of a text in a language with words, symbols and literals in quotes, where two quotes in a
row stand for one quote in a literal.  A machine reads the text from character to character.

* `Lexis.run`, `Lexis.lex` : the machine and the tokens of a text,
* `Lexis.run_snoc_blank` : a blank outside the literals separates what is in front of it from what
  comes behind it,
* `Lexis.run_inside`, `Lexis.run_inside_of_not_paired` : what is pasted into a literal stays in it
  exactly if its quotes come in pairs,
* `Lexis.outline_joined_iff` : in a text that is joined from conditions, some of them with a pasted
  pattern, the tokens outside the literals are the expected ones exactly if the quotes of each
  pattern come in pairs.
-/

namespace Msm8909w

/-- What the characters of a language are. -/
structure Lexis (α : Type*) where
  quote : α
  isBlank : α → Bool
  isLetter : α → Bool
  isBlank_quote : isBlank quote = false
  isLetter_quote : isLetter quote = false

namespace Lexis

/-! ### The machine -/

/-- A token.  A literal has the text that it stands for. -/
inductive Token (α : Type*) where
  | word (w : List α)
  | symbol (a : α)
  | literal (text : List α)
  | unterminated
  deriving DecidableEq, Repr

/-- Where the machine is: outside the literals, behind the letters `w` of a word; in a literal; or
behind a quote in a literal, which is its end or the first one of a pair. -/
inductive Mode (α : Type*) where
  | outside (w : List α)
  | inside (text : List α)
  | closing (text : List α)

section Lex

variable {α : Type*}

/-- The word that ends here, if there is one. -/
def flush : List α → List (Token α)
  | [] => []
  | w => [.word w]

/-- The tokens that end with the text. -/
def Mode.finish : Mode α → List (Token α)
  | .outside w => flush w
  | .inside _ => [.unterminated]
  | .closing text => [.literal text]

/-- The number of literals. -/
def literals (ts : List (Token α)) : ℕ :=
  ts.countP fun k => match k with
    | .literal _ => true
    | _ => false

@[simp] theorem literals_nil : literals ([] : List (Token α)) = 0 := rfl

@[simp] theorem literals_literal (text : List α) (ts : List (Token α)) :
    literals (.literal text :: ts) = literals ts + 1 := List.countP_cons_of_pos rfl

@[simp] theorem literals_append (ts us : List (Token α)) :
    literals (ts ++ us) = literals ts + literals us := List.countP_append

variable [DecidableEq α] (L : Lexis α)

/-- A character outside the literals. -/
def outsideStep (w : List α) (a : α) : Mode α × List (Token α) :=
  if a = L.quote then (.inside [], flush w)
  else if L.isBlank a then (.outside [], flush w)
  else if L.isLetter a then (.outside (w ++ [a]), [])
  else (.outside [], flush w ++ [.symbol a])

/-- One character: where the machine goes, and the tokens that are complete. -/
def step : Mode α → α → Mode α × List (Token α)
  | .outside w, a => L.outsideStep w a
  | .inside text, a => if a = L.quote then (.closing text, []) else (.inside (text ++ [a]), [])
  | .closing text, a =>
    if a = L.quote then (.inside (text ++ [a]), [])
    else ((L.outsideStep [] a).1, .literal text :: (L.outsideStep [] a).2)

/-- The characters of a text one after the other. -/
def run : Mode α → List α → Mode α × List (Token α)
  | m, [] => (m, [])
  | m, a :: s => ((run (L.step m a).1 s).1, (L.step m a).2 ++ (run (L.step m a).1 s).2)

/-- The tokens of a text. -/
def lex (s : List α) : List (Token α) :=
  (L.run (.outside []) s).2 ++ (L.run (.outside []) s).1.finish

/-- The text does not end in a literal. -/
def Closed (s : List α) : Prop := ∀ text, (L.run (.outside []) s).1 ≠ .inside text

/-- The quotes come in pairs: each longest row of quotes has an even number of them. -/
def Paired : List α → Prop
  | [] => True
  | [a] => a ≠ L.quote
  | a :: b :: s => if a = L.quote then b = L.quote ∧ Paired s else Paired (b :: s)

/-- The text that a text with pairs of quotes stands for. -/
def unescape : List α → List α
  | [] => []
  | [a] => [a]
  | a :: b :: s => if a = L.quote then a :: unescape s else a :: unescape (b :: s)

instance decidablePaired : ∀ s, Decidable (L.Paired s)
  | [] => inferInstanceAs (Decidable True)
  | [a] => inferInstanceAs (Decidable (a ≠ L.quote))
  | a :: b :: s =>
    have := decidablePaired s
    have := decidablePaired (b :: s)
    inferInstanceAs
      (Decidable (if a = L.quote then b = L.quote ∧ L.Paired s else L.Paired (b :: s)))

variable {L} {m : Mode α} {s t u w : List α} {a b : α}

@[simp] theorem run_nil (m : Mode α) : L.run m [] = (m, []) := rfl

theorem run_cons (m : Mode α) (a : α) (s : List α) : L.run m (a :: s) =
    ((L.run (L.step m a).1 s).1, (L.step m a).2 ++ (L.run (L.step m a).1 s).2) := rfl

theorem run_append (m : Mode α) (s t : List α) : L.run m (s ++ t) =
    ((L.run (L.run m s).1 t).1, (L.run m s).2 ++ (L.run (L.run m s).1 t).2) := by
  induction s generalizing m with
  | nil => rfl
  | cons a s ih => rw [List.cons_append, run_cons, ih, run_cons, List.append_assoc]

/-- What is complete stays complete. -/
theorem mem_lex_append {k : Token α} (h : k ∈ (L.run (.outside []) s).2) : k ∈ L.lex (s ++ t) := by
  rw [lex, run_append]
  exact List.mem_append_left _ (List.mem_append_left _ h)

/-! ### Blanks -/

/-- A blank outside the literals ends the token in front of it. -/
theorem step_blank (hm : ∀ text, m ≠ .inside text) (hb : L.isBlank b = true) :
    L.step m b = (.outside [], m.finish) := by
  have hquote : b ≠ L.quote := by
    rintro rfl
    rw [L.isBlank_quote] at hb
    cases hb
  cases m with
  | outside w => rw [step, outsideStep, if_neg hquote, if_pos hb, Mode.finish]
  | inside text => exact absurd rfl (hm text)
  | closing text =>
    rw [step, if_neg hquote, outsideStep, if_neg hquote, if_pos hb, Mode.finish, flush]

/-- Behind a blank the machine goes on as if the text began there. -/
theorem run_append_blank (hs : L.Closed s) (hb : L.isBlank b = true) (t : List α) :
    L.run (.outside []) (s ++ b :: t) =
      ((L.run (.outside []) (b :: t)).1, L.lex s ++ (L.run (.outside []) (b :: t)).2) := by
  have hstart : L.step (.outside []) b = (.outside [], []) :=
    step_blank (fun text h => by cases h) hb
  rw [run_append, run_cons, step_blank hs hb, run_cons, hstart, lex, List.nil_append,
    List.append_assoc]

/-- After a blank the machine is where it starts. -/
theorem run_snoc_blank (hs : L.Closed s) (hb : L.isBlank b = true) :
    L.run (.outside []) (s ++ [b]) = (.outside [], L.lex (s ++ [b])) := by
  have hmode : (L.run (.outside []) (s ++ [b])).1 = .outside [] := by
    rw [run_append, run_cons, step_blank hs hb, run_nil]
  refine Prod.ext hmode ?_
  rw [lex, hmode, Mode.finish, flush, List.append_nil]

/-! ### Texts without quotes -/

/-- Outside the literals, a text without quotes gives words, and symbols that it has. -/
theorem run_plain (hs : L.quote ∉ s) : ∃ w', (L.run (.outside w) s).1 = .outside w' ∧
    ∀ k ∈ (L.run (.outside w) s).2, (∃ v, k = .word v) ∨ ∃ a ∈ s, k = .symbol a := by
  have hflush : ∀ v : List α, ∀ k ∈ flush v, ∃ v, k = Token.word v := by
    intro v k hk
    cases v with
    | nil => cases hk
    | cons a v => exact ⟨_, List.mem_singleton.1 hk⟩
  induction s generalizing w with
  | nil => exact ⟨w, rfl, fun k hk => by cases hk⟩
  | cons a s ih =>
    have hquote : a ≠ L.quote := fun h => hs (h ▸ List.mem_cons_self)
    obtain ⟨v, hv, hout⟩ : ∃ v, (L.step (.outside w) a).1 = .outside v ∧
        ∀ k ∈ (L.step (.outside w) a).2, (∃ v, k = .word v) ∨ k = .symbol a := by
      rw [step, outsideStep, if_neg hquote]
      split
      · exact ⟨[], rfl, fun k hk => Or.inl (hflush w k hk)⟩
      · split
        · exact ⟨_, rfl, fun k hk => by cases hk⟩
        · refine ⟨[], rfl, fun k hk => ?_⟩
          exact (List.mem_append.1 hk).imp (hflush w k) List.mem_singleton.1
    obtain ⟨w', hw', hrest⟩ := ih (w := v) fun h => hs (List.mem_cons_of_mem _ h)
    rw [run_cons, hv]
    refine ⟨w', hw', fun k hk => ?_⟩
    rcases List.mem_append.1 hk with hk | hk
    · exact (hout k hk).imp_right fun h => ⟨a, List.mem_cons_self, h⟩
    · exact (hrest k hk).imp_right fun ⟨b, hb, h⟩ => ⟨b, List.mem_cons_of_mem _ hb, h⟩

theorem closed_of_plain (hs : L.quote ∉ s) : L.Closed s := by
  obtain ⟨w, hw, -⟩ := run_plain (w := []) hs
  intro text h
  rw [hw] at h
  cases h

theorem mem_lex_of_plain (hs : L.quote ∉ s) {k : Token α} (hk : k ∈ L.lex s) :
    (∃ v, k = .word v) ∨ ∃ a ∈ s, k = .symbol a := by
  obtain ⟨w, hw, hout⟩ := run_plain (w := []) hs
  rw [lex, hw] at hk
  rcases List.mem_append.1 hk with hk | hk
  · exact hout k hk
  · cases w with
    | nil => cases hk
    | cons a w => exact Or.inl ⟨_, List.mem_singleton.1 hk⟩

/-! ### Pairs of quotes -/

theorem paired_cons_of_ne (ha : a ≠ L.quote) : L.Paired (a :: s) ↔ L.Paired s := by
  cases s with
  | nil => exact iff_of_true ha trivial
  | cons b s => rw [Paired, if_neg ha]

theorem paired_append_of_ne (hs : ∀ a ∈ s, a ≠ L.quote) : L.Paired (s ++ t) ↔ L.Paired t := by
  induction s with
  | nil => rfl
  | cons a s ih =>
    rw [List.cons_append, paired_cons_of_ne (hs a List.mem_cons_self),
      ih fun b hb => hs b (List.mem_cons_of_mem _ hb)]

theorem paired_of_ne (hs : ∀ a ∈ s, a ≠ L.quote) : L.Paired s := by
  rw [← List.append_nil s, paired_append_of_ne hs]
  trivial

theorem paired_append_right (ht : ∀ a ∈ t, a ≠ L.quote) : L.Paired (s ++ t) ↔ L.Paired s := by
  induction s using unescape.induct L with
  | case1 => exact iff_of_true (paired_of_ne ht) trivial
  | case2 a =>
    by_cases ha : a = L.quote
    · -- a quote at the end is without a partner, before a character that is no quote too
      cases t with
      | nil => rfl
      | cons b t =>
        simp only [List.singleton_append, Paired, if_pos ha]
        exact iff_of_false (fun h => ht b List.mem_cons_self h.1) fun h => h ha
    · rw [List.singleton_append, paired_cons_of_ne ha]
      exact iff_of_true (paired_of_ne ht) ha
  | case3 b s ih =>
    rw [List.cons_append, List.cons_append, Paired, if_pos rfl, Paired, if_pos rfl, ih]
  | case4 a b s ha ih => rw [List.cons_append, paired_cons_of_ne ha, ih, paired_cons_of_ne ha]

/-- Other characters may be replaced. -/
theorem paired_map {f : α → α} (hf : ∀ a, f a = L.quote ↔ a = L.quote) :
    L.Paired (s.map f) ↔ L.Paired s := by
  induction s using unescape.induct L with
  | case1 => rfl
  | case2 a => exact not_congr (hf a)
  | case3 b s ih =>
    rw [List.map_cons, List.map_cons, Paired, if_pos ((hf _).2 rfl), Paired, if_pos rfl, ih, hf]
  | case4 a b s ha ih =>
    rw [List.map_cons, paired_cons_of_ne (mt (hf a).1 ha), ih, paired_cons_of_ne ha]

/-- Each quote is written twice. -/
theorem paired_flatMap (L : Lexis α) (s : List α) :
    L.Paired (s.flatMap fun a => if a = L.quote then [a, a] else [a]) := by
  induction s with
  | nil => trivial
  | cons a s ih =>
    rw [List.flatMap_cons]
    by_cases ha : a = L.quote
    · rw [if_pos ha, List.cons_append, List.singleton_append, Paired, if_pos ha]
      exact ⟨ha, ih⟩
    · rw [if_neg ha, List.singleton_append, paired_cons_of_ne ha]
      exact ih

/-! ### Texts in a literal -/

theorem run_inside (ht : L.Paired t) :
    L.run (.inside u) t = (.inside (u ++ L.unescape t), []) := by
  induction t using unescape.induct L generalizing u with
  | case1 => rw [unescape, List.append_nil, run_nil]
  | case2 a =>
    have hstep : L.step (.inside u) a = (.inside (u ++ [a]), []) := if_neg ht
    rw [run_cons, hstep, run_nil, unescape, List.append_nil]
  | case3 b s ih =>
    rw [Paired, if_pos rfl] at ht
    obtain ⟨rfl, hs⟩ := ht
    have hfirst : L.step (.inside u) L.quote = (.closing u, []) := if_pos rfl
    have hsecond : L.step (.closing u) L.quote = (.inside (u ++ [L.quote]), []) := if_pos rfl
    rw [run_cons, hfirst, run_cons, hsecond, ih hs, unescape, if_pos rfl, List.append_assoc]
    rfl
  | case4 a b s ha ih =>
    rw [Paired, if_neg ha] at ht
    have hstep : L.step (.inside u) a = (.inside (u ++ [a]), []) := if_neg ha
    rw [run_cons, hstep, ih ht, unescape, if_neg ha, List.append_assoc]
    rfl

/-- A quote that is not in a pair ends the literal: it is the last character, or a literal is
complete. -/
theorem run_inside_of_not_paired (ht : ¬ L.Paired t) :
    (∃ v, L.run (.inside u) t = (.closing v, [])) ∨ 0 < literals (L.run (.inside u) t).2 := by
  induction t using unescape.induct L generalizing u with
  | case1 => exact absurd trivial ht
  | case2 a =>
    have hstep : L.step (.inside u) a = (.closing u, []) := if_pos (not_not.1 ht)
    exact Or.inl ⟨u, by rw [run_cons, hstep, run_nil]; rfl⟩
  | case3 b s ih =>
    rw [Paired, if_pos rfl] at ht
    have hfirst : L.step (.inside u) L.quote = (.closing u, []) := if_pos rfl
    by_cases hb : b = L.quote
    · have hsecond : L.step (.closing u) b = (.inside (u ++ [b]), []) := if_pos hb
      rw [run_cons, hfirst, run_cons, hsecond]
      exact ih fun hs => ht ⟨hb, hs⟩
    · refine Or.inr ?_
      rw [run_cons, hfirst, run_cons, step, if_neg hb]
      simp
  | case4 a b s ha ih =>
    rw [Paired, if_neg ha] at ht
    have hstep : L.step (.inside u) a = (.inside (u ++ [a]), []) := if_neg ha
    rw [run_cons, hstep]
    exact ih ht

/-- A symbol that is no letter, blank or quote. -/
structure IsSign (L : Lexis α) (a : α) : Prop where
  ne_quote : a ≠ L.quote
  not_blank : L.isBlank a = false
  not_letter : L.isLetter a = false

/-- A text in quotes, between two signs. -/
def wrapped (a : α) (t : List α) : List α := L.quote :: a :: (t ++ [a, L.quote])

theorem run_wrapped (ha : L.IsSign a) (ht : L.Paired t) :
    L.run (.outside []) (L.wrapped a t) = (.closing (a :: L.unescape t ++ [a]), []) := by
  have hopen : L.step (.outside []) L.quote = (.inside [], []) := if_pos rfl
  have hsign : ∀ u, L.step (.inside u) a = (.inside (u ++ [a]), []) := fun u => if_neg ha.ne_quote
  have hclose : ∀ u, L.step (.inside u) L.quote = (.closing u, []) := fun u => if_pos rfl
  rw [wrapped, run_cons, hopen, run_cons, hsign, run_append, run_inside ht, run_cons, hsign,
    run_cons, hclose]
  rfl

/-- If the quotes of the text are not in pairs, then the sign behind it is outside the literals, or
there are two literals at least. -/
theorem run_wrapped_of_not_paired (ha : L.IsSign a) (ht : ¬ L.Paired t) :
    .symbol a ∈ (L.run (.outside []) (L.wrapped a t)).2 ∨
      (∃ u, (L.run (.outside []) (L.wrapped a t)).1 = .closing u) ∧
        0 < literals (L.run (.outside []) (L.wrapped a t)).2 := by
  have hopen : L.step (.outside []) L.quote = (.inside [], []) := if_pos rfl
  have hinside : ∀ u, L.step (.inside u) a = (.inside (u ++ [a]), []) := fun u => if_neg ha.ne_quote
  have hclose : ∀ u, L.step (.inside u) L.quote = (.closing u, []) := fun u => if_pos rfl
  have houtside : ∀ w, (L.outsideStep w a).2 = flush w ++ [.symbol a] := by
    intro w
    rw [outsideStep, if_neg ha.ne_quote, if_neg (by rw [ha.not_blank]; exact Bool.false_ne_true),
      if_neg (by rw [ha.not_letter]; exact Bool.false_ne_true)]
  rw [wrapped, run_cons, hopen, run_cons, hinside, run_append]
  generalize hmode : L.run (.inside ([] ++ [a])) t = r
  obtain ⟨m, ts⟩ := r
  have hlits : (∃ v, m = .closing v) ∨ 0 < literals ts := by
    have h := run_inside_of_not_paired (u := [] ++ [a]) ht
    rw [hmode] at h
    exact h.imp_left fun ⟨v, hv⟩ => ⟨v, (Prod.mk.inj hv).1⟩
  cases m with
  | outside w =>
    left
    simp [run_cons, step, houtside]
  | closing v =>
    left
    simp [run_cons, step, houtside, ha.ne_quote]
  | inside v =>
    right
    have hts : 0 < literals ts := hlits.resolve_left fun ⟨v, hv⟩ => by cases hv
    simp [run_cons, hinside, hclose, hts]

end Lex

/-! ### Conditions joined by a word -/

section Conditions

variable {α : Type*}

/-- The token, without the text of a literal. -/
def Token.outline : Token α → Token α
  | .literal _ => .literal []
  | k => k

/-- The tokens outside the literals, and where the literals are. -/
def outline (ts : List (Token α)) : List (Token α) := ts.map Token.outline

/-- A condition: a text of its own, or one with a pattern that is pasted into a literal. -/
inductive Condition (α : Type*) where
  | own (text : List α)
  | like (lead pattern : List α)

theorem outline_append (ts us : List (Token α)) : outline (ts ++ us) = outline ts ++ outline us :=
  List.map_append

theorem literals_outline (ts : List (Token α)) : literals (outline ts) = literals ts := by
  rw [literals, outline, List.countP_map]
  refine List.countP_congr fun k _ => ?_
  cases k <;> rfl

theorem symbol_mem_outline {ts : List (Token α)} {a : α} :
    .symbol a ∈ outline ts ↔ .symbol a ∈ ts := by
  rw [outline, List.mem_map]
  constructor
  · rintro ⟨k, hk, h⟩
    cases k <;> cases h
    exact hk
  · exact fun h => ⟨_, h, rfl⟩

variable [DecidableEq α] (L : Lexis α)

/-- No quote and no sign `a`. -/
def Plain (a : α) (s : List α) : Prop := L.quote ∉ s ∧ a ∉ s

/-- The text ends with a blank. -/
def EndsBlank (s : List α) : Prop := ∃ t b, s = t ++ [b] ∧ L.isBlank b = true

/-- What joins conditions: a plain text between blanks. -/
structure IsGlue (a : α) (glue : List α) : Prop where
  plain : L.Plain a glue
  begins : ∃ b t, glue = b :: t ∧ L.isBlank b = true
  ends : L.EndsBlank glue

namespace Condition

def text (a : α) : Condition α → List α
  | .own text => text
  | .like lead pattern => lead ++ L.wrapped a pattern

/-- The tokens that the condition is meant to have. -/
def expected : Condition α → List (Token α)
  | .own text => L.lex text
  | .like lead _ => L.lex lead ++ [.literal []]

/-- What is not pasted has no quotes and no sign. -/
def IsPlain (a : α) : Condition α → Prop
  | .own text => L.Plain a text
  | .like lead _ => L.Plain a lead ∧ L.EndsBlank lead

/-- The quotes of the pattern come in pairs. -/
def Kept : Condition α → Prop
  | .own _ => True
  | .like _ pattern => L.Paired pattern

end Condition

/-- Conditions behind a first one. -/
def joined (a : α) (glue s : List α) (cs : List (Condition α)) : List α :=
  s ++ cs.flatMap fun c => glue ++ c.text L a

/-- The tokens that they are meant to have. -/
def expectedJoined (glue s : List α) (cs : List (Condition α)) : List (Token α) :=
  outline (L.lex s) ++ cs.flatMap fun c => L.lex glue ++ c.expected L

variable {L} {a : α} {glue s : List α} {c : Condition α} {cs : List (Condition α)}

theorem run_endsBlank (hs : L.Plain a s) (hb : L.EndsBlank s) :
    L.run (.outside []) s = (.outside [], L.lex s) := by
  obtain ⟨t, b, rfl, hb⟩ := hb
  exact run_snoc_blank (closed_of_plain fun h => hs.1 (List.mem_append_left _ h)) hb

theorem outline_of_plain (hs : L.Plain a s) : outline (L.lex s) = L.lex s := by
  refine (List.map_congr_left fun k hk => ?_).trans (List.map_id _)
  obtain ⟨v, rfl⟩ | ⟨b, -, rfl⟩ := mem_lex_of_plain hs.1 hk <;> rfl

theorem symbol_notMem_of_plain (hs : L.Plain a s) : .symbol a ∉ L.lex s := by
  intro h
  obtain ⟨v, hv⟩ | ⟨b, hb, hk⟩ := mem_lex_of_plain hs.1 h
  · cases hv
  · cases hk
    exact hs.2 hb

theorem Condition.symbol_notMem_expected (hc : c.IsPlain L a) : .symbol a ∉ c.expected L := by
  cases c with
  | own text => exact symbol_notMem_of_plain hc
  | like lead pattern =>
    intro h
    rcases List.mem_append.1 h with h | h
    · exact symbol_notMem_of_plain hc.1 h
    · cases List.mem_singleton.1 h

/-- One more condition is read from where the machine starts. -/
theorem run_glue (hglue : L.IsGlue a glue) (hs : L.Closed s) (t : List α) :
    L.run (.outside []) (s ++ (glue ++ t)) = ((L.run (.outside []) t).1,
      L.lex s ++ (L.lex glue ++ (L.run (.outside []) t).2)) := by
  have hrun := run_endsBlank hglue.plain hglue.ends
  have hpast : L.run (.outside []) (glue ++ t) =
      ((L.run (.outside []) t).1, L.lex glue ++ (L.run (.outside []) t).2) := by
    rw [run_append, hrun]
  obtain ⟨b, w, hw, hb⟩ := hglue.begins
  rw [hw, List.cons_append, run_append_blank hs hb, ← List.cons_append, ← hw, hpast]

theorem closed_glue (hglue : L.IsGlue a glue) (hs : L.Closed s) {t : List α} (ht : L.Closed t) :
    L.Closed (s ++ (glue ++ t)) := by
  rw [Closed, run_glue hglue hs]
  exact ht

theorem lex_glue (hglue : L.IsGlue a glue) (hs : L.Closed s) (t : List α) :
    L.lex (s ++ (glue ++ t)) = L.lex s ++ (L.lex glue ++ L.lex t) := by
  rw [lex, run_glue hglue hs, List.append_assoc, List.append_assoc, ← lex]

omit [DecidableEq α] in
theorem joined_cons (a : α) (glue s : List α) (c : Condition α) (cs : List (Condition α)) :
    L.joined a glue s (c :: cs) = L.joined a glue (s ++ (glue ++ c.text L a)) cs := by
  simp only [joined, List.flatMap_cons, List.append_assoc]

omit [DecidableEq α] in
theorem joined_append (a : α) (glue s : List α) (cs ds : List (Condition α)) :
    L.joined a glue s (cs ++ ds) = L.joined a glue (L.joined a glue s cs) ds := by
  simp only [joined, List.flatMap_append, List.append_assoc]

/-- A condition whose pattern stays in its literal has the tokens that it is meant to have. -/
theorem Condition.outline_text (ha : L.IsSign a) (hc : c.IsPlain L a) (hkept : c.Kept L) :
    L.Closed (c.text L a) ∧ outline (L.lex (c.text L a)) = c.expected L := by
  cases c with
  | own text => exact ⟨closed_of_plain hc.1, outline_of_plain hc⟩
  | like lead pattern =>
    have hrun : L.run (.outside []) (lead ++ L.wrapped a pattern) =
        (.closing (a :: L.unescape pattern ++ [a]), L.lex lead ++ []) := by
      rw [run_append, run_endsBlank hc.1 hc.2, run_wrapped ha hkept]
    refine ⟨fun text h => ?_, ?_⟩
    · rw [Condition.text, hrun] at h
      cases h
    · rw [Condition.text, lex, hrun, List.append_nil, outline, List.map_append, ← outline,
        outline_of_plain hc.1]
      rfl

/-- A condition has at least the literals that it is meant to have, and more if its pattern does not
stay in its literal. -/
theorem Condition.literals_text (ha : L.IsSign a) (hc : c.IsPlain L a) :
    .symbol a ∈ (L.run (.outside []) (c.text L a)).2 ∨
      L.Closed (c.text L a) ∧ literals (c.expected L) ≤ literals (L.lex (c.text L a)) ∧
        (literals (L.lex (c.text L a)) = literals (c.expected L) → c.Kept L) := by
  by_cases hkept : c.Kept L
  · obtain ⟨hclosed, hout⟩ := Condition.outline_text ha hc hkept
    rw [← literals_outline (L.lex _), hout]
    exact Or.inr ⟨hclosed, le_rfl, fun _ => hkept⟩
  · cases c with
    | own text => exact absurd trivial hkept
    | like lead pattern =>
      have hrun : L.run (.outside []) (lead ++ L.wrapped a pattern) =
          ((L.run (.outside []) (L.wrapped a pattern)).1,
            L.lex lead ++ (L.run (.outside []) (L.wrapped a pattern)).2) := by
        rw [run_append, run_endsBlank hc.1 hc.2]
      rw [Condition.text, hrun]
      rcases run_wrapped_of_not_paired ha hkept with hsign | ⟨⟨u, hu⟩, hmore⟩
      · exact Or.inl (List.mem_append_right _ hsign)
      · have hlits : literals (L.lex (lead ++ L.wrapped a pattern)) =
            literals (L.lex lead) + literals (L.run (.outside []) (L.wrapped a pattern)).2 + 1 := by
          rw [lex, hrun, hu, Mode.finish]
          simp [Nat.add_assoc]
        refine Or.inr ⟨fun text h => ?_, ?_⟩
        · rw [hrun, hu] at h
          cases h
        · rw [hlits, Condition.expected]
          simp only [literals_append, literals_literal, literals_nil]
          omega

/-- If all patterns stay in their literals, the text has the tokens that it is meant to have. -/
theorem outline_joined (ha : L.IsSign a) (hglue : L.IsGlue a glue) (hs : L.Closed s)
    (hcs : ∀ c ∈ cs, c.IsPlain L a) (hkept : ∀ c ∈ cs, c.Kept L) :
    outline (L.lex (L.joined a glue s cs)) = L.expectedJoined glue s cs := by
  induction cs generalizing s with
  | nil => rw [joined, expectedJoined, List.flatMap_nil, List.flatMap_nil, List.append_nil,
      List.append_nil]
  | cons c cs ih =>
    obtain ⟨hclosed, hout⟩ :=
      Condition.outline_text ha (hcs c List.mem_cons_self) (hkept c List.mem_cons_self)
    rw [joined_cons, ih (closed_glue hglue hs hclosed)
      (fun c hc => hcs c (List.mem_cons_of_mem _ hc))
      fun c hc => hkept c (List.mem_cons_of_mem _ hc), expectedJoined, expectedJoined,
      lex_glue hglue hs, outline_append, outline_append, hout, outline_of_plain hglue.plain,
      List.flatMap_cons, List.append_assoc]

/-- If one pattern does not stay in its literal, then there is a sign outside the literals or one
literal too many. -/
theorem literals_joined (ha : L.IsSign a) (hglue : L.IsGlue a glue) (hs : L.Closed s)
    (hcs : ∀ c ∈ cs, c.IsPlain L a) :
    .symbol a ∈ L.lex (L.joined a glue s cs) ∨
      literals (L.expectedJoined glue s cs) ≤ literals (L.lex (L.joined a glue s cs)) ∧
        (literals (L.lex (L.joined a glue s cs)) = literals (L.expectedJoined glue s cs) →
          ∀ c ∈ cs, c.Kept L) := by
  induction cs generalizing s with
  | nil =>
    right
    rw [joined, expectedJoined, List.flatMap_nil, List.flatMap_nil, List.append_nil,
      List.append_nil, literals_outline]
    exact ⟨le_rfl, fun _ c hc => absurd hc List.not_mem_nil⟩
  | cons c cs ih =>
    rw [joined_cons]
    rcases Condition.literals_text ha (hcs c List.mem_cons_self) with hsign | ⟨hclosed, hle, himp⟩
    · refine Or.inl (mem_lex_append ?_)
      rw [run_glue hglue hs]
      exact List.mem_append_right _ (List.mem_append_right _ hsign)
    · refine (ih (closed_glue hglue hs hclosed)
        fun c hc => hcs c (List.mem_cons_of_mem _ hc)).imp_right fun ⟨hrest, hall⟩ => ?_
      have hexpected : literals (L.expectedJoined glue (s ++ (glue ++ c.text L a)) cs) +
          literals (c.expected L) =
          literals (L.expectedJoined glue s (c :: cs)) + literals (L.lex (c.text L a)) := by
        simp only [expectedJoined, lex_glue hglue hs, List.flatMap_cons, literals_append,
          literals_outline]
        omega
      refine ⟨by omega, fun heq => List.forall_mem_cons.2 ⟨himp (by omega), hall (by omega)⟩⟩

theorem outline_joined_iff (ha : L.IsSign a) (hglue : L.IsGlue a glue) (hs : L.Plain a s)
    (hcs : ∀ c ∈ cs, c.IsPlain L a) :
    outline (L.lex (L.joined a glue s cs)) = L.expectedJoined glue s cs ↔ ∀ c ∈ cs, c.Kept L := by
  refine ⟨fun h => ?_, outline_joined ha hglue (closed_of_plain hs.1) hcs⟩
  rcases literals_joined ha hglue (closed_of_plain hs.1) hcs with hsign | ⟨-, hall⟩
  · -- the sign is not among the tokens that the text is meant to have
    rw [← symbol_mem_outline, h, expectedJoined, List.mem_append, List.mem_flatMap] at hsign
    rcases hsign with hsign | ⟨c, hc, hsign⟩
    · exact absurd (symbol_mem_outline.1 hsign) (symbol_notMem_of_plain hs)
    · refine absurd hsign fun hsign => ?_
      rcases List.mem_append.1 hsign with hsign | hsign
      · exact symbol_notMem_of_plain hglue.plain hsign
      · exact Condition.symbol_notMem_expected (hcs c hc) hsign
  · exact hall (by rw [← literals_outline, h])

end Conditions

end Lexis

end Msm8909w
