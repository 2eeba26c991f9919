import Mathlib.Data.List.TakeWhile

/-!
# Cutting a text into tokens

`strtokR delim s` is a call of `strtok_r` on the text `s`: the next token, and what the following
call goes on with.  `Tokens delim s ws` says that calls one after the other return the tokens `ws`
and then nothing.

* `strtokR_word` : a word between delimiters is a token,
* `tokens_words` : words with gaps between them are the tokens of a text,
* `Tokens.length_le` : a text has at most as many tokens as elements.
-/

namespace Msm8909w

section Tokens

variable {α : Type*} {delim : α → Bool} {s rest lead gap word : List α} {ws : List (List α)}

/-- `strtok_r`; the delimiter behind the token is used up. -/
def strtokR (delim : α → Bool) (s : List α) : Option (List α × List α) :=
  match s.dropWhile delim with
  | [] => none
  | a :: s => some ((a :: s).takeWhile (!delim ·), ((a :: s).dropWhile (!delim ·)).drop 1)

/-- Calls of `strtok_r` return the tokens `ws` one after the other, and then nothing. -/
inductive Tokens (delim : α → Bool) : List α → List (List α) → Prop
  | nil {s : List α} (h : strtokR delim s = none) : Tokens delim s []
  | cons {s rest word : List α} {ws : List (List α)} (h : strtokR delim s = some (word, rest))
      (hrest : Tokens delim rest ws) : Tokens delim s (word :: ws)

/-- A word is not empty and has no delimiter in it. -/
structure IsWord (delim : α → Bool) (word : List α) : Prop where
  ne_nil : word ≠ []
  plain : ∀ a ∈ word, delim a = false

/-- A word behind delimiters, at the end of the text or before another delimiter. -/
theorem strtokR_word (rest : List α) (hlead : ∀ a ∈ lead, delim a = true)
    (hword : IsWord delim word) (hrest : ∀ a ∈ rest.head?, delim a = true) :
    strtokR delim (lead ++ (word ++ rest)) = some (word, rest.drop 1) := by
  obtain ⟨a, w, rfl⟩ := List.exists_cons_of_ne_nil hword.ne_nil
  have hplain : ∀ b ∈ a :: w, (!delim b) = true := fun b hb => by rw [hword.plain b hb]; rfl
  have hdrop : (lead ++ (a :: w ++ rest)).dropWhile delim = a :: (w ++ rest) := by
    rw [List.dropWhile_append_of_pos hlead, List.cons_append, List.dropWhile_cons_of_neg]
    rw [hword.plain a List.mem_cons_self]
    exact Bool.false_ne_true
  have htake : (rest.takeWhile fun b => !delim b) = [] ∧
      (rest.dropWhile fun b => !delim b) = rest := by
    cases rest with
    | nil => exact ⟨rfl, rfl⟩
    | cons b rest =>
      have hb : (!delim b) = false := by rw [hrest b rfl]; rfl
      exact ⟨List.takeWhile_cons_of_neg (by rw [hb]; exact Bool.false_ne_true),
        List.dropWhile_cons_of_neg (by rw [hb]; exact Bool.false_ne_true)⟩
  unfold strtokR
  rw [hdrop]
  simp only
  rw [← List.cons_append, List.takeWhile_append_of_pos hplain, List.dropWhile_append_of_pos hplain,
    htake.1, htake.2, List.append_nil]

/-- The tokens of words with gaps behind them and a last word. -/
def withEnd : List (List α × List α) → List α → List (List α)
  | [], fin => [fin]
  | (w, gap) :: cells, fin => if cells.isEmpty && gap.isEmpty then [w ++ fin]
      else w :: withEnd cells fin

theorem IsWord.append {fin : List α} (h : IsWord delim word) (hfin : IsWord delim fin) :
    IsWord delim (word ++ fin) := by
  refine ⟨by simp [h.ne_nil], fun a ha => ?_⟩
  rcases List.mem_append.1 ha with ha | ha
  · exact h.plain a ha
  · exact hfin.plain a ha

/-- Words with gaps behind them, of which only the last one may be empty. -/
theorem tokens_words (cells : List (List α × List α)) {fin : List α}
    (hlead : ∀ a ∈ lead, delim a = true)
    (hcells : ∀ c ∈ cells, IsWord delim c.1 ∧ ∀ a ∈ c.2, delim a = true)
    (hgaps : ∀ c ∈ cells.dropLast, c.2 ≠ []) (hfin : IsWord delim fin) :
    Tokens delim (lead ++ (cells.flatMap (fun c => c.1 ++ c.2) ++ fin)) (withEnd cells fin) := by
  induction cells generalizing lead with
  | nil =>
    have hword := strtokR_word [] hlead hfin nofun
    rw [List.append_nil] at hword
    exact .cons hword (.nil rfl)
  | cons c cells ih =>
    obtain ⟨w, gap⟩ := c
    obtain ⟨⟨hw, hgap⟩, hcells'⟩ := List.forall_mem_cons.1 hcells
    rw [withEnd, List.flatMap_cons, List.append_assoc, List.append_assoc]
    cases gap with
    | nil =>
      -- only the last gap may be empty
      cases cells with
      | cons c' cells => exact absurd rfl (hgaps (w, []) List.mem_cons_self)
      | nil =>
        have hword := strtokR_word [] hlead (hw.append hfin) nofun
        rw [List.append_nil] at hword
        exact .cons hword (.nil rfl)
    | cons d gap =>
      obtain ⟨hd, hgap⟩ := List.forall_mem_cons.1 hgap
      have hrest : ∀ c ∈ cells.dropLast, c.2 ≠ [] := by
        intro c hc
        cases cells with
        | nil => cases hc
        | cons c' cells => exact hgaps c (List.mem_cons_of_mem _ hc)
      have hword := strtokR_word (d :: gap ++ (cells.flatMap (fun c => c.1 ++ c.2) ++ fin)) hlead hw
        (by rintro a ⟨⟩; exact hd)
      rw [List.isEmpty_cons, Bool.and_false, if_neg Bool.false_ne_true]
      exact .cons hword (ih hgap hcells' hrest)

theorem Tokens.length_le (h : Tokens delim s ws) : ws.length ≤ s.length := by
  induction h with
  | nil => exact Nat.zero_le _
  | @cons s rest word ws hs _ ih =>
    have hlt : rest.length < s.length := by
      unfold strtokR at hs
      have hle := (List.dropWhile_suffix delim (l := s)).length_le
      split at hs
      · cases hs
      · next a t ht =>
        rw [ht, List.length_cons] at hle
        have heq := (Prod.mk.inj (Option.some.inj hs)).2
        have hle' := (List.dropWhile_suffix (fun b => !delim b) (l := a :: t)).length_le
        rw [List.length_cons] at hle'
        rw [← heq, List.length_drop]
        omega
    rw [List.length_cons]
    omega

end Tokens

end Msm8909w
