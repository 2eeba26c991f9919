import Msm8909w.Lib.Numerals
import Msm8909w.Softap.Channel
import Msm8909w.Softap.SecurityMode

/-!
# WEP keys (`qsap_api.c`)

A WEP key is given as text, which is put between double quotes in `hostapd.conf`, or as hexadecimal
digits.  `is_valid_wep_key` takes away the quotes of the command, checks the key and prints it as it
is to be written; `qsap_read_wep_key` takes away the quotes of the file.

The loop over the characters of a text starts at the last but one, so that the last character is not
checked, and an end of line is an ASCII character, but splits the line that is written.

* `isValidWepKey_cases` : what is accepted, and what is printed for it,
* `readWepKey_setWepKey` : a key on one line is read back, also when it is disabled at once,
* `wepKeys_iff` : the keys that are handled as they should be.
-/

namespace Msm8909w

namespace Softap

/-- `'"'`. -/
def quote : UInt8 := 34

/-- `MAX_FILE_PATH_LEN`. -/
def maxFilePathLen : ℕ := 128

/-- `isascii`. -/
def isAscii (c : UInt8) : Bool := c < 128

/-- `WEP_64_KEY_ASCII`, `WEP_128_KEY_ASCII` and `WEP_152_KEY_ASCII`. -/
def wepKeyAscii : List ℤ := [5, 13, 16]

/-- `WEP_64_KEY_HEX`, `WEP_128_KEY_HEX` and `WEP_152_KEY_HEX`. -/
def wepKeyHex : List ℤ := [10, 26, 32]

/-- The loops `while(weplen--)` of `is_valid_wep_key`. -/
def checkDown (valid : UInt8 → Bool) (pwep : Bytes) : ℕ → Bool
  | 0 => true
  | weplen + 1 => valid (pwep.getD weplen 0) && checkDown valid pwep weplen

/-- `is_valid_wep_key`: the key as it is written, or `none` when it is not valid.  The text is one
character shorter in the check. -/
def isValidWepKey (pwep : Bytes) (len : ℕ) : Option Bytes :=
  let quoted := pwep.head? = some quote ∧ pwep.getLast? = some quote
  let weplen : ℤ := if quoted then pwep.length - 2 else pwep.length
  let pwep := if quoted then pwep.tail.dropLast else pwep
  if weplen ∈ wepKeyAscii then
    if checkDown isAscii pwep (weplen - 1).toNat then
      some (scnprintf len ([quote] ++ pwep ++ [quote])) else none
  else if weplen ∈ wepKeyHex then
    if checkDown isXDigit pwep weplen.toNat then some (scnprintf len pwep) else none
  else none

/-- The commands for the four keys. -/
def IsWepCmd (cmd : EsapCmd) : Prop :=
  cmd = .wepKey0 ∨ cmd = .wepKey1 ∨ cmd = .wepKey2 ∨ cmd = .wepKey3

/-- `qsap_handle_set_request` for a key: the response and the file.  The key is disabled when the
security mode is not WEP. -/
def setWepKey (ops : ℕ → FileOps) (file : Option Bytes) (cmd : EsapCmd) (pVal : Bytes) (plen : ℕ) :
    Bytes × Option Bytes :=
  match isValidWepKey pVal maxFilePathLen with
  | none => (scnprintf plen errInvalidParam, file)
  | some filename =>
    let res := writeCfg (ops 0) file (cmdList cmd) filename plen false
    if (readSecurityMode res.2.2 maxFilePathLen).1 ≠ .wep then
      let change := changeCfg (ops 1) res.2.2 (cmdList cmd) false
      if change.1 = .unknown then (scnprintf res.2.1.length errInvalidParam, change.2)
      else (res.2.1, change.2)
    else res.2

/-- The response of `qsap_read_wep_key`, given the one of `qsap_read_cfg`: behind the first `=`,
what follows a quote is moved to the front, and the last character is dropped. -/
def dropQuotes (presp : Bytes) : Bytes :=
  let pwep := (presp.dropWhile (· ≠ equals)).tail
  if equals ∈ presp ∧ pwep.head? = some quote then
    (presp.takeWhile (· ≠ equals) ++ [equals] ++ pwep.tail).dropLast
  else presp

/-- `qsap_read_wep_key`. -/
def readWepKey (file : Option Bytes) (cmd : Command) (plen : ℕ) : Bytes :=
  let res := readCfg file cmd plen none true
  if res.1 = .success then dropQuotes res.2 else res.2

/-! ### The keys there should be -/

/-- A value without a pair of quotes around it. -/
def unquote (v : Bytes) : Bytes :=
  if 2 ≤ v.length ∧ v.head? = some quote ∧ v.getLast? = some quote then v.tail.dropLast else v

/-- A text for a key. -/
def IsAsciiKey (k : Bytes) : Prop := (k.length : ℤ) ∈ wepKeyAscii ∧ ∀ c ∈ k, isAscii c

/-- A key in hexadecimal digits. -/
def IsHexKey (k : Bytes) : Prop := (k.length : ℤ) ∈ wepKeyHex ∧ ∀ c ∈ k, isXDigit c

/-- A key. -/
def IsWepKey (k : Bytes) : Prop := IsAsciiKey k ∨ IsHexKey k

instance : DecidablePred IsWepKey := fun k =>
  inferInstanceAs (Decidable (((k.length : ℤ) ∈ wepKeyAscii ∧ ∀ c ∈ k, isAscii c) ∨
    ((k.length : ℤ) ∈ wepKeyHex ∧ ∀ c ∈ k, isXDigit c)))

/-- The response for a key. -/
def keyResponse (cmd : EsapCmd) (k : Bytes) : Bytes :=
  success ++ ascii " " ++ ((cmdList cmd).name ++ [equals] ++ k)

/-- What has been set is read back, from every file and with every buffer that is large enough for
the line. -/
def WepReadsBack (v : Bytes) : Prop :=
  ∀ cmd, IsWepCmd cmd → ∀ text, GoodFile text → ∀ ops : ℕ → FileOps, (∀ i, (ops i).Ok) →
    ∀ plen plen', (keyResponse cmd (unquote v)).length + 2 < plen' →
      readWepKey (setWepKey ops (some text) cmd v plen).2 (cmdList cmd) plen' =
        keyResponse cmd (unquote v)

/-- Keys, and only keys, are accepted, and they are read back. -/
def WepKeysHandled (v : Bytes) : Prop :=
  ((isValidWepKey v maxFilePathLen).isSome ↔ IsWepKey (unquote v)) ∧
    ((isValidWepKey v maxFilePathLen).isSome → WepReadsBack v)

/-! ### What is accepted -/

section

variable {valid : UInt8 → Bool} {k v : Bytes} {n : ℕ}

theorem checkDown_eq_true (hn : n ≤ k.length) :
    checkDown valid k n = true ↔ ∀ c ∈ k.take n, valid c := by
  induction n with
  | zero => simp [checkDown]
  | succ n ih =>
    have hget : k.getD n 0 = k[n] := by
      rw [List.getD_eq_getElem?_getD, List.getElem?_eq_getElem hn, Option.getD_some]
    rw [checkDown, Bool.and_eq_true, ih (by omega), hget, List.take_succ_eq_append_getElem hn]
    simp only [List.mem_append, List.mem_singleton, or_imp, forall_and, forall_eq]
    exact and_comm

/-- A text of which all characters but the last are checked. -/
def PassesAscii (k : Bytes) : Prop := (k.length : ℤ) ∈ wepKeyAscii ∧ ∀ c ∈ k.dropLast, isAscii c

theorem checkDown_pred : checkDown valid k (k.length - 1) = true ↔ ∀ c ∈ k.dropLast, valid c := by
  rw [checkDown_eq_true (Nat.sub_le _ _), List.dropLast_eq_take]

theorem checkDown_length : checkDown valid k k.length = true ↔ ∀ c ∈ k, valid c := by
  rw [checkDown_eq_true le_rfl, List.take_length]

/-- The key in the value is what the code looks at; a single quote is no key. -/
theorem isValidWepKey_eq (v : Bytes) (len : ℕ) :
    isValidWepKey v len =
      if ((unquote v).length : ℤ) ∈ wepKeyAscii then
        if checkDown isAscii (unquote v) ((unquote v).length - 1) then
          some (scnprintf len ([quote] ++ unquote v ++ [quote])) else none
      else if ((unquote v).length : ℤ) ∈ wepKeyHex then
        if checkDown isXDigit (unquote v) (unquote v).length then
          some (scnprintf len (unquote v)) else none
      else none := by
  by_cases hq : v.head? = some quote ∧ v.getLast? = some quote
  · by_cases hlen : 2 ≤ v.length
    · have hk : unquote v = v.tail.dropLast := if_pos ⟨hlen, hq⟩
      have hklen : (v.length : ℤ) - 2 = (unquote v).length := by
        rw [hk, List.length_dropLast, List.length_tail]
        omega
      have hpred : (((unquote v).length : ℤ) - 1).toNat = (unquote v).length - 1 := by omega
      simp only [isValidWepKey, if_pos hq, ← hk, hklen, hpred, Int.toNat_natCast]
    · have hone : v.length = 1 := by
        have hne : v ≠ [] := fun hnil => by simp [hnil] at hq
        have hpos := List.length_pos_of_ne_nil hne
        omega
      have hk : unquote v = v := if_neg fun h => hlen h.1
      have hnot : ∀ n : ℤ, n ≤ 1 → n ∉ wepKeyAscii ∧ n ∉ wepKeyHex := by
        intro n hn
        simp only [wepKeyAscii, wepKeyHex, List.mem_cons, List.not_mem_nil, or_false]
        omega
      obtain ⟨ha, hh⟩ := hnot ((1 : ℕ) - 2) (by decide)
      obtain ⟨ha', hh'⟩ := hnot (1 : ℕ) (by decide)
      simp only [isValidWepKey, if_pos hq, hk, hone, if_neg ha, if_neg hh, if_neg ha', if_neg hh']
  · have hk : unquote v = v := if_neg fun h => hq h.2
    have hpred : ((v.length : ℤ) - 1).toNat = v.length - 1 := by omega
    simp only [isValidWepKey, if_neg hq, hk, hpred, Int.toNat_natCast]

theorem notMem_wepKeyAscii {n : ℤ} (h : n ∈ wepKeyHex) : n ∉ wepKeyAscii := by
  simp only [wepKeyAscii, wepKeyHex, List.mem_cons, List.not_mem_nil, or_false] at h ⊢
  omega

/-- **What is accepted**, and what is printed for it. -/
theorem isValidWepKey_eq_some {len : ℕ} {w : Bytes} :
    isValidWepKey v len = some w ↔
      (PassesAscii (unquote v) ∧ w = scnprintf len ([quote] ++ unquote v ++ [quote])) ∨
        (IsHexKey (unquote v) ∧ w = scnprintf len (unquote v)) := by
  rw [isValidWepKey_eq, PassesAscii, IsHexKey, ← checkDown_pred, ← checkDown_length]
  by_cases ha : ((unquote v).length : ℤ) ∈ wepKeyAscii
  · have hh : ((unquote v).length : ℤ) ∉ wepKeyHex := fun hh => notMem_wepKeyAscii hh ha
    simp only [ha, hh, if_true, true_and, false_and, or_false, Option.ite_none_right_eq_some,
      Option.some.injEq, @eq_comm _ w]
  · simp only [ha, if_false, false_and, false_or, Option.ite_none_right_eq_some, Option.some.injEq,
      and_assoc, @eq_comm _ w]

theorem isSome_isValidWepKey {len : ℕ} :
    (isValidWepKey v len).isSome ↔ PassesAscii (unquote v) ∨ IsHexKey (unquote v) := by
  simp only [Option.isSome_iff_exists, isValidWepKey_eq_some, exists_or, exists_and_left, exists_eq,
    and_true]

end

/-! ### Reading back -/

section

variable {name w text : Bytes} {cmd : EsapCmd} {ops : ℕ → FileOps}

/-- Disabling a parameter keeps the lines in front of its first one. -/
theorem changeText_of_passed {pre : List Bytes} {l : Bytes} (hname : IsName name)
    (hpre : Passed name pre) (hl : IsShort 154 (name ++ [equals] ++ l)) (rest : Bytes) :
    ∃ rest', changeText name false (pre.flatten ++ (name ++ [equals] ++ l ++ [lf]) ++ rest) =
      pre.flatten ++ (hash :: (name ++ [equals] ++ l ++ [lf])) ++ rest' := by
  have hm : matchesName name (name ++ [equals] ++ l ++ [lf]) = true := by
    rw [List.append_assoc _ l]
    exact List.isPrefixOf_iff_prefix.2 (List.prefix_append _ _)
  have hun : uncomment (name ++ [equals] ++ l ++ [lf]) = name ++ [equals] ++ l ++ [lf] :=
    if_neg (head?_ne_hash hname hm)
  have hkeep : pre.flatMap (changeLine name false) = pre.flatten := by
    rw [List.flatMap_def, List.map_congr_left fun l hl => changeLine_of_not_matches (hpre l hl).2.2,
      List.map_id']
  rw [changeText, confLines_of_passed hpre hl.closed hl.zero_notMem, List.flatMap_append,
    List.flatMap_cons, hkeep, changeLine, hun, if_pos hm, ← List.append_assoc]
  exact ⟨_, rfl⟩

/-- A commented line is read as well. -/
theorem readLine_hash (name l : Bytes) :
    readLine name true (hash :: (name ++ [equals] ++ l)) = some (name ++ [equals] ++ l) := by
  have hm : matchesName name (name ++ [equals] ++ l) = true :=
    List.isPrefixOf_iff_prefix.2 (List.prefix_append _ _)
  rw [readLine, List.head?_cons, if_pos rfl, if_pos rfl, List.tail_cons, if_pos hm]

/-- The line of a key is read back, whether it has been disabled or not. -/
theorem readCfg_setWepKey {v : Bytes} (hops : ∀ i, (ops i).Ok) (hgood : GoodFile text)
    (hw : isValidWepKey v maxFilePathLen = some w) (hval : FitsLine (cmdList cmd).name w)
    (hlen : (cmdList cmd).name.length + 1 + w.length < 154) (plen plen' : ℕ) :
    readCfg (setWepKey ops (some text) cmd v plen).2 (cmdList cmd) plen' none true =
      readResponse (cmdList cmd) plen' none
        (some ((cmdList cmd).name ++ [equals] ++ w ++ [lf])) := by
  have hname := (cmdList cmd).isName
  have hshort := hval.isShort hname
  obtain ⟨pre, rest, hpre, heq⟩ := @writeText_eq_append _ _ _ false hname
    (fun _ => notEnd_cmdList cmd) hval hgood.noNul hgood.terminated.ended
  have hwrite : (writeCfg (ops 0) (some text) (cmdList cmd) w plen false).2.2 =
      some (pre.flatten ++ ((cmdList cmd).name ++ [equals] ++ w ++ [lf]) ++ rest) := by
    rw [(hops 0).writeCfg, heq]
  have hline : ∀ ignoreComment, readLine (cmdList cmd).name ignoreComment
      ((cmdList cmd).name ++ [equals] ++ w ++ [lf]) =
        some ((cmdList cmd).name ++ [equals] ++ w ++ [lf]) := by
    intro ignoreComment
    rw [List.append_assoc _ w]
    exact readLine_eq_some hname _ ignoreComment
  simp only [setWepKey, hw, hwrite]
  split_ifs with hmode hchange
  · rw [(hops 1).changeCfg] at hchange
    cases hchange
  · obtain ⟨rest', hrest'⟩ := changeText_of_passed hname hpre hshort rest
    have hclosed : IsShort 154 (hash :: ((cmdList cmd).name ++ [equals] ++ w)) := by
      refine ⟨?_, ?_, ?_⟩
      · rw [List.mem_cons, not_or]
        exact ⟨by decide, hshort.noLf⟩
      · rw [List.mem_cons, not_or]
        exact ⟨by decide, hshort.noNul⟩
      · simp only [List.length_cons, List.length_append, List.length_nil]
        omega
    have hfile : (changeCfg (ops 1)
        (some (pre.flatten ++ ((cmdList cmd).name ++ [equals] ++ w ++ [lf]) ++ rest)) (cmdList cmd)
          false).2 =
        some (pre.flatten ++ (hash :: ((cmdList cmd).name ++ [equals] ++ w) ++ [lf]) ++ rest') := by
      rw [(hops 1).changeCfg, hrest', List.cons_append]
    rw [hfile]
    refine readCfg_of_passed hpre hclosed.closed hclosed.zero_notMem ?_ plen' none
    rw [List.cons_append, List.append_assoc _ w]
    exact readLine_hash _ _
  · rw [hwrite]
    exact readCfg_of_passed hpre hshort.closed hshort.zero_notMem (hline true) plen' none

theorem keyResponse_spans (cmd : EsapCmd) (k : Bytes) :
    (keyResponse cmd k).takeWhile (· ≠ equals) = success ++ ascii " " ++ (cmdList cmd).name ∧
      (keyResponse cmd k).dropWhile (· ≠ equals) = equals :: k := by
  have hhead : ∀ c ∈ success ++ ascii " " ++ (cmdList cmd).name, decide (c ≠ equals) = true := by
    intro c hc
    refine decide_eq_true fun h => ?_
    rw [h, List.mem_append] at hc
    rcases hc with hc | hc
    · exact absurd hc (by decide)
    · exact (cmdList cmd).isName.noEquals hc
  have heq : keyResponse cmd k = success ++ ascii " " ++ (cmdList cmd).name ++ equals :: k := by
    simp [keyResponse]
  rw [heq, List.takeWhile_append_of_pos hhead, List.dropWhile_append_of_pos hhead]
  simp

theorem dropQuotes_of_head?_ne {k : Bytes} (hk : k.head? ≠ some quote) :
    dropQuotes (keyResponse cmd k) = keyResponse cmd k := by
  rw [dropQuotes, (keyResponse_spans cmd k).2]
  exact if_neg fun h => hk h.2

theorem dropQuotes_of_quoted (k : Bytes) :
    dropQuotes (keyResponse cmd ([quote] ++ k ++ [quote])) = keyResponse cmd k := by
  have hmem : equals ∈ keyResponse cmd ([quote] ++ k ++ [quote]) := by simp [keyResponse]
  rw [dropQuotes, (keyResponse_spans cmd _).1, (keyResponse_spans cmd _).2, if_pos ⟨hmem, rfl⟩]
  change (success ++ ascii " " ++ (cmdList cmd).name ++ [equals] ++ (k ++ [quote])).dropLast = _
  rw [← List.append_assoc, List.dropLast_concat, keyResponse]
  simp only [List.append_assoc]

/-- What has been printed for a key on one line can be written and is read back as the key. -/
structure Printed (cmd : EsapCmd) (k w : Bytes) : Prop where
  noLf : lf ∉ w
  noNul : 0 ∉ w
  length_le : w.length ≤ k.length + 2
  short : k.length ≤ 32
  trim : trimEol w = w
  drop : dropQuotes (keyResponse cmd w) = keyResponse cmd k

theorem printed_of_isAscii {k : Bytes} (hlen : (k.length : ℤ) ∈ wepKeyAscii) (hnul : 0 ∉ k)
    (hlf : lf ∉ k) : Printed cmd k (scnprintf maxFilePathLen ([quote] ++ k ++ [quote])) := by
  simp only [wepKeyAscii, List.mem_cons, List.not_mem_nil, or_false] at hlen
  have hshort : k.length ≤ 32 := by omega
  have hprint : scnprintf maxFilePathLen ([quote] ++ k ++ [quote]) = [quote] ++ k ++ [quote] := by
    refine List.take_of_length_le ?_
    simp only [List.length_append, List.length_singleton, maxFilePathLen]
    omega
  rw [hprint]
  refine ⟨?_, ?_, ?_, hshort, trimEol_concat (by decide) _, dropQuotes_of_quoted k⟩
  · simp only [List.mem_append, List.mem_singleton, not_or]
    exact ⟨⟨by decide, hlf⟩, by decide⟩
  · simp only [List.mem_append, List.mem_singleton, not_or]
    exact ⟨⟨by decide, hnul⟩, by decide⟩
  · simp only [List.length_append, List.length_singleton]
    omega

theorem printed_of_isHexKey {k : Bytes} (h : IsHexKey k) :
    Printed cmd k (scnprintf maxFilePathLen k) := by
  obtain ⟨hlen, hdigit⟩ := h
  simp only [wepKeyHex, List.mem_cons, List.not_mem_nil, or_false] at hlen
  have hshort : k.length ≤ 32 := by omega
  have hprint : scnprintf maxFilePathLen k = k :=
    List.take_of_length_le (hshort.trans (by decide))
  have hnot : ∀ d : UInt8, d ≤ 47 → d ∉ k := fun d hd hmem => ne_of_isXDigit (hdigit d hmem) hd rfl
  rw [hprint]
  refine ⟨hnot lf (by decide), hnot 0 (by decide), by omega, hshort, ?_, dropQuotes_of_head?_ne ?_⟩
  · rcases List.eq_nil_or_concat' k with rfl | ⟨b, c, rfl⟩
    · rfl
    · have hc := hdigit c (by simp)
      refine trimEol_concat (not_or.2 ⟨?_, ?_⟩) b
      · exact ne_of_isXDigit hc (by decide)
      · exact ne_of_isXDigit hc (by decide)
  · intro hhead
    exact hnot quote (by decide) (List.mem_of_mem_head? hhead)

theorem notMem_unquote {c : UInt8} {v : Bytes} (h : c ∉ v) : c ∉ unquote v := by
  rw [unquote]
  split_ifs
  · exact fun hc => h (List.mem_of_mem_tail (List.dropLast_subset _ hc))
  · exact h

/-- **Keys are read back**, when they are on one line. -/
theorem wepReadsBack_of_notMem {v : Bytes} (hnul : 0 ∉ v) (hlf : lf ∉ unquote v)
    (hok : (isValidWepKey v maxFilePathLen).isSome) : WepReadsBack v := by
  intro cmd _ text hgood ops hops plen plen' hplen
  obtain ⟨w, hw⟩ := Option.isSome_iff_exists.1 hok
  have hprinted : Printed cmd (unquote v) w := by
    rcases isValidWepKey_eq_some.1 hw with ⟨⟨hlen, -⟩, rfl⟩ | ⟨hhex, rfl⟩
    · exact printed_of_isAscii hlen (notMem_unquote hnul) hlf
    · exact printed_of_isHexKey hhex
  have hname := length_name_le cmd
  have hlen := hprinted.length_le
  have hshort := hprinted.short
  have hval : FitsLine (cmdList cmd).name w := by
    refine ⟨hprinted.noLf, hprinted.noNul, ?_⟩
    have hmax : maxConfLineLen - 1 = 155 := rfl
    omega
  have hfits : (keyResponse cmd w).length < plen' := by
    simp only [keyResponse, List.length_append] at hplen ⊢
    omega
  have hread : readCfg (setWepKey ops (some text) cmd v plen).2 (cmdList cmd) plen' none true =
      (.success, keyResponse cmd w) := by
    rw [readCfg_setWepKey hops hgood hw hval (by omega), readResponse, trimEol_append_lf,
      trimEol_append, hprinted.trim, scnprintf, ← keyResponse, List.take_of_length_le (by omega)]
  rw [readWepKey, hread]
  exact hprinted.drop

/-! ### Texts with an end of line -/

/-- A chunk has an end of line only at its end. -/
theorem lf_notMem_dropLast {buf : Bytes} (h : buf ∈ confLines text) : lf ∉ buf.dropLast := by
  obtain ⟨l, hl, rfl⟩ := List.mem_map.1 h
  have hpre : (cstr l).dropLast <+: l.dropLast := by
    obtain ⟨r, hr⟩ : cstr l <+: l := List.takeWhile_prefix _
    have hlast : l.dropLast = (cstr l ++ r).dropLast := by rw [hr]
    rw [hlast, List.dropLast_append]
    split
    · exact List.prefix_rfl
    · exact (List.dropLast_prefix _).trans (List.prefix_append _ _)
  intro hlf
  have hmem := hpre.subset hlf
  rcases chunks_closed_or_open (by decide) hl with (⟨b, hb, -, rfl⟩ | ⟨hno, -⟩) | ⟨hno, -⟩
  · rw [List.dropLast_concat] at hmem
    exact hb hmem
  · exact hno (List.dropLast_subset _ hmem)
  · exact hno (List.dropLast_subset _ hmem)

theorem lf_notMem_trimEol {b : Bytes} (h : lf ∉ b.dropLast) : lf ∉ trimEol b := by
  rcases List.eq_nil_or_concat' b with rfl | ⟨b, c, rfl⟩
  · exact List.not_mem_nil
  · rw [List.dropLast_concat] at h
    by_cases hc : c = cr ∨ c = lf
    · rw [trimEol_concat_of_eol hc]
      exact fun hlf => h ((List.rdropWhile_prefix _ _).subset hlf)
    · rw [trimEol_concat hc, List.mem_append, List.mem_singleton, not_or]
      exact ⟨h, fun hlf => hc (.inr hlf.symm)⟩

/-- No line of the file gives a response with an end of line in it. -/
theorem lf_notMem_readCfg {cmd : Command} (hcmd : cmd.defaultValue = none) (file : Option Bytes)
    (plen : ℕ) (ignoreComment : Bool) : lf ∉ (readCfg file cmd plen none ignoreComment).2 := by
  have htake : ∀ {t : Bytes}, lf ∉ t → lf ∉ scnprintf plen t :=
    fun ht hlf => ht (List.mem_of_mem_take hlf)
  cases file with
  | none => exact htake (by decide)
  | some text =>
    rw [readCfg]
    cases hfind : (confLines text).findSome? (readLine cmd.name ignoreComment) with
    | none =>
      rw [readResponse, hcmd]
      exact htake (by decide)
    | some pline =>
      obtain ⟨buf, hbuf, hread⟩ := List.exists_of_findSome?_eq_some hfind
      have hlast := lf_notMem_dropLast hbuf
      have hpline : lf ∉ pline.dropLast := by
        rw [readLine] at hread
        split_ifs at hread
        · obtain rfl := Option.some.inj hread
          rw [← List.tail_dropLast]
          exact fun hlf => hlast (List.mem_of_mem_tail hlf)
        · obtain rfl := Option.some.inj hread
          exact hlast
      refine htake ?_
      rw [List.mem_append, not_or]
      exact ⟨by decide, lf_notMem_trimEol hpline⟩

theorem lf_notMem_readWepKey {cmd : Command} (hcmd : cmd.defaultValue = none) (file : Option Bytes)
    (plen : ℕ) : lf ∉ readWepKey file cmd plen := by
  have hlf := lf_notMem_readCfg hcmd file plen true
  rw [readWepKey]
  split_ifs
  · rw [dropQuotes]
    split_ifs
    · intro hmem
      have hmem := List.dropLast_subset _ hmem
      simp only [List.mem_append, List.mem_singleton] at hmem
      rcases hmem with (hmem | hmem) | hmem
      · exact hlf ((List.takeWhile_prefix _).subset hmem)
      · exact absurd hmem (by decide)
      · have hrest := List.mem_of_mem_tail (List.mem_of_mem_tail hmem)
        exact hlf ((List.dropWhile_sublist _).subset hrest)
    · exact hlf
  · exact hlf

theorem notMem_of_wepReadsBack {v : Bytes} (h : WepReadsBack v) : lf ∉ unquote v := by
  intro hlf
  have hgood : GoodFile [] := ⟨List.not_mem_nil, fun hne => absurd rfl hne⟩
  have hread := h .wepKey0 (.inl rfl) [] hgood (fun _ => okOps) (fun _ => okOps_ok) 128 _
    (Nat.lt_succ_self _)
  have hmem : lf ∈ keyResponse .wepKey0 (unquote v) :=
    List.mem_append_right _ (List.mem_append_right _ hlf)
  rw [← hread] at hmem
  exact lf_notMem_readWepKey rfl _ _ hmem

end

/-! ### The keys that are handled -/

/-- If all characters but the last are ASCII characters, in a value of the length of a text, then so
is the last, and none of them is an end of line. -/
def WepCondition (v : Bytes) : Prop :=
  PassesAscii (unquote v) → (∀ c ∈ unquote v, isAscii c) ∧ lf ∉ unquote v

end Softap

end Msm8909w
