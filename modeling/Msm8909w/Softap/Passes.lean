import Msm8909w.Softap.Config

/-!
# Rewriting `hostapd.conf` line by line

`qsap_change_cfg` prints a file through the same buffer that it is read with.  Disabling a line adds
a comment mark, so a line that has just fitted the buffer comes back in two parts on the next pass.
Such a file is still rewritten line by line: the second part of a line is too short to be taken for
a parameter.

* `changeText_flatten`, `writeText_flatten` : the two rewrites act on the lines of the file,
* `readCfg_flatten` : so does the reader,
* `findSome?_enable`, `findSome?_disable`, `findSome?_changeLine_of_ne` : what is read after a pass.
-/

namespace Msm8909w

namespace Softap

/-! ### Lines and the parts they are read in -/

/-- A line of the file: one that fits the buffer without its end, or has grown by a comment mark. -/
def IsLine (l : Bytes) : Prop :=
  ∃ b, lf ∉ b ∧ 0 ∉ b ∧ l = b ++ [lf] ∧
    (b.length < maxConfLineLen ∨ b.length = maxConfLineLen ∧ b.head? = some hash)

/-- The parts a line is read in. -/
def parts (l : Bytes) : List Bytes :=
  if l.length < maxConfLineLen then [l]
  else [l.take (maxConfLineLen - 1), l.drop (maxConfLineLen - 1)]

/-- A name that leaves room for a value. -/
def ShortName (name : Bytes) : Prop := IsName name ∧ name.length ≤ 32

instance : DecidablePred ShortName := fun _ => inferInstanceAs (Decidable (_ ∧ _))

section Parts

variable {name l : Bytes} {lines : List Bytes}

theorem flatten_parts (l : Bytes) : (parts l).flatten = l := by
  rw [parts]
  split_ifs
  · exact List.flatten_singleton
  · simp

theorem IsLine.zero_notMem (h : IsLine l) : 0 ∉ l := by
  obtain ⟨b, -, h0, rfl, -⟩ := h
  simp [h0, lf]

/-- The second part of a line is a line of at most one character. -/
theorem IsLine.drop (h : IsLine l) (hlen : ¬ l.length < maxConfLineLen) :
    ∃ b, lf ∉ b ∧ 0 ∉ b ∧ b.length ≤ 1 ∧ l.drop (maxConfLineLen - 1) = b ++ [lf] := by
  obtain ⟨b, hlf, h0, rfl, hb⟩ := h
  rw [List.length_append, List.length_singleton] at hlen
  refine ⟨b.drop (maxConfLineLen - 1), fun hm => hlf (List.mem_of_mem_drop hm),
    fun hm => h0 (List.mem_of_mem_drop hm), ?_, ?_⟩
  · rw [List.length_drop]
    omega
  · rw [List.drop_append_of_le_length]
    omega

theorem closed_of_mem_parts (h : IsLine l) {p : Bytes} (hp : p ∈ parts l) :
    Closed lf (maxConfLineLen - 1) p := by
  rw [parts] at hp
  split_ifs at hp with hlen
  · obtain ⟨b, hlf, -, rfl, -⟩ := h
    rw [List.length_append, List.length_singleton] at hlen
    rw [List.mem_singleton.1 hp]
    exact .inl ⟨b, hlf, by omega, rfl⟩
  · rw [List.mem_cons, List.mem_singleton] at hp
    obtain rfl | rfl := hp
    · obtain ⟨b, hlf, -, rfl, -⟩ := h
      rw [List.length_append, List.length_singleton] at hlen
      have hle : maxConfLineLen - 1 ≤ b.length := by omega
      rw [List.take_append_of_le_length hle]
      exact .inr ⟨fun hm => hlf (List.mem_of_mem_take hm), List.length_take_of_le hle⟩
    · obtain ⟨b, hlf, -, hb, hdrop⟩ := h.drop hlen
      rw [hdrop]
      exact .inl ⟨b, hlf, hb.trans_lt (by decide), rfl⟩

theorem zero_notMem_flatten (h : ∀ l ∈ lines, IsLine l) : 0 ∉ lines.flatten := by
  intro h0
  obtain ⟨l, hl, h0⟩ := List.mem_flatten.1 h0
  exact (h l hl).zero_notMem h0

/-- The lines of a file are read part by part. -/
theorem confLines_flatten (h : ∀ l ∈ lines, IsLine l) :
    confLines lines.flatten = lines.flatMap parts := by
  have hflat : lines.flatten = (lines.flatMap parts).flatten := by
    induction lines with
    | nil => rfl
    | cons l ls ih =>
      rw [List.flatten_cons, List.flatMap_cons, List.flatten_append, flatten_parts,
        ih (List.forall_mem_cons.1 h).2]
  rw [confLines_eq_chunks (zero_notMem_flatten h), hflat]
  refine chunks_flatten (by decide) fun p hp => ?_
  obtain ⟨l, hl, hp⟩ := List.mem_flatMap.1 hp
  exact closed_of_mem_parts (h l hl) hp

theorem uncomment_append_lf (b : Bytes) : uncomment (b ++ [lf]) = uncomment b ++ [lf] := by
  cases b with
  | nil => rfl
  | cons c b =>
    rw [uncomment, uncomment]
    by_cases hc : c = hash <;> simp [hc]

theorem length_uncomment_le (buf : Bytes) : (uncomment buf).length ≤ buf.length := by
  rw [uncomment]
  split_ifs
  · rw [List.length_tail]
    exact Nat.sub_le _ _
  · exact le_rfl

/-- The second part of a line is not taken for a parameter. -/
theorem matchesName_drop (hname : ShortName name) (h : IsLine l)
    (hlen : ¬ l.length < maxConfLineLen) :
    ¬ matchesName name (uncomment (l.drop (maxConfLineLen - 1))) := by
  obtain ⟨b, -, -, hb, hdrop⟩ := h.drop hlen
  have hpos := List.length_pos_of_ne_nil hname.1.ne_nil
  intro hm
  rw [hdrop, uncomment_append_lf] at hm
  have hpre := List.isPrefixOf_iff_prefix.1 hm
  have hle := length_uncomment_le b
  have hlength := hpre.length_le
  simp only [List.length_append, List.length_singleton] at hlength
  -- the text has room for the name and `=` only when they are all of it
  have heq := hpre.eq_of_length (by
    simp only [List.length_append, List.length_singleton]
    omega)
  have hlast := congrArg List.getLast? heq
  rw [List.getLast?_concat, List.getLast?_concat] at hlast
  cases hlast

theorem uncomment_take {n : ℕ} (hn : 0 < n) (l : Bytes) :
    uncomment (l.take n) = (uncomment l).take (if l.head? = some hash then n - 1 else n) := by
  cases l with
  | nil => simp [uncomment]
  | cons c l =>
    obtain ⟨n, rfl⟩ := Nat.exists_eq_succ_of_ne_zero (Nat.pos_iff_ne_zero.1 hn)
    rw [uncomment, uncomment]
    by_cases hc : c = hash <;> simp [hc]

/-- The first part of a line shows which parameter it is for. -/
theorem matchesName_take (hname : ShortName name) (l : Bytes) :
    matchesName name (uncomment (l.take (maxConfLineLen - 1))) =
      matchesName name (uncomment l) := by
  obtain ⟨-, hle⟩ := hname
  rw [uncomment_take (by decide), Bool.eq_iff_iff]
  simp only [matchesName, List.isPrefixOf_iff_prefix]
  constructor
  · exact fun h => h.trans (List.take_prefix _ _)
  · intro h
    refine (List.prefix_take_iff).2 ⟨h, ?_⟩
    rw [List.length_append, List.length_singleton]
    unfold maxConfLineLen
    split_ifs <;> omega

/-- The lines of a parameter are found in the parts. -/
theorem exists_matchesName_iff (hname : ShortName name) (h : ∀ l ∈ lines, IsLine l) :
    (∃ buf ∈ confLines lines.flatten, matchesName name (uncomment buf)) ↔
      ∃ l ∈ lines, matchesName name (uncomment l) := by
  rw [confLines_flatten h]
  constructor
  · rintro ⟨buf, hbuf, hm⟩
    obtain ⟨l, hl, hbuf⟩ := List.mem_flatMap.1 hbuf
    refine ⟨l, hl, ?_⟩
    rw [parts] at hbuf
    split_ifs at hbuf with hlen
    · rwa [List.mem_singleton.1 hbuf] at hm
    · rw [List.mem_cons, List.mem_singleton] at hbuf
      obtain rfl | rfl := hbuf
      · rwa [matchesName_take hname] at hm
      · exact absurd hm (matchesName_drop hname (h l hl) hlen)
  · rintro ⟨l, hl, hm⟩
    by_cases hlen : l.length < maxConfLineLen
    · exact ⟨l, List.mem_flatMap.2 ⟨l, hl, by simp [parts, hlen]⟩, hm⟩
    · refine ⟨l.take (maxConfLineLen - 1), List.mem_flatMap.2 ⟨l, hl, by simp [parts, hlen]⟩, ?_⟩
      rwa [matchesName_take hname]

end Parts

/-! ### The passes -/

section Passes

variable {name name' val l : Bytes} {lines : List Bytes} {status : Bool}

theorem changeLine_of_not_matches (h : ¬ matchesName name (uncomment l)) :
    changeLine name status l = l := by
  rw [changeLine, if_neg h]

theorem readLine_of_not_matches (h : ¬ matchesName name (uncomment l)) :
    readLine name false l = none := by
  by_cases hhash : l.head? = some hash
  · rw [readLine, if_pos hhash]
    rfl
  · rw [uncomment, if_neg hhash] at h
    rw [readLine, if_neg hhash, if_neg h]

theorem uncomment_take_append_drop (l : Bytes) :
    uncomment (l.take (maxConfLineLen - 1)) ++ l.drop (maxConfLineLen - 1) = uncomment l := by
  cases l with
  | nil => rfl
  | cons c l =>
    rw [uncomment, uncomment]
    by_cases hc : c = hash <;> simp [hc, maxConfLineLen]

theorem changeLine_parts (hname : ShortName name) (h : IsLine l) :
    (parts l).flatMap (changeLine name status) = changeLine name status l := by
  rw [parts]
  split_ifs with hlen
  · exact List.flatMap_singleton _ _
  · rw [List.flatMap_cons, List.flatMap_singleton,
      changeLine_of_not_matches (matchesName_drop hname h hlen), changeLine, changeLine,
      matchesName_take hname]
    split_ifs
    · exact uncomment_take_append_drop l
    · rw [List.cons_append, uncomment_take_append_drop]
    · exact List.take_append_drop _ _

theorem uncomment_cases (b : Bytes) :
    b = hash :: uncomment b ∨ b.head? ≠ some hash ∧ uncomment b = b := by
  cases b with
  | nil => exact .inr ⟨by simp, rfl⟩
  | cons c b =>
    by_cases hc : c = hash
    · exact .inl (by simp [uncomment, hc])
    · exact .inr ⟨by simpa using hc, by simp [uncomment, hc]⟩

theorem isLine_changeLine (h : IsLine l) : IsLine (changeLine name status l) := by
  rw [changeLine]
  by_cases hm : matchesName name (uncomment l) = true
  · obtain ⟨b, hlf, h0, rfl, hlen⟩ := h
    rw [if_pos hm, uncomment_append_lf]
    obtain heq | ⟨hhead, heq⟩ := uncomment_cases b
    · split_ifs
      · refine ⟨uncomment b, fun hb => ?_, fun hb => ?_, rfl, .inl ?_⟩
        · exact hlf (heq ▸ List.mem_cons_of_mem _ hb)
        · exact h0 (heq ▸ List.mem_cons_of_mem _ hb)
        · have := congrArg List.length heq
          rw [List.length_cons] at this
          omega
      · rw [← List.cons_append, ← heq]
        exact ⟨b, hlf, h0, rfl, hlen⟩
    · have hlt : b.length < maxConfLineLen := hlen.resolve_right fun h => hhead h.2
      rw [heq]
      split_ifs
      · exact ⟨b, hlf, h0, rfl, .inl hlt⟩
      · have hmem : ∀ c, c ≠ hash → c ∉ b → c ∉ hash :: b := fun c hc hb => by simp [hc, hb]
        refine ⟨hash :: b, hmem lf (by decide) hlf, hmem 0 (by decide) h0, rfl, ?_⟩
        rw [List.length_cons]
        exact (Nat.lt_or_eq_of_le hlt).imp id fun heq => ⟨heq, rfl⟩
  · rw [if_neg hm]
    exact h

/-- A pass acts on the lines of the file. -/
theorem changeText_flatten (hname : ShortName name) (h : ∀ l ∈ lines, IsLine l) :
    changeText name status lines.flatten = (lines.map (changeLine name status)).flatten := by
  rw [changeText, confLines_flatten h, List.flatMap_assoc, ← List.flatMap_def]
  exact List.flatMap_congr fun l hl => changeLine_parts hname (h l hl)

theorem isLine_map_changeLine (h : ∀ l ∈ lines, IsLine l) :
    ∀ l ∈ lines.map (changeLine name status), IsLine l := by
  intro l' hl'
  obtain ⟨l, hl, rfl⟩ := List.mem_map.1 hl'
  exact isLine_changeLine (h l hl)

/-- Disabling a parameter leaves nothing to be read for it. -/
theorem findSome?_disable (name : Bytes) (lines : List Bytes) :
    (lines.map (changeLine name false)).findSome? (readLine name false) = none := by
  rw [List.findSome?_eq_none_iff]
  intro l' hl'
  obtain ⟨l, -, rfl⟩ := List.mem_map.1 hl'
  by_cases hm : matchesName name (uncomment l) = true
  · rw [changeLine, if_pos hm]
    rfl
  · rw [changeLine_of_not_matches hm]
    exact readLine_of_not_matches hm

/-- Enabling a parameter makes its first line count. -/
theorem findSome?_enable (hname : IsName name) (lines : List Bytes) :
    (lines.map (changeLine name true)).findSome? (readLine name false) =
      (lines.find? fun l => matchesName name (uncomment l)).map uncomment := by
  induction lines with
  | nil => rfl
  | cons l ls ih =>
    rw [List.map_cons, List.findSome?_cons, List.find?_cons]
    by_cases hm : matchesName name (uncomment l) = true
    · have hread : readLine name false (changeLine name true l) = some (uncomment l) := by
        rw [changeLine, if_pos hm, if_pos rfl, readLine, if_neg (head?_ne_hash hname hm), if_pos hm]
      rw [hread, hm]
      rfl
    · rw [changeLine_of_not_matches hm, readLine_of_not_matches hm, ih, Bool.eq_false_iff.2 hm]

/-- A pass for one parameter leaves the lines of the others. -/
theorem changeLine_of_ne (hname : IsName name) (hname' : IsName name') (hne : name' ≠ name)
    (hm : matchesName name' (uncomment l)) : changeLine name status l = l :=
  changeLine_of_not_matches fun h => hne (eq_of_matchesName hname.noEquals hname'.noEquals h hm)

theorem matchesName_changeLine_of_ne (hname : IsName name) (hname' : IsName name')
    (hne : name' ≠ name) :
    matchesName name' (uncomment (changeLine name status l)) =
      matchesName name' (uncomment l) := by
  by_cases hm : matchesName name (uncomment l) = true
  · have hno : ∀ buf, matchesName name (uncomment buf) = true →
        matchesName name' (uncomment buf) = false := fun buf h =>
      Bool.eq_false_iff.2 fun h' => hne (eq_of_matchesName hname.noEquals hname'.noEquals h h')
    have hm' : matchesName name (uncomment (changeLine name status l)) = true := by
      rw [changeLine, if_pos hm]
      split_ifs
      · rw [uncomment, if_neg (head?_ne_hash hname hm)]
        exact hm
      · rw [uncomment]
        exact hm
    rw [hno l hm, hno _ hm']
  · rw [changeLine_of_not_matches hm]

theorem find?_changeLine_of_ne (hname : IsName name) (hname' : IsName name') (hne : name' ≠ name)
    (lines : List Bytes) :
    (lines.map (changeLine name status)).find? (fun l => matchesName name' (uncomment l)) =
      lines.find? fun l => matchesName name' (uncomment l) := by
  induction lines with
  | nil => rfl
  | cons l ls ih =>
    rw [List.map_cons, List.find?_cons, List.find?_cons,
      matchesName_changeLine_of_ne hname hname' hne, ih]
    by_cases hm : matchesName name' (uncomment l) = true
    · rw [hm, changeLine_of_ne hname hname' hne hm]
    · rw [Bool.eq_false_iff.2 hm]

theorem findSome?_changeLine_of_ne (hname : IsName name) (hname' : IsName name')
    (hne : name' ≠ name) (lines : List Bytes) :
    (lines.map (changeLine name status)).findSome? (readLine name' false) =
      lines.findSome? (readLine name' false) := by
  induction lines with
  | nil => rfl
  | cons l ls ih =>
    rw [List.map_cons, List.findSome?_cons, List.findSome?_cons, ih]
    by_cases hm : matchesName name' (uncomment l) = true
    · rw [changeLine_of_ne hname hname' hne hm]
    · have hm' : ¬ matchesName name' (uncomment (changeLine name status l)) = true := by
        rwa [matchesName_changeLine_of_ne hname hname' hne]
      rw [readLine_of_not_matches hm, readLine_of_not_matches hm']

end Passes

/-! ### Reading and setting -/

section Lines

variable {name val l : Bytes} {lines : List Bytes} {cmd : Command}

theorem trimEol_concat_of_eol {c : UInt8} (hc : c = cr ∨ c = lf) (b : Bytes) :
    trimEol (b ++ [c]) = trimEol b :=
  List.rdropWhile_concat_pos (fun c => decide (c = cr) || decide (c = lf)) b c (by simpa using hc)

theorem trimEol_concat {c : UInt8} (hc : ¬ (c = cr ∨ c = lf)) (b : Bytes) :
    trimEol (b ++ [c]) = b ++ [c] :=
  List.rdropWhile_concat_neg (fun c => decide (c = cr) || decide (c = lf)) b c (by simpa using hc)

theorem trimEol_append_lf (b : Bytes) : trimEol (b ++ [lf]) = trimEol b :=
  trimEol_concat_of_eol (.inr rfl) b

theorem readResponse_congr {plen : ℕ} {var o o' : Option Bytes}
    (h : o.map trimEol = o'.map trimEol) : readResponse cmd plen var o =
      readResponse cmd plen var o' := by
  cases o <;> cases o' <;> simp_all [readResponse]

/-- A line that is read in two parts is commented, or its second part is its end. -/
theorem findSome?_parts (hname : ShortName name) (h : IsLine l) :
    ((parts l).findSome? (readLine name false)).map trimEol =
      (readLine name false l).map trimEol := by
  rw [parts]
  split_ifs with hlen
  · rw [List.findSome?_singleton]
  · have hdrop := readLine_of_not_matches (matchesName_drop hname h hlen)
    have htake := matchesName_take hname l
    rw [List.findSome?_cons, List.findSome?_singleton, hdrop]
    by_cases hm : matchesName name (uncomment l) = true
    · by_cases hhash : l.head? = some hash
      · have hhash' : (l.take (maxConfLineLen - 1)).head? = some hash := by
          rw [List.head?_take, if_neg (by decide), hhash]
        rw [readLine, readLine, if_pos hhash, if_pos hhash']
        rfl
      · obtain ⟨b, -, -, rfl, hb⟩ := h
        have hne : b ≠ [] := by
          rintro rfl
          exact hlen (by decide)
        have hhead : (b ++ [lf]).head? = b.head? := List.head?_append_of_ne_nil _ hne
        rw [hhead] at hhash
        have hlt : b.length < maxConfLineLen := hb.resolve_right fun h => hhash h.2
        have htaken : (b ++ [lf]).take (maxConfLineLen - 1) = b := by
          rw [List.length_append, List.length_singleton] at hlen
          exact List.take_left' (by omega)
        rw [htaken, hm, uncomment, if_neg hhash] at htake
        rw [uncomment, hhead, if_neg hhash] at hm
        rw [htaken, readLine, readLine, hhead, if_neg hhash, if_neg hhash, if_pos hm, if_pos htake,
          Option.map_some, Option.map_some, trimEol_append_lf]
    · rw [readLine_of_not_matches hm, readLine_of_not_matches (htake ▸ hm)]

/-- Reading goes line by line. -/
theorem readCfg_flatten (hcmd : ShortName cmd.name) (h : ∀ l ∈ lines, IsLine l) (plen : ℕ)
    (var : Option Bytes) :
    readCfg (some lines.flatten) cmd plen var false =
      readResponse cmd plen var (lines.findSome? (readLine cmd.name false)) := by
  rw [readCfg, confLines_flatten h]
  refine readResponse_congr ?_
  induction lines with
  | nil => rfl
  | cons l ls ih =>
    obtain ⟨hl, hls⟩ := List.forall_mem_cons.1 h
    have hparts := findSome?_parts hcmd hl
    rw [List.flatMap_cons, List.findSome?_append, List.findSome?_cons]
    cases hread : readLine cmd.name false l with
    | none =>
      rw [hread, Option.map_none, Option.map_eq_none_iff] at hparts
      rw [hparts, Option.none_or]
      exact ih hls
    | some pline =>
      rw [hread, Option.map_some] at hparts
      obtain ⟨pline', hfind, htrim⟩ := Option.map_eq_some_iff.1 hparts
      rw [hfind, Option.some_or, Option.map_some, Option.map_some, htrim]

/-- The lines of the file after a parameter has been set.  The end of a line that was read in two
parts stays behind. -/
def writeLines (name new : Bytes) : List Bytes → List Bytes
  | [] => [new]
  | l :: ls =>
    if matchesName name (uncomment l) then new :: ((parts l).tail ++ ls)
    else l :: writeLines name new ls

/-- Setting a parameter goes line by line. -/
theorem writeText_flatten (hname : ShortName name) (h : ∀ l ∈ lines, IsLine l) :
    writeText name val false lines.flatten =
      (writeLines name (confLine name val) lines).flatten := by
  rw [writeText_eq, confLines_flatten h]
  induction lines with
  | nil => rfl
  | cons l ls ih =>
    obtain ⟨hl, hls⟩ := List.forall_mem_cons.1 h
    have hflat : (ls.flatMap parts).flatten = ls.flatten := by
      rw [← confLines_flatten hls, confLines_eq_chunks (zero_notMem_flatten hls),
        flatten_chunks (by decide)]
    rw [List.flatMap_cons, writeLines, parts]
    by_cases hlen : l.length < maxConfLineLen
    · rw [if_pos hlen, List.singleton_append, setLines]
      split_ifs
      · simp [hflat]
      · rw [List.flatten_cons, List.flatten_cons, ih hls]
    · rw [if_neg hlen, List.cons_append, List.singleton_append, setLines, matchesName_take hname]
      split_ifs
      · simp [hflat]
      · rw [setLines, if_neg (matchesName_drop hname hl hlen), List.flatten_cons, List.flatten_cons,
          List.flatten_cons, ih hls, ← List.append_assoc, List.take_append_drop]

theorem isLine_writeLines {new : Bytes} (hnew : IsLine new) (h : ∀ l ∈ lines, IsLine l) :
    ∀ l ∈ writeLines name new lines, IsLine l := by
  induction lines with
  | nil => simpa [writeLines] using hnew
  | cons l ls ih =>
    obtain ⟨hl, hls⟩ := List.forall_mem_cons.1 h
    have htail : ∀ p ∈ (parts l).tail, IsLine p := by
      rw [parts]
      split_ifs with hlen
      · simp
      · obtain ⟨b, hlf, h0, hb, hdrop⟩ := hl.drop hlen
        rw [List.tail_cons, List.forall_mem_singleton, hdrop]
        exact ⟨b, hlf, h0, rfl, .inl (hb.trans_lt (by decide))⟩
    rw [writeLines]
    split_ifs
    · rw [List.forall_mem_cons, List.forall_mem_append]
      exact ⟨hnew, htail, hls⟩
    · exact List.forall_mem_cons.2 ⟨hl, ih hls⟩

/-- The line that was set is the first one of its parameter. -/
theorem find?_writeLines {new : Bytes} (hnew : matchesName name (uncomment new)) :
    (writeLines name new lines).find? (fun l => matchesName name (uncomment l)) = some new := by
  induction lines with
  | nil => simp [writeLines, hnew]
  | cons l ls ih =>
    rw [writeLines]
    split_ifs with hm
    · rw [List.find?_cons, hnew]
    · rw [List.find?_cons, Bool.eq_false_iff.2 hm]
      exact ih

end Lines

end Softap

end Msm8909w
