import Msm8909w.Softap.AddMac
import Msm8909w.Softap.Handlers

/-!
# The lists of MAC addresses over a session (`qsap_api.c`)

The addresses that are accepted or refused are in two files, whose paths are parameters of
`hostapd.conf`.  `qsap_update_mac_list` adds addresses to a list or removes some, and `macaddr_acl`
comments the paths in and out.

* `inList_iff` : which lines of a list are removed,
* `HoldsList` : a file of addresses and comments, `HoldsList.add` and `HoldsList.remove` : what the
  two operations make of it,
* `KeepsPath.setCommand` : no command changes the path of a list,
* `Tracks.session` : after a session, the lists are those that the responses tell,
* `getMacList_session` : and these are the lists that are reported.
-/

namespace Msm8909w

namespace Softap

/-! ### Removing addresses -/

/-- `'\t'`. -/
def tab : UInt8 := 9

/-- `strncmp(s, t, n) == 0`. -/
def strncmpEq (n : ℕ) (s t : Bytes) : Bool := (cstr s).take n = (cstr t).take n

/-- The two loops that take `plist` to the next word. -/
def nextWord (plist : Bytes) : Bytes :=
  (plist.dropWhile (· ≠ space)).dropWhile fun c => c = space || c = tab

/-- The loop over the words of the value: one of them begins like the line.  There are as many turns
as `slen` characters at most. -/
def inList (buf : Bytes) : ℕ → Bytes → Bool
  | 0, _ => false
  | slen + 1, plist =>
    plist ≠ [] && (strncmpEq macAddrLen buf plist || inList buf slen (nextWord plist))

/-- What the file operations of a command on a list return, and the memory behind the value. -/
structure ListEnv where
  openAppend : Bool
  openUpdate : Bool
  openTmp : Bool
  rename : Bool
  unlink : Bool
  beyond : ℕ → UInt8

/-- The text that `qsap_remove_from_file` prints to the temporary file. -/
def keptText (pVal text : Bytes) : Bytes :=
  ((confLines text).filter fun buf => !inList buf pVal.length pVal).flatten

/-- `qsap_remove_from_file`: the response and the files.  The path of the temporary file is shorter
than the buffer. -/
def removeFromFile (env : ListEnv) (fs : Bytes → Option Bytes) (pfile pVal : Bytes) (plen : ℕ) :
    Bytes × (Bytes → Option Bytes) :=
  match fs pfile with
  | none => (scnprintf plen errResUnavailable, fs)
  | some text =>
    let tmp := scnprintf maxConfLineLen (pfile ++ ascii "~")
    if env.openUpdate && env.openTmp then
      let kept := keptText pVal text
      if env.rename then
        (scnprintf plen success, Function.update (Function.update fs tmp none) pfile (some kept))
      else
        (scnprintf plen errFeatureNotEnabled,
          Function.update fs tmp (if env.unlink then none else some kept))
    else (scnprintf plen errResUnavailable, fs)

/-- `qsap_update_mac_list` returns with a response and the files. -/
def UpdateMacList (env : ListEnv) (fs : Bytes → Option Bytes) (pfile : Bytes) (cNum : EsapCmd)
    (pVal : Bytes) (plen : ℕ) (presp : Bytes) (fs' : Bytes → Option Bytes) : Prop :=
  match cNum with
  | .addToAllow | .addToDeny =>
    ∃ file', AddMacToFile env.openAppend env.openUpdate (fs pfile) pVal env.beyond plen presp file' ∧
      fs' = Function.update fs pfile file'
  | .removeFromAllow | .removeFromDeny => removeFromFile env fs pfile pVal plen = (presp, fs')
  | _ => presp = scnprintf plen errUnknown ∧ fs' = fs

/-- The parameter with the path of the list that a command is for. -/
def listOf : EsapCmd → EsapStr
  | .addToAllow | .removeFromAllow => .acceptMacFile
  | _ => .denyMacFile

/-- The configuration files, and all other files. -/
structure Device where
  files : Files
  lists : Bytes → Option Bytes

/-- The branch of `qsap_handle_set_request` for the commands on the lists. -/
def HandleMacFile (env : ListEnv) (d : Device) (cNum : EsapCmd) (pVal : Bytes) (plen : ℕ)
    (presp : Bytes) (d' : Device) : Prop :=
  d'.files = d.files ∧
    match getAllowDenyFileName d.files.hostapd (qsapStr (listOf cNum)) maxFilePathLen with
    | some pfile => UpdateMacList env d.lists pfile cNum pVal plen presp d'.lists
    | none => presp = scnprintf plen errResUnavailable ∧ d'.lists = d.lists

/-- A command on a list, and its value. -/
def macCommand (pcmd : Bytes) : Option (EsapCmd × Bytes) :=
  match parseSet pcmd with
  | some (.addToAllow, pVal) => some (.addToAllow, pVal)
  | some (.addToDeny, pVal) => some (.addToDeny, pVal)
  | some (.removeFromAllow, pVal) => some (.removeFromAllow, pVal)
  | some (.removeFromDeny, pVal) => some (.removeFromDeny, pVal)
  | _ => none

/-- `qsap_handle_set_request` returns with a response. -/
def Executes (env : CmdEnv) (env' : ListEnv) (d : Device) (pcmd presp : Bytes) (d' : Device) :
    Prop :=
  match macCommand pcmd with
  | some (cNum, pVal) => HandleMacFile env' d cNum pVal env.plen presp d'
  | none => setCommand env d.files pcmd = (presp, d'.files) ∧ d'.lists = d.lists

/-- A sequence of commands with their responses.  A command is a line that fits its buffer, it has
no mark of a comment in a list of addresses, and its response fits its buffer too; files may fail
to be opened, renamed and so on, but what is printed to a file is in it when it is closed. -/
inductive Session : Device → List (Bytes × Bytes) → Device → Prop
  | nil (d : Device) : Session d [] d
  | cons {env : CmdEnv} {env' : ListEnv} {d d' d'' : Device} {pcmd presp : Bytes}
      {cs : List (Bytes × Bytes)} (hcmd : IsCommand pcmd)
      (hplain : ∀ c ∈ macCommand pcmd, hash ∉ c.2) (hplen : success.length < env.plen)
      (hwritten : ∀ i t, (env.ops i).written t = t) (h : Executes env env' d pcmd presp d')
      (hrest : Session d' cs d'') : Session d ((pcmd, presp) :: cs) d''

/-! ### The lists there should be -/

/-- The words of a value, without the tabs behind a blank. -/
def listWords (v : Bytes) : List Bytes :=
  match v.splitOn space with
  | [] => []
  | w :: ws => w :: ws.map (List.dropWhile (· = tab))

/-- The addresses a value names. -/
def named (v : Bytes) : List Bytes := (listWords v).map (List.take macAddrLen)

/-- The addresses of a list after a command that has been answered.  `remarks` is the room that the
comments of the list take. -/
def listAfter (remarks : ℕ) (cNum : EsapCmd) (pVal presp : Bytes) (addrs : List Bytes) :
    List Bytes :=
  if presp = success then
    if cNum = .addToAllow ∨ cNum = .addToDeny then
      addrs ++ (found pVal).take (maxAllowedMac - (remarks + addrs.length))
    else addrs.filter fun a => !(named pVal).contains a
  else addrs

/-- The two lists after a command and its response. -/
def macStep (remarks : EsapStr → ℕ) (s : EsapStr → List Bytes) (c : Bytes × Bytes) :
    EsapStr → List Bytes :=
  match macCommand c.1 with
  | some (cNum, pVal) =>
    Function.update s (listOf cNum)
      (listAfter (remarks (listOf cNum)) cNum pVal c.2 (s (listOf cNum)))
  | none => s

/-- The two lists after a sequence of commands. -/
def macRun (remarks : EsapStr → ℕ) (s : EsapStr → List Bytes) (cs : List (Bytes × Bytes)) :
    EsapStr → List Bytes :=
  cs.foldl (macStep remarks) s

/-! ### What is removed -/

section

variable {a buf l plist v w : Bytes} {c : UInt8} {slen : ℕ}

/-- What is compared with a line that is in the list. -/
theorem exists_of_inList (h : inList buf slen plist = true) :
    ∃ s, s ⊆ plist ∧ strncmpEq macAddrLen buf s = true := by
  induction slen generalizing plist with
  | zero => cases h
  | succ slen ih =>
    rw [inList, Bool.and_eq_true, Bool.or_eq_true] at h
    obtain ⟨-, h | h⟩ := h
    · exact ⟨plist, List.Subset.refl _, h⟩
    · obtain ⟨s, hsub, heq⟩ := ih h
      exact ⟨s, fun c hc => mem_of_mem_dropWhile (mem_of_mem_dropWhile (hsub hc)), heq⟩

/-- A comment is not removed. -/
theorem inList_of_hash (hhead : l.head? = some hash) (hv : hash ∉ v) (slen : ℕ) :
    inList l slen v = false := by
  rw [Bool.eq_false_iff]
  intro h
  obtain ⟨s, hsub, heq⟩ := exists_of_inList h
  obtain ⟨l, rfl⟩ : ∃ l', l = hash :: l' := List.head?_eq_some_iff.1 hhead
  have htake : hash ∈ (cstr s).take macAddrLen := by
    rw [← of_decide_eq_true heq, cstr, List.takeWhile_cons_of_pos (by decide), macAddrLen,
      List.take_succ_cons]
    exact List.mem_cons_self
  exact hv (hsub ((List.takeWhile_sublist _).subset (List.mem_of_mem_take htake)))

theorem listWords_of_notMem (hw : space ∉ w) : listWords w = [w] := by
  rw [listWords, List.splitOn_eq_singleton hw]
  rfl

theorem listWords_append (hw : space ∉ w) (s : Bytes) :
    listWords (w ++ space :: s) = w :: (s.splitOn space).map (List.dropWhile (· = tab)) := by
  rw [listWords, List.splitOn_append_cons_self_of_not_mem hw]

/-- A character of the first word. -/
theorem exists_splitOn_cons (hc : c ≠ space) (s : Bytes) :
    ∃ w ws, s.splitOn space = w :: ws ∧ (c :: s).splitOn space = (c :: w) :: ws := by
  obtain ⟨w, ws, hs⟩ := List.exists_cons_of_ne_nil (List.splitOn_ne_nil space s)
  refine ⟨w, ws, hs, ?_⟩
  rw [List.splitOn] at hs ⊢
  rw [List.splitOnP_cons_eq_if_modifyHead, hs]
  simp [hc]

/-- The blanks and tabs in front of a word do not matter to an address. -/
theorem mem_named_dropWhile (ha : a ≠ []) (s : Bytes) :
    a ∈ named (s.dropWhile fun c => c = space || c = tab) ↔
      a ∈ ((s.splitOn space).map (List.dropWhile (· = tab))).map (List.take macAddrLen) := by
  induction s with
  | nil => exact Iff.rfl
  | cons c s ih =>
    by_cases hspace : c = space
    · have hsplit : ([] ++ space :: s).splitOn space = [] :: s.splitOn space :=
        List.splitOn_append_cons_self_of_not_mem List.not_mem_nil s
      rw [List.dropWhile_cons_of_pos (by simp [hspace]), ih, hspace,
        ← List.nil_append (space :: s), hsplit, List.map_cons, List.map_cons, List.mem_cons]
      exact (or_iff_right ha).symm
    · obtain ⟨w, ws, hs, hcs⟩ := exists_splitOn_cons hspace s
      by_cases htab : c = tab
      · rw [List.dropWhile_cons_of_pos (by simp [htab]), ih, hs, hcs, List.map_cons, List.map_cons,
          List.map_cons, List.map_cons, List.dropWhile_cons_of_pos (by simp [htab])]
      · rw [List.dropWhile_cons_of_neg (by simp [hspace, htab]), named, listWords, hcs]
        simp only [List.map_cons]
        rw [List.dropWhile_cons_of_neg (by simp [htab])]

/-- An address that a value begins with is its first word, as far as it is compared. -/
theorem take_append_eq_iff (ha : IsAddress a) (s : Bytes) :
    (w ++ space :: s).take macAddrLen = a ↔ w.take macAddrLen = a := by
  by_cases hlen : macAddrLen ≤ w.length
  · rw [List.take_append_of_le_length hlen]
  · refine iff_of_false (fun h => ?_) fun h => ?_
    · refine ha.notMem (by decide : isXDigit space = false) (by decide) ?_
      rw [← h, List.take_append, List.take_of_length_le (by omega), List.mem_append]
      obtain ⟨n, hn⟩ : ∃ n, macAddrLen - w.length = n + 1 := ⟨macAddrLen - w.length - 1, by omega⟩
      rw [hn, List.take_succ_cons]
      exact .inr List.mem_cons_self
    · have hle := congrArg List.length h
      rw [List.length_take, ha.length_eq] at hle
      omega

theorem strncmpEq_address (ha : IsAddress a) (hplist : 0 ∉ plist) :
    strncmpEq macAddrLen (a ++ [lf]) plist = true ↔ plist.take macAddrLen = a := by
  have hnul : 0 ∉ a ++ [lf] := by
    rw [List.mem_append, not_or]
    exact ⟨ha.notMem (by decide) (by decide), by decide⟩
  rw [strncmpEq, decide_eq_true_eq, cstr_eq_self hnul, cstr_eq_self hplist, ← ha.length_eq,
    List.take_left]
  exact eq_comm

/-- **The loop over the words** finds the addresses that the value names. -/
theorem inList_iff (ha : IsAddress a) (hv : 0 ∉ v) (hlen : v.length ≤ slen) :
    inList (a ++ [lf]) slen v = true ↔ a ∈ named v := by
  have hne : a ≠ [] := by
    rintro rfl
    exact absurd ha.length_eq (by decide)
  induction slen generalizing v with
  | zero =>
    rw [List.length_eq_zero_iff.1 (Nat.le_zero.1 hlen)]
    exact iff_of_false Bool.false_ne_true fun h => hne (List.mem_singleton.1 h)
  | succ slen ih =>
    by_cases hnil : v = []
    · rw [hnil, inList, decide_eq_false (by decide), Bool.false_and]
      exact iff_of_false (by decide) fun h => hne (List.mem_singleton.1 h)
    · have hcompare := strncmpEq_address ha hv
      rw [inList, decide_eq_true hnil, Bool.true_and, Bool.or_eq_true, hcompare]
      by_cases hmem : space ∈ v
      · obtain ⟨w, s, rfl, hw⟩ := List.eq_append_cons_of_mem hmem
        have hplain : ∀ c ∈ w, decide (c ≠ space) = true := by
          intro c hc
          refine decide_eq_true ?_
          rintro rfl
          exact hw hc
        have hnext : nextWord (w ++ space :: s) = s.dropWhile fun c => c = space || c = tab := by
          rw [nextWord, List.dropWhile_append_of_pos hplain, List.dropWhile_cons_of_neg (by simp),
            List.dropWhile_cons_of_pos (by simp)]
        have hshort : (nextWord (w ++ space :: s)).length ≤ slen := by
          rw [List.length_append, List.length_cons] at hlen
          have hle := List.length_dropWhile_le (fun c => c = space || c = tab) s
          rw [hnext]
          omega
        have hnul : 0 ∉ nextWord (w ++ space :: s) := fun h =>
          hv (mem_of_mem_dropWhile (mem_of_mem_dropWhile h))
        have hrest : inList (a ++ [lf]) slen (nextWord (w ++ space :: s)) = true ↔
            a ∈ named (nextWord (w ++ space :: s)) := ih hnul hshort
        rw [hrest, hnext, mem_named_dropWhile hne, take_append_eq_iff ha, named,
          listWords_append hw, List.map_cons, List.mem_cons, eq_comm]
      · have hplain : ∀ c ∈ v, decide (c ≠ space) = true := by
          intro c hc
          refine decide_eq_true ?_
          rintro rfl
          exact hmem hc
        have hnext : nextWord v = [] := by
          rw [nextWord, List.dropWhile_eq_nil_iff.2 hplain]
          rfl
        have hrest : inList (a ++ [lf]) slen [] = false := by cases slen <;> rfl
        rw [hnext, hrest, named, listWords_of_notMem hmem, List.map_singleton,
          List.mem_singleton, eq_comm]
        exact or_iff_left Bool.false_ne_true

end

/-! ### Files of addresses and comments -/

/-- A line of a list is a comment or an address. -/
structure IsMacLine (l : Bytes) : Prop where
  isConfLine : IsConfLine 154 l
  entry : l.head? = some hash ∨ ∃ a, IsAddress a ∧ l = a ++ [lf]

/-- The addresses among the lines of a list. -/
def lineAddrs (lines : List Bytes) : List Bytes :=
  (lines.filter isEntry).map (List.take macAddrLen)

/-- The calls of `fgets` that the comments take when the lines are counted. -/
def remarkCalls (lines : List Bytes) : ℕ :=
  ((lines.filter fun l => !isEntry l).flatMap (chunks lf 31)).length

/-- A file with these addresses, and with comments that take a certain room. -/
def HoldsList (text : Bytes) (remarks : ℕ) (addrs : List Bytes) : Prop :=
  ∃ lines : List Bytes, text = lines.flatten ∧ (∀ l ∈ lines, IsMacLine l) ∧
    lineAddrs lines = addrs ∧ remarkCalls lines = remarks ∧ remarks + addrs.length < 2 ^ 15

section

variable {a l text v : Bytes} {addrs lines new : List Bytes} {remarks plen : ℕ}

theorem IsAddress.isShort (h : IsAddress a) : IsShort 154 a where
  noLf := h.notMem (by decide) (by decide)
  noNul := h.notMem (by decide) (by decide)
  length_le := h.length_eq.le.trans (by decide)

theorem IsAddress.isMacLine (h : IsAddress a) : IsMacLine (a ++ [lf]) :=
  ⟨⟨a, h.isShort, rfl⟩, .inr ⟨a, h, rfl⟩⟩

theorem IsAddress.isEntry (h : IsAddress a) : isEntry (a ++ [lf]) = true := by
  have htake : (a ++ [lf]).take macAddrLen = a := by rw [← h.length_eq, List.take_left]
  obtain ⟨-, c, s, rfl, hc⟩ := h.chars
  have hhead : (c :: s).head? ≠ some hash := by
    rintro heq
    rw [Option.some.inj heq] at hc
    exact absurd hc (by decide)
  rw [← isEntry_take, htake, Softap.isEntry, h.valid, Bool.and_true, decide_eq_true_eq]
  exact hhead

theorem isEntry_of_hash (h : l.head? = some hash) : isEntry l = false := by
  rw [isEntry, h, decide_eq_false (by simp), Bool.false_and]

/-- Induction over the lines of a list. -/
@[elab_as_elim]
theorem lines_induction {P : List Bytes → Prop} (nil : P [])
    (comment : ∀ l ls, l.head? = some hash → P ls → P (l :: ls))
    (address : ∀ a ls, IsAddress a → P ls → P ((a ++ [lf]) :: ls))
    (h : ∀ l ∈ lines, IsMacLine l) : P lines := by
  induction lines with
  | nil => exact nil
  | cons l ls ih =>
    obtain ⟨hl, hls⟩ := List.forall_mem_cons.1 h
    obtain hhash | ⟨a, ha, rfl⟩ := hl.entry
    · exact comment l ls hhash (ih hls)
    · exact address a ls ha (ih hls)

theorem lineAddrs_comment (h : l.head? = some hash) : lineAddrs (l :: lines) = lineAddrs lines := by
  rw [lineAddrs, List.filter_cons_of_neg (by simp [isEntry_of_hash h])]
  rfl

theorem lineAddrs_address (h : IsAddress a) :
    lineAddrs ((a ++ [lf]) :: lines) = a :: lineAddrs lines := by
  rw [lineAddrs, List.filter_cons_of_pos h.isEntry, List.map_cons, ← h.length_eq, List.take_left,
    h.length_eq]
  rfl

theorem remarkCalls_comment (h : l.head? = some hash) :
    remarkCalls (l :: lines) = (chunks lf 31 l).length + remarkCalls lines := by
  rw [remarkCalls, List.filter_cons_of_pos (by simp [isEntry_of_hash h]), List.flatMap_cons,
    List.length_append]
  rfl

theorem remarkCalls_address (h : IsAddress a) :
    remarkCalls ((a ++ [lf]) :: lines) = remarkCalls lines := by
  rw [remarkCalls, List.filter_cons_of_neg (by simp [h.isEntry])]
  rfl

/-- The lines are counted, with the comments as the calls of `fgets` they take. -/
theorem length_chunks_lines (h : ∀ l ∈ lines, IsMacLine l) :
    (lines.flatMap (chunks lf 31)).length = remarkCalls lines + (lineAddrs lines).length := by
  refine lines_induction rfl (fun l ls hl ih => ?_) (fun a ls ha ih => ?_) h
  · rw [List.flatMap_cons, List.length_append, ih, remarkCalls_comment hl, lineAddrs_comment hl,
      Nat.add_assoc]
  · have hclosed : Closed lf 31 (a ++ [lf]) :=
      .inl ⟨a, ha.isShort.noLf, ha.length_eq.trans_lt (by decide), rfl⟩
    have hone : chunks lf 31 (a ++ [lf]) = [a ++ [lf]] := by
      rw [← List.append_nil (a ++ [lf]), chunks_closed_append (by decide) hclosed, chunks_nil,
        List.append_nil]
    rw [List.flatMap_cons, hone, List.length_append, List.length_singleton, ih,
      remarkCalls_address ha, lineAddrs_address ha, List.length_cons]
    omega

/-- The count of 16 bits is right. -/
theorem bmod_of_lt {n : ℕ} (h : n < 2 ^ 15) : Int.bmod n (2 ^ 16) = n :=
  Int.bmod_eq_of_le (by omega) (by omega)

theorem roomLeft_eq (h : HoldsList text remarks addrs) :
    roomLeft text = maxAllowedMac - (remarks + addrs.length) := by
  obtain ⟨lines, rfl, hlines, rfl, rfl, hlt⟩ := h
  have hends : ∀ l ∈ lines, ∃ b, lf ∉ b ∧ l = b ++ [lf] := fun l hl => by
    obtain ⟨b, hb, rfl⟩ := (hlines l hl).isConfLine
    exact ⟨b, hb.noLf, rfl⟩
  have hlen : (chunks lf 31 lines.flatten).length =
      remarkCalls lines + (lineAddrs lines).length := by
    rw [chunks_lines (by decide) hends, length_chunks_lines hlines]
  have hcount : countMacs lines.flatten = (remarkCalls lines + (lineAddrs lines).length : ℕ) := by
    rw [← bmod_of_lt hlt, ← hlen]
    rfl
  rw [roomLeft, hcount]
  exact Int.toNat_sub _ _

/-- The empty list. -/
theorem holdsList_nil : HoldsList [] 0 [] := ⟨[], rfl, by simp, rfl, rfl, by decide⟩

theorem HoldsList.add (h : HoldsList text remarks addrs) (hnew : ∀ a ∈ new, IsAddress a)
    (hlt : remarks + (addrs.length + new.length) < 2 ^ 15) :
    HoldsList (text ++ lineText new) remarks (addrs ++ new) := by
  obtain ⟨lines, rfl, hlines, rfl, rfl, -⟩ := h
  have hmac : ∀ l ∈ new.map (· ++ [lf]), IsMacLine l := by
    intro l hl
    obtain ⟨a, ha, rfl⟩ := List.mem_map.1 hl
    exact (hnew a ha).isMacLine
  have haddrs : lineAddrs (new.map (· ++ [lf])) = new ∧ remarkCalls (new.map (· ++ [lf])) = 0 := by
    clear hlt hmac
    induction new with
    | nil => exact ⟨rfl, rfl⟩
    | cons a new ih =>
      obtain ⟨ha, hnew⟩ := List.forall_mem_cons.1 hnew
      rw [List.map_cons, lineAddrs_address ha, remarkCalls_address ha, (ih hnew).1]
      exact ⟨rfl, (ih hnew).2⟩
  refine ⟨lines ++ new.map (· ++ [lf]), ?_, List.forall_mem_append.2 ⟨hlines, hmac⟩, ?_, ?_, ?_⟩
  · rw [List.flatten_append, lineText_eq_flatten]
  · rw [lineAddrs, List.filter_append, List.map_append, ← lineAddrs, ← lineAddrs, haddrs.1]
  · rw [remarkCalls, List.filter_append, List.flatMap_append, List.length_append, ← remarkCalls,
      ← remarkCalls, haddrs.2]
    rfl
  · rw [List.length_append]
    exact hlt

/-- **Removing** takes the addresses away that the value names, and nothing else. -/
theorem HoldsList.remove (h : HoldsList text remarks addrs) (hnul : 0 ∉ v) (hhash : hash ∉ v) :
    HoldsList (keptText v text) remarks (addrs.filter fun a => !(named v).contains a) := by
  obtain ⟨lines, rfl, hlines, rfl, rfl, hlt⟩ := h
  rw [keptText, confLines_of_isConfLine fun l hl => (hlines l hl).isConfLine]
  have hkept : lineAddrs (lines.filter fun buf => !inList buf v.length v) =
        ((lineAddrs lines).filter fun a => !(named v).contains a) ∧
      remarkCalls (lines.filter fun buf => !inList buf v.length v) = remarkCalls lines := by
    refine lines_induction ⟨rfl, rfl⟩ (fun l ls hl ih => ?_) (fun a ls ha ih => ?_) hlines
    · rw [List.filter_cons_of_pos (by simp [inList_of_hash hl hhash]), lineAddrs_comment hl,
        lineAddrs_comment hl, remarkCalls_comment hl, remarkCalls_comment hl, ih.2]
      exact ⟨ih.1, rfl⟩
    · have hin := inList_iff ha hnul le_rfl
      by_cases hmem : a ∈ named v
      · rw [List.filter_cons_of_neg (by simp [hin.2 hmem]), lineAddrs_address ha,
          List.filter_cons_of_neg (by simp [hmem]), remarkCalls_address ha]
        exact ih
      · rw [List.filter_cons_of_pos (by simpa using mt hin.1 hmem), lineAddrs_address ha,
          lineAddrs_address ha, List.filter_cons_of_pos (by simp [hmem]), remarkCalls_address ha,
          remarkCalls_address ha, ih.1]
        exact ⟨rfl, ih.2⟩
  refine ⟨_, rfl, fun l hl => hlines l (List.mem_of_mem_filter hl), hkept.1, hkept.2, ?_⟩
  have hle := List.length_filter_le (fun a => !(named v).contains a) (lineAddrs lines)
  omega

/-! ### The report -/

/-- The lines that are reported. -/
theorem HoldsList.reported (h : HoldsList text remarks addrs) :
    reported text = (addrs.take maxAllowedMac).map (· ++ [lf]) ∧ ∀ a ∈ addrs, IsAddress a := by
  obtain ⟨lines, rfl, hlines, rfl, rfl, -⟩ := h
  have hentries : lines.filter isEntry = (lineAddrs lines).map (· ++ [lf]) ∧
      ∀ a ∈ lineAddrs lines, IsAddress a := by
    refine lines_induction ⟨rfl, by simp [lineAddrs]⟩ (fun l ls hl ih => ?_)
      (fun a ls ha ih => ?_) hlines
    · rw [List.filter_cons_of_neg (by simp [isEntry_of_hash hl]), lineAddrs_comment hl]
      exact ih
    · rw [List.filter_cons_of_pos ha.isEntry, lineAddrs_address ha, ih.1]
      exact ⟨rfl, List.forall_mem_cons.2 ⟨ha, ih.2⟩⟩
  rw [Softap.reported, confLines_of_isConfLine fun l hl => (hlines l hl).isConfLine, hentries.1,
    List.map_take]
  exact ⟨rfl, hentries.2⟩

/-- Addresses for which there is room are all reported. -/
theorem shown_addresses (haddrs : ∀ a ∈ addrs, IsAddress a) (hroom : 18 * addrs.length < plen) :
    shown plen (addrs.map (· ++ [lf])) = reportText addrs := by
  induction addrs generalizing plen with
  | nil => rfl
  | cons a addrs ih =>
    obtain ⟨ha, haddrs⟩ := List.forall_mem_cons.1 haddrs
    have hlen : (a ++ [lf]).length = 18 := by
      rw [List.length_append, ha.length_eq]
      rfl
    rw [List.length_cons] at hroom
    rw [List.map_cons, shown_cons_of_lt ha.isEntry (by omega), hlen, ih haddrs (by omega),
      entryText, List.dropLast_concat, reportText_cons]

end

/-! ### The paths of the lists -/

/-- The parameters with the paths of the lists. -/
def IsListStr (k : EsapStr) : Prop := k = .acceptMacFile ∨ k = .denyMacFile

/-- The paths of the two lists. -/
structure ListPaths (path : EsapStr → Bytes) : Prop where
  length_le : ∀ k, IsListStr k → (path k).length ≤ 100
  noEol : ∀ k, IsListStr k → cr ∉ path k ∧ lf ∉ path k
  /-- The lists are two files. -/
  distinct : path .acceptMacFile ≠ path .denyMacFile
  /-- No list is the temporary file of another one. -/
  tmp_ne : ∀ k k', IsListStr k → IsListStr k' → path k ++ ascii "~" ≠ path k'

/-- As far as it is there, the configuration file has no other path of the list, but the path may be
commented out. -/
def KeepsPath (path : EsapStr → Bytes) (k : EsapStr) (file : Option Bytes) : Prop :=
  file = none ∨ ∃ s : Conf, Holds file (some s) ∧
    ∀ e ∈ s (qsapStr k).name, e.text = (qsapStr k).name ++ [equals] ++ path k

section

variable {path : EsapStr → Bytes} {k : EsapStr} {file file' : Option Bytes} {cNum : EsapCmd}
  {plen : ℕ} {ops : FileOps} {op : ConfOp} {keys : List Bytes}

theorem isListStr_listOf (cNum : EsapCmd) : IsListStr (listOf cNum) := by
  cases cNum <;> first | exact .inl rfl | exact .inr rfl

theorem IsListStr.defaultValue (h : IsListStr k) : (qsapStr k).defaultValue = none := by
  obtain rfl | rfl := h <;> rfl

theorem ListPaths.path_ne {k' : EsapStr} (h : ListPaths path) (hk : IsListStr k)
    (hk' : IsListStr k') (hne : k ≠ k') : path k ≠ path k' := by
  obtain rfl | rfl := hk <;> obtain rfl | rfl := hk'
  · exact absurd rfl hne
  · exact h.distinct
  · exact h.distinct.symm
  · exact absurd rfl hne

/-- The path is that of the list, when it is not commented out. -/
theorem KeepsPath.getAllowDenyFileName (h : KeepsPath path k file) (hpath : ListPaths path)
    (hk : IsListStr k) (hplen : maxFilePathLen ≤ plen) :
    getAllowDenyFileName file (qsapStr k) plen = none ∨
      getAllowDenyFileName file (qsapStr k) plen = some (path k) := by
  obtain rfl | ⟨s, hs, hall⟩ := h
  · exact .inl rfl
  · rw [Softap.getAllowDenyFileName, hs.readCfg (shortName_qsapStr k), respond]
    cases hread : s.read (qsapStr k).name false with
    | none =>
      rw [readResponse, hk.defaultValue]
      exact .inl rfl
    | some text =>
      obtain ⟨e, he, rfl⟩ := Option.map_eq_some_iff.1 hread
      obtain ⟨hcr, hlf⟩ := hpath.noEol k hk
      have htext : trimEol e.text = (qsapStr k).name ++ [equals] ++ path k := by
        rw [hall e (List.mem_of_find?_eq_some he), ← trimEol_append_lf, trimEol_of_value hcr hlf]
      have hname : (qsapStr k).name.length ≤ 15 := by
        obtain rfl | rfl := hk <;> decide
      have hlen := hpath.length_le k hk
      have hbefore : ∀ c ∈ success ++ ascii " " ++ (qsapStr k).name, decide (c ≠ equals) = true := by
        intro c hc
        refine decide_eq_true ?_
        rintro rfl
        rcases List.mem_append.1 hc with hc | hc
        · exact absurd hc (by decide)
        · exact (qsapStr k).isName.noEquals hc
      have hfit : scnprintf plen (success ++ ascii " " ++ trimEol e.text) =
          success ++ ascii " " ++ (qsapStr k).name ++ ([equals] ++ path k) := by
        have hall : (success ++ ascii " " ++ (qsapStr k).name ++ ([equals] ++ path k)).length =
            8 + (qsapStr k).name.length + (1 + (path k).length) := by
          rw [List.length_append, List.length_append, List.length_append, List.length_append]
          rfl
        rw [htext, ← List.append_assoc, ← List.append_assoc, List.append_assoc _ [equals], scnprintf,
          List.take_of_length_le]
        rw [hall]
        rw [maxFilePathLen] at hplen
        omega
      rw [readResponse, if_pos rfl, hfit, List.dropWhile_append_of_pos hbefore,
        List.singleton_append, List.dropWhile_cons_of_neg (by simp), List.tail_cons]
      exact .inr rfl

theorem Holds.eq_none {text : Option Bytes} (h : Holds text none) : text = none := by
  cases text with
  | none => rfl
  | some text => exact h.elim

/-- A rewrite keeps the path, when it does not write it. -/
theorem KeepsPath.run (h : KeepsPath path k file) (hname : ShortName op.cmd.name)
    (hfits : op.Fits) (hwritten : ∀ t, ops.written t = t)
    (hop : op.cmd.name = (qsapStr k).name → ∃ cmd status, op = .change cmd status) :
    KeepsPath path k (op.run ops file) := by
  obtain rfl | ⟨s, hs, hall⟩ := h
  · have hnone : Holds (op.run ops none) (op.step ops none) :=
      ConfOp.run_spec trivial hname hfits hwritten
    have hstep : op.step ops none = none := by
      rw [ConfOp.step]
      cases op.outcome ops <;> rfl
    rw [hstep] at hnone
    exact .inl hnone.eq_none
  · have hholds : Holds (op.run ops file) (op.step ops (some s)) :=
      ConfOp.run_spec hs hname hfits hwritten
    rw [ConfOp.step] at hholds
    cases hout : op.outcome ops with
    | lost =>
      rw [hout] at hholds
      exact .inl hholds.eq_none
    | unchanged =>
      rw [hout] at hholds
      exact .inr ⟨s, hholds, hall⟩
    | done =>
      rw [hout] at hholds
      refine .inr ⟨op.apply s, hholds, ?_⟩
      by_cases hsame : op.cmd.name = (qsapStr k).name
      · obtain ⟨cmd, status, rfl⟩ := hop hsame
        have hcmd : cmd.name = (qsapStr k).name := hsame
        intro e he
        rw [ConfOp.apply, Conf.change, hcmd, Function.update_self] at he
        obtain ⟨e', he', rfl⟩ := List.mem_map.1 he
        exact hall e' he'
      · rw [ConfOp.apply_of_ne hsame]
        exact hall

theorem KeepsPath.rewrites (h : KeepsPath path k file) (hrw : Rewrites keys file file')
    (hname : (qsapStr k).name ∉ keys) : KeepsPath path k file' := by
  obtain rfl | ⟨s, hs, hall⟩ := h
  · exact .inl hrw.eq_none
  · refine (hrw.holds hs hname).imp_right ?_
    rintro ⟨s', hs', hsame⟩
    exact ⟨s', hs', fun e he => hall e (hsame ▸ he)⟩

/-- `macaddr_acl` comments the paths out and in. -/
theorem KeepsPath.handleMacAcl {ops : ℕ → FileOps} {pVal : Bytes} (h : KeepsPath path k file)
    (hk : IsListStr k) (hwritten : ∀ i t, (ops i).written t = t)
    (hval : FitsLine (cmdList .macAcl).name pVal) :
    KeepsPath path k (handleMacAcl ops file plen pVal).2 := by
  have hchange : ∀ (i : ℕ) (f : Option Bytes) (k' : EsapStr) (status : Bool), KeepsPath path k f →
      KeepsPath path k (changeCfg (ops i) f (qsapStr k') status).2 := fun i f k' status hf =>
    @KeepsPath.run path k f (ops i) (.change (qsapStr k') status) hf (shortName_qsapStr k') trivial
      (hwritten i) fun _ => ⟨_, _, rfl⟩
  have hwrite : ∀ f, KeepsPath path k f → KeepsPath path k
      (writeCfg (ops 2) f (cmdList .macAcl) (writeBack pVal) plen false).2.2 := fun f hf =>
    @KeepsPath.run path k f (ops 2) (.write (cmdList .macAcl) (writeBack pVal) plen) hf
      (shortName_cmdList _) hval.writeBack (hwritten 2) fun heq => by
        obtain rfl | rfl := hk <;>
          exact absurd (show (cmdList .macAcl).name = _ from heq) (by decide)
  rw [Softap.handleMacAcl]
  dsimp only
  split_ifs
  · exact hchange 0 _ _ _ h
  · exact hchange 1 _ _ _ (hchange 0 _ _ _ h)
  · exact hwrite _ (hchange 1 _ _ _ (hchange 0 _ _ _ h))
  · exact h

theorem notMem_touched (hk : IsListStr k) (hne : cNum ≠ .macAcl) :
    (qsapStr k).name ∉ touched cNum := by
  obtain rfl | rfl := hk <;> cases cNum <;> first | exact absurd rfl hne | decide

/-- No set command changes the path of a list. -/
theorem KeepsPath.setCommand {env : CmdEnv} {files : Files} {pcmd : Bytes}
    (h : KeepsPath path k files.hostapd) (hk : IsListStr k) (hcmd : IsCommand pcmd)
    (hwritten : ∀ i t, (env.ops i).written t = t) :
    KeepsPath path k (setCommand env files pcmd).2.hostapd := by
  have hrw := @rewrites_setCommand env files pcmd hcmd hwritten
  cases hparse : parseSet pcmd with
  | none =>
    rw [touchedBy, hparse] at hrw
    exact h.rewrites hrw List.not_mem_nil
  | some p =>
    obtain ⟨cNum, pVal⟩ := p
    by_cases hacl : cNum = .macAcl
    · subst hacl
      have hreq : setRequest pcmd = .handler .macAcl pVal := by
        rw [setRequest, hparse]
        rfl
      rw [Softap.setCommand, handleSetRequest, hreq]
      exact h.handleMacAcl hk hwritten (fitsLine_of_parseSet hcmd hparse)
    · rw [touchedBy, hparse] at hrw
      exact h.rewrites hrw (notMem_touched hk hacl)

end

/-! ### Commands and sessions -/

/-- The lists of a device, in files that are named in its configuration. -/
structure Tracks (path : EsapStr → Bytes) (remarks : EsapStr → ℕ) (d : Device)
    (s : EsapStr → List Bytes) : Prop where
  keepsPath : ∀ k, IsListStr k → KeepsPath path k d.files.hostapd
  holdsList : ∀ k, IsListStr k → HoldsList ((d.lists (path k)).getD []) (remarks k) (s k)

section

variable {path : EsapStr → Bytes} {remarks : EsapStr → ℕ} {s : EsapStr → List Bytes}
  {d d' : Device} {k : EsapStr} {cNum : EsapCmd} {a pcmd presp pVal : Bytes}
  {env : CmdEnv} {env' : ListEnv} {cs : List (Bytes × Bytes)} {plen : ℕ}
  {fs fs' : Bytes → Option Bytes}

theorem isAddress_of_mem_found (h : a ∈ found pVal) : IsAddress a := by
  rw [found_eq, List.mem_flatMap] at h
  obtain ⟨w, -, h⟩ := h
  obtain ⟨hblock, hvalid⟩ := List.mem_filter.1 h
  obtain ⟨i, -, rfl⟩ := List.mem_map.1 hblock
  have hle : (slice w (18 * i) macAddrLen).length ≤ macAddrLen := List.length_take_le _ _
  have hge := hvalid
  rw [isValidMacAddress, Bool.and_eq_true, decide_eq_true_eq] at hge
  exact ⟨le_antisymm hle hge.1, hvalid⟩

/-- A failure does not look like a success, however short its buffer. -/
theorem scnprintf_ne_success {text : Bytes} (h : text.head? = some 102) (plen : ℕ) :
    scnprintf plen text ≠ success := by
  intro heq
  have hhead := congrArg List.head? heq
  rw [scnprintf, List.head?_take] at hhead
  split_ifs at hhead
  · cases hhead
  · rw [h] at hhead
    exact absurd hhead (by decide)

theorem scnprintf_success (hplen : success.length < plen) : scnprintf plen success = success :=
  List.take_of_length_le (by omega)

theorem listAfter_of_ne (h : presp ≠ success) (r : ℕ) (addrs : List Bytes) :
    listAfter r cNum pVal presp addrs = addrs := if_neg h

/-- Adding fails and leaves the list, or appends what there is room for. -/
theorem addMacToFile_cases {append update : Bool} {file file' : Option Bytes}
    {beyond : ℕ → UInt8} (hnul : 0 ∉ pVal)
    (h : AddMacToFile append update file pVal beyond plen presp file') :
    (presp ≠ success ∧ file'.getD [] = file.getD []) ∨
      (presp = scnprintf plen success ∧ file' =
        some (file.getD [] ++ lineText ((found pVal).take (roomLeft (file.getD []))))) := by
  have hfail : ∀ text : Bytes, text.head? = some 102 → presp = scnprintf plen text →
      presp ≠ success := fun text hhead heq => heq ▸ scnprintf_ne_success hhead plen
  simp only [AddMacToFile] at h
  split_ifs at h with hopen hopen' hfull
  · exact .inl ⟨hfail _ (by decide) h.1, by rw [h.2]⟩
  · exact .inl ⟨hfail _ (by decide) h.1, by rw [h.2, Option.getD_some]⟩
  · exact .inl ⟨hfail _ (by decide) h.1, by rw [h.2, Option.getD_some]⟩
  · obtain ⟨printed, hends, hpresp, hfile⟩ := h
    have hroom : countMacs (file.getD []) + roomLeft (file.getD []) = maxAllowedMac := by
      rw [roomLeft, Int.toNat_of_nonneg (by omega)]
      omega
    obtain ⟨hprinted, -⟩ :=
      (ends_iff hnul (Nat.zero_le _) List.drop_zero (by omega) hroom).1 hends
    exact .inr ⟨hpresp, by rw [hfile, hprinted, List.nil_append]⟩

/-- Removing fails and leaves the list, or keeps the lines that are not named. -/
theorem removeFromFile_cases {pfile : Bytes} (hlen : pfile.length ≤ 100)
    (h : removeFromFile env' fs pfile pVal plen = (presp, fs')) :
    ((presp ≠ success ∧ fs' pfile = fs pfile) ∨ ∃ text, fs pfile = some text ∧
        presp = scnprintf plen success ∧ fs' pfile = some (keptText pVal text)) ∧
      ∀ p, p ≠ pfile → p ≠ pfile ++ ascii "~" → fs' p = fs p := by
  have htmp : scnprintf maxConfLineLen (pfile ++ ascii "~") = pfile ++ ascii "~" := by
    have hone : (ascii "~").length = 1 := rfl
    refine List.take_of_length_le ?_
    rw [List.length_append, maxConfLineLen]
    omega
  have hne : pfile ≠ pfile ++ ascii "~" := fun heq =>
    absurd (List.self_eq_append_right.1 heq) (by decide)
  rw [removeFromFile] at h
  cases hfile : fs pfile with
  | none =>
    rw [hfile] at h
    obtain ⟨rfl, rfl⟩ := Prod.mk.inj h
    exact ⟨.inl ⟨scnprintf_ne_success (by decide) plen, hfile⟩, fun _ _ _ => rfl⟩
  | some text =>
    rw [hfile] at h
    simp only [htmp] at h
    split_ifs at h
    · obtain ⟨rfl, rfl⟩ := Prod.mk.inj h
      refine ⟨.inr ⟨text, rfl, rfl, Function.update_self ..⟩, fun p hp hp' => ?_⟩
      rw [Function.update_of_ne hp, Function.update_of_ne hp']
    all_goals
      obtain ⟨rfl, rfl⟩ := Prod.mk.inj h
      refine ⟨.inl ⟨scnprintf_ne_success (by decide) plen, ?_⟩, fun p hp hp' => ?_⟩
      · first | rw [Function.update_of_ne hne, hfile] | exact hfile
      · first | rw [Function.update_of_ne hp'] | rfl

/-- Adding to a list. -/
theorem HoldsList.addMacToFile {r : ℕ} {addrs : List Bytes} {append update : Bool}
    {file file' : Option Bytes} {beyond : ℕ → UInt8} (hlist : HoldsList (file.getD []) r addrs)
    (h : AddMacToFile append update file pVal beyond plen presp file')
    (hplen : success.length < plen) (hnul : 0 ∉ pVal)
    (hcNum : cNum = .addToAllow ∨ cNum = .addToDeny) :
    HoldsList (file'.getD []) r (listAfter r cNum pVal presp addrs) := by
  obtain ⟨hfail, hsame⟩ | ⟨rfl, rfl⟩ := addMacToFile_cases hnul h
  · rw [listAfter_of_ne hfail, hsame]
    exact hlist
  · have hroom := roomLeft_eq hlist
    have hbound : r + addrs.length < 2 ^ 15 := by
      obtain ⟨lines, -, -, -, -, hlt⟩ := hlist
      exact hlt
    rw [scnprintf_success hplen, listAfter, if_pos rfl, if_pos hcNum, ← hroom, Option.getD_some]
    refine hlist.add (fun a ha => isAddress_of_mem_found (List.mem_of_mem_take ha)) ?_
    have hle := List.length_take_le (roomLeft (file.getD [])) (found pVal)
    rw [maxAllowedMac] at hroom
    omega

/-- Removing from a list. -/
theorem HoldsList.removeFromFile {r : ℕ} {addrs : List Bytes} {pfile : Bytes}
    (hlist : HoldsList ((fs pfile).getD []) r addrs) (hlen : pfile.length ≤ 100)
    (h : removeFromFile env' fs pfile pVal plen = (presp, fs')) (hplen : success.length < plen)
    (hnul : 0 ∉ pVal) (hhash : hash ∉ pVal) (hcNum : ¬ (cNum = .addToAllow ∨ cNum = .addToDeny)) :
    HoldsList ((fs' pfile).getD []) r (listAfter r cNum pVal presp addrs) := by
  obtain ⟨⟨hfail, hsame⟩ | ⟨text, htext, rfl, hkept⟩, -⟩ := removeFromFile_cases hlen h
  · rw [listAfter_of_ne hfail, hsame]
    exact hlist
  · rw [htext, Option.getD_some] at hlist
    rw [scnprintf_success hplen, listAfter, if_pos rfl, if_neg hcNum, hkept, Option.getD_some]
    exact hlist.remove hnul hhash

/-- **A command on a list**: the file holds the list that the response tells, and all other files
but the temporary one stay as they are. -/
theorem UpdateMacList.spec {pfile : Bytes} {r : ℕ} {addrs : List Bytes}
    (h : UpdateMacList env' fs pfile cNum pVal plen presp fs') (hlen : pfile.length ≤ 100)
    (hplen : success.length < plen) (hnul : 0 ∉ pVal) (hhash : hash ∉ pVal)
    (hcNum : cNum = .addToAllow ∨ cNum = .addToDeny ∨ cNum = .removeFromAllow ∨
      cNum = .removeFromDeny) (hlist : HoldsList ((fs pfile).getD []) r addrs) :
    HoldsList ((fs' pfile).getD []) r (listAfter r cNum pVal presp addrs) ∧
      ∀ p, p ≠ pfile → p ≠ pfile ++ ascii "~" → fs' p = fs p := by
  have hadd : (cNum = .addToAllow ∨ cNum = .addToDeny) → (∃ file',
      AddMacToFile env'.openAppend env'.openUpdate (fs pfile) pVal env'.beyond plen presp file' ∧
        fs' = Function.update fs pfile file') →
      HoldsList ((fs' pfile).getD []) r (listAfter r cNum pVal presp addrs) ∧
        ∀ p, p ≠ pfile → p ≠ pfile ++ ascii "~" → fs' p = fs p := by
    rintro hcNum ⟨file', hfile, rfl⟩
    refine ⟨?_, fun p hp _ => Function.update_of_ne hp _ _⟩
    rw [Function.update_self]
    exact hlist.addMacToFile hfile hplen hnul hcNum
  have hremove : ¬ (cNum = .addToAllow ∨ cNum = .addToDeny) →
      removeFromFile env' fs pfile pVal plen = (presp, fs') →
      HoldsList ((fs' pfile).getD []) r (listAfter r cNum pVal presp addrs) ∧
        ∀ p, p ≠ pfile → p ≠ pfile ++ ascii "~" → fs' p = fs p := fun hcNum hfiles =>
    ⟨hlist.removeFromFile hlen hfiles hplen hnul hhash hcNum, (removeFromFile_cases hlen hfiles).2⟩
  obtain rfl | rfl | rfl | rfl := hcNum
  · exact hadd (.inl rfl) h
  · exact hadd (.inr rfl) h
  · exact hremove (by decide) h
  · exact hremove (by decide) h

/-- A command on a list is one of four. -/
theorem macCommand_eq_some (h : macCommand pcmd = some (cNum, pVal)) :
    parseSet pcmd = some (cNum, pVal) ∧ (cNum = .addToAllow ∨ cNum = .addToDeny ∨
      cNum = .removeFromAllow ∨ cNum = .removeFromDeny) := by
  rw [macCommand] at h
  split at h <;> first
    | (rename_i heq
       obtain ⟨rfl, rfl⟩ := Prod.mk.inj (Option.some.inj h)
       exact ⟨heq, by decide⟩)
    | cases h

/-- **One command**: the lists are those that its response tells. -/
theorem Tracks.executes (h : Tracks path remarks d s) (hpath : ListPaths path)
    (hcmd : IsCommand pcmd) (hplain : ∀ c ∈ macCommand pcmd, hash ∉ c.2)
    (hplen : success.length < env.plen) (hwritten : ∀ i t, (env.ops i).written t = t)
    (hexec : Executes env env' d pcmd presp d') :
    Tracks path remarks d' (macStep remarks s (pcmd, presp)) := by
  rw [Executes] at hexec
  rw [macStep]
  dsimp only
  cases hmac : macCommand pcmd with
  | none =>
    rw [hmac] at hexec
    obtain ⟨hset, hlists⟩ := hexec
    refine ⟨fun k hk => ?_, fun k hk => ?_⟩
    · have hkeeps := (h.keepsPath k hk).setCommand hk hcmd hwritten
      rw [hset] at hkeeps
      exact hkeeps
    · rw [hlists]
      exact h.holdsList k hk
  | some c =>
    obtain ⟨cNum, pVal⟩ := c
    rw [hmac] at hexec
    dsimp only
    obtain ⟨hfiles, hexec⟩ := hexec
    obtain ⟨hparse, hcNum⟩ := macCommand_eq_some hmac
    have hstr := isListStr_listOf cNum
    refine ⟨fun k hk => hfiles ▸ h.keepsPath k hk, ?_⟩
    obtain hnone | hsome := (h.keepsPath _ hstr).getAllowDenyFileName hpath hstr le_rfl
    · rw [hnone] at hexec
      obtain ⟨rfl, hlists⟩ := hexec
      have hfail : scnprintf env.plen errResUnavailable ≠ success :=
        scnprintf_ne_success (by decide) _
      rw [hlists, listAfter_of_ne hfail, Function.update_eq_self]
      exact h.holdsList
    · rw [hsome] at hexec
      obtain ⟨hlist, hframe⟩ := hexec.spec (hpath.length_le _ hstr) hplen
        (fitsLine_of_parseSet hcmd hparse).noNul (hplain _ hmac) hcNum (h.holdsList _ hstr)
      intro k hk
      by_cases hsame : k = listOf cNum
      · rw [hsame, Function.update_self]
        exact hlist
      · have hne : path k ≠ path (listOf cNum) := hpath.path_ne hk hstr hsame
        rw [Function.update_of_ne hsame, hframe _ hne (hpath.tmp_ne _ _ hstr hk).symm]
        exact h.holdsList k hk

/-- **A session**: the lists are those that the responses tell. -/
theorem Tracks.session (h : Tracks path remarks d s) (hpath : ListPaths path)
    (hsession : Session d cs d') : Tracks path remarks d' (macRun remarks s cs) := by
  induction hsession generalizing s with
  | nil => exact h
  | cons hcmd hplain hplen hwritten hexec _ ih =>
    exact ih (h.executes hpath hcmd hplain hplen hwritten hexec)

theorem length_listAfter_le (r : ℕ) (addrs : List Bytes) :
    r + (listAfter r cNum pVal presp addrs).length ≤ max maxAllowedMac (r + addrs.length) := by
  rw [listAfter]
  split_ifs
  · have hle := List.length_take_le (maxAllowedMac - (r + addrs.length)) (found pVal)
    rw [List.length_append]
    omega
  · have hle := List.length_filter_le (fun a => !(named pVal).contains a) addrs
    omega
  · exact le_max_right _ _

theorem length_macStep_le (remarks : EsapStr → ℕ) (s : EsapStr → List Bytes) (c : Bytes × Bytes)
    (k : EsapStr) :
    remarks k + (macStep remarks s c k).length ≤ max maxAllowedMac (remarks k + (s k).length) := by
  rw [macStep]
  cases macCommand c.1 with
  | none => exact le_max_right _ _
  | some p =>
    obtain ⟨cNum, pVal⟩ := p
    dsimp only
    by_cases hk : k = listOf cNum
    · rw [hk, Function.update_self]
      exact length_listAfter_le _ _
    · rw [Function.update_of_ne hk]
      exact le_max_right _ _

/-- A list does not grow beyond its limit. -/
theorem length_macRun_le (remarks : EsapStr → ℕ) (cs : List (Bytes × Bytes))
    (s : EsapStr → List Bytes) (k : EsapStr) :
    remarks k + (macRun remarks s cs k).length ≤
      max maxAllowedMac (remarks k + (s k).length) := by
  induction cs generalizing s with
  | nil => exact le_max_right _ _
  | cons c cs ih =>
    exact (ih _).trans (max_le (le_max_left _ _) (length_macStep_le remarks s c k))

/-- Everything succeeds, and there are zeros behind the value. -/
def okList : ListEnv := ⟨true, true, true, true, true, fun _ => 0⟩

/-- A configuration file with the paths of the lists. -/
def listsConf : List Bytes := [ascii "accept_mac_file=/a" ++ [lf], ascii "deny_mac_file=/d" ++ [lf]]

/-- The paths in it. -/
def listsPath (k : EsapStr) : Bytes := if k = .acceptMacFile then ascii "/a" else ascii "/d"

/-- A device without lists. -/
def freshDevice : Device := ⟨⟨some listsConf.flatten, none⟩, fun _ => none⟩

/-- Two addresses have been added. -/
def addedDevice : Device :=
  ⟨freshDevice.files, Function.update freshDevice.lists (ascii "/d")
    (some (lineText [ascii "00:11:22:33:44:55", ascii "66:77:88:99:aa:BB"]))⟩

/-- The name of the network has been set. -/
def namedDevice : Device :=
  ⟨(setCommand okEnv addedDevice.files (ascii "set ssid=net")).2, addedDevice.lists⟩

/-- One of the addresses has been removed. -/
def removedDevice : Device :=
  ⟨namedDevice.files, (removeFromFile okList namedDevice.lists (ascii "/d")
    (ascii "00:11:22:33:44:55") 64).2⟩

def sampleCommands : List (Bytes × Bytes) :=
  [(ascii "set add_to_deny_list=00:11:22:33:44:55 66:77:88:99:aa:BB", success),
    (ascii "set ssid=net", success),
    (ascii "set remove_from_deny_list=00:11:22:33:44:55", success)]

theorem macCommand_sample :
    macCommand (ascii "set add_to_deny_list=00:11:22:33:44:55 66:77:88:99:aa:BB") =
        some (.addToDeny, ascii "00:11:22:33:44:55 66:77:88:99:aa:BB") ∧
      macCommand (ascii "set ssid=net") = none ∧
      macCommand (ascii "set remove_from_deny_list=00:11:22:33:44:55") =
        some (.removeFromDeny, ascii "00:11:22:33:44:55") := by
  decide +kernel

theorem executes_of_path {pfile : Bytes} (hmac : macCommand pcmd = some (cNum, pVal))
    (hpath : getAllowDenyFileName d.files.hostapd (qsapStr (listOf cNum)) maxFilePathLen =
      some pfile) (hfiles : d'.files = d.files)
    (h : UpdateMacList env' d.lists pfile cNum pVal env.plen presp d'.lists) :
    Executes env env' d pcmd presp d' := by
  rw [Executes, hmac]
  refine ⟨hfiles, ?_⟩
  rw [hpath]
  exact h

theorem session_sample : Session freshDevice sampleCommands removedDevice := by
  obtain ⟨hadd, hset, hremove⟩ := macCommand_sample
  have hadded : Executes okEnv okList freshDevice
      (ascii "set add_to_deny_list=00:11:22:33:44:55 66:77:88:99:aa:BB") success addedDevice := by
    refine executes_of_path hadd (by decide +kernel) rfl ⟨_, ?_, rfl⟩
    have hroom : ¬ (maxAllowedMac : ℤ) ≤ countMacs ((freshDevice.lists (ascii "/d")).getD []) := by
      decide +kernel
    simp only [AddMacToFile, okList, Bool.true_eq_false, if_false]
    rw [if_neg hroom]
    have hloop : loop (addTurn (memory (ascii "00:11:22:33:44:55 66:77:88:99:aa:BB") fun _ => 0)) 3
        ⟨0, (ascii "00:11:22:33:44:55 66:77:88:99:aa:BB").length,
          countMacs ((freshDevice.lists (ascii "/d")).getD []), []⟩ =
        some (lineText [ascii "00:11:22:33:44:55", ascii "66:77:88:99:aa:BB"]) := by
      decide +kernel
    exact ⟨_, ends_of_loop hloop, rfl, rfl⟩
  have hnamed : Executes okEnv okList addedDevice (ascii "set ssid=net") success namedDevice := by
    rw [Executes, hset]
    exact ⟨Prod.ext (by decide +kernel) rfl, rfl⟩
  have hremoved : Executes okEnv okList namedDevice
      (ascii "set remove_from_deny_list=00:11:22:33:44:55") success removedDevice := by
    refine executes_of_path hremove (by decide +kernel) rfl (Prod.ext ?_ rfl)
    decide +kernel
  have hwritten : ∀ i t, (okEnv.ops i).written t = t := fun _ _ => rfl
  refine .cons ⟨by decide, by decide⟩ ?_ (by decide) hwritten hadded <|
    .cons ⟨by decide, by decide⟩ ?_ (by decide) hwritten hnamed <|
    .cons ⟨by decide, by decide⟩ ?_ (by decide) hwritten hremoved <| .nil removedDevice
  · rw [hadd]
    decide
  · rw [hset]
    decide
  · rw [hremove]
    decide

end

end Softap

end Msm8909w
