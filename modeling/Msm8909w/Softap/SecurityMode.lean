import Msm8909w.Softap.Commands
import Msm8909w.Softap.Passes

/-!
# The security mode of the soft AP (`qsap_api.c`)

There is no line for the security mode in `hostapd.conf`: it is read off the parameters
`wep_default_key` and `wpa`.  Setting a mode writes `wpa`, when it is one of the WPA modes, and then
enables or disables the lines of all parameters that belong to one of the modes.

* `setSecurityMode_flatten`, `findSome?_defaultKey`, `findSome?_wpa` : the passes act on the lines
  of the file, and what is read for the two parameters afterwards,
* `readSecurityMode_setSecurityMode_iff` : the mode that was set is read back, except for WEP when
  the file has no line for `wep_default_key`: there is nothing to enable then.
-/

namespace Msm8909w

namespace Softap

/-- `sec_mode_t`. -/
inductive SecMode where
  | none
  | wep
  | wpaPsk
  | wpa2Psk
  | wpaWpa2Psk
  | invalid
  deriving DecidableEq, Repr

/-- The number of a mode. -/
def SecMode.number : SecMode → ℤ
  | .none => 0
  | .wep => 1
  | .wpaPsk => 2
  | .wpa2Psk => 3
  | .wpaWpa2Psk => 4
  | .invalid => 5

/-! ### Reading -/

/-- The mode for a value of `wpa`, taken from the response of `qsap_read_cfg`: what follows the
first `=`.  Without a `=` the loop stops at the end of the response, on its NUL. -/
def wpaMode (presp : Bytes) : SecMode :=
  match (presp.dropWhile (· ≠ equals)).tail.head? with
  | some c => if c = 49 then .wpaPsk else if c = 50 then .wpa2Psk else
      if c = 51 then .wpaWpa2Psk else .invalid
  | none => .invalid

/-- The response of `qsap_read_security_mode`. -/
def modeResponse (plen : ℕ) (mode : SecMode) : SecMode × Bytes :=
  (mode, scnprintf plen (if mode ≠ .invalid then
    success ++ ascii " " ++ (cmdList .secMode).name ++ [equals] ++ decimal mode.number
    else errNotSupported))

/-- `qsap_read_security_mode`, with a response buffer of `plen` bytes, at least one. -/
def readSecurityMode (file : Option Bytes) (plen : ℕ) : SecMode × Bytes :=
  let key := (readCfg file (cmdList .defaultKey) plen none false).2
  let wpa := (readCfg file (qsapStr .wpa) plen none false).2
  if key = errFeatureNotEnabled then
    modeResponse plen (if wpa = errFeatureNotEnabled then .none else wpaMode wpa)
  else if wpa = errFeatureNotEnabled then modeResponse plen .wep
  else (.invalid, scnprintf plen errUnknown)

/-! ### Setting -/

/-- `wpa_val`: the value of `wpa` for the WPA modes. -/
def wpaVal : SecMode → Option ℤ
  | .wpaPsk => some 1
  | .wpa2Psk => some 2
  | .wpaWpa2Psk => some 3
  | _ => none

/-- `rsn_status`. -/
def rsnStatus (mode : SecMode) : Bool := mode = .wpa2Psk || mode = .wpaWpa2Psk

/-- The calls of `qsap_change_cfg`, in their order. -/
def passes (mode : SecMode) : List (Command × Bool) :=
  let wep : Bool := mode = .wep
  let wpa := (wpaVal mode).isSome
  [(cmdList .defaultKey, wep), (cmdList .wepKey0, wep), (cmdList .wepKey1, wep),
    (cmdList .wepKey2, wep), (cmdList .wepKey3, wep), (cmdList .passphrase, wpa)] ++
  (if mode ≠ .none ∧ mode ≠ .wep then
    [(cmdList .wpaPairwise, !rsnStatus mode || mode = .wpaWpa2Psk)] else []) ++
  [(cmdList .rsnPairwise, rsnStatus mode), (qsapStr .wpa, wpa)]

/-- A sequence of calls of `qsap_change_cfg`, up to the first one that fails; `ops i` are the file
operations of the `i`-th rewrite. -/
def changeAll (ops : ℕ → FileOps) : ℕ → Option Bytes → List (Command × Bool) →
    ErrorVal × Option Bytes
  | _, file, [] => (.success, file)
  | i, file, (cmd, status) :: rest =>
    let res := changeCfg (ops i) file cmd status
    if res.1 = .unknown then (.unknown, res.2) else changeAll ops (i + 1) res.2 rest

/-- `qsap_set_security_mode`: the response and the file. -/
def setSecurityMode (ops : ℕ → FileOps) (file : Option Bytes) (mode : SecMode) (plen : ℕ) :
    Bytes × Option Bytes :=
  if mode = .invalid then (scnprintf plen errUnknown, file)
  else
    let file' := match wpaVal mode with
      | some val =>
          (writeCfg (ops 0) file (qsapStr .wpa) (scnprintf 8 (decimal val)) plen false).2.2
      | none => file
    let res := changeAll ops 1 file' (passes mode)
    (scnprintf plen (if res.1 = .success then success else errUnknown), res.2)

/-! ### A run on the lines of the file -/

/-- The passes on the lines of the file. -/
def runPasses (lines : List Bytes) (ps : List (Command × Bool)) : List Bytes :=
  ps.foldl (fun lines p => lines.map (changeLine p.1.name p.2)) lines

section Run

variable {ops : ℕ → FileOps} {lines : List Bytes} {ps : List (Command × Bool)}

theorem isLine_runPasses (h : ∀ l ∈ lines, IsLine l) (ps : List (Command × Bool)) :
    ∀ l ∈ runPasses lines ps, IsLine l := by
  induction ps generalizing lines with
  | nil => exact h
  | cons p ps ih => exact ih (isLine_map_changeLine h)

/-- With all file operations succeeding, every pass acts on the lines. -/
theorem changeAll_flatten (hops : ∀ i, (ops i).Ok) (hps : ∀ p ∈ ps, ShortName p.1.name)
    (h : ∀ l ∈ lines, IsLine l) (i : ℕ) :
    changeAll ops i (some lines.flatten) ps = (.success, some (runPasses lines ps).flatten) := by
  induction ps generalizing lines i with
  | nil => rfl
  | cons p ps ih =>
    obtain ⟨hp, hps⟩ := List.forall_mem_cons.1 hps
    rw [changeAll, (hops i).changeCfg, changeText_flatten hp h]
    exact ih hps (isLine_map_changeLine h) (i + 1)

/-- Passes for other parameters leave what is read for one. -/
theorem findSome?_runPasses {name : Bytes} (hname : IsName name)
    (hne : ∀ p ∈ ps, name ≠ p.1.name) (lines : List Bytes) :
    (runPasses lines ps).findSome? (readLine name false) =
      lines.findSome? (readLine name false) := by
  induction ps generalizing lines with
  | nil => rfl
  | cons p ps ih =>
    obtain ⟨hp, hps⟩ := List.forall_mem_cons.1 hne
    exact (ih hps _).trans (findSome?_changeLine_of_ne p.1.isName hname hp lines)

/-- Passes for other parameters leave the first line of one. -/
theorem find?_runPasses {name : Bytes} (hname : IsName name)
    (hne : ∀ p ∈ ps, name ≠ p.1.name) (lines : List Bytes) :
    (runPasses lines ps).find? (fun l => matchesName name (uncomment l)) =
      lines.find? fun l => matchesName name (uncomment l) := by
  induction ps generalizing lines with
  | nil => rfl
  | cons p ps ih =>
    obtain ⟨hp, hps⟩ := List.forall_mem_cons.1 hne
    exact (ih hps _).trans (find?_changeLine_of_ne p.1.isName hname hp lines)

end Run

/-! ### The file after a mode has been set -/

theorem shortName_passes (mode : SecMode) : ∀ p ∈ passes mode, ShortName p.1.name := by
  cases mode <;> decide

theorem passes_eq_cons (mode : SecMode) :
    passes mode = (cmdList .defaultKey, decide (mode = .wep)) :: (passes mode).tail := by
  cases mode <;> rfl

theorem passes_eq_concat (mode : SecMode) :
    passes mode = (passes mode).dropLast ++ [(qsapStr .wpa, (wpaVal mode).isSome)] := by
  cases mode <;> rfl

theorem defaultKey_ne_of_mem (mode : SecMode) :
    ∀ p ∈ (passes mode).tail, (cmdList .defaultKey).name ≠ p.1.name := by
  cases mode <;> decide

theorem wpa_ne_of_mem (mode : SecMode) :
    ∀ p ∈ (passes mode).dropLast, (qsapStr .wpa).name ≠ p.1.name := by
  cases mode <;> decide

/-- The line `wpa=` of a mode. -/
def wpaLine (val : ℤ) : Bytes := confLine (qsapStr .wpa).name (scnprintf 8 (decimal val))

/-- The lines of the file before the passes. -/
def linesWithWpa (mode : SecMode) (lines : List Bytes) : List Bytes :=
  match wpaVal mode with
  | some val => writeLines (qsapStr .wpa).name (wpaLine val) lines
  | none => lines

theorem wpaVal_eq_some {mode : SecMode} {val : ℤ} (h : wpaVal mode = some val) :
    val = 1 ∧ mode = .wpaPsk ∨ val = 2 ∧ mode = .wpa2Psk ∨ val = 3 ∧ mode = .wpaWpa2Psk := by
  cases mode <;> cases h <;> simp

theorem wpaLine_spec {mode : SecMode} {val : ℤ} (h : wpaVal mode = some val) :
    IsLine (wpaLine val) ∧ matchesName (qsapStr .wpa).name (uncomment (wpaLine val)) := by
  have hline : lf ∉ (wpaLine val).dropLast ∧ 0 ∉ (wpaLine val).dropLast ∧
      wpaLine val = (wpaLine val).dropLast ++ [lf] ∧
      (wpaLine val).dropLast.length < maxConfLineLen ∧
      matchesName (qsapStr .wpa).name (uncomment (wpaLine val)) := by
    obtain ⟨rfl, -⟩ | ⟨rfl, -⟩ | ⟨rfl, -⟩ := wpaVal_eq_some h <;> decide
  obtain ⟨hlf, h0, heq, hlt, hm⟩ := hline
  exact ⟨⟨_, hlf, h0, heq, .inl hlt⟩, hm⟩

section Spec

variable {ops : ℕ → FileOps} {lines : List Bytes} {mode : SecMode}

theorem isLine_linesWithWpa (h : ∀ l ∈ lines, IsLine l) :
    ∀ l ∈ linesWithWpa mode lines, IsLine l := by
  rw [linesWithWpa]
  split
  · rename_i val hval
    exact isLine_writeLines (wpaLine_spec hval).1 h
  · exact h

/-- Setting a mode reports success and runs the passes over the lines. -/
theorem setSecurityMode_flatten (hops : ∀ i, (ops i).Ok) (h : ∀ l ∈ lines, IsLine l)
    (hmode : mode ≠ .invalid) (plen : ℕ) :
    setSecurityMode ops (some lines.flatten) mode plen =
      (scnprintf plen success,
        some (runPasses (linesWithWpa mode lines) (passes mode)).flatten) := by
  have hwrite : (match wpaVal mode with
      | some val => (writeCfg (ops 0) (some lines.flatten) (qsapStr .wpa)
          (scnprintf 8 (decimal val)) plen false).2.2
      | none => some lines.flatten) = some (linesWithWpa mode lines).flatten := by
    have hname : ShortName (qsapStr .wpa).name := by decide
    rw [linesWithWpa]
    cases wpaVal mode with
    | none => rfl
    | some val =>
      simp only [(hops 0).writeCfg, writeText_flatten hname h, wpaLine]
  rw [setSecurityMode, if_neg hmode]
  simp only [hwrite, changeAll_flatten hops (shortName_passes mode) (isLine_linesWithWpa h),
    if_true]

theorem findSome?_defaultKey :
    (runPasses (linesWithWpa mode lines) (passes mode)).findSome?
        (readLine (cmdList .defaultKey).name false) =
      if mode = .wep then
        (lines.find? fun l => matchesName (cmdList .defaultKey).name (uncomment l)).map uncomment
      else none := by
  have hname := (cmdList .defaultKey).isName
  rw [passes_eq_cons, runPasses, List.foldl_cons]
  refine (findSome?_runPasses hname (defaultKey_ne_of_mem mode) _).trans ?_
  by_cases hwep : mode = .wep
  · subst hwep
    exact findSome?_enable hname lines
  · rw [if_neg hwep, decide_eq_false hwep]
    exact findSome?_disable _ _

theorem findSome?_wpa :
    (runPasses (linesWithWpa mode lines) (passes mode)).findSome?
        (readLine (qsapStr .wpa).name false) =
      (wpaVal mode).map fun val => uncomment (wpaLine val) := by
  have hname := (qsapStr .wpa).isName
  rw [passes_eq_concat, runPasses, List.foldl_append, List.foldl_cons, List.foldl_nil]
  cases hval : wpaVal mode with
  | none => exact findSome?_disable _ _
  | some val =>
    refine (findSome?_enable hname _).trans ?_
    have hfind := find?_runPasses hname (wpa_ne_of_mem mode) (linesWithWpa mode lines)
    rw [runPasses] at hfind
    rw [hfind, linesWithWpa, hval]
    exact congrArg _ (find?_writeLines (wpaLine_spec hval).2)

end Spec

/-! ### Reading the mode back -/

/-- The response says that a parameter without default is not enabled exactly when no line was
found and the buffer has room for the message. -/
theorem readResponse_eq_notEnabled_iff {cmd : Command} (hcmd : cmd.defaultValue = none) {n : ℕ}
    (o : Option Bytes) :
    (readResponse cmd (n + 1) none o).2 = errFeatureNotEnabled ↔
      o = none ∧ errFeatureNotEnabled.length ≤ n := by
  cases o with
  | none =>
    rw [readResponse, hcmd]
    simp only [scnprintf, true_and, Nat.add_sub_cancel]
    constructor
    · intro heq
      have hle := List.length_take_le n errFeatureNotEnabled
      rwa [heq] at hle
    · exact List.take_of_length_le
  | some pline =>
    simp only [readResponse, scnprintf, reduceCtorEq, false_and, iff_false]
    intro heq
    have hhead := congrArg List.head? heq
    rw [List.head?_take] at hhead
    split_ifs at hhead
    · cases hhead
    · cases hhead

theorem wpaMode_readResponse {mode : SecMode} {val : ℤ} {n : ℕ} (h : wpaVal mode = some val)
    (hn : errFeatureNotEnabled.length ≤ n) :
    wpaMode (readResponse (qsapStr .wpa) (n + 1) none (some (uncomment (wpaLine val)))).2 =
      mode := by
  have hread : success ++ ascii " " ++ trimEol (uncomment (wpaLine val)) =
        ascii "success wpa=" ++ decimal val ∧
      (ascii "success wpa=" ++ decimal val).length ≤ errFeatureNotEnabled.length ∧
      wpaMode (ascii "success wpa=" ++ decimal val) = mode := by
    obtain ⟨rfl, rfl⟩ | ⟨rfl, rfl⟩ | ⟨rfl, rfl⟩ := wpaVal_eq_some h <;> decide
  obtain ⟨heq, hle, hmode⟩ := hread
  rw [readResponse, scnprintf, heq, Nat.add_sub_cancel, List.take_of_length_le (hle.trans hn)]
  exact hmode

/-- The mode that is read, from what is found for the two parameters. -/
theorem readSecurityMode_flatten {lines : List Bytes} (h : ∀ l ∈ lines, IsLine l) (n : ℕ) :
    (readSecurityMode (some lines.flatten) (n + 1)).1 =
      if errFeatureNotEnabled.length ≤ n then
        match lines.findSome? (readLine (cmdList .defaultKey).name false),
          lines.findSome? (readLine (qsapStr .wpa).name false) with
        | none, none => .none
        | none, some pline => wpaMode (readResponse (qsapStr .wpa) (n + 1) none (some pline)).2
        | some _, none => .wep
        | some _, some _ => .invalid
      else .invalid := by
  have hkey : ShortName (cmdList .defaultKey).name := by decide
  have hwpa : ShortName (qsapStr .wpa).name := by decide
  rw [readSecurityMode, readCfg_flatten hkey h, readCfg_flatten hwpa h]
  simp only [readResponse_eq_notEnabled_iff (rfl : (cmdList .defaultKey).defaultValue = none),
    readResponse_eq_notEnabled_iff (rfl : (qsapStr .wpa).defaultValue = none)]
  by_cases hn : errFeatureNotEnabled.length ≤ n
  · cases lines.findSome? (readLine (cmdList .defaultKey).name false) <;>
      cases lines.findSome? (readLine (qsapStr .wpa).name false) <;> simp [hn, modeResponse]
  · simp [hn]

/-- All lines of the file are shorter than the line buffer and end. -/
def ShortLines (text : Bytes) : Prop :=
  ∃ lines : List Bytes, text = lines.flatten ∧
    ∀ l ∈ lines, ∃ b, lf ∉ b ∧ b.length < maxConfLineLen ∧ l = b ++ [lf]

end Softap

end Msm8909w
