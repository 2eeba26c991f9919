import Msm8909w.Softap.Store
import Msm8909w.Softap.WepKey

/-!
# Sessions of set commands (`qsap_api.c`)

The commands of `qsap_handle_set_request` that have handlers of their own and change `hostapd.conf`.
Each handler is a sequence of calls of `qsap_write_cfg` and `qsap_change_cfg` for a few parameters,
which may stop in the middle and may depend on what is read in between (`Rewrites`).

* `Rewrites` : a part of a run of rewrites for some parameters, with its rules,
* `rewrites_setCommand` : a command rewrites the lines of the parameters it is for,
* `getRequest_session` : a value that has been set is what a get command returns, after any session
  of commands for other parameters.
-/

namespace Msm8909w

namespace Softap

/-! ### The handlers -/

/-- `hw_mode`. -/
def hwModes : List Bytes := ["b", "g", "n", "g-only", "n-only", "a"].map ascii

/-- `IS_VALID_PAIRWISE`. -/
def isValidPairwise (pVal : Bytes) : Bool :=
  pVal = ascii "TKIP" || pVal = ascii "CCMP" || pVal = ascii "TKIP CCMP" ||
    pVal = ascii "CCMP TKIP"

/-- The response and the file of a handler. -/
abbrev Handled := Bytes × Option Bytes

section

variable (ops : ℕ → FileOps) (file : Option Bytes) (plen : ℕ)

/-- `goto error` of `qsap_handle_set_request`. -/
def invalidParam : Handled := (scnprintf plen errInvalidParam, file)

/-- `eCMD_SEC_MODE`. -/
def handleSecMode (pVal : Bytes) : Handled :=
  let mode (m : SecMode) := setSecurityMode ops file m plen
  match atoi pVal with
  | 0 => mode .none
  | 1 => mode .wep
  | 2 => mode .wpaPsk
  | 3 => mode .wpa2Psk
  | 4 => mode .wpaWpa2Psk
  | _ => invalidParam file plen

/-- `eCMD_MAC_ACL`: 0 is for the list of refused addresses, 1 for the list of accepted ones, 2 for
both. -/
def handleMacAcl (pVal : Bytes) : Handled :=
  let value := atoi pVal
  if inRange 0 2 value then
    let accept := changeCfg (ops 0) file (qsapStr .acceptMacFile) (value ≠ 0)
    if accept.1 = .unknown then invalidParam accept.2 plen
    else
      let deny := changeCfg (ops 1) accept.2 (qsapStr .denyMacFile) (value ≠ 1)
      if deny.1 = .unknown then invalidParam deny.2 plen
      else (writeCfg (ops 2) deny.2 (cmdList .macAcl) (writeBack pVal) plen false).2
  else invalidParam file plen

/-- `eCMD_CHAN`, with the contents of the array `filename`. -/
def handleChan (filename pVal : Bytes) : Handled :=
  let res := setChannel ops file filename (atoi pVal)
  (scnprintf plen (if res.1 = .success then success else errUnknown), res.2.file)

/-- `qsap_set_operating_mode`; the results of all calls but the last one are ignored. -/
def setOperatingMode (mode : Bytes) : ErrorVal × Option Bytes :=
  let file := (changeCfg (ops 0) file (cmdList .basicRates) false).2
  let file := (changeCfg (ops 1) file (cmdList .requireHt) false).2
  let file := (writeCfg (ops 2) file (cmdList .ieee80211n) (ascii "0") maxFilePathLen false).2.2
  let file :=
    if mode = ascii "g-only" then (changeCfg (ops 3) file (cmdList .basicRates) true).2
    else if mode = ascii "n-only" then (changeCfg (ops 3) file (cmdList .requireHt) true).2
    else file
  let file :=
    if mode = ascii "n-only" ∨ mode = ascii "n" ∨ mode = ascii "a" then
      (writeCfg (ops 4) file (cmdList .ieee80211n) (ascii "1") maxFilePathLen false).2.2
    else if mode = ascii "b" then
      (writeCfg (ops 4) file (cmdList .ieee80211n) (ascii "0") maxFilePathLen false).2.2
    else file
  let pmode := if mode ∈ [ascii "g-only", ascii "n-only", ascii "n"] then ascii "g" else mode
  let res := writeCfg (ops 5) file (cmdList .hwMode) pmode maxFilePathLen false
  (res.1, res.2.2)

/-- `eCMD_HW_MODE`. -/
def handleHwMode (pVal : Bytes) : Handled :=
  if pVal ∈ hwModes then
    let res := setOperatingMode ops file pVal
    (scnprintf plen (if res.1 = .success then success else errUnknown), res.2)
  else invalidParam file plen

/-- A value that has been written is disabled when the security mode is not WEP. -/
def disableUnlessWep (cmd : EsapCmd) (res : ErrorVal × Handled) : Handled :=
  if (readSecurityMode res.2.2 maxFilePathLen).1 ≠ .wep then
    let change := changeCfg (ops 1) res.2.2 (cmdList cmd) false
    if change.1 = .unknown then invalidParam change.2 res.2.1.length else (res.2.1, change.2)
  else res.2

/-- `eCMD_DEFAULT_KEY`. -/
def handleDefaultKey (pVal : Bytes) : Handled :=
  if inRange 0 3 (atoi pVal) then
    disableUnlessWep ops .defaultKey
      (writeCfg (ops 0) file (cmdList .defaultKey) (writeBack pVal) plen false)
  else invalidParam file plen

/-- `eCMD_WPA_PAIRWISE` and `eCMD_RSN_PAIRWISE`. -/
def handlePairwise (cmd : EsapCmd) (pVal : Bytes) : Handled :=
  if isValidPairwise pVal then
    let res := changeCfg (ops 0) file (qsapStr .ht80211n) (pVal ≠ ascii "TKIP")
    if res.1 = .unknown then invalidParam res.2 plen
    else (writeCfg (ops 1) res.2 (cmdList cmd) pVal plen false).2
  else invalidParam file plen

/-- `eCMD_INTRA_BSS_FORWARD`. -/
def handleIntraBss (pVal : Bytes) : Handled :=
  if inRange 0 1 (atoi pVal) then
    let res := changeCfg (ops 0) file (cmdList .intraBssForward) (atoi pVal ≠ 0)
    (scnprintf plen (if res.1 = .success then success else errUnknown), res.2)
  else invalidParam file plen

/-- The parameters from `eCMD_UUID` to `eCMD_UPC`. -/
def upnpCmds : List EsapCmd :=
  [.uuid, .deviceName, .manufacturer, .modelName, .modelNumber, .serialNumber, .deviceType,
    .osVersion, .friendlyName, .manufacturerUrl, .modelDesc, .modelUrl, .upc]

/-- `qsap_update_wps_config`: the state is 2 when WPS is enabled. -/
def updateWpsConfig (status : Bool) : Handled :=
  let state := ascii (if status then "2" else "0")
  let file := (writeCfg (ops 0) file (cmdList .wpsState) state plen false).2.2
  let enabled := changeCfg (ops 1) file (cmdList .wpsState) status
  if enabled.1 = .unknown then (scnprintf plen errUnknown, enabled.2)
  else
    let res := writeCfg (ops 2) enabled.2 (qsapStr .eapServer) (ascii "1") plen false
    let changed := changeAll ops 3 res.2.2 (upnpCmds.map fun c => (cmdList c, status))
    if changed.1 = .unknown then (scnprintf res.2.1.length errUnknown, changed.2)
    else (res.2.1, changed.2)

/-- `eCMD_WPS_STATE`. -/
def handleWpsState (pVal : Bytes) : Handled :=
  if inRange 0 1 (atoi pVal) then updateWpsConfig ops file plen (atoi pVal ≠ 0)
  else invalidParam file plen

end

/-- What the environment gives to a command: the results of the file operations, one rewrite after
the other, the contents of the array `filename`, and the size of the response buffer. -/
structure CmdEnv where
  ops : ℕ → FileOps
  filename : Bytes
  plen : ℕ

/-- The commands with handlers that change `hostapd.conf`. -/
def handleConf (env : CmdEnv) (cmd : EsapCmd) (pVal : Bytes) (plen : ℕ) (file : Option Bytes) :
    Handled :=
  match cmd with
  | .secMode => handleSecMode env.ops file plen pVal
  | .macAcl => handleMacAcl env.ops file plen pVal
  | .chan => handleChan env.ops file plen env.filename pVal
  | .hwMode => handleHwMode env.ops file plen pVal
  | .defaultKey => handleDefaultKey env.ops file plen pVal
  | .wpaPairwise | .rsnPairwise => handlePairwise env.ops file plen cmd pVal
  | .wepKey0 | .wepKey1 | .wepKey2 | .wepKey3 => setWepKey env.ops file cmd pVal plen
  | .intraBssForward => handleIntraBss env.ops file plen pVal
  | .wpsState => handleWpsState env.ops file plen pVal
  | _ => ([], file)

/-- One command of a session. -/
def setCommand (env : CmdEnv) (files : Files) (pcmd : Bytes) : Bytes × Files :=
  handleSetRequest (env.ops 0) (fun cmd pVal plen files =>
    let res := handleConf env cmd pVal plen files.hostapd
    (res.1, { files with hostapd := res.2 })) files pcmd env.plen

/-! ### Parts of runs -/

/-- A part of a run of rewrites for some parameters. -/
def Rewrites (keys : List Bytes) (file file' : Option Bytes) : Prop :=
  ∃ steps : List (FileOps × ConfOp), file' = runConf steps file ∧ ∀ st ∈ steps,
    ShortName st.2.cmd.name ∧ st.2.cmd.name ∈ keys ∧ st.2.Fits ∧ ∀ t, st.1.written t = t

section

variable {ops : FileOps} {keys keys' : List Bytes} {file file' file'' : Option Bytes}
  {cmd : Command} {val : Bytes} {plen : ℕ} {status : Bool}

theorem Rewrites.refl (keys : List Bytes) (file : Option Bytes) : Rewrites keys file file :=
  ⟨[], rfl, by simp⟩

theorem Rewrites.trans (h : Rewrites keys file file') (h' : Rewrites keys file' file'') :
    Rewrites keys file file'' := by
  obtain ⟨steps, rfl, hsteps⟩ := h
  obtain ⟨steps', rfl, hsteps'⟩ := h'
  refine ⟨steps ++ steps', (List.foldl_append ..).symm, ?_⟩
  exact List.forall_mem_append.2 ⟨hsteps, hsteps'⟩

theorem Rewrites.mono (h : Rewrites keys file file') (hkeys : keys ⊆ keys') :
    Rewrites keys' file file' := by
  obtain ⟨steps, rfl, hsteps⟩ := h
  exact ⟨steps, rfl, fun st hst => ⟨(hsteps st hst).1, hkeys (hsteps st hst).2.1,
    (hsteps st hst).2.2⟩⟩

theorem Rewrites.write (h : Rewrites keys file file') (hwritten : ∀ t, ops.written t = t)
    (hname : ShortName cmd.name) (hkey : cmd.name ∈ keys) (hval : FitsLine cmd.name val) :
    Rewrites keys file (writeCfg ops file' cmd val plen false).2.2 :=
  h.trans ⟨[(ops, .write cmd val plen)], rfl,
    List.forall_mem_singleton.2 ⟨hname, hkey, hval, hwritten⟩⟩

theorem Rewrites.change (h : Rewrites keys file file') (hwritten : ∀ t, ops.written t = t)
    (hname : ShortName cmd.name) (hkey : cmd.name ∈ keys) :
    Rewrites keys file (changeCfg ops file' cmd status).2 :=
  h.trans ⟨[(ops, .change cmd status)], rfl,
    List.forall_mem_singleton.2 ⟨hname, hkey, trivial, hwritten⟩⟩

/-- A sequence of changes, also when it stops in the middle. -/
theorem Rewrites.changeAll {ops : ℕ → FileOps} (h : Rewrites keys file file')
    (hwritten : ∀ i t, (ops i).written t = t) {ps : List (Command × Bool)}
    (hps : ∀ p ∈ ps, ShortName p.1.name ∧ p.1.name ∈ keys) (i : ℕ) :
    Rewrites keys file (changeAll ops i file' ps).2 := by
  induction ps generalizing i file' with
  | nil => exact h
  | cons p ps ih =>
    obtain ⟨cmd, status⟩ := p
    obtain ⟨⟨hname, hkey⟩, hps⟩ := List.forall_mem_cons.1 hps
    have hchange : Rewrites keys file (changeCfg (ops i) file' cmd status).2 :=
      h.change (hwritten i) hname hkey
    rw [Softap.changeAll]
    split_ifs
    · exact hchange
    · exact ih hchange hps _

/-! ### Other parameters -/

theorem runStore_none (steps : List (FileOps × ConfOp)) : runStore steps none = none := by
  induction steps with
  | nil => rfl
  | cons st steps ih =>
    have hstep : st.2.step st.1 none = none := by
      rw [ConfOp.step]
      cases st.2.outcome st.1 <;> rfl
    rw [runStore, List.foldl_cons, hstep]
    exact ih

/-- A rewrite for other parameters leaves the entries of a parameter. -/
theorem ConfOp.apply_of_ne {s : Conf} {op : ConfOp} {name : Bytes} (hne : op.cmd.name ≠ name) :
    op.apply s name = s name := by
  cases op with
  | write cmd val plen => exact Function.update_of_ne hne.symm _ _
  | change cmd status => exact Function.update_of_ne hne.symm _ _

theorem runStore_frame {steps : List (FileOps × ConfOp)} {s s' : Conf} {name : Bytes}
    (hne : ∀ st ∈ steps, st.2.cmd.name ≠ name) (hrun : runStore steps (some s) = some s') :
    s' name = s name := by
  induction steps generalizing s with
  | nil => rw [Option.some.inj hrun]
  | cons st steps ih =>
    rw [List.forall_mem_cons] at hne
    rw [runStore, List.foldl_cons, ConfOp.step] at hrun
    cases hout : st.2.outcome st.1 with
    | done =>
      rw [hout] at hrun
      exact (ih hne.2 hrun).trans (ConfOp.apply_of_ne hne.1)
    | unchanged =>
      rw [hout] at hrun
      exact ih hne.2 hrun
    | lost =>
      rw [hout] at hrun
      exact absurd (runStore_none steps) (by rw [runStore, hrun]; simp)

/-- A file that has been lost is not there again. -/
theorem Rewrites.eq_none (h : Rewrites keys none file) : file = none := by
  obtain ⟨steps, rfl, hsteps⟩ := h
  have hholds := @holds_runConf none none steps trivial (fun st hst => (hsteps st hst).1)
    (fun st hst => (hsteps st hst).2.2.1) fun st hst => (hsteps st hst).2.2.2
  rw [runStore_none] at hholds
  cases hrun : runConf steps none with
  | none => rfl
  | some text =>
    rw [hrun] at hholds
    exact hholds.elim

/-- What holds a store still holds one after rewrites, with the same entries of other parameters. -/
theorem Rewrites.holds {s : Conf} (h : Rewrites keys file file') (hfile : Holds file (some s))
    {name : Bytes} (hname : name ∉ keys) :
    file' = none ∨ ∃ s', Holds file' (some s') ∧ s' name = s name := by
  obtain ⟨steps, rfl, hsteps⟩ := h
  have hholds := holds_runConf hfile (fun st hst => (hsteps st hst).1)
    (fun st hst => (hsteps st hst).2.2.1) fun st hst => (hsteps st hst).2.2.2
  cases hstore : runStore steps (some s) with
  | none =>
    rw [hstore] at hholds
    cases hrun : runConf steps file with
    | none => exact .inl rfl
    | some text =>
      rw [hrun] at hholds
      exact hholds.elim
  | some s' =>
    rw [hstore] at hholds
    refine .inr ⟨s', hholds, runStore_frame (fun st hst heq => hname ?_) hstore⟩
    exact heq ▸ (hsteps st hst).2.1

end

/-! ### What the handlers rewrite -/

/-- The parameters of `hostapd.conf` that a command may rewrite. -/
def touched : EsapCmd → List Bytes
  | .secMode => [(cmdList .defaultKey).name, (cmdList .wepKey0).name, (cmdList .wepKey1).name,
      (cmdList .wepKey2).name, (cmdList .wepKey3).name, (cmdList .passphrase).name,
      (cmdList .wpaPairwise).name, (cmdList .rsnPairwise).name, (qsapStr .wpa).name]
  | .macAcl => [(qsapStr .acceptMacFile).name, (qsapStr .denyMacFile).name, (cmdList .macAcl).name]
  | .chan => [(cmdList .hwMode).name, (cmdList .chan).name]
  | .hwMode => [(cmdList .basicRates).name, (cmdList .requireHt).name, (cmdList .ieee80211n).name,
      (cmdList .hwMode).name]
  | .wpaPairwise => [(qsapStr .ht80211n).name, (cmdList .wpaPairwise).name]
  | .rsnPairwise => [(qsapStr .ht80211n).name, (cmdList .rsnPairwise).name]
  | .wpsState => [(cmdList .wpsState).name, (qsapStr .eapServer).name] ++
      upnpCmds.map fun c => (cmdList c).name
  | c => [(cmdList c).name]

/-- The parameters that a command line may rewrite. -/
def touchedBy (pcmd : Bytes) : List Bytes :=
  match parseSet pcmd with
  | some (cmd, _) => touched cmd
  | none => []

theorem shortName_cmdList (c : EsapCmd) : ShortName (cmdList c).name :=
  ⟨c.isName_entry, (length_name_le c).trans (by decide)⟩

theorem shortName_qsapStr (s : EsapStr) : ShortName (qsapStr s).name := by
  cases s <;> decide +kernel

section

variable {ops : ℕ → FileOps} {keys : List Bytes} {file : Option Bytes} {plen : ℕ} {cmd : EsapCmd}
  {pVal name val : Bytes}

/-- A short value. -/
theorem fitsLine_of_length (hname : ShortName name) (hlf : lf ∉ val) (hnul : 0 ∉ val)
    (hlen : val.length ≤ 40) : FitsLine name val :=
  ⟨hlf, hnul, by
    have hle := hname.2
    have hmax : maxConfLineLen - 1 = 155 := rfl
    omega⟩

theorem zero_notMem_decimal (value : ℤ) : 0 ∉ decimal value := by
  rw [decimal]
  split_ifs
  · rw [List.mem_cons, not_or]
    exact ⟨by decide, notMem_digits (by decide) _ _⟩
  · exact notMem_digits (by decide) _ _

theorem FitsLine.writeBack (h : FitsLine name pVal) : FitsLine name (writeBack pVal) := by
  have hlen : (Softap.writeBack pVal).length ≤ pVal.length := List.length_take_le _ _
  have hle := h.length_le
  exact ⟨fun hlf => lf_notMem_decimal _ (List.mem_of_mem_take hlf),
    fun h0 => zero_notMem_decimal _ (List.mem_of_mem_take h0), by omega⟩

theorem rewrites_setSecurityMode (hwritten : ∀ i t, (ops i).written t = t) (mode : SecMode) :
    Rewrites (touched .secMode) file (setSecurityMode ops file mode plen).2 := by
  have hpasses : ∀ p ∈ passes mode, ShortName p.1.name ∧ p.1.name ∈ touched .secMode := by
    intro p hp
    refine ⟨shortName_passes mode p hp, ?_⟩
    revert p
    cases mode <;> decide
  rw [setSecurityMode]
  split_ifs
  · exact .refl _ file
  · refine .changeAll ?_ hwritten hpasses 1
    cases hval : wpaVal mode with
    | none => exact .refl _ file
    | some val =>
      refine .write (.refl _ file) (hwritten 0) (shortName_qsapStr .wpa) (by decide) ?_
      rcases wpaVal_eq_some hval with ⟨rfl, -⟩ | ⟨rfl, -⟩ | ⟨rfl, -⟩ <;>
        exact ⟨by decide, by decide, by decide⟩

theorem rewrites_handleSecMode (hwritten : ∀ i t, (ops i).written t = t) :
    Rewrites (touched .secMode) file (handleSecMode ops file plen pVal).2 := by
  rw [handleSecMode]
  split <;> first
    | exact rewrites_setSecurityMode hwritten _
    | exact .refl _ file

theorem rewrites_handleMacAcl (hwritten : ∀ i t, (ops i).written t = t)
    (hval : FitsLine (cmdList .macAcl).name pVal) :
    Rewrites (touched .macAcl) file (handleMacAcl ops file plen pVal).2 := by
  have haccept : Rewrites (touched .macAcl) file
      (changeCfg (ops 0) file (qsapStr .acceptMacFile) (atoi pVal ≠ 0)).2 :=
    .change (.refl _ file) (hwritten 0) (shortName_qsapStr _) (by decide)
  have hdeny : ∀ status, Rewrites (touched .macAcl) file (changeCfg (ops 1)
      (changeCfg (ops 0) file (qsapStr .acceptMacFile) (atoi pVal ≠ 0)).2 (qsapStr .denyMacFile)
        status).2 := fun status => haccept.change (hwritten 1) (shortName_qsapStr .denyMacFile) (by decide)
  rw [handleMacAcl]
  dsimp only
  split_ifs
  · exact haccept
  · exact hdeny _
  · exact (hdeny _).write (hwritten 2) (shortName_cmdList _) (by decide) hval.writeBack
  · exact .refl _ file

/-- The file, also when a change of the mode has failed. -/
def fileOf : Except Work Work → Option Bytes
  | .ok w => w.file
  | .error w => w.file

theorem rewrites_bind {r : Except Work Work} {f : Work → Except Work Work}
    (h : Rewrites keys file (fileOf r))
    (hf : ∀ w, Rewrites keys file w.file → Rewrites keys file (fileOf (f w))) :
    Rewrites keys file (fileOf (r >>= f)) := by
  cases r with
  | error w => exact h
  | ok w => exact hf w h

theorem rewrites_setMode {w : Work} {ops : FileOps} {needed : Bool} {mode : Bytes}
    (hwritten : ∀ t, ops.written t = t) (hmode : FitsLine (cmdList .hwMode).name mode)
    (h : Rewrites (touched .chan) file w.file) :
    Rewrites (touched .chan) file (fileOf (w.setMode ops needed mode)) := by
  have hwrite : Rewrites (touched .chan) file (w.write ops .hwMode mode).2.file :=
    h.write hwritten (shortName_cmdList .hwMode) (by decide) hmode
  rw [Work.setMode]
  dsimp only
  split_ifs
  · exact hwrite
  · exact hwrite
  · exact h

theorem rewrites_changeMode {w : Work} {pcfgval : ℕ} {channel : ℤ}
    (h : Rewrites (touched .chan) file w.file) (hwritten : ∀ i t, (ops i).written t = t) :
    Rewrites (touched .chan) file (fileOf (w.changeMode ops pcfgval channel)) := by
  have hmode : ∀ c : UInt8, lf ≠ c → 0 ≠ c → FitsLine (cmdList .hwMode).name [c] :=
    fun c hlf h0 => fitsLine_mode hlf h0
  refine rewrites_bind (rewrites_setMode (hwritten 0) (hmode _ (by decide) (by decide)) h) ?_
  intro w₁ h₁
  refine rewrites_bind (rewrites_setMode (hwritten 1) (hmode _ (by decide) (by decide)) h₁) ?_
  intro w₂ h₂
  exact rewrites_setMode (hwritten 2) (hmode _ (by decide) (by decide)) h₂

theorem rewrites_handleChan {filename : Bytes} (hwritten : ∀ i t, (ops i).written t = t) :
    Rewrites (touched .chan) file (handleChan ops file plen filename pVal).2 := by
  rw [handleChan, setChannel]
  rcases getConfigValue file (cmdList .hwMode) filename with ⟨tbuf, pcfgval⟩
  cases pcfgval with
  | none => exact .refl _ file
  | some pcfgval =>
    have hmode := @rewrites_changeMode ops file ⟨tbuf, file⟩ pcfgval (atoi pVal) (.refl _ file)
      hwritten
    dsimp only
    cases hw : Work.changeMode ⟨tbuf, file⟩ ops pcfgval (atoi pVal) with
    | error w =>
      rw [hw] at hmode
      exact hmode
    | ok w =>
      rw [hw] at hmode
      refine hmode.write (hwritten 3) (shortName_cmdList .chan) (by decide) ?_
      refine fitsLine_of_length (shortName_cmdList .chan)
        (fun hlf => lf_notMem_decimal _ (List.mem_of_mem_take hlf)) (fun h0 => ?_)
        ((List.length_take_le _ _).trans (by decide))
      exact zero_notMem_decimal _ (List.mem_of_mem_take h0)

theorem rewrites_handleHwMode (hwritten : ∀ i t, (ops i).written t = t) :
    Rewrites (touched .hwMode) file (handleHwMode ops file plen pVal).2 := by
  rw [handleHwMode]
  split_ifs with hmode
  · have hdigit : ∀ d ∈ [ascii "0", ascii "1"], FitsLine (cmdList .ieee80211n).name d := by
      intro d hd
      simp only [List.mem_cons, List.not_mem_nil, or_false] at hd
      rcases hd with rfl | rfl <;> exact ⟨by decide, by decide, by decide⟩
    have hfirst : Rewrites (touched .hwMode) file (writeCfg (ops 2)
        (changeCfg (ops 1) (changeCfg (ops 0) file (cmdList .basicRates) false).2
          (cmdList .requireHt) false).2 (cmdList .ieee80211n) (ascii "0") maxFilePathLen
            false).2.2 := by
      refine .write (.change (.change (.refl _ file) ?_ ?_ ?_) ?_ ?_ ?_) ?_ ?_ ?_ ?_ <;> first
        | exact hwritten _
        | exact shortName_cmdList _
        | exact hdigit _ (by decide)
        | decide
    rw [setOperatingMode]
    dsimp only
    refine .write ?_ (hwritten 5) (shortName_cmdList _) (by decide) ?_
    · have hsecond : ∀ file', Rewrites (touched .hwMode) file file' → Rewrites (touched .hwMode) file
          (if pVal = ascii "g-only" then (changeCfg (ops 3) file' (cmdList .basicRates) true).2
            else if pVal = ascii "n-only" then
              (changeCfg (ops 3) file' (cmdList .requireHt) true).2
            else file') := by
        intro file' h
        split_ifs
        · exact h.change (hwritten 3) (shortName_cmdList _) (by decide)
        · exact h.change (hwritten 3) (shortName_cmdList _) (by decide)
        · exact h
      split_ifs at hsecond ⊢ <;> first
        | exact (hsecond _ hfirst).write (hwritten 4) (shortName_cmdList _) (by decide)
            (hdigit _ (by decide))
        | exact hsecond _ hfirst
    · simp only [hwModes, List.map_cons, List.map_nil, List.mem_cons, List.not_mem_nil,
        or_false] at hmode
      split_ifs
      · exact ⟨by decide, by decide, by decide⟩
      · rcases hmode with rfl | rfl | rfl | rfl | rfl | rfl <;>
          exact ⟨by decide, by decide, by decide⟩
  · exact .refl _ file

theorem rewrites_disableUnlessWep {res : ErrorVal × Handled} (hwritten : ∀ i t, (ops i).written t = t)
    (hkey : (cmdList cmd).name ∈ keys) (h : Rewrites keys file res.2.2) :
    Rewrites keys file (disableUnlessWep ops cmd res).2 := by
  rw [disableUnlessWep]
  dsimp only
  split_ifs
  · exact h.change (hwritten 1) (shortName_cmdList cmd) hkey
  · exact h.change (hwritten 1) (shortName_cmdList cmd) hkey
  · exact h

theorem rewrites_handleDefaultKey (hwritten : ∀ i t, (ops i).written t = t)
    (hval : FitsLine (cmdList .defaultKey).name pVal) :
    Rewrites (touched .defaultKey) file (handleDefaultKey ops file plen pVal).2 := by
  rw [handleDefaultKey]
  split_ifs
  · refine rewrites_disableUnlessWep hwritten (by decide) ?_
    exact .write (.refl _ file) (hwritten 0) (shortName_cmdList _) (by decide) hval.writeBack
  · exact .refl _ file

theorem rewrites_handlePairwise (hwritten : ∀ i t, (ops i).written t = t)
    (hht : (qsapStr .ht80211n).name ∈ keys) (hkey : (cmdList cmd).name ∈ keys)
    (hval : FitsLine (cmdList cmd).name pVal) :
    Rewrites keys file (handlePairwise ops file plen cmd pVal).2 := by
  have hchange : Rewrites keys file
      (changeCfg (ops 0) file (qsapStr .ht80211n) (pVal ≠ ascii "TKIP")).2 :=
    .change (.refl _ file) (hwritten 0) (shortName_qsapStr _) hht
  rw [handlePairwise]
  dsimp only
  split_ifs
  · exact hchange
  · exact hchange.write (hwritten 1) (shortName_cmdList _) hkey hval
  · exact .refl _ file

theorem rewrites_handleIntraBss (hwritten : ∀ i t, (ops i).written t = t) :
    Rewrites (touched .intraBssForward) file (handleIntraBss ops file plen pVal).2 := by
  rw [handleIntraBss]
  split_ifs
  · exact .change (.refl _ file) (hwritten 0) (shortName_cmdList _) (by decide)
  · exact .refl _ file

theorem rewrites_updateWpsConfig (hwritten : ∀ i t, (ops i).written t = t) (status : Bool) :
    Rewrites (touched .wpsState) file (updateWpsConfig ops file plen status).2 := by
  have hstate : FitsLine (cmdList .wpsState).name (ascii (if status then "2" else "0")) := by
    cases status <;> exact ⟨by decide, by decide, by decide⟩
  have hupnp : ∀ p ∈ upnpCmds.map fun c => (cmdList c, status),
      ShortName p.1.name ∧ p.1.name ∈ touched .wpsState := by
    intro p hp
    obtain ⟨c, hc, rfl⟩ := List.mem_map.1 hp
    exact ⟨shortName_cmdList c, List.mem_append_right _ (List.mem_map_of_mem hc)⟩
  rw [updateWpsConfig]
  dsimp only
  generalize ascii (if status then "2" else "0") = state at hstate ⊢
  have henabled : Rewrites (touched .wpsState) file (changeCfg (ops 1)
      (writeCfg (ops 0) file (cmdList .wpsState) state plen false).2.2 (cmdList .wpsState)
        status).2 :=
    .change (.write (.refl _ file) (hwritten 0) (shortName_cmdList _) (by decide) hstate)
      (hwritten 1) (shortName_cmdList _) (by decide)
  split_ifs
  · exact henabled
  all_goals
    refine .changeAll (.write henabled (hwritten 2) (shortName_qsapStr .eapServer) (by decide) ?_)
      hwritten hupnp 3
    exact ⟨by decide, by decide, by decide⟩

theorem rewrites_handleWpsState (hwritten : ∀ i t, (ops i).written t = t) :
    Rewrites (touched .wpsState) file (handleWpsState ops file plen pVal).2 := by
  rw [handleWpsState]
  split_ifs
  · exact rewrites_updateWpsConfig hwritten _
  · exact .refl _ file

theorem rewrites_setWepKey (hwritten : ∀ i t, (ops i).written t = t)
    (hkey : (cmdList cmd).name ∈ keys) (hlf : lf ∉ pVal) (hnul : 0 ∉ pVal) :
    Rewrites keys file (setWepKey ops file cmd pVal plen).2 := by
  rw [setWepKey]
  cases hw : isValidWepKey pVal maxFilePathLen with
  | none => exact .refl _ file
  | some w =>
    have hprinted : Printed cmd (unquote pVal) w := by
      rcases isValidWepKey_eq_some.1 hw with ⟨⟨hlen, -⟩, rfl⟩ | ⟨hhex, rfl⟩
      · exact printed_of_isAscii hlen (notMem_unquote hnul) (notMem_unquote hlf)
      · exact printed_of_isHexKey hhex
    have hlen := hprinted.length_le.trans (Nat.add_le_add_right hprinted.short 2)
    refine rewrites_disableUnlessWep hwritten hkey (.write (.refl _ file) (hwritten 0)
      (shortName_cmdList cmd) hkey ?_)
    exact fitsLine_of_length (shortName_cmdList cmd) hprinted.noLf hprinted.noNul
      (hlen.trans (by decide))

/-- A command with a handler rewrites the lines of its parameters. -/
theorem rewrites_handleConf {env : CmdEnv} (hwritten : ∀ i t, (env.ops i).written t = t)
    (hval : FitsLine (cmdList cmd).name pVal) :
    Rewrites (touched cmd) file (handleConf env cmd pVal plen file).2 := by
  cases cmd with
  | secMode => exact rewrites_handleSecMode hwritten
  | macAcl => exact rewrites_handleMacAcl hwritten hval
  | chan => exact rewrites_handleChan hwritten
  | hwMode => exact rewrites_handleHwMode hwritten
  | defaultKey => exact rewrites_handleDefaultKey hwritten hval
  | wpaPairwise => exact rewrites_handlePairwise hwritten (by decide) (by decide) hval
  | rsnPairwise => exact rewrites_handlePairwise hwritten (by decide) (by decide) hval
  | wepKey0 => exact rewrites_setWepKey hwritten (by decide) hval.noLf hval.noNul
  | wepKey1 => exact rewrites_setWepKey hwritten (by decide) hval.noLf hval.noNul
  | wepKey2 => exact rewrites_setWepKey hwritten (by decide) hval.noLf hval.noNul
  | wepKey3 => exact rewrites_setWepKey hwritten (by decide) hval.noLf hval.noNul
  | intraBssForward => exact rewrites_handleIntraBss hwritten
  | wpsState => exact rewrites_handleWpsState hwritten
  | _ => exact .refl _ file

/-! ### Commands -/

/-- A handler gets the command and its value. -/
theorem val_of_handler {cNum : EsapCmd} (h : switchRequest cNum pVal = .handler cmd val) :
    cmd = cNum ∧ val = pVal := by
  cases cNum <;> first
    | (cases h; exact ⟨rfl, rfl⟩)
    | (simp only [switchRequest, setText, setNumber, setIniNumber] at h; split_ifs at h)
    | cases h

theorem mem_touched_of_write {cNum : EsapCmd} (h : switchRequest cNum pVal = .write cmd val) :
    (cmdList cNum).name ∈ touched cNum := by
  cases cNum <;> first
    | decide
    | cases h

/-- A command on one line that is not too long. -/
structure IsCommand (pcmd : Bytes) : Prop where
  noLf : lf ∉ pcmd
  length_le : pcmd.length ≤ 157

theorem mem_of_mem_dropWhile {α : Type} {p : α → Bool} {l : List α} {a : α}
    (h : a ∈ l.dropWhile p) : a ∈ l := (List.dropWhile_sublist p).subset h

/-- The value of a command fits a line. -/
theorem fitsLine_of_parseSet {pcmd : Bytes} (h : IsCommand pcmd)
    (hparse : parseSet pcmd = some (cmd, pVal)) : FitsLine (cmdList cmd).name pVal := by
  rw [parseSet] at hparse
  dsimp only at hparse
  set text := ((cstr pcmd).drop (ascii "set").length).dropWhile fun c => decide (c = 32) ||
    decide (c = 9) with htext
  have hlen : text.length + 3 ≤ pcmd.length ∨ text = [] := by
    have hdrop : text.length ≤ (cstr pcmd).length - 3 := by
      refine (List.length_dropWhile_le _ _).trans ?_
      rw [List.length_drop]
      exact le_rfl
    have hcstr : (cstr pcmd).length ≤ pcmd.length := (List.takeWhile_sublist _).length_le
    rcases Nat.lt_or_ge (cstr pcmd).length 3 with hshort | hlong
    · exact .inr (List.length_eq_zero_iff.1 (by omega))
    · exact .inl (by omega)
  have hmem : ∀ c ∈ text, c ∈ cstr pcmd := fun c hc =>
    List.mem_of_mem_drop (mem_of_mem_dropWhile hc)
  cases hnum : getCmdNum text with
  | none =>
    rw [hnum] at hparse
    cases hparse
  | some cNum =>
    rw [hnum] at hparse
    dsimp only at hparse
    split_ifs at hparse
    obtain ⟨rfl, rfl⟩ := Prod.mk.inj (Option.some.inj hparse)
    have hsub : ∀ c ∈ (text.drop (cmdList cNum).name.length).tail, c ∈ cstr pcmd := fun c hc =>
      hmem c (List.mem_of_mem_drop (List.mem_of_mem_tail hc))
    refine ⟨fun hlf => ?_, fun h0 => ?_, ?_⟩
    · exact h.noLf ((List.takeWhile_sublist _).subset (hsub lf hlf))
    · exact absurd (List.mem_takeWhile_imp (hsub 0 h0)) (by decide)
    · have hname := length_name_le cNum
      have hpcmd := h.length_le
      have hmax : maxConfLineLen - 1 = 155 := rfl
      rw [List.length_tail, List.length_drop]
      rcases hlen with hlen | hlen
      · omega
      · rw [hlen, List.length_nil]
        omega

/-- A command on `hostapd.conf` rewrites the lines of its parameters. -/
theorem rewrites_setCommand {env : CmdEnv} {files : Files} {pcmd : Bytes} (h : IsCommand pcmd)
    (hwritten : ∀ i t, (env.ops i).written t = t) :
    Rewrites (touchedBy pcmd) files.hostapd (setCommand env files pcmd).2.hostapd := by
  cases hparse : parseSet pcmd with
  | none =>
    rw [setCommand, handleSetRequest, setRequest, hparse]
    exact .refl _ _
  | some p =>
    obtain ⟨cNum, pVal⟩ := p
    have hfits := fitsLine_of_parseSet h hparse
    have hkeys : touchedBy pcmd = touched cNum := by rw [touchedBy, hparse]
    rw [hkeys, setCommand, handleSetRequest]
    cases hreq : setRequest pcmd with
    | invalidArg => exact .refl _ _
    | invalidParam => exact .refl _ _
    | writeIni str val => exact .refl _ _
    | write cmd val =>
      rw [setRequest, hparse] at hreq
      obtain ⟨rfl, rfl⟩ := val_of_write hreq
      have htouched : (cmdList cmd).name ∈ touched cmd := mem_touched_of_write hreq
      refine .write (.refl _ _) (hwritten 0) (shortName_cmdList cmd) htouched ?_
      split_ifs
      · exact hfits.writeBack
      · exact hfits
    | handler cmd val =>
      rw [setRequest, hparse] at hreq
      obtain ⟨rfl, rfl⟩ := val_of_handler hreq
      exact rewrites_handleConf hwritten hfits

end

/-! ### Get commands -/

/-- The parameters that `qsap_get_from_config` reads from `hostapd.conf` as they are, with the
values that are commented out (`GET_COMMENTED_VALUE`) or without them. -/
def plainGet : EsapCmd → Option Bool
  | .wpaPairwise | .rsnPairwise | .defaultKey | .passphrase | .gtkTimeout => some true
  | .ssid | .bssid | .bcnInterval | .dtimPeriod | .hwMode | .authAlgs | .macAcl | .wpsConfigMethod
  | .uuid | .deviceName | .manufacturer | .modelName | .modelNumber | .serialNumber | .deviceType
  | .osVersion | .friendlyName | .manufacturerUrl | .modelDesc | .modelUrl | .upc | .sdkVersion
  | .countryCode | .fragThreshold | .regulatoryDomain | .rtsThreshold | .ieee80211h | .wmmState
  | .intraBssForward => some false
  | _ => none

/-- A response of the form `success <cmd>=<number>`. -/
def numberResponse (plen : ℕ) (cmd : EsapCmd) (value : ℤ) : Bytes :=
  scnprintf plen (success ++ ascii " " ++ (cmdList cmd).name ++ [equals] ++ decimal value)

/-- `qsap_read_wps_state`. -/
def readWpsState (file : Option Bytes) (presp : Bytes) : Bytes :=
  let status := match getConfigValue file (cmdList .wpsState) presp with
    | (presp, some pstate) => if atoi (strAt presp pstate) = 2 then 1 else 0
    | (_, none) => 0
  numberResponse presp.length .wpsState status

/-- `qsap_read_autoshutoff`: minutes for seconds, as a number of 32 bits. -/
def readAutoshutoff (file : Option Bytes) (presp : Bytes) : Bytes :=
  let time := match getConfigValue file (qsapStr .apAutoshutoff) presp with
    | (presp, some ptime) => atoi (strAt presp ptime) % 2 ^ 32 / 60
    | (_, none) => 0
  numberResponse presp.length .apAutoshutoff time

/-- A parameter that is read from the ini file under another name. -/
def readIni (files : Files) (str : EsapStr) (cmd : EsapCmd) (plen : ℕ) : Bytes :=
  (readCfg files.ini (qsapStr str) plen (some (cmdList cmd).name) false).2

/-- The loop at the end of `qsap_get_from_config`: blanks at the end of the response are cut off,
but the first character stays. -/
def trimBlanks : Bytes → Bytes
  | [] => []
  | c :: presp => c :: presp.rdropWhile fun c => c = 32 || c = 9

/-- `qsap_get_from_config`, with the response buffer.  The commands that ask the driver or read the
lists of addresses are given by `other`. -/
def getFromConfig (other : EsapCmd → Files → Bytes → Bytes) (files : Files) (cNum : EsapCmd)
    (presp : Bytes) : Bytes :=
  trimBlanks <|
    match plainGet cNum with
    | some ignoreComment =>
      (readCfg files.hostapd (cmdList cNum) presp.length none ignoreComment).2
    | none =>
      match cNum with
      | .wepKey0 | .wepKey1 | .wepKey2 | .wepKey3 =>
        readWepKey files.hostapd (cmdList cNum) presp.length
      | .secMode => (readSecurityMode files.hostapd presp.length).2
      | .wpsState => readWpsState files.hostapd presp
      | .protectionFlag => readIni files .protFlagInIni cNum presp.length
      | .dataRates => readIni files .dataRateInIni cNum presp.length
      | .txPower => readIni files .txPowerInIni cNum presp.length
      | .apEnergyDetectTh => readIni files .apEnergyDetectTh cNum presp.length
      | .apAutoshutoff => readAutoshutoff files.ini presp
      | .enableSoftap | .chan | .allowList | .denyList | .macAddr | .assocStaMacs | .apStatistics
      | .getAutoChannel => other cNum files presp
      | _ => scnprintf presp.length errInvalidArg

/-- `qsap_handle_get_request`; `pcmd` is the command from `get` on. -/
def getRequest (other : EsapCmd → Files → Bytes → Bytes) (files : Files) (pcmd presp : Bytes) :
    Bytes :=
  let pcmd := ((cstr pcmd).drop (ascii "get").length).dropWhile fun c => c = 32 || c = 9
  match getCmdNum pcmd with
  | none => scnprintf presp.length errInvalidParam
  | some cNum => getFromConfig other files cNum presp

/-! ### Sessions -/

/-- A sequence of set commands. -/
def session (cmds : List (CmdEnv × Bytes)) (files : Files) : Files :=
  cmds.foldl (fun files c => (setCommand c.1 files c.2).2) files

section

variable {files : Files} {cmds : List (CmdEnv × Bytes)}

theorem rewrites_session (hcmd : ∀ c ∈ cmds, IsCommand c.2)
    (hwritten : ∀ c ∈ cmds, ∀ i t, (c.1.ops i).written t = t) :
    Rewrites (cmds.flatMap fun c => touchedBy c.2) files.hostapd (session cmds files).hostapd := by
  induction cmds generalizing files with
  | nil => exact .refl _ _
  | cons c cmds ih =>
    rw [List.forall_mem_cons] at hcmd hwritten
    rw [List.flatMap_cons]
    exact ((rewrites_setCommand hcmd.1 hwritten.1).mono (List.subset_append_left _ _)).trans
      ((ih hcmd.2 hwritten.2).mono (List.subset_append_right _ _))

/-- A value that has been written stays with the file, whatever comes after it. -/
theorem readCfg_session {cmd : Command} {val : Bytes} {s : Conf}
    (hfile : Holds files.hostapd (some (s.set cmd.name (trimEol (cmd.name ++ [equals] ++ val)))))
    (hname : ShortName cmd.name) (hcmd : ∀ c ∈ cmds, IsCommand c.2)
    (hwritten : ∀ c ∈ cmds, ∀ i t, (c.1.ops i).written t = t)
    (hother : ∀ c ∈ cmds, cmd.name ∉ touchedBy c.2) (plen : ℕ) (ignoreComment : Bool) :
    (session cmds files).hostapd = none ∨
      readCfg (session cmds files).hostapd cmd plen none ignoreComment =
        (.success, scnprintf plen
          (success ++ ascii " " ++ trimEol (cmd.name ++ [equals] ++ val))) := by
  have hnot : cmd.name ∉ cmds.flatMap fun c => touchedBy c.2 := fun hmem => by
    obtain ⟨c, hc, hkey⟩ := List.mem_flatMap.1 hmem
    exact hother c hc hkey
  refine ((rewrites_session hcmd hwritten).holds hfile hnot).imp_right ?_
  rintro ⟨s', hs', hsame⟩
  rw [hs'.readCfg hname, respond, Conf.read, hsame, Conf.set, Function.update_self,
    List.find?_cons, Bool.true_or, Option.map_some, readResponse, trimEol_trimEol]

/-- The file after a parameter has been written with success, if it is still there. -/
theorem holds_write {ops : FileOps} {text val : Bytes} {s : Conf} {cmd : Command} {plen : ℕ}
    (h : Holds (some text) (some s)) (hname : ShortName cmd.name) (hval : FitsLine cmd.name val)
    (hwritten : ∀ t, ops.written t = t)
    (hok : (writeCfg ops (some text) cmd val plen false).2.1 = success) :
    (writeCfg ops (some text) cmd val plen false).2.2 = none ∨
      Holds (writeCfg ops (some text) cmd val plen false).2.2
        (some (s.set cmd.name (trimEol (cmd.name ++ [equals] ++ val)))) := by
  have hfail : ∀ response : Bytes, response.head? = some 102 → scnprintf plen response ≠ success := by
    intro response hhead heq
    have hsame := congrArg List.head? heq
    rw [scnprintf, List.head?_take] at hsame
    split_ifs at hsame
    · cases hsame
    · rw [hhead] at hsame
      exact absurd hsame (by decide)
  have hset := holds_writeText h hname hval
  simp only [writeCfg, hwritten] at hok ⊢
  by_cases hopen : (ops.openRead && ops.openTmp) = true
  · by_cases hmode : (ops.chmod && ops.chown) = true
    · by_cases hrename : ops.rename = true
      · simp only [hopen, hmode, hrename, if_true]
        exact .inr hset
      · simp only [hopen, hmode, hrename, if_true, Bool.false_eq_true, if_false] at hok
        exact absurd hok (hfail _ (by decide))
    · simp only [hopen, hmode, if_true, Bool.false_eq_true, if_false]
      exact .inl trivial
  · simp only [hopen, Bool.false_eq_true, if_false] at hok
    exact absurd hok (hfail _ (by decide))

/-- An environment in which everything succeeds. -/
def okEnv : CmdEnv := ⟨fun _ => okOps, List.replicate maxFilePathLen 0, 64⟩

end

end Softap

end Msm8909w
