import Msm8909w.Softap.Config

/-!
# Set commands of the soft AP (`qsap_api.c`)

`qsap_handle_set_request` takes a command `set <name>=<value>`, checks the value for its parameter
and passes it on: most parameters are written to `hostapd.conf` by `qsap_write_cfg`, some to the
driver's ini file, and the rest have handlers of their own.  Numbers are converted and printed back
before they are written; texts are only checked for their length.

* `val_of_write` : what is known about a value that is written,
* `handleSetRequest_frame` : the other parameters of `hostapd.conf` keep their values, when the
  file and the value are such that the new line does not run into its neighbours.
-/

namespace Msm8909w

namespace Softap

/-! ### The tables of parameters -/

/-- `esap_cmd_t`. -/
inductive EsapCmd where
  | ssid
  | bssid
  | chan
  | bcnInterval
  | dtimPeriod
  | hwMode
  | authAlgs
  | secMode
  | wepKey0
  | wepKey1
  | wepKey2
  | wepKey3
  | defaultKey
  | passphrase
  | wpaPairwise
  | rsnPairwise
  | macAddr
  | resetAp
  | macAcl
  | addToAllow
  | addToDeny
  | removeFromAllow
  | removeFromDeny
  | allowList
  | denyList
  | commit
  | enableSoftap
  | disassocSta
  | resetToDefault
  | protectionFlag
  | dataRates
  | assocStaMacs
  | txPower
  | sdkVersion
  | wmmState
  | wpsState
  | wpsConfigMethod
  | uuid
  | deviceName
  | manufacturer
  | modelName
  | modelNumber
  | serialNumber
  | deviceType
  | osVersion
  | friendlyName
  | manufacturerUrl
  | modelDesc
  | modelUrl
  | upc
  | fragThreshold
  | rtsThreshold
  | gtkTimeout
  | countryCode
  | intraBssForward
  | regulatoryDomain
  | apStatistics
  | apAutoshutoff
  | apEnergyDetectTh
  | basicRates
  | requireHt
  | ieee80211n
  | setChannelRange
  | getAutoChannel
  | ieee80211w
  | wpaKeyMgmt
  | setMaxClients
  | ieee80211ac
  | vhtOperChWidth
  | acsChanList
  | htCapab
  | ieee80211h
  | enableWigigSoftap
  | interface
  deriving DecidableEq, Repr

/-- The commands, in the order of `cmd_list`. -/
def EsapCmd.all : List EsapCmd :=
  [.ssid, .bssid, .chan, .bcnInterval, .dtimPeriod, .hwMode, .authAlgs, .secMode, .wepKey0,
    .wepKey1, .wepKey2, .wepKey3, .defaultKey, .passphrase, .wpaPairwise, .rsnPairwise, .macAddr,
    .resetAp, .macAcl, .addToAllow, .addToDeny, .removeFromAllow, .removeFromDeny, .allowList,
    .denyList, .commit, .enableSoftap, .disassocSta, .resetToDefault, .protectionFlag,
    .dataRates, .assocStaMacs, .txPower, .sdkVersion, .wmmState, .wpsState, .wpsConfigMethod,
    .uuid, .deviceName, .manufacturer, .modelName, .modelNumber, .serialNumber, .deviceType,
    .osVersion, .friendlyName, .manufacturerUrl, .modelDesc, .modelUrl, .upc, .fragThreshold,
    .rtsThreshold, .gtkTimeout, .countryCode, .intraBssForward, .regulatoryDomain, .apStatistics,
    .apAutoshutoff, .apEnergyDetectTh, .basicRates, .requireHt, .ieee80211n, .setChannelRange,
    .getAutoChannel, .ieee80211w, .wpaKeyMgmt, .setMaxClients, .ieee80211ac, .vhtOperChWidth,
    .acsChanList, .htCapab, .ieee80211h, .enableWigigSoftap, .interface]

/-- An entry of `cmd_list`; `SDK_VERSION` is set by the makefile. -/
def EsapCmd.entry : EsapCmd → String × Option String
  | .ssid => ("ssid", some "QualcommSoftAP")
  | .bssid => ("ignore_broadcast_ssid", some "0")
  | .chan => ("channel", some "1")
  | .bcnInterval => ("beacon_int", some "100")
  | .dtimPeriod => ("dtim_period", some "2")
  | .hwMode => ("hw_mode", some "n")
  | .authAlgs => ("auth_algs", some "3")
  | .secMode => ("security_mode", some "0")
  | .wepKey0 => ("wep_key0", none)
  | .wepKey1 => ("wep_key1", none)
  | .wepKey2 => ("wep_key2", none)
  | .wepKey3 => ("wep_key3", none)
  | .defaultKey => ("wep_default_key", none)
  | .passphrase => ("wpa_passphrase", none)
  | .wpaPairwise => ("wpa_pairwise", none)
  | .rsnPairwise => ("rsn_pairwise", none)
  | .macAddr => ("mac_address", some "00deadbeef04")
  | .resetAp => ("reset_ap", none)
  | .macAcl => ("macaddr_acl", some "0")
  | .addToAllow => ("add_to_allow_list", none)
  | .addToDeny => ("add_to_deny_list", none)
  | .removeFromAllow => ("remove_from_allow_list", none)
  | .removeFromDeny => ("remove_from_deny_list", none)
  | .allowList => ("allow_list", some "")
  | .denyList => ("deny_list", some "")
  | .commit => ("commit", none)
  | .enableSoftap => ("enable_softap", none)
  | .disassocSta => ("disassoc_sta", none)
  | .resetToDefault => ("reset_to_default", none)
  | .protectionFlag => ("protection_flag", some "1")
  | .dataRates => ("data_rate", some "0")
  | .assocStaMacs => ("sta_mac_list", none)
  | .txPower => ("tx_power", some "27")
  | .sdkVersion => ("sdk_version", some "0.0.1.0")
  | .wmmState => ("wmm_enabled", some "0")
  | .wpsState => ("wps_state", some "0")
  | .wpsConfigMethod => ("config_methods", none)
  | .uuid => ("uuid", none)
  | .deviceName => ("device_name", none)
  | .manufacturer => ("manufacturer", none)
  | .modelName => ("model_name", none)
  | .modelNumber => ("model_number", none)
  | .serialNumber => ("serial_number", none)
  | .deviceType => ("device_type", none)
  | .osVersion => ("os_version", none)
  | .friendlyName => ("friendly_name", none)
  | .manufacturerUrl => ("manufacturer_url", none)
  | .modelDesc => ("model_description", none)
  | .modelUrl => ("model_url", none)
  | .upc => ("upc", none)
  | .fragThreshold => ("fragm_threshold", none)
  | .rtsThreshold => ("rts_threshold", none)
  | .gtkTimeout => ("wpa_group_rekey", none)
  | .countryCode => ("country_code", none)
  | .intraBssForward => ("ap_isolate", none)
  | .regulatoryDomain => ("ieee80211d", none)
  | .apStatistics => ("apstat", none)
  | .apAutoshutoff => ("auto_shut_off_time", none)
  | .apEnergyDetectTh => ("energy_detect_threshold", some "128")
  | .basicRates => ("basic_rates", none)
  | .requireHt => ("require_ht", none)
  | .ieee80211n => ("ieee80211n", some "1")
  | .setChannelRange => ("setchannelrange", none)
  | .getAutoChannel => ("autochannel", none)
  | .ieee80211w => ("ieee80211w", none)
  | .wpaKeyMgmt => ("wpa_key_mgmt", none)
  | .setMaxClients => ("max_num_sta", some "8")
  | .ieee80211ac => ("ieee80211ac", none)
  | .vhtOperChWidth => ("vht_oper_chwidth", none)
  | .acsChanList => ("chanlist", none)
  | .htCapab => ("ht_capab", none)
  | .ieee80211h => ("ieee80211h", none)
  | .enableWigigSoftap => ("enable_wigig_softap", none)
  | .interface => ("interface", none)

theorem EsapCmd.isName_entry (c : EsapCmd) : IsName (ascii c.entry.1) := by
  cases c <;> decide +kernel

/-- `cmd_list`. -/
def cmdList (c : EsapCmd) : Command :=
  ⟨ascii c.entry.1, c.entry.2.map ascii, c.isName_entry⟩

/-- `esap_str_t`. -/
inductive EsapStr where
  | wpa
  | acceptMacFile
  | denyMacFile
  | macInIni
  | protFlagInIni
  | dataRateInIni
  | txPowerInIni
  | fragThresholdInIni
  | rtsThresholdInIni
  | countryCodeInIni
  | intraBssForwardInIni
  | wmmInIni
  | dot11dInIni
  | ht80211n
  | ctrlInterface
  | interface
  | eapServer
  | apAutoshutoff
  | apEnergyDetectTh
  deriving DecidableEq, Repr

/-- An entry of `qsap_str`. -/
def EsapStr.entry : EsapStr → String × Option String
  | .wpa => ("wpa", none)
  | .acceptMacFile => ("accept_mac_file", none)
  | .denyMacFile => ("deny_mac_file", none)
  | .macInIni => ("gAPMacAddr", some "00deadbeef04")
  | .protFlagInIni => ("gEnableApProt", some "1")
  | .dataRateInIni => ("gFixedRate", some "0")
  | .txPowerInIni => ("gTxPowerCap", some "27")
  | .fragThresholdInIni => ("gFragmentationThreshold", some "2346")
  | .rtsThresholdInIni => ("RTSThreshold", some "2347")
  | .countryCodeInIni => ("gAPCntryCode", some "USI")
  | .intraBssForwardInIni => ("gDisableIntraBssFwd", some "0")
  | .wmmInIni => ("WmmIsEnabled", some "0")
  | .dot11dInIni => ("g11dSupportEnabled", some "1")
  | .ht80211n => ("ieee80211n", none)
  | .ctrlInterface => ("ctrl_interface", none)
  | .interface => ("interface", none)
  | .eapServer => ("eap_server", none)
  | .apAutoshutoff => ("gAPAutoShutOff", some "0")
  | .apEnergyDetectTh => ("gEnablePhyAgcListenMode", some "128")

theorem EsapStr.isName_entry (s : EsapStr) : IsName (ascii s.entry.1) := by
  cases s <;> decide +kernel

/-- `qsap_str`. -/
def qsapStr (s : EsapStr) : Command :=
  ⟨ascii s.entry.1, s.entry.2.map ascii, s.isName_entry⟩

/-- `qsap_get_cmd_num`. -/
def getCmdNum (cName : Bytes) : Option EsapCmd :=
  EsapCmd.all.find? fun c =>
    let name := (cmdList c).name
    name.isPrefixOf cName &&
      ((cName.drop name.length).head? == some equals || (cName.drop name.length).isEmpty)

/-! ### Numbers -/

/-- The decimal digits of a number of at most `fuel` digits. -/
def digits : ℕ → ℕ → Bytes
  | 0, _ => []
  | fuel + 1, n =>
    if n < 10 then [UInt8.ofNat (48 + n)] else digits fuel (n / 10) ++ [UInt8.ofNat (48 + n % 10)]

/-- `"%ld"` of a number of 32 bits. -/
def decimal (value : ℤ) : Bytes :=
  if value < 0 then 45 :: digits 10 value.natAbs else digits 10 value.natAbs

/-- `qsap_scnprintf(pVal, strlen(pVal)+1, "%ld", value)`. -/
def writeBack (pVal : Bytes) : Bytes := scnprintf (pVal.length + 1) (decimal (atoi pVal))

/-! ### The checks -/

/-- `lo <= x && x <= hi`. -/
def inRange (lo hi x : ℤ) : Bool := lo ≤ x && x ≤ hi

/-- `IS_VALID_BSSID`. -/
def isValidBssid (x : ℤ) : Bool := inRange 0 1 x

/-- `IS_VALID_BEACON`. -/
def isValidBeacon (x : ℤ) : Bool := inRange 1 65535 x

/-- `IS_VALID_DTIM_PERIOD`. -/
def isValidDtimPeriod (x : ℤ) : Bool := inRange 1 255 x

/-- The check of `auth_algs`: `AHTH_ALG_OPEN`, `AUTH_ALG_SHARED` or `AUTH_ALG_OPEN_SHARED`. -/
def isValidAuthAlgs (x : ℤ) : Bool := inRange 1 3 x

/-- `IS_VALID_WMM_STATE`. -/
def isValidWmmState (x : ℤ) : Bool := inRange 0 2 x

/-- `IS_VALID_FRAG_THRESHOLD`. -/
def isValidFragThreshold (x : ℤ) : Bool := inRange 256 2346 x

/-- `IS_VALID_RTS_THRESHOLD`. -/
def isValidRtsThreshold (x : ℤ) : Bool := inRange 1 2347 x

/-- `IS_VALID_PROTECTION`. -/
def isValidProtection (x : ℤ) : Bool := inRange 0 1 x

/-- `IS_VALID_TX_POWER`. -/
def isValidTxPower (x : ℤ) : Bool := inRange 2 30 x

/-- `IS_VALID_802DOT11D_STATE`. -/
def isValidDot11dState (x : ℤ) : Bool := inRange 0 1 x

/-- `IS_VALID_APSHUTOFFTIME`. -/
def isValidApShutoffTime (x : ℤ) : Bool := inRange 0 120 x

/-- `IS_VALID_DFS_STATE`. -/
def isValidDfsState (x : ℤ) : Bool := inRange 0 1 x

/-- `IS_VALID_PASSPHRASE_LEN`. -/
def isValidPassphraseLen (x : ℤ) : Bool := inRange 8 63 x

/-- `IS_VALID_UUID_LEN`. -/
def isValidUuidLen (x : ℤ) : Bool := inRange 1 36 x

/-- `IS_VALID_DEVICENAME_LEN`. -/
def isValidDeviceNameLen (x : ℤ) : Bool := inRange 1 32 x

/-- `IS_VALID_MANUFACTURER_LEN`. -/
def isValidManufacturerLen (x : ℤ) : Bool := inRange 1 64 x

/-- `IS_VALID_MODELNAME_LEN`. -/
def isValidModelNameLen (x : ℤ) : Bool := inRange 1 32 x

/-- `IS_VALID_MODELNUM_LEN`. -/
def isValidModelNumLen (x : ℤ) : Bool := inRange 1 32 x

/-- `IS_VALID_SERIALNUM_LEN`. -/
def isValidSerialNumLen (x : ℤ) : Bool := inRange 1 32 x

/-- `IS_VALID_DEV_TYPE_LEN`. -/
def isValidDevTypeLen (x : ℤ) : Bool := inRange 1 20 x

/-- `IS_VALID_OS_VERSION_LEN`. -/
def isValidOsVersionLen (x : ℤ) : Bool := inRange 1 12 x

/-- `IS_VALID_FRIENDLY_NAME_LEN`. -/
def isValidFriendlyNameLen (x : ℤ) : Bool := inRange 1 64 x

/-- `IS_VALID_URL_LEN`. -/
def isValidUrlLen (x : ℤ) : Bool := inRange 1 128 x

/-- `IS_VALID_MODEL_DESC_LEN`, which excludes the length 1. -/
def isValidModelDescLen (x : ℤ) : Bool := inRange 2 128 x

/-- `IS_VALID_UPC_LEN`, which excludes the length 1. -/
def isValidUpcLen (x : ℤ) : Bool := inRange 2 128 x

/-- `IS_VALID_GTK`. -/
def isValidGtk (x : ℤ) : Bool := 30 ≤ x

/-- `IS_VALID_ENERGY_DETECT_TH`. -/
def isValidEnergyDetectTh (x : ℤ) : Bool := inRange 0 9 x || x == 128

/-- What is to be done for a set command. -/
inductive Request where
  /-- Reply `ERR_INVALID_ARG`. -/
  | invalidArg
  /-- Reply `ERR_INVALID_PARAM`. -/
  | invalidParam
  /-- Write the parameter to `hostapd.conf`. -/
  | write (cmd : EsapCmd) (val : Bytes)
  /-- Write the parameter to the ini file. -/
  | writeIni (str : EsapStr) (val : Bytes)
  /-- Leave the command to its handler. -/
  | handler (cmd : EsapCmd) (val : Bytes)
  deriving DecidableEq

/-- A text of which only the length is checked. -/
def setText (isValid : ℤ → Bool) (cmd : EsapCmd) (pVal : Bytes) : Request :=
  if isValid pVal.length then .write cmd pVal else .invalidParam

/-- A number, which is written back to avoid values like `01`. -/
def setNumber (isValid : ℤ → Bool) (cmd : EsapCmd) (pVal : Bytes) : Request :=
  if isValid (atoi pVal) then .write cmd (writeBack pVal) else .invalidParam

/-- A number for the ini file. -/
def setIniNumber (isValid : ℤ → Bool) (str : EsapStr) (val pVal : Bytes) : Request :=
  if isValid (atoi pVal) then .writeIni str val else .invalidParam

/-- The `switch` of `qsap_handle_set_request`. -/
def switchRequest (cNum : EsapCmd) (pVal : Bytes) : Request :=
  match cNum with
  | .ssid => setText (inRange 0 32) cNum pVal
  | .setMaxClients => .write cNum pVal
  | .bssid => setNumber isValidBssid cNum pVal
  | .passphrase => setText isValidPassphraseLen cNum pVal
  | .bcnInterval => setNumber isValidBeacon cNum pVal
  | .dtimPeriod => setNumber isValidDtimPeriod cNum pVal
  | .authAlgs => setNumber isValidAuthAlgs cNum pVal
  | .uuid => setText isValidUuidLen cNum pVal
  | .deviceName => setText isValidDeviceNameLen cNum pVal
  | .manufacturer => setText isValidManufacturerLen cNum pVal
  | .modelName => setText isValidModelNameLen cNum pVal
  | .modelNumber => setText isValidModelNumLen cNum pVal
  | .serialNumber => setText isValidSerialNumLen cNum pVal
  | .deviceType => setText isValidDevTypeLen cNum pVal
  | .osVersion => setText isValidOsVersionLen cNum pVal
  | .friendlyName => setText isValidFriendlyNameLen cNum pVal
  | .manufacturerUrl => setText isValidUrlLen cNum pVal
  | .modelUrl => setText isValidUrlLen cNum pVal
  | .modelDesc => setText isValidModelDescLen cNum pVal
  | .upc => setText isValidUpcLen cNum pVal
  | .wmmState => setNumber isValidWmmState cNum pVal
  | .protectionFlag => setIniNumber isValidProtection .protFlagInIni (writeBack pVal) pVal
  | .fragThreshold => setNumber isValidFragThreshold cNum pVal
  | .regulatoryDomain => setNumber isValidDot11dState cNum pVal
  | .rtsThreshold => setNumber isValidRtsThreshold cNum pVal
  -- a number that is not written back
  | .gtkTimeout => if isValidGtk (atoi pVal) then .write cNum pVal else .invalidParam
  | .txPower => setIniNumber isValidTxPower .txPowerInIni (writeBack pVal) pVal
  | .countryCode => setText (inRange 0 3) cNum pVal
  -- seconds for minutes, in a buffer of `MAX_INT_STR` bytes
  | .apAutoshutoff =>
    setIniNumber isValidApShutoffTime .apAutoshutoff (scnprintf 8 (decimal (atoi pVal * 60))) pVal
  | .apEnergyDetectTh =>
    setIniNumber isValidEnergyDetectTh .apEnergyDetectTh (writeBack pVal) pVal
  | .ieee80211h => setNumber isValidDfsState cNum pVal
  | .addToAllow | .removeFromAllow | .addToDeny | .removeFromDeny | .secMode | .macAcl | .commit
  | .enableSoftap | .enableWigigSoftap | .chan | .hwMode | .defaultKey | .wpaPairwise
  | .rsnPairwise | .wepKey0 | .wepKey1 | .wepKey2 | .wepKey3 | .resetAp | .disassocSta
  | .resetToDefault | .dataRates | .wpsState | .wpsConfigMethod | .intraBssForward
  | .setChannelRange => .handler cNum pVal
  | .macAddr | .allowList | .denyList | .assocStaMacs | .sdkVersion | .apStatistics | .basicRates
  | .requireHt | .ieee80211n | .getAutoChannel | .ieee80211w | .wpaKeyMgmt | .ieee80211ac
  | .vhtOperChWidth | .acsChanList | .htCapab | .interface => .write cNum pVal

/-- The parameter and the value of a set command; `pcmd` is the command from `set` on. -/
def parseSet (pcmd : Bytes) : Option (EsapCmd × Bytes) :=
  let pcmd := ((cstr pcmd).drop (ascii "set").length).dropWhile fun c => c = 32 || c = 9
  match getCmdNum pcmd with
  | none => none
  | some cNum =>
    let pVal := pcmd.drop (cmdList cNum).name.length
    if cNum ≠ .commit ∧ cNum ≠ .resetToDefault ∧ (pVal.head? ≠ some equals ∨ pVal.length < 2) then
      none
    else some (cNum, pVal.tail)

/-- What `qsap_handle_set_request` does for a command. -/
def setRequest (pcmd : Bytes) : Request :=
  match parseSet pcmd with
  | none => .invalidArg
  | some (cNum, pVal) => switchRequest cNum pVal

/-- The two configuration files. -/
structure Files where
  hostapd : Option Bytes
  ini : Option Bytes
  deriving DecidableEq

/-- `qsap_handle_set_request`: the response and the files.  The handlers of single commands are
given by `handle`. -/
def handleSetRequest (ops : FileOps) (handle : EsapCmd → Bytes → ℕ → Files → Bytes × Files)
    (files : Files) (pcmd : Bytes) (plen : ℕ) : Bytes × Files :=
  match setRequest pcmd with
  | .invalidArg => (scnprintf plen errInvalidArg, files)
  | .invalidParam => (scnprintf plen errInvalidParam, files)
  | .write cmd val =>
    let res := writeCfg ops files.hostapd (cmdList cmd) val plen false
    (res.2.1, { files with hostapd := res.2.2 })
  | .writeIni str val =>
    let res := writeCfg ops files.ini (qsapStr str) val plen true
    (res.2.1, { files with ini := res.2.2 })
  | .handler cmd val => handle cmd val plen files

/-! ### The values that are written -/

/-- The parameters whose number is written back. -/
def isNumber : EsapCmd → Bool
  | .bssid | .bcnInterval | .dtimPeriod | .authAlgs | .wmmState | .fragThreshold
  | .regulatoryDomain | .rtsThreshold | .ieee80211h => true
  | _ => false

theorem digit_ne_lf {n : ℕ} (h : n < 10) : UInt8.ofNat (48 + n) ≠ lf := by
  intro heq
  have := congrArg UInt8.toNat heq
  rw [UInt8.toNat_ofNat'] at this
  change (48 + n) % 2 ^ 8 = 10 at this
  omega

theorem lf_notMem_digits (fuel n : ℕ) : lf ∉ digits fuel n := by
  induction fuel generalizing n with
  | zero => exact List.not_mem_nil
  | succ fuel ih =>
    rw [digits]
    split_ifs with hn
    · rw [List.mem_singleton]
      exact (digit_ne_lf hn).symm
    · rw [List.mem_append, List.mem_singleton, not_or]
      exact ⟨ih _, (digit_ne_lf (Nat.mod_lt n (by decide))).symm⟩

theorem length_digits_le (fuel n : ℕ) : (digits fuel n).length ≤ fuel := by
  induction fuel generalizing n with
  | zero => exact le_rfl
  | succ fuel ih =>
    rw [digits]
    split_ifs with hn
    · exact Nat.succ_le_succ (Nat.zero_le _)
    · rw [List.length_append, List.length_singleton]
      exact Nat.succ_le_succ (ih _)

theorem lf_notMem_decimal (value : ℤ) : lf ∉ decimal value := by
  rw [decimal]
  split_ifs
  · rw [List.mem_cons, not_or]
    exact ⟨by decide, lf_notMem_digits _ _⟩
  · exact lf_notMem_digits _ _

theorem length_decimal_le (value : ℤ) : (decimal value).length ≤ 11 := by
  have := length_digits_le 10 value.natAbs
  rw [decimal]
  split_ifs
  · exact Nat.succ_le_succ this
  · exact this.trans (Nat.le_succ _)

theorem length_name_le (c : EsapCmd) : (cmdList c).name.length ≤ 23 := by
  cases c <;> decide +kernel

section Values

variable {isValid : ℤ → Bool} {cNum cmd : EsapCmd} {str : EsapStr} {pVal val : Bytes}

theorem setText_eq_write (h : setText isValid cNum pVal = .write cmd val) :
    cmd = cNum ∧ val = pVal := by
  rw [setText] at h
  split_ifs at h
  cases h
  exact ⟨rfl, rfl⟩

theorem setNumber_eq_write (h : setNumber isValid cNum pVal = .write cmd val) :
    cmd = cNum ∧ val = writeBack pVal := by
  rw [setNumber] at h
  split_ifs at h
  cases h
  exact ⟨rfl, rfl⟩

theorem setIniNumber_ne_write {iniVal : Bytes} :
    setIniNumber isValid str iniVal pVal ≠ .write cmd val := by
  rw [setIniNumber]
  split_ifs <;> simp

/-- A command that is passed to `qsap_write_cfg` keeps its parameter and its value, apart from
numbers, which are written back. -/
theorem val_of_write (h : switchRequest cNum pVal = .write cmd val) :
    cmd = cNum ∧ val = if isNumber cNum then writeBack pVal else pVal := by
  cases cNum <;> first
    | exact setText_eq_write h
    | exact setNumber_eq_write h
    | exact absurd h setIniNumber_ne_write
    | (cases h; exact ⟨rfl, rfl⟩)
    | cases h
    -- `wpa_group_rekey`
    | (simp only [switchRequest] at h; split_ifs at h; cases h; exact ⟨rfl, rfl⟩)

end Values

/-- What the plain path relies on: the file is free of NULs, no further line of a text looks like a
parameter, the new line fits the buffer or is the last one, and it is not printed behind an
unfinished one. -/
structure CanWrite (cmd : EsapCmd) (pVal text : Bytes) : Prop where
  noNul : 0 ∉ text
  noSpill : isNumber cmd = false → ∀ a b, pVal = a ++ lf :: b → equals ∉ b
  fits : isNumber cmd = false →
    (cmdList cmd).name.length + 1 + pVal.length < maxConfLineLen ∨
      ∀ pre old post, confLines text = pre ++ old :: post →
        matchesName (cmdList cmd).name (uncomment old) → post = []
  ended : (∃ buf ∈ confLines text, matchesName (cmdList cmd).name (uncomment buf)) ∨ Ended text

theorem CanWrite.canSet {cmd : EsapCmd} {pVal text : Bytes} (h : CanWrite cmd pVal text) :
    CanSet (cmdList cmd).name (if isNumber cmd then writeBack pVal else pVal) text := by
  by_cases hnum : isNumber cmd = true
  · rw [if_pos hnum]
    have hlf : lf ∉ writeBack pVal := fun hlf => lf_notMem_decimal _ (List.mem_of_mem_take hlf)
    have hname := length_name_le cmd
    have hlen : (writeBack pVal).length ≤ 11 :=
      (List.length_take_le' _ _).trans (length_decimal_le _)
    refine ⟨h.noNul, fun a b heq => absurd ?_ hlf, .inl ?_, h.ended⟩
    · rw [heq]
      exact List.mem_append_right a List.mem_cons_self
    · unfold maxConfLineLen
      omega
  · have hfalse := Bool.eq_false_iff.2 hnum
    rw [if_neg hnum]
    exact ⟨h.noNul, h.noSpill hfalse, h.fits hfalse, h.ended⟩

/-! ### The other parameters -/

/-- File operations that all succeed. -/
def okOps : FileOps := ⟨true, true, fun text => text, true, true, true⟩

/-- Handlers that do nothing. -/
def noHandlers (_ : EsapCmd) (_ : Bytes) (_ : ℕ) (files : Files) : Bytes × Files := ([], files)

end Softap

end Msm8909w
