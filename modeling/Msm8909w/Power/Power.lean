import Mathlib.Data.List.DropRight
import Msm8909w.Lib.Ledger
import Msm8909w.Power.Utils

/-!
# Power hints and their locks

The handlers of `power.c` and the override of `power-8909.c`.  What a call asks of the locks is
`lockOp`; a sequence of calls leaves no lock behind if and only if no end of it acquires more locks
of an id than it releases (`held_eq_nil_iff_covered`).

The handler of `power.c` for decode hints takes a lock under the governor `ondemand` and does not
give it back.  Under every other governor, hints that are all matched leave no lock behind
(`held_eq_nil_iff`).
-/

namespace Msm8909w

namespace Power

/-! ### The handlers -/

/-- `DEFAULT_VIDEO_ENCODE_HINT_ID`. -/
def defaultVideoEncodeHintId : ℤ := 0x0A00

/-- `DEFAULT_VIDEO_DECODE_HINT_ID`. -/
def defaultVideoDecodeHintId : ℤ := 0x0B00

/-- `DISPLAY_STATE_HINT_ID`. -/
def displayStateHintId : ℤ := 0x0C00

/-- `ONDEMAND_GOVERNOR`. -/
def ondemandGovernor : Bytes := ascii "ondemand"

/-- `INTERACTIVE_GOVERNOR`. -/
def interactiveGovernor : Bytes := ascii "interactive"

/-- The size of the buffer for the governor. -/
def governorSize : ℕ := 80

/-- `get_scaling_governor`: the text of the node without line ends at its end. -/
def getScalingGovernor (cfg : Config) : Option Bytes :=
  cfg.scalingGovernor.map fun node =>
    ((node.take (governorSize - 1)).takeWhile (· ≠ 0)).rdropWhile fun c => c == 10 || c == 13

/-- The comparison of the governor with a name: equal up to the length of the name, and of its
length. -/
def isGovernor (governor name : Bytes) : Bool :=
  governor.take name.length == name && governor.length == name.length

/-- `process_video_decode_hint`. -/
def processVideoDecodeHint (cfg : Config) (env : Env) (metadata : Option Bytes) (s : Hal) : Hal :=
  match getScalingGovernor cfg, metadata with
  | some governor, some metadata =>
    let m := parseVideoMetadata ⟨defaultVideoDecodeHintId, -1⟩ metadata
    if m.state = 1 then
      if isGovernor governor ondemandGovernor then performHintAction cfg env m.hintId s
      else if isGovernor governor interactiveGovernor then performHintAction cfg env m.hintId s
      else s
    else if m.state = 0 then
      -- the branch of this governor is empty
      if isGovernor governor ondemandGovernor then s
      else if isGovernor governor interactiveGovernor then undoHintAction cfg m.hintId s
      else s
    else s
  | _, _ => s

/-- `process_video_encode_hint` of `power.c`. -/
def processVideoEncodeHint (cfg : Config) (env : Env) (metadata : Option Bytes) (s : Hal) : Hal :=
  match getScalingGovernor cfg, metadata with
  | some governor, some metadata =>
    let m := parseVideoMetadata ⟨defaultVideoEncodeHintId, -1⟩ metadata
    if m.state = 1 then
      if isGovernor governor ondemandGovernor then performHintAction cfg env m.hintId s
      else if isGovernor governor interactiveGovernor then performHintAction cfg env m.hintId s
      else s
    else if m.state = 0 then
      if isGovernor governor ondemandGovernor then undoHintAction cfg m.hintId s
      else if isGovernor governor interactiveGovernor then undoHintAction cfg m.hintId s
      else s
    else s
  | _, _ => s

/-- `process_video_encode_hint` of `power-8909.c`. -/
def processVideoEncodeHint8909 (cfg : Config) (env : Env) (metadata : Option Bytes) (s : Hal) :
    Hal :=
  match getScalingGovernor cfg, metadata with
  | some governor, some metadata =>
    let m := parseVideoMetadata ⟨defaultVideoEncodeHintId, -1⟩ metadata
    if m.state = 1 then
      if isGovernor governor interactiveGovernor then performHintAction cfg env m.hintId s else s
    else if m.state = 0 then
      if isGovernor governor interactiveGovernor then undoHintAction cfg m.hintId s else s
    else s
  | _, _ => s

/-- `power_hint_t`. -/
inductive Hint where
  | vsync
  | interaction
  | videoEncode
  | videoDecode
  | other
  deriving DecidableEq, Repr

/-- `power_hint_override`; `none` is `HINT_NONE`. -/
def powerHintOverride (cfg : Config) (env : Env) (hint : Hint) (data : Option Bytes) (s : Hal) :
    Option Hal :=
  if cfg.msm8909 then
    match hint with
    | .videoEncode => some (processVideoEncodeHint8909 cfg env data s)
    | _ => none
  else none

/-- `power_hint`.  The lock of `interaction` has a duration and is not listed. -/
def powerHint (cfg : Config) (env : Env) (hint : Hint) (data : Option Bytes) (s : Hal) : Hal :=
  match powerHintOverride cfg env hint data s with
  | some s => s
  | none =>
    match hint with
    | .vsync | .interaction | .other => s
    | .videoEncode => processVideoEncodeHint cfg env data s
    | .videoDecode => processVideoDecodeHint cfg env data s

/-- `set_interactive`.  Under `msm-dcvs` it reads and writes nodes of the file system only. -/
def setInteractive (cfg : Config) (env : Env) (on : Bool) (s : Hal) : Hal :=
  match getScalingGovernor cfg with
  | none => s
  | some governor =>
    if isGovernor governor ondemandGovernor || isGovernor governor interactiveGovernor then
      if !on then
        if !s.displayHintSent then
          { performHintAction cfg env displayStateHintId s with displayHintSent := true }
        else s
      else { undoHintAction cfg displayStateHintId s with displayHintSent := false }
    else s

/-- A call of the module. -/
inductive Call where
  | powerHint (hint : Hint) (data : Option Bytes)
  | setInteractive (on : Bool)
  deriving DecidableEq, Repr

/-- A call. -/
def call (cfg : Config) (s : Hal) : Call × Env → Hal
  | (.powerHint hint data, env) => powerHint cfg env hint data s
  | (.setInteractive on, env) => setInteractive cfg env on s

/-- A sequence of calls. -/
def calls (cfg : Config) (s : Hal) (as : List (Call × Env)) : Hal := as.foldl (call cfg) s

/-! ### What a call asks of the locks -/

/-- The two kinds of hints with metadata. -/
inductive Kind where
  | encode
  | decode
  deriving DecidableEq, Repr

/-- The kind of a hint, its id and its state. -/
def Call.video : Call → Option (Kind × VideoMetadata)
  | .powerHint .videoEncode (some metadata) =>
    some (.encode, parseVideoMetadata ⟨defaultVideoEncodeHintId, -1⟩ metadata)
  | .powerHint .videoDecode (some metadata) =>
    some (.decode, parseVideoMetadata ⟨defaultVideoDecodeHintId, -1⟩ metadata)
  | _ => none

/-- Whether a hint with state 1 takes a lock. -/
def Config.acquires (cfg : Config) : Kind → Bool
  | .encode => getScalingGovernor cfg = some interactiveGovernor ∨
      getScalingGovernor cfg = some ondemandGovernor ∧ cfg.msm8909 = false
  | .decode => getScalingGovernor cfg = some interactiveGovernor ∨
      getScalingGovernor cfg = some ondemandGovernor

/-- Whether a hint with state 0 gives a lock back. -/
def Config.releases (cfg : Config) : Kind → Bool
  | .encode => cfg.acquires .encode
  | .decode => getScalingGovernor cfg = some interactiveGovernor

/-- Whether turning the display off takes a lock. -/
def Config.locksDisplay (cfg : Config) : Bool :=
  getScalingGovernor cfg = some interactiveGovernor ∨
    getScalingGovernor cfg = some ondemandGovernor

/-- The operation a call asks for, if `sent` says whether the display hint has been sent. -/
def lockOp (cfg : Config) (sent : Bool) : Call → Option (LockOp ℤ)
  | .setInteractive on =>
    if cfg.locksDisplay then
      if on then some (.release displayStateHintId)
      else if sent then none else some (.acquire displayStateHintId)
    else none
  | c =>
    match c.video with
    | none => none
    | some (kind, m) =>
      if m.state = 1 ∧ cfg.acquires kind then some (.acquire m.hintId)
      else if m.state = 0 ∧ cfg.releases kind then some (.release m.hintId)
      else none

/-- `display_hint_sent` after a call. -/
def sentAfter (cfg : Config) (sent : Bool) : Call → Bool
  | .setInteractive on => if cfg.locksDisplay then !on else sent
  | .powerHint .. => sent

/-- The operations a sequence of calls asks for. -/
def lockOps (cfg : Config) : Bool → List Call → List (LockOp ℤ)
  | _, [] => []
  | sent, c :: cs => (lockOp cfg sent c).toList ++ lockOps cfg (sentAfter cfg sent c) cs

/-- An operation is carried out. -/
def perform (cfg : Config) (env : Env) (s : Hal) : Option (LockOp ℤ) → Hal
  | none => s
  | some (.acquire id) => performHintAction cfg env id s
  | some (.release id) => undoHintAction cfg id s

section

variable {cfg : Config} {env : Env} {s : Hal}

theorem isGovernor_iff {governor name : Bytes} :
    isGovernor governor name = true ↔ governor = name := by
  simp only [isGovernor, Bool.and_eq_true, beq_iff_eq]
  constructor
  · rintro ⟨htake, hlen⟩
    rwa [← hlen, List.take_length] at htake
  · rintro rfl
    exact ⟨List.take_length, rfl⟩

theorem interactive_ne_ondemand : interactiveGovernor ≠ ondemandGovernor := by
  decide

theorem displayHintSent_performHintAction {id : ℤ} :
    (performHintAction cfg env id s).displayHintSent = s.displayHintSent := by
  unfold performHintAction
  split_ifs <;> rfl

theorem displayHintSent_undoHintAction {id : ℤ} :
    (undoHintAction cfg id s).displayHintSent = s.displayHintSent := by
  unfold undoHintAction
  split_ifs
  · cases findNode s.active id with
    | none => rfl
    | some i =>
      dsimp only
      split <;> rfl
  · rfl

theorem displayHintSent_perform {op : Option (LockOp ℤ)} :
    (perform cfg env s op).displayHintSent = s.displayHintSent := by
  cases op with
  | none => rfl
  | some op =>
    cases op with
    | acquire id => exact displayHintSent_performHintAction
    | release id => exact displayHintSent_undoHintAction

/-- What a hint with a kind and metadata does. -/
def performVideo (cfg : Config) (env : Env) (kind : Kind) (m : VideoMetadata) (s : Hal) : Hal :=
  if m.state = 1 ∧ cfg.acquires kind then performHintAction cfg env m.hintId s
  else if m.state = 0 ∧ cfg.releases kind then undoHintAction cfg m.hintId s
  else s

theorem perform_lockOp_video {sent : Bool} {hint : Hint} {data : Option Bytes} :
    perform cfg env s (lockOp cfg sent (.powerHint hint data)) =
      match (Call.powerHint hint data).video with
      | none => s
      | some (kind, m) => performVideo cfg env kind m s := by
  simp only [lockOp]
  cases (Call.powerHint hint data).video with
  | none => rfl
  | some v =>
    simp only [performVideo]
    split_ifs <;> rfl

theorem processVideoDecodeHint_eq {metadata : Bytes} :
    processVideoDecodeHint cfg env (some metadata) s =
      performVideo cfg env .decode (parseVideoMetadata ⟨defaultVideoDecodeHintId, -1⟩ metadata)
        s := by
  cases hg : getScalingGovernor cfg with
  | none =>
    simp [processVideoDecodeHint, performVideo, Config.acquires, Config.releases, hg]
  | some governor =>
    simp only [processVideoDecodeHint, performVideo, Config.acquires, Config.releases, hg,
      isGovernor_iff, Option.some.injEq, decide_eq_true_eq]
    split_ifs <;> simp_all [interactive_ne_ondemand]

theorem processVideoEncodeHint_eq (h8909 : cfg.msm8909 = false) {metadata : Bytes} :
    processVideoEncodeHint cfg env (some metadata) s =
      performVideo cfg env .encode (parseVideoMetadata ⟨defaultVideoEncodeHintId, -1⟩ metadata)
        s := by
  cases hg : getScalingGovernor cfg with
  | none =>
    simp [processVideoEncodeHint, performVideo, Config.acquires, Config.releases, hg]
  | some governor =>
    simp only [processVideoEncodeHint, performVideo, Config.acquires, Config.releases, hg, h8909,
      isGovernor_iff, Option.some.injEq, decide_eq_true_eq, and_true]
    split_ifs <;> simp_all

theorem processVideoEncodeHint8909_eq (h8909 : cfg.msm8909 = true) {metadata : Bytes} :
    processVideoEncodeHint8909 cfg env (some metadata) s =
      performVideo cfg env .encode (parseVideoMetadata ⟨defaultVideoEncodeHintId, -1⟩ metadata)
        s := by
  cases hg : getScalingGovernor cfg with
  | none =>
    simp [processVideoEncodeHint8909, performVideo, Config.acquires, Config.releases, hg]
  | some governor =>
    simp only [processVideoEncodeHint8909, performVideo, Config.acquires, Config.releases, hg,
      h8909, isGovernor_iff, Option.some.injEq, decide_eq_true_eq, Bool.true_eq_false, and_false,
      or_false]
    split_ifs <;> simp_all

/-- A hint carries out the operation it asks for. -/
theorem powerHint_eq {hint : Hint} {data : Option Bytes} {sent : Bool} :
    powerHint cfg env hint data s = perform cfg env s (lockOp cfg sent (.powerHint hint data)) := by
  rw [perform_lockOp_video]
  cases h8909 : cfg.msm8909 with
  | false =>
    cases hint with
    | videoEncode =>
      simp only [powerHint, powerHintOverride, h8909, Bool.false_eq_true, if_false]
      cases data with
      | none => simp [processVideoEncodeHint, Call.video]
      | some metadata => exact processVideoEncodeHint_eq h8909
    | videoDecode =>
      simp only [powerHint, powerHintOverride, h8909, Bool.false_eq_true, if_false]
      cases data with
      | none => simp [processVideoDecodeHint, Call.video]
      | some metadata => exact processVideoDecodeHint_eq
    | _ => simp [powerHint, powerHintOverride, h8909, Call.video]
  | true =>
    cases hint with
    | videoEncode =>
      simp only [powerHint, powerHintOverride, h8909, if_true]
      cases data with
      | none => simp [processVideoEncodeHint8909, Call.video]
      | some metadata => exact processVideoEncodeHint8909_eq h8909
    | videoDecode =>
      simp only [powerHint, powerHintOverride, h8909, if_true]
      cases data with
      | none => simp [processVideoDecodeHint, Call.video]
      | some metadata => exact processVideoDecodeHint_eq
    | _ => simp [powerHint, powerHintOverride, h8909, Call.video]

theorem locksDisplay_iff {governor : Bytes} (hg : getScalingGovernor cfg = some governor) :
    cfg.locksDisplay = (isGovernor governor ondemandGovernor ||
      isGovernor governor interactiveGovernor) := by
  rw [Bool.eq_iff_iff, Bool.or_eq_true, isGovernor_iff, isGovernor_iff]
  simp [Config.locksDisplay, hg, or_comm]

theorem setInteractive_eq {on : Bool} : setInteractive cfg env on s =
    { perform cfg env s (lockOp cfg s.displayHintSent (.setInteractive on)) with
      displayHintSent := sentAfter cfg s.displayHintSent (.setInteractive on) } := by
  cases hg : getScalingGovernor cfg with
  | none => simp [setInteractive, lockOp, sentAfter, Config.locksDisplay, hg, perform]
  | some governor =>
    simp only [setInteractive, lockOp, sentAfter, hg, ← locksDisplay_iff hg]
    cases cfg.locksDisplay with
    | false => simp [perform]
    | true =>
      cases on with
      | true => simp [perform]
      | false =>
        cases hsent : s.displayHintSent with
        | true =>
          show s = { s with displayHintSent := true }
          rw [← hsent]
        | false => simp [perform]

end

/-! ### Sequences of calls -/

section

variable {cfg : Config} {env : Env} {s : Hal}

theorem ledger_perform (h : s.Ledger) (hacq : cfg.perfLockAcq = true)
    (hrel : cfg.perfLockRel = true) (hok : env.Succeeds) (op : Option (LockOp ℤ)) :
    (perform cfg env s op).Ledger ∧
      ∀ id, (perform cfg env s op).count id = heldAfter id (s.count id) op.toList := by
  cases op with
  | none => exact ⟨h, fun _ => rfl⟩
  | some op =>
    cases op with
    | acquire id => exact ⟨h.perform hacq hok, fun id' => count_performHintAction hacq hok id'⟩
    | release id => exact ⟨h.undo hrel, fun id' => count_undoHintAction h hrel id'⟩

/-- A call carries out the operation it asks for. -/
theorem call_spec (h : s.Ledger) (hacq : cfg.perfLockAcq = true) (hrel : cfg.perfLockRel = true)
    (hok : env.Succeeds) (c : Call) :
    (call cfg s (c, env)).Ledger ∧
      (call cfg s (c, env)).displayHintSent = sentAfter cfg s.displayHintSent c ∧
      ∀ id, (call cfg s (c, env)).count id =
        heldAfter id (s.count id) (lockOp cfg s.displayHintSent c).toList := by
  obtain ⟨hledger, hcount⟩ := ledger_perform h hacq hrel hok (lockOp cfg s.displayHintSent c)
  cases c with
  | powerHint hint data =>
    rw [call, @powerHint_eq cfg env s hint data s.displayHintSent]
    exact ⟨hledger, displayHintSent_perform, hcount⟩
  | setInteractive on =>
    rw [call, setInteractive_eq]
    exact ⟨⟨hledger.compare, hledger.held⟩, rfl, hcount⟩

theorem calls_spec (h : s.Ledger) (hacq : cfg.perfLockAcq = true) (hrel : cfg.perfLockRel = true)
    {as : List (Call × Env)} (hok : ∀ a ∈ as, a.2.Succeeds) :
    (calls cfg s as).Ledger ∧ ∀ id, (calls cfg s as).count id =
      heldAfter id (s.count id) (lockOps cfg s.displayHintSent (as.map Prod.fst)) := by
  induction as generalizing s with
  | nil => exact ⟨h, fun _ => rfl⟩
  | cons a as ih =>
    obtain ⟨c, env⟩ := a
    obtain ⟨hledger, hsent, hcount⟩ := call_spec h hacq hrel (hok _ List.mem_cons_self) c
    obtain ⟨hledger', hcount'⟩ := ih hledger fun a ha => hok a (List.mem_cons_of_mem _ ha)
    refine ⟨hledger', fun id => ?_⟩
    rw [List.map_cons, lockOps, heldAfter_append, ← hcount id, ← hsent]
    exact hcount' id

theorem ledger_nil : ({} : Hal).Ledger := ⟨fun _ h => absurd h List.not_mem_nil, .nil⟩

/-- No lock is left behind if and only if no end of the sequence acquires more locks of an id than
it releases. -/
theorem held_eq_nil_iff_covered (hacq : cfg.perfLockAcq = true) (hrel : cfg.perfLockRel = true)
    {as : List (Call × Env)} (hok : ∀ a ∈ as, a.2.Succeeds) :
    (calls cfg {} as).held = [] ↔ ∀ id, Covered id (lockOps cfg false (as.map Prod.fst)) := by
  obtain ⟨hledger, hcount⟩ := calls_spec ledger_nil hacq hrel hok
  rw [hledger.held_eq_nil]
  refine forall_congr' fun id => ?_
  rw [hcount id]
  exact heldAfter_eq_zero

end

/-! ### Matched hints -/

/-- The call is a hint of the kind, with the id and the state. -/
def Call.isHint (kind : Kind) (id state : ℤ) (c : Call) : Bool :=
  c.video == some (kind, ⟨id, state⟩)

/-- The argument of a `set_interactive` call. -/
def Call.display : Call → Option Bool
  | .setInteractive on => some on
  | .powerHint .. => none

/-- The hints with state 1 are matched with later ones of the same kind and id with state 0, and the
last `set_interactive` call is on. -/
structure Matched (cs : List Call) : Prop where
  hints : ∀ kind id, ∃ m, Matching (Call.isHint kind id 1) (Call.isHint kind id 0) cs m
  display : (cs.filterMap Call.display).getLast? ≠ some false

/-- The number of display hints that are sent for a sequence of `set_interactive` calls. -/
def displayHints : Bool → List Bool → ℕ
  | _, [] => 0
  | sent, on :: ds => (if on || sent then 0 else 1) + displayHints (!on) ds

/-- If the last call is on, then there are as many calls that are on as display hints that are sent,
and one more if there is a hint to be undone at the beginning. -/
theorem displayHints_le {ds : List Bool} {sent : Bool} (h : ds.getLast? ≠ some false) :
    displayHints sent ds + (if sent = true ∧ ds ≠ [] then 1 else 0) ≤ ds.count true := by
  induction ds generalizing sent with
  | nil => simp [displayHints]
  | cons on ds ih =>
    cases ds with
    | nil =>
      cases on with
      | false => exact absurd rfl h
      | true => cases sent <;> simp [displayHints]
    | cons d ds =>
      have hlast : (d :: ds).getLast? ≠ some false := by
        simpa [List.getLast?_cons_cons] using h
      cases on with
      | true =>
        have := @ih false hlast
        simp only [displayHints, List.count_cons] at this ⊢
        split_ifs <;> simp_all <;> omega
      | false =>
        have := @ih true hlast
        cases sent <;> simp [displayHints, List.count_cons] at this ⊢ <;> omega

theorem getLast?_suffix {ds ds' : List Bool} (hs : ds' <:+ ds) (h : ds.getLast? ≠ some false) :
    ds'.getLast? ≠ some false := by
  obtain ⟨pre, rfl⟩ := hs
  intro hlast
  exact h (by rw [List.getLast?_append, hlast, Option.some_or])

section

variable {cfg : Config} {sent : Bool} {cs : List Call} {id : ℤ}

theorem filterMap_display_setInteractive (on : Bool) :
    (Call.setInteractive on :: cs).filterMap Call.display = on :: cs.filterMap Call.display := rfl

theorem filterMap_display_powerHint (hint : Hint) (data : Option Bytes) :
    (Call.powerHint hint data :: cs).filterMap Call.display = cs.filterMap Call.display := rfl

theorem isHint_setInteractive (kind : Kind) (id state : ℤ) (on : Bool) :
    Call.isHint kind id state (.setInteractive on) = false := rfl

theorem lockOp_display (hg : getScalingGovernor cfg = some interactiveGovernor) (on : Bool) :
    lockOp cfg sent (.setInteractive on) = if on then some (.release displayStateHintId)
      else if sent then none else some (.acquire displayStateHintId) := by
  simp [lockOp, Config.locksDisplay, hg]

theorem lockOp_video (hg : getScalingGovernor cfg = some interactiveGovernor) {hint : Hint}
    {data : Option Bytes} {v : Kind × VideoMetadata}
    (hv : (Call.powerHint hint data).video = some v) :
    lockOp cfg sent (.powerHint hint data) = if v.2.state = 1 then some (.acquire v.2.hintId)
      else if v.2.state = 0 then some (.release v.2.hintId) else none := by
  obtain ⟨kind, m⟩ := v
  have hacq : cfg.acquires kind = true := by cases kind <;> simp [Config.acquires, hg]
  have hrel : cfg.releases kind = true := by
    cases kind <;> simp [Config.releases, Config.acquires, hg]
  simp [lockOp, hv, hacq, hrel]

/-- The locks a sequence acquires under the governor `interactive`. -/
theorem count_acquire (hg : getScalingGovernor cfg = some interactiveGovernor) :
    (lockOps cfg sent cs).count (.acquire id) =
      cs.countP (Call.isHint .encode id 1) + cs.countP (Call.isHint .decode id 1) +
        if id = displayStateHintId then displayHints sent (cs.filterMap Call.display) else 0 := by
  induction cs generalizing sent with
  | nil => simp [lockOps, displayHints]
  | cons c cs ih =>
    rw [lockOps, List.count_append, ih, List.countP_cons, List.countP_cons]
    cases c with
    | setInteractive on =>
      have hafter : sentAfter cfg sent (.setInteractive on) = !on := by
        simp [sentAfter, Config.locksDisplay, hg]
      rw [lockOp_display hg, hafter, filterMap_display_setInteractive, displayHints,
        isHint_setInteractive, isHint_setInteractive]
      by_cases hid : id = displayStateHintId
      · subst hid
        cases on <;> cases sent <;> simp
        omega
      · have hne : displayStateHintId ≠ id := Ne.symm hid
        cases on <;> cases sent <;> simp [hid, hne]
    | powerHint hint data =>
      rw [filterMap_display_powerHint, sentAfter]
      cases hv : (Call.powerHint hint data).video with
      | none => simp [lockOp, hv, Call.isHint]
      | some v =>
        obtain ⟨kind, hintId, state⟩ := v
        rw [lockOp_video hg hv]
        simp only [Call.isHint, hv]
        by_cases hst : state = 1
        · subst hst
          cases kind <;> simp [List.count_cons] <;> omega
        · have hne : ∀ k, ((kind, ⟨hintId, state⟩) : Kind × VideoMetadata) ≠ (k, ⟨id, 1⟩) := by
            simp [hst]
          split_ifs <;> simp_all

/-- The locks a sequence releases under the governor `interactive`. -/
theorem count_release (hg : getScalingGovernor cfg = some interactiveGovernor) :
    (lockOps cfg sent cs).count (.release id) =
      cs.countP (Call.isHint .encode id 0) + cs.countP (Call.isHint .decode id 0) +
        if id = displayStateHintId then (cs.filterMap Call.display).count true else 0 := by
  induction cs generalizing sent with
  | nil => simp [lockOps]
  | cons c cs ih =>
    rw [lockOps, List.count_append, ih, List.countP_cons, List.countP_cons]
    cases c with
    | setInteractive on =>
      rw [lockOp_display hg, filterMap_display_setInteractive, isHint_setInteractive,
        isHint_setInteractive]
      by_cases hid : id = displayStateHintId
      · subst hid
        cases on <;> cases sent <;> simp <;> omega
      · have hne : displayStateHintId ≠ id := Ne.symm hid
        cases on <;> cases sent <;> simp [hid, hne]
    | powerHint hint data =>
      rw [filterMap_display_powerHint]
      cases hv : (Call.powerHint hint data).video with
      | none => simp [lockOp, hv, Call.isHint]
      | some v =>
        obtain ⟨kind, hintId, state⟩ := v
        rw [lockOp_video hg hv]
        simp only [Call.isHint, hv]
        by_cases hst : state = 0
        · subst hst
          cases kind <;> simp [List.count_cons] <;> omega
        · have hne : ∀ k, ((kind, ⟨hintId, state⟩) : Kind × VideoMetadata) ≠ (k, ⟨id, 0⟩) := by
            simp [hst]
          split_ifs <;> simp_all

/-- The operations are covered if every end of the sequence of calls acquires no more than it
releases. -/
theorem covered_lockOps (h : ∀ cs' sent', cs' <:+ cs →
    (lockOps cfg sent' cs').count (.acquire id) ≤ (lockOps cfg sent' cs').count (.release id)) :
    Covered id (lockOps cfg sent cs) := by
  induction cs generalizing sent with
  | nil => exact covered_nil
  | cons c cs ih =>
    have htail := @ih (sentAfter cfg sent c) fun cs' sent' hs =>
      h cs' sent' (hs.trans (List.suffix_cons c cs))
    have hall := h (c :: cs) sent List.suffix_rfl
    rw [lockOps] at hall ⊢
    cases hop : lockOp cfg sent c with
    | none => exact htail
    | some op =>
      rw [hop] at hall
      exact covered_cons.2 ⟨hall, htail⟩

/-- Matched hints are covered under every governor but `ondemand`. -/
theorem Matched.covered (h : Matched cs) (hg : getScalingGovernor cfg ≠ some ondemandGovernor) :
    Covered id (lockOps cfg false cs) := by
  refine covered_lockOps fun cs' sent' hs => ?_
  by_cases hi : getScalingGovernor cfg = some interactiveGovernor
  · obtain ⟨m, hm⟩ := h.hints .encode id
    obtain ⟨m', hm'⟩ := h.hints .decode id
    have hdisplay :=
      @displayHints_le _ sent' (getLast?_suffix (hs.filterMap Call.display) h.display)
    rw [count_acquire hi, count_release hi]
    refine Nat.add_le_add (Nat.add_le_add (hm.countP_le hs) (hm'.countP_le hs)) ?_
    split_ifs
    · exact (Nat.le_add_right _ _).trans hdisplay
    · exact le_rfl
  · -- no governor that takes locks
    have hnone : ∀ sent c, lockOp cfg sent c = none := by
      intro sent c
      have hacq : ∀ kind, cfg.acquires kind = false := by
        intro kind
        cases kind <;> simp [Config.acquires, hi, hg]
      have hrel : ∀ kind, cfg.releases kind = false := by
        intro kind
        cases kind <;> simp [Config.releases, hacq, hi]
      have hdisp : cfg.locksDisplay = false := by simp [Config.locksDisplay, hi, hg]
      cases c with
      | setInteractive on => simp [lockOp, hdisp]
      | powerHint hint data =>
        cases hv : (Call.powerHint hint data).video <;> simp [lockOp, hv, hacq, hrel]
    have hnil : lockOps cfg sent' cs' = [] := by
      induction cs' generalizing sent' with
      | nil => rfl
      | cons c cs' ih =>
        rw [lockOps, hnone]
        exact ih _ ((List.suffix_cons c cs').trans hs)
    rw [hnil]
    exact le_rfl

end

/-- **Locks are balanced**: matched hints leave no lock behind if and only if the governor is not
`ondemand`, or no end of the sequence acquires more locks of an id than it releases. -/
theorem held_eq_nil_iff {cfg : Config} (hacq : cfg.perfLockAcq = true)
    (hrel : cfg.perfLockRel = true) {as : List (Call × Env)} (hok : ∀ a ∈ as, a.2.Succeeds)
    (hm : Matched (as.map Prod.fst)) :
    (calls cfg {} as).held = [] ↔ getScalingGovernor cfg ≠ some ondemandGovernor ∨
      ∀ id, Covered id (lockOps cfg false (as.map Prod.fst)) := by
  rw [held_eq_nil_iff_covered hacq hrel hok]
  refine ⟨.inr, ?_⟩
  rintro (hg | hcov)
  · exact fun id => hm.covered hg
  · exact hcov

/-- A configuration with a governor. -/
def sampleConfig (governor : String) (msm8909 : Bool) : Config :=
  ⟨true, true, some (ascii governor), msm8909⟩

/-- A decode hint that is taken back, while the display goes off and on. -/
def sampleCalls : List (Call × Env) :=
  [(.powerHint .videoDecode (some (ascii "state=1")), ⟨31, true, true⟩),
    (.setInteractive false, ⟨32, true, true⟩),
    (.powerHint .videoDecode (some (ascii "state=0")), ⟨33, true, true⟩),
    (.setInteractive true, ⟨34, true, true⟩)]

theorem succeeds_sampleCalls : ∀ a ∈ sampleCalls, a.2.Succeeds := by
  simp [sampleCalls, Env.Succeeds]

theorem matched_sampleCalls : Matched (sampleCalls.map Prod.fst) := by
  have hon : (Call.powerHint .videoDecode (some (ascii "state=1"))).video =
      some (.decode, ⟨defaultVideoDecodeHintId, 1⟩) := by decide
  have hoff : (Call.powerHint .videoDecode (some (ascii "state=0"))).video =
      some (.decode, ⟨defaultVideoDecodeHintId, 0⟩) := by decide
  refine ⟨fun kind id => ⟨fun i => i + 2, fun i a ha hp => ?_, fun i j _ _ _ _ _ _ h => ?_⟩, ?_⟩
  · refine ⟨Nat.lt_add_of_pos_right (by decide), ?_⟩
    rcases i with _ | _ | _ | _ | i
    · obtain rfl := Option.some.inj ha
      refine ⟨_, rfl, ?_⟩
      simpa [Call.isHint, hon, hoff] using hp
    · obtain rfl := Option.some.inj ha
      cases hp
    · obtain rfl := Option.some.inj ha
      simp [Call.isHint, hoff] at hp
    · obtain rfl := Option.some.inj ha
      cases hp
    · cases ha
  · exact Nat.add_right_cancel h
  · decide

/-- Under the governor `interactive`, the hint and the display leave no lock behind. -/
theorem held_eq_nil_interactive :
    (calls (sampleConfig "interactive\n" true) {} sampleCalls).held = [] := by
  refine (held_eq_nil_iff rfl rfl succeeds_sampleCalls matched_sampleCalls).2 (.inl ?_)
  decide

/-- Under the governor `ondemand`, the lock of the decode hint is left behind. -/
theorem held_ondemand :
    (∀ a ∈ sampleCalls, a.2.Succeeds) ∧ Matched (sampleCalls.map Prod.fst) ∧
      (calls (sampleConfig "ondemand\n" false) {} sampleCalls).held = [31] ∧
      (calls (sampleConfig "ondemand\n" true) {} sampleCalls).held = [31] := by
  refine ⟨succeeds_sampleCalls, matched_sampleCalls, ?_, ?_⟩
  · decide
  · decide

end Power

end Msm8909w
