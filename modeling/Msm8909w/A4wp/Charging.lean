import Msm8909w.A4wp.A4wpService

/-!
# Charging commands

A data event starts the charging when the voltage of the rectifier reaches its minimum, and again
whenever the current has dropped.  The code joins the two bytes of the voltage to a `short` for the
first test, and compares the bytes one by one for the second, always with signs.

* `issues_iff` : when a data event gives a start command,
* `follows_iff` : exactly when one data event does what the measurements say,
* `chargesRight_iff` : the same for all data events of a run; after a start the output is always
  enabled.
-/

namespace Msm8909w

namespace A4wp

/-! ### The measurements -/

/-- The charge-port bit of the alert byte. -/
def ChargePort (v : Vector (BitVec 8) 20) : Prop :=
  alertByte v &&& CHARGE_PORT_MASK = CHARGE_PORT_MASK

variable {D : Type}

/-- The charge port is not set, and may be set now. -/
def SetsPort (v : Vector (BitVec 8) 20) (s : State D) : Prop :=
  s.isChargePortSet = false ∧ s.mOutputControl = true ∧ 7100 ≤ rectVoltage v

/-- The measurements want the charging to start. -/
def Wanted (v : Vector (BitVec 8) 20) (s : State D) : Prop :=
  SetsPort v s ∨ (s.isChargePortSet = true ∨ SetsPort v s) ∧ ChargePort v ∧ rectCurrent v ≤ 21 ∧
    rectVoltage v ≠ 0

/-- A data event gives a start command. -/
def Issues (v : Vector (BitVec 8) 20) (s : State D) : Prop :=
  s.commands.count .startCharging <
    (chkDynParamsAndStartCharging v s).commands.count .startCharging

/-- No sign is mistaken: before the charge port is set, that of the voltage; afterwards, that of the
low byte of the current, and those of the bytes of the voltage. -/
structure Unmistaken (v : Vector (BitVec 8) 20) (s : State D) : Prop where
  voltage : s.isChargePortSet = false → s.mOutputControl = true → rectVoltage v < 0x8000
  current : s.isChargePortSet = true → ChargePort v → 128 ≤ rectCurrent v → rectCurrent v ≤ 255 →
    ¬ PositiveByte v
  bytes : s.isChargePortSet = true → ChargePort v → rectCurrent v ≤ 21 → rectVoltage v ≠ 0 →
    PositiveByte v

/-! ### One data event -/

section Event

variable {v : Vector (BitVec 8) 20} {s t : State D}

/-- The first test of the code, of the bytes of the voltage. -/
theorem minimum_iff (lo hi : BitVec 8) :
    DEFAULT_VRECT_MIN.toInt ≤ (toShort lo hi).toInt ↔
      7100 ≤ lo.toNat + 256 * hi.toNat ∧ lo.toNat + 256 * hi.toNat < 0x8000 := by
  have hvoltage : (toShort lo hi).toNat = lo.toNat + 256 * hi.toNat := toNat_toShort _ _
  have hlt := (toShort lo hi).isLt
  have hmin : DEFAULT_VRECT_MIN.toInt = 7100 := by decide
  rw [hmin, BitVec.toInt_eq_toNat_cond]
  split_ifs <;> omega

/-- The second one, of the bytes of the current. -/
theorem current_iff (lo hi : BitVec 8) :
    (lo.toInt ≤ IRECT_MASK_LSB ∧ hi = 0) ↔ lo.toNat + 256 * hi.toNat ≤ 21 ∨
      128 ≤ lo.toNat + 256 * hi.toNat ∧ lo.toNat + 256 * hi.toNat ≤ 255 := by
  have hlow := lo.isLt
  have hhigh : hi = 0 ↔ hi.toNat = 0 := BitVec.toNat_inj.symm
  rw [hhigh, IRECT_MASK_LSB, BitVec.toInt_eq_toNat_cond]
  split_ifs <;> omega

theorem positive_iff (b : BitVec 8) : b.toInt > 0 ↔ 0 < b.toNat ∧ b.toNat < 128 := by
  have hlt := b.isLt
  rw [BitVec.toInt_eq_toNat_cond]
  split_ifs <;> omega

theorem count_lt_call (s : State D) :
    s.commands.count .startCharging <
      (s.call [.startCharging]).commands.count .startCharging := by
  rw [State.call, List.count_append]
  exact Nat.lt_succ_self _

/-- The two tests, with the measurements; the second one sees what the first has set. -/
theorem issues_iff : Issues v s ↔
    SetsPort v s ∧ rectVoltage v < 0x8000 ∨
      s.isChargePortSet = true ∧ ChargePort v ∧
        (rectCurrent v ≤ 21 ∨ 128 ≤ rectCurrent v ∧ rectCurrent v ≤ 255) ∧ PositiveByte v := by
  have hfirst := count_lt_call s
  have hcurrent : (v[3].toInt ≤ IRECT_MASK_LSB ∧ v[4] = 0) ↔
      rectCurrent v ≤ 21 ∨ 128 ≤ rectCurrent v ∧ rectCurrent v ≤ 255 := current_iff _ _
  have hpositive : (v[1].toInt > 0 ∨ v[2].toInt > 0) ↔ PositiveByte v :=
    or_congr (positive_iff _) (positive_iff _)
  have hminimum : DEFAULT_VRECT_MIN.toInt ≤ (toShort v[1] v[2]).toInt ↔
      7100 ≤ rectVoltage v ∧ rectVoltage v < 0x8000 := minimum_iff _ _
  have halert : alertByte v = v[16] := rfl
  unfold Issues chkDynParamsAndStartCharging SetsPort ChargePort
  rw [← hcurrent, ← hpositive, halert]
  cases hport : s.isChargePortSet with
  | true =>
    have hset : ¬ (!true) = true := Bool.false_ne_true
    rw [if_neg hset]
    simp only [hport, true_and, Bool.true_eq_false, false_and, false_or]
    split_ifs with hstart
    · exact ⟨fun _ => hstart, fun _ => hfirst⟩
    · exact ⟨fun h => absurd h (Nat.lt_irrefl _), fun h => absurd h hstart⟩
  | false =>
    have hset : (DEFAULT_VRECT_MIN.toInt ≤ (toShort v[1] v[2]).toInt ∧ s.mOutputControl = true) ↔
        (s.mOutputControl = true ∧ 7100 ≤ rectVoltage v) ∧ rectVoltage v < 0x8000 := by
      rw [hminimum]
      tauto
    have hport' : (!false) = true := rfl
    rw [if_pos hport']
    simp only [true_and, Bool.false_eq_true, false_and, or_false, ← hset]
    split_ifs with hnow hagain hagain
    · -- both tests give a command
      exact ⟨fun _ => hnow, fun _ => Nat.lt_trans hfirst (count_lt_call _)⟩
    · exact ⟨fun _ => hnow, fun _ => hfirst⟩
    · exact absurd (hport.symm.trans hagain.1) Bool.false_ne_true
    · exact ⟨fun h => absurd h (Nat.lt_irrefl _), fun h => absurd h hnow⟩

theorem PositiveByte.rectVoltage_ne_zero (h : PositiveByte v) : rectVoltage v ≠ 0 := by
  rw [rectVoltage]
  rcases h with ⟨h, -⟩ | ⟨h, -⟩ <;> omega

/-- **When a data event follows the measurements.** -/
theorem follows_iff (v : Vector (BitVec 8) 20) (s : State D) :
    (Issues v s ↔ Wanted v s) ↔ Unmistaken v s := by
  rw [issues_iff]
  unfold Wanted
  cases hport : s.isChargePortSet with
  | true =>
    have hset : ¬ SetsPort v s := fun h => absurd (hport.symm.trans h.1) Bool.noConfusion
    simp only [hset, false_and, false_or, or_false, true_and]
    constructor
    · intro h
      refine ⟨fun hfalse => ?_, fun _ hbit hlow hhigh hpos => ?_, fun _ hbit hlow hne => ?_⟩
      · exact absurd (hport.symm.trans hfalse) Bool.noConfusion
      · have hwanted := (h.1 ⟨hbit, .inr ⟨hlow, hhigh⟩, hpos⟩).2.1
        omega
      · exact (h.2 ⟨hbit, hlow, hne⟩).2.2
    · intro h
      constructor
      · rintro ⟨hbit, hlow | ⟨hlow, hhigh⟩, hpos⟩
        · exact ⟨hbit, hlow, hpos.rectVoltage_ne_zero⟩
        · exact absurd hpos (h.current hport hbit hlow hhigh)
      · rintro ⟨hbit, hlow, hne⟩
        exact ⟨hbit, .inl hlow, h.bytes hport hbit hlow hne⟩
  | false =>
    simp only [Bool.false_eq_true, false_and, or_false, false_or]
    constructor
    · intro h
      refine ⟨fun _ hout => ?_, fun htrue => ?_, fun htrue => ?_⟩
      · by_contra hlarge
        have hset : SetsPort v s := ⟨hport, hout, by omega⟩
        exact hlarge (h.2 (.inl hset)).2
      · exact absurd (hport.symm.trans htrue) Bool.false_ne_true
      · exact absurd (hport.symm.trans htrue) Bool.false_ne_true
    · intro h
      constructor
      · rintro ⟨hset, -⟩
        exact .inl hset
      · rintro (hset | ⟨hset, -⟩) <;> exact ⟨hset, h.voltage hset.1 hset.2.1⟩

end Event

/-! ### Runs -/

/-- After a start the output is enabled, and the charge port is only set with the output. -/
structure Fed (s : State D) : Prop where
  port : s.isChargePortSet = true → s.mOutputControl = true
  last : s.lastCharging = some .startCharging → s.mOutputControl = true

section Fed

variable {skipWakeLock : Bool} {s t : State D} {value : List (BitVec 8)}

theorem fed_initial : Fed ({} : State D) := ⟨nofun, nofun⟩

theorem Fed.congr (h : Fed s) (heq : t.session = s.session) : Fed t := by
  simp only [State.session, Prod.mk.injEq] at heq
  obtain ⟨-, -, -, hport, houtput, hlast, -⟩ := heq
  constructor
  · rw [hport, houtput]
    exact h.port
  · rw [hlast, houtput]
    exact h.last

/-- The last command after a stop command that no start command follows. -/
theorem lastCharging_call_stop (s : State D) (pre post : List Command)
    (h : post.filter Command.isCharging = []) :
    (s.call (pre ++ .stopCharging :: post)).lastCharging = some .stopCharging := by
  have hstop : Command.isCharging .stopCharging = true := rfl
  rw [lastCharging_call, List.filter_append, List.filter_cons_of_pos hstop, h,
    List.getLast?_append]
  rfl

theorem Fed.disconnect [DecidableEq D] (h : Fed s) (device : D) :
    Fed (onDisconnected skipWakeLock device
      { s with devices := s.devices.filter (· ≠ device) }) := by
  unfold onDisconnected
  by_cases hd : s.mDevice = some device
  · have hlast : ∀ (u : State D) (complete : Bool), (u.call ([.enableDataNotification false,
        .enableAlertNotification false, .stopCharging] ++ powerApply complete)).lastCharging =
        some .stopCharging :=
      fun u _ => lastCharging_call_stop u [_, _] _ rfl
    simp only [if_pos hd]
    cases skipWakeLock <;>
      exact ⟨nofun, fun hstart => absurd ((hlast _ _).symm.trans hstart) nofun⟩
  · simp only [if_neg hd]
    exact ⟨nofun, h.last⟩

theorem Fed.read (h : Fed s) (device : D) (id : Uuid) :
    Fed (onCharacteristicReadRequest device id s).2 := by
  unfold onCharacteristicReadRequest
  split_ifs
  · have hlast : (s.call [.enablePowerApply false false false,
        .enableDataNotification true]).lastCharging = s.lastCharging := lastCharging_call_of rfl
    exact ⟨h.port, fun hstart => h.last (hlast.symm.trans hstart)⟩
  · exact h
  · exact h
  · exact h

theorem Fed.writeControl (h : Fed s) : Fed (onControlWriteRequest skipWakeLock value s) := by
  unfold onControlWriteRequest
  split_ifs with hlen
  · unfold processPruControl
    simp only
    by_cases henable : ((PruControl.setValue value).getEnablePruOutput &&
        (PruControl.setValue value).getPermission) = true
    · rw [if_pos henable]
      exact ⟨fun _ => rfl, fun _ => rfl⟩
    · rw [if_neg henable]
      refine ⟨nofun, fun hstart => ?_⟩
      have hlast :=
        lastCharging_call_stop { s with mPruControl := PruControl.setValue value } [] [] rfl
      exact absurd (hlast.symm.trans hstart) nofun
  · exact h

theorem Fed.writeAlert (h : Fed s) (device : D) : Fed (onAlertWriteRequest device value s) := by
  unfold onAlertWriteRequest processPruAlertRequest
  split_ifs
  · have hlast : (State.call { s with mDevice := some device }
        [.enableAlertNotification (value.getD 0 0 &&& 1 = 1)]).lastCharging = s.lastCharging :=
      lastCharging_call_of rfl
    exact ⟨h.port, fun hstart => h.last (hlast.symm.trans hstart)⟩
  · exact h

/-- A data event starts the charging only with the output. -/
theorem Fed.wipowerData (h : Fed s) (v : Vector (BitVec 8) 20) :
    Fed { chkDynParamsAndStartCharging v s with mPruDynamicParam := .setValue v } := by
  unfold chkDynParamsAndStartCharging
  simp only
  split_ifs with hport hset hstart hstart hstart
  · exact ⟨fun _ => hset.2, fun _ => hset.2⟩
  · exact ⟨fun _ => hset.2, fun _ => hset.2⟩
  · exact ⟨h.port, fun _ => h.port hstart.1⟩
  · exact ⟨h.port, h.last⟩
  · exact ⟨h.port, fun _ => h.port hstart.1⟩
  · exact ⟨h.port, h.last⟩

theorem fed_step [DecidableEq D] {e : Event D} (h : Fed s) (hs : step skipWakeLock s e = some t) :
    Fed t := by
  unfold step at hs
  split_ifs at hs with hmem
  obtain rfl := Option.some.inj hs
  cases e with
  | connect device => exact ⟨h.port, h.last⟩
  | disconnect device => exact h.disconnect device
  | read device id => exact h.read device id
  | writeControl device value => exact h.writeControl
  | writeAlert device value => exact h.writeAlert device
  | wipowerData value => exact h.wipowerData value
  | wipowerAlert alert => exact h.congr (session_sendPruAlert alert s)
  | ptuNotPresent => exact h.congr (session_initiateDisconnection s)
  | chargingRequired required => exact h.congr (session_chargingRequiredStatus required s)

end Fed

/-- The events lead from the start to a state. -/
abbrev Reaches [DecidableEq D] (skipWakeLock : Bool) (es : List (Event D)) (s : State D) : Prop :=
  Run (step skipWakeLock) (fun _ _ => True) {} es s

theorem fed_of_reaches [DecidableEq D] {skipWakeLock : Bool} {es : List (Event D)} {s : State D}
    (h : Reaches skipWakeLock es s) : Fed s :=
  h.invariant fed_initial fun _ _ _ _ hfed hstep => fed_step hfed hstep

/-- All data events of a run follow the measurements, and after a start the output is enabled. -/
structure ChargesRight [DecidableEq D] (skipWakeLock : Bool) (es : List (Event D)) : Prop where
  events : ∀ pre v s, pre ++ [.wipowerData v] <+: es → Reaches skipWakeLock pre s →
    (Issues v s ↔ Wanted v s)
  last : ∀ pre s, pre <+: es → Reaches skipWakeLock pre s →
    s.lastCharging = some .startCharging → s.mOutputControl = true

/-- **When the charging commands follow the measurements.** -/
theorem chargesRight_iff [DecidableEq D] (skipWakeLock : Bool) (es : List (Event D)) :
    ChargesRight skipWakeLock es ↔ ∀ pre v s, pre ++ [.wipowerData v] <+: es →
      Reaches skipWakeLock pre s → Unmistaken v s := by
  constructor
  · intro h pre v s hpre hreach
    exact (follows_iff v s).1 (h.events pre v s hpre hreach)
  · intro h
    exact ⟨fun pre v s hpre hreach => (follows_iff v s).2 (h pre v s hpre hreach),
      fun _ _ _ hreach => (fed_of_reaches hreach).last⟩

/-- A device enables the output, and the voltage is 32768 mV: the charging does not start. -/
theorem not_chargesRight_sample : ¬ ChargesRight false
    [(.connect () : Event Unit), .read () .pruStatic, .writeControl () [0x80, 0, 0, 0, 0],
      .wipowerData #v[0, 0, 0x80, 0, 0, 0, 0, 0, 0, 0, 0, 0, 0, 0, 0, 0, 0, 0, 0, 0]] := by
  intro h
  have hexec : (exec (step false) (fun _ _ => True) ({} : State Unit)
      [.connect (), .read () .pruStatic, .writeControl () [0x80, 0, 0, 0, 0]]).map
      (fun s => (s.isChargePortSet, s.mOutputControl)) = some (false, true) := by decide
  obtain ⟨s, hreach, hs⟩ := exists_run_of_exec hexec
  rw [Prod.mk.injEq] at hs
  have hfollows := h.events _ _ s List.prefix_rfl hreach
  have hvoltage := ((follows_iff _ s).1 hfollows).voltage hs.1 hs.2
  exact absurd hvoltage (by decide)

end A4wp

end Msm8909w
