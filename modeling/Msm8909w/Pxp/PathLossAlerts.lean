import Mathlib.Data.List.Chain
import Msm8909w.Pxp.PathLoss

/-!
# Path loss alerts

A report of the RSSI raises an alert if the path loss is above the threshold, and a later one
finishes it; a new alert level changes an alert that goes on.  The level is not looked at when an
alert is raised, and the one scheduler polls the devices without alerts as well.

* `view_step` : what reports and settings change of a device,
* `alertsRight_iff` : the alerts are right exactly if no report raises one for a device whose level
  is `ALERT_LEVEL_NO`.
-/

namespace Msm8909w

namespace Pxp

namespace PathLoss

variable {D : Type} [DecidableEq D]

/-! ### What a device has seen -/

/-- The broadcasts about the alert of a device: `true` for `DEVICE_ALLERT` and `false` for
`DEVICE_ALLERT_FINISH`. -/
def alertHistory (d : D) (log : List (Act D)) : List Bool :=
  log.filterMap fun
    | .deviceAllert e _ => if e = d then some true else none
    | .deviceAllertFinish e => if e = d then some false else none
    | _ => none

/-- The levels written to the alert characteristic of a device. -/
def writtenLevels (d : D) (log : List (Act D)) : List ℤ :=
  log.filterMap fun
    | .writeAlertLevel e level => if e = d then some level else none
    | _ => none

/-- What matters to the alerts of one device. -/
structure View where
  isAlerting : Bool
  pathLossAlertLevel : ℤ
  history : List Bool
  written : List ℤ

def view (d : D) (s : State D) : View :=
  ⟨(s.props d).isAlerting, (s.props d).pathLossAlertLevel, alertHistory d s.log,
    writtenLevels d s.log⟩

/-- What one event can do to a device. -/
inductive View.Step : View → View → Prop
  | same (v : View) : Step v v
  | alert (level : ℤ) (history : List Bool) (written : List ℤ) :
    Step ⟨false, level, history, written⟩
      ⟨true, level, history ++ [true], written ++ [level]⟩
  | finish (level : ℤ) (history : List Bool) (written : List ℤ) :
    Step ⟨true, level, history, written⟩
      ⟨false, level, history ++ [false], written ++ [ALERT_LEVEL_NO]⟩
  | quietLevel (level level' : ℤ) (history : List Bool) (written : List ℤ) :
    Step ⟨false, level, history, written⟩ ⟨false, level', history, written⟩
  | alertLevel (level level' : ℤ) (history : List Bool) (written : List ℤ) :
    Step ⟨true, level, history, written⟩
      ⟨true, level', history ++ (if level' = ALERT_LEVEL_NO then [false] else []),
        written ++ [level']⟩

/-- The device has last been told its level while it is alerting, and no level otherwise; and
between two alerts the first one has been finished. -/
structure View.Ok (v : View) : Prop where
  alerting : v.isAlerting = true → v.written.getLast? = some v.pathLossAlertLevel
  quiet : v.isAlerting = false → v.written.getLast? = none ∨
    v.written.getLast? = some ALERT_LEVEL_NO
  last : v.isAlerting = false → v.history.getLast? ≠ some true
  finished : v.history.IsChain fun alert alert' => ¬ (alert = true ∧ alert' = true)

theorem View.Ok.step {v w : View} (h : v.Ok) (hs : v.Step w) : w.Ok := by
  cases hs with
  | same => exact h
  | alert level history written =>
    refine ⟨fun _ => by simp, nofun, nofun, ?_⟩
    refine List.isChain_append.2 ⟨h.finished, List.isChain_singleton _, fun a ha b _ hab => ?_⟩
    exact h.last rfl (hab.1 ▸ ha)
  | finish level history written =>
    refine ⟨nofun, fun _ => .inr (by simp), fun _ => by simp, ?_⟩
    refine List.isChain_append.2 ⟨h.finished, List.isChain_singleton _, fun a _ b hb hab => ?_⟩
    rw [hab.2] at hb
    cases hb
  | quietLevel level level' history written => exact ⟨nofun, h.quiet, h.last, h.finished⟩
  | alertLevel level level' history written =>
    refine ⟨fun _ => by simp, nofun, nofun, ?_⟩
    refine List.isChain_append.2 ⟨h.finished, by split_ifs <;> simp, fun a _ b hb hab => ?_⟩
    rw [hab.2] at hb
    split_ifs at hb <;> cases hb

/-! ### Steps -/

section Step

variable {s t : State D} {d e : D}

theorem alertHistory_append (d : D) (log acts : List (Act D)) :
    alertHistory d (log ++ acts) = alertHistory d log ++ alertHistory d acts :=
  List.filterMap_append

theorem writtenLevels_append (d : D) (log acts : List (Act D)) :
    writtenLevels d (log ++ acts) = writtenLevels d log ++ writtenLevels d acts :=
  List.filterMap_append

theorem view_act (d : D) (s : State D) (acts : List (Act D)) :
    view d (s.act acts) = ⟨(s.props d).isAlerting, (s.props d).pathLossAlertLevel,
      alertHistory d s.log ++ alertHistory d acts,
      writtenLevels d s.log ++ writtenLevels d acts⟩ := by
  rw [view, State.act_log, State.act_props, alertHistory_append, writtenLevels_append]

/-- What is not about a device does not change its view. -/
theorem view_act_of_nil {acts : List (Act D)} (hhistory : alertHistory d acts = [])
    (hwritten : writtenLevels d acts = []) : view d (s.act acts) = view d s := by
  rw [view_act, hhistory, hwritten, List.append_nil, List.append_nil]
  rfl

theorem view_modify {f : Properties D → Properties D}
    (h : e = d → (f (s.props e)).isAlerting = (s.props e).isAlerting ∧
      (f (s.props e)).pathLossAlertLevel = (s.props e).pathLossAlertLevel) :
    view e (s.modify d f) = view e s := by
  by_cases he : e = d
  · obtain rfl := he
    rw [view, view, State.modify_props_self, State.modify_log, (h rfl).1, (h rfl).2]
  · rw [view, view, State.modify_props_of_ne he, State.modify_log]

omit [DecidableEq D] in
theorem writeAlertLevel_eq_some {level : ℤ} (h : writeAlertLevel d level s = some t) :
    t = s.act [.writeAlertLevel d level] := by
  unfold writeAlertLevel at h
  split_ifs at h
  exact (Option.some.inj h).symm

/-- A report raises an alert, finishes one, or does nothing. -/
theorem onReadRemoteRssi_cases {rssi : ℤ} {success : Bool}
    (h : onReadRemoteRssi d rssi success s = some t) :
    ((success = true ∧ (s.props d).isAlerting = false ∧
        (s.props d).maxPathLossThreshold < (s.props d).txPowerLevel - rssi) ∧
      t = ((s.act [.writeAlertLevel d (s.props d).pathLossAlertLevel]).modify d fun p =>
        { p with isAlerting := true }).act [.deviceAllert d rssi, .pathLossAllert d]) ∨
    ((s.props d).isAlerting = true ∧
      t = ((s.act [.writeAlertLevel d ALERT_LEVEL_NO]).modify d fun p =>
        { p with isAlerting := false }).act [.deviceAllertFinish d]) ∨
    (¬ (success = true ∧ (s.props d).isAlerting = false ∧
        (s.props d).maxPathLossThreshold < (s.props d).txPowerLevel - rssi) ∧ t = s) := by
  unfold onReadRemoteRssi at h
  simp only at h
  split_ifs at h with hsuccess halert hfinish
  · refine .inr (.inr ⟨fun hraise => ?_, (Option.some.inj h).symm⟩)
    rw [hraise.1] at hsuccess
    cases hsuccess
  · obtain ⟨u, hwrite, rfl⟩ := Option.map_eq_some_iff.1 h
    rw [writeAlertLevel_eq_some hwrite]
    exact .inl ⟨⟨by simpa using hsuccess, by simpa using halert.2, halert.1⟩, rfl⟩
  · obtain ⟨u, hwrite, rfl⟩ := Option.map_eq_some_iff.1 h
    rw [writeAlertLevel_eq_some hwrite]
    exact .inr (.inl ⟨hfinish.2, rfl⟩)
  · refine .inr (.inr ⟨fun hraise => halert ⟨hraise.2.2, ?_⟩, (Option.some.inj h).symm⟩)
    rw [hraise.2.1]
    rfl

theorem view_stopPathLossSwMonitor : view e (stopPathLossSwMonitor s) = view e s := by
  unfold stopPathLossSwMonitor
  split_ifs <;> rfl

theorem view_startMonitor (accepted : Bool) : view e (startMonitor d accepted s) = view e s := by
  have hact : ∀ rssiMin rssiMax, view e (s.act [.writeRssiThreshold d rssiMin rssiMax]) =
      view e s :=
    fun _ _ => view_act_of_nil rfl rfl
  unfold startMonitor
  rw [view_modify fun _ => ⟨rfl, rfl⟩]
  cases accepted <;> exact hact _ _

/-- The monitors have no part in the alerts. -/
theorem view_switchMonitor (level : ℤ) (accepted : Bool) :
    view e (switchMonitor d level accepted s) = view e s := by
  unfold switchMonitor
  simp only
  split_ifs
  · exact view_startMonitor accepted
  · rfl
  · rw [view_stopPathLossSwMonitor, view_modify fun _ => ⟨rfl, rfl⟩]
    rfl
  · rw [view_stopPathLossSwMonitor]

/-- A write, a change and what is broadcast, all about one device. -/
theorem view_write_modify_act (s : State D) (level : ℤ) (f : Properties D → Properties D)
    {acts : List (Act D)} (hwritten : writtenLevels d acts = []) :
    view d (((s.act [.writeAlertLevel d level]).modify d f).act acts) =
      ⟨(f (s.props d)).isAlerting, (f (s.props d)).pathLossAlertLevel,
        alertHistory d s.log ++ alertHistory d acts, writtenLevels d s.log ++ [level]⟩ := by
  have hhistory : alertHistory d [.writeAlertLevel d level] = [] := rfl
  have hlevel : writtenLevels d [.writeAlertLevel d level] = [level] := by simp [writtenLevels]
  rw [view_act, State.modify_props_self, State.modify_log, State.act_log, State.act_props,
    alertHistory_append, writtenLevels_append, hhistory, hlevel, hwritten, List.append_nil,
    List.append_nil]

/-- The same, seen from another device. -/
theorem view_write_modify_act_of_ne (s : State D) (level : ℤ) (f : Properties D → Properties D)
    {acts : List (Act D)} (he : e ≠ d) (hhistory : alertHistory e acts = [])
    (hwritten : writtenLevels e acts = []) :
    view e (((s.act [.writeAlertLevel d level]).modify d f).act acts) = view e s := by
  have hlevel : writtenLevels e [.writeAlertLevel d level] = [] := by simp [writtenLevels, he.symm]
  rw [view_act_of_nil hhistory hwritten, view_modify fun heq => absurd heq he,
    view_act_of_nil rfl hlevel]

theorem view_onReadRemoteRssi {rssi : ℤ} {success : Bool}
    (h : onReadRemoteRssi d rssi success s = some t) (e : D) : (view e s).Step (view e t) := by
  rcases onReadRemoteRssi_cases h with ⟨⟨-, hquiet, -⟩, rfl⟩ | ⟨halert, rfl⟩ | ⟨-, rfl⟩
  · by_cases he : e = d
    · obtain rfl := he
      have hhistory : alertHistory e [.deviceAllert e rssi, .pathLossAllert e] = [true] := by
        simp [alertHistory]
      rw [view_write_modify_act s _ _ rfl, hhistory, view, hquiet]
      exact .alert _ _ _
    · rw [view_write_modify_act_of_ne s _ _ he (by simp [alertHistory, Ne.symm he]) rfl]
      exact .same _
  · by_cases he : e = d
    · obtain rfl := he
      have hhistory : alertHistory e [.deviceAllertFinish e] = [false] := by simp [alertHistory]
      rw [view_write_modify_act s _ _ rfl, hhistory, view, halert]
      exact .finish _ _ _
    · rw [view_write_modify_act_of_ne s _ _ he (by simp [alertHistory, Ne.symm he]) rfl]
      exact .same _
  · exact .same _

theorem writtenLevels_newLevelAct (e d : D) (level : ℤ) :
    writtenLevels e [newLevelAct d level] = [] := by
  unfold newLevelAct
  split_ifs <;> rfl

theorem alertHistory_newLevelAct (d : D) (level : ℤ) :
    alertHistory d [newLevelAct d level] = if level = ALERT_LEVEL_NO then [false] else [] := by
  unfold newLevelAct
  split_ifs <;> simp [alertHistory]

theorem alertHistory_newLevelAct_of_ne (level : ℤ) (he : e ≠ d) :
    alertHistory e [newLevelAct d level] = [] := by
  unfold newLevelAct
  split_ifs <;> simp [alertHistory, he.symm]

/-- A new level is only written to a device that is alerting. -/
theorem view_writeNewLevel {level : ℤ} (h : writeNewLevel d level s = some t) (e : D) :
    (view e s).Step (view e t) := by
  unfold writeNewLevel at h
  simp only [State.modify_props_self] at h
  split_ifs at h with halert
  · obtain ⟨u, hwrite, rfl⟩ := Option.map_eq_some_iff.1 h
    rw [writeAlertLevel_eq_some hwrite]
    by_cases he : e = d
    · obtain rfl := he
      have hlevel : writtenLevels e [.writeAlertLevel e level] = [level] := by
        simp [writtenLevels]
      have hnil : alertHistory e [.writeAlertLevel e level] = [] := rfl
      rw [view_act, State.act_log, State.act_props, State.modify_props_self, State.modify_log,
        alertHistory_append, writtenLevels_append, hlevel, hnil, alertHistory_newLevelAct,
        writtenLevels_newLevelAct, List.append_nil, List.append_nil, view, halert]
      exact .alertLevel _ _ _ _
    · have hother : writtenLevels e [.writeAlertLevel d level] = [] := by
        simp [writtenLevels, Ne.symm he]
      rw [view_act_of_nil (alertHistory_newLevelAct_of_ne level he)
        (writtenLevels_newLevelAct e d level), view_act_of_nil rfl hother,
        view_modify fun heq => absurd heq he]
      exact .same _
  · obtain rfl := Option.some.inj h
    by_cases he : e = d
    · obtain rfl := he
      rw [Bool.not_eq_true] at halert
      rw [view, view, State.modify_props_self, State.modify_log, halert]
      exact .quietLevel _ _ _ _
    · rw [view_modify fun heq => absurd heq he]
      exact .same _

/-- The events about the path loss. -/
def Event.isPathLoss : Event D → Bool
  | .readRemoteRssi _ _ _ | .setPathLossAlertLevel _ _ _ | .setMaxPathLossThreshold _ _ |
    .setMinPathLossThreshold _ _ => true
  | _ => false

theorem setPathLossAlertLevel_cases {level : ℤ} {accepted result : Bool}
    (h : setPathLossAlertLevel d level accepted s = some (result, t)) :
    t = s ∨ ∃ u, writeNewLevel d level s = some u ∧ t = switchMonitor d level accepted u := by
  unfold setPathLossAlertLevel at h
  split_ifs at h
  · exact .inl (Prod.mk.inj (Option.some.inj h)).2.symm
  · exact .inl (Prod.mk.inj (Option.some.inj h)).2.symm
  · obtain ⟨u, hwrite, heq⟩ := Option.map_eq_some_iff.1 h
    exact .inr ⟨u, hwrite, (Prod.mk.inj heq).2.symm⟩

/-- An event about the path loss is a report, sets a level, or changes nothing that matters. -/
theorem step_cases {event : Event D} (hevent : event.isPathLoss = true)
    (h : step s event = some t) :
    (∃ d rssi success, event = .readRemoteRssi d rssi success ∧
      onReadRemoteRssi d rssi success s = some t) ∨
    (∃ d level accepted u, event = .setPathLossAlertLevel d level accepted ∧
      writeNewLevel d level s = some u ∧ t = switchMonitor d level accepted u) ∨
    ∀ e, view e t = view e s := by
  cases event with
  | readRemoteRssi d rssi success =>
    simp only [step] at h
    split_ifs at h
    exact .inl ⟨d, rssi, success, rfl, h⟩
  | setPathLossAlertLevel d level accepted =>
    simp only [step] at h
    split_ifs at h
    obtain ⟨⟨result, u⟩, hset, rfl⟩ := Option.map_eq_some_iff.1 h
    rcases setPathLossAlertLevel_cases hset with rfl | ⟨v, hwrite, rfl⟩
    · exact .inr (.inr fun e => rfl)
    · exact .inr (.inl ⟨d, level, accepted, v, rfl, hwrite, rfl⟩)
  | setMaxPathLossThreshold d threshold =>
    simp only [step] at h
    split_ifs at h
    obtain rfl := Option.some.inj h
    exact .inr (.inr fun e => view_modify fun _ => ⟨rfl, rfl⟩)
  | setMinPathLossThreshold d threshold =>
    simp only [step] at h
    split_ifs at h
    obtain rfl := Option.some.inj h
    exact .inr (.inr fun e => view_modify fun _ => ⟨rfl, rfl⟩)
  | connect | disconnect | close | connected | disconnected | iasFound | characteristicRead |
    writeRssiThreshold | enableRssiMonitor | bondStateChanged => cases hevent

/-- **What an event about the path loss does to a device.** -/
theorem view_step {event : Event D} (hevent : event.isPathLoss = true)
    (h : step s event = some t) (e : D) : (view e s).Step (view e t) := by
  rcases step_cases hevent h with ⟨d, rssi, success, -, hread⟩ |
    ⟨d, level, accepted, u, -, hwrite, rfl⟩ | hsame
  · exact view_onReadRemoteRssi hread e
  · rw [view_switchMonitor]
    exact view_writeNewLevel hwrite e
  · rw [hsame]
    exact .same _

/-- How many alerts have been raised for a device. -/
def raised (d : D) (s : State D) : ℕ := (alertHistory d s.log).count true

/-- A report that finds the path loss of a quiet device above the threshold. -/
def Raises (d : D) (rssi : ℤ) (s : State D) : Prop :=
  (s.props d).isAlerting = false ∧
    (s.props d).maxPathLossThreshold < (s.props d).txPowerLevel - rssi

theorem View.Step.count_le {v w : View} (h : v.Step w) (hsame : w.isAlerting = v.isAlerting) :
    w.history.count true = v.history.count true := by
  cases h with
  | same => rfl
  | alert => cases hsame
  | finish => cases hsame
  | quietLevel => rfl
  | alertLevel => split_ifs <;> simp

theorem isAlerting_writeNewLevel {level : ℤ} (h : writeNewLevel d level s = some t) (e : D) :
    (t.props e).isAlerting = (s.props e).isAlerting := by
  have hmodify : ((s.modify d fun p => { p with pathLossAlertLevel := level }).props e).isAlerting =
      (s.props e).isAlerting := by
    by_cases he : e = d
    · obtain rfl := he
      rw [State.modify_props_self]
    · rw [State.modify_props_of_ne he]
  unfold writeNewLevel at h
  simp only at h
  split_ifs at h
  · obtain ⟨u, hwrite, rfl⟩ := Option.map_eq_some_iff.1 h
    rw [writeAlertLevel_eq_some hwrite]
    exact hmodify
  · obtain rfl := Option.some.inj h
    exact hmodify

theorem raised_eq_of_view (h : (view d t).history.count true = (view d s).history.count true) :
    raised d t = raised d s := h

/-- One more alert is raised by such a report, and none by another one. -/
theorem raised_onReadRemoteRssi {rssi : ℤ} {success : Bool}
    (h : onReadRemoteRssi d rssi success s = some t) :
    (success = true ∧ Raises d rssi s → raised d t = raised d s + 1) ∧
      (¬ (success = true ∧ Raises d rssi s) → raised d t = raised d s) := by
  rcases onReadRemoteRssi_cases h with ⟨hraises, rfl⟩ | ⟨halert, rfl⟩ | ⟨hraises, rfl⟩
  · refine ⟨fun _ => ?_, fun hno => absurd hraises hno⟩
    rw [raised, raised, State.act_log, State.modify_log, State.act_log, alertHistory_append,
      alertHistory_append, List.count_append, List.count_append]
    simp [alertHistory]
  · refine ⟨fun hraises => ?_, fun _ => ?_⟩
    · exact absurd (halert.symm.trans hraises.2.1) Bool.noConfusion
    · rw [raised, raised, State.act_log, State.modify_log, State.act_log, alertHistory_append,
        alertHistory_append, List.count_append, List.count_append]
      simp [alertHistory]
  · exact ⟨fun h => absurd h hraises, fun _ => rfl⟩

theorem raised_onReadRemoteRssi_of_ne {rssi : ℤ} {success : Bool}
    (h : onReadRemoteRssi d rssi success s = some t) (he : e ≠ d) : raised e t = raised e s := by
  refine raised_eq_of_view ((view_onReadRemoteRssi h e).count_le ?_)
  rcases onReadRemoteRssi_cases h with ⟨-, rfl⟩ | ⟨-, rfl⟩ | ⟨-, rfl⟩
  · simp only [view, State.act_props, State.modify_props_of_ne he]
  · simp only [view, State.act_props, State.modify_props_of_ne he]
  · rfl

/-- **Only such a report raises an alert.** -/
theorem raised_lt_iff {event : Event D} (hevent : event.isPathLoss = true)
    (h : step s event = some t) (d : D) :
    raised d s < raised d t ↔ ∃ rssi, event = .readRemoteRssi d rssi true ∧ Raises d rssi s := by
  constructor
  · intro hlt
    rcases step_cases hevent h with ⟨e, rssi, success, rfl, hread⟩ |
      ⟨e, level, accepted, u, rfl, hwrite, rfl⟩ | hsame
    · by_cases he : d = e
      · obtain rfl := he
        by_cases hraises : success = true ∧ Raises d rssi s
        · obtain ⟨rfl, hraises⟩ := hraises
          exact ⟨rssi, rfl, hraises⟩
        · have hcount := (raised_onReadRemoteRssi hread).2 hraises
          omega
      · have hcount := raised_onReadRemoteRssi_of_ne hread he
        omega
    · have hcount := (view_writeNewLevel hwrite d).count_le (isAlerting_writeNewLevel hwrite d)
      rw [← view_switchMonitor (d := e) level accepted] at hcount
      have hsame := raised_eq_of_view hcount
      omega
    · have hcount := raised_eq_of_view (congrArg (fun v => v.history.count true) (hsame d))
      omega
  · rintro ⟨rssi, rfl, hraises⟩
    simp only [step] at h
    split_ifs at h
    rw [(raised_onReadRemoteRssi h).1 ⟨rfl, hraises⟩]
    exact Nat.lt_succ_self _

end Step

/-! ### Runs -/

/-- Events about the path loss lead from one state to another. -/
abbrev Watches (s : State D) (es : List (Event D)) (t : State D) : Prop :=
  Run step (fun _ event => event.isPathLoss = true) s es t

/-- The state before the first report: no alert goes on and nothing has been written. -/
def quiet (s : State D) : State D :=
  { s with props := fun d => { s.props d with isAlerting := false }, log := [] }

/-- Alerts are only raised where they are wanted, one of a device after the other, and the device is
told of them. -/
structure AlertsRight (s : State D) (es : List (Event D)) : Prop where
  wanted : ∀ pre event u t d, pre ++ [event] <+: es → Watches s pre u →
    event.isPathLoss = true → step u event = some t → raised d u < raised d t →
      (u.props d).pathLossAlertLevel ≠ ALERT_LEVEL_NO ∧ ∃ rssi,
        event = .readRemoteRssi d rssi true ∧
          (u.props d).maxPathLossThreshold < (u.props d).txPowerLevel - rssi
  finished : ∀ pre t d, pre <+: es → Watches s pre t →
    (alertHistory d t.log).IsChain fun alert alert' => ¬ (alert = true ∧ alert' = true)
  alerting : ∀ pre t d, pre <+: es → Watches s pre t → (t.props d).isAlerting = true →
    (writtenLevels d t.log).getLast? = some (t.props d).pathLossAlertLevel
  quiet : ∀ pre t d, pre <+: es → Watches s pre t → (t.props d).isAlerting = false →
    (writtenLevels d t.log).getLast? = none ∨
      (writtenLevels d t.log).getLast? = some ALERT_LEVEL_NO

section

variable {s t : State D} {es : List (Event D)}

theorem ok_quiet (d : D) (s : State D) : (view d (quiet s)).Ok :=
  ⟨nofun, fun _ => .inl rfl, fun _ => nofun, List.isChain_nil⟩

theorem ok_of_watches (h : Watches (quiet s) es t) (d : D) : (view d t).Ok :=
  h.invariant (I := fun t => (view d t).Ok) (ok_quiet d s) fun _ _ _ hevent hok hstep =>
    hok.step (view_step hevent hstep d)

/-- **When the alerts are right.** -/
theorem alertsRight_iff (s : State D) (es : List (Event D)) : AlertsRight (quiet s) es ↔
    ∀ pre d rssi u t, pre ++ [.readRemoteRssi d rssi true] <+: es → Watches (quiet s) pre u →
      step u (.readRemoteRssi d rssi true) = some t → Raises d rssi u →
        (u.props d).pathLossAlertLevel ≠ ALERT_LEVEL_NO := by
  constructor
  · intro h pre d rssi u t hpre hwatch hstep hraises
    have hlt := (raised_lt_iff rfl hstep d).2 ⟨rssi, rfl, hraises⟩
    exact (h.wanted pre _ u t d hpre hwatch rfl hstep hlt).1
  · intro h
    refine ⟨fun pre event u t d hpre hwatch hevent hstep hlt => ?_,
      fun pre t d _ hwatch => (ok_of_watches hwatch d).finished,
      fun pre t d _ hwatch => (ok_of_watches hwatch d).alerting,
      fun pre t d _ hwatch => (ok_of_watches hwatch d).quiet⟩
    obtain ⟨rssi, rfl, hraises⟩ := (raised_lt_iff hevent hstep d).1 hlt
    exact ⟨h pre d rssi u t hpre hwatch hstep hraises, rssi, rfl, hraises.2⟩

end

/-- Two connected devices with the immediate alert service. -/
def twoDevices : State Bool where
  devices := [false, true]
  props d := { iasAlertLevelCh := some ⟨d, 0, .alertLevel⟩, gatt := some .opened }

/-- The second device asks for alerts and is polled in software; so is the first one, which is far
away and does not. -/
theorem not_alertsRight_twoDevices : ¬ AlertsRight (quiet twoDevices)
    [.setMaxPathLossThreshold false 60, .setPathLossAlertLevel true 1 false,
      .readRemoteRssi false (-70) true] := by
  intro h
  have hexec : (exec step (fun _ event => event.isPathLoss = true) (quiet twoDevices)
      [.setMaxPathLossThreshold false 60, .setPathLossAlertLevel true 1 false]).map
      (fun u => ((u.props false).isAlerting, (u.props false).maxPathLossThreshold,
        (u.props false).txPowerLevel, (u.props false).pathLossAlertLevel,
        (step u (.readRemoteRssi false (-70) true)).isSome)) =
        some (false, 60, 0, ALERT_LEVEL_NO, true) := by decide
  obtain ⟨u, hwatch, hu⟩ := exists_run_of_exec hexec
  simp only [Prod.mk.injEq] at hu
  obtain ⟨hquiet, hmax, htx, hlevel, hstep⟩ := hu
  obtain ⟨t, ht⟩ := Option.isSome_iff_exists.1 hstep
  have hraises : Raises false (-70) u := ⟨hquiet, by rw [hmax, htx]; decide⟩
  exact (alertsRight_iff _ _).1 h _ _ _ u t List.prefix_rfl hwatch ht hraises hlevel

end PathLoss

end Pxp

end Msm8909w
