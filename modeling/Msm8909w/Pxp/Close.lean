import Msm8909w.Pxp.PathLoss

/-!
# Closing the proximity monitor

`close` goes through the devices, takes back the hardware monitors and closes the clients.  It
returns at the first device that is closed already, it knows a hardware monitor by `mState`, and it
stops the scheduler only if no device asks for alerts.

* `closeFrom_eq` : the devices that are visited, `foldl_closeDevice` : what becomes of them,
* `allClosed_iff` : everything is closed after one call exactly if nothing is left of the devices
  that are not visited, every hardware monitor of the others is known, and no level keeps the
  scheduler,
* `closesAll_iff` : the same for all calls of a run.
-/

namespace Msm8909w

namespace Pxp

namespace PathLoss

variable {D : Type} [DecidableEq D]

/-! ### What should be closed -/

/-- The monitor is enabled, as far as the last request goes; without a request, as it is. -/
def HardwareMonitor.isOn (h : HardwareMonitor) : Bool := h.requests.getLast?.getD h.enabled

/-- Nothing is left open. -/
structure AllClosed (s : State D) : Prop where
  gatt : ∀ d ∈ s.devices, (s.props d).gatt ≠ some .opened
  hardware : ∀ d ∈ s.devices, (s.hardware d).isOn = false
  scheduler : s.mPathLossScheduler = false

/-- The devices before the first one that is closed. -/
def visited (s : State D) (order : List D) : List D :=
  order.takeWhile fun d => (s.props d).mState ≠ .closed

/-- What `close` has to find. -/
structure Closable (order : List D) (s : State D) : Prop where
  /-- No level keeps the scheduler. -/
  levels : s.mPathLossScheduler = true →
    ∀ d ∈ s.devices, (s.props d).pathLossAlertLevel = ALERT_LEVEL_NO
  /-- The hardware monitors of the visited devices are known. -/
  known : ∀ d ∈ visited s order, (s.hardware d).isOn = true →
    (s.props d).mState = .starting ∨ (s.props d).mState = .started
  /-- Nothing is open of the others. -/
  others : ∀ d ∈ order, d ∉ visited s order →
    (s.props d).gatt ≠ some .opened ∧ (s.hardware d).isOn = false

/-! ### The loop -/

section Loop

variable {s : State D} {d e : D} {order : List D}

theorem closeDevice_props_self (d : D) (s : State D) : (closeDevice d s).props d =
    { s.props d with gatt := (s.props d).gatt.map fun _ => .closed, mState := .closed } := by
  unfold closeDevice
  simp only [State.modify_props_self]
  split_ifs <;> rfl

theorem closeDevice_props_of_ne (h : e ≠ d) : (closeDevice d s).props e = s.props e := by
  unfold closeDevice
  simp only [State.modify_props_of_ne h]
  split_ifs <;> rfl

theorem closeDevice_hardware_of_ne (h : e ≠ d) : (closeDevice d s).hardware e = s.hardware e := by
  unfold closeDevice enableRssiMonitor
  simp only [State.modify_hardware]
  split_ifs
  · exact State.modifyHardware_hardware_of_ne h
  · rfl

/-- A hardware monitor is off afterwards if it was, or if it is known. -/
theorem isOn_closeDevice (d : D) (s : State D) : ((closeDevice d s).hardware d).isOn = false ↔
    ((s.hardware d).isOn = true →
      (s.props d).mState = .starting ∨ (s.props d).mState = .started) := by
  unfold closeDevice enableRssiMonitor
  simp only [State.modify_hardware]
  split_ifs with hstate
  · simp [HardwareMonitor.isOn, hstate]
  · simp [hstate]

theorem closeDevice_devices (d : D) (s : State D) : (closeDevice d s).devices = s.devices := by
  unfold closeDevice
  simp only [State.modify_devices]
  split_ifs <;> rfl

theorem closeDevice_mPathLossScheduler (d : D) (s : State D) :
    (closeDevice d s).mPathLossScheduler = s.mPathLossScheduler := by
  unfold closeDevice
  simp only [State.modify_mPathLossScheduler]
  split_ifs <;> rfl

/-- The device and its hardware monitor are the same in both states. -/
structure Same (e : D) (s t : State D) : Prop where
  props : t.props e = s.props e
  hardware : t.hardware e = s.hardware e

theorem same_closeDevice (h : e ≠ d) : Same e s (closeDevice d s) :=
  ⟨closeDevice_props_of_ne h, closeDevice_hardware_of_ne h⟩

/-- What is done to a device only looks at that device. -/
theorem Same.closeDevice {t : State D} (h : Same e s t) :
    Same e (closeDevice e s) (closeDevice e t) := by
  constructor
  · rw [closeDevice_props_self, closeDevice_props_self, h.props]
  · simp only [PathLoss.closeDevice, enableRssiMonitor, State.modify_hardware, h.props]
    split_ifs
    · simp only [State.modifyHardware_hardware_self, h.hardware]
    · exact h.hardware

theorem foldl_closeDevice_of_notMem (h : e ∉ order) (s : State D) :
    Same e s (order.foldl (fun s d => closeDevice d s) s) := by
  induction order generalizing s with
  | nil => exact ⟨rfl, rfl⟩
  | cons d order ih =>
    obtain ⟨hne, hnot⟩ := not_or.1 (mt List.mem_cons.2 h)
    have hrest := ih hnot (closeDevice d s)
    have hhead := same_closeDevice (s := s) hne
    exact ⟨hrest.props.trans hhead.props, hrest.hardware.trans hhead.hardware⟩

/-- Each device is closed on its own. -/
theorem foldl_closeDevice_of_mem (hnodup : order.Nodup) (h : e ∈ order) (s : State D) :
    Same e (closeDevice e s) (order.foldl (fun s d => closeDevice d s) s) := by
  induction order generalizing s with
  | nil => cases h
  | cons d order ih =>
    obtain ⟨hd, hrest⟩ := List.nodup_cons.1 hnodup
    by_cases he : e = d
    · obtain rfl := he
      exact foldl_closeDevice_of_notMem hd _
    · have hmem := List.mem_of_ne_of_mem he h
      have htail := ih hrest hmem (closeDevice d s)
      have hhead := (same_closeDevice (s := s) he).closeDevice
      exact ⟨htail.props.trans hhead.props, htail.hardware.trans hhead.hardware⟩

theorem foldl_closeDevice_frame (order : List D) (s : State D) :
    (order.foldl (fun s d => closeDevice d s) s).devices = s.devices ∧
      (order.foldl (fun s d => closeDevice d s) s).mPathLossScheduler = s.mPathLossScheduler := by
  induction order generalizing s with
  | nil => exact ⟨rfl, rfl⟩
  | cons d order ih =>
    obtain ⟨hdevices, hscheduler⟩ := ih (closeDevice d s)
    exact ⟨hdevices.trans (closeDevice_devices d s),
      hscheduler.trans (closeDevice_mPathLossScheduler d s)⟩

omit [DecidableEq D] in
theorem visited_congr {t : State D} (h : ∀ d ∈ order, t.props d = s.props d) :
    visited t order = visited s order := by
  induction order with
  | nil => rfl
  | cons d order ih =>
    obtain ⟨hd, hrest⟩ := List.forall_mem_cons.1 h
    have htail := ih hrest
    unfold visited at htail ⊢
    rw [List.takeWhile_cons, List.takeWhile_cons, hd, htail]

/-- The loop closes the devices that are visited. -/
theorem closeFrom_eq (h : order.Nodup) :
    closeFrom order s = (visited s order).foldl (fun s d => closeDevice d s) s := by
  induction order generalizing s with
  | nil => rfl
  | cons d order ih =>
    obtain ⟨hd, hnodup⟩ := List.nodup_cons.1 h
    rw [closeFrom]
    split_ifs with hclosed
    · simp [visited, hclosed]
    · have hsame : visited (closeDevice d s) order = visited s order := by
        refine visited_congr fun e he => closeDevice_props_of_ne ?_
        rintro rfl
        exact hd he
      rw [ih hnodup, hsame]
      simp [visited, hclosed]

end Loop

/-! ### One call -/

section Close

variable {s : State D} {order : List D}

omit [DecidableEq D] in
theorem stopPathLossSwMonitor_frame (s : State D) :
    (stopPathLossSwMonitor s).props = s.props ∧ (stopPathLossSwMonitor s).hardware = s.hardware ∧
      (stopPathLossSwMonitor s).devices = s.devices := by
  unfold stopPathLossSwMonitor
  split_ifs <;> exact ⟨rfl, rfl, rfl⟩

omit [DecidableEq D] in
theorem mPathLossScheduler_stopPathLossSwMonitor (s : State D) :
    (stopPathLossSwMonitor s).mPathLossScheduler = false ↔ (s.mPathLossScheduler = true →
      ∀ d ∈ s.devices, (s.props d).pathLossAlertLevel = ALERT_LEVEL_NO) := by
  unfold stopPathLossSwMonitor
  split_ifs with hstop
  · exact ⟨fun _ _ => hstop.2, fun _ => rfl⟩
  · rw [not_and] at hstop
    cases hscheduler : s.mPathLossScheduler with
    | false => simp
    | true => simpa using hstop hscheduler

/-- What becomes of a device that is visited, and of one that is not. -/
theorem close_device (hnodup : order.Nodup) (s : State D) (e : D) :
    (e ∈ visited s order → ((close order s).props e).gatt ≠ some .opened ∧
      (((close order s).hardware e).isOn = false ↔ ((s.hardware e).isOn = true →
        (s.props e).mState = .starting ∨ (s.props e).mState = .started))) ∧
    (e ∉ visited s order → Same e s (close order s)) := by
  obtain ⟨hprops, hhardware, -⟩ := stopPathLossSwMonitor_frame s
  have hvisited : visited (stopPathLossSwMonitor s) order = visited s order :=
    visited_congr fun d _ => congrFun hprops d
  have hclose : close order s =
      (visited s order).foldl (fun s d => closeDevice d s) (stopPathLossSwMonitor s) := by
    rw [close, closeFrom_eq hnodup, hvisited]
  rw [hclose]
  constructor
  · intro he
    have hnodup' : (visited s order).Nodup := hnodup.sublist (List.takeWhile_sublist _)
    have hsame := foldl_closeDevice_of_mem hnodup' he (stopPathLossSwMonitor s)
    rw [hsame.props, hsame.hardware, isOn_closeDevice, closeDevice_props_self, hprops, hhardware]
    refine ⟨?_, Iff.rfl⟩
    cases (s.props e).gatt <;> simp
  · intro he
    have hsame := foldl_closeDevice_of_notMem he (stopPathLossSwMonitor s)
    exact ⟨hsame.props.trans (congrFun hprops e), hsame.hardware.trans (congrFun hhardware e)⟩

theorem close_frame (hnodup : order.Nodup) (s : State D) : (close order s).devices = s.devices ∧
    (close order s).mPathLossScheduler = (stopPathLossSwMonitor s).mPathLossScheduler := by
  rw [close, closeFrom_eq hnodup]
  obtain ⟨hdevices, hscheduler⟩ :=
    foldl_closeDevice_frame (visited (stopPathLossSwMonitor s) order) (stopPathLossSwMonitor s)
  exact ⟨hdevices.trans (stopPathLossSwMonitor_frame s).2.2, hscheduler⟩

/-- **When one call closes everything.** -/
theorem allClosed_iff (h : s.Iterates order) :
    AllClosed (close order s) ↔ Closable order s := by
  obtain ⟨hnodup, horder, hkeys⟩ := h
  obtain ⟨hdevices, hscheduler⟩ := close_frame hnodup s
  constructor
  · intro h
    refine ⟨(mPathLossScheduler_stopPathLossSwMonitor s).1 (hscheduler ▸ h.scheduler),
      fun d hd => ?_, fun d hd hnot => ?_⟩
    · have hin : d ∈ (close order s).devices :=
        hdevices ▸ horder d ((List.takeWhile_sublist _).subset hd)
      exact ((close_device hnodup s d).1 hd).2.1 (h.hardware d hin)
    · have hin : d ∈ (close order s).devices := hdevices ▸ horder d hd
      have hsame := (close_device hnodup s d).2 hnot
      rw [← hsame.props, ← hsame.hardware]
      exact ⟨h.gatt d hin, h.hardware d hin⟩
  · intro h
    have hopen : ∀ d ∈ (close order s).devices, ((close order s).props d).gatt ≠ some .opened ∧
        ((close order s).hardware d).isOn = false := by
      intro d hd
      by_cases hvisited : d ∈ visited s order
      · obtain ⟨hgatt, hhardware⟩ := (close_device hnodup s d).1 hvisited
        exact ⟨hgatt, hhardware.2 (h.known d hvisited)⟩
      · have hsame := (close_device hnodup s d).2 hvisited
        rw [hsame.props, hsame.hardware]
        exact h.others d (hkeys d (hdevices ▸ hd)) hvisited
    exact ⟨fun d hd => (hopen d hd).1, fun d hd => (hopen d hd).2,
      hscheduler.trans ((mPathLossScheduler_stopPathLossSwMonitor s).2 h.levels)⟩

end Close

/-! ### Runs -/

/-- The events lead from the start to a state. -/
abbrev Reaches (es : List (Event D)) (s : State D) : Prop :=
  Run step (fun _ _ => True) {} es s

/-- Every call of a run closes everything. -/
def ClosesAll (es : List (Event D)) : Prop :=
  ∀ pre order (s t : State D), pre ++ [.close order] <+: es → Reaches pre s →
    step s (.close order) = some t → AllClosed t

/-- **When closing the monitor closes everything.** -/
theorem closesAll_iff (es : List (Event D)) : ClosesAll es ↔
    ∀ pre order (s : State D), pre ++ [.close order] <+: es → Reaches pre s →
      s.Iterates order → Closable order s := by
  constructor
  · intro h pre order s hpre hreach hiter
    exact (allClosed_iff hiter).1 (h pre order s _ hpre hreach (if_pos hiter))
  · intro h pre order s t hpre hreach hstep
    simp only [step] at hstep
    split_ifs at hstep with hiter
    obtain rfl := Option.some.inj hstep
    exact (allClosed_iff hiter).2 (h pre order s hpre hreach hiter)

/-- Two devices are closed, and one of them is connected again: the loop returns at the other one,
and the client stays open. -/
theorem not_closesAll_reconnected : ¬ ClosesAll
    [.connect false true, .connect true true, .close [false, true], .connect true true,
      .close [false, true]] := by
  intro h
  have hexec : (exec step (fun _ _ => True) ({} : State Bool)
      [.connect false true, .connect true true, .close [false, true], .connect true true]).map
      (fun s => (s.devices, ((close [false, true] s).props true).gatt)) =
        some ([false, true], some .opened) := by decide
  obtain ⟨s, hreach, hs⟩ := exists_run_of_exec hexec
  rw [Prod.mk.injEq] at hs
  obtain ⟨hdevices, hgatt⟩ := hs
  have hiter : s.Iterates [false, true] := by
    unfold State.Iterates
    rw [hdevices]
    decide
  have hclosed := h _ _ s _ List.prefix_rfl hreach (if_pos hiter)
  refine hclosed.gatt true ?_ hgatt
  rw [(close_frame hiter.1 s).1, hdevices]
  decide

end PathLoss

end Pxp

end Msm8909w
