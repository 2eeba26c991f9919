import Msm8909w.Hid.Service
import Msm8909w.Lib.Runs

/-!
# The report cache

The calls of the service tell what the host has been sent.  For every order of key touches, mouse
events, battery changes, callbacks and turns of the handler, a report that the host asks for is the
last one it was sent, or zeros if it was sent none since it connected, and every report has the
length that the descriptor says (`Service.allRight_run`).
-/

namespace Msm8909w.Hid

open ReportDescriptor

/-! ### What has been sent -/

/-- The input report that was sent last under an id, since the caches were emptied. -/
def lastSent (id : UInt8) : List Call → Option Bytes
  | [] => none
  | .cleared :: _ => none
  | .sendReport i data :: cs => if i = id then some data else lastSent id cs
  | _ :: cs => lastSent id cs

/-- The lamps that were shown last, since the caches were emptied. -/
def lastLamps : List Call → Option (Bool × Bool × Bool)
  | [] => none
  | .cleared :: _ => none
  | .onKeyboardLedState numLock capsLock scrollLock :: _ => some (numLock, capsLock, scrollLock)
  | _ :: cs => lastLamps cs

/-- The lamps of an output report. -/
def lampsOf (leds : UInt8) : Bool × Bool × Bool :=
  (leds &&& 0x01 ≠ 0, leds &&& 0x02 ≠ 0, leds &&& 0x04 ≠ 0)

/-- The length that the descriptor gives an input report. -/
def inputLength (id : UInt8) : ℕ := reportLength reportFields .input id.toNat

/-- A report of the device: it has fields in the descriptor and their length. -/
def IsInputReport (id : UInt8) (data : Bytes) : Prop :=
  fieldsOf reportFields .input id.toNat ≠ [] ∧ data.length = inputLength id

/-- A call is right after the earlier ones. -/
def Right (c : Call) (earlier : List Call) : Prop :=
  match c with
  | .sendReport id data => IsInputReport id data
  | .replyReport .input id data =>
    IsInputReport id data ∧ data = (lastSent id earlier).getD (List.replicate (inputLength id) 0)
  | .replyReport .output id data =>
    id = KEYBOARD_OUTPUT_REPORT_ID ∧
      match lastLamps earlier with
      | some lamps => ∃ leds, data = [leds] ∧ lamps = lampsOf leds
      | none => data = List.replicate 8 0
  | .replyReport .other _ _ => False
  | _ => True

/-- Every call is right after those before it. -/
def AllRight : List Call → Prop
  | [] => True
  | c :: cs => Right c cs ∧ AllRight cs

namespace Service

variable {L : Type} {strength : L → UInt8} {s t : Service L} {level : L} {id : UInt8} {data : Bytes}
  {c : Call} {m : Message} {n : ℕ}

/-- The caches hold what has been sent. -/
structure Kept (s : Service L) : Prop where
  right : AllRight s.calls
  sent : ∀ id data, s.mInputReportCache id = some data →
    Right (.replyReport .input id data) s.calls
  unsent : ∀ id, s.mInputReportCache id = none → lastSent id s.calls = none
  lamps : ∀ data, s.mOutputReportCache KEYBOARD_OUTPUT_REPORT_ID = some data →
    ∃ leds, data = [leds] ∧ lastLamps s.calls = some (lampsOf leds)
  dark : s.mOutputReportCache KEYBOARD_OUTPUT_REPORT_ID = none → lastLamps s.calls = none
  keyboard : ∀ data, lastSent KEYBOARD_INPUT_REPORT_ID s.calls = some data →
    data = s.mKeyboardWrapper.bytes

/-! ### Report ids -/

/-- The ids are the same in both protocol modes. -/
theorem keyboardReportId_eq (s : Service L) (type : ReportType) :
    s.keyboardReportId type = KEYBOARD_INPUT_REPORT_ID := by
  rw [keyboardReportId]
  split_ifs <;> rfl

theorem mouseReportId_eq (s : Service L) : s.mouseReportId = MOUSE_REPORT_ID := by
  rw [mouseReportId]
  split_ifs <;> rfl

theorem isInputReport_keyboard (hdata : data.length = 8) :
    IsInputReport KEYBOARD_INPUT_REPORT_ID data := by
  rw [IsInputReport, inputLength, reportLength, fieldsOf_keyboard]
  exact ⟨List.cons_ne_nil _ _, hdata⟩

theorem isInputReport_mouse (hdata : data.length = 4) : IsInputReport MOUSE_REPORT_ID data := by
  rw [IsInputReport, inputLength, reportLength, fieldsOf_mouse]
  exact ⟨List.cons_ne_nil _ _, hdata⟩

theorem isInputReport_battery (b : UInt8) : IsInputReport BATTERY_REPORT_ID [b] := by
  rw [IsInputReport, inputLength, reportLength, fieldsOf_battery]
  exact ⟨List.cons_ne_nil _ _, rfl⟩

/-! ### One call -/

/-- A call that changes nothing of what has been sent or shown. -/
def IsNeutral : Call → Prop
  | .replyReport .. => True
  | .reportError _ => True
  | .onProtocolModeState _ => True
  | .onConnectionState _ => True
  | _ => False

theorem lastSent_of_isNeutral (hc : IsNeutral c) (id : UInt8) (cs : List Call) :
    lastSent id (c :: cs) = lastSent id cs := by
  cases c <;> first | rfl | exact hc.elim

theorem lastLamps_of_isNeutral (hc : IsNeutral c) (cs : List Call) :
    lastLamps (c :: cs) = lastLamps cs := by
  cases c <;> first | rfl | exact hc.elim

/-- The caches, the keyboard and the calls are all that matters. -/
theorem Kept.congr (h : Kept s) (hcalls : t.calls = s.calls)
    (hin : t.mInputReportCache = s.mInputReportCache)
    (hout : t.mOutputReportCache = s.mOutputReportCache)
    (hkey : t.mKeyboardWrapper = s.mKeyboardWrapper) : Kept t where
  right := hcalls ▸ h.right
  sent := hcalls ▸ hin ▸ h.sent
  unsent := hcalls ▸ hin ▸ h.unsent
  lamps := hcalls ▸ hout ▸ h.lamps
  dark := hcalls ▸ hout ▸ h.dark
  keyboard := hcalls ▸ hkey ▸ h.keyboard

/-- With empty caches, nothing is to have been sent. -/
theorem Kept.of_empty (hright : AllRight s.calls) (hsent : ∀ id, lastSent id s.calls = none)
    (hlamps : lastLamps s.calls = none) (hin : ∀ id, s.mInputReportCache id = none)
    (hout : ∀ id, s.mOutputReportCache id = none) : Kept s where
  right := hright
  sent id data hdata := by
    rw [hin] at hdata
    cases hdata
  unsent id _ := hsent id
  lamps data hdata := by
    rw [hout] at hdata
    cases hdata
  dark _ := hlamps
  keyboard data hdata := by
    rw [hsent] at hdata
    cases hdata

theorem Kept.call (h : Kept s) (hc : IsNeutral c) (hr : Right c s.calls) : Kept (s.call c) where
  right := ⟨hr, h.right⟩
  sent id data hdata := by
    have hsent := h.sent id data hdata
    rw [Right] at hsent ⊢
    rw [Service.call, lastSent_of_isNeutral hc]
    exact hsent
  unsent id hid := (lastSent_of_isNeutral hc id s.calls).trans (h.unsent id hid)
  lamps data hdata := by
    rw [Service.call, lastLamps_of_isNeutral hc]
    exact h.lamps data hdata
  dark hdark := (lastLamps_of_isNeutral hc s.calls).trans (h.dark hdark)
  keyboard data hdata := h.keyboard data ((lastSent_of_isNeutral hc _ s.calls).symm.trans hdata)

/-- A report is kept and sent. -/
theorem Kept.sendReport (h : Kept s) (b : ReportBuffer 8) (hr : IsInputReport id data)
    (hid : id = KEYBOARD_INPUT_REPORT_ID → data = b.bytes)
    (hne : id ≠ KEYBOARD_INPUT_REPORT_ID → b = s.mKeyboardWrapper) :
    Kept (({ s with mKeyboardWrapper := b }).sendReport id data) where
  right := ⟨hr, h.right⟩
  sent i d hd := by
    change Function.update s.mInputReportCache id (some data) i = some d at hd
    rw [Right, Service.sendReport, Service.call, lastSent]
    by_cases hi : i = id
    · subst hi
      rw [Function.update_self, Option.some_inj] at hd
      subst hd
      exact ⟨hr, by rw [if_pos rfl]; rfl⟩
    · rw [Function.update_of_ne hi] at hd
      rw [if_neg (Ne.symm hi)]
      exact h.sent i d hd
  unsent i hi := by
    change Function.update s.mInputReportCache id (some data) i = none at hi
    have hne : i ≠ id := fun heq => by
      rw [heq, Function.update_self] at hi
      cases hi
    rw [Function.update_of_ne hne] at hi
    exact (if_neg (Ne.symm hne)).trans (h.unsent i hi)
  lamps := h.lamps
  dark := h.dark
  keyboard d hd := by
    change (if id = KEYBOARD_INPUT_REPORT_ID then some data else
      lastSent KEYBOARD_INPUT_REPORT_ID s.calls) = some d at hd
    by_cases hkey : id = KEYBOARD_INPUT_REPORT_ID
    · rw [if_pos hkey, Option.some_inj] at hd
      exact hd ▸ hid hkey
    · rw [if_neg hkey] at hd
      exact (h.keyboard d hd).trans (congrArg _ (hne hkey).symm)

/-- Zeros are kept for a report that has not been sent. -/
theorem Kept.storeReport (h : Kept s) (hnone : s.mInputReportCache id = none)
    (hr : IsInputReport id (List.replicate n 0)) :
    Kept (s.storeReport id (List.replicate n 0) true) ∧
      Right (.replyReport .input id (List.replicate n 0)) s.calls := by
  have hlen : inputLength id = n := by
    rw [← hr.2, List.length_replicate]
  have hright : Right (.replyReport .input id (List.replicate n 0)) s.calls := by
    rw [Right, h.unsent id hnone, hlen]
    exact ⟨hr, rfl⟩
  refine ⟨⟨h.right, fun i d hd => ?_, fun i hi => ?_, h.lamps, h.dark, h.keyboard⟩, hright⟩
  · change Function.update s.mInputReportCache id (some (List.replicate n 0)) i = some d at hd
    by_cases heq : i = id
    · subst heq
      rw [Function.update_self, Option.some_inj] at hd
      subst hd
      exact hright
    · rw [Function.update_of_ne heq] at hd
      exact h.sent i d hd
  · change Function.update s.mInputReportCache id (some (List.replicate n 0)) i = none at hi
    have hne : i ≠ id := fun heq => by
      rw [heq, Function.update_self] at hi
      cases hi
    rw [Function.update_of_ne hne] at hi
    exact h.unsent i hi

/-! ### One event -/

theorem Kept.touchKey (h : Kept s) (e : KeyEvent) : Kept (s.touchKey e) := by
  rw [Service.touchKey, keyboardReportId_eq]
  exact h.sendReport _ (isInputReport_keyboard (ReportBuffer.length_bytes _)) (fun _ => rfl)
    fun hne => absurd rfl hne

theorem Kept.useMouse (h : Kept s) (e : MouseEvent) : Kept (s.useMouse e) := by
  rw [Service.useMouse, mouseReportId_eq]
  exact (h.sendReport s.mKeyboardWrapper (isInputReport_mouse (ReportBuffer.length_bytes _))
    (fun heq => absurd heq (by decide)) fun _ => rfl).congr rfl rfl rfl rfl

theorem Kept.update (h : Kept s) (level : L) : Kept (s.update strength level) := by
  rw [Service.update]
  split
  · exact h
  split
  · exact h
  · exact h.sendReport s.mKeyboardWrapper (isInputReport_battery _)
      (fun heq => absurd heq (by decide)) fun _ => rfl

theorem Kept.onBatteryChanged [DecidableEq L] (h : Kept s) (level : L) :
    Kept (s.onBatteryChanged strength level) := by
  have hlevel : Kept { s with mBatteryLevel := level } := h.congr rfl rfl rfl rfl
  rw [Service.onBatteryChanged]
  split_ifs
  · exact (hlevel.update level).congr rfl rfl rfl rfl
  · exact hlevel

theorem Kept.callListener (ht : s.callListener c = some t) (h : Kept s) (hc : IsNeutral c)
    (hr : Right c s.calls) : Kept t := by
  rw [Service.callListener] at ht
  split_ifs at ht
  exact Option.some.inj ht ▸ h.call hc hr

theorem Kept.parseIncomingReport (h : Kept s) (reportId : UInt8) (data : Bytes) :
    Kept (s.parseIncomingReport reportId data).1 := by
  unfold Service.parseIncomingReport
  rw [keyboardReportId_eq]
  split_ifs with hno
  · exact h
  obtain ⟨hid, -⟩ := not_or.1 hno
  obtain rfl := not_not.1 hid
  match data with
  | [] => exact h
  | [leds] =>
    refine ⟨⟨trivial, h.right⟩, h.sent, h.unsent, fun d hd => ?_, fun hd => ?_, h.keyboard⟩
    · exact ⟨leds, (Option.some.inj hd).symm, rfl⟩
    · cases hd
  | _ :: _ :: _ => exact h

theorem Kept.onConnectionStateChanged (h : Kept s) (connected : Bool)
    (ht : s.onConnectionStateChanged connected = some t) : Kept t := by
  rw [Service.onConnectionStateChanged] at ht
  split_ifs at ht
  · obtain ⟨u, hu, rfl⟩ := Option.map_eq_some_iff.1 ht
    have hk : Kept u := Kept.callListener hu (h.congr rfl rfl rfl rfl) trivial trivial
    exact hk.congr rfl rfl rfl rfl
  · exact Kept.callListener ht (h.congr rfl rfl rfl rfl) trivial trivial

theorem Kept.onGetReport (h : Kept s) (type : ReportType) (id : UInt8) (bufferSize : ℤ) :
    Kept (s.onGetReport type id bufferSize) := by
  cases type with
  | input => exact h.congr rfl rfl rfl rfl
  | output =>
    rw [Service.onGetReport, keyboardReportId_eq]
    split_ifs with hid
    · exact h.call trivial trivial
    obtain rfl := not_not.1 hid
    cases hcache : s.mOutputReportCache KEYBOARD_INPUT_REPORT_ID with
    | none =>
      refine h.call trivial ⟨rfl, ?_⟩
      rw [h.dark hcache]
    | some data =>
      obtain ⟨leds, hdata, hlamps⟩ := h.lamps data hcache
      refine h.call trivial ⟨rfl, ?_⟩
      rw [hlamps]
      exact ⟨leds, hdata, rfl⟩
  | other => exact h.call trivial trivial

theorem Kept.onSetReport (h : Kept s) (type : ReportType) (id : UInt8) (data : Bytes) :
    Kept (s.onSetReport type id data) := by
  rw [Service.onSetReport]
  split_ifs
  · exact h.call trivial trivial
  · exact h.call trivial trivial
  · exact h.congr rfl rfl rfl rfl

theorem Kept.getReportReceived (h : Kept s) (id : UInt8) : Kept (s.getReportReceived id) := by
  rw [Service.getReportReceived, keyboardReportId_eq, mouseReportId_eq]
  cases hcache : s.mInputReportCache id with
  | some data => exact h.call trivial (h.sent id data hcache)
  | none =>
    -- only the keyboard and the mouse have a report to begin with
    dsimp only
    split_ifs with hkey hmouse
    · subst hkey
      obtain ⟨hk, hr⟩ := h.storeReport hcache (isInputReport_keyboard List.length_replicate)
      exact hk.call trivial hr
    · subst hmouse
      obtain ⟨hk, hr⟩ := h.storeReport hcache (isInputReport_mouse List.length_replicate)
      exact hk.call trivial hr
    · exact h.call trivial trivial

theorem Kept.setReportReceived (h : Kept s) (id : UInt8) (data : Bytes) :
    Kept (s.setReportReceived id data) := by
  have hparsed := h.parseIncomingReport id data
  rw [Service.setReportReceived]
  split_ifs
  · exact h.call trivial trivial
  · cases hparse : s.parseIncomingReport id data with
    | mk u b =>
      rw [hparse] at hparsed
      cases b <;> exact hparsed.call trivial trivial

theorem Kept.devConnected (h : Kept s) (ht : s.devConnected strength = some t) : Kept t := by
  have hclear : Kept (Service.call { s with
      mInputReportCache := fun _ => none, mOutputReportCache := fun _ => none } .cleared) :=
    .of_empty ⟨trivial, h.right⟩ (fun _ => rfl) rfl (fun _ => rfl) fun _ => rfl
  exact Kept.callListener ht ((hclear.update _).congr rfl rfl rfl rfl) trivial trivial

theorem Kept.handleMessage (h : Kept s) (ht : s.handleMessage strength m = some t) : Kept t := by
  cases m with
  | devConnected => exact h.devConnected ht
  | intrDataReceived reportId data => exact Option.some.inj ht ▸ h.parseIncomingReport reportId data
  | getReportReceived id _ => exact Option.some.inj ht ▸ h.getReportReceived id
  | setReportReceived id data => exact Option.some.inj ht ▸ h.setReportReceived id data

theorem Kept.step [DecidableEq L] (h : Kept s) {e : Event L} (ht : step strength s e = some t) :
    Kept t := by
  cases e with
  | key e => exact Option.some.inj ht ▸ h.touchKey e
  | mouse e => exact Option.some.inj ht ▸ h.useMouse e
  | batteryChanged level => exact Option.some.inj ht ▸ h.onBatteryChanged level
  | setEventListener => exact Option.some.inj ht ▸ h.congr rfl rfl rfl rfl
  | connectionStateChanged connected => exact h.onConnectionStateChanged connected ht
  | setProtocol protocol => exact Kept.callListener ht (h.congr rfl rfl rfl rfl) trivial trivial
  | intrData reportId data => exact Option.some.inj ht ▸ h.congr rfl rfl rfl rfl
  | getReport type id bufferSize => exact Option.some.inj ht ▸ h.onGetReport type id bufferSize
  | setReport type id data => exact Option.some.inj ht ▸ h.onSetReport type id data
  | handle =>
    rw [Service.step] at ht
    cases hq : s.queue with
    | nil =>
      rw [hq] at ht
      cases ht
    | cons m ms =>
      rw [hq] at ht
      have hms : Kept { s with queue := ms } := h.congr rfl rfl rfl rfl
      exact hms.handleMessage ht

/-! ### Every order of events -/

theorem kept_start (level : L) : Kept (start level) :=
  .of_empty trivial (fun _ => rfl) rfl (fun _ => rfl) fun _ => rfl

variable [DecidableEq L] {es : List (Event L)}

theorem Kept.run (h : Run (Service.step strength) (fun _ _ => True) s es t) (hs : Kept s) :
    Kept t :=
  h.invariant hs fun _ _ _ _ hk ht => hk.step ht

/-- A host connects and asks for the report of the keyboard while a key is held. -/
def asksForKeys : List (Event ℕ) :=
  [.setEventListener, .connectionStateChanged true, .handle, .key (.down 0x04),
    .getReport .input KEYBOARD_INPUT_REPORT_ID 8, .handle]

end Service

end Msm8909w.Hid
