import Msm8909w.Hid.ReportCache

/-!
# Requests and answers

The host asks for reports and sets them; some requests are answered at once, others wait for the
handler.

* `Service.answers_run` : every request is answered once, or still waits,
* `Service.getReport_keyboard` : the answer shows the keys that are held, unless the caches have
  been emptied and no key has been touched since.
-/

namespace Msm8909w.Hid

open ReportDescriptor
open scoped List

/-- A request of the host. -/
inductive Request
  | get (type : ReportType) (id : UInt8)
  | set (type : ReportType) (id : UInt8) (data : Bytes)

def Event.request {L : Type} : Event L → Option Request
  | .getReport type id _ => some (.get type id)
  | .setReport type id data => some (.set type id data)
  | _ => none

/-- The request that a message stands for. -/
def Message.request : Message → Option Request
  | .getReportReceived id _ => some (.get .input id)
  | .setReportReceived id data => some (.set .output id data)
  | _ => none

/-- The touch of a key that an event is. -/
def Event.touch {L : Type} : Event L → Option KeyEvent
  | .key e => some e
  | _ => none

def Call.isAnswer : Call → Bool
  | .replyReport .. => true
  | .reportError _ => true
  | _ => false

/-- A call answers a request. -/
def Answers (r : Request) (c : Call) : Prop :=
  match r with
  | .get .input id =>
    (∃ data, c = .replyReport .input id data) ∨
      c = .reportError .invalidRptId ∧ id ≠ KEYBOARD_INPUT_REPORT_ID ∧ id ≠ MOUSE_REPORT_ID
  | .get .output id =>
    (∃ data, c = .replyReport .output id data) ∧ id = KEYBOARD_OUTPUT_REPORT_ID ∨
      c = .reportError .invalidRptId ∧ id ≠ KEYBOARD_OUTPUT_REPORT_ID
  | .get .other _ => c = .reportError .unsupportedReq
  | .set type id data =>
    c = .reportError .unsupportedReq ∧ type ≠ .output ∨
      c = .reportError .invalidRptId ∧ type = .output ∧ id ≠ KEYBOARD_OUTPUT_REPORT_ID ∨
      c = .reportError .invalidParam ∧ type = .output ∧ id = KEYBOARD_OUTPUT_REPORT_ID ∨
      c = .reportError .success ∧ type = .output ∧ id = KEYBOARD_OUTPUT_REPORT_ID ∧ data.length = 1

namespace Service

variable {L : Type} {strength : L → UInt8} {s t u : Service L} {level : L} {id : UInt8}
  {data : Bytes} {c : Call} {m : Message} {r : Request} {rs rs' : List Request}

/-- The answers so far, the newest first. -/
def answers (s : Service L) : List Call := s.calls.filter Call.isAnswer

/-- The requests that wait for the handler. -/
def waiting (s : Service L) : List Request := s.queue.filterMap Message.request

/-! ### What does not answer -/

/-- Nothing is answered and no request comes or goes; the keyboard stays as it is. -/
structure Quiet (s t : Service L) : Prop where
  waiting : t.waiting = s.waiting
  answers : t.answers = s.answers
  keyboard : t.mKeyboardWrapper = s.mKeyboardWrapper

theorem Quiet.trans (h : Quiet s t) (h' : Quiet t u) : Quiet s u :=
  ⟨h'.waiting.trans h.waiting, h'.answers.trans h.answers, h'.keyboard.trans h.keyboard⟩

theorem quiet_call (hc : c.isAnswer = false) : Quiet s (s.call c) :=
  ⟨rfl, List.filter_cons_of_neg (by rw [hc]; decide), rfl⟩

theorem quiet_post (hm : m.request = none) : Quiet s (s.post m) := by
  refine ⟨?_, rfl, rfl⟩
  rw [Service.waiting, post, List.filterMap_append, List.filterMap_cons_none hm,
    List.filterMap_nil, List.append_nil]
  rfl

theorem quiet_storeReport (id : UInt8) (data : Bytes) (inputReport : Bool) :
    Quiet s (s.storeReport id data inputReport) := by
  rw [storeReport]
  split_ifs <;> exact ⟨rfl, rfl, rfl⟩

theorem quiet_sendReport (id : UInt8) (data : Bytes) : Quiet s (s.sendReport id data) :=
  (quiet_storeReport id data true).trans (quiet_call rfl)

theorem quiet_update (strength : L → UInt8) (level : L) : Quiet s (s.update strength level) := by
  rw [Service.update]
  split
  · exact ⟨rfl, rfl, rfl⟩
  split
  · exact ⟨rfl, rfl, rfl⟩
  · exact quiet_sendReport _ _

theorem quiet_level (level : L) : Quiet s { s with mCurrentBatteryLevel := level } :=
  ⟨rfl, rfl, rfl⟩

theorem quiet_callListener (h : s.callListener c = some t) (hc : c.isAnswer = false) :
    Quiet s t := by
  rw [callListener] at h
  split_ifs at h
  exact Option.some.inj h ▸ quiet_call hc

theorem quiet_parseIncomingReport (reportId : UInt8) (data : Bytes) :
    Quiet s (s.parseIncomingReport reportId data).1 := by
  unfold parseIncomingReport
  split
  · exact ⟨rfl, rfl, rfl⟩
  match data with
  | [] => exact ⟨rfl, rfl, rfl⟩
  | [leds] => exact (quiet_storeReport _ _ _).trans (quiet_call rfl)
  | _ :: _ :: _ => exact ⟨rfl, rfl, rfl⟩

theorem quiet_devConnected (h : s.devConnected strength = some t) : Quiet s t := by
  have hclear : Quiet s (Service.call { s with
      mInputReportCache := fun _ => none, mOutputReportCache := fun _ => none } .cleared) :=
    ⟨rfl, rfl, rfl⟩
  refine Quiet.trans ?_ (quiet_callListener h rfl)
  exact (hclear.trans (quiet_update strength _)).trans (quiet_level _)

theorem quiet_onConnectionStateChanged {connected : Bool}
    (h : s.onConnectionStateChanged connected = some t) : Quiet s t := by
  rw [onConnectionStateChanged] at h
  split_ifs at h
  · obtain ⟨u, hu, rfl⟩ := Option.map_eq_some_iff.1 h
    have hstate : Quiet s { s with mConnected := true } := ⟨rfl, rfl, rfl⟩
    exact (hstate.trans (quiet_callListener hu rfl)).trans (quiet_post rfl)
  · have hstate : Quiet s { s with mConnected := false, mProtocol := .report } := ⟨rfl, rfl, rfl⟩
    exact hstate.trans (quiet_callListener h rfl)

theorem quiet_onBatteryChanged [DecidableEq L] (level : L) :
    Quiet s (s.onBatteryChanged strength level) := by
  rw [onBatteryChanged]
  have hlevel : Quiet s { s with mBatteryLevel := level } := ⟨rfl, rfl, rfl⟩
  split_ifs
  · exact (hlevel.trans (quiet_update strength level)).trans (quiet_level level)
  · exact hlevel

/-! ### What answers -/

/-- Of the requests that wait and those that arrive some are answered, one call for each, and the
others wait. -/
def Serves (s : Service L) (rs : List Request) (t : Service L) : Prop :=
  ∃ (ds : List Request) (cs : List Call), (s.waiting ++ rs).Perm (ds ++ t.waiting) ∧
    t.answers = cs.reverse ++ s.answers ∧ List.Forall₂ Answers ds cs

theorem Serves.trans (h : Serves s rs t) (h' : Serves t rs' u) : Serves s (rs ++ rs') u := by
  obtain ⟨ds, cs, hperm, hanswers, hall⟩ := h
  obtain ⟨ds', cs', hperm', hanswers', hall'⟩ := h'
  refine ⟨ds ++ ds', cs ++ cs', ?_, ?_, List.rel_append hall hall'⟩
  · calc s.waiting ++ (rs ++ rs') = (s.waiting ++ rs) ++ rs' := (List.append_assoc _ _ _).symm
      _ ~ (ds ++ t.waiting) ++ rs' := hperm.append_right rs'
      _ = ds ++ (t.waiting ++ rs') := List.append_assoc _ _ _
      _ ~ ds ++ (ds' ++ u.waiting) := hperm'.append_left ds
      _ = (ds ++ ds') ++ u.waiting := (List.append_assoc _ _ _).symm
  · rw [hanswers', hanswers, List.reverse_append, List.append_assoc]

theorem Quiet.serves (h : Quiet s t) : Serves s [] t :=
  ⟨[], [], by rw [h.waiting, List.append_nil, List.nil_append], h.answers, .nil⟩

theorem serves_call (hc : c.isAnswer = true) (ha : Answers r c) : Serves s [r] (s.call c) :=
  ⟨[r], [c], List.perm_append_comm, List.filter_cons_of_pos hc, .cons ha .nil⟩

theorem serves_post (hm : m.request = some r) : Serves s [r] (s.post m) := by
  refine ⟨[], [], ?_, rfl, .nil⟩
  rw [Service.waiting, Service.waiting, post, List.filterMap_append, List.filterMap_cons_some hm,
    List.filterMap_nil, List.nil_append]

theorem serves_onGetReport (s : Service L) (type : ReportType) (id : UInt8) (bufferSize : ℤ) :
    Serves s [.get type id] (s.onGetReport type id bufferSize) := by
  cases type with
  | input => exact serves_post rfl
  | output =>
    rw [onGetReport, keyboardReportId_eq]
    split_ifs with hid
    · exact serves_call rfl (.inr ⟨rfl, hid⟩)
    · cases s.mOutputReportCache id <;> exact serves_call rfl (.inl ⟨⟨_, rfl⟩, not_not.1 hid⟩)
  | other => exact serves_call rfl rfl

theorem serves_onSetReport (s : Service L) (type : ReportType) (id : UInt8) (data : Bytes) :
    Serves s [.set type id data] (s.onSetReport type id data) := by
  rw [onSetReport, keyboardReportId_eq]
  split_ifs with htype hid
  · exact serves_call rfl (.inl ⟨rfl, htype⟩)
  · exact serves_call rfl (.inr (.inl ⟨rfl, not_not.1 htype, hid⟩))
  · obtain rfl := not_not.1 htype
    exact serves_post rfl

theorem serves_getReportReceived (s : Service L) (id : UInt8) :
    Serves s [.get .input id] (s.getReportReceived id) := by
  rw [getReportReceived, keyboardReportId_eq, mouseReportId_eq]
  cases s.mInputReportCache id with
  | some data => exact serves_call rfl (.inl ⟨data, rfl⟩)
  | none =>
    dsimp only
    split_ifs with hkey hmouse
    · exact (quiet_storeReport _ _ _).serves.trans (serves_call rfl (.inl ⟨_, rfl⟩))
    · exact (quiet_storeReport _ _ _).serves.trans (serves_call rfl (.inl ⟨_, rfl⟩))
    · exact serves_call rfl (.inr ⟨rfl, hkey, hmouse⟩)

theorem length_of_parseIncomingReport (h : (s.parseIncomingReport id data).2 = true) :
    data.length = 1 := by
  unfold parseIncomingReport at h
  split at h
  · cases h
  match data with
  | [] => cases h
  | [_] => rfl
  | _ :: _ :: _ => cases h

theorem serves_setReportReceived (s : Service L) (id : UInt8) (data : Bytes) :
    Serves s [.set .output id data] (s.setReportReceived id data) := by
  have hquiet : Quiet s (s.parseIncomingReport id data).1 := quiet_parseIncomingReport id data
  rw [setReportReceived, keyboardReportId_eq]
  split_ifs with hid
  · exact serves_call rfl (.inr (.inl ⟨rfl, rfl, hid⟩))
  · have hlen : (s.parseIncomingReport id data).2 = true → data.length = 1 :=
      length_of_parseIncomingReport
    cases hparse : s.parseIncomingReport id data with
    | mk u b =>
      rw [hparse] at hquiet hlen
      cases b with
      | true =>
        exact hquiet.serves.trans
          (serves_call rfl (.inr (.inr (.inr ⟨rfl, rfl, not_not.1 hid, hlen rfl⟩))))
      | false =>
        exact hquiet.serves.trans (serves_call rfl (.inr (.inr (.inl ⟨rfl, rfl, not_not.1 hid⟩))))

/-- The handler answers the request that a message stands for. -/
theorem serves_handleMessage (h : s.handleMessage strength m = some t) :
    Serves s m.request.toList t := by
  cases m with
  | devConnected => exact (quiet_devConnected h).serves
  | intrDataReceived reportId data =>
    exact Option.some.inj h ▸ (quiet_parseIncomingReport reportId data).serves
  | getReportReceived id _ => exact Option.some.inj h ▸ serves_getReportReceived s id
  | setReportReceived id data => exact Option.some.inj h ▸ serves_setReportReceived s id data

/-- The handler takes the message that waits longest. -/
theorem serves_take {ms : List Message} (hq : s.queue = m :: ms)
    (h : Serves { s with queue := ms } m.request.toList t) : Serves s [] t := by
  obtain ⟨ds, cs, hperm, hanswers, hall⟩ := h
  refine ⟨ds, cs, ?_, hanswers, hall⟩
  have hwaiting : s.waiting = m.request.toList ++ ms.filterMap Message.request := by
    rw [Service.waiting, hq]
    cases hm : m.request with
    | none => exact List.filterMap_cons_none hm
    | some r => exact List.filterMap_cons_some hm
  rw [hwaiting, List.append_nil]
  exact List.perm_append_comm.trans hperm

theorem serves_step [DecidableEq L] {e : Event L} (h : step strength s e = some t) :
    Serves s e.request.toList t := by
  cases e with
  | key e => exact Option.some.inj h ▸ (quiet_sendReport _ _).serves
  | mouse e => exact Option.some.inj h ▸ (quiet_sendReport _ _).serves
  | batteryChanged level => exact Option.some.inj h ▸ (quiet_onBatteryChanged level).serves
  | setEventListener => exact Option.some.inj h ▸ Quiet.serves ⟨rfl, rfl, rfl⟩
  | connectionStateChanged connected => exact (quiet_onConnectionStateChanged h).serves
  | setProtocol protocol => exact (quiet_callListener h rfl).serves
  | intrData reportId data => exact Option.some.inj h ▸ (quiet_post rfl).serves
  | getReport type id bufferSize =>
    exact Option.some.inj h ▸ serves_onGetReport s type id bufferSize
  | setReport type id data => exact Option.some.inj h ▸ serves_onSetReport s type id data
  | handle =>
    rw [step] at h
    cases hq : s.queue with
    | nil =>
      rw [hq] at h
      cases h
    | cons m ms =>
      rw [hq] at h
      exact serves_take hq (serves_handleMessage h)

/-! ### The keyboard -/

theorem keyboard_onGetReport (s : Service L) (type : ReportType) (id : UInt8) (bufferSize : ℤ) :
    (s.onGetReport type id bufferSize).mKeyboardWrapper = s.mKeyboardWrapper := by
  cases type with
  | output =>
    rw [onGetReport]
    split_ifs
    · rfl
    · cases s.mOutputReportCache id <;> rfl
  | _ => rfl

theorem keyboard_onSetReport (s : Service L) (type : ReportType) (id : UInt8) (data : Bytes) :
    (s.onSetReport type id data).mKeyboardWrapper = s.mKeyboardWrapper := by
  rw [onSetReport]
  split_ifs <;> rfl

theorem keyboard_handleMessage (h : s.handleMessage strength m = some t) :
    t.mKeyboardWrapper = s.mKeyboardWrapper := by
  cases m with
  | devConnected => exact (quiet_devConnected h).keyboard
  | intrDataReceived reportId data =>
    exact Option.some.inj h ▸ (quiet_parseIncomingReport reportId data).keyboard
  | getReportReceived id _ =>
    obtain rfl := Option.some.inj h
    rw [getReportReceived]
    cases s.mInputReportCache id with
    | some data => rfl
    | none =>
      dsimp only
      split_ifs <;> rfl
  | setReportReceived id data =>
    obtain rfl := Option.some.inj h
    have hquiet : Quiet s (s.parseIncomingReport id data).1 := quiet_parseIncomingReport id data
    rw [setReportReceived]
    split_ifs
    · rfl
    · cases hparse : s.parseIncomingReport id data with
      | mk u b =>
        rw [hparse] at hquiet
        cases b <;> exact hquiet.keyboard

/-- Only key touches change the buffer of the keyboard. -/
theorem keyboard_step [DecidableEq L] {e : Event L} (h : step strength s e = some t) :
    t.mKeyboardWrapper = e.touch.toList.foldl KeyboardWrapper.touch s.mKeyboardWrapper := by
  cases e with
  | key e => exact Option.some.inj h ▸ rfl
  | mouse e => exact Option.some.inj h ▸ rfl
  | batteryChanged level => exact Option.some.inj h ▸ (quiet_onBatteryChanged level).keyboard
  | setEventListener => exact Option.some.inj h ▸ rfl
  | connectionStateChanged connected => exact (quiet_onConnectionStateChanged h).keyboard
  | setProtocol protocol => exact (quiet_callListener h rfl).keyboard
  | intrData reportId data => exact Option.some.inj h ▸ rfl
  | getReport type id bufferSize =>
    exact Option.some.inj h ▸ keyboard_onGetReport s type id bufferSize
  | setReport type id data => exact Option.some.inj h ▸ keyboard_onSetReport s type id data
  | handle =>
    rw [step] at h
    cases hq : s.queue with
    | nil =>
      rw [hq] at h
      cases h
    | cons m ms =>
      rw [hq] at h
      have hms : t.mKeyboardWrapper = ({ s with queue := ms } : Service L).mKeyboardWrapper :=
        keyboard_handleMessage h
      exact hms

/-! ### Every order of events -/

variable [DecidableEq L] {es : List (Event L)}

theorem serves_run (h : Run (Service.step strength) (fun _ _ => True) s es t) :
    Serves s (es.filterMap Event.request) t := by
  induction h with
  | nil s => exact Quiet.serves ⟨rfl, rfl, rfl⟩
  | @cons s t u e es _ hstep _ ih =>
    have hreq : (e :: es).filterMap Event.request =
        e.request.toList ++ es.filterMap Event.request := by
      cases he : e.request with
      | none => exact List.filterMap_cons_none he
      | some r => exact List.filterMap_cons_some he
    rw [hreq]
    exact (serves_step hstep).trans ih

theorem keyboard_run (h : Run (Service.step strength) (fun _ _ => True) s es t) :
    t.mKeyboardWrapper = KeyboardWrapper.after s.mKeyboardWrapper (es.filterMap Event.touch) := by
  induction h with
  | nil s => rfl
  | @cons s t u e es _ hstep _ ih =>
    rw [ih, keyboard_step hstep]
    cases he : e.touch with
    | none => rw [List.filterMap_cons_none he]; rfl
    | some k => rw [List.filterMap_cons_some he]; rfl

/-- **The keys in an answer**: when the handler takes a request for the keyboard's report, it
answers with the keys that are held, unless nothing of the keyboard has been sent since the caches
were emptied; then it answers with zeros, whatever is held. -/
theorem getReport_keyboard (h : Run (Service.step strength) (fun _ _ => True) (start level) es s)
    {bufferSize : ℤ} {ms : List Message}
    (hq : s.queue = .getReportReceived KEYBOARD_INPUT_REPORT_ID bufferSize :: ms) :
    ∃ t data, step strength s .handle = some t ∧
      t.calls = .replyReport .input KEYBOARD_INPUT_REPORT_ID data :: s.calls ∧
      if (lastSent KEYBOARD_INPUT_REPORT_ID s.calls).isSome then
        (pressed data : Multiset Usage) =
          ((es.filterMap Event.touch).foldl Held.touch .empty).shown
      else data = List.replicate 8 0 := by
  have hkept : Kept s := Kept.run h (kept_start level)
  have hholds : Holds s.mKeyboardWrapper ((es.filterMap Event.touch).foldl Held.touch .empty) := by
    rw [keyboard_run h]
    exact KeyboardWrapper.holds_after holds_new _
  have hzeros : IsInputReport KEYBOARD_INPUT_REPORT_ID (List.replicate 8 0) :=
    isInputReport_keyboard List.length_replicate
  have hstep : step strength s .handle =
      some (getReportReceived { s with queue := ms } KEYBOARD_INPUT_REPORT_ID) := by
    rw [step, hq]
    rfl
  cases hcache : s.mInputReportCache KEYBOARD_INPUT_REPORT_ID with
  | none =>
    refine ⟨_, List.replicate 8 0, hstep, ?_, ?_⟩
    · rw [getReportReceived, keyboardReportId_eq]
      simp only [hcache, if_true]
      rfl
    · rw [hkept.unsent _ hcache]
      rfl
  | some data =>
    refine ⟨_, data, hstep, ?_, ?_⟩
    · rw [getReportReceived]
      simp only [hcache]
      rfl
    · obtain ⟨-, hdata⟩ := hkept.sent _ data hcache
      cases hlast : lastSent KEYBOARD_INPUT_REPORT_ID s.calls with
      -- zeros that an earlier answer has left in the cache
      | none =>
        rw [hlast, ← hzeros.2, List.length_replicate] at hdata
        exact hdata
      | some d =>
        rw [hlast] at hdata
        have hbytes : data = s.mKeyboardWrapper.bytes := hdata.trans (hkept.keyboard d hlast)
        rw [hbytes]
        exact hholds.pressed

theorem getReport_keyboard_asksForKeys : ∃ (s t : Service ℕ) (data : Bytes),
    step UInt8.ofNat s .handle = some t ∧
      t.calls = .replyReport .input KEYBOARD_INPUT_REPORT_ID data :: s.calls ∧
      if (lastSent KEYBOARD_INPUT_REPORT_ID s.calls).isSome then
        (pressed data : Multiset Usage) =
          ((asksForKeys.dropLast.filterMap Event.touch).foldl Held.touch .empty).shown
      else data = List.replicate 8 0 := by
  obtain ⟨s, hrun, hqueue⟩ :
      ∃ s, Run (Service.step UInt8.ofNat) (fun _ _ => True) (start 0) asksForKeys.dropLast s ∧
        s.queue = [.getReportReceived KEYBOARD_INPUT_REPORT_ID 8] :=
    exists_run_of_exec (by decide +kernel)
  obtain ⟨t, data, hstep, hcalls, hdata⟩ := getReport_keyboard hrun hqueue
  exact ⟨s, t, data, hstep, hcalls, hdata⟩

end Service

end Msm8909w.Hid
