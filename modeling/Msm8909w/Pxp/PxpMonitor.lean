import Mathlib.Data.Int.Notation
import Mathlib.Data.List.Perm.Basic
import Mathlib.Logic.Function.Basic
import Msm8909w.Lib.Runs

/-!
# Characteristic reads of the proximity monitor

`PxpMonitorService.java` reads two characteristics of every device whose services it has discovered.
A read is first a message to `mGattHandler`.  Handling it, the service reads at once, or, while a
read of the device is under way, puts the characteristic into `mReadQueue`, which is one for all
devices; the end of a read takes the next characteristic out of it.

A device is named by an element of `D`, and its GATT client by the device.  `accept` is the answer
of the client's `readCharacteristic`; an accepted read is outstanding until its completion.
Discovered services have the characteristic that their specification requires, and the devices are
in `mHashMapDevice`.

* `books_step` : no request is lost or made twice, and `isReading` says whether a read is
  outstanding,
* `reads_proper_iff` : the reads go to their own devices and none is left behind exactly if every
  completion finds a characteristic of its own device at the head of the queue, and leaves none of
  that device behind if the next read is refused.
-/

namespace Msm8909w

namespace Pxp

/-! ### The service -/

/-- The services that `onServicesDiscovered` looks for, by their UUIDs. -/
inductive ServiceUuid
  | ias
  | lls
  | tps
  | other
  deriving DecidableEq, Repr

/-- `ALERT_LEVEL_UUID` and `TX_POWER_LEVEL_UUID`. -/
inductive Uuid
  | alertLevel
  | txPowerLevel
  deriving DecidableEq, Repr

/-- `BluetoothGattCharacteristic`: its device, the instance of its service and its UUID. -/
structure Characteristic (D : Type) where
  device : D
  service : ℕ
  uuid : Uuid
  deriving DecidableEq, Repr

/-- The fields of `DeviceProperties` that the callbacks below use. -/
structure DeviceProperties (D : Type) where
  iasAlertLevelCh : Option (Characteristic D) := none
  llsAlertLevelCh : Option (Characteristic D) := none
  txPowerLevelCh : Option (Characteristic D) := none
  txPowerLevel : ℤ := 0
  isReading : Bool := false
  connectionState : Bool := false
  hasIasService : Bool := false
  hasLlsService : Bool := false
  hasTxpService : Bool := false
  disconnect : Bool := false
  failedReadAlertLevel : Bool := false
  failedReadTxPowerLevel : Bool := false

/-- What `broadcastUpdate` sends. -/
inductive Broadcast
  | deviceConnected
  | missingLlsService
  deriving DecidableEq, Repr

/-- The service, with the messages to its handler, the reads that are outstanding, and what has been
done so far. -/
structure State (D : Type) where
  props : D → DeviceProperties D
  mReadQueue : List (Characteristic D)
  /-- The `READ_CHARACTERISTIC` messages: a client and a characteristic. -/
  messages : List (D × Characteristic D)
  outstanding : List (D × Characteristic D)
  /-- The calls of `sendReadCharacteristicMessage`. -/
  sent : List (Characteristic D)
  /-- The calls of `readCharacteristic` of a client. -/
  passed : List (D × Characteristic D)
  broadcasts : List (Broadcast × D)

variable {D : Type} [DecidableEq D]

def initial : State D := ⟨fun _ => {}, [], [], [], [], [], []⟩

/-- Change the properties of a device. -/
def State.modify (s : State D) (d : D) (f : DeviceProperties D → DeviceProperties D) : State D :=
  { s with props := Function.update s.props d (f (s.props d)) }

/-- `sendReadCharacteristicMessage`. -/
def sendReadCharacteristicMessage (gatt : D) (ch : Characteristic D) (s : State D) : State D :=
  { s with messages := s.messages ++ [(gatt, ch)], sent := s.sent ++ [ch] }

/-- One service in the loop of `onServicesDiscovered`: its UUID and its instance. -/
def discovered (gatt : D) (s : State D) (service : ServiceUuid × ℕ) : State D :=
  match service.1 with
  | .ias => s.modify gatt fun p =>
      { p with iasAlertLevelCh := some ⟨gatt, service.2, .alertLevel⟩, hasIasService := true }
  | .lls =>
    let ch := ⟨gatt, service.2, .alertLevel⟩
    (sendReadCharacteristicMessage gatt ch s).modify gatt fun p =>
      { p with llsAlertLevelCh := some ch, hasLlsService := true }
  | .tps =>
    let ch := ⟨gatt, service.2, .txPowerLevel⟩
    (sendReadCharacteristicMessage gatt ch s).modify gatt fun p =>
      { p with txPowerLevelCh := some ch, hasTxpService := true }
  | .other => s

/-- `onServicesDiscovered`. -/
def onServicesDiscovered (gatt : D) (services : List (ServiceUuid × ℕ)) (s : State D) : State D :=
  let s := services.foldl (discovered gatt) s
  if !(s.props gatt).hasLlsService then
    let s := s.modify gatt fun p => { p with disconnect := true }
    { s with broadcasts := s.broadcasts ++ [(.missingLlsService, gatt)] }
  else s

/-- `deviceProp.isReading = deviceProp.gatt.readCharacteristic(ch)`. -/
def gattRead (gatt : D) (ch : Characteristic D) (accept : Bool) (s : State D) : State D :=
  { s.modify gatt fun p => { p with isReading := accept } with
    passed := s.passed ++ [(gatt, ch)]
    outstanding := if accept then s.outstanding ++ [(gatt, ch)] else s.outstanding }

/-- `readCharacteristic`. -/
def readCharacteristic (gatt : D) (ch : Characteristic D) (accept : Bool) (s : State D) : State D :=
  if !(s.props gatt).isReading then gattRead gatt ch accept s
  else { s with mReadQueue := s.mReadQueue ++ [ch] }

/-- The properties after a read of `ch`; `value` is what was read, if the status is success. -/
def DeviceProperties.afterRead (p : DeviceProperties D) (ch : Characteristic D) (value : Option ℤ) :
    DeviceProperties D :=
  match ch.uuid, value with
  | .alertLevel, some _ => { p with failedReadAlertLevel := false }
  | .txPowerLevel, some value => { p with txPowerLevel := value, failedReadTxPowerLevel := false }
  | .alertLevel, none => { p with failedReadAlertLevel := true }
  | .txPowerLevel, none => { p with failedReadTxPowerLevel := true }

/-- `onCharacteristicRead`. -/
def onCharacteristicRead (gatt : D) (ch : Characteristic D) (value : Option ℤ) (accept : Bool)
    (s : State D) : State D :=
  let s := s.modify gatt fun p => { p with isReading := false }.afterRead ch value
  -- read next from queue
  let s := match s.mReadQueue with
    | [] => s
    | next :: rest => gattRead gatt next accept { s with mReadQueue := rest }
  if !(s.props gatt).isReading then
    let s := s.modify gatt fun p => { p with connectionState := true }
    { s with broadcasts := s.broadcasts ++ [(.deviceConnected, gatt)] }
  else s

/-- What can happen.  A message can be handled if there is one, and a read completed if it is
outstanding. -/
inductive Action (D : Type)
  | servicesDiscovered (gatt : D) (services : List (ServiceUuid × ℕ))
  | handleMessage (accept : Bool)
  | characteristicRead (gatt : D) (ch : Characteristic D) (value : Option ℤ) (accept : Bool)

def step (s : State D) : Action D → State D
  | .servicesDiscovered gatt services => onServicesDiscovered gatt services s
  | .handleMessage accept =>
    match s.messages with
    | [] => s
    | (gatt, ch) :: rest => readCharacteristic gatt ch accept { s with messages := rest }
  | .characteristicRead gatt ch value accept =>
    if (gatt, ch) ∈ s.outstanding then
      onCharacteristicRead gatt ch value accept
        { s with outstanding := s.outstanding.erase (gatt, ch) }
    else s

/-! ### The property -/

/-- How many reads of a device's client are outstanding. -/
def State.reads (s : State D) (d : D) : ℕ := s.outstanding.countP fun p => p.1 = d

/-- Every read goes to its own device and is made once, at most one is outstanding for a device, and
characteristics are only queued while one is. -/
structure Proper (s : State D) : Prop where
  own : ∀ p ∈ s.passed, p.2.device = p.1
  once : s.sent.Perm (s.passed.map Prod.snd ++ s.messages.map Prod.snd ++ s.mReadQueue)
  single : ∀ d, s.reads d ≤ 1
  queued : ∀ ch ∈ s.mReadQueue, 0 < s.reads ch.device

/-- The head of the queue, if any, belongs to the device whose read completes, and no other
characteristic of this device is queued if the next read is refused. -/
def TakesOwn (s : State D) : Action D → Prop
  | .characteristicRead gatt ch _ accept => (gatt, ch) ∈ s.outstanding →
    ∀ next ∈ s.mReadQueue.head?, next.device = gatt ∧
      (accept = false → ∀ later ∈ s.mReadQueue.tail, later.device ≠ gatt)
  | _ => True

/-- Once nothing is under way, every request has been passed on once. -/
theorem Proper.settled {s : State D} (h : Proper s) (hmessages : s.messages = [])
    (hout : s.outstanding = []) :
    s.sent.Perm (s.passed.map Prod.snd) := by
  have hqueue : s.mReadQueue = [] := by
    refine List.eq_nil_iff_forall_not_mem.2 fun ch hch => ?_
    have hpos := h.queued ch hch
    rw [State.reads, hout, List.countP_nil] at hpos
    exact absurd hpos (Nat.lt_irrefl 0)
  have honce := h.once
  rwa [hmessages, hqueue, List.map_nil, List.append_nil, List.append_nil] at honce

/-! ### The books -/

section Books

variable {s : State D} {hand : List (Characteristic D)} {ch next : Characteristic D} {gatt d : D}
    {accept : Bool}

/-- What holds in every state: a request that was sent is in a message, in the queue, passed on or
at hand, and `isReading` says whether a read is outstanding. -/
structure Books (hand : List (Characteristic D)) (s : State D) : Prop where
  messages : ∀ m ∈ s.messages, m.2.device = m.1
  once : s.sent.Perm (s.passed.map Prod.snd ++ s.messages.map Prod.snd ++ s.mReadQueue ++ hand)
  reading : ∀ d, s.reads d = if (s.props d).isReading then 1 else 0

theorem props_modify (s : State D) (d e : D) (f : DeviceProperties D → DeviceProperties D) :
    (s.modify d f).props e = if e = d then f (s.props e) else s.props e := by
  change Function.update s.props d (f (s.props d)) e = _
  rw [Function.update_apply]
  split_ifs with he
  · rw [he]
  · rfl

theorem books_initial : Books [] (initial : State D) := ⟨nofun, List.Perm.nil, fun _ => rfl⟩

theorem Books.modify (h : Books hand s) {f : DeviceProperties D → DeviceProperties D}
    (hf : ∀ p, (f p).isReading = p.isReading) : Books hand (s.modify d f) := by
  refine ⟨h.messages, h.once, fun e => ?_⟩
  have hreading : ((s.modify d f).props e).isReading = (s.props e).isReading := by
    rw [props_modify]
    split_ifs
    · exact hf _
    · rfl
  rw [hreading]
  exact h.reading e

theorem Books.broadcast (h : Books hand s) (b : List (Broadcast × D)) :
    Books hand { s with broadcasts := b } := ⟨h.messages, h.once, h.reading⟩

theorem Books.send (h : Books hand s) (hch : ch.device = gatt) :
    Books hand (sendReadCharacteristicMessage gatt ch s) := by
  refine ⟨fun m hm => ?_, ?_, h.reading⟩
  · rcases List.mem_append.1 hm with hm | hm
    · exact h.messages m hm
    · rw [List.mem_singleton.1 hm]
      exact hch
  · have hcount := List.perm_iff_count.1 h.once
    refine List.perm_iff_count.2 fun c => ?_
    have hc := hcount c
    simp only [sendReadCharacteristicMessage, List.count_append, List.map_append,
      List.map_singleton] at hc ⊢
    omega

theorem Books.discovered (h : Books hand s) (service : ServiceUuid × ℕ) :
    Books hand (discovered gatt s service) := by
  obtain ⟨uuid, inst⟩ := service
  unfold Pxp.discovered
  cases uuid with
  | ias => exact h.modify fun _ => rfl
  | lls =>
    have hsend : Books hand (sendReadCharacteristicMessage gatt ⟨gatt, inst, .alertLevel⟩ s) :=
      h.send rfl
    exact hsend.modify fun _ => rfl
  | tps =>
    have hsend : Books hand (sendReadCharacteristicMessage gatt ⟨gatt, inst, .txPowerLevel⟩ s) :=
      h.send rfl
    exact hsend.modify fun _ => rfl
  | other => exact h

theorem Books.onServicesDiscovered (h : Books hand s) (services : List (ServiceUuid × ℕ)) :
    Books hand (onServicesDiscovered gatt services s) := by
  have hfold : Books hand (services.foldl (Pxp.discovered gatt) s) := by
    induction services generalizing s with
    | nil => exact h
    | cons service services ih => exact ih (h.discovered service)
  unfold Pxp.onServicesDiscovered
  simp only
  split_ifs
  · exact (hfold.modify (f := fun p => { p with disconnect := true }) fun _ => rfl).broadcast _
  · exact hfold

theorem reads_concat (s : State D) (gatt d : D) (ch : Characteristic D) :
    (s.outstanding ++ [(gatt, ch)]).countP (fun p => p.1 = d) = s.reads d + if gatt = d then 1
      else 0 := by
  simp [State.reads, List.countP_append, List.countP_singleton]

/-- The characteristic at hand is passed to a client that is not reading. -/
theorem Books.gattRead (h : Books [ch] s) (hidle : (s.props gatt).isReading = false)
    (accept : Bool) :
    Books [] (gattRead gatt ch accept s) := by
  refine ⟨h.messages, ?_, fun e => ?_⟩
  · refine h.once.trans ?_
    refine List.perm_iff_count.2 fun c => ?_
    simp only [Pxp.gattRead, State.modify, List.count_append, List.map_append, List.map_singleton,
      List.append_nil]
    omega
  · have hreading : ((Pxp.gattRead gatt ch accept s).props e).isReading =
        if e = gatt then accept else (s.props e).isReading := by
      change ((s.modify gatt fun p => { p with isReading := accept }).props e).isReading = _
      rw [props_modify]
      split_ifs <;> rfl
    have hreads := h.reading e
    rw [hreading]
    by_cases he : e = gatt
    · rw [he, hidle] at hreads
      cases accept with
      | false => rw [if_pos he, he]; exact hreads
      | true =>
          rw [if_pos he, he, State.reads, Pxp.gattRead, if_pos rfl, reads_concat, hreads,
          if_pos rfl]; rfl
    · cases accept with
      | false => rw [if_neg he]; exact hreads
      | true =>
        rw [if_neg he, State.reads, Pxp.gattRead, if_pos rfl, reads_concat, hreads,
          if_neg (Ne.symm he)]
        rfl

/-- The characteristic at hand is queued. -/
theorem Books.enqueue (h : Books [ch] s) :
    Books [] { s with mReadQueue := s.mReadQueue ++ [ch] } := by
  refine ⟨h.messages, ?_, h.reading⟩
  rw [List.append_nil, ← List.append_assoc]
  exact h.once

/-- A message is taken. -/
theorem Books.takeMessage {rest : List (D × Characteristic D)} (h : Books [] s)
    (hm : s.messages = (gatt, ch) :: rest) : Books [ch] { s with messages := rest } := by
  refine ⟨fun m hmem => h.messages m (hm ▸ List.mem_cons_of_mem _ hmem), ?_, h.reading⟩
  refine h.once.trans (List.perm_iff_count.2 fun c => ?_)
  simp only [hm, List.map_cons, List.count_append, List.count_cons, List.count_nil]
  omega

/-- The queue is polled. -/
theorem Books.poll {rest : List (Characteristic D)} (h : Books [] s)
    (hq : s.mReadQueue = next :: rest) :
    Books [next] { s with mReadQueue := rest } := by
  refine ⟨h.messages, ?_, h.reading⟩
  refine h.once.trans (List.perm_iff_count.2 fun c => ?_)
  simp only [hq, List.count_append, List.count_cons, List.count_nil]
  omega

/-- An outstanding read ends. -/
theorem reads_erase (hmem : (gatt, ch) ∈ s.outstanding) (d : D) :
    (s.outstanding.erase (gatt, ch)).countP (fun p => p.1 = d) = s.reads d - if gatt = d then 1
      else 0 := by
  have hcount := (List.perm_cons_erase hmem).countP_eq (fun p => decide (p.1 = d))
  rw [List.countP_cons] at hcount
  simp only [decide_eq_true_eq] at hcount
  rw [State.reads, hcount, Nat.add_sub_cancel]

omit [DecidableEq D] in
theorem isReading_afterRead (p : DeviceProperties D) (ch : Characteristic D) (value : Option ℤ) :
    (p.afterRead ch value).isReading = p.isReading := by
  unfold DeviceProperties.afterRead
  split <;> rfl

/-- The client of a completed read is not reading any more. -/
theorem Books.completed (h : Books [] s) (hmem : (gatt, ch) ∈ s.outstanding) (value : Option ℤ) :
    Books [] ({ s with outstanding := s.outstanding.erase (gatt, ch) }.modify gatt fun p =>
      { p with isReading := false }.afterRead ch value) := by
  refine ⟨h.messages, h.once, fun e => ?_⟩
  have hreads := h.reading e
  rw [props_modify]
  change (s.outstanding.erase (gatt, ch)).countP (fun p => p.1 = e) = _
  rw [reads_erase hmem, hreads]
  by_cases he : e = gatt
  · rw [if_pos he, if_pos he.symm, isReading_afterRead]
    cases (s.props e).isReading <;> rfl
  · rw [if_neg he, if_neg (Ne.symm he)]
    rfl

theorem Books.onCharacteristicRead (h : Books [] s) (hmem : (gatt, ch) ∈ s.outstanding)
    (value : Option ℤ) (accept : Bool) : Books [] (onCharacteristicRead gatt ch value accept
      { s with outstanding := s.outstanding.erase (gatt, ch) }) := by
  have hdone := h.completed hmem value
  have hidle : (({ s with outstanding := s.outstanding.erase (gatt, ch) } : State D).modify gatt
      (fun p => { p with isReading := false }.afterRead ch value) |>.props gatt).isReading =
        false := by
    rw [props_modify, if_pos rfl, isReading_afterRead]
  unfold Pxp.onCharacteristicRead
  simp only
  generalize ({ s with outstanding := s.outstanding.erase (gatt, ch) } : State D).modify gatt
    (fun p => { p with isReading := false }.afterRead ch value) = t at hdone hidle
  have hnext : Books [] (match t.mReadQueue with
      | [] => t
      | next :: rest => Pxp.gattRead gatt next accept { t with mReadQueue := rest }) := by
    cases hq : t.mReadQueue with
    | nil => exact hdone
    | cons next rest => exact (hdone.poll hq).gattRead hidle accept
  split_ifs
  · exact (hnext.modify (f := fun p => { p with connectionState := true }) fun _ => rfl).broadcast _
  · exact hnext

/-- **No request is lost or made twice**, whatever happens. -/
theorem books_step (h : Books [] s) (a : Action D) : Books [] (step s a) := by
  cases a with
  | servicesDiscovered gatt services => exact h.onServicesDiscovered services
  | handleMessage accept =>
    unfold step
    cases hm : s.messages with
    | nil => exact h
    | cons m rest =>
      obtain ⟨gatt, ch⟩ := m
      have htake := h.takeMessage hm
      simp only [readCharacteristic]
      cases hidle : (s.props gatt).isReading with
      | false => exact htake.gattRead hidle accept
      | true => exact htake.enqueue
  | characteristicRead gatt ch value accept =>
    unfold step
    simp only
    split_ifs with hmem
    · exact h.onCharacteristicRead hmem value accept
    · exact h

end Books

/-! ### Reads and their devices -/

section Reads

variable {s : State D} {ch next : Characteristic D} {gatt : D} {rest : List (Characteristic D)}

/-- The part of the property that a step can break. -/
structure Kept (s : State D) : Prop where
  own : ∀ p ∈ s.passed, p.2.device = p.1
  queued : ∀ ch ∈ s.mReadQueue, 0 < s.reads ch.device

theorem Books.proper_iff (h : Books [] s) : Proper s ↔ Kept s := by
  constructor
  · intro hs
    exact ⟨hs.own, hs.queued⟩
  · intro hs
    refine ⟨hs.own, ?_, fun d => ?_, hs.queued⟩
    · have honce := h.once
      rwa [List.append_nil] at honce
    · rw [h.reading d]
      split_ifs <;> decide

theorem Kept.onServicesDiscovered (h : Kept s) (services : List (ServiceUuid × ℕ)) :
    Kept (onServicesDiscovered gatt services s) := by
  have hfold : Kept (services.foldl (discovered gatt) s) := by
    induction services generalizing s with
    | nil => exact h
    | cons service services ih =>
      refine ih ?_
      obtain ⟨uuid, inst⟩ := service
      cases uuid <;> exact ⟨h.own, h.queued⟩
  unfold Pxp.onServicesDiscovered
  simp only
  split_ifs <;> exact ⟨hfold.own, hfold.queued⟩

theorem Kept.handleMessage (hb : Books [] s) (h : Kept s) (accept : Bool) :
    Kept (step s (.handleMessage accept)) := by
  unfold step
  cases hm : s.messages with
  | nil => exact h
  | cons m rest =>
    obtain ⟨gatt, ch⟩ := m
    have hown : ch.device = gatt := hb.messages (gatt, ch) (hm ▸ List.mem_cons_self)
    have hreads := hb.reading gatt
    simp only [readCharacteristic]
    cases hidle : (s.props gatt).isReading with
    | false =>
      refine ⟨fun p hp => ?_, fun c hc => ?_⟩
      · rcases List.mem_append.1 hp with hp | hp
        · exact h.own p hp
        · rw [List.mem_singleton.1 hp]
          exact hown
      · have hpos := h.queued c hc
        cases accept with
        | false => exact hpos
        | true =>
          change 0 < (s.outstanding ++ [(gatt, ch)]).countP fun p => p.1 = c.device
          rw [reads_concat]
          omega
    | true =>
      refine ⟨h.own, fun c hc => ?_⟩
      rcases List.mem_append.1 hc with hc | hc
      · exact h.queued c hc
      · rw [List.mem_singleton.1 hc, hown]
        change 0 < s.reads gatt
        rw [hreads, hidle]
        decide

/-- A completion takes the head of the queue, whose device does not matter. -/
theorem onCharacteristicRead_cons (gatt : D) (ch : Characteristic D)
    (hq : s.mReadQueue = next :: rest) (value : Option ℤ) (accept : Bool) :
    (onCharacteristicRead gatt ch value accept s).passed = s.passed ++ [(gatt, next)] ∧
      (onCharacteristicRead gatt ch value accept s).mReadQueue = rest ∧
      (onCharacteristicRead gatt ch value accept s).outstanding =
        if accept then s.outstanding ++ [(gatt, next)] else s.outstanding := by
  unfold onCharacteristicRead
  simp only [State.modify, hq, gattRead]
  split_ifs <;> exact ⟨rfl, rfl, rfl⟩

theorem onCharacteristicRead_nil (gatt : D) (ch : Characteristic D) (hq : s.mReadQueue = [])
    (value : Option ℤ) (accept : Bool) :
    (onCharacteristicRead gatt ch value accept s).passed = s.passed ∧
      (onCharacteristicRead gatt ch value accept s).mReadQueue = [] := by
  unfold onCharacteristicRead
  simp only [State.modify, hq]
  split_ifs <;> exact ⟨rfl, rfl⟩

/-- The reads that are outstanding after a completion with a characteristic in the queue. -/
theorem reads_onCharacteristicRead_cons {next : Characteristic D} {rest : List (Characteristic D)}
    (hb : Books [] s) (hmem : (gatt, ch) ∈ s.outstanding) (hq : s.mReadQueue = next :: rest)
    (value : Option ℤ) (accept : Bool) (e : D) :
    (onCharacteristicRead gatt ch value accept
      { s with outstanding := s.outstanding.erase (gatt, ch) }).reads e =
      if gatt = e then (if accept then 1 else 0) else s.reads e := by
  set t : State D := { s with outstanding := s.outstanding.erase (gatt, ch) }
  obtain ⟨-, -, hout⟩ := onCharacteristicRead_cons (s := t) gatt ch hq value accept
  have hone : s.reads gatt = 1 := by
    have hpos : 0 < s.reads gatt := List.countP_pos_iff.2 ⟨_, hmem, decide_eq_true rfl⟩
    have hreads := hb.reading gatt
    split_ifs at hreads <;> omega
  have herase : t.reads e = s.reads e - if gatt = e then 1 else 0 := reads_erase hmem e
  have hcount : (onCharacteristicRead gatt ch value accept t).reads e =
      t.reads e + if accept then (if gatt = e then 1 else 0) else 0 := by
    rw [State.reads, hout]
    cases accept with
    | false => rfl
    | true => exact reads_concat t gatt e next
  rw [hcount, herase]
  by_cases he : gatt = e
  · rw [if_pos he, if_pos he, ← he, hone, Nat.sub_self, Nat.zero_add]
  · rw [if_neg he, if_neg he, ite_self, Nat.sub_zero, Nat.add_zero]

/-- A completion keeps the property exactly if it takes its own. -/
theorem kept_onCharacteristicRead (hb : Books [] s) (h : Kept s) (hmem : (gatt, ch) ∈ s.outstanding)
    (value : Option ℤ) (accept : Bool) :
    Kept (onCharacteristicRead gatt ch value accept
      { s with outstanding := s.outstanding.erase (gatt, ch) }) ↔
      ∀ next ∈ s.mReadQueue.head?, next.device = gatt ∧
        (accept = false → ∀ later ∈ s.mReadQueue.tail, later.device ≠ gatt) := by
  set t : State D := { s with outstanding := s.outstanding.erase (gatt, ch) } with ht
  cases hq : s.mReadQueue with
  | nil =>
    obtain ⟨hpassed, hqueue⟩ := onCharacteristicRead_nil (s := t) gatt ch hq value accept
    refine iff_of_true ⟨?_, ?_⟩ nofun
    · rw [hpassed]
      exact h.own
    · rw [hqueue]
      nofun
  | cons next rest =>
    obtain ⟨hpassed, hqueue, -⟩ := onCharacteristicRead_cons (s := t) gatt ch hq value accept
    have hreads := reads_onCharacteristicRead_cons hb hmem hq value accept
    rw [← ht] at hreads
    have hown : (∀ p ∈ (onCharacteristicRead gatt ch value accept t).passed, p.2.device = p.1) ↔
        next.device = gatt := by
      rw [hpassed]
      constructor
      · intro hp
        exact hp (gatt, next) (List.mem_append_right _ (List.mem_singleton_self _))
      · intro hnext p hp
        rcases List.mem_append.1 hp with hp | hp
        · exact h.own p hp
        · rw [List.mem_singleton.1 hp]
          exact hnext
    have hqueued : (∀ c ∈ (onCharacteristicRead gatt ch value accept t).mReadQueue,
        0 < (onCharacteristicRead gatt ch value accept t).reads c.device) ↔
        (accept = false → ∀ later ∈ rest, later.device ≠ gatt) := by
      rw [hqueue]
      constructor
      · intro hc haccept later hlater heq
        have hpos := hc later hlater
        rw [hreads, if_pos heq.symm, haccept] at hpos
        exact absurd hpos (by decide)
      · intro hnone c hc
        rw [hreads]
        split_ifs with he haccept
        · decide
        · exact absurd he.symm (hnone (Bool.not_eq_true _ ▸ haccept) c hc)
        · exact h.queued c (hq ▸ List.mem_cons_of_mem _ hc)
    simp only [List.head?_cons, Option.mem_some_iff, forall_eq', List.tail_cons]
    rw [← hown, ← hqueued]
    exact ⟨fun hk => ⟨hk.own, hk.queued⟩, fun hk => ⟨hk.1, hk.2⟩⟩

theorem kept_step (hb : Books [] s) (h : Kept s) (a : Action D) :
    Kept (step s a) ↔ TakesOwn s a := by
  cases a with
  | servicesDiscovered gatt services => exact iff_of_true (h.onServicesDiscovered services) trivial
  | handleMessage accept => exact iff_of_true (h.handleMessage hb accept) trivial
  | characteristicRead gatt ch value accept =>
    unfold step TakesOwn
    simp only
    split_ifs with hmem
    · rw [kept_onCharacteristicRead hb h hmem]
      exact ⟨fun hk _ => hk, fun hk => hk hmem⟩
    · exact iff_of_true h fun hmem' => absurd hmem' hmem

end Reads

/-- **Proximity reads.**  For every interleaving of actions, all reads are proper in every state
reached exactly if every completion takes its own. -/
theorem reads_proper_iff (as : List (Action D)) :
    (∀ pre, pre <+: as → Proper (pre.foldl step (initial : State D))) ↔
      ∀ pre a, pre ++ [a] <+: as → TakesOwn (pre.foldl step initial) a := by
  have hbooks : ∀ pre : List (Action D), Books [] (pre.foldl step initial) := by
    intro pre
    induction pre using List.reverseRecOn with
    | nil => exact books_initial
    | append_singleton pre a ih =>
      rw [List.foldl_append]
      exact books_step ih a
  have hkept := always_iff (P := fun s : State D => Books [] s ∧ Kept s) (G := TakesOwn)
    ⟨books_initial, nofun, nofun⟩
    (fun s a hs => by
      rw [and_iff_right (books_step hs.1 a)]
      exact kept_step hs.1 hs.2 a) as
  rw [← hkept]
  refine forall₂_congr fun pre _ => ?_
  rw [(hbooks pre).proper_iff, and_iff_right (hbooks pre)]

/-- Two devices with both services each. -/
def twoDevices : List (Action Bool) :=
  [.servicesDiscovered false [(.lls, 1), (.tps, 2)],
    .servicesDiscovered true [(.lls, 1), (.tps, 2)], .handleMessage true, .handleMessage true,
    .handleMessage true, .handleMessage true,
    .characteristicRead true ⟨true, 1, .alertLevel⟩ (some 2) true]

/-- The completion for one device takes the entry of the other one. -/
theorem other_device_read :
    (twoDevices.foldl step initial).passed =
      [(false, ⟨false, 1, .alertLevel⟩), (true, ⟨true, 1, .alertLevel⟩),
        (true, ⟨false, 2, .txPowerLevel⟩)] ∧
    ¬Proper (twoDevices.foldl step initial) := by
  have hpassed : (twoDevices.foldl step initial).passed =
      [(false, ⟨false, 1, .alertLevel⟩), (true, ⟨true, 1, .alertLevel⟩),
        (true, ⟨false, 2, .txPowerLevel⟩)] := by decide
  refine ⟨hpassed, fun hs => ?_⟩
  have hown := hs.own (true, ⟨false, 2, .txPowerLevel⟩) (by rw [hpassed]; decide)
  cases hown

end Pxp

end Msm8909w
