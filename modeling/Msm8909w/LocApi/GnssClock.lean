import Msm8909w.LocApi.StartFix
import Msm8909w.LocApi.SvReport

/-!
# The clock of the measurements

A measurement report carries the count of the reference clock and the number of its resets.  The
last values are kept in static variables, which only reports with both values change, together with
a counter of the discontinuities.  Whoever gets two measurements with the same discontinuity count
takes their times from one clock.

* `Clock.Since.step` : what is known while the counter has not moved on from a report,
* `Clock.continuous_of_unwrapped` : between two reports with the same count no fix was started, the
  clock was not reset, and it did not run backwards.

The conversions in floating point (of the measurements, the biases and the drift) are a parameter.
-/

namespace Msm8909w

namespace LocApi

namespace Clock

/-! ### Reports -/

/-- The conversions in floating point, and what they convert. -/
structure Conversions where
  {Measurement SystemTime ClockFrequency GnssMeasurement Bias Drift : Type}
  convertGnssMeasurements : Measurement → GnssMeasurement
  /-- The full bias, the bias and its uncertainty, relative to `time_ns`; `none` for an unknown week
  or an uncertain time. -/
  bias : SystemTime → ℤ → Option Bias
  drift : ClockFrequency → Drift

variable (C : Conversions)

/-- The parts of `qmiLocEventGnssSvMeasInfoIndMsgT_v02` that are read; a field that is not valid is
`none`. -/
structure MeasInfo where
  system : Sv.SvSystem
  svMeasurement : Option (List C.Measurement)
  /-- `systemTimeExt.refFCount`. -/
  refFCount : Option (BitVec 32)
  numClockResets : Option (BitVec 32)
  systemTime : Option C.SystemTime
  rcvrClockFrequencyInfo : Option C.ClockFrequency

/-- `GnssClock`; the flags say which of the last two fields are set. -/
structure GnssClock where
  time_ns : ℤ := 0
  hw_clock_discontinuity_count : BitVec 32 := 0
  bias : Option C.Bias := none
  drift : Option C.Drift := none

/-- `GnssData`; `measurement_count` is the length of the list. -/
structure GnssData where
  measurements : List C.GnssMeasurement
  clock : GnssClock C

/-- The static variables of `convertGnssClock`. -/
structure Statics where
  oldRefFCount : BitVec 32 := 0
  newRefFCount : BitVec 32 := 0
  oldDiscCount : BitVec 32 := 0
  newDiscCount : BitVec 32 := 0
  localDiscCount : BitVec 32 := 0

/-- The object and the static variables. -/
structure System (w : ℕ) where
  api : State w
  statics : Statics

variable {C : Conversions} {w : ℕ}

/-- The first part of `convertGnssClock`: the statics after a report with both values. -/
def updateDiscCount (refFCount numClockResets : BitVec 32) (s : System w) : System w :=
  let st := { s.statics with newRefFCount := refFCount, newDiscCount := numClockResets }
  let discontinuous := s.api.mMeasurementsStarted = true ∨ st.oldDiscCount ≠ st.newDiscCount ∨
    st.newRefFCount < st.oldRefFCount
  { api :=
      if s.api.mMeasurementsStarted then { s.api with mMeasurementsStarted := false } else s.api
    statics :=
      { st with
        localDiscCount := if discontinuous then st.localDiscCount + 1 else st.localDiscCount
        oldDiscCount := st.newDiscCount
        oldRefFCount := st.newRefFCount } }

/-- `convertGnssClock`. -/
def convertGnssClock (info : MeasInfo C) (s : System w) : GnssClock C × System w :=
  let drift := info.rcvrClockFrequencyInfo.map C.drift
  match info.refFCount, info.numClockResets with
  | some refFCount, some numClockResets =>
    let s := updateDiscCount refFCount numClockResets s
    let time_ns := refFCount.toNat * 1000000
    ({ time_ns
       hw_clock_discontinuity_count := s.statics.localDiscCount
       bias := info.systemTime.bind fun time => C.bias time time_ns
       drift }, s)
  | _, _ => ({ drift }, s)

/-- `reportGnssMeasurementData`; `none` if nothing is reported. -/
def reportGnssMeasurementData (info : MeasInfo C) (s : System w) :
    Option (GnssData C) × System w :=
  let svMeasurement := info.svMeasurement.getD []
  if svMeasurement.length ≠ 0 ∧ info.system = .gps then
    let (clock, s) := convertGnssClock info s
    (some ⟨svMeasurement.map C.convertGnssMeasurements, clock⟩, s)
  else (none, s)

/-- A fix is started, or the modem reports measurements. -/
inductive Event (C : Conversions)
  | startFix (r : Fix.Replies) (fixCriteria : Fix.LocPosMode)
  | report (info : MeasInfo C)

def step (s : System w) : Event C → System w
  | .startFix r fixCriteria => { s with api := (Fix.startFix r s.api fixCriteria).state }
  | .report info => (reportGnssMeasurementData info s).2

/-! ### Continuity -/

/-- The report is passed on with a clock that has the count. -/
def Given (s : System w) (info : MeasInfo C) (count : BitVec 32) : Prop :=
  ∃ data, (reportGnssMeasurementData info s).1 = some data ∧
    data.clock.hw_clock_discontinuity_count = count

def Event.IsStart : Event C → Prop
  | .startFix _ _ => True
  | .report _ => False

/-- The counter of the discontinuities does not wrap. -/
def Unwrapped (s : System w) (es : List (Event C)) : Prop :=
  ∀ pre e, pre ++ [e] <+: es → (pre.foldl step s).statics.localDiscCount ≤
    (step (pre.foldl step s) e).statics.localDiscCount

/-- Reports with valid times and the same count are from one clock, which runs forwards. -/
def Continuous (s : System w) (es : List (Event C)) : Prop :=
  ∀ pre (a : MeasInfo C) mid (b : MeasInfo C) refA refB resetsA resetsB count,
    pre ++ .report a :: mid ++ [.report b] <+: es →
    a.refFCount = some refA → a.numClockResets = some resetsA →
    b.refFCount = some refB → b.numClockResets = some resetsB →
    Given (pre.foldl step s) a count →
    Given ((pre ++ .report a :: mid).foldl step s) b count →
    (∀ e ∈ mid, ¬ e.IsStart) ∧ resetsA = resetsB ∧ refA ≤ refB

/-- What a report leaves behind: while the counter still has its value, a fix that was started is
waiting to be counted, the resets are those of the report, and the clock is not behind it. -/
structure Since (ref resets count : BitVec 32) (started : Prop) (s : System w) : Prop where
  le : count ≤ s.statics.localDiscCount
  waiting : s.statics.localDiscCount = count → started → s.api.mMeasurementsStarted = true
  resets : s.statics.localDiscCount = count → s.statics.oldDiscCount = resets
  ref : s.statics.localDiscCount = count → ref ≤ s.statics.oldRefFCount

section

variable {s : System w} {ref resets count refFCount numClockResets : BitVec 32} {started : Prop}
    {info : MeasInfo C}

theorem mMeasurementsStarted_startFix (r : Fix.Replies) (s : State w)
    (fixCriteria : Fix.LocPosMode) :
    (Fix.startFix r s fixCriteria).state.mMeasurementsStarted = true := by
  rw [Fix.state_startFix, LocApi.startFix, registerEventMask, locClientRegisterEventMask]
  split
  · rfl
  · cases r.registered <;> rfl

/-- A report with both values either follows the last one, or raises the counter. -/
theorem updateDiscCount_cases
    (h : s.statics.localDiscCount ≤
      (updateDiscCount refFCount numClockResets s).statics.localDiscCount) :
    (s.api.mMeasurementsStarted = false ∧ s.statics.oldDiscCount = numClockResets ∧
        s.statics.oldRefFCount ≤ refFCount ∧
        (updateDiscCount refFCount numClockResets s).statics.localDiscCount =
          s.statics.localDiscCount) ∨
      s.statics.localDiscCount <
        (updateDiscCount refFCount numClockResets s).statics.localDiscCount := by
  by_cases hdisc : s.api.mMeasurementsStarted = true ∨ s.statics.oldDiscCount ≠ numClockResets ∨
      refFCount < s.statics.oldRefFCount
  · have hcount : (updateDiscCount refFCount numClockResets s).statics.localDiscCount =
        s.statics.localDiscCount + 1 := if_pos hdisc
    rw [hcount] at h ⊢
    right
    bv_omega
  · have hcount : (updateDiscCount refFCount numClockResets s).statics.localDiscCount =
        s.statics.localDiscCount := if_neg hdisc
    rw [not_or, not_or, Bool.not_eq_true, not_not, BitVec.not_lt] at hdisc
    exact .inl ⟨hdisc.1, hdisc.2.1, hdisc.2.2, hcount⟩

/-- What a report that is passed on is converted to. -/
theorem reportGnssMeasurementData_of_some {data : GnssData C}
    (h : (reportGnssMeasurementData info s).1 = some data) :
    data.clock = (convertGnssClock info s).1 ∧
      (reportGnssMeasurementData info s).2 = (convertGnssClock info s).2 := by
  unfold reportGnssMeasurementData at h ⊢
  by_cases hpassed : (info.svMeasurement.getD []).length ≠ 0 ∧ info.system = .gps
  · simp only [if_pos hpassed] at h ⊢
    obtain rfl := Option.some.inj h
    exact ⟨rfl, trivial⟩
  · simp only [if_neg hpassed] at h
    cases h

theorem convertGnssClock_of_some (href : info.refFCount = some refFCount)
    (hresets : info.numClockResets = some numClockResets) :
    (convertGnssClock info s).2 = updateDiscCount refFCount numClockResets s ∧
      (convertGnssClock info s).1.hw_clock_discontinuity_count =
        (updateDiscCount refFCount numClockResets s).statics.localDiscCount := by
  simp only [convertGnssClock, href, hresets]
  exact ⟨trivial, trivial⟩

/-- A report changes nothing, or the statics are updated with its values. -/
theorem step_report (info : MeasInfo C) (s : System w) :
    step s (.report info) = s ∨ ∃ refFCount numClockResets,
      step s (.report info) = updateDiscCount refFCount numClockResets s := by
  change (reportGnssMeasurementData info s).2 = s ∨ ∃ _ _, (reportGnssMeasurementData info s).2 = _
  cases hdata : (reportGnssMeasurementData info s).1 with
  | none =>
    left
    unfold reportGnssMeasurementData at hdata ⊢
    by_cases hpassed : (info.svMeasurement.getD []).length ≠ 0 ∧ info.system = .gps
    · simp only [if_pos hpassed] at hdata
      cases hdata
    · simp only [if_neg hpassed]
  | some data =>
    rw [(reportGnssMeasurementData_of_some hdata).2]
    cases href : info.refFCount with
    | none =>
      left
      simp only [convertGnssClock, href]
    | some refFCount =>
      cases hresets : info.numClockResets with
      | none =>
        left
        simp only [convertGnssClock, href, hresets]
      | some numClockResets =>
        exact .inr ⟨refFCount, numClockResets, (convertGnssClock_of_some href hresets).1⟩

/-- The count that a report with both values is given is the new value of the counter. -/
theorem Given.eq (h : Given s info count) (href : info.refFCount = some refFCount)
    (hresets : info.numClockResets = some numClockResets) :
    step s (.report info) = updateDiscCount refFCount numClockResets s ∧
      (updateDiscCount refFCount numClockResets s).statics.localDiscCount = count := by
  obtain ⟨data, hdata, hcount⟩ := h
  obtain ⟨hclock, hstep⟩ := reportGnssMeasurementData_of_some hdata
  obtain ⟨hnew, hgiven⟩ := convertGnssClock_of_some (s := s) href hresets
  refine ⟨hstep.trans hnew, ?_⟩
  rw [← hgiven, ← hclock]
  exact hcount

/-- A report starts the time in which the counter has its value. -/
theorem since_updateDiscCount (refFCount numClockResets : BitVec 32) (s : System w) :
    Since refFCount numClockResets
      (updateDiscCount refFCount numClockResets s).statics.localDiscCount False
      (updateDiscCount refFCount numClockResets s) :=
  ⟨BitVec.le_refl _, fun _ => False.elim, fun _ => rfl, fun _ => BitVec.le_refl _⟩

/-- A report with both values while the counter has the value of an earlier one. -/
theorem Since.updateDiscCount (h : Since ref resets count started s)
    (hwrap : s.statics.localDiscCount ≤
      (updateDiscCount refFCount numClockResets s).statics.localDiscCount) :
    Since ref resets count started (updateDiscCount refFCount numClockResets s) ∧
      ((Clock.updateDiscCount refFCount numClockResets s).statics.localDiscCount = count →
        ¬ started ∧ resets = numClockResets ∧ ref ≤ refFCount) := by
  rcases updateDiscCount_cases hwrap with ⟨hstarted, hresets, href, hsame⟩ | hlt
  · have hlast : (Clock.updateDiscCount refFCount numClockResets s).statics.localDiscCount =
        count → ¬ started ∧ resets = numClockResets ∧ ref ≤ refFCount := by
      intro hcount
      rw [hsame] at hcount
      refine ⟨fun hs => ?_, (h.resets hcount).symm.trans hresets,
        BitVec.le_trans (h.ref hcount) href⟩
      exact absurd (hstarted.symm.trans (h.waiting hcount hs)) Bool.false_ne_true
    refine ⟨⟨hsame ▸ h.le, fun hcount hs => absurd hs (hlast hcount).1, fun hcount => ?_,
      fun hcount => (hlast hcount).2.2⟩, hlast⟩
    exact (hlast hcount).2.1.symm
  · -- the counter has moved on
    have hne : (Clock.updateDiscCount refFCount numClockResets s).statics.localDiscCount ≠
        count := by
      rintro rfl
      have hle := h.le
      bv_omega
    exact ⟨⟨BitVec.le_trans h.le hwrap, fun hcount => absurd hcount hne,
      fun hcount => absurd hcount hne, fun hcount => absurd hcount hne⟩,
      fun hcount => absurd hcount hne⟩

/-- **What is known since a report**, after one more event. -/
theorem Since.step {e : Event C} (h : Since ref resets count started s)
    (hwrap : s.statics.localDiscCount ≤ (step s e).statics.localDiscCount) :
    Since ref resets count (started ∨ e.IsStart) (step s e) := by
  cases e with
  | startFix r fixCriteria =>
    exact ⟨h.le, fun _ _ => mMeasurementsStarted_startFix r s.api fixCriteria, h.resets, h.ref⟩
  | report info =>
    have hstarted : (started ∨ (Event.report info).IsStart) = started := by
      simp [Event.IsStart]
    rw [hstarted]
    rcases step_report info s with hsame | ⟨refFCount, numClockResets, hnew⟩
    · rw [hsame]
      exact h
    · rw [hnew] at hwrap ⊢
      exact (h.updateDiscCount hwrap).1

theorem unwrapped_nil : Unwrapped s ([] : List (Event C)) := by
  intro pre e hpre
  simp at hpre

theorem unwrapped_cons {e : Event C} {es : List (Event C)} : Unwrapped s (e :: es) ↔
    s.statics.localDiscCount ≤ (step s e).statics.localDiscCount ∧ Unwrapped (step s e) es := by
  constructor
  · intro h
    exact ⟨h [] e (by simp),
      fun pre e' hpre => h (e :: pre) e' (List.cons_prefix_cons.2 ⟨rfl, hpre⟩)⟩
  · rintro ⟨hhead, htail⟩ pre e' hpre
    cases pre with
    | nil =>
      obtain ⟨rfl, -⟩ := List.cons_prefix_cons.1 hpre
      exact hhead
    | cons e'' pre =>
      obtain ⟨rfl, hrest⟩ := List.cons_prefix_cons.1 hpre
      exact htail pre e' hrest

/-- The same for a list of events. -/
theorem Since.run {es : List (Event C)} (h : Since ref resets count started s)
    (hwrap : Unwrapped s es) :
    Since ref resets count (started ∨ ∃ e ∈ es, e.IsStart) (es.foldl Clock.step s) := by
  induction es generalizing s started with
  | nil => simpa using h
  | cons e es ih =>
    obtain ⟨hhead, htail⟩ := unwrapped_cons.1 hwrap
    have hrun := ih (h.step hhead) htail
    simpa [or_assoc] using hrun

/-- **Equal counts mean one clock**: as long as the counter does not wrap, no fix was started
between two reports with the same count, the resets are the same, and the reference count of the
later one is not smaller. -/
theorem continuous_of_unwrapped {es : List (Event C)} (h : Unwrapped s es) : Continuous s es := by
  intro pre a mid b refA refB resetsA resetsB count hpre hrefA hresetsA hrefB hresetsB ha hb
  obtain ⟨hstepA, hcountA⟩ := ha.eq hrefA hresetsA
  obtain ⟨hstepB, hcountB⟩ := hb.eq hrefB hresetsB
  have hafter : (pre ++ .report a :: mid).foldl Clock.step s =
      mid.foldl Clock.step (Clock.updateDiscCount refA resetsA (pre.foldl Clock.step s)) := by
    rw [List.foldl_append, List.foldl_cons, hstepA]
  have hmid : Unwrapped (Clock.updateDiscCount refA resetsA (pre.foldl Clock.step s)) mid := by
    intro pre' e hpre'
    have hlong : (pre ++ .report a :: pre') ++ [e] <+: es := by
      obtain ⟨post, rfl⟩ := hpre'
      refine List.IsPrefix.trans ⟨post ++ [.report b], ?_⟩ hpre
      simp
    have hle := h _ _ hlong
    rw [List.foldl_append, List.foldl_cons, hstepA] at hle
    exact hle
  have hsince := (since_updateDiscCount refA resetsA (pre.foldl Clock.step s)).run hmid
  rw [hcountA, ← hafter] at hsince
  have hlast := h _ _ hpre
  rw [hstepB] at hlast
  obtain ⟨hno, hresets, href⟩ := (hsince.updateDiscCount hlast).2 hcountB
  refine ⟨fun e he hstart => hno (.inr ⟨e, he, hstart⟩), hresets, href⟩

/-- Conversions for which nothing is left of the measurements. -/
def trivialConversions : Conversions where
  convertGnssMeasurements (_ : Unit) := ()
  bias (_ : Unit) _ := some ()
  drift (_ : Unit) := ()

def sampleReport (refFCount numClockResets : Option (BitVec 32)) : MeasInfo trivialConversions :=
  ⟨.gps, some [()], refFCount, numClockResets, none, none⟩

/-- A fix is started, and two reports with a clock follow, with one without a clock in between. -/
def sampleRun : List (Event trivialConversions) :=
  [.startFix (Fix.acknowledged .success) Fix.everySecond,
    .report (sampleReport (some 5) (some 0)), .report (sampleReport none (some 7)),
    .report (sampleReport (some 9) (some 0))]

def sampleSystem : System 0 := ⟨initial 0, {}⟩

/-- Both reports get the count one. -/
theorem continuous_of_unwrapped_sample :
    Given (([sampleRun.head (by decide)]).foldl step sampleSystem)
      (sampleReport (some 5) (some 0)) 1 ∧
    Given ((sampleRun.take 3).foldl step sampleSystem) (sampleReport (some 9) (some 0)) 1 ∧
    Continuous sampleSystem sampleRun := by
  refine ⟨⟨_, rfl, rfl⟩, ⟨_, rfl, rfl⟩, continuous_of_unwrapped ?_⟩
  simp only [sampleRun, unwrapped_cons, unwrapped_nil, and_true]
  decide

end

end Clock

end LocApi

end Msm8909w
