import Mathlib.Data.List.Forall2
import Mathlib.Algebra.GroupWithZero.Nat
import Mathlib.Data.Int.Notation

/-!
# Satellite reports

`reportSv` translates the entries of a satellite report, one after the other, into the list that
goes to the adapter.  The test for "used in fix" assigns to the flag word while it looks at it, so
that a tracked satellite keeps at most the ephemeris flag.

* `Sv.reportSv` : the code, `Sv.Describes` : what an entry of the list should say,
* `Sv.infoFlags_eq`, `Sv.svFlags_of_tracked` : the flag word, and what is left of it for a tracked
  one,
* `Sv.describes_all_iff` : all entries come out right exactly if no satellite that is passed on is
  tracked and has an almanac.

The flags and the length of the list, `GNSS_MAX_SVS`, are declared outside the repository.  Of the
flags only the laws are used that say that they are bits of their own (`Sv.Flags`).  Elevation,
azimuth and signal strength are only copied; their type is a parameter.
-/

namespace Msm8909w

namespace LocApi

namespace Sv

/-! ### Entries -/

/-- `qmiLocSvSystemEnumT_v02`. -/
inductive SvSystem
  | gps
  | galileo
  | sbas
  | compass
  | glonass
  | bds
  | qzss
  deriving DecidableEq, Repr

/-- `qmiLocSvStatusEnumT_v02`. -/
inductive SvState
  | idle
  | search
  | track
  deriving DecidableEq, Repr

/-- `qmiLocSvInfoStructT_v02`. -/
structure SvInfo (F : Type) where
  validMask : BitVec 32
  system : SvSystem
  gnssSvId : ℕ
  svStatus : SvState
  svInfoMask : BitVec 8
  elevation : F
  azimuth : F
  snr : F

/-- The satellite part of `qmiLocEventGnssSvInfoIndMsgT_v02`; `svList_len` is the length of the
list. -/
structure SvReport (F : Type) where
  svListValid : ℕ
  svList : List (SvInfo F)

/-- `GNSS_CONSTELLATION_*`. -/
inductive Constellation
  | unknown
  | gps
  | sbas
  | glonass
  | qzss
  | beidou
  | galileo
  deriving DecidableEq, Repr

/-- `GnssSvInfo`, without its size. -/
structure GnssSvInfo (F : Type) (w : ℕ) where
  svid : ℤ
  constellation : Constellation
  cN0Dbhz : F
  elevation : F
  azimuth : F
  flags : BitVec w

/-- `GNSS_SV_FLAGS_*`. -/
structure Flags (w : ℕ) where
  none : BitVec w
  hasEphemeris : BitVec w
  hasAlmanac : BitVec w
  usedInFix : BitVec w
  none_eq : none = 0#w
  hasEphemeris_ne : hasEphemeris ≠ 0#w
  hasAlmanac_ne : hasAlmanac ≠ 0#w
  usedInFix_ne : usedInFix ≠ 0#w
  ephemeris_almanac : hasEphemeris &&& hasAlmanac = 0#w
  ephemeris_used : hasEphemeris &&& usedInFix = 0#w
  almanac_used : hasAlmanac &&& usedInFix = 0#w

section

variable {F : Type} {w : ℕ}

namespace SvInfo

variable (sv : SvInfo F)

def validSystem : Bool := sv.validMask &&& 0x00000001 != 0
def validGnssSvid : Bool := sv.validMask &&& 0x00000002 != 0
def validProcessStatus : Bool := sv.validMask &&& 0x00000008 != 0
def validSvInfoMask : Bool := sv.validMask &&& 0x00000010 != 0
def validElevation : Bool := sv.validMask &&& 0x00000020 != 0
def validAzimuth : Bool := sv.validMask &&& 0x00000040 != 0
def validSnr : Bool := sv.validMask &&& 0x00000080 != 0

/-- The entry is passed on. -/
def usable : Bool := sv.validSystem && sv.validGnssSvid && sv.gnssSvId != 0

/-- `QMI_LOC_SVINFO_MASK_HAS_EPHEMERIS_V02`. -/
def hasEphemeris : Bool := sv.svInfoMask &&& 0x01 != 0

/-- `QMI_LOC_SVINFO_MASK_HAS_ALMANAC_V02`. -/
def hasAlmanac : Bool := sv.svInfoMask &&& 0x02 != 0

/-- The satellite and its number within its constellation. -/
def identity : Constellation × ℤ :=
  let gnssSvId : ℤ := sv.gnssSvId
  match sv.system with
  | .gps => (.gps, gnssSvId)
  | .galileo => (.galileo, gnssSvId - 300)
  | .sbas => (.sbas, gnssSvId)
  | .glonass => (.glonass, gnssSvId)
  | .bds => (.beidou, gnssSvId - 200)
  | .qzss => (.qzss, gnssSvId)
  | .compass => (.unknown, gnssSvId)

/-- The process status is valid and says that the satellite is tracked. -/
def tracked : Bool := sv.validProcessStatus && sv.svStatus == .track

/-- The info mask is valid and says that there is an ephemeris. -/
def saysEphemeris : Bool := sv.validSvInfoMask && sv.hasEphemeris

/-- The info mask is valid and says that there is an almanac. -/
def saysAlmanac : Bool := sv.validSvInfoMask && sv.hasAlmanac

end SvInfo

/-! ### The flag word -/

/-- The flags that the info mask gives. -/
def infoFlags (f : Flags w) (sv : SvInfo F) : BitVec w :=
  if sv.validSvInfoMask then
    let flags := if sv.hasEphemeris then f.none ||| f.hasEphemeris else f.none
    if sv.hasAlmanac then flags ||| f.hasAlmanac else flags
  else f.none

/-- `flags` of an entry. -/
def svFlags (f : Flags w) (sv : SvInfo F) : BitVec w :=
  let flags := infoFlags f sv
  if sv.tracked then
    -- both comparisons assign what they compare
    let flags := flags &&& f.hasEphemeris
    if f.hasEphemeris = flags then flags ||| f.usedInFix
    else
      let flags := flags &&& f.hasAlmanac
      if f.hasAlmanac = flags then flags ||| f.usedInFix else flags
  else flags

section FlagWord

variable {f : Flags w} {sv : SvInfo F}

theorem infoFlags_eq : infoFlags f sv = (if sv.saysEphemeris then f.hasEphemeris else 0#w) |||
    (if sv.saysAlmanac then f.hasAlmanac else 0#w) := by
  rw [infoFlags, SvInfo.saysEphemeris, SvInfo.saysAlmanac, f.none_eq]
  cases sv.validSvInfoMask <;> cases sv.hasEphemeris <;> cases sv.hasAlmanac <;> simp

theorem svFlags_of_not_tracked (h : sv.tracked = false) : svFlags f sv = infoFlags f sv := by
  simp [svFlags, h]

/-- A tracked satellite keeps the ephemeris flag only. -/
theorem svFlags_of_tracked (h : sv.tracked = true) :
    svFlags f sv = if sv.saysEphemeris then f.hasEphemeris ||| f.usedInFix else 0#w := by
  have halm : f.hasAlmanac &&& f.hasEphemeris = 0#w := by
    rw [BitVec.and_comm, f.ephemeris_almanac]
  have hand : infoFlags f sv &&& f.hasEphemeris =
      if sv.saysEphemeris then f.hasEphemeris else 0#w := by
    rw [infoFlags_eq, BitVec.and_or_distrib_right]
    cases sv.saysEphemeris <;> cases sv.saysAlmanac <;> simp [halm]
  simp only [svFlags, h, hand]
  cases sv.saysEphemeris <;> simp [f.hasEphemeris_ne, f.hasAlmanac_ne]

end FlagWord

/-! ### The list -/

variable [Zero F]

/-- The entry that the loop fills in, which is zero before. -/
def translate (f : Flags w) (sv : SvInfo F) : GnssSvInfo F w where
  svid := sv.identity.2
  constellation := sv.identity.1
  cN0Dbhz := if sv.validSnr then sv.snr else 0
  elevation := if sv.validElevation then sv.elevation else 0
  azimuth := if sv.validAzimuth then sv.azimuth else 0
  flags := svFlags f sv

/-- `reportSv`: the list that is passed on, whose length is `num_svs`. -/
def reportSv (f : Flags w) (gnssMaxSvs : ℕ) (report : SvReport F) : List (GnssSvInfo F w) :=
  if report.svListValid = 1 then
    (report.svList.take gnssMaxSvs).foldl
      (fun list sv => if sv.usable then list ++ [translate f sv] else list) []
  else []

/-! ### What the list should say -/

/-- The entry says what the satellite report says about one satellite. -/
structure Describes (f : Flags w) (sv : SvInfo F) (entry : GnssSvInfo F w) : Prop where
  constellation : entry.constellation = sv.identity.1
  svid : entry.svid = sv.identity.2
  cN0Dbhz : entry.cN0Dbhz = if sv.validSnr then sv.snr else 0
  elevation : entry.elevation = if sv.validElevation then sv.elevation else 0
  azimuth : entry.azimuth = if sv.validAzimuth then sv.azimuth else 0
  ephemeris : entry.flags &&& f.hasEphemeris ≠ 0#w ↔ sv.saysEphemeris = true
  almanac : entry.flags &&& f.hasAlmanac ≠ 0#w ↔ sv.saysAlmanac = true
  usedInFix : entry.flags &&& f.usedInFix ≠ 0#w ↔
    sv.tracked = true ∧ (sv.saysEphemeris = true ∨ sv.saysAlmanac = true)

/-- The entries of a report that are passed on. -/
def SvReport.kept (gnssMaxSvs : ℕ) (report : SvReport F) : List (SvInfo F) :=
  if report.svListValid = 1 then (report.svList.take gnssMaxSvs).filter SvInfo.usable else []

variable {f : Flags w} {sv : SvInfo F}

/-- The flags of an entry are right exactly if its satellite is not tracked or has no almanac. -/
theorem describes_translate_iff :
    Describes f sv (translate f sv) ↔ ¬ (sv.tracked = true ∧ sv.saysAlmanac = true) := by
  have halm : f.hasAlmanac &&& f.hasEphemeris = 0#w := by
    rw [BitVec.and_comm, f.ephemeris_almanac]
  have hused : f.usedInFix &&& f.hasEphemeris = 0#w := by
    rw [BitVec.and_comm, f.ephemeris_used]
  have hused' : f.usedInFix &&& f.hasAlmanac = 0#w := by
    rw [BitVec.and_comm, f.almanac_used]
  cases htracked : sv.tracked with
  | false =>
    refine iff_of_true ?_ (by simp)
    constructor
    case ephemeris =>
      rw [translate, svFlags_of_not_tracked htracked, infoFlags_eq, BitVec.and_or_distrib_right]
      cases sv.saysEphemeris <;> cases sv.saysAlmanac <;> simp [halm, f.hasEphemeris_ne]
    case almanac =>
      rw [translate, svFlags_of_not_tracked htracked, infoFlags_eq, BitVec.and_or_distrib_right]
      cases sv.saysEphemeris <;> cases sv.saysAlmanac <;>
        simp [f.ephemeris_almanac, f.hasAlmanac_ne]
    case usedInFix =>
      rw [translate, svFlags_of_not_tracked htracked, infoFlags_eq, BitVec.and_or_distrib_right]
      cases sv.saysEphemeris <;> cases sv.saysAlmanac <;>
        simp [htracked, f.ephemeris_used, f.almanac_used]
    all_goals rfl
  | true =>
    have hflags : (translate f sv).flags =
        if sv.saysEphemeris then f.hasEphemeris ||| f.usedInFix else 0#w :=
      svFlags_of_tracked htracked
    have hnone : (translate f sv).flags &&& f.hasAlmanac = 0#w := by
      rw [hflags]
      split_ifs
      · rw [BitVec.and_or_distrib_right, f.ephemeris_almanac, hused', BitVec.or_self]
      · exact BitVec.zero_and
    constructor
    · rintro h ⟨-, halmanac⟩
      exact h.almanac.2 halmanac hnone
    · intro h
      have hno : sv.saysAlmanac = false := by simpa using h
      constructor
      case ephemeris =>
        rw [hflags]
        cases sv.saysEphemeris <;> simp [BitVec.and_or_distrib_right, hused, f.hasEphemeris_ne]
      case almanac => simp [hnone, hno]
      case usedInFix =>
        rw [hflags]
        cases sv.saysEphemeris <;>
          simp [BitVec.and_or_distrib_right, htracked, hno, f.ephemeris_used, f.usedInFix_ne]
      all_goals rfl

/-- The loop translates each entry by itself. -/
theorem reportSv_eq (f : Flags w) (gnssMaxSvs : ℕ) (report : SvReport F) :
    reportSv f gnssMaxSvs report = (report.kept gnssMaxSvs).map (translate f) := by
  have hloop : ∀ (svs : List (SvInfo F)) (list : List (GnssSvInfo F w)),
      svs.foldl (fun list sv => if sv.usable then list ++ [translate f sv] else list) list =
        list ++ (svs.filter SvInfo.usable).map (translate f) := by
    intro svs
    induction svs with
    | nil => simp
    | cons sv svs ih =>
      intro list
      rw [List.foldl_cons, ih]
      cases h : sv.usable <;> simp [h]
  rw [reportSv, SvReport.kept]
  split_ifs
  · rw [hloop, List.nil_append]
  · rfl

/-- For every report, the list passed on has one right entry for each usable entry of the report, in
order, exactly if none of these is tracked and has an almanac. -/
theorem describes_all_iff (f : Flags w) (gnssMaxSvs : ℕ) (report : SvReport F) :
    List.Forall₂ (Describes f) (report.kept gnssMaxSvs) (reportSv f gnssMaxSvs report) ↔
      ∀ sv ∈ report.kept gnssMaxSvs, ¬ (sv.tracked = true ∧ sv.saysAlmanac = true) := by
  rw [reportSv_eq, List.forall₂_map_right_iff, List.forall₂_same]
  simp only [describes_translate_iff]

end

/-- The flags, one bit each. -/
def sampleFlags : Flags 16 where
  none := 0
  hasEphemeris := 1
  hasAlmanac := 2
  usedInFix := 4
  none_eq := by decide
  hasEphemeris_ne := by decide
  hasAlmanac_ne := by decide
  usedInFix_ne := by decide
  ephemeris_almanac := by decide
  ephemeris_used := by decide
  almanac_used := by decide

/-- A GPS satellite that is tracked, with what `svInfoMask` says. -/
def trackedSv (svInfoMask : BitVec 8) : SvInfo ℕ :=
  ⟨0x1F, .gps, 7, .track, svInfoMask, 0, 0, 0⟩

/-- A tracked satellite with an almanac and no ephemeris loses its only flag. -/
theorem not_describes_trackedSv : ¬ List.Forall₂ (Describes sampleFlags)
    (SvReport.kept 64 ⟨1, [trackedSv 2]⟩) (reportSv sampleFlags 64 ⟨1, [trackedSv 2]⟩) := by
  intro h
  have halmanac := (List.forall₂_cons.1 h).1.almanac.2 (by decide)
  revert halmanac
  decide

end Sv

end LocApi

end Msm8909w
