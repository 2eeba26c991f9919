import Mathlib.Algebra.Notation.Defs
import Msm8909w.LocApi.Requests

/-!
# Zero-power positions

`getBestAvailableZppFix` and `getWwanZppFix` ask the modem for a position that it has anyway.  The
first one returns what became of the request, whatever the indication says.  The second one falls
back on it, and then takes a position with a cell among its sources.

* `Zpp.getBestAvailableZppFix`, `Zpp.getWwanZppFix` : the code,
* `Zpp.best_of_position`, `Zpp.best_of_no_position` : the location and the sources, with a position
  in the indication and without,
* `Zpp.sound_iff` : success means a position, and satellites are not a source of a position that
  the fall-back finds, exactly if a request that succeeds is answered by a position, and no such
  answer to a fall-back has both a cell and satellites as sources.

Coordinates, accuracy and the like are only copied; their type is a parameter, and so is the system
time.  `LOC_POS_TECH_MASK_DEFAULT` and `LOC_POS_TECH_MASK_CELLID` are declared outside the
repository (`TechMasks`).
-/

namespace Msm8909w

namespace LocApi

open LocSync (Status)

namespace Zpp

/-- `GPS_LOCATION_HAS_*`. -/
structure LocationFlags where
  hasLatLong : Bool := false
  hasAltitude : Bool := false
  hasSpeed : Bool := false
  hasBearing : Bool := false
  hasAccuracy : Bool := false
  deriving DecidableEq, Repr

/-- `GpsLocation`, without its size. -/
structure GpsLocation (F : Type) where
  flags : LocationFlags
  latitude : F
  longitude : F
  altitude : F
  speed : F
  bearing : F
  accuracy : F
  timestamp : ℕ
  deriving DecidableEq

/-- The fields of `qmiLocGetBestAvailablePositionIndMsgT_v02` and
`qmiLocGetAvailWwanPositionIndMsgT_v02` that are read; a field that is not valid is `none`, and
an indication about the WWAN position has none of the last three. -/
structure PositionInd (F : Type) where
  status : QmiStatus := .success
  latitude : Option F := none
  longitude : Option F := none
  horUncCircular : Option F := none
  altitudeWrtEllipsoid : Option F := none
  timestampUtc : Option ℕ := none
  horSpeed : Option F := none
  heading : Option F := none
  technologyMask : Option (BitVec 32) := none
  deriving DecidableEq

/-- `LOC_POS_TECH_MASK_*`. -/
structure TechMasks where
  default : BitVec 32
  cellId : BitVec 32

/-- `QMI_LOC_POS_TECH_MASK_SATELLITE_V02`. -/
def satellite : BitVec 32 := 0x00000001

section

variable {F : Type} [Zero F]

/-- A location of zeros. -/
def GpsLocation.zero : GpsLocation F := ⟨{}, 0, 0, 0, 0, 0, 0, 0⟩

/-- The location with the altitude of an indication. -/
def GpsLocation.withAltitude (zppLoc : GpsLocation F) : Option F → GpsLocation F
  | some altitude =>
    { zppLoc with flags := { zppLoc.flags with hasAltitude := true }, altitude := altitude }
  | none => zppLoc

/-- The location with the speed of an indication. -/
def GpsLocation.withSpeed (zppLoc : GpsLocation F) : Option F → GpsLocation F
  | some speed => { zppLoc with flags := { zppLoc.flags with hasSpeed := true }, speed := speed }
  | none => zppLoc

/-- The location with the bearing of an indication. -/
def GpsLocation.withBearing (zppLoc : GpsLocation F) : Option F → GpsLocation F
  | some bearing =>
    { zppLoc with flags := { zppLoc.flags with hasBearing := true }, bearing := bearing }
  | none => zppLoc

/-- `getBestAvailableZppFix`, with `zppLoc` and `tech_mask`; `now` is the system time. -/
def getBestAvailableZppFix (masks : TechMasks) (isOpen : Bool) (now : ℕ)
    (e : Exchange (PositionInd F)) : AdapterErr × GpsLocation F × BitVec 32 :=
  let (status, zppInd) := locSyncSendReq isOpen e {}
  if status ≠ .success ∨ zppInd.status ≠ .success then
    (convertErr status, GpsLocation.zero, masks.default)
  else
    let zppLoc := { GpsLocation.zero with timestamp := zppInd.timestampUtc.getD now }
    match zppInd.latitude, zppInd.longitude, zppInd.horUncCircular with
    | some latitude, some longitude, some horUncCircular =>
      let zppLoc : GpsLocation F := { zppLoc with
        flags := { hasLatLong := true, hasAccuracy := true }
        latitude := latitude
        longitude := longitude
        accuracy := horUncCircular }
      let zppLoc := zppLoc.withAltitude zppInd.altitudeWrtEllipsoid
      let zppLoc := zppLoc.withSpeed zppInd.horSpeed
      let zppLoc := zppLoc.withBearing zppInd.heading
      (convertErr status, zppLoc, zppInd.technologyMask.getD masks.default)
    | _, _, _ => (convertErr status, zppLoc, masks.default)

/-- `getWwanZppFix`, with `zppLoc`; the second request is that of the fall-back. -/
def getWwanZppFix (masks : TechMasks) (isOpen : Bool) (now : ℕ)
    (e best : Exchange (PositionInd F)) : AdapterErr × GpsLocation F :=
  let (status, zppInd) := locSyncSendReq isOpen e {}
  if status ≠ .success ∨ zppInd.status ≠ .success then
    let (ret, zppLoc, techMask) := getBestAvailableZppFix masks isOpen now best
    if ret = .success ∧ techMask ≠ masks.default ∧ techMask &&& masks.cellId ≠ 0 then
      (.success, zppLoc)
    else (.generalFailure, zppLoc)
  else
    let zppLoc := { GpsLocation.zero with timestamp := zppInd.timestampUtc.getD now }
    match zppInd.latitude, zppInd.longitude, zppInd.horUncCircular with
    | some latitude, some longitude, some horUncCircular =>
      let zppLoc : GpsLocation F := { zppLoc with
        flags := { hasLatLong := true, hasAccuracy := true }
        latitude := latitude
        longitude := longitude
        accuracy := horUncCircular }
      (.success, zppLoc.withAltitude zppInd.altitudeWrtEllipsoid)
    | _, _, _ => (.generalFailure, zppLoc)

/-! ### What success says -/

/-- The indication says success and has coordinates and an accuracy. -/
def PositionInd.HasPosition (ind : PositionInd F) : Prop :=
  ind.status = .success ∧ ind.latitude ≠ none ∧ ind.longitude ≠ none ∧ ind.horUncCircular ≠ none

/-- The location has the coordinates and the accuracy of the indication. -/
structure IsPosition (zppLoc : GpsLocation F) (ind : PositionInd F) : Prop where
  hasLatLong : zppLoc.flags.hasLatLong = true
  hasAccuracy : zppLoc.flags.hasAccuracy = true
  status : ind.status = .success
  latitude : ind.latitude = some zppLoc.latitude
  longitude : ind.longitude = some zppLoc.longitude
  accuracy : ind.horUncCircular = some zppLoc.accuracy

/-- The first request of `getWwanZppFix` fails, or its indication does. -/
def FallsBack (isOpen : Bool) (e : Exchange (PositionInd F)) : Prop :=
  (locSyncSendReq isOpen e {}).1 ≠ .success ∨ (locSyncSendReq isOpen e {}).2.status ≠ .success

/-- Success means a position, for all replies to the requests: `e` is that of
`getBestAvailableZppFix`, `wwan` and `best` are those of `getWwanZppFix`. -/
structure Sound (masks : TechMasks) (isOpen : Bool) (now : ℕ)
    (e wwan best : Exchange (PositionInd F)) : Prop where
  best_position : (getBestAvailableZppFix masks isOpen now e).1 = .success →
    ∃ ind ∈ e.received, IsPosition (getBestAvailableZppFix masks isOpen now e).2.1 ind
  wwan_position : (getWwanZppFix masks isOpen now wwan best).1 = .success →
    ∃ ind, (ind ∈ wwan.received ∨ ind ∈ best.received) ∧
      IsPosition (getWwanZppFix masks isOpen now wwan best).2 ind
  no_satellite : FallsBack isOpen wwan → (getWwanZppFix masks isOpen now wwan best).1 = .success →
    ∀ ind ∈ best.received, ∀ mask ∈ ind.technologyMask, mask &&& satellite = 0

/-- What has to be true of the replies. -/
structure Favourable (masks : TechMasks) (isOpen : Bool)
    (e wwan best : Exchange (PositionInd F)) : Prop where
  /-- A request of `getBestAvailableZppFix` that succeeds is answered by a position. -/
  answered : (locSyncSendReq isOpen e {}).1 = .success → ∃ ind ∈ e.received, ind.HasPosition
  /-- A position that the fall-back gets with a cell among its sources has no satellites among
  them. -/
  no_satellite : FallsBack isOpen wwan → (locSyncSendReq isOpen best {}).1 = .success →
    ∀ ind ∈ best.received, ind.HasPosition → ∀ mask ∈ ind.technologyMask,
      mask ≠ masks.default → mask &&& masks.cellId ≠ 0 → mask &&& satellite = 0

variable {masks : TechMasks} {isOpen : Bool} {now : ℕ} {e wwan best : Exchange (PositionInd F)}

omit [Zero F] in
/-- A buffer with a position holds an indication that was received. -/
theorem received_of_hasPosition (h : (locSyncSendReq isOpen e {}).2.HasPosition) :
    e.received = some (locSyncSendReq isOpen e {}).2 := by
  rw [locSyncSendReq_received] at h ⊢
  cases hind : e.received with
  | none =>
    rw [hind] at h
    exact absurd rfl h.2.1
  | some ind => rfl

theorem best_err : (getBestAvailableZppFix masks isOpen now e).1 =
    convertErr (locSyncSendReq isOpen e {}).1 := by
  simp only [getBestAvailableZppFix]
  split_ifs
  · rfl
  · split <;> rfl

omit [Zero F] in
theorem isPosition_with {zppLoc : GpsLocation F} {ind : PositionInd F}
    (h : IsPosition zppLoc ind) (altitude speed bearing : Option F) :
    IsPosition (((zppLoc.withAltitude altitude).withSpeed speed).withBearing bearing) ind := by
  obtain ⟨hlatlong, haccuracy, hstatus, hlat, hlong, hunc⟩ := h
  cases altitude <;> cases speed <;> cases bearing <;> constructor <;> assumption

/-- The request succeeds, and the indication has a position. -/
theorem best_of_position (hsucc : (locSyncSendReq isOpen e {}).1 = .success)
    (h : (locSyncSendReq isOpen e {}).2.HasPosition) :
    IsPosition (getBestAvailableZppFix masks isOpen now e).2.1 (locSyncSendReq isOpen e {}).2 ∧
      (getBestAvailableZppFix masks isOpen now e).2.2 =
        (locSyncSendReq isOpen e {}).2.technologyMask.getD masks.default := by
  obtain ⟨hstatus, hlat, hlong, hunc⟩ := h
  obtain ⟨latitude, hlat⟩ := Option.ne_none_iff_exists'.1 hlat
  obtain ⟨longitude, hlong⟩ := Option.ne_none_iff_exists'.1 hlong
  obtain ⟨horUncCircular, hunc⟩ := Option.ne_none_iff_exists'.1 hunc
  have hgood : ¬ ((locSyncSendReq isOpen e {}).1 ≠ .success ∨
      (locSyncSendReq isOpen e {}).2.status ≠ .success) := by
    simp [hsucc, hstatus]
  simp only [getBestAvailableZppFix, if_neg hgood, hlat, hlong, hunc]
  exact ⟨isPosition_with ⟨rfl, rfl, hstatus, hlat, hlong, hunc⟩ _ _ _, trivial⟩

/-- Otherwise the location is zero, and no source is named. -/
theorem best_of_no_position (h : ¬ ((locSyncSendReq isOpen e {}).1 = .success ∧
    (locSyncSendReq isOpen e {}).2.HasPosition)) :
    (getBestAvailableZppFix masks isOpen now e).2.1.flags.hasLatLong = false ∧
      (getBestAvailableZppFix masks isOpen now e).2.2 = masks.default := by
  simp only [getBestAvailableZppFix]
  split_ifs with hbad
  · exact ⟨rfl, rfl⟩
  · rw [not_or, not_not, not_not] at hbad
    split
    · next hlat hlong hunc =>
      refine absurd ⟨hbad.1, hbad.2, ?_⟩ h
      simp [hlat, hlong, hunc]
    · exact ⟨rfl, rfl⟩

/-- The fall-back succeeds with a position that has a cell among its sources. -/
theorem fallback_eq_success (hfall : FallsBack isOpen wwan) :
    (getWwanZppFix masks isOpen now wwan best).1 = .success ↔
      (locSyncSendReq isOpen best {}).1 = .success ∧ (locSyncSendReq isOpen best {}).2.HasPosition ∧
        ∃ mask ∈ (locSyncSendReq isOpen best {}).2.technologyMask,
          mask ≠ masks.default ∧ mask &&& masks.cellId ≠ 0 := by
  have heq : (getWwanZppFix masks isOpen now wwan best).1 = .success ↔
      (getBestAvailableZppFix masks isOpen now best).1 = .success ∧
        (getBestAvailableZppFix masks isOpen now best).2.2 ≠ masks.default ∧
        (getBestAvailableZppFix masks isOpen now best).2.2 &&& masks.cellId ≠ 0 := by
    unfold FallsBack at hfall
    simp only [getWwanZppFix, if_pos hfall]
    split_ifs with hbest
    · exact iff_of_true rfl hbest
    · exact iff_of_false (by simp) hbest
  rw [heq, best_err, convertErr_eq_success]
  by_cases hpos : (locSyncSendReq isOpen best {}).1 = .success ∧
      (locSyncSendReq isOpen best {}).2.HasPosition
  · rw [(best_of_position hpos.1 hpos.2).2]
    cases hmask : (locSyncSendReq isOpen best {}).2.technologyMask with
    | none => simp
    | some mask => simp [hpos.1, hpos.2]
  · rw [(best_of_no_position hpos).2]
    constructor
    · rintro ⟨-, hne, -⟩
      exact absurd rfl hne
    · rintro ⟨hsucc, hhas, -⟩
      exact absurd ⟨hsucc, hhas⟩ hpos

/-- The location of the fall-back is that of the best available position. -/
theorem fallback_location (hfall : FallsBack isOpen wwan) :
    (getWwanZppFix masks isOpen now wwan best).2 =
      (getBestAvailableZppFix masks isOpen now best).2.1 := by
  unfold FallsBack at hfall
  simp only [getWwanZppFix, if_pos hfall]
  split_ifs <;> rfl

/-- Success without the fall-back is a position. -/
theorem wwan_position_of_success (hno : ¬ FallsBack isOpen wwan)
    (hsucc : (getWwanZppFix masks isOpen now wwan best).1 = .success) :
    (locSyncSendReq isOpen wwan {}).2.HasPosition ∧
      IsPosition (getWwanZppFix masks isOpen now wwan best).2
        (locSyncSendReq isOpen wwan {}).2 := by
  have hstatus : (locSyncSendReq isOpen wwan {}).2.status = .success := by
    by_contra hne
    exact hno (.inr hne)
  unfold FallsBack at hno
  simp only [getWwanZppFix, if_neg hno] at hsucc ⊢
  split at hsucc
  · next hlat hlong hunc =>
    refine ⟨⟨hstatus, by simp [hlat], by simp [hlong], by simp [hunc]⟩, ?_⟩
    exact isPosition_with ⟨rfl, rfl, hstatus, hlat, hlong, hunc⟩ _ none none
  · cases hsucc

/-- Whatever the replies are, the success of `getWwanZppFix` is a position. -/
theorem wwan_position (hsucc : (getWwanZppFix masks isOpen now wwan best).1 = .success) :
    ∃ ind, (ind ∈ wwan.received ∨ ind ∈ best.received) ∧
      IsPosition (getWwanZppFix masks isOpen now wwan best).2 ind := by
  by_cases hfall : FallsBack isOpen wwan
  · obtain ⟨hbest, hhas, -⟩ := (fallback_eq_success hfall).1 hsucc
    rw [fallback_location hfall]
    exact ⟨_, .inr (received_of_hasPosition hhas), (best_of_position hbest hhas).1⟩
  · obtain ⟨hhas, hpos⟩ := wwan_position_of_success hfall hsucc
    exact ⟨_, .inl (received_of_hasPosition hhas), hpos⟩

/-- `getBestAvailableZppFix` gives out a position with success exactly if the request, when it
succeeds, is answered by one. -/
theorem best_position_iff :
    ((getBestAvailableZppFix masks isOpen now e).1 = .success →
      ∃ ind ∈ e.received, IsPosition (getBestAvailableZppFix masks isOpen now e).2.1 ind) ↔
    ((locSyncSendReq isOpen e {}).1 = .success → ∃ ind ∈ e.received, ind.HasPosition) := by
  rw [best_err, convertErr_eq_success]
  refine imp_congr_right fun hsucc => ⟨?_, ?_⟩
  · rintro ⟨ind, hind, hpos⟩
    refine ⟨ind, hind, hpos.status, ?_⟩
    simp [hpos.latitude, hpos.longitude, hpos.accuracy]
  · rintro ⟨ind, hind, hhas⟩
    have hbuf : (locSyncSendReq isOpen e {}).2 = ind := by
      rw [locSyncSendReq_received, Option.mem_def.1 hind]
      rfl
    have hpos : IsPosition (getBestAvailableZppFix masks isOpen now e).2.1 _ :=
      (best_of_position hsucc (hbuf ▸ hhas)).1
    rw [hbuf] at hpos
    exact ⟨ind, hind, hpos⟩

/-- No position of the fall-back has satellites among its sources exactly if none that it takes has
them besides a cell. -/
theorem no_satellite_iff (hfall : FallsBack isOpen wwan) :
    ((getWwanZppFix masks isOpen now wwan best).1 = .success →
      ∀ ind ∈ best.received, ∀ mask ∈ ind.technologyMask, mask &&& satellite = 0) ↔
    ((locSyncSendReq isOpen best {}).1 = .success → ∀ ind ∈ best.received, ind.HasPosition →
      ∀ mask ∈ ind.technologyMask, mask ≠ masks.default → mask &&& masks.cellId ≠ 0 →
        mask &&& satellite = 0) := by
  rw [fallback_eq_success hfall]
  have hbuf : ∀ ind ∈ best.received, (locSyncSendReq isOpen best {}).2 = ind := by
    intro ind hind
    rw [locSyncSendReq_received, Option.mem_def.1 hind]
    rfl
  constructor
  · intro h hsucc ind hind hhas mask hmask hne hcell
    have heq := hbuf ind hind
    exact h ⟨hsucc, heq ▸ hhas, mask, heq ▸ hmask, hne, hcell⟩ ind hind mask hmask
  · rintro h ⟨hsucc, hhas, mask, hmask, hne, hcell⟩ ind hind mask' hmask'
    rw [hbuf ind hind] at hhas hmask
    rw [Option.mem_unique hmask' hmask]
    exact h hsucc ind hind hhas mask hmask hne hcell

/-- For all replies, success means a position without satellites in the fall-back exactly if a
request for the best available position that succeeds is answered by a position, and no such answer
to a fall-back has satellites besides a cell. -/
theorem sound_iff (masks : TechMasks) (isOpen : Bool) (now : ℕ)
    (e wwan best : Exchange (PositionInd F)) :
    Sound masks isOpen now e wwan best ↔ Favourable masks isOpen e wwan best := by
  constructor
  · rintro ⟨hbest, -, hsat⟩
    exact ⟨best_position_iff.1 hbest, fun hfall => (no_satellite_iff hfall).1 (hsat hfall)⟩
  · rintro ⟨hbest, hsat⟩
    exact ⟨best_position_iff.2 hbest, wwan_position,
      fun hfall => (no_satellite_iff hfall).2 (hsat hfall)⟩

end

/-- An exchange in which everything goes well but for what the indication says. -/
def repliesWith {F : Type} (ind : PositionInd F) : Exchange (PositionInd F) :=
  ⟨true, .answered .success, 0, some ind⟩

/-- The modem takes the request and reports a failure: the result is a success, with a location of
zeros. -/
theorem not_sound_failure :
    (getBestAvailableZppFix ⟨0, 2⟩ true 0 (repliesWith { status := .generalFailure }) :
      AdapterErr × GpsLocation ℤ × BitVec 32) = (.success, GpsLocation.zero, 0) ∧
    ¬ Sound (F := ℤ) ⟨0, 2⟩ true 0 (repliesWith { status := .generalFailure })
      (repliesWith {}) (repliesWith {}) := by
  refine ⟨by decide, fun h => ?_⟩
  obtain ⟨ind, -, hpos⟩ := h.best_position (by decide)
  exact absurd hpos.hasLatLong (by decide)

end Zpp

end LocApi

end Msm8909w
