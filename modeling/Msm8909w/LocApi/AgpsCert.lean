import Mathlib.Data.List.Nodup
import Mathlib.Logic.Function.Basic
import Msm8909w.Lib.Bytes

/-!
# SUPL certificates

`installAGpsCert` goes through the slots of the modem.  Each writable slot gets the next
certificate; where that one has no data, the slot is emptied, and the function stays at the
certificate.  The answers to the requests are only logged.

* `Agps.installAGpsCert` : the requests, `Agps.Request.apply` : what they do to the slots,
* `Agps.installFrom_eq` : the loop fills the writable slots with the certificates before the first
  one without data,
* `Agps.installed_iff` : every usable certificate is installed, as far as the slots reach, exactly
  if each certificate without data that stands before a usable one has as many certificates before
  it as there are writable slots.

The number of slots, `AGPS_CERTIFICATE_MAX_SLOTS`, is declared outside the repository; the slots are
counted in a `uint8_t`, which it fits into.
-/

namespace Msm8909w

namespace LocApi

namespace Agps

/-- `DerEncodedCertificate`; the length is that of the data, and at most
`QMI_LOC_MAX_SUPL_CERT_LENGTH_V02`. -/
structure DerEncodedCertificate where
  data : Option Bytes
  length_le : ∀ bytes ∈ data, bytes.length ≤ 2000

/-- The data of a certificate that has some. -/
def DerEncodedCertificate.usable (cert : DerEncodedCertificate) : Option Bytes :=
  cert.data.filter (· ≠ [])

/-- A request to the modem. -/
inductive Request
  | inject (suplCertId : ℕ) (suplCertData : Bytes)
  | delete (suplCertId : ℕ)
  deriving DecidableEq, Repr

/-- The requests from a slot on; `n` slots are left. -/
def installFrom (pData : List DerEncodedCertificate) : ℕ → ℕ → BitVec 32 → ℕ → List Request
  | 0, _, _, _ => []
  | n + 1, slot, slotBitMask, certIndex =>
    if slotBitMask &&& 1 ≠ 0 then
      match (pData[certIndex]?).bind DerEncodedCertificate.usable with
      | some data =>
        .inject slot data :: installFrom pData n (slot + 1) (slotBitMask >>> 1) (certIndex + 1)
      | none =>
        -- a fake certificate first, since deleting from an empty slot has an issue
        .inject slot [1] :: .delete slot ::
          installFrom pData n (slot + 1) (slotBitMask >>> 1) certIndex
    else installFrom pData n (slot + 1) (slotBitMask >>> 1) certIndex

/-- `installAGpsCert`. -/
def installAGpsCert (maxSlots : ℕ) (pData : List DerEncodedCertificate) (slotBitMask : BitVec 32) :
    List Request :=
  installFrom pData maxSlots 0 slotBitMask 0

/-! ### The slots of the modem -/

/-- The certificates in the slots. -/
abbrev Store := ℕ → Option Bytes

def Request.slot : Request → ℕ
  | inject suplCertId _ | delete suplCertId => suplCertId

/-- The slot that a certificate is injected into. -/
def Request.injects : Request → Option ℕ
  | inject suplCertId _ => some suplCertId
  | delete _ => none

/-- What a request that succeeds does. -/
def Request.apply (store : Store) : Request → Store
  | inject suplCertId data => Function.update store suplCertId (some data)
  | delete suplCertId => Function.update store suplCertId none

/-- The writable slots, in order. -/
def writable (maxSlots : ℕ) (slotBitMask : BitVec 32) : List ℕ :=
  (List.range maxSlots).filter fun slot => slotBitMask.getLsbD slot

/-- The data of the usable certificates, in order. -/
def usableData (pData : List DerEncodedCertificate) : List Bytes :=
  pData.filterMap DerEncodedCertificate.usable

/-- What the requests make of the slots: nothing is done to a slot that is not writable, each
writable slot is injected into once, and in the end the writable slots hold the usable
certificates, as far as they reach, and are empty otherwise. -/
structure Installs (maxSlots : ℕ) (pData : List DerEncodedCertificate) (slotBitMask : BitVec 32)
    (requests : List Request) : Prop where
  touched : ∀ r ∈ requests, r.slot ∈ writable maxSlots slotBitMask
  untouched : ∀ store slot, slot ∉ writable maxSlots slotBitMask →
    requests.foldl Request.apply store slot = store slot
  once : requests.filterMap Request.injects = writable maxSlots slotBitMask
  filled : ∀ store (i : ℕ) slot, (writable maxSlots slotBitMask)[i]? = some slot →
    requests.foldl Request.apply store slot = (usableData pData)[i]?

/-! ### What the loop does -/

/-- Fill slots, one after the other, and empty those that nothing is left for. -/
def fill : List ℕ → List Bytes → List Request
  | [], _ => []
  | slot :: slots, [] => .inject slot [1] :: .delete slot :: fill slots []
  | slot :: slots, data :: rest => .inject slot data :: fill slots rest

/-- The data of the certificates before the first one that has none. -/
def leading : List DerEncodedCertificate → List Bytes
  | [] => []
  | cert :: certs =>
    match cert.usable with
    | some data => data :: leading certs
    | none => []

section Fill

variable {slots : List ℕ} {certs : List Bytes} {pData : List DerEncodedCertificate}

theorem slot_mem_of_mem_fill {r : Request} (h : r ∈ fill slots certs) : r.slot ∈ slots := by
  induction slots generalizing certs with
  | nil => cases h
  | cons slot slots ih =>
    cases certs with
    | nil =>
      rcases List.mem_cons.1 h with rfl | h
      · exact List.mem_cons_self
      · rcases List.mem_cons.1 h with rfl | h
        · exact List.mem_cons_self
        · exact List.mem_cons_of_mem _ (ih h)
    | cons data rest =>
      rcases List.mem_cons.1 h with rfl | h
      · exact List.mem_cons_self
      · exact List.mem_cons_of_mem _ (ih h)

theorem injects_fill : (fill slots certs).filterMap Request.injects = slots := by
  induction slots generalizing certs with
  | nil => rfl
  | cons slot slots ih => cases certs <;> simp [fill, List.filterMap_cons, Request.injects, ih]

/-- Requests about other slots leave a slot alone. -/
theorem apply_of_ne {requests : List Request} {slot : ℕ} (h : ∀ r ∈ requests, r.slot ≠ slot)
    (store : Store) : requests.foldl Request.apply store slot = store slot := by
  induction requests generalizing store with
  | nil => rfl
  | cons r requests ih =>
    obtain ⟨hr, hrest⟩ := List.forall_mem_cons.1 h
    rw [List.foldl_cons, ih hrest]
    cases r <;> exact Function.update_of_ne (Ne.symm hr) _ _

theorem apply_fill_of_notMem {slot : ℕ} (h : slot ∉ slots) (store : Store) :
    (fill slots certs).foldl Request.apply store slot = store slot := by
  refine apply_of_ne (fun r hr heq => h ?_) store
  rw [← heq]
  exact slot_mem_of_mem_fill hr

/-- Each slot ends with what it was filled with. -/
theorem apply_fill (hnodup : slots.Nodup) {i slot : ℕ} (hi : slots[i]? = some slot)
    (store : Store) : (fill slots certs).foldl Request.apply store slot = certs[i]? := by
  induction slots generalizing certs i store with
  | nil => cases hi
  | cons first slots ih =>
    obtain ⟨hfirst, hnodup⟩ := List.nodup_cons.1 hnodup
    cases i with
    | zero =>
      obtain rfl := Option.some.inj hi
      cases certs with
      | nil =>
        rw [fill, List.foldl_cons, List.foldl_cons, apply_fill_of_notMem hfirst]
        exact Function.update_self _ _ _
      | cons data rest =>
        rw [fill, List.foldl_cons, apply_fill_of_notMem hfirst]
        exact Function.update_self _ _ _
    | succ i =>
      rw [List.getElem?_cons_succ] at hi
      cases certs with
      | nil =>
        rw [fill, List.foldl_cons, List.foldl_cons, ih hnodup hi]
        rfl
      | cons data rest =>
        rw [fill, List.foldl_cons, ih hnodup hi]
        rfl

/-- The writable slots from a slot on. -/
def writableFrom : ℕ → ℕ → BitVec 32 → List ℕ
  | 0, _, _ => []
  | n + 1, slot, mask =>
    if mask &&& 1 ≠ 0 then slot :: writableFrom n (slot + 1) (mask >>> 1)
    else writableFrom n (slot + 1) (mask >>> 1)

theorem leading_drop (pData : List DerEncodedCertificate) (k : ℕ) :
    leading (pData.drop k) =
      match (pData[k]?).bind DerEncodedCertificate.usable with
      | some data => data :: leading (pData.drop (k + 1))
      | none => [] := by
  induction pData generalizing k with
  | nil => simp [leading]
  | cons cert certs ih =>
    cases k with
    | zero =>
      rw [List.drop_zero, leading]
      cases h : cert.usable <;> simp [h]
    | succ k => exact ih k

/-- The loop with its two counters fills the writable slots. -/
theorem installFrom_eq (n slot : ℕ) (mask : BitVec 32) (certIndex : ℕ) :
    installFrom pData n slot mask certIndex =
      fill (writableFrom n slot mask) (leading (pData.drop certIndex)) := by
  induction n generalizing slot mask certIndex with
  | zero => rfl
  | succ n ih =>
    rw [installFrom, writableFrom]
    split_ifs with hmask
    · have hlead := leading_drop pData certIndex
      split <;> rename_i heq <;> rw [heq] at hlead <;> simp only at hlead <;> rw [hlead, fill, ih]
      rw [hlead]
    · exact ih _ _ _

theorem and_one_ne_zero (mask : BitVec 32) : mask &&& 1 ≠ 0 ↔ mask.getLsbD 0 = true := by
  have hand : mask &&& 1 = BitVec.setWidth 32 (BitVec.ofBool (mask.getLsbD 0)) :=
    BitVec.and_one_eq_setWidth_ofBool_getLsbD
  rw [hand]
  cases mask.getLsbD 0 <;> decide

/-- The shifting mask names the slots of the original one. -/
theorem writableFrom_eq (n slot : ℕ) (mask : BitVec 32) :
    writableFrom n slot (mask >>> slot) =
      (List.range' slot n).filter fun i => mask.getLsbD i := by
  induction n generalizing slot with
  | zero => rfl
  | succ n ih =>
    have hshift : mask >>> slot >>> 1 = mask >>> (slot + 1) := (BitVec.shiftRight_add ..).symm
    rw [writableFrom, hshift, ih, List.range'_succ, List.filter_cons]
    simp only [and_one_ne_zero, BitVec.getLsbD_ushiftRight, Nat.add_zero]

theorem installAGpsCert_eq (maxSlots : ℕ) (pData : List DerEncodedCertificate) (mask : BitVec 32) :
    installAGpsCert maxSlots pData mask = fill (writable maxSlots mask) (leading pData) := by
  have hwritable := writableFrom_eq maxSlots 0 mask
  rw [BitVec.ushiftRight_zero] at hwritable
  rw [installAGpsCert, installFrom_eq, List.drop_zero, hwritable, writable, List.range_eq_range']

/-! ### Certificates without data -/

/-- The `n` slots get all usable certificates that they have room for exactly if none of these
stands behind a certificate without data. -/
theorem leading_iff (n : ℕ) (pData : List DerEncodedCertificate) :
    (∀ i < n, (leading pData)[i]? = (usableData pData)[i]?) ↔
      ∀ pre cert post, pData = pre ++ cert :: post → cert.usable = none →
        (∃ later ∈ post, later.usable ≠ none) → n ≤ pre.length := by
  induction pData generalizing n with
  | nil =>
    refine iff_of_true (fun i _ => rfl) fun pre cert post h => ?_
    simp at h
  | cons cert certs ih =>
    cases husable : cert.usable with
    | none =>
      have hlead : leading (cert :: certs) = [] := by rw [leading, husable]
      have hdata : usableData (cert :: certs) = usableData certs := by
        rw [usableData, List.filterMap_cons, husable]
        rfl
      rw [hlead, hdata]
      constructor
      · rintro h pre cert' post heq - ⟨later, hmem, hlater⟩
        have hin : later ∈ certs := by
          cases pre with
          | nil => exact (List.cons.inj heq).2 ▸ hmem
          | cons _ pre =>
            rw [(List.cons.inj heq).2]
            exact List.mem_append_right _ (List.mem_cons_of_mem _ hmem)
        obtain ⟨data, hdata'⟩ := Option.ne_none_iff_exists'.1 hlater
        have hne : usableData certs ≠ [] :=
          List.ne_nil_of_mem (List.mem_filterMap.2 ⟨later, hin, hdata'⟩)
        refine Nat.le_of_not_lt fun hlt => hne ?_
        exact List.head?_eq_none_iff.1 (List.head?_eq_getElem? ▸ (h 0 (by omega)).symm)
      · intro h i hi
        by_contra hne
        have hlt : i < (usableData certs).length := by
          by_contra hge
          exact hne (List.getElem?_eq_none (not_lt.1 hge)).symm
        obtain ⟨later, hmem, hlater⟩ := List.mem_filterMap.1 (List.getElem_mem hlt)
        have hle := h [] cert certs rfl husable ⟨later, hmem, by simp [hlater]⟩
        exact absurd hi (by simp at hle; omega)
    | some data =>
      have hlead : leading (cert :: certs) = data :: leading certs := by rw [leading, husable]
      have hdata : usableData (cert :: certs) = data :: usableData certs := by
        rw [usableData, List.filterMap_cons, husable]
        rfl
      rw [hlead, hdata]
      constructor
      · intro h pre cert' post heq hnone hlater
        cases pre with
        | nil =>
          rw [(List.cons.inj heq).1, hnone] at husable
          cases husable
        | cons first pre =>
          have hle := (ih (n - 1)).1 (fun i hi => h (i + 1) (by omega)) pre cert' post
            (List.cons.inj heq).2 hnone hlater
          rw [List.length_cons]
          omega
      · intro h i hi
        cases i with
        | zero => rfl
        | succ i =>
          refine (ih (n - 1)).2 (fun pre cert' post heq hnone hlater => ?_) i (by omega)
          have hle := h (cert :: pre) cert' post (by rw [heq]; rfl) hnone hlater
          rw [List.length_cons] at hle
          omega

end Fill

/-- For all certificates, every mask and all numbers of slots, the usable certificates are
installed as far as the slots reach exactly if each certificate without data that stands before a
usable one has as many certificates before it as there are writable slots. -/
theorem installed_iff (maxSlots : ℕ) (pData : List DerEncodedCertificate)
    (slotBitMask : BitVec 32) :
    Installs maxSlots pData slotBitMask (installAGpsCert maxSlots pData slotBitMask) ↔
      ∀ pre cert post, pData = pre ++ cert :: post → cert.usable = none →
        (∃ later ∈ post, later.usable ≠ none) →
          (writable maxSlots slotBitMask).length ≤ pre.length := by
  have hnodup : (writable maxSlots slotBitMask).Nodup := List.nodup_range.filter _
  rw [installAGpsCert_eq, ← leading_iff]
  constructor
  · intro h i hi
    have hslot := List.getElem?_eq_getElem hi
    rw [← h.filled (fun _ => none) i _ hslot, apply_fill hnodup hslot]
  · intro h
    refine ⟨fun r hr => slot_mem_of_mem_fill hr, fun store slot hslot => ?_, injects_fill,
      fun store i slot hslot => ?_⟩
    · exact apply_fill_of_notMem hslot store
    · rw [apply_fill hnodup hslot]
      exact h i (List.getElem?_eq_some_iff.1 hslot).1

/-- Three certificates, the second of which has no data. -/
def gapped : List DerEncodedCertificate :=
  [⟨some [10], by decide⟩, ⟨none, nofun⟩, ⟨some [30], by decide⟩]

/-- The certificate behind the one without data is not installed, although there are slots. -/
theorem not_installed_gapped : ¬ Installs 10 gapped 0x15 (installAGpsCert 10 gapped 0x15) := by
  intro h
  have hsecond := h.filled (fun _ => none) 1 2 (by decide)
  revert hsecond
  decide

end Agps

end LocApi

end Msm8909w
