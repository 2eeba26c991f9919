import Msm8909w.Gpt.Header
import Msm8909w.Gpt.Swap

/-!
# The boot update across crashes

The update is a walk through a small abstract machine.  A `Phase` records which of the two
signatures are intact, and whether the header and the entries of the secondary copy describe the
swapped boot chain; `Phase.writes` lists the phases one call of `prepare_boot_update` passes
through, one for each write.  `encode d a` is the disk that stands for the phase `a` of an update
started on the disk `d`.

## Main results

* `prepareBootUpdate_refines`, `installBootImages_refines` : every disk the code leaves behind, at
  the end or at a crash, stands for a phase of the abstract machine.
* `installBootImages_restores` : the update can be restarted any number of times; the run that is
  not cut off puts back the disk the first one started on.
* `prepareBootUpdate_keeps_valid` : whatever stages are requested, and wherever the calls are cut
  off, one of the two copies is valid.
-/

namespace Msm8909w

namespace Gpt

open Prog

/-! ### Consistent disks -/

/-- A GPT copy is valid: the check of `gpt_get_state` passes, the header fits its block, and the
stored CRC is that of the entry array the header points to. -/
structure Valid (crc : Bytes → UInt32) (gpt : GptInstance) (d : Bytes) : Prop where
  state : headerState crc (header gpt d) = .gptOk
  headerSize : get4Bytes (header gpt d) headerSizeOffset ≤ lbaSize
  entriesCrc : get4Bytes (header gpt d) partitionCrcOffset = (crc (entries gpt d)).toNat

/-- The stretches of the disk that the two copies occupy, as offset and length. -/
def areas (d : Bytes) : List (ℕ × ℕ) :=
  [(headerPos .primaryGpt d, lbaSize), (headerPos .secondaryGpt d, lbaSize),
    (entriesPos .primaryGpt d, pentriesArraySize (header .primaryGpt d)),
    (entriesPos .secondaryGpt d, pentriesArraySize (header .secondaryGpt d))]

/-- Two tables of the same shape that fit the disk and do not overlap. -/
structure Geometry (d : Bytes) : Prop where
  addressable : d.length < 2 ^ 63
  inside : ∀ a ∈ areas d, a.1 + a.2 ≤ d.length
  disjoint : (areas d).Pairwise fun a b => a.1 + a.2 ≤ b.1 ∨ b.1 + b.2 ≤ a.1
  sameCount : get4Bytes (header .primaryGpt d) partitionCountOffset =
    get4Bytes (header .secondaryGpt d) partitionCountOffset
  sameSize : pentrySize (header .primaryGpt d) = pentrySize (header .secondaryGpt d)
  entrySize : 128 ≤ pentrySize (header .primaryGpt d)

/-- A disk with two valid copies of the same table. -/
structure Consistent (crc : Bytes → UInt32) (d : Bytes) : Prop extends Geometry d where
  valid : ∀ gpt, Valid crc gpt d
  sameEntries : entries .primaryGpt d = entries .secondaryGpt d

/-! ### The abstract machine -/

/-- How far an update has got. -/
structure Phase where
  /-- The primary signature is intact. -/
  primary : Bool
  /-- The secondary signature is intact. -/
  secondary : Bool
  /-- The secondary header carries the CRC of the swapped entries. -/
  headerSwapped : Bool
  /-- The secondary entries are swapped. -/
  entriesSwapped : Bool
  deriving DecidableEq

namespace Phase

/-- No update is going on. -/
def idle : Phase := ⟨true, true, false, false⟩

/-- The stage `prepare_boot_update` finds in a phase. -/
def stage (a : Phase) : Option BootUpdateStage :=
  internalStage (sigState a.primary) (sigState a.secondary)

/-- The phases after each write of a call of `prepare_boot_update`. -/
def writes (stage : BootUpdateStage) (a : Phase) : List Phase :=
  match stage, a with
  | .updateMain, ⟨true, true, _, e⟩ =>
    [⟨true, true, true, e⟩, ⟨true, true, true, true⟩, ⟨false, true, true, true⟩]
  | .updateBackup, ⟨false, true, h, e⟩ => [⟨true, true, h, e⟩, ⟨true, false, h, e⟩]
  | .updateFinalize, ⟨true, false, _, e⟩ =>
    [⟨true, false, false, e⟩, ⟨true, false, false, false⟩, ⟨true, true, false, false⟩]
  | _, _ => []

/-- The phases of a call, from its start on. -/
def visits (stage : BootUpdateStage) (a : Phase) : List Phase := a :: a.writes stage

/-- The phase a call ends in. -/
def after (stage : BootUpdateStage) (a : Phase) : Phase := (a.writes stage).getLastD a

/-- The phases of the three calls of the updater script. -/
def sequence (a : Phase) : List Phase :=
  a.visits .updateMain ++ (a.after .updateMain).visits .updateBackup ++
    ((a.after .updateMain).after .updateBackup).visits .updateFinalize

/-- Some header is intact. -/
def Live (a : Phase) : Prop := a.primary = true ∨ a.secondary = true

/-- The primary copy is intact, or the secondary copy is intact and describes its entries. -/
def Usable (a : Phase) : Prop :=
  a.primary = true ∨ a.secondary = true ∧ a.headerSwapped = a.entriesSwapped

instance (a : Phase) : Decidable a.Live := inferInstanceAs (Decidable (_ ∨ _))

instance (a : Phase) : Decidable a.Usable := inferInstanceAs (Decidable (_ ∨ _ ∧ _))

/-- The signatures of a phase that a stage fits. -/
theorem signatures_of_stage {stage : BootUpdateStage} {a : Phase} (h : a.stage = some stage) :
    match stage with
    | .updateMain => a.primary = true ∧ a.secondary = true
    | .updateBackup => a.primary = false ∧ a.secondary = true
    | .updateFinalize => a.primary = true ∧ a.secondary = false := by
  obtain ⟨p, s, hdr, ent⟩ := a
  cases stage <;> cases p <;> cases s <;> first | exact ⟨rfl, rfl⟩ | cases h

/-- A call whose stage does not fit writes nothing. -/
theorem writes_eq_nil {stage : BootUpdateStage} {a : Phase} (h : a.stage ≠ some stage) :
    a.writes stage = [] := by
  obtain ⟨p, s, hdr, ent⟩ := a
  cases stage <;> cases p <;> cases s <;> first | rfl | exact absurd rfl h

theorem after_of_ne {stage : BootUpdateStage} {a : Phase} (h : a.stage ≠ some stage) :
    a.after stage = a := by
  rw [after, writes_eq_nil h, List.getLastD_nil]

theorem after_mem_visits (stage : BootUpdateStage) (a : Phase) : a.after stage ∈ a.visits stage :=
  List.getLastD_mem_cons

theorem Live.sequence {a b : Phase} (h : a.Live) (hb : b ∈ a.sequence) : b.Live := by
  have hall : ∀ p s h e, Live ⟨p, s, h, e⟩ → ∀ b ∈ (⟨p, s, h, e⟩ : Phase).sequence, b.Live := by
    decide
  exact hall _ _ _ _ h b hb

/-- A complete sequence ends an update wherever it had got to. -/
theorem Live.idle_of_sequence {a : Phase} (h : a.Live) :
    ((a.after .updateMain).after .updateBackup).after .updateFinalize = idle := by
  have hall : ∀ p s h e, Live ⟨p, s, h, e⟩ →
      (((⟨p, s, h, e⟩ : Phase).after .updateMain).after .updateBackup).after .updateFinalize =
        idle := by decide
  exact hall _ _ _ _ h

theorem Usable.visits {stage : BootUpdateStage} {a b : Phase} (h : a.Usable)
    (hb : b ∈ a.visits stage) : b.Usable := by
  have hall : ∀ p s h e, Usable ⟨p, s, h, e⟩ →
      (∀ b ∈ (⟨p, s, h, e⟩ : Phase).visits .updateMain, b.Usable) ∧
      (∀ b ∈ (⟨p, s, h, e⟩ : Phase).visits .updateBackup, b.Usable) ∧
      ∀ b ∈ (⟨p, s, h, e⟩ : Phase).visits .updateFinalize, b.Usable := by decide
  obtain ⟨h1, h2, h3⟩ := hall _ _ _ _ h
  cases stage with
  | updateMain => exact h1 b hb
  | updateBackup => exact h2 b hb
  | updateFinalize => exact h3 b hb

end Phase

/-! ### The disk of a phase -/

/-- The disk `d` with its two headers and its secondary entries replaced. -/
def rebuild (d P S X : Bytes) : Bytes :=
  patch (patch (patch d (headerPos .primaryGpt d) P) (headerPos .secondaryGpt d) S)
    (entriesPos .secondaryGpt d) X

namespace Geometry

variable {d : Bytes} (hg : Geometry d)

include hg

theorem sizes_eq : pentriesArraySize (header .secondaryGpt d) =
    pentriesArraySize (header .primaryGpt d) := by
  rw [pentriesArraySize, pentriesArraySize, hg.sameCount, hg.sameSize]

/-- The positions of the areas, as arithmetic facts. -/
theorem layout : 2 * lbaSize ≤ d.length ∧
    headerPos .primaryGpt d + lbaSize ≤ headerPos .secondaryGpt d ∧
    headerPos .secondaryGpt d + lbaSize = d.length ∧
    entriesPos .primaryGpt d + pentriesArraySize (header .primaryGpt d) ≤ d.length ∧
    entriesPos .secondaryGpt d + pentriesArraySize (header .primaryGpt d) ≤ d.length ∧
    ∀ gpt gpt', headerPos gpt d + lbaSize ≤ entriesPos gpt' d ∨
      entriesPos gpt' d + pentriesArraySize (header .primaryGpt d) ≤ headerPos gpt d := by
  have hin := hg.inside
  have hdis := hg.disjoint
  simp only [areas, hg.sizes_eq, List.mem_cons, List.not_mem_nil, or_false, forall_eq_or_imp,
    forall_eq, List.pairwise_cons, IsEmpty.forall_iff, implies_true, List.Pairwise.nil,
    and_true] at hin hdis
  obtain ⟨hin1, hin2, hin3, hin4⟩ := hin
  obtain ⟨⟨h12, h13, h14⟩, ⟨h23, h24⟩, -⟩ := hdis
  simp only [headerPos, lbaSize] at *
  refine ⟨by omega, by omega, by omega, hin3, hin4, ?_⟩
  rintro (_ | _) (_ | _)
  · exact h13
  · exact h14
  · exact h23
  · exact h24

theorem entries_apart : entriesPos .primaryGpt d + pentriesArraySize (header .primaryGpt d) ≤
      entriesPos .secondaryGpt d ∨
    entriesPos .secondaryGpt d + pentriesArraySize (header .primaryGpt d) ≤
      entriesPos .primaryGpt d := by
  have hdis := hg.disjoint
  simp only [areas, hg.sizes_eq, List.mem_cons, List.not_mem_nil, or_false, forall_eq_or_imp,
    forall_eq, List.pairwise_cons, IsEmpty.forall_iff, implies_true, List.Pairwise.nil,
    and_true] at hdis
  exact hdis.2.2

theorem length_header_eq (gpt : GptInstance) : (header gpt d).length = lbaSize :=
  length_header hg.layout.1 gpt

section Rebuild

variable {P S X : Bytes} (hP : P.length = lbaSize) (hS : S.length = lbaSize)

include hP hS

/-- The three patches fit the disk. -/
theorem rebuild_bounds : headerPos .primaryGpt d + P.length ≤ d.length ∧
    (patch d (headerPos .primaryGpt d) P).length = d.length ∧
    (patch (patch d (headerPos .primaryGpt d) P) (headerPos .secondaryGpt d) S).length =
      d.length := by
  obtain ⟨h1, h2, h3, h4, h5, h6⟩ := hg.layout
  have hl : (patch d (headerPos .primaryGpt d) P).length = d.length := length_patch (by omega)
  exact ⟨by omega, hl, by rw [length_patch (by omega), hl]⟩

variable (hX : X.length = pentriesArraySize (header .primaryGpt d))

include hX

theorem length_rebuild : (rebuild d P S X).length = d.length := by
  obtain ⟨h1, h2, h3, h4, h5, h6⟩ := hg.layout
  obtain ⟨b1, b2, b3⟩ := hg.rebuild_bounds hP hS
  rw [rebuild, length_patch (by omega), b3]

theorem headerPos_rebuild (gpt : GptInstance) :
    headerPos gpt (rebuild d P S X) = headerPos gpt d := by
  cases gpt with
  | primaryGpt => simp only [headerPos]
  | secondaryGpt => simp only [headerPos, hg.length_rebuild hP hS hX]

theorem header_primary_rebuild : header .primaryGpt (rebuild d P S X) = P := by
  obtain ⟨h1, h2, h3, h4, h5, h6⟩ := hg.layout
  obtain ⟨b1, b2, b3⟩ := hg.rebuild_bounds hP hS
  have h61 := h6 .primaryGpt .secondaryGpt
  rw [header, hg.headerPos_rebuild hP hS hX, rebuild,
    slice_patch_of_disjoint (by omega) (by omega), slice_patch_of_disjoint (by omega) (by omega)]
  have hs := slice_patch_same b1
  rwa [hP] at hs

theorem header_secondary_rebuild : header .secondaryGpt (rebuild d P S X) = S := by
  obtain ⟨h1, h2, h3, h4, h5, h6⟩ := hg.layout
  obtain ⟨b1, b2, b3⟩ := hg.rebuild_bounds hP hS
  have h61 := h6 .secondaryGpt .secondaryGpt
  rw [header, hg.headerPos_rebuild hP hS hX, rebuild,
    slice_patch_of_disjoint (by omega) (by omega)]
  have hs : slice (patch (patch d (headerPos .primaryGpt d) P) (headerPos .secondaryGpt d) S)
      (headerPos .secondaryGpt d) S.length = S := slice_patch_same (by omega)
  rwa [hS] at hs

/-- The primary entries are never written. -/
theorem slice_primary_rebuild :
    slice (rebuild d P S X) (entriesPos .primaryGpt d)
      (pentriesArraySize (header .primaryGpt d)) = entries .primaryGpt d := by
  obtain ⟨h1, h2, h3, h4, h5, h6⟩ := hg.layout
  obtain ⟨b1, b2, b3⟩ := hg.rebuild_bounds hP hS
  have h61 := h6 .primaryGpt .primaryGpt
  have h62 := h6 .secondaryGpt .primaryGpt
  have h7 := hg.entries_apart
  rw [rebuild, slice_patch_of_disjoint (by omega) (by omega),
    slice_patch_of_disjoint (by omega) (by omega), slice_patch_of_disjoint (by omega) (by omega)]
  rfl

theorem slice_secondary_rebuild :
    slice (rebuild d P S X) (entriesPos .secondaryGpt d)
      (pentriesArraySize (header .primaryGpt d)) = X := by
  obtain ⟨h1, h2, h3, h4, h5, h6⟩ := hg.layout
  obtain ⟨b1, b2, b3⟩ := hg.rebuild_bounds hP hS
  rw [rebuild, ← hX]
  exact slice_patch_same (by omega)

theorem patch_primary_rebuild {P' : Bytes} (hP' : P'.length = lbaSize) :
    patch (rebuild d P S X) (headerPos .primaryGpt d) P' = rebuild d P' S X := by
  obtain ⟨h1, h2, h3, h4, h5, h6⟩ := hg.layout
  obtain ⟨b1, b2, b3⟩ := hg.rebuild_bounds hP hS
  have h61 := h6 .primaryGpt .secondaryGpt
  have hswap : patch (patch (patch d (headerPos .primaryGpt d) P) (headerPos .secondaryGpt d) S)
      (headerPos .primaryGpt d) P' =
      patch (patch d (headerPos .primaryGpt d) P') (headerPos .secondaryGpt d) S := by
    rw [patch_comm (by omega) (by omega) (by omega), patch_patch_same (by omega) (by omega)]
  rw [rebuild, patch_comm (by omega) (by omega) (by omega), hswap, rebuild]

theorem patch_secondary_rebuild {S' : Bytes} (hS' : S'.length = lbaSize) :
    patch (rebuild d P S X) (headerPos .secondaryGpt d) S' = rebuild d P S' X := by
  obtain ⟨h1, h2, h3, h4, h5, h6⟩ := hg.layout
  obtain ⟨b1, b2, b3⟩ := hg.rebuild_bounds hP hS
  have h61 := h6 .secondaryGpt .secondaryGpt
  rw [rebuild, patch_comm (by omega) (by omega) (by omega), patch_patch_same (by omega) (by omega),
    rebuild]

theorem patch_entries_rebuild {X' : Bytes}
    (hX' : X'.length = pentriesArraySize (header .primaryGpt d)) :
    patch (rebuild d P S X) (entriesPos .secondaryGpt d) X' = rebuild d P S X' := by
  obtain ⟨h1, h2, h3, h4, h5, h6⟩ := hg.layout
  obtain ⟨b1, b2, b3⟩ := hg.rebuild_bounds hP hS
  rw [rebuild, patch_patch_same (by omega) (by omega), rebuild]

end Rebuild

theorem rebuild_self : rebuild d (header .primaryGpt d) (header .secondaryGpt d)
    (entries .secondaryGpt d) = d := by
  obtain ⟨h1, h2, h3, h4, h5, h6⟩ := hg.layout
  have hp : patch d (headerPos .primaryGpt d) (header .primaryGpt d) = d :=
    patch_slice_self (by omega)
  have hs : patch d (headerPos .secondaryGpt d) (header .secondaryGpt d) = d :=
    patch_slice_self (by omega)
  rw [rebuild, hp, hs]
  exact patch_slice_self (by rw [hg.sizes_eq]; exact h5)

end Geometry

/-! ### The disk of a phase -/

/-- The entries of the normal or of the swapped boot chain. -/
def chain (d : Bytes) (swapped : Bool) : Bytes :=
  if swapped then
    (gptBootChainSwap (entries .primaryGpt d) (pentrySize (header .primaryGpt d))).2
  else entries .primaryGpt d

/-- The disk in phase `a` of an update started on `d`. -/
def encode (crc : Bytes → UInt32) (d : Bytes) (a : Phase) : Bytes :=
  rebuild d (sealHeader crc (header .primaryGpt d) a.primary (crc (chain d false)).toNat)
    (sealHeader crc (header .secondaryGpt d) a.secondary (crc (chain d a.headerSwapped)).toNat)
    (chain d a.entriesSwapped)

/-- `gpt2_set_boot_chain` has something to write: the entry array fits an `int`, and it holds a
partition with its backup. -/
def Swappable (d : Bytes) : Prop :=
  pentriesArraySize (header .primaryGpt d) < 2 ^ 31 ∧
    (gptBootChainSwap (entries .primaryGpt d) (pentrySize (header .primaryGpt d))).1 = 0

namespace Consistent

variable {crc : Bytes → UInt32} {d : Bytes} (hc : Consistent crc d)

include hc

theorem signature (gpt : GptInstance) :
    (header gpt d).take gptSignature.length = gptSignature := by
  have hok := (hc.valid gpt).state
  unfold headerState at hok
  split_ifs at hok with h1 h2
  exact not_not.1 h2

theorem length_chain (b : Bool) :
    (chain d b).length = pentriesArraySize (header .primaryGpt d) := by
  have hE : (entries .primaryGpt d).length = pentriesArraySize (header .primaryGpt d) :=
    length_slice hc.layout.2.2.2.1
  cases b with
  | false => exact hE
  | true => rw [← hE]; exact length_gptBootChainSwap hc.entrySize _

section Encode

variable (a : Phase)

/-- The three parts of an encoded disk have the lengths of the originals. -/
theorem encode_lengths :
    (sealHeader crc (header .primaryGpt d) a.primary (crc (chain d false)).toNat).length =
      lbaSize ∧
    (sealHeader crc (header .secondaryGpt d) a.secondary
      (crc (chain d a.headerSwapped)).toNat).length = lbaSize ∧
    (chain d a.entriesSwapped).length = pentriesArraySize (header .primaryGpt d) :=
  ⟨length_sealHeader (hc.length_header_eq _) _ _, length_sealHeader (hc.length_header_eq _) _ _,
    hc.length_chain _⟩

theorem length_encode : (encode crc d a).length = d.length := by
  obtain ⟨h1, h2, h3⟩ := hc.encode_lengths a
  exact hc.length_rebuild h1 h2 h3

theorem headerPos_encode (gpt : GptInstance) :
    headerPos gpt (encode crc d a) = headerPos gpt d := by
  obtain ⟨h1, h2, h3⟩ := hc.encode_lengths a
  exact hc.headerPos_rebuild h1 h2 h3 gpt

theorem header_primary_encode : header .primaryGpt (encode crc d a) =
    sealHeader crc (header .primaryGpt d) a.primary (crc (chain d false)).toNat := by
  obtain ⟨h1, h2, h3⟩ := hc.encode_lengths a
  exact hc.header_primary_rebuild h1 h2 h3

theorem header_secondary_encode : header .secondaryGpt (encode crc d a) =
    sealHeader crc (header .secondaryGpt d) a.secondary (crc (chain d a.headerSwapped)).toNat := by
  obtain ⟨h1, h2, h3⟩ := hc.encode_lengths a
  exact hc.header_secondary_rebuild h1 h2 h3

/-- The fields that place and measure the entries never change. -/
theorem fields_encode (gpt : GptInstance) :
    entriesPos gpt (encode crc d a) = entriesPos gpt d ∧
      pentriesArraySize (header gpt (encode crc d a)) =
        pentriesArraySize (header .primaryGpt d) ∧
      pentrySize (header gpt (encode crc d a)) = pentrySize (header .primaryGpt d) ∧
      get4Bytes (header gpt (encode crc d a)) headerSizeOffset =
        get4Bytes (header gpt d) headerSizeOffset := by
  have hl := hc.length_header_eq gpt
  cases gpt with
  | primaryGpt =>
    have hshape : SameShape (sealHeader crc _ a.primary (crc (chain d false)).toNat) _ :=
      sameShape_sealHeader hl _ _
    rw [entriesPos, hc.header_primary_encode]
    exact ⟨hshape.pentriesStartOffset_eq, hshape.pentriesArraySize_eq, hshape.pentrySize_eq,
      hshape.headerSize_eq⟩
  | secondaryGpt =>
    have hshape : SameShape
        (sealHeader crc _ a.secondary (crc (chain d a.headerSwapped)).toNat) _ :=
      sameShape_sealHeader hl _ _
    rw [entriesPos, hc.header_secondary_encode]
    refine ⟨hshape.pentriesStartOffset_eq, ?_, ?_, hshape.headerSize_eq⟩
    · rw [hshape.pentriesArraySize_eq, hc.sizes_eq]
    · rw [hshape.pentrySize_eq, hc.sameSize]

theorem entries_primary_encode : entries .primaryGpt (encode crc d a) = chain d false := by
  obtain ⟨h1, h2, h3⟩ := hc.encode_lengths a
  obtain ⟨hpos, hsize, -⟩ := hc.fields_encode a .primaryGpt
  rw [entries, hpos, hsize]
  exact hc.slice_primary_rebuild h1 h2 h3

theorem entries_secondary_encode :
    entries .secondaryGpt (encode crc d a) = chain d a.entriesSwapped := by
  obtain ⟨h1, h2, h3⟩ := hc.encode_lengths a
  obtain ⟨hpos, hsize, -⟩ := hc.fields_encode a .secondaryGpt
  rw [entries, hpos, hsize]
  exact hc.slice_secondary_rebuild h1 h2 h3

theorem encode_idle : encode crc d .idle = d := by
  have hcrc : ∀ gpt, get4Bytes (header gpt d) partitionCrcOffset = (crc (chain d false)).toNat := by
    intro gpt
    rw [(hc.valid gpt).entriesCrc]
    cases gpt with
    | primaryGpt => rfl
    | secondaryGpt => rw [← hc.sameEntries]; rfl
  have hself : ∀ gpt, sealHeader crc (header gpt d) true (crc (chain d false)).toNat =
      header gpt d := by
    intro gpt
    rw [← hcrc gpt]
    exact sealHeader_eq_self (hc.length_header_eq gpt) (hc.valid gpt).state
  have hE : chain d false = entries .secondaryGpt d := hc.sameEntries
  simp only [encode, Phase.idle, hself]
  rw [hE]
  exact hc.rebuild_self

/-- A usable phase has a valid copy. -/
theorem valid_encode (h : a.Usable) :
    Valid crc .primaryGpt (encode crc d a) ∨ Valid crc .secondaryGpt (encode crc d a) := by
  have hlt : ∀ b : Bytes, (crc b).toNat < 2 ^ 32 := fun b => UInt32.toNat_lt _
  rcases h with hp | ⟨hs, heq⟩
  · refine .inl ⟨?_, ?_, ?_⟩
    · rw [hc.header_primary_encode, headerState_sealHeader (hc.length_header_eq _), hp, if_pos rfl]
    · rw [(hc.fields_encode a .primaryGpt).2.2.2]
      exact (hc.valid .primaryGpt).headerSize
    · rw [hc.header_primary_encode, hc.entries_primary_encode,
        partitionCrc_sealHeader (hc.length_header_eq _) _ _ (hlt _)]
  · refine .inr ⟨?_, ?_, ?_⟩
    · rw [hc.header_secondary_encode, headerState_sealHeader (hc.length_header_eq _), hs,
        if_pos rfl]
    · rw [(hc.fields_encode a .secondaryGpt).2.2.2]
      exact (hc.valid .secondaryGpt).headerSize
    · rw [hc.header_secondary_encode, hc.entries_secondary_encode,
        partitionCrc_sealHeader (hc.length_header_eq _) _ _ (hlt _), heq]

/-! ### The writes, phase by phase -/

theorem stateWritten_primary_encode (sig : Bool) :
    stateWritten crc .primaryGpt (encode crc d a)
      (signHeader sig (header .primaryGpt (encode crc d a))) =
      encode crc d { a with primary := sig } := by
  obtain ⟨h1, h2, h3⟩ := hc.encode_lengths a
  rw [stateWritten, hc.headerPos_encode, hc.header_primary_encode,
    updateHeaderCrc_setSignature (hc.length_header_eq _) (hc.signature _)]
  exact hc.patch_primary_rebuild h1 h2 h3 (length_sealHeader (hc.length_header_eq _) _ _)

theorem stateWritten_secondary_encode (sig : Bool) :
    stateWritten crc .secondaryGpt (encode crc d a)
      (signHeader sig (header .secondaryGpt (encode crc d a))) =
      encode crc d { a with secondary := sig } := by
  obtain ⟨h1, h2, h3⟩ := hc.encode_lengths a
  rw [stateWritten, hc.headerPos_encode, hc.header_secondary_encode,
    updateHeaderCrc_setSignature (hc.length_header_eq _) (hc.signature _)]
  exact hc.patch_secondary_rebuild h1 h2 h3 (length_sealHeader (hc.length_header_eq _) _ _)

theorem headerWritten_encode (b : Bool) :
    headerWritten crc (encode crc d a) (chain d b) =
      encode crc d { a with headerSwapped := b } := by
  obtain ⟨h1, h2, h3⟩ := hc.encode_lengths a
  rw [headerWritten, hc.headerPos_encode, hc.header_secondary_encode,
    setPartitionCrc_sealHeader (hc.length_header_eq _)]
  exact hc.patch_secondary_rebuild h1 h2 h3 (length_sealHeader (hc.length_header_eq _) _ _)

theorem chainWritten_encode (b : Bool) :
    chainWritten crc (encode crc d a) (chain d b) =
      encode crc d { a with headerSwapped := b, entriesSwapped := b } := by
  obtain ⟨h1, h2, h3⟩ := hc.encode_lengths { a with headerSwapped := b }
  rw [chainWritten, hc.headerWritten_encode, (hc.fields_encode a .secondaryGpt).1]
  exact hc.patch_entries_rebuild h1 h2 h3 (hc.length_chain b)

end Encode

/-! ### Refinement -/

theorem internalStage_encode (a : Phase) :
    internalStage (headerState crc (header .primaryGpt (encode crc d a)))
    (headerState crc (header .secondaryGpt (encode crc d a))) =
      a.stage := by
  rw [hc.header_primary_encode, hc.header_secondary_encode,
    headerState_sealHeader (hc.length_header_eq _), headerState_sealHeader (hc.length_header_eq _)]
  rfl

section Refinement

variable {env : Env} {I : Bytes → Prop} {Q : ℤ → Bytes → Prop} (hi : env.Ideal) (a : Phase)

include hi

theorem setPrimary_spec (sig : Bool) (hI : I (encode crc d a))
    (hI' : I (encode crc d { a with primary := sig }))
    (hQ : Q 0 (encode crc d { a with primary := sig })) :
    (gptSetState crc .primaryGpt (sigState sig)).Spec (dev env) Dev.disk (encode crc d a) I Q := by
  have hd : 2 * lbaSize ≤ (encode crc d a).length := by rw [hc.length_encode]; exact hc.layout.1
  rw [← hc.stateWritten_primary_encode] at hI' hQ
  exact gptSetState_spec hi hd (setSignature_sigState sig _)
    (length_updateHeaderCrc (length_signHeader (length_header hd _) _)) hI hI' hQ

theorem setSecondary_spec (sig : Bool) (hI : I (encode crc d a))
    (hI' : I (encode crc d { a with secondary := sig }))
    (hQ : Q 0 (encode crc d { a with secondary := sig })) :
    (gptSetState crc .secondaryGpt (sigState sig)).Spec (dev env) Dev.disk (encode crc d a)
      I Q := by
  have hd : 2 * lbaSize ≤ (encode crc d a).length := by rw [hc.length_encode]; exact hc.layout.1
  rw [← hc.stateWritten_secondary_encode] at hI' hQ
  exact gptSetState_spec hi hd (setSignature_sigState sig _)
    (length_updateHeaderCrc (length_signHeader (length_header hd _) _)) hI hI' hQ

theorem setBootChain_spec (boot : BootChain) (b : Bool)
    (hsmall : pentriesArraySize (header .primaryGpt d) < 2 ^ 31)
    (hchain : chainEntries boot (entries .primaryGpt d) (pentrySize (header .primaryGpt d)) =
      (0, chain d b))
    (hI : I (encode crc d a)) (hI₁ : I (encode crc d { a with headerSwapped := b }))
    (hI₂ : I (encode crc d { a with headerSwapped := b, entriesSwapped := b }))
    (hQ : Q 0 (encode crc d { a with headerSwapped := b, entriesSwapped := b })) :
    (gpt2SetBootChain crc boot).Spec (dev env) Dev.disk (encode crc d a) I Q := by
  have hlen := hc.length_encode a
  have hlt : ∀ b : Bytes, (crc b).toNat < 2 ^ 32 := fun b => UInt32.toNat_lt _
  have hd : 2 * lbaSize ≤ (encode crc d a).length := by rw [hlen]; exact hc.layout.1
  obtain ⟨-, -, -, hpin, hsin, -⟩ := hc.layout
  obtain ⟨hpos, hsize, hentry, -⟩ := hc.fields_encode a .primaryGpt
  obtain ⟨hpos2, -⟩ := hc.fields_encode a .secondaryGpt
  have hentries := hc.entries_primary_encode a
  have hcrc : get4Bytes (header .primaryGpt (encode crc d a)) partitionCrcOffset =
      (crc (entries .primaryGpt (encode crc d a))).toNat := by
    rw [hentries, hc.header_primary_encode,
      partitionCrc_sealHeader (hc.length_header_eq _) _ _ (hlt _)]
  have hchain' : chainEntries boot (entries .primaryGpt (encode crc d a))
      (pentrySize (header .primaryGpt (encode crc d a))) = (0, chain d b) := by
    rw [hentries, hentry]; exact hchain
  refine gpt2SetBootChain_spec hi hd (by rw [hlen]; exact hc.addressable)
    (by rw [hpos, hsize, hlen]; exact hpin) hI ?_ ?_ ?_ ?_
  · intro hbig
    rw [hsize] at hbig
    omega
  · intro hne
    exact absurd hcrc hne
  · intro r E' hE hr
    rw [hchain'] at hE
    exact absurd (Prod.mk.inj hE).1.symm hr
  · intro E' _ _ hE
    rw [hchain'] at hE
    obtain rfl := (Prod.mk.inj hE).2
    rw [hsize, hpos2, hlen, hc.headerWritten_encode, hc.chainWritten_encode]
    exact ⟨hc.length_chain _, length_setPartitionCrc (length_header hd _) _, hsin, hI₁, hI₂, hQ⟩

section Stages

variable {hdr ent : Bool}

theorem updateMain_spec (hs : Swappable d) (hI : I (encode crc d ⟨true, true, hdr, ent⟩))
    (hI₁ : I (encode crc d ⟨true, true, true, ent⟩))
    (hI₂ : I (encode crc d ⟨true, true, true, true⟩))
    (hI₃ : I (encode crc d ⟨false, true, true, true⟩))
    (hQ : Q 0 (encode crc d ⟨false, true, true, true⟩)) :
    (updateStage crc .updateMain).Spec (dev env) Dev.disk
      (encode crc d ⟨true, true, hdr, ent⟩) I Q := by
  have hchain : chainEntries .backupBoot (entries .primaryGpt d)
      (pentrySize (header .primaryGpt d)) = (0, chain d true) := by
    have hcode := hs.2
    simp only [chainEntries, chain, ↓reduceIte]
    generalize gptBootChainSwap _ _ = r at hcode ⊢
    exact Prod.ext hcode rfl
  refine spec_bind (hc.setBootChain_spec hi _ .backupBoot true hs.1 hchain hI hI₁ hI₂
    (Q := fun r d' => r = 0 ∧ encode crc d ⟨true, true, true, true⟩ = d') ⟨rfl, rfl⟩) ?_
  rintro _ _ ⟨rfl, rfl⟩
  exact hc.setPrimary_spec hi _ false hI₂ hI₃ hQ

theorem updateBackup_spec (hI : I (encode crc d ⟨false, true, hdr, ent⟩))
    (hI₁ : I (encode crc d ⟨true, true, hdr, ent⟩))
    (hI₂ : I (encode crc d ⟨true, false, hdr, ent⟩))
    (hQ : Q 0 (encode crc d ⟨true, false, hdr, ent⟩)) :
    (updateStage crc .updateBackup).Spec (dev env) Dev.disk
      (encode crc d ⟨false, true, hdr, ent⟩) I Q := by
  refine spec_bind (hc.setPrimary_spec hi _ true hI hI₁
    (Q := fun r d' => r = 0 ∧ encode crc d ⟨true, true, hdr, ent⟩ = d') ⟨rfl, rfl⟩) ?_
  rintro _ _ ⟨rfl, rfl⟩
  exact hc.setSecondary_spec hi _ false hI₁ hI₂ hQ

theorem updateFinalize_spec (hsmall : pentriesArraySize (header .primaryGpt d) < 2 ^ 31)
    (hI : I (encode crc d ⟨true, false, hdr, ent⟩))
    (hI₁ : I (encode crc d ⟨true, false, false, ent⟩))
    (hI₂ : I (encode crc d ⟨true, false, false, false⟩))
    (hI₃ : I (encode crc d ⟨true, true, false, false⟩))
    (hQ : Q 0 (encode crc d ⟨true, true, false, false⟩)) :
    (updateStage crc .updateFinalize).Spec (dev env) Dev.disk
      (encode crc d ⟨true, false, hdr, ent⟩) I Q := by
  refine spec_bind (hc.setBootChain_spec hi _ .normalBoot false hsmall rfl hI hI₁ hI₂
    (Q := fun r d' => r = 0 ∧ encode crc d ⟨true, false, false, false⟩ = d') ⟨rfl, rfl⟩) ?_
  rintro _ _ ⟨rfl, rfl⟩
  exact hc.setSecondary_spec hi _ true hI₂ hI₃ hQ

end Stages

end Refinement

end Consistent

section Runs

variable {crc : Bytes → UInt32} {d : Bytes} {env : Env}

/-- **Refinement.**  On the disk of a phase, a call of `prepare_boot_update` only passes through
disks of the phases that the abstract machine passes through. -/
theorem prepareBootUpdate_refines (hc : Consistent crc d) (hs : Swappable d) (hi : env.Ideal)
    (stage : BootUpdateStage) (a : Phase) :
    (prepareBootUpdate crc stage).Spec (dev env) Dev.disk (encode crc d a)
      (fun d' => ∃ b ∈ a.visits stage, encode crc d b = d')
      (fun _ d' => encode crc d (a.after stage) = d') := by
  have hd : 2 * lbaSize ≤ (encode crc d a).length := by rw [hc.length_encode]; exact hc.layout.1
  have hI : ∀ b ∈ a.visits stage, ∃ b' ∈ a.visits stage, encode crc d b' = encode crc d b :=
    fun b hb => ⟨b, hb, rfl⟩
  have hnot : a.stage ≠ some stage → encode crc d (a.after stage) = encode crc d a := fun h => by
    rw [Phase.after_of_ne h]
  refine prepareBootUpdate_spec hi hd (hI a List.mem_cons_self) ?_ ?_ ?_ <;>
    rw [hc.internalStage_encode]
  · rintro internal hst hset
    refine hnot fun h => ?_
    rw [h] at hst
    obtain rfl := Option.some.inj hst
    omega
  · exact fun h _ => hnot h
  · intro hfit
    have hsig := Phase.signatures_of_stage hfit
    obtain ⟨p, s, hdr, ent⟩ := a
    cases stage with
    | updateMain =>
      obtain ⟨rfl, rfl⟩ := hsig
      exact hc.updateMain_spec hi hs (hI _ (by simp [Phase.visits]))
        (hI _ (by simp [Phase.visits, Phase.writes])) (hI _ (by simp [Phase.visits, Phase.writes]))
        (hI _ (by simp [Phase.visits, Phase.writes])) rfl
    | updateBackup =>
      obtain ⟨rfl, rfl⟩ := hsig
      exact hc.updateBackup_spec hi (hI _ (by simp [Phase.visits]))
        (hI _ (by simp [Phase.visits, Phase.writes])) (hI _ (by simp [Phase.visits, Phase.writes]))
        rfl
    | updateFinalize =>
      obtain ⟨rfl, rfl⟩ := hsig
      exact hc.updateFinalize_spec hi hs.1 (hI _ (by simp [Phase.visits]))
        (hI _ (by simp [Phase.visits, Phase.writes])) (hI _ (by simp [Phase.visits, Phase.writes]))
        (hI _ (by simp [Phase.visits, Phase.writes])) rfl

/-- Without a partition to swap, no call writes anything. -/
theorem prepareBootUpdate_inert (hc : Consistent crc d) (hs : ¬ Swappable d) (hi : env.Ideal)
    (stage : BootUpdateStage) :
    (prepareBootUpdate crc stage).Spec (dev env) Dev.disk d (fun d' => d = d')
      (fun _ d' => d = d') := by
  obtain ⟨hd, -, -, hpin, -, -⟩ := hc.layout
  refine prepareBootUpdate_spec hi hd rfl (fun _ _ _ => rfl) (fun _ _ => rfl) ?_
  rw [(hc.valid .primaryGpt).state, (hc.valid .secondaryGpt).state]
  intro hfit
  obtain rfl : .updateMain = stage := Option.some.inj hfit
  refine spec_bind (Q := fun r d' => r ≠ 0 ∧ d = d') ?_ ?_
  · refine gpt2SetBootChain_spec hi hd hc.addressable hpin rfl (fun _ r hr => ⟨by omega, rfl⟩)
      (fun _ => ⟨by decide, rfl⟩) (fun r E' _ hr => ⟨hr, rfl⟩) ?_
    intro E' hsmall _ hE
    exact absurd ⟨hsmall, congrArg Prod.fst hE⟩ hs
  · rintro r _ ⟨hr, rfl⟩
    simp only [hr, ne_eq, not_false_eq_true, ↓reduceIte]
    exact spec_ret rfl rfl

/-- The three calls of the updater script refine the sequence of the abstract machine. -/
theorem installBootImages_refines (hc : Consistent crc d) (hs : Swappable d) (hi : env.Ideal)
    (a : Phase) :
    (installBootImages crc).Spec (dev env) Dev.disk (encode crc d a)
      (fun d' => ∃ b ∈ a.sequence, encode crc d b = d')
      (fun _ d' => encode crc d
        (((a.after .updateMain).after .updateBackup).after .updateFinalize) = d') := by
  have hcall : ∀ (stage : BootUpdateStage) (b : Phase),
      (∀ b' ∈ b.visits stage, b' ∈ a.sequence) →
      (prepareBootUpdate crc stage).Spec (dev env) Dev.disk (encode crc d b)
        (fun d' => ∃ b ∈ a.sequence, encode crc d b = d')
        (fun _ d' => encode crc d (b.after stage) = d') := by
    intro stage b hb
    refine (prepareBootUpdate_refines hc hs hi stage b).mono ?_ fun _ _ h => h
    rintro d' ⟨b', hb', rfl⟩
    exact ⟨b', hb b' hb', rfl⟩
  refine spec_bind (hcall .updateMain a ?_) ?_
  · intro b hb
    simp only [Phase.sequence, List.mem_append]
    exact .inl (.inl hb)
  rintro _ _ rfl
  refine spec_bind (hcall .updateBackup _ ?_) ?_
  · intro b hb
    simp only [Phase.sequence, List.mem_append]
    exact .inl (.inr hb)
  rintro _ _ rfl
  have hlast : ∀ b ∈ ((a.after .updateMain).after .updateBackup).visits .updateFinalize,
      b ∈ a.sequence := by
    intro b hb
    simp only [Phase.sequence, List.mem_append]
    exact .inr hb
  refine spec_bind (hcall .updateFinalize _ hlast) ?_
  rintro _ _ rfl
  exact spec_ret ⟨_, hlast _ (Phase.after_mem_visits _ _), rfl⟩ rfl

theorem installBootImages_inert (hc : Consistent crc d) (hs : ¬ Swappable d) (hi : env.Ideal) :
    (installBootImages crc).Spec (dev env) Dev.disk d (fun d' => d = d') (fun _ d' => d = d') := by
  refine spec_bind (prepareBootUpdate_inert hc hs hi .updateMain) ?_
  rintro _ _ rfl
  refine spec_bind (prepareBootUpdate_inert hc hs hi .updateBackup) ?_
  rintro _ _ rfl
  refine spec_bind (prepareBootUpdate_inert hc hs hi .updateFinalize) ?_
  rintro _ _ rfl
  exact spec_ret rfl rfl

end Runs

/-! ### A small disk

Five blocks: an empty one, the primary header, its entries, the secondary entries and the
secondary header.  The table has two entries, `sbl1` and `sbl1bak`. -/

/-- One bit of the CRC-32 of zlib. -/
def crc32Bit (c : ℕ) : ℕ := if c % 2 = 1 then (c / 2) ^^^ 0xEDB88320 else c / 2

/-- The register of the CRC-32 of zlib after some bytes. -/
def crc32Loop : Bytes → ℕ → ℕ
  | [], c => c
  | x :: xs, c =>
    -- the match makes an evaluation compute the register before it goes on to the next byte
    match crc32Bit^[8] (c ^^^ x.toNat) with
    | 0 => crc32Loop xs 0
    | c + 1 => crc32Loop xs (c + 1)

/-- The CRC-32 of zlib. -/
def crc32 (b : Bytes) : UInt32 := UInt32.ofNat (crc32Loop b 0xFFFFFFFF ^^^ 0xFFFFFFFF)

/-- An entry with this type GUID byte and this name. -/
def sampleEntry (guid : UInt8) (name : Bytes) : Bytes :=
  patch (List.replicate typeGuidSize guid ++ List.replicate 112 0) partitionNameOffset
    (name.flatMap fun c => [c, 0])

/-- A partition and its backup. -/
def sampleEntries : Bytes := sampleEntry 1 (ascii "sbl1") ++ sampleEntry 2 (ascii "sbl1bak")

/-- A header of revision 1.0 for `count` entries at block `lba`. -/
def sampleHeader (signature : Bytes) (lba count crcHeader crcEntries : ℕ) : Bytes :=
  signature ++ toLE 4 0x10000 ++ toLE 4 92 ++ toLE 4 crcHeader ++ List.replicate 52 0 ++
    toLE 8 lba ++ toLE 4 count ++ toLE 4 128 ++ toLE 4 crcEntries ++ List.replicate 420 0

/-- A disk with these headers and these primary entries. -/
def layOut (header₁ entries₁ header₂ : Bytes) : Bytes :=
  List.replicate lbaSize 0 ++ header₁ ++ (entries₁ ++ List.replicate 256 0) ++
    (sampleEntries ++ List.replicate 256 0) ++ header₂

/-- A disk with a table of two entries. -/
def sampleDisk : Bytes :=
  layOut (sampleHeader (ascii "EFI PART") 2 2 2594567486 863159034) sampleEntries
    (sampleHeader (ascii "EFI PART") 3 2 4290956920 863159034)

/-- A device on which every call succeeds. -/
def idealEnv : Env := ⟨true, fun _ => true, true, fun _ len => some len, fun _ _ => 0⟩

theorem ideal_idealEnv : idealEnv.Ideal := ⟨rfl, fun _ => rfl, rfl, fun _ _ => rfl⟩

/-- What the headers of the small disk say. -/
theorem headers_sampleDisk : sampleDisk.length = 2560 ∧
    areas sampleDisk = [(512, 512), (2048, 512), (1024, 256), (1536, 256)] ∧
    ∀ gpt ∈ [GptInstance.primaryGpt, .secondaryGpt],
      entries gpt sampleDisk = sampleEntries ∧ headerState crc32 (header gpt sampleDisk) = .gptOk ∧
      get4Bytes (header gpt sampleDisk) headerSizeOffset ≤ lbaSize ∧
      get4Bytes (header gpt sampleDisk) partitionCountOffset = 2 ∧
      pentrySize (header gpt sampleDisk) = 128 ∧
      get4Bytes (header gpt sampleDisk) partitionCrcOffset = (crc32 sampleEntries).toNat := by
  decide +kernel

theorem header_sampleDisk (gpt : GptInstance) :
    entries gpt sampleDisk = sampleEntries ∧ headerState crc32 (header gpt sampleDisk) = .gptOk ∧
    get4Bytes (header gpt sampleDisk) headerSizeOffset ≤ lbaSize ∧
    get4Bytes (header gpt sampleDisk) partitionCountOffset = 2 ∧
    pentrySize (header gpt sampleDisk) = 128 ∧
    get4Bytes (header gpt sampleDisk) partitionCrcOffset = (crc32 sampleEntries).toNat :=
  headers_sampleDisk.2.2 gpt (by cases gpt <;> decide)

theorem entries_sampleDisk (gpt : GptInstance) : entries gpt sampleDisk = sampleEntries :=
  (header_sampleDisk gpt).1

theorem geometry_sampleDisk : Geometry sampleDisk := by
  obtain ⟨hlen, hareas, -⟩ := headers_sampleDisk
  obtain ⟨-, -, -, hcount₁, hsize₁, -⟩ := header_sampleDisk .primaryGpt
  obtain ⟨-, -, -, hcount₂, hsize₂, -⟩ := header_sampleDisk .secondaryGpt
  refine ⟨?_, ?_, ?_, hcount₁.trans hcount₂.symm, hsize₁.trans hsize₂.symm, hsize₁.ge⟩
  · rw [hlen]
    decide
  · rw [hareas, hlen]
    decide
  · rw [hareas]
    decide

theorem valid_sampleDisk (gpt : GptInstance) : Valid crc32 gpt sampleDisk := by
  obtain ⟨hentries, hstate, hsize, -, -, hcrc⟩ := header_sampleDisk gpt
  exact ⟨hstate, hsize, by rw [hcrc, hentries]⟩

theorem consistent_sampleDisk : Consistent crc32 sampleDisk :=
  { geometry_sampleDisk with
    valid := valid_sampleDisk
    sameEntries := by rw [entries_sampleDisk, entries_sampleDisk] }

/-! ### Restarted updates -/

open Relation

/-- A run of the updater script is cut off. -/
def CutOff (crc : Bytes → UInt32) (d d' : Bytes) : Prop :=
  ∃ env : Env, env.Ideal ∧ (installBootImages crc).Interrupt (dev env) Dev.disk d d'

/-- A call of `prepare_boot_update` with some stage, complete or cut off. -/
def Called (crc : Bytes → UInt32) (d d' : Bytes) : Prop :=
  ∃ env : Env, env.Ideal ∧ ∃ stage,
    (prepareBootUpdate crc stage).Interrupt (dev env) Dev.disk d d'

section

variable {crc : Bytes → UInt32} {d d' : Bytes}

/-- Every disk a chain of cut-off updates leaves stands for a live phase. -/
theorem exists_phase_of_cutOff (hc : Consistent crc d) (hs : Swappable d)
    (h : ReflTransGen (CutOff crc) d d') : ∃ a : Phase, a.Live ∧ encode crc d a = d' := by
  induction h with
  | refl => exact ⟨.idle, .inl rfl, hc.encode_idle⟩
  | tail _ hcut ih =>
    obtain ⟨a, ha, rfl⟩ := ih
    obtain ⟨env, hi, hcut⟩ := hcut
    obtain ⟨b, hb, rfl⟩ := (installBootImages_refines hc hs hi a).interrupt hcut
    exact ⟨b, ha.sequence hb, rfl⟩

/-- Every disk a chain of calls leaves stands for a usable phase. -/
theorem exists_phase_of_called (hc : Consistent crc d) (hs : Swappable d)
    (h : ReflTransGen (Called crc) d d') : ∃ a : Phase, a.Usable ∧ encode crc d a = d' := by
  induction h with
  | refl => exact ⟨.idle, .inl rfl, hc.encode_idle⟩
  | tail _ hcall ih =>
    obtain ⟨a, ha, rfl⟩ := ih
    obtain ⟨env, hi, stage, hcall⟩ := hcall
    obtain ⟨b, hb, rfl⟩ := (prepareBootUpdate_refines hc hs hi stage a).interrupt hcall
    exact ⟨b, ha.visits hb, rfl⟩

/-- **Crash safety of the update.**  Whatever sequence of cut-off updates came before, a complete
run of the updater script ends on the disk the first of them started on. -/
theorem installBootImages_restores (hc : Consistent crc d)
    (h : ReflTransGen (CutOff crc) d d') {env : Env} (hi : env.Ideal) {s : Dev}
    (hs : s.disk = d') : ((installBootImages crc).run (dev env) s).2.disk = d := by
  by_cases hsw : Swappable d
  · obtain ⟨a, ha, rfl⟩ := exists_phase_of_cutOff hc hsw h
    have hend := (installBootImages_refines hc hsw hi a).result hs
    rw [← hend, ha.idle_of_sequence, hc.encode_idle]
  · have hd : d = d' := by
      clear hs
      induction h with
      | refl => rfl
      | tail _ hcut ih =>
        obtain rfl := ih
        obtain ⟨env, hi, hcut⟩ := hcut
        exact (installBootImages_inert hc hsw hi).interrupt hcut
    subst hd
    exact ((installBootImages_inert hc hsw hi).result hs).symm

theorem exists_cutOff_sampleDisk : ∃ d', CutOff crc32 sampleDisk d' ∧ d' ≠ sampleDisk := by
  have hvisit : ∃ t ∈ (installBootImages crc32).visits (dev idealEnv) (Dev.start sampleDisk),
      t.disk ≠ sampleDisk := by decide +kernel
  obtain ⟨t, ht, hne⟩ := hvisit
  exact ⟨t.disk, ⟨idealEnv, ideal_idealEnv, _, rfl, t, ht, rfl⟩, hne⟩

/-- An update of the small disk that was cut off after a write is undone by the next run. -/
theorem installBootImages_restores_sampleDisk : ∃ d', CutOff crc32 sampleDisk d' ∧
    d' ≠ sampleDisk ∧
    ((installBootImages crc32).run (dev idealEnv) (Dev.start d')).2.disk = sampleDisk := by
  obtain ⟨d', hcut, hne⟩ := exists_cutOff_sampleDisk
  exact ⟨d', hcut, hne, installBootImages_restores consistent_sampleDisk (.single hcut)
    ideal_idealEnv rfl⟩

/-- **A usable table at any moment.**  Whatever stages are requested in whatever order, and
wherever the calls are cut off, one of the two copies is valid. -/
theorem prepareBootUpdate_keeps_valid (hc : Consistent crc d)
    (h : ReflTransGen (Called crc) d d') :
    Valid crc .primaryGpt d' ∨ Valid crc .secondaryGpt d' := by
  by_cases hsw : Swappable d
  · obtain ⟨a, ha, rfl⟩ := exists_phase_of_called hc hsw h
    exact hc.valid_encode a ha
  · have hd : d = d' := by
      induction h with
      | refl => rfl
      | tail _ hcall ih =>
        obtain rfl := ih
        obtain ⟨env, hi, stage, hcall⟩ := hcall
        exact (prepareBootUpdate_inert hc hsw hi stage).interrupt hcall
    subst hd
    exact .inl (hc.valid .primaryGpt)

theorem exists_called_sampleDisk : ∃ d', Called crc32 sampleDisk d' ∧ d' ≠ sampleDisk := by
  have hvisit : ∃ t ∈ (prepareBootUpdate crc32 .updateMain).visits (dev idealEnv)
      (Dev.start sampleDisk), t.disk ≠ sampleDisk := by decide +kernel
  obtain ⟨t, ht, hne⟩ := hvisit
  exact ⟨t.disk, ⟨idealEnv, ideal_idealEnv, .updateMain, _, rfl, t, ht, rfl⟩, hne⟩

/-- The first stage cut off after a write leaves a valid copy on the small disk. -/
theorem prepareBootUpdate_keeps_valid_sampleDisk : ∃ d', Called crc32 sampleDisk d' ∧
    d' ≠ sampleDisk ∧ (Valid crc32 .primaryGpt d' ∨ Valid crc32 .secondaryGpt d') := by
  obtain ⟨d', hcall, hne⟩ := exists_called_sampleDisk
  exact ⟨d', hcall, hne, prepareBootUpdate_keeps_valid consistent_sampleDisk (.single hcall)⟩

end

end Gpt

end Msm8909w
