import Msm8909w.Gpt.Update

/-!
# What a stage that reports success has done

The disks of this file need not come from an update: only the two header CRCs have to match, and
either signature may be cleared.  The two tables have the same shape and do not overlap
(`Geometry`).

`prepareBootUpdate_post` : a first stage that returns `0` on a table with a backup twin leaves the
primary signature invalid, and, when it found both signatures intact, a valid secondary copy with
the swapped boot chain; a second stage that returns `0` leaves the primary header valid, its
entries as they were, and the secondary signature invalid; a stage that does not fit changes
nothing.
-/

namespace Msm8909w

namespace Gpt

open Prog

variable {crc : Bytes → UInt32} {d : Bytes}

namespace Geometry

variable (hg : Geometry d)

include hg

theorem length_entries (gpt : GptInstance) :
    (entries gpt d).length = pentriesArraySize (header .primaryGpt d) := by
  obtain ⟨-, -, -, hpin, hsin, -⟩ := hg.layout
  cases gpt with
  | primaryGpt => exact length_slice hpin
  | secondaryGpt =>
    rw [entries, hg.sizes_eq]
    exact length_slice hsin

section Rebuild

variable {P S X : Bytes} (hP : P.length = lbaSize) (hS : S.length = lbaSize)
  (hX : X.length = pentriesArraySize (header .primaryGpt d))

include hP hS hX

theorem entries_primary_rebuild (hs : SameShape P (header .primaryGpt d)) :
    entries .primaryGpt (rebuild d P S X) = entries .primaryGpt d := by
  rw [entries, entriesPos, hg.header_primary_rebuild hP hS hX, hs.pentriesStartOffset_eq,
    hs.pentriesArraySize_eq]
  exact hg.slice_primary_rebuild hP hS hX

theorem entries_secondary_rebuild (hs : SameShape S (header .secondaryGpt d)) :
    entries .secondaryGpt (rebuild d P S X) = X := by
  rw [entries, entriesPos, hg.header_secondary_rebuild hP hS hX, hs.pentriesStartOffset_eq,
    hs.pentriesArraySize_eq, hg.sizes_eq]
  exact hg.slice_secondary_rebuild hP hS hX

theorem stateWritten_primary_rebuild {h : Bytes} (hl : h.length = lbaSize) :
    stateWritten crc .primaryGpt (rebuild d P S X) h = rebuild d (updateHeaderCrc crc h) S X := by
  rw [stateWritten, hg.headerPos_rebuild hP hS hX]
  exact hg.patch_primary_rebuild hP hS hX (length_updateHeaderCrc hl)

theorem stateWritten_secondary_rebuild {h : Bytes} (hl : h.length = lbaSize) :
    stateWritten crc .secondaryGpt (rebuild d P S X) h =
      rebuild d P (updateHeaderCrc crc h) X := by
  rw [stateWritten, hg.headerPos_rebuild hP hS hX]
  exact hg.patch_secondary_rebuild hP hS hX (length_updateHeaderCrc hl)

end Rebuild

/-- The writes of `gpt2_set_boot_chain`, as a replacement of parts of the disk. -/
theorem chainWritten_eq {E : Bytes} (hE : E.length = pentriesArraySize (header .primaryGpt d)) :
    chainWritten crc d E =
      rebuild d (header .primaryGpt d) (setPartitionCrc crc (header .secondaryGpt d) E) E := by
  have h1 := hg.length_header_eq .primaryGpt
  have h2 := hg.length_header_eq .secondaryGpt
  have h3 := hg.length_entries .secondaryGpt
  have h4 : (setPartitionCrc crc (header .secondaryGpt d) E).length = lbaSize :=
    length_setPartitionCrc h2 E
  have hw : headerWritten crc d E = rebuild d (header .primaryGpt d)
      (setPartitionCrc crc (header .secondaryGpt d) E) (entries .secondaryGpt d) := by
    have hp := hg.patch_secondary_rebuild h1 h2 h3 h4
    rw [hg.rebuild_self] at hp
    exact hp
  rw [chainWritten, hw]
  exact hg.patch_entries_rebuild h1 h4 h3 hE

end Geometry

/-! ### Header states -/

theorem headerState_clear {h : Bytes} (hl : h.length = lbaSize) :
    headerState crc (updateHeaderCrc crc (signHeader false h)) = .gptBadSignature := by
  rw [headerState_updateHeaderCrc (length_signHeader hl _), if_pos]
  rw [ne_eq, signHeader_take hl]
  exact Bool.false_ne_true

theorem headerState_repair {h : Bytes} (hl : h.length = lbaSize) :
    headerState crc (updateHeaderCrc crc (signHeader true h)) = .gptOk := by
  rw [headerState_updateHeaderCrc (length_signHeader hl _), if_neg]
  rw [not_not, signHeader_take hl]

theorem headerState_setPartitionCrc {h : Bytes} (hl : h.length = lbaSize)
    (hok : headerState crc h = .gptOk) (E : Bytes) :
    headerState crc (setPartitionCrc crc h E) = .gptOk := by
  have htake : (put4Bytes h partitionCrcOffset (crc E).toNat).take gptSignature.length =
      h.take gptSignature.length := by
    have hfield : slice (put4Bytes h partitionCrcOffset (crc E).toNat) 0 9 = slice h 0 9 :=
      slice_put4Bytes hl (by decide) (by decide)
    rw [length_gptSignature]
    exact hfield
  unfold headerState at hok
  split_ifs at hok with hcrc hsig
  rw [setPartitionCrc, headerState_updateHeaderCrc (length_put4Bytes hl _ (by decide)), htake,
    if_neg hsig]

/-! ### The stages -/

/-- The disk a first stage leaves when it found both signatures intact. -/
def mainWritten (crc : Bytes → UInt32) (d : Bytes) : Bytes :=
  rebuild d (updateHeaderCrc crc (signHeader false (header .primaryGpt d)))
    (setPartitionCrc crc (header .secondaryGpt d) (chain d true)) (chain d true)

/-- The disk a second stage leaves when it found the primary signature cleared. -/
def backupWritten (crc : Bytes → UInt32) (d : Bytes) : Bytes :=
  rebuild d (updateHeaderCrc crc (signHeader true (header .primaryGpt d)))
    (updateHeaderCrc crc (signHeader false (header .secondaryGpt d))) (entries .secondaryGpt d)

/-- The table holds a partition of the swap list and its backup twin. -/
def HasBackup (d : Bytes) : Prop :=
  ∃ n ∈ ptnSwapList, HasTwin (entries .primaryGpt d) (pentrySize (header .primaryGpt d)) n

section Stages

variable {env : Env} (hg : Geometry d) (hi : env.Ideal)

include hg

theorem swap_found (hb : HasBackup d) :
    chainEntries .backupBoot (entries .primaryGpt d) (pentrySize (header .primaryGpt d)) =
      (0, chain d true) := by
  obtain ⟨n, hn, htwin⟩ := hb
  have hcode := (gptBootChainSwap_spec hg.entrySize (entries .primaryGpt d)).found
    ⟨n, hn, findPair_isSome hg.entrySize htwin⟩
  simp only [chainEntries, chain, ↓reduceIte]
  generalize gptBootChainSwap _ _ = r at hcode ⊢
  exact Prod.ext hcode rfl

theorem length_swapped : (chain d true).length = pentriesArraySize (header .primaryGpt d) := by
  rw [← hg.length_entries .primaryGpt]
  exact length_gptBootChainSwap hg.entrySize _

include hi

theorem updateMain_post (hb : HasBackup d) :
    (updateStage crc .updateMain).Spec (dev env) Dev.disk d (fun _ => True)
      (fun r d' => r = 0 → mainWritten crc d = d') := by
  obtain ⟨hd, -, -, hpin, hsin, -⟩ := hg.layout
  have h1 := hg.length_header_eq .primaryGpt
  have h2 := hg.length_header_eq .secondaryGpt
  have hE := length_swapped hg
  have hS : (setPartitionCrc crc (header .secondaryGpt d) (chain d true)).length = lbaSize :=
    length_setPartitionCrc h2 _
  refine spec_bind (Q := fun r d' => r < 0 ∨ r = 0 ∧ chainWritten crc d (chain d true) = d') ?_ ?_
  · refine gpt2SetBootChain_spec hi hd hg.addressable hpin trivial (fun _ r hr => .inl hr)
      (fun _ => .inl (by decide)) ?_ ?_
    · intro r E' hE' hr
      rw [swap_found hg hb] at hE'
      exact absurd (Prod.mk.inj hE').1.symm hr
    · intro E' _ _ hE'
      rw [swap_found hg hb] at hE'
      obtain rfl := (Prod.mk.inj hE').2
      exact ⟨hE, hS, hsin, trivial, trivial, .inr ⟨rfl, rfl⟩⟩
  · rintro r d' (hr | ⟨rfl, rfl⟩)
    · have hne : r ≠ 0 := by omega
      simp only [hne, hr, ne_eq, not_false_eq_true, ↓reduceIte]
      exact spec_ret trivial fun h => absurd h hne
    · rw [hg.chainWritten_eq hE]
      have hheader := hg.header_primary_rebuild h1 hS hE
      have hlen := hg.length_rebuild h1 hS hE
      have hl := length_signHeader h1 false
      simp only [ne_eq, not_true_eq_false, ↓reduceIte]
      refine gptSetState_spec hi (Q := fun r d' => r = 0 → mainWritten crc d = d')
        (hd.trans_eq hlen.symm) (by rw [hheader]; exact setSignature_sigState false _)
        (length_updateHeaderCrc hl) trivial trivial fun _ => ?_
      rw [hg.stateWritten_primary_rebuild h1 hS hE hl]
      rfl

theorem updateBackup_post :
    (updateStage crc .updateBackup).Spec (dev env) Dev.disk d (fun _ => True)
      (fun r d' => r = 0 → backupWritten crc d = d') := by
  have hd := hg.layout.1
  have h1 := hg.length_header_eq .primaryGpt
  have h2 := hg.length_header_eq .secondaryGpt
  have hX := hg.length_entries .secondaryGpt
  have hl := length_signHeader h1 true
  have hl' := length_signHeader h2 false
  have hP : (updateHeaderCrc crc (signHeader true (header .primaryGpt d))).length = lbaSize :=
    length_updateHeaderCrc hl
  refine spec_bind (Q := fun r d' => r = 0 ∧
    rebuild d (updateHeaderCrc crc (signHeader true (header .primaryGpt d)))
      (header .secondaryGpt d) (entries .secondaryGpt d) = d') ?_ ?_
  · refine gptSetState_spec hi hd (setSignature_sigState true _) (length_updateHeaderCrc hl)
      trivial trivial ⟨rfl, ?_⟩
    have hw : stateWritten crc .primaryGpt _ _ = _ :=
      hg.stateWritten_primary_rebuild h1 h2 hX hl
    rw [hg.rebuild_self] at hw
    exact hw.symm
  · rintro _ _ ⟨rfl, rfl⟩
    have hheader := hg.header_secondary_rebuild hP h2 hX
    have hlen := hg.length_rebuild hP h2 hX
    simp only [ne_eq, not_true_eq_false, ↓reduceIte]
    refine gptSetState_spec hi (Q := fun r d' => r = 0 → backupWritten crc d = d')
      (hd.trans_eq hlen.symm) (by rw [hheader]; exact setSignature_sigState false _)
      (length_updateHeaderCrc hl') trivial trivial fun _ => ?_
    rw [hg.stateWritten_secondary_rebuild hP h2 hX hl']
    rfl

end Stages

/-- The stage neither fits the header states nor is already set. -/
def Misfit (crc : Bytes → UInt32) (stage : BootUpdateStage) (d : Bytes) : Prop :=
  ∀ internal, internalStage (headerState crc (header .primaryGpt d))
    (headerState crc (header .secondaryGpt d)) = some internal →
    stage ≠ internal ∧ stage.toInt ≠ internal.toInt - 1

/-- The header states a stage stands for. -/
theorem states_of_internalStage {prim second : GptState} {stage : BootUpdateStage}
    (h : internalStage prim second = some stage) :
    match stage with
    | .updateMain => prim = .gptOk ∧ second = .gptOk
    | .updateBackup => prim = .gptBadSignature ∧ second = .gptOk
    | .updateFinalize => prim = .gptOk ∧ second = .gptBadSignature := by
  cases prim <;> cases second <;> cases h <;> exact ⟨rfl, rfl⟩

section Post

variable {env : Env} (hg : Geometry d)
  (hsize : ∀ gpt, get4Bytes (header gpt d) headerSizeOffset ≤ lbaSize)

include hg hsize

theorem mainWritten_post (hok : headerState crc (header .secondaryGpt d) = .gptOk) :
    headerState crc (header .primaryGpt (mainWritten crc d)) = .gptBadSignature ∧
      Valid crc .secondaryGpt (mainWritten crc d) ∧
      Exchanged (entries .primaryGpt d) (pentrySize (header .primaryGpt d)) ptnSwapList
        (entries .secondaryGpt (mainWritten crc d)) := by
  have h1 := hg.length_header_eq .primaryGpt
  have h2 := hg.length_header_eq .secondaryGpt
  have hE := length_swapped hg
  have hP : (updateHeaderCrc crc (signHeader false (header .primaryGpt d))).length = lbaSize :=
    length_updateHeaderCrc (length_signHeader h1 false)
  have hS : (setPartitionCrc crc (header .secondaryGpt d) (chain d true)).length = lbaSize :=
    length_setPartitionCrc h2 _
  have hshape : SameShape (setPartitionCrc crc (header .secondaryGpt d) (chain d true)) _ :=
    sameShape_setPartitionCrc h2 _
  have hentries : entries .secondaryGpt (mainWritten crc d) = chain d true :=
    hg.entries_secondary_rebuild hP hS hE hshape
  have hheader : header .secondaryGpt (mainWritten crc d) =
      setPartitionCrc crc (header .secondaryGpt d) (chain d true) :=
    hg.header_secondary_rebuild hP hS hE
  refine ⟨?_, ⟨?_, ?_, ?_⟩, ?_⟩
  · rw [mainWritten, hg.header_primary_rebuild hP hS hE, headerState_clear h1]
  · rw [hheader, headerState_setPartitionCrc h2 hok]
  · rw [hheader, hshape.headerSize_eq]
    exact hsize .secondaryGpt
  · rw [hheader, hentries, partitionCrc_setPartitionCrc h2]
  · rw [hentries]
    exact (gptBootChainSwap_spec hg.entrySize (entries .primaryGpt d)).toExchanged

theorem backupWritten_post :
    headerState crc (header .primaryGpt (backupWritten crc d)) = .gptOk ∧
      entries .primaryGpt (backupWritten crc d) = entries .primaryGpt d ∧
      (get4Bytes (header .primaryGpt d) partitionCrcOffset =
        (crc (entries .primaryGpt d)).toNat → Valid crc .primaryGpt (backupWritten crc d)) ∧
      headerState crc (header .secondaryGpt (backupWritten crc d)) = .gptBadSignature := by
  have h1 := hg.length_header_eq .primaryGpt
  have h2 := hg.length_header_eq .secondaryGpt
  have hX := hg.length_entries .secondaryGpt
  have hsig := length_signHeader h1 true
  have hP : (updateHeaderCrc crc (signHeader true (header .primaryGpt d))).length = lbaSize :=
    length_updateHeaderCrc hsig
  have hS : (updateHeaderCrc crc (signHeader false (header .secondaryGpt d))).length = lbaSize :=
    length_updateHeaderCrc (length_signHeader h2 false)
  have hshape : SameShape (updateHeaderCrc crc (signHeader true (header .primaryGpt d)))
      (header .primaryGpt d) :=
    (sameShape_updateHeaderCrc hsig).trans (sameShape_signHeader h1 true)
  have hentries : entries .primaryGpt (backupWritten crc d) = entries .primaryGpt d :=
    hg.entries_primary_rebuild hP hS hX hshape
  have hheader : header .primaryGpt (backupWritten crc d) =
      updateHeaderCrc crc (signHeader true (header .primaryGpt d)) :=
    hg.header_primary_rebuild hP hS hX
  have hcrc : get4Bytes (header .primaryGpt (backupWritten crc d)) partitionCrcOffset =
      get4Bytes (header .primaryGpt d) partitionCrcOffset := by
    rw [hheader, partitionCrc_updateHeaderCrc hsig, get4Bytes, get4Bytes, signHeader,
      slice_patch_of_disjoint (by rw [if_pos rfl, length_gptSignature, h1]; decide)
        (.inr (by rw [if_pos rfl, length_gptSignature]; decide))]
  have hok : headerState crc (header .primaryGpt (backupWritten crc d)) = .gptOk := by
    rw [hheader, headerState_repair h1]
  refine ⟨hok, hentries, fun hstored => ⟨hok, ?_, ?_⟩, ?_⟩
  · rw [hheader, hshape.headerSize_eq]
    exact hsize .primaryGpt
  · rw [hcrc, hentries, hstored]
  · rw [backupWritten, hg.header_secondary_rebuild hP hS hX, headerState_clear h2]

end Post

theorem hasBackup_sampleDisk : HasBackup sampleDisk := by
  obtain ⟨-, -, -, -, hsize, -⟩ := header_sampleDisk .primaryGpt
  rw [HasBackup, entries_sampleDisk, hsize]
  exact ⟨ascii "sbl1", by decide, 0, 1, by decide +kernel⟩

/-- Both copies of this disk are valid, but the secondary one has only one entry. -/
def unevenDisk : Bytes :=
  layOut (sampleHeader (ascii "EFI PART") 2 2 2594567486 863159034) sampleEntries
    (sampleHeader (ascii "EFI PART") 3 1 1604711940 2063348742)

/-- The primary signature of this disk is cleared; its primary entries are `E`. -/
def clearedDisk (E : Bytes) : Bytes :=
  layOut (sampleHeader (0 :: ascii "FI PART") 2 2 393839373 863159034) E
    (sampleHeader (ascii "EFI PART") 3 2 4290956920 863159034)

/-- The disk after a stage, on a device on which every call succeeds. -/
def afterStage (stage : BootUpdateStage) (d : Bytes) : ℤ × Bytes :=
  let res := (prepareBootUpdate crc32 stage).run (dev idealEnv) (Dev.start d)
  (res.1, res.2.disk)

end Gpt

end Msm8909w
