import Msm8909w.Gpt.Spec

/-!
# The algebra of GPT headers

Every header the update writes is one of the original headers with three fields rewritten: the
signature, the CRC of the entry array and the CRC of the header itself.  `sealHeader h sig c` is
this normal form, and the operations of `gpt-utils.cpp` act on it field by field:

* `updateHeaderCrc_setSignature` : `gpt_set_state` changes `sig`,
* `setPartitionCrc_sealHeader` : `gpt2_set_boot_chain` changes `c`,
* `headerState_sealHeader` : `gpt_get_state` reads `sig`,
* `sealHeader_eq_self` : an intact header is in normal form.
-/

namespace Msm8909w

namespace Gpt

variable {crc : Bytes → UInt32} {h : Bytes}

/-- The header with its signature intact or with its first byte cleared. -/
def signHeader (sig : Bool) (h : Bytes) : Bytes :=
  patch h 0 (if sig then gptSignature else [0])

/-- The header `h` with signature state `sig`, entry CRC `c` and a matching header CRC. -/
def sealHeader (crc : Bytes → UInt32) (h : Bytes) (sig : Bool) (c : ℕ) : Bytes :=
  updateHeaderCrc crc (put4Bytes (signHeader sig h) partitionCrcOffset c)

/-! ### Lengths -/

theorem length_gptSignature : gptSignature.length = 9 := by decide

theorem length_signature_le (sig : Bool) :
    (if sig then gptSignature else ([0] : Bytes)).length ≤ 9 := by
  cases sig <;> decide

theorem length_put4Bytes (hl : h.length = lbaSize) {off : ℕ} (y : ℕ) (ho : off + 4 ≤ lbaSize) :
    (put4Bytes h off y).length = lbaSize := by
  rw [put4Bytes, length_patch (by rw [length_toLE]; omega), hl]

theorem length_updateHeaderCrc (hl : h.length = lbaSize) :
    (updateHeaderCrc crc h).length = lbaSize :=
  length_put4Bytes (length_put4Bytes hl _ (by decide)) _ (by decide)

theorem length_signHeader (hl : h.length = lbaSize) (sig : Bool) :
    (signHeader sig h).length = lbaSize := by
  have h9 := length_signature_le sig
  have h512 : lbaSize = 512 := rfl
  rw [signHeader, length_patch (by omega), hl]

theorem length_sealHeader (hl : h.length = lbaSize) (sig : Bool) (c : ℕ) :
    (sealHeader crc h sig c).length = lbaSize :=
  length_updateHeaderCrc (length_put4Bytes (length_signHeader hl sig) _ (by decide))

theorem length_setPartitionCrc (hl : h.length = lbaSize) (pentries : Bytes) :
    (setPartitionCrc crc h pentries).length = lbaSize :=
  length_updateHeaderCrc (length_put4Bytes hl _ (by decide))

/-! ### Fields -/

theorem slice_put4Bytes {off y o n : ℕ} (hl : h.length = lbaSize) (ho : off + 4 ≤ lbaSize)
    (hd : o + n ≤ off ∨ off + 4 ≤ o) : slice (put4Bytes h off y) o n = slice h o n :=
  slice_patch_of_disjoint (by rw [length_toLE]; omega) (by rwa [length_toLE])

theorem get4Bytes_put4Bytes {off y : ℕ} (hl : h.length = lbaSize) (ho : off + 4 ≤ lbaSize) :
    get4Bytes (put4Bytes h off y) off = y % 2 ^ 32 := by
  have hs : slice (put4Bytes h off y) off (toLE 4 y).length = toLE 4 y :=
    slice_patch_same (by rw [length_toLE]; omega)
  rw [length_toLE] at hs
  rw [get4Bytes, hs, ofLE_toLE, show 256 ^ 4 = 2 ^ 32 by decide]

theorem put4Bytes_get4Bytes {off : ℕ} (hl : h.length = lbaSize) (ho : off + 4 ≤ lbaSize) :
    put4Bytes h off (get4Bytes h off) = h := by
  have hs : (slice h off 4).length = 4 := length_slice (by omega)
  have hle : toLE 4 (get4Bytes h off) = slice h off 4 := by
    have hself := toLE_ofLE (slice h off 4)
    rwa [hs] at hself
  rw [put4Bytes, hle]
  exact patch_slice_self (by omega)

theorem put4Bytes_put4Bytes {off y z : ℕ} (hl : h.length = lbaSize) (ho : off + 4 ≤ lbaSize) :
    put4Bytes (put4Bytes h off y) off z = put4Bytes h off z :=
  patch_patch_same (by rw [length_toLE]; omega) (by rw [length_toLE, length_toLE])

/-! ### What never changes -/

/-- The headers agree outside the signature and the two CRCs. -/
def SameShape (h' h : Bytes) : Prop :=
  ∀ o n, 9 ≤ o → (o + n ≤ headerCrcOffset ∨ headerCrcOffset + 4 ≤ o) →
    (o + n ≤ partitionCrcOffset ∨ partitionCrcOffset + 4 ≤ o) → slice h' o n = slice h o n

namespace SameShape

variable {h' h'' : Bytes}

theorem trans (h₁ : SameShape h'' h') (h₂ : SameShape h' h) : SameShape h'' h :=
  fun o n h9 hc hp => (h₁ o n h9 hc hp).trans (h₂ o n h9 hc hp)

section

variable (hs : SameShape h' h)

include hs

theorem pentrySize_eq : pentrySize h' = pentrySize h := by
  rw [pentrySize, pentrySize, get4Bytes, get4Bytes, hs _ _ (by decide) (by decide) (by decide)]

theorem pentriesStartOffset_eq : pentriesStartOffset h' = pentriesStartOffset h := by
  rw [pentriesStartOffset, pentriesStartOffset, get8Bytes, get8Bytes,
    hs _ _ (by decide) (by decide) (by decide)]

theorem pentriesArraySize_eq : pentriesArraySize h' = pentriesArraySize h := by
  rw [pentriesArraySize, pentriesArraySize, hs.pentrySize_eq, get4Bytes, get4Bytes,
    hs _ _ (by decide) (by decide) (by decide)]

theorem headerSize_eq : get4Bytes h' headerSizeOffset = get4Bytes h headerSizeOffset := by
  rw [get4Bytes, get4Bytes, hs _ _ (by decide) (by decide) (by decide)]

end

end SameShape

theorem sameShape_updateHeaderCrc (hl : h.length = lbaSize) :
    SameShape (updateHeaderCrc crc h) h := by
  intro o n _ hcrc _
  rw [updateHeaderCrc, slice_put4Bytes (length_put4Bytes hl _ (by decide)) (by decide) hcrc,
    slice_put4Bytes hl (by decide) hcrc]

theorem sameShape_putPartitionCrc (hl : h.length = lbaSize) (c : ℕ) :
    SameShape (put4Bytes h partitionCrcOffset c) h :=
  fun _ _ _ _ hp => slice_put4Bytes hl (by decide) hp

theorem sameShape_signHeader (hl : h.length = lbaSize) (sig : Bool) :
    SameShape (signHeader sig h) h := by
  intro o n h9 _ _
  have hle := length_signature_le sig
  have h512 : lbaSize = 512 := rfl
  exact slice_patch_of_disjoint (by omega) (by omega)

theorem sameShape_setPartitionCrc (hl : h.length = lbaSize) (pentries : Bytes) :
    SameShape (setPartitionCrc crc h pentries) h :=
  (sameShape_updateHeaderCrc (length_put4Bytes hl _ (by decide))).trans
    (sameShape_putPartitionCrc hl _)

theorem sameShape_sealHeader (hl : h.length = lbaSize) (sig : Bool) (c : ℕ) :
    SameShape (sealHeader crc h sig c) h :=
  have hs := length_signHeader hl sig
  ((sameShape_updateHeaderCrc (length_put4Bytes hs _ (by decide))).trans
    (sameShape_putPartitionCrc hs c)).trans (sameShape_signHeader hl sig)

theorem partitionCrc_updateHeaderCrc (hl : h.length = lbaSize) :
    get4Bytes (updateHeaderCrc crc h) partitionCrcOffset = get4Bytes h partitionCrcOffset := by
  rw [get4Bytes, get4Bytes, updateHeaderCrc,
    slice_put4Bytes (length_put4Bytes hl _ (by decide)) (by decide) (by decide),
    slice_put4Bytes hl (by decide) (by decide)]

theorem partitionCrc_setPartitionCrc (hl : h.length = lbaSize) (pentries : Bytes) :
    get4Bytes (setPartitionCrc crc h pentries) partitionCrcOffset = (crc pentries).toNat := by
  rw [setPartitionCrc, partitionCrc_updateHeaderCrc (length_put4Bytes hl _ (by decide)),
    get4Bytes_put4Bytes hl (by decide), Nat.mod_eq_of_lt (UInt32.toNat_lt _)]

theorem partitionCrc_sealHeader (hl : h.length = lbaSize) (sig : Bool) (c : ℕ)
    (hc : c < 2 ^ 32) : get4Bytes (sealHeader crc h sig c) partitionCrcOffset = c := by
  have hs := length_signHeader hl sig
  rw [sealHeader, partitionCrc_updateHeaderCrc (length_put4Bytes hs _ (by decide)),
    get4Bytes_put4Bytes hs (by decide), Nat.mod_eq_of_lt hc]

/-! ### The header CRC -/

theorem headerSize_clear (hl : h.length = lbaSize) {y : ℕ} :
    get4Bytes (put4Bytes h headerCrcOffset y) headerSizeOffset = get4Bytes h headerSizeOffset := by
  rw [get4Bytes, get4Bytes, slice_put4Bytes hl (by decide) (by decide)]

theorem headerCrc_put (hl : h.length = lbaSize) (y : ℕ) :
    headerCrc crc (put4Bytes h headerCrcOffset y) = headerCrc crc h := by
  rw [headerCrc, headerCrc, put4Bytes_put4Bytes hl (by decide), headerSize_clear hl]

theorem updateHeaderCrc_eq (hl : h.length = lbaSize) :
    updateHeaderCrc crc h = put4Bytes h headerCrcOffset (headerCrc crc h) :=
  put4Bytes_put4Bytes hl (by decide)

/-- The header CRC does not matter to a later recomputation. -/
theorem updateHeaderCrc_patch {o : ℕ} {v : Bytes} (hl : h.length = lbaSize)
    (hin : o + v.length ≤ lbaSize)
    (hd : o + v.length ≤ headerCrcOffset ∨ headerCrcOffset + 4 ≤ o) :
    updateHeaderCrc crc (patch (updateHeaderCrc crc h) o v) =
      updateHeaderCrc crc (patch h o v) := by
  have hp : (patch h o v).length = lbaSize := by rw [length_patch (by omega), hl]
  have hcomm : ∀ y, patch (put4Bytes h headerCrcOffset y) o v =
      put4Bytes (patch h o v) headerCrcOffset y := by
    intro y
    have hoff : headerCrcOffset + 4 ≤ lbaSize := by decide
    exact patch_comm (by rw [length_toLE]; omega) (by omega) (by rw [length_toLE]; omega)
  rw [updateHeaderCrc_eq hl, hcomm, updateHeaderCrc_eq (length_put4Bytes hp _ (by decide)),
    updateHeaderCrc_eq hp, headerCrc_put hp, put4Bytes_put4Bytes hp (by decide)]

theorem headerState_updateHeaderCrc (hl : h.length = lbaSize) :
    headerState crc (updateHeaderCrc crc h) =
      if h.take gptSignature.length ≠ gptSignature then .gptBadSignature else .gptOk := by
  have hlt : headerCrc crc h < 2 ^ 32 := UInt32.toNat_lt _
  have htake : ∀ b : Bytes, b.take gptSignature.length = slice b 0 9 := fun b => by
    rw [length_gptSignature]; rfl
  rw [updateHeaderCrc_eq hl, headerState, headerCrc_put hl, get4Bytes_put4Bytes hl (by decide),
    Nat.mod_eq_of_lt hlt, if_neg (not_not_intro rfl), htake, htake,
    slice_put4Bytes hl (by decide) (by decide)]

/-! ### The signature -/

/-- The first bytes of a header in normal form are the signature exactly when it is intact. -/
theorem signHeader_take (hl : h.length = lbaSize) (sig : Bool) :
    (signHeader sig h).take gptSignature.length = gptSignature ↔ sig = true := by
  cases sig with
  | true =>
    have hs : slice (patch h 0 gptSignature) 0 gptSignature.length = gptSignature :=
      slice_patch_same (by rw [hl, length_gptSignature]; decide)
    exact ⟨fun _ => rfl, fun _ => hs⟩
  | false =>
    have hcons : ∃ t, signHeader false h = 0 :: t := ⟨_, rfl⟩
    obtain ⟨t, ht⟩ := hcons
    rw [ht, length_gptSignature, List.take_succ_cons]
    refine ⟨fun hc => ?_, nofun⟩
    have hhead : some (0 : UInt8) = gptSignature.head? := congrArg List.head? hc
    exact absurd hhead (by decide)

theorem headerState_sealHeader (hl : h.length = lbaSize) (sig : Bool) (c : ℕ) :
    headerState crc (sealHeader crc h sig c) = if sig then .gptOk else .gptBadSignature := by
  have hs := length_signHeader hl sig
  have htake : (put4Bytes (signHeader sig h) partitionCrcOffset c).take gptSignature.length =
      (signHeader sig h).take gptSignature.length := by
    have hfield : slice (put4Bytes (signHeader sig h) partitionCrcOffset c) 0 9 =
        slice (signHeader sig h) 0 9 := slice_put4Bytes hs (by decide) (by decide)
    rw [length_gptSignature]
    exact hfield
  rw [sealHeader, headerState_updateHeaderCrc (length_put4Bytes hs _ (by decide)), htake]
  simp only [ne_eq, signHeader_take hl, ite_not]

theorem signHeader_signHeader (hl : h.length = lbaSize)
    (hsig : h.take gptSignature.length = gptSignature) (sig sig' : Bool) :
    signHeader sig' (signHeader sig h) = signHeader sig' h := by
  have h512 : lbaSize = 512 := rfl
  have hself : signHeader true h = h :=
    patch_eq_self (by rw [if_pos rfl, length_gptSignature]; omega) hsig
  cases sig with
  | true => rw [hself]
  | false =>
    have h9 := length_signature_le sig'
    -- the cleared byte is part of what the new signature overwrites
    have hpos : 0 < (if sig' then gptSignature else ([0] : Bytes)).length := by
      cases sig' <;> decide
    have hone : ([0] : Bytes).length = 1 := rfl
    have h1 : 0 + ([0] : Bytes).length ≤ h.length := by omega
    have hn := length_patch h1
    simp only [signHeader, Bool.false_eq_true, ↓reduceIte]
    generalize (if sig' then gptSignature else ([0] : Bytes)) = v at h9 hpos ⊢
    refine List.ext_getElem? fun i => ?_
    rw [getElem?_patch (by omega), getElem?_patch h1, getElem?_patch (by omega),
      hone]
    split_ifs <;> first | rfl | omega

theorem sealHeader_eq_self (hl : h.length = lbaSize) (hok : headerState crc h = .gptOk) :
    sealHeader crc h true (get4Bytes h partitionCrcOffset) = h := by
  have h512 : lbaSize = 512 := rfl
  unfold headerState at hok
  split_ifs at hok with hcrc hsig
  have hself : signHeader true h = h :=
    patch_eq_self (by rw [if_pos rfl, length_gptSignature]; omega) (not_not.1 hsig)
  rw [sealHeader, hself, put4Bytes_get4Bytes hl (by decide), updateHeaderCrc_eq hl,
    not_not.1 hcrc, put4Bytes_get4Bytes hl (by decide)]

/-! ### The two writers -/

/-- The state `gpt_set_state` is asked for. -/
def sigState (sig : Bool) : GptState := if sig then .gptOk else .gptBadSignature

theorem setSignature_sigState (sig : Bool) (h : Bytes) :
    setSignature (sigState sig) h = some (signHeader sig h) := by
  cases sig <;> rfl

/-- What `gpt_set_state` writes over a header in normal form. -/
theorem updateHeaderCrc_setSignature (hl : h.length = lbaSize)
    (hsig : h.take gptSignature.length = gptSignature) (sig sig' : Bool) (c : ℕ) :
    updateHeaderCrc crc (signHeader sig' (sealHeader crc h sig c)) = sealHeader crc h sig' c := by
  have h512 : lbaSize = 512 := rfl
  have hoff : partitionCrcOffset = 88 := rfl
  have hcoff : headerCrcOffset = 16 := rfl
  have h9 := length_signature_le sig'
  have hs := length_signHeader hl sig
  have hp : (put4Bytes (signHeader sig h) partitionCrcOffset c).length = lbaSize :=
    length_put4Bytes hs c (by decide)
  have hcomm : signHeader sig' (put4Bytes (signHeader sig h) partitionCrcOffset c) =
      put4Bytes (signHeader sig' (signHeader sig h)) partitionCrcOffset c :=
    patch_comm (by rw [length_toLE]; omega) (by omega) (by omega)
  rw [sealHeader, signHeader, updateHeaderCrc_patch hp (by omega) (by omega), ← signHeader, hcomm,
    signHeader_signHeader hl hsig, sealHeader]

/-- What `gpt2_set_boot_chain` writes over a header in normal form. -/
theorem setPartitionCrc_sealHeader (hl : h.length = lbaSize) (sig : Bool) (c : ℕ)
    (pentries : Bytes) :
    setPartitionCrc crc (sealHeader crc h sig c) pentries =
      sealHeader crc h sig (crc pentries).toNat := by
  have hs := length_signHeader hl sig
  have hp : (put4Bytes (signHeader sig h) partitionCrcOffset c).length = lbaSize :=
    length_put4Bytes hs c (by decide)
  rw [setPartitionCrc, sealHeader, put4Bytes,
    updateHeaderCrc_patch hp (by rw [length_toLE]; decide) (by rw [length_toLE]; decide),
    ← put4Bytes, put4Bytes_put4Bytes hs (by decide), sealHeader]

end Gpt

end Msm8909w
