import Msm8909w.Gpt.GptUtils

/-!
# What the functions of `gpt-utils.cpp` do on a working device

On an ideal device (`Env.Ideal`) each function of `Msm8909w.Gpt.GptUtils` is specified once, as
a crash specification over the disk contents: what it returns, which disk it leaves, and which
disks a crash can leave on the way.  Later proofs use these specifications only:

* `gptGetState_spec`, `gptSetState_spec`,
* `gpt2SetBootChain_spec` : the header is written before the entries,
* `prepareBootUpdate_spec` : the stage is decided from the two header states.
-/

namespace Msm8909w

namespace Gpt

open Prog

/-- The offset of a GPT header on a disk. -/
def headerPos (gpt : GptInstance) (d : Bytes) : ℕ :=
  match gpt with
  | .primaryGpt => lbaSize
  | .secondaryGpt => d.length - lbaSize

/-- The header of a GPT copy. -/
def header (gpt : GptInstance) (d : Bytes) : Bytes := slice d (headerPos gpt d) lbaSize

/-- The offset of the entry array of a GPT copy. -/
def entriesPos (gpt : GptInstance) (d : Bytes) : ℕ := pentriesStartOffset (header gpt d)

/-- The entry array of a GPT copy. -/
def entries (gpt : GptInstance) (d : Bytes) : Bytes :=
  slice d (entriesPos gpt d) (pentriesArraySize (header gpt d))

/-- The disk after `gpt2_set_boot_chain` wrote the secondary header for the entries `E`. -/
def headerWritten (crc : Bytes → UInt32) (d E : Bytes) : Bytes :=
  patch d (headerPos .secondaryGpt d) (setPartitionCrc crc (header .secondaryGpt d) E)

/-- The disk after `gpt2_set_boot_chain` wrote the header and the entries `E`. -/
def chainWritten (crc : Bytes → UInt32) (d E : Bytes) : Bytes :=
  patch (headerWritten crc d E) (entriesPos .secondaryGpt d) E

/-- The disk after `gpt_set_state` wrote the header `h`. -/
def stateWritten (crc : Bytes → UInt32) (gpt : GptInstance) (d h : Bytes) : Bytes :=
  patch d (headerPos gpt d) (updateHeaderCrc crc h)

theorem headerPos_add_le {d : Bytes} (hd : 2 * lbaSize ≤ d.length) (gpt : GptInstance) :
    headerPos gpt d + lbaSize ≤ d.length := by
  cases gpt <;> simp only [headerPos] <;> omega

theorem length_header {d : Bytes} (hd : 2 * lbaSize ≤ d.length) (gpt : GptInstance) :
    (header gpt d).length = lbaSize :=
  length_slice (headerPos_add_le hd gpt)

theorem toInt32_of_lt {n : ℕ} (h : n < 2 ^ 31) : toInt32 n = n := by
  rw [toInt32, Nat.mod_eq_of_lt (by omega), if_pos h]

theorem toInt32_neg {n : ℕ} (h : 2 ^ 31 ≤ n) (h' : n < 2 ^ 32) : toInt32 n < 0 := by
  rw [toInt32, Nat.mod_eq_of_lt h', if_neg (by omega)]
  omega

theorem xferCode_of_lt {n : ℕ} (h : n < 2 ^ 31) : xferCode n = 0 := by
  rw [xferCode, toInt32_of_lt h, if_neg (by omega)]

theorem xferCode_neg {n : ℕ} (h : 2 ^ 31 ≤ n) (h' : n < 2 ^ 32) : xferCode n < 0 := by
  rw [xferCode, if_pos (toInt32_neg h h')]
  exact toInt32_neg h h'

theorem toInt64_of_lt {n : ℕ} (h : n < 2 ^ 63) : toInt64 n = n := by
  rw [toInt64, Nat.mod_eq_of_lt (by omega), if_pos h]

section Ideal

variable {env : Env} {d : Bytes} {I : Bytes → Prop} (hi : env.Ideal)

/-! ### The calls -/

theorem stackArray_spec {n : ℕ} {Q : Bytes → Bytes → Prop} (hI : I d)
    (hQ : ∀ buf : Bytes, buf.length = n → Q buf d) :
    (stackArray n).Spec (dev env) Dev.disk d I Q := by
  refine spec_cmd (P := fun buf d' => buf.length = n ∧ d = d') hI ?_ ?_
  · rintro s rfl
    exact ⟨by simp [dev, Dev.exec], rfl⟩
  · rintro buf d' ⟨hl, rfl⟩
    exact spec_ret hI (hQ buf hl)

include hi

theorem lseekEnd_spec {Q : ℤ → Bytes → Prop} (hI : I d) (hQ : Q d.length d) :
    lseekEnd.Spec (dev env) Dev.disk d I Q := by
  refine spec_cmd (P := fun r d' => r = (d.length : ℤ) ∧ d = d') hI ?_ ?_
  · rintro s rfl
    simp [dev, Dev.exec, Dev.seekEnd, hi.seekOk]
  · rintro r d' ⟨rfl, rfl⟩
    exact spec_ret hI hQ

theorem calloc_spec {n : ℕ} {Q : Bool → Bytes → Prop} (hI : I d) (hQ : Q true d) :
    (calloc n).Spec (dev env) Dev.disk d I Q := by
  refine spec_cmd (P := fun r d' => r = true ∧ d = d') hI ?_ ?_
  · rintro s rfl
    exact ⟨hi.callocOk, rfl⟩
  · rintro r d' ⟨rfl, rfl⟩
    exact spec_ret hI hQ

theorem exec_seekSet (s : Dev) (off : ℕ) :
    (dev env).exec s (.seekSet off) = (true, { s with pos := off, clock := s.clock + 1 }) := by
  simp [dev, Dev.exec, Dev.seekSet, hi.seekOk]

theorem exec_read (s : Dev) (len : ℕ) :
    (dev env).exec s (.read len) = (some (slice s.disk s.pos len), { s with
      pos := s.pos + (slice s.disk s.pos len).length
      log := s.log ++ [.read s.pos len (some (slice s.disk s.pos len).length)]
      clock := s.clock + 1 }) := by
  simp [dev, Dev.exec, Dev.read, hi.xfer]

theorem exec_write (s : Dev) (buf : Bytes) (h : s.pos + buf.length ≤ s.disk.length) :
    (dev env).exec s (.write buf) = (some buf.length, {
      disk := patch s.disk s.pos buf
      pos := s.pos + buf.length
      log := s.log ++ [.write s.pos buf (some buf.length)]
      clock := s.clock + 1 }) := by
  have htake : buf.take (s.disk.length - s.pos) = buf := List.take_of_length_le (by omega)
  simp [dev, Dev.exec, Dev.write, hi.xfer, htake]

/-- A read at `off`: the buffer holds the bytes of the disk, and the result is `0` unless the
count does not fit an `int`. -/
theorem blkRw_read_spec {off : ℕ} {buf : Bytes} {Q : ℤ × Bytes → Bytes → Prop} (hI : I d)
    (hin : off + buf.length ≤ d.length)
    (hQ : Q (xferCode buf.length, slice d off buf.length) d) :
    (blkRw false off buf).Spec (dev env) Dev.disk d I Q := by
  rintro s rfl
  have hlen : (slice s.disk off buf.length).length = buf.length := length_slice hin
  have hprog : blkRw false off buf = .cmd (.seekSet off) fun ok =>
      if !ok then .ret (-1, buf) else .cmd (.read buf.length) fun r => .ret (readResult buf r) :=
    rfl
  rw [hprog]
  simp only [run, visits, exec_seekSet hi, exec_read hi, readResult, Bool.not_true,
    Bool.false_eq_true, ↓reduceIte, hlen, List.drop_length, List.append_nil, List.mem_cons,
    List.not_mem_nil, or_false, forall_eq_or_imp, forall_eq]
  exact ⟨⟨hI, hI, hI⟩, hQ⟩

/-- A write at `off`. -/
theorem blkRw_write_spec (off : ℕ) (buf : Bytes) {Q : ℤ × Bytes → Bytes → Prop} (hI : I d)
    (hin : off + buf.length ≤ d.length) (hI' : I (patch d off buf))
    (hQ : Q (xferCode buf.length, buf) (patch d off buf)) :
    (blkRw true off buf).Spec (dev env) Dev.disk d I Q := by
  rintro s rfl
  have hprog : blkRw true off buf = .cmd (.seekSet off) fun ok =>
      if !ok then .ret (-1, buf) else .cmd (.write buf) fun r => .ret (writeResult buf r) := rfl
  rw [hprog]
  simp only [run, visits, exec_seekSet hi, Bool.not_true, Bool.false_eq_true, ↓reduceIte]
  rw [exec_write hi _ _ hin]
  simp only [writeResult, List.mem_cons, List.not_mem_nil, or_false, forall_eq_or_imp, forall_eq]
  exact ⟨⟨hI, hI, hI'⟩, hQ⟩

/-! ### The functions -/

section Functions

variable {crc : Bytes → UInt32} (hd : 2 * lbaSize ≤ d.length)

include hd

theorem gptHeaderOffset_spec {gpt : GptInstance} {Q : Option ℤ → Bytes → Prop} (hI : I d)
    (hQ : Q (some (headerPos gpt d)) d) :
    (gptHeaderOffset gpt).Spec (dev env) Dev.disk d I Q := by
  cases gpt with
  | primaryGpt => exact spec_ret hI hQ
  | secondaryGpt =>
    refine spec_bind (lseekEnd_spec hi (Q := fun r d' => r = (d.length : ℤ) ∧ d = d') hI
      ⟨rfl, rfl⟩) ?_
    rintro _ _ ⟨rfl, rfl⟩
    refine spec_ret hI ?_
    have hcast : (d.length : ℤ) - (lbaSize : ℤ) = ((d.length - lbaSize : ℕ) : ℤ) := by omega
    rw [hcast, if_neg (by omega)]
    exact hQ

/-- Reading a header into a local buffer. -/
theorem readHeader_spec (gpt : GptInstance) {buf : Bytes} {Q : ℤ × Bytes → Bytes → Prop}
    (hl : buf.length = lbaSize) (hI : I d) (hQ : Q (0, header gpt d) d) :
    (blkRw false (headerPos gpt d) buf).Spec (dev env) Dev.disk d I Q := by
  refine blkRw_read_spec hi hI (by rw [hl]; exact headerPos_add_le hd gpt) ?_
  rw [hl, xferCode_of_lt (by decide)]
  exact hQ

theorem gptGetState_spec {gpt : GptInstance} {Q : Option GptState → Bytes → Prop} (hI : I d)
    (hQ : Q (some (headerState crc (header gpt d))) d) :
    (gptGetState crc gpt).Spec (dev env) Dev.disk d I Q := by
  refine spec_bind (stackArray_spec (Q := fun buf d' => buf.length = lbaSize ∧ d = d') hI
    fun _ h => ⟨h, rfl⟩) ?_
  rintro buf _ ⟨hl, rfl⟩
  refine spec_bind (gptHeaderOffset_spec hi hd hI
    (Q := fun o d' => o = some (headerPos gpt d : ℤ) ∧ d = d') ⟨rfl, rfl⟩) ?_
  rintro _ _ ⟨rfl, rfl⟩
  refine spec_bind (readHeader_spec hi hd gpt hl hI
    (Q := fun p d' => p = (0, header gpt d) ∧ d = d') ⟨rfl, rfl⟩) ?_
  rintro _ _ ⟨rfl, rfl⟩
  exact spec_ret hI hQ

/-- `gpt_set_state` makes one write. -/
theorem gptSetState_spec {gpt : GptInstance} {state : GptState} {h : Bytes}
    {Q : ℤ → Bytes → Prop} (hs : setSignature state (header gpt d) = some h)
    (hl : (updateHeaderCrc crc h).length = lbaSize) (hI : I d)
    (hI' : I (stateWritten crc gpt d h)) (hQ : Q 0 (stateWritten crc gpt d h)) :
    (gptSetState crc gpt state).Spec (dev env) Dev.disk d I Q := by
  refine spec_bind (stackArray_spec (Q := fun buf d' => buf.length = lbaSize ∧ d = d') hI
    fun _ h => ⟨h, rfl⟩) ?_
  rintro buf _ ⟨hbuf, rfl⟩
  refine spec_bind (gptHeaderOffset_spec hi hd hI
    (Q := fun o d' => o = some (headerPos gpt d : ℤ) ∧ d = d') ⟨rfl, rfl⟩) ?_
  rintro _ _ ⟨rfl, rfl⟩
  refine spec_bind (readHeader_spec hi hd gpt hbuf hI
    (Q := fun p d' => p = (0, header gpt d) ∧ d = d') ⟨rfl, rfl⟩) ?_
  rintro _ _ ⟨rfl, rfl⟩
  simp only [ne_eq, not_true_eq_false, ↓reduceIte, hs]
  have hin := headerPos_add_le hd gpt
  refine spec_bind (blkRw_write_spec hi (headerPos gpt d) (updateHeaderCrc crc h)
    (Q := fun p d' => p.1 = 0 ∧ stateWritten crc gpt d h = d') hI
    (by rwa [hl]) hI' ⟨by rw [hl]; exact xferCode_of_lt (n := lbaSize) (by decide), rfl⟩) ?_
  rintro ⟨r, _⟩ _ ⟨rfl, rfl⟩
  exact spec_ret hI' hQ

/-- `gpt2_set_boot_chain` refuses (an entry array that does not fit an `int`, a wrong CRC, no
backup partitions) without a write, or writes the secondary header and then its entries. -/
theorem gpt2SetBootChain_spec {boot : BootChain} {Q : ℤ → Bytes → Prop}
    (hsz : d.length < 2 ^ 63)
    (hent : entriesPos .primaryGpt d + pentriesArraySize (header .primaryGpt d) ≤ d.length)
    (hI : I d)
    (hbig : 2 ^ 31 ≤ pentriesArraySize (header .primaryGpt d) → ∀ r < 0, Q r d)
    (hcrc : get4Bytes (header .primaryGpt d) partitionCrcOffset ≠
      (crc (entries .primaryGpt d)).toNat → Q (-1) d)
    (hnone : ∀ r E', chainEntries boot (entries .primaryGpt d)
      (pentrySize (header .primaryGpt d)) = (r, E') → r ≠ 0 → Q r d)
    (hsome : ∀ E', pentriesArraySize (header .primaryGpt d) < 2 ^ 31 →
      get4Bytes (header .primaryGpt d) partitionCrcOffset = (crc (entries .primaryGpt d)).toNat →
      chainEntries boot (entries .primaryGpt d) (pentrySize (header .primaryGpt d)) = (0, E') →
      E'.length = pentriesArraySize (header .primaryGpt d) ∧
        (setPartitionCrc crc (header .secondaryGpt d) E').length = lbaSize ∧
        entriesPos .secondaryGpt d + pentriesArraySize (header .primaryGpt d) ≤ d.length ∧
        I (headerWritten crc d E') ∧ I (chainWritten crc d E') ∧ Q 0 (chainWritten crc d E')) :
    (gpt2SetBootChain crc boot).Spec (dev env) Dev.disk d I Q := by
  have hpos2 : (d.length : ℤ) - (lbaSize : ℤ) = (headerPos .secondaryGpt d : ℕ) := by
    simp only [headerPos]; omega
  refine spec_bind (stackArray_spec (Q := fun buf d' => buf.length = lbaSize ∧ d = d') hI
    fun _ h => ⟨h, rfl⟩) ?_
  rintro buf _ ⟨hbuf, rfl⟩
  refine spec_bind (lseekEnd_spec hi (Q := fun r d' => (d.length : ℤ) = r ∧ d = d') hI
    ⟨rfl, rfl⟩) ?_
  rintro _ _ ⟨rfl, rfl⟩
  simp only [hpos2, if_neg (show ¬ ((headerPos .secondaryGpt d : ℕ) : ℤ) < 0 by omega)]
  -- the primary header
  refine spec_bind (readHeader_spec hi hd .primaryGpt hbuf hI
    (Q := fun p d' => p = (0, header .primaryGpt d) ∧ d = d') ⟨rfl, rfl⟩) ?_
  rintro _ _ ⟨rfl, rfl⟩
  simp only [ne_eq, not_true_eq_false, ↓reduceIte]
  refine spec_bind (calloc_spec hi (Q := fun r d' => r = true ∧ d = d') hI ⟨rfl, rfl⟩) ?_
  rintro _ _ ⟨rfl, rfl⟩
  simp only [Bool.not_true, Bool.false_eq_true, ↓reduceIte]
  -- its entries
  have hoff : toInt64 (pentriesStartOffset (header .primaryGpt d)) =
      (entriesPos .primaryGpt d : ℕ) := toInt64_of_lt (by unfold entriesPos at hent; omega)
  rw [hoff]
  refine spec_bind (blkRw_read_spec hi (Q := fun p d' =>
    p = (xferCode (pentriesArraySize (header .primaryGpt d)), entries .primaryGpt d) ∧ d = d') hI
    (by rwa [List.length_replicate]) ⟨by rw [List.length_replicate]; rfl, rfl⟩) ?_
  rintro _ _ ⟨rfl, rfl⟩
  have hlt32 : pentriesArraySize (header .primaryGpt d) < 2 ^ 32 := Nat.mod_lt _ (by decide)
  by_cases hn : 2 ^ 31 ≤ pentriesArraySize (header .primaryGpt d)
  · have hneg := xferCode_neg hn hlt32
    simp only [show ¬ xferCode (pentriesArraySize (header .primaryGpt d)) = 0 by omega,
      not_false_eq_true, ↓reduceIte]
    exact spec_ret hI (hbig hn _ hneg)
  simp only [xferCode_of_lt (Nat.lt_of_not_le hn), not_true_eq_false, ↓reduceIte]
  by_cases hc : get4Bytes (header .primaryGpt d) partitionCrcOffset =
      (crc (entries .primaryGpt d)).toNat
  swap
  · rw [if_pos hc]
    exact spec_ret hI (hcrc hc)
  rw [if_neg (not_not_intro hc)]
  -- the secondary header
  refine spec_bind (readHeader_spec hi hd .secondaryGpt (length_header hd _) hI
    (Q := fun p d' => p = (0, header .secondaryGpt d) ∧ d = d') ⟨rfl, rfl⟩) ?_
  rintro _ _ ⟨rfl, rfl⟩
  simp only [not_true_eq_false, ↓reduceIte]
  rcases hch : chainEntries boot (entries .primaryGpt d) (pentrySize (header .primaryGpt d)) with
    ⟨r, E'⟩
  by_cases hr : r = 0
  swap
  · simp only [hr, not_false_eq_true, ↓reduceIte]
    exact spec_ret hI (hnone r E' hch hr)
  subst hr
  simp only [not_true_eq_false, ↓reduceIte]
  obtain ⟨hE, hh, hin, hI₁, hI₂, hQ⟩ := hsome E' (Nat.lt_of_not_le hn) hc hch
  have hbound := headerPos_add_le hd .secondaryGpt
  have hcode : xferCode (setPartitionCrc crc (header .secondaryGpt d) E').length = 0 := by
    rw [hh]; exact xferCode_of_lt (n := lbaSize) (by decide)
  refine spec_bind (blkRw_write_spec hi (headerPos .secondaryGpt d)
    (setPartitionCrc crc (header .secondaryGpt d) E')
    (Q := fun p d' => p.1 = 0 ∧ headerWritten crc d E' = d') hI
    (by rwa [hh]) hI₁ ⟨by rw [hcode], rfl⟩) ?_
  rintro ⟨r, _⟩ _ ⟨hr, rfl⟩
  change r = 0 at hr
  subst hr
  simp only [not_true_eq_false, ↓reduceIte]
  have hoff2 : toInt64 (pentriesStartOffset (header .secondaryGpt d)) =
      (entriesPos .secondaryGpt d : ℕ) := toInt64_of_lt (by unfold entriesPos at hin; omega)
  rw [hoff2]
  have hlen : (headerWritten crc d E').length = d.length := length_patch (by rwa [hh])
  refine spec_bind (blkRw_write_spec hi (entriesPos .secondaryGpt d) E'
    (Q := fun p d' => p.1 = 0 ∧ chainWritten crc d E' = d') hI₁
    (by rw [hlen, hE]; exact hin) hI₂
    ⟨by rw [hE]; exact xferCode_of_lt (Nat.lt_of_not_le hn), rfl⟩) ?_
  rintro ⟨r, _⟩ _ ⟨hr, rfl⟩
  change r = 0 at hr
  subst hr
  exact spec_ret hI₂ hQ

/-- `prepare_boot_update` decides from the two header states, and only then updates. -/
theorem prepareBootUpdate_spec {stage : BootUpdateStage} {Q : ℤ → Bytes → Prop} (hI : I d)
    (hset : ∀ internal, internalStage (headerState crc (header .primaryGpt d))
      (headerState crc (header .secondaryGpt d)) = some internal →
      stage.toInt = internal.toInt - 1 → Q 0 d)
    (hunfit : internalStage (headerState crc (header .primaryGpt d))
      (headerState crc (header .secondaryGpt d)) ≠ some stage →
      (∀ internal, internalStage (headerState crc (header .primaryGpt d))
        (headerState crc (header .secondaryGpt d)) = some internal →
        stage.toInt ≠ internal.toInt - 1) → Q (-1) d)
    (hfit : internalStage (headerState crc (header .primaryGpt d))
      (headerState crc (header .secondaryGpt d)) = some stage →
      (updateStage crc stage).Spec (dev env) Dev.disk d I Q) :
    (prepareBootUpdate crc stage).Spec (dev env) Dev.disk d I Q := by
  have hopen : openDev.Spec (dev env) Dev.disk d I fun r d' => r = true ∧ d = d' := by
    refine spec_cmd (P := fun r d' => r = true ∧ d = d') hI ?_ ?_
    · rintro s rfl; exact ⟨hi.openOk, rfl⟩
    · rintro _ _ ⟨rfl, rfl⟩; exact spec_ret hI ⟨rfl, rfl⟩
  have hclose : ∀ r d', I d' → Q r d' →
      (closeDev >>= fun _ => pure r : SysProg ℤ).Spec (dev env) Dev.disk d' I Q := by
    intro r d' hI' hQ'
    refine spec_cmd (P := fun _ d'' => d' = d'') hI' ?_ ?_
    · rintro s rfl; rfl
    · rintro _ _ rfl; exact spec_ret hI' hQ'
  refine spec_bind hopen ?_
  rintro _ _ ⟨rfl, rfl⟩
  simp only [Bool.not_true, Bool.false_eq_true, ↓reduceIte]
  refine spec_bind (Q := fun r d' => I d' ∧ Q r d') ?_ fun r d' h => hclose r d' h.1 h.2
  refine spec_bind (gptGetState_spec hi hd
    (Q := fun r d' => r = some (headerState crc (header .primaryGpt d)) ∧ d = d') hI
    ⟨rfl, rfl⟩) ?_
  rintro _ _ ⟨rfl, rfl⟩
  refine spec_bind (gptGetState_spec hi hd
    (Q := fun r d' => r = some (headerState crc (header .secondaryGpt d)) ∧ d = d') hI
    ⟨rfl, rfl⟩) ?_
  rintro _ _ ⟨rfl, rfl⟩
  simp only
  cases hst : internalStage (headerState crc (header .primaryGpt d))
      (headerState crc (header .secondaryGpt d)) with
  | none => exact spec_ret hI ⟨hI, hunfit (by rw [hst]; nofun) (by rw [hst]; nofun)⟩
  | some internal =>
    simp only
    split_ifs with h1 h2
    · exact spec_ret hI ⟨hI, hset internal hst h1⟩
    · refine spec_ret hI ⟨hI, hunfit ?_ ?_⟩
      · rw [hst]
        exact fun h => h2 (Option.some.inj h).symm
      · intro internal' h
        rw [hst] at h
        obtain rfl := Option.some.inj h
        exact h1
    · obtain rfl := not_not.1 h2
      exact (hfit hst).keep

end Functions

end Ideal

end Gpt

end Msm8909w
