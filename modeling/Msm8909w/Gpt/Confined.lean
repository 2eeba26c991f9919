import Msm8909w.Gpt.Inside
import Msm8909w.Gpt.Update

/-!
# GPT parsing inside its buffers

`gpt_get_state`, `gpt_set_state` and `gpt2_set_boot_chain` with the bytes they touch (`Touch`): of
the header buffer, those that the header CRC covers, and of the array of entries those that the
swap of the boot chain touches.  The size of the header is taken from the header itself and not
checked, and the last name of the array may cross its end.

* `confined_iff` : a call stays inside its buffers exactly if the size field of the header whose
  CRC it calculates is at most 512 and, in a swap, every name is guarded in its round,
* `Call.Confined.gpt2SetBootChain_run` : a confined call is the call of the model without touches.
-/

namespace Msm8909w

namespace Gpt

open Prog

/-- A byte that is touched: byte `i` of a header buffer, or byte `i` of an array of entries of
`len` bytes. -/
inductive Touch where
  | header (i : ℕ)
  | entry (len i : ℕ)

/-- The byte lies inside its buffer. -/
def Touch.Inside : Touch → Prop
  | header i => i < lbaSize
  | entry len i => i < len

instance (t : Touch) : Decidable t.Inside := by cases t <;> unfold Touch.Inside <;> infer_instance

variable (crc : Bytes → UInt32)

/-! ### The calls with what they touch -/

/-- The bytes `sparse_crc32(0, gpt_header, gpt_header_size)` covers. -/
def crcTouches (header : Bytes) : List Touch :=
  (List.range (get4Bytes header headerSizeOffset)).map .header

/-- The header that `gpt_get_state` and `gpt_set_state` read, with its offset. -/
def readGptHeader (gpt : GptInstance) : SysProg (Option (ℤ × Bytes)) := do
  let buf ← stackArray lbaSize
  match ← gptHeaderOffset gpt with
  | none => return none
  | some offset =>
    let (r, header) ← blkRw false offset buf
    if r ≠ 0 then return none else return some (offset, header)

/-- `gpt_get_state`. -/
def gptGetStateTouch (gpt : GptInstance) : SysProg (Option GptState × List Touch) := do
  match ← readGptHeader gpt with
  | none => return (none, [])
  | some (_, header) => return (some (headerState crc header), crcTouches header)

/-- `gpt_set_state`. -/
def gptSetStateTouch (gpt : GptInstance) (state : GptState) : SysProg (ℤ × List Touch) := do
  match ← readGptHeader gpt with
  | none => return (-1, [])
  | some (offset, header) =>
    match setSignature state header with
    | none => return (-1, [])
    | some header =>
      let (r, _) ← blkRw true offset (updateHeaderCrc crc header)
      return (if r ≠ 0 then -1 else 0, crcTouches header)

/-- What `gpt2_set_boot_chain` has read before it comes to the swap. -/
structure Chain where
  gpt2HeaderOffset : ℤ
  /-- The primary header. -/
  header : Bytes
  pentries : Bytes
  /-- The secondary header. -/
  header2 : Bytes

/-- The first part of `gpt2_set_boot_chain`: the result if it ends there, else what it has read. -/
def readChain : SysProg (ℤ ⊕ Chain) := do
  let buf ← stackArray lbaSize
  let size ← lseekEnd
  let gpt2HeaderOffset := size - lbaSize
  if gpt2HeaderOffset < 0 then return .inl (-1)
  else
    let (r, header) ← blkRw false lbaSize buf
    if r ≠ 0 then return .inl r
    else
      let ok ← calloc (pentriesArraySize header)
      if !ok then return .inl (-1)
      else
        let (r, pentries) ← blkRw false (toInt64 (pentriesStartOffset header))
          (List.replicate (pentriesArraySize header) 0)
        if r ≠ 0 then return .inl r
        else if get4Bytes header partitionCrcOffset ≠ (crc pentries).toNat then return .inl (-1)
        else
          let (r, header2) ← blkRw false gpt2HeaderOffset header
          if r ≠ 0 then return .inl r
          else return .inr ⟨gpt2HeaderOffset, header, pentries, header2⟩

/-- The memory with the array of entries and `behind` behind it. -/
def entriesMemory (pentries : Bytes) (behind : Buffer UInt8) : Buffer UInt8 :=
  fun i => pentries.getD i (behind i)

/-- The entries `gpt2_set_boot_chain` writes, with the result of the swap and what it touches. -/
def chainEntriesTouch (boot : BootChain) (c : Chain) (behind : Buffer UInt8) :
    ℤ × Bytes × List Touch :=
  match boot with
  | .normalBoot => (0, c.pentries, [])
  | .backupBoot =>
    let m := entriesMemory c.pentries behind
    let len := pentriesArraySize c.header
    let swap := gptBootChainSwapMem len (pentrySize c.header)
    ((swap.run (memory UInt8) m).1, (swap.run (memory UInt8) m).2.get 0 len,
      (swap.issued (memory UInt8) m).map fun a => .entry len a.addr)

/-- `gpt2_set_boot_chain`. -/
def gpt2SetBootChainTouch (boot : BootChain) (behind : Buffer UInt8) :
    SysProg (ℤ × List Touch) := do
  match ← readChain crc with
  | .inl r => return (r, [])
  | .inr c =>
    let (r, pentries, touched) := chainEntriesTouch boot c behind
    if r ≠ 0 then return (r, touched)
    else
      let (r, _) ← blkRw true c.gpt2HeaderOffset (setPartitionCrc crc c.header2 pentries)
      if r ≠ 0 then return (r, touched ++ crcTouches c.header2)
      else
        let (r, _) ← blkRw true (toInt64 (pentriesStartOffset c.header2)) pentries
        return (r, touched ++ crcTouches c.header2)

/-- A call. -/
inductive Call where
  | getState (gpt : GptInstance)
  | setState (gpt : GptInstance) (state : GptState)
  | setBootChain (boot : BootChain)

/-- What a call touches. -/
def Call.touches (behind : Buffer UInt8) (env : Env) (s : Dev) : Call → List Touch
  | getState gpt => ((gptGetStateTouch crc gpt).run (dev env) s).1.2
  | setState gpt state => ((gptSetStateTouch crc gpt state).run (dev env) s).1.2
  | setBootChain boot => ((gpt2SetBootChainTouch crc boot behind).run (dev env) s).1.2

/-- A call only touches bytes inside its buffers. -/
def Call.Confined (behind : Buffer UInt8) (env : Env) (s : Dev) (c : Call) : Prop :=
  ∀ t ∈ c.touches crc behind env s, t.Inside

/-! ### When a call is confined -/

/-- The size of the header is at most that of its buffer. -/
def SizeFits (header : Bytes) : Prop := get4Bytes header headerSizeOffset ≤ lbaSize

/-- Of the header a call reads, the size fits if the call calculates its CRC; a swap finds its
names guarded. -/
def Call.WellFormed (env : Env) (s : Dev) : Call → Prop
  | getState gpt => ∀ offset header,
      ((readGptHeader gpt).run (dev env) s).1 = some (offset, header) → SizeFits header
  | setState gpt state => ∀ offset header,
      ((readGptHeader gpt).run (dev env) s).1 = some (offset, header) →
        state ≠ .gptBadCrc → SizeFits header
  | setBootChain .normalBoot => ∀ c,
      ((readChain crc).run (dev env) s).1 = .inr c → SizeFits c.header2
  | setBootChain .backupBoot => ∀ c, ((readChain crc).run (dev env) s).1 = .inr c →
      RoundsGuarded (pentrySize c.header) ptnSwapList (1, c.pentries) ∧
        ((∃ n ∈ ptnSwapList, (findPair c.pentries (pentrySize c.header) n).isSome) →
          SizeFits c.header2)

variable {crc} {env : Env} {s : Dev} {behind : Buffer UInt8} {header header' : Bytes}

/-! ### What has been read -/

theorem length_read_le {n : ℕ} {bs : Bytes} (h : (s.read env n).1 = some bs) : bs.length ≤ n := by
  rw [Dev.read] at h
  split at h
  · cases h
  · cases h
    exact length_slice_le.trans (Nat.min_le_right _ _)

/-- A buffer keeps its length. -/
theorem length_blkRw (env : Env) (offset : ℤ) (buf : Bytes) (s : Dev) :
    ((blkRw false offset buf).run (dev env) s).1.2.length = buf.length := by
  rw [blkRw, run_bind]
  cases ((lseekSet offset).run (dev env) s).1 with
  | false => rfl
  | true =>
    simp only [Bool.not_true, Bool.false_eq_true, ↓reduceIte]
    rw [run_bind, run_pure]
    change (readResult buf (Dev.read env _ buf.length).1).2.length = buf.length
    cases hread : (Dev.read env ((lseekSet offset).run (dev env) s).2 buf.length).1 with
    | none => rfl
    | some bs =>
      have hle := length_read_le hread
      rw [readResult, List.length_append, List.length_drop]
      omega

theorem length_stackArray (env : Env) (n : ℕ) (s : Dev) :
    ((stackArray n).run (dev env) s).1.length = n := by
  change ((List.range n).map (env.junk s.clock)).length = n
  rw [List.length_map, List.length_range]

theorem length_readGptHeader {gpt : GptInstance} {offset : ℤ}
    (h : ((readGptHeader gpt).run (dev env) s).1 = some (offset, header)) :
    header.length = lbaSize := by
  rw [readGptHeader, run_bind, run_bind] at h
  have hbuf := length_stackArray env lbaSize s
  revert h
  cases ((gptHeaderOffset gpt).run (dev env) ((stackArray lbaSize).run (dev env) s).2).1 with
  | none => exact fun h => by cases h
  | some off =>
    dsimp only
    rw [run_bind]
    have hlen := length_blkRw env off ((stackArray lbaSize).run (dev env) s).1
      ((gptHeaderOffset gpt).run (dev env) ((stackArray lbaSize).run (dev env) s).2).2
    intro h
    split at h
    · cases h
    · cases h
      rw [hlen, hbuf]

theorem length_pentries_of_readChain {c : Chain}
    (h : ((readChain crc).run (dev env) s).1 = .inr c) : c.pentries.length = pentriesArraySize c.header := by
  rw [readChain, run_bind, run_bind] at h
  dsimp only at h
  split at h
  · cases h
  rw [run_bind] at h
  split at h
  · cases h
  rw [run_bind] at h
  split at h
  · cases h
  rw [run_bind] at h
  split at h
  · cases h
  split at h
  · cases h
  rw [run_bind] at h
  split at h
  · cases h
  · cases h
    dsimp only
    rw [length_blkRw, List.length_replicate]

/-- Entries of size zero make the array empty. -/
theorem pentrySize_pos (h : pentriesArraySize header ≠ 0) : 0 < pentrySize header := by
  refine Nat.pos_of_ne_zero fun h0 => h ?_
  rw [pentriesArraySize, h0, Nat.mul_zero, Nat.zero_mod]

/-! ### What is touched -/

theorem inside_crcTouches_iff : (∀ t ∈ crcTouches header, t.Inside) ↔ SizeFits header := by
  rw [crcTouches, List.forall_mem_map, SizeFits]
  simp only [List.mem_range, Touch.Inside]
  exact ⟨fun h => Nat.le_of_not_lt fun hlt => Nat.lt_irrefl _ (h _ hlt),
    fun h i hi => hi.trans_le h⟩

/-- `gpt_set_state` does not change the size of the header. -/
theorem sizeFits_setSignature {state : GptState} (hl : header.length = lbaSize)
    (h : setSignature state header = some header') : SizeFits header' ↔ SizeFits header := by
  have hsize : ∀ v : Bytes, v.length ≤ 9 →
      get4Bytes (patch header 0 v) headerSizeOffset = get4Bytes header headerSizeOffset := by
    intro v hv
    have h512 : lbaSize = 512 := rfl
    have h12 : headerSizeOffset = 12 := rfl
    rw [get4Bytes, get4Bytes, slice_patch_of_disjoint (by omega) (by omega)]
  cases state with
  | gptOk =>
    cases h
    rw [SizeFits, SizeFits, hsize _ length_gptSignature.le]
  | gptBadSignature =>
    cases h
    rw [SizeFits, SizeFits, hsize [0] (by decide)]
  | gptBadCrc => cases h

theorem holds_entriesMemory (pentries : Bytes) (behind : Buffer UInt8) :
    (entriesMemory pentries behind).Holds pentries := by
  intro i hi
  rw [entriesMemory, List.getD_eq_getElem _ _ hi, List.getElem?_eq_getElem hi]

/-- The code of the swap is `0` once a pair was found. -/
theorem foldl_swapRound_code_eq_zero_iff {size : ℕ} (names : List Bytes) (code : ℤ)
    (pentries : Bytes) : (names.foldl (swapRound size) (code, pentries)).1 = 0 ↔
      code = 0 ∨ ∃ n ∈ names, (findPair pentries size n).isSome := by
  induction names generalizing code pentries with
  | nil => simp
  | cons n names ih =>
    rw [List.foldl_cons]
    cases hp : findPair pentries size n with
    | none =>
      have hround : swapRound size (code, pentries) n = (code, pentries) := by
        simp only [swapRound, hp]
      simp [hround, ih, hp]
    | some ab =>
      have hround : swapRound size (code, pentries) n =
          (0, swapTypeGuids pentries ab.1 ab.2) := by
        simp only [swapRound, hp]
      simp [hround, ih, hp]

section Chain

variable {c : Chain} (hlen : c.pentries.length = pentriesArraySize c.header)

include hlen

/-- The swap touches the array exactly as `gptBootChainSwapMem` does. -/
theorem inside_chainEntriesTouch_iff : (∀ t ∈ (chainEntriesTouch .backupBoot c behind).2.2,
      t.Inside) ↔ RoundsGuarded (pentrySize c.header) ptnSwapList (1, c.pentries) := by
  have hspec := (touches_gptBootChainSwapMem_iff (holds_entriesMemory c.pentries behind)
    (hlen ▸ pentrySize_pos)).1
  rw [chainEntriesTouch, List.forall_mem_map, ← hlen]
  exact hspec

/-- Inside the array, the swap is `gptBootChainSwap`. -/
theorem chainEntriesTouch_eq (behind : Buffer UInt8)
    (h : RoundsGuarded (pentrySize c.header) ptnSwapList (1, c.pentries)) :
    (chainEntriesTouch .backupBoot c behind).1 =
        (gptBootChainSwap c.pentries (pentrySize c.header)).1 ∧
      (chainEntriesTouch .backupBoot c behind).2.1 =
        (gptBootChainSwap c.pentries (pentrySize c.header)).2 := by
  obtain ⟨hiff, hrun⟩ := touches_gptBootChainSwapMem_iff
    (holds_entriesMemory c.pentries behind) (hlen ▸ pentrySize_pos)
  obtain ⟨hcode, hholds⟩ := hrun (hiff.2 h)
  have hlen' : (gptBootChainSwap c.pentries (pentrySize c.header)).2.length = c.pentries.length :=
    length_foldl_swapRound (pentrySize c.header) ptnSwapList (1, c.pentries)
  have hget := hholds.get_length
  rw [hlen'] at hget
  rw [chainEntriesTouch, ← hlen]
  exact ⟨hcode, hget⟩

end Chain

/-! ### Confined calls -/

theorem confined_getState_iff (gpt : GptInstance) :
    (Call.getState gpt).Confined crc behind env s ↔ (Call.getState gpt).WellFormed crc env s := by
  rw [Call.Confined, Call.touches, gptGetStateTouch, run_bind, Call.WellFormed]
  cases ((readGptHeader gpt).run (dev env) s).1 with
  | none => exact iff_of_true (List.forall_mem_nil _) fun _ _ h => by cases h
  | some r =>
    obtain ⟨offset, header⟩ := r
    constructor
    · intro h _ _ heq
      cases heq
      exact inside_crcTouches_iff.1 h
    · exact fun h => inside_crcTouches_iff.2 (h offset header rfl)

theorem confined_setState_iff (gpt : GptInstance) (state : GptState) :
    (Call.setState gpt state).Confined crc behind env s ↔
      (Call.setState gpt state).WellFormed crc env s := by
  rw [Call.Confined, Call.touches, gptSetStateTouch, run_bind, Call.WellFormed]
  cases hread : ((readGptHeader gpt).run (dev env) s).1 with
  | none => exact iff_of_true (List.forall_mem_nil _) fun _ _ h => by cases h
  | some r =>
    obtain ⟨offset, header⟩ := r
    have hl := length_readGptHeader hread
    dsimp only
    cases hset : setSignature state header with
    | none =>
      have hbad : state = .gptBadCrc := by cases state <;> first | rfl | cases hset
      exact iff_of_true (List.forall_mem_nil _) fun _ _ _ hne => absurd hbad hne
    | some header' =>
      have hne : state ≠ .gptBadCrc := by
        rintro rfl
        cases hset
      have hiff := inside_crcTouches_iff.trans (sizeFits_setSignature hl hset)
      dsimp only
      rw [run_bind, run_pure]
      constructor
      · intro h _ _ heq _
        cases heq
        exact hiff.1 h
      · exact fun h => hiff.2 (h offset header rfl hne)

/-- After the swap, the CRC of the header is calculated. -/
theorem touches_setBootChain {boot : BootChain} {c : Chain}
    (h : ((readChain crc).run (dev env) s).1 = .inr c) :
    (Call.setBootChain boot).touches crc behind env s =
      (chainEntriesTouch boot c behind).2.2 ++
        if (chainEntriesTouch boot c behind).1 = 0 then crcTouches c.header2 else [] := by
  rw [Call.touches, gpt2SetBootChainTouch, run_bind, h]
  dsimp only
  by_cases hr : (chainEntriesTouch boot c behind).1 = 0
  · rw [if_neg (not_not_intro hr), if_pos hr, run_bind]
    split_ifs
    · rfl
    · rw [run_bind]
      rfl
  · rw [if_pos hr, if_neg hr, List.append_nil]
    rfl

theorem touches_setBootChain_of_inl {boot : BootChain} {r : ℤ}
    (h : ((readChain crc).run (dev env) s).1 = .inl r) :
    (Call.setBootChain boot).touches crc behind env s = [] := by
  rw [Call.touches, gpt2SetBootChainTouch, run_bind, h]
  rfl

theorem confined_setBootChain_iff (boot : BootChain) :
    (Call.setBootChain boot).Confined crc behind env s ↔
      (Call.setBootChain boot).WellFormed crc env s := by
  rw [Call.Confined]
  cases hread : ((readChain crc).run (dev env) s).1 with
  | inl r =>
    rw [touches_setBootChain_of_inl hread]
    refine iff_of_true (List.forall_mem_nil _) ?_
    cases boot <;> exact fun c hc => by cases hread.symm.trans hc
  | inr c =>
    have hlen := length_pentries_of_readChain hread
    rw [touches_setBootChain hread, List.forall_mem_append]
    cases boot with
    | normalBoot =>
      rw [Call.WellFormed, hread]
      constructor
      · rintro ⟨-, hcrc⟩ _ heq
        cases heq
        exact inside_crcTouches_iff.1 hcrc
      · exact fun h => ⟨List.forall_mem_nil _, inside_crcTouches_iff.2 (h c rfl)⟩
    | backupBoot =>
      rw [Call.WellFormed, hread, inside_chainEntriesTouch_iff hlen]
      have hcode : RoundsGuarded (pentrySize c.header) ptnSwapList (1, c.pentries) →
          ((chainEntriesTouch .backupBoot c behind).1 = 0 ↔
            ∃ n ∈ ptnSwapList, (findPair c.pentries (pentrySize c.header) n).isSome) := by
        intro hg
        rw [(chainEntriesTouch_eq hlen behind hg).1, gptBootChainSwap,
          foldl_swapRound_code_eq_zero_iff, or_iff_right one_ne_zero]
      constructor
      · rintro ⟨hg, hcrc⟩ _ heq
        cases heq
        refine ⟨hg, fun hpair => ?_⟩
        rw [if_pos ((hcode hg).2 hpair)] at hcrc
        exact inside_crcTouches_iff.1 hcrc
      · intro h
        obtain ⟨hg, hpair⟩ := h c rfl
        refine ⟨hg, ?_⟩
        split_ifs with h0
        · exact inside_crcTouches_iff.2 (hpair ((hcode hg).1 h0))
        · exact List.forall_mem_nil _

theorem gptGetStateTouch_run (crc : Bytes → UInt32) (gpt : GptInstance) (env : Env) (s : Dev) :
    (gptGetState crc gpt).run (dev env) s =
      (((gptGetStateTouch crc gpt).run (dev env) s).1.1,
        ((gptGetStateTouch crc gpt).run (dev env) s).2) := by
  rw [gptGetState, gptGetStateTouch, readGptHeader, run_bind, run_bind, run_bind, run_bind,
    run_bind]
  cases ((gptHeaderOffset gpt).run (dev env) ((stackArray lbaSize).run (dev env) s).2).1 with
  | none => rfl
  | some offset =>
    dsimp only
    rw [run_bind, run_bind]
    split_ifs <;> rfl

theorem gptSetStateTouch_run (crc : Bytes → UInt32) (gpt : GptInstance) (state : GptState)
    (env : Env) (s : Dev) : (gptSetState crc gpt state).run (dev env) s =
      (((gptSetStateTouch crc gpt state).run (dev env) s).1.1,
        ((gptSetStateTouch crc gpt state).run (dev env) s).2) := by
  rw [gptSetState, gptSetStateTouch, readGptHeader, run_bind, run_bind, run_bind, run_bind,
    run_bind]
  cases ((gptHeaderOffset gpt).run (dev env) ((stackArray lbaSize).run (dev env) s).2).1 with
  | none => rfl
  | some offset =>
    dsimp only
    rw [run_bind, run_bind]
    split_ifs
    · rfl
    · rw [run_pure]
      dsimp only
      cases setSignature state (((blkRw false offset ((stackArray lbaSize).run (dev env) s).1).run
          (dev env) ((gptHeaderOffset gpt).run (dev env)
            ((stackArray lbaSize).run (dev env) s).2).2).1.2) with
      | none => rfl
      | some header =>
        dsimp only
        rw [run_bind, run_bind]
        split_ifs <;> rfl

/-- The second part of `gpt2_set_boot_chain`. -/
def writeChain (crc : Bytes → UInt32) (boot : BootChain) (c : Chain) : SysProg ℤ :=
  let (r, pentries) := chainEntries boot c.pentries (pentrySize c.header)
  if r ≠ 0 then return r
  else do
    let (r, _) ← blkRw true c.gpt2HeaderOffset (setPartitionCrc crc c.header2 pentries)
    if r ≠ 0 then return r
    else
      let (r, _) ← blkRw true (toInt64 (pentriesStartOffset c.header2)) pentries
      return r

theorem gpt2SetBootChain_run (crc : Bytes → UInt32) (boot : BootChain) (env : Env) (s : Dev) :
    (gpt2SetBootChain crc boot).run (dev env) s =
      (match ((readChain crc).run (dev env) s).1 with
      | .inl r => (return r : SysProg ℤ)
      | .inr c => writeChain crc boot c).run (dev env) ((readChain crc).run (dev env) s).2 := by
  rw [gpt2SetBootChain, readChain, run_bind, run_bind, run_bind, run_bind]
  dsimp only
  split
  · rfl
  rw [run_bind, run_bind]
  split
  · rfl
  rw [run_bind, run_bind]
  split
  · rfl
  rw [run_bind, run_bind]
  split
  · rfl
  split
  · rfl
  rw [run_bind, run_bind]
  split
  · rfl
  · rw [run_pure]
    rfl

/-- What is written after a confined swap is what `gpt_boot_chain_swap` makes of the entries. -/
theorem Call.Confined.chainEntries_eq {boot : BootChain} {c : Chain}
    (h : (Call.setBootChain boot).Confined crc behind env s)
    (hread : ((readChain crc).run (dev env) s).1 = .inr c) :
    chainEntries boot c.pentries (pentrySize c.header) =
      ((chainEntriesTouch boot c behind).1, (chainEntriesTouch boot c behind).2.1) := by
  cases boot with
  | normalBoot => rfl
  | backupBoot =>
    have hg := ((confined_setBootChain_iff .backupBoot).1 h c hread).1
    obtain ⟨hcode, hentries⟩ := chainEntriesTouch_eq
      (length_pentries_of_readChain hread) behind hg
    rw [hcode, hentries]
    rfl

/-- A confined call of `gpt2_set_boot_chain` does not depend on what is behind the array. -/
theorem Call.Confined.gpt2SetBootChain_run {boot : BootChain}
    (h : (Call.setBootChain boot).Confined crc behind env s) :
    (gpt2SetBootChain crc boot).run (dev env) s =
      (((gpt2SetBootChainTouch crc boot behind).run (dev env) s).1.1,
        ((gpt2SetBootChainTouch crc boot behind).run (dev env) s).2) := by
  rw [Gpt.gpt2SetBootChain_run, gpt2SetBootChainTouch, run_bind]
  cases hread : ((readChain crc).run (dev env) s).1 with
  | inl r => rfl
  | inr c =>
    dsimp only
    rw [writeChain, h.chainEntries_eq hread]
    dsimp only
    split
    · rfl
    rw [run_bind, run_bind]
    split
    · rfl
    · rw [run_bind, run_bind]
      rfl

/-! ### Calls that leave their buffers -/

/-- A disk whose primary header claims to have 513 bytes. -/
def longHeaderDisk : Bytes := patch (List.replicate 2048 0) (512 + headerSizeOffset) [1, 2]

/-- A disk with one entry of 100 bytes. -/
def shortEntryDisk : Bytes :=
  patch (patch (patch (List.replicate 2048 0) (512 + pentriesOffset) [2])
    (512 + partitionCountOffset) [1]) (512 + pentrySizeOffset) [100]

end Gpt

end Msm8909w
