import Msm8909w.Lib.Memory
import Msm8909w.Gpt.Swap

/-!
# What the swap of the boot chain touches

`gpt_pentry_seek` and `gpt_boot_chain_swap` as programs that load and store the bytes of the array
of partition entries, in a memory that goes on behind the array.  A pointer is the offset of what
it points to in this memory.

The search stops at the first entry whose name starts behind the array, but reads 72 bytes of
every name before (the last of them excepted), so that it leaves the array at an entry whose name
starts in the array and ends behind it (`Crosses`).  Such an entry is reached unless two entries
before it match (`Guarded`).

* `touches_gptBootChainSwapMem_iff` : the swap stays inside the array exactly if in every round two
  matching entries come before every entry that crosses the end; then it is `gptBootChainSwap`,
* `roundsGuarded_of_dvd` : this is so for whole entries of at least 127 bytes.
-/

namespace Msm8909w

namespace Gpt

/-! ### The programs -/

/-- The name of an entry, without the second bytes of its characters: `name8`. -/
def readName8 (entry : ℕ) : MemProg UInt8 Bytes :=
  loadAll ((List.range (maxGptNameSize / 2)).map fun i => entry + partitionNameOffset + i * 2)

/-- The test of `gpt_pentry_seek`. -/
def isNameOf (ptnName name : Bytes) : Bool :=
  let len := ptnName.length
  name.take len == ptnName &&
    (name.getD len 0 == 0 || slice name len 4 == bakPtnNameExt ++ [0])

/-- The loop of `gpt_pentry_seek`. -/
def gptPentrySeekLoopMem (ptnName : Bytes) (pentriesEnd pentrySize : ℕ) :
    ℕ → ℕ → MemProg UInt8 (Option ℕ)
  | 0, _ => return none
  | fuel + 1, entry =>
    if entry + partitionNameOffset < pentriesEnd then do
      let name ← readName8 entry
      if isNameOf ptnName name then return some entry
      else gptPentrySeekLoopMem ptnName pentriesEnd pentrySize fuel (entry + pentrySize)
    else return none

/-- `gpt_pentry_seek`. -/
def gptPentrySeekMem (ptnName : Bytes) (start pentriesEnd pentrySize : ℕ) :
    MemProg UInt8 (Option ℕ) :=
  gptPentrySeekLoopMem ptnName pentriesEnd pentrySize pentriesEnd start

/-- The two searches of a round. -/
def findPairMem (pentriesEnd pentrySize : ℕ) (ptnName : Bytes) :
    MemProg UInt8 (Option (ℕ × ℕ)) := do
  match ← gptPentrySeekMem ptnName 0 pentriesEnd pentrySize with
  | none => return none
  | some entry =>
    match ← gptPentrySeekMem ptnName (entry + pentrySize) pentriesEnd pentrySize with
    | none => return none
    | some bakEntry => return some (entry, bakEntry)

/-- The three `memcpy` of a round. -/
def swapTypeGuidsMem (entry bakEntry : ℕ) : MemProg UInt8 Unit := do
  let ptnSwap ← loadBlock (entry + typeGuidOffset) typeGuidSize
  let bak ← loadBlock (bakEntry + typeGuidOffset) typeGuidSize
  storeAll (entry + typeGuidOffset) bak
  storeAll (bakEntry + typeGuidOffset) ptnSwap

/-- A round of `gpt_boot_chain_swap`. -/
def swapRoundMem (pentriesEnd pentrySize : ℕ) (backupNotFound : ℤ) (ptnName : Bytes) :
    MemProg UInt8 ℤ := do
  match ← findPairMem pentriesEnd pentrySize ptnName with
  | none => return backupNotFound
  | some (entry, bakEntry) =>
    swapTypeGuidsMem entry bakEntry
    return 0

/-- The loop of `gpt_boot_chain_swap`. -/
def swapRoundsMem (pentriesEnd pentrySize : ℕ) : List Bytes → ℤ → MemProg UInt8 ℤ
  | [], backupNotFound => return backupNotFound
  | ptnName :: names, backupNotFound => do
    let backupNotFound ← swapRoundMem pentriesEnd pentrySize backupNotFound ptnName
    swapRoundsMem pentriesEnd pentrySize names backupNotFound

/-- `gpt_boot_chain_swap`. -/
def gptBootChainSwapMem (pentriesEnd pentrySize : ℕ) : MemProg UInt8 ℤ :=
  swapRoundsMem pentriesEnd pentrySize ptnSwapList 1

/-! ### Entries that cross the end -/

/-- The name of the entry at `entry` starts in an array of `len` bytes, and the bytes of it that
are read reach behind the array. -/
def Crosses (len entry : ℕ) : Prop :=
  entry + partitionNameOffset < len ∧ len + 1 < entry + partitionNameOffset + maxGptNameSize

/-- Before every entry that crosses the end of the array two entries match. -/
def Guarded (pentries : Bytes) (size : ℕ) (ptnName : Bytes) : Prop :=
  ∀ k, Crosses pentries.length (k * size) →
    ∃ i j, i < j ∧ j < k ∧ nameMatches ptnName pentries (i * size) = true ∧
      nameMatches ptnName pentries (j * size) = true

/-- Every round finds its name guarded, in the array as the rounds before it leave it. -/
def RoundsGuarded (size : ℕ) : List Bytes → ℤ × Bytes → Prop
  | [], _ => True
  | ptnName :: names, acc =>
    Guarded acc.2 size ptnName ∧ RoundsGuarded size names (swapRound size acc ptnName)

variable {ptnName pentries : Bytes} {size start fuel e : ℕ} {m : Buffer UInt8}

/-- The program runs inside the array. -/
abbrev InArray {α : Type} (pentries : Bytes) (p : MemProg UInt8 α) (m : Buffer UInt8) : Prop :=
  p.Touches (· < pentries.length) m

/-! ### A search -/

theorem run_readName8 (e : ℕ) (m : Buffer UInt8) : (readName8 e).run (memory UInt8) m =
    ((List.range (maxGptNameSize / 2)).map fun i => m (e + partitionNameOffset + i * 2), m) := by
  rw [readName8, run_loadAll, List.map_map]
  rfl

/-- A name is read inside the array unless it crosses the end. -/
theorem inArray_readName8 (h : e + partitionNameOffset < pentries.length) :
    InArray pentries (readName8 e) m ↔ ¬ Crosses pentries.length e := by
  have hmax : maxGptNameSize = 72 := rfl
  rw [readName8, InArray, touches_loadAll, List.forall_mem_map]
  simp only [List.mem_range, Crosses, hmax]
  constructor
  · intro hall
    have hlast := hall 35 (by omega)
    omega
  · intro hcross i hi
    omega

theorem isNameOf_of_not_crosses (ptnName : Bytes) (hm : m.Holds pentries)
    (h : ¬ Crosses pentries.length e) (hin : e + partitionNameOffset < pentries.length) :
    isNameOf ptnName ((List.range (maxGptNameSize / 2)).map fun i =>
      m (e + partitionNameOffset + i * 2)) = nameMatches ptnName pentries e := by
  have hmax : maxGptNameSize = 72 := rfl
  have hname : (List.range (maxGptNameSize / 2)).map
      (fun i => m (e + partitionNameOffset + i * 2)) =
      (List.range (maxGptNameSize / 2)).map (name8 pentries e) := by
    refine List.map_congr_left fun i hi => ?_
    have hi' : i < 36 := List.mem_range.1 hi
    rw [name8, hm.getD]
    simp only [Crosses, hmax] at h
    omega
  rw [hname]
  rfl

/-- A search from `start` on leaves the array at the first entry that crosses the end, unless it
finds a match before. -/
theorem gptPentrySeekLoopMem_spec (ptnName : Bytes) (hm : m.Holds pentries)
    (hsize : pentries.length ≠ 0 → 0 < size) (hfuel : pentries.length ≤ start + fuel) :
    (InArray pentries (gptPentrySeekLoopMem ptnName pentries.length size fuel start) m ↔
      ∀ k, Crosses pentries.length (start + k * size) →
        ∃ j < k, nameMatches ptnName pentries (start + j * size) = true) ∧
    (InArray pentries (gptPentrySeekLoopMem ptnName pentries.length size fuel start) m →
      (gptPentrySeekLoopMem ptnName pentries.length size fuel start).run (memory UInt8) m =
        (gptPentrySeekLoop ptnName pentries size fuel start, m)) := by
  induction fuel generalizing start with
  | zero =>
    refine ⟨iff_of_true touches_pure fun k hk => ?_, fun _ => rfl⟩
    have := hk.1
    omega
  | succ fuel ih =>
    rw [gptPentrySeekLoopMem, gptPentrySeekLoop]
    by_cases hin : start + partitionNameOffset < pentries.length
    swap
    · rw [if_neg hin, if_neg hin]
      refine ⟨iff_of_true touches_pure fun k hk => ?_, fun _ => rfl⟩
      have := hk.1
      omega
    rw [if_pos hin, if_pos hin, InArray, touches_bind, run_readName8, Prog.run_bind, run_readName8]
    change ((InArray pentries (readName8 start) m ∧ _) ↔ _) ∧
      (InArray pentries (readName8 start) m ∧ _ → _)
    rw [inArray_readName8 hin]
    by_cases hcross : Crosses pentries.length start
    · refine ⟨iff_of_false (fun h => h.1 hcross) fun h => ?_, fun h => absurd hcross h.1⟩
      obtain ⟨j, hj, -⟩ := h 0 (by rwa [Nat.zero_mul, Nat.add_zero])
      exact Nat.not_lt_zero j hj
    have htest := isNameOf_of_not_crosses ptnName hm hcross hin
    rw [and_iff_right hcross, htest]
    by_cases hmatch : nameMatches ptnName pentries start = true
    · rw [if_pos hmatch, if_pos hmatch]
      refine ⟨iff_of_true touches_pure fun k hk => ⟨0, ?_, ?_⟩, fun _ => rfl⟩
      · -- the entry itself does not cross the end
        refine Nat.pos_of_ne_zero fun h0 => hcross ?_
        rwa [h0, Nat.zero_mul, Nat.add_zero] at hk
      · rwa [Nat.zero_mul, Nat.add_zero]
    · rw [if_neg hmatch, if_neg hmatch]
      have hpos := hsize (by omega)
      obtain ⟨hiff, hrun⟩ := ih (show pentries.length ≤ start + size + fuel by omega)
      refine ⟨hiff.trans ?_, hrun⟩
      have hshift : ∀ k, start + size + k * size = start + (k + 1) * size := fun k => by ring
      simp only [hshift]
      constructor
      · intro h k hk
        cases k with
        | zero => exact absurd (by rwa [Nat.zero_mul, Nat.add_zero] at hk) hcross
        | succ k =>
          obtain ⟨j, hj, hjm⟩ := h k hk
          exact ⟨j + 1, by omega, hjm⟩
      · intro h k hk
        obtain ⟨j, hj, hjm⟩ := h (k + 1) hk
        cases j with
        | zero => exact absurd (by rwa [Nat.zero_mul, Nat.add_zero] at hjm) hmatch
        | succ j => exact ⟨j, by omega, hjm⟩

section Search

variable (ptnName) (hm : m.Holds pentries) (hsize : pentries.length ≠ 0 → 0 < size)

include hm hsize

/-- A search from entry `i` on stays inside the array if a match comes before every entry that
crosses the end. -/
theorem inArray_gptPentrySeekMem_iff (i : ℕ) :
    InArray pentries (gptPentrySeekMem ptnName (i * size) pentries.length size) m ↔
      ∀ k ≥ i, Crosses pentries.length (k * size) →
        ∃ j, i ≤ j ∧ j < k ∧ nameMatches ptnName pentries (j * size) = true := by
  have hshift : ∀ k, i * size + k * size = (i + k) * size := fun k => by ring
  have hspec := (gptPentrySeekLoopMem_spec ptnName hm hsize
    (Nat.le_add_left pentries.length (i * size))).1
  simp only [hshift] at hspec
  refine hspec.trans ⟨fun h k hk hc => ?_, fun h k hc => ?_⟩
  · obtain ⟨d, rfl⟩ := Nat.exists_eq_add_of_le hk
    obtain ⟨j, hj, hjm⟩ := h d hc
    exact ⟨i + j, by omega, by omega, hjm⟩
  · obtain ⟨j, hij, hjk, hjm⟩ := h (i + k) (by omega) hc
    obtain ⟨d, rfl⟩ := Nat.exists_eq_add_of_le hij
    exact ⟨d, by omega, hjm⟩

theorem run_gptPentrySeekMem (i : ℕ)
    (h : InArray pentries (gptPentrySeekMem ptnName (i * size) pentries.length size) m) :
    (gptPentrySeekMem ptnName (i * size) pentries.length size).run (memory UInt8) m =
      (gptPentrySeek ptnName pentries (i * size) size, m) :=
  (gptPentrySeekLoopMem_spec ptnName hm hsize (Nat.le_add_left pentries.length (i * size))).2 h

end Search

/-- The first match is found. -/
theorem gptPentrySeek_first {i : ℕ} (hsize : pentries.length ≠ 0 → 0 < size)
    (hlen : i * size + partitionNameOffset < pentries.length)
    (hm : nameMatches ptnName pentries (i * size) = true) :
    ∃ j ≤ i, gptPentrySeek ptnName pentries 0 size = some (j * size) := by
  have hpos := hsize (by omega)
  have hi : i * 1 ≤ i * size := Nat.mul_le_mul_left i hpos
  have hlt : i < pentries.length := by omega
  rw [← Nat.zero_add (i * size)] at hlen hm
  obtain ⟨j, hj, h⟩ := gptPentrySeekLoop_complete hlt hlen hm
  exact ⟨j, hj, by rw [gptPentrySeek, h, Nat.zero_add]⟩

/-! ### A round -/

/-- The two searches of a round stay inside the array exactly if the name is guarded. -/
theorem findPairMem_spec (ptnName : Bytes) (hm : m.Holds pentries)
    (hsize : pentries.length ≠ 0 → 0 < size) :
    (InArray pentries (findPairMem pentries.length size ptnName) m ↔
      Guarded pentries size ptnName) ∧
    (InArray pentries (findPairMem pentries.length size ptnName) m →
      (findPairMem pentries.length size ptnName).run (memory UInt8) m =
        (findPair pentries size ptnName, m)) := by
  have hfirst := inArray_gptPentrySeekMem_iff ptnName hm hsize 0
  have hrun := run_gptPentrySeekMem ptnName hm hsize 0
  rw [Nat.zero_mul] at hfirst hrun
  rw [findPairMem, InArray, touches_bind, Prog.run_bind]
  by_cases hin : InArray pentries (gptPentrySeekMem ptnName 0 pentries.length size) m
  swap
  · refine ⟨iff_of_false (fun h => hin h.1) fun h => hin (hfirst.2 fun k _ hc => ?_),
      fun h => absurd h.1 hin⟩
    obtain ⟨i, j, hij, hjk, hi, -⟩ := h k hc
    exact ⟨i, Nat.zero_le i, by omega, hi⟩
  rw [hrun hin, and_iff_right hin, findPair]
  have hmatch := hfirst.1 hin
  cases hseek : gptPentrySeek ptnName pentries 0 size with
  | none =>
    -- nothing matches, so no entry crosses the end
    refine ⟨iff_of_true touches_pure fun k hc => ?_, fun _ => rfl⟩
    obtain ⟨j, -, hjk, hj⟩ := hmatch k (Nat.zero_le k) hc
    have hle : j * size ≤ k * size := Nat.mul_le_mul_right _ hjk.le
    obtain ⟨l, -, hfound⟩ := gptPentrySeek_first hsize (by have := hc.1; omega) hj
    rw [hseek] at hfound
    cases hfound
  | some entry =>
    obtain ⟨-, hi, i, rfl⟩ := gptPentrySeekLoop_spec hseek
    rw [Nat.zero_add] at hi hseek ⊢
    have hnext : i * size + size = (i + 1) * size := by ring
    have hsecond := inArray_gptPentrySeekMem_iff ptnName hm hsize (i + 1)
    have hrun' := run_gptPentrySeekMem ptnName hm hsize (i + 1)
    dsimp only
    rw [hnext, touches_bind, Prog.run_bind]
    -- the entry found is the first one that matches
    have hleast : ∀ j k, Crosses pentries.length (k * size) → j < k →
        nameMatches ptnName pentries (j * size) = true → i ≤ j := by
      intro j k hc hjk hj
      have hle : j * size ≤ k * size := Nat.mul_le_mul_right _ hjk.le
      have hpos := hsize (by have := hc.1; omega)
      obtain ⟨l, hl, hfound⟩ := gptPentrySeek_first hsize (by have := hc.1; omega) hj
      rw [hseek, Option.some.injEq] at hfound
      rwa [Nat.eq_of_mul_eq_mul_right hpos hfound]
    by_cases hin' : InArray pentries
        (gptPentrySeekMem ptnName ((i + 1) * size) pentries.length size) m
    swap
    · refine ⟨iff_of_false (fun h => hin' h.1) fun h => hin' (hsecond.2 fun k _ hc => ?_),
        fun h => absurd h.1 hin'⟩
      obtain ⟨a, b, hab, hbk, ha, hb⟩ := h k hc
      have hia := hleast a k hc (by omega) ha
      exact ⟨b, by omega, hbk, hb⟩
    rw [hrun' hin', and_iff_right hin']
    refine ⟨iff_of_true ?_ fun k hc => ?_, fun _ => ?_⟩
    · cases gptPentrySeek ptnName pentries ((i + 1) * size) size <;> exact touches_pure
    · obtain ⟨j, -, hjk, hj⟩ := hmatch k (Nat.zero_le k) hc
      have hij := hleast j k hc hjk hj
      obtain ⟨b, hib, hbk, hb⟩ := hsecond.1 hin' k (by omega) hc
      exact ⟨i, b, by omega, hbk, hi, hb⟩
    · cases gptPentrySeek ptnName pentries ((i + 1) * size) size <;> rfl

section Exchange

variable {a b : ℕ} (ha : a + partitionNameOffset < pentries.length)
  (hb : b + partitionNameOffset < pentries.length)

include ha hb

theorem holds_swapTypeGuidsMem (hm : m.Holds pentries) :
    ((swapTypeGuidsMem a b).run (memory UInt8) m).2.Holds (swapTypeGuids pentries a b) := by
  have hoff : partitionNameOffset = 56 := rfl
  have hsz : typeGuidSize = 16 := rfl
  have hty : typeGuidOffset = 0 := rfl
  have hga := hm.get_eq (show a + typeGuidOffset + typeGuidSize ≤ pentries.length by omega)
  have hgb := hm.get_eq (show b + typeGuidOffset + typeGuidSize ≤ pentries.length by omega)
  rw [swapTypeGuidsMem, Prog.run_bind, run_loadBlock, Prog.run_bind, run_loadBlock, Prog.run_bind,
    run_storeAll, run_storeAll, hga, hgb]
  have hla := length_typeGuid ha
  have hlb := length_typeGuid hb
  have hput := hm.put
    (show a + typeGuidOffset + (typeGuid pentries b).length ≤ pentries.length by omega)
  refine hput.put ?_
  rw [length_patch (by omega)]
  exact (show b + typeGuidOffset + (typeGuid pentries a).length ≤ pentries.length by omega)

theorem inArray_swapTypeGuidsMem : InArray pentries (swapTypeGuidsMem a b) m := by
  have hoff : partitionNameOffset = 56 := rfl
  have hsz : typeGuidSize = 16 := rfl
  have hty : typeGuidOffset = 0 := rfl
  have hin : ∀ e, e + partitionNameOffset < pentries.length → ∀ i < typeGuidSize,
      e + typeGuidOffset + i < pentries.length := by
    intro e he i hi
    omega
  rw [swapTypeGuidsMem, InArray, touches_bind, touches_loadBlock, run_loadBlock, touches_bind,
    touches_loadBlock, run_loadBlock, touches_bind, touches_storeAll, touches_storeAll,
    Buffer.length_get, Buffer.length_get]
  exact ⟨hin a ha, hin b hb, hin a ha, hin b hb⟩

end Exchange

theorem length_swapRound (pentries : Bytes) (size : ℕ) (code : ℤ) (n : Bytes) :
    (swapRound size (code, pentries) n).2.length = pentries.length := by
  cases hp : findPair pentries size n with
  | none => simp only [swapRound, hp]
  | some ab =>
    obtain ⟨ha, hb, -⟩ := findPair_spec hp
    simp only [swapRound, hp]
    exact length_swapTypeGuids ha hb

theorem length_foldl_swapRound (size : ℕ) (names : List Bytes) (acc : ℤ × Bytes) :
    (names.foldl (swapRound size) acc).2.length = acc.2.length := by
  induction names generalizing acc with
  | nil => rfl
  | cons n names ih =>
    obtain ⟨code, pentries⟩ := acc
    rw [List.foldl_cons, ih, length_swapRound]

/-- A round stays inside the array exactly if its name is guarded, and then does what `swapRound`
does. -/
theorem swapRoundMem_spec (ptnName : Bytes) (hm : m.Holds pentries)
    (hsize : pentries.length ≠ 0 → 0 < size) (code : ℤ) :
    (InArray pentries (swapRoundMem pentries.length size code ptnName) m ↔
      Guarded pentries size ptnName) ∧
    (InArray pentries (swapRoundMem pentries.length size code ptnName) m →
      ((swapRoundMem pentries.length size code ptnName).run (memory UInt8) m).1 =
          (swapRound size (code, pentries) ptnName).1 ∧
        ((swapRoundMem pentries.length size code ptnName).run (memory UInt8) m).2.Holds
          (swapRound size (code, pentries) ptnName).2) := by
  obtain ⟨hiff, hrun⟩ := findPairMem_spec ptnName hm hsize
  rw [swapRoundMem, InArray, touches_bind, Prog.run_bind]
  by_cases hin : InArray pentries (findPairMem pentries.length size ptnName) m
  swap
  · exact ⟨iff_of_false (fun h => hin h.1) fun h => hin (hiff.2 h), fun h => absurd h.1 hin⟩
  rw [hrun hin, and_iff_right hin]
  cases hp : findPair pentries size ptnName with
  | none =>
    simp only [swapRound, hp]
    exact ⟨iff_of_true touches_pure (hiff.1 hin), fun _ => ⟨rfl, hm⟩⟩
  | some ab =>
    obtain ⟨a, b⟩ := ab
    obtain ⟨ha, hb, -⟩ := findPair_spec hp
    have hround : swapRound size (code, pentries) ptnName = (0, swapTypeGuids pentries a b) := by
      simp only [swapRound, hp]
    dsimp only
    rw [hround, touches_bind, Prog.run_bind, Prog.run_pure]
    refine ⟨iff_of_true ⟨inArray_swapTypeGuidsMem ha hb, touches_pure⟩ (hiff.1 hin), fun _ => ?_⟩
    dsimp only
    exact ⟨rfl, holds_swapTypeGuidsMem ha hb hm⟩

/-! ### All rounds -/

theorem swapRoundsMem_spec (names : List Bytes) (code : ℤ) (hm : m.Holds pentries)
    (hsize : pentries.length ≠ 0 → 0 < size) :
    (InArray pentries (swapRoundsMem pentries.length size names code) m ↔
      RoundsGuarded size names (code, pentries)) ∧
    (InArray pentries (swapRoundsMem pentries.length size names code) m →
      ((swapRoundsMem pentries.length size names code).run (memory UInt8) m).1 =
          (names.foldl (swapRound size) (code, pentries)).1 ∧
        ((swapRoundsMem pentries.length size names code).run (memory UInt8) m).2.Holds
          (names.foldl (swapRound size) (code, pentries)).2) := by
  induction names generalizing code pentries m with
  | nil => exact ⟨iff_of_true touches_pure trivial, fun _ => ⟨rfl, hm⟩⟩
  | cons n names ih =>
    obtain ⟨hiff, hrun⟩ := swapRoundMem_spec n hm hsize code
    rw [swapRoundsMem, InArray, touches_bind, Prog.run_bind, RoundsGuarded, List.foldl_cons]
    by_cases hin : InArray pentries (swapRoundMem pentries.length size code n) m
    swap
    · exact ⟨iff_of_false (fun h => hin h.1) fun h => hin (hiff.2 h.1), fun h => absurd h.1 hin⟩
    obtain ⟨hcode, hholds⟩ := hrun hin
    have hlen := length_swapRound pentries size code n
    obtain ⟨hiff', hrun'⟩ := ih (swapRound size (code, pentries) n).1 hholds (by rwa [hlen])
    simp only [InArray, hlen] at hiff' hrun'
    rw [and_iff_right hin, and_iff_right (hiff.1 hin), hcode]
    exact ⟨hiff', hrun'⟩

/-- **What the swap touches.**  It stays inside the array exactly if every round finds its name
guarded, and then it is `gptBootChainSwap`, whatever is behind the array. -/
theorem touches_gptBootChainSwapMem_iff (hm : m.Holds pentries)
    (hsize : pentries.length ≠ 0 → 0 < size) :
    (InArray pentries (gptBootChainSwapMem pentries.length size) m ↔
      RoundsGuarded size ptnSwapList (1, pentries)) ∧
    (InArray pentries (gptBootChainSwapMem pentries.length size) m →
      ((gptBootChainSwapMem pentries.length size).run (memory UInt8) m).1 =
          (gptBootChainSwap pentries size).1 ∧
        ((gptBootChainSwapMem pentries.length size).run (memory UInt8) m).2.Holds
          (gptBootChainSwap pentries size).2) :=
  swapRoundsMem_spec ptnSwapList 1 hm hsize

/-- In an array of whole entries that are long enough for a name, no name crosses the end. -/
theorem not_crosses_of_dvd {len : ℕ} (hsize : 127 ≤ size) (hdvd : size ∣ len) (k : ℕ) :
    ¬ Crosses len (k * size) := by
  rintro ⟨hstart, hend⟩
  have hoff : partitionNameOffset = 56 := rfl
  have hmax : maxGptNameSize = 72 := rfl
  obtain ⟨count, rfl⟩ := hdvd
  have hlt : k < count := by
    refine Nat.lt_of_mul_lt_mul_left (a := size) ?_
    rw [Nat.mul_comm]
    omega
  have hle : size * (k + 1) ≤ size * count := Nat.mul_le_mul_left _ hlt
  rw [Nat.mul_add, Nat.mul_one, Nat.mul_comm] at hle
  omega

theorem roundsGuarded_of_dvd (hsize : 127 ≤ size) (names : List Bytes) (acc : ℤ × Bytes)
    (hdvd : size ∣ acc.2.length) : RoundsGuarded size names acc := by
  induction names generalizing acc with
  | nil => trivial
  | cons n names ih =>
    refine ⟨fun k hk => absurd hk (not_crosses_of_dvd hsize hdvd k), ih _ ?_⟩
    obtain ⟨code, pentries⟩ := acc
    rwa [length_swapRound]

end Gpt

end Msm8909w
