import Msm8909w.Gpt.GptUtils

/-!
# Swapping the boot chain

`gpt_boot_chain_swap` looks up each name of the swap list twice and exchanges the type GUIDs of
the two entries it finds.  Entries lie at multiples of the entry size, a type GUID occupies the
first 16 bytes of an entry and a name starts at byte 56, so with entries of at least 128 bytes an
exchange changes no name (`nameMatches_swapTypeGuids`).  No entry matches two names of the swap
list (`eq_of_nameMatches`), so the pairs of different names do not interfere.

`gptBootChainSwap_spec` : every pair found in the original array has its type GUIDs exchanged, and
every byte outside these GUIDs is unchanged.
-/

namespace Msm8909w

namespace Gpt

variable {ptnName pentries : Bytes} {size : ℕ}

/-! ### Searching -/

theorem gptPentrySeekLoop_spec {fuel start e : ℕ}
    (h : gptPentrySeekLoop ptnName pentries size fuel start = some e) :
    e + partitionNameOffset < pentries.length ∧ nameMatches ptnName pentries e = true ∧
      ∃ k, e = start + k * size := by
  induction fuel generalizing start with
  | zero => cases h
  | succ fuel ih =>
    rw [gptPentrySeekLoop] at h
    split_ifs at h with hin hm
    · cases h
      exact ⟨hin, hm, 0, by omega⟩
    · obtain ⟨h1, h2, k, rfl⟩ := ih h
      exact ⟨h1, h2, k + 1, by ring⟩

/-- The search only looks at the names of the entries it passes. -/
theorem gptPentrySeekLoop_congr {pentries' : Bytes} (hl : pentries'.length = pentries.length)
    {fuel start : ℕ}
    (hm : ∀ k, nameMatches ptnName pentries' (start + k * size) =
      nameMatches ptnName pentries (start + k * size)) :
    gptPentrySeekLoop ptnName pentries' size fuel start =
      gptPentrySeekLoop ptnName pentries size fuel start := by
  induction fuel generalizing start with
  | zero => rfl
  | succ fuel ih =>
    have h0 := hm 0
    rw [Nat.zero_mul, Nat.add_zero] at h0
    rw [gptPentrySeekLoop, gptPentrySeekLoop, hl, h0]
    have hm' : ∀ k, nameMatches ptnName pentries' (start + size + k * size) =
        nameMatches ptnName pentries (start + size + k * size) := by
      intro k
      have hk := hm (k + 1)
      rwa [show start + (k + 1) * size = start + size + k * size by ring] at hk
    rw [ih hm']

/-- A match within reach of the search is found, or an earlier one. -/
theorem gptPentrySeekLoop_complete {fuel start k : ℕ} (hk : k < fuel)
    (hlen : start + k * size + partitionNameOffset < pentries.length)
    (hm : nameMatches ptnName pentries (start + k * size) = true) :
    ∃ j ≤ k, gptPentrySeekLoop ptnName pentries size fuel start = some (start + j * size) := by
  induction fuel generalizing start k with
  | zero => omega
  | succ fuel ih =>
    have hstart : start + partitionNameOffset < pentries.length := by omega
    rw [gptPentrySeekLoop, if_pos hstart]
    by_cases h0 : nameMatches ptnName pentries start = true
    · exact ⟨0, by omega, by rw [if_pos h0, Nat.zero_mul, Nat.add_zero]⟩
    · cases k with
      | zero => rw [Nat.zero_mul, Nat.add_zero] at hm; exact absurd hm h0
      | succ k =>
        have hshift : start + (k + 1) * size = start + size + k * size := by ring
        rw [hshift] at hlen hm
        obtain ⟨j, hj, hres⟩ := ih (by omega) hlen hm
        refine ⟨j + 1, by omega, ?_⟩
        rw [if_neg h0, hres]
        congr 1
        ring

theorem gptPentrySeek_complete (hsize : 128 ≤ size) (start k : ℕ)
    (hlen : start + k * size + partitionNameOffset < pentries.length)
    (hm : nameMatches ptnName pentries (start + k * size) = true) :
    ∃ j ≤ k, gptPentrySeek ptnName pentries start size = some (start + j * size) := by
  have hk : k * 1 ≤ k * size := Nat.mul_le_mul_left k (by omega)
  exact gptPentrySeekLoop_complete (by omega) hlen hm

/-- What a found pair is: two different entries of the array, both with a matching name. -/
theorem findPair_spec {a b : ℕ}
    (h : findPair pentries size ptnName = some (a, b)) :
    a + partitionNameOffset < pentries.length ∧ b + partitionNameOffset < pentries.length ∧
      nameMatches ptnName pentries a = true ∧ nameMatches ptnName pentries b = true ∧
      ∃ k l, a = k * size ∧ b = l * size ∧ k < l := by
  unfold findPair at h
  split at h
  · cases h
  · rename_i entry hentry
    split at h
    · cases h
    · rename_i bakEntry hbak
      simp only [Option.some.injEq, Prod.mk.injEq] at h
      obtain ⟨rfl, rfl⟩ := h
      obtain ⟨ha, hma, k, hk⟩ := gptPentrySeekLoop_spec hentry
      obtain ⟨hb, hmb, l, hl⟩ := gptPentrySeekLoop_spec hbak
      refine ⟨ha, hb, hma, hmb, k, k + 1 + l, by omega, ?_, by omega⟩
      rw [hl, hk]; ring

/-! ### Names -/

/-- The entry at `entry` has the name `ptnName`. -/
def isPartition (ptnName pentries : Bytes) (entry : ℕ) : Bool :=
  let name := (List.range (maxGptNameSize / 2)).map (name8 pentries entry)
  name.take ptnName.length == ptnName && name.getD ptnName.length 0 == 0

/-- The entry at `entry` has the name `ptnName` followed by `bak`. -/
def isBackup (ptnName pentries : Bytes) (entry : ℕ) : Bool :=
  let name := (List.range (maxGptNameSize / 2)).map (name8 pentries entry)
  name.take ptnName.length == ptnName && slice name ptnName.length 4 == bakPtnNameExt ++ [0]

/-- The array holds a partition of this name and its backup twin. -/
def HasTwin (pentries : Bytes) (size : ℕ) (ptnName : Bytes) : Prop :=
  ∃ k l, k * size + partitionNameOffset < pentries.length ∧
    l * size + partitionNameOffset < pentries.length ∧
    isPartition ptnName pentries (k * size) = true ∧ isBackup ptnName pentries (l * size) = true

theorem nameMatches_eq (e : ℕ) : nameMatches ptnName pentries e =
    (isPartition ptnName pentries e || isBackup ptnName pentries e) :=
  Bool.and_or_distrib_left ..

theorem not_isPartition_of_isBackup {e : ℕ} (h : isBackup ptnName pentries e = true) :
    isPartition ptnName pentries e = false := by
  simp only [isBackup, isPartition, Bool.and_eq_true, beq_iff_eq, Bool.and_eq_false_imp] at h ⊢
  intro _
  have hb : (slice ((List.range (maxGptNameSize / 2)).map (name8 pentries e))
      ptnName.length 4)[0]? = some 98 := by rw [h.2]; decide
  rw [getElem?_slice, if_pos (by decide), Nat.add_zero] at hb
  rw [List.getD_eq_getElem?_getD, hb]
  decide

/-- A partition with a backup twin is found, with the entry after it that matches. -/
theorem findPair_isSome (hsize : 128 ≤ size) (h : HasTwin pentries size ptnName) :
    (findPair pentries size ptnName).isSome = true := by
  obtain ⟨k, l, hk, hl, hpart, hbak⟩ := h
  have hne : k ≠ l := by
    rintro rfl
    rw [not_isPartition_of_isBackup hbak] at hpart
    cases hpart
  have hmk : nameMatches ptnName pentries (k * size) = true := by rw [nameMatches_eq, hpart]; rfl
  have hml : nameMatches ptnName pentries (l * size) = true := by
    rw [nameMatches_eq, hbak, Bool.or_true]
  -- the earlier and the later of the two entries
  obtain ⟨m, n, hmn, hm, hn, hmm, hmn'⟩ : ∃ m n, m < n ∧
      m * size + partitionNameOffset < pentries.length ∧
      n * size + partitionNameOffset < pentries.length ∧
      nameMatches ptnName pentries (m * size) = true ∧
      nameMatches ptnName pentries (n * size) = true := by
    rcases Nat.lt_or_gt_of_ne hne with hlt | hlt
    · exact ⟨k, l, hlt, hk, hl, hmk, hml⟩
    · exact ⟨l, k, hlt, hl, hk, hml, hmk⟩
  obtain ⟨j, hj, hfirst⟩ := gptPentrySeek_complete hsize 0 m (by rwa [Nat.zero_add])
    (by rwa [Nat.zero_add])
  have hshift : 0 + j * size + size + (n - (j + 1)) * size = n * size := by
    have : n = j + 1 + (n - (j + 1)) := by omega
    conv_rhs => rw [this]
    ring
  obtain ⟨j', -, hsecond⟩ := gptPentrySeek_complete hsize (0 + j * size + size) (n - (j + 1))
    (by rwa [hshift]) (by rwa [hshift])
  rw [findPair, hfirst]
  simp only [hsecond, Option.isSome_some]

/-- An entry has at most one of the names of the swap list. -/
theorem eq_of_nameMatches {n m : Bytes} (hn : n ∈ ptnSwapList) (hm : m ∈ ptnSwapList) {e : ℕ}
    (h : nameMatches n pentries e = true) (h' : nameMatches m pentries e = true) : n = m := by
  simp only [nameMatches, Bool.and_eq_true, beq_iff_eq] at h h'
  have hcommon : n <+: m ∨ m <+: n := by
    rw [← h.1, ← h'.1]
    rcases Nat.le_total n.length m.length with hle | hle
    · exact .inl (List.take_prefix_take_left hle)
    · exact .inr (List.take_prefix_take_left hle)
  -- no name of the list is a prefix of another one
  have hlist : ∀ n ∈ ptnSwapList, ∀ m ∈ ptnSwapList, n <+: m ∨ m <+: n → n = m := by decide
  exact hlist n hn m hm hcommon

/-! ### One exchange -/

/-- Position `i` lies in the type GUID of the entry at `e`. -/
def InGuid (e i : ℕ) : Prop := e ≤ i ∧ i < e + typeGuidSize

theorem length_typeGuid {e : ℕ} (h : e + partitionNameOffset < pentries.length) :
    (typeGuid pentries e).length = typeGuidSize := by
  have hoff : partitionNameOffset = 56 := rfl
  have hsz : typeGuidSize = 16 := rfl
  exact length_slice (by simp only [typeGuidOffset]; omega)

section Exchange

variable {a b : ℕ} (ha : a + partitionNameOffset < pentries.length)
  (hb : b + partitionNameOffset < pentries.length)

include ha hb

theorem length_swapTypeGuids : (swapTypeGuids pentries a b).length = pentries.length := by
  have hoff : partitionNameOffset = 56 := rfl
  have hsz : typeGuidSize = 16 := rfl
  have hla := length_typeGuid ha
  have hlb := length_typeGuid hb
  have hp : (patch pentries (a + typeGuidOffset) (typeGuid pentries b)).length =
      pentries.length := length_patch (by rw [hlb]; simp only [typeGuidOffset]; omega)
  rw [swapTypeGuids, length_patch, hp]
  rw [hp, hla]; simp only [typeGuidOffset]; omega

/-- The array after an exchange, byte by byte. -/
theorem getElem?_swapTypeGuids (i : ℕ) :
    (swapTypeGuids pentries a b)[i]? =
      if b ≤ i ∧ i < b + typeGuidSize then pentries[i - b + a]?
      else if a ≤ i ∧ i < a + typeGuidSize then pentries[i - a + b]?
      else pentries[i]? := by
  have hoff : partitionNameOffset = 56 := rfl
  have hsz : typeGuidSize = 16 := rfl
  have hla := length_typeGuid ha
  have hlb := length_typeGuid hb
  have hp : (patch pentries (a + typeGuidOffset) (typeGuid pentries b)).length =
      pentries.length := length_patch (by rw [hlb]; simp only [typeGuidOffset]; omega)
  rw [swapTypeGuids, getElem?_patch (by rw [hp, hla]; simp only [typeGuidOffset]; omega),
    getElem?_patch (by rw [hlb]; simp only [typeGuidOffset]; omega), hla, hlb]
  simp only [typeGuid, getElem?_slice, typeGuidOffset, Nat.add_zero]
  split_ifs <;> first | rfl | omega | (congr 1; omega)

theorem typeGuid_swap_left (hd : a + typeGuidSize ≤ b) :
    typeGuid (swapTypeGuids pentries a b) a = typeGuid pentries b := by
  refine List.ext_getElem? fun i => ?_
  simp only [typeGuid, getElem?_slice, getElem?_swapTypeGuids ha hb, typeGuidOffset, Nat.add_zero]
  split_ifs <;> first | rfl | omega | (congr 1; omega)

theorem typeGuid_swap_right : typeGuid (swapTypeGuids pentries a b) b = typeGuid pentries a := by
  refine List.ext_getElem? fun i => ?_
  simp only [typeGuid, getElem?_slice, getElem?_swapTypeGuids ha hb, typeGuidOffset, Nat.add_zero]
  split_ifs <;> first | rfl | omega | (congr 1; omega)

theorem getElem?_swapTypeGuids_of_notIn {i : ℕ} (hia : ¬ InGuid a i) (hib : ¬ InGuid b i) :
    (swapTypeGuids pentries a b)[i]? = pentries[i]? := by
  unfold InGuid at hia hib
  rw [getElem?_swapTypeGuids ha hb, if_neg hib, if_neg hia]

/-- Exchanging type GUIDs changes no name. -/
theorem nameMatches_swapTypeGuids (hsize : 128 ≤ size) (hka : ∃ k, a = k * size)
    (hkb : ∃ k, b = k * size) (k : ℕ) :
    nameMatches ptnName (swapTypeGuids pentries a b) (k * size) =
      nameMatches ptnName pentries (k * size) := by
  have hname : (List.range (maxGptNameSize / 2)).map
      (name8 (swapTypeGuids pentries a b) (k * size)) =
      (List.range (maxGptNameSize / 2)).map (name8 pentries (k * size)) := by
    refine List.map_congr_left fun i hi => ?_
    have hi' : i < 36 := List.mem_range.1 hi
    -- a name byte is at 56 + 2 i in its entry, beyond the type GUID of any entry
    have hout : ∀ e, (∃ l, e = l * size) →
        ¬ InGuid e (k * size + partitionNameOffset + i * 2) := by
      rintro _ ⟨l, rfl⟩ ⟨h1, h2⟩
      have hoff : partitionNameOffset = 56 := rfl
      have hsz : typeGuidSize = 16 := rfl
      rcases Nat.lt_or_ge k l with hlt | hge
      · have : (k + 1) * size ≤ l * size := Nat.mul_le_mul_right _ hlt
        rw [Nat.add_mul, Nat.one_mul] at this
        omega
      · have : l * size ≤ k * size := Nat.mul_le_mul_right _ hge
        omega
    simp only [name8, List.getD_eq_getElem?_getD,
      getElem?_swapTypeGuids_of_notIn ha hb (hout a hka) (hout b hkb)]
  simp only [nameMatches, hname]

end Exchange

/-! ### The whole swap -/

/-- Two entries of the array are equal or their type GUIDs are disjoint. -/
theorem notInGuid_of_ne (hsize : 128 ≤ size) {k l : ℕ} (h : k ≠ l) {i : ℕ}
    (hi : InGuid (k * size) i) : ¬ InGuid (l * size) i := by
  rintro ⟨h1, h2⟩
  obtain ⟨h3, h4⟩ := hi
  have hsz : typeGuidSize = 16 := rfl
  rcases Nat.lt_or_gt_of_ne h with hlt | hlt
  · have : (k + 1) * size ≤ l * size := Nat.mul_le_mul_right _ hlt
    rw [Nat.add_mul, Nat.one_mul] at this
    omega
  · have : (l + 1) * size ≤ k * size := Nat.mul_le_mul_right _ hlt
    rw [Nat.add_mul, Nat.one_mul] at this
    omega

theorem typeGuid_congr {pentries' : Bytes} {e : ℕ}
    (h : ∀ i, InGuid e i → pentries'[i]? = pentries[i]?) :
    typeGuid pentries' e = typeGuid pentries e := by
  refine List.ext_getElem? fun i => ?_
  simp only [typeGuid, getElem?_slice, typeGuidOffset, Nat.add_zero]
  split_ifs with hi
  · exact h _ ⟨by omega, by omega⟩
  · rfl

/-- The pairs found after an exchange are the pairs found before it. -/
theorem findPair_swapTypeGuids (hsize : 128 ≤ size) {n m : Bytes} {a b : ℕ}
    (h : findPair pentries size n = some (a, b)) :
    findPair (swapTypeGuids pentries a b) size m = findPair pentries size m := by
  obtain ⟨ha, hb, -, -, k, l, hk, hl, -⟩ := findPair_spec h
  have hlen := length_swapTypeGuids ha hb
  have hseek : ∀ j, gptPentrySeek m (swapTypeGuids pentries a b) (j * size) size =
      gptPentrySeek m pentries (j * size) size := by
    intro j
    rw [gptPentrySeek, gptPentrySeek, hlen]
    refine gptPentrySeekLoop_congr hlen fun i => ?_
    rw [← Nat.add_mul]
    exact nameMatches_swapTypeGuids ha hb hsize ⟨k, hk⟩ ⟨l, hl⟩ (j + i)
  have h0 := hseek 0
  rw [Nat.zero_mul] at h0
  unfold findPair
  rw [h0]
  cases hs : gptPentrySeek m pentries 0 size with
  | none => rfl
  | some e =>
    obtain ⟨-, -, j, rfl⟩ := gptPentrySeekLoop_spec hs
    have := hseek (j + 1)
    rw [show (j + 1) * size = 0 + j * size + size by ring] at this
    simp only [this]

/-- `p` is one of the two entries found for a name of `names`. -/
def InPair (pentries : Bytes) (size : ℕ) (names : List Bytes) (e : ℕ) : Prop :=
  ∃ n ∈ names, ∃ a b, findPair pentries size n = some (a, b) ∧ (e = a ∨ e = b)

/-- Entries found for different names are different entries. -/
theorem notInGuid_of_pair (hsize : 128 ≤ size) {n : Bytes} {names : List Bytes}
    (hn : n ∈ ptnSwapList) (hsub : ∀ m ∈ names, m ∈ ptnSwapList) (hnot : n ∉ names) {a b : ℕ}
    (h : findPair pentries size n = some (a, b)) {e : ℕ} (he : InPair pentries size names e)
    {i : ℕ} (hi : InGuid e i) : ¬ InGuid a i ∧ ¬ InGuid b i := by
  obtain ⟨-, -, hma, hmb, ka, kb, hka, hkb, -⟩ := findPair_spec h
  obtain ⟨m, hm, a', b', hm', he⟩ := he
  obtain ⟨-, -, hma', hmb', ka', kb', hka', hkb', -⟩ := findPair_spec hm'
  have hne : ∀ e', nameMatches n pentries e' = true → e ≠ e' := by
    rintro _ hmatch rfl
    have : nameMatches m pentries e = true := by rcases he with rfl | rfl <;> assumption
    exact hnot (eq_of_nameMatches hn (hsub m hm) hmatch this ▸ hm)
  have hk : ∃ k, e = k * size := by
    rcases he with rfl | rfl
    · exact ⟨ka', hka'⟩
    · exact ⟨kb', hkb'⟩
  obtain ⟨k, rfl⟩ := hk
  constructor
  · rw [hka]
    exact notInGuid_of_ne hsize (fun hc => hne a hma (by rw [hc, hka])) hi
  · rw [hkb]
    exact notInGuid_of_ne hsize (fun hc => hne b hmb (by rw [hc, hkb])) hi

/-- `pentries'` is `pentries` with the type GUIDs of the pair of each name exchanged. -/
structure Exchanged (pentries : Bytes) (size : ℕ) (names : List Bytes) (pentries' : Bytes) :
    Prop where
  length : pentries'.length = pentries.length
  exchanged : ∀ n ∈ names, ∀ a b, findPair pentries size n = some (a, b) →
    typeGuid pentries' a = typeGuid pentries b ∧ typeGuid pentries' b = typeGuid pentries a
  unchanged : ∀ i, (∀ e, InPair pentries size names e → ¬ InGuid e i) →
    pentries'[i]? = pentries[i]?

/-- What the loop of `gpt_boot_chain_swap` over `names` does to the array, whatever the code
accumulated so far. -/
structure Swapped (pentries : Bytes) (size : ℕ) (names : List Bytes) (code : ℤ)
    (res : ℤ × Bytes) : Prop extends Exchanged pentries size names res.2 where
  found : (∃ n ∈ names, (findPair pentries size n).isSome) → res.1 = 0
  notFound : (∀ n ∈ names, findPair pentries size n = none) → res = (code, pentries)

/-- A round that finds no pair changes nothing. -/
theorem Swapped.cons_of_none {n : Bytes} {names : List Bytes} {code : ℤ} {res : ℤ × Bytes}
    (hp : findPair pentries size n = none) (h : Swapped pentries size names code res) :
    Swapped pentries size (n :: names) code res := by
  obtain ⟨⟨h1, h2, h3⟩, h4, h5⟩ := h
  refine ⟨⟨h1, ?_, fun i hi => h3 i fun e he => hi e ?_⟩, ?_, fun h => h5 fun m hm =>
    h m (List.mem_cons_of_mem _ hm)⟩
  · intro m hm a b hab
    rcases List.mem_cons.1 hm with rfl | hm
    · rw [hp] at hab; cases hab
    · exact h2 m hm a b hab
  · obtain ⟨m, hm, h⟩ := he
    exact ⟨m, List.mem_cons_of_mem _ hm, h⟩
  · rintro ⟨m, hm, hsome⟩
    rcases List.mem_cons.1 hm with rfl | hm
    · rw [hp] at hsome; cases hsome
    · exact h4 ⟨m, hm, hsome⟩

section Round

variable {n : Bytes} {names : List Bytes} {a b : ℕ} {pentries' : Bytes}

/-- The pair of a round keeps what the round made of it: the later rounds do not touch it. -/
theorem Exchanged.typeGuid_of_sep (h : Exchanged (swapTypeGuids pentries a b) size names pentries')
    (hsep : ∀ e, InPair (swapTypeGuids pentries a b) size names e → ∀ i, InGuid e i →
      ¬ InGuid a i ∧ ¬ InGuid b i) {e : ℕ} (he : e = a ∨ e = b) :
    typeGuid pentries' e = typeGuid (swapTypeGuids pentries a b) e := by
  refine typeGuid_congr fun i hi => h.unchanged i fun e' he' hi' => ?_
  rcases he with rfl | rfl
  · exact (hsep e' he' i hi').1 hi
  · exact (hsep e' he' i hi').2 hi

/-- A round that finds a pair, followed by the later rounds. -/
theorem Exchanged.cons_of_some (hsize : 128 ≤ size) (hn : n ∈ ptnSwapList)
    (hsub : ∀ m ∈ names, m ∈ ptnSwapList) (hnot : n ∉ names)
    (hp : findPair pentries size n = some (a, b))
    (h : Exchanged (swapTypeGuids pentries a b) size names pentries') :
    Exchanged pentries size (n :: names) pentries' := by
  obtain ⟨ha, hb, -, -, ka, kb, hka, hkb, hlt⟩ := findPair_spec hp
  have hpair : ∀ m, findPair (swapTypeGuids pentries a b) size m =
      findPair pentries size m := fun m => findPair_swapTypeGuids hsize hp
  have hin : ∀ e, InPair (swapTypeGuids pentries a b) size names e ↔
      InPair pentries size names e := by
    intro e; simp only [InPair, hpair]
  have hsep : ∀ e, InPair pentries size names e → ∀ i, InGuid e i →
      ¬ InGuid a i ∧ ¬ InGuid b i := fun e he i hi =>
    notInGuid_of_pair hsize hn hsub hnot hp he hi
  refine ⟨by rw [h.length, length_swapTypeGuids ha hb], ?_, fun i hi => ?_⟩
  · intro m hm a' b' hab
    rcases List.mem_cons.1 hm with rfl | hm
    · rw [hp] at hab
      cases hab
      have hkeep : ∀ e, e = a ∨ e = b →
          typeGuid pentries' e = typeGuid (swapTypeGuids pentries a b) e :=
        fun e he => h.typeGuid_of_sep (fun e he => hsep e ((hin e).1 he)) he
      have hdisj : a + typeGuidSize ≤ b := by
        have hsz : typeGuidSize = 16 := rfl
        have : (ka + 1) * size ≤ kb * size := Nat.mul_le_mul_right _ hlt
        rw [Nat.add_mul, Nat.one_mul] at this
        omega
      rw [hkeep a (.inl rfl), hkeep b (.inr rfl)]
      exact ⟨typeGuid_swap_left ha hb hdisj, typeGuid_swap_right ha hb⟩
    · -- a pair of a later round: this round did not touch it
      have hkeep : ∀ e, e = a' ∨ e = b' →
          typeGuid (swapTypeGuids pentries a b) e = typeGuid pentries e := by
        intro e he
        refine typeGuid_congr fun i hi => ?_
        obtain ⟨hia, hib⟩ := hsep e ⟨m, hm, a', b', hab, he⟩ i hi
        exact getElem?_swapTypeGuids_of_notIn ha hb hia hib
      rw [← hkeep a' (.inl rfl), ← hkeep b' (.inr rfl)]
      exact h.exchanged m hm a' b' (by rw [hpair, hab])
  · have hlater : ∀ e, InPair (swapTypeGuids pentries a b) size names e → ¬ InGuid e i := by
      intro e he
      obtain ⟨m, hm, h⟩ := (hin e).1 he
      exact hi e ⟨m, List.mem_cons_of_mem _ hm, h⟩
    rw [h.unchanged i hlater]
    exact getElem?_swapTypeGuids_of_notIn ha hb
      (hi a ⟨n, List.mem_cons_self, a, b, hp, .inl rfl⟩)
      (hi b ⟨n, List.mem_cons_self, a, b, hp, .inr rfl⟩)

theorem Swapped.cons_of_some (hsize : 128 ≤ size) (hn : n ∈ ptnSwapList)
    (hsub : ∀ m ∈ names, m ∈ ptnSwapList) (hnot : n ∉ names)
    (hp : findPair pentries size n = some (a, b)) {code : ℤ} {res : ℤ × Bytes}
    (h : Swapped (swapTypeGuids pentries a b) size names 0 res) :
    Swapped pentries size (n :: names) code res := by
  refine ⟨h.toExchanged.cons_of_some hsize hn hsub hnot hp, fun _ => ?_, fun hnone => ?_⟩
  · -- the code is `0` from this round on
    by_cases hsome : ∃ m ∈ names, (findPair (swapTypeGuids pentries a b) size m).isSome
    · exact h.found hsome
    · have hnone : ∀ m ∈ names, findPair (swapTypeGuids pentries a b) size m = none := by
        intro m hm
        by_contra hc
        exact hsome ⟨m, hm, Option.isSome_iff_ne_none.2 hc⟩
      rw [h.notFound hnone]
  · rw [hnone n List.mem_cons_self] at hp
    cases hp

end Round

theorem foldl_swapRound (hsize : 128 ≤ size) (names : List Bytes)
    (hsub : ∀ n ∈ names, n ∈ ptnSwapList) (hnodup : names.Nodup) (code : ℤ) (pentries : Bytes) :
    Swapped pentries size names code (names.foldl (swapRound size) (code, pentries)) := by
  induction names generalizing code pentries with
  | nil =>
    exact ⟨⟨rfl, by simp, fun _ _ => rfl⟩, by simp, fun _ => rfl⟩
  | cons n names ih =>
    have hsub' : ∀ m ∈ names, m ∈ ptnSwapList := fun m hm => hsub m (List.mem_cons_of_mem _ hm)
    obtain ⟨hnot, hnodup'⟩ := List.nodup_cons.1 hnodup
    rw [List.foldl_cons]
    cases hp : findPair pentries size n with
    | none =>
      have hround : swapRound size (code, pentries) n = (code, pentries) := by
        simp only [swapRound, hp]
      rw [hround]
      exact (ih hsub' hnodup' code pentries).cons_of_none hp
    | some ab =>
      obtain ⟨a, b⟩ := ab
      have hround : swapRound size (code, pentries) n = (0, swapTypeGuids pentries a b) := by
        simp only [swapRound, hp]
      rw [hround]
      exact (ih hsub' hnodup' 0 (swapTypeGuids pentries a b)).cons_of_some hsize
        (hsub n List.mem_cons_self) hsub' hnot hp

/-- **The boot chain swap.**  Every pair found in the array has its type GUIDs exchanged, every
other byte is unchanged, and the code says whether a pair was found. -/
theorem gptBootChainSwap_spec (hsize : 128 ≤ size) (pentries : Bytes) :
    Swapped pentries size ptnSwapList 1 (gptBootChainSwap pentries size) :=
  foldl_swapRound hsize ptnSwapList (fun _ h => h) (by decide) 1 pentries

theorem length_gptBootChainSwap (hsize : 128 ≤ size) (pentries : Bytes) :
    (gptBootChainSwap pentries size).2.length = pentries.length :=
  (gptBootChainSwap_spec hsize pentries).length

end Gpt

end Msm8909w
