import Mathlib.Data.List.FinRange
import Msm8909w.Gpt.Swap

/-!
# Swapping the boot chain twice

`gpt_boot_chain_swap` as an operation on the array of partition entries.  A round exchanges the
type GUIDs of two entries and changes no name, so that a second swap finds the pairs of the first
one (`findPair_gptBootChainSwap`) and exchanges them back.

* `BootChainSwap` : only type GUIDs of entries with a name of the swap list change, the type GUIDs
  are permuted, and a second swap restores the array,
* `not_changesNamedUtf16_lowByteTwins` : which entries these are is decided without the second
  bytes of the characters, so that an entry whose UTF-16 name is not on the list can be one of
  them.
-/

namespace Msm8909w

namespace Gpt

variable {pentries : Bytes} {size : ℕ}

/-! ### The type GUIDs -/

/-- The type GUIDs of all entries, in their order. -/
def typeGuids (pentries : Bytes) (size : ℕ) : List Bytes :=
  List.ofFn fun k : Fin (pentries.length / size) => typeGuid pentries (k * size)

/-- The type GUID of an entry after an exchange. -/
theorem typeGuid_swapTypeGuids (hsize : 128 ≤ size) {k l : ℕ} (hkl : k < l)
    (hk : k * size + partitionNameOffset < pentries.length)
    (hl : l * size + partitionNameOffset < pentries.length) (j : ℕ) :
    typeGuid (swapTypeGuids pentries (k * size) (l * size)) (j * size) =
      typeGuid pentries (Equiv.swap k l j * size) := by
  have hsz : typeGuidSize = 16 := rfl
  rcases eq_or_ne j k with rfl | hjk
  · rw [Equiv.swap_apply_left]
    have hle : (j + 1) * size ≤ l * size := Nat.mul_le_mul_right _ hkl
    rw [Nat.add_mul, Nat.one_mul] at hle
    exact typeGuid_swap_left hk hl (by omega)
  rcases eq_or_ne j l with rfl | hjl
  · rw [Equiv.swap_apply_right]
    exact typeGuid_swap_right hk hl
  · rw [Equiv.swap_apply_of_ne_of_ne hjk hjl]
    refine typeGuid_congr fun i hi => ?_
    exact getElem?_swapTypeGuids_of_notIn hk hl (notInGuid_of_ne hsize hjk hi)
      (notInGuid_of_ne hsize hjl hi)

/-- An exchange permutes the type GUIDs. -/
theorem typeGuids_swapTypeGuids_perm (hsize : 128 ≤ size) (hdvd : size ∣ pentries.length)
    {k l : ℕ} (hkl : k < l) (hl : l * size + partitionNameOffset < pentries.length) :
    (typeGuids (swapTypeGuids pentries (k * size) (l * size)) size).Perm
      (typeGuids pentries size) := by
  have hle : k * size ≤ l * size := Nat.mul_le_mul_right _ hkl.le
  have hk : k * size + partitionNameOffset < pentries.length := by omega
  have hlt : l < pentries.length / size :=
    (Nat.lt_div_iff_mul_lt' hdvd l).2 (by rw [Nat.mul_comm]; omega)
  have hlen := length_swapTypeGuids hk hl
  rw [typeGuids, typeGuids, hlen]
  let σ : Equiv.Perm (Fin (pentries.length / size)) := Equiv.swap ⟨k, hkl.trans hlt⟩ ⟨l, hlt⟩
  have hσ : ∀ j, ((σ j : Fin _) : ℕ) = Equiv.swap k l j := by
    intro j
    simp only [σ, Equiv.swap_apply_def, Fin.ext_iff]
    split_ifs <;> rfl
  refine .trans (.of_eq ?_) (σ.ofFn_comp_perm fun j => typeGuid pentries (j * size))
  refine congrArg List.ofFn (funext fun j => ?_)
  rw [Function.comp_apply, hσ]
  exact typeGuid_swapTypeGuids hsize hkl hk hl j

/-! ### All rounds -/

/-- What a round keeps of the array: the pairs that are found, and the type GUIDs up to their
order. -/
structure SameEntries (pentries : Bytes) (size : ℕ) (pentries' : Bytes) : Prop where
  length : pentries'.length = pentries.length
  pairs : ∀ n, findPair pentries' size n = findPair pentries size n
  guids : (typeGuids pentries' size).Perm (typeGuids pentries size)

theorem SameEntries.refl (pentries : Bytes) (size : ℕ) : SameEntries pentries size pentries :=
  ⟨rfl, fun _ => rfl, .refl _⟩

theorem SameEntries.trans {p q r : Bytes} (h : SameEntries p size q) (h' : SameEntries q size r) :
    SameEntries p size r where
  length := h'.length.trans h.length
  pairs n := (h'.pairs n).trans (h.pairs n)
  guids := h'.guids.trans h.guids

theorem sameEntries_swapRound (hsize : 128 ≤ size) (hdvd : size ∣ pentries.length) (code : ℤ)
    (n : Bytes) : SameEntries pentries size (swapRound size (code, pentries) n).2 := by
  cases hp : findPair pentries size n with
  | none =>
    simp only [swapRound, hp]
    exact .refl _ _
  | some ab =>
    obtain ⟨a, b⟩ := ab
    obtain ⟨ha, hb, -, -, k, l, rfl, rfl, hkl⟩ := findPair_spec hp
    simp only [swapRound, hp]
    exact ⟨length_swapTypeGuids ha hb, fun m => findPair_swapTypeGuids hsize hp,
      typeGuids_swapTypeGuids_perm hsize hdvd hkl hb⟩

theorem sameEntries_foldl_swapRound (hsize : 128 ≤ size) (names : List Bytes) (code : ℤ)
    (pentries : Bytes) (hdvd : size ∣ pentries.length) :
    SameEntries pentries size (names.foldl (swapRound size) (code, pentries)).2 := by
  induction names generalizing code pentries with
  | nil => exact .refl _ _
  | cons n names ih =>
    have hround := sameEntries_swapRound hsize hdvd code n
    have hlen := hround.length
    rw [List.foldl_cons]
    exact hround.trans (ih _ _ (by rwa [hlen]))

theorem sameEntries_gptBootChainSwap (hsize : 128 ≤ size) (hdvd : size ∣ pentries.length) :
    SameEntries pentries size (gptBootChainSwap pentries size).2 :=
  sameEntries_foldl_swapRound hsize ptnSwapList 1 pentries hdvd

/-- Position by position, a type GUID is what `typeGuid` reads. -/
theorem getElem?_of_inGuid {e i : ℕ} (hi : InGuid e i) :
    pentries[i]? = (typeGuid pentries e)[i - e]? := by
  obtain ⟨h1, h2⟩ := hi
  rw [typeGuid, getElem?_slice, if_pos (by omega), typeGuidOffset, Nat.add_zero,
    Nat.add_sub_of_le h1]

/-- Two arrays between which all pairs of the same entries were exchanged twice are equal. -/
theorem Exchanged.eq_of_twice {names : List Bytes} {q r : Bytes}
    (h : Exchanged pentries size names q) (h' : Exchanged q size names r)
    (hpairs : ∀ n, findPair q size n = findPair pentries size n) : r = pentries := by
  have hin : ∀ e, InPair q size names e ↔ InPair pentries size names e := by
    intro e
    simp only [InPair, hpairs]
  refine List.ext_getElem? fun i => ?_
  by_cases hi : ∃ e, InPair pentries size names e ∧ InGuid e i
  · obtain ⟨e, ⟨n, hn, a, b, hab, he⟩, hie⟩ := hi
    obtain ⟨hqa, hqb⟩ := h.exchanged n hn a b hab
    obtain ⟨hra, hrb⟩ := h'.exchanged n hn a b ((hpairs n).trans hab)
    have hback : typeGuid r e = typeGuid pentries e := by
      rcases he with rfl | rfl
      · exact hra.trans hqb
      · exact hrb.trans hqa
    rw [getElem?_of_inGuid hie, hback, ← getElem?_of_inGuid hie]
  · have hout : ∀ e, InPair pentries size names e → ¬ InGuid e i :=
      fun e he hie => hi ⟨e, he, hie⟩
    rw [h'.unchanged i fun e he => hout e ((hin e).1 he), h.unchanged i hout]

/-- **What the swap is as an operation on the array.** -/
structure BootChainSwap (pentries : Bytes) (size : ℕ) : Prop where
  length : (gptBootChainSwap pentries size).2.length = pentries.length
  changes : ∀ i, (gptBootChainSwap pentries size).2[i]? ≠ pentries[i]? →
    ∃ k < pentries.length / size, k * size ≤ i ∧ i < k * size + typeGuidSize ∧
      ∃ n ∈ ptnSwapList, isPartition n pentries (k * size) ∨ isBackup n pentries (k * size)
  guids : (typeGuids (gptBootChainSwap pentries size).2 size).Perm (typeGuids pentries size)
  twice : (gptBootChainSwap (gptBootChainSwap pentries size).2 size).2 = pentries

theorem bootChainSwap (pentries : Bytes) (size : ℕ) (hsize : 128 ≤ size)
    (hdvd : size ∣ pentries.length) : BootChainSwap pentries size := by
  have hsame := sameEntries_gptBootChainSwap hsize hdvd
  have hfirst := (gptBootChainSwap_spec hsize pentries).toExchanged
  have hsecond := (gptBootChainSwap_spec hsize (gptBootChainSwap pentries size).2).toExchanged
  refine ⟨hsame.length, fun i hi => ?_, hsame.guids, hfirst.eq_of_twice hsecond hsame.pairs⟩
  -- a byte that changes lies in the type GUID of an entry of a pair
  obtain ⟨e, ⟨n, hn, a, b, hab, he⟩, hie⟩ :
      ∃ e, InPair pentries size ptnSwapList e ∧ InGuid e i := by
    by_contra hnone
    exact hi (hfirst.unchanged i fun e he hie => hnone ⟨e, he, hie⟩)
  obtain ⟨ha, hb, hma, hmb, k, l, rfl, rfl, -⟩ := findPair_spec hab
  have hentry : ∀ j, j * size + partitionNameOffset < pentries.length →
      nameMatches n pentries (j * size) = true → InGuid (j * size) i →
      ∃ k < pentries.length / size, k * size ≤ i ∧ i < k * size + typeGuidSize ∧
        ∃ n ∈ ptnSwapList, isPartition n pentries (k * size) ∨ isBackup n pentries (k * size) := by
    intro j hj hm hij
    rw [nameMatches_eq, Bool.or_eq_true] at hm
    have hlt : j < pentries.length / size :=
      (Nat.lt_div_iff_mul_lt' hdvd j).2 (by rw [Nat.mul_comm]; omega)
    exact ⟨j, hlt, hij.1, hij.2, n, hn, hm⟩
  rcases he with rfl | rfl
  · exact hentry k ha hma hie
  · exact hentry l hb hmb hie

/-! ### Names in UTF-16 -/

/-- The name of an entry, character by character. -/
def nameUtf16 (pentries : Bytes) (entry : ℕ) : List ℕ :=
  ((List.range (maxGptNameSize / 2)).map fun i =>
    ofLE (slice pentries (entry + partitionNameOffset + i * 2) 2)).takeWhile (· ≠ 0)

/-- Only type GUIDs of entries whose UTF-16 name is on the swap list, or is such a name followed by
`bak`, change. -/
def ChangesNamedUtf16 (pentries : Bytes) (size : ℕ) : Prop :=
  ∀ i, (gptBootChainSwap pentries size).2[i]? ≠ pentries[i]? →
    ∃ k < pentries.length / size, k * size ≤ i ∧ i < k * size + typeGuidSize ∧
      ∃ n ∈ ptnSwapList, nameUtf16 pentries (k * size) = n.map UInt8.toNat ∨
        nameUtf16 pentries (k * size) = (n ++ bakPtnNameExt).map UInt8.toNat

/-- An entry of 128 bytes. -/
def entryNamed (guid : UInt8) (name : Bytes) : Bytes :=
  List.replicate typeGuidSize guid ++ List.replicate 40 0 ++ name ++
    List.replicate (maxGptNameSize - name.length) 0

/-- The names `tz` and `ŴŹ`, whose characters have the low bytes of `tz`. -/
def lowByteTwins : Bytes := entryNamed 1 [0x74, 0, 0x7A, 0] ++ entryNamed 2 [0x74, 1, 0x7A, 1]

theorem dvd_length_lowByteTwins : 128 ∣ lowByteTwins.length := ⟨2, by decide +kernel⟩

theorem bootChainSwap_lowByteTwins : BootChainSwap lowByteTwins 128 :=
  bootChainSwap lowByteTwins 128 le_rfl dvd_length_lowByteTwins

theorem not_changesNamedUtf16_lowByteTwins :
    128 ∣ lowByteTwins.length ∧ ¬ ChangesNamedUtf16 lowByteTwins 128 := by
  refine ⟨dvd_length_lowByteTwins, fun h => ?_⟩
  obtain ⟨k, hk, hle, hlt, hnames⟩ := h 128 (by decide +kernel)
  have hsz : typeGuidSize = 16 := rfl
  obtain rfl : k = 1 := by omega
  revert hnames
  decide +kernel

end Gpt

end Msm8909w
