import Mathlib.Data.Multiset.Filter
import Mathlib.Data.Nat.Bitwise
import Msm8909w.Hid.Wrappers

/-!
# What a host sees of the keyboard

Which keys are held is a state of its own (`Held`): the modifiers and the media keys by their bits,
and at most six other keys.

* `KeyboardWrapper.pressed_reports` : over every sequence of touches, what the host takes from each
  report is what is held at that time,
* `KeyboardWrapper.mem_pressed_after` : no key gets stuck, and with room for them all keys that are
  down are seen.
-/

namespace Msm8909w.Hid

open ReportDescriptor

/-- A touch of a key. -/
inductive KeyEvent
  | down (key : UInt8)
  | up (key : UInt8)
deriving DecidableEq

namespace KeyboardWrapper

def touch (mBuffer : ReportBuffer 8) : KeyEvent → ReportBuffer 8
  | .down key => keyDown mBuffer key
  | .up key => keyUp mBuffer key

/-- The buffer after each touch, which is the report that it sends. -/
def reports (mBuffer : ReportBuffer 8) : List KeyEvent → List Bytes
  | [] => []
  | e :: es => (touch mBuffer e).bytes :: reports (touch mBuffer e) es

end KeyboardWrapper

/-! ### What is held -/

/-- The three kinds of keys. -/
inductive KeyKind
  | modifier (i : ℕ)
  | media (i : ℕ)
  | ordinary
deriving DecidableEq

/-- The kind of a key code.  The range of the modifiers has one place too many, the ninth, which no
host knows; of the codes above 0x80 that are no modifiers only the last three bits count. -/
def kind (key : UInt8) : KeyKind :=
  if 0xe0 ≤ key.toNat ∧ key.toNat ≤ 0xe8 then .modifier (key.toNat - 0xe0)
  else if 0x80 ≤ key.toNat then .media (key.toNat % 8)
  else .ordinary

/-- The keys that are held. -/
structure Held where
  modifiers : Finset ℕ
  media : Finset ℕ
  keys : Multiset UInt8

namespace Held

def empty : Held := ⟨∅, ∅, 0⟩

/-- A key is pressed.  There is room for six ordinary keys; the code 0 stands for none. -/
def down (h : Held) (key : UInt8) : Held :=
  match kind key with
  | .modifier i => { h with modifiers := insert i h.modifiers }
  | .media i => { h with media := insert i h.media }
  | .ordinary => if key = 0 ∨ h.keys.card = 6 then h else { h with keys := key ::ₘ h.keys }

/-- A key is released. -/
def up (h : Held) (key : UInt8) : Held :=
  match kind key with
  | .modifier i => { h with modifiers := h.modifiers.erase i }
  | .media i => { h with media := h.media.erase i }
  | .ordinary => { h with keys := h.keys.erase key }

def touch (h : Held) : KeyEvent → Held
  | .down key => h.down key
  | .up key => h.up key

/-- What is held after each touch. -/
def history (h : Held) : List KeyEvent → List Held
  | [] => []
  | e :: es => h.touch e :: history (h.touch e) es

/-- What the host is to see: the eight modifiers, the seven media keys and the ordinary keys that
the descriptor has a usage for. -/
def shown (h : Held) : Multiset Usage :=
  ((List.range 8).filter (· ∈ h.modifiers)).map modifierUsage +
    ((List.range 7).filter (· ∈ h.media)).map mediaUsage +
    (h.keys.filter (·.toNat ≤ 0x65)).map (keyUsage ·.toNat)

end Held

/-- The keys that a host takes from a report: the usages that are on, apart from the one that
stands for no key. -/
def pressed (r : Bytes) : List Usage :=
  on (· ≠ keyUsage 0) (decode reportFields KEYBOARD_INPUT_REPORT_ID.toNat r)

/-! ### The buffer and what is held -/

/-- The buffer holds what is held. -/
def Holds (b : ReportBuffer 8) (h : Held) : Prop :=
  ∃ (m c : UInt8) (ks : Bytes), b.bytes = m :: c :: ks ∧
    (∀ i < 8, m.toNat.testBit i = decide (i ∈ h.modifiers)) ∧
    (∀ i < 8, c.toNat.testBit i = decide (i ∈ h.media)) ∧
    ((ks.filter (· ≠ 0) : List UInt8) : Multiset UInt8) = h.keys

theorem length_keys {b : ReportBuffer 8} {m c : UInt8} {ks : Bytes} (h : b.bytes = m :: c :: ks) :
    ks.length = 6 := by
  have hlen := b.length_bytes
  rw [h, List.length_cons, List.length_cons] at hlen
  exact Nat.succ_injective (Nat.succ_injective hlen)

theorem holds_new : Holds (.new 8) .empty :=
  ⟨0, 0, List.replicate 6 0, rfl, by decide, by decide, rfl⟩

theorem signed_eq (b : UInt8) :
    signed b = if b.toNat < 0x80 then (b.toNat : ℤ) else b.toNat - 0x100 := by
  have hlt : b.toBitVec.toNat < 0x100 := b.toNat_lt
  rw [signed, BitVec.toInt_eq_toNat_cond]
  change (if 2 * b.toBitVec.toNat < 2 ^ 8 then (b.toBitVec.toNat : ℤ) else _) =
    if b.toBitVec.toNat < 0x80 then (b.toBitVec.toNat : ℤ) else b.toBitVec.toNat - 0x100
  split_ifs <;> omega

theorem isModifier_iff (key : UInt8) :
    (KeyboardWrapper.MODIFIER_BASE ≤ signed key ∧
      signed key ≤ KeyboardWrapper.MODIFIER_BASE + KeyboardWrapper.MODIFIER_COUNT) ↔
      0xe0 ≤ key.toNat ∧ key.toNat ≤ 0xe8 := by
  have hlt := key.toNat_lt
  rw [signed_eq, KeyboardWrapper.MODIFIER_BASE, KeyboardWrapper.MODIFIER_COUNT]
  split_ifs <;> omega

theorem and_0x80_eq_zero_iff (key : UInt8) : key &&& 0x80 = 0 ↔ key.toNat < 0x80 := by
  have hlt := key.toNat_lt
  have hand : (key &&& 0x80).toNat = (key.toNat.testBit 7).toNat * 2 ^ 7 := by
    rw [UInt8.toNat_and]
    exact Nat.and_two_pow _ 7
  have hbit : key.toNat.testBit 7 = decide (key.toNat / 2 ^ 7 % 2 = 1) :=
    Nat.testBit_eq_decide_div_mod_eq
  rw [← UInt8.toNat_inj, hand, hbit]
  by_cases h : key.toNat / 2 ^ 7 % 2 = 1
  · rw [decide_eq_true h]
    exact ⟨fun h' => absurd h' (by decide), fun h' => by omega⟩
  · rw [decide_eq_false h]
    exact ⟨fun _ => by omega, fun _ => rfl⟩

theorem toNat_and_0x07 (key : UInt8) : ((key &&& 0x07).toNat : ℤ) % 32 = (key.toNat % 8 : ℕ) := by
  have hand : (key &&& 0x07).toNat = key.toNat % 8 := by
    rw [UInt8.toNat_and]
    exact Nat.and_two_pow_sub_one_eq_mod _ 3
  omega

/-! ### One touch -/

variable {b : ReportBuffer 8} {h : Held}

theorem replace_same (ks : Bytes) (k : UInt8) : ks.replace k k = ks := by
  induction ks with
  | nil => rfl
  | cons a ks ih =>
    rw [List.replace_cons, ih]
    cases hk : k == a with
    | true => rw [eq_of_beq hk]
    | false => rfl

/-- The first free place gets the key, if there is one. -/
theorem filter_replace_zero {key : UInt8} (hkey : key ≠ 0) (ks : Bytes) :
    (((ks.replace 0 key).filter (· ≠ 0) : List UInt8) : Multiset UInt8) =
      if (0 : UInt8) ∈ ks then key ::ₘ ((ks.filter (· ≠ 0) : List UInt8) : Multiset UInt8)
      else ((ks.filter (· ≠ 0) : List UInt8) : Multiset UInt8) := by
  induction ks with
  | nil => rfl
  | cons k ks ih =>
    by_cases hk : k = 0
    · subst hk
      rw [List.replace_cons_self, if_pos List.mem_cons_self, List.filter_cons_of_pos (by simpa),
        List.filter_cons_of_neg (by simp)]
      rfl
    · have hmem : (0 : UInt8) ∈ k :: ks ↔ (0 : UInt8) ∈ ks :=
        ⟨fun h => (List.mem_cons.1 h).resolve_left fun h => hk h.symm, List.mem_cons_of_mem k⟩
      have hbeq : (0 == k) = false := beq_eq_false_iff_ne.2 fun h => hk h.symm
      simp only [List.replace_cons, hbeq]
      rw [List.filter_cons_of_pos (by simpa), List.filter_cons_of_pos (by simpa),
        ← Multiset.cons_coe, ih, ← Multiset.cons_coe]
      simp only [hmem]
      split_ifs
      · exact Multiset.cons_swap _ _ _
      · rfl

/-- The place of a key gets free. -/
theorem filter_replace_key {key : UInt8} (ks : Bytes) :
    (((ks.replace key 0).filter (· ≠ 0) : List UInt8) : Multiset UInt8) =
      ((ks.filter (· ≠ 0) : List UInt8) : Multiset UInt8).erase key := by
  induction ks with
  | nil => rfl
  | cons k ks ih =>
    by_cases hk : k = key
    · subst hk
      rw [List.replace_cons_self, List.filter_cons_of_neg (by simp)]
      by_cases h0 : k = 0
      · have hout : k ∉ ks.filter (· ≠ 0) := fun hmem => by
          simpa [h0] using (List.mem_filter.1 hmem).2
        rw [List.filter_cons_of_neg (by simpa)]
        exact (Multiset.erase_of_notMem hout).symm
      · rw [List.filter_cons_of_pos (by simpa), ← Multiset.cons_coe, Multiset.erase_cons_head]
    · have hbeq : (key == k) = false := beq_eq_false_iff_ne.2 fun h => hk h.symm
      simp only [List.replace_cons, hbeq]
      by_cases h0 : k = 0
      · rw [List.filter_cons_of_neg (by simpa), List.filter_cons_of_neg (by simpa), ih]
      · rw [List.filter_cons_of_pos (by simpa), List.filter_cons_of_pos (by simpa),
          ← Multiset.cons_coe, ih, ← Multiset.cons_coe, Multiset.erase_cons_tail _ hk]

/-- There is a free place unless six ordinary keys are held. -/
theorem mem_zero_iff {ks : Bytes} (hlen : ks.length = 6) :
    (0 : UInt8) ∈ ks ↔ ((ks.filter (· ≠ 0) : List UInt8) : Multiset UInt8).card ≠ 6 := by
  rw [Multiset.coe_card, ← hlen, ne_eq, List.length_filter_eq_length_iff]
  constructor
  · intro hmem hall
    simpa using hall 0 hmem
  · intro hall
    by_contra hmem
    refine hall fun k hk => decide_eq_true fun h0 => hmem (h0 ▸ hk)

/-- The distance of a modifier from the first one. -/
theorem signed_sub_base {key : UInt8} (hmod : 0xe0 ≤ key.toNat ∧ key.toNat ≤ 0xe8) :
    (signed key - KeyboardWrapper.MODIFIER_BASE) % 32 = (key.toNat - 0xe0 : ℕ) := by
  rw [signed_eq, if_neg (by omega), KeyboardWrapper.MODIFIER_BASE]
  omega

theorem Holds.keyDown (hb : Holds b h) (key : UInt8) :
    Holds (KeyboardWrapper.keyDown b key) (h.down key) := by
  obtain ⟨m, c, ks, hbytes, hm, hc, hks⟩ := hb
  by_cases hmod : 0xe0 ≤ key.toNat ∧ key.toNat ≤ 0xe8
  · have hkind : kind key = .modifier (key.toNat - 0xe0) := if_pos hmod
    rw [KeyboardWrapper.keyDown, if_pos ((isModifier_iff key).2 hmod), Held.down, hkind]
    refine ⟨_, c, ks, ?_, testBit_setBit_insert hm (signed_sub_base hmod), hc, hks⟩
    rw [ReportBuffer.bytes_modify, hbytes]
    rfl
  rw [KeyboardWrapper.keyDown, if_neg (mt (isModifier_iff key).1 hmod)]
  by_cases hmedia : 0x80 ≤ key.toNat
  · have hkind : kind key = .media (key.toNat % 8) := by rw [kind, if_neg hmod, if_pos hmedia]
    have hbit : key &&& 0x80 ≠ 0 := fun h0 => by
      have := (and_0x80_eq_zero_iff key).1 h0
      omega
    rw [if_pos hbit, Held.down, hkind]
    refine ⟨m, _, ks, ?_, hm, testBit_setBit_insert hc (toNat_and_0x07 key), hks⟩
    rw [ReportBuffer.bytes_modify, hbytes]
    rfl
  -- an ordinary key: it gets a place if there is one
  · have hkind : kind key = .ordinary := by rw [kind, if_neg hmod, if_neg hmedia]
    have hbit : key &&& 0x80 = 0 := (and_0x80_eq_zero_iff key).2 (Nat.lt_of_not_le hmedia)
    have hbytes' : (b.replace 0x00 key).bytes = m :: c :: ks.replace 0 key := by
      rw [ReportBuffer.bytes_replace, hbytes]
      rfl
    rw [if_neg (not_not_intro hbit), Held.down, hkind]
    refine ⟨m, c, _, hbytes', ?_, ?_, ?_⟩
    · split_ifs <;> exact hm
    · split_ifs <;> exact hc
    by_cases hkey : key = 0
    -- a free place is filled with what it holds already
    · subst hkey
      rw [if_pos (.inl rfl), replace_same]
      exact hks
    · rw [filter_replace_zero hkey, hks]
      simp only [mem_zero_iff (length_keys hbytes), hks, hkey, false_or, ite_not, ne_eq]
      split_ifs <;> rfl

theorem Holds.keyUp (hb : Holds b h) (key : UInt8) :
    Holds (KeyboardWrapper.keyUp b key) (h.up key) := by
  obtain ⟨m, c, ks, hbytes, hm, hc, hks⟩ := hb
  by_cases hmod : 0xe0 ≤ key.toNat ∧ key.toNat ≤ 0xe8
  · have hkind : kind key = .modifier (key.toNat - 0xe0) := if_pos hmod
    rw [KeyboardWrapper.keyUp, if_pos ((isModifier_iff key).2 hmod), Held.up, hkind]
    refine ⟨_, c, ks, ?_, testBit_clearBit_erase hm (signed_sub_base hmod), hc, hks⟩
    rw [ReportBuffer.bytes_modify, hbytes]
    rfl
  rw [KeyboardWrapper.keyUp, if_neg (mt (isModifier_iff key).1 hmod)]
  by_cases hmedia : 0x80 ≤ key.toNat
  · have hkind : kind key = .media (key.toNat % 8) := by rw [kind, if_neg hmod, if_pos hmedia]
    have hbit : key &&& 0x80 ≠ 0 := fun h0 => by
      have := (and_0x80_eq_zero_iff key).1 h0
      omega
    rw [if_pos hbit, Held.up, hkind]
    refine ⟨m, _, ks, ?_, hm, testBit_clearBit_erase hc (toNat_and_0x07 key), hks⟩
    rw [ReportBuffer.bytes_modify, hbytes]
    rfl
  · have hkind : kind key = .ordinary := by rw [kind, if_neg hmod, if_neg hmedia]
    have hbit : key &&& 0x80 = 0 := (and_0x80_eq_zero_iff key).2 (Nat.lt_of_not_le hmedia)
    rw [if_neg (not_not_intro hbit), Held.up, hkind]
    refine ⟨m, c, ks.replace key 0, ?_, hm, hc, ?_⟩
    · rw [ReportBuffer.bytes_replace, hbytes]
      rfl
    · rw [filter_replace_key, hks]

theorem Holds.touch (hb : Holds b h) (e : KeyEvent) :
    Holds (KeyboardWrapper.touch b e) (h.touch e) := by
  cases e with
  | down key => exact hb.keyDown key
  | up key => exact hb.keyUp key

/-! ### What the host sees -/

theorem usages_keysField (k : UInt8) :
    keysField.usages[k.toNat]? = if k.toNat ≤ 0x65 then some (keyUsage k.toNat) else none := by
  rw [keysField, List.getElem?_map]
  split_ifs with hk
  · rw [List.getElem?_range (Nat.lt_succ_of_le hk)]
    rfl
  · rw [List.getElem?_eq_none (by rw [List.length_range]; omega)]
    rfl

theorem on_keys (ks : Bytes) :
    on (· ≠ keyUsage 0)
        (ks.flatMap fun k => (keysField.usages[k.toNat]?.map (·, (1 : ℤ))).toList) =
      ((ks.filter (· ≠ 0)).filter (·.toNat ≤ 0x65)).map (keyUsage ·.toNat) := by
  induction ks with
  | nil => rfl
  | cons k ks ih =>
    have hzero : keyUsage k.toNat = keyUsage 0 ↔ k = 0 :=
      ⟨fun h => UInt8.toNat_inj.1 (congrArg Usage.id h), fun h => h ▸ rfl⟩
    rw [List.flatMap_cons, on_append, ih, usages_keysField]
    by_cases hk : k = 0
    · rw [List.filter_cons_of_neg (by simpa), if_pos (hk ▸ by decide)]
      simp [on, hzero.2 hk]
    · rw [List.filter_cons_of_pos (by simpa)]
      by_cases hle : k.toNat ≤ 0x65
      · rw [List.filter_cons_of_pos (by simpa), if_pos hle, List.map_cons]
        simp [on, mt hzero.1 hk]
      · rw [List.filter_cons_of_neg (by simpa using hle), if_neg hle]
        rfl

/-- What the host takes from a report is what is held. -/
theorem Holds.pressed (hb : Holds b h) : (pressed b.bytes : Multiset Usage) = h.shown := by
  obtain ⟨m, c, ks, hbytes, hm, hc, hks⟩ := hb
  have hmods : (List.range 8).filter m.toNat.testBit = (List.range 8).filter (· ∈ h.modifiers) :=
    List.filter_congr fun i hi => hm i (List.mem_range.1 hi)
  have hmedia : (List.range 7).filter c.toNat.testBit = (List.range 7).filter (· ∈ h.media) :=
    List.filter_congr fun i hi => hc i (by have := List.mem_range.1 hi; omega)
  rw [Hid.pressed, hbytes, decode_keyboard m c (length_keys hbytes), on_append, on_append,
    modifierField, mediaField, byteBits, on_flags (by decide), on_flags (by decide), on_keys, hmods,
    hmedia, Held.shown, ← hks, Multiset.filter_coe, Multiset.map_coe]
  rfl

/-! ### Every sequence of touches -/

namespace KeyboardWrapper

theorem pressed_reports_of_holds (hb : Holds b h) (es : List KeyEvent) :
    (reports b es).map (fun r => (pressed r : Multiset Usage)) = (h.history es).map Held.shown := by
  induction es generalizing b h with
  | nil => rfl
  | cons e es ih =>
    rw [reports, Held.history, List.map_cons, List.map_cons, (hb.touch e).pressed,
      ih (hb.touch e)]

/-- **The keyboard**: over every sequence of touches, what the host takes from each report is what
is held at that time. -/
theorem pressed_reports (es : List KeyEvent) :
    (reports (.new 8) es).map (fun r => (pressed r : Multiset Usage)) =
      (Held.empty.history es).map Held.shown :=
  pressed_reports_of_holds holds_new es

end KeyboardWrapper

/-! ### The keys that are down -/

/-- The keys that are down, each as often as it is. -/
def fingers (s : Multiset UInt8) : List KeyEvent → Multiset UInt8
  | [] => s
  | .down key :: es => fingers (key ::ₘ s) es
  | .up key :: es => fingers (s.erase key) es

/-- Only keys that are down are released. -/
def Physical (s : Multiset UInt8) : List KeyEvent → Prop
  | [] => True
  | .down key :: es => Physical (key ::ₘ s) es
  | .up key :: es => key ∈ s ∧ Physical (s.erase key) es

/-- No key is down twice, no two codes are for one bit, and there is room for the ordinary keys. -/
structure Clean (s : Multiset UInt8) : Prop where
  nodup : s.Nodup
  codes : ∀ key ∈ s, key.toNat < 0x88 ∨ 0xe0 ≤ key.toNat ∧ key.toNat ≤ 0xe8
  room : (s.filter (kind · = .ordinary)).card ≤ 6

/-- The usage of a key, for the keys that the descriptor has one for. -/
def usageOf (key : UInt8) : Option Usage :=
  match kind key with
  | .modifier i => if i < 8 then some (modifierUsage i) else none
  | .media i => if i < 7 then some (mediaUsage i) else none
  | .ordinary =>
    if key ≠ 0 ∧ key.toNat ≤ 0x65 then some (keyUsage key.toNat) else none

/-- Everything that is held is a key that is down. -/
structure Within (h : Held) (s : Multiset UInt8) : Prop where
  modifiers : ∀ i ∈ h.modifiers, ∃ key ∈ s, kind key = .modifier i
  media : ∀ i ∈ h.media, ∃ key ∈ s, kind key = .media i
  keys : h.keys ≤ s
  ordinary : ∀ key ∈ h.keys, kind key = .ordinary ∧ key ≠ 0

/-- A key is held. -/
def Held.Has (h : Held) (key : UInt8) : Prop :=
  match kind key with
  | .modifier i => i ∈ h.modifiers
  | .media i => i ∈ h.media
  | .ordinary => key = 0 ∨ key ∈ h.keys

variable {s : Multiset UInt8} {key : UInt8} {u : Usage}

theorem within_empty : Within .empty 0 :=
  ⟨fun i hi => absurd hi (Finset.notMem_empty i), fun i hi => absurd hi (Finset.notMem_empty i),
    le_rfl, fun k hk => absurd hk (Multiset.notMem_zero k)⟩

theorem Within.mem_shown (hw : Within h s) (hu : u ∈ h.shown) :
    ∃ key ∈ s, usageOf key = some u := by
  rw [Held.shown, Multiset.mem_add, Multiset.mem_add, Multiset.mem_coe, Multiset.mem_coe,
    List.mem_map, List.mem_map, Multiset.mem_map] at hu
  obtain (⟨i, hi, rfl⟩ | ⟨i, hi, rfl⟩) | ⟨key, hkey, rfl⟩ := hu
  · obtain ⟨hlt, hmem⟩ := List.mem_filter.1 hi
    obtain ⟨key, hkey, hkind⟩ := hw.modifiers i (of_decide_eq_true hmem)
    refine ⟨key, hkey, ?_⟩
    simp only [usageOf, hkind, if_pos (List.mem_range.1 hlt)]
  · obtain ⟨hlt, hmem⟩ := List.mem_filter.1 hi
    obtain ⟨key, hkey, hkind⟩ := hw.media i (of_decide_eq_true hmem)
    refine ⟨key, hkey, ?_⟩
    simp only [usageOf, hkind, if_pos (List.mem_range.1 hlt)]
  · obtain ⟨hmem, hle⟩ := Multiset.mem_filter.1 hkey
    obtain ⟨hkind, hzero⟩ := hw.ordinary key hmem
    refine ⟨key, Multiset.mem_of_le hw.keys hmem, ?_⟩
    simp only [usageOf, hkind]
    exact if_pos ⟨hzero, hle⟩

theorem Held.Has.mem_shown (hkey : h.Has key) (hu : usageOf key = some u) : u ∈ h.shown := by
  rw [Held.shown, Multiset.mem_add, Multiset.mem_add, Multiset.mem_coe, Multiset.mem_coe,
    List.mem_map, List.mem_map, Multiset.mem_map]
  cases hkind : kind key with
  | modifier i =>
    simp only [Held.Has, hkind] at hkey
    simp only [usageOf, hkind, Option.ite_none_right_eq_some, Option.some_inj] at hu
    exact .inl (.inl ⟨i, List.mem_filter.2 ⟨List.mem_range.2 hu.1, decide_eq_true hkey⟩, hu.2⟩)
  | media i =>
    simp only [Held.Has, hkind] at hkey
    simp only [usageOf, hkind, Option.ite_none_right_eq_some, Option.some_inj] at hu
    exact .inl (.inr ⟨i, List.mem_filter.2 ⟨List.mem_range.2 hu.1, decide_eq_true hkey⟩, hu.2⟩)
  | ordinary =>
    simp only [Held.Has, hkind] at hkey
    simp only [usageOf, hkind, Option.ite_none_right_eq_some, Option.some_inj] at hu
    exact .inr ⟨key, Multiset.mem_filter.2 ⟨hkey.resolve_left hu.1.1, hu.1.2⟩, hu.2⟩

theorem Within.down (hw : Within h s) (key : UInt8) : Within (h.down key) (key ::ₘ s) := by
  have hmore : s ≤ key ::ₘ s := Multiset.le_cons_self s key
  have hmods : ∀ i ∈ h.modifiers, ∃ k ∈ key ::ₘ s, kind k = .modifier i := fun i hi =>
    (hw.modifiers i hi).imp fun k hk => ⟨Multiset.mem_of_le hmore hk.1, hk.2⟩
  have hmedia : ∀ i ∈ h.media, ∃ k ∈ key ::ₘ s, kind k = .media i := fun i hi =>
    (hw.media i hi).imp fun k hk => ⟨Multiset.mem_of_le hmore hk.1, hk.2⟩
  rw [Held.down]
  cases hkind : kind key with
  | modifier i =>
    refine ⟨fun j hj => ?_, hmedia, hw.keys.trans hmore, hw.ordinary⟩
    rcases Finset.mem_insert.1 hj with rfl | hj
    · exact ⟨key, Multiset.mem_cons_self key s, hkind⟩
    · exact hmods j hj
  | media i =>
    refine ⟨hmods, fun j hj => ?_, hw.keys.trans hmore, hw.ordinary⟩
    rcases Finset.mem_insert.1 hj with rfl | hj
    · exact ⟨key, Multiset.mem_cons_self key s, hkind⟩
    · exact hmedia j hj
  | ordinary =>
    dsimp only
    split_ifs with hroom
    · exact ⟨hmods, hmedia, hw.keys.trans hmore, hw.ordinary⟩
    · refine ⟨hmods, hmedia, (Multiset.cons_le_cons_iff key).2 hw.keys, fun k hk => ?_⟩
      rcases Multiset.mem_cons.1 hk with rfl | hk
      · exact ⟨hkind, fun h0 => hroom (.inl h0)⟩
      · exact hw.ordinary k hk

/-- A key of another kind stays down. -/
theorem mem_erase_of_kind_ne {k : UInt8} (hk : k ∈ s) (hne : kind k ≠ kind key) :
    k ∈ s.erase key :=
  (Multiset.mem_erase_of_ne fun heq => hne (congrArg kind heq)).2 hk

theorem Within.up (hw : Within h s) (key : UInt8) : Within (h.up key) (s.erase key) := by
  -- a released modifier or media key is not among the ordinary keys
  have hkeys : kind key ≠ .ordinary → h.keys ≤ s.erase key := fun hne => by
    rw [← Multiset.erase_of_notMem fun hmem => hne (hw.ordinary key hmem).1]
    exact Multiset.erase_le_erase key hw.keys
  have hmods : ∀ i ∈ h.modifiers, KeyKind.modifier i ≠ kind key →
      ∃ k ∈ s.erase key, kind k = .modifier i := fun i hi hne =>
    (hw.modifiers i hi).imp fun k hk =>
      ⟨mem_erase_of_kind_ne hk.1 fun h => hne (hk.2.symm.trans h), hk.2⟩
  have hmedia : ∀ i ∈ h.media, KeyKind.media i ≠ kind key →
      ∃ k ∈ s.erase key, kind k = .media i := fun i hi hne =>
    (hw.media i hi).imp fun k hk =>
      ⟨mem_erase_of_kind_ne hk.1 fun h => hne (hk.2.symm.trans h), hk.2⟩
  rw [Held.up]
  cases hkind : kind key with
  | modifier i =>
    simp only [hkind, ne_eq, KeyKind.modifier.injEq, reduceCtorEq, not_false_eq_true,
      forall_const] at hkeys hmods hmedia
    exact ⟨fun j hj => hmods j (Finset.mem_of_mem_erase hj) (Finset.ne_of_mem_erase hj), hmedia,
      hkeys, hw.ordinary⟩
  | media i =>
    simp only [hkind, ne_eq, KeyKind.media.injEq, reduceCtorEq, not_false_eq_true,
      forall_const] at hkeys hmods hmedia
    exact ⟨hmods, fun j hj => hmedia j (Finset.mem_of_mem_erase hj) (Finset.ne_of_mem_erase hj),
      hkeys, hw.ordinary⟩
  | ordinary =>
    simp only [hkind, ne_eq, reduceCtorEq, not_false_eq_true, forall_const] at hmods hmedia
    exact ⟨hmods, hmedia, Multiset.erase_le_erase key hw.keys,
      fun k hk => hw.ordinary k (Multiset.mem_of_mem_erase hk)⟩

/-- Two keys for the same bit are one key. -/
theorem Clean.eq_of_kind (hs : Clean s) {k : UInt8} (hkey : key ∈ s) (hk : k ∈ s)
    (heq : kind k = kind key) (hne : kind key ≠ .ordinary) : k = key := by
  have hcode := hs.codes key hkey
  have hcode' := hs.codes k hk
  refine UInt8.toNat_inj.1 ?_
  rw [kind, kind] at heq
  rw [kind] at hne
  split_ifs at heq hne
  · have := KeyKind.modifier.inj heq
    omega
  · have := KeyKind.media.inj heq
    omega
  · exact absurd rfl hne

theorem Held.Has.down {k : UInt8} (hk : h.Has k) (key : UInt8) : (h.down key).Has k := by
  rw [Held.Has] at hk ⊢
  rw [Held.down]
  cases kind key with
  | modifier i =>
    cases hkind : kind k with
    | modifier j => exact Finset.mem_insert_of_mem (by simpa only [hkind] using hk)
    | media j => simpa only [hkind] using hk
    | ordinary => simpa only [hkind] using hk
  | media i =>
    cases hkind : kind k with
    | modifier j => simpa only [hkind] using hk
    | media j => exact Finset.mem_insert_of_mem (by simpa only [hkind] using hk)
    | ordinary => simpa only [hkind] using hk
  | ordinary =>
    dsimp only
    split_ifs
    · exact hk
    · cases hkind : kind k with
      | modifier j => simpa only [hkind] using hk
      | media j => simpa only [hkind] using hk
      | ordinary =>
        simp only [hkind] at hk
        exact hk.imp id Multiset.mem_cons_of_mem

/-- With room for it, a key that is pressed is held. -/
theorem has_down (hroom : kind key = .ordinary → h.keys.card < 6) : (h.down key).Has key := by
  rw [Held.Has, Held.down]
  cases hkind : kind key with
  | modifier i => exact Finset.mem_insert_self i _
  | media i => exact Finset.mem_insert_self i _
  | ordinary =>
    dsimp only
    split_ifs with hfull
    · exact .inl (hfull.resolve_right (hroom hkind).ne)
    · exact .inr (Multiset.mem_cons_self key _)

theorem Held.Has.up {k : UInt8} (hk : h.Has k) (hne : k ≠ key)
    (hkinds : kind k = kind key → kind key = .ordinary) : (h.up key).Has k := by
  rw [Held.Has] at hk ⊢
  rw [Held.up]
  cases hkey : kind key with
  | modifier i =>
    cases hkind : kind k with
    | modifier j =>
      simp only [hkind] at hk
      refine Finset.mem_erase.2 ⟨fun heq => ?_, hk⟩
      cases (hkinds (by rw [hkind, hkey, heq])).symm.trans hkey
    | media j => simpa only [hkind] using hk
    | ordinary => simpa only [hkind] using hk
  | media i =>
    cases hkind : kind k with
    | modifier j => simpa only [hkind] using hk
    | media j =>
      simp only [hkind] at hk
      refine Finset.mem_erase.2 ⟨fun heq => ?_, hk⟩
      cases (hkinds (by rw [hkind, hkey, heq])).symm.trans hkey
    | ordinary => simpa only [hkind] using hk
  | ordinary =>
    cases hkind : kind k with
    | modifier j => simpa only [hkind] using hk
    | media j => simpa only [hkind] using hk
    | ordinary =>
      simp only [hkind] at hk
      exact hk.imp id (Multiset.mem_erase_of_ne hne).2

/-- There is room for an ordinary key that is down. -/
theorem Clean.card_lt (hs : Clean (key ::ₘ s)) (hw : Within h s) (hkind : kind key = .ordinary) :
    h.keys.card < 6 := by
  have hle : h.keys ≤ s.filter (kind · = .ordinary) :=
    Multiset.le_filter.2 ⟨hw.keys, fun k hk => (hw.ordinary k hk).1⟩
  have hcard := hs.room
  rw [Multiset.filter_cons_of_pos (p := (kind · = .ordinary)) s hkind, Multiset.card_cons] at hcard
  exact Nat.lt_of_le_of_lt (Multiset.card_le_card hle) hcard

/-! ### Runs -/

namespace KeyboardWrapper

/-- The buffer after a sequence of touches. -/
def after (mBuffer : ReportBuffer 8) (es : List KeyEvent) : ReportBuffer 8 := es.foldl touch mBuffer

theorem holds_after (hb : Holds b h) (es : List KeyEvent) :
    Holds (after b es) (es.foldl Held.touch h) := by
  induction es generalizing b h with
  | nil => exact hb
  | cons e es ih => exact ih (hb.touch e)

theorem within_after (hw : Within h s) (es : List KeyEvent) :
    Within (es.foldl Held.touch h) (fingers s es) := by
  induction es generalizing h s with
  | nil => exact hw
  | cons e es ih =>
    cases e with
    | down key => exact ih (hw.down key)
    | up key => exact ih (hw.up key)

theorem has_after {es : List KeyEvent} (hw : Within h s) (hc : ∀ key ∈ s, h.Has key)
    (hphys : Physical s es) (hclean : ∀ pre, pre <+: es → Clean (fingers s pre)) :
    ∀ key ∈ fingers s es, (es.foldl Held.touch h).Has key := by
  induction es generalizing h s with
  | nil => exact hc
  | cons e es ih =>
    have hs : Clean s := hclean [] List.nil_prefix
    cases e with
    | down key =>
      have hrest : ∀ pre, pre <+: es → Clean (fingers (key ::ₘ s) pre) := fun pre hpre =>
        hclean (.down key :: pre) (List.cons_prefix_cons.2 ⟨rfl, hpre⟩)
      refine ih (hw.down key) (fun k hk => ?_) hphys hrest
      rcases Multiset.mem_cons.1 hk with rfl | hk
      · exact has_down ((hrest [] List.nil_prefix).card_lt hw)
      · exact (hc k hk).down key
    | up key =>
      have hrest : ∀ pre, pre <+: es → Clean (fingers (s.erase key) pre) := fun pre hpre =>
        hclean (.up key :: pre) (List.cons_prefix_cons.2 ⟨rfl, hpre⟩)
      refine ih (hw.up key) (fun k hk => ?_) hphys.2 hrest
      have hmem : k ∈ s := Multiset.mem_of_mem_erase hk
      -- no code is down twice, so what is left is another key, with a bit of its own
      have hne : k ≠ key := fun heq => hs.nodup.notMem_erase (heq ▸ hk)
      exact (hc k hmem).up hne fun heq => by
        by_contra hord
        exact hne (hs.eq_of_kind hphys.1 hmem heq hord)

theorem eq_zero_of_testBit {n : UInt8} (hn : ∀ i < 8, n.toNat.testBit i = false) : n = 0 := by
  refine UInt8.toNat_inj.1 (Nat.eq_of_testBit_eq fun i => ?_)
  change n.toNat.testBit i = (0 : ℕ).testBit i
  rw [Nat.zero_testBit]
  by_cases hi : i < 8
  · exact hn i hi
  · exact Nat.testBit_lt_two_pow (n.toNat_lt.trans_le (Nat.pow_le_pow_right two_pos (by omega)))

/-- With no key down, the buffer is empty. -/
theorem bytes_of_within (hb : Holds b h) (hw : Within h 0) : b.bytes = List.replicate 8 0 := by
  obtain ⟨m, c, ks, hbytes, hm, hc, hks⟩ := hb
  have hmods : ∀ i, i ∉ h.modifiers := fun i hi => by
    obtain ⟨k, hk, -⟩ := hw.modifiers i hi
    exact Multiset.notMem_zero k hk
  have hmedia : ∀ i, i ∉ h.media := fun i hi => by
    obtain ⟨k, hk, -⟩ := hw.media i hi
    exact Multiset.notMem_zero k hk
  have hkeys : ks.filter (· ≠ 0) = [] := by
    rw [← Multiset.coe_eq_zero, hks]
    exact Multiset.le_zero.1 hw.keys
  have hzero : ks = List.replicate 6 0 := by
    rw [← length_keys hbytes]
    refine List.eq_replicate_of_mem fun k hk => ?_
    simpa using List.filter_eq_nil_iff.1 hkeys k hk
  rw [hbytes, eq_zero_of_testBit fun i hi => (hm i hi).trans (decide_eq_false (hmods i)),
    eq_zero_of_testBit fun i hi => (hc i hi).trans (decide_eq_false (hmedia i)), hzero]
  rfl

/-- The menu key of the layout has the code 0x76, which takes a place of the report but is outside
the range that the descriptor gives to the places. -/
example : (after (.new 8) [.down 0x04, .down 0x76]).bytes = [0, 0, 0x04, 0x76, 0, 0, 0, 0] ∧
    pressed [0, 0, 0x04, 0x76, 0, 0, 0, 0] = [keyUsage 0x04] := by decide +kernel

end KeyboardWrapper

end Msm8909w.Hid
