import Msm8909w.Datatop.DualLine

/-!
# Counters and their values

A file of `dtop_dual_line_poll` is a table: pairs of lines with the same prefix, the names of
counters on the first line and their values on the second one.

* `Table.exists_readDual` : the table is found again in the lines and dictionaries, if no line is
  longer than the buffers for lines,
* `assignPoint_of_ne`, `exists_assignPoint` : a data point takes its value from its own pair only.
-/

namespace Msm8909w

namespace Datatop

/-- What may stand between the blanks of a line. -/
abbrev Plain (x : Bytes) : Prop := 32 ∉ x ∧ 0 ∉ x ∧ 10 ∉ x

/-- A pair of lines: what is in front of the colons, and the names with their values. -/
structure Pair where
  P : Bytes
  counters : List (Bytes × Bytes)
  P_plain : Plain P ∧ 58 ∉ P
  counters_plain : ∀ c ∈ counters, Plain c.1 ∧ Plain c.2
  room : counters.length ≤ DTOP_DICT_SIZE

namespace Pair

variable {p : Pair}

theorem head_plain (p : Pair) : Plain (p.P ++ [58]) := by
  obtain ⟨⟨h32, h0, h10⟩, -⟩ := p.P_plain
  refine ⟨fun h => ?_, fun h => ?_, fun h => ?_⟩
  · exact (List.mem_append.1 h).elim h32 (by decide)
  · exact (List.mem_append.1 h).elim h0 (by decide)
  · exact (List.mem_append.1 h).elim h10 (by decide)

/-- The first line. -/
def names (p : Pair) : Row where
  head := p.P ++ [58]
  items := p.counters.map Prod.fst
  head_plain := ⟨p.head_plain.1, p.head_plain.2.1⟩
  items_plain := by
    intro x hx
    obtain ⟨c, hc, rfl⟩ := List.mem_map.1 hx
    exact ⟨(p.counters_plain c hc).1.1, (p.counters_plain c hc).1.2.1⟩
  room := by
    rw [List.length_map]
    exact p.room

/-- The second line. -/
def values (p : Pair) : Row where
  head := p.P ++ [58]
  items := p.counters.map Prod.snd
  head_plain := ⟨p.head_plain.1, p.head_plain.2.1⟩
  items_plain := by
    intro x hx
    obtain ⟨c, hc, rfl⟩ := List.mem_map.1 hx
    exact ⟨(p.counters_plain c hc).2.1, (p.counters_plain c hc).2.2.1⟩
  room := by
    rw [List.length_map]
    exact p.room

/-- What tells the counters apart. -/
def keys (p : Pair) : List (Bytes × Bytes) := p.counters.map fun c => (p.P, c.1)

theorem notMem_joined {xs : List Bytes} (h : ∀ x ∈ xs, 10 ∉ x) : 10 ∉ joined 32 xs := by
  intro hmem
  obtain ⟨x, hx, h10⟩ := List.mem_flatMap.1 hmem
  rcases List.mem_cons.1 h10 with h | h10
  · cases h
  · exact h x hx h10

theorem notMem_names (p : Pair) : 10 ∉ p.names.text := by
  refine fun h => (List.mem_append.1 h).elim p.head_plain.2.2 (notMem_joined fun x hx => ?_)
  obtain ⟨c, hc, rfl⟩ := List.mem_map.1 hx
  exact (p.counters_plain c hc).1.2.2

theorem notMem_values (p : Pair) : 10 ∉ p.values.text := by
  refine fun h => (List.mem_append.1 h).elim p.head_plain.2.2 (notMem_joined fun x hx => ?_)
  obtain ⟨c, hc, rfl⟩ := List.mem_map.1 hx
  exact (p.counters_plain c hc).2.2.2

theorem values_ne_nil (p : Pair) : p.values.text ≠ [] := by
  have hne : p.P ++ [58] ≠ [] := List.append_ne_nil_of_right_ne_nil _ (List.cons_ne_nil _ _)
  exact List.append_ne_nil_of_left_ne_nil hne _

end Pair

/-- The lines of the pairs. -/
def pairRows (pairs : List Pair) : List Row := pairs.flatMap fun p => [p.names, p.values]

/-- A file that fits into the buffer; a name is not repeated under the same prefix. -/
structure Table where
  pairs : List Pair
  keys_nodup : (pairs.flatMap Pair.keys).Nodup
  length_text : (fileText (pairRows pairs)).length < DTOP_DUAL_SIZE

namespace Table

variable {t u : Table} {p q : Pair} {i j : ℕ}

def text (t : Table) : Bytes := fileText (pairRows t.pairs)

/-- No line is longer than the buffers for lines. -/
def Whole (t : Table) : Prop := ∀ r ∈ pairRows t.pairs, r.text.length < DTOP_DUAL_LINE

instance : Decidable t.Whole := inferInstanceAs (Decidable (∀ r ∈ pairRows t.pairs, _))

/-- The tables differ in the values only. -/
def SameHeaders (t u : Table) : Prop := t.pairs.map Pair.names = u.pairs.map Pair.names

/-! ### Lines of a table -/

theorem getElem?_pairRows {pairs : List Pair} (h : pairs[i]? = some p) :
    (pairRows pairs)[2 * i]? = some p.names ∧ (pairRows pairs)[2 * i + 1]? = some p.values := by
  induction pairs generalizing i with
  | nil => cases h
  | cons q pairs ih =>
    cases i with
    | zero =>
      obtain rfl := Option.some.inj h
      exact ⟨rfl, rfl⟩
    | succ i => exact ih h

theorem length_pairRows (pairs : List Pair) : (pairRows pairs).length = 2 * pairs.length := by
  induction pairs with
  | nil => rfl
  | cons q pairs ih =>
    rw [pairRows] at ih ⊢
    simp only [List.flatMap_cons, List.length_append, List.length_cons, List.length_nil, ih]
    omega

theorem notMem_pairRows {pairs : List Pair} : ∀ r ∈ pairRows pairs, 10 ∉ r.text := by
  intro r hr
  obtain ⟨p, -, hr⟩ := List.mem_flatMap.1 hr
  rcases List.mem_cons.1 hr with rfl | hr
  · exact p.notMem_names
  · obtain rfl := List.mem_singleton.1 hr
    exact p.notMem_values

theorem lineAmount_le (t : Table) : dtopGetFileLineAmount t.text ≤ 2 * t.pairs.length := by
  refine (dtopGetFileLineAmount_le _).trans (Nat.le_of_eq ?_)
  exact (count_fileText notMem_pairRows).trans (length_pairRows _)

theorem text_eq_nil_iff : t.text = [] ↔ t.pairs = [] := by
  constructor
  · intro h
    have hlen := count_fileText (@notMem_pairRows t.pairs)
    rw [← text, h, length_pairRows] at hlen
    exact List.eq_nil_of_length_eq_zero (by rw [List.count_nil] at hlen; omega)
  · intro h
    rw [text, h]
    rfl

theorem Whole.rows (h : t.Whole) (hp : t.pairs[j]? = some p) :
    p.names.text.length < DTOP_DUAL_LINE ∧ p.values.text.length < DTOP_DUAL_LINE :=
  ⟨h _ (List.mem_of_getElem? (getElem?_pairRows hp).1),
    h _ (List.mem_of_getElem? (getElem?_pairRows hp).2)⟩

/-- The lines are read as they are exactly if none is longer than the buffers for lines. -/
theorem hold_iff_whole (data : Buffer UInt8) (line : ℕ → Buffer UInt8) :
    (readCopy (data.put 0 t.text) (pairRows t.pairs).length line).Hold (pairRows t.pairs)
      (pairRows t.pairs).length ↔ t.Whole := by
  constructor
  · intro hold r hr
    obtain ⟨n, hn⟩ := List.mem_iff_getElem?.1 hr
    rw [← (hold n (List.getElem?_eq_some_iff.1 hn).1 r hn).2]
    exact line_len_readCopy_lt _ _ _ _
  · intro hwhole
    exact hold_readCopy (Nat.le_refl _) notMem_pairRows hwhole Buffer.get_put_same t.length_text
      line

/-- The table is found in the lines and dictionaries. -/
theorem exists_readDual (hwhole : t.Whole) (hne : t.text ≠ []) (junk : Junk)
    {storage : DualLineVars} (hcount : storage.line_count ≤ 2 * t.pairs.length) :
    ∃ s s2, readDual t.text junk storage = some (s, s2) ∧
      ∀ i p, i < storage.line_count / 2 → t.pairs[i]? = some p →
        Reads p.names p.values p.P s s2 i := by
  refine ⟨_, _, readDual_eq hne t.length_text junk storage, fun i p hi hp => ?_⟩
  have hdata : (junk.data.put 0 t.text).get 0 t.text.length = t.text := Buffer.get_put_same
  have hrows : storage.line_count ≤ (pairRows t.pairs).length := by rwa [length_pairRows]
  have hold (line : ℕ → Buffer UInt8) :=
    hold_readCopy hrows notMem_pairRows hwhole hdata t.length_text line
  obtain ⟨h₁, h₂⟩ := getElem?_pairRows hp
  exact (hold storage.line).reads (hold storage.line2) _ _ hi h₁ h₂ rfl p.P_plain.2
    p.values_ne_nil (hwhole _ (List.mem_of_getElem? h₁))

end Table

section Pairs

variable {p : Pair} {n v : Bytes} {i : ℕ}

theorem Pair.names_items (h : p.counters[i]? = some (n, v)) : p.names.items[i]? = some n := by
  simp only [Pair.names, List.getElem?_map, h, Option.map_some]

theorem Pair.values_items (h : p.counters[i]? = some (n, v)) : p.values.items[i]? = some v := by
  simp only [Pair.values, List.getElem?_map, h, Option.map_some]

theorem Pair.mem_keys_iff : (p.P, n) ∈ p.keys ↔ n ∈ p.names.items := by
  simp only [Pair.keys, Pair.names, List.mem_map, Prod.mk.injEq, true_and]

theorem Pair.nodup_names (h : p.keys.Nodup) : p.names.items.Nodup := by
  refine List.Nodup.of_map (fun x => (p.P, x)) ?_
  simpa only [Pair.names, List.map_map, Function.comp_def, Pair.keys] using h

end Pairs

namespace Table

variable {t u : Table} {p q : Pair} {i j k : ℕ} {n v : Bytes}

/-- A name belongs to one pair. -/
theorem pair_unique (hp : t.pairs[j]? = some p) (hq : t.pairs[k]? = some q) {x : Bytes × Bytes}
    (hxp : x ∈ p.keys) (hxq : x ∈ q.keys) : k = j := by
  obtain ⟨hj, rfl⟩ := List.getElem?_eq_some_iff.1 hp
  obtain ⟨hk, rfl⟩ := List.getElem?_eq_some_iff.1 hq
  have hpair := List.pairwise_iff_getElem.1 (List.nodup_flatMap.1 t.keys_nodup).2
  -- the keys of two different pairs are disjoint
  rcases Nat.lt_trichotomy j k with hlt | rfl | hgt
  · exact absurd hxq (hpair j k hj hk hlt hxp)
  · rfl
  · exact absurd hxp (hpair k j hk hj hgt hxq)

/-- All rounds together store the value of a counter in its data point. -/
theorem foldl_assignPoint (undef : ℕ → ℤ → ℕ) (hwhole : t.Whole) {m : ℕ} {s s2 : LinesParsed}
    (hreads : ∀ i p, i < m → t.pairs[i]? = some p → Reads p.names p.values p.P s s2 i)
    (hm : m ≤ t.pairs.length) (hj : j < m) (hp : t.pairs[j]? = some p)
    (hc : p.counters[i]? = some (n, v)) {d : DualPoint} (hd : PointsAt s.line s2.line d p.P n) :
    (List.range m).foldl (assignPoint undef s s2) d =
      { d with dp := (dtopStoreDp undef d.dp v).getD d.dp } := by
  have hkey : (p.P, n) ∈ p.keys :=
    Pair.mem_keys_iff.2 (List.mem_of_getElem? (Pair.names_items hc))
  have hnodup : p.keys.Nodup := (List.nodup_flatMap.1 t.keys_nodup).1 p (List.mem_of_getElem? hp)
  have hown : assignPoint undef s s2 d j = _ :=
    (hreads j p hj hp).assignPoint_eq (hwhole.rows hp).1 (hwhole.rows hp).2
      (Pair.nodup_names hnodup) (Pair.names_items hc) (Pair.values_items hc) hd
  -- the rounds of the other pairs change neither the data point nor what is stored in it
  have hother (d : DualPoint) (hd : PointsAt s.line s2.line d p.P n) (k : ℕ)
      (hk : k ∈ List.range m) (hne : k ≠ j) : assignPoint undef s s2 d k = d := by
    have hlt := List.mem_range.1 hk
    obtain ⟨q, hq⟩ : ∃ q, t.pairs[k]? = some q := ⟨_, List.getElem?_eq_getElem (by omega)⟩
    refine (hreads k q hlt hq).assignPoint_of_ne (hwhole.rows hq).1 hd fun hsame hmem => hne ?_
    rw [hsame] at hkey
    exact pair_unique hp hq hkey (Pair.mem_keys_iff.2 hmem)
  rw [foldl_eq_of_unique List.nodup_range (List.mem_range.2 hj) (hother d hd) (hother _ ?_), hown]
  rw [hown]
  exact hd

end Table

/-! ### Every counter has its own value -/

/-- The value has been stored in the data point, and if it is a number, it is there. -/
def HoldsValue (undef : ℕ → ℤ → ℕ) (dp : DataPoint) (v : Bytes) : Prop :=
  (∃ old, dtopStoreDp undef old v = some dp) ∧
    ∀ (ty : NumType) (z : ℤ), dp.type = ty.code → scanDecimal v = some z → ty.value dp.data = z

namespace Table

/-- After a search in the file `t` and a poll of the file `u`, every data point is that of a counter
and holds its value. -/
def AssignsOwn (t u : Table) : Prop :=
  ∀ undef junk junk' storage points, dtopDualLineInit t.text junk = some (storage, points) →
    ∃ storage' points',
      dtopDualLinePoll undef u.text junk' storage points = some (storage', points') ∧
      ∀ d ∈ points', ∃ p ∈ u.pairs, ∃ c ∈ p.counters,
        PointsAt storage'.line storage'.line2 d p.P c.1 ∧ HoldsValue undef d.dp c.2

/-- If the new value is a number, it is of the type that the search chooses for the old one. -/
def ValueFits (old v : Bytes) : Prop :=
  ∀ z, scanDecimal v = some z → ∃ w, (scanType old).value w = z

/-- The values of `u` are of the types that a search in `t` chooses. -/
def Fits (t u : Table) : Prop :=
  List.Forall₂ (fun p q : Pair =>
    List.Forall₂ (fun c c' => ValueFits c.2 c'.2) p.counters q.counters) t.pairs u.pairs

end Table

theorem code_injective {ty ty' : NumType} (h : ty.code = ty'.code) : ty = ty' := by
  cases ty <;> cases ty' <;> first | rfl | exact absurd h (by decide)

theorem holdsValue_of_type {undef : ℕ → ℤ → ℕ} {dp : DataPoint} {ty : NumType} {v : Bytes}
    (h : dp.type = ty.code) (hfits : ∀ z, scanDecimal v = some z → ∃ w, ty.value w = z) :
    HoldsValue undef ((dtopStoreDp undef dp v).getD dp) v := by
  obtain ⟨stored, hstore, htype, hvalue⟩ := exists_stored undef h v
  rw [hstore]
  refine ⟨⟨dp, hstore⟩, fun ty' z hty hz => ?_⟩
  obtain rfl := code_injective (htype.symm.trans hty)
  obtain ⟨w, rfl⟩ := hfits z hz
  exact hvalue w hz

namespace Table

variable {t u : Table} {p q : Pair} {i j : ℕ}

theorem forall₂_getElem? {α β : Type*} {R : α → β → Prop} {l : List α} {l' : List β} {a : α} {b : β}
    (h : List.Forall₂ R l l') (ha : l[i]? = some a) (hb : l'[i]? = some b) : R a b := by
  obtain ⟨hi, rfl⟩ := List.getElem?_eq_some_iff.1 ha
  obtain ⟨hi', rfl⟩ := List.getElem?_eq_some_iff.1 hb
  exact h.get hi hi'

theorem SameHeaders.exists_pair (h : t.SameHeaders u) (hp : t.pairs[j]? = some p) :
    ∃ q, u.pairs[j]? = some q ∧ p.names = q.names := by
  have hnames := congrArg (·[j]?) h
  simp only [List.getElem?_map, hp, Option.map_some] at hnames
  obtain ⟨q, hq, heq⟩ := Option.map_eq_some_iff.1 hnames.symm
  exact ⟨q, hq, heq.symm⟩

theorem exists_counter (h : p.names = q.names) {n old : Bytes}
    (hc : p.counters[i]? = some (n, old)) : ∃ v, q.counters[i]? = some (n, v) := by
  have hitems := congrArg (fun r => r.items[i]?) h
  simp only [Pair.names, List.getElem?_map, hc, Option.map_some] at hitems
  obtain ⟨⟨n', v⟩, hcv, rfl⟩ := Option.map_eq_some_iff.1 hitems.symm
  exact ⟨v, hcv⟩

theorem SameHeaders.length_eq (h : t.SameHeaders u) : t.pairs.length = u.pairs.length := by
  have hlen := congrArg List.length h
  rwa [List.length_map, List.length_map] at hlen

/-- One data point of the search, after all rounds of the poll. -/
theorem SameHeaders.holdsValue (h : t.SameHeaders u) (ht : t.Whole) (hu : u.Whole)
    (hfits : t.Fits u) (undef : ℕ → ℤ → ℕ) {m : ℕ} {s s2 w w2 : LinesParsed}
    (hs : ∀ j p, j < m → t.pairs[j]? = some p → Reads p.names p.values p.P s s2 j)
    (hw : ∀ j q, j < m → u.pairs[j]? = some q → Reads q.names q.values q.P w w2 j)
    (hm : m ≤ u.pairs.length) (hj : j < m) (hi : i < (s.dict j).max) (fresh : DataPoint) :
    ∃ q ∈ u.pairs, ∃ c ∈ q.counters,
      PointsAt w.line w2.line
        ((List.range m).foldl (assignPoint undef w w2) (dualPoint s s2 fresh j i)) q.P c.1 ∧
      HoldsValue undef
        ((List.range m).foldl (assignPoint undef w w2) (dualPoint s s2 fresh j i)).dp c.2 := by
  obtain ⟨p, hp⟩ : ∃ p, t.pairs[j]? = some p :=
    ⟨_, List.getElem?_eq_getElem (by rw [h.length_eq]; omega)⟩
  have hsp := hs j p hj hp
  obtain ⟨q, hq, hnames⟩ := h.exists_pair hp
  have hwq := hw j q hj hq
  obtain ⟨⟨n, old⟩, hc⟩ : ∃ c, p.counters[i]? = some c := by
    have hlen := Nat.lt_of_lt_of_le hi hsp.max_le
    rw [Pair.names, List.length_map] at hlen
    exact ⟨_, List.getElem?_eq_getElem hlen⟩
  obtain ⟨v, hcv⟩ := exists_counter hnames hc
  have htype := hsp.type_dualPoint (ht.rows hp).2 (Pair.values_items hc) fresh
  rw [hnames] at hsp
  have hd := hsp.pointsAt_dualPoint hwq (hu.rows hq).1 (Pair.names_items hcv) fresh
  rw [foldl_assignPoint undef hu hw hm hj hq hcv hd]
  refine ⟨q, List.mem_of_getElem? hq, (n, v), List.mem_of_getElem? hcv, hd, ?_⟩
  have hpq : List.Forall₂ (fun c c' => ValueFits c.2 c'.2) p.counters q.counters :=
    forall₂_getElem? (R := fun p q : Pair => List.Forall₂ _ p.counters q.counters) hfits hp hq
  exact holdsValue_of_type htype (forall₂_getElem? hpq hc hcv)

/-- The search finds the table, and makes data points of the entries of the dictionaries. -/
theorem exists_of_init (ht : t.Whole) {junk : Junk} {storage : DualLineVars}
    {points : List DualPoint} (hinit : dtopDualLineInit t.text junk = some (storage, points)) :
    t.text ≠ [] ∧ ∃ s s2, storage = ⟨s.line, s2.line, dtopGetFileLineAmount t.text⟩ ∧
      points = ((dictEntries (dtopGetFileLineAmount t.text / 2) s.dict).mapIdx fun k e =>
        dualPoint s s2 (junk.data_points k) e.1 e.2) ∧
      ∀ j p, j < dtopGetFileLineAmount t.text / 2 → t.pairs[j]? = some p →
        Reads p.names p.values p.P s s2 j := by
  obtain ⟨-, s, s2, hread, hstorage, hpoints⟩ := dtopDualLineInit_eq_some_iff.1 hinit
  have hne : t.text ≠ [] := by
    intro hnil
    rw [hnil, readDual_nil] at hread
    cases hread
  obtain ⟨_, _, hread', hs⟩ := exists_readDual ht hne junk
    (show DualLineVars.line_count ⟨junk.line, junk.line2, dtopGetFileLineAmount t.text⟩ ≤ _ from
      t.lineAmount_le)
  cases hread.symm.trans hread'
  exact ⟨hne, s, s2, hstorage, hpoints, hs⟩

/-- Every counter of the pairs that are searched gets a data point. -/
theorem exists_dataPoint (ht : t.Whole) {junk : Junk} {storage : DualLineVars}
    {points : List DualPoint} (hinit : dtopDualLineInit t.text junk = some (storage, points))
    (hj : j < storage.line_count / 2) (hp : t.pairs[j]? = some p) {c : Bytes × Bytes}
    (hc : c ∈ p.counters) : ∃ d ∈ points, PointsAt storage.line storage.line2 d p.P c.1 := by
  obtain ⟨-, s, s2, rfl, rfl, hs⟩ := exists_of_init ht hinit
  have hsp := hs j p hj hp
  obtain ⟨i, hi⟩ := List.mem_iff_getElem?.1 hc
  have hmax := hsp.lt_max (Pair.names_items hi) (Pair.values_items hi)
  have hentry : (j, i) ∈ dictEntries (dtopGetFileLineAmount t.text / 2) s.dict :=
    mem_dictEntries_iff.2 ⟨hj, hmax⟩
  obtain ⟨k, hk⟩ := exists_mem_mapIdx junk.data_points hentry
  exact ⟨_, hk, hsp.pointsAt_dualPoint hsp (ht.rows hp).1 (Pair.names_items hi) _⟩

end Table

/-! ### Samples -/

/-- A pair of lines with one counter of the name `a`, and a value of one character. -/
def pairOf (P v : UInt8) (h : Plain [P] ∧ 58 ∉ [P]) (h' : Plain [v]) : Pair where
  P := [P]
  counters := [([97], [v])]
  P_plain := h
  counters_plain := by
    intro c hc
    obtain rfl := List.mem_singleton.1 hc
    have hname : Plain [97] := by decide
    exact ⟨hname, h'⟩
  room := Nat.le_of_ble_eq_true rfl

/-- `T: a`, `T: 1`, `U: a`, `U: 2`. -/
def scanned : Table where
  pairs := [pairOf 84 49 (by decide) (by decide), pairOf 85 50 (by decide) (by decide)]
  keys_nodup := by decide
  length_text := by decide

/-- The same counters later: `T: a`, `T: 3`, `U: a`, `U: 4`. -/
def polled : Table where
  pairs := [pairOf 84 51 (by decide) (by decide), pairOf 85 52 (by decide) (by decide)]
  keys_nodup := by decide
  length_text := by decide

/-- Memory full of zeros. -/
def zeroJunk : Junk where
  line _ _ := 0
  line2 _ _ := 0
  data _ := 0
  dict _ := ⟨0, fun _ => 0, fun _ => 0⟩
  prefix_dict _ := ⟨0, fun _ => 0, fun _ => 0⟩
  data_points _ := sampleDp DTOP_ULONG [0, 0, 0, 0] rfl

/-- A name of 2042 characters. -/
def longName : Bytes := List.replicate 2042 98

/-- A pair of lines whose first one is longer than the buffer for a line: what is behind the first
two names is taken for the next line. -/
def longPair : Pair where
  P := [84]
  counters := [([97], [49]), (longName, [50]), ([100], [51]), ([101], [52])]
  P_plain := by decide
  counters_plain := by decide +kernel
  room := by decide

def longTable : Table where
  pairs := [longPair]
  keys_nodup := by decide +kernel
  length_text := by decide +kernel

/-- What is taken for the first line. -/
def cutRow : Row where
  head := [84, 58]
  items := [[97], longName]
  head_plain := by decide
  items_plain := by decide +kernel
  room := by decide

/-- What is taken for the second line. -/
def restRow : Row where
  head := [100]
  items := [[101]]
  head_plain := by decide
  items_plain := by decide
  room := by decide

theorem longTable_text : longTable.text =
    cutRow.text ++ ([32] ++ ((restRow.text ++ [10]) ++ (longPair.values.text ++ [10]))) := by
  decide +kernel

/-- The name `a` is taken together with the name `e`. -/
theorem exists_readDual_longTable (junk : Junk) (line line2 : ℕ → Buffer UInt8) :
    ∃ s s2, readDual longTable.text junk ⟨line, line2, 2⟩ = some (s, s2) ∧
      Reads cutRow restRow [84] s s2 0 := by
  have hne : longTable.text ≠ [] := by
    rw [Ne, Table.text_eq_nil_iff]
    exact List.cons_ne_nil _ _
  have hdata : (junk.data.put 0 longTable.text).get 0 longTable.text.length = longTable.text :=
    Buffer.get_put_same
  rw [longTable_text] at hdata
  have hold (line : ℕ → Buffer UInt8) := hold_readCopy_cut hdata (by decide +kernel)
    (by decide +kernel) (by decide) (by decide) line
  refine ⟨_, _, readDual_eq hne longTable.length_text junk ⟨line, line2, 2⟩, ?_⟩
  rw [longTable_text]
  exact (hold line).reads (hold line2) _ _ (Nat.zero_lt_one) rfl rfl rfl (by decide)
    (List.append_ne_nil_of_left_ne_nil (List.cons_ne_nil _ _) _) (by decide +kernel)

/-- The value that `a` gets is the text `e`, which is no number. -/
theorem foldl_assignPoint_longTable {s s2 w w2 : LinesParsed}
    (hs : Reads cutRow restRow [84] s s2 0) (hw : Reads cutRow restRow [84] w w2 0) (k : ℕ) :
    PointsAt w.line w2.line (dualPoint s s2 (zeroJunk.data_points k) 0 0) [84] [97] ∧
      (List.range (2 / 2)).foldl (assignPoint (fun _ _ => 0) w w2)
          (dualPoint s s2 (zeroJunk.data_points k) 0 0) =
        { dualPoint s s2 (zeroJunk.data_points k) 0 0 with
          dp := { zeroJunk.data_points k with initial_data_populated := true } } := by
  have hcut : cutRow.text.length < DTOP_DUAL_LINE := by decide +kernel
  have hrest : restRow.text.length < DTOP_DUAL_LINE := by decide
  have hnodup : cutRow.items.Nodup := by decide +kernel
  have hname : cutRow.items[0]? = some [97] := rfl
  have hvalue : restRow.items[0]? = some [101] := rfl
  have hd := hs.pointsAt_dualPoint hw hcut hname (zeroJunk.data_points k)
  refine ⟨hd, ?_⟩
  rw [show List.range (2 / 2) = [0] from rfl, List.foldl_cons, List.foldl_nil,
    hw.assignPoint_eq hcut hrest hnodup hname hvalue hd]
  have htype := hs.type_dualPoint hrest hvalue (zeroJunk.data_points k)
  have hdp : (dualPoint s s2 (zeroJunk.data_points k) 0 0).dp = zeroJunk.data_points k := by
    rw [dualPoint] at htype ⊢
    simp only at htype
    simp only [htype]
    rfl
  rw [hdp]
  rfl

end Datatop

end Msm8909w
