import Mathlib.Data.Int.Notation
import Mathlib.Data.List.Induction
import Mathlib.Tactic.SplitIfs
import Msm8909w.Lib.Dict

/-!
# The table of e-mail accounts

The MAS instances from `EMAIL_MAS_START` to `EMAIL_MAS_END` serve one e-mail account each.
`EmailUtils.java` keeps the assignment in two hash maps, one for each direction, and
`updateEmailAccount` of `BluetoothMasService.java` brings it up to date when the accounts have
changed: it drops the accounts that are gone, collects those without an instance and gives them the
free instances.

* `Consistent` : the two maps are inverse to each other,
* `consistent_updateMapTable`, `consistent_removeAccount` : the insertions and removals keep them
  so, as the caller uses them,
* `accounts_correct` : what holds after each call, over all sequences of calls.
-/

namespace Msm8909w

namespace Map

namespace EmailAccounts

/-! ### The tables -/

/-- A `HashMap` from numbers to numbers. -/
abbrev Table := List (ℤ × ℤ)

namespace Table

variable {d : Table} {k k' v : ℤ}

def get (d : Table) (k : ℤ) : Option ℤ := (lookupKey Prod.fst d k).map Prod.snd

def containsKey (d : Table) (k : ℤ) : Bool := (d.get k).isSome

def remove (d : Table) (k : ℤ) : Table := eraseKey Prod.fst d k

def put (d : Table) (k v : ℤ) : Table := assign Prod.fst d (k, v)

def values (d : Table) : List ℤ := d.map Prod.snd

theorem get_remove : (d.remove k).get k' = if k' = k then none else d.get k' := by
  by_cases hk : k' = k
  · rw [if_pos hk, hk, get, remove, lookupKey_eraseKey_same, Option.map_none]
  · rw [if_neg hk, get, remove, lookupKey_eraseKey_of_ne hk, get]

theorem get_put : (d.put k v).get k' = if k' = k then some v else d.get k' := by
  rw [get, put, lookupKey_assign]
  by_cases hk : k' = k
  · rw [if_pos hk, if_pos hk.symm, Option.map_some]
  · rw [if_neg hk, if_neg (Ne.symm hk), get]

theorem remove_of_get_eq_none (h : d.get k = none) : d.remove k = d := by
  rw [get, Option.map_eq_none_iff, lookupKey_eq_none] at h
  exact List.filter_eq_self.2 fun x hx => decide_eq_true (h x hx)

theorem mem_values (h : IsDict Prod.fst d) : v ∈ d.values ↔ ∃ k, d.get k = some v := by
  rw [values, List.mem_map]
  constructor
  · rintro ⟨⟨k, v⟩, hx, rfl⟩
    exact ⟨k, by rw [get, (lookupKey_eq_some h).2 ⟨hx, rfl⟩, Option.map_some]⟩
  · rintro ⟨k, hk⟩
    obtain ⟨x, hx, rfl⟩ := Option.map_eq_some_iff.1 hk
    exact ⟨x, ((lookupKey_eq_some h).1 hx).1, rfl⟩

end Table

/-- `sAccToMas` and `sMasToAcc`. -/
structure MapTable where
  sAccToMas : Table
  sMasToAcc : Table
  deriving DecidableEq, Repr

namespace MapTable

def empty : MapTable := ⟨[], []⟩

/-- `updateMapTable`. -/
def updateMapTable (accountId masId : ℤ) (t : MapTable) : MapTable :=
  let sAccToMas :=
    if t.sAccToMas.containsKey accountId then t.sAccToMas.remove accountId else t.sAccToMas
  let sMasToAcc := if t.sMasToAcc.containsKey masId then t.sMasToAcc.remove masId else t.sMasToAcc
  ⟨sAccToMas.put accountId masId, sMasToAcc.put masId accountId⟩

/-- `getAccountId`. -/
def getAccountId (t : MapTable) (masId : ℤ) : ℤ := (t.sMasToAcc.get masId).getD (-1)

/-- `getMasId`. -/
def getMasId (t : MapTable) (accountId : ℤ) : ℤ := (t.sAccToMas.get accountId).getD (-1)

/-- The second loop of `removeMasIdIfNotPresent`. -/
def removeAccount (t : MapTable) (accountId : ℤ) : MapTable where
  sAccToMas := t.sAccToMas.remove accountId
  sMasToAcc :=
    match t.sAccToMas.get accountId with
    | some masId => t.sMasToAcc.remove masId
    | none => t.sMasToAcc

/-- `removeMasIdIfNotPresent`. -/
def removeMasIdIfNotPresent (accountIdList : List ℤ) (t : MapTable) : MapTable :=
  let toRemove := t.sMasToAcc.values.filter fun oldId => oldId ∉ accountIdList
  toRemove.foldl removeAccount t

/-- One instance in the last loop of `updateEmailAccount`: a free one is given to the first account
in `notAssigned`. -/
def assignInstance (s : List ℤ × MapTable) (i : ℕ) : List ℤ × MapTable :=
  match s with
  | ([], t) => ([], t)
  | (id :: notAssigned, t) =>
    if t.getAccountId i = -1 then (notAssigned, t.updateMapTable id i) else (id :: notAssigned, t)

/-- `updateEmailAccount`, for the accounts in `list`.  The instances are not negative, and their
numbers stay below the largest `int`. -/
def updateEmailAccount (EMAIL_MAS_START EMAIL_MAS_END : ℕ) (list : List ℤ) (t : MapTable) :
    MapTable :=
  let t := t.removeMasIdIfNotPresent list
  let notAssigned := list.filter fun id => t.getMasId id = -1
  ((List.range' EMAIL_MAS_START (EMAIL_MAS_END + 1 - EMAIL_MAS_START)).foldl assignInstance
    (notAssigned, t)).2

end MapTable

/-- The ids of the accounts: they are row ids, so positive and different. -/
structure AccountList where
  ids : List ℤ
  nodup : ids.Nodup
  pos : ∀ id ∈ ids, 0 < id

/-- The calls that change the tables. -/
inductive Call
  | updateEmailAccount (list : AccountList)
  | clearMapTable

/-- The accounts that a call has seen. -/
def Call.list : Call → List ℤ
  | .updateEmailAccount list => list.ids
  | .clearMapTable => []

/-- One call. -/
def call (EMAIL_MAS_START EMAIL_MAS_END : ℕ) (t : MapTable) : Call → MapTable
  | .updateEmailAccount list => t.updateEmailAccount EMAIL_MAS_START EMAIL_MAS_END list.ids
  | .clearMapTable => .empty

/-- One call after the other, from empty tables on. -/
def calls (EMAIL_MAS_START EMAIL_MAS_END : ℕ) (cs : List Call) : MapTable :=
  cs.foldl (call EMAIL_MAS_START EMAIL_MAS_END) .empty

/-! ### Inverse tables -/

namespace MapTable

variable {first last : ℕ} {t t' : MapTable} {a b m : ℤ} {list l : List ℤ}

/-- The tables are inverse to each other, and assign instances of the range to positive ids. -/
structure Consistent (first last : ℕ) (t : MapTable) : Prop where
  inverse : ∀ a m, t.sAccToMas.get a = some m ↔ t.sMasToAcc.get m = some a
  range : ∀ a m, t.sAccToMas.get a = some m → 0 < a ∧ first ≤ m ∧ m ≤ last
  isDict : IsDict Prod.fst t.sMasToAcc

theorem consistent_empty : Consistent first last empty where
  inverse _ _ := iff_of_false nofun nofun
  range := nofun
  isDict := .nil

theorem getMasId_eq_neg_one (h : Consistent first last t) :
    t.getMasId a = -1 ↔ t.sAccToMas.get a = none := by
  rw [getMasId]
  cases ha : t.sAccToMas.get a with
  | none => simp
  | some m =>
    have hm := h.range a m ha
    simp only [Option.getD_some, reduceCtorEq, iff_false]
    omega

theorem getAccountId_eq_neg_one (h : Consistent first last t) :
    t.getAccountId m = -1 ↔ t.sMasToAcc.get m = none := by
  rw [getAccountId]
  cases hm : t.sMasToAcc.get m with
  | none => simp
  | some a =>
    have ha := h.range a m ((h.inverse a m).2 hm)
    simp only [Option.getD_some, reduceCtorEq, iff_false]
    omega

/-- An account without an instance is given a free one. -/
theorem updateMapTable_eq (ha : t.sAccToMas.get a = none) (hm : t.sMasToAcc.get m = none) :
    t.updateMapTable a m = ⟨t.sAccToMas.put a m, t.sMasToAcc.put m a⟩ := by
  rw [updateMapTable, Table.containsKey, Table.containsKey, ha, hm]
  rfl

theorem consistent_updateMapTable (h : Consistent first last t) (ha : t.sAccToMas.get a = none)
    (hm : t.sMasToAcc.get m = none) (hpos : 0 < a) (hfirst : first ≤ m) (hlast : m ≤ last) :
    Consistent first last (t.updateMapTable a m) := by
  rw [updateMapTable_eq ha hm]
  refine ⟨fun b n => ?_, fun b n hb => ?_, isDict_assign h.isDict⟩
  · rw [Table.get_put, Table.get_put]
    by_cases hb : b = a
    · by_cases hn : n = m
      · rw [if_pos hb, if_pos hn, hb, hn]
        exact iff_of_true rfl rfl
      · rw [if_pos hb, if_neg hn, ← h.inverse, hb, ha]
        exact iff_of_false (fun heq => hn (Option.some.inj heq).symm) nofun
    · by_cases hn : n = m
      · rw [if_neg hb, if_pos hn, h.inverse, hn, hm]
        exact iff_of_false nofun (fun heq => hb (Option.some.inj heq).symm)
      · rw [if_neg hb, if_neg hn]
        exact h.inverse b n
  · rw [Table.get_put] at hb
    split_ifs at hb with hba
    · obtain rfl := Option.some.inj hb
      exact ⟨hba ▸ hpos, hfirst, hlast⟩
    · exact h.range b n hb

theorem consistent_removeAccount (h : Consistent first last t) :
    Consistent first last (t.removeAccount a) := by
  cases ha : t.sAccToMas.get a with
  | none =>
    have heq : t.removeAccount a = t := by
      rw [removeAccount, ha, Table.remove_of_get_eq_none ha]
    rwa [heq]
  | some m =>
    have heq : t.removeAccount a = ⟨t.sAccToMas.remove a, t.sMasToAcc.remove m⟩ := by
      rw [removeAccount, ha]
    have hm := (h.inverse a m).1 ha
    rw [heq]
    refine ⟨fun b n => ?_, fun b n hb => ?_, isDict_eraseKey h.isDict⟩
    · rw [Table.get_remove, Table.get_remove]
      by_cases hb : b = a
      · by_cases hn : n = m
        · rw [if_pos hb, if_pos hn]
          exact iff_of_false nofun nofun
        · rw [if_pos hb, if_neg hn, ← h.inverse, hb, ha]
          exact iff_of_false nofun (fun heq => hn (Option.some.inj heq).symm)
      · by_cases hn : n = m
        · rw [if_neg hb, if_pos hn, h.inverse, hn, hm]
          exact iff_of_false (fun heq => hb (Option.some.inj heq).symm) nofun
        · rw [if_neg hb, if_neg hn]
          exact h.inverse b n
    · rw [Table.get_remove] at hb
      split_ifs at hb
      exact h.range b n hb

/-! ### Dropping accounts -/

theorem foldl_removeAccount (h : Consistent first last t) :
    Consistent first last (l.foldl removeAccount t) ∧
      ∀ a, (l.foldl removeAccount t).sAccToMas.get a =
        if a ∈ l then none else t.sAccToMas.get a := by
  induction l generalizing t with
  | nil => exact ⟨h, fun a => (if_neg List.not_mem_nil).symm⟩
  | cons b l ih =>
    obtain ⟨hcons, hget⟩ := ih (consistent_removeAccount (a := b) h)
    refine ⟨hcons, fun a => ?_⟩
    rw [List.foldl_cons, hget, removeAccount, Table.get_remove]
    by_cases hl : a ∈ l
    · rw [if_pos hl, if_pos (List.mem_cons_of_mem _ hl)]
    · rw [if_neg hl]
      by_cases hab : a = b
      · rw [if_pos hab, if_pos (hab ▸ List.mem_cons_self)]
      · rw [if_neg hab, if_neg (List.not_mem_cons_of_ne_of_not_mem hab hl)]

/-- Exactly the listed accounts keep their instances. -/
theorem removeMasIdIfNotPresent_spec (list : List ℤ) (h : Consistent first last t) :
    Consistent first last (t.removeMasIdIfNotPresent list) ∧
      ∀ a, (t.removeMasIdIfNotPresent list).sAccToMas.get a =
        if a ∈ list then t.sAccToMas.get a else none := by
  obtain ⟨hcons, hget⟩ := foldl_removeAccount (l := t.sMasToAcc.values.filter fun a => a ∉ list) h
  refine ⟨hcons, fun a => ?_⟩
  have hmem : a ∈ (t.sMasToAcc.values.filter fun a => a ∉ list) ↔
      (∃ m, t.sMasToAcc.get m = some a) ∧ a ∉ list := by
    rw [List.mem_filter, Table.mem_values h.isDict, decide_eq_true_iff]
  rw [removeMasIdIfNotPresent, hget]
  by_cases hlist : a ∈ list
  · rw [if_pos hlist, if_neg (fun ha => (hmem.1 ha).2 hlist)]
  · rw [if_neg hlist]
    cases ha : t.sAccToMas.get a with
    | none => split_ifs <;> rfl
    | some m => exact if_pos (hmem.2 ⟨⟨m, (h.inverse a m).1 ha⟩, hlist⟩)

/-! ### Giving out instances -/

/-- What holds while the instances are gone through: `done` are those seen so far, and `base` is the
table before. -/
structure Filling (first last : ℕ) (list : List ℤ) (base : MapTable) (done : List ℕ)
    (s : List ℤ × MapTable) : Prop where
  consistent : Consistent first last s.2
  nodup : s.1.Nodup
  free : ∀ a ∈ s.1, 0 < a ∧ a ∈ list ∧ s.2.sAccToMas.get a = none
  listed : ∀ a m, s.2.sAccToMas.get a = some m → a ∈ list
  complete : ∀ a ∈ list, s.2.sAccToMas.get a = none → a ∈ s.1
  kept : ∀ a m, base.sAccToMas.get a = some m → s.2.sAccToMas.get a = some m
  full : s.1 ≠ [] → ∀ i ∈ done, s.2.sMasToAcc.get i ≠ none

theorem filling_assignInstance {base : MapTable} {done : List ℕ} {s : List ℤ × MapTable} {i : ℕ}
    (h : Filling first last list base done s) (hfirst : first ≤ i) (hlast : i ≤ last) :
    Filling first last list base (done ++ [i]) (assignInstance s i) := by
  obtain ⟨notAssigned, t⟩ := s
  cases notAssigned with
  | nil => exact { h with full := fun hne => absurd rfl hne }
  | cons id notAssigned =>
    rw [assignInstance]
    by_cases hfree : t.getAccountId i = -1
    · rw [if_pos hfree]
      obtain ⟨hid, hnodup⟩ := List.nodup_cons.1 h.nodup
      obtain ⟨hpos, hlist, hnone⟩ := h.free id List.mem_cons_self
      have hmas := (getAccountId_eq_neg_one h.consistent).1 hfree
      have hcons := consistent_updateMapTable h.consistent hnone hmas hpos (Int.ofNat_le.2 hfirst)
        (Int.ofNat_le.2 hlast)
      have hget {a : ℤ} (ha : a ≠ id) :
          (t.updateMapTable id i).sAccToMas.get a = t.sAccToMas.get a := by
        rw [updateMapTable_eq hnone hmas, Table.get_put, if_neg ha]
      have hgetId : (t.updateMapTable id i).sAccToMas.get id = some (i : ℤ) := by
        rw [updateMapTable_eq hnone hmas, Table.get_put, if_pos rfl]
      refine ⟨hcons, hnodup, fun a ha => ?_, fun a m ha => ?_, fun a ha hn => ?_, fun a m ha => ?_,
        fun hne j hj => ?_⟩
      · obtain ⟨h1, h2, h3⟩ := h.free a (List.mem_cons_of_mem _ ha)
        exact ⟨h1, h2, (hget (ne_of_mem_of_not_mem ha hid)).trans h3⟩
      · by_cases hne : a = id
        · exact hne ▸ hlist
        · exact h.listed a m ((hget hne).symm.trans ha)
      · by_cases hne : a = id
        · rw [hne, hgetId] at hn
          cases hn
        · obtain hmem | hmem := List.mem_cons.1 (h.complete a ha ((hget hne).symm.trans hn))
          · exact absurd hmem hne
          · exact hmem
      · have ha' := h.kept a m ha
        by_cases hne : a = id
        · rw [hne, hnone] at ha'
          cases ha'
        · exact (hget hne).trans ha'
      · -- the other instances stay as they are
        have hmasGet : (t.updateMapTable id i).sMasToAcc.get j =
            if (j : ℤ) = i then some id else t.sMasToAcc.get j := by
          rw [updateMapTable_eq hnone hmas, Table.get_put]
        rw [hmasGet]
        split_ifs with hji
        · exact Option.some_ne_none _
        · obtain hj | hj := List.mem_append.1 hj
          · exact h.full (List.cons_ne_nil _ _) j hj
          · exact absurd (congrArg Int.ofNat (List.mem_singleton.1 hj)) hji
    · rw [if_neg hfree]
      refine { h with full := fun hne j hj => ?_ }
      obtain hj | hj := List.mem_append.1 hj
      · exact h.full hne j hj
      · obtain rfl := List.mem_singleton.1 hj
        exact fun hnone => hfree ((getAccountId_eq_neg_one h.consistent).2 hnone)

theorem filling_foldl {base : MapTable} {done : List ℕ} {s : List ℤ × MapTable} (is : List ℕ)
    (h : Filling first last list base done s) (his : ∀ i ∈ is, first ≤ i ∧ i ≤ last) :
    Filling first last list base (done ++ is) (is.foldl assignInstance s) := by
  induction is generalizing done s with
  | nil => rwa [List.append_nil]
  | cons i is ih =>
    obtain ⟨⟨hfirst, hlast⟩, his⟩ := List.forall_mem_cons.1 his
    have hrest := ih (filling_assignInstance h hfirst hlast) his
    rwa [List.append_assoc, List.singleton_append] at hrest

/-- Before the instances are gone through: the listed accounts without an instance are collected. -/
theorem filling_start (h : Consistent first last t) (hnodup : list.Nodup)
    (hpos : ∀ id ∈ list, 0 < id) (hlisted : ∀ a m, t.sAccToMas.get a = some m → a ∈ list) :
    Filling first last list t [] (list.filter fun id => t.getMasId id = -1, t) where
  consistent := h
  nodup := hnodup.filter _
  free a ha := by
    obtain ⟨hmem, hid⟩ := List.mem_filter.1 ha
    exact ⟨hpos a hmem, hmem, (getMasId_eq_neg_one h).1 (of_decide_eq_true hid)⟩
  listed := hlisted
  complete a ha hn := List.mem_filter.2 ⟨ha, decide_eq_true ((getMasId_eq_neg_one h).2 hn)⟩
  kept _ _ ha := ha
  full _ := nofun

/-- **One update of the accounts.** -/
theorem filling_updateEmailAccount (h : Consistent first last t) (hnodup : list.Nodup)
    (hpos : ∀ id ∈ list, 0 < id) : ∃ notAssigned,
    Filling first last list (t.removeMasIdIfNotPresent list)
      (List.range' first (last + 1 - first))
        (notAssigned, t.updateEmailAccount first last list) := by
  obtain ⟨hcons, hget⟩ := removeMasIdIfNotPresent_spec list h
  have hlisted : ∀ a m, (t.removeMasIdIfNotPresent list).sAccToMas.get a = some m → a ∈ list := by
    intro a m ha
    by_contra hmem
    rw [hget, if_neg hmem] at ha
    cases ha
  have hfill := filling_foldl (List.range' first (last + 1 - first))
    (filling_start hcons hnodup hpos hlisted) ?_
  · exact ⟨_, hfill⟩
  · intro i hi
    have hbounds := List.mem_range'_1.1 hi
    omega

end MapTable

/-! ### Runs -/

section Runs

variable {first last : ℕ} {before after : MapTable} {cs : List Call} {c : Call}

/-- What holds after a call that has seen the accounts in `list`. -/
structure Correct (first last : ℕ) (before after : MapTable) (list : List ℤ) : Prop where
  inverse : ∀ a m, 0 ≤ a → 0 ≤ m → (after.getAccountId m = a ↔ after.getMasId a = m)
  accounts : ∀ a, after.getMasId a ≠ -1 →
    a ∈ list ∧ first ≤ after.getMasId a ∧ after.getMasId a ≤ last
  instances : ∀ m, after.getAccountId m ≠ -1 → first ≤ m ∧ m ≤ last ∧ after.getAccountId m ∈ list
  kept : ∀ a ∈ list, before.getMasId a ≠ -1 → after.getMasId a = before.getMasId a
  full : ∀ a ∈ list, after.getMasId a = -1 → ∀ m : ℤ, first ≤ m → m ≤ last →
    after.getAccountId m ≠ -1

namespace MapTable

variable {t : MapTable} {a m : ℤ}

theorem getMasId_eq_iff (hm : 0 ≤ m) : t.getMasId a = m ↔ t.sAccToMas.get a = some m := by
  rw [getMasId]
  cases t.sAccToMas.get a with
  | none =>
    simp only [Option.getD_none, reduceCtorEq, iff_false]
    omega
  | some n => simp

theorem getAccountId_eq_iff (ha : 0 ≤ a) : t.getAccountId m = a ↔ t.sMasToAcc.get m = some a := by
  rw [getAccountId]
  cases t.sMasToAcc.get m with
  | none =>
    simp only [Option.getD_none, reduceCtorEq, iff_false]
    omega
  | some n => simp

end MapTable

open MapTable

theorem consistent_call (h : Consistent first last before) :
    Consistent first last (call first last before c) := by
  cases c with
  | updateEmailAccount list =>
    obtain ⟨_, hfill⟩ := filling_updateEmailAccount h list.nodup list.pos
    exact hfill.consistent
  | clearMapTable => exact consistent_empty

theorem consistent_calls : Consistent first last (calls first last cs) := by
  induction cs using List.reverseRecOn with
  | nil => exact consistent_empty
  | append_singleton cs c ih =>
    rw [calls, List.foldl_append, List.foldl_cons, List.foldl_nil]
    exact consistent_call ih

theorem correct_updateEmailAccount {list : AccountList} (h : Consistent first last before) :
    Correct first last before (before.updateEmailAccount first last list.ids) list.ids := by
  obtain ⟨notAssigned, hfill⟩ := filling_updateEmailAccount h list.nodup list.pos
  have hcons := hfill.consistent
  have hmasId {a : ℤ} (ha : (before.updateEmailAccount first last list.ids).getMasId a ≠ -1) :
      ∃ m, (before.updateEmailAccount first last list.ids).sAccToMas.get a = some m :=
    Option.ne_none_iff_exists'.1 fun hn => ha ((getMasId_eq_neg_one hcons).2 hn)
  refine ⟨fun a m ha hm => ?_, fun a ha => ?_, fun m hm => ?_, fun a ha hold => ?_,
    fun a ha hn m hfirst hlast => ?_⟩
  · rw [getAccountId_eq_iff ha, getMasId_eq_iff hm]
    exact (hcons.inverse a m).symm
  · obtain ⟨m, hm⟩ := hmasId ha
    obtain ⟨-, hfirst, hlast⟩ := hcons.range a m hm
    have heq := (getMasId_eq_iff (by omega)).2 hm
    exact ⟨hfill.listed a m hm, by omega, by omega⟩
  · obtain ⟨a, ha⟩ :=
      Option.ne_none_iff_exists'.1 fun hn => hm ((getAccountId_eq_neg_one hcons).2 hn)
    have hget := (hcons.inverse a m).2 ha
    obtain ⟨hpos, hfirst, hlast⟩ := hcons.range a m hget
    rw [(getAccountId_eq_iff (by omega)).2 ha]
    exact ⟨hfirst, hlast, hfill.listed a m hget⟩
  · -- a listed account survives the removals, and nothing is reassigned
    obtain ⟨m, hm⟩ := Option.ne_none_iff_exists'.1 fun hn => hold ((getMasId_eq_neg_one h).2 hn)
    obtain ⟨-, hfirst, -⟩ := h.range a m hm
    have hbase := ((removeMasIdIfNotPresent_spec list.ids h).2 a).trans (if_pos ha)
    have hkept := hfill.kept a m (hbase.trans hm)
    rw [(getMasId_eq_iff (by omega)).2 hm]
    exact (getMasId_eq_iff (by omega)).2 hkept
  · have hmem := hfill.complete a ha ((getMasId_eq_neg_one hcons).1 hn)
    obtain ⟨i, rfl⟩ := Int.eq_ofNat_of_zero_le (by omega : 0 ≤ m)
    have hi : i ∈ List.range' first (last + 1 - first) := List.mem_range'_1.2 (by omega)
    intro hfree
    exact hfill.full (List.ne_nil_of_mem hmem) i hi ((getAccountId_eq_neg_one hcons).1 hfree)

/-- **The table of accounts.**  After each call of every sequence of calls the tables are inverse to
each other; they assign only accounts that the call has seen and instances of the range; an account
that is still listed keeps its instance; and no instance is free while a listed account has none. -/
theorem accounts_correct :
    Correct first last (calls first last cs) (calls first last (cs ++ [c])) c.list := by
  have hcalls : calls first last (cs ++ [c]) = call first last (calls first last cs) c := by
    rw [calls, List.foldl_append, List.foldl_cons, List.foldl_nil]
    rfl
  rw [hcalls]
  cases c with
  | updateEmailAccount list => exact correct_updateEmailAccount consistent_calls
  | clearMapTable =>
    refine ⟨fun a m ha hm => ?_, fun a ha => absurd rfl ha, fun m hm => absurd rfl hm, nofun, nofun⟩
    change (-1 = a ↔ -1 = m)
    omega

end Runs

end EmailAccounts

end Map

end Msm8909w
