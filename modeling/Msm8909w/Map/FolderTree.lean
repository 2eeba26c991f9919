import Msm8909w.Map.Folders

/-!
# Moving through the folders

The code knows the folder it is in only by the text of its path, and takes this text apart again in
every call.  Here a folder is the list of the names that lead to it.

* `navigate` : `setPath` on such lists,
* `setPath_textOf` : if the names of the folders have no `/` and no `gmail` in them, the code moves
  through the texts of the paths as `navigate` does through the lists,
* `staysInTree` : every path that is reached is one of the tree, and going up undoes going down.
-/

namespace Msm8909w

namespace Map

namespace Folders

/-! ### Places -/

section Places

variable (M : CaseMaps) (folders : List JString)

/-- The name is that of a folder in the list. -/
def Listed (name : JString) : Prop := ∃ f ∈ folders, M.equalsIgnoreCase f name = true

instance (name : JString) : Decidable (Listed M folders name) :=
  inferInstanceAs (Decidable (∃ f ∈ folders, _))

/-- The names that lead to a folder. -/
abbrev Place := List JString

/-- The folder with this name in the folder at a place. -/
def find (name : JString) : Place → Option Place
  | [] => if name = TELECOM then some [TELECOM] else none
  | [top] => if name = MSG then some [top, MSG] else none
  | place => if Listed M folders name then some (place ++ [name]) else none

/-- Enter a folder, if it is found. -/
def enterAt (name : JString) (place : Place) : Bool × Place :=
  match find M folders name place with
  | some inner => (true, inner)
  | none => (false, place)

/-- What a call returns, and the place it leads to. -/
def navigate (up : Bool) (given : Option JString) (place : Place) : Bool × Place :=
  match up, given, place with
  | false, none, _ | false, some [], _ => (true, [])
  | false, some name, place => enterAt M folders name place
  | true, _, [] => (false, [])
  | true, none, place | true, some [], place => (true, place.dropLast)
  | true, some name, place => enterAt M folders name place.dropLast

/-- The place is in the tree. -/
def InTree (place : Place) : Prop :=
  place = [] ∨ place = [TELECOM] ∨ ∃ names, (∀ n ∈ names, Listed M folders n) ∧
    place = TELECOM :: MSG :: names

end Places

section Navigate

variable {M : CaseMaps} {folders : List JString} {name : JString} {place inner : Place}

theorem navigate_down (hname : name ≠ []) :
    navigate M folders false (some name) place = enterAt M folders name place := by
  cases name with
  | nil => exact absurd rfl hname
  | cons c name => rfl

theorem navigate_up {given : Option JString} (hne : place ≠ []) (hname : NoName given) :
    navigate M folders true given place = (true, place.dropLast) := by
  cases place with
  | nil => exact absurd rfl hne
  | cons top place => rcases hname with rfl | rfl <;> rfl

theorem navigate_upDown (hne : place ≠ []) (hname : name ≠ []) :
    navigate M folders true (some name) place = enterAt M folders name place.dropLast := by
  cases place with
  | nil => exact absurd rfl hne
  | cons top place =>
    cases name with
    | nil => exact absurd rfl hname
    | cons c name => rfl

theorem InTree.find (h : InTree M folders place) (hfind : find M folders name place = some inner) :
    InTree M folders inner := by
  rcases h with rfl | rfl | ⟨names, hnames, rfl⟩
  · rw [Folders.find] at hfind
    split_ifs at hfind
    exact .inr (.inl (Option.some.inj hfind).symm)
  · rw [Folders.find] at hfind
    split_ifs at hfind
    exact .inr (.inr ⟨[], nofun, (Option.some.inj hfind).symm⟩)
  · rw [Folders.find] at hfind
    · split_ifs at hfind with hlisted
      refine .inr (.inr ⟨names ++ [name], ?_, (Option.some.inj hfind).symm⟩)
      intro n hn
      rcases List.mem_append.1 hn with hn | hn
      · exact hnames n hn
      · rw [List.mem_singleton.1 hn]
        exact hlisted
    · nofun
    · nofun

theorem InTree.enterAt (h : InTree M folders place) (name : JString) :
    InTree M folders (enterAt M folders name place).2 := by
  rw [Folders.enterAt]
  split
  · next hfind => exact h.find hfind
  · exact h

theorem InTree.dropLast (h : InTree M folders place) : InTree M folders place.dropLast := by
  rcases h with rfl | rfl | ⟨names, hnames, rfl⟩
  · exact .inl rfl
  · exact .inl rfl
  · cases names using List.reverseRecOn with
    | nil => exact .inr (.inl rfl)
    | append_singleton names n =>
      refine .inr (.inr ⟨names, fun m hm => hnames m (List.mem_append_left _ hm), ?_⟩)
      rw [← List.cons_append, ← List.cons_append, List.dropLast_concat]

/-- Entering a folder adds one name. -/
theorem exists_of_find (hfind : find M folders name place = some inner) :
    ∃ n, inner = place ++ [n] := by
  rw [Folders.find.eq_def] at hfind
  split at hfind
  all_goals
    split_ifs at hfind
    obtain rfl := Option.some.inj hfind
  · exact ⟨TELECOM, rfl⟩
  · exact ⟨MSG, rfl⟩
  · exact ⟨name, rfl⟩

end Navigate

/-! ### The text of a place -/

section Texts

variable {M : CaseMaps} {folders : List JString} {name f : JString} {place : Place}

variable (M) in
/-- A name that can be told from the others in the text of a path. -/
structure Plain (name : JString) : Prop where
  ne_nil : name ≠ []
  noSlash : 47 ∉ name
  noGmail : ¬ M.Mentions name (js "gmail")

theorem eq_slash_of_fold {c : UInt16} (h : M.fold c = M.fold 47) : c = 47 := by
  have hlatin := (M.fold_latin c 47 (by decide)).1 h
  have hslash : foldCase 47 = 47 := by decide
  rw [hslash, foldCase] at hlatin
  grind

/-- A name that differs from a plain one by its case. -/
theorem Plain.of_equalsIgnoreCase (h : Plain M f) (heq : M.equalsIgnoreCase f name = true) :
    Plain M name := by
  have hfold : f.map M.fold = name.map M.fold := of_decide_eq_true heq
  refine ⟨?_, ?_, ?_⟩
  · rintro rfl
    exact h.ne_nil (List.map_eq_nil_iff.1 hfold)
  · intro hslash
    have hmem : M.fold 47 ∈ f.map M.fold := hfold ▸ List.mem_map_of_mem hslash
    obtain ⟨c, hc, hslash⟩ := List.mem_map.1 hmem
    exact h.noSlash (eq_slash_of_fold hslash ▸ hc)
  · intro hgmail
    refine h.noGmail ?_
    rw [CaseMaps.Mentions, hfold]
    exact hgmail

theorem Listed.plain (h : ∀ f ∈ folders, Plain M f) (hname : Listed M folders name) :
    Plain M name := by
  obtain ⟨f, hf, heq⟩ := hname
  exact (h f hf).of_equalsIgnoreCase heq

/-- Every name on the way to a place in the tree is plain. -/
theorem InTree.plain (h : InTree M folders place) (hfolders : ∀ f ∈ folders, Plain M f) :
    ∀ n ∈ place, Plain M n := by
  -- there is no `g` in the one and no `a` in the other
  have hg : ∀ c ∈ TELECOM, foldCase c ≠ foldCase 103 := List.all_iff_forall_prop.1 (by decide)
  have ha : ∀ c ∈ MSG, foldCase c ≠ foldCase 97 := List.all_iff_forall_prop.1 (by decide)
  have htelecom : Plain M TELECOM := ⟨by decide, by decide, not_mentions_gmail (by decide) hg⟩
  have hmsg : Plain M MSG := ⟨by decide, by decide, not_mentions_gmail (by decide) ha⟩
  rcases h with rfl | rfl | ⟨names, hnames, rfl⟩
  · exact nofun
  · intro n hn
    rw [List.mem_singleton.1 hn]
    exact htelecom
  · intro n hn
    rcases List.mem_cons.1 hn with rfl | hn
    · exact htelecom
    rcases List.mem_cons.1 hn with rfl | hn
    · exact hmsg
    · exact (hnames n hn).plain hfolders

theorem splitOn_text (hne : place ≠ []) (h : ∀ n ∈ place, Plain M n) :
    ([47].intercalate place).splitOn 47 = place :=
  List.splitOn_intercalate 47 (fun n hn => (h n hn).noSlash) hne

theorem not_gmail_text (hne : place ≠ []) (h : ∀ n ∈ place, Plain M n) :
    ¬ js "GMAIL" <:+: M.toUpperCase ([47].intercalate place) := by
  intro hgmail
  -- the word has no slash in it, so that it would be in one of the names
  have hfold := M.gmail_of_toUpperCase _ hgmail
  rw [map_intercalate] at hfold
  have hslash : M.fold 47 ∉ (js "gmail").map M.fold := by
    intro hmem
    obtain ⟨c, hc, hfold⟩ := List.mem_map.1 hmem
    rw [eq_slash_of_fold hfold] at hc
    exact absurd hc (by decide)
  obtain ⟨folded, hmem, hin⟩ :=
    exists_infix_of_intercalate (mt List.map_eq_nil_iff.1 hne) hslash hfold
  obtain ⟨n, hn, rfl⟩ := List.mem_map.1 hmem
  exact (h n hn).noGmail hin

/-- The folder above that at a place. -/
theorem above_text (hne : place ≠ []) (h : ∀ n ∈ place, Plain M n) :
    above M ([47].intercalate place) = textOf 47 place.dropLast := by
  rw [above, if_neg (not_gmail_text hne h), splitOn_text hne h]

/-- The names are read back from the text. -/
theorem splitPath_text (hne : place ≠ []) (h : ∀ n ∈ place, Plain M n) :
    splitPath ([47].intercalate place) = place := by
  have htext : [47].intercalate place ≠ [] := by
    intro hnil
    have hsplit := splitOn_text hne h
    rw [hnil, List.splitOn_nil] at hsplit
    exact (h [] (hsplit ▸ List.mem_singleton_self [])).ne_nil rfl
  rw [splitPath, if_neg htext, splitOn_text hne h]
  cases place using List.reverseRecOn with
  | nil => exact absurd rfl hne
  | append_singleton place n =>
    have hn : n ≠ [] := (h n (List.mem_append_right _ (List.mem_singleton_self n))).ne_nil
    rw [List.reverse_append, List.reverse_singleton, List.singleton_append,
      List.dropWhile_cons_of_neg (by simpa using hn), List.reverse_cons, List.reverse_reverse]

/-- The name is found in the text exactly if it is found at the place. -/
theorem opens_textOf (h : ∀ n ∈ place, Plain M n) :
    opens M folders name (textOf 47 place) = (find M folders name place).isSome := by
  rcases place with _ | ⟨top, _ | ⟨second, rest⟩⟩
  · rw [textOf_nil, opens, find, Bool.eq_iff_iff]
    split_ifs with hname <;> simp [hname, eq_comm]
  · have hdepth : (splitPath ([47].intercalate [top])).length = 1 :=
      congrArg List.length (splitPath_text (List.cons_ne_nil _ _) h)
    rw [textOf_of_ne_nil (List.cons_ne_nil _ _), opens, hdepth, find, Bool.eq_iff_iff]
    split_ifs with hname <;> simp [hname]
  · have hdepth : (splitPath ([47].intercalate (top :: second :: rest))).length = rest.length + 2 :=
      congrArg List.length (splitPath_text (List.cons_ne_nil _ _) h)
    rw [textOf_of_ne_nil (List.cons_ne_nil _ _), opens, hdepth, find, Bool.eq_iff_iff]
    · split_ifs with hname <;> simpa [Listed] using hname
    · rintro ⟨⟩
    · rintro _ ⟨⟩

theorem entered_textOf {inner : Place} (hfind : find M folders name place = some inner) :
    some (entered name (textOf 47 place)) = textOf 47 inner := by
  rw [find.eq_def] at hfind
  split at hfind
  · split_ifs at hfind
    obtain rfl := Option.some.inj hfind
    rfl
  · split_ifs at hfind with hname
    obtain rfl := Option.some.inj hfind
    rw [hname, textOf_of_ne_nil (by simp), entered, textOf_of_ne_nil (by simp)]
    simp
  -- below `telecom` the name is added behind a slash
  · next hroot _ =>
    split_ifs at hfind
    obtain rfl := Option.some.inj hfind
    rw [textOf_of_ne_nil hroot, entered, textOf_of_ne_nil (by simp), intercalate_concat hroot]

theorem goDown_textOf (h : ∀ n ∈ place, Plain M n) : goDown M folders name true (textOf 47 place) =
    ((enterAt M folders name place).1, textOf 47 (enterAt M folders name place).2) := by
  rw [goDown_set, opens_textOf h, enterAt]
  cases hfind : find M folders name place with
  | none => rfl
  | some inner =>
    rw [Option.isSome_some, if_pos rfl, entered_textOf hfind]

theorem InTree.rooted (h : InTree M folders place) (hfolders : ∀ f ∈ folders, Plain M f) :
    Rooted (textOf 47 place) := by
  by_cases hne : place = []
  · rw [hne]
    trivial
  · rw [textOf_of_ne_nil hne, Rooted, splitOn_text hne (h.plain hfolders)]
    rcases h with h | rfl | ⟨names, -, rfl⟩
    · exact absurd h hne
    · rfl
    · rfl

/-- **The code moves through the tree**: on the text of a place, `setPath` does what `navigate` does
on the place. -/
theorem setPath_textOf (hfolders : ∀ f ∈ folders, Plain M f) (h : InTree M folders place)
    (up : Bool) (given : Option JString) : setPath M folders up given (textOf 47 place) =
      .ok ((navigate M folders up given place).1,
        textOf 47 (navigate M folders up given place).2) := by
  have hplain := h.plain hfolders
  rw [setPath]
  cases up with
  | false =>
    rcases noName_or given with hname | ⟨name, rfl, hname⟩
    · rw [checkPath_back hname]
      rcases hname with rfl | rfl <;> rfl
    · rw [checkPath_down hname, goDown_textOf hplain, navigate_down hname]
  | true =>
    by_cases hne : place = []
    · rw [hne, textOf_nil, checkPath_root]
      rcases noName_or given with (rfl | rfl) | ⟨name, rfl, -⟩ <;> rfl
    · have hrooted := h.rooted hfolders
      rw [textOf_of_ne_nil hne] at hrooted ⊢
      rcases noName_or given with hname | ⟨name, rfl, hname⟩
      · rw [checkPath_up hrooted hname, above_text hne hplain, navigate_up hne hname]
      · rw [checkPath_upDown hrooted hname, above_text hne hplain,
          goDown_textOf (h.dropLast.plain hfolders), navigate_upDown hne hname]

end Texts

/-! ### Sequences of calls -/

section Calls

variable (M : CaseMaps) (folders : List JString)

/-- The path after some calls of `setPath`, from the root. -/
def pathAfter (calls : List (Bool × Option JString)) : Except Exn (Option JString) :=
  calls.foldlM (fun path call => do return (← setPath M folders call.1 call.2 path).2) none

/-- The paths of the tree. -/
def TreePath (path : Option JString) : Prop :=
  path = none ∨ path = some (js "telecom") ∨ path = some (js "telecom/msg") ∨
    ∃ names, names ≠ [] ∧ (∀ n ∈ names, Listed M folders n) ∧
      path = some (js "telecom/msg/" ++ [47].intercalate names)

variable {M folders} {place : Place} {path : Option JString}

theorem InTree.navigate (h : InTree M folders place) (up : Bool) (given : Option JString) :
    InTree M folders (navigate M folders up given place).2 := by
  cases up with
  | false =>
    rcases noName_or given with (rfl | rfl) | ⟨name, rfl, hname⟩
    · exact .inl rfl
    · exact .inl rfl
    · rw [navigate_down hname]
      exact h.enterAt name
  | true =>
    by_cases hne : place = []
    · rw [hne]
      rcases noName_or given with (rfl | rfl) | ⟨name, rfl, -⟩ <;> exact .inl rfl
    · rcases noName_or given with hname | ⟨name, rfl, hname⟩
      · rw [navigate_up hne hname]
        exact h.dropLast
      · rw [navigate_upDown hne hname]
        exact h.dropLast.enterAt name

theorem InTree.treePath (h : InTree M folders place) : TreePath M folders (textOf 47 place) := by
  rcases h with rfl | rfl | ⟨names, hnames, rfl⟩
  · exact .inl rfl
  · exact .inr (.inl rfl)
  · cases names with
    | nil => exact .inr (.inr (.inl rfl))
    | cons n names =>
      refine .inr (.inr (.inr ⟨n :: names, List.cons_ne_nil n names, hnames, ?_⟩))
      rw [textOf_of_ne_nil (by simp), List.intercalate_cons_cons, List.intercalate_cons_cons]
      rfl

/-- The calls lead to the text of a place in the tree. -/
theorem exists_place (hfolders : ∀ f ∈ folders, Plain M f) (calls : List (Bool × Option JString)) :
    ∃ place, InTree M folders place ∧ pathAfter M folders calls = .ok (textOf 47 place) := by
  -- every call keeps to the tree, wherever in it the calls start
  have hfrom : ∀ place, InTree M folders place → ∃ place', InTree M folders place' ∧
      calls.foldlM (fun path call => do return (← setPath M folders call.1 call.2 path).2)
        (textOf 47 place) = .ok (textOf 47 place') := by
    induction calls with
    | nil => exact fun place h => ⟨place, h, rfl⟩
    | cons call calls ih =>
      intro place h
      obtain ⟨place', h', heq⟩ := ih _ (h.navigate call.1 call.2)
      refine ⟨place', h', ?_⟩
      rw [List.foldlM_cons, setPath_textOf hfolders h]
      exact heq
  exact hfrom [] (.inl rfl)

/-- **Moving through the tree**: if the names of the folders are plain, every sequence of calls
leads to a path of the tree, and from there going up undoes going down. -/
theorem staysInTree (hfolders : ∀ f ∈ folders, Plain M f) (calls : List (Bool × Option JString)) :
    ∃ path, pathAfter M folders calls = .ok path ∧ TreePath M folders path ∧
      ∀ name path', name ≠ [] → setPath M folders false (some name) path = .ok (true, path') →
        setPath M folders true none path' = .ok (true, path) := by
  obtain ⟨place, h, heq⟩ := exists_place hfolders calls
  refine ⟨textOf 47 place, heq, h.treePath, ?_⟩
  intro name path' hname hdown
  rw [setPath_textOf hfolders h, navigate_down hname, enterAt] at hdown
  cases hfind : find M folders name place with
  | none =>
    rw [hfind] at hdown
    cases hdown
  | some inner =>
    rw [hfind] at hdown
    obtain ⟨-, rfl⟩ := Prod.mk.inj (Except.ok.inj hdown)
    obtain ⟨n, rfl⟩ := exists_of_find hfind
    rw [setPath_textOf hfolders (h.find hfind), navigate_up (by simp) (.inl rfl),
      List.dropLast_concat]

/-- The folders of the SMS and MMS application have such names. -/
theorem plain_sms : ∀ f ∈ FORLDER_LIST_SMS_MMS, Plain M f := by
  have hall : ∀ f ∈ FORLDER_LIST_SMS_MMS,
      f ≠ [] ∧ 47 ∉ f ∧ (f.all fun c => foldCase c ≠ foldCase 103) = true := by
    decide
  intro f hf
  obtain ⟨hne, hslash, hg⟩ := hall f hf
  exact ⟨hne, hslash, not_mentions_gmail List.mem_cons_self (List.all_iff_forall_prop.1 hg)⟩

theorem staysInTree_sms :
    let calls :=
      [(false, some TELECOM), (false, some MSG), (false, some INBOX), (true, some (js "Sent"))]
    pathAfter latin FORLDER_LIST_SMS_MMS calls = .ok (some (js "telecom/msg/Sent")) ∧
      TreePath latin FORLDER_LIST_SMS_MMS (some (js "telecom/msg/Sent")) := by
  intro calls
  have hpath : pathAfter latin FORLDER_LIST_SMS_MMS calls =
    .ok (some (js "telecom/msg/Sent")) := by decide
  obtain ⟨path, heq, htree, -⟩ := staysInTree (M := latin) plain_sms calls
  obtain rfl := Except.ok.inj (hpath.symm.trans heq)
  exact ⟨hpath, htree⟩

end Calls

end Folders

end Map

end Msm8909w
