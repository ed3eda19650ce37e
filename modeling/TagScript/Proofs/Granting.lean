import Mathlib.Data.Finset.Lattice.Lemmas
import Mathlib.Data.List.Sort
import TagScript.Scope.Privilege

/-!
# Granting is the union of sets

A variable that holds privileges may have any form: an array of whatever
values, a text with commas, something else, or it may not be there at all. A
grant reads it and leaves an array of texts in its place, in which the names
that were there before stand trimmed and the new ones as they were given. So
nothing is to be said of the variable itself but what it lists (`Lists`), and
the laws of granting are laws of what is held.

As such they are those of sets: what is held after a grant is what was held
before, together with the names that have been given, trimmed, where anything
is left of them (`mem_held_grant`). Since the names that are held ascend, two
scopes with the same privileges hold the same list of them, and order,
grouping and repetition of grants make no difference (`held_grantAll_congr`).
-/

namespace TagScript.Privilege

/-- **The names that some texts stand for**: the texts trimmed, without those
of which nothing is left. -/
def named (texts : List String) : List String :=
  (texts.map Text.trim).filter fun name => !name.isEmpty

theorem mem_named {texts : List String} {name : String} :
    name ∈ named texts ↔ name ≠ "" ∧ ∃ text ∈ texts, Text.trim text = name := by
  simp [named, and_comm]

theorem named_append (texts more : List String) :
    named (texts ++ more) = named texts ++ named more := by
  simp [named]

/-! ## What the variable lists -/

/-- **The texts that the variable lists**, in whatever form: as the texts of
the items of an array, or joined by commas. -/
inductive Lists : Option Value → List String → Prop
  /-- A variable that is not there lists nothing. -/
  | absent : Lists none []
  /-- An array lists the texts of its items, whatever they are. -/
  | array (items : List Value) : Lists (some (.array items)) (items.map Value.text)
  /-- A text lists what is joined by its commas. -/
  | joined (texts : List String) (h : ∀ text ∈ texts, ',' ∉ text.toList) :
      Lists (some (.str (Text.joinWith "," texts))) texts
  /-- A value of any other kind lists nothing. -/
  | other (value : Value) (harray : ∀ items, value ≠ .array items)
      (htext : ∀ s, value ≠ .str s) : Lists (some value) []

/-- A variable of any form lists some texts. -/
theorem exists_lists (value : Option Value) : ∃ texts, Lists value texts := by
  cases value with
  | none => exact ⟨_, .absent⟩
  | some value =>
    cases value with
    | array items => exact ⟨_, .array items⟩
    | str s =>
      have hpieces : ∀ piece ∈ Text.split ',' s, ',' ∉ piece.toList := by
        intro piece hpiece
        obtain ⟨cs, hcs, rfl⟩ := List.mem_map.1 hpiece
        rw [String.toList_ofList]
        exact Text.separator_notMem hcs
      have hlists := Lists.joined _ hpieces
      rw [Text.joinWith_split rfl] at hlists
      exact ⟨_, hlists⟩
    | _ => exact ⟨_, .other _ nofun nofun⟩

/-- **The privileges of a scope are the names that its variable lists.** -/
theorem Lists.mem_held {locals : Vars} {texts : List String} {name : String}
    (h : Lists (locals.get? Reserved.procPrivilege) texts) :
    name ∈ held locals ↔ name ∈ named texts := by
  rw [Privilege.mem_held]
  generalize locals.get? Reserved.procPrivilege = value at h
  cases h with
  | absent => exact Iff.rfl
  | array items =>
    rw [listed, named, List.map_map]
    rfl
  | joined texts htexts =>
    show name ∈ named (Text.split ',' (Text.joinWith "," texts)) ↔ _
    by_cases hnone : texts = []
    · -- the text of no names has one piece, and that is empty
      subst hnone
      have hblank : named (Text.split ',' (Text.joinWith "," [])) = named [] := by decide +kernel
      rw [hblank]
    · rw [Text.split_joinWith rfl hnone htexts]
  | other value harray htext =>
    unfold listed
    split
    · next items heq => exact absurd (Option.some.inj heq) (harray items)
    · next s heq => exact absurd (Option.some.inj heq) (htext s)
    · exact Iff.rfl

/-- The privileges that a scope holds are trimmed and not empty. -/
theorem trim_of_mem_held {locals : Vars} {name : String} (h : name ∈ held locals) :
    name ≠ "" ∧ Text.trim name = name := by
  obtain ⟨texts, hlists⟩ := exists_lists (locals.get? Reserved.procPrivilege)
  obtain ⟨hne, text, -, rfl⟩ := mem_named.1 (hlists.mem_held.1 h)
  exact ⟨hne, Text.trim_trim text⟩

/-- So they stand for themselves. -/
theorem mem_named_held {locals : Vars} {name : String} :
    name ∈ named (held locals) ↔ name ∈ held locals := by
  rw [mem_named]
  constructor
  · rintro ⟨-, text, htext, rfl⟩
    rwa [(trim_of_mem_held htext).2]
  · exact fun h => ⟨(trim_of_mem_held h).1, name, h, (trim_of_mem_held h).2⟩

/-! ## One list for every set -/

/-- A name is put in its place. -/
theorem pairwise_insertName {names : List String} (h : names.Pairwise (· < ·)) (name : String) :
    (insertName names name).Pairwise (· < ·) := by
  induction names with
  | nil => exact List.pairwise_singleton _ _
  | cons first rest ih =>
    obtain ⟨hfirst, hrest⟩ := List.pairwise_cons.1 h
    unfold insertName
    split
    · exact h
    · next hne =>
      split
      · next hlt =>
        refine List.pairwise_cons.2 ⟨fun other hother => ?_, h⟩
        obtain rfl | hother := List.mem_cons.1 hother
        · exact hlt
        · exact String.lt_trans hlt (hfirst other hother)
      · next hge =>
        refine List.pairwise_cons.2 ⟨fun other hother => ?_, ih hrest⟩
        obtain rfl | hother := mem_insertName.1 hother
        · exact Std.lt_of_le_of_ne hge hne
        · exact hfirst other hother

/-- **The privileges of a scope ascend**, each once. -/
theorem pairwise_held (locals : Vars) : (held locals).Pairwise (· < ·) := by
  unfold held nameSet
  induction listed (locals.get? Reserved.procPrivilege) with
  | nil => exact List.Pairwise.nil
  | cons name rest ih => exact pairwise_insertName ih name

/-- Scopes that hold the same privileges list them alike. -/
theorem held_eq_of_mem_iff {locals others : Vars}
    (h : ∀ name, name ∈ held locals ↔ name ∈ held others) : held locals = held others :=
  (pairwise_held locals).eq_of_mem_iff (pairwise_held others) h

/-! ## Grants -/

/-- **A grant unites.** -/
theorem mem_held_grant {locals : Vars} {names : List String} {name : String} :
    name ∈ held (grant locals names) ↔ name ∈ held locals ∨ name ∈ named names := by
  have hlists : Lists ((grant locals names).get? Reserved.procPrivilege)
      (names.foldl insertName (held locals)) := by
    have harray := Lists.array ((names.foldl insertName (held locals)).map .str)
    rw [List.map_map, show Value.text ∘ Value.str = id from rfl, List.map_id] at harray
    rwa [grant, Dict.get?_insert_self]
  rw [hlists.mem_held, ← mem_named_held, mem_named, mem_named, mem_named]
  simp only [mem_foldl_insertName]
  constructor
  · rintro ⟨hne, text, htext | htext, htrim⟩
    · exact .inr ⟨hne, text, htext, htrim⟩
    · exact .inl ⟨hne, text, htext, htrim⟩
  · rintro (⟨hne, text, htext, htrim⟩ | ⟨hne, text, htext, htrim⟩)
    · exact ⟨hne, text, .inr htext, htrim⟩
    · exact ⟨hne, text, .inl htext, htrim⟩

/-- A scope with one list of names granted after the other. -/
def grantAll (locals : Vars) (grants : List (List String)) : Vars := grants.foldl grant locals

/-- **So do any number of them.** -/
theorem mem_held_grantAll {locals : Vars} {grants : List (List String)} {name : String} :
    name ∈ held (grantAll locals grants) ↔ name ∈ held locals ∨ name ∈ named grants.flatten := by
  induction grants generalizing locals with
  | nil => simp [grantAll, named]
  | cons names grants ih =>
    rw [grantAll, List.foldl_cons, ← grantAll, ih, mem_held_grant, List.flatten_cons, named_append,
      List.mem_append, or_assoc]

/-- **Only what is held before and what is named counts**, not in which order, in which grants or
how often it is named. -/
theorem held_grantAll_congr {locals others : Vars} {grants more : List (List String)}
    (h : ∀ name, name ∈ held locals ∨ name ∈ named grants.flatten ↔
      name ∈ held others ∨ name ∈ named more.flatten) :
    held (grantAll locals grants) = held (grantAll others more) :=
  held_eq_of_mem_iff fun name => by rw [mem_held_grantAll, mem_held_grantAll, h name]

/-- Grants change no other variable. -/
theorem erase_grantAll (locals : Vars) (grants : List (List String)) :
    (grantAll locals grants).erase Reserved.procPrivilege =
      locals.erase Reserved.procPrivilege := by
  induction grants generalizing locals with
  | nil => rfl
  | cons names grants ih => exact (ih _).trans (Dict.erase_insert _ _ _)

/-! ## The laws of sets -/

section Laws

variable {locals others : Vars} {texts : List String}

/-- What a scope holds is the set of the names that its variable lists. -/
theorem toFinset_held (h : Lists (locals.get? Reserved.procPrivilege) texts) :
    (held locals).toFinset = (named texts).toFinset := by
  ext name
  rw [List.mem_toFinset, List.mem_toFinset, h.mem_held]

/-- Two forms of the variable that list the same names are the same to all grants. -/
theorem held_grantAll_of_lists {more : List String}
    (h : Lists (locals.get? Reserved.procPrivilege) texts)
    (hmore : Lists (others.get? Reserved.procPrivilege) more)
    (hsame : (named texts).toFinset = (named more).toFinset) (grants : List (List String)) :
    held (grantAll locals grants) = held (grantAll others grants) := by
  refine held_grantAll_congr fun name => ?_
  rw [h.mem_held, hmore.mem_held, ← List.mem_toFinset, hsame, List.mem_toFinset]

variable (locals)

/-- A grant is the union of what is held and what is named. -/
theorem toFinset_held_grant (names : List String) :
    (held (grant locals names)).toFinset = (held locals).toFinset ∪ (named names).toFinset := by
  ext name
  rw [Finset.mem_union, List.mem_toFinset, List.mem_toFinset, List.mem_toFinset, mem_held_grant]

/-- Many grants are the union of what is held and what they name together. -/
theorem toFinset_held_grantAll (grants : List (List String)) :
    (held (grantAll locals grants)).toFinset =
      (held locals).toFinset ∪ (named grants.flatten).toFinset := by
  ext name
  rw [Finset.mem_union, List.mem_toFinset, List.mem_toFinset, List.mem_toFinset, mem_held_grantAll]

/-- Grants that name the same together come to the same. -/
theorem held_grantAll_of_named_eq {grants more : List (List String)}
    (h : (named grants.flatten).toFinset = (named more.flatten).toFinset) :
    held (grantAll locals grants) = held (grantAll locals more) := by
  refine held_grantAll_congr fun name => or_congr_right ?_
  rw [← List.mem_toFinset, h, List.mem_toFinset]

/-- Grants commute. -/
theorem held_grant_comm (names more : List String) :
    held (grant (grant locals names) more) = held (grant (grant locals more) names) := by
  refine held_eq_of_mem_iff fun name => ?_
  simp only [mem_held_grant]
  exact or_right_comm

/-- A grant of what has been granted changes nothing. -/
theorem held_grant_self (names : List String) :
    held (grant (grant locals names) names) = held (grant locals names) := by
  refine held_eq_of_mem_iff fun name => ?_
  simp only [mem_held_grant]
  exact or_iff_left_of_imp .inr

/-- Two grants are one of all their names. -/
theorem held_grant_append (names more : List String) :
    held (grant (grant locals names) more) = held (grant locals (names ++ more)) := by
  refine held_eq_of_mem_iff fun name => ?_
  simp only [mem_held_grant, named_append, List.mem_append]
  exact or_assoc

/-- To grant what another scope holds after a grant is to grant both. -/
theorem held_grant_assoc (others : Vars) (more : List String) :
    held (grant (grant locals (held others)) more) =
      held (grant locals (held (grant others more))) := by
  refine held_eq_of_mem_iff fun name => ?_
  simp only [mem_held_grant, mem_named_held]
  exact or_assoc

end Laws

/-- **Granting is the union of sets.** What a scope holds is the names that its variable lists, and
whatever the form of the variable, it lists some texts: so two scopes that list the same names hold
the same privileges, before they are granted the same names and afterwards. What is held after a
grant is what was held before, united with the names that are given, and likewise after any number
of grants, of which only the names count that they give together. So grants commute, a second grant
of the same names changes nothing that is held, to grant names one after the other is to grant them
at once, and to grant what another scope holds after a grant is to grant both. No other variable is
changed. -/
theorem grants_unite (locals : Vars) :
    (∃ texts, Lists (locals.get? Reserved.procPrivilege) texts) ∧
    (∀ texts, Lists (locals.get? Reserved.procPrivilege) texts →
      (held locals).toFinset = (named texts).toFinset ∧
      ∀ (others : Vars) (more : List String), Lists (others.get? Reserved.procPrivilege) more →
        (named texts).toFinset = (named more).toFinset →
        ∀ grants, held (grantAll locals grants) = held (grantAll others grants)) ∧
    (∀ names, (held (grant locals names)).toFinset =
      (held locals).toFinset ∪ (named names).toFinset) ∧
    (∀ grants, (held (grantAll locals grants)).toFinset =
      (held locals).toFinset ∪ (named grants.flatten).toFinset) ∧
    (∀ grants more : List (List String),
      (named grants.flatten).toFinset = (named more.flatten).toFinset →
        held (grantAll locals grants) = held (grantAll locals more)) ∧
    (∀ names more,
      held (grant (grant locals names) more) = held (grant (grant locals more) names)) ∧
    (∀ names, held (grant (grant locals names) names) = held (grant locals names)) ∧
    (∀ names more, held (grant (grant locals names) more) = held (grant locals (names ++ more))) ∧
    (∀ others more, held (grant (grant locals (held others)) more) =
      held (grant locals (held (grant others more)))) ∧
    ∀ grants, (grantAll locals grants).erase Reserved.procPrivilege =
      locals.erase Reserved.procPrivilege :=
  ⟨exists_lists _,
    fun _ hlists => ⟨toFinset_held hlists, fun _ _ => held_grantAll_of_lists hlists⟩,
    toFinset_held_grant locals, toFinset_held_grantAll locals,
    fun _ _ => held_grantAll_of_named_eq locals, held_grant_comm locals, held_grant_self locals,
    held_grant_append locals, held_grant_assoc locals, erase_grantAll locals⟩

/-- A scope that holds two privileges by a text, in which there are blanks and names of nothing. -/
def slack : Vars := [(Reserved.procPrivilege, .str " b ,, a,"), ("x", .null)]

/-- Another one that holds the same by an array. -/
def strict : Vars := [(Reserved.procPrivilege, .array [.str "b", .null, .str "a ", .str "b"])]

/-- To both of them a third privilege is granted, one that they hold, and nothing; and to one of
them the same is granted at once and in other words. -/
theorem slack_unites :
    Lists (slack.get? Reserved.procPrivilege) [" b ", "", " a", ""] ∧
    Lists (strict.get? Reserved.procPrivilege) ["b", "", "a ", "b"] ∧
    (named [" b ", "", " a", ""]).toFinset = (named ["b", "", "a ", "b"]).toFinset ∧
    (held slack).toFinset = {"a", "b"} ∧
    held (grantAll slack [[" c", "a"], [" "]]) = held (grantAll strict [[" c", "a"], [" "]]) ∧
    (named [" c", "a", " "]).toFinset = (named ["a ", "c", "c "]).toFinset ∧
    held (grantAll slack [[" c", "a"], [" "]]) = held (grantAll slack [["a ", "c", "c "]]) := by
  have hslack : Lists (slack.get? Reserved.procPrivilege) [" b ", "", " a", ""] := by
    have hjoined : Text.joinWith "," [" b ", "", " a", ""] = " b ,, a," := by decide +kernel
    have hlists := Lists.joined [" b ", "", " a", ""] (by decide)
    rwa [hjoined] at hlists
  have hstrict : Lists (strict.get? Reserved.procPrivilege) ["b", "", "a ", "b"] := .array _
  have hsame : (named [" b ", "", " a", ""]).toFinset = (named ["b", "", "a ", "b"]).toFinset := by
    decide +kernel
  have hnames : (named [" c", "a", " "]).toFinset = (named ["a ", "c", "c "]).toFinset := by
    decide +kernel
  obtain ⟨-, hlists, -, -, hgrants, -⟩ := grants_unite slack
  obtain ⟨hheld, hforms⟩ := hlists _ hslack
  exact ⟨hslack, hstrict, hsame, hheld.trans (by decide +kernel),
    hforms strict _ hstrict hsame [[" c", "a"], [" "]], hnames,
    hgrants [[" c", "a"], [" "]] [["a ", "c", "c "]] hnames⟩

end TagScript.Privilege
