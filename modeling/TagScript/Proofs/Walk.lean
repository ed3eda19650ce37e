import Mathlib.Data.List.Induction
import Mathlib.Data.List.Sort
import Mathlib.Data.String.Basic
import TagScript.Proofs.Route

/-!
# The walk of a tree of files

A store lists its entries in the order of their places. A walk knows nothing
of places in an order: it visits an entry, and if that is a directory it goes
on with what lies right in it, by name, before it goes on with the rest. The
two agree on every store that is a tree (`Files.walks_iff`), because the order
of places compares the first names in which they differ. That every directory
on the way is an entry itself is needed too: a walk finds nothing in a
directory that it does not find.

What is found below a directory is read by continuing the path of the
directory by the names on the way, unless this makes the path too long
(`Files.read_join`).
-/

namespace TagScript

/-! ## The order of places -/

namespace Location

variable {place other : Location} {name before : String}

/-- A place comes before all that lie below it. -/
theorem lt_append (place : Location) (name : String) (rest : Location) :
    place < place ++ name :: rest := by
  have h : place ++ [] < place ++ name :: rest := List.append_left_lt (List.nil_lt_cons _ _)
  rwa [List.append_nil] at h

/-- All below one name come before all below a later one. -/
theorem append_lt_append (place : Location) (h : before < name) (rest more : Location) :
    place ++ before :: rest < place ++ name :: more :=
  List.append_left_lt (List.cons_lt_cons_iff.2 (.inl h))

/-- What lies at a place or below it. -/
theorem prefix_iff : place <+: other ↔ other = place ∨ ∃ name, place ++ [name] <+: other := by
  constructor
  · rintro ⟨rest, rfl⟩
    cases rest with
    | nil => exact .inl (List.append_nil _)
    | cons name rest => exact .inr ⟨name, rest, by simp⟩
  · rintro (rfl | ⟨name, rest, rfl⟩)
    · exact List.prefix_rfl
    · exact ⟨name :: rest, by simp⟩

/-- The name of what lies right in a place. -/
def nameIn? (place other : Location) : Option String :=
  if place.isPrefixOf other then
    match other.drop place.length with
    | [name] => some name
    | _ => none
  else none

theorem nameIn?_eq_some : nameIn? place other = some name ↔ other = place ++ [name] := by
  unfold nameIn?
  constructor
  · intro hname
    split at hname
    · next hunder =>
      obtain ⟨rest, rfl⟩ := List.isPrefixOf_iff_prefix.1 hunder
      rw [List.drop_left] at hname
      split at hname
      · cases hname
        rfl
      · cases hname
    · cases hname
  · rintro rfl
    simp

end Location

/-! ## Names -/

/-- **What a file can be called.** -/
structure IsFileName (name : String) : Prop where
  /-- It is not empty, -/
  ne_empty : name ≠ ""
  /-- it is not what leads nowhere, -/
  ne_dot : name ≠ "."
  /-- nor what leads upwards, -/
  ne_up : name ≠ ".."
  /-- there is no slash in it, -/
  no_slash : '/' ∉ name.toList
  /-- nor the character that no path holds, -/
  no_nul : Char.ofNat 0 ∉ name.toList
  /-- and it is not too long. -/
  short : name.utf8ByteSize ≤ Files.maxNameSize

instance : DecidablePred IsFileName := fun name =>
  decidable_of_iff (name ≠ "" ∧ name ≠ "." ∧ name ≠ ".." ∧ '/' ∉ name.toList ∧
      Char.ofNat 0 ∉ name.toList ∧ name.utf8ByteSize ≤ Files.maxNameSize)
    ⟨fun ⟨h₁, h₂, h₃, h₄, h₅, h₆⟩ => ⟨h₁, h₂, h₃, h₄, h₅, h₆⟩,
      fun ⟨h₁, h₂, h₃, h₄, h₅, h₆⟩ => ⟨h₁, h₂, h₃, h₄, h₅, h₆⟩⟩

namespace Files

/-- A file that can be written to has a name that files can have. -/
theorem Aims.isFileName {fs : Files} {path name : String} {dir : Location}
    (h : fs.Aims path dir name) : IsFileName name := by
  obtain ⟨hdot, hup⟩ := not_or.1 h.named
  have hnamed : name ∈ Path.named path := by
    have hstep := List.mem_of_getLast? h.last
    unfold steps at hstep
    dsimp only at hstep
    split at hstep
    · exact (List.mem_append.1 hstep).resolve_right (by simpa using hdot)
    · exact hstep
  have honward : name ∈ Path.onward path := List.mem_filter.2 ⟨hnamed, by simpa using hdot⟩
  obtain ⟨hpiece, hempty⟩ := List.mem_filter.1 hnamed
  obtain ⟨cs, hcs, rfl⟩ := List.mem_map.1 hpiece
  refine ⟨by simpa using hempty, hdot, hup, ?_, fun hnul => ?_, h.short⟩
  · rw [String.toList_ofList]
    exact Text.separator_notMem hcs
  · have hfault := h.sound
    unfold fault? at hfault
    rw [holdsNul_iff.2 ⟨_, honward, hnul⟩] at hfault
    split at hfault
    · cases hfault
    · cases hfault

/-! ## Stores that are trees -/

/-- **A store that is a tree of directories and files.** -/
structure IsTree (fs : Files) : Prop where
  /-- The entries stand in the order of their places, no two at one place. -/
  ascending : fs.entries.Pairwise fun a b => a.1 < b.1
  /-- The root is not listed. -/
  below_root : ∀ entry ∈ fs.entries, entry.1 ≠ []
  /-- Each stands in a directory. -/
  parent : ∀ entry ∈ fs.entries, fs.entry? entry.1.dropLast = some .directory
  /-- Each has a name that files can have. -/
  named : ∀ entry ∈ fs.entries, ∀ name ∈ entry.1.getLast?, IsFileName name

/-- All entries, the root included. -/
def all (fs : Files) : List (Location × Entry) := ([], .directory) :: fs.entries

/-- What stands at a place and below it, in the order of places. -/
def within (fs : Files) (place : Location) : List (Location × Entry) :=
  fs.all.filter fun entry => place.isPrefixOf entry.1

/-- **The walk of a store**: from the places that are to be visited, the entries in the order in
which they are. -/
inductive Walks (fs : Files) : List Location → List (Location × Entry) → Prop where
  /-- Nothing is to be visited any more. -/
  | done : Walks fs [] []
  /-- An entry that is no directory is visited, and then the rest. -/
  | leaf {place : Location} {rest : List Location} {entry : Entry}
      {visited : List (Location × Entry)} (found : fs.entry? place = some entry)
      (plain : entry ≠ .directory) (later : Walks fs rest visited) :
      Walks fs (place :: rest) ((place, entry) :: visited)
  /-- A directory is visited, then what lies in it, in the order of the names, and then the
  rest. -/
  | directory {place : Location} {rest : List Location} {names : List String}
      {visited : List (Location × Entry)} (found : fs.entry? place = some .directory)
      (ascending : names.Pairwise (· < ·))
      (complete : ∀ name, name ∈ names ↔ (fs.entry? (place ++ [name])).isSome)
      (later : Walks fs (names.map (fun name => place ++ [name]) ++ rest) visited) :
      Walks fs (place :: rest) ((place, .directory) :: visited)

/-! ## What stands where in a tree -/

variable {fs : Files} {place other : Location} {entry : Entry} {name : String}

theorem names_eq (fs : Files) (place : Location) :
    fs.names place = fs.entries.filterMap fun entry => Location.nameIn? place entry.1 := rfl

theorem mem_of_mem_insertEntry {entries : List (Location × Entry)} {found : Location × Entry}
    (h : found ∈ insertEntry place entry entries) : found = (place, entry) ∨ found ∈ entries := by
  induction entries with
  | nil => exact .inl (List.mem_singleton.1 h)
  | cons first rest ih =>
    unfold insertEntry at h
    split at h
    · exact (List.mem_cons.1 h).imp_right (List.mem_cons_of_mem first)
    · split at h
      · exact List.mem_cons.1 h
      · obtain rfl | h := List.mem_cons.1 h
        · exact .inr List.mem_cons_self
        · exact (ih h).imp_right (List.mem_cons_of_mem first)

/-- An entry that is put somewhere stands in the order of its place. -/
theorem pairwise_insertEntry {entries : List (Location × Entry)}
    (h : entries.Pairwise fun a b => a.1 < b.1) :
    (insertEntry place entry entries).Pairwise fun a b => a.1 < b.1 := by
  induction entries with
  | nil => exact List.pairwise_singleton _ _
  | cons first rest ih =>
    obtain ⟨hfirst, hrest⟩ := List.pairwise_cons.1 h
    unfold insertEntry
    split
    · next hsame =>
      subst hsame
      exact List.pairwise_cons.2 ⟨hfirst, hrest⟩
    · next hne =>
      split
      · next hlt =>
        refine List.pairwise_cons.2 ⟨fun found hfound => ?_, h⟩
        obtain rfl | hfound := List.mem_cons.1 hfound
        · exact hlt
        · exact lt_trans hlt (hfirst found hfound)
      · next hle =>
        refine List.pairwise_cons.2 ⟨fun found hfound => ?_, ih hrest⟩
        obtain rfl | hfound := mem_of_mem_insertEntry hfound
        · exact lt_of_le_of_ne (not_lt.1 hle) hne
        · exact hfirst found hfound

/-- Two lists of entries in the order of places are the same if they have the same entries. -/
theorem eq_of_places {entries others : List (Location × Entry)}
    (hentries : entries.Pairwise fun a b => a.1 < b.1)
    (hothers : others.Pairwise fun a b => a.1 < b.1)
    (hmem : ∀ entry, entry ∈ entries ↔ entry ∈ others) : entries = others := by
  have : Std.Irrefl fun a b : Location × Entry => a.1 < b.1 := ⟨fun a => lt_irrefl a.1⟩
  have : Std.Antisymm fun a b : Location × Entry => a.1 < b.1 :=
    ⟨fun a b hlt hgt => absurd hlt (lt_asymm hgt)⟩
  exact hentries.eq_of_mem_iff hothers hmem

namespace IsTree

variable (h : fs.IsTree)
include h

theorem pairwise_all : fs.all.Pairwise fun a b => a.1 < b.1 := by
  refine List.pairwise_cons.2 ⟨fun entry hentry => ?_, h.ascending⟩
  obtain ⟨name, rest, hplace⟩ := List.exists_cons_of_ne_nil (h.below_root entry hentry)
  rw [hplace]
  exact List.nil_lt_cons _ _

/-- **The entries tell what stands at each place.** -/
theorem mem_all : (place, entry) ∈ fs.all ↔ fs.entry? place = some entry := by
  have hlookup : fs.entry? place = fs.all.lookup place := by
    unfold Files.entry? all
    cases place with
    | nil => rfl
    | cons name rest => rfl
  rw [hlookup]
  constructor
  · intro hmem
    obtain ⟨before, after, hall⟩ := List.append_of_mem hmem
    have hbefore : ∀ earlier ∈ before, (place != earlier.1) = true := by
      intro earlier hearlier
      have hpairwise := h.pairwise_all
      rw [hall, List.pairwise_append] at hpairwise
      have hlt : earlier.1 < place := hpairwise.2.2 earlier hearlier _ List.mem_cons_self
      exact bne_iff_ne.2 (ne_of_gt hlt)
    exact List.lookup_eq_some_iff.2 ⟨before, after, hall, hbefore⟩
  · intro hlookup
    obtain ⟨before, after, hall, -⟩ := List.lookup_eq_some_iff.1 hlookup
    rw [hall]
    exact List.mem_append_right _ List.mem_cons_self

theorem mem_within : (other, entry) ∈ fs.within place ↔
    place <+: other ∧ fs.entry? other = some entry := by
  rw [within, List.mem_filter, h.mem_all, List.isPrefixOf_iff_prefix, and_comm]

theorem pairwise_within (place : Location) :
    (fs.within place).Pairwise fun a b => a.1 < b.1 := h.pairwise_all.filter _

/-- The directory that an entry stands in. -/
theorem directory_of_isSome (hentry : (fs.entry? (place ++ [name])).isSome) :
    fs.entry? place = some .directory ∧ IsFileName name := by
  obtain ⟨entry, hentry⟩ := Option.isSome_iff_exists.1 hentry
  obtain hroot | hmem := List.mem_cons.1 (h.mem_all.2 hentry)
  · simp at hroot
  · exact ⟨by simpa using h.parent _ hmem, h.named _ hmem name (by simp)⟩

/-- **What has an entry below it is a directory.** -/
theorem isSome_of_prefix (hunder : place <+: other) (hentry : (fs.entry? other).isSome) :
    (fs.entry? place).isSome ∧ (place ≠ other → fs.entry? place = some .directory) := by
  obtain ⟨rest, rfl⟩ := hunder
  induction rest using List.reverseRecOn with
  | nil => exact ⟨by simpa using hentry, fun hne => absurd (by simp) hne⟩
  | append_singleton rest name ih =>
    rw [← List.append_assoc] at hentry
    obtain ⟨hdirectory, -⟩ := h.directory_of_isSome hentry
    obtain ⟨hsome, hproper⟩ := ih (by rw [hdirectory]; rfl)
    refine ⟨hsome, fun _ => ?_⟩
    by_cases heq : place = place ++ rest
    · rw [heq]
      exact hdirectory
    · exact hproper heq

/-- **The entries within a place that is no directory**: there is only the one there. -/
theorem within_of_not_directory (hentry : fs.entry? place = some entry)
    (hplain : entry ≠ .directory) : fs.within place = [(place, entry)] := by
  refine eq_of_places (h.pairwise_within place) (List.pairwise_singleton _ _) fun found => ?_
  obtain ⟨other, what⟩ := found
  rw [h.mem_within, List.mem_singleton, Prod.mk.injEq]
  constructor
  · rintro ⟨hunder, hwhat⟩
    by_cases hsame : place = other
    · subst hsame
      exact ⟨rfl, Option.some.inj (hwhat.symm.trans hentry)⟩
    · have hdirectory := (h.isSome_of_prefix hunder (by rw [hwhat]; rfl)).2 hsame
      exact absurd (Option.some.inj (hentry.symm.trans hdirectory)) hplain
  · rintro ⟨rfl, rfl⟩
    exact ⟨List.prefix_rfl, hentry⟩

/-- **The entries within a directory**: the directory, then those within what lies in it, one after
the other. -/
theorem within_of_directory {names : List String} (hentry : fs.entry? place = some .directory)
    (hascending : names.Pairwise (· < ·))
    (hcomplete : ∀ name, name ∈ names ↔ (fs.entry? (place ++ [name])).isSome) :
    fs.within place =
      (place, .directory) :: (names.map fun name => place ++ [name]).flatMap fs.within := by
  refine eq_of_places (h.pairwise_within place) ?_ fun found => ?_
  · refine List.pairwise_cons.2 ⟨fun found hfound => ?_, ?_⟩
    · obtain ⟨_, hchild, hwithin⟩ := List.mem_flatMap.1 hfound
      obtain ⟨name, -, rfl⟩ := List.mem_map.1 hchild
      obtain ⟨rest, hplace⟩ := (h.mem_within.1 hwithin).1
      rw [← hplace, List.append_assoc]
      exact Location.lt_append place name rest
    · refine List.pairwise_flatMap.2 ⟨fun child _ => h.pairwise_within child, ?_⟩
      refine (List.pairwise_map.2 (hascending.imp fun {before name} hlt => ?_))
      intro first hfirst later hlater
      obtain ⟨rest, hfirst⟩ := (h.mem_within.1 hfirst).1
      obtain ⟨more, hlater⟩ := (h.mem_within.1 hlater).1
      rw [← hfirst, ← hlater, List.append_assoc, List.append_assoc]
      exact Location.append_lt_append place hlt rest more
  · obtain ⟨other, what⟩ := found
    rw [h.mem_within, Location.prefix_iff, List.mem_cons, Prod.mk.injEq, List.mem_flatMap]
    constructor
    · rintro ⟨rfl | ⟨name, hunder⟩, hwhat⟩
      · exact .inl ⟨rfl, Option.some.inj (hwhat.symm.trans hentry)⟩
      · have hname := (h.isSome_of_prefix hunder (by rw [hwhat]; rfl)).1
        exact .inr ⟨_, List.mem_map_of_mem ((hcomplete name).2 hname),
          h.mem_within.2 ⟨hunder, hwhat⟩⟩
    · rintro (⟨rfl, rfl⟩ | ⟨child, hchild, hwithin⟩)
      · exact ⟨.inl rfl, hentry⟩
      · obtain ⟨name, -, rfl⟩ := List.mem_map.1 hchild
        obtain ⟨hunder, hwhat⟩ := h.mem_within.1 hwithin
        exact ⟨.inr ⟨name, hunder⟩, hwhat⟩

/-- **What lies right in a place**, by name. -/
theorem mem_names : name ∈ fs.names place ↔ (fs.entry? (place ++ [name])).isSome := by
  simp only [names_eq, List.mem_filterMap, Location.nameIn?_eq_some, Option.isSome_iff_exists,
    ← h.mem_all]
  constructor
  · rintro ⟨⟨_, entry⟩, hentry, rfl⟩
    exact ⟨entry, List.mem_cons_of_mem _ hentry⟩
  · rintro ⟨entry, hentry⟩
    exact ⟨_, List.mem_of_ne_of_mem (by simp) hentry, rfl⟩

/-- The names ascend. -/
theorem pairwise_names (place : Location) : (fs.names place).Pairwise (· < ·) := by
  rw [names_eq]
  refine List.pairwise_filterMap.2 (h.ascending.imp fun {first later} hlt => ?_)
  intro before hfirst name hlater
  rw [Location.nameIn?_eq_some] at hfirst hlater
  rw [hfirst, hlater] at hlt
  obtain hless | rfl | hgreater := lt_trichotomy before name
  · exact hless
  · exact absurd hlt (lt_irrefl _)
  · exact absurd hlt (lt_asymm (Location.append_lt_append place hgreater [] []))

/-! ## Trees stay trees -/

/-- **A tree stays one** if an entry is put in a directory, under a name that files can have, and
no directory is replaced by anything else. -/
theorem put (hplace : place ≠ []) (hparent : fs.entry? place.dropLast = some .directory)
    (hname : ∀ name ∈ place.getLast?, IsFileName name)
    (hkept : fs.entry? place = some .directory → entry = .directory) :
    (fs.put place entry).IsTree where
  ascending := pairwise_insertEntry h.ascending
  below_root found hfound := by
    obtain rfl | hold := mem_of_mem_insertEntry hfound
    · exact hplace
    · exact h.below_root found hold
  parent found hfound := by
    obtain rfl | hold := mem_of_mem_insertEntry hfound
    · have hne : place.dropLast ≠ place := fun heq => by
        have hlength := congrArg List.length heq
        have := List.length_pos_of_ne_nil hplace
        rw [List.length_dropLast] at hlength
        omega
      exact (entry?_put_of_ne hne fs entry).trans hparent
    · have hdirectory := h.parent found hold
      by_cases hsame : found.1.dropLast = place
      · rw [hsame] at hdirectory ⊢
        rw [entry?_put_self hplace, hkept hdirectory]
      · exact (entry?_put_of_ne hsame fs entry).trans hdirectory
  named found hfound := by
    obtain rfl | hold := mem_of_mem_insertEntry hfound
    · exact hname
    · exact h.named found hold

/-- **So it does if a file is written to.** -/
theorem write {gs : Files} {mode : WriteMode} {path : String} {text : Content → String}
    (hwrite : fs.write mode path text = .ok gs) : gs.IsTree := by
  unfold Files.write at hwrite
  cases htarget : fs.target path with
  | error refusal =>
    rw [htarget] at hwrite
    cases hwrite
  | ok place =>
    rw [htarget] at hwrite
    dsimp only at hwrite
    split at hwrite
    · obtain rfl := Except.ok.inj hwrite
      exact h
    · obtain rfl := Except.ok.inj hwrite
      obtain ⟨dir, name, haims, rfl⟩ := exists_aims htarget
      refine h.put (by simp) ?_ ?_ fun hdirectory => absurd hdirectory haims.free
      · simpa using (walk_concat_dot_eq_ok.1 haims.front).2
      · intro last hlast
        obtain rfl : name = last := by simpa using hlast
        exact haims.isFileName

end IsTree

/-! ## Walks -/

/-- **A walk visits all that is within the places that are to be visited**, in the order of
places within each. -/
theorem Walks.eq {places : List Location} {visited : List (Location × Entry)} (h : fs.IsTree)
    (hwalks : fs.Walks places visited) : visited = places.flatMap fs.within := by
  induction hwalks with
  | done => rfl
  | leaf found plain _ ih =>
    rw [List.flatMap_cons, h.within_of_not_directory found plain, ih]
    rfl
  | directory found ascending complete _ ih =>
    rw [List.flatMap_cons, h.within_of_directory found ascending complete, ih, List.flatMap_append]
    rfl

/-- There is a walk. -/
theorem IsTree.exists_walks (h : fs.IsTree) {places : List Location}
    (hplaces : ∀ place ∈ places, (fs.entry? place).isSome) :
    ∃ visited, fs.Walks places visited := by
  -- each step visits one of the finitely many entries within the places
  induction hlength : (places.flatMap fs.within).length using Nat.strong_induction_on
    generalizing places with
  | _ length ih =>
    cases places with
    | nil => exact ⟨[], .done⟩
    | cons place rest =>
      obtain ⟨entry, hentry⟩ := Option.isSome_iff_exists.1 (hplaces place List.mem_cons_self)
      have hrest := fun other hother => hplaces other (List.mem_cons_of_mem place hother)
      by_cases hdirectory : entry = .directory
      · subst hdirectory
        have hwithin := h.within_of_directory hentry (h.pairwise_names place) fun _ => h.mem_names
        have hinside : ∀ other ∈ (fs.names place).map (fun name => place ++ [name]) ++ rest,
            (fs.entry? other).isSome := by
          intro other hother
          obtain hchild | hother := List.mem_append.1 hother
          · obtain ⟨name, hname, rfl⟩ := List.mem_map.1 hchild
            exact h.mem_names.1 hname
          · exact hrest other hother
        obtain ⟨visited, hvisited⟩ := ih _ (by
          rw [← hlength, List.flatMap_cons, hwithin, List.cons_append, List.length_cons,
            ← List.flatMap_append]
          exact Nat.lt_succ_self _) hinside rfl
        exact ⟨_, .directory hentry (h.pairwise_names place) (fun _ => h.mem_names) hvisited⟩
      · obtain ⟨visited, hvisited⟩ := ih _ (by
          rw [← hlength, List.flatMap_cons, h.within_of_not_directory hentry hdirectory]
          exact Nat.lt_succ_self _) hrest rfl
        exact ⟨_, .leaf hentry hdirectory hvisited⟩

/-- **The walks of a tree** visit what is within the places, and nothing else is a walk. -/
theorem IsTree.walks_iff (h : fs.IsTree) {places : List Location}
    (hplaces : ∀ place ∈ places, (fs.entry? place).isSome) {visited : List (Location × Entry)} :
    fs.Walks places visited ↔ visited = places.flatMap fs.within := by
  refine ⟨Walks.eq h, ?_⟩
  rintro rfl
  obtain ⟨visited, hvisited⟩ := h.exists_walks hplaces
  rwa [← hvisited.eq h]

/-! ## Files below a directory -/

/-- The file that an entry is, by the names that lead to it from a place. -/
def fileBelow? (place : Location) : Location × Entry → Option (List String × Content)
  | (other, .file content) => some (other.drop place.length, content)
  | _ => none

theorem below_eq (fs : Files) (place : Location) :
    fs.below place = (fs.within place).filterMap (fileBelow? place) := by
  have hroot : fs.all.filterMap (fun entry =>
      if place.isPrefixOf entry.1 then fileBelow? place entry else none) =
        fs.entries.filterMap fun entry =>
          if place.isPrefixOf entry.1 then fileBelow? place entry else none :=
    List.filterMap_cons_none (by simp [fileBelow?])
  rw [within, List.filterMap_filter, hroot]
  unfold below
  congr
  funext entry
  obtain ⟨other, entry⟩ := entry
  cases entry <;> simp [fileBelow?]

section Below

variable (h : fs.IsTree) {names : List String} {content : Content}
include h

/-- **The files below a place** are those that are there. -/
theorem IsTree.mem_below : (names, content) ∈ fs.below place ↔
    fs.entry? (place ++ names) = some (.file content) := by
  rw [below_eq, List.mem_filterMap]
  constructor
  · rintro ⟨⟨other, entry⟩, hwithin, hfile⟩
    obtain ⟨⟨rest, rfl⟩, hentry⟩ := h.mem_within.1 hwithin
    cases entry with
    | directory => cases hfile
    | device => cases hfile
    | file held =>
      rw [fileBelow?, List.drop_left] at hfile
      obtain ⟨rfl, rfl⟩ := Prod.mk.inj (Option.some.inj hfile)
      exact hentry
  · intro hentry
    refine ⟨_, h.mem_within.2 ⟨List.prefix_append place names, hentry⟩, ?_⟩
    rw [fileBelow?, List.drop_left]

/-- They come in the order of places, -/
theorem IsTree.sublist_below (place : Location) :
    ((fs.below place).map fun file => (place ++ file.1, Entry.file file.2)).Sublist
      (fs.within place) := by
  have hfile : ∀ entry ∈ fs.within place, (fileBelow? place entry).map
      (fun file => (place ++ file.1, Entry.file file.2)) =
        Option.guard (fun entry => (fileBelow? place entry).isSome) entry := by
    rintro ⟨other, entry⟩ hwithin
    obtain ⟨⟨rest, rfl⟩, -⟩ := h.mem_within.1 hwithin
    cases entry <;> simp [fileBelow?, Option.guard]
  rw [below_eq, List.map_filterMap, List.filterMap_congr hfile, List.filterMap_eq_filter]
  exact List.filter_sublist

/-- and none comes twice. -/
theorem IsTree.nodup_below (place : Location) : ((fs.below place).map Prod.fst).Nodup := by
  have hpairwise := (h.pairwise_within place).sublist (h.sublist_below place)
  rw [List.pairwise_map] at hpairwise
  refine List.pairwise_map.2 (hpairwise.imp fun {first later} hlt hsame => ?_)
  rw [hsame] at hlt
  exact lt_irrefl _ hlt

end Below

/-! ## Reading what a walk finds -/

section Reading

variable {names : List String} {directory : String}

/-- The pieces of a path made of names are the names. -/
theorem split_joinWith (hnames : names ≠ []) (hproper : ∀ name ∈ names, IsFileName name) :
    Text.split '/' (Text.joinWith "/" names) = names :=
  Text.split_joinWith rfl hnames fun name hname => (hproper name hname).no_slash

theorem named_joinWith (hnames : names ≠ []) (hproper : ∀ name ∈ names, IsFileName name) :
    Path.named (Text.joinWith "/" names) = names := by
  rw [Path.named, split_joinWith hnames hproper]
  exact List.filter_eq_self.2 fun name hname => by simpa using (hproper name hname).ne_empty

/-- It leads along them, -/
theorem steps_joinWith (hnames : names ≠ []) (hproper : ∀ name ∈ names, IsFileName name) :
    steps (Text.joinWith "/" names) = names := by
  have hlast : (names.getLast? == some "") = false := by
    rw [beq_eq_false_iff_ne]
    exact fun hlast => (hproper "" (List.mem_of_getLast? hlast)).ne_empty rfl
  have hnamed := named_joinWith hnames hproper
  have hsplit := split_joinWith hnames hproper
  rw [Path.named, hsplit] at hnamed
  unfold steps
  simp only [hsplit, hnamed, hlast, Bool.false_and, Bool.false_eq_true, if_false]

/-- it does not start at the root, -/
theorem isAbsolute_joinWith (hproper : ∀ name ∈ names, IsFileName name) :
    Path.isAbsolute (Text.joinWith "/" names) = false := by
  cases names with
  | nil => rfl
  | cons name rest =>
    have hname := hproper name List.mem_cons_self
    obtain ⟨c, cs, hcs⟩ := List.exists_cons_of_ne_nil (mt String.toList_eq_nil_iff.1 hname.ne_empty)
    have hc : c ≠ '/' := by
      rintro rfl
      exact hname.no_slash (hcs ▸ List.mem_cons_self)
    unfold Path.isAbsolute Text.joinWith
    cases rest <;> simp [hcs, hc]

/-- and the character that no path holds is not in it. -/
theorem holdsNul_joinWith (hnames : names ≠ []) (hproper : ∀ name ∈ names, IsFileName name) :
    holdsNul (Text.joinWith "/" names) = false := by
  rw [Bool.eq_false_iff]
  intro hnul
  obtain ⟨step, hstep, hmem⟩ := holdsNul_iff.1 hnul
  have hstep := (List.mem_filter.1 hstep).1
  rw [named_joinWith hnames hproper] at hstep
  exact (hproper step hstep).no_nul hmem

/-- **Names lead from a directory along a tree.** -/
theorem IsTree.walk_names (h : fs.IsTree) (hentry : (fs.entry? (place ++ names)).isSome) :
    fs.walk place names = .ok (place ++ names) := by
  induction names generalizing place with
  | nil => simp [walk]
  | cons name rest ih =>
    have hunder : place ++ [name] <+: place ++ name :: rest := ⟨rest, by simp⟩
    obtain ⟨hdirectory, hname⟩ := h.directory_of_isSome (h.isSome_of_prefix hunder hentry).1
    refine walk_cons_eq_ok.2 ⟨hdirectory, hname.short, ?_⟩
    rw [move, if_neg hname.ne_dot, if_neg hname.ne_up]
    have hrest : (fs.entry? (place ++ [name] ++ rest)).isSome := by simpa using hentry
    simpa using ih hrest

/-- The names on the way from a directory are names that files can have. -/
theorem IsTree.isFileName_of_isSome (h : fs.IsTree)
    (hentry : (fs.entry? (place ++ names)).isSome) : ∀ name ∈ names, IsFileName name := by
  intro name hname
  obtain ⟨before, after, rfl⟩ := List.append_of_mem hname
  have hunder : place ++ before ++ [name] <+: place ++ (before ++ name :: after) :=
    ⟨after, by simp⟩
  exact (h.directory_of_isSome (h.isSome_of_prefix hunder hentry).1).2

/-- The names in a path lead where it leads. -/
theorem walk_named (hplace : fs.locate directory = .ok place) :
    fs.walk (fs.base directory) (Path.named directory) = .ok place := by
  have hwalk := (locate_eq_ok.1 hplace).2
  unfold steps at hwalk
  dsimp only at hwalk
  rw [show (Text.split '/' directory).filter (fun piece => !piece.isEmpty) =
    Path.named directory from rfl] at hwalk
  split at hwalk
  · exact (walk_concat_dot_eq_ok.1 hwalk).1
  · exact hwalk

/-- A path that leads somewhere does not hold the character that no path holds. -/
theorem holdsNul_of_locate (hplace : fs.locate directory = .ok place) :
    holdsNul directory = false := by
  have hfault := (locate_eq_ok.1 hplace).1
  unfold fault? at hfault
  split at hfault
  · cases hfault
  · split at hfault
    · cases hfault
    · next hnul => exact Bool.eq_false_of_not_eq_true hnul

/-- **What a walk finds in a directory is read** along the path of the directory continued by the
names, if that is not too long. -/
theorem IsTree.read_join (h : fs.IsTree) {content : Content}
    (hplace : fs.locate directory = .ok place) (hdirectory : fs.entry? place = some .directory)
    (hfile : fs.entry? (place ++ names) = some (.file content)) :
    fs.read (Path.join directory (Text.joinWith "/" names)) =
      if maxPathSize < (Path.join directory (Text.joinWith "/" names)).utf8ByteSize then
        .error .nameTooLong else .ok content := by
  have hsome : (fs.entry? (place ++ names)).isSome := by rw [hfile]; rfl
  have hproper := h.isFileName_of_isSome hsome
  have hnames : names ≠ [] := by
    rintro rfl
    rw [List.append_nil] at hfile
    cases hdirectory.symm.trans hfile
  have hsteps := steps_joinWith hnames hproper
  have hrelative := isAbsolute_joinWith hproper
  have hne : Text.joinWith "/" names ≠ "" := by
    intro hempty
    rw [hempty] at hsteps
    exact hnames hsteps.symm
  have hwalk : fs.walk (fs.base (Path.join directory (Text.joinWith "/" names)))
      (steps (Path.join directory (Text.joinWith "/" names))) = .ok (place ++ names) := by
    rw [(Path.steps_join hrelative hne).1, hsteps]
    unfold base
    rw [Path.isAbsolute_join hrelative]
    exact walk_append_eq_ok.2 ⟨place, walk_named hplace, h.walk_names hsome⟩
  unfold read locate
  rw [fault?_join hrelative hne, holdsNul_of_locate hplace, holdsNul_joinWith hnames hproper]
  by_cases hlong : maxPathSize < (Path.join directory (Text.joinWith "/" names)).utf8ByteSize
  · rw [if_neg (by decide), if_pos hlong, if_pos hlong]
  · rw [if_neg (by decide), if_neg hlong, if_neg hlong]
    dsimp only
    rw [hwalk]
    dsimp only
    rw [hfile]

end Reading

end Files

end TagScript
