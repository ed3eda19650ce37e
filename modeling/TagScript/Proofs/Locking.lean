import Mathlib.Data.Finset.Card
import Mathlib.Logic.Relation
import TagScript.Proofs.Route

/-!
# One lock for every name

Locks go by the name that a path ends with, so they do not depend on how the
path gets there. Of the ways to spell a path that are spoken of here – with
dots, with more slashes than are needed, with names that are left again by two
dots – none touches the name at the end, as long as there is one: two dots
after it would make them the end (`Path.Respells.fileName?_eq`). A path that
ends otherwise has a lock of its own by its text, and no such text is a name
that another path ends with (`Locks.key_eq_key_iff`).

The rest is about the table of the locks. It only grows at its end, and never
by a key that it has, so it assigns locks to keys one to one: the number that
is given out for a path is the place of its key (`Locks.getElem?_given`), now
and later. Hence to hold a lock is to hold it for all paths of its key, until
it is given back (`Custody.isFree_take`, `Custody.isFree_after`).
-/

namespace TagScript

/-! ## Spellings of a path -/

namespace Path

variable {path other name : String}

/-- **A name is left again**: it and the two dots after it are left out. -/
inductive Resolves : List String → List String → Prop
  /-- There may be more before and after. -/
  | pair (front : List String) {name : String} (back : List String) (hname : name ≠ "..") :
      Resolves (front ++ name :: ".." :: back) (front ++ back)

/-- **Two spellings of one path**: they begin at the same place, and without single dots, repeated
slashes and slashes at the end they come to the same by leaving out names that are left again. -/
def Respells (path other : String) : Prop :=
  isAbsolute path = isAbsolute other ∧
    Relation.Join (Relation.ReflTransGen Resolves) (onward path) (onward other)

/-- What is left again is never the name at the end. -/
theorem Resolves.getLast?_eq {steps others : List String} (h : Resolves steps others)
    (hlast : steps.getLast? = some name) (hname : name ≠ "..") :
    others.getLast? = some name := by
  obtain ⟨front, back, -⟩ := h
  rw [List.getLast?_append, List.getLast?_cons_cons] at hlast
  cases back with
  | nil => exact absurd (Option.some.inj hlast).symm hname
  | cons step back =>
    rw [List.getLast?_cons_cons] at hlast
    rwa [List.getLast?_append]

theorem getLast?_of_resolves {steps others : List String}
    (h : Relation.ReflTransGen Resolves steps others) (hlast : steps.getLast? = some name)
    (hname : name ≠ "..") : others.getLast? = some name := by
  induction h with
  | refl => exact hlast
  | tail _ hstep ih => exact hstep.getLast?_eq ih hname

/-- **Spellings of one path that end with names end with the same one.** -/
theorem Respells.fileName?_eq (h : Respells path other) (hpath : (fileName? path).isSome)
    (hother : (fileName? other).isSome) : fileName? path = fileName? other := by
  obtain ⟨-, steps, hsteps, hsteps'⟩ := h
  obtain ⟨name, hname⟩ := Option.isSome_iff_exists.1 hpath
  obtain ⟨name', hname'⟩ := Option.isSome_iff_exists.1 hother
  obtain ⟨hlast, hup⟩ := fileName?_eq_some_iff.1 hname
  obtain ⟨hlast', hup'⟩ := fileName?_eq_some_iff.1 hname'
  rw [hname, hname', ← getLast?_of_resolves hsteps hlast hup,
    getLast?_of_resolves hsteps' hlast' hup']

/-- The name a path ends with is a path that ends with it. -/
theorem fileName?_fileName? (h : fileName? path = some name) : fileName? name = some name := by
  obtain ⟨hlast, hup⟩ := fileName?_eq_some_iff.1 h
  obtain ⟨hnamed, hdot⟩ := List.mem_filter.1 (List.mem_of_getLast? hlast)
  obtain ⟨hpiece, hempty⟩ := List.mem_filter.1 hnamed
  have hslash : '/' ∉ name.toList := by
    obtain ⟨cs, hcs, rfl⟩ := List.mem_map.1 hpiece
    rw [String.toList_ofList]
    exact Text.separator_notMem hcs
  rw [fileName?_eq_some_iff, onward_of_notMem hslash (by simpa using hempty) (by simpa using hdot)]
  exact ⟨rfl, hup⟩

/-- So a path that ends with none is not the name that another one ends with. -/
theorem ne_of_fileName?_eq_none (hpath : fileName? path = none)
    (hother : fileName? other = some name) : path ≠ name := by
  rintro rfl
  rw [fileName?_fileName? hother] at hpath
  cases hpath

end Path

namespace Locks

/-! ## What locks go by -/

/-- **Two paths have the same lock's key** if they end with the same name, or end with none and are
the same text. -/
theorem key_eq_key_iff {path other : String} : key path = key other ↔
    Path.fileName? path = Path.fileName? other ∧ (Path.fileName? path = none → path = other) := by
  unfold key
  cases hpath : Path.fileName? path with
  | none =>
    cases hother : Path.fileName? other with
    | none => simp
    | some name => simp [Path.ne_of_fileName?_eq_none hpath hother]
  | some name =>
    cases hother : Path.fileName? other with
    | none => simp [(Path.ne_of_fileName?_eq_none hother hpath).symm]
    | some name' => simp

/-! ## The table of the locks -/

variable {locks later : Locks} {path other : String} {paths : List String}

/-- A key that is there is not added again. -/
theorem ask_eq_self (h : key path ∈ locks.keys) : locks.ask path = locks := by
  unfold ask
  rw [if_pos (by simpa using h)]

theorem mem_keys_ask {k : String} : k ∈ (locks.ask path).keys ↔ k ∈ locks.keys ∨ k = key path := by
  unfold ask
  split
  · next h => exact (or_iff_left_of_imp (by rintro rfl; simpa using h)).symm
  · simp

theorem nodup_keys_ask (h : locks.keys.Nodup) (path : String) : (locks.ask path).keys.Nodup := by
  unfold ask
  split
  · exact h
  · next hnew =>
    rw [List.contains_iff_mem] at hnew
    refine List.nodup_append.2 ⟨h, List.nodup_singleton _, fun k hk other hother => ?_⟩
    rintro rfl
    exact hnew (List.mem_singleton.1 hother ▸ hk)

/-- The number of a lock is the same once it has been made. -/
theorem number_ask (locks : Locks) (path : String) :
    (locks.ask path).number path = locks.number path := by
  rw [number, ask_eq_self (key_mem_ask locks path), number]

/-- **A lock keeps its number** while the table grows. -/
theorem number_of_grows (hkey : key path ∈ locks.keys) (h : locks.keys <+: later.keys) :
    later.number path = locks.number path := by
  obtain ⟨rest, hrest⟩ := h
  have hlater : key path ∈ later.keys := hrest ▸ List.mem_append_left rest hkey
  rw [number, number, ask_eq_self hkey, ask_eq_self hlater, ← hrest, List.idxOf_append_of_mem hkey]

/-- **A key that is not there yet comes behind all that are**, however the table grows. -/
theorem number_lt_size_iff (h : locks.keys <+: later.keys) :
    later.number path < locks.size ↔ key path ∈ locks.keys := by
  obtain ⟨rest, hrest⟩ := h.trans (keys_ask later path)
  rw [number, size, ← hrest]
  by_cases hkey : key path ∈ locks.keys
  · rw [List.idxOf_append_of_mem hkey]
    exact iff_of_true (List.idxOf_lt_length_of_mem hkey) hkey
  · rw [List.idxOf_append_of_notMem hkey]
    exact iff_of_false (Nat.not_lt.2 (Nat.le_add_right _ _)) hkey

/-- A lock goes by the key alone. -/
theorem number_congr (h : key path = key other) : locks.number path = locks.number other := by
  unfold number ask
  rw [h]

/-- **One lock for one key**, if one of the two is there. -/
theorem number_eq_number_iff (hpath : key path ∈ locks.keys) :
    locks.number path = locks.number other ↔ key path = key other := by
  refine ⟨fun h => ?_, number_congr⟩
  have hother : key other ∈ locks.keys := by
    rw [← number_lt_size_iff List.prefix_rfl, ← h]
    exact (number_lt_size_iff List.prefix_rfl).2 hpath
  rwa [number, number, ask_eq_self hpath, ask_eq_self hother, List.idxOf_inj hpath] at h

/-- The locks once those of some paths have been asked for, one after the other. -/
def askAll (locks : Locks) (paths : List String) : Locks := paths.foldl ask locks

theorem askAll_append (locks : Locks) (paths more : List String) :
    locks.askAll (paths ++ more) = (locks.askAll paths).askAll more :=
  List.foldl_append

/-- **The numbers of the locks that are given out** for some paths, one after the other. -/
def given (locks : Locks) : List String → List Nat
  | [] => []
  | path :: rest => locks.number path :: (locks.ask path).given rest

/-- **No lock is ever replaced.** -/
theorem keys_askAll (locks : Locks) (paths : List String) :
    locks.keys <+: (locks.askAll paths).keys := by
  induction paths generalizing locks with
  | nil => exact List.prefix_rfl
  | cons path rest ih => exact (keys_ask locks path).trans (ih (locks.ask path))

theorem mem_keys_askAll {k : String} :
    k ∈ (locks.askAll paths).keys ↔ k ∈ locks.keys ∨ k ∈ paths.map key := by
  induction paths generalizing locks with
  | nil => simp [askAll]
  | cons path rest ih =>
    rw [askAll, List.foldl_cons, ← askAll, ih, mem_keys_ask, List.map_cons, List.mem_cons, or_assoc]

/-- Whose lock has been asked for has its key among them. -/
theorem key_mem_askAll {i : Nat} (h : paths[i]? = some path) :
    key path ∈ (locks.askAll paths).keys :=
  mem_keys_askAll.2 (.inr (List.mem_map_of_mem (List.mem_of_getElem? h)))

theorem nodup_keys_askAll (h : locks.keys.Nodup) (paths : List String) :
    (locks.askAll paths).keys.Nodup := by
  induction paths generalizing locks with
  | nil => exact h
  | cons path rest ih => exact ih (nodup_keys_ask h path)

/-- **A path is given the lock that it still has in the end.** -/
theorem getElem?_given {i : Nat} (h : paths[i]? = some path) :
    (locks.given paths)[i]? = some ((locks.askAll paths).number path) := by
  induction paths generalizing locks i with
  | nil => cases h
  | cons first rest ih =>
    cases i with
    | zero =>
      obtain rfl := Option.some.inj h
      have hlater :=
        number_of_grows (key_mem_ask locks first) (keys_askAll (locks.ask first) rest)
      exact congrArg some (hlater.trans (number_ask locks first)).symm
    | succ i => exact ih h

/-- **Two paths are given the same lock exactly if they have the same key.** -/
theorem getElem?_given_eq_iff {i j : Nat} (hpath : paths[i]? = some path)
    (hother : paths[j]? = some other) :
    (locks.given paths)[i]? = (locks.given paths)[j]? ↔ key path = key other := by
  rw [getElem?_given hpath, getElem?_given hother, Option.some.injEq,
    number_eq_number_iff (key_mem_askAll hpath)]

/-- **A lock that has been given out belongs to its key**, however many are asked for later. -/
theorem getElem?_keys_askAll {i number : Nat} (hpath : paths[i]? = some path)
    (hnumber : (locks.given paths)[i]? = some number) (more : List String) :
    (locks.askAll (paths ++ more)).keys[number]? = some (key path) := by
  have hkey : key path ∈ (locks.askAll paths).keys := key_mem_askAll hpath
  rw [getElem?_given hpath, Locks.number, ask_eq_self hkey] at hnumber
  obtain rfl := Option.some.inj hnumber
  have hplace := List.idxOf_lt_length_of_mem hkey
  have hgrows : (locks.askAll paths).keys <+: (locks.askAll (paths ++ more)).keys := by
    rw [askAll_append]
    exact keys_askAll _ more
  rw [List.prefix_iff_getElem?.1 hgrows _ hplace, List.getElem_idxOf hplace]

/-- **There are as many locks as different keys.** -/
theorem size_askAll (paths : List String) :
    (empty.askAll paths).size = (paths.map key).toFinset.card := by
  have hkeys : (empty.askAll paths).keys.toFinset = (paths.map key).toFinset := by
    ext k
    rw [List.mem_toFinset, List.mem_toFinset, mem_keys_askAll]
    exact or_iff_right List.not_mem_nil
  have hnodup : (empty.askAll paths).keys.Nodup := nodup_keys_askAll List.nodup_nil paths
  rw [size, ← List.toFinset_card_of_nodup hnodup, hkeys]

end Locks

/-! ## Locks that are held -/

namespace Custody

open Locks

variable {c : Custody} {path other : String}

theorem isFree_eq_false_iff : c.isFree path = false ↔ c.locks.number path ∈ c.held := by
  simp [isFree]

/-- A lock that is held goes by a key that is there. -/
theorem key_mem_of_isFree_eq_false (h : c.isFree path = false) : key path ∈ c.locks.keys :=
  (number_lt_size_iff List.prefix_rfl).1 (c.made _ (isFree_eq_false_iff.1 h))

/-- Whether a lock is held does not depend on which others have been made meanwhile. -/
theorem number_mem_held_iff {later : Locks} (h : c.locks.keys <+: later.keys) :
    later.number path ∈ c.held ↔ c.locks.number path ∈ c.held := by
  by_cases hkey : key path ∈ c.locks.keys
  · rw [number_of_grows hkey h]
  · -- a lock that was not there is not held
    have hnew (locks : Locks) (hgrows : c.locks.keys <+: locks.keys) :
        locks.number path ∉ c.held :=
      fun hheld => hkey ((number_lt_size_iff hgrows).1 (c.made _ hheld))
    exact iff_of_false (hnew later h) (hnew c.locks List.prefix_rfl)

/-- To ask for a lock makes none free and takes none. -/
theorem isFree_ask (c : Custody) (path other : String) :
    (c.ask path).isFree other = c.isFree other := by
  simp [isFree, ask, number_mem_held_iff (keys_ask c.locks path)]

/-- **A lock that has been taken is free no more, through whatever path of its key**, and all others
are as they were. -/
theorem isFree_take (c : Custody) (path other : String) :
    (c.take path).isFree other = (c.isFree other && key path != key other) := by
  unfold take
  split
  · have hnumber : (c.locks.ask path).number other = c.locks.number path ↔
        key path = key other := by
      rw [← number_ask c.locks path, eq_comm]
      exact number_eq_number_iff (key_mem_ask c.locks path)
    have hfree : (c.locks.ask path).number other ∈ c.held ↔ c.locks.number other ∈ c.held :=
      number_mem_held_iff (keys_ask c.locks path)
    simp [isFree, ask, hnumber, hfree, bne, beq_eq_decide, Bool.and_comm]
  · next hheld =>
    rw [isFree_ask]
    by_cases hkey : key path = key other
    · have hsame : c.isFree other = c.isFree path := by
        unfold isFree
        rw [number_congr hkey]
      rw [hsame, Bool.eq_false_iff.2 hheld]
      rfl
    · simp [hkey]

/-- A lock that has been given back is free. -/
theorem isFree_release (c : Custody) (path : String) :
    (c.release (c.locks.number path)).isFree path = true := by
  simp [isFree, release]

/-- **What can be done with locks.** -/
inductive Move where
  /-- To ask for a path's lock. -/
  | ask (path : String)
  /-- To ask for a path's lock and take it, if it is free. -/
  | take (path : String)
  /-- To give a lock back. -/
  | release (number : Nat)
  deriving DecidableEq

/-- The locks in use after a move. -/
def next (c : Custody) : Move → Custody
  | .ask path => c.ask path
  | .take path => c.take path
  | .release number => c.release number

/-- The locks in use after some moves, whoever makes them. -/
def after (c : Custody) (moves : List Move) : Custody := moves.foldl next c

theorem locks_take (c : Custody) (path : String) : (c.take path).locks = c.locks.ask path := by
  unfold take
  split <;> rfl

theorem keys_next (c : Custody) (move : Move) : c.locks.keys <+: (c.next move).locks.keys := by
  cases move with
  | ask path => exact keys_ask c.locks path
  | take path =>
    rw [next, locks_take]
    exact keys_ask c.locks path
  | release number => exact List.prefix_rfl

/-- **A lock that is held stays so** in any move but the one that gives it back. -/
theorem isFree_next {move : Move} (h : c.isFree path = false)
    (hmove : move ≠ .release (c.locks.number path)) : (c.next move).isFree path = false := by
  cases move with
  | ask other => exact (isFree_ask c other path).trans h
  | take other =>
    rw [next, isFree_take, h]
    rfl
  | release number =>
    rw [isFree_eq_false_iff] at h ⊢
    refine List.mem_filter.2 ⟨h, ?_⟩
    rw [decide_eq_true_iff]
    exact fun hnumber => hmove (congrArg Move.release hnumber.symm)

/-- So it does in any number of them. -/
theorem isFree_after {moves : List Move} (h : c.isFree path = false)
    (hmoves : .release (c.locks.number path) ∉ moves) : (c.after moves).isFree path = false := by
  induction moves generalizing c with
  | nil => exact h
  | cons move rest ih =>
    obtain ⟨hmove, hrest⟩ := List.ne_and_not_mem_of_not_mem_cons hmoves
    have hnumber := number_of_grows (key_mem_of_isFree_eq_false h) (keys_next c move)
    exact ih (isFree_next h hmove.symm) (hnumber.symm ▸ hrest)

end Custody

namespace Locks

/-! ## Keys and spellings -/

variable {path other name : String}

/-- The key of a path is the last of its steps, unless that leads upwards. -/
theorem key_of_getLast?_onward (hlast : (Path.onward path).getLast? = some name)
    (hup : name ≠ "..") : key path = name := by
  rw [key, Path.fileName?_eq_some_iff.2 ⟨hlast, hup⟩]
  rfl

/-- A path without steps, or with a last one that leads upwards, is its own key. -/
theorem key_eq_self (hlast : ∀ name, (Path.onward path).getLast? = some name → name = "..") :
    key path = path := by
  have hnone : Path.fileName? path = none := by
    rw [Option.eq_none_iff_forall_ne_some]
    intro name hname
    obtain ⟨hname, hup⟩ := Path.fileName?_eq_some_iff.1 hname
    exact hup (hlast name hname)
  rw [key, hnone]
  rfl

/-- Spellings of one path that end with names have one key. -/
theorem key_eq_of_respells (h : Path.Respells path other) (hpath : (Path.fileName? path).isSome)
    (hother : (Path.fileName? other).isSome) : key path = key other :=
  key_eq_key_iff.2 ⟨h.fileName?_eq hpath hother,
    fun hnone => absurd hnone (Option.isSome_iff_ne_none.1 hpath)⟩

/-- A lock that has been taken is held against all paths of its key until it is given back. -/
theorem isFree_after_take {c : Custody} {moves : List Custody.Move} (hkey : key path = key other)
    (hmoves : .release (c.locks.number path) ∉ moves) :
    ((c.take path).after moves).isFree other = false := by
  have hnumber : (c.take path).locks.number other = c.locks.number path := by
    rw [Custody.locks_take, ← number_congr hkey, number_ask]
  have htaken : (c.take path).isFree other = false := by
    rw [Custody.isFree_take, hkey]
    simp
  exact Custody.isFree_after htaken (hnumber ▸ hmoves)

/-- A lock that has been given back is free for all paths of its key. -/
theorem isFree_release_of_key_eq (hkey : key path = key other) (c : Custody) :
    (c.release (c.locks.number path)).isFree other = true := by
  rw [number_congr hkey]
  exact Custody.isFree_release c other

/-- **Locks are one for every name.** Of the locks that are given out for paths, one after the
other, two are the same exactly if the paths have the same key, a lock belongs to its key however
many are asked for later, and there are as many locks as different keys. The key of a path is the
last of its steps, or its text if there is none or if it leads upwards; and two paths have the same
key only if they end with the same name, or with none and are the same text. So two spellings of
one path that end with names are given the same lock, whenever it is asked for. While it is held
through one of them it is not free through the other, and once it has been given back it is. -/
theorem locks_go_by_names :
    (∀ paths : List String,
      (∀ (i j : Nat) path other, paths[i]? = some path → paths[j]? = some other →
        ((empty.given paths)[i]? = (empty.given paths)[j]? ↔ key path = key other)) ∧
      (∀ (i number : Nat) path, paths[i]? = some path → (empty.given paths)[i]? = some number →
        ∀ more, (empty.askAll (paths ++ more)).keys[number]? = some (key path)) ∧
      (empty.askAll paths).size = (paths.map key).toFinset.card) ∧
    (∀ path name, (Path.onward path).getLast? = some name → name ≠ ".." → key path = name) ∧
    (∀ path, (∀ name, (Path.onward path).getLast? = some name → name = "..") → key path = path) ∧
    (∀ path other, key path = key other ↔ Path.fileName? path = Path.fileName? other ∧
      (Path.fileName? path = none → path = other)) ∧
    ∀ path other, Path.Respells path other →
      (Path.fileName? path).isSome → (Path.fileName? other).isSome →
      (∀ (paths : List String) (i j : Nat), paths[i]? = some path → paths[j]? = some other →
        (empty.given paths)[i]? = (empty.given paths)[j]?) ∧
      (∀ (c : Custody) (moves : List Custody.Move), .release (c.locks.number path) ∉ moves →
        ((c.take path).after moves).isFree other = false) ∧
      ∀ c : Custody, (c.release (c.locks.number path)).isFree other = true :=
  ⟨fun paths => ⟨fun _ _ _ _ => getElem?_given_eq_iff, fun _ _ _ => getElem?_keys_askAll,
      size_askAll paths⟩,
    fun _ _ => key_of_getLast?_onward, fun _ => key_eq_self, fun _ _ => key_eq_key_iff,
    fun _ _ hspelled hpath hother =>
      have hkey := key_eq_of_respells hspelled hpath hother
      ⟨fun _ _ _ hi hj => (getElem?_given_eq_iff hi hj).2 hkey,
        fun _ _ => isFree_after_take hkey, isFree_release_of_key_eq hkey⟩⟩

/-- Two spellings of one path, and a third path to a file of the same name. -/
def spellings : List String := ["/tmp/a/./x/../out.csv", "..", "/tmp//a/out.csv/", "out.csv"]

/-- The file is given one lock under all of its spellings, and there is one more for the path that
ends with no name. -/
theorem spellings_go_by_names :
    Path.Respells "/tmp/a/./x/../out.csv" "/tmp//a/out.csv/" ∧
    (Path.fileName? "/tmp/a/./x/../out.csv").isSome ∧ (Path.fileName? "/tmp//a/out.csv/").isSome ∧
    spellings[0]? = some "/tmp/a/./x/../out.csv" ∧ spellings[2]? = some "/tmp//a/out.csv/" ∧
    (empty.given spellings)[0]? = (empty.given spellings)[2]? ∧
    (empty.askAll spellings).size = 2 ∧
    ((Custody.empty.take "/tmp/a/./x/../out.csv").after
      [.take "out.csv", .release 1, .ask ".."]).isFree "/tmp//a/out.csv/" = false := by
  have hspelled : Path.Respells "/tmp/a/./x/../out.csv" "/tmp//a/out.csv/" := by
    have hlong : Path.onward "/tmp/a/./x/../out.csv" = ["tmp", "a"] ++ "x" :: ".." :: ["out.csv"] :=
      by decide +kernel
    have hshort : Path.onward "/tmp//a/out.csv/" = ["tmp", "a"] ++ ["out.csv"] := by decide +kernel
    refine ⟨by decide +kernel, ["tmp", "a"] ++ ["out.csv"], ?_, ?_⟩
    · rw [hlong]
      exact .single (.pair _ _ (by decide))
    · rw [hshort]
  have hlong : (Path.fileName? "/tmp/a/./x/../out.csv").isSome := by decide +kernel
  have hshort : (Path.fileName? "/tmp//a/out.csv/").isSome := by decide +kernel
  have hfirst : spellings[0]? = some "/tmp/a/./x/../out.csv" := rfl
  have hthird : spellings[2]? = some "/tmp//a/out.csv/" := rfl
  have hmoves : Custody.Move.release (Custody.empty.locks.number "/tmp/a/./x/../out.csv") ∉
      [.take "out.csv", .release 1, .ask ".."] := by decide +kernel
  obtain ⟨hgiven, hheld, -⟩ := locks_go_by_names.2.2.2.2 _ _ hspelled hlong hshort
  refine ⟨hspelled, hlong, hshort, hfirst, hthird, hgiven spellings 0 2 hfirst hthird, ?_,
    hheld .empty _ hmoves⟩
  rw [(locks_go_by_names.1 spellings).2.2]
  decide +kernel

end Locks

end TagScript
