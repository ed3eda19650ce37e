import Mathlib.Data.List.Basic
import TagScript.Proofs.Storage

/-!
# Where paths pass

Following a path, a store is asked what stands at one place after the other,
up to where the path leads or breaks off. These places are the trail of the
path. Stores that agree on a trail lead the path alike, read the same at its
end and write there alike, whatever else is in them.

There are no links in a store: a path that gets somewhere gets to the same
place in every store with the same working directory. Which writers' paths
get somewhere is a matter of the directories alone, and no file that is
written changes these.
-/

namespace TagScript

namespace Files

variable {fs v w x : Files} {place other start : Location} {path : String}

/-! ## Trails -/

/-- **The places that some steps pass**, as far as they get. -/
def trailOf (fs : Files) : Location → List String → List Location
  | place, [] => [place]
  | place, step :: rest =>
    if fs.entry? place = some .directory ∧ step.utf8ByteSize ≤ maxNameSize then
      place :: fs.trailOf (move place step) rest
    else [place]

/-- **The places that a path passes.** -/
def trail (fs : Files) (path : String) : List Location :=
  match fault? path with
  | some _ => []
  | none => fs.trailOf (fs.base path) (steps path)

/-- Where steps start, they pass. -/
theorem start_mem_trailOf (fs : Files) (start : Location) (steps : List String) :
    start ∈ fs.trailOf start steps := by
  cases steps with
  | nil => exact List.mem_singleton_self start
  | cons step rest =>
    unfold trailOf
    split
    · exact List.mem_cons_self
    · exact List.mem_singleton_self start

/-- Steps pass where their first ones lead, and on from there. -/
theorem mem_trailOf_append {first more : List String} {mid : Location}
    (hwalk : fs.walk start first = .ok mid) (h : place ∈ fs.trailOf mid more) :
    place ∈ fs.trailOf start (first ++ more) := by
  induction first generalizing start with
  | nil =>
    obtain rfl := Except.ok.inj hwalk
    exact h
  | cons step rest ih =>
    obtain ⟨hdir, hsize, hrest⟩ := walk_cons_eq_ok.1 hwalk
    rw [List.cons_append, trailOf, if_pos ⟨hdir, hsize⟩]
    exact List.mem_cons_of_mem _ (ih hrest)

/-- And where the first ones pass, all of them do. -/
theorem mem_trailOf_append_left {first more : List String} (h : place ∈ fs.trailOf start first) :
    place ∈ fs.trailOf start (first ++ more) := by
  induction first generalizing start with
  | nil =>
    obtain rfl := List.mem_singleton.1 h
    exact fs.start_mem_trailOf _ more
  | cons step rest ih =>
    unfold trailOf at h
    rw [List.cons_append, trailOf]
    split at h
    · next hdir =>
      rw [if_pos hdir]
      obtain rfl | h := List.mem_cons.1 h
      · exact List.mem_cons_self
      · exact List.mem_cons_of_mem _ (ih h)
    · next hdir =>
      rw [if_neg hdir]
      exact h

/-- Where steps lead, they pass. -/
theorem mem_trailOf_of_walk {steps : List String} (h : fs.walk start steps = .ok place) :
    place ∈ fs.trailOf start steps := by
  have hmem := mem_trailOf_append h (fs.start_mem_trailOf place [])
  rwa [List.append_nil] at hmem

theorem mem_trail_of_locate (h : fs.locate path = .ok place) : place ∈ fs.trail path := by
  cases hsound : fault? path with
  | some why =>
    rw [locate, hsound] at h
    cases h
  | none =>
    rw [locate, hsound] at h
    rw [trail, hsound]
    exact mem_trailOf_of_walk h

/-- A step on the spot passes nothing more. -/
theorem mem_trailOf_of_concat_dot {steps : List String}
    (h : place ∈ fs.trailOf start (steps ++ ["."])) : place ∈ fs.trailOf start steps := by
  induction steps generalizing start with
  | nil =>
    rw [List.nil_append, trailOf] at h
    split at h
    · obtain rfl | h := List.mem_cons.1 h
      · exact List.mem_singleton_self _
      · exact h
    · exact h
  | cons step rest ih =>
    rw [List.cons_append, trailOf] at h
    unfold trailOf
    split at h
    · next hdir =>
      rw [if_pos hdir]
      obtain rfl | h := List.mem_cons.1 h
      · exact List.mem_cons_self
      · exact List.mem_cons_of_mem _ (ih h)
    · next hdir =>
      rw [if_neg hdir]
      exact h

/-- What a writer's path ends at, it passes. -/
theorem mem_trailOf_of_front {steps : List String} {dir : Location} {name : String}
    (hfront : fs.walk start (steps.dropLast ++ ["."]) = .ok dir)
    (hname : steps.getLast? = some name) (hdots : ¬(name = "." ∨ name = ".."))
    (hsize : name.utf8ByteSize ≤ maxNameSize) : dir ++ [name] ∈ fs.trailOf start steps := by
  obtain ⟨hwalk, hdir⟩ := walk_concat_dot_eq_ok.1 hfront
  obtain ⟨first, rfl⟩ := List.getLast?_eq_some_iff.1 hname
  rw [List.dropLast_concat] at hwalk
  refine mem_trailOf_append hwalk ?_
  obtain ⟨hdot, hup⟩ := not_or.1 hdots
  rw [trailOf, if_pos ⟨hdir, hsize⟩, move, if_neg hdot, if_neg hup]
  exact List.mem_cons_of_mem _ (start_mem_trailOf _ _ _)

/-- **Steps that lead somewhere lead there in every store.** -/
theorem eq_foldl_of_walk {steps : List String} (h : fs.walk start steps = .ok place) :
    place = steps.foldl move start := by
  induction steps generalizing start with
  | nil => exact (Except.ok.inj h).symm
  | cons step rest ih => exact ih (walk_cons_eq_ok.1 h).2.2

/-- So does the path of a writer. -/
theorem eq_of_target (hcwd : w.cwd = v.cwd) (hv : v.target path = .ok place)
    (hw : w.target path = .ok other) : other = place := by
  obtain ⟨dir, name, haims, rfl⟩ := exists_aims hv
  obtain ⟨dir', name', haims', rfl⟩ := exists_aims hw
  have hbase : w.base path = v.base path := by
    unfold base
    rw [hcwd]
  have hfront := eq_foldl_of_walk haims'.front
  rw [hbase, ← eq_foldl_of_walk haims.front] at hfront
  rw [hfront, Option.some.inj (haims'.last.symm.trans haims.last)]

/-! ## Stores with the same directories -/

/-- **Stores with the same directories**, and the same working directory. -/
structure SameDirectories (v w : Files) : Prop where
  cwd : w.cwd = v.cwd
  directory : ∀ place, w.entry? place = some .directory ↔ v.entry? place = some .directory

namespace SameDirectories

theorem refl (fs : Files) : fs.SameDirectories fs := ⟨rfl, fun _ => Iff.rfl⟩

theorem trans (hvw : v.SameDirectories w) (hwx : w.SameDirectories x) : v.SameDirectories x :=
  ⟨hwx.cwd.trans hvw.cwd, fun place => (hwx.directory place).trans (hvw.directory place)⟩

/-- A file put where no directory is makes and removes none. -/
theorem put (fs : Files) (hplace : fs.entry? place ≠ some .directory) (content : Content) :
    fs.SameDirectories (fs.put place (.file content)) := by
  refine ⟨rfl, fun other => ?_⟩
  by_cases h : other = place
  · rw [h, entry?_put_self (ne_nil_of_not_directory hplace)]
    exact iff_of_false (by simp) hplace
  · rw [entry?_put_of_ne h]

variable (h : v.SameDirectories w)
include h

theorem base (path : String) : w.base path = v.base path := by
  unfold Files.base
  rw [h.cwd]

theorem walk_eq_ok {steps : List String} :
    w.walk start steps = .ok place ↔ v.walk start steps = .ok place := by
  induction steps generalizing start with
  | nil => exact Iff.rfl
  | cons step rest ih => rw [walk_cons_eq_ok, walk_cons_eq_ok, h.directory, ih]

/-- **Writers get along the same paths**, and to the same places. -/
theorem target_eq_ok : w.target path = .ok place ↔ v.target path = .ok place := by
  constructor
  · intro hw
    obtain ⟨dir, name, haims, rfl⟩ := exists_aims hw
    exact Aims.target { haims with
      front := h.walk_eq_ok.1 (h.base path ▸ haims.front)
      free := fun hdir => haims.free ((h.directory _).2 hdir) }
  · intro hv
    obtain ⟨dir, name, haims, rfl⟩ := exists_aims hv
    exact Aims.target { haims with
      front := (h.base path).symm ▸ h.walk_eq_ok.2 haims.front
      free := fun hdir => haims.free ((h.directory _).1 hdir) }

theorem trailOf (start : Location) (steps : List String) :
    w.trailOf start steps = v.trailOf start steps := by
  induction steps generalizing start with
  | nil => rfl
  | cons step rest ih =>
    unfold Files.trailOf
    simp only [h.directory, ih]

/-- Paths pass the same places. -/
theorem trail (path : String) : w.trail path = v.trail path := by
  unfold Files.trail
  rw [h.base, h.trailOf]

end SameDirectories

/-! ## Stores that agree away from some places -/

/-- **Stores that agree away from some places.** -/
structure AgreeAway (apart : Location → Prop) (v w : Files) : Prop where
  cwd : w.cwd = v.cwd
  entry : ∀ place, ¬apart place → w.entry? place = v.entry? place
  runnable : ∀ place, ¬apart place → w.runnable.contains place = v.runnable.contains place

namespace AgreeAway

variable {apart : Location → Prop}

/-- The same entry put into both, wherever that is. -/
theorem put (h : v.AgreeAway apart w) (place : Location) (entry : Entry) :
    (v.put place entry).AgreeAway apart (w.put place entry) := by
  refine ⟨h.cwd, fun other hother => ?_, h.runnable⟩
  unfold entry? Files.put
  dsimp only
  split
  · rfl
  · next hne =>
    have hentry := h.entry other hother
    unfold entry? at hentry
    rw [if_neg hne, if_neg hne] at hentry
    rw [lookup_insertEntry, lookup_insertEntry, hentry]

/-- An entry put where they need not agree. -/
theorem put_left (h : v.AgreeAway apart w) (hplace : apart place) (entry : Entry) :
    (v.put place entry).AgreeAway apart w :=
  ⟨h.cwd, fun other hother => (h.entry other hother).trans
    (entry?_put_of_ne (by rintro rfl; exact hother hplace) v entry).symm, h.runnable⟩

theorem put_right (h : v.AgreeAway apart w) (hplace : apart place) (entry : Entry) :
    v.AgreeAway apart (w.put place entry) :=
  ⟨h.cwd, fun other hother => (entry?_put_of_ne (by rintro rfl; exact hother hplace) w
    entry).trans (h.entry other hother), h.runnable⟩

variable (h : v.AgreeAway apart w)
include h

theorem base (path : String) : w.base path = v.base path := by
  unfold Files.base
  rw [h.cwd]

/-- **Steps that keep away from those places** lead to the same, or break
off for the same reason. -/
theorem walk {steps : List String} (haway : ∀ place ∈ v.trailOf start steps, ¬apart place) :
    w.walk start steps = v.walk start steps := by
  induction steps generalizing start with
  | nil => rfl
  | cons step rest ih =>
    unfold Files.walk
    rw [h.entry start (haway start (v.start_mem_trailOf start _))]
    split
    · rfl
    · rfl
    · rfl
    · next hdir =>
      split
      · rfl
      · next hsize =>
        refine ih fun place hplace => haway place ?_
        rw [trailOf, if_pos ⟨hdir, Nat.le_of_not_lt hsize⟩]
        exact List.mem_cons_of_mem _ hplace

variable (haway : ∀ place ∈ v.trail path, ¬apart place)
include haway

theorem locate : w.locate path = v.locate path := by
  unfold Files.locate
  cases hsound : fault? path with
  | some why => rfl
  | none =>
    rw [trail, hsound] at haway
    dsimp only
    rw [h.base]
    exact h.walk haway

theorem find? : w.find? path = v.find? path := by
  unfold Files.find?
  rw [h.locate haway]
  split
  · next place hplace => exact h.entry place (haway place (mem_trail_of_locate hplace))
  · rfl

theorem isFile : w.isFile path = v.isFile path := by
  unfold Files.isFile
  rw [h.find? haway]

/-- **What a path leads to is read alike.** -/
theorem read : w.read path = v.read path := by
  unfold Files.read
  rw [h.locate haway]
  split
  · rfl
  · next place hplace => rw [h.entry place (haway place (mem_trail_of_locate hplace))]

theorem readText : w.readText path = v.readText path := by
  unfold Files.readText
  rw [h.read haway]

/-- **A writer gets to the same place**, or is refused for the same
reason. -/
theorem target : w.target path = v.target path := by
  unfold Files.target
  cases hsound : fault? path with
  | some why => rfl
  | none =>
    rw [trail, hsound] at haway
    dsimp only at haway ⊢
    rw [h.base]
    -- the way to the directory is the front of the whole way
    have hfront : ∀ names : List String, names <+: steps path →
        w.walk (v.base path) (names.dropLast ++ ["."]) =
          v.walk (v.base path) (names.dropLast ++ ["."]) := by
      intro names hnames
      obtain ⟨more, hmore⟩ := (List.dropLast_prefix names).trans hnames
      refine h.walk fun place hplace => haway place ?_
      rw [← hmore]
      exact mem_trailOf_append_left (mem_trailOf_of_concat_dot hplace)
    cases hslash : path.toList.getLast? == some '/' with
    | true =>
      simp only [if_true]
      rw [hfront _ (List.dropLast_prefix _)]
      split
      · rfl
      · split
        · rfl
        · simp
    | false =>
      simp only [Bool.false_eq_true, if_false, or_false]
      rw [hfront _ List.prefix_rfl]
      split
      · rfl
      · next dir hdir =>
        split
        · rfl
        · next name hname =>
          split
          · rfl
          · next hdots =>
            split
            · rfl
            · next hsize =>
              rw [h.entry _ (haway _ (mem_trailOf_of_front hdir hname hdots
                (Nat.le_of_not_lt hsize)))]

end AgreeAway

end Files

/-! ## Names along the search path -/

namespace World

/-- **The paths at which a file is looked for by its name**, up to where it
is found. -/
def sought (w : World) (name : String) : List String :=
  ((w.searchPath.map (Path.join · name)).takeWhile fun path => !w.files.isFile path) ++
    [w.resolve name]

/-- **The paths at which a module is looked for.** -/
def soughtModule (w : World) (name : String) : List String :=
  w.sought name ++
    if w.files.isFile (w.resolve name) then [] else w.sought (name ++ ".xml")

/-- What a name stands for is looked at. -/
theorem resolve_mem_sought (w : World) (name : String) : w.resolve name ∈ w.sought name :=
  List.mem_append_right _ (List.mem_singleton_self _)

/-- A search finds the same if it is answered alike up to where it ends. -/
theorem find?_eq_of_takeWhile {p q : String → Bool} {paths : List String}
    (hpassed : ∀ path ∈ paths.takeWhile fun path => !p path, q path = p path)
    (hfound : ∀ path, paths.find? p = some path → q path = p path) :
    paths.find? q = paths.find? p := by
  induction paths with
  | nil => rfl
  | cons path rest ih =>
    cases hp : p path with
    | true =>
      have hq : q path = true := (hfound path (List.find?_cons_of_pos hp)).trans hp
      rw [List.find?_cons_of_pos hp, List.find?_cons_of_pos hq]
    | false =>
      have htake : (path :: rest).takeWhile (fun path => !p path) =
          path :: rest.takeWhile fun path => !p path :=
        List.takeWhile_cons_of_pos (by simp [hp])
      have hfind : (path :: rest).find? p = rest.find? p :=
        List.find?_cons_of_neg (by simp [hp])
      rw [htake] at hpassed
      rw [hfind] at hfound
      have hq : q path = false := (hpassed path List.mem_cons_self).trans hp
      rw [hfind, List.find?_cons_of_neg (by simp [hq])]
      exact ih (fun path hpath => hpassed path (List.mem_cons_of_mem _ hpath)) hfound

variable {apart : Location → Prop} {v w : World} {name : String}

/-- **A name stands for the same path** if nothing on the way of looking for
it is one of the places where the files may differ. -/
theorem resolve_eq_of_agreeAway (hsearch : w.searchPath = v.searchPath)
    (h : v.files.AgreeAway apart w.files)
    (haway : ∀ path ∈ v.sought name, ∀ place ∈ v.files.trail path, ¬apart place) :
    w.resolve name = v.resolve name := by
  have hresolved := haway _ (v.resolve_mem_sought name)
  unfold resolve at hresolved ⊢
  split
  · rfl
  · next habsolute =>
    rw [if_neg habsolute] at hresolved
    rw [hsearch, find?_eq_of_takeWhile (p := v.files.isFile)
      (fun path hpath => h.isFile (haway path (List.mem_append_left _ hpath)))]
    intro path hfound
    rw [hfound] at hresolved
    exact h.isFile hresolved

/-- **So does the name of a module.** -/
theorem moduleFile?_eq_of_agreeAway (hsearch : w.searchPath = v.searchPath)
    (h : v.files.AgreeAway apart w.files)
    (haway : ∀ path ∈ v.soughtModule name, ∀ place ∈ v.files.trail path, ¬apart place) :
    Runner.moduleFile? w name = Runner.moduleFile? v name := by
  have hname : ∀ path ∈ v.sought name, ∀ place ∈ v.files.trail path, ¬apart place :=
    fun path hpath => haway path (List.mem_append_left _ hpath)
  have hisFile : w.files.isFile (v.resolve name) = v.files.isFile (v.resolve name) :=
    h.isFile (hname _ (v.resolve_mem_sought name))
  unfold Runner.moduleFile?
  rw [resolve_eq_of_agreeAway hsearch h hname]
  cases hfile : v.files.isFile (v.resolve name) with
  | true =>
    rw [List.find?_cons_of_pos hfile, List.find?_cons_of_pos (hisFile.trans hfile)]
  | false =>
    have hextended : ∀ path ∈ v.sought (name ++ ".xml"), ∀ place ∈ v.files.trail path,
        ¬apart place := fun path hpath => by
      refine haway path (List.mem_append_right _ ?_)
      rw [hfile]
      exact hpath
    have hall : ∀ path ∈ [v.resolve name, v.resolve (name ++ ".xml")],
        w.files.isFile path = v.files.isFile path :=
      List.forall_mem_cons.2 ⟨hisFile, List.forall_mem_singleton.2
        (h.isFile (hextended _ (v.resolve_mem_sought _)))⟩
    rw [resolve_eq_of_agreeAway hsearch h hextended]
    exact find?_eq_of_takeWhile
      (fun path hpath => hall path (List.takeWhile_prefix _ |>.subset hpath))
      fun path hfound => hall path (List.mem_of_find?_eq_some hfound)

/-- The file that a module is read from is one of those at which it is looked
for. -/
theorem mem_soughtModule_of_moduleFile? {path : String}
    (h : Runner.moduleFile? w name = some path) : path ∈ w.soughtModule name := by
  unfold Runner.moduleFile? at h
  cases hfile : w.files.isFile (w.resolve name) with
  | true =>
    rw [List.find?_cons_of_pos hfile] at h
    obtain rfl := Option.some.inj h
    exact List.mem_append_left _ (w.resolve_mem_sought name)
  | false =>
    rw [List.find?_cons_of_neg (by simp [hfile])] at h
    obtain rfl := List.mem_singleton.1 (List.mem_of_find?_eq_some h)
    refine List.mem_append_right _ ?_
    rw [hfile]
    exact w.resolve_mem_sought _

end World

/-! ## Programs -/

namespace Command

/-- **The places that are passed in looking for a program** and for the
directory it is to run in. -/
def trail (files : Files) (dirs : List String) (dir program : String) : List Location :=
  files.trail dir ++
    match files.locate dir with
    | .error _ => []
    | .ok place => (candidates dirs program).flatMap (Files.trail { files with cwd := place })

variable {apart : Location → Prop} {v w : Files} {dirs arguments : List String} {program : String}

/-- What is at a path can be run in both stores or in neither. -/
theorem runs?_eq_of_agreeAway (h : v.AgreeAway apart w) {path : String}
    (haway : ∀ place ∈ v.trail path, ¬apart place) : runs? w path = runs? v path := by
  unfold runs?
  rw [h.locate haway]
  split
  · rfl
  · next place hplace =>
    have hfree := haway place (Files.mem_trail_of_locate hplace)
    rw [h.entry place hfree, h.runnable place hfree]

/-- **A program is found or lacking alike.** -/
theorem lack?_eq_of_agreeAway (h : v.AgreeAway apart w)
    (haway : ∀ path ∈ candidates dirs program, ∀ place ∈ v.trail path, ¬apart place) :
    lack? w dirs program = lack? v dirs program := by
  have hfound : (candidates dirs program).filterMap (runs? w) =
      (candidates dirs program).filterMap (runs? v) :=
    List.filterMap_congr fun path hpath => runs?_eq_of_agreeAway h (haway path hpath)
  unfold lack?
  rw [hfound]
  by_cases hslash : program.toList.contains '/' = true
  · -- a name with a slash is the one path at which the program can be
    have hsole : program ∈ candidates dirs program := by
      unfold candidates
      rw [if_pos hslash]
      exact List.mem_singleton_self program
    rw [h.locate (haway program hsole)]
  · simp only [if_neg hslash]

/-- **A command that is refused is refused for the same reason** in stores
that agree on what is passed in looking for it. -/
theorem start_eq_error (h : v.AgreeAway apart w) {dir : String}
    (haway : ∀ place ∈ trail v dirs dir program, ¬apart place) {why : Refusal}
    (hstart : start v dirs dir program arguments = .error why) :
    start w dirs dir program arguments = .error why := by
  unfold trail at haway
  obtain ⟨hdir, hinside⟩ := List.forall_mem_append.1 haway
  unfold start at hstart ⊢
  by_cases hnul : (dir :: program :: arguments).any Files.holdsNul = true
  · rwa [if_pos hnul] at hstart ⊢
  rw [if_neg hnul] at hstart ⊢
  rw [h.locate hdir]
  cases hlocate : v.locate dir with
  | error refusal => rwa [hlocate] at hstart
  | ok place =>
    rw [hlocate] at hstart hinside
    dsimp only at hstart hinside ⊢
    rw [h.entry place (hdir place (Files.mem_trail_of_locate hlocate))]
    cases hentry : v.entry? place with
    | none => rwa [hentry] at hstart
    | some entry =>
      rw [hentry] at hstart
      cases entry with
      | file | device => exact hstart
      | directory =>
        dsimp only at hstart ⊢
        have hagree : Files.AgreeAway apart { v with cwd := place } { w with cwd := place } :=
          ⟨rfl, h.entry, h.runnable⟩
        rw [lack?_eq_of_agreeAway hagree (List.forall_mem_flatMap.1 hinside)]
        cases hlack : lack? { v with cwd := place } dirs program with
        | some refusal => rwa [hlack] at hstart
        | none =>
          rw [hlack] at hstart
          dsimp only at hstart ⊢
          by_cases hlong : isTooLong (program :: arguments) = true
          · rwa [if_pos hlong] at hstart ⊢
          · rw [if_neg hlong] at hstart
            cases hstart

end Command

namespace World

variable {w : World} {program : String} {arguments : List String}

/-- A program is not launched exactly if its start is refused. -/
theorem launch_eq_error {why : Refusal} :
    w.launch program arguments = .error why ↔
      Command.start w.files w.system.programDirs w.primaryDir program arguments = .error why := by
  unfold launch
  cases Command.start w.files w.system.programDirs w.primaryDir program arguments with
  | error refusal => simp [Except.map]
  | ok inside => simp [Except.map]

end World

end TagScript
