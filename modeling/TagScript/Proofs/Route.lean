import TagScript.Proofs.Storage
import TagScript.Script

/-!
# The search path after scripts have been loaded

Loading a script puts its directory and the working directory in front of
the search path. The directories searched before follow in their order, but
none that is the same path as one that has been kept already. So a name that
is found in neither of the two in front is found where it was found before.

Two paths that are the same by their components need not be the same text,
and here this matters once: the system refuses a path of more than 4095
bytes. A directory may be dropped for one that is spelled at such length
that the path of a file in it is refused (`long_directory_hides_file`). Where
the candidates are no longer than that, it makes no difference which of the
spellings is kept (`Files.isFile_join_of_same`).
-/

namespace TagScript

/-! ## Pieces and steps -/

namespace Path

/-- The pieces of a path that are not empty. -/
def named (path : String) : List String := (Text.split '/' path).filter fun piece => !piece.isEmpty

/-- **The steps of a path that lead elsewhere**: a dot does not. -/
def onward (path : String) : List String := (named path).filter (· ≠ ".")

theorem split_ne_nil (path : String) : Text.split '/' path ≠ [] := by
  simp [Text.split, Text.splitChars_ne_nil]

/-- A path that begins elsewhere than at the root has a piece. -/
theorem named_ne_nil {path : String} (hrelative : isAbsolute path = false) (hpath : path ≠ "") :
    named path ≠ [] := by
  obtain ⟨c, rest, hcs⟩ := List.exists_cons_of_ne_nil (mt String.toList_eq_nil_iff.1 hpath)
  have hc : c ≠ '/' := by
    rintro rfl
    simp [isAbsolute, hcs] at hrelative
  obtain ⟨piece, pieces, -, hpieces⟩ := Text.splitChars_cons_of_ne hc rest
  have hsplit : Text.split '/' path = String.ofList (c :: piece) :: pieces.map String.ofList := by
    rw [Text.split, hcs, hpieces]
    rfl
  rw [named, hsplit, List.filter_cons_of_pos (by simp)]
  exact List.cons_ne_nil _ _

/-- What a component steps along. -/
def Component.step : Component → String
  | .root => "/"
  | .here => "."
  | .up => ".."
  | .name s => s

theorem onward_eq (path : String) :
    onward path = ((Text.split '/' path).filterMap Component.ofPiece?).map Component.step := by
  unfold onward named
  induction Text.split '/' path with
  | nil => rfl
  | cons piece pieces ih =>
    by_cases hempty : piece = ""
    · subst hempty
      simpa [Component.ofPiece?] using ih
    · by_cases hdot : piece = "."
      · subst hdot
        simpa [Component.ofPiece?] using ih
      · by_cases hup : piece = ".."
        · subst hup
          simpa [Component.ofPiece?, Component.step] using ih
        · simpa [Component.ofPiece?, Component.step, hempty, hdot, hup] using ih

/-- In front of the components that the pieces make there is the root or the dot at the front, or
nothing. -/
theorem exists_components (path : String) : ∃ front, components path =
      front ++ (Text.split '/' path).filterMap Component.ofPiece? ∧
    ∀ c ∈ front, c = .root ∨ c = .here := by
  unfold components
  dsimp only
  split
  · exact ⟨[.root], rfl, by simp⟩
  · split
    · exact ⟨[.here], rfl, by simp⟩
    · exact ⟨[], rfl, by simp⟩

/-- The components but for the one at the front tell the pieces. -/
theorem filter_components (path : String) :
    (components path).filter (fun c => c ≠ .root ∧ c ≠ .here) =
      (Text.split '/' path).filterMap Component.ofPiece? := by
  obtain ⟨front, hcomponents, hfront⟩ := exists_components path
  have hpiece : ∀ c ∈ (Text.split '/' path).filterMap Component.ofPiece?,
      c ≠ .root ∧ c ≠ .here := by
    intro c hc
    obtain ⟨piece, -, hpiece⟩ := List.mem_filterMap.1 hc
    unfold Component.ofPiece? at hpiece
    split at hpiece
    · cases hpiece
    · split at hpiece
      · cases hpiece
        exact ⟨nofun, nofun⟩
      · cases hpiece
        exact ⟨nofun, nofun⟩
  have hnone : front.filter (fun c => c ≠ .root ∧ c ≠ .here) = [] := by
    refine List.filter_eq_nil_iff.2 fun c hc => ?_
    obtain rfl | rfl := hfront c hc
    · decide
    · decide
  rw [hcomponents, List.filter_append, hnone, List.nil_append]
  exact List.filter_eq_self.2 fun c hc => decide_eq_true (hpiece c hc)

/-- **The name a path ends with** is the last of its steps, unless that leads upwards. -/
theorem fileName?_eq_some_iff {path name : String} :
    fileName? path = some name ↔ (onward path).getLast? = some name ∧ name ≠ ".." := by
  obtain ⟨front, hcomponents, hfront⟩ := exists_components path
  unfold fileName?
  rw [hcomponents, onward_eq, List.getLast?_append, List.getLast?_map]
  cases hlast : ((Text.split '/' path).filterMap Component.ofPiece?).getLast? with
  | none =>
    simp only [Option.none_or, Option.map_none, reduceCtorEq, false_and, iff_false]
    split
    · next s hname =>
      obtain h | h := hfront _ (List.mem_of_getLast? hname)
      · cases h
      · cases h
    · simp
  | some c =>
    obtain ⟨piece, -, hpiece⟩ := List.mem_filterMap.1 (List.mem_of_getLast? hlast)
    simp only [Option.some_or, Option.map_some, Option.some.injEq]
    unfold Component.ofPiece? at hpiece
    split at hpiece
    · cases hpiece
    · split at hpiece
      · cases hpiece
        refine ⟨nofun, ?_⟩
        rintro ⟨rfl, hup⟩
        exact absurd rfl hup
      · next hup =>
        cases hpiece
        refine ⟨?_, fun h => congrArg some h.1⟩
        rintro ⟨⟩
        exact ⟨rfl, hup⟩

/-- A name without a slash is the only step of the path that it is. -/
theorem onward_of_notMem {name : String} (hslash : '/' ∉ name.toList) (hempty : name ≠ "")
    (hdot : name ≠ ".") : onward name = [name] := by
  have hsplit : Text.split '/' name = [name] := by
    rw [Text.split, Text.splitChars_eq_splitOn, List.splitOn_eq_singleton hslash]
    simp
  unfold onward named
  rw [hsplit]
  simp [hempty, hdot]

theorem isAbsolute_iff (path : String) : isAbsolute path = true ↔ .root ∈ components path := by
  have hpiece : Component.root ∉ (Text.split '/' path).filterMap Component.ofPiece? := by
    rw [← filter_components]
    simp
  unfold components
  dsimp only
  split
  · simpa
  · next hrelative =>
    split
    · simpa [hrelative] using hpiece
    · simpa [hrelative] using hpiece

theorem same_iff {a b : String} : same a b = true ↔ components a = components b := beq_iff_eq

theorem same_refl (path : String) : same path path = true := same_iff.2 rfl

/-- **Paths that are the same begin at the same place and take the same steps onward.** -/
theorem eq_of_same {a b : String} (h : same a b = true) :
    isAbsolute a = isAbsolute b ∧ onward a = onward b := by
  have hcomponents := same_iff.1 h
  constructor
  · rw [Bool.eq_iff_iff, isAbsolute_iff, isAbsolute_iff, hcomponents]
  · rw [onward_eq, onward_eq, ← filter_components, ← filter_components, hcomponents]

/-! ## Joined paths -/

section Join

variable {dir name : String} (hrelative : isAbsolute name = false)
include hrelative

/-- The text of a path continued. -/
theorem toList_join : ∃ front, (join dir name).toList = front ++ name.toList ∧
    (front = [] ∧ dir = "" ∨
      ∃ cs, front = cs ++ ['/'] ∧ (dir.toList = cs ∧ cs ≠ [] ∨ dir.toList = cs ++ ['/'])) := by
  unfold join
  rw [if_neg (by rw [hrelative]; decide)]
  split
  · next hdir =>
    refine ⟨dir.toList, String.toList_append, ?_⟩
    obtain hempty | hslash := Bool.or_eq_true_iff.1 hdir
    · rw [String.isEmpty_iff] at hempty
      exact .inl ⟨by rw [hempty]; rfl, hempty⟩
    · obtain ⟨cs, hcs⟩ := List.getLast?_eq_some_iff.1 (beq_iff_eq.1 hslash)
      exact .inr ⟨cs, hcs, .inr hcs⟩
  · next hdir =>
    have hdir : dir ≠ "" := by
      rintro rfl
      exact hdir rfl
    exact ⟨dir.toList ++ ['/'], by simp, .inr ⟨_, rfl, .inl ⟨rfl, by simpa using hdir⟩⟩⟩

/-- The pieces of a path continued. -/
theorem exists_split_join : ∃ front, Text.split '/' (join dir name) =
      front ++ Text.split '/' name ∧ front.filter (fun piece => !piece.isEmpty) = named dir := by
  obtain ⟨front, hjoin, ⟨rfl, rfl⟩ | ⟨cs, rfl, hdir⟩⟩ := @toList_join dir name hrelative
  · refine ⟨[], ?_, rfl⟩
    rw [Text.split, hjoin]
    rfl
  · refine ⟨(Text.splitChars '/' cs).map String.ofList, ?_, ?_⟩
    · rw [Text.split, hjoin, List.append_assoc, List.singleton_append,
        Text.splitChars_append_cons, List.map_append]
      rfl
    · unfold named Text.split
      obtain ⟨hdir, -⟩ | hdir := hdir
      · rw [hdir]
      · rw [hdir, Text.splitChars_append_cons, List.map_append, List.filter_append]
        exact (List.append_nil _).symm

/-- The steps of a path continued by one that is not empty. -/
theorem steps_join (hname : name ≠ "") :
    Files.steps (join dir name) = named dir ++ Files.steps name ∧ Files.steps name ≠ [] := by
  obtain ⟨front, hsplit, hfront⟩ := @exists_split_join dir name hrelative
  have hnamed := named_ne_nil hrelative hname
  have hmore : (named name).isEmpty = false := by simpa using hnamed
  have hboth : (named dir ++ named name).isEmpty = false := by simp [hnamed]
  have hpieces : (Text.split '/' (join dir name)).filter (fun piece => !piece.isEmpty) =
      named dir ++ named name := by
    rw [hsplit, List.filter_append, hfront]
    rfl
  have hlast : (Text.split '/' (join dir name)).getLast? = (Text.split '/' name).getLast? := by
    rw [hsplit, List.getLast?_append, List.getLast?_eq_some_getLast (split_ne_nil name)]
    rfl
  have hsteps : Files.steps name =
      if (Text.split '/' name).getLast? == some "" then named name ++ ["."] else named name := by
    unfold Files.steps
    dsimp only
    rw [show (Text.split '/' name).filter (fun piece => !piece.isEmpty) = named name from rfl,
      hmore]
    simp
  constructor
  · unfold Files.steps at hsteps ⊢
    dsimp only at hsteps ⊢
    rw [hsteps, hpieces, hlast, hboth]
    simp only [Bool.not_false, Bool.and_true]
    split
    · exact List.append_assoc _ _ _
    · rfl
  · rw [hsteps]
    split
    · simp
    · exact hnamed

theorem isAbsolute_join : isAbsolute (join dir name) = isAbsolute dir := by
  obtain ⟨front, hjoin, ⟨rfl, rfl⟩ | ⟨cs, rfl, hdir⟩⟩ := @toList_join dir name hrelative
  · unfold isAbsolute at hrelative ⊢
    rw [hjoin, List.nil_append, hrelative]
    rfl
  · unfold isAbsolute
    rw [hjoin]
    obtain ⟨hdir, hcs⟩ | hdir := hdir
    · obtain ⟨c, cs, rfl⟩ := List.exists_cons_of_ne_nil hcs
      rw [hdir]
      rfl
    · rw [hdir]
      cases cs with
      | nil => rfl
      | cons c cs => rfl

end Join

end Path

/-! ## Files at the end of joined paths -/

namespace Files

variable {fs : Files} {start : Location} {a b dir name path : String}

/-- **A dot on the way leads nowhere**: it asks for a directory, and so does the next step. -/
theorem walk_filter_dots {steps rest : List String} (hrest : rest ≠ []) {place : Location} :
    fs.walk start (steps.filter (· ≠ ".") ++ rest) = .ok place ↔
      fs.walk start (steps ++ rest) = .ok place := by
  induction steps generalizing start with
  | nil => exact Iff.rfl
  | cons step steps ih =>
    by_cases hstep : step = "."
    · subst hstep
      obtain ⟨next, more, hnext⟩ := List.exists_cons_of_ne_nil
        (List.append_ne_nil_of_right_ne_nil steps hrest)
      rw [List.filter_cons_of_neg (by decide), ih, List.cons_append, walk_cons_eq_ok, hnext,
        walk_cons_eq_ok]
      refine ⟨fun h => ⟨h.1, by decide, walk_cons_eq_ok.2 h⟩, fun h => walk_cons_eq_ok.1 h.2.2⟩
    · rw [List.filter_cons_of_pos (by simpa using hstep), List.cons_append, List.cons_append,
        walk_cons_eq_ok, walk_cons_eq_ok, ih]

theorem walk_onward {rest : List String} (hrest : rest ≠ []) {place : Location} :
    fs.walk start (Path.onward path ++ rest) = .ok place ↔
      fs.walk start (Path.named path ++ rest) = .ok place :=
  walk_filter_dots hrest

theorem isFile_iff : fs.isFile path = true ↔
    ∃ place content, fs.locate path = .ok place ∧ fs.entry? place = some (.file content) := by
  unfold isFile find?
  cases fs.locate path with
  | error refusal => simp
  | ok place =>
    dsimp only
    constructor
    · intro h
      split at h
      · next content hentry => exact ⟨place, content, rfl, hentry⟩
      · cases h
    · rintro ⟨_, content, hplace, hentry⟩
      obtain rfl := Except.ok.inj hplace
      rw [hentry]

theorem locate_eq_ok {place : Location} : fs.locate path = .ok place ↔
    fault? path = none ∧ fs.walk (fs.base path) (steps path) = .ok place := by
  unfold locate
  cases fault? path <;> simp

/-- The character that no path holds is in one of the steps onward. -/
theorem holdsNul_iff :
    holdsNul path = true ↔ ∃ step ∈ Path.onward path, Char.ofNat 0 ∈ step.toList := by
  unfold holdsNul Path.onward Path.named Text.split
  rw [List.contains_iff_mem, Text.mem_iff_mem_splitChars (show Char.ofNat 0 ≠ '/' by decide)]
  constructor
  · rintro ⟨piece, hpiece, hmem⟩
    refine ⟨String.ofList piece, List.mem_filter.2 ⟨List.mem_filter.2
      ⟨List.mem_map_of_mem hpiece, ?_⟩, ?_⟩, by simpa using hmem⟩
    · simpa using List.ne_nil_of_mem hmem
    · rw [decide_eq_true_iff]
      intro hdot
      have hdot := congrArg String.toList hdot
      rw [String.toList_ofList] at hdot
      rw [hdot] at hmem
      exact absurd hmem (by decide)
  · rintro ⟨step, hstep, hmem⟩
    obtain ⟨piece, hpiece, rfl⟩ := List.mem_map.1 (List.mem_filter.1 (List.mem_filter.1 hstep).1).1
    exact ⟨piece, hpiece, by simpa using hmem⟩

theorem holdsNul_join (hrelative : Path.isAbsolute name = false) :
    holdsNul (Path.join dir name) = (holdsNul dir || holdsNul name) := by
  have hslash : Char.ofNat 0 ≠ '/' := by decide
  obtain ⟨front, hjoin, ⟨rfl, rfl⟩ | ⟨cs, rfl, hdir⟩⟩ := @Path.toList_join dir name hrelative
  · unfold holdsNul
    rw [hjoin]
    rfl
  · unfold holdsNul
    rw [hjoin, Bool.eq_iff_iff]
    obtain ⟨hdir, -⟩ | hdir := hdir
    · simp [hdir, hslash]
    · simp [hdir, hslash]

/-- What may be wrong with a path continued by one that is not empty. -/
theorem fault?_join (hrelative : Path.isAbsolute name = false) (hname : name ≠ "") :
    fault? (Path.join dir name) = if holdsNul dir || holdsNul name then some .badPath
      else if maxPathSize < (Path.join dir name).utf8ByteSize then some .nameTooLong else none := by
  have hempty : (Path.join dir name).isEmpty = false := by
    obtain ⟨front, hjoin, -⟩ := @Path.toList_join dir name hrelative
    rw [Bool.eq_false_iff, Ne, String.isEmpty_iff]
    intro hempty
    rw [hempty] at hjoin
    exact hname (String.toList_eq_nil_iff.1 (List.append_eq_nil_iff.1 hjoin.symm).2)
  unfold fault?
  rw [hempty, holdsNul_join hrelative]
  rfl

/-- A path that ends with a slash leads to no file. -/
theorem isFile_join_empty : fs.isFile (Path.join dir "") = false := by
  rw [Bool.eq_false_iff]
  intro h
  obtain ⟨place, content, hlocate, hentry⟩ := isFile_iff.1 h
  obtain ⟨hfault, hwalk⟩ := locate_eq_ok.1 hlocate
  obtain ⟨front, hjoin, ⟨rfl, rfl⟩ | ⟨cs, rfl, -⟩⟩ := @Path.toList_join dir "" rfl
  · cases hfault
  have hpath : Path.join dir "" ≠ "" := by
    intro hempty
    simp [hempty] at hjoin
  have hlast : (Text.split '/' (Path.join dir "")).getLast? = some "" := by
    rw [Text.split, hjoin, show cs ++ ['/'] ++ "".toList = cs ++ '/' :: [] by simp,
      Text.splitChars_append_cons, List.map_append, List.getLast?_append]
    rfl
  unfold steps at hwalk
  dsimp only at hwalk
  rw [hlast, show (Text.split '/' (Path.join dir "")).filter (fun piece => !piece.isEmpty) =
    Path.named (Path.join dir "") from rfl] at hwalk
  by_cases hnamed : Path.named (Path.join dir "") = []
  · -- nothing but slashes leads to the root
    have habsolute : Path.isAbsolute (Path.join dir "") = true :=
      Bool.of_not_eq_false fun hrelative => Path.named_ne_nil hrelative hpath hnamed
    unfold base at hwalk
    rw [habsolute, hnamed] at hwalk
    obtain rfl : [] = place := Except.ok.inj hwalk
    cases hentry
  · rw [show (Path.named (Path.join dir "")).isEmpty = false by simpa using hnamed] at hwalk
    cases (walk_concat_dot_eq_ok.1 hwalk).2.symm.trans hentry

/-- A path that is too long leads to no file. -/
theorem isFile_of_long (h : maxPathSize < path.utf8ByteSize) : fs.isFile path = false := by
  rw [Bool.eq_false_iff]
  intro hfile
  obtain ⟨place, _, hlocate, -⟩ := isFile_iff.1 hfile
  obtain ⟨hfault, -⟩ := locate_eq_ok.1 hlocate
  unfold fault? at hfault
  rw [if_pos h] at hfault
  split at hfault
  · cases hfault
  · split at hfault
    · cases hfault
    · cases hfault

/-- **Directories that are the same path have the same files in them**, as far as the paths of these
are not too long. -/
theorem isFile_join_of_same (h : Path.same a b = true) (hrelative : Path.isAbsolute name = false)
    (ha : (Path.join a name).utf8ByteSize ≤ maxPathSize)
    (hb : (Path.join b name).utf8ByteSize ≤ maxPathSize) :
    fs.isFile (Path.join a name) = fs.isFile (Path.join b name) := by
  by_cases hname : name = ""
  · rw [hname, isFile_join_empty, isFile_join_empty]
  obtain ⟨habsolute, honward⟩ := Path.eq_of_same h
  have hnul : holdsNul a = holdsNul b := by
    rw [Bool.eq_iff_iff, holdsNul_iff, holdsNul_iff, honward]
  have hfault : fault? (Path.join a name) = fault? (Path.join b name) := by
    rw [fault?_join hrelative hname, fault?_join hrelative hname, hnul, if_neg (Nat.not_lt.2 ha),
      if_neg (Nat.not_lt.2 hb)]
  have hlocate (place : Location) : fs.locate (Path.join a name) = .ok place ↔
      fs.locate (Path.join b name) = .ok place := by
    obtain ⟨hsteps, hmore⟩ := @Path.steps_join a name hrelative hname
    obtain ⟨hsteps', -⟩ := @Path.steps_join b name hrelative hname
    rw [locate_eq_ok, locate_eq_ok, hfault, hsteps, hsteps', ← walk_onward hmore,
      ← walk_onward hmore, honward]
    unfold base
    rw [Path.isAbsolute_join hrelative, Path.isAbsolute_join hrelative, habsolute]
  rw [Bool.eq_iff_iff, isFile_iff, isFile_iff]
  simp only [hlocate]

end Files

/-! ## Directories that are kept -/

namespace Script

/-- **What is kept of some directories** after others have been: those that are the same path as
none that has been kept already, in their order. -/
inductive Keeps : List String → List String → List String → Prop where
  /-- There is none left. -/
  | none (kept : List String) : Keeps kept [] []
  /-- One that has been kept already is dropped. -/
  | dropped {kept dirs tail : List String} {dir : String}
      (h : ∃ other ∈ kept, Path.same other dir = true) (hrest : Keeps kept dirs tail) :
      Keeps kept (dir :: dirs) tail
  /-- Any other is kept. -/
  | added {kept dirs tail : List String} {dir : String}
      (h : ∀ other ∈ kept, Path.same other dir = false) (hrest : Keeps (kept ++ [dir]) dirs tail) :
      Keeps kept (dir :: dirs) (dir :: tail)

variable {kept dirs tail : List String}

theorem exists_keeps (kept dirs : List String) :
    ∃ tail, addMissing kept dirs = kept ++ tail ∧ Keeps kept dirs tail := by
  induction dirs generalizing kept with
  | nil => exact ⟨[], (List.append_nil kept).symm, .none kept⟩
  | cons dir dirs ih =>
    unfold addMissing at ih ⊢
    rw [List.foldl_cons]
    cases hany : kept.any (Path.same · dir) with
    | true =>
      obtain ⟨tail, htail, hkeeps⟩ := ih kept
      exact ⟨tail, htail, .dropped (List.any_eq_true.1 hany) hkeeps⟩
    | false =>
      obtain ⟨tail, htail, hkeeps⟩ := ih (kept ++ [dir])
      refine ⟨dir :: tail, ?_, .added (fun other hother => ?_) hkeeps⟩
      · rw [if_neg Bool.false_ne_true, htail, List.append_assoc]
        rfl
      · exact Bool.eq_false_iff.2 (List.any_eq_false.1 hany other hother)

/-- Nothing else is kept. -/
theorem Keeps.unique {other : List String} (h : Keeps kept dirs tail)
    (hother : Keeps kept dirs other) : other = tail := by
  induction h generalizing other with
  | none kept =>
    cases hother
    rfl
  | dropped hsame _ ih =>
    cases hother with
    | dropped _ hrest => exact ih hrest
    | added hnone _ =>
      obtain ⟨k, hk, hsame⟩ := hsame
      cases hsame.symm.trans (hnone k hk)
  | added hnone _ ih =>
    cases hother with
    | dropped hsame _ =>
      obtain ⟨k, hk, hsame⟩ := hsame
      cases hsame.symm.trans (hnone k hk)
    | added _ hrest => rw [ih hrest]

theorem addMissing_eq (h : Keeps kept dirs tail) : addMissing kept dirs = kept ++ tail := by
  obtain ⟨other, heq, hother⟩ := exists_keeps kept dirs
  rw [heq, h.unique hother]

/-- What is kept is there, in its order. -/
theorem Keeps.sublist (h : Keeps kept dirs tail) : tail.Sublist dirs := by
  induction h with
  | none kept => exact .slnil
  | dropped _ _ ih => exact ih.cons _
  | added _ _ ih => exact ih.cons_cons _

/-- **It is no other spelling of what was kept before**, -/
theorem Keeps.apart (h : Keeps kept dirs tail) :
    ∀ other ∈ kept, ∀ dir ∈ tail, Path.same other dir = false := by
  induction h with
  | none kept => exact fun _ _ _ hdir => absurd hdir List.not_mem_nil
  | dropped _ _ ih => exact ih
  | added hnone _ ih =>
    intro other hother dir hdir
    obtain rfl | hdir := List.mem_cons.1 hdir
    · exact hnone other hother
    · exact ih other (List.mem_append_left _ hother) dir hdir

/-- **nor of any other that is kept.** -/
theorem Keeps.pairwise (h : Keeps kept dirs tail) :
    tail.Pairwise fun first later => Path.same first later = false := by
  induction h with
  | none kept => exact .nil
  | dropped _ _ ih => exact ih
  | added _ hrest ih =>
    exact .cons
      (fun dir hdir => hrest.apart _ (List.mem_append_right _ List.mem_cons_self) dir hdir) ih

/-- **Every directory is kept in one spelling.** -/
theorem Keeps.covers (h : Keeps kept dirs tail) :
    ∀ dir ∈ dirs, ∃ other ∈ kept ++ tail, Path.same other dir = true := by
  induction h with
  | none kept => exact fun _ hdir => absurd hdir List.not_mem_nil
  | dropped hsame _ ih =>
    intro dir hdir
    obtain rfl | hdir := List.mem_cons.1 hdir
    · obtain ⟨other, hother, hsame⟩ := hsame
      exact ⟨other, List.mem_append_left _ hother, hsame⟩
    · exact ih dir hdir
  | added _ _ ih =>
    intro dir hdir
    obtain rfl | hdir := List.mem_cons.1 hdir
    · exact ⟨_, List.mem_append_right _ List.mem_cons_self, Path.same_refl _⟩
    · obtain ⟨other, hother, hsame⟩ := ih dir hdir
      exact ⟨other, by simpa using hother, hsame⟩

/-- Directories of which none is another spelling are all kept. -/
theorem keeps_of_pairwise
    (hapart : ∀ other ∈ kept, ∀ dir ∈ dirs, Path.same other dir = false)
    (hpairwise : dirs.Pairwise fun first later => Path.same first later = false) :
    Keeps kept dirs dirs := by
  induction dirs generalizing kept with
  | nil => exact .none kept
  | cons dir dirs ih =>
    obtain ⟨hfirst, hrest⟩ := List.pairwise_cons.1 hpairwise
    refine .added (fun other hother => hapart other hother dir List.mem_cons_self)
      (ih (fun other hother later hlater => ?_) hrest)
    obtain hother | hother := List.mem_append.1 hother
    · exact hapart other hother later (List.mem_cons_of_mem _ hlater)
    · obtain rfl := List.mem_singleton.1 hother
      exact hfirst later hlater

/-- **What has been kept is kept again**, with the same in front. -/
theorem Keeps.again (h : Keeps kept dirs tail) : Keeps kept (kept ++ tail) tail := by
  have hfront : ∀ front, (∀ dir ∈ front, dir ∈ kept) → Keeps kept (front ++ tail) tail := by
    intro front hfront
    induction front with
    | nil => exact keeps_of_pairwise h.apart h.pairwise
    | cons dir front ih =>
      exact .dropped ⟨dir, hfront dir List.mem_cons_self, Path.same_refl dir⟩
        (ih fun other hother => hfront other (List.mem_cons_of_mem _ hother))
  exact hfront kept fun _ => id

/-- **A file that is in none of the directories in front is found as before.** -/
theorem Keeps.find? {files : Files} {name : String} (h : Keeps kept dirs tail)
    (hrelative : Path.isAbsolute name = false)
    (hsize : ∀ dir ∈ kept ++ dirs, (Path.join dir name).utf8ByteSize ≤ Files.maxPathSize)
    (hkept : ∀ dir ∈ kept, files.isFile (Path.join dir name) = false) :
    (tail.map (Path.join · name)).find? files.isFile =
      (dirs.map (Path.join · name)).find? files.isFile := by
  induction h with
  | none kept => rfl
  | @dropped kept dirs tail dir hsame hrest ih =>
    obtain ⟨other, hother, hsame⟩ := hsame
    have hnone : files.isFile (Path.join dir name) = false := by
      rw [← hkept other hother]
      exact (Files.isFile_join_of_same hsame hrelative
        (hsize other (List.mem_append_left _ hother)) (hsize dir (by simp))).symm
    rw [List.map_cons, List.find?_cons_of_neg (by simp [hnone])]
    exact ih (fun dir hdir => hsize dir (by
      obtain hdir | hdir := List.mem_append.1 hdir
      · exact List.mem_append_left _ hdir
      · exact List.mem_append_right _ (List.mem_cons_of_mem _ hdir))) hkept
  | @added kept dirs tail dir hnone hrest ih =>
    rw [List.map_cons, List.map_cons]
    cases hfile : files.isFile (Path.join dir name) with
    | true => rw [List.find?_cons_of_pos hfile, List.find?_cons_of_pos hfile]
    | false =>
      rw [List.find?_cons_of_neg (by simp [hfile]), List.find?_cons_of_neg (by simp [hfile])]
      refine ih (fun dir hdir => hsize dir (by simpa using hdir)) fun other hother => ?_
      obtain hother | hother := List.mem_append.1 hother
      · exact hkept other hother
      · rwa [List.mem_singleton.1 hother]

end Script

/-! ## Loading -/

namespace Run

/-- **Loading a script step by step**: the script is read, the search path is made of the
directories of the earlier one, and two global variables are bound. -/
def loadScript (path : String) : Run Tag := do
  let files ← look (·.world.files)
  let tag ← ofExcept (Script.ofFile files path)
  let dir := Script.directory path
  changeWorld fun w =>
    { w with searchPath := Script.addMissing [dir, w.workingDir] w.searchPath }
  change (·.setGlobal Reserved.scriptName (.str (Path.stem path)))
  change (·.setGlobal Reserved.workingDir (.str dir))
  pure tag

/-- **It is a load of the world**, and a load that fails has changed nothing. -/
theorem loadScript_eq (path : String) (s : Frame) : loadScript path s =
    match s.world.load path with
    | .ok (tag, w) => .done tag { s with world := w }
    | .error cause => .failed (.of cause) s := by
  unfold World.load
  show (ofExcept (Script.ofFile s.world.files path) >>= _) s = _
  cases Script.ofFile s.world.files path with
  | error cause => rfl
  | ok tag => rfl

end Run

namespace World

/-- **The world after an attempt to load a script.** -/
def afterLoad (w : World) (path : String) : World := (Run.loadScript path ⟨.empty, w⟩).after.world

variable {u v w : World} {path : String} {tag : Tag}

theorem afterLoad_of_ok (h : v.load path = .ok (tag, u)) : v.afterLoad path = u := by
  unfold afterLoad
  rw [Run.loadScript_eq, h]
  rfl

theorem afterLoad_of_error {cause : Cause} (h : v.load path = .error cause) :
    v.afterLoad path = v := by
  unfold afterLoad
  rw [Run.loadScript_eq, h]
  rfl

theorem load_eq_ok : v.load path = .ok (tag, u) ↔
    Script.ofFile v.files path = .ok tag ∧ u = v.pointAt path := by
  unfold load
  cases Script.ofFile v.files path with
  | error cause => simp [Except.map]
  | ok other => simp [Except.map, eq_comm]

/-- **What a load makes of the search path**: it begins with the directory of the script and the
working directory, and goes on with directories searched before. -/
structure LedBy (v u : World) (path : String) (tail : List String) : Prop where
  /-- These come after the two in front. -/
  front : u.searchPath = Script.directory path :: v.workingDir :: tail
  /-- Those are kept that are the same path as none that has been kept already. -/
  keeps : Script.Keeps [Script.directory path, v.workingDir] v.searchPath tail
  /-- They stand in their old order. -/
  sublist : tail.Sublist v.searchPath
  /-- None of them is another spelling of one in front, -/
  apart : ∀ dir ∈ tail, Path.same (Script.directory path) dir = false ∧
    Path.same v.workingDir dir = false
  /-- nor of another one of them. -/
  pairwise : tail.Pairwise fun first later => Path.same first later = false
  /-- No directory is lost. -/
  covers : ∀ dir ∈ v.searchPath, ∃ other ∈ u.searchPath, Path.same other dir = true

theorem searchPath_pointAt (v : World) (path : String) : (v.pointAt path).searchPath =
    Script.addMissing [Script.directory path, v.workingDir] v.searchPath := rfl

theorem exists_ledBy (v : World) (path : String) : ∃ tail, v.LedBy (v.pointAt path) path tail := by
  obtain ⟨tail, htail, hkeeps⟩ :=
    Script.exists_keeps [Script.directory path, v.workingDir] v.searchPath
  refine ⟨tail, htail, hkeeps, hkeeps.sublist, fun dir hdir => ⟨?_, ?_⟩, hkeeps.pairwise,
    fun dir hdir => ?_⟩
  · exact hkeeps.apart _ List.mem_cons_self dir hdir
  · exact hkeeps.apart _ (List.mem_cons_of_mem _ List.mem_cons_self) dir hdir
  · obtain ⟨other, hother, hsame⟩ := hkeeps.covers dir hdir
    refine ⟨other, ?_, hsame⟩
    rwa [searchPath_pointAt, htail]

/-- A second load of a script leaves the search path. -/
theorem searchPath_pointAt_pointAt (v : World) (path : String) :
    ((v.pointAt path).pointAt path).searchPath = (v.pointAt path).searchPath := by
  obtain ⟨tail, hled⟩ := exists_ledBy v path
  rw [searchPath_pointAt, hled.front]
  exact Script.addMissing_eq hled.keeps.again

theorem resolve_of_relative (w : World) {name : String} (h : Path.isAbsolute name = false) :
    w.resolve name =
      ((w.searchPath.map (Path.join · name)).find? w.files.isFile).getD name :=
  if_neg (by rw [h]; decide)

/-- **Where a name is found after a load.** -/
theorem resolve_of_ledBy {tail : List String} (h : v.LedBy u path tail)
    (hfiles : u.files = v.files) {name : String} (hrelative : Path.isAbsolute name = false)
    (hsize : ∀ dir ∈ Script.directory path :: v.workingDir :: v.searchPath,
      (Path.join dir name).utf8ByteSize ≤ Files.maxPathSize) :
    u.resolve name =
      if v.files.isFile (Path.join (Script.directory path) name) then
        Path.join (Script.directory path) name
      else if v.files.isFile (Path.join v.workingDir name) then Path.join v.workingDir name
      else v.resolve name := by
  rw [resolve_of_relative u hrelative, resolve_of_relative v hrelative, h.front, hfiles,
    List.map_cons, List.map_cons]
  cases hdir : v.files.isFile (Path.join (Script.directory path) name) with
  | true =>
    rw [List.find?_cons_of_pos hdir]
    rfl
  | false =>
    rw [List.find?_cons_of_neg (by simp [hdir]), if_neg Bool.false_ne_true]
    cases hcwd : v.files.isFile (Path.join v.workingDir name) with
    | true =>
      rw [List.find?_cons_of_pos hcwd]
      rfl
    | false =>
      rw [List.find?_cons_of_neg (by simp [hcwd]), if_neg Bool.false_ne_true,
        h.keeps.find? hrelative hsize]
      intro dir hmem
      obtain rfl | hmem := List.mem_cons.1 hmem
      · exact hdir
      · rw [List.mem_singleton.1 hmem]
        exact hcwd

/-- The world after attempts to load the scripts at some paths, one after the other. -/
def afterLoads (w : World) (paths : List String) : World := paths.foldl afterLoad w

/-- **No directory is lost in any number of loads.** -/
theorem covers_afterLoads (w : World) (paths : List String) :
    ∀ dir ∈ w.searchPath, ∃ other ∈ (w.afterLoads paths).searchPath,
      Path.same other dir = true := by
  induction paths generalizing w with
  | nil => exact fun dir hdir => ⟨dir, hdir, Path.same_refl dir⟩
  | cons path paths ih =>
    intro dir hdir
    obtain ⟨other, hother, hsame⟩ : ∃ other ∈ (w.afterLoad path).searchPath,
        Path.same other dir = true := by
      cases hload : w.load path with
      | error cause =>
        rw [afterLoad_of_error hload]
        exact ⟨dir, hdir, Path.same_refl dir⟩
      | ok loaded =>
        obtain ⟨tail, hled⟩ := exists_ledBy w path
        rw [afterLoad_of_ok hload, (load_eq_ok.1 hload).2]
        exact hled.covers dir hdir
    obtain ⟨third, hthird, hsame'⟩ := ih (w.afterLoad path) other hother
    exact ⟨third, hthird, Path.same_iff.2 ((Path.same_iff.1 hsame').trans (Path.same_iff.1 hsame))⟩

/-- **The search path across loads of scripts.** After any number of attempts to load scripts no
directory of the search path is lost. The next load, if it succeeds, puts the directory of its
script and the working directory in front of those searched before, which it keeps in their order
and without repetitions; to load the script once more leaves the search path. A relative name is
then the file in the directory of the script, or else that in the working directory, or else what
it was before, as long as the paths that are tried are no longer than the system allows. A load
that fails leaves everything as it was. -/
theorem loads_lead_searches (w : World) (paths : List String) (path : String) :
    (∀ dir ∈ w.searchPath, ∃ other ∈ (w.afterLoads paths).searchPath,
      Path.same other dir = true) ∧
    (∀ tag u, (w.afterLoads paths).load path = .ok (tag, u) →
      (w.afterLoads paths).afterLoad path = u ∧
      (∃ tail, (w.afterLoads paths).LedBy u path tail) ∧
      (∃ u', u.load path = .ok (tag, u') ∧ u'.searchPath = u.searchPath) ∧
      ∀ name, Path.isAbsolute name = false →
        (∀ dir ∈ Script.directory path :: (w.afterLoads paths).workingDir ::
            (w.afterLoads paths).searchPath,
          (Path.join dir name).utf8ByteSize ≤ Files.maxPathSize) →
        u.resolve name =
          if u.files.isFile (Path.join (Script.directory path) name) then
            Path.join (Script.directory path) name
          else if u.files.isFile (Path.join u.workingDir name) then Path.join u.workingDir name
          else (w.afterLoads paths).resolve name) ∧
    ∀ cause, (w.afterLoads paths).load path = .error cause →
      (w.afterLoads paths).afterLoad path = w.afterLoads paths := by
  refine ⟨covers_afterLoads w paths, fun tag u hload => ?_, fun cause => afterLoad_of_error⟩
  obtain ⟨hfile, rfl⟩ := load_eq_ok.1 hload
  obtain ⟨tail, hled⟩ := exists_ledBy (w.afterLoads paths) path
  refine ⟨afterLoad_of_ok hload, ⟨tail, hled⟩,
    ⟨_, load_eq_ok.2 ⟨hfile, rfl⟩, searchPath_pointAt_pointAt _ path⟩,
    fun name hrelative hsize => ?_⟩
  exact resolve_of_ledBy hled rfl hrelative hsize

/-- A world with a script, and with a file in one of two directories that are searched, the one
given with a dot at its end and the other with a slash. -/
def furnished : World :=
  { World.ofFiles (((Files.empty []).makeFile ["a", "s.xml"] (.text "<root/>")).makeFile
      ["b", "rows.csv"] (.text "x\n")) "" .bare with searchPath := ["b/.", "a/"] }

/-- The script is loaded from one of the directories, of which the other spelling is dropped, and
the file is found in the other directory as before. -/
theorem furnished_leads_searches :
    (∃ tag u, (furnished.afterLoads ["missing.xml"]).load "a/s.xml" = .ok (tag, u) ∧
      u.searchPath = ["a", "/", "b/."] ∧ Path.isAbsolute "rows.csv" = false ∧
      (∀ dir ∈ ["a", "/", "b/.", "a/"],
        (Path.join dir "rows.csv").utf8ByteSize ≤ Files.maxPathSize) ∧
      u.resolve "rows.csv" = furnished.resolve "rows.csv") ∧
    ∃ cause, furnished.load "missing.xml" = .error cause ∧
      furnished.afterLoad "missing.xml" = furnished := by
  have hmissing : furnished.load "missing.xml" =
      .error (.cannotReadScript "missing.xml" .missing) := rfl
  have hfailed := (loads_lead_searches furnished [] "missing.xml").2.2 _ hmissing
  have hafter : furnished.afterLoads ["missing.xml"] = furnished := hfailed
  obtain ⟨tag, u, hload⟩ : ∃ tag u, furnished.load "a/s.xml" = .ok (tag, u) := ⟨_, _, rfl⟩
  have hu : u.searchPath = ["a", "/", "b/."] ∧ u.files = furnished.files := by
    rw [(load_eq_ok.1 hload).2]
    exact ⟨by decide +kernel, rfl⟩
  have hagain : (furnished.afterLoads ["missing.xml"]).load "a/s.xml" = .ok (tag, u) :=
    hafter.symm ▸ hload
  obtain ⟨-, -, -, hresolve⟩ :=
    (loads_lead_searches furnished ["missing.xml"] "a/s.xml").2.1 tag u hagain
  have hsize : ∀ dir ∈ ["a", "/", "b/.", "a/"],
      (Path.join dir "rows.csv").utf8ByteSize ≤ Files.maxPathSize := by decide +kernel
  refine ⟨⟨tag, u, hagain, hu.1, rfl, hsize, ?_⟩, _, hmissing, hfailed⟩
  rw [hafter] at hresolve
  refine (hresolve "rows.csv" rfl hsize).trans ?_
  unfold workingDir
  rw [hu.2]
  decide +kernel

/-! ### Directories spelled at length -/

/-- As many slashes. -/
def slashes : Nat → String
  | 0 => ""
  | n + 1 => "/" ++ slashes n

theorem utf8ByteSize_slashes (n : Nat) : (slashes n).utf8ByteSize = n := by
  induction n with
  | zero => rfl
  | succ n ih =>
    rw [slashes, String.utf8ByteSize_append, ih]
    exact Nat.add_comm _ _

theorem toList_slashes (n : Nat) : (slashes n).toList = List.replicate n '/' := by
  induction n with
  | zero => rfl
  | succ n ih =>
    rw [slashes, String.toList_append, ih]
    rfl

/-- A directory in another one, spelled with so many slashes in between. -/
def detour (n : Nat) : String := "a" ++ slashes (n + 1) ++ "b"

/-- It is the same path however many they are. -/
theorem components_detour (n : Nat) : Path.components (detour n) = [.name "a", .name "b"] := by
  have hsplit (m : Nat) : Text.splitChars '/' (List.replicate m '/' ++ ['b']) =
      List.replicate m [] ++ [['b']] := by
    induction m with
    | zero => rfl
    | succ m ih =>
      rw [List.replicate_succ, List.cons_append, Text.splitChars, if_pos rfl, ih]
      rfl
  have htext : (detour n).toList = 'a' :: (List.replicate (n + 1) '/' ++ ['b']) := by
    rw [detour, String.toList_append, String.toList_append, toList_slashes]
    rfl
  have hpieces : Text.split '/' (detour n) = "a" :: (List.replicate n "" ++ ["b"]) := by
    rw [Text.split, htext, Text.splitChars, if_neg (by decide), hsplit]
    simp [List.replicate_succ]
  have hrelative : Path.isAbsolute (detour n) = false := by
    rw [Path.isAbsolute, htext]
    rfl
  unfold Path.components
  rw [hpieces, hrelative]
  simp [Path.Component.ofPiece?]

/-- A world in which a directory is searched twice, spelled at length and in short. -/
def roundabout : World :=
  { World.ofFiles (((Files.empty []).makeFile ["s.xml"] (.text "<root/>")).makeFile
      ["a", "b", "rows.csv"] (.text "x\n")) "" .bare with searchPath := [detour 4086, "a/b"] }

/-- **A directory is dropped for a spelling of it that is too long to be followed any further**: the
name of the file in it is found before the load, and no more afterwards. -/
theorem long_directory_hides_file :
    roundabout.resolve "rows.csv" = "a/b/rows.csv" ∧
    ∃ tag u, roundabout.load "s.xml" = .ok (tag, u) ∧
      u.files.isFile (Path.join (Script.directory "s.xml") "rows.csv") = false ∧
      u.files.isFile (Path.join u.workingDir "rows.csv") = false ∧
      u.resolve "rows.csv" ≠ roundabout.resolve "rows.csv" := by
  have hjoin : Path.join (detour 4086) "rows.csv" = detour 4086 ++ "/" ++ "rows.csv" := by
    unfold Path.join
    rw [if_neg (by decide), if_neg]
    rw [detour, String.toList_append, List.getLast?_append]
    simp [String.isEmpty_iff, String.append_eq_empty_iff]
  have hlong : (Path.join (detour 4086) "rows.csv").utf8ByteSize = 4098 := by
    rw [hjoin, detour]
    simp only [String.utf8ByteSize_append, utf8ByteSize_slashes]
    decide
  have hhidden : roundabout.files.isFile (Path.join (detour 4086) "rows.csv") = false :=
    Files.isFile_of_long (by rw [hlong]; decide)
  have hshort : roundabout.files.isFile (Path.join "a/b" "rows.csv") = true := by
    unfold roundabout
    decide +kernel
  have hbefore : roundabout.resolve "rows.csv" = "a/b/rows.csv" := by
    rw [resolve_of_relative _ (by decide)]
    show ([Path.join (detour 4086) "rows.csv", Path.join "a/b" "rows.csv"].find?
      roundabout.files.isFile).getD _ = _
    rw [List.find?_cons_of_neg (by simp [hhidden]), List.find?_cons_of_pos hshort]
    decide +kernel
  obtain ⟨tag, u, hload⟩ : ∃ tag u, roundabout.load "s.xml" = .ok (tag, u) := ⟨_, _, rfl⟩
  obtain rfl := (load_eq_ok.1 hload).2
  have hkeeps : Script.Keeps [".", "/"] [detour 4086, "a/b"] [detour 4086] := by
    refine .added ?_ (.dropped ⟨detour 4086, by simp, ?_⟩ (.none _))
    · unfold Path.same
      rw [components_detour]
      decide +kernel
    · unfold Path.same
      rw [components_detour]
      decide +kernel
  have hdir : Script.directory "s.xml" = "." := by decide +kernel
  have hcwd : roundabout.workingDir = "/" := by decide +kernel
  have hsearch : (roundabout.pointAt "s.xml").searchPath = [".", "/", detour 4086] := by
    rw [searchPath_pointAt, hdir, hcwd,
      show roundabout.searchPath = [detour 4086, "a/b"] from rfl, Script.addMissing_eq hkeeps,
      List.cons_append, List.singleton_append]
  have hhere : roundabout.files.isFile (Path.join "." "rows.csv") = false := by
    unfold roundabout
    decide +kernel
  have hroot : roundabout.files.isFile (Path.join "/" "rows.csv") = false := by
    unfold roundabout
    decide +kernel
  have hafter : (roundabout.pointAt "s.xml").resolve "rows.csv" = "rows.csv" := by
    rw [resolve_of_relative _ (by decide), hsearch]
    show ([Path.join "." "rows.csv", Path.join "/" "rows.csv",
      Path.join (detour 4086) "rows.csv"].find? roundabout.files.isFile).getD _ = _
    rw [List.find?_cons_of_neg (by simp [hhere]), List.find?_cons_of_neg (by simp [hroot]),
      List.find?_cons_of_neg (by simp [hhidden])]
    rfl
  refine ⟨hbefore, tag, _, hload, by rw [hdir]; exact hhere, ?_, ?_⟩
  · show roundabout.files.isFile (Path.join roundabout.workingDir "rows.csv") = false
    rw [hcwd]
    exact hroot
  · rw [hafter, hbefore]
    decide +kernel

end World

end TagScript
