import TagScript.Proofs.Isolation

/-!
# What is written to a file is read from it

A path that can be written to ends with a name in a directory that is
there. Reading along the same path comes to the same place, and finds what
was written; writing again comes there too. A file put somewhere stands in
nobody's way: no path led through its place, because no directory was
there.

A name in the first directory of the search path is found there before it
is looked for elsewhere, so a runner that reads by name what another one
has written by name reads that very file.
-/

namespace TagScript

namespace Files

variable {fs : Files} {place other start : Location} {path : String} {content : Content}

/-! ## What stands where after an entry has been put -/

theorem lookup_insertEntry (place other : Location) (entry : Entry)
    (entries : List (Location × Entry)) :
    (insertEntry place entry entries).lookup other =
      if other = place then some entry else entries.lookup other := by
  induction entries with
  | nil =>
    by_cases h : other = place
    · simp [insertEntry, h]
    · simp [insertEntry, List.lookup_cons, h, beq_false_of_ne h]
  | cons first rest ih =>
    obtain ⟨at_, old⟩ := first
    unfold insertEntry
    split
    · next hsame =>
      subst hsame
      by_cases h : other = at_
      · simp [h]
      · simp [List.lookup_cons, h, beq_false_of_ne h]
    · next hsame =>
      split
      · by_cases h : other = place
        · simp [h]
        · simp [List.lookup_cons, h, beq_false_of_ne h]
      · by_cases h : other = at_
        · have hne : other ≠ place := fun heq => hsame (h.symm.trans heq)
          subst h
          simp [hne]
        · simp [List.lookup_cons, beq_false_of_ne h, ih]

theorem entry?_put_self (h : place ≠ []) (fs : Files) (entry : Entry) :
    Files.entry? (fs.put place entry) place = some entry := by
  simp [ entry?, put, h, lookup_insertEntry]

theorem entry?_put_of_ne (h : other ≠ place) (fs : Files) (entry : Entry) :
    Files.entry? (fs.put place entry) other = fs.entry? other := by
  simp [ entry?, put, h, lookup_insertEntry]

/-! ## Paths after a file has been put -/

/-- What is not a directory is not the root. -/
theorem ne_nil_of_not_directory (h : fs.entry? place ≠ some .directory) : place ≠ [] := by
  rintro rfl
  exact h rfl

/-- A step is taken from a directory, by a name that is not too long. -/
theorem walk_cons_eq_ok {step : String} {rest : List String} {dest : Location} :
    fs.walk start (step :: rest) = .ok dest ↔
      fs.entry? start = some .directory ∧ step.utf8ByteSize ≤ maxNameSize ∧
        fs.walk (move start step) rest = .ok dest := by
  rw [walk]
  split
  · next h => simp [h]
  · next h => simp [h]
  · next h => simp [h]
  · next h =>
    rw [h]
    split
    · next hsize => simp [Nat.not_le.2 hsize]
    · next hsize => simp [Nat.le_of_not_lt hsize]

/-- **Steps are taken one after the other.** -/
theorem walk_append_eq_ok {steps more : List String} {dest : Location} :
    fs.walk start (steps ++ more) = .ok dest ↔
      ∃ mid, fs.walk start steps = .ok mid ∧ fs.walk mid more = .ok dest := by
  induction steps generalizing start with
  | nil => simp [walk]
  | cons step rest ih =>
    rw [List.cons_append, walk_cons_eq_ok, ih]
    simp [walk_cons_eq_ok, and_assoc]

/-- **A dot at the end asks for a directory.** -/
theorem walk_concat_dot_eq_ok {steps : List String} {dest : Location} :
    fs.walk start (steps ++ ["."]) = .ok dest ↔
      fs.walk start steps = .ok dest ∧ fs.entry? dest = some .directory := by
  rw [walk_append_eq_ok]
  constructor
  · rintro ⟨mid, hmid, hdot⟩
    obtain ⟨hdir, -, hstay⟩ := walk_cons_eq_ok.1 hdot
    obtain rfl : mid = dest := Except.ok.inj hstay
    exact ⟨hmid, hdir⟩
  · rintro ⟨hdest, hdir⟩
    exact ⟨dest, hdest, walk_cons_eq_ok.2 ⟨hdir, by decide, rfl⟩⟩

/-- **A file put where no directory is turns no path away.** -/
theorem walk_put (hplace : fs.entry? place ≠ some .directory) (content : Content)
    {steps : List String} {dest : Location} (h : fs.walk start steps = .ok dest) :
    (fs.put place (.file content)).walk start steps = .ok dest := by
  induction steps generalizing start with
  | nil => exact h
  | cons step rest ih =>
    obtain ⟨hdir, hsize, hrest⟩ := walk_cons_eq_ok.1 h
    have hne : start ≠ place := by
      rintro rfl
      exact hplace hdir
    exact walk_cons_eq_ok.2 ⟨(entry?_put_of_ne hne fs _).trans hdir, hsize, ih hrest⟩

/-! ## Paths that can be written to -/

/-- **Where a path leads a writer**: into a directory that is there, with a
name at its end under which no directory stands. -/
structure Aims (fs : Files) (path : String) (dir : Location) (name : String) : Prop where
  /-- The path can lead somewhere. -/
  sound : fault? path = none
  /-- It does not ask for a directory. -/
  plain : (path.toList.getLast? == some '/') = false
  /-- It ends with the name. -/
  last : (steps path).getLast? = some name
  /-- What is in front of the name leads to the directory. -/
  front : fs.walk (fs.base path) ((steps path).dropLast ++ ["."]) = .ok dir
  /-- The name is a name. -/
  named : ¬(name = "." ∨ name = "..")
  /-- It is not too long. -/
  short : name.utf8ByteSize ≤ maxNameSize
  /-- What it stands for is not a directory. -/
  free : fs.entry? (dir ++ [name]) ≠ some .directory

theorem Aims.target {dir : Location} {name : String} (h : fs.Aims path dir name) :
    fs.target path = .ok (dir ++ [name]) := by
  unfold Files.target
  rw [h.sound, h.plain]
  simp only [Bool.false_eq_true, if_false, or_false]
  rw [h.front, h.last]
  dsimp only
  rw [if_neg h.named, if_neg (Nat.not_lt.2 h.short)]
  split
  · next hentry => exact absurd hentry h.free
  · rfl

theorem exists_aims (h : fs.target path = .ok place) :
    ∃ dir name, fs.Aims path dir name ∧ place = dir ++ [name] := by
  unfold Files.target at h
  cases hfault : fault? path with
  | some refusal =>
    rw [hfault] at h
    cases h
  | none =>
    rw [hfault] at h
    dsimp only at h
    split at h
    · cases h
    · next dir hdir =>
      split at h
      · cases h
      · next name hname =>
        split at h
        · cases h
        · next hdots =>
          simp only [not_or, Bool.not_eq_true] at hdots
          obtain ⟨hdot, hup, hslash⟩ := hdots
          simp only [hslash, Bool.false_eq_true, if_false] at hdir hname
          split at h
          · cases h
          · next hsize =>
            split at h
            · cases h
            · next hentry =>
              obtain rfl := Except.ok.inj h
              exact ⟨dir, name, ⟨hfault, hslash, hname, hdir, not_or.2 ⟨hdot, hup⟩,
                Nat.le_of_not_lt hsize, hentry⟩, rfl⟩

/-- **Reading goes where writing went.** -/
theorem locate_of_target (h : fs.target path = .ok place) : fs.locate path = .ok place := by
  obtain ⟨dir, name, haims, rfl⟩ := exists_aims h
  obtain ⟨hfirst, hdir⟩ := walk_concat_dot_eq_ok.1 haims.front
  obtain ⟨front, hsteps⟩ := List.getLast?_eq_some_iff.1 haims.last
  have hfront : (steps path).dropLast = front := by
    rw [hsteps]
    exact List.dropLast_concat
  have hmove : move dir name = dir ++ [name] := by
    obtain ⟨hdot, hup⟩ := not_or.1 haims.named
    rw [move, if_neg hdot, if_neg hup]
  unfold locate
  rw [haims.sound, hsteps]
  rw [hfront] at hfirst
  exact walk_append_eq_ok.2
    ⟨dir, hfirst, walk_cons_eq_ok.2 ⟨hdir, haims.short, congrArg Except.ok hmove⟩⟩

theorem not_directory_of_target (h : fs.target path = .ok place) :
    fs.entry? place ≠ some .directory := by
  obtain ⟨dir, name, haims, rfl⟩ := exists_aims h
  exact haims.free

/-- A file put somewhere leaves the ways of writers as they were. -/
theorem target_put (hplace : fs.entry? place ≠ some .directory) (content : Content)
    (h : fs.target path = .ok other) : (fs.put place (.file content)).target path = .ok other := by
  obtain ⟨dir, name, haims, rfl⟩ := exists_aims h
  have hfree :
      Files.entry? (fs.put place (.file content)) (dir ++ [name]) ≠ some .directory := by
    by_cases heq : dir ++ [name] = place
    · rw [heq, entry?_put_self (ne_nil_of_not_directory hplace)]
      simp
    · rw [entry?_put_of_ne heq]
      exact haims.free
  exact Aims.target { haims with front := walk_put hplace content haims.front, free := hfree }

/-! ## Writing and reading again -/

/-- **A path that can be written to**, and the place it leads to: what is
written there stays there. -/
structure Writable (fs : Files) (path : String) (place : Location) : Prop where
  /-- The path leads a writer to the place. -/
  target : fs.target path = .ok place
  /-- The place is not the device that swallows everything. -/
  keeps : fs.entry? place ≠ some .device

/-- The store after a text was written to the file at a place. -/
def written (fs : Files) (mode : WriteMode) (place : Location) (text : Content → String) : Files :=
  let before := fs.opened mode place
  fs.put place (.file (before.append (text before)))

namespace Writable

variable (h : fs.Writable path place)
include h

theorem ne_nil : place ≠ [] := ne_nil_of_not_directory (not_directory_of_target h.target)

theorem write (mode : WriteMode) (text : Content → String) :
    fs.write mode path text = .ok (fs.written mode place text) := by
  unfold Files.write
  rw [h.target]
  dsimp only
  rw [if_neg h.keeps]
  rfl

/-- **A path that has been written to can be written to again.** -/
theorem put (content : Content) : (fs.put place (.file content)).Writable path place where
  target := target_put (not_directory_of_target h.target) content h.target
  keeps := by
    rw [entry?_put_self h.ne_nil]
    simp

theorem isFile (hentry : fs.entry? place = some (.file content)) : fs.isFile path = true := by
  unfold Files.isFile find?
  rw [locate_of_target h.target]
  dsimp only
  rw [hentry]

/-- **What stands at the place is what is read along the path.** -/
theorem readText {text : String} (hentry : fs.entry? place = some (.file (.text text))) :
    fs.readText path = .ok text := by
  unfold Files.readText read
  rw [locate_of_target h.target]
  dsimp only
  rw [hentry]

end Writable

end Files

namespace World

/-- A name whose file is in the first directory of the search path stands
for that file. -/
theorem resolve_of_isFile {w : World} {dir name : String} {rest : List String}
    (hdir : w.searchPath = dir :: rest) (hfile : w.files.isFile (Path.join dir name) = true) :
    w.resolve name = Path.join dir name := by
  unfold resolve
  split
  · next habsolute => rw [Path.join, if_pos habsolute]
  · rw [hdir, List.map_cons, List.find?_cons_of_pos hfile]
    rfl

/-- **A file in the first directory of the search path is read by its
name.** -/
theorem readText_resolve {w : World} {name dir text : String} {rest : List String}
    {place : Location} (hdir : w.searchPath = dir :: rest)
    (h : w.files.Writable (Path.join dir name) place)
    (hentry : w.files.entry? place = some (.file (.text text))) :
    w.files.readText (w.resolve name) = .ok text := by
  rw [resolve_of_isFile hdir (h.isFile hentry)]
  exact h.readText hentry

/-- Noting an event leaves the files alone. -/
@[simp] theorem files_note (w : World) (event : Event) : (w.note event).files = w.files := by
  unfold note
  split
  · rfl
  · rfl

@[simp] theorem searchPath_note (w : World) (event : Event) :
    (w.note event).searchPath = w.searchPath := by
  unfold note
  split
  · rfl
  · rfl

@[simp] theorem clock_note (w : World) (event : Event) : (w.note event).clock = w.clock := by
  unfold note
  split
  · rfl
  · rfl

/-! ## The file of an exception handler -/

section Handler

variable (w : World) (handler : Handler) (value : String → Value)

/-- What a handler does to the files. -/
theorem files_record :
    (w.record handler value).files =
      match w.files.write .append handler.path fun _ => Table.writeRecords .crlf
          (if w.files.isThere handler.path then [handler.columns.map fun column => (value column).text]
            else [handler.columns, handler.columns.map fun column => (value column).text]) with
      | .ok files => files
      | .error _ => w.files := by
  unfold record lock
  dsimp only
  split
  · next hwrite => rw [hwrite]
  · next hwrite => rw [hwrite]

/-- Beside the files a handler changes only the locks, in the same way
whether it can write or not. -/
theorem record_eq_with_files :
    w.record handler value = { w with
      files := (w.record handler value).files
      locks := w.locks.ask handler.path } := by
  unfold record lock
  dsimp only
  split
  · rfl
  · rfl

/-- **Where a handler can write** it adds a row, after a row of headings if
nothing was there. -/
theorem files_record_of_writable {w : World} {handler : Handler} {place : Location}
    (h : w.files.Writable handler.path place) (value : String → Value) :
    (w.record handler value).files = w.files.written .append place fun _ =>
      Table.writeRecords .crlf
        (if (w.files.entry? place).isSome then [handler.columns.map fun column => (value column).text]
          else [handler.columns, handler.columns.map fun column => (value column).text]) := by
  have hthere : w.files.isThere handler.path = (w.files.entry? place).isSome := by
    unfold Files.isThere Files.find?
    rw [Files.locate_of_target h.target]
  rw [files_record, h.write, hthere]

end Handler

end World

/-! ## Around a tag

Entering and leaving a tag touches no file and no variable that a script
may bind. -/

namespace Frame

variable {s : Frame} {tag : Tag} {depth outer : Depth} {key : String}

theorem ne_of_isReserved (h : Reserved.isReserved key = false) :
    key ≠ Reserved.depth ∧ key ≠ Reserved.logDatetime := by
  constructor
  · rintro rfl
    exact absurd h (by decide)
  · rintro rfl
    exact absurd h (by decide)

theorem get?_begin (h : Reserved.isReserved key = false) :
    (s.begin tag outer).locals.get? key = s.locals.get? key :=
  get?_begin_of_ne (ne_of_isReserved h).1 (ne_of_isReserved h).2

theorem lookup_begin (h : Reserved.isReserved key = false) :
    (s.begin tag outer).lookup key = s.lookup key :=
  lookup_begin_of_ne (ne_of_isReserved h).1 (ne_of_isReserved h).2

@[simp] theorem files_begin : (s.begin tag outer).world.files = s.world.files :=
  (World.files_note _ _).trans (World.files_note _ _)

@[simp] theorem searchPath_begin : (s.begin tag outer).world.searchPath = s.world.searchPath :=
  (World.searchPath_note _ _).trans (World.searchPath_note _ _)

@[simp] theorem clock_begin : (s.begin tag outer).world.clock = s.world.clock :=
  (World.clock_note _ _).trans (World.clock_note _ _)

@[simp] theorem files_leave (outcome : Outcome) :
    (s.leave tag depth outcome).world.files = s.world.files := World.files_note _ _

@[simp] theorem searchPath_leave (outcome : Outcome) :
    (s.leave tag depth outcome).world.searchPath = s.world.searchPath := World.searchPath_note _ _

@[simp] theorem clock_leave (outcome : Outcome) :
    (s.leave tag depth outcome).world.clock = s.world.clock := World.clock_note _ _

/-- The frame after a text was written to the file at a place, whose path
has been locked. -/
def written (s : Frame) (mode : Files.WriteMode) (path : String) (place : Location)
    (text : Content → String) : Frame :=
  { s with world := { s.world.lock path with files := s.world.files.written mode place text } }

end Frame

/-! ## Runners that read and write by name -/

namespace Run

variable {α : Type} {tag : Tag} {s : Frame}

/-- **A runner that writes where it can write goes on** from the frame in
which the text has been written. -/
theorem writeFile_of_writable {path : String} {place : Location}
    (h : s.world.files.Writable path place) (mode : Files.WriteMode) (text : Content → String)
    (refused : String → Refusal → Cause) :
    writeFile mode path text refused s = .done () (s.written mode path place text) :=
  writeFile_of_ok (h.write mode text)

/-- A known encoding is no obstacle. -/
theorem checkEncoding_of_contains
    (h : encodings.contains (Text.lower (s.attrKey tag "encoding")) = true) :
    checkEncoding tag s = .done () s := by
  show (if encodings.contains (Text.lower (s.attrKey tag "encoding")) = true then pure ()
    else fail (.encoding (Text.lower (s.attrKey tag "encoding"))) : Run Unit) s = _
  rw [if_pos h]
  rfl

theorem store_of_not_reserved {key : String} (h : Reserved.isReserved key = false) (value : Value)
    (s : Frame) : store key value false s = .done () (s.setLocal key value) := by
  unfold store
  rw [if_neg (Reserved.ne_procPrivilege h)]
  rfl

theorem checkTableType_of_csv
    (h : ((s.attrKey tag "type").isEmpty || Text.sameIgnoringCase (s.attrKey tag "type") "csv") =
      true) :
    checkTableType tag s = .done () s := by
  show (if ((s.attrKey tag "type").isEmpty ||
      Text.sameIgnoringCase (s.attrKey tag "type") "csv") = true then pure ()
    else fail (.fileType (s.attrKey tag "type")) : Run Unit) s = _
  rw [if_pos h]
  rfl

/-- Reading an attribute goes on with what it reads as. -/
theorem bind_attrKey (name : String) (f : String → Run α) :
    (attrKey tag name >>= f) s = f (s.attrKey tag name) s := rfl

theorem bind_attrText (name : String) (f : Option String → Run α) :
    (attrText tag name >>= f) s = f (s.attrText tag name) s := rfl

theorem requireKey_of_attrKey {name key : String} (h : s.attrKey tag name = key)
    (hnamed : key.isEmpty = false) : requireKey tag name s = .done key s := by
  unfold requireKey
  rw [bind_attrKey, h, hnamed]
  rfl

/-- Runners write into the first directory of the search path. -/
theorem outputPath_of_searchPath {dir : String} {rest : List String}
    (h : s.world.searchPath = dir :: rest) (name : String) :
    outputPath name s = .done (Path.join dir name) s := by
  show Ending.done (Path.join s.world.primaryDir name) s = _
  rw [World.primaryDir, h]
  rfl

end Run

end TagScript
