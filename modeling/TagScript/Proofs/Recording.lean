import TagScript.Proofs.Asking
import TagScript.Proofs.Trail

/-!
# What an exception handler records

Many tags fault for one that did: the tag itself, the blocks around it that
may not be aborted, the script. Each of these faults is noted, reported and
recorded, one after the other, by the handler that is in force where it
happens. A handler that is a local variable is in force wherever the run
goes, for all scopes are copies of the one that has it, unless some tag
assigns that variable; so its file tells of all faults of the run, of each
of them once, and in their order.

What a fault is charged with and what was in the variables then is a
`Mishap`. Between two frames of a run there lies a list of them, says
`Engine.Records`: it is what the journal has noted of faults meanwhile, and
what stands in the file beyond what stood there before.
-/

namespace TagScript

/-! ## Records added to a file -/

namespace Octets

/-- Listing the octets of an array from one on. -/
theorem toList_loop (bytes : ByteArray) (i : Nat) (before : List UInt8) :
    ByteArray.toList.loop bytes i before = before.reverse ++ bytes.data.toList.drop i := by
  generalize hleft : bytes.size - i = left
  induction left generalizing i before with
  | zero =>
    have hend : bytes.data.toList.length ≤ i := Nat.le_of_sub_eq_zero hleft
    rw [ByteArray.toList.loop, if_neg (by omega), List.drop_eq_nil_of_le hend, List.append_nil]
  | succ left ih =>
    have hi : i < bytes.size := by omega
    have hdrop : bytes.data.toList.drop i = bytes.get! i :: bytes.data.toList.drop (i + 1) := by
      rw [List.drop_eq_getElem_cons hi]
      congr 1
      exact (getElem!_pos bytes.data i hi).symm
    rw [ByteArray.toList.loop, if_pos hi, ih (i + 1) _ (by omega), hdrop, List.reverse_cons,
      List.append_assoc]
    rfl

theorem toList_eq (bytes : ByteArray) : bytes.toList = bytes.data.toList := toList_loop bytes 0 []

/-- The octets of two arrays one after the other. -/
theorem toList_append (a b : ByteArray) : (a ++ b).toList = a.toList ++ b.toList := by
  rw [toList_eq, toList_eq, toList_eq, ByteArray.data_append, Array.toList_append]

end Octets

/-- Texts are added one after the other. -/
theorem Content.append_append (content : Content) (first second : String) :
    (content.append first).append second = content.append (first ++ second) := by
  cases content with
  | text s => exact congrArg Content.text String.append_assoc
  | binary bytes =>
    refine congrArg Content.binary ?_
    show (bytes ++ first.toByteArray.toList) ++ second.toByteArray.toList = _
    rw [List.append_assoc, ← Octets.toList_append, ← String.toByteArray_append]
    rfl

theorem Content.append_empty (content : Content) : content.append "" = content := by
  cases content with
  | text s => exact congrArg Content.text String.append_empty
  | binary bytes =>
    have hnone : "".toByteArray.toList = [] := Octets.toList_eq _
    refine congrArg Content.binary ?_
    show bytes ++ "".toByteArray.toList = bytes
    rw [hnone, List.append_nil]

/-- So are records. -/
theorem Table.writeRecords_append (ending : Ending) (first second : List Record) :
    writeRecords ending (first ++ second) =
      writeRecords ending first ++ writeRecords ending second := by
  unfold writeRecords
  rw [List.flatMap_append, String.ofList_append]

/-- **What stands at a place once rows have been recorded there**, given what
stood there before: what a file held stays in front of the rows, and a new
file begins with a row of headings. -/
def Entry.recorded (columns : List String) (rows : List (List String)) :
    Option Entry → Option Entry
  | none =>
    if rows.isEmpty then none
    else some (.file (.text (Table.writeRecords .crlf (columns :: rows))))
  | some (.file content) => some (.file (content.append (Table.writeRecords .crlf rows)))
  | some entry => some entry

theorem Entry.recorded_nil (columns : List String) (before : Option Entry) :
    recorded columns [] before = before := by
  unfold recorded
  split
  · rfl
  · exact congrArg (fun content => some (Entry.file content)) (Content.append_empty _)
  · rfl

/-- **Rows are recorded one after the other.** -/
theorem Entry.recorded_append (columns : List String) (first second : List (List String))
    (before : Option Entry) :
    recorded columns second (recorded columns first before) =
      recorded columns (first ++ second) before := by
  cases first with
  | nil => rw [recorded_nil, List.nil_append]
  | cons row rest =>
    cases before with
    | none =>
      show some (Entry.file (Content.text (_ ++ _))) = some (Entry.file (Content.text _))
      rw [← Table.writeRecords_append]
      rfl
    | some entry =>
      cases entry with
      | file content =>
        show some (Entry.file ((content.append _).append _)) = some (Entry.file _)
        rw [Content.append_append, ← Table.writeRecords_append]
      | directory => rfl
      | device => rfl

/-! ## Mishaps -/

/-- **A fault of a tag**: the execution whose runner faulted, what for, and
the frame in which it did. -/
structure Mishap where
  /-- The execution. -/
  execution : Execution
  /-- The fault, as the runner left it. -/
  fault : Fault
  /-- The frame. -/
  frame : Frame

namespace Mishap

variable (m : Mishap)

/-- What the fault is charged to in the end. -/
def charged : Fault := m.fault.chargedTo m.execution.tag.span

/-- The event that the journal has of it. -/
def event : Event :=
  .faulted m.execution.tag (m.execution.outer + 1) m.charged m.frame.locals m.frame.world.globals

/-- The variables of the tag when its report has been bound. -/
def reported : Frame := m.frame.report m.execution.tag (m.execution.outer + 1) m.charged

/-- **The row that tells of it**: the texts of some variables. -/
def row (columns : List String) : List String :=
  columns.map fun column => (m.reported.read column).text

/-- **It is one of a run.** -/
structure Occurs (limit : Option Nat) (first : Execution) : Prop where
  enclosed : ∃ names, (Engine.standard limit).Encloses first names m.execution
  fails : (Engine.standard limit).insideOf m.execution = .failed m.fault m.frame

end Mishap

/-! ## What disturbs the record -/

/-- **An execution that disturbs a handler's record**: it ends well or waits in
the end, having assigned the variable that holds the handler, written to the
place of the file, or started a command. -/
structure Execution.Disturbs (limit : Option Nat) (files : Files) (place : Location)
    (y : Execution) : Prop where
  ends : (∃ outcome u, (Engine.standard limit).insideOf y = .done outcome u) ∨
    ∃ u, (Engine.standard limit).insideOf y = .exhausted u ∧ u.IsWaiting
  does : y.tag.Assigns y.start Reserved.exceptionsHandler ∨
    (∃ path, y.tag.WritesTo y.start path ∧ files.target path = .ok place) ∨
    y.tag.name = "call_os_cmd" ∧ (y.start.attrKey y.tag "cmd").isEmpty = false

namespace Frame

variable {handler : Handler} {files : Files} {place : Location} {s t : Frame}

/-- **A handler is installed in a frame**: it is a local variable there, its
file can be written to, and the directories are those of some store. -/
structure Installed (handler : Handler) (files : Files) (place : Location) (s : Frame) : Prop where
  held : s.locals.get? Reserved.exceptionsHandler = some (.handler handler)
  directories : files.SameDirectories s.world.files
  writable : s.world.files.Writable handler.path place

/-- **A step past a record**: it leaves the handler, what is noted of faults,
the directories and the handler's file as they are. -/
structure Passes (place : Location) (s t : Frame) : Prop where
  held : t.locals.get? Reserved.exceptionsHandler = s.locals.get? Reserved.exceptionsHandler
  keeps : t.world.keeps = s.world.keeps
  journal : t.world.journal.filter Event.isFault = s.world.journal.filter Event.isFault
  directories : s.world.files.SameDirectories t.world.files
  entry : t.world.files.entry? place = s.world.files.entry? place

theorem Installed.of_passes (h : s.Installed handler files place) (hst : s.Passes place t) :
    t.Installed handler files place where
  held := hst.held.trans h.held
  directories := h.directories.trans hst.directories
  writable := ⟨hst.directories.target_eq_ok.2 h.writable.target, hst.entry ▸ h.writable.keeps⟩

/-- What leaves the files alone. -/
theorem Passes.of_files_eq
    (hheld : t.locals.get? Reserved.exceptionsHandler = s.locals.get? Reserved.exceptionsHandler)
    (hkeeps : t.world.keeps = s.world.keeps)
    (hjournal : t.world.journal.filter Event.isFault = s.world.journal.filter Event.isFault)
    (hfiles : t.world.files = s.world.files) : s.Passes place t :=
  ⟨hheld, hkeeps, hjournal, hfiles ▸ .refl _, congrArg (Files.entry? · place) hfiles⟩

/-- What changes other local variables only. -/
theorem Passes.of_locals {locals : Vars}
    (h : locals.get? Reserved.exceptionsHandler = s.locals.get? Reserved.exceptionsHandler) :
    s.Passes place { s with locals } := .of_files_eq h rfl rfl rfl

end Frame

/-- An event that is no fault adds none to the journal. -/
theorem World.filter_journal_note {w : World} {event : Event} (h : event.isFault = false) :
    (w.note event).journal.filter Event.isFault = w.journal.filter Event.isFault := by
  obtain hnote | hnote := w.journal_note event
  · rw [hnote, List.filter_cons_of_neg (by simp [h])]
  · rw [hnote]

namespace Frame

variable {place : Location} {s : Frame} (tag : Tag) (depth : Depth)

/-- On its way into a tag and out of it a run passes a record. -/
theorem passes_enter : s.Passes place (s.enter tag depth) :=
  .of_files_eq (get?_enter (by decide) (by decide)) (World.keeps_note _ _)
    (World.filter_journal_note rfl) (World.files_note _ _)

theorem passes_invoke : s.Passes place (s.invoke tag depth) :=
  .of_files_eq rfl (World.keeps_note _ _) (World.filter_journal_note rfl) (World.files_note _ _)

theorem passes_leave (outcome : Outcome) : s.Passes place (s.leave tag depth outcome) :=
  .of_files_eq rfl (World.keeps_note _ _) (World.filter_journal_note rfl) (World.files_note _ _)

end Frame

namespace Act

variable {handler : Handler} {files : Files} {place : Location} {tag : Tag} {s t : Frame}

/-- Binding other variables passes a record. -/
theorem passes_insertAll {bindings : List (String × Value)}
    (h : ∀ binding ∈ bindings, binding.1 ≠ Reserved.exceptionsHandler) :
    s.Passes place { s with locals := s.locals.insertAll bindings } := by
  refine .of_locals (Dict.get?_insertAll_of_not_mem (fun hmem => ?_) _)
  obtain ⟨binding, hbinding, hkey⟩ := List.mem_map.1 hmem
  exact h binding hbinding hkey

/-- **The acts of a tag that only executes others pass a record.** -/
theorem passes (hname : tag.name ∉ leafNames) (hs : s.Installed handler files place)
    (h : Act tag s t) : s.Passes place t := by
  cases h with
  | bound bindings _ hleaf => exact passes_insertAll (hleaf hname)
  | boundGlobally key value hleaf => exact absurd hleaf hname
  | iterated key items position hiter =>
    refine .of_locals (Dict.get?_insert_of_ne _ _ fun hkey => ?_)
    obtain hmakes | ⟨others, at_, hheld⟩ := hiter
    · exact hname (by simp [leafNames, hmakes])
    · rw [← hkey, hs.held] at hheld
      cases hheld
  | uncounted => exact .of_locals ((Dict.get?_erase _ _ _).trans (if_neg (by decide)))
  | granted names _ => exact .of_locals (Dict.get?_insert_of_ne _ _ (by decide))
  | defined _ => exact .of_files_eq rfl rfl rfl rfl
  | called name _ =>
    exact .of_files_eq rfl (World.keeps_note _ _) (World.filter_journal_note rfl)
      (World.files_note _ _)
  | started program arguments _ hleaf => exact absurd hleaf hname
  | stored files handles locks handlers hleaf => exact absurd hleaf hname

end Act

/-- A path that could be written to leads a writer somewhere, and there the
file is, unless everything is swallowed there. -/
theorem Files.write_eq_ok {fs gs : Files} {mode : WriteMode} {path : String}
    {text : Content → String} (h : fs.write mode path text = .ok gs) :
    ∃ place, fs.target path = .ok place ∧
      (gs = fs ∨ ∃ content, gs = fs.put place (.file content)) := by
  unfold Files.write at h
  split at h
  · cases h
  · next place htarget =>
    dsimp only at h
    split at h
    · exact ⟨place, htarget, .inl (Except.ok.inj h).symm⟩
    · exact ⟨place, htarget, .inr ⟨_, (Except.ok.inj h).symm⟩⟩

/-- **A deed that does not disturb a record passes it.** -/
theorem Tag.Deed.passes {limit : Option Nat} {handler : Handler} {files : Files}
    {place : Location} {y : Execution} {s t : Frame} (hs : s.Installed handler files place)
    (hends : ∃ outcome u, (Engine.standard limit).insideOf y = .done outcome u)
    (hundisturbed : ¬y.Disturbs limit files place) (h : y.tag.Deed y.start s t) :
    s.Passes place t := by
  cases h with
  | nothing => exact .of_locals rfl
  | assigned bindings hbindings =>
    refine Act.passes_insertAll fun binding hbinding hkey => ?_
    exact hundisturbed ⟨.inl hends, .inl (hkey ▸ hbindings binding hbinding)⟩
  | assignedGlobally | advanced | defined | appended => exact .of_files_eq rfl rfl rfl rfl
  | wrote mode path text written hwrites hwritten =>
    obtain ⟨other, htarget, heq⟩ := Files.write_eq_ok hwritten
    have hother : place ≠ other := by
      rintro rfl
      exact hundisturbed
        ⟨.inl hends, .inr (.inl ⟨path, hwrites, hs.directories.target_eq_ok.1 htarget⟩)⟩
    refine ⟨rfl, rfl, rfl, ?_, ?_⟩
    · obtain rfl | ⟨content, rfl⟩ := heq
      · exact .refl _
      · exact .put _ (Files.not_directory_of_target htarget) content
    · obtain rfl | ⟨content, rfl⟩ := heq
      · rfl
      · exact Files.entry?_put_of_ne hother _ _
  | installed _ hname => exact absurd ⟨.inl hends, .inl (.installed hname)⟩ hundisturbed
  | started _ _ hname hprogram =>
    exact absurd ⟨.inl hends, .inr (.inr ⟨hname, hprogram⟩)⟩ hundisturbed

/-! ## The record of a run -/

namespace Engine

variable {limit : Option Nat} {first : Execution} {handler : Handler} {files : Files}
  {place : Location} {s t u : Frame}

/-- **What lies between two frames of a run**: some mishaps, of which the
journal tells in their order as far as it keeps them, and the handler's file
tells of all. -/
structure Records (limit : Option Nat) (first : Execution) (handler : Handler) (place : Location)
    (s t : Frame) (mishaps : List Mishap) : Prop where
  occurred : ∀ m ∈ mishaps, m.Occurs limit first
  keeps : t.world.keeps = s.world.keeps
  journal : t.world.journal.filter Event.isFault =
    ((mishaps.map Mishap.event).filter s.world.keeps).reverse ++
      s.world.journal.filter Event.isFault
  entry : t.world.files.entry? place =
    Entry.recorded handler.columns (mishaps.map fun m => m.row handler.columns)
      (s.world.files.entry? place)

theorem Records.of_passes (h : s.Passes place t) : Records limit first handler place s t [] :=
  ⟨fun _ hm => absurd hm List.not_mem_nil, h.keeps, h.journal, h.entry.trans (Entry.recorded_nil _ _).symm⟩

theorem Records.trans {before after : List Mishap}
    (hst : Records limit first handler place s t before)
    (htu : Records limit first handler place t u after) :
    Records limit first handler place s u (before ++ after) where
  occurred m hm := (List.mem_append.1 hm).elim (hst.occurred m) (htu.occurred m)
  keeps := htu.keeps.trans hst.keeps
  journal := by
    rw [htu.journal, hst.journal, hst.keeps, List.map_append, List.filter_append,
      List.reverse_append, List.append_assoc]
  entry := by
    rw [htu.entry, hst.entry, Entry.recorded_append, List.map_append]

end Engine

/-- What stands in a handler's file after it has added a row. -/
theorem Files.Writable.entry?_written {fs : Files} {path : String} {place : Location}
    (h : fs.Writable path place) (columns row : List String) :
    Files.entry? (fs.written .append place fun _ => Table.writeRecords .crlf
        (if (fs.entry? place).isSome then [row] else [columns, row])) place =
      Entry.recorded columns [row] (fs.entry? place) := by
  unfold Files.written Files.opened
  rw [Files.entry?_put_self h.ne_nil]
  cases hentry : fs.entry? place with
  | none =>
    refine congrArg (fun text => some (Entry.file (Content.text text))) ?_
    exact String.empty_append
  | some entry =>
    cases entry with
    | file content => rfl
    | directory => exact absurd hentry (Files.not_directory_of_target h.target)
    | device => exact absurd hentry h.keeps

namespace Mishap

variable {limit : Option Nat} {first : Execution} {handler : Handler} {files : Files}
  {place : Location} {m : Mishap}

/-- The frame after it. -/
def after (m : Mishap) : Frame :=
  m.frame.fault m.execution.tag (m.execution.outer + 1) m.charged

/-- **The handler that is installed is in force** when it is recorded. -/
theorem handler?_reported (h : m.frame.Installed handler files place) :
    m.reported.handler? = some handler := by
  have hheld : m.reported.locals.get? Reserved.exceptionsHandler = some (.handler handler) :=
    (Dict.get?_insert_of_ne _ _ (by decide)).trans h.held
  unfold Frame.handler? Frame.lookup Scope.lookup
  rw [hheld]
  rfl

/-- The handler adds its row to the files. -/
theorem files_after (h : m.frame.Installed handler files place) :
    m.after.world.files = m.frame.world.files.written .append place fun _ =>
      Table.writeRecords .crlf
        (if (m.frame.world.files.entry? place).isSome then [m.row handler.columns]
          else [handler.columns, m.row handler.columns]) := by
  have hafter : m.after =
      { m.reported with world := m.reported.world.record handler m.reported.read } := by
    have hhandler := handler?_reported h
    unfold reported at hhandler
    unfold after Frame.fault
    dsimp only
    rw [hhandler]
    rfl
  have hfiles : m.reported.world.files = m.frame.world.files := World.files_note _ _
  have hwritable : m.reported.world.files.Writable handler.path place := hfiles ▸ h.writable
  rw [hafter]
  show (m.reported.world.record handler m.reported.read).files = _
  rw [World.files_record_of_writable hwritable, hfiles]
  rfl

/-- **A fault is noted once, if the journal keeps it, and recorded once.** -/
theorem records_after (hm : m.Occurs limit first) (h : m.frame.Installed handler files place) :
    Engine.Records limit first handler place m.frame m.after [m] := by
  refine ⟨fun other hother => List.mem_singleton.1 hother ▸ hm, (m.frame.grows_fault _).keeps,
    ?_, ?_⟩
  · have hjournal : m.after.world.journal = (m.frame.world.note m.event).journal :=
      m.frame.journal_fault _ _ _
    rw [hjournal, List.map_singleton]
    unfold World.note
    split
    · next hkept =>
      rw [List.filter_cons_of_pos hkept, List.filter_cons_of_pos (p := Event.isFault) rfl]
      rfl
    · next hkept =>
      rw [List.filter_cons_of_neg hkept]
      rfl
  · rw [files_after h]
    exact h.writable.entry?_written _ _

/-- After that the handler is still installed. -/
theorem installed_after (h : m.frame.Installed handler files place) :
    m.after.Installed handler files place := by
  have hdirectory := Files.not_directory_of_target h.writable.target
  refine ⟨(Frame.get?_fault (by decide) _).trans h.held, ?_, ?_⟩
  · rw [files_after h]
    exact h.directories.trans (.put _ hdirectory _)
  · rw [files_after h]
    exact h.writable.put _

end Mishap

namespace Engine

variable {limit : Option Nat} {first : Execution} {handler : Handler} {files : Files}
  {place : Location} {s t u : Frame}

/-- **Keeping a record**: where a handler is installed it stays so, and it
records all mishaps. -/
def KeepsRecord (limit : Option Nat) (first : Execution) (handler : Handler) (files : Files)
    (place : Location) (s t : Frame) : Prop :=
  s.Installed handler files place →
    t.Installed handler files place ∧ ∃ mishaps, Records limit first handler place s t mishaps

theorem KeepsRecord.of_passes
    (h : s.Installed handler files place → s.Passes place t) :
    KeepsRecord limit first handler files place s t :=
  fun hs => ⟨hs.of_passes (h hs), [], .of_passes (h hs)⟩

/-- **A run that is not disturbed keeps its record**, and so do all
executions inside it. -/
theorem discipline_keepsRecord
    (hundisturbed : ∀ names y, (standard limit).Encloses first names y →
      ¬y.Disturbs limit files place) :
    Discipline limit first (KeepsRecord limit first handler files place) where
  refl s := .of_passes fun _ => .of_locals rfl
  trans hst htu hs := by
    obtain ⟨ht, before, hbefore⟩ := hst hs
    obtain ⟨hu, after, hafter⟩ := htu ht
    exact ⟨hu, before ++ after, hbefore.trans hafter⟩
  copied h hs := by
    obtain ⟨ht, mishaps, hmishaps⟩ := h hs
    exact ⟨⟨hs.held, ht.directories, ht.writable⟩, mishaps,
      ⟨hmishaps.occurred, hmishaps.keeps, hmishaps.journal, hmishaps.entry⟩⟩
  entered s tag depth := .of_passes fun _ => s.passes_enter tag depth
  invoked s tag depth := .of_passes fun _ => s.passes_invoke tag depth
  faulted {names y fault u} hy h hs :=
    let m : Mishap := ⟨y, fault, u⟩
    ⟨Mishap.installed_after (m := m) hs, [m], Mishap.records_after (m := m) ⟨⟨names, hy⟩, h⟩ hs⟩
  left s tag depth outcome := .of_passes fun _ => s.passes_leave tag depth outcome
  locked s locks := .of_passes fun _ => .of_files_eq rfl rfl rfl rfl
  act _ hname _ _ h := .of_passes fun hs => h.passes hname hs
  deed hy _ _ hdone _ _ h := .of_passes fun hs =>
    h.passes hs ⟨_, _, hdone⟩ (hundisturbed _ _ hy)
  started s program arguments := .of_passes fun _ =>
    .of_files_eq rfl (World.keeps_note _ _) (World.filter_journal_note rfl) (World.files_note _ _)

end Engine

end TagScript
