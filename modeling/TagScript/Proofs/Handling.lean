import TagScript.Proofs.Apart
import TagScript.Proofs.Finiteness

/-!
# Every fault is recorded once

A run that starts with an exception handler installed and that nothing
disturbs leaves one row in the handler's file for each fault that it has
noted, in the order of the faults, behind what the file held before. Whether
the handler can write or not is of no account to the run itself: on a store
that differs at some places, that of the file among them, it comes to the
same with the same variables.

Both need something of the file beside its being there. What swallows all
that is written to it keeps no rows; and a run that comes by the place of the
file again sees what is there.
-/

namespace TagScript

namespace Mirror

variable {M : Mirror}

/-- **A frame on another store** that corresponds to its own. -/
theorem frames_with_files {s : Frame} {others : Files} (hfiles : M.files s.world.files others)
    (hkeeps : M.journals → ∀ e f, Event.Alike e f → s.world.keeps f = s.world.keeps e) :
    M.Frames s { s with world := { s.world with files := others } } :=
  ⟨rfl, ⟨rfl, List.forall₂_same.2 fun _ _ => ⟨rfl, .refl _⟩, rfl, hfiles, rfl, rfl, rfl, rfl, rfl,
    rfl, rfl, hkeeps, fun _ => List.forall₂_same.2 fun _ _ => .refl _⟩⟩

end Mirror

/-- The same execution on another store. -/
def Execution.on (x : Execution) (files : Files) : Execution :=
  { x with frame := { x.frame with world := { x.frame.world with files } } }

namespace Tag

variable {tag : Tag} {start : Frame}

/-- Tags that assign variables or write files do so themselves. -/
theorem Assigns.mem_leafNames {key : String} (h : tag.Assigns start key) :
    tag.name ∈ leafNames := by
  obtain ⟨h, _⟩ | ⟨h, _⟩ | h | h | ⟨h, _⟩ | h | h := h
  · exact h ▸ (by decide : "set" ∈ leafNames)
  · exact (by decide : ["set_int", "set_num", "set_str"] ⊆ leafNames) h
  · exact (by decide : ["iter_make", "iter_next"] ⊆ leafNames) h
  · exact (by decide : ["json_load", "json_dump", "template"] ⊆ leafNames) h
  · exact h ▸ (by decide : "load_vars" ∈ leafNames)
  · exact h ▸ (by decide : "procedure_privilege" ∈ leafNames)
  · exact h ▸ (by decide : "handle_exceptions" ∈ leafNames)

theorem WritesTo.mem_leafNames {path : String} (h : tag.WritesTo start path) :
    tag.name ∈ leafNames := by
  obtain h | ⟨h, _, _⟩ := h
  · exact h ▸ (by decide : "output" ∈ leafNames)
  · exact (by decide : ["json_dump", "template"] ⊆ leafNames) h

end Tag

/-- What only executes other tags disturbs no record. -/
theorem Execution.not_disturbs {y : Execution} {limit : Option Nat} {files : Files}
    {place : Location} (hname : y.tag.name ∉ leafNames) : ¬y.Disturbs limit files place := by
  rintro ⟨_, hassigns | ⟨path, hwrites, _⟩ | ⟨hcommand, _⟩⟩
  · exact hname hassigns.mem_leafNames
  · exact hname hwrites.mem_leafNames
  · rw [hcommand] at hname
    exact hname (by decide)

namespace Engine

variable {limit : Option Nat} {first y : Execution} {names : List String}

/-- **A command that is started ends well, or waits.** -/
theorem done_or_isWaiting_of_launch (hname : y.tag.name = "call_os_cmd")
    (hholds : Privilege.holds y.start.locals "call_os_cmd" = true)
    (hnamed : (y.start.attrKey y.tag "cmd").isEmpty = false)
    (hwithin : ∀ d, limit = some d → (y.outer + 1).number ≤ d) {exit? : Option Exit}
    (hlaunch : y.start.world.launch (y.start.attrKey y.tag "cmd")
      (Text.words ((y.start.attrText y.tag "args").getD "")) = .ok exit?) :
    (∃ outcome u, (standard limit).insideOf y = .done outcome u) ∨
      ∃ u, (standard limit).insideOf y = .exhausted u ∧ u.IsWaiting := by
  have hmem : (y.tag.name, Runner.command) ∈ builtins := by simp [builtins, hname]
  have hlocals : Run.look (·.locals) y.start = .done y.start.locals y.start := rfl
  have hworld : Run.look (·.world) y.start = .done y.start.world y.start := rfl
  rw [insideOf, inside_of_mem hmem hwithin]
  unfold Runner.command
  rw [Run.bind_of_done hlocals, if_neg (by simp [hholds]), Run.bind_attrKey,
    if_neg (by simp [hnamed]), Run.bind_attrText, Run.bind_of_done hworld]
  dsimp only [site]
  rw [hlaunch]
  cases exit? with
  | none => exact .inr ⟨_, rfl, hholds, y.start.world, _, _, rfl, hlaunch⟩
  | some exit => exact .inl ⟨_, _, rfl⟩

section Handled

variable {x : Execution} {handler : Handler} {place : Location}
  (hheld : x.frame.locals.get? Reserved.exceptionsHandler = some (.handler handler))
  (hwritable : x.frame.world.files.Writable handler.path place)
  (hundisturbed : ∀ names y, (standard limit).Encloses x names y →
    ¬y.Disturbs limit x.frame.world.files place)
include hheld hwritable hundisturbed

/-- **What a run with a handler does not come by, it shuns**: it starts no
command, and at each fault that handler is in force. -/
theorem shuns_of_not_comesBy {apart : Location → Prop} (hplace : apart place)
    (hy : (standard limit).Encloses x names y)
    (haway : ∀ other, apart other → ¬y.tag.ComesBy y.start other) :
    y.Shuns limit apart x.frame.world.files where
  away := haway
  idle hname hholds hnamed hwithin := by
    cases hlaunch : y.start.world.launch (y.start.attrKey y.tag "cmd")
        (Text.words ((y.start.attrText y.tag "args").getD "")) with
    | error why => exact ⟨why, rfl⟩
    | ok exit? =>
      have hends := done_or_isWaiting_of_launch hname hholds hnamed hwithin hlaunch
      exact absurd ⟨hends, .inr (.inr ⟨hname, hnamed⟩)⟩ (hundisturbed names y hy)
  handled fault u other hfailed hother := by
    have hfirst : x.frame.Installed handler x.frame.world.files place :=
      ⟨hheld, .refl _, hwritable⟩
    have discipline : Discipline limit x
        (KeepsRecord limit x handler x.frame.world.files place) :=
      discipline_keepsRecord hundisturbed
    have hbegun := (discipline.frames hy hfirst).1
    have hfaults := (discipline.inside hy hbegun).1
    rw [hfailed] at hfaults
    have hreported := Mishap.handler?_reported (m := ⟨y, fault, u⟩) hfaults
    obtain rfl : handler = other := Option.some.inj (hreported.symm.trans hother)
    exact ⟨place, hplace, hwritable.target⟩

end Handled

/-- **Every fault is recorded exactly once, and whether it can be makes no
difference.** Take a run that starts with an exception handler as a local
variable, whose file can be written to. Let no execution of the run disturb
the record: none that ends well assigns the variable, writes to the file or
starts a command.

Then there is a list of the mishaps of the run, of which the journal tells
one by one in their order, as far as it keeps faults at all, and what stands
at the place of the file afterwards is what stood there before, with one row
for each of them in the same order, behind a row of headings if nothing was
there. The row holds the texts of the columns in the variables of the tag
that faulted, its own report among them.

Take further any store that differs at some places only, that of the file
among them; the handler may be refused there. If no execution of the run
comes by one of these places, then the same run on that store yields the
same, or is cut off as well, and leaves behind the same variables. If its
journal does not look at layouts, it tells the same of all tags inside. -/
theorem execute_records_faults (limit : Option Nat) {x : Execution} {handler : Handler}
    {place : Location}
    (hheld : x.frame.locals.get? Reserved.exceptionsHandler = some (.handler handler))
    (hwritable : x.frame.world.files.Writable handler.path place)
    (hundisturbed : ∀ names y, (standard limit).Encloses x names y →
      ¬y.Disturbs limit x.frame.world.files place) :
    (∃ mishaps, Records limit x handler place x.frame ((standard limit).ending x).after mishaps) ∧
    ∀ (apart : Location → Prop) (others : Files), apart place →
      x.frame.world.files.AgreeAway apart others →
      (∀ names y, (standard limit).Encloses x names y →
        ∀ other, apart other → ¬y.tag.ComesBy y.start other) →
      (∀ outcome, (∃ u, (standard limit).ending x = .done outcome u) ↔
        ∃ u, (standard limit).ending (x.on others) = .done outcome u) ∧
      ((standard limit).ending (x.on others)).after.locals =
        ((standard limit).ending x).after.locals ∧
      ((standard limit).ending (x.on others)).after.world.globals =
        ((standard limit).ending x).after.world.globals ∧
      ((∀ e f, Event.Alike e f → x.frame.world.keeps f = x.frame.world.keeps e) →
        List.Forall₂ Event.Alike ((standard limit).ending x).after.world.journal
          ((standard limit).ending (x.on others)).after.world.journal) := by
  have hfirst : x.frame.Installed handler x.frame.world.files place :=
    ⟨hheld, .refl _, hwritable⟩
  refine ⟨((discipline_keepsRecord hundisturbed).ending .outermost hfirst).2,
    fun apart others hplace hagree haway => ?_⟩
  obtain ⟨cutoff, hcutoff⟩ := exists_frame_ne ((standard limit).ending x).after
  have hshuns : ∀ names y, (standard limit).Encloses x names y →
      y.Shuns limit apart x.frame.world.files := fun names y hy =>
    shuns_of_not_comesBy hheld hwritable hundisturbed hplace hy (haway names y hy)
  have hmirrored := mirrored_of_shuns hshuns
    (∀ e f, Event.Alike e f → x.frame.world.keeps f = x.frame.world.keeps e) cutoff
  have hends := hmirrored x.tag (x.on others).frame (.refl _)
    (Mirror.frames_with_files ⟨.refl _, hagree⟩ id)
  have hfree : ¬((standard limit).ending x).after = cutoff := hcutoff.symm
  have hafter := hends.frames hfree
  exact ⟨hends.done_iff hfree, hafter.locals, hafter.world.globals, hafter.world.journal⟩

/-! ## Runs of tags that only execute others -/

/-- **Without calls, modules and conditions** a run executes only the tags of
its own tree. -/
theorem Encloses.withAll_subset
    (hplain : ∀ tag ∈ first.tag.withAll,
      tag.name ∉ "call" :: "cond_call" :: "module" :: assertingNames)
    (hy : (standard limit).Encloses first names y) : y.tag.withAll ⊆ first.tag.withAll := by
  induction hy with
  | outermost => exact List.Subset.refl _
  | @inner names x y _ hxy ih =>
    have hname := hplain x.tag (ih x.tag.mem_withAll_self)
    exact List.Subset.trans (Tag.withAll_subset_of_mem_tags (hxy.mem_tags hname)) ih

/-- A run of which no tag does anything but execute others is not
disturbed. -/
theorem not_disturbs_of_withAll {files : Files} {place : Location}
    (hplain : ∀ tag ∈ first.tag.withAll,
      tag.name ∉ "call" :: "cond_call" :: "module" :: assertingNames)
    (hleaf : ∀ tag ∈ first.tag.withAll, tag.name ∉ leafNames) :
    ∀ names y, (standard limit).Encloses first names y → ¬y.Disturbs limit files place :=
  fun _ y hy =>
    Execution.not_disturbs (hleaf y.tag (hy.withAll_subset hplain y.tag.mem_withAll_self))

/-- Nor does it come by any place. -/
theorem not_comesBy_of_withAll {apart : Location → Prop}
    (hplain : ∀ tag ∈ first.tag.withAll,
      tag.name ∉ "call" :: "cond_call" :: "module" :: assertingNames)
    (hfiles : ∀ tag ∈ first.tag.withAll, tag.name ∉ fileNames) :
    ∀ names y, (standard limit).Encloses first names y →
      ∀ other, apart other → ¬y.tag.ComesBy y.start other :=
  fun _ y hy _ _ hcomes => hfiles y.tag (hy.withAll_subset hplain y.tag.mem_withAll_self)
    hcomes.mem_fileNames

/-- A handler that writes the variable `x` to the file `log`. -/
def logger : Handler := ⟨0, "log", ["x"]⟩

/-- A frame that has it. -/
def frameLogging : Frame :=
  ⟨[(Reserved.exceptionsHandler, .handler logger), ("x", .str "1")],
    World.ofFiles (.empty []) "" .bare⟩

/-- A tag that has no runner. -/
def unheardOf : Tag := ⟨"mystery", [], [], .nowhere⟩

/-- A script that is aborted by it, so that there are two faults. -/
def aborted : Execution := ⟨⟨"root", [], [.tag unheardOf], .nowhere⟩, 0, frameLogging, 2⟩

/-- A script that goes on after it, by reading the file. -/
def rereading : Execution :=
  ⟨⟨"root", [], [.tag ⟨"not", [], [.tag unheardOf], .nowhere⟩,
    .tag ⟨"load_data", [("name", some "log")], [], .nowhere⟩], .nowhere⟩, 0, frameLogging, 3⟩

/-- The store in which a directory stands in the place of the file. -/
def occupied : Files := (Files.empty []).put ["log"] .directory

/-- The store in which the place swallows what is written to it. -/
def swallowing : Files := (Files.empty []).put ["log"] .device

theorem writable_logger : frameLogging.world.files.Writable logger.path ["log"] :=
  ⟨by decide, by decide⟩

theorem agreeAway_occupied : frameLogging.world.files.AgreeAway (· = ["log"]) occupied :=
  ⟨rfl, fun _ hplace => Files.entry?_put_of_ne hplace _ _, fun _ _ => rfl⟩

/-- Two faults make two rows, and make the script fail as well where no row
can be written. -/
theorem aborted_records_faults :
    frameLogging.locals.get? Reserved.exceptionsHandler = some (.handler logger) ∧
    frameLogging.world.files.Writable logger.path ["log"] ∧
    (∀ names y, (standard none).Encloses aborted names y →
      ¬y.Disturbs none frameLogging.world.files ["log"]) ∧
    frameLogging.world.files.AgreeAway (· = ["log"]) occupied ∧
    (∀ names y, (standard none).Encloses aborted names y →
      ∀ other, other = ["log"] → ¬y.tag.ComesBy y.start other) ∧
    (∃ mishaps, mishaps.length = 2 ∧ Records none aborted logger ["log"] frameLogging
      ((standard none).ending aborted).after mishaps) ∧
    occupied.target logger.path = .error .directory ∧
    ∃ u, (standard none).ending (aborted.on occupied) = .done .fail u := by
  have hundisturbed : ∀ names y, (standard none).Encloses aborted names y →
      ¬y.Disturbs none frameLogging.world.files ["log"] :=
    not_disturbs_of_withAll (by decide) (by decide)
  have haway : ∀ names y, (standard none).Encloses aborted names y →
      ∀ other, other = ["log"] → ¬y.tag.ComesBy y.start other :=
    not_comesBy_of_withAll (by decide) (by decide)
  obtain ⟨⟨mishaps, hrecords⟩, hothers⟩ :=
    @execute_records_faults none aborted logger ["log"] rfl writable_logger hundisturbed
  obtain ⟨houtcome, _⟩ := hothers (· = ["log"]) occupied rfl agreeAway_occupied haway
  -- the journal of this run tells how many mishaps there are
  have htwo : mishaps.length = 2 := by
    have hlength := congrArg List.length hrecords.journal
    have hkept : ∀ event ∈ mishaps.map Mishap.event,
        aborted.frame.world.keeps event = true := List.forall_mem_map.2 fun _ _ => rfl
    rw [List.filter_eq_self.2 hkept, List.length_append, List.length_reverse,
      List.length_map] at hlength
    exact hlength.symm
  exact ⟨rfl, writable_logger, hundisturbed, agreeAway_occupied, haway,
    ⟨mishaps, htwo, hrecords⟩, by decide, (houtcome .fail).1 ⟨_, rfl⟩⟩

/-- **A run that reads what its handler has recorded sees whether it could.**
The handler is installed, its file can be written to, no tag writes it or the
variable, and yet the run leaves another report behind if a directory stands
in the place of the file. And what swallows all that is written to it can be
written to, but holds as little after two faults as before. -/
theorem handling_is_seen :
    frameLogging.locals.get? Reserved.exceptionsHandler = some (.handler logger) ∧
    (frameLogging.world.files.target logger.path = .ok ["log"] ∧
      (∀ names y, (standard none).Encloses rereading names y →
        ¬y.Disturbs none frameLogging.world.files ["log"]) ∧
      frameLogging.world.files.AgreeAway (· = ["log"]) occupied ∧
      occupied.target logger.path = .error .directory ∧
      ((standard none).ending rereading).after.locals.get? Reserved.debug = none ∧
      (((standard none).ending (rereading.on occupied)).after.locals.get? Reserved.debug).isSome =
        true) ∧
    (swallowing.target logger.path = .ok ["log"] ∧
      (∀ names y, (standard none).Encloses (aborted.on swallowing) names y →
        ¬y.Disturbs none swallowing ["log"]) ∧
      swallowing.readText logger.path = .ok "" ∧
      ((standard none).ending (aborted.on swallowing)).after.world.journal.length = 2 ∧
      ((standard none).ending (aborted.on swallowing)).after.world.files.readText logger.path =
        .ok "") :=
  ⟨rfl,
    ⟨by decide, not_disturbs_of_withAll (by decide) (by decide), agreeAway_occupied, by decide,
      by decide +kernel, by decide +kernel⟩,
    by decide, not_disturbs_of_withAll (by decide) (by decide), by decide, by decide +kernel,
    by decide +kernel⟩

end Engine

end TagScript
