import TagScript.Proofs.Answering
import TagScript.Proofs.Recording

/-!
# Places that a run does not come by

Two runs that are the same but for what is in some places of the store do
the same as long as no tag comes by one of these places. A tag comes by the
places that the paths pass which it reads, includes, writes or starts a
program at. What a handler does there is not seen: it puts its file where
the stores may differ anyway, or it is refused, and neither stops the run.

`Execution.Shuns` says this of one execution; `Engine.mirrored_of_shuns`
draws the conclusion for a run all of whose executions do so.
-/

namespace TagScript

/-- **A tag comes by a place**: it is passed by a path that the tag needs
where its runner begins. -/
inductive Tag.ComesBy (tag : Tag) (start : Frame) (place : Location) : Prop where
  /-- In looking for a file to read, or on the way to it. -/
  | reading {name path : String} (hreads : tag.ReadsFrom start name)
      (hpath : path ∈ start.world.sought name) (hplace : place ∈ start.world.files.trail path)
  /-- In looking for a module, or on the way to it. -/
  | including {path : String} (hname : tag.name = "module")
      (hpath : path ∈ start.world.soughtModule (start.attrKey tag "src"))
      (hplace : place ∈ start.world.files.trail path)
  /-- On the way to a file to write. -/
  | writing {path : String} (hwrites : tag.WritesTo start path)
      (hplace : place ∈ start.world.files.trail path)
  /-- In looking for a program that may be started. -/
  | starting (hname : tag.name = "call_os_cmd")
      (hholds : Privilege.holds start.locals "call_os_cmd" = true)
      (hnamed : (start.attrKey tag "cmd").isEmpty = false)
      (hplace : place ∈ Command.trail start.world.files start.world.system.programDirs
        start.world.primaryDir (start.attrKey tag "cmd"))

/-- The tags that come by any place at all. -/
def fileNames : List String :=
  ["load_vars", "load_data", "json_load", "json_dump", "template", "output", "module",
    "call_os_cmd"]

theorem Tag.ComesBy.mem_fileNames {tag : Tag} {start : Frame} {place : Location}
    (h : tag.ComesBy start place) : tag.name ∈ fileNames := by
  cases h with
  | reading hreads =>
    cases hreads with
    | table h => exact (by decide : ["load_vars", "load_data"] ⊆ fileNames) h
    | document h => exact (by decide : ["json_load", "template"] ⊆ fileNames) h
  | including h => exact h ▸ (by decide : "module" ∈ fileNames)
  | writing hwrites =>
    cases hwrites with
    | output h => exact h ▸ (by decide : "output" ∈ fileNames)
    | document h => exact (by decide : ["json_dump", "template"] ⊆ fileNames) h
  | starting h => exact h ▸ (by decide : "call_os_cmd" ∈ fileNames)

/-- **An execution that shuns some places**, given a store with the
directories of the run. -/
structure Execution.Shuns (limit : Option Nat) (apart : Location → Prop) (files : Files)
    (y : Execution) : Prop where
  /-- Its tag comes by none of them. -/
  away : ∀ place, apart place → ¬y.tag.ComesBy y.start place
  /-- It starts no command. -/
  idle : y.tag.name = "call_os_cmd" → Privilege.holds y.start.locals "call_os_cmd" = true →
    (y.start.attrKey y.tag "cmd").isEmpty = false →
    (∀ d, limit = some d → (y.outer + 1).number ≤ d) → ∃ why,
      y.start.world.launch (y.start.attrKey y.tag "cmd")
        (Text.words ((y.start.attrText y.tag "args").getD "")) = .error why
  /-- The handler in force when it faults writes to one of them. -/
  handled : ∀ fault u handler, (Engine.standard limit).insideOf y = .failed fault u →
    (Mishap.mk y fault u).reported.handler? = some handler →
    ∃ place, apart place ∧ files.target handler.path = .ok place

/-- **Runs on stores that agree away from some places**, with the directories
of a given store. Whether journals are compared is left open, and the first
run may be cut off in one frame. -/
def Mirror.apart (apart : Location → Prop) (files : Files) (journals : Prop) (cutoff : Frame) :
    Mirror where
  files v w := files.SameDirectories v ∧ v.AgreeAway apart w
  journals := journals
  free s := s = cutoff

namespace Mirror

variable {apart : Location → Prop} {files : Files} {journals : Prop} {cutoff : Frame}

/-- **Away from the places both stores can be written to alike.** -/
theorem results_write {v w : Files} (hvw : (Mirror.apart apart files journals cutoff).files v w)
    {path : String} (haway : ∀ place ∈ files.trail path, ¬apart place) (mode : Files.WriteMode)
    (text : Content → String) :
    Accord.Results (Mirror.apart apart files journals cutoff).files (v.write mode path text)
      (w.write mode path text) := by
  obtain ⟨hdirectories, hagree⟩ := hvw
  rw [← hdirectories.trail] at haway
  unfold Files.write
  rw [hagree.target haway]
  cases htarget : v.target path with
  | error why => exact .error why
  | ok place =>
    have hfree := haway place (Files.mem_trail_of_locate (Files.locate_of_target htarget))
    have hopened : w.opened mode place = v.opened mode place := by
      unfold Files.opened
      rw [hagree.entry place hfree]
    dsimp only
    rw [hagree.entry place hfree, hopened]
    split
    · exact .ok ⟨hdirectories, hagree⟩
    · exact .ok ⟨hdirectories.trans (.put _ (Files.not_directory_of_target htarget) _),
        hagree.put _ _⟩

variable {s t : Frame}

/-- **A tag that comes by none of the places is answered alike**, if it
starts no command. -/
theorem answers_apart {tag : Tag} (h : (Mirror.apart apart files journals cutoff).Frames s t)
    (haway : ∀ place, apart place → ¬tag.ComesBy s place)
    (hidle : tag.name = "call_os_cmd" → Privilege.holds s.locals "call_os_cmd" = true →
      (s.attrKey tag "cmd").isEmpty = false → ∃ why,
        s.world.launch (s.attrKey tag "cmd") (Text.words ((s.attrText tag "args").getD "")) =
          .error why) :
    (Mirror.apart apart files journals cutoff).accord.Answers tag s t := by
  obtain ⟨hdirectories, hagree⟩ :
      files.SameDirectories s.world.files ∧ s.world.files.AgreeAway apart t.world.files :=
    h.world.files
  refine ⟨fun name hreads => ?_, fun hname => ?_, fun hname path hpath => ?_,
    fun path hwrites v w hvw mode text => ?_, fun hname hholds hnamed => ?_⟩
  · have hsought : ∀ path ∈ s.world.sought name, ∀ place ∈ s.world.files.trail path,
        ¬apart place := fun path hpath place hplace hapart =>
      haway place hapart (.reading hreads hpath hplace)
    exact Accord.concurs_readFile (World.resolve_eq_of_agreeAway h.world.searchPath hagree hsought)
      (hagree.readText (hsought _ (s.world.resolve_mem_sought name)))
  · exact World.moduleFile?_eq_of_agreeAway h.world.searchPath hagree
      fun path hpath place hplace hapart => haway place hapart (.including hname hpath hplace)
  · have hread := hagree.read fun place hplace hapart => haway place hapart
      (.including hname (World.mem_soughtModule_of_moduleFile? hpath) hplace)
    unfold Script.ofFile
    rw [hread]
  · have hcorrespond : (Mirror.apart apart files journals cutoff).files v w := hvw
    refine results_write hcorrespond (fun place hplace hapart => haway place hapart ?_) mode text
    exact .writing hwrites (hdirectories.trail path ▸ hplace)
  · obtain ⟨why, hwhy⟩ := hidle hname hholds hnamed
    have hother := Command.start_eq_error hagree
      (fun place hplace hapart => haway place hapart (.starting hname hholds hnamed hplace))
      (World.launch_eq_error.1 hwhy)
    rw [← h.world.system, ← h.primaryDir] at hother
    rw [hwhy, World.launch_eq_error.2 hother]
    exact .error why

end Mirror

/-- A handler leaves the files as they are, or puts its own where its path
leads. -/
theorem World.files_record_eq_or (w : World) (handler : Handler) (value : String → Value) :
    (w.record handler value).files = w.files ∨
      ∃ place content, w.files.target handler.path = .ok place ∧
        (w.record handler value).files = w.files.put place (.file content) := by
  rw [files_record]
  split
  · next written hwritten =>
    obtain ⟨place, htarget, rfl | ⟨content, rfl⟩⟩ := Files.write_eq_ok hwritten
    · exact .inl rfl
    · exact .inr ⟨place, content, htarget, rfl⟩
  · exact .inl rfl

namespace Mirror

variable {apart : Location → Prop} {files : Files} {journals : Prop} {cutoff : Frame}

/-- **What a handler does at one of the places is not seen away from
them**, whether it can write there or not. -/
theorem Worlds.record_apart {v w : World}
    (h : (Mirror.apart apart files journals cutoff).Worlds v w)
    {handler : Handler} {place : Location} (hplace : apart place)
    (htarget : files.target handler.path = .ok place) (value : String → Value) :
    (Mirror.apart apart files journals cutoff).Worlds (v.record handler value)
      (w.record handler value) := by
  refine h.record handler value ?_
  obtain ⟨hdirectories, hagree⟩ :
      files.SameDirectories v.files ∧ v.files.AgreeAway apart w.files := h.files
  have htargetv := hdirectories.target_eq_ok.2 htarget
  -- the first run
  obtain ⟨hrecorded, hbetween⟩ : files.SameDirectories (v.record handler value).files ∧
      (v.record handler value).files.AgreeAway apart w.files := by
    obtain hsame | ⟨other, content, hother, hput⟩ := v.files_record_eq_or handler value
    · rw [hsame]
      exact ⟨hdirectories, hagree⟩
    · obtain rfl : place = other := Except.ok.inj (htargetv.symm.trans hother)
      rw [hput]
      exact ⟨hdirectories.trans (.put _ (Files.not_directory_of_target htargetv) content),
        hagree.put_left hplace _⟩
  refine ⟨hrecorded, ?_⟩
  -- the second one, where the path leads nowhere else
  obtain hsame | ⟨other, content, hother, hput⟩ := w.files_record_eq_or handler value
  · rw [hsame]
    exact hbetween
  · obtain rfl : other = place := Files.eq_of_target hagree.cwd htargetv hother
    rw [hput]
    exact hbetween.put_right hplace _

end Mirror

/-- **An execution that is mirrored** by the execution of every tag like its
own from a frame that mirrors its own. -/
def Execution.Mirrored (limit : Option Nat) (M : Mirror) (y : Execution) : Prop :=
  ∀ b t, y.tag.Alike b → M.Frames y.frame t →
    M.Endings Eq ((Engine.standard limit).ending y)
      ((Engine.standard limit).execute (y.means + 1) b y.outer t)

namespace Engine

variable {limit : Option Nat} {first y : Execution} {apart : Location → Prop} {files : Files}
  {journals : Prop} {cutoff : Frame}

/-- **An execution that shuns some places is mirrored on stores that differ
there**, if those that it asks for are. What it does not ask for is cut off
in a frame of our choice, so that nothing need be known of it. -/
theorem mirrored_step (hshuns : y.Shuns limit apart files)
    (hasked : ∀ z, (standard limit).Executes y z →
      z.Mirrored limit (Mirror.apart apart files journals cutoff)) :
    y.Mirrored limit (Mirror.apart apart files journals cutoff) := by
  intro b t hb h
  let P (child : Tag) (depth : Depth) (s : Frame) (ending : Ending Outcome) : Prop :=
    ∀ c s', child.Alike c → (Mirror.apart apart files journals cutoff).Frames s s' →
      (Mirror.apart apart files journals cutoff).Endings Eq ending
        ((standard limit).execute y.means c depth s')
  have hreal : ∀ child depth s, y.AsksFor limit child depth s →
      P child depth s ((standard limit).execute y.means child depth s) := by
    refine of_asksFor P (fun hnone child depth s c s' hc hs => ?_) fun z hz c s' hc hs => ?_
    · rw [hnone]
      exact .exhausted hs
    · rw [hz.means]
      exact hasked z hz c s' hc hs
  obtain ⟨exec, hexec, hruns⟩ := @exists_exec_of_asks limit y (fun _ => .exhausted cutoff) P
    (fun _ _ _ _ _ _ _ => .free rfl _) hreal
  have hentered := h.enter hb (y.outer + 1)
  have hinside : (Mirror.apart apart files journals cutoff).Endings Eq
      ((standard limit).dispatch ⟨y.tag, y.outer + 1, exec, y.means⟩
        (y.frame.enter y.tag (y.outer + 1)))
      ((standard limit).dispatch ⟨b, y.outer + 1, (standard limit).execute y.means, y.means⟩
        (t.enter b (y.outer + 1))) :=
    Mirror.dispatch hb hentered
      (fun hwithin => Mirror.answers_apart (hentered.invoke hb _) hshuns.away
        fun hname hholds hnamed => hshuns.idle hname hholds hnamed hwithin)
      fun hc _ _ hs => hexec _ _ _ _ _ hc hs
  rw [hruns] at hinside
  refine Mirror.boundary hb hinside fun fault u handler hfailed hhandler v w hvw value => ?_
  obtain ⟨place, hplace, htarget⟩ := hshuns.handled fault u handler hfailed hhandler
  exact hvw.record_apart hplace htarget value

/-- **So is a run all of whose executions shun them.** -/
theorem mirrored_of_shuns
    (hshuns : ∀ names y, (standard limit).Encloses first names y → y.Shuns limit apart files)
    (journals : Prop) (cutoff : Frame) :
    first.Mirrored limit (Mirror.apart apart files journals cutoff) :=
  Encloses.induction (P := fun y => y.Mirrored limit (Mirror.apart apart files journals cutoff))
    (fun names y hy => mirrored_step (hshuns names y hy)) .outermost

end Engine

end TagScript
