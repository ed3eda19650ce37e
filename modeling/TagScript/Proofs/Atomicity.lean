import TagScript.Proofs.Leaf

/-!
# A leaf that faults has done nothing

A leaf is a tag that does something itself and executes no other tag for
that. It acts last, so a fault finds it before its deed, and leaves nothing
behind but the report that the boundary around every tag binds. A typed
assignment binds all of its attributes or none, a table that cannot be read
loads nothing, and a file that cannot be written is what it was.

Where an exception handler is in force this is not all: the handler records
the fault in its file.
-/

namespace TagScript

/-- **A leaf**: a tag that does something itself, and has no operand. -/
structure Tag.IsLeaf (tag : Tag) (start : Frame) : Prop where
  /-- It is there to do something. -/
  name : tag.name ∈ leafNames
  /-- It executes no tag for that. -/
  operand : tag.operand? start = none

/-- **A frame that is the same to a script**: the same variables, procedures,
memory handles and files. The locks, the trace and the journal are nothing
that a script could tell. -/
structure Frame.SameToScripts (s t : Frame) : Prop where
  locals : t.locals = s.locals
  globals : t.world.globals = s.world.globals
  procedures : t.world.procedures = s.world.procedures
  handles : t.world.handles = s.world.handles
  files : t.world.files = s.world.files

theorem exists_mem_builtins {name : String} (h : name ∈ leafNames) :
    ∃ runner, (name, runner) ∈ builtins := by
  have hlisted : ∀ name ∈ leafNames, name ∈ builtins.map Prod.fst := by decide
  obtain ⟨⟨_, runner⟩, hmem, rfl⟩ := List.mem_map.1 (hlisted name h)
  exact ⟨runner, hmem⟩

namespace Frame

variable {s : Frame} {tag : Tag} {depth outer : Depth}

/-- Calling a runner is nothing that a script could tell. -/
theorem sameToScripts_invoke (s : Frame) (tag : Tag) (depth : Depth) :
    s.SameToScripts (s.invoke tag depth) := by
  obtain ⟨journal, h⟩ := s.world.exists_note_eq
    (.invoked tag depth s.world.trace s.locals s.world.globals)
  unfold invoke
  dsimp only
  rw [h]
  exact ⟨rfl, rfl, rfl, rfl, rfl⟩

/-- The handler in force is told by two variables. -/
theorem handler?_eq {s t : Frame}
    (hlocal : t.locals.get? Reserved.exceptionsHandler = s.locals.get? Reserved.exceptionsHandler)
    (hglobals : t.world.globals = s.world.globals) : t.handler? = s.handler? := by
  unfold handler? lookup Scope.lookup
  rw [hlocal, hglobals]

/-- **Without a handler a fault is only reported.** -/
theorem fault_of_no_handler {fault : Fault} (h : s.handler? = none) :
    s.fault tag depth fault = s.report tag depth fault := by
  have hreport : (s.report tag depth fault).handler? = none := by
    rw [← h]
    exact handler?_eq (Dict.get?_insert_of_ne _ _ (by decide)) (World.globals_note _ _)
  unfold Frame.fault
  dsimp only
  rw [hreport]

end Frame

namespace Engine

variable {limit : Option Nat}

/-- A leaf that faults has done nothing. -/
theorem sameToScripts_of_failed {means : Nat} {tag : Tag} {outer : Depth} {s u : Frame}
    {fault : Fault} (hleaf : tag.IsLeaf (s.begin tag outer))
    (h : (standard limit).inside means tag outer s = .failed fault u) :
    (s.enter tag (outer + 1)).SameToScripts u := by
  obtain ⟨runner, hrunner⟩ := exists_mem_builtins hleaf.name
  obtain ⟨d, _, _, hdeep⟩ | ⟨_, hruns⟩ := @dispatch_of_mem limit
    ((standard limit).site means tag outer) runner hrunner (s.enter tag (outer + 1))
  · obtain rfl := (Ending.failed.inj (hdeep.symm.trans h)).2
    exact ⟨rfl, rfl, rfl, rfl, rfl⟩
  · obtain (⟨outcome, t, hdone, _⟩ | ⟨other, locks, hfailed⟩) | ⟨_, _, t, hwaits, _⟩ :=
      @Runner.actsLast_or_waitsLast_of_operand? ((standard limit).site means tag outer)
        (s.begin tag outer) runner hrunner hleaf.name hleaf.operand
    · cases (hruns.symm.trans h).symm.trans hdone
    · obtain rfl := (Ending.failed.inj ((hruns.symm.trans h).symm.trans hfailed)).2
      have hinvoked := Frame.sameToScripts_invoke (s.enter tag (outer + 1)) tag (outer + 1)
      exact ⟨hinvoked.locals, hinvoked.globals, hinvoked.procedures, hinvoked.handles,
        hinvoked.files⟩
    · cases (hruns.symm.trans h).symm.trans hwaits

/-- **A leaf that faults leaves everything as it was.** Take a tag that does
something itself and executes no other tag for that, in a scope and a world
in which no exception handler is visible. If its runner faults, for whatever
cause, then the tag yields false, and all local variables are what they were
but for the depth, the time and the report of the fault; so are the global
variables, the procedures, the memory handles and the files. -/
theorem execute_leaf_fault_atomic (limit : Option Nat) (means : Nat) (tag : Tag) (outer : Depth)
    (s : Frame) (hleaf : tag.IsLeaf (s.begin tag outer)) (hhandler : s.handler? = none)
    (fault : Fault) (u : Frame)
    (hfault : (standard limit).inside means tag outer s = .failed fault u) :
    ∃ t, (standard limit).execute (means + 1) tag outer s = .done .fail t ∧
      (∀ key, key ≠ Reserved.depth → key ≠ Reserved.logDatetime → key ≠ Reserved.debug →
        t.locals.get? key = s.locals.get? key) ∧
      t.world.globals = s.world.globals ∧ t.world.procedures = s.world.procedures ∧
      t.world.handles = s.world.handles ∧ t.world.files = s.world.files := by
  have hsame := sameToScripts_of_failed hleaf hfault
  obtain ⟨entered, henter⟩ := s.world.exists_note_eq (.entered tag (outer + 1))
  have hworld : (s.enter tag (outer + 1)).world =
      { s.world with journal := entered, trace := tag.name :: s.world.trace } := by
    unfold Frame.enter
    exact congrArg (fun w : World => { w with trace := tag.name :: s.world.trace }) henter
  have hnone : u.handler? = none := by
    rw [← hhandler]
    refine Frame.handler?_eq ?_ ?_
    · rw [hsame.locals, Frame.get?_enter (by decide) (by decide)]
    · rw [hsame.globals, hworld]
  refine ⟨_, boundary_of_failed hfault, fun key hdepth htime hdebug => ?_, ?_⟩
  · show (u.fault tag (outer + 1) _).locals.get? key = s.locals.get? key
    rw [Frame.get?_fault hdebug, hsame.locals, Frame.get?_enter hdepth htime]
  · obtain ⟨reported, hreport⟩ := u.world.exists_note_eq
      (.faulted tag (outer + 1) (fault.chargedTo tag.span) u.locals u.world.globals)
    obtain ⟨left, hleave⟩ := (u.report tag (outer + 1) (fault.chargedTo tag.span)).world.exists_note_eq
      (.left tag (outer + 1) .fail)
    rw [Frame.fault_of_no_handler hnone]
    unfold Frame.leave
    dsimp only
    rw [hleave]
    unfold Frame.report Frame.setLocal
    dsimp only
    rw [hreport]
    dsimp only
    rw [hsame.globals, hsame.procedures, hsame.handles, hsame.files, hworld]
    exact ⟨rfl, rfl, rfl, rfl⟩

/-- A typed assignment whose second attribute is no integer. -/
def halfConverted : Tag := ⟨"set_int", [("a", some "1"), ("b", some "x")], [], .nowhere⟩

/-- A frame in which the variable of the first one is bound. -/
def priorToAssignment : Frame := ⟨[("a", .str "before")], World.ofFiles (.empty []) "" .bare⟩

theorem halfConverted_fault_atomic :
    halfConverted.IsLeaf (priorToAssignment.begin halfConverted 0) ∧
    priorToAssignment.handler? = none ∧
    (∃ fault u, (standard none).inside 0 halfConverted 0 priorToAssignment = .failed fault u) ∧
    ∃ t, (standard none).execute 1 halfConverted 0 priorToAssignment = .done .fail t ∧
      t.locals.get? "a" = some (.str "before") := by
  have hleaf : halfConverted.IsLeaf (priorToAssignment.begin halfConverted 0) :=
    ⟨by decide, rfl⟩
  have hfault : ∃ fault u,
      (standard none).inside 0 halfConverted 0 priorToAssignment = .failed fault u := ⟨_, _, rfl⟩
  obtain ⟨fault, u, h⟩ := hfault
  obtain ⟨t, ht, hlocals, _⟩ :=
    execute_leaf_fault_atomic none 0 halfConverted 0 priorToAssignment hleaf rfl fault u h
  exact ⟨hleaf, rfl, ⟨fault, u, h⟩, t, ht, hlocals "a" (by decide) (by decide) (by decide)⟩

end Engine

end TagScript
