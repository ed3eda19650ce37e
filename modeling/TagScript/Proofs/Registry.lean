import TagScript.Proofs.Aftermath
import TagScript.Proofs.Break
import TagScript.Proofs.Rounds

/-!
# The registry of procedures

Procedures are defined wherever a definition is executed: inside blocks and
branches, in modules, by procedures. Variables are scoped and definitions are
not, so there is one registry for a whole run and for the runs after it. The
journal tells what is in it: under each name is the tag of the last definition
that lists the name.

`World.Registers` compares two worlds of which one comes later. What has been
added to the journal between them decides which entries are new, and all other
entries are as they were, so that no name is ever lost. It is kept by every
execution (`Engine.registers_ending`), up to where any execution inside it
begins (`Engine.Encloses.registers`), and from where such an execution ends
(`Engine.Executes.registers_after`).

A call goes on to the body that it finds when it is made. What is defined
meanwhile does not matter to it.
-/

namespace TagScript

namespace Dict

variable {α : Type}

/-- One value under many keys. -/
theorem get?_insertAll_map (keys : List String) (value : α) (d : Dict α) (key : String) :
    (d.insertAll (keys.map fun name => (name, value))).get? key =
      if key ∈ keys then some value else d.get? key := by
  induction keys generalizing d with
  | nil => rfl
  | cons first rest ih =>
    show ((d.insert first value).insertAll (rest.map fun name => (name, value))).get? key = _
    rw [ih, get?_insert]
    by_cases hrest : key ∈ rest
    · rw [if_pos hrest, if_pos (List.mem_cons_of_mem _ hrest)]
    · by_cases hfirst : key = first
      · simp [hfirst]
      · simp [hrest, hfirst]

end Dict

/-! ## What the journal tells of definitions -/

/-- The names that a definition lists. -/
def Tag.definedNames (tag : Tag) : List String := Text.names ((tag.attr "name").getD "")

/-- **The definition of a name**, if that is what an event tells of: the call
of the runner of definitions, for a tag that lists the name. -/
def Event.definition? (name : String) : Event → Option Tag
  | .invoked tag _ _ _ _ =>
    if tag.name = "procedure" ∧ name ∈ tag.definedNames then some tag else none
  | _ => none

/-- **The last definition of a name** that a journal tells of; the latest event
is the first. -/
def lastDefinition? (name : String) (journal : List Event) : Option Tag :=
  journal.findSome? (·.definition? name)

theorem Event.definition?_eq_some {name : String} {event : Event} {tag : Tag}
    (h : event.definition? name = some tag) : tag.name = "procedure" ∧ name ∈ tag.definedNames := by
  unfold definition? at h
  split at h
  · split at h
    · next hdefines =>
      obtain rfl := Option.some.inj h
      exact hdefines
    · cases h
  · cases h

theorem lastDefinition?_eq_some {name : String} {journal : List Event} {tag : Tag}
    (h : lastDefinition? name journal = some tag) :
    tag.name = "procedure" ∧ name ∈ tag.definedNames := by
  obtain ⟨event, _, hevent⟩ := List.exists_of_findSome?_eq_some h
  exact Event.definition?_eq_some hevent

/-- Later definitions come before earlier ones. -/
theorem lastDefinition?_append (name : String) (later earlier : List Event) :
    lastDefinition? name (later ++ earlier) =
      (lastDefinition? name later).or (lastDefinition? name earlier) :=
  List.findSome?_append

namespace World

/-- Whether the journal keeps all definitions. -/
def KeepsDefinitions (w : World) : Prop :=
  ∀ (event : Event) (name : String), (event.definition? name).isSome → w.keeps event = true

/-- **From a world to a later one**: the journal has grown, the last definition
that was added for a name is in the registry, and every name that none was
added for is as it was. -/
def Registers (v w : World) : Prop :=
  ∃ added, w.journal = added ++ v.journal ∧
    ∀ name, w.procedures.get? name = (lastDefinition? name added).or (v.procedures.get? name)

/-- **The registry is what the journal tells.** -/
def Registered (w : World) : Prop :=
  ∀ name, w.procedures.get? name = lastDefinition? name w.journal

variable {u v w : World}

theorem Registers.refl (w : World) : w.Registers w := ⟨[], rfl, fun _ => rfl⟩

theorem Registers.trans (huv : u.Registers v) (hvw : v.Registers w) : u.Registers w := by
  obtain ⟨first, hfirst, hv⟩ := huv
  obtain ⟨second, hsecond, hw⟩ := hvw
  refine ⟨second ++ first, ?_, fun name => ?_⟩
  · rw [hsecond, hfirst, List.append_assoc]
  · rw [hw, hv, lastDefinition?_append, Option.or_assoc]

/-- What the journal tells it goes on telling. -/
theorem Registers.registered (h : v.Registers w) (hv : v.Registered) : w.Registered := by
  obtain ⟨added, hadded, hw⟩ := h
  intro name
  rw [hw, hv, hadded, lastDefinition?_append]

/-- **No name is lost**, and its entry is the one it had or a later
definition. -/
theorem Registers.exists_entry (h : v.Registers w) {name : String} {tag : Tag}
    (hname : v.procedures.get? name = some tag) :
    ∃ added, w.journal = added ++ v.journal ∧
      w.procedures.get? name = some ((lastDefinition? name added).getD tag) := by
  obtain ⟨added, hadded, hw⟩ := h
  refine ⟨added, hadded, ?_⟩
  rw [hw, hname]
  cases lastDefinition? name added <;> rfl

/-- **What happens in a run**, as long as the journal keeps the definitions. -/
structure Proceeds (v w : World) : Prop where
  /-- It goes on keeping what it has kept. -/
  keeps : w.keeps = v.keeps
  /-- The registry follows the journal. -/
  registers : v.KeepsDefinitions → v.Registers w

theorem Proceeds.refl (w : World) : w.Proceeds w := ⟨rfl, fun _ => .refl w⟩

theorem Proceeds.keepsDefinitions (h : v.Proceeds w) (hv : v.KeepsDefinitions) :
    w.KeepsDefinitions := by
  intro event name hevent
  rw [h.keeps]
  exact hv event name hevent

theorem Proceeds.trans (huv : u.Proceeds v) (hvw : v.Proceeds w) : u.Proceeds w where
  keeps := hvw.keeps.trans huv.keeps
  registers hu := (huv.registers hu).trans (hvw.registers (huv.keepsDefinitions hu))

/-- Whatever does not concern the registry may change. -/
theorem Proceeds.of_eq (hjournal : w.journal = v.journal) (hkeeps : w.keeps = v.keeps)
    (hprocedures : w.procedures = v.procedures) : v.Proceeds w :=
  ⟨hkeeps, fun _ => ⟨[], hjournal, fun _ => by rw [hprocedures]; rfl⟩⟩

/-- So may an event be noted that tells of no definition. -/
theorem Proceeds.of_note (event : Event) (hevent : ∀ name, event.definition? name = none)
    (hjournal : w.journal = (v.note event).journal) (hkeeps : w.keeps = v.keeps)
    (hprocedures : w.procedures = v.procedures) : v.Proceeds w := by
  obtain hnoted | hnoted := v.journal_note event
  · refine ⟨hkeeps, fun _ => ⟨[event], hjournal.trans hnoted, fun name => ?_⟩⟩
    rw [hprocedures, lastDefinition?, List.findSome?_cons, hevent name]
    rfl
  · exact .of_eq (hjournal.trans hnoted) hkeeps hprocedures

end World

/-! ## Single steps -/

theorem course_proceeds : Course fun s t => s.world.Proceeds t.world where
  refl s := .refl s.world
  trans := .trans
  copied h := h

/-- **Acts of tags that are no definitions** leave the registry alone. -/
theorem Act.proceeds {tag : Tag} {s t : Frame} (h : Act tag s t) (hname : tag.name ≠ "procedure") :
    s.world.Proceeds t.world := by
  cases h with
  | bound | boundGlobally | iterated | uncounted | granted | stored => exact .of_eq rfl rfl rfl
  | defined h => exact absurd h hname
  | called => exact .of_note _ (fun _ => rfl) rfl (World.keeps_note _ _) (World.procedures_note _ _)
  | started => exact .of_note _ (fun _ => rfl) rfl (World.keeps_note _ _) (World.procedures_note _ _)

namespace Frame

variable (s : Frame) (tag : Tag) (depth : Depth)

theorem proceeds_enter : s.world.Proceeds (s.enter tag depth).world :=
  .of_note (.entered tag depth) (fun _ => rfl) rfl (World.keeps_note _ _)
    (World.procedures_note _ _)

theorem proceeds_leave (outcome : Outcome) :
    s.world.Proceeds (s.leave tag depth outcome).world :=
  .of_note (.left tag depth outcome) (fun _ => rfl) rfl (World.keeps_note _ _)
    (World.procedures_note _ _)

theorem proceeds_fault (fault : Fault) : s.world.Proceeds (s.fault tag depth fault).world := by
  obtain ⟨files, locks, h⟩ := s.fault_eq tag depth fault
  rw [h]
  exact .of_note (.faulted tag depth fault s.locals s.world.globals) (fun _ => rfl) rfl
    (World.keeps_note _ _) (World.procedures_note _ _)

theorem proceeds_invoke (hname : tag.name ≠ "procedure") :
    s.world.Proceeds (s.invoke tag depth).world :=
  .of_note (.invoked tag depth s.world.trace s.locals s.world.globals)
    (fun _ => if_neg fun h => hname h.1) rfl (World.keeps_note _ _) (World.procedures_note _ _)

end Frame

/-- **The call of a definition and what it does** are told by the same
event. -/
theorem Runner.proceeds_procedure {site : Site} (hname : site.tag.name = "procedure") (s : Frame) :
    s.world.Proceeds (procedure site (s.invoke site.tag site.depth)).after.world := by
  let event : Event := .invoked site.tag site.depth s.world.trace s.locals s.world.globals
  have hdefinition (name : String) : event.definition? name =
      if name ∈ site.tag.definedNames then some site.tag else none := by
    show (if _ ∧ _ then _ else _) = _
    simp [hname]
  unfold procedure
  by_cases hempty : (Text.names ((site.tag.attr "name").getD "")).isEmpty = true
  · rw [if_pos hempty]
    refine .of_note (event) (fun name => ?_) rfl (World.keeps_note _ _)
      (World.procedures_note _ _)
    have hnone : site.tag.definedNames = [] := List.isEmpty_iff.1 hempty
    rw [hdefinition, hnone]
    rfl
  · rw [if_neg hempty]
    refine ⟨World.keeps_note _ _, fun hkeeps => ⟨[event], ?_, fun name => ?_⟩⟩
    · obtain ⟨name, rest, hnames⟩ := List.exists_cons_of_ne_nil fun h => hempty (List.isEmpty_iff.2 h)
      have hkept : s.world.keeps event = true := by
        refine hkeeps event name ?_
        rw [hdefinition, if_pos]
        · rfl
        · show name ∈ Text.names ((site.tag.attr "name").getD "")
          rw [hnames]
          exact List.mem_cons_self
      show (s.world.note event).journal = _
      rw [World.note, if_pos hkept]
      rfl
    · show ((s.world.note event).procedures.insertAll _).get? name = _
      rw [Dict.get?_insertAll_map, World.procedures_note, lastDefinition?, List.findSome?_cons,
        hdefinition]
      unfold Tag.definedNames
      split <;> rfl

namespace Engine

variable {limit : Option Nat}

/-! ## Whole executions -/

/-- **A definition executes nothing** inside it. -/
theorem proceeds_dispatch_procedure {tag : Tag} (hname : tag.name = "procedure") (depth : Depth)
    (exec : Tag → Depth → Run Outcome) (rounds : Nat) (s : Frame) :
    s.world.Proceeds ((standard limit).dispatch ⟨tag, depth, exec, rounds⟩ s).after.world := by
  obtain ⟨_, _, _, h⟩ | ⟨_, h⟩ := @dispatch_of_mem limit ⟨tag, depth, exec, rounds⟩ Runner.procedure
    (by simp [builtins, hname]) s
  · rw [h]
    exact .refl s.world
  · rw [h]
    exact @Runner.proceeds_procedure ⟨tag, depth, exec, rounds⟩ hname s

/-- **A tag is dispatched** along the journal, however tags are executed, if
their executions go along it. -/
theorem proceeds_dispatch (tag : Tag) (depth : Depth) {exec : Tag → Depth → Run Outcome}
    (hexec : ∀ (child : Tag) (depth : Depth) (t : Frame),
      t.world.Proceeds (exec child depth t).after.world)
    (rounds : Nat) (s : Frame) :
    s.world.Proceeds ((standard limit).dispatch ⟨tag, depth, exec, rounds⟩ s).after.world := by
  by_cases hname : tag.name = "procedure"
  · exact proceeds_dispatch_procedure hname depth exec rounds s
  · refine (course_proceeds.dispatch (F := fun _ => True) (fun _ => trivial) (fun _ => trivial)
      (fun _ => s.proceeds_invoke tag depth hname) fun runner hget => ?_).1
    exact course_proceeds.runner (fun _ _ h => h.proceeds hname) (fun _ _ => trivial) rounds
      (mem_builtins_of_get? hget) _ fun child _ t => ⟨hexec child depth t, fun _ _ _ => trivial⟩

/-- **Every execution goes along the journal.** -/
theorem proceeds_execute (means : Nat) (tag : Tag) (outer : Depth) (s : Frame) :
    s.world.Proceeds ((standard limit).execute means tag outer s).after.world := by
  induction means generalizing tag outer s with
  | zero => exact .refl s.world
  | succ means ih =>
    refine course_proceeds.boundary (F := fun _ => True) (s.proceeds_enter tag _)
      ⟨proceeds_dispatch tag _ ih means _, fun _ _ _ => trivial⟩
      (fun _ t _ => t.proceeds_fault tag _ _) fun outcome t => t.proceeds_leave tag _ outcome

theorem proceeds_ending (x : Execution) :
    x.frame.world.Proceeds ((standard limit).ending x).after.world :=
  proceeds_execute _ _ _ _

/-- So does an execution up to where another begins inside it, -/
theorem Executes.proceeds {x y : Execution} (h : (standard limit).Executes x y) :
    x.frame.world.Proceeds y.frame.world := by
  obtain ⟨exec, hexec, hcut⟩ := @exists_exec_of_executes limit x y
    (fun _ _ t ending => t.world.Proceeds ending.after.world) h (fun _ _ t => .refl t.world)
    fun child depth t _ => proceeds_execute x.means child depth t
  have hbody := @proceeds_dispatch limit x.tag (x.outer + 1) exec hexec x.means
    (x.frame.enter x.tag (x.outer + 1))
  rw [hcut] at hbody
  exact (x.frame.proceeds_enter x.tag (x.outer + 1)).trans hbody

/-- at whatever depth. -/
theorem Encloses.proceeds {x y : Execution} {names : List String}
    (h : (standard limit).Encloses x names y) : x.frame.world.Proceeds y.frame.world := by
  induction h with
  | outermost => exact .refl _
  | inner hx hy ih => exact ih.trans hy.proceeds

/-! ## After an execution inside another -/

/-- From where its runner ends to where an execution ends. -/
theorem proceeds_insideOf (x : Execution) :
    ((standard limit).insideOf x).after.world.Proceeds ((standard limit).ending x).after.world := by
  cases hinside : (standard limit).insideOf x with
  | done outcome t =>
    have hending : (standard limit).ending x = _ := boundary_of_done hinside
    rw [hending]
    exact t.proceeds_leave x.tag _ outcome
  | failed fault t =>
    have hending : (standard limit).ending x = _ := boundary_of_failed hinside
    rw [hending]
    exact (t.proceeds_fault x.tag _ _).trans (Frame.proceeds_leave _ x.tag _ .fail)
  | exhausted t =>
    have hending : (standard limit).ending x = _ := boundary_of_exhausted hinside
    rw [hending]
    exact .refl t.world

/-- A definition is never cut off, for it executes nothing. -/
theorem Executes.not_definition {x y : Execution} (h : (standard limit).Executes x y) :
    x.tag.name ≠ "procedure" := by
  classical
  intro hname
  let other : Tag → Depth → Run Outcome := fun child depth t =>
    if child = y.tag ∧ depth = y.outer ∧ t = y.frame then .exhausted t
    else (standard limit).execute x.means child depth t
  have hstopped := h.asks y.frame other (if_pos ⟨rfl, rfl, rfl⟩) fun _ _ _ hne => if_neg hne
  obtain ⟨_, _, _, hdispatch⟩ | ⟨_, hdispatch⟩ := @dispatch_of_mem limit
    ⟨x.tag, x.outer + 1, other, x.means⟩ Runner.procedure (by simp [builtins, hname])
    (x.frame.enter x.tag (x.outer + 1))
  · cases hdispatch.symm.trans hstopped
  · have hprocedure := hdispatch.symm.trans hstopped
    unfold Runner.procedure at hprocedure
    dsimp only at hprocedure
    split at hprocedure
    · cases hprocedure
    · cases hprocedure

/-- **What an execution has defined is still defined when the tag around it
ends.** -/
theorem Executes.proceeds_after {x y : Execution} (h : (standard limit).Executes x y) :
    ((standard limit).ending y).after.world.Proceeds ((standard limit).ending x).after.world :=
  (h.inside_after course_proceeds (fun _ _ hact => hact.proceeds h.not_definition)
    fun child depth t => proceeds_execute x.means child depth t).trans (proceeds_insideOf x)

/-- So it is when any of the tags around it does. -/
theorem Encloses.proceeds_after {x y : Execution} {names : List String}
    (h : (standard limit).Encloses x names y) :
    ((standard limit).ending y).after.world.Proceeds ((standard limit).ending x).after.world := by
  induction h with
  | outermost => exact .refl _
  | inner hx hy ih => exact hy.proceeds_after.trans ih

end Engine

/-! ## Calls -/

/-- **A call that is made**: its attributes can be read, it is not too deep,
and a conditional call is switched on and privileged. -/
structure Execution.Calls (limit : Option Nat) (y : Execution) (name : String) (shared : Bool) :
    Prop where
  /-- It is a call. -/
  kind : y.tag.name = "call" ∨ y.tag.name = "cond_call" ∧
    (Runner.isSwitchedOn y.start.locals name && Privilege.holds y.start.locals name) = true
  /-- It is not too deep. -/
  within : ∀ d, limit = some d → (y.outer + 1).number ≤ d
  /-- It names a procedure. -/
  named : Run.requireKey y.tag "name" y.start = .done name y.start
  /-- Whether the body works on the variables of the call themselves. -/
  sharing : Run.passThrough y.tag y.start = .done shared y.start

namespace Engine

variable {limit : Option Nat}

/-- A call that finds a procedure makes a pass over its body. -/
theorem exists_pass_of_calls {y : Execution} {name : String} {shared : Bool}
    (h : y.Calls limit name shared) {procedure : Tag}
    (hprocedure : y.start.world.procedures.get? name = some procedure) :
    ∃ executed stop t, ((standard limit).site y.means y.tag y.outer).Pass procedure.tags
        (Runner.callee y.start y.tag name) executed stop t ∧
      (standard limit).insideOf y = Runner.afterBody stop t (t.returnTo shared y.start) := by
  have hexec := (standard limit).run_ne_failed y.means y.tag y.outer
  have hcalls : ((standard limit).site y.means y.tag y.outer).calls := h.kind.imp_right And.left
  obtain ⟨executed, stop, t, hpass, hinvoke⟩ :=
    Runner.exists_pass_of_invoke hcalls hexec hprocedure h.sharing
  refine ⟨executed, stop, t, hpass, ?_⟩
  obtain hname | ⟨hname, hallowed⟩ := h.kind
  · refine (@inside_of_mem limit y.tag y.outer Runner.call (by simp [builtins, hname]) h.within _
      _).trans ?_
    unfold Runner.call
    rw [Run.bind_of_done h.named]
    exact hinvoke
  · refine (@inside_of_mem limit y.tag y.outer Runner.conditionalCall (by simp [builtins, hname])
      h.within _ _).trans ?_
    unfold Runner.conditionalCall
    rw [Run.bind_of_done h.named, Run.bind_of_done (show Run.look (·.locals) y.start =
      .done y.start.locals y.start from rfl), if_pos hallowed]
    exact hinvoke

/-! ## Run after run -/

/-- **Run after run**: each starts in the world that the one before has left,
with local variables of its own. -/
inductive Runs (e : Engine) : World → List Execution → World → Prop where
  /-- There is no further run. -/
  | none (w : World) : Runs e w [] w
  /-- A run and those after it. -/
  | next {x : Execution} {rest : List Execution} {v w : World} (hx : x.frame.world = v)
      (hrest : Runs e (e.ending x).after.world rest w) : Runs e v (x :: rest) w

theorem Runs.proceeds {v w : World} {runs : List Execution} (h : (standard limit).Runs v runs w) :
    v.Proceeds w := by
  induction h with
  | none w => exact .refl w
  | @next x rest v w hx hrest ih => exact hx ▸ (proceeds_ending x).trans ih

/-- A run among others starts in a later world and leaves an earlier one. -/
theorem Runs.proceeds_mem {v w : World} {runs : List Execution}
    (h : (standard limit).Runs v runs w) {x : Execution} (hx : x ∈ runs) :
    v.Proceeds x.frame.world ∧ ((standard limit).ending x).after.world.Proceeds w := by
  induction h with
  | none w => exact absurd hx List.not_mem_nil
  | @next first rest v w hfirst hrest ih =>
    subst hfirst
    obtain rfl | hx := List.mem_cons.1 hx
    · exact ⟨.refl _, hrest.proceeds⟩
    · exact (ih hx).imp_left (proceeds_ending first).trans

theorem procedures_start (y : Execution) : y.start.world.procedures = y.frame.world.procedures :=
  (World.procedures_note _ _).trans (World.procedures_note _ _)

/-- **The registry follows the definitions.** Start from an empty registry
with a journal that keeps the definitions and tells of none, and let there be
any runs, one after the other, whether they end or are cut off.

In the end there is under each name the tag of the last definition that was
executed and listed the name. So it is wherever an execution begins or ends
in any of the runs. Between such places definitions are added and no name is
lost: from the beginning of an execution to its end, from there to the end of
whatever is around it, and to the end of all runs.

A call passes over the body of the last definition of its name when it is
made, to the end unless a tag in the body yields false or is a `return`,
whatever that body defines. -/
theorem runs_follow_definitions (limit : Option Nat) {v w : World} {runs : List Execution}
    (hempty : v.procedures = .empty) (hfresh : ∀ name, lastDefinition? name v.journal = none)
    (hkeeps : v.KeepsDefinitions) (hruns : (standard limit).Runs v runs w) :
    w.Registered ∧
    (∀ name procedure, w.procedures.get? name = some procedure →
      procedure.name = "procedure" ∧ name ∈ procedure.definedNames) ∧
    ∀ x ∈ runs, ∀ names y, (standard limit).Encloses x names y →
      y.frame.world.Registered ∧ ((standard limit).ending y).after.world.Registered ∧
      y.frame.world.Registers ((standard limit).ending y).after.world ∧
      (∀ inner z, (standard limit).Encloses y inner z →
        ((standard limit).ending z).after.world.Registers
          ((standard limit).ending y).after.world) ∧
      ((standard limit).ending y).after.world.Registers w ∧
      ∀ name shared procedure, y.Calls limit name shared →
        lastDefinition? name y.frame.world.journal = some procedure →
        ∃ executed stop t, ((standard limit).site y.means y.tag y.outer).Pass procedure.tags
            (Runner.callee y.start y.tag name) executed stop t ∧
          (standard limit).insideOf y =
            Runner.afterBody stop t (t.returnTo shared y.start) := by
  have hv : v.Registered := fun name => by
    rw [hempty, hfresh]
    rfl
  have hw : w.Registered := (hruns.proceeds.registers hkeeps).registered hv
  refine ⟨hw, fun name procedure hentry => ?_, fun x hx names y hy => ?_⟩
  · rw [hw] at hentry
    exact lastDefinition?_eq_some hentry
  obtain ⟨hbefore, hafter⟩ := hruns.proceeds_mem hx
  have hstart : v.Proceeds y.frame.world := hbefore.trans hy.proceeds
  have hduring := @proceeds_ending limit y
  have hrest : ((standard limit).ending y).after.world.Proceeds w := hy.proceeds_after.trans hafter
  have hkeeps' := hstart.keepsDefinitions hkeeps
  have hkeeps'' := hduring.keepsDefinitions hkeeps'
  have hregistered := (hstart.registers hkeeps).registered hv
  refine ⟨hregistered, (hduring.registers hkeeps').registered hregistered,
    hduring.registers hkeeps', fun inner z hz => ?_, hrest.registers hkeeps'', ?_⟩
  · have hinner := hz.proceeds.trans (@proceeds_ending limit z)
    exact hz.proceeds_after.registers (hinner.keepsDefinitions hkeeps')
  · intro name shared procedure hcalls hlast
    refine exists_pass_of_calls hcalls ?_
    rw [procedures_start, hregistered]
    exact hlast

/-- A definition of two names. -/
def redefinition : Tag := ⟨"procedure", [("name", some "p, q")], [], .nowhere⟩

/-- A procedure that defines itself anew and goes on. -/
def selfRedefining : Tag :=
  ⟨"procedure", [("name", some "p")], [.tag redefinition, .tag ⟨"sub", [], [], .nowhere⟩], .nowhere⟩

/-- A call of it. -/
def callingP : Tag := ⟨"call", [("name", some "p")], [], .nowhere⟩

/-- Its definition is executed, -/
def ofDefinition : Execution := ⟨selfRedefining, 0, blankFrame, 0⟩

/-- then it is called, -/
def ofFirstCall : Execution := ⟨callingP, 0, ((standard none).ending ofDefinition).after, 2⟩

/-- and called again. -/
def ofSecondCall : Execution := ⟨callingP, 0, ((standard none).ending ofFirstCall).after, 2⟩

theorem callsP_follow_definitions :
    ((standard none).ending ofSecondCall).after.world.procedures.get? "q" = some redefinition ∧
    (∃ executed stop t, ((standard none).site 2 callingP 0).Pass selfRedefining.tags
      (Runner.callee ofFirstCall.start callingP "p") executed stop t ∧
      (standard none).insideOf ofFirstCall =
        Runner.afterBody stop t (t.returnTo false ofFirstCall.start)) ∧
    ∃ executed stop t, ((standard none).site 2 callingP 0).Pass redefinition.tags
      (Runner.callee ofSecondCall.start callingP "p") executed stop t ∧
      (standard none).insideOf ofSecondCall =
        Runner.afterBody stop t (t.returnTo false ofSecondCall.start) := by
  have hruns : (standard none).Runs blankFrame.world [ofDefinition, ofFirstCall, ofSecondCall]
      ((standard none).ending ofSecondCall).after.world := .next rfl (.next rfl (.next rfl (.none _)))
  obtain ⟨hregistered, -, hinside⟩ := runs_follow_definitions none rfl (fun _ => rfl)
    (fun _ _ _ => rfl) hruns
  obtain ⟨-, -, -, -, -, hfirst⟩ := hinside ofFirstCall (by simp) [] _ .outermost
  obtain ⟨-, -, -, -, -, hsecond⟩ := hinside ofSecondCall (by simp) [] _ .outermost
  refine ⟨?_, hfirst "p" false _ ⟨.inl rfl, nofun, rfl, rfl⟩ ?_,
    hsecond "p" false _ ⟨.inl rfl, nofun, rfl, rfl⟩ ?_⟩
  · rw [hregistered]
    rfl
  · rfl
  · rfl

end Engine

end TagScript
