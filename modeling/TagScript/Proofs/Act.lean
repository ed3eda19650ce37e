import TagScript.Builtin

/-!
# What runners can do

A statement about all runs is proved by going through all runners, and it
would be proved over and over again if every statement did so. They are
gone through once, and this module has the words for it: what a runner can
do to its frame by itself is an `Act`, which also keeps what the runner has
made sure of before, and `Tag.Leads` is from which tag a runner can go on
to which other. Whatever else a runner does without executing tags only
looks at the frame, and faults for what it finds there, if it faults at
all: `Cause.isRunners` tells its causes from those of the engine.
-/

namespace TagScript

/-- **The tags that do something themselves**: they assign and read
variables, load and deliver documents, define procedures, grant privileges,
write files and start commands. All others execute tags and do no more than
what takes. -/
def leafNames : List String :=
  ["set", "set_int", "set_num", "set_str", "get", "return", "iter_make", "iter_next", "json_load",
    "json_dump", "template", "load_vars", "procedure", "procedure_privilege", "handle_exceptions",
    "output", "call_os_cmd"]

/-- **The tags that assign variables that they are told the names of**, and
so any variables but the one that holds the privileges. -/
def assigningNames : List String :=
  ["set", "set_int", "set_num", "set_str", "iter_make", "json_load", "json_dump", "template"]

theorem mem_leafNames_of_mem_assigningNames {name : String} (h : name ∈ assigningNames) :
    name ∈ leafNames := by
  revert name
  decide

/-- The variables that tell of the lines being loaded: how many there are, and
which row is at hand. -/
def loadingNames : List String := [Reserved.loadedDataCount, Reserved.loadedDataItemIndex]

/-- **What a runner can do to its frame by itself**, without executing a
tag, given the tag it runs. -/
inductive Act (tag : Tag) : Frame → Frame → Prop where
  /-- It binds local variables, but not the one that holds the privileges;
  the one that holds the exception handler only if the tag is there to do
  something itself, those that tell of the lines being loaded only if the
  tag is told to or loads them, and the one that tells the depth only if the
  tag is told to. -/
  | bound (s : Frame) (bindings : List (String × Value))
      (h : ∀ binding ∈ bindings, binding.1 ≠ Reserved.procPrivilege)
      (hleaf : tag.name ∉ leafNames →
        ∀ binding ∈ bindings, binding.1 ≠ Reserved.exceptionsHandler)
      (hloading : tag.name ∉ assigningNames → tag.name ≠ "load_data" →
        ∀ binding ∈ bindings, binding.1 ∉ loadingNames)
      (hdepth : tag.name ∉ assigningNames →
        ∀ binding ∈ bindings, binding.1 ≠ Reserved.depth) :
      Act tag s { s with locals := s.locals.insertAll bindings }
  /-- It binds a global variable. -/
  | boundGlobally (s : Frame) (key : String) (value : Value) (h : tag.name ∈ leafNames) :
      Act tag s (s.setGlobal key value)
  /-- It binds a local variable, of whatever name, to an iterator; only the
  making of an iterator does so to a variable that is none yet. -/
  | iterated (s : Frame) (key : String) (items : List Value) (position : Nat)
      (h : tag.name = "iter_make" ∨ ∃ others place, s.locals.get? key = some (.iter others place)) :
      Act tag s (s.setLocal key (.iter items position))
  /-- It removes the count of the lines it has loaded. -/
  | uncounted (s : Frame) (h : tag.name = "load_data") :
      Act tag s { s with locals := s.locals.erase Reserved.loadedDataCount }
  /-- It grants privileges, having the privilege to do so. -/
  | granted (s : Frame) (names : List String)
      (h : Privilege.holds s.locals "procedure_privilege" = true) :
      Act tag s { s with locals := Privilege.grant s.locals names }
  /-- It defines itself as a procedure, under each of its names. -/
  | defined (s : Frame) (h : tag.name = "procedure") :
      Act tag s { s with world := { s.world with
        procedures := s.world.procedures.insertAll
          ((Text.names ((tag.attr "name").getD "")).map fun name => (name, tag)) } }
  /-- It goes on to the body of a procedure; a conditional call does so
  only with the privilege of that name. -/
  | called (s : Frame) (name : String)
      (h : tag.name = "cond_call" → Privilege.holds s.locals name = true) :
      Act tag s { s with world := s.world.note (.called tag name) }
  /-- It starts a command, having the privilege to do so. -/
  | started (s : Frame) (program : String) (arguments : List String)
      (h : Privilege.holds s.locals "call_os_cmd" = true) (hleaf : tag.name ∈ leafNames) :
      Act tag s { s with world := s.world.start program arguments }
  /-- It writes files and memory handles, also by a command that has ended,
  takes locks and numbers a handler. -/
  | stored (s : Frame) (files : Files) (handles : Dict String) (locks : Locks) (handlers : Nat)
      (h : tag.name ∈ leafNames) :
      Act tag s { s with world := { s.world with files, handles, locks, handlers } }

/-- **A run waits**: in a scope that may do so, it has just started a program
that never ends. -/
def Frame.IsWaiting (s : Frame) : Prop :=
  Privilege.holds s.locals "call_os_cmd" = true ∧
    ∃ w program arguments, s.world = World.start w program arguments ∧
      w.launch program arguments = .ok none

/-! ## What is bound from elsewhere

Whatever comes from a file, from the attributes of a call or from those of
a typed assignment has been cleared of the variable that holds the
privileges before it is bound. -/

theorem Reserved.ne_procPrivilege {name : String} (h : Reserved.isReserved name = false) :
    name ≠ Reserved.procPrivilege := by
  rintro rfl
  exact absurd h (by decide)

theorem Reserved.notMem_loadingNames {name : String} (h : Reserved.isReserved name = false) :
    name ∉ loadingNames := by
  have hall : ∀ name ∈ loadingNames, Reserved.isReserved name = true := by decide
  exact fun hmem => Bool.false_ne_true (h.symm.trans (hall name hmem))

theorem Reserved.ne_depth {name : String} (h : Reserved.isReserved name = false) :
    name ≠ Reserved.depth := by
  rintro rfl
  exact absurd h (by decide)

theorem Reserved.ne_exceptionsHandler {name : String} (h : Reserved.isReserved name = false) :
    name ≠ Reserved.exceptionsHandler := by
  rintro rfl
  exact absurd h (by decide)

/-- No row of a sheet binds a reserved variable. -/
theorem Table.Sheet.not_reserved_of_mem_row {policy : FieldPolicy} {source : String} {row : Vars}
    (hrow : row ∈ (Sheet.ofText policy source).rows) {entry : String × Value} (h : entry ∈ row) :
    Reserved.isReserved entry.1 = false := by
  obtain ⟨record, _, rfl⟩ := List.mem_map.1 hrow
  obtain h | h := Dict.mem_or_mem_of_mem_insertAll h
  · obtain ⟨column, hcolumn, rfl⟩ := List.mem_map.1 h
    simpa using (List.mem_filter.1 hcolumn).2
  · exact absurd h List.not_mem_nil

/-- No record of a table of names and values binds a reserved variable. -/
theorem Table.not_reserved_of_mem_assignments {policy : FieldPolicy} {source : String}
    {entry : String × Value} (h : entry ∈ assignments policy source) :
    Reserved.isReserved entry.1 = false := by
  obtain ⟨record, _, hrecord⟩ := List.mem_filterMap.1 h
  dsimp only at hrecord
  split at hrecord
  · cases hrecord
  · next hname =>
    obtain rfl := Option.some.inj hrecord
    exact (Bool.or_eq_false_iff.1 (Bool.eq_false_iff.2 hname)).2

namespace Runner

/-- No parameter of a call binds a reserved variable. -/
theorem not_reserved_of_mem_parameters {s : Frame} {tag : Tag} {entry : String × Value}
    (h : entry ∈ parameters s tag) : Reserved.isReserved entry.1 = false := by
  obtain ⟨attr, hattr, rfl⟩ := List.mem_map.1 h
  have hparameter : isParameter attr.1 = true := (List.mem_filter.1 hattr).2
  simpa using (Bool.and_eq_true_iff.1 hparameter).2

/-- A typed assignment that goes through converts its attributes one by one. -/
theorem converted_cons_eq_ok {s : Frame} {conversion : Conversion} {tag key : String}
    {raw : Option String} {rest : List (String × Option String)}
    {bindings : List (String × Value)}
    (h : converted s conversion tag ((key, raw) :: rest) = .ok bindings) :
    key ≠ Reserved.procPrivilege ∧ ∃ value more,
      conversion.apply tag key (raw.map s.substitute) = .ok value ∧
      converted s conversion tag rest = .ok more ∧ bindings = (key, value) :: more := by
  unfold converted at h
  split at h
  · cases h
  next hkey =>
  refine ⟨hkey, ?_⟩
  split at h
  · cases h
  next value hvalue =>
  cases hrest : converted s conversion tag rest with
  | error cause =>
    rw [hrest] at h
    cases h
  | ok more =>
    rw [hrest] at h
    exact ⟨value, more, hvalue, rfl, (Except.ok.inj h).symm⟩

/-- It binds no privileges. -/
theorem ne_procPrivilege_of_mem_converted {s : Frame} {conversion : Conversion} {tag : String}
    {attrs : List (String × Option String)} {bindings : List (String × Value)}
    (hc : converted s conversion tag attrs = .ok bindings) {binding : String × Value}
    (h : binding ∈ bindings) : binding.1 ≠ Reserved.procPrivilege := by
  induction attrs generalizing bindings with
  | nil =>
    obtain rfl := Except.ok.inj hc
    exact absurd h List.not_mem_nil
  | cons attr rest ih =>
    obtain ⟨hkey, value, more, _, hrest, rfl⟩ := converted_cons_eq_ok hc
    obtain rfl | h := List.mem_cons.1 h
    · exact hkey
    · exact ih hrest h

/-- The variables in which a block runs for a row are bound in one go. -/
theorem rowScope_eq (columns : List String) (row : Vars) (n : Nat) (locals : Vars) :
    rowScope columns row n locals = locals.insertAll (row ++
      [(Reserved.loadedDataItemIndex,
          rowNumber ((locals.insertAll row).get? Reserved.loadedDataItemIndex) (Int64.ofNat n)),
        (Reserved.loadedDataCols, .str (Text.joinWith "," columns))]) := by
  rw [Dict.insertAll_append]
  rfl

end Runner

/-- The tags that make an assertion of their own attributes: conditions, and
the branches of a selection that have one. -/
def assertingNames : List String := ["if", "elif", "when"]

/-- **Which tags the runner of a tag can execute** from the frame it is
called in: those inside the tag, the assertion that a condition or a branch
makes of its own attributes, and, if the tag is a call or a module, tags
from elsewhere. -/
inductive Tag.Leads (tag : Tag) (s : Frame) : Tag → Prop where
  /-- A tag inside it. -/
  | inside {child : Tag} (h : child ∈ tag.tags) : Leads tag s child
  /-- The assertion it makes of its own attributes. -/
  | assertion {child : Tag} (hname : tag.name ∈ assertingNames)
      (h : tag.ownAssertion? = some child) : Leads tag s child
  /-- A tag of the body of a procedure that is defined. -/
  | body {child procedure : Tag} {name : String} (h : tag.name = "call" ∨ tag.name = "cond_call")
      (hdefined : s.world.procedures.get? name = some procedure)
      (hchild : child ∈ procedure.tags) : Leads tag s child
  /-- The script of a module. -/
  | script {child : Tag} (h : tag.name = "module") : Leads tag s child

/-! ## What runners fault for -/

/-- **The causes that runners fault for.** For the others the engine faults
in their stead, or what stands outside the language. -/
def Cause.isRunners : Cause → Bool
  | .tooDeep .. | .unknownTag .. | .other .. => false
  | _ => true

/-- A script that cannot be loaded is a runner's fault. -/
theorem Script.isRunners_of_ofFile_eq_error {files : Files} {path : String} {cause : Cause}
    (h : ofFile files path = .error cause) : cause.isRunners = true := by
  unfold ofFile at h
  split at h
  · cases h
    rfl
  · unfold ofSource at h
    split at h
    · cases h
    · cases h
      rfl
  · split at h
    · cases h
      rfl
    · cases h
      rfl

namespace Runner

/-- An item that cannot be picked is a runner's fault. -/
theorem isRunners_of_pick_eq_error {key index : String} {value : Value} {cause : Cause}
    (h : pick key value index = .error cause) : cause.isRunners = true := by
  unfold pick at h
  split at h
  · cases h
    rfl
  split at h
  · cases h
    rfl
  split at h
  · cases h
    rfl
  · cases h

/-- An attribute that cannot be converted is a runner's fault. -/
theorem isRunners_of_apply_eq_error {conversion : Conversion} {tag key : String}
    {text : Option String} {cause : Cause} (h : conversion.apply tag key text = .error cause) :
    cause.isRunners = true := by
  unfold Conversion.apply at h
  split at h
  · cases h
  · cases h
    rfl
  · split at h
    · cases h
    · cases h
      rfl

/-- So is a typed assignment that does not go through. -/
theorem isRunners_of_converted_eq_error {s : Frame} {conversion : Conversion} {tag : String}
    {attrs : List (String × Option String)} {cause : Cause}
    (h : converted s conversion tag attrs = .error cause) : cause.isRunners = true := by
  induction attrs with
  | nil => cases h
  | cons attr rest ih =>
    obtain ⟨key, raw⟩ := attr
    unfold converted at h
    split at h
    · cases h
      rfl
    split at h
    · next cause' happly =>
      obtain rfl := Except.error.inj h
      exact isRunners_of_apply_eq_error happly
    · cases hrest : converted s conversion tag rest with
      | error cause' =>
        rw [hrest] at h
        obtain rfl := Except.error.inj h
        exact ih hrest
      | ok more =>
        rw [hrest] at h
        cases h

end Runner

/-! ## Computations that only look -/

namespace Run

variable {α β : Type}

/-- **A computation that only looks**: it ends with a result or with a
runner's fault and leaves the frame as it is. -/
def Looks (x : Run α) : Prop :=
  ∀ s : Frame, (∃ a, x s = .done a s) ∨
    ∃ cause, Cause.isRunners cause = true ∧ x s = .failed (.of cause) s

theorem looks_pure (a : α) : Looks (pure a) := fun _ => .inl ⟨a, rfl⟩

theorem looks_look (f : Frame → α) : Looks (look f) := fun s => .inl ⟨f s, rfl⟩

/-- A fault changes nothing; that its cause is a runner's is seen from the
cause. -/
theorem looks_fail {cause : Cause} (h : cause.isRunners = true) :
    Looks (fail cause : Run α) := fun _ => .inr ⟨cause, h, rfl⟩

/-- One look after another. -/
theorem looks_bind {x : Run α} {f : α → Run β} (hx : Looks x) (hf : ∀ a, Looks (f a)) :
    Looks (x >>= f) := by
  intro s
  rw [bind_apply]
  obtain ⟨a, ha⟩ | ⟨cause, hcause, ha⟩ := hx s
  · rw [ha]
    exact hf a s
  · rw [ha]
    exact .inr ⟨cause, hcause, rfl⟩

theorem looks_ite {c : Prop} [Decidable c] {x y : Run α} (hx : Looks x) (hy : Looks y) :
    Looks (if c then x else y) := by
  split
  · exact hx
  · exact hy

theorem looks_ofExcept {r : Except Cause α}
    (h : ∀ cause, r = .error cause → cause.isRunners = true) : Looks (ofExcept r) := by
  cases r with
  | ok a => exact looks_pure a
  | error cause => exact looks_fail (h cause rfl)

/-- What a look yields, it yields in the frame it started from. -/
theorem Looks.eq_of_done {x : Run α} (hx : Looks x) {s t : Frame} {a : α}
    (h : x s = .done a t) : t = s := by
  obtain ⟨b, hb⟩ | ⟨_, _, hb⟩ := hx s
  · rw [hb] at h
    injection h with _ ht
    exact ht.symm
  · rw [hb] at h
    cases h

/-- A look yields something, or the computation that begins with it faults
right there. -/
theorem Looks.done_or_bind_failed {x : Run α} (hx : x.Looks) (s : Frame) (f : α → Run β) :
    (∃ a, x s = .done a s) ∨ ∃ fault, (x >>= f) s = .failed fault s := by
  obtain h | ⟨cause, _, h⟩ := hx s
  · exact .inl h
  · exact .inr ⟨.of cause, bind_of_failed h f⟩

theorem looks_read (key : String) : Looks (read key) := looks_look _

theorem looks_attrText (tag : Tag) (name : String) : Looks (attrText tag name) := looks_look _

theorem looks_attrKey (tag : Tag) (name : String) : Looks (attrKey tag name) := looks_look _

theorem looks_requireKey (tag : Tag) (name : String) : Looks (requireKey tag name) :=
  looks_bind (looks_attrKey tag name) fun _ => looks_ite (looks_fail rfl) (looks_pure _)

/-- An attribute that has to be there reads as it does, and is not empty. -/
theorem attrKey_of_requireKey {tag : Tag} {name key : String} {s t : Frame}
    (h : requireKey tag name s = .done key t) :
    key = s.attrKey tag name ∧ (s.attrKey tag name).isEmpty = false := by
  have hread : (if (s.attrKey tag name).isEmpty then fail (.attributeMissing tag.name name)
      else pure (s.attrKey tag name) : Run String) s = .done key t := h
  split at hread
  · cases hread
  · next hnamed => exact ⟨(Ending.done.inj hread).1.symm, by simpa using hnamed⟩

theorem eq_attrKey_of_requireKey {tag : Tag} {name key : String} {s t : Frame}
    (h : requireKey tag name s = .done key t) : key = s.attrKey tag name :=
  (attrKey_of_requireKey h).1

theorem looks_attrSwitch (tag : Tag) (name : String) (default : Bool) :
    Looks (attrSwitch tag name default) := by
  refine looks_bind (looks_attrText tag name) fun text => ?_
  cases text with
  | none => exact looks_pure default
  | some text =>
    dsimp only
    split
    · exact looks_pure _
    · exact looks_fail rfl

theorem looks_passThrough (tag : Tag) : Looks (passThrough tag) := looks_attrSwitch tag _ _

theorem looks_checkEncoding (tag : Tag) : Looks (checkEncoding tag) :=
  looks_bind (looks_attrKey tag _) fun _ => looks_ite (looks_pure _) (looks_fail rfl)

theorem looks_checkTableType (tag : Tag) : Looks (checkTableType tag) :=
  looks_bind (looks_attrKey tag _) fun _ => looks_ite (looks_pure _) (looks_fail rfl)

theorem looks_fieldPolicy (tag : Tag) : Looks (fieldPolicy tag) :=
  looks_bind (looks_attrSwitch tag _ _) fun _ =>
    looks_bind (looks_attrSwitch tag _ _) fun _ => looks_pure _

theorem looks_readFile (name : String) : Looks (readFile name) := by
  refine looks_bind (looks_look _) fun w => ?_
  dsimp only
  split
  · exact looks_pure _
  · exact looks_fail rfl

theorem looks_outputPath (name : String) : Looks (outputPath name) := looks_look _

theorem looks_keyPair (tag : Tag) : Looks (keyPair tag) :=
  looks_bind (looks_attrKey tag _) fun _ => looks_bind (looks_attrKey tag _) fun _ => looks_pure _

end Run

namespace Runner

theorem looks_handleText (name : String) : (handleText name).Looks := by
  refine Run.looks_bind (Run.looks_look _) fun found => ?_
  cases found with
  | none => exact Run.looks_fail rfl
  | some text => exact Run.looks_pure text

theorem looks_outputMode (tag : Tag) (default : Files.WriteMode) :
    (outputMode tag default).Looks := by
  refine Run.looks_bind (Run.looks_attrKey tag _) fun mode => Run.looks_ite (Run.looks_pure _) ?_
  split
  · exact Run.looks_pure _
  · exact Run.looks_fail rfl

theorem looks_compareValues (c : Comparison) (left right : Value) :
    (compareValues c left right).Looks := by
  refine Run.looks_ofExcept fun cause h => ?_
  cases hholds : c.holds left right with
  | ok answer =>
    rw [hholds] at h
    cases h
  | error kinds =>
    rw [hholds] at h
    obtain rfl := Except.error.inj h
    rfl

theorem looks_readSource (tag : Tag) : (readSource tag).Looks := by
  refine Run.looks_bind (Run.looks_attrKey tag _) fun key => Run.looks_ite ?_ ?_
  · refine Run.looks_bind (Run.looks_read key) fun value => ?_
    split
    · exact Run.looks_pure _
    · exact Run.looks_fail rfl
  · refine Run.looks_bind (Run.looks_attrText tag _) fun text => ?_
    cases text with
    | some text => exact Run.looks_pure text
    | none =>
      refine Run.looks_bind (Run.looks_attrKey tag _) fun origin => Run.looks_ite ?_ ?_
      · split
        · exact looks_handleText _
        · exact Run.looks_readFile _
      · exact Run.looks_ite (Run.looks_fail rfl) (Run.looks_pure _)

theorem looks_reading (site : Site) : (reading site).Looks := by
  refine Run.looks_bind (Run.looks_attrKey _ _) fun key => ?_
  refine Run.looks_bind (Run.looks_attrText _ _) fun given => Run.looks_ite ?_ ?_
  · split
    · exact Run.looks_pure _
    · exact Run.looks_fail rfl
  · refine Run.looks_bind (Run.looks_look _) fun value => ?_
    refine Run.looks_bind (Run.looks_attrText _ _) fun member => ?_
    split
    · split
      · exact Run.looks_pure _
      · exact Run.looks_fail rfl
    · refine Run.looks_bind (Run.looks_attrText _ _) fun index => ?_
      split
      · exact Run.looks_bind (Run.looks_ofExcept fun _ => isRunners_of_pick_eq_error) fun _ =>
          Run.looks_pure _
      · exact Run.looks_pure _

/-- **How a command comes out**: it faults, it has no program to start, or
it has started one and goes by what becomes of that. -/
theorem command_cases (site : Site) (s : Frame) :
    (∃ cause, cause.isRunners = true ∧ command site s = .failed (.of cause) s) ∨
    ((s.attrKey site.tag "cmd").isEmpty = true ∧ command site s = .done .fail s) ∨
    ∃ arguments exit?, Privilege.holds s.locals "call_os_cmd" = true ∧
      (s.attrKey site.tag "cmd").isEmpty = false ∧
      s.world.launch (s.attrKey site.tag "cmd") arguments = .ok exit? ∧
      command site s =
        exit?.elim (.exhausted { s with world := s.world.start (s.attrKey site.tag "cmd") arguments })
          fun exit => .done (.ofBool exit.succeeded) { s with world :=
            { s.world.start (s.attrKey site.tag "cmd") arguments with files := exit.files } } := by
  have hlocals : Run.look (·.locals) s = .done s.locals s := rfl
  have hprogram : Run.attrKey site.tag "cmd" s = .done (s.attrKey site.tag "cmd") s := rfl
  have harguments : Run.attrText site.tag "args" s = .done (s.attrText site.tag "args") s := rfl
  have hworld : Run.look (·.world) s = .done s.world s := rfl
  unfold command
  rw [Run.bind_of_done hlocals]
  split
  · exact .inl ⟨_, rfl, rfl⟩
  next hheld =>
  rw [Run.bind_of_done hprogram]
  split
  · next hempty => exact .inr (.inl ⟨hempty, rfl⟩)
  next hnamed =>
  rw [Run.bind_of_done harguments, Run.bind_of_done hworld]
  cases hlaunch : s.world.launch (s.attrKey site.tag "cmd")
      (Text.words ((s.attrText site.tag "args").getD "")) with
  | error why => exact .inl ⟨.cannotStart _ why, rfl, rfl⟩
  | ok exit? =>
    refine .inr (.inr ⟨_, exit?, by simpa using hheld, by simpa using hnamed, hlaunch, ?_⟩)
    cases exit? with
    | none => rfl
    | some exit => rfl

end Runner

end TagScript
