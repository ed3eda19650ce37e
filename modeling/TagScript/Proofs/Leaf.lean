import TagScript.Proofs.Isolation

/-!
# Leaves act once, and last

A tag that does something itself looks around first: it reads its
attributes, the variables and files that they name, and converts what it has
read. Only then does it act, by one change of the frame, and after that
nothing can go wrong any more. So it either faults before it has changed
anything but the locks on files, or ends well and has done one thing, which
its name and its attributes told before it began. Only of a command the one
thing may be that it has started a program and waits for it, for ever.

Two of these tags may have a tag inside them executed first, whose value
they assign or write. The looking around is split by that execution then,
and the deed still comes last.
-/

namespace TagScript

namespace Tag

/-! ## What a tag tells of its deed -/

/-- **The local variables that a tag assigns** if it ends well, told from the
frame in which its runner begins. -/
inductive Assigns (tag : Tag) (start : Frame) : String → Prop where
  /-- That of an assignment, unless it is said to be a global one. -/
  | assigned (h : tag.name = "set") (hlocal : Run.attrSwitch tag "global" false start =
      .done false start) : Assigns tag start (start.attrKey tag "key")
  /-- All attributes of a typed assignment. -/
  | attribute {key : String} (h : tag.name ∈ ["set_int", "set_num", "set_str"])
      (hattr : key ∈ tag.attrs.map Prod.fst) : Assigns tag start key
  /-- That of an iterator. -/
  | iterator (h : tag.name ∈ ["iter_make", "iter_next"]) : Assigns tag start (start.attrKey tag "key")
  /-- That which a document is delivered to. -/
  | document (h : tag.name ∈ ["json_load", "json_dump", "template"]) :
      Assigns tag start (start.attrKey tag "_to_key")
  /-- Those of a table, of which none is reserved. -/
  | loaded {key : String} (h : tag.name = "load_vars") (hkey : Reserved.isReserved key = false) :
      Assigns tag start key
  /-- That which holds the privileges. -/
  | granted (h : tag.name = "procedure_privilege") : Assigns tag start Reserved.procPrivilege
  /-- That which holds the exception handler. -/
  | installed (h : tag.name = "handle_exceptions") : Assigns tag start Reserved.exceptionsHandler

/-- **The paths that a tag writes to** if it ends well. -/
inductive WritesTo (tag : Tag) (start : Frame) : String → Prop where
  /-- That of an output. -/
  | output (h : tag.name = "output") :
      WritesTo tag start (Path.join start.world.primaryDir (start.attrKey tag "name"))
  /-- That which a document is delivered to, unless it is delivered to a
  variable. -/
  | document {name : String} (h : tag.name ∈ ["json_dump", "template"])
      (hkey : (start.attrKey tag "_to_key").isEmpty = true)
      (hgoal : Runner.Target.ofText (start.attrKey tag "_to_file") = .file name) :
      WritesTo tag start (Path.join start.world.primaryDir name)

/-- **What a tag that does something itself does** to the frame it has come
to, told from the frame in which its runner began. -/
inductive Deed (tag : Tag) (start : Frame) : Frame → Frame → Prop where
  /-- Nothing, since it only reads. -/
  | nothing (s : Frame) : Deed tag start s s
  /-- It binds local variables. -/
  | assigned (s : Frame) (bindings : List (String × Value))
      (h : ∀ binding ∈ bindings, tag.Assigns start binding.1) :
      Deed tag start s { s with locals := s.locals.insertAll bindings }
  /-- It binds a global variable. -/
  | assignedGlobally (s : Frame) (value : Value) (h : tag.name = "set")
      (hglobal : Run.attrSwitch tag "global" false start = .done true start) :
      Deed tag start s (s.setGlobal (start.attrKey tag "key") value)
  /-- It asks an iterator that a global variable holds for an item. -/
  | advanced (s : Frame) (items : List Value) (position next : Nat) (h : tag.name = "iter_next")
      (hnamed : (start.attrKey tag "key").isEmpty = false)
      (hlocal : start.locals.get? (start.attrKey tag "key") = none)
      (hglobal : start.world.globals.get? (start.attrKey tag "key") = some (.iter items position))
      (hnext : next = position ∨ next = position + 1) :
      Deed tag start s (s.setGlobal (start.attrKey tag "key") (.iter items next))
  /-- It defines a procedure. -/
  | defined (s : Frame) (procedures : Dict Tag) (h : tag.name = "procedure") :
      Deed tag start s { s with world := { s.world with procedures } }
  /-- It writes a file. -/
  | wrote (s : Frame) (mode : Files.WriteMode) (path : String) (text : Content → String)
      (files : Files) (h : tag.WritesTo start path)
      (hfiles : s.world.files.write mode path text = .ok files) :
      Deed tag start s { s with world := { s.world.lock path with files } }
  /-- It writes to a memory handle. -/
  | appended (s : Frame) (handles : Dict String) (h : tag.name ∈ ["json_dump", "template"]) :
      Deed tag start s { s with world := { s.world with handles } }
  /-- It installs an exception handler. -/
  | installed (s : Frame) (handler : Handler) (h : tag.name = "handle_exceptions") :
      Deed tag start s { s with
        locals := s.locals.insert Reserved.exceptionsHandler (.handler handler)
        world := { s.world with handlers := s.world.handlers + 1 } }
  /-- It starts a command, which may leave other files behind. -/
  | started (s : Frame) (arguments : List String) (files : Files) (h : tag.name = "call_os_cmd")
      (hprogram : (start.attrKey tag "cmd").isEmpty = false) :
      Deed tag start s { s with
        world := { s.world.start (start.attrKey tag "cmd") arguments with files } }

/-- **The tag inside a tag that is executed first**: what an output writes,
and what an assignment of type `object` assigns. -/
def operand? (tag : Tag) (start : Frame) : Option Tag :=
  if tag.name = "output" ∨
      tag.name = "set" ∧ Text.trim ((start.attrText tag "type").getD "value") = "object" then
    tag.firstTag?
  else none

end Tag

namespace Run

variable {α β : Type} {R : Frame → Frame → Prop} {s : Frame}

/-! ## Computations that act last -/

/-- **A computation that acts last**: it ends with a result, and how it has
changed the frame then is told by a relation, or it faults and has changed
nothing but the locks. -/
def ActsLast (R : Frame → Frame → Prop) (x : Run α) (s : Frame) : Prop :=
  (∃ a t, x s = .done a t ∧ R s t) ∨
    ∃ fault locks, x s = .failed fault { s with world := { s.world with locks } }

/-- **A computation that waits in the end**: all that it has done is to start
a program, which never ends. -/
def WaitsLast (x : Run α) (s : Frame) : Prop :=
  ∃ program arguments t, x s = .exhausted t ∧ t.IsWaiting ∧
    t = { s with world := s.world.start program arguments }

/-- Looking around comes before acting. -/
theorem Looks.actsLast_bind {x : Run α} {f : α → Run β} (hx : x.Looks)
    (hf : ∀ a, x s = .done a s → ActsLast R (f a) s) : ActsLast R (x >>= f) s := by
  obtain ⟨a, ha⟩ | ⟨cause, _, ha⟩ := hx s
  · unfold ActsLast
    rw [bind_of_done ha]
    exact hf a ha
  · exact .inr ⟨.of cause, s.world.locks, bind_of_failed ha f⟩

theorem actsLast_fail (cause : Cause) : ActsLast R (fail cause : Run α) s :=
  .inr ⟨.of cause, s.world.locks, rfl⟩

theorem actsLast_pure (a : α) (h : R s s) : ActsLast R (pure a) s := .inl ⟨a, s, rfl, h⟩

theorem actsLast_ite {c : Prop} [Decidable c] {x y : Run α} (hx : c → ActsLast R x s)
    (hy : ¬c → ActsLast R y s) : ActsLast R (if c then x else y) s := by
  split
  · next h => exact hx h
  · next h => exact hy h

/-- After the deed there is only a result. -/
theorem actsLast_change {f : Frame → Frame} (a : α) (h : R s (f s)) :
    ActsLast R (change f >>= fun _ => pure a) s := .inl ⟨a, f s, rfl, h⟩

theorem ActsLast.bind_pure {x : Run Unit} (hx : ActsLast R x s) (a : α) :
    ActsLast R (x >>= fun _ => pure a) s := by
  obtain ⟨_, t, hdone, h⟩ | ⟨fault, locks, hfailed⟩ := hx
  · exact .inl ⟨a, t, bind_of_done hdone _, h⟩
  · exact .inr ⟨fault, locks, bind_of_failed hfailed _⟩

/-- **Writing a file** is one deed. -/
theorem actsLast_writeFile {mode : Files.WriteMode} {path : String} {text : Content → String}
    {refused : String → Refusal → Cause}
    (h : ∀ files, s.world.files.write mode path text = .ok files →
      R s { s with world := { s.world.lock path with files } }) :
    ActsLast R (writeFile mode path text refused) s := by
  cases hwrite : s.world.files.write mode path text with
  | ok files => exact .inl ⟨(), _, writeFile_of_ok hwrite, h files hwrite⟩
  | error why => exact .inr ⟨_, s.world.locks.ask path, writeFile_of_error hwrite⟩

/-- **An assignment** is one, and a refused one is none. -/
theorem actsLast_store {key : String} {value : Value} {global : Bool}
    (h : R s (s.set key value global)) : ActsLast R (store key value global) s := by
  unfold store
  refine actsLast_ite (fun _ => actsLast_fail _) fun _ => ?_
  exact .inl ⟨(), _, rfl, h⟩

end Run

/-! ## The runners of tags that do something themselves -/

namespace Runner

variable {site : Site} {s : Frame}

/-- A binding of one variable. -/
theorem deed_setLocal {tag : Tag} {start : Frame} {key : String} (value : Value)
    (h : tag.Assigns start key) : tag.Deed start s (s.setLocal key value) :=
  .assigned s [(key, value)] fun _ hb => by
    obtain rfl := List.mem_singleton.1 hb
    exact h

/-- What a typed assignment binds are its attributes. -/
theorem mem_attrs_of_mem_converted {conversion : Conversion} {tag : String}
    {attrs : List (String × Option String)} {bindings : List (String × Value)}
    (hc : converted s conversion tag attrs = .ok bindings) {binding : String × Value}
    (h : binding ∈ bindings) : binding.1 ∈ attrs.map Prod.fst := by
  induction attrs generalizing bindings with
  | nil =>
    obtain rfl := Except.ok.inj hc
    exact absurd h List.not_mem_nil
  | cons attr rest ih =>
    obtain ⟨_, value, more, _, hrest, rfl⟩ := converted_cons_eq_ok hc
    obtain rfl | h := List.mem_cons.1 h
    · exact List.mem_cons_self
    · exact List.mem_cons_of_mem _ (ih hrest h)

theorem actsLast_assignTyped (conversion : Conversion)
    (hname : site.tag.name ∈ ["set_int", "set_num", "set_str"]) :
    Run.ActsLast (site.tag.Deed s) (assignTyped conversion site) s := by
  refine (Run.looks_look id).actsLast_bind fun frame hframe => ?_
  obtain rfl : s = frame := (Ending.done.inj hframe).1
  cases hc : converted s conversion site.tag.name site.tag.attrs with
  | error cause => exact .inr ⟨.of cause, s.world.locks, rfl⟩
  | ok bindings =>
    exact Run.actsLast_change _ (.assigned s bindings fun binding hb =>
      .attribute hname (mem_attrs_of_mem_converted hc hb))

theorem actsLast_reading : Run.ActsLast (site.tag.Deed s) (reading site) s := by
  obtain ⟨outcome, h⟩ | ⟨cause, _, h⟩ := looks_reading site s
  · exact .inl ⟨outcome, s, h, .nothing s⟩
  · exact .inr ⟨.of cause, s.world.locks, h⟩

theorem actsLast_procedure (hname : site.tag.name = "procedure") :
    Run.ActsLast (site.tag.Deed s) (procedure site) s := by
  unfold procedure
  exact Run.actsLast_ite (fun _ => Run.actsLast_fail _) fun _ =>
    Run.actsLast_change _ (.defined s _ hname)

theorem actsLast_grant (hname : site.tag.name = "procedure_privilege") :
    Run.ActsLast (site.tag.Deed s) (grant site) s := by
  refine (Run.looks_look _).actsLast_bind fun locals _ => ?_
  refine Run.actsLast_ite (fun _ => Run.actsLast_fail _) fun _ => ?_
  refine (Run.looks_attrKey _ _).actsLast_bind fun names _ => ?_
  refine Run.actsLast_ite (fun _ => Run.actsLast_fail _) fun _ => ?_
  exact Run.actsLast_change _ (deed_setLocal _ (.granted hname))

theorem actsLast_loadVariables (hname : site.tag.name = "load_vars") :
    Run.ActsLast (site.tag.Deed s) (loadVariables site) s := by
  refine (Run.looks_checkTableType _).actsLast_bind fun _ _ => ?_
  refine (Run.looks_checkEncoding _).actsLast_bind fun _ _ => ?_
  refine (Run.looks_fieldPolicy _).actsLast_bind fun policy _ => ?_
  refine (Run.looks_requireKey _ _).actsLast_bind fun name _ => ?_
  refine (Run.looks_readFile name).actsLast_bind fun source _ => ?_
  exact Run.actsLast_change _ (.assigned s _ fun binding hb =>
    .loaded hname (Table.not_reserved_of_mem_assignments hb))

theorem actsLast_handleExceptions (hname : site.tag.name = "handle_exceptions") :
    Run.ActsLast (site.tag.Deed s) (handleExceptions site) s := by
  refine (Run.looks_checkTableType _).actsLast_bind fun _ _ => ?_
  refine (Run.looks_requireKey _ _).actsLast_bind fun name _ => ?_
  refine (Run.looks_attrKey _ _).actsLast_bind fun named _ => ?_
  refine (Run.looks_attrSwitch _ _ _).actsLast_bind fun debug _ => ?_
  refine Run.actsLast_ite (fun _ => Run.actsLast_fail _) fun _ => ?_
  refine (Run.looks_outputPath name).actsLast_bind fun path _ => ?_
  refine (Run.looks_look _).actsLast_bind fun id _ => ?_
  exact .inl ⟨_, _, rfl, .installed s _ hname⟩

theorem actsLast_makeIterator (hname : site.tag.name = "iter_make") :
    Run.ActsLast (site.tag.Deed s) (makeIterator site) s := by
  refine (Run.looks_requireKey _ _).actsLast_bind fun key hkey => ?_
  obtain rfl := Run.eq_attrKey_of_requireKey hkey
  refine (Run.looks_requireKey _ _).actsLast_bind fun source _ => ?_
  refine (Run.looks_read source).actsLast_bind fun value _ => ?_
  cases value.items? with
  | none => exact Run.actsLast_fail _
  | some items =>
    exact Run.actsLast_change _ (deed_setLocal _ (.iterator (by simp [hname])))

/-- **A step of an iterator** goes on by one item or stays where it is, in
the layer that holds the iterator. -/
theorem deed_advance {tag : Tag} (hname : tag.name = "iter_next")
    (hnamed : (s.attrKey tag "key").isEmpty = false) {items : List Value} {position : Nat}
    (hread : s.read (s.attrKey tag "key") = .iter items position) :
    tag.Deed s s (s.set (s.attrKey tag "key") (Value.advance items position).2
      !s.locals.contains (s.attrKey tag "key")) := by
  unfold Dict.contains
  cases hlocal : s.locals.get? (s.attrKey tag "key") with
  | some value => exact deed_setLocal _ (.iterator (by simp [hname]))
  | none =>
    have hglobal : s.world.globals.get? (s.attrKey tag "key") = some (.iter items position) := by
      unfold Frame.read Frame.lookup Scope.lookup at hread
      rw [hlocal, Option.none_or] at hread
      cases hget : s.world.globals.get? (s.attrKey tag "key") with
      | none =>
        rw [hget] at hread
        cases hread
      | some value =>
        rw [hget] at hread
        exact congrArg some hread
    unfold Value.advance
    split
    · exact .advanced s items position (position + 1) hname hnamed hlocal hglobal (.inr rfl)
    · exact .advanced s items position position hname hnamed hlocal hglobal (.inl rfl)

theorem actsLast_stepIterator (hname : site.tag.name = "iter_next") :
    Run.ActsLast (site.tag.Deed s) (stepIterator site) s := by
  refine (Run.looks_requireKey _ _).actsLast_bind fun key hkey => ?_
  obtain ⟨rfl, hnamed⟩ := Run.attrKey_of_requireKey hkey
  refine (Run.looks_look _).actsLast_bind fun global hglobal => ?_
  obtain rfl := (Ending.done.inj hglobal).1
  refine (Run.looks_read _).actsLast_bind fun value hvalue => ?_
  obtain rfl := (Ending.done.inj hvalue).1
  dsimp only
  split
  · next hread => exact Run.actsLast_change _ (deed_advance hname hnamed hread)
  · exact Run.actsLast_fail _

theorem actsLast_deliver {tag : Tag} (hname : tag.name ∈ ["json_dump", "template"])
    (text : String) : Run.ActsLast (tag.Deed s) (deliver tag text) s := by
  have hdocument : tag.name ∈ ["json_load", "json_dump", "template"] :=
    List.mem_cons_of_mem _ hname
  refine (Run.looks_attrKey _ _).actsLast_bind fun key hkey => ?_
  obtain rfl := (Ending.done.inj hkey).1
  refine Run.actsLast_ite (fun _ => ?_) fun hempty => ?_
  · exact (Run.actsLast_store (deed_setLocal _ (.document hdocument))).bind_pure _
  refine (Run.looks_attrKey _ _).actsLast_bind fun goal hgoal => ?_
  obtain rfl := (Ending.done.inj hgoal).1
  refine Run.actsLast_ite (fun _ => Run.actsLast_pure _ (.nothing s)) fun _ => ?_
  cases htarget : Target.ofText (s.attrKey tag "_to_file") with
  | handle name =>
    refine (looks_handleText name).actsLast_bind fun before _ => ?_
    exact Run.actsLast_change _ (.appended s _ hname)
  | file name =>
    refine (Run.looks_outputPath name).actsLast_bind fun path hpath => ?_
    obtain rfl := (Ending.done.inj hpath).1
    refine (Run.actsLast_writeFile fun files hfiles => ?_).bind_pure _
    exact .wrote s _ _ _ files (.document hname (by simpa using hempty) htarget) hfiles

theorem actsLast_loadJson (hname : site.tag.name = "json_load") :
    Run.ActsLast (site.tag.Deed s) (loadJson site) s := by
  refine (Run.looks_checkEncoding _).actsLast_bind fun _ _ => ?_
  refine (looks_readSource _).actsLast_bind fun source _ => ?_
  cases Json.parse? source with
  | none => exact Run.actsLast_fail _
  | some value =>
    refine (Run.looks_attrKey _ _).actsLast_bind fun key hkey => ?_
    obtain rfl := (Ending.done.inj hkey).1
    refine Run.actsLast_ite (fun _ => Run.actsLast_pure _ (.nothing s)) fun _ => ?_
    exact (Run.actsLast_store (deed_setLocal _ (.document (by simp [hname])))).bind_pure _

theorem actsLast_dumpJson (hname : site.tag.name = "json_dump") :
    Run.ActsLast (site.tag.Deed s) (dumpJson site) s := by
  have hdeliver : ∀ text, Run.ActsLast (site.tag.Deed s) (deliver site.tag text) s :=
    actsLast_deliver (by simp [hname])
  refine (Run.looks_checkEncoding _).actsLast_bind fun _ _ => ?_
  refine (Run.looks_attrKey _ _).actsLast_bind fun key _ => ?_
  refine Run.actsLast_ite (fun _ => ?_) fun _ => ?_
  · exact (Run.looks_pure _).actsLast_bind fun _ _ => hdeliver _
  · exact (Run.looks_read key).actsLast_bind fun _ _ => hdeliver _

theorem actsLast_template (hname : site.tag.name = "template") :
    Run.ActsLast (site.tag.Deed s) (template site) s := by
  refine (Run.looks_checkEncoding _).actsLast_bind fun _ _ => ?_
  refine (looks_readSource _).actsLast_bind fun source _ => ?_
  refine (Run.looks_look _).actsLast_bind fun filled _ => ?_
  exact actsLast_deliver (by simp [hname]) filled

/-- A command acts last as well, or waits in the end. -/
theorem actsLast_or_waitsLast_command (hname : site.tag.name = "call_os_cmd") :
    Run.ActsLast (site.tag.Deed s) (command site) s ∨ Run.WaitsLast (command site) s := by
  obtain ⟨cause, _, hfails⟩ | ⟨_, hidle⟩ | ⟨arguments, exit?, hheld, hnamed, hlaunch, hstarts⟩ :=
    command_cases site s
  · exact .inl (.inr ⟨.of cause, s.world.locks, hfails⟩)
  · exact .inl (.inl ⟨_, s, hidle, .nothing s⟩)
  · cases exit? with
    | none =>
      exact .inr ⟨_, arguments, _, hstarts, ⟨hheld, s.world, _, arguments, rfl, hlaunch⟩, rfl⟩
    | some exit => exact .inl (.inl ⟨_, _, hstarts, .started s arguments exit.files hname hnamed⟩)

/-! ### With and without an operand -/

/-- What is left of an assignment once there is a value. -/
theorem actsLast_assigned (hname : site.tag.name = "set") {global : Bool}
    (hglobal : Run.attrSwitch site.tag "global" false s = .done global s) (value : Value)
    (t : Frame) :
    Run.ActsLast (site.tag.Deed s)
      (Run.store (s.attrKey site.tag "key") value global >>= fun _ => pure Outcome.ok) t := by
  refine (Run.actsLast_store ?_).bind_pure _
  cases global with
  | true => exact .assignedGlobally t value hname hglobal
  | false => exact deed_setLocal value (.assigned hname hglobal)

theorem actsLast_assign (hname : site.tag.name = "set")
    (hoperand : Text.trim ((s.attrText site.tag "type").getD "value") = "object" →
      site.tag.firstTag? = none) :
    Run.ActsLast (site.tag.Deed s) (assign site) s := by
  refine (Run.looks_attrText _ _).actsLast_bind fun type htype => ?_
  obtain rfl := (Ending.done.inj htype).1
  refine (Run.looks_requireKey _ _).actsLast_bind fun key hkey => ?_
  obtain rfl := Run.eq_attrKey_of_requireKey hkey
  refine (Run.looks_attrSwitch _ _ _).actsLast_bind fun global hglobal => ?_
  have hrest := actsLast_assigned hname hglobal
  dsimp only
  refine Run.actsLast_ite (fun _ => ?_) fun _ => Run.actsLast_ite (fun hobject => ?_) fun _ => ?_
  · refine (Run.looks_attrText _ _).actsLast_bind fun text _ => ?_
    cases text with
    | some text => exact (Run.looks_pure _).actsLast_bind fun value _ => hrest value s
    | none => exact (Run.looks_pure _).actsLast_bind fun value _ => hrest value s
  · rw [hoperand hobject]
    exact (Run.looks_fail rfl).actsLast_bind fun value _ => hrest value s
  · exact Run.actsLast_ite
      (fun _ => (Run.looks_fail rfl).actsLast_bind fun value _ => hrest value s)
      fun _ => (Run.looks_fail rfl).actsLast_bind fun value _ => hrest value s

theorem actsLast_output (hname : site.tag.name = "output") (hoperand : site.tag.firstTag? = none) :
    Run.ActsLast (site.tag.Deed s) (output site) s := by
  refine (Run.looks_checkEncoding _).actsLast_bind fun _ _ => ?_
  refine (Run.looks_requireKey _ _).actsLast_bind fun name hkey => ?_
  obtain rfl := Run.eq_attrKey_of_requireKey hkey
  refine (Run.looks_outputPath _).actsLast_bind fun path hpath => ?_
  obtain rfl := (Ending.done.inj hpath).1
  refine (Run.looks_look _).actsLast_bind fun lineEnd _ => ?_
  dsimp only
  rw [hoperand]
  refine (Run.looks_checkTableType _).actsLast_bind fun _ _ => ?_
  refine (Run.looks_attrKey _ _).actsLast_bind fun columns _ => ?_
  refine Run.actsLast_ite (fun _ => Run.actsLast_fail _) fun _ => ?_
  refine (looks_outputMode _ _).actsLast_bind fun mode _ => ?_
  refine (Run.looks_look _).actsLast_bind fun row _ => ?_
  refine (Run.actsLast_writeFile fun files hfiles => ?_).bind_pure _
  exact .wrote s _ _ _ files (.output hname) hfiles

end Runner

namespace Run

variable {α β : Type} {R : Frame → Frame → Prop} {s : Frame} {child : Run Outcome}

/-- **A computation that executes an operand before it acts last**: it faults
before that, or goes on after it to act last from whatever frame that has
led to. -/
def ActsAfter (child : Run Outcome) (R : Frame → Frame → Prop) (x : Run α) (s : Frame) : Prop :=
  (∃ fault, x s = .failed fault s) ∨
    ∃ f : Outcome → Run α, x s = (child >>= f) s ∧ ∀ outcome t, ActsLast R (f outcome) t

theorem Looks.actsAfter_bind {x : Run α} {f : α → Run β} (hx : x.Looks)
    (hf : ∀ a, x s = .done a s → ActsAfter child R (f a) s) : ActsAfter child R (x >>= f) s := by
  obtain ⟨a, ha⟩ | ⟨cause, _, ha⟩ := hx s
  · unfold ActsAfter
    rw [bind_of_done ha]
    exact hf a ha
  · exact .inl ⟨.of cause, bind_of_failed ha f⟩

theorem actsAfter_bind {f : Outcome → Run α} (hf : ∀ outcome t, ActsLast R (f outcome) t) :
    ActsAfter child R (child >>= f) s := .inr ⟨f, rfl, hf⟩

end Run

namespace Runner

variable {site : Site} {s : Frame} {child : Tag}

theorem actsAfter_assign (hname : site.tag.name = "set")
    (hobject : Text.trim ((s.attrText site.tag "type").getD "value") = "object")
    (hchild : site.tag.firstTag? = some child) :
    Run.ActsAfter (site.run child) (site.tag.Deed s) (assign site) s := by
  refine (Run.looks_attrText _ _).actsAfter_bind fun type htype => ?_
  obtain rfl := (Ending.done.inj htype).1
  refine (Run.looks_requireKey _ _).actsAfter_bind fun key hkey => ?_
  obtain rfl := Run.eq_attrKey_of_requireKey hkey
  refine (Run.looks_attrSwitch _ _ _).actsAfter_bind fun global hglobal => ?_
  have hrest := actsLast_assigned hname hglobal
  dsimp only
  rw [hobject, if_neg (by decide), if_pos rfl, hchild]
  exact Run.actsAfter_bind fun outcome t =>
    (Run.looks_pure _).actsLast_bind fun value _ => hrest value t

theorem actsAfter_output (hname : site.tag.name = "output")
    (hchild : site.tag.firstTag? = some child) :
    Run.ActsAfter (site.run child) (site.tag.Deed s) (output site) s := by
  refine (Run.looks_checkEncoding _).actsAfter_bind fun _ _ => ?_
  refine (Run.looks_requireKey _ _).actsAfter_bind fun name hkey => ?_
  obtain rfl := Run.eq_attrKey_of_requireKey hkey
  refine (Run.looks_outputPath _).actsAfter_bind fun path hpath => ?_
  obtain rfl := (Ending.done.inj hpath).1
  refine (Run.looks_look _).actsAfter_bind fun lineEnd _ => ?_
  dsimp only
  rw [hchild]
  refine Run.actsAfter_bind fun outcome t => ?_
  refine (looks_outputMode _ _).actsLast_bind fun mode _ => ?_
  refine (Run.actsLast_writeFile fun files hfiles => ?_).bind_pure _
  exact .wrote t _ _ _ files (.output hname) hfiles

/-! ## All of them -/

/-- **A tag that does something itself acts last**, unless it has an
operand. -/
theorem actsLast_of_operand? {runner : Runner} (hrunner : (site.tag.name, runner) ∈ builtins)
    (hname : site.tag.name ∈ leafNames) (hcommand : site.tag.name ≠ "call_os_cmd")
    (hoperand : site.tag.operand? s = none) :
    Run.ActsLast (site.tag.Deed s) (runner site) s := by
  have hset : site.tag.name = "set" →
      Text.trim ((s.attrText site.tag "type").getD "value") = "object" →
      site.tag.firstTag? = none := fun hset hobject => by
    unfold Tag.operand? at hoperand
    rwa [if_pos (.inr ⟨hset, hobject⟩)] at hoperand
  have houtput : site.tag.name = "output" → site.tag.firstTag? = none := fun houtput => by
    unfold Tag.operand? at hoperand
    rwa [if_pos (.inl houtput)] at hoperand
  have hleaves : builtins.filter (fun entry => leafNames.contains entry.1) =
      [("procedure", procedure), ("procedure_privilege", grant), ("set", assign),
        ("set_int", assignTyped .integer), ("set_num", assignTyped .double),
        ("set_str", assignTyped .text), ("get", reading), ("return", reading),
        ("load_vars", loadVariables), ("output", output),
        ("handle_exceptions", handleExceptions), ("iter_make", makeIterator),
        ("iter_next", stepIterator), ("json_load", loadJson), ("json_dump", dumpJson),
        ("template", template), ("call_os_cmd", command)] := rfl
  have hmem : (site.tag.name, runner) ∈
      builtins.filter fun entry => leafNames.contains entry.1 :=
    List.mem_filter.2 ⟨hrunner, List.contains_iff_mem.2 hname⟩
  rw [hleaves] at hmem
  simp only [List.mem_cons, Prod.mk.injEq, List.not_mem_nil, or_false] at hmem
  -- one after the other, each with the name that the tag then has
  obtain ⟨h, rfl⟩ | ⟨h, rfl⟩ | ⟨h, rfl⟩ | ⟨h, rfl⟩ | ⟨h, rfl⟩ | ⟨h, rfl⟩ | ⟨_, rfl⟩ | ⟨_, rfl⟩ |
    ⟨h, rfl⟩ | ⟨h, rfl⟩ | ⟨h, rfl⟩ | ⟨h, rfl⟩ | ⟨h, rfl⟩ | ⟨h, rfl⟩ | ⟨h, rfl⟩ | ⟨h, rfl⟩ |
    ⟨h, rfl⟩ := hmem
  · exact actsLast_procedure h
  · exact actsLast_grant h
  · exact actsLast_assign h (hset h)
  · exact actsLast_assignTyped .integer (by simp [h])
  · exact actsLast_assignTyped .double (by simp [h])
  · exact actsLast_assignTyped .text (by simp [h])
  · exact actsLast_reading
  · exact actsLast_reading
  · exact actsLast_loadVariables h
  · exact actsLast_output h (houtput h)
  · exact actsLast_handleExceptions h
  · exact actsLast_makeIterator h
  · exact actsLast_stepIterator h
  · exact actsLast_loadJson h
  · exact actsLast_dumpJson h
  · exact actsLast_template h
  · exact absurd h hcommand

/-- **So does a command**, unless it waits in the end. -/
theorem actsLast_or_waitsLast_of_operand? {runner : Runner}
    (hrunner : (site.tag.name, runner) ∈ builtins) (hname : site.tag.name ∈ leafNames)
    (hoperand : site.tag.operand? s = none) :
    Run.ActsLast (site.tag.Deed s) (runner site) s ∨ Run.WaitsLast (runner site) s := by
  by_cases hcommand : site.tag.name = "call_os_cmd"
  · obtain rfl : runner = command := by
      rw [hcommand] at hrunner
      simpa [builtins] using hrunner
    exact actsLast_or_waitsLast_command hcommand
  · exact .inl (actsLast_of_operand? hrunner hname hcommand hoperand)

/-- **With an operand it acts after that.** -/
theorem actsAfter_of_operand? {runner : Runner} (hrunner : (site.tag.name, runner) ∈ builtins)
    (hoperand : site.tag.operand? s = some child) :
    Run.ActsAfter (site.run child) (site.tag.Deed s) (runner site) s := by
  unfold Tag.operand? at hoperand
  split at hoperand
  · next hname =>
    obtain houtput | ⟨hset, hobject⟩ := hname
    · obtain rfl : runner = output := by
        rw [houtput] at hrunner
        simpa [builtins] using hrunner
      exact actsAfter_output houtput hoperand
    · obtain rfl : runner = assign := by
        rw [hset] at hrunner
        simpa [builtins] using hrunner
      exact actsAfter_assign hset hobject hoperand
  · cases hoperand

end Runner

end TagScript
