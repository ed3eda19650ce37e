import TagScript.Proofs.Asking
import TagScript.Proofs.Cursor
import TagScript.Proofs.Storage

/-!
# Who writes global variables

All tags of a run see the global variables, and nearly none writes them. An
assignment does if it says so, and a step of an iterator does if the global
variables are where it finds its iterator. Whatever else a run executes –
blocks on copies and on the variables themselves, calls, modules, what
loads and stores tables and documents – leaves them alone, and nothing
removes one.
-/

namespace TagScript

/-- **An execution that assigns a global variable**: that of an assignment
that says it is a global one, and ends well. -/
structure Execution.SetsGlobal (limit : Option Nat) (y : Execution) (key : String) : Prop where
  name : y.tag.name = "set"
  /-- The variable is the one that its attribute names, -/
  reads : y.start.attrKey y.tag "key" = key
  /-- and the assignment is a global one. -/
  global : Run.attrSwitch y.tag "global" false y.start = .done true y.start
  ends : ∃ outcome u, (Engine.standard limit).insideOf y = .done outcome u

/-- **An execution that steps a global iterator**: it looks for the iterator
in a scope that has no local variable of that name, and finds it among the
global ones. -/
structure Execution.StepsGlobal (limit : Option Nat) (y : Execution) (key : String)
    (items : List Value) (position : Nat) : Prop where
  name : y.tag.name = "iter_next"
  /-- The variable is the one that its attribute names, -/
  reads : y.start.attrKey y.tag "key" = key
  /-- which is not blank, -/
  named : key.isEmpty = false
  /-- it is no local one, -/
  absent : y.start.locals.get? key = none
  /-- and the global one holds an iterator. -/
  held : y.start.world.globals.get? key = some (.iter items position)
  /-- The tag is not refused for its depth. -/
  within : ∀ d, limit = some d → (y.outer + 1).number ≤ d

namespace Frame

variable {s t : Frame}

/-- The fault of a tag is none of the global variables' business. -/
theorem globals_fault (s : Frame) (tag : Tag) (depth : Depth) (fault : Fault) :
    (s.fault tag depth fault).world.globals = s.world.globals := by
  obtain ⟨files, locks, h⟩ := s.fault_eq tag depth fault
  rw [h]
  exact World.globals_note _ _

end Frame

/-- An act of a tag that only executes others leaves the global variables
alone. -/
theorem Act.globals_eq {tag : Tag} (hname : tag.name ∉ leafNames) {s t : Frame} (h : Act tag s t) :
    t.world.globals = s.world.globals := by
  cases h with
  | boundGlobally key value hleaf => exact absurd hleaf hname
  | called name _ => exact World.globals_note _ _
  | started program arguments _ hleaf => exact absurd hleaf hname
  | bound | iterated | uncounted | granted | defined | stored => rfl

/-- **What a deed does to the global variables**: nothing, or it binds one. -/
theorem Tag.Deed.globals_eq {tag : Tag} {start s t : Frame} (h : tag.Deed start s t) :
    t.world.globals = s.world.globals ∨
      ∃ value, t.world.globals = s.world.globals.insert (start.attrKey tag "key") value ∧
        (tag.name = "set" ∧ Run.attrSwitch tag "global" false start = .done true start ∨
          tag.name = "iter_next" ∧ (start.attrKey tag "key").isEmpty = false ∧
            start.locals.get? (start.attrKey tag "key") = none ∧
            ∃ items position,
              start.world.globals.get? (start.attrKey tag "key") = some (.iter items position)) := by
  cases h with
  | assignedGlobally value hname hglobal => exact .inr ⟨value, rfl, .inl ⟨hname, hglobal⟩⟩
  | advanced items position next hname hnamed hlocal hglobal _ =>
    exact .inr ⟨_, rfl, .inr ⟨hname, hnamed, hlocal, items, position, hglobal⟩⟩
  | started arguments files _ _ => exact .inl (World.globals_note _ _)
  | nothing | assigned | defined | wrote | appended | installed => exact .inl rfl

namespace Engine

variable {limit : Option Nat}

/-- **A relation of global variables** is a discipline as soon as the deeds
inside the run keep to it. -/
theorem discipline_globals {first : Execution} {R : Vars → Vars → Prop} (hrefl : ∀ g, R g g)
    (htrans : ∀ {g h k}, R g h → R h k → R g k)
    (hdeed : ∀ {names y outcome u}, (standard limit).Encloses first names y →
      (standard limit).insideOf y = .done outcome u → ∀ {s t : Frame}, y.tag.Deed y.start s t →
      R s.world.globals t.world.globals) :
    Discipline limit first fun s t => R s.world.globals t.world.globals where
  refl s := hrefl _
  trans := htrans
  copied h := h
  entered s tag depth := by
    have henter : (s.enter tag depth).world.globals = s.world.globals := World.globals_note _ _
    rw [henter]
    exact hrefl _
  invoked s tag depth := by
    have hinvoke : (s.invoke tag depth).world.globals = s.world.globals := World.globals_note _ _
    rw [hinvoke]
    exact hrefl _
  faulted _ _ := by
    rw [Frame.globals_fault]
    exact hrefl _
  left s tag depth outcome := by
    have hleave : (s.leave tag depth outcome).world.globals = s.world.globals :=
      World.globals_note _ _
    rw [hleave]
    exact hrefl _
  locked s locks := hrefl _
  act _ hname _ _ h := by
    rw [h.globals_eq hname]
    exact hrefl _
  deed hy _ _ hdone _ _ h := hdeed hy hdone h
  started s program arguments := by
    have hstart : (s.world.start program arguments).globals = s.world.globals :=
      World.globals_note _ _
    rw [hstart]
    exact hrefl _

/-- A tag of the language that ends well is within the limit. -/
theorem isWithin_of_done {y : Execution} (hname : y.tag.name ∈ builtins.map Prod.fst)
    {outcome : Outcome} {u : Frame} (h : (standard limit).insideOf y = .done outcome u) :
    ∀ d, limit = some d → (y.outer + 1).number ≤ d := by
  obtain ⟨⟨name, runner⟩, hmem, hlisted⟩ := List.mem_map.1 hname
  obtain rfl : name = y.tag.name := hlisted
  obtain ⟨d, _, _, hdeep⟩ | ⟨hwithin, _⟩ := @dispatch_of_mem limit
    ((standard limit).site y.means y.tag y.outer) runner hmem (y.frame.enter y.tag (y.outer + 1))
  · cases h.symm.trans hdeep
  · exact hwithin

/-- **A step of a global iterator** replaces it by the same iterator, one item
further or where it was at its end. -/
theorem exists_step_of_stepsGlobal {y : Execution} {key : String} {items : List Value}
    {position : Nat} (h : y.StepsGlobal limit key items position) :
    ∃ outcome u next, (standard limit).insideOf y = .done outcome u ∧
      (next = position ∨ next = position + 1) ∧
      u.world.globals = y.start.world.globals.insert key (.iter items next) := by
  have hmem : (y.tag.name, Runner.stepIterator) ∈ builtins := by simp [builtins, h.name]
  have hread : y.start.read key = .iter items position := by
    unfold Frame.read Frame.lookup Scope.lookup
    rw [h.absent, h.held]
    rfl
  obtain ⟨next, hnext, _, hadvanced, _⟩ := Value.exists_advance items position
  have hruns : (standard limit).insideOf y = _ :=
    (inside_of_mem hmem h.within y.means y.frame).trans
      (@Runner.stepIterator_of_iter ((standard limit).site y.means y.tag y.outer) _ _
        (Run.requireKey_of_attrKey h.reads h.named) _ _ hread)
  rw [Frame.contains_locals_iff.2 h.absent, hadvanced] at hruns
  exact ⟨_, _, next, hruns, hnext, rfl⟩

/-- **Global variables change through global writes only.** Take any run, in
whatever scope and world, ended or cut off.

No global variable is removed. If some global variable is not what it was,
or is new, then the run has executed an assignment of that variable that
says it is a global one, or a step of an iterator that is held by it where
no local variable is in front of it. And each such step replaces the
iterator by the same one, further by one item at most, and no other global
variable. -/
theorem execute_writes_globals (limit : Option Nat) (x : Execution) (key : String) :
    (∀ other value, x.frame.world.globals.get? other = some value →
      ∃ later, ((standard limit).ending x).after.world.globals.get? other = some later) ∧
    (((standard limit).ending x).after.world.globals.get? key ≠
        x.frame.world.globals.get? key →
      ∃ names y, (standard limit).Encloses x names y ∧
        (y.SetsGlobal limit key ∨ ∃ items position, y.StepsGlobal limit key items position)) ∧
    ∀ names y items position, (standard limit).Encloses x names y →
      y.StepsGlobal limit key items position →
      ∃ outcome u next, (standard limit).insideOf y = .done outcome u ∧
        (next = position ∨ next = position + 1) ∧
        u.world.globals = y.start.world.globals.insert key (.iter items next) := by
  refine ⟨fun other value hvalue => ?_, fun hchanged => ?_, fun _ _ _ _ _ h =>
    exists_step_of_stepsGlobal h⟩
  · -- a global variable that is bound stays bound, whatever is bound after it
    have hstays := (@discipline_globals limit x
      (fun before after => (before.get? other).isSome → (after.get? other).isSome)
      (fun _ h => h) (fun hfirst hsecond h => hsecond (hfirst h))
      fun _ _ s t hdeed => by
        obtain heq | ⟨bound, heq, _⟩ := hdeed.globals_eq
        · rw [heq]
          exact id
        · rw [heq, Dict.get?_insert]
          split
          · exact fun _ => rfl
          · exact id).ending .outermost
    exact Option.isSome_iff_exists.1 (hstays (by rw [hvalue]; rfl))
  · refine Classical.byContradiction fun hnone => hchanged ((@discipline_globals limit x
      (fun before after => after.get? key = before.get? key) (fun _ => rfl)
      (fun hfirst hsecond => hsecond.trans hfirst)
      fun {names y outcome u} hy hdone s t hdeed => ?_).ending .outermost)
    obtain heq | ⟨bound, heq, hwrites⟩ := hdeed.globals_eq
    · rw [heq]
    · rw [heq]
      refine Dict.get?_insert_of_ne _ _ fun hkey => hnone ⟨names, y, hy, ?_⟩
      obtain ⟨hname, hglobal⟩ | ⟨hname, hnamed, habsent, items, position, hheld⟩ := hwrites
      · exact .inl ⟨hname, hkey.symm, hglobal, outcome, u, hdone⟩
      · rw [← hkey] at hnamed habsent hheld
        exact .inr ⟨items, position, hname, hkey.symm, hnamed, habsent, hheld,
          isWithin_of_done (by simp [builtins, hname]) hdone⟩

/-- A group on a copy of the local variables, in which a global variable is
assigned. -/
def publishing : Tag :=
  ⟨"sub", [], [.tag ⟨"set", [("key", some "g"), ("value", some "1"), ("global", some "yes")], [],
    .nowhere⟩], .nowhere⟩

/-- Its execution. -/
def ofPublishing : Execution := ⟨publishing, 0, blankFrame, 2⟩

theorem publishing_writes_globals :
    ((standard none).ending ofPublishing).after.world.globals.get? "g" = some (.str "1") ∧
    ofPublishing.frame.world.globals.get? "g" = none ∧
    ∃ names y, (standard none).Encloses ofPublishing names y ∧
      (y.SetsGlobal none "g" ∨ ∃ items position, y.StepsGlobal none "g" items position) := by
  have hafter : ((standard none).ending ofPublishing).after.world.globals.get? "g" =
      some (.str "1") := rfl
  have hbefore : ofPublishing.frame.world.globals.get? "g" = none := rfl
  refine ⟨hafter, hbefore, (execute_writes_globals none ofPublishing "g").2.1 ?_⟩
  rw [hafter, hbefore]
  simp

end Engine

end TagScript
