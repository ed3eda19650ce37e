import TagScript.Proofs.Conduct

/-!
# Privileges are not gained

A scope that may not grant privileges never comes to hold one that it did
not hold before, whatever it executes: the one variable that counts is
bound by grants and by iterators only, grants need a privilege of their
own, and an iterator lists no names. What is done on a copy starts from
what the copy held.

So the privileges at the start of a run are all there will be, in all
scopes and at all depths, and what needs a privilege is done only if that
privilege was there from the start.
-/

namespace TagScript.Privilege

/-! ## What the variables hold -/

theorem held_eq_of_get?_eq {locals others : Vars}
    (h : locals.get? Reserved.procPrivilege = others.get? Reserved.procPrivilege) :
    held locals = held others := by
  unfold held
  rw [h]

/-- Bindings of other variables leave the privileges alone. -/
theorem held_insertAll {bindings : List (String × Value)}
    (h : ∀ binding ∈ bindings, binding.1 ≠ Reserved.procPrivilege) (locals : Vars) :
    held (locals.insertAll bindings) = held locals := by
  refine held_eq_of_get?_eq (Dict.get?_insertAll_of_not_mem (fun hmem => ?_) locals)
  obtain ⟨binding, hb, hkey⟩ := List.mem_map.1 hmem
  exact h binding hb hkey

theorem held_insert_of_ne {key : String} (h : key ≠ Reserved.procPrivilege) (locals : Vars)
    (value : Value) : held (locals.insert key value) = held locals :=
  held_eq_of_get?_eq (Dict.get?_insert_of_ne _ _ h.symm)

/-- An iterator lists no privileges. -/
theorem held_insert_iter (locals : Vars) (key : String) (items : List Value) (position : Nat) :
    held (locals.insert key (.iter items position)) ⊆ held locals := by
  by_cases h : key = Reserved.procPrivilege
  · intro name hname
    rw [mem_held, h, Dict.get?_insert_self] at hname
    exact absurd hname List.not_mem_nil
  · rw [held_insert_of_ne h]
    exact fun _ hname => hname

theorem held_erase {key : String} (h : key ≠ Reserved.procPrivilege) (locals : Vars) :
    held (locals.erase key) = held locals := by
  refine held_eq_of_get?_eq ?_
  rw [Dict.get?_erase, if_neg h.symm]

theorem holds_iff {locals : Vars} {name : String} :
    holds locals name = true ↔ name ∈ held locals := by
  unfold holds
  exact List.contains_iff_mem

/-! ## What runs may do -/

/-- **What may happen where no more than some privileges are held.** -/
def Allows (names : List String) : Event → Prop
  | .invoked _ _ _ locals _ => held locals ⊆ names
  | .called tag name => tag.name = "cond_call" → name ∈ names
  | .started _ _ => "call_os_cmd" ∈ names
  | .entered .. | .faulted .. | .left .. => True

/-- From a scope that holds no more than some privileges, one gets to
scopes that hold no more, and by events that are allowed there. -/
def Confined (names : List String) (s t : Frame) : Prop :=
  held s.locals ⊆ names → held t.locals ⊆ names ∧ s.Adds (Allows names) t

variable {names : List String}

theorem Confined.trans {s t u : Frame} (hst : Confined names s t) (htu : Confined names t u) :
    Confined names s u := by
  intro hs
  obtain ⟨ht, hfirst⟩ := hst hs
  obtain ⟨hu, hsecond⟩ := htu ht
  exact ⟨hu, hfirst.trans hsecond⟩

/-- A change that keeps the privileges and the journal. -/
theorem confined_of_quiet {s t : Frame} (hheld : held t.locals ⊆ held s.locals)
    (hjournal : t.world.journal = s.world.journal) : Confined names s t :=
  fun hs => ⟨fun _ hname => hs (hheld hname), .of_journal_eq hjournal⟩

/-- A change that keeps the privileges and notes an event. -/
theorem confined_of_note {s t : Frame} {event : Event} (hheld : held t.locals = held s.locals)
    (hjournal : t.world.journal = (s.world.note event).journal)
    (hevent : held s.locals ⊆ names → Allows names event) : Confined names s t := by
  intro hs
  rw [hheld]
  exact ⟨hs, .of_note hjournal (hevent hs)⟩

/-- **No act gains privileges** where none may be granted. -/
theorem confined_of_act (hgrant : "procedure_privilege" ∉ names) {tag : Tag} {s t : Frame}
    (h : Act tag s t) : Confined names s t := by
  cases h with
  | bound bindings hb =>
    refine confined_of_quiet ?_ rfl
    rw [held_insertAll hb]
    exact fun _ hname => hname
  | boundGlobally key value => exact confined_of_quiet (fun _ hname => hname) rfl
  | iterated key items position =>
    exact confined_of_quiet (held_insert_iter s.locals key items position) rfl
  | uncounted =>
    refine confined_of_quiet ?_ rfl
    rw [held_erase (by decide)]
    exact fun _ hname => hname
  | granted more hheld => exact fun hs => absurd (hs (holds_iff.1 hheld)) hgrant
  | defined _ => exact confined_of_quiet (fun _ hname => hname) rfl
  | called name hheld =>
    exact confined_of_note rfl rfl fun hs hcond => hs (holds_iff.1 (hheld hcond))
  | started program arguments hheld =>
    exact confined_of_note rfl rfl fun hs => hs (holds_iff.1 hheld)
  | stored files handles locks handlers => exact confined_of_quiet (fun _ hname => hname) rfl

/-- Nor does the boundary around a tag. -/
theorem confined_of_passage {e : Engine} {s t : Frame} (h : Passage e s t) :
    Confined names s t := by
  cases h with
  | entered tag depth =>
    refine confined_of_note ?_ rfl fun _ => trivial
    calc held (s.enter tag depth).locals
        = held (s.locals.insert Reserved.depth _) := held_insert_of_ne (by decide) _ _
      _ = held s.locals := held_insert_of_ne (by decide) _ _
  | invoked tag depth _ => exact confined_of_note rfl rfl fun hs => hs
  | faulted tag depth fault =>
    refine confined_of_note ?_ (s.journal_fault tag depth fault) fun _ => trivial
    rw [Frame.locals_fault]
    exact held_insert_of_ne (by decide) _ _
  | left tag depth outcome => exact confined_of_note rfl rfl fun _ => trivial

/-- **Runs without the privilege to grant are confined to the privileges
they start with.** -/
theorem conduct_confined (e : Engine) (hgrant : "procedure_privilege" ∉ names) :
    Conduct e (Confined names) where
  refl _ := confined_of_quiet (fun _ hname => hname) rfl
  trans := Confined.trans
  act := confined_of_act hgrant
  passage := confined_of_passage
  copied h := fun hs => ⟨hs, (h hs).2⟩

/-- **No script gains privileges.** If the scope that a run starts in may
not grant privileges, then, whatever tag is executed in whatever world and
however far the run gets: every runner is called in a scope that holds no
other privileges than the first one did, no command is started unless that
one held the privilege for commands, and no conditional call goes on to a
procedure unless that one held the privilege of its name.

The journal is to keep all events for this to say all it can; it is true
of any part of them. -/
theorem execute_gains_no_privileges (limit : Option Nat) (means : Nat) (tag : Tag) (outer : Depth)
    (s : Frame) (hgrant : "procedure_privilege" ∉ held s.locals) :
    ∃ added,
      ((Engine.standard limit).execute means tag outer s).after.world.journal =
        added ++ s.world.journal ∧
      (∀ child depth trace locals globals,
        .invoked child depth trace locals globals ∈ added → held locals ⊆ held s.locals) ∧
      (∀ program arguments, .started program arguments ∈ added →
        "call_os_cmd" ∈ held s.locals) ∧
      ∀ child name, .called child name ∈ added → child.name = "cond_call" →
        name ∈ held s.locals := by
  have hrun := (conduct_confined (Engine.standard limit) hgrant).execute
    (fun _ _ h => .inl (mem_builtins_of_get? h)) means tag outer s
  obtain ⟨_, added, hjournal, hadded⟩ := hrun fun _ hname => hname
  refine ⟨added, hjournal, ?_, ?_, ?_⟩
  · intro child depth trace locals globals h
    exact hadded _ h
  · intro program arguments h
    exact hadded _ h
  · intro child name h
    exact hadded _ h

/-- A scope that may make two conditional calls and nothing else, in a
world whose journal keeps everything. -/
def auditor : Frame where
  locals := [(Reserved.procPrivilege, .str "mark, audit")]
  world := { World.ofFiles (.empty []) "" .bare with keeps := fun _ => true }

/-- A script that takes the privilege for commands, or tries to, and starts
one. -/
def intruder : Tag :=
  ⟨"sub", [("pass_through", some "true")],
    [.tag ⟨"iter_make", [("key", some "__proc_privilege__"), ("src", some "__log_datetime__")], [],
        .nowhere⟩,
      .tag ⟨"call_os_cmd", [("cmd", some "true")], [], .nowhere⟩], .nowhere⟩

theorem auditor_gains_no_privileges :
    "procedure_privilege" ∉ held auditor.locals ∧
    ∃ added,
      ((Engine.standard none).execute 3 intruder 0 auditor).after.world.journal =
        added ++ auditor.world.journal ∧
      (∀ child depth trace locals globals,
        .invoked child depth trace locals globals ∈ added → held locals ⊆ held auditor.locals) ∧
      (∀ program arguments, .started program arguments ∈ added →
        "call_os_cmd" ∈ held auditor.locals) ∧
      ∀ child name, .called child name ∈ added → child.name = "cond_call" →
        name ∈ held auditor.locals :=
  ⟨by decide, execute_gains_no_privileges none 3 intruder 0 auditor (by decide)⟩

end TagScript.Privilege
