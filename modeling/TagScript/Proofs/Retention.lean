import TagScript.Proofs.Granting
import TagScript.Proofs.Isolation
import TagScript.Proofs.Privilege

/-!
# Privileges are not lost

No script takes privileges away from the scope that it runs in. The variable
that holds them is closed to assignments, to typed ones, to the parameters
of calls and to whatever is loaded from files, and a grant only adds to it.

There is one gap. The making of an iterator binds a variable of whatever
name, and does not ask whether it is that one. What is bound then is an
iterator, which lists no privileges. So what is proved here is proved of
runs in which no iterator is made for that variable, and a run in which one
is made stands at the end. The gap opens in one direction only: privileges
are lost through it and none are gained, for which see
`TagScript.Proofs.Privilege`.
-/

namespace TagScript

/-- Whether an event rebinds the variable that holds the privileges: an
iterator is made for it. -/
def Event.rebindsPrivileges : Event → Bool
  | .invoked tag _ _ locals globals =>
    tag.name == "iter_make" &&
      (tag.attr "key").map (fun text => Text.trim (Scope.substitute locals globals text)) ==
        some Reserved.procPrivilege
  | _ => false

/-- **An event that rebinds the variable that holds the privileges.** -/
def Event.RebindsPrivileges (event : Event) : Prop := event.rebindsPrivileges = true

namespace Privilege

/-! ## Scopes that retain their privileges -/

/-- **Local variables that retain the privileges of others**: all of them
are still held; and without the privilege to grant any, the variable that
holds them is what it was, unless that was an iterator before, which may
have been asked for items. -/
structure Retains (locals others : Vars) : Prop where
  held : held locals ⊆ held others
  fixed : (∀ items position, locals.get? Reserved.procPrivilege ≠ some (.iter items position)) →
    "procedure_privilege" ∉ Privilege.held locals →
    others.get? Reserved.procPrivilege = locals.get? Reserved.procPrivilege

theorem Retains.of_get?_eq {locals others : Vars}
    (h : others.get? Reserved.procPrivilege = locals.get? Reserved.procPrivilege) :
    Retains locals others where
  held := fun _ hname => held_eq_of_get?_eq h.symm ▸ hname
  fixed _ _ := h

theorem Retains.refl (locals : Vars) : Retains locals locals := .of_get?_eq rfl

theorem Retains.trans {locals others more : Vars} (h : Retains locals others)
    (hmore : Retains others more) : Retains locals more where
  held := fun _ hname => hmore.held (h.held hname)
  fixed hiter hgrant := by
    have hsame := h.fixed hiter hgrant
    refine (hmore.fixed (hsame ▸ hiter) ?_).trans hsame
    rwa [held_eq_of_get?_eq hsame]

/-- **A grant keeps the privileges that are there.** -/
theorem held_subset_held_grant (locals : Vars) (names : List String) :
    held locals ⊆ held (grant locals names) :=
  fun _ hname => mem_held_grant.2 (.inl hname)

/-- **No act loses privileges**, but for the making of an iterator. -/
theorem retains_of_act {tag : Tag} (hname : tag.name ≠ "iter_make") {s t : Frame}
    (h : Act tag s t) : Retains s.locals t.locals := by
  cases h with
  | bound bindings hb =>
    refine .of_get?_eq (Dict.get?_insertAll_of_not_mem (fun hmem => ?_) _)
    obtain ⟨binding, hbinding, hkey⟩ := List.mem_map.1 hmem
    exact hb binding hbinding hkey
  | iterated key items position hiter =>
    by_cases hkey : key = Reserved.procPrivilege
    · -- the variable is an iterator already, and lists nothing
      obtain ⟨others, place, hthere⟩ := hiter.resolve_left hname
      rw [hkey] at hthere
      refine ⟨fun name hheld => ?_, fun hnone => absurd hthere (hnone others place)⟩
      rw [mem_held, hthere] at hheld
      exact absurd hheld List.not_mem_nil
    · exact .of_get?_eq (Dict.get?_insert_of_ne _ _ (Ne.symm hkey))
  | uncounted =>
    refine .of_get?_eq ?_
    rw [Dict.get?_erase, if_neg (by decide)]
  | granted names hheld =>
    exact ⟨held_subset_held_grant _ _, fun _ hgrant => absurd (holds_iff.1 hheld) hgrant⟩
  | boundGlobally | defined | called | started | stored => exact .refl _

/-! ## Runs that retain privileges -/

/-- **From one frame to another without losing privileges**, or else seeing
that the variable that holds them is rebound. -/
def Guards (s t : Frame) : Prop :=
  s.Keeps Event.RebindsPrivileges →
    s.Grows t ∧ (s.Sees Event.RebindsPrivileges t ∨ Retains s.locals t.locals)

theorem guards_of_retains {s t : Frame} (hgrows : s.Grows t)
    (h : Retains s.locals t.locals) : Guards s t :=
  fun _ => ⟨hgrows, .inr h⟩

theorem course_guards : Course Guards where
  refl s := guards_of_retains (.refl s) (.refl s.locals)
  trans hst htu := fun hs => by
    obtain ⟨hgrows, hfirst⟩ := hst hs
    obtain ⟨hlater, hsecond⟩ := htu (hgrows.keeps_of hs)
    refine ⟨hgrows.trans hlater, ?_⟩
    obtain hseen | hfirst := hfirst
    · exact .inl (hseen.later hlater)
    · exact hsecond.imp (fun hseen => hseen.earlier hgrows) hfirst.trans
  copied h := fun hs => by
    obtain ⟨hgrows, _⟩ := h hs
    exact ⟨⟨hgrows.adds, hgrows.keeps⟩, .inr (.refl _)⟩

section Boundary

variable {s : Frame} {tag : Tag} {depth : Depth}

theorem guards_enter : Guards s (s.enter tag depth) :=
  guards_of_retains Frame.grows_enter (.of_get?_eq (Frame.get?_enter (by decide) (by decide)))

theorem guards_invoke : Guards s (s.invoke tag depth) :=
  guards_of_retains Frame.grows_invoke (.refl s.locals)

theorem guards_fault (fault : Fault) : Guards s (s.fault tag depth fault) :=
  guards_of_retains (Frame.grows_fault fault) (.of_get?_eq (Frame.get?_fault (by decide) fault))

theorem guards_leave (outcome : Outcome) : Guards s (s.leave tag depth outcome) :=
  guards_of_retains (Frame.grows_leave outcome) (.refl s.locals)

end Boundary

/-! ## The making of an iterator -/

/-- What the making of an iterator does to the frame: nothing, or it binds
the variable that its attribute says. -/
theorem after_makeIterator (site : Site) (s : Frame) :
    (Runner.makeIterator site s).after = s ∨ ∃ items,
      (Runner.makeIterator site s).after =
        s.setLocal (s.attrKey site.tag "key") (.iter items 0) := by
  unfold Runner.makeIterator
  obtain ⟨key, hkey⟩ | ⟨fault, hfailed⟩ :=
    (Run.looks_requireKey site.tag "key").done_or_bind_failed s _
  · rw [Run.bind_of_done hkey]
    obtain rfl := Run.eq_attrKey_of_requireKey hkey
    obtain ⟨source, hsource⟩ | ⟨fault, hfailed⟩ :=
      (Run.looks_requireKey site.tag "src").done_or_bind_failed s _
    · have hread : Run.read source s = .done (s.read source) s := rfl
      rw [Run.bind_of_done hsource, Run.bind_of_done hread]
      cases (s.read source).items? with
      | none => exact .inl rfl
      | some items => exact .inr ⟨items, rfl⟩
    · exact .inl (congrArg Ending.after hfailed)
  · exact .inl (congrArg Ending.after hfailed)

/-- If that variable is the one that holds the privileges, it is seen in the
event. -/
theorem rebindsPrivileges_of_attrKey {tag : Tag} {depth : Depth} {s : Frame}
    (hname : tag.name = "iter_make")
    (hkey : (s.invoke tag depth).attrKey tag "key" = Reserved.procPrivilege) :
    (Event.invoked tag depth s.world.trace s.locals s.world.globals).RebindsPrivileges := by
  refine Bool.and_eq_true_iff.2 ⟨beq_iff_eq.2 hname, beq_iff_eq.2 ?_⟩
  unfold Frame.attrKey Frame.attrText Frame.substitute Frame.invoke at hkey
  dsimp only at hkey
  rw [World.globals_note] at hkey
  cases hattr : tag.attr "key" with
  | none =>
    rw [hattr] at hkey
    have hempty : "" = Reserved.procPrivilege := hkey
    exact absurd hempty (by decide)
  | some text =>
    rw [hattr] at hkey
    exact congrArg some hkey

/-- **The making of an iterator loses no privileges**, or else is seen to
rebind the variable that holds them. -/
theorem guards_makeIterator {site : Site} (hname : site.tag.name = "iter_make") (s : Frame) :
    Guards s (Runner.makeIterator site (s.invoke site.tag site.depth)).after := by
  intro hkeeps
  have hafter := after_makeIterator site (s.invoke site.tag site.depth)
  have hgrows : (s.invoke site.tag site.depth).Grows
      (Runner.makeIterator site (s.invoke site.tag site.depth)).after := by
    obtain h | ⟨items, h⟩ := hafter
    · rw [h]
      exact .refl _
    · rw [h]
      exact ⟨.of_journal_eq rfl, rfl⟩
  refine ⟨Frame.grows_invoke.trans hgrows, ?_⟩
  by_cases hkey : (s.invoke site.tag site.depth).attrKey site.tag "key" = Reserved.procPrivilege
  · have hrebinds := rebindsPrivileges_of_attrKey hname hkey
    have hseen : s.Sees Event.RebindsPrivileges (s.invoke site.tag site.depth) :=
      .of_note rfl (hkeeps _ hrebinds) hrebinds
    exact .inl (hseen.later hgrows)
  · right
    obtain h | ⟨items, h⟩ := hafter
    · rw [h]
      exact .refl s.locals
    · rw [h]
      exact .of_get?_eq (Dict.get?_insert_of_ne _ _ (Ne.symm hkey))

/-! ## Whole runs -/

variable {limit : Option Nat}

/-- The call of a runner guards the privileges. Whether an iterator is made
for the variable that holds them is seen in the call, so call and runner are
taken together. -/
theorem guards_runner {tag : Tag} {depth : Depth} {exec : Tag → Depth → Run Outcome}
    (rounds : Nat) (hexec : ∀ child t, Guards t (exec child depth t).after) {runner : Runner}
    (hrunner : (tag.name, runner) ∈ builtins) (s : Frame) :
    Guards s (runner ⟨tag, depth, exec, rounds⟩ (s.invoke tag depth)).after := by
  by_cases hname : tag.name = "iter_make"
  · obtain rfl : runner = Runner.makeIterator := by
      rw [hname] at hrunner
      simpa [builtins] using hrunner
    exact @guards_makeIterator ⟨tag, depth, exec, rounds⟩ hname s
  · have hruns : Run.KeepsTo Guards (fun _ => True) (runner ⟨tag, depth, exec, rounds⟩)
        (s.invoke tag depth) :=
      course_guards.runner
        (fun _ _ hact => guards_of_retains hact.grows (retains_of_act hname hact))
        (fun _ _ => trivial) rounds hrunner _
        fun child _ t => ⟨hexec child t, fun _ _ _ => trivial⟩
    exact course_guards.trans guards_invoke hruns.1

theorem guards_dispatch {tag : Tag} {depth : Depth} {exec : Tag → Depth → Run Outcome}
    (rounds : Nat) (hexec : ∀ child t, Guards t (exec child depth t).after) (s : Frame) :
    Guards s ((Engine.standard limit).dispatch ⟨tag, depth, exec, rounds⟩ s).after := by
  obtain hwithin | ⟨d, hlimit, hexceeds⟩ := (Engine.standard limit).isWithin_or_exceeds depth
  · cases hget : (Engine.standard limit).runners.get? tag.name with
    | none =>
      rw [Engine.dispatch_of_unknown hwithin hget]
      exact course_guards.refl s
    | some runner =>
      rw [Engine.dispatch_of_runner hwithin hget]
      exact guards_runner rounds hexec (mem_builtins_of_get? hget) s
  · rw [Engine.dispatch_of_exceeds hlimit hexceeds]
    exact course_guards.refl s

theorem guards_execute (limit : Option Nat) (means : Nat) (tag : Tag) (outer : Depth) (s : Frame) :
    Guards s ((Engine.standard limit).execute means tag outer s).after := by
  induction means generalizing tag outer s with
  | zero => exact course_guards.refl s
  | succ means ih =>
    have hbody : Run.KeepsTo Guards (fun _ => True)
        ((Engine.standard limit).dispatch
          ⟨tag, outer + 1, (Engine.standard limit).execute means, means⟩)
        (s.enter tag (outer + 1)) :=
      ⟨guards_dispatch means (fun child t => ih child (outer + 1) t) _, fun _ _ _ => trivial⟩
    exact course_guards.boundary guards_enter hbody (fun fault _ _ => guards_fault _)
      fun outcome _ => guards_leave outcome

/-- **No script loses privileges**, except through the making of an iterator.
Let a tag be executed in whatever scope and world, let the journal keep at
least the events in which an iterator is made for the variable that holds
the privileges, and let it have come to keep none. Then, however far the run
gets, the scope still holds all privileges that it held. And if it may not
grant any, and the variable that holds them is no iterator to begin with,
then that variable has not been touched. -/
theorem execute_loses_no_privileges (limit : Option Nat) (means : Nat) (tag : Tag) (outer : Depth)
    (s : Frame) (hkeeps : ∀ event : Event, event.RebindsPrivileges → s.world.keeps event = true)
    (hnone : s.Adds (fun event => ¬event.RebindsPrivileges)
      ((Engine.standard limit).execute means tag outer s).after) :
    held s.locals ⊆ held ((Engine.standard limit).execute means tag outer s).after.locals ∧
    ((∀ items position, s.locals.get? Reserved.procPrivilege ≠ some (.iter items position)) →
      "procedure_privilege" ∉ held s.locals →
      ((Engine.standard limit).execute means tag outer s).after.locals.get?
        Reserved.procPrivilege = s.locals.get? Reserved.procPrivilege) := by
  obtain ⟨_, hretains⟩ := guards_execute limit means tag outer s hkeeps
  have hretains := hretains.resolve_left hnone.not_sees
  exact ⟨hretains.held, hretains.fixed⟩

/-- A script that makes an iterator for a variable of its own, and then tries
to assign the one that holds the privileges. -/
def meddler : Tag :=
  ⟨"sub", [("pass_through", some "true")],
    [.tag ⟨"iter_make", [("key", some "i"), ("src", some "__log_datetime__")], [], .nowhere⟩,
      .tag ⟨"set", [("key", some "__proc_privilege__"), ("value", some "")], [], .nowhere⟩],
    .nowhere⟩

theorem auditor_loses_no_privileges :
    (∀ event : Event, event.RebindsPrivileges → auditor.world.keeps event = true) ∧
    auditor.Adds (fun event => ¬event.RebindsPrivileges)
      ((Engine.standard none).execute 3 meddler 0 auditor).after ∧
    held auditor.locals ⊆
      held ((Engine.standard none).execute 3 meddler 0 auditor).after.locals := by
  have hnone : auditor.Adds (fun event => ¬event.RebindsPrivileges)
      ((Engine.standard none).execute 3 meddler 0 auditor).after := by
    have hall : ((Engine.standard none).execute 3 meddler 0 auditor).after.world.journal.any
        Event.rebindsPrivileges = false := by decide +kernel
    exact ⟨_, (List.append_nil _).symm, fun event he => List.any_eq_false.1 hall event he⟩
  exact ⟨fun _ _ => rfl, hnone,
    (execute_loses_no_privileges none 3 meddler 0 auditor (fun _ _ => rfl) hnone).1⟩

/-- A tag that makes an iterator for the variable that holds the
privileges. -/
def disarming : Tag :=
  ⟨"iter_make", [("key", some "__proc_privilege__"), ("src", some "__log_datetime__")], [],
    .nowhere⟩

/-- **The gap**: a scope that may make conditional calls has lost that
privilege after one tag. -/
theorem disarming_loses_privileges :
    "audit" ∈ held auditor.locals ∧
    ∃ t, (Engine.standard none).execute 2 disarming 0 auditor = .done .ok t ∧
      held t.locals = [] :=
  ⟨by decide, _, rfl, by decide +kernel⟩

end Privilege

end TagScript
