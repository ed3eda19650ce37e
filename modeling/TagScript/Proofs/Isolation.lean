import TagScript.Proofs.Conduct

/-!
# Blocks on a copy leave the local variables alone

A block that does not share its local variables works on a copy, and each
kind of block makes that copy in its own way: a script before anything
else, a condition once for its assertion and once more for the branch it
takes, an iteration before it binds the entry at hand, a call before it
binds its parameters. Whatever the block does there, and however it ends,
the variables around it are what they were.

What does change around a block is what the boundary of every tag binds:
its depth and the time on the way in, and the report of its own fault if
it had one.
-/

namespace TagScript

namespace Run

variable {α β : Type}

/-! ## Computations that restore the local variables -/

/-- **A computation that restores the local variables** it started with, if
it ends. -/
def Restores (x : Run α) (s : Frame) : Prop :=
  match x s with
  | .done _ t | .failed _ t => t.locals = s.locals
  | .exhausted _ => True

theorem Restores.of_done {x : Run α} {s t : Frame} {a : α} (hx : x.Restores s)
    (h : x s = .done a t) : t.locals = s.locals := by
  unfold Restores at hx
  rw [h] at hx
  exact hx

theorem Restores.of_failed {x : Run α} {s t : Frame} {fault : Fault} (hx : x.Restores s)
    (h : x s = .failed fault t) : t.locals = s.locals := by
  unfold Restores at hx
  rw [h] at hx
  exact hx

/-- **What is done on a copy leaves the local variables as they were.** -/
theorem restores_isolated (x : Run α) (s : Frame) : x.isolated.Restores s := by
  unfold Restores isolated
  cases x s <;> trivial

theorem Looks.restores {x : Run α} (hx : x.Looks) (s : Frame) : x.Restores s := by
  unfold Restores
  obtain ⟨a, ha⟩ | ⟨_, _, ha⟩ := hx s
  · rw [ha]
  · rw [ha]

/-- A change of other things than the local variables. -/
theorem restores_change {f : Frame → Frame} {s : Frame} (h : (f s).locals = s.locals) :
    (change f).Restores s := h

/-- **A sequence restores the local variables if its parts do.** -/
theorem Restores.bind {x : Run α} {f : α → Run β} {s : Frame} (hx : x.Restores s)
    (hf : ∀ a t, x s = .done a t → (f a).Restores t) : (x >>= f).Restores s := by
  unfold Restores
  cases h : x s with
  | done a t =>
    rw [bind_of_done h]
    have hlocals := hx.of_done h
    have hrest := hf a t h
    unfold Restores at hrest
    cases hfa : f a t with
    | done b u =>
      rw [hfa] at hrest
      exact hrest.trans hlocals
    | failed fault u =>
      rw [hfa] at hrest
      exact hrest.trans hlocals
    | exhausted u => trivial
  | failed fault t =>
    rw [bind_of_failed h]
    exact hx.of_failed h
  | exhausted t =>
    rw [bind_apply, h]
    trivial

/-- After a look the frame is the one it started from. -/
theorem Looks.restores_bind {x : Run α} {f : α → Run β} {s : Frame} (hx : x.Looks)
    (hf : ∀ a, x s = .done a s → (f a).Restores s) : (x >>= f).Restores s := by
  refine (hx.restores s).bind fun a t h => ?_
  obtain rfl := hx.eq_of_done h
  exact hf a h

/-- What a switch says depends on how its attribute reads only. -/
theorem attrSwitch_of_attrText {tag : Tag} {name : String} {default b : Bool} {s t : Frame}
    (hread : t.attrText tag name = s.attrText tag name)
    (h : attrSwitch tag name default s = .done b s) : attrSwitch tag name default t = .done b t := by
  unfold attrSwitch attrText at h ⊢
  rw [bind_apply, look] at h ⊢
  dsimp only at h ⊢
  rw [hread]
  cases htext : s.attrText tag name with
  | none =>
    rw [htext] at h
    obtain rfl := (Ending.done.inj h).1
    rfl
  | some text =>
    rw [htext] at h
    dsimp only at h ⊢
    cases hswitch : switch? (Text.lower (Text.trim text)) with
    | none =>
      rw [hswitch] at h
      cases h
    | some said =>
      rw [hswitch] at h
      obtain rfl := (Ending.done.inj h).1
      rfl

/-- So a block shares its variables or not whether or not its runner has been
called. -/
theorem passThrough_invoke {tag : Tag} {s : Frame} {shared : Bool} (depth : Depth)
    (h : passThrough tag s = .done shared s) :
    passThrough tag (s.invoke tag depth) = .done shared (s.invoke tag depth) := by
  refine attrSwitch_of_attrText ?_ h
  unfold Frame.attrText Frame.substitute Frame.invoke
  dsimp only
  rw [World.globals_note]

end Run

/-! ## The kinds of blocks -/

namespace Runner

variable (site : Site) (s : Frame)

theorem restores_root : (root site).Restores s := Run.restores_isolated _ s

section Copies

variable (hcopy : Run.passThrough site.tag s = .done false s)
include hcopy

/-- Where a block does not share the local variables, it does on a copy
what it otherwise does on the variables themselves. -/
theorem restores_of_passThrough {f : Bool → Run Outcome} (hf : (f false).Restores s) :
    (Run.passThrough site.tag >>= f).Restores s := by
  unfold Run.Restores
  rw [Run.bind_of_done hcopy]
  exact hf

theorem restores_sub : (sub site).Restores s :=
  restores_of_passThrough site s hcopy (Run.restores_isolated _ s)

theorem restores_loop : (loop site).Restores s :=
  restores_of_passThrough site s hcopy (Run.restores_isolated _ s)

theorem restores_forIn : (forIn site).Restores s := by
  refine restores_of_passThrough site s hcopy ?_
  dsimp only
  split
  · exact (Run.looks_fail rfl).restores_bind fun _ h => by cases h
  · refine (Run.looks_requireKey _ _).restores_bind fun key _ => ?_
    refine (Run.looks_read key).restores_bind fun source _ => ?_
    cases source.entries? with
    | none => exact (Run.looks_fail rfl).restores s
    | some entries => exact Run.restores_isolated _ s

omit hcopy in
theorem restores_assertionHolds : (assertionHolds site false).Restores s := by
  unfold assertionHolds
  cases site.tag.assertion? with
  | some assertion => exact Run.restores_isolated _ s
  | none => exact (Run.looks_pure _).restores s

omit hcopy in
theorem restores_takeBranch (matched : Bool) : (takeBranch site false matched).Restores s := by
  unfold takeBranch
  split
  · exact (Run.looks_pure _).restores s
  · cases site.tag.branch? matched with
    | some branch => exact Run.restores_isolated _ s
    | none => exact (Run.looks_pure _).restores s

/-- A condition makes two copies, one after the other. -/
theorem restores_condition : (condition site).Restores s :=
  restores_of_passThrough site s hcopy
    ((restores_assertionHolds site s).bind fun matched t _ => restores_takeBranch site t matched)

omit hcopy in
theorem takeBranch_of_branch? {matched : Bool} {branch : Tag}
    (h : site.tag.branch? matched = some branch) (shared : Bool) :
    takeBranch site shared matched = Run.within shared (site.run branch) := by
  have hsome : ¬((site.tag.branch? true).isNone && (site.tag.branch? false).isNone) = true := by
    cases matched with
    | true => simp [h]
    | false => simp [h]
  unfold takeBranch
  rw [if_neg hsome, h]

/-- **What an assertion assigns does not reach the branch**: that starts
from the variables of the condition and the world the assertion left. -/
theorem condition_of_verdict {assertion branch : Tag} {verdict : Outcome} {t : Frame}
    (hassertion : site.tag.assertion? = some assertion)
    (hexec : site.run assertion s = .done verdict t)
    (hbranch : site.tag.branch? verdict.truthy = some branch) :
    condition site s = (site.run branch).isolated { t with locals := s.locals } := by
  have hholds : assertionHolds site false s =
      .done verdict.truthy { t with locals := s.locals } := by
    unfold assertionHolds
    rw [hassertion]
    exact Run.isolated_of_done (Run.bind_of_done hexec _)
  unfold condition
  rw [Run.bind_of_done hcopy, Run.bind_of_done hholds, takeBranch_of_branch? site hbranch]
  rfl

theorem condition_of_no_assertion {branch : Tag} (hassertion : site.tag.assertion? = none)
    (hbranch : site.tag.branch? false = some branch) :
    condition site s = (site.run branch).isolated s := by
  have hholds : assertionHolds site false s = .done false s := by
    unfold assertionHolds
    rw [hassertion]
    rfl
  unfold condition
  rw [Run.bind_of_done hcopy, Run.bind_of_done hholds, takeBranch_of_branch? site hbranch]
  rfl

theorem restores_selection : (selection site).Restores s :=
  restores_of_passThrough site s hcopy (Run.restores_isolated _ s)

theorem restores_invoke (name : String) : (invoke site name).Restores s := by
  refine (Run.looks_look _).restores_bind fun found _ => ?_
  cases found with
  | none => exact (Run.looks_fail rfl).restores s
  | some procedure =>
    refine restores_of_passThrough site s hcopy ?_
    refine (Run.looks_look _).restores_bind fun given _ => ?_
    exact Run.Restores.bind (Run.restores_change rfl) fun _ t _ => Run.restores_isolated _ t

theorem restores_call : (call site).Restores s :=
  (Run.looks_requireKey _ _).restores_bind fun name _ => restores_invoke site s hcopy name

theorem restores_conditionalCall : (conditionalCall site).Restores s := by
  refine (Run.looks_requireKey _ _).restores_bind fun name _ => ?_
  refine (Run.looks_look _).restores_bind fun locals _ => ?_
  split
  · exact restores_invoke site s hcopy name
  · exact (Run.looks_pure _).restores s

end Copies

end Runner

/-- The tags whose runners work on a copy of the local variables unless
they are told otherwise. -/
def scopeNames : List String :=
  ["root", "sub", "loop", "for_in", "if", "elif", "case", "call", "cond_call"]

/-- **A block that does not share the local variables restores them.** -/
theorem exists_restoring_runner {site : Site} {s : Frame} (hname : site.tag.name ∈ scopeNames)
    (hcopy : site.tag.name = "root" ∨ Run.passThrough site.tag s = .done false s) :
    ∃ runner, (site.tag.name, runner) ∈ builtins ∧ (runner site).Restores s := by
  by_cases hroot : site.tag.name = "root"
  · exact ⟨Runner.root, by simp [builtins, hroot], Runner.restores_root site s⟩
  have hcopy := hcopy.resolve_left hroot
  simp only [scopeNames, List.mem_cons, List.not_mem_nil, or_false, hroot, false_or] at hname
  obtain h | h | h | h | h | h | h | h := hname
  · exact ⟨Runner.sub, by simp [builtins, h], Runner.restores_sub site s hcopy⟩
  · exact ⟨Runner.loop, by simp [builtins, h], Runner.restores_loop site s hcopy⟩
  · exact ⟨Runner.forIn, by simp [builtins, h], Runner.restores_forIn site s hcopy⟩
  · exact ⟨Runner.condition, by simp [builtins, h], Runner.restores_condition site s hcopy⟩
  · exact ⟨Runner.condition, by simp [builtins, h], Runner.restores_condition site s hcopy⟩
  · exact ⟨Runner.selection, by simp [builtins, h], Runner.restores_selection site s hcopy⟩
  · exact ⟨Runner.call, by simp [builtins, h], Runner.restores_call site s hcopy⟩
  · exact ⟨Runner.conditionalCall, by simp [builtins, h],
      Runner.restores_conditionalCall site s hcopy⟩

/-! ## Whole tags -/

namespace Frame

variable {s : Frame} {tag : Tag} {depth : Depth} {key : String}

/-- The frame in which the runner of a tag begins. -/
def begin (s : Frame) (tag : Tag) (outer : Depth) : Frame :=
  (s.enter tag (outer + 1)).invoke tag (outer + 1)

/-- Entering a tag binds its depth and the time and no other local
variable. -/
theorem get?_enter (hdepth : key ≠ Reserved.depth) (htime : key ≠ Reserved.logDatetime) :
    (s.enter tag depth).locals.get? key = s.locals.get? key :=
  (Dict.get?_insert_of_ne _ _ htime).trans (Dict.get?_insert_of_ne _ _ hdepth)

/-- So the runner of the tag finds all other variables as the tag has found
them. -/
theorem get?_begin_of_ne {outer : Depth} (hdepth : key ≠ Reserved.depth)
    (htime : key ≠ Reserved.logDatetime) :
    (s.begin tag outer).locals.get? key = s.locals.get? key :=
  @get?_enter s tag (outer + 1) key hdepth htime

theorem globals_begin {outer : Depth} : (s.begin tag outer).world.globals = s.world.globals :=
  (World.globals_note _ _).trans (World.globals_note _ _)

theorem lookup_begin_of_ne {outer : Depth} (hdepth : key ≠ Reserved.depth)
    (htime : key ≠ Reserved.logDatetime) : (s.begin tag outer).lookup key = s.lookup key := by
  unfold lookup Scope.lookup
  rw [get?_begin_of_ne hdepth htime, globals_begin]

theorem read_begin_of_ne {outer : Depth} (hdepth : key ≠ Reserved.depth)
    (htime : key ≠ Reserved.logDatetime) : (s.begin tag outer).read key = s.read key :=
  congrArg (fun found => Option.getD found Value.null) (lookup_begin_of_ne hdepth htime)

/-- Leaving a tag changes no variable. -/
theorem read_leave (s : Frame) (tag : Tag) (depth : Depth) (outcome : Outcome) (key : String) :
    (s.leave tag depth outcome).read key = s.read key := by
  simp only [read, lookup, leave, World.globals_note]

/-- A fault binds its report and no other local variable. -/
theorem get?_fault (hdebug : key ≠ Reserved.debug) (fault : Fault) :
    (s.fault tag depth fault).locals.get? key = s.locals.get? key := by
  rw [locals_fault]
  exact Dict.get?_insert_of_ne _ _ hdebug

theorem get?_fault_debug (fault : Fault) :
    (s.fault tag depth fault).locals.get? Reserved.debug =
      some (.str (s.faultReport tag fault)) := by
  rw [locals_fault]
  unfold report faultReport World.note
  dsimp only [setLocal]
  rw [Dict.get?_insert_self]
  split
  · rfl
  · rfl

end Frame

namespace Engine

variable {limit : Option Nat}

/-- Where the runner of a tag works. -/
abbrev site (e : Engine) (means : Nat) (tag : Tag) (outer : Depth) : Site :=
  ⟨tag, outer + 1, e.execute means, means⟩

/-- No fault comes to it from the tags inside. -/
theorem run_ne_failed (e : Engine) (means : Nat) (tag : Tag) (outer : Depth) (child : Tag)
    (s : Frame) (fault : Fault) (t : Frame) :
    (e.site means tag outer).run child s ≠ .failed fault t :=
  execute_ne_failed e means child (outer + 1) s t fault

/-- **What the runner of a tag comes to** inside the boundary around the
tag. -/
def inside (e : Engine) (means : Nat) (tag : Tag) (outer : Depth) (s : Frame) : Ending Outcome :=
  e.dispatch (e.site means tag outer) (s.enter tag (outer + 1))

/-- **A tag of the language is refused for its depth or else runs.** -/
theorem dispatch_of_mem (limit : Option Nat) {site : Site} {runner : Runner}
    (h : (site.tag.name, runner) ∈ builtins) (s : Frame) :
    (∃ d, limit = some d ∧ d < site.depth.number ∧
      (standard limit).dispatch site s = .failed (.of (.tooDeep site.depth.number d)) s) ∨
    (∀ d, limit = some d → site.depth.number ≤ d) ∧
      (standard limit).dispatch site s = runner site (s.invoke site.tag site.depth) := by
  have hget : (standard limit).runners.get? site.tag.name = some runner := get?_builtinRunners h
  unfold dispatch
  rw [hget]
  cases limit with
  | none => exact .inr ⟨fun _ h => absurd h (Option.some_ne_none _).symm, rfl⟩
  | some d =>
    by_cases hd : d < site.depth.number
    · refine .inl ⟨d, rfl, hd, ?_⟩
      rw [Run.bind_apply, checkDepth]
      dsimp only [standard]
      rw [if_pos hd]
      rfl
    · refine .inr ⟨fun _ h => Option.some.inj h ▸ Nat.le_of_not_lt hd, ?_⟩
      rw [Run.bind_apply, checkDepth]
      dsimp only [standard]
      rw [if_neg hd]
      rfl

/-- Within the limit the runner of a tag of the language does run, whatever executes
the tags inside, -/
theorem dispatch_of_mem_within {limit : Option Nat} {tag : Tag} {depth : Depth} {runner : Runner}
    (h : (tag.name, runner) ∈ builtins) (hwithin : ∀ d, limit = some d → depth.number ≤ d)
    (exec : Tag → Depth → Run Outcome) (rounds : Nat) :
    (standard limit).dispatch ⟨tag, depth, exec, rounds⟩ =
      fun s => runner ⟨tag, depth, exec, rounds⟩ (s.invoke tag depth) := by
  have hget : (standard limit).runners.get? tag.name = some runner := get?_builtinRunners h
  exact dispatch_of_runner hwithin hget exec rounds

/-- and so where the engine does. -/
theorem inside_of_mem {limit : Option Nat} {tag : Tag} {outer : Depth} {runner : Runner}
    (h : (tag.name, runner) ∈ builtins) (hwithin : ∀ d, limit = some d → (outer + 1).number ≤ d)
    (means : Nat) (s : Frame) :
    (standard limit).inside means tag outer s =
      runner ((standard limit).site means tag outer) (s.begin tag outer) := by
  unfold inside site
  rw [dispatch_of_mem_within h hwithin]
  rfl

/-- The runner of a block that does not share the local variables restores
them, if it is called at all. -/
theorem restores_dispatch {site : Site} {s : Frame} (hname : site.tag.name ∈ scopeNames)
    (hcopy : site.tag.name = "root" ∨ Run.passThrough site.tag s = .done false s) :
    ((standard limit).dispatch site).Restores s := by
  obtain ⟨runner, hmem, hrunner⟩ :=
    exists_restoring_runner hname (hcopy.imp_right (Run.passThrough_invoke site.depth))
  unfold Run.Restores
  obtain ⟨_, _, _, h⟩ | ⟨_, h⟩ := dispatch_of_mem limit hmem s
  · rw [h]
  · rw [h]
    exact hrunner

/-- **How the assertion of a condition comes out**: whether it holds, and
the frame that its execution ends in. An assertion that is not there does
not hold. -/
inductive Asserted (e : Engine) (means : Nat) (tag : Tag) (depth : Depth) (s : Frame) :
    Bool → Frame → Prop where
  | executed {assertion : Tag} {verdict : Outcome} {t : Frame}
      (h : tag.assertion? = some assertion)
      (hexec : e.execute means assertion depth s = .done verdict t) :
      Asserted e means tag depth s verdict.truthy t
  | absent (h : tag.assertion? = none) : Asserted e means tag depth s false s

/-- The branch of a condition starts from the variables of the
condition. -/
theorem condition_of_asserted {e : Engine} {means : Nat} {tag : Tag} {depth : Depth} {s t : Frame}
    {matched : Bool} {branch : Tag} (hcopy : Run.passThrough tag s = .done false s)
    (h : Asserted e means tag depth s matched t) (hbranch : tag.branch? matched = some branch) :
    Runner.condition ⟨tag, depth, e.execute means, means⟩ s =
      (e.execute means branch depth).isolated { t with locals := s.locals } := by
  cases h with
  | executed hassertion hexec =>
    exact Runner.condition_of_verdict ⟨tag, depth, e.execute means, means⟩ s hcopy hassertion hexec
      hbranch
  | absent hassertion =>
    exact Runner.condition_of_no_assertion ⟨tag, depth, e.execute means, means⟩ s hcopy hassertion
      hbranch

/-- **Blocks on a copy are isolated.** Let a tag be a block that does not
share its local variables, because its attribute for that is absent or says
no, or because it is a script.

If the execution of the tag ends, by whatever way, then all local variables
around it are what they were, apart from the depth, the time and the
report of a fault; and the report is bound exactly if the tag itself
faulted, and is what it was if not.

If the tag is a condition, then the branch that it goes on to starts from
the variables that the condition itself was entered with, whatever its
assertion has assigned to them. -/
theorem execute_scope_isolated (limit : Option Nat) (means : Nat) (tag : Tag) (outer : Depth)
    (s : Frame) (hname : tag.name ∈ scopeNames)
    (hcopy : tag.name = "root" ∨
      Run.passThrough tag (s.enter tag (outer + 1)) = .done false (s.enter tag (outer + 1))) :
    (∀ outcome t, (standard limit).execute (means + 1) tag outer s = .done outcome t →
      (∀ key, key ≠ Reserved.depth → key ≠ Reserved.logDatetime → key ≠ Reserved.debug →
        t.locals.get? key = s.locals.get? key) ∧
      ((∃ u, (standard limit).inside means tag outer s = .done outcome u ∧
          t.locals.get? Reserved.debug = s.locals.get? Reserved.debug) ∨
        ∃ fault u, (standard limit).inside means tag outer s = .failed fault u ∧
          t.locals.get? Reserved.debug =
            some (.str (u.faultReport tag (fault.chargedTo tag.span))))) ∧
    (tag.name = "if" ∨ tag.name = "elif" → (∀ d, limit = some d → (outer + 1).number ≤ d) →
      ∀ matched t branch,
        Asserted (standard limit) means tag (outer + 1) (s.begin tag outer) matched t →
        tag.branch? matched = some branch →
        (standard limit).inside means tag outer s =
          ((standard limit).execute means branch (outer + 1)).isolated
            { t with locals := (s.enter tag (outer + 1)).locals }) := by
  constructor
  · -- the runner leaves what it was given, and the boundary adds no more than the report
    intro outcome t h
    have hrestores := @restores_dispatch limit ((standard limit).site means tag outer)
      (s.enter tag (outer + 1)) hname hcopy
    obtain ⟨u, hu, rfl⟩ | ⟨fault, u, hu, rfl, rfl⟩ := boundary_eq_done.1 h
    · have hlocals := hrestores.of_done hu
      refine ⟨fun key hdepth htime _ => ?_, .inl ⟨u, hu, ?_⟩⟩
      · show u.locals.get? key = s.locals.get? key
        rw [hlocals, Frame.get?_enter hdepth htime]
      · show u.locals.get? Reserved.debug = s.locals.get? Reserved.debug
        rw [hlocals, Frame.get?_enter (by decide) (by decide)]
    · have hlocals := hrestores.of_failed hu
      refine ⟨fun key hdepth htime hdebug => ?_, .inr ⟨fault, u, hu, ?_⟩⟩
      · show (u.fault tag (outer + 1) _).locals.get? key = s.locals.get? key
        rw [Frame.get?_fault hdebug, hlocals, Frame.get?_enter hdepth htime]
      · exact Frame.get?_fault_debug _
  · -- the assertion has worked on a copy of its own, of which only the world is left
    intro hif hwithin matched t branch hasserted hbranch
    have hroot : tag.name ≠ "root" := by
      obtain h | h := hif
      · simp [h]
      · simp [h]
    have hmem : (tag.name, Runner.condition) ∈ builtins := by
      obtain h | h := hif
      · simp [builtins, h]
      · simp [builtins, h]
    have hcopy := Run.passThrough_invoke (outer + 1) (hcopy.resolve_left hroot)
    exact (inside_of_mem hmem hwithin means s).trans
      (condition_of_asserted hcopy hasserted hbranch)

/-- An assertion that assigns something. -/
def assigning : Tag :=
  ⟨"not", [], [.tag ⟨"set", [("key", some "x"), ("value", some "inner")], [], .nowhere⟩], .nowhere⟩

/-- A condition with that assertion. -/
def guarded : Tag :=
  ⟨"if", [("pass_through", some "no")], [.tag assigning, .tag ⟨"else", [], [], .nowhere⟩], .nowhere⟩

/-- A frame in which the variable is bound that the assertion assigns. -/
def bound : Frame := ⟨[("x", .str "outer")], World.ofFiles (.empty []) "" .bare⟩

theorem guarded_scope_isolated :
    guarded.name ∈ scopeNames ∧
    Run.passThrough guarded (bound.enter guarded (0 + 1)) =
      .done false (bound.enter guarded (0 + 1)) ∧
    (∃ outcome t, (standard none).execute 4 guarded 0 bound = .done outcome t ∧
      t.locals.get? "x" = bound.locals.get? "x") ∧
    ∃ matched t branch,
      Asserted (standard none) 3 guarded (0 + 1) (bound.begin guarded 0) matched t ∧
      t.locals.get? "x" = some (.str "inner") ∧
      guarded.branch? matched = some branch ∧
      (standard none).inside 3 guarded 0 bound =
        ((standard none).execute 3 branch (0 + 1)).isolated
          { t with locals := (bound.enter guarded (0 + 1)).locals } := by
  have hisolated := execute_scope_isolated none 3 guarded 0 bound (by decide) (.inr rfl)
  have hexec : ∃ outcome t, (standard none).execute 4 guarded 0 bound = .done outcome t :=
    ⟨_, _, rfl⟩
  have hassertion : ∃ verdict t,
      (standard none).execute 3 assigning (0 + 1) (bound.begin guarded 0) = .done verdict t ∧
      verdict.truthy = false ∧ t.locals.get? "x" = some (.str "inner") :=
    ⟨_, _, rfl, rfl, rfl⟩
  refine ⟨by decide, rfl, ?_, ?_⟩
  · obtain ⟨outcome, t, h⟩ := hexec
    exact ⟨outcome, t, h, (hisolated.1 outcome t h).1 "x" (by decide) (by decide) (by decide)⟩
  · obtain ⟨verdict, t, h, hholds, hinner⟩ := hassertion
    have hfound : guarded.assertion? = some assigning := rfl
    have hasserted := Asserted.executed hfound h
    rw [hholds] at hasserted
    exact ⟨false, t, _, hasserted, hinner, rfl,
      hisolated.2 (.inl rfl) (fun _ h => absurd h (Option.some_ne_none _).symm) false t _ hasserted
        rfl⟩

end Engine

end TagScript
