import TagScript.Proofs.Isolation
import TagScript.Proofs.Termination

/-!
# Trace and depth follow the executions

Tags are executed inside tags: those that stand there, the assertion that a
condition makes of its attributes, the bodies of procedures, the scripts of
modules. Which executions there are is not to be read off the script. Each
of them is told by the runner that asks for it how deep it is, and the
boundary around it puts the name of its tag on the trace and takes it off
again, on many ways out. This module says that the two never part: the
depth is the length of the trace, and the trace is the list of the tags
that are being executed.

An execution inside another one is seen from the outside. Nothing in the
language catches that the means are used up, so a computation that asks for
the execution of a tag is cut off wherever that execution is cut off, and
`Run.Asks` takes this for what it is to ask. `Engine.Encloses` goes from
execution to execution in this way and collects the names on its way.
-/

namespace TagScript

/-! ## Executions inside executions -/

/-- **An execution of a tag**, from where it starts. -/
structure Execution where
  /-- The tag. -/
  tag : Tag
  /-- The depth of the tag around it. -/
  outer : Depth
  /-- The frame it starts from. -/
  frame : Frame
  /-- The means left for what is executed inside it. -/
  means : Nat

/-- **A computation asks for the execution of a tag**, given a way to
execute tags: were that execution cut off, in whatever frame, and every
other one left as it is, the computation would be cut off there. -/
def Run.Asks {α : Type} (x : (Tag → Depth → Run Outcome) → Run α)
    (exec : Tag → Depth → Run Outcome) (s : Frame) (child : Tag) (depth : Depth) (t : Frame) :
    Prop :=
  ∀ u other, other child depth t = .exhausted u →
    (∀ c d v, ¬(c = child ∧ d = depth ∧ v = t) → other c d v = exec c d v) →
    x other s = .exhausted u

namespace Engine

/-- What an execution comes to. -/
def ending (e : Engine) (x : Execution) : Ending Outcome :=
  e.execute (x.means + 1) x.tag x.outer x.frame

/-- **An execution directly inside another**: the runner of the one, or what
stands in its place, asks for the other. -/
structure Executes (e : Engine) (x y : Execution) : Prop where
  /-- It uses up some of the means. -/
  means : x.means = y.means + 1
  /-- It is asked for. -/
  asks : Run.Asks (fun exec => e.dispatch ⟨x.tag, x.outer + 1, exec, x.means⟩)
    (e.execute x.means) (x.frame.enter x.tag (x.outer + 1)) y.tag y.outer y.frame

/-- **An execution inside another, at any depth**, with the names of the
tags whose executions are around it, the outermost first. -/
inductive Encloses (e : Engine) (first : Execution) : List String → Execution → Prop where
  /-- Around the outermost execution there is none. -/
  | outermost : Encloses e first [] first
  /-- What an execution asks for is inside it. -/
  | inner {names : List String} {x y : Execution} (hx : Encloses e first names x)
      (hy : e.Executes x y) : Encloses e first (names ++ [x.tag.name]) y

end Engine

/-! ## The trace -/

/-- **An event in step with a trace**: if it is the call of a runner, then
there are as many names on the trace as the runner is deep, and those that
the trace was to have are the outermost. -/
def Event.Follows (trace : List String) : Event → Prop
  | .invoked _ depth names _ _ => depth = names.length ∧ trace <:+ names
  | _ => True

/-- What follows a longer trace follows a shorter one. -/
theorem Event.Follows.of_cons {name : String} {trace : List String} {event : Event}
    (h : event.Follows (name :: trace)) : event.Follows trace := by
  cases event with
  | invoked => exact ⟨h.1, (List.suffix_cons name trace).trans h.2⟩
  | entered | faulted | called | started | left => trivial

/-- An ending that is not cut off leaves some trace. -/
def Ending.Leaves {α : Type} (trace : List String) : Ending α → Prop
  | .done _ t | .failed _ t => t.world.trace = trace
  | .exhausted _ => True

/-- **An ending of what started in a frame follows a trace**: it leaves that
trace, and all events on the way were in step with it. -/
def Ending.Follows {α : Type} (trace : List String) (s : Frame) (ending : Ending α) : Prop :=
  ending.Leaves trace ∧ s.Adds (Event.Follows trace) ending.after

theorem World.trace_note (w : World) (event : Event) : (w.note event).trace = w.trace := by
  unfold note
  split
  · rfl
  · rfl

/-- No act changes the trace. -/
theorem Act.trace_eq {tag : Tag} {s t : Frame} (h : Act tag s t) :
    t.world.trace = s.world.trace := by
  cases h with
  | called | started => exact World.trace_note _ _
  | bound | boundGlobally | iterated | uncounted | granted | defined | stored => rfl

/-- Nor does the report of a fault. -/
theorem Frame.trace_fault (s : Frame) (tag : Tag) (depth : Depth) (fault : Fault) :
    (s.fault tag depth fault).world.trace = s.world.trace := by
  obtain ⟨files, locks, h⟩ := s.fault_eq tag depth fault
  rw [h]
  exact World.trace_note _ _

/-- **The boundary around a tag takes off what it has put on the trace.** -/
theorem leaves_boundary {tag : Tag} {depth : Depth} {body : Run Outcome} {s : Frame}
    (h : (body (s.enter tag depth)).Leaves (tag.name :: s.world.trace)) :
    (boundary tag depth body s).Leaves s.world.trace := by
  cases hbody : body (s.enter tag depth) with
  | done outcome t =>
    rw [hbody] at h
    rw [boundary_of_done hbody]
    exact congrArg List.tail h
  | failed fault t =>
    rw [hbody] at h
    rw [boundary_of_failed hbody]
    exact congrArg List.tail ((t.trace_fault tag depth _).trans h)
  | exhausted t =>
    rw [boundary_of_exhausted hbody]
    trivial

/-- What it notes itself is in step with every trace. -/
theorem adds_boundary {trace : List String} {tag : Tag} {depth : Depth} {body : Run Outcome}
    {s : Frame}
    (h : (s.enter tag depth).Adds (Event.Follows trace) (body (s.enter tag depth)).after) :
    s.Adds (Event.Follows trace) (boundary tag depth body s).after :=
  (course_adds _).boundary (.of_note rfl trivial) ⟨h, fun _ _ _ => trivial⟩
    (fun _ t (_ : True) => .of_note (t.journal_fault tag depth _) trivial)
    fun _ _ => .of_note rfl trivial

/-- One name more on the trace, one deeper. -/
theorem Depth.succ_eq_length {outer : Depth} {trace : List String} (h : outer = trace.length)
    (name : String) : outer + 1 = ((name :: trace).length : Int) := by
  rw [h]
  rfl

/-! ## Computations in step -/

namespace Run

variable {α β : Type} {trace : List String} {asked : Prop} {s : Frame}

/-- **Two computations in step**: from a frame with some trace both do the
same, which is in step with that trace, or else something is asked for. -/
def InStep (trace : List String) (asked : Prop) (x y : Run α) (s : Frame) : Prop :=
  s.world.trace = trace → asked ∨ x s = y s ∧ (x s).Follows trace s

/-- Sequences are in step if their parts are. -/
theorem InStep.bind {x y : Run α} {f g : α → Run β} (hx : InStep trace asked x y s)
    (hf : ∀ a t, x s = .done a t → InStep trace asked (f a) (g a) t) :
    InStep trace asked (x >>= f) (y >>= g) s := by
  intro hs
  obtain hasked | ⟨hsame, htrace, hadds⟩ := hx hs
  · exact .inl hasked
  cases h : x s with
  | done a t =>
    rw [h] at hsame htrace hadds
    rw [bind_of_done h, bind_of_done hsame.symm]
    exact (hf a t h htrace).imp_right fun ⟨hsame, htrace, hrest⟩ =>
      ⟨hsame, htrace, hadds.trans hrest⟩
  | failed fault t =>
    rw [h] at hsame htrace hadds
    rw [bind_of_failed h, bind_of_failed hsame.symm]
    exact .inr ⟨rfl, htrace, hadds⟩
  | exhausted t =>
    rw [h] at hsame hadds
    rw [bind_of_exhausted h, bind_of_exhausted hsame.symm]
    exact .inr ⟨rfl, trivial, hadds⟩

/-- So is what is done on copies. -/
theorem InStep.isolated {x y : Run α} (hx : InStep trace asked x y s) :
    InStep trace asked x.isolated y.isolated s := by
  intro hs
  obtain hasked | ⟨hsame, htrace, hadds⟩ := hx hs
  · exact .inl hasked
  refine .inr ⟨by rw [Run.isolated, Run.isolated, hsame], ?_⟩
  cases h : x s with
  | done a t =>
    rw [h] at htrace hadds
    rw [isolated_of_done h]
    exact ⟨htrace, hadds⟩
  | failed fault t =>
    rw [h] at htrace hadds
    rw [isolated_of_failed h]
    exact ⟨htrace, hadds⟩
  | exhausted t =>
    rw [h] at hadds
    rw [isolated_of_exhausted h]
    exact ⟨trivial, hadds⟩

/-- What does not depend on how tags are executed is in step if it ends
so. -/
theorem InStep.of_eq {x y : Run α} {ending : Ending α} (hx : x s = ending) (hy : y s = ending)
    (h : s.world.trace = trace → ending.Follows trace s) : InStep trace asked x y s := by
  intro hs
  rw [hx, hy]
  exact .inr ⟨rfl, h hs⟩

end Run

/-- **The logic of the trace**, which compares two ways to execute tags. -/
def traceLogic (tag : Tag) (trace : List String) (asked : Prop) : Logic tag Bool where
  holds x := Run.InStep trace asked (x true) (x false)
  result h := .of_eq (h true) (h false) fun hs => ⟨hs, .refl _⟩
  act h ht := .of_eq (h true) (h false) fun hs =>
    ⟨ht.trace_eq.trans hs, ht.adds (fun _ => trivial) fun _ _ => trivial⟩
  fault h _ := .of_eq (h true) (h false) fun hs => ⟨hs, .refl _⟩
  waits h _ := .of_eq (h true) (h false) fun _ => ⟨trivial, .refl _⟩
  bind hx hf := hx.bind (hf true)
  copied hx := hx.isolated

namespace Engine

variable {limit : Option Nat}

/-- **A tag is dispatched in step** if the further tags are executed in
step. -/
theorem inStep_dispatch {trace : List String} {asked : Prop} {tag : Tag} {depth : Depth}
    {exec other : Tag → Depth → Run Outcome} (hdepth : depth = trace.length) (rounds : Nat)
    (hexec : ∀ child s, Run.InStep trace asked (exec child depth) (other child depth) s)
    (s : Frame) :
    Run.InStep trace asked ((standard limit).dispatch ⟨tag, depth, exec, rounds⟩)
      ((standard limit).dispatch ⟨tag, depth, other, rounds⟩) s := by
  obtain hwithin | ⟨d, hlimit, hexceeds⟩ := (standard limit).isWithin_or_exceeds depth
  · cases hget : (standard limit).runners.get? tag.name with
    | none =>
      rw [dispatch_of_unknown hwithin hget, dispatch_of_unknown hwithin hget]
      exact .of_eq rfl rfl fun hs => ⟨hs, .refl s⟩
    | some runner =>
      rw [dispatch_of_runner hwithin hget, dispatch_of_runner hwithin hget]
      have hrunner : Run.InStep trace asked (runner ⟨tag, depth, exec, rounds⟩)
          (runner ⟨tag, depth, other, rounds⟩) (s.invoke tag depth) :=
        @Logic.holds_runner_of_exhausted tag Bool (traceLogic tag trace asked) depth
          (fun | true => exec | false => other) runner (mem_builtins_of_get? hget) _
          (fun child _ => hexec child) rounds fun t => .of_eq rfl rfl fun _ => ⟨trivial, .refl t⟩
      intro hs
      have hinvoked : s.Adds (Event.Follows trace) (s.invoke tag depth) :=
        .of_note rfl ⟨hs ▸ hdepth, hs ▸ List.suffix_rfl⟩
      exact (hrunner ((World.trace_note _ _).trans hs)).imp_right fun ⟨hsame, htrace, hadds⟩ =>
        ⟨hsame, htrace, hinvoked.trans hadds⟩
  · rw [dispatch_of_exceeds hlimit hexceeds, dispatch_of_exceeds hlimit hexceeds]
    exact .of_eq rfl rfl fun hs => ⟨hs, .refl s⟩

/-- **A tag is dispatched as deep as the trace is long, and leaves the trace
as it was**, if the tags inside it do. -/
theorem follows_inside {means : Nat}
    (hexec : ∀ tag (outer : Depth) s, outer = (List.length s.world.trace : Int) →
      ((standard limit).execute means tag outer s).Follows s.world.trace s)
    {tag : Tag} {outer : Depth} {s : Frame} (houter : outer = s.world.trace.length) :
    ((standard limit).inside means tag outer s).Follows (tag.name :: s.world.trace)
      (s.enter tag (outer + 1)) := by
  have hdepth := Depth.succ_eq_length houter tag.name
  -- compared with itself, a run is in step and nothing is asked for
  have hinside : Run.InStep (tag.name :: s.world.trace) False
      ((standard limit).dispatch ((standard limit).site means tag outer))
      ((standard limit).dispatch ((standard limit).site means tag outer))
      (s.enter tag (outer + 1)) := by
    refine inStep_dispatch hdepth means (fun child t ht => .inr ⟨rfl, ?_⟩) _
    have hchild := hexec child (outer + 1) t (ht ▸ hdepth)
    rwa [ht] at hchild
  exact ((hinside rfl).resolve_left id).2

/-- **Every execution as deep as the trace is long leaves the trace as it
was.** -/
theorem follows_execute (limit : Option Nat) (means : Nat) (tag : Tag) (outer : Depth) (s : Frame)
    (houter : outer = s.world.trace.length) :
    ((standard limit).execute means tag outer s).Follows s.world.trace s := by
  induction means generalizing tag outer s with
  | zero => exact ⟨trivial, .refl s⟩
  | succ means ih =>
    obtain ⟨hleaves, hadds⟩ := @follows_inside limit means ih tag outer s houter
    exact ⟨leaves_boundary hleaves, (adds_boundary hadds).mono fun _ => Event.Follows.of_cons⟩

/-! ## From execution to execution -/

/-- A frame that is not a given one. -/
theorem exists_frame_ne (s : Frame) : ∃ u : Frame, u ≠ s := by
  refine ⟨{ s with world := { s.world with handlers := s.world.handlers + 1 } }, fun h => ?_⟩
  exact Nat.succ_ne_self _ (congrArg (fun u : Frame => u.world.handlers) h)

/-- **What one execution asks for**: the tag inside is told the depth of
the tag around it, finds the name of that tag on the trace, and is asked for
only within the limit. -/
theorem Executes.inStep {x y : Execution} (h : (standard limit).Executes x y)
    (hx : x.outer = x.frame.world.trace.length) :
    y.outer = x.outer + 1 ∧ y.frame.world.trace = x.tag.name :: x.frame.world.trace ∧
      ∀ d, limit = some d → (x.outer + 1).number ≤ d := by
  classical
  have hdepth := Depth.succ_eq_length hx x.tag.name
  -- the run in which the execution is cut off, where the real one does not get to
  obtain ⟨u, hu⟩ := exists_frame_ne ((standard limit).inside x.means x.tag x.outer x.frame).after
  let other : Tag → Depth → Run Outcome := fun c d v =>
    if c = y.tag ∧ d = y.outer ∧ v = y.frame then .exhausted u
    else (standard limit).execute x.means c d v
  have hcut : (standard limit).dispatch ⟨x.tag, x.outer + 1, other, x.means⟩
      (x.frame.enter x.tag (x.outer + 1)) = .exhausted u :=
    h.asks u other (if_pos ⟨rfl, rfl, rfl⟩) fun _ _ _ hne => if_neg hne
  have hinside : Run.InStep (x.tag.name :: x.frame.world.trace)
      (y.outer = x.outer + 1 ∧ y.frame.world.trace = x.tag.name :: x.frame.world.trace)
      ((standard limit).dispatch ((standard limit).site x.means x.tag x.outer))
      ((standard limit).dispatch ⟨x.tag, x.outer + 1, other, x.means⟩)
      (x.frame.enter x.tag (x.outer + 1)) := by
    refine inStep_dispatch hdepth x.means (fun child t ht => ?_) _
    by_cases hchild : child = y.tag ∧ x.outer + 1 = y.outer ∧ t = y.frame
    · exact .inl ⟨hchild.2.1.symm, hchild.2.2 ▸ ht⟩
    · have hfollows := follows_execute limit x.means child (x.outer + 1) t (ht ▸ hdepth)
      rw [ht] at hfollows
      exact .inr ⟨(if_neg hchild).symm, hfollows⟩
  obtain ⟨houter, htrace⟩ := (hinside rfl).resolve_right fun ⟨hsame, _⟩ =>
    hu (congrArg Ending.after (hsame.trans hcut)).symm
  refine ⟨houter, htrace, fun d hd => Nat.not_lt.1 fun hexceeds => ?_⟩
  rw [dispatch_of_exceeds hd hexceeds] at hcut
  cases hcut

/-- **In a run from depth zero and an empty trace**, the names collected on
the way to an execution are as many as it is deep and are those on the
trace, and there is one for each depth within the limit. -/
theorem Encloses.inStep {first x : Execution} {names : List String}
    (h : (standard limit).Encloses first names x) (hdepth : first.outer = 0)
    (htrace : first.frame.world.trace = []) :
    x.outer = names.length ∧ x.frame.world.trace = names.reverse ∧
      ∀ d, limit = some d → names.length ≤ d := by
  induction h with
  | outermost => exact ⟨hdepth, htrace, fun d _ => Nat.zero_le d⟩
  | @inner names x y _ hy ih =>
    obtain ⟨houter, hnames, _⟩ := ih
    obtain ⟨hdeeper, hlonger, hlimit⟩ := hy.inStep (by rw [houter, hnames, List.length_reverse])
    have hlength : x.outer + 1 = ((names ++ [x.tag.name]).length : Int) := by
      rw [houter, List.length_append]
      rfl
    refine ⟨hdeeper.trans hlength, ?_, fun d hd => ?_⟩
    · rw [hlonger, hnames, List.reverse_append]
      rfl
    · have hwithin := hlimit d hd
      rwa [hlength, Depth.number_of_nonneg (Int.natCast_nonneg _), Int.toNat_natCast] at hwithin

end Engine

/-! ## Whole runs -/

/-- What the report of a fault reads: the time, the tag, the names of the
tags being executed, the outermost first, and the fault. -/
def faultText (clock : String) (tag : Tag) (names : List String) (fault : Fault) : String :=
  let trace := Text.joinWith " > " names
  s!"[{clock}] TAG: {tag.name}({tag.showAttrs}) | Trace: {trace} | Error: {fault.describe}"

theorem Frame.faultReport_eq (s : Frame) (tag : Tag) (fault : Fault) :
    s.faultReport tag fault = faultText s.world.clock tag s.world.trace.reverse fault := rfl

namespace Engine

/-- **Trace and depth stay in step.** Take a run from depth zero and an
empty trace, and any execution in it, however deep inside and wherever it
is asked for from.

The runner of its tag is called as deep as the trace is then long, and the
trace has on it the names of the tags that are being executed around it,
and of itself. The same is so of every runner that is called on its behalf:
its depth is the length of its trace, and that one begins with those names.

If the tag faults, the execution ends with the result false, and the report
bound in its scope has exactly these names in it. Whenever the execution
ends, the trace is what it was before. And with a limit on the depth, the
trace has at most one name more than the limit says. -/
theorem execute_trace_in_step (limit : Option Nat) {first x : Execution} {names : List String}
    (hdepth : first.outer = 0) (htrace : first.frame.world.trace = [])
    (hx : (standard limit).Encloses first names x) :
    (((standard limit).site x.means x.tag x.outer).depth =
        (x.frame.begin x.tag x.outer).world.trace.length ∧
      (x.frame.begin x.tag x.outer).world.trace.reverse = names ++ [x.tag.name]) ∧
    (∃ added,
      ((standard limit).ending x).after.world.journal = added ++ x.frame.world.journal ∧
      ∀ child depth trace locals globals, .invoked child depth trace locals globals ∈ added →
        depth = trace.length ∧ names ++ [x.tag.name] <+: trace.reverse) ∧
    (∀ fault t, (standard limit).inside x.means x.tag x.outer x.frame = .failed fault t →
      ∃ u, (standard limit).ending x = .done .fail u ∧
        u.locals.get? Reserved.debug = some (.str (faultText t.world.clock x.tag
          (names ++ [x.tag.name]) (fault.chargedTo x.tag.span)))) ∧
    (∀ outcome t, (standard limit).ending x = .done outcome t →
      t.world.trace = x.frame.world.trace) ∧
    ∀ d, limit = some d →
      (x.frame.enter x.tag (x.outer + 1)).world.trace.length ≤ d + 1 := by
  obtain ⟨houter, hnames, hlimit⟩ := hx.inStep hdepth htrace
  have hlength : x.outer = x.frame.world.trace.length := by
    rw [houter, hnames, List.length_reverse]
  have hreverse : (x.tag.name :: x.frame.world.trace).reverse = names ++ [x.tag.name] := by
    rw [List.reverse_cons, hnames, List.reverse_reverse]
  obtain ⟨hleaves, hadds⟩ := @follows_inside limit x.means (follows_execute limit x.means)
    x.tag x.outer x.frame hlength
  have hbegin : (x.frame.begin x.tag x.outer).world.trace = x.tag.name :: x.frame.world.trace :=
    World.trace_note _ _
  refine ⟨⟨?_, hbegin ▸ hreverse⟩, ?_, fun fault t hfailed => ?_, fun outcome t hdone => ?_,
    fun d hd => ?_⟩
  · rw [hbegin]
    exact Depth.succ_eq_length hlength x.tag.name
  · -- the names on the trace stay there for as long as the tag is being executed
    obtain ⟨added, hjournal, hadded⟩ := adds_boundary hadds
    refine ⟨added, hjournal, fun child depth trace locals globals h => ?_⟩
    obtain ⟨hdeep, hsuffix⟩ := hadded _ h
    exact ⟨hdeep, hreverse ▸ List.reverse_prefix.2 hsuffix⟩
  · -- nor does the runner leave any other trace behind for the report of its fault
    rw [hfailed] at hleaves
    refine ⟨_, boundary_of_failed hfailed, (Frame.get?_fault_debug _).trans ?_⟩
    have htrace : t.world.trace = x.tag.name :: x.frame.world.trace := hleaves
    rw [Frame.faultReport_eq, htrace, hreverse]
  · have hbefore : ((standard limit).ending x).Leaves x.frame.world.trace :=
      leaves_boundary hleaves
    rw [hdone] at hbefore
    exact hbefore
  · show (x.frame.world.trace).length + 1 ≤ d + 1
    rw [hnames, List.length_reverse]
    exact Nat.succ_le_succ (hlimit d hd)

/-- A condition whose assertion, made of an attribute, negates nothing, and
faults for it. -/
def negatingNothing : Tag := ⟨"if", [("_assert", some "not")], [], .nowhere⟩

/-- A block with that condition in it. -/
def surrounded : Tag := ⟨"sub", [], [.tag negatingNothing], .nowhere⟩

/-- The execution of the block, -/
def ofBlock : Execution := ⟨surrounded, 0, blankFrame, 3⟩

/-- inside it that of the condition, -/
def ofCondition : Execution := ⟨negatingNothing, 1, blankFrame.begin surrounded 0, 2⟩

/-- and inside that one that of the assertion. -/
def ofAssertion : Execution :=
  ⟨{ negatingNothing with name := "not" }, 2, ofCondition.frame.begin negatingNothing 1, 1⟩

theorem executes_ofCondition : (standard (some 3)).Executes ofBlock ofCondition where
  means := rfl
  asks _ _ h _ :=
    Run.isolated_of_exhausted (Run.bind_of_exhausted (Run.bind_of_exhausted
      (Run.bind_of_exhausted h _) _) _)

theorem executes_ofAssertion : (standard (some 3)).Executes ofCondition ofAssertion where
  means := rfl
  asks _ _ h _ :=
    Run.bind_of_exhausted (Run.isolated_of_exhausted (Run.bind_of_exhausted h _)) _

theorem encloses_ofAssertion :
    (standard (some 3)).Encloses ofBlock ["sub", "if"] ofAssertion :=
  .inner (.inner .outermost executes_ofCondition) executes_ofAssertion

/-- Three names deep, with the limit reached, the assertion faults. -/
theorem ofAssertion_trace_in_step :
    ofBlock.outer = 0 ∧ ofBlock.frame.world.trace = [] ∧
    (standard (some 3)).Encloses ofBlock ["sub", "if"] ofAssertion ∧
    ∃ u, (standard (some 3)).ending ofAssertion = .done .fail u ∧
      u.world.trace = ["if", "sub"] ∧
      u.locals.get? Reserved.debug = some (.str (faultText "" ofAssertion.tag ["sub", "if", "not"]
        ((Fault.of .nothingNegated).chargedTo ofAssertion.tag.span))) := by
  obtain ⟨_, _, hreport, htrace, _⟩ := @execute_trace_in_step (some 3) ofBlock
    ofAssertion ["sub", "if"] rfl rfl encloses_ofAssertion
  obtain ⟨u, hending, hdebug⟩ := hreport (.of .nothingNegated) _ rfl
  exact ⟨rfl, rfl, encloses_ofAssertion, u, hending, htrace _ u hending, hdebug⟩

end Engine

end TagScript
