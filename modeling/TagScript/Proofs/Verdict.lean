import TagScript.CommandLine
import TagScript.Proofs.Asking
import TagScript.Proofs.Json
import TagScript.Proofs.Sequence
import TagScript.Proofs.Storage
import TagScript.Proofs.Upholding

/-!
# What the command line tells of a script

A script is the tag `root`. It executes the tags inside it one after the
other, up to the first that yields false, and the command line tells in a
line or two how that went. `Execution.Turn` is the execution of the tag at
some place inside a script, and `Engine.Executes.exists_turn` says that a script
executes nothing but turns, so that nothing comes after the last one.

What goes on inside a turn leaves traces of its own: a tag that faults
binds its report wherever it stands, in the variables of the script too.
None of them is what the command line shows. The script works on a copy,
and the report of its own fault is bound to what the copy was made from.

A script that cannot be read and an assignment that is none are told of in
three lines, before there is anything to execute.
-/

namespace TagScript

/-! ## Turns -/

/-- **The search for a tag that yields false asks for one of the tags** where the pass over those
before it leads. -/
theorem Site.exists_pass_of_asks {tag child : Tag} {depth outer : Depth}
    {exec : Tag → Depth → Run Outcome} {rounds : Nat} {tags : List Tag} {s t : Frame}
    (hcalls : ¬Site.calls ⟨tag, depth, exec, rounds⟩)
    (h : Run.Asks (fun exec => Site.firstFalsy ⟨tag, depth, exec, rounds⟩ tags) exec s child outer
      t) :
    outer = depth ∧ ∃ i executed, tags[i]? = some child ∧
      Site.Pass ⟨tag, depth, exec, rounds⟩ (tags.take i) s executed .completed t := by
  induction tags generalizing s with
  | nil =>
    obtain ⟨_, hcut, _⟩ := h.exists_cut s
    cases hcut
  | cons first rest ih =>
    by_cases hfirst : first = child ∧ depth = outer ∧ s = t
    · obtain ⟨rfl, rfl, rfl⟩ := hfirst
      exact ⟨rfl, 0, [], rfl, .completed s⟩
    -- otherwise the first tag is executed as it is
    obtain ⟨u, hu⟩  := Engine.exists_frame_ne (exec first depth s).after
    obtain ⟨other, hcut, hrest⟩ := h.exists_cut u
    cases hrun : exec first depth s with
    | failed fault v =>
      cases (Run.bind_of_failed ((hrest first depth s hfirst).trans hrun) _).symm.trans hcut
    | exhausted v =>
      have hstopped := (Run.bind_of_exhausted ((hrest first depth s hfirst).trans hrun) _).symm.trans
        hcut
      rw [hrun] at hu
      exact absurd (Ending.exhausted.inj hstopped).symm hu
    | done outcome v =>
      cases hgoes : outcome.truthy with
      | false =>
        have hstopped := (Run.bind_of_done ((hrest first depth s hfirst).trans hrun) _).symm.trans
          hcut
        rw [if_neg (by simp [hgoes])] at hstopped
        cases hstopped
      | true =>
        have hlater : Run.Asks (fun exec => Site.firstFalsy ⟨tag, depth, exec, rounds⟩ rest) exec v
            child outer t := fun w other hcut hrest => by
          have hends := h w other hcut hrest
          have hstep := Run.bind_of_done ((hrest first depth s hfirst).trans hrun) fun outcome =>
            if outcome.truthy then Site.firstFalsy ⟨tag, depth, other, rounds⟩ rest
            else pure (some first)
          rw [if_pos hgoes] at hstep
          exact hstep.symm.trans hends
        obtain ⟨houter, i, executed, htag, hpass⟩ := ih hlater
        refine ⟨houter, i + 1, _, htag, .next hrun ?_ hpass⟩
        exact (Site.goesOn_of_not_calls hcalls first outcome).trans hgoes

/-- **The turn of the tag at some place inside another one**: its execution on behalf of the other
one, where a pass over the tags before it leads. -/
structure Execution.Turn (limit : Option Nat) (x : Execution) (i : Nat) (y : Execution) : Prop where
  /-- It is executed. -/
  executes : (Engine.standard limit).Executes x y
  /-- It stands there. -/
  tag_eq : x.tag.tags[i]? = some y.tag
  /-- The tags before it have been executed one after the other, and the other tag has gone on
  after each of them. -/
  pass : ∃ executed, ((Engine.standard limit).site x.means x.tag x.outer).Pass (x.tag.tags.take i)
    x.start executed .completed y.frame

/-- **The tag at some place inside another one is executed and yields an outcome.** -/
def Execution.Yields (limit : Option Nat) (x : Execution) (i : Nat) (outcome : Outcome) : Prop :=
  ∃ y t, x.Turn limit i y ∧ (Engine.standard limit).ending y = .done outcome t

/-- **All tags inside another one are executed and yield true.** -/
def Execution.Completes (limit : Option Nat) (x : Execution) : Prop :=
  ∀ i < x.tag.tags.length, ∃ outcome, x.Yields limit i outcome ∧ outcome.truthy = true

/-- **An execution aborts at a tag inside its own**, at some place: the first that yields
false. -/
structure Execution.Aborts (limit : Option Nat) (x : Execution) (i : Nat) (child : Tag) : Prop where
  /-- The tag stands there. -/
  tag_eq : x.tag.tags[i]? = some child
  /-- It is executed and yields false. -/
  falsy : ∃ outcome, x.Yields limit i outcome ∧ outcome.truthy = false
  /-- All tags before it are executed and yield true. -/
  truthy : ∀ j < i, ∃ outcome, x.Yields limit j outcome ∧ outcome.truthy = true
  /-- Nothing is executed after it. -/
  last : ∀ y, (Engine.standard limit).Executes x y → ∃ j ≤ i, x.Turn limit j y

namespace Execution

variable {limit : Option Nat} {x y z : Execution} {i : Nat}

/-- There is one turn for each place, -/
theorem Turn.unique (hy : x.Turn limit i y) (hz : x.Turn limit i z) : z = y := by
  obtain ⟨_, hpass⟩ := hy.pass
  obtain ⟨_, hpass'⟩ := hz.pass
  have htag : z.tag = y.tag := Option.some.inj (hz.tag_eq.symm.trans hy.tag_eq)
  have houter : z.outer = y.outer := hz.executes.outer_eq.trans hy.executes.outer_eq.symm
  have hframe : z.frame = y.frame := hpass.unique_of_completed hpass'
  have hmeans : z.means = y.means :=
    Nat.succ.inj (hz.executes.means.symm.trans hy.executes.means)
  calc z = ⟨z.tag, z.outer, z.frame, z.means⟩ := rfl
    _ = y := by rw [htag, houter, hframe, hmeans]

/-- and so one outcome. -/
theorem Yields.unique {outcome other : Outcome} (h : x.Yields limit i outcome)
    (hother : x.Yields limit i other) : other = outcome := by
  obtain ⟨y, t, hturn, hends⟩ := h
  obtain ⟨z, u, hturn', hends'⟩ := hother
  obtain rfl := hturn.unique hturn'
  exact (Ending.done.inj (hends'.symm.trans hends)).1

/-- **What aborts does not complete.** -/
theorem Aborts.not_completes {child : Tag} (h : x.Aborts limit i child) : ¬x.Completes limit := by
  intro hcompletes
  obtain ⟨hi, -⟩ := List.getElem?_eq_some_iff.1 h.tag_eq
  obtain ⟨outcome, hyields, htrue⟩ := hcompletes i hi
  obtain ⟨other, hother, hfalse⟩ := h.falsy
  rw [hyields.unique hother, htrue] at hfalse
  cases hfalse

end Execution

/-! ## Scripts -/

namespace Runner

variable {site : Site} {s : Frame}

/-- A script is cut off where its search for a tag that yields false is. -/
theorem root_eq_exhausted {u : Frame} :
    root site s = .exhausted u ↔ site.firstFalsy site.tag.tags s = .exhausted u := by
  unfold root Site.completesOr Run.isolated
  rw [Run.bind_apply, Run.bind_apply]
  cases site.firstFalsy site.tag.tags s with
  | done first t => cases first <;> simp [Run.fail]
  | failed fault t => simp
  | exhausted t => simp

/-- **A script makes one pass over the tags inside it**, on a copy of the local variables. -/
theorem root_of_pass {executed : List (Tag × Option Outcome)} {stop : Stop} {t : Frame}
    (hcalls : ¬site.calls) (h : site.Pass site.tag.tags s executed stop t) :
    root site s = stop.elim (.done .ok { t with locals := s.locals })
      (fun child _ => .failed (.of (.scriptAborted child.name)) { t with locals := s.locals })
      (.exhausted t) := by
  unfold root Run.isolated
  rw [Run.bind_apply, Site.completesOr_of_pass hcalls h]
  cases stop <;> rfl

end Runner

namespace Engine

variable {limit : Option Nat} {x y : Execution}

section Root

variable (hname : x.tag.name = "root")
  (hwithin : ∀ d, limit = some d → (x.outer + 1).number ≤ d)
include hname hwithin

/-- The runner of a script is called, whatever further tags come to. -/
theorem dispatch_root (exec : Tag → Depth → Run Outcome) :
    (standard limit).dispatch ⟨x.tag, x.outer + 1, exec, x.means⟩
        (x.frame.enter x.tag (x.outer + 1)) =
      Runner.root ⟨x.tag, x.outer + 1, exec, x.means⟩ x.start := by
  have hmem : (x.tag.name, Runner.root) ∈ builtins := by simp [builtins, hname]
  rw [dispatch_of_mem_within hmem hwithin]
  rfl

/-- **A script executes turns**, and nothing else. -/
theorem Executes.exists_turn (h : (standard limit).Executes x y) : ∃ i, x.Turn limit i y := by
  have hcalls : ¬Site.calls ⟨x.tag, x.outer + 1, (standard limit).execute x.means, x.means⟩ := by
    simp [Site.calls, hname]
  have hasks : Run.Asks
      (fun exec => Site.firstFalsy ⟨x.tag, x.outer + 1, exec, x.means⟩ x.tag.tags)
      ((standard limit).execute x.means) x.start y.tag y.outer y.frame := fun u other hcut hrest =>
    Runner.root_eq_exhausted.1
      ((dispatch_root hname hwithin other).symm.trans (h.asks u other hcut hrest))
  obtain ⟨-, i, executed, htag, hpass⟩ := Site.exists_pass_of_asks hcalls hasks
  exact ⟨i, h, htag, executed, hpass⟩

/-- **Where a pass over the first tags leads, the next one has its turn**, if there are means. -/
theorem turn_of_pass {i means : Nat} {child : Tag} {executed : List (Tag × Option Outcome)}
    {t : Frame} (hmeans : x.means = means + 1) (htag : x.tag.tags[i]? = some child)
    (hpass : ((standard limit).site x.means x.tag x.outer).Pass (x.tag.tags.take i) x.start
      executed .completed t) :
    x.Turn limit i ⟨child, x.outer + 1, t, means⟩ where
  tag_eq := htag
  pass := ⟨executed, hpass⟩
  executes := by
    refine ⟨hmeans, fun u other hcut hrest => ?_⟩
    obtain ⟨hi, rfl⟩ := List.getElem?_eq_some_iff.1 htag
    obtain ⟨_, c, hlater⟩ := hpass.exists_cut hcut hrest (x.tag.tags.drop (i + 1))
    rw [← List.drop_eq_getElem_cons hi, List.take_append_drop] at hlater
    dsimp only
    rw [dispatch_root hname hwithin]
    exact Runner.root_of_pass (by simp [Site.calls, hname]) hlater

/-- So what the tag comes to there is what it yields. -/
theorem yields_of_pass {i : Nat} {child : Tag} {executed : List (Tag × Option Outcome)}
    {outcome : Outcome} {t u : Frame} (htag : x.tag.tags[i]? = some child)
    (hpass : ((standard limit).site x.means x.tag x.outer).Pass (x.tag.tags.take i) x.start
      executed .completed t)
    (hrun : ((standard limit).site x.means x.tag x.outer).run child t = .done outcome u) :
    x.Yields limit i outcome := by
  rw [run_site] at hrun
  obtain ⟨means, hmeans⟩ : ∃ means, x.means = means + 1 := by
    refine Nat.exists_eq_add_one_of_ne_zero fun hzero => ?_
    rw [hzero] at hrun
    cases hrun
  refine ⟨_, u, turn_of_pass hname hwithin hmeans htag hpass, ?_⟩
  rw [hmeans] at hrun
  exact hrun

/-- **A pass over the first tags that is completed has had all their turns**, and each of them has
yielded true. -/
theorem yields_of_completed {i j : Nat} {executed : List (Tag × Option Outcome)} {t : Frame}
    (hpass : ((standard limit).site x.means x.tag x.outer).Pass (x.tag.tags.take i) x.start
      executed .completed t) (hj : j < (x.tag.tags.take i).length) :
    ∃ outcome, x.Yields limit j outcome ∧ outcome.truthy = true := by
  obtain ⟨child, outcome, earlier, u, v, htag, hearlier, hrun, hgoes⟩ :=
    hpass.exists_of_completed hj
  obtain ⟨hji, hjlength⟩ := Nat.lt_min.1 (List.length_take ▸ hj)
  rw [List.take_take, Nat.min_eq_left (Nat.le_of_lt hji)] at hearlier
  rw [List.getElem?_take_of_lt hji] at htag
  refine ⟨outcome, yields_of_pass hname hwithin htag hearlier hrun, ?_⟩
  exact (Bool.and_eq_true_iff.1 hgoes).1

/-- **A script that comes to something completes or aborts**: it yields true if all tags inside it
are executed and yield true, and otherwise it faults over the first that does not. -/
theorem completes_or_aborts {outcome : Outcome} {t : Frame}
    (hends : (standard limit).ending x = .done outcome t) :
    (x.Completes limit ∧ outcome = .ok) ∨
      ∃ i child u, x.Aborts limit i child ∧ outcome = .fail ∧
        (standard limit).insideOf x = .failed (.of (.scriptAborted child.name)) u ∧
        t = (u.fault x.tag (x.outer + 1)
          ((Fault.of (.scriptAborted child.name)).chargedTo x.tag.span)).leave x.tag (x.outer + 1)
          .fail := by
  have hcalls : ¬((standard limit).site x.means x.tag x.outer).calls := by
    simp [Site.calls, hname]
  obtain ⟨executed, stop, u, hpass⟩ := Site.exists_pass
    ((standard limit).run_ne_failed x.means x.tag x.outer) x.tag.tags x.start
  have hinside := (dispatch_root hname hwithin ((standard limit).execute x.means)).trans
    (Runner.root_of_pass hcalls hpass)
  cases stop with
  | completed =>
    have hending : (standard limit).ending x = _ := boundary_of_done hinside
    refine .inl ⟨fun i hi => ?_, (Ending.done.inj (hends.symm.trans hending)).1⟩
    rw [← List.take_length (l := x.tag.tags)] at hpass hi
    exact yields_of_completed hname hwithin hpass hi
  | broken child yielded =>
    have hending : (standard limit).ending x = _ := boundary_of_failed hinside
    obtain ⟨rfl, rfl⟩ := Ending.done.inj (hends.symm.trans hending)
    obtain ⟨i, earlier, v, htag, hearlier, hrun, hbroken, hfurthest⟩ := hpass.exists_of_broken
    rw [Site.goesOn_of_not_calls hcalls] at hbroken
    refine .inr ⟨i, child, _, ⟨htag, ?_, fun j hj => ?_, fun y hy => ?_⟩, rfl, hinside, rfl⟩
    · exact ⟨yielded, yields_of_pass hname hwithin htag hearlier hrun, hbroken⟩
    · obtain ⟨hi, -⟩ := List.getElem?_eq_some_iff.1 htag
      refine yields_of_completed hname hwithin hearlier ?_
      rw [List.length_take]
      exact Nat.lt_min.2 ⟨hj, Nat.lt_trans hj hi⟩
    · obtain ⟨j, hturn⟩ := hy.exists_turn hname hwithin
      obtain ⟨others, hothers⟩ := hturn.pass
      exact ⟨j, hfurthest j others _ hothers, hturn⟩
  | cut child =>
    have hending : (standard limit).ending x = _ := boundary_of_exhausted hinside
    cases hends.symm.trans hending

end Root

end Engine

/-- What a script reports that has been aborted at a tag. -/
def abortText (clock : String) (script child : Tag) : String :=
  s!"[{clock}] TAG: root({script.showAttrs}) | Trace: root | Error: ENGINE_SCRIPT_FAILED: Script aborted at tag \"{child.name}\"."

theorem describe_scriptAborted (name : String) (span : Span) :
    ((Fault.of (.scriptAborted name)).chargedTo span).describe =
      "ENGINE_SCRIPT_FAILED: " ++ s!"Script aborted at tag \"{name}\"." := rfl

/-- It is the report of the fault that it is aborted with. -/
theorem faultText_scriptAborted (clock : String) {script : Tag} (hname : script.name = "root")
    (child : Tag) (span : Span) :
    faultText clock script ["root"] ((Fault.of (.scriptAborted child.name)).chargedTo span) =
      abortText clock script child := by
  unfold faultText abortText
  rw [describe_scriptAborted, hname, show Text.joinWith " > " ["root"] = "root" from rfl,
    ← String.toList_inj]
  simp [toString]

namespace Engine

variable {limit : Option Nat} {x : Execution}

/-- The clock shows the same where a runner faults. -/
theorem clock_of_inside {fault : Fault} {u : Frame}
    (hinside : (standard limit).insideOf x = .failed fault u) :
    u.world.clock = x.frame.world.clock := by
  have hc := conduct_surroundings (standard limit)
  have hbuiltin : ∀ name runner, (standard limit).runners.get? name = some runner →
      (name, runner) ∈ builtins ∨ ∀ site s, Frame.SameSurroundings s (runner site s).after :=
    fun _ _ h => .inl (mem_builtins_of_get? h)
  have hrun : (x.frame.enter x.tag (x.outer + 1)).SameSurroundings
      ((standard limit).insideOf x).after :=
    (hc.dispatch hbuiltin x.means (hc.execute hbuiltin x.means) x.tag (x.outer + 1) _).1
  rw [hinside] at hrun
  exact (hc.trans (hc.passage (.entered x.frame x.tag (x.outer + 1))) hrun).clock

/-- **An aborted script reports itself**: among the variables that it started from is the report of
its own fault, whatever has been reported inside it. -/
theorem report_of_aborted (hname : x.tag.name = "root") (houter : x.outer = 0)
    (htrace : x.frame.world.trace = []) {child : Tag} {u : Frame}
    (hinside : (standard limit).insideOf x = .failed (.of (.scriptAborted child.name)) u) :
    ((u.fault x.tag (x.outer + 1) ((Fault.of (.scriptAborted child.name)).chargedTo
      x.tag.span)).leave x.tag (x.outer + 1) .fail).locals.get? Reserved.debug =
        some (.str (abortText x.frame.world.clock x.tag child)) := by
  have hlength : x.outer = x.frame.world.trace.length := by
    rw [houter, htrace]
    rfl
  have hleaves := (@follows_inside limit x.means (follows_execute limit x.means) x.tag x.outer
    x.frame hlength).1
  rw [show (standard limit).inside x.means x.tag x.outer x.frame = _ from hinside, htrace, hname]
    at hleaves
  have hu : u.world.trace = ["root"] := hleaves
  show (u.fault x.tag (x.outer + 1) _).locals.get? Reserved.debug = _
  rw [Frame.get?_fault_debug, Frame.faultReport_eq, hu, clock_of_inside hinside]
  exact congrArg (some ∘ Value.str) (faultText_scriptAborted _ hname child _)

end Engine

/-! ## Lines -/

namespace Json

/-- No character is written with a line end. -/
theorem newline_notMem_escapeChar (c : Char) : '\n' ∉ escapeChar c := by
  unfold escapeChar
  split
  case h_6 hquote hslash hnewline hreturn htab =>
    split
    · decide
    split
    · decide
    split
    · next hcontrol =>
      have hall : ∀ n < 0x20, '\n' ∉
          ['\\', 'u', '0', '0', Nat.digitChar (n / 16), Nat.digitChar (n % 16)] := by decide
      exact hall c.toNat hcontrol
    · simpa using Ne.symm hnewline
  all_goals decide

/-- **A text is written in one line.** -/
theorem newline_notMem_quoted (s : String) : '\n' ∉ (quoted s).toList := by
  rw [quoted, String.toList_ofList, writeText]
  simp [newline_notMem_escapeChar]

/-- **A text is read as it was written.** -/
theorem parse?_quoted (s : String) : parse? (quoted s) = some (.str s) := by
  have h := @parse?_text (.str s) (.scalar trivial)
  rw [text, write] at h
  rw [quoted, h]
  rfl

end Json

/-- A session that has executed a tag had the means to. -/
theorem Session.ending_of_execute {s t : Session} {means : Nat} {tag : Tag} {outer : Depth}
    {outcome : Outcome} (h : s.execute means tag outer = some (outcome, t)) :
    ∃ rest, means = rest + 1 ∧
      s.engine.ending ⟨tag, outer, s.frame, rest⟩ = .done outcome t.frame := by
  cases means with
  | zero => cases h
  | succ rest =>
    refine ⟨rest, rfl, ?_⟩
    unfold execute at h
    cases hends : s.engine.execute (rest + 1) tag outer s.frame with
    | done outcome' u =>
      rw [hends] at h
      cases h
      exact hends
    | failed fault u => exact absurd hends (Engine.execute_ne_failed _ _ _ _ _ _ _)
    | exhausted u =>
      rw [hends] at h
      cases h

namespace CommandLine

/-- **A line that tells a text**: a label and, after it, the text as JSON, which has no line end in
it and from which the text can be read back. -/
def Tells (label text line : String) : Prop :=
  ∃ json, line = label ++ json ∧ '\n' ∉ json.toList ∧ Json.parse? json = some (.str text)

theorem tells_quoted (label text : String) : Tells label text (label ++ Json.quoted text) :=
  ⟨_, rfl, Json.newline_notMem_quoted text, Json.parse?_quoted text⟩

/-! ## Requests -/

variable {request : RunRequest} {system : System} {files : Files} {clock : String}

/-- **A request is refused for a cause**: an assignment of it is none, or else its script cannot be
read. -/
def Refuses (request : RunRequest) (files : Files) (cause : Cause) : Prop :=
  assignments request.assignments = .error cause ∨
    (∃ globals, assignments request.assignments = .ok globals) ∧
      Script.ofFile files request.script = .error cause

/-- Assignments of which one is none are refused. -/
theorem exists_assignments_eq_error {texts : List String} {text : String} {cause : Cause}
    (hmem : text ∈ texts) (h : assignment text = .error cause) :
    ∃ cause, assignments texts = .error cause := by
  induction texts with
  | nil => exact absurd hmem List.not_mem_nil
  | cons first rest ih =>
    rw [assignments]
    cases hfirst : assignment first with
    | error cause => exact ⟨cause, rfl⟩
    | ok entry =>
      obtain rfl | hmem := List.mem_cons.1 hmem
      · cases hfirst.symm.trans h
      obtain ⟨cause, hrest⟩ := ih hmem
      exact ⟨cause, by rw [hrest]; rfl⟩

/-- They are refused as no assignments. -/
theorem eq_badAssignment {texts : List String} {cause : Cause}
    (h : assignments texts = .error cause) : ∃ text, cause = .badAssignment text := by
  induction texts with
  | nil => cases h
  | cons first rest ih =>
    rw [assignments] at h
    cases hfirst : assignment first with
    | error other =>
      rw [hfirst] at h
      cases h
      refine ⟨first, ?_⟩
      unfold assignment at hfirst
      dsimp only at hfirst
      split at hfirst
      · cases hfirst
        rfl
      · split at hfirst
        · cases hfirst
          rfl
        · cases hfirst
    | ok entry =>
      rw [hfirst] at h
      cases hrest : assignments rest with
      | error other =>
        rw [hrest] at h
        cases h
        exact ih hrest
      | ok entries =>
        rw [hrest] at h
        cases h

/-- A request with such an assignment, or whose script cannot be read, is refused. -/
theorem exists_refuses
    (h : (∃ text ∈ request.assignments, ∃ cause, assignment text = .error cause) ∨
      ∃ cause, Script.ofFile files request.script = .error cause) :
    ∃ cause, Refuses request files cause := by
  cases hassignments : assignments request.assignments with
  | error cause => exact ⟨cause, .inl hassignments⟩
  | ok globals =>
    obtain ⟨text, hmem, cause, htext⟩ | ⟨cause, hscript⟩ := h
    · obtain ⟨cause, herror⟩ := exists_assignments_eq_error hmem htext
      cases hassignments.symm.trans herror
    · exact ⟨cause, .inr ⟨⟨globals, hassignments⟩, hscript⟩⟩

/-- There are four codes for it. -/
theorem Refuses.code_mem {cause : Cause} (h : Refuses request files cause) :
    cause.code ∈ ["CLI_SET_INVALID", "IO_READ", "IO_DECODE", "XML_PARSE_ERROR"] := by
  obtain h | ⟨-, h⟩ := h
  · obtain ⟨text, rfl⟩ := eq_badAssignment h
    simp [Cause.code]
  · unfold Script.ofFile at h
    split at h
    · cases h
      simp [Cause.code]
    · unfold Script.ofSource at h
      split at h
      · cases h
      · cases h
        simp [Cause.code]
    · split at h
      · cases h
        simp [Cause.code]
      · cases h
        simp [Cause.code]

/-- **The execution of a script that a request makes**: at depth zero, in the variables that the
request grants privileges to, and in a world that has been pointed at the script. -/
def opening (request : RunRequest) (system : System) (files : Files) (clock : String)
    (globals : List (String × Value)) (script : Tag) (means : Nat) : Execution :=
  ⟨script, 0, ((startingSession request system files clock globals).mapWorld
    (·.pointAt request.script)).frame, means⟩

/-- A request that is refused is told so, and that is all that happens. -/
theorem run_of_refuses {cause : Cause} (h : Refuses request files cause) (means : Nat) :
    run means system files clock request = some ⟨1, causeLines cause, files⟩ := by
  unfold run
  obtain h | ⟨⟨globals, hglobals⟩, hscript⟩ := h
  · rw [h]
  · have hload : (startingSession request system files clock globals).load request.script =
        .error cause := by
      unfold Session.load World.load startingSession World.ofFiles
      dsimp only
      rw [hscript]
      rfl
    rw [hglobals]
    dsimp only
    rw [hload]

/-- **Any other request executes its script**, if there are means. -/
theorem run_of_script {globals : List (String × Value)} {script : Tag}
    (hglobals : assignments request.assignments = .ok globals)
    (hscript : Script.ofFile files request.script = .ok script) {means : Nat} {answer : Answer}
    (h : run means system files clock request = some answer) :
    ∃ rest outcome t, means = rest + 1 ∧
      (Engine.standard request.maxDepth).ending (opening request system files clock globals script rest) =
        .done outcome t ∧
      answer = ⟨if outcome.truthy then 0 else 1, outcomeLines outcome.truthy t.locals,
        t.world.files⟩ := by
  have hload : (startingSession request system files clock globals).load request.script =
      .ok (script, (startingSession request system files clock globals).mapWorld
        (·.pointAt request.script)) := by
    unfold Session.load World.load
    rw [show Script.ofFile (startingSession request system files clock globals).frame.world.files
      request.script = .ok script from hscript]
    rfl
  unfold run at h
  rw [hglobals] at h
  dsimp only at h
  rw [hload] at h
  obtain ⟨⟨outcome, session⟩, hexecute, rfl⟩ := Option.map_eq_some_iff.1 h
  obtain ⟨rest, rfl, hends⟩ := Session.ending_of_execute hexecute
  exact ⟨rest, outcome, session.frame, rfl, hends, rfl⟩

/-- **A script that is run completes, or it aborts at a tag**, and its request is answered
accordingly. -/
theorem run_tells {globals : List (String × Value)} {script : Tag}
    (hglobals : assignments request.assignments = .ok globals)
    (hscript : Script.ofFile files request.script = .ok script) (hname : script.name = "root")
    (hdepth : ∀ d, request.maxDepth = some d → 1 ≤ d) {means : Nat} {answer : Answer}
    (h : run means system files clock request = some answer) :
    ∃ rest, means = rest + 1 ∧
      (((opening request system files clock globals script rest).Completes request.maxDepth ∧
          answer.status = 0 ∧ answer.lines = ["RESULT:OK"]) ∨
        ∃ i child line,
          (opening request system files clock globals script rest).Aborts request.maxDepth i child ∧
          answer.status = 1 ∧ answer.lines = ["RESULT:FAILED", line] ∧
          Tells "DEBUG_JSON:" (abortText clock script child) line) := by
  obtain ⟨rest, outcome, t, rfl, hends, rfl⟩ := run_of_script hglobals hscript h
  refine ⟨rest, rfl, ?_⟩
  obtain ⟨hcompletes, rfl⟩ | ⟨i, child, u, haborts, rfl, hinside, rfl⟩ :=
    Engine.completes_or_aborts (x := opening request system files clock globals script rest) hname hdepth
      hends
  · exact .inl ⟨hcompletes, rfl, rfl⟩
  · have hreport := Engine.report_of_aborted
      (x := opening request system files clock globals script rest) hname rfl rfl hinside
    refine .inr ⟨i, child, _, haborts, rfl, ?_, tells_quoted _ _⟩
    show "RESULT:FAILED" :: (Option.map _ (Dict.get? _ Reserved.debug)).toList = _
    rw [hreport]
    rfl

/-- **The command line tells the fate of a script.** Take any command line that makes a request to
run one, any system, any files and any time.

Let its assignments be assignments, let its script be read and be the tag `root`, and let the depth
not be limited to zero. If there is an answer, then its status is zero and it is the one line that
says so exactly if all tags inside the script have been executed and have yielded true. Otherwise
its status is one, and its second line tells of the first tag that has yielded false: the report
that it carries is that of the script, which has been aborted there, whatever other reports there
were. Nothing was executed after that tag.

If one of its assignments is none or its script cannot be read, then there is an answer, also if
there are no means to execute anything: its status is one, its three lines tell of the cause, and
the files are what they were. -/
theorem answer_tells_fate {words : List String} (system : System) (files : Files) (clock : String)
    (hwords : Request.ofWords? words = some (.run request)) :
    (∀ means globals script answer, assignments request.assignments = .ok globals →
      Script.ofFile files request.script = .ok script → script.name = "root" →
      (∀ d, request.maxDepth = some d → 1 ≤ d) →
      CommandLine.answer means system files clock words = some answer →
      ∃ rest, means = rest + 1 ∧
        (answer.status = 0 ∧ answer.lines = ["RESULT:OK"] ↔
          (opening request system files clock globals script rest).Completes request.maxDepth) ∧
        (¬(opening request system files clock globals script rest).Completes request.maxDepth →
          answer.status = 1 ∧ ∃ i child line,
            (opening request system files clock globals script rest).Aborts request.maxDepth i child ∧
            answer.lines = ["RESULT:FAILED", line] ∧
            Tells "DEBUG_JSON:" (abortText clock script child) line)) ∧
    ((∃ text ∈ request.assignments, ∃ cause, assignment text = .error cause) ∨
        (∃ cause, Script.ofFile files request.script = .error cause) →
      ∃ cause line, Refuses request files cause ∧
        Tells "ERROR_MSG_JSON:" cause.message line ∧
        cause.code ∈ ["CLI_SET_INVALID", "IO_READ", "IO_DECODE", "XML_PARSE_ERROR"] ∧
        ∀ means, CommandLine.answer means system files clock words =
          some ⟨1, ["RESULT:ERROR", "ERROR_CODE:" ++ cause.code, line], files⟩) := by
  have hrun : ∀ means, CommandLine.answer means system files clock words =
      run means system files clock request := fun means => by rw [answer, hwords]
  refine ⟨fun means globals script answer hglobals hscript hname hdepth hanswer => ?_,
    fun hrefused => ?_⟩
  · obtain ⟨rest, hmeans, ⟨hcompletes, hok⟩ | ⟨i, child, line, haborts, hstatus, htold⟩⟩ :=
      run_tells hglobals hscript hname hdepth ((hrun means).symm.trans hanswer)
    · exact ⟨rest, hmeans, ⟨fun _ => hcompletes, fun _ => hok⟩, absurd hcompletes⟩
    · refine ⟨rest, hmeans, ⟨fun ⟨hzero, _⟩ => ?_, fun h => absurd h haborts.not_completes⟩,
        fun _ => ⟨hstatus, i, child, line, haborts, htold⟩⟩
      cases hstatus.symm.trans hzero
  · obtain ⟨cause, hcause⟩ := exists_refuses hrefused
    exact ⟨cause, _, hcause, tells_quoted _ _, hcause.code_mem,
      fun means => (hrun means).trans (run_of_refuses hcause means)⟩

/-- A directory with a script whose first tag yields true, although the tag inside it faults, and
whose second tag faults itself. -/
def troubled : Files :=
  ⟨[], [(["a.xml"], .file (.text "<root><not><mystery/></not><mystery/><sub/></root>"))], []⟩

/-- That script. -/
def troubledScript : Tag :=
  ⟨"root", [],
    [.tag ⟨"not", [], [.tag ⟨"mystery", [], [], ⟨⟨1, 12⟩, ⟨1, 22⟩⟩⟩], ⟨⟨1, 7⟩, ⟨1, 28⟩⟩⟩,
      .tag ⟨"mystery", [], [], ⟨⟨1, 28⟩, ⟨1, 38⟩⟩⟩, .tag ⟨"sub", [], [], ⟨⟨1, 38⟩, ⟨1, 44⟩⟩⟩],
    ⟨⟨1, 1⟩, ⟨1, 51⟩⟩⟩

/-- A command line that runs it, -/
def running : List String := ["run", "--script", "a.xml", "--max-depth=2"]

/-- and one with an assignment that is none. -/
def assigning : List String := running ++ ["--set", "x"]

/-- The script is aborted at its second tag, and not run at all with an assignment that is none. -/
theorem troubled_tells_fate :
    (Request.ofWords? running = some (.run ⟨"a.xml", [], [], [], some 2⟩) ∧
      ∃ answer i child line, CommandLine.answer 5 .bare troubled "now" running = some answer ∧
        (opening ⟨"a.xml", [], [], [], some 2⟩ .bare troubled "now" [] troubledScript 4).Aborts (some 2) i
          child ∧
        answer.status = 1 ∧ answer.lines = ["RESULT:FAILED", line] ∧
        Tells "DEBUG_JSON:" (abortText "now" troubledScript child) line) ∧
    Request.ofWords? assigning = some (.run ⟨"a.xml", [], ["x"], [], some 2⟩) ∧
      ∃ cause line, Refuses ⟨"a.xml", [], ["x"], [], some 2⟩ troubled cause ∧
        Tells "ERROR_MSG_JSON:" cause.message line ∧
        cause.code ∈ ["CLI_SET_INVALID", "IO_READ", "IO_DECODE", "XML_PARSE_ERROR"] ∧
        ∀ means, CommandLine.answer means .bare troubled "now" assigning =
          some ⟨1, ["RESULT:ERROR", "ERROR_CODE:" ++ cause.code, line], troubled⟩ := by
  have hrunning : Request.ofWords? running = some (.run ⟨"a.xml", [], [], [], some 2⟩) := by
    decide +kernel
  have hassigning : Request.ofWords? assigning = some (.run ⟨"a.xml", [], ["x"], [], some 2⟩) := by
    decide +kernel
  have hstatus : (CommandLine.answer 5 .bare troubled "now" running).map Answer.status = some 1 := by
    decide +kernel
  obtain ⟨answer, hanswer, hone⟩ := Option.map_eq_some_iff.1 hstatus
  obtain ⟨rest, hrest, hcompletes, haborts⟩ := (answer_tells_fate .bare troubled "now" hrunning).1 5 []
    troubledScript answer rfl rfl rfl (fun d h => Option.some.inj h ▸ by decide) hanswer
  obtain rfl : 4 = rest := Nat.succ.inj hrest
  obtain ⟨_, i, child, line, habort, hlines, htells⟩ := haborts fun h =>
    absurd (hone.symm.trans (hcompletes.2 h).1) (by decide)
  have hnone : assignment "x" = .error (.badAssignment "x") := rfl
  exact ⟨⟨hrunning, answer, i, child, line, hanswer, habort, hone, hlines, htells⟩, hassigning,
    (answer_tells_fate .bare troubled "now" hassigning).2
      (.inl ⟨"x", List.mem_cons_self, _, hnone⟩)⟩

end CommandLine

end TagScript
