import TagScript.Check
import TagScript.Proofs.Finiteness
import TagScript.Proofs.Journal

/-!
# What a check says of a run

A check reads a script and runs nothing. It goes over the tags that are
written in the script, and finds those that nothing knows how to run. A run
goes over more: bodies of procedures, scripts of modules, and the assertions
that conditions make of their own attributes. The bodies come from the
script itself, if no procedures were there before. The scripts of modules
need not have been checked. And the assertions stand nowhere in the script,
but their names do, in attributes: of those a check takes no notice.

So what a check says is true of runs with two provisos. No module may be
executed, and the assertions of conditions have to have names that there is
a runner for. Two scripts at the end show what happens without the second
one.
-/

namespace TagScript

/-- An event is a fault for a tag that nothing knows how to run. -/
def Event.MissesRunner (event : Event) : Prop :=
  event.isFaultOf "ENGINE_RUNNER_NOT_FOUND" = true

/-- No runner faults for that. -/
theorem Cause.code_ne_of_isRunners {cause : Cause} (h : cause.isRunners = true) :
    cause.code ≠ "ENGINE_RUNNER_NOT_FOUND" := by
  cases cause with
  | tooDeep | unknownTag | other => cases h
  | _ => exact of_decide_eq_true rfl

/-! ## Sound scripts -/

namespace Tag

/-- A tag of some name can be executed without a runner being missed: there
is one for it, and it fetches no module. -/
def CanBe (name : String) : Prop :=
  (Engine.standard none).knows name = true ∧ name ≠ "module"

/-- **A sound tag**: it can be executed and so can all tags in it, and the
assertions that they make of their own attributes. -/
structure IsSound (tag : Tag) : Prop where
  /-- The tags that are written. -/
  written : ∀ t ∈ tag.withAll, CanBe t.name
  /-- The assertions of conditions. -/
  asserted : ∀ t ∈ tag.withAll, t.name ∈ assertingNames → ∀ assertion ∈ t.ownAssertion?,
    CanBe assertion.name

variable {tag child : Tag}

theorem IsSound.of_mem_tags (h : tag.IsSound) (hchild : child ∈ tag.tags) : child.IsSound where
  written t ht := h.written t (withAll_subset_of_mem_tags hchild ht)
  asserted t ht := h.asserted t (withAll_subset_of_mem_tags hchild ht)

/-- The assertion that a tag makes of its own attributes has these
attributes itself, and so would make the same assertion again. -/
theorem ownAssertion?_of_ownAssertion? {assertion : Tag} (h : tag.ownAssertion? = some assertion) :
    assertion.ownAssertion? = some assertion := by
  have hattrs : assertion.attrs = tag.attrs ∧ assertion.span = tag.span := by
    unfold ownAssertion? at h
    split at h
    · cases h
    · dsimp only at h
      split at h
      · cases h
      · obtain rfl := Option.some.inj h
        exact ⟨rfl, rfl⟩
  rw [← h]
  unfold ownAssertion? attr
  rw [hattrs.1, hattrs.2]

/-- The assertion of a sound tag is sound. -/
theorem IsSound.of_ownAssertion? (h : tag.IsSound) (hname : tag.name ∈ assertingNames)
    (hchild : tag.ownAssertion? = some child) : child.IsSound := by
  have hcan : CanBe child.name := h.asserted tag tag.mem_withAll_self hname child hchild
  have hall : child.withAll = [child] := by
    rw [withAll_eq, tags_of_ownAssertion? hchild]
    rfl
  constructor
  · intro t ht
    rw [hall] at ht
    rwa [List.mem_singleton.1 ht]
  · intro t ht _ assertion hassertion
    rw [hall] at ht
    obtain rfl := List.mem_singleton.1 ht
    obtain rfl := Option.some.inj ((ownAssertion?_of_ownAssertion? hchild).symm.trans hassertion)
    exact hcan

end Tag

/-- **A frame in which all procedures are sound.** -/
def Frame.IsSound (s : Frame) : Prop := ∀ entry ∈ s.world.procedures, entry.2.IsSound

/-- **From a sound tag one gets to sound tags only.** -/
theorem Tag.IsSound.of_leads {tag child : Tag} {s : Frame} (h : tag.IsSound) (hs : s.IsSound)
    (hchild : tag.Leads s child) : child.IsSound := by
  cases hchild with
  | inside hinside => exact h.of_mem_tags hinside
  | assertion hname hassertion => exact h.of_ownAssertion? hname hassertion
  | body hcall hdefined hbody =>
    exact (hs _ (Dict.mem_of_get?_eq_some hdefined)).of_mem_tags hbody
  | script hname => exact absurd hname (h.written tag tag.mem_withAll_self).2

theorem Frame.IsSound.of_procedures_eq {s t : Frame} (hs : s.IsSound)
    (h : t.world.procedures = s.world.procedures) : t.IsSound := by
  unfold IsSound
  rwa [h]

/-- The only procedure that an act of a sound tag defines is that tag. -/
theorem Act.isSound {tag : Tag} {s t : Frame} (h : Act tag s t) (htag : tag.IsSound)
    (hs : s.IsSound) : t.IsSound := by
  cases h with
  | defined _ =>
    intro entry hentry
    obtain hnew | hold := Dict.mem_or_mem_of_mem_insertAll hentry
    · obtain ⟨name, _, rfl⟩ := List.mem_map.1 hnew
      exact htag
    · exact hs entry hold
  | called | started => exact hs.of_procedures_eq (World.procedures_note _ _)
  | bound | boundGlobally | iterated | uncounted | granted | stored => exact hs

/-! ## Runs that miss no runner -/

/-- **From one frame to another without missing a runner**: a sound frame
leads to a sound one, and no event on the way is a fault for a tag that
nothing knows how to run. -/
def Frame.FindsRunners (s t : Frame) : Prop :=
  s.IsSound → t.IsSound ∧ s.Adds (fun event => ¬event.MissesRunner) t

/-- Nor is a fault itself. -/
def Fault.FindsRunner (fault : Fault) : Prop := fault.cause.code ≠ "ENGINE_RUNNER_NOT_FOUND"

theorem course_findsRunners : Course Frame.FindsRunners where
  refl s := fun hs => ⟨hs, .refl s⟩
  trans hst htu := fun hs => by
    obtain ⟨ht, hfirst⟩ := hst hs
    obtain ⟨hu, hsecond⟩ := htu ht
    exact ⟨hu, hfirst.trans hsecond⟩
  copied h := h

/-- Noting an event that is something else. -/
theorem Frame.findsRunners_of_note {s t : Frame} {event : Event}
    (hprocedures : t.world.procedures = s.world.procedures)
    (hjournal : t.world.journal = (s.world.note event).journal)
    (hevent : ¬event.MissesRunner) : s.FindsRunners t :=
  fun hs => ⟨hs.of_procedures_eq hprocedures, .of_note hjournal hevent⟩

theorem Act.findsRunners {tag : Tag} (htag : tag.IsSound) {s t : Frame} (h : Act tag s t) :
    s.FindsRunners t :=
  fun hs => ⟨h.isSound htag hs, h.adds (fun _ h => by cases h) fun _ _ h => by cases h⟩

namespace Frame

variable {s : Frame} {tag : Tag} {depth : Depth}

theorem findsRunners_enter : s.FindsRunners (s.enter tag depth) :=
  findsRunners_of_note (World.procedures_note _ _) rfl fun h => by cases h

theorem findsRunners_invoke : s.FindsRunners (s.invoke tag depth) :=
  findsRunners_of_note (World.procedures_note _ _) rfl fun h => by cases h

theorem findsRunners_leave (outcome : Outcome) : s.FindsRunners (s.leave tag depth outcome) :=
  findsRunners_of_note (World.procedures_note _ _) rfl fun h => by cases h

/-- A fault for something else is reported as what it is. -/
theorem findsRunners_fault {fault : Fault} (h : fault.FindsRunner) (span : Span) :
    s.FindsRunners (s.fault tag depth (fault.chargedTo span)) := by
  refine findsRunners_of_note ?_ (s.journal_fault tag depth _) fun hmisses => ?_
  · obtain ⟨files, locks, hfault⟩ := s.fault_eq tag depth (fault.chargedTo span)
    rw [hfault]
    exact World.procedures_note _ _
  · exact h (beq_iff_eq.1 hmisses)

end Frame

namespace Engine

variable {limit : Option Nat}

/-- The runner of a sound tag is found, and finds those that it needs. -/
theorem findsRunners_dispatch {tag : Tag} (htag : tag.IsSound) {depth : Depth}
    {exec : Tag → Depth → Run Outcome} (rounds : Nat) {s : Frame} (hs : s.IsSound)
    (hexec : ∀ child : Tag, child.IsSound → ∀ t,
      (exec child depth).KeepsTo Frame.FindsRunners Fault.FindsRunner t) :
    Run.KeepsTo Frame.FindsRunners Fault.FindsRunner
      ((standard limit).dispatch ⟨tag, depth, exec, rounds⟩) s := by
  have hknown : (standard limit).runners.contains tag.name = true :=
    (htag.written tag tag.mem_withAll_self).1
  have hinvoked : (s.invoke tag depth).IsSound := (Frame.findsRunners_invoke hs).1
  refine course_findsRunners.dispatch (fun _ => ?_) (fun hget => ?_)
    (fun _ => Frame.findsRunners_invoke) fun runner hget => ?_
  · show "ENGINE_DEPTH_EXCEEDED" ≠ "ENGINE_RUNNER_NOT_FOUND"
    decide
  · rw [Dict.contains, hget] at hknown
    cases hknown
  · exact course_findsRunners.runner (fun _ _ => Act.findsRunners htag)
      (fun _ => Cause.code_ne_of_isRunners) rounds (mem_builtins_of_get? hget) _
      fun child hchild => hexec child (htag.of_leads hinvoked hchild)

/-- **A sound tag is executed without missing a runner**, in a sound
frame. -/
theorem findsRunners_execute (limit : Option Nat) (means : Nat) {tag : Tag} (htag : tag.IsSound)
    (outer : Depth) (s : Frame) :
    s.FindsRunners ((standard limit).execute means tag outer s).after := by
  induction means generalizing tag outer s with
  | zero => exact course_findsRunners.refl s
  | succ means ih =>
    intro hs
    have hbody := @findsRunners_dispatch limit tag htag (outer + 1) ((standard limit).execute means)
      means (s.enter tag (outer + 1)) (Frame.findsRunners_enter hs).1 fun child hchild t =>
        ⟨ih hchild (outer + 1) t, fun _ _ h => absurd h (execute_ne_failed _ _ _ _ _ _ _)⟩
    exact course_findsRunners.boundary Frame.findsRunners_enter hbody
      (fun _ _ hfault => Frame.findsRunners_fault hfault _)
      (fun outcome _ => Frame.findsRunners_leave outcome) hs

/-! ## What a check finds -/

/-- **A check finds nothing wrong with a script** exactly if each tag that is
written in it is known. -/
theorem isClean_iff {e : Engine} {files : Files} {root : String} {names : List String}
    {script : Tag}
    (hfile : Script.ofFile files (Path.join root (Text.joinWith "/" names)) = .ok script) :
    (e.checkScript files root names).isClean = true ↔
      ∀ t ∈ script.withAll, e.knows t.name = true := by
  have hreport : (e.checkScript files root names).isClean = (e.unknownTags script).isEmpty := by
    unfold checkScript
    dsimp only
    rw [hfile]
    rfl
  rw [hreport, List.isEmpty_iff, unknownTags, List.map_eq_nil_iff, List.filter_eq_nil_iff]
  simp

/-- The names that the language lists are known. -/
theorem knows_of_mem_builtins {limit : Option Nat} {name : String}
    (h : name ∈ builtins.map Prod.fst) : (standard limit).knows name = true := by
  obtain ⟨⟨name, runner⟩, hrunner, rfl⟩ := List.mem_map.1 h
  have hget : (standard limit).runners.get? name = some runner := get?_builtinRunners hrunner
  unfold knows Dict.contains
  rw [hget]
  rfl

/-- **A check is sound for runs**, as far as it looks. Let a check find
nothing wrong with a script, let there be no module in it, and let the
assertions that its conditions and branches make of their own attributes
have names that there is a runner for, and not that of a module. Then the
execution of the script, in whatever frame in which no procedures are
defined, with whatever limit on the depth and however far it gets, never
faults for a tag that nothing knows how to run. -/
theorem execute_checked_finds_runners (limit : Option Nat) {files : Files} {root : String}
    {names : List String} {script : Tag}
    (hfile : Script.ofFile files (Path.join root (Text.joinWith "/" names)) = .ok script)
    (hclean : ((standard none).checkScript files root names).isClean = true)
    (hmodule : ∀ t ∈ script.withAll, t.name ≠ "module")
    (hasserted : ∀ t ∈ script.withAll, t.name ∈ assertingNames → ∀ assertion ∈ t.ownAssertion?,
      (standard none).knows assertion.name = true ∧ assertion.name ≠ "module")
    {s : Frame} (hprocedures : s.world.procedures = .empty) (means : Nat) (outer : Depth) :
    s.Adds (fun event => ¬event.MissesRunner)
      ((standard limit).execute means script outer s).after := by
  have hknown := (isClean_iff hfile).1 hclean
  have hsound : script.IsSound := ⟨fun t ht => ⟨hknown t ht, hmodule t ht⟩, hasserted⟩
  have hs : s.IsSound := by
    intro entry hentry
    rw [hprocedures] at hentry
    exact absurd hentry List.not_mem_nil
  exact (findsRunners_execute limit means hsound outer s hs).2

/-- A file with a script that calls a procedure of its own, in whose body a
condition makes an assertion of its attributes. -/
def orderly : Files :=
  ⟨[], [(["a.xml"], .file (.text
    ("<root><procedure name=\"p\"><if _assert=\"assert\" key=\"x\"/></procedure>" ++
      "<call name=\"p\"/></root>")))], []⟩

/-- That script. -/
def orderlyScript : Tag :=
  ⟨"root", [],
    [.tag ⟨"procedure", [("name", some "p")],
        [.tag ⟨"if", [("_assert", some "assert"), ("key", some "x")], [],
          ⟨⟨1, 27⟩, ⟨1, 57⟩⟩⟩], ⟨⟨1, 7⟩, ⟨1, 69⟩⟩⟩,
      .tag ⟨"call", [("name", some "p")], [], ⟨⟨1, 69⟩, ⟨1, 85⟩⟩⟩], ⟨⟨1, 1⟩, ⟨1, 92⟩⟩⟩

theorem orderly_finds_runners :
    Script.ofFile orderly (Path.join "." (Text.joinWith "/" ["a.xml"])) = .ok orderlyScript ∧
    ((standard none).checkScript orderly "." ["a.xml"]).isClean = true ∧
    (∀ t ∈ orderlyScript.withAll, t.name ≠ "module") ∧
    (∀ t ∈ orderlyScript.withAll, t.name ∈ assertingNames → ∀ assertion ∈ t.ownAssertion?,
      (standard none).knows assertion.name = true ∧ assertion.name ≠ "module") ∧
    blankFrame.world.procedures = .empty ∧
    blankFrame.Adds (fun event => ¬event.MissesRunner)
      ((standard none).execute 9 orderlyScript 0 blankFrame).after := by
  have hfile :
      Script.ofFile orderly (Path.join "." (Text.joinWith "/" ["a.xml"])) = .ok orderlyScript := rfl
  have hlisted : ∀ t ∈ orderlyScript.withAll, t.name ∈ builtins.map Prod.fst := by decide
  have hclean : ((standard none).checkScript orderly "." ["a.xml"]).isClean = true :=
    (isClean_iff hfile).2 fun t ht => knows_of_mem_builtins (hlisted t ht)
  have hmodule : ∀ t ∈ orderlyScript.withAll, t.name ≠ "module" := by decide
  have hnamed : ∀ t ∈ orderlyScript.withAll, ∀ assertion ∈ t.ownAssertion?,
      assertion.name ∈ builtins.map Prod.fst ∧ assertion.name ≠ "module" := by decide
  have hasserted : ∀ t ∈ orderlyScript.withAll, t.name ∈ assertingNames →
      ∀ assertion ∈ t.ownAssertion?,
        (standard none).knows assertion.name = true ∧ assertion.name ≠ "module" :=
    fun t ht _ assertion h => (hnamed t ht assertion h).imp_left knows_of_mem_builtins
  exact ⟨hfile, hclean, hmodule, hasserted, rfl,
    execute_checked_finds_runners none hfile hclean hmodule hasserted rfl 9 0⟩

/-- A directory with two scripts in which a check finds nothing wrong, and a
third one in which it does. The condition in the first makes an assertion
that there is no runner for, and the one in the second an assertion that is
a module and fetches the third. -/
def careless : Files :=
  ⟨[], [(["a.xml"], .file (.text "<root><if _assert=\"mystery\"/></root>")),
    (["b.xml"], .file (.text "<root><if _assert=\"module\" src=\"c.xml\"/></root>")),
    (["c.xml"], .file (.text "<root><mystery/></root>"))], []⟩

/-- A frame with these files. -/
def reckless : Frame := ⟨[], { World.ofFiles careless "" .bare with searchPath := ["."] }⟩

/-- A check finds nothing wrong with one of these scripts, there is no module
in it, and its execution misses a runner. -/
def EscapesCheck (name : String) : Prop := ∃ script,
  Script.ofFile careless (Path.join "." (Text.joinWith "/" [name])) = .ok script ∧
  ((standard none).checkScript careless "." [name]).isClean = true ∧
  (∀ t ∈ script.withAll, t.name ≠ "module") ∧
  reckless.world.procedures = .empty ∧
  reckless.Sees Event.MissesRunner ((standard none).execute 6 script 0 reckless).after

theorem escapesCheck_of_run {name : String} {script : Tag}
    (hfile : Script.ofFile careless (Path.join "." (Text.joinWith "/" [name])) = .ok script)
    (hlisted : ∀ t ∈ script.withAll, t.name ∈ builtins.map Prod.fst)
    (hmodule : ∀ t ∈ script.withAll, t.name ≠ "module")
    (hfaults : ((standard none).execute 6 script 0 reckless).after.world.journal.any
      (Event.isFaultOf "ENGINE_RUNNER_NOT_FOUND") = true) : EscapesCheck name :=
  ⟨script, hfile, (isClean_iff hfile).2 fun t ht => knows_of_mem_builtins (hlisted t ht), hmodule,
    rfl, _, (List.append_nil _).symm, List.any_eq_true.1 hfaults⟩

/-- The first of the scripts. -/
def assertsMystery : Tag :=
  ⟨"root", [], [.tag ⟨"if", [("_assert", some "mystery")], [], ⟨⟨1, 7⟩, ⟨1, 30⟩⟩⟩],
    ⟨⟨1, 1⟩, ⟨1, 37⟩⟩⟩

/-- The second one. -/
def assertsModule : Tag :=
  ⟨"root", [], [.tag ⟨"if", [("_assert", some "module"), ("src", some "c.xml")], [],
    ⟨⟨1, 7⟩, ⟨1, 41⟩⟩⟩], ⟨⟨1, 1⟩, ⟨1, 48⟩⟩⟩

/-- **What assertions have for names matters**, and a check does not look
there. -/
theorem careless_misses_runner : EscapesCheck "a.xml" ∧ EscapesCheck "b.xml" := by
  constructor
  · have hfile : Script.ofFile careless (Path.join "." (Text.joinWith "/" ["a.xml"])) =
        .ok assertsMystery := rfl
    exact escapesCheck_of_run hfile (by decide) (by decide) (by decide +kernel)
  · have hfile : Script.ofFile careless (Path.join "." (Text.joinWith "/" ["b.xml"])) =
        .ok assertsModule := rfl
    exact escapesCheck_of_run hfile (by decide) (by decide) (by decide +kernel)

end Engine

end TagScript
