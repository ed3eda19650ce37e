import TagScript.Proofs.Comparison
import TagScript.Proofs.Reading
import TagScript.Proofs.Sequence

/-!
# Operands by name and operands by tag

An operator takes its operands in two ways. It may be told two variables, and
then looks at them itself and executes nothing; or it has tags inside, and then
executes them one after another, behind boundaries of their own, and takes what
they yield. `Operator.answer` says what an operator makes of two values, without
either way.

A tag that reads a variable yields what a look finds, and leaves all variables alone
but those that each tag binds. So the second operand is read as if the first one had
not been, and both ways come to the same answer or to the same fault.
-/

namespace TagScript

/-! ## What operators make of their operands -/

/-- The value that a connective yields: that of the operand that decides it. -/
def Connective.choose (c : Connective) (left right : Value) : Value :=
  if c.decidedBy left then left else right

/-- What a comparison yields, or the fault that there is no answer. -/
def Comparison.answer (c : Comparison) (left right : Value) : Except Cause Outcome :=
  ((c.holds left right).mapError .incomparable).map .ofBool

namespace Runner

variable {site : Site} {s t u : Frame}

theorem compareValues_bind (c : Comparison) (left right : Value) (s : Frame) :
    (compareValues c left right >>= fun b => pure (.ofBool b) : Run Outcome) s =
      Run.ofExcept (c.answer left right) s := by
  unfold compareValues Comparison.answer
  cases c.holds left right with
  | ok b => rfl
  | error kinds => rfl

section Keys

variable {first second : String}
  (hpair : Run.keyPair site.tag s = .done (some (first, second)) s)
include hpair

/-- **A connective of two variables** looks at them. -/
theorem connective_of_keyPair (c : Connective) :
    connective c site s = .done (.value (c.choose (s.read first) (s.read second))) s := by
  have hread (key : String) : Run.read key s = .done (s.read key) s := rfl
  unfold connective Connective.choose
  rw [Run.bind_of_done hpair]
  dsimp only
  rw [Run.bind_of_done (hread first)]
  split
  · rfl
  · exact Run.bind_of_done (hread second) _

/-- **So does a comparison.** -/
theorem comparison_of_keyPair (c : Comparison) :
    comparison c site s = Run.ofExcept (c.answer (s.read first) (s.read second)) s := by
  have hread (key : String) : Run.read key s = .done (s.read key) s := rfl
  unfold comparison
  rw [Run.bind_of_done hpair]
  dsimp only
  rw [Run.bind_of_done (hread first), Run.bind_of_done (hread second)]
  exact compareValues_bind c _ _ s

end Keys

section Tags

variable {first second : Tag} {left right : Value}
  (hfirst : site.run first s = .done (.value left) t)
  (hsecond : site.run second t = .done (.value right) u)
include hfirst hsecond

/-- Of two tags the second one is not executed if the first one decides. -/
theorem settle_pair (c : Connective) :
    ∃ v, settle site c [first, second] s = .done (c.choose left right) v := by
  unfold settle Connective.choose
  rw [Run.bind_of_done hfirst]
  show ∃ v, (if c.decidedBy left then pure left else settle site c [second] : Run Value) t =
    .done _ v
  by_cases hdecided : c.decidedBy left = true
  · rw [if_pos hdecided, if_pos hdecided]
    exact ⟨t, rfl⟩
  · rw [if_neg hdecided, if_neg hdecided]
    exact ⟨u, Run.bind_of_done hsecond _⟩

variable (hpair : Run.keyPair site.tag s = .done none s) (htags : site.tag.tags = [first, second])
include hpair htags

/-- **A connective of two tags** yields what one of them yields. -/
theorem connective_of_tags (c : Connective) :
    ∃ v, connective c site s = .done (.value (c.choose left right)) v := by
  obtain ⟨v, hsettle⟩ := settle_pair hfirst hsecond c
  have hcount : ¬site.tag.tags.length < 2 := by simp [htags]
  refine ⟨v, ?_⟩
  unfold connective
  rw [Run.bind_of_done hpair]
  dsimp only
  rw [if_neg hcount, htags]
  exact Run.bind_of_done hsettle _

/-- **A comparison of two tags** compares what they yield. -/
theorem comparison_of_pair (c : Comparison) :
    comparison c site s = Run.ofExcept (c.answer left right) u := by
  have hchain : chain site c left [second] t = compareValues c left right u := by
    unfold chain
    rw [Run.bind_of_done hsecond]
    dsimp only [Outcome.toValue]
    unfold compareValues
    cases c.holds left right with
    | ok b => cases b <;> rfl
    | error kinds => rfl
  rw [comparison_of_tags hpair htags, Run.bind_of_done hfirst, ← compareValues_bind]
  dsimp only [Outcome.toValue]
  rw [Run.bind_apply, Run.bind_apply, hchain]

end Tags

end Runner

/-! ## Operators -/

/-- **The operators.** -/
inductive Operator where
  /-- A connective. -/
  | connective (c : Connective)
  /-- A comparison. -/
  | comparison (c : Comparison)

namespace Operator

/-- The name of the tags that apply an operator. -/
def name : Operator → String
  | .connective .and => "and"
  | .connective .or => "or"
  | .comparison c => c.name

/-- Their runner. -/
def runner : Operator → Runner
  | .connective c => Runner.connective c
  | .comparison c => Runner.comparison c

theorem mem_builtins (op : Operator) : (op.name, op.runner) ∈ builtins := by
  cases op with
  | connective c => cases c <;> simp [builtins, name, runner]
  | comparison c => exact c.mem_builtins

/-- **What an operator makes of two values**, if it does not refuse them. -/
def answer (left right : Value) : Operator → Except Cause Outcome
  | .connective c => .ok (.value (c.choose left right))
  | .comparison c => c.answer left right

/-- What its tag yields: false where it refuses the values. -/
def outcome (op : Operator) (left right : Value) : Outcome :=
  match op.answer left right with
  | .ok outcome => outcome
  | .error _ => .fail

variable {op : Operator} {site : Site} {s t u : Frame}

/-- **An operator that is told two variables** answers of their values. -/
theorem runner_of_keyPair {first second : String}
    (hpair : Run.keyPair site.tag s = .done (some (first, second)) s) :
    op.runner site s = Run.ofExcept (op.answer (s.read first) (s.read second)) s := by
  cases op with
  | connective c => exact Runner.connective_of_keyPair hpair c
  | comparison c => exact Runner.comparison_of_keyPair hpair c

/-- **One that has two tags inside** answers of what they yield. -/
theorem runner_of_tags {first second : Tag} {left right : Value}
    (hpair : Run.keyPair site.tag s = .done none s) (htags : site.tag.tags = [first, second])
    (hfirst : site.run first s = .done (.value left) t)
    (hsecond : site.run second t = .done (.value right) u) :
    ∃ v, op.runner site s = Run.ofExcept (op.answer left right) v := by
  cases op with
  | connective c =>
    obtain ⟨v, h⟩ := Runner.connective_of_tags hfirst hsecond hpair htags c
    exact ⟨v, h⟩
  | comparison c => exact ⟨u, Runner.comparison_of_pair hfirst hsecond hpair htags c⟩

end Operator

namespace Engine

/-- A tag whose runner comes to an answer or is refused yields the outcome. -/
theorem exists_execute_of_answer {op : Operator} {left right : Value} {means : Nat} {tag : Tag}
    {outer : Depth} {s t : Frame}
    (h : (standard none).inside means tag outer s = Run.ofExcept (op.answer left right) t) :
    ∃ u, (standard none).execute (means + 1) tag outer s = .done (op.outcome left right) u := by
  unfold Operator.outcome
  cases hanswer : op.answer left right with
  | ok outcome =>
    rw [hanswer] at h
    exact ⟨_, boundary_of_done h⟩
  | error cause =>
    rw [hanswer] at h
    exact ⟨_, boundary_of_failed h⟩

/-- **Operands by name and operands by tag come to the same.** Let an operator be
told two variables, and let a tag of the same name have two tags inside instead that
read these variables, whatever values they have or whether they have any. Then both
come to what the operator makes of the two values, and it is the same fault if they
cannot be compared; and where the variables are named no tag is executed, whatever
stands inside. -/
theorem execute_keys_as_tags (op : Operator) {keyed nested left right : Tag}
    {first second : String} (hkeyed : keyed.name = op.name) (hnested : nested.name = op.name)
    (hkey1 : keyed.attr "key1" = some first) (hkey2 : keyed.attr "key2" = some second)
    (hnone : nested.attr "key1" = none ∨ nested.attr "key2" = none)
    (htags : nested.tags = [left, right]) (hleft : left.Reads first) (hright : right.Reads second)
    (hfirst : IsPlainKey first) (hsecond : IsPlainKey second)
    (hdepth : first ≠ Reserved.depth ∧ second ≠ Reserved.depth)
    (htime : first ≠ Reserved.logDatetime ∧ second ≠ Reserved.logDatetime)
    (means more : Nat) (outer : Depth) (s : Frame) :
    let answer := op.answer (s.read first) (s.read second)
    let outcome := op.outcome (s.read first) (s.read second)
    (∃ t, (standard none).inside means keyed outer s = Run.ofExcept answer t) ∧
    (∃ t, (standard none).inside (more + 1) nested outer s = Run.ofExcept answer t) ∧
    (∃ t, (standard none).execute (means + 1) keyed outer s = .done outcome t ∧
      s.world.Enters (outer + 1 + 1) [] t.world) ∧
    ∃ t, (standard none).execute (more + 1 + 1) nested outer s = .done outcome t := by
  intro answer outcome
  have hmem {tag : Tag} (h : tag.name = op.name) : (tag.name, op.runner) ∈ builtins :=
    h ▸ op.mem_builtins
  have hwithin : ∀ d, (none : Option Nat) = some d → (outer + 1).number ≤ d := fun _ h => by cases h
  -- the tag that is told two variables looks at them where its runner begins
  have hpair : Run.keyPair keyed (s.begin keyed outer) =
      .done (some (first, second)) (s.begin keyed outer) := by
    rw [Run.keyPair_apply, hfirst.attrKey hkey1, hsecond.attrKey hkey2]
    simp [hfirst.nonempty, hsecond.nonempty]
  have hkeys : (standard none).inside means keyed outer s =
      Run.ofExcept answer (s.begin keyed outer) := by
    have hrunner := @Operator.runner_of_keyPair op ((standard none).site means keyed outer) _ _ _
      hpair
    rw [inside_of_mem (hmem hkeyed) hwithin, hrunner, Frame.read_begin_of_ne hdepth.1 htime.1,
      Frame.read_begin_of_ne hdepth.2 htime.2]
  -- the other one has both of them read, one after the other
  have hunnamed : Run.keyPair nested (s.begin nested outer) = .done none (s.begin nested outer) := by
    rw [Run.keyPair_apply]
    unfold Frame.attrKey Frame.attrText
    obtain hnone | hnone := hnone
    · rw [hnone]
      rfl
    · rw [hnone]
      exact congrArg (Ending.done · _) (if_pos (Bool.or_true _))
  obtain ⟨t, hl, ht⟩ := run_reads hleft hfirst hdepth.1 htime.1 more nested outer
    (s.begin nested outer)
  obtain ⟨u, hr, _⟩ := run_reads hright hsecond hdepth.2 htime.2 more nested outer t
  rw [Frame.read_begin_of_ne hdepth.1 htime.1] at hl
  rw [ht _ hdepth.2 htime.2, Frame.read_begin_of_ne hdepth.2 htime.2] at hr
  have htagged : ∃ v, (standard none).inside (more + 1) nested outer s = Run.ofExcept answer v := by
    rw [inside_of_mem (hmem hnested) hwithin]
    exact @Operator.runner_of_tags op ((standard none).site (more + 1) nested outer) _ _ _ _ _ _ _
      hunnamed htags hl hr
  obtain ⟨v, hv⟩ := exists_execute_of_answer hkeys
  obtain ⟨w, hw⟩ := htagged
  refine ⟨⟨_, hkeys⟩, ⟨w, hw⟩, ⟨v, hv, ?_⟩, exists_execute_of_answer hw⟩
  have hworld : ((standard none).inside means keyed outer s).after = s.begin keyed outer := by
    rw [hkeys]
    cases answer <;> rfl
  have henters := @enters_boundary s keyed (outer + 1 + 1)
    ((standard none).dispatch ((standard none).site means keyed outer)) [] (outer + 1) (by
      show World.Enters _ _ _ ((standard none).inside means keyed outer s).after.world
      rw [hworld]
      exact Frame.enters_invoke _ _ _ _)
  rw [if_neg (Int.ne_of_lt (Int.lt_succ (outer + 1)))] at henters
  rwa [← execute_succ, hv] at henters

/-- A tag that asks whether one variable is less than another. -/
def askingKeys : Tag := ⟨"less", [("key1", some "x"), ("key2", some "y")], [], .nowhere⟩

/-- One that asks two tags. -/
def askingTags : Tag := ⟨"less", [], [.tag (naming "x"), .tag (naming "y")], .nowhere⟩

/-- A global variable and no other. -/
def oneBound : Frame :=
  { blankFrame with world := { blankFrame.world with globals := [("y", .int 3)] } }

theorem asking_refused_alike :
    (∃ t u, (standard none).inside 0 askingKeys 0 oneBound =
        .failed (.of (.incomparable ⟨.null, .int⟩)) t ∧
      (standard none).inside 1 askingTags 0 oneBound =
        .failed (.of (.incomparable ⟨.null, .int⟩)) u) ∧
    ∃ t u, (standard none).execute 1 askingKeys 0 oneBound = .done .fail t ∧
      (standard none).execute 2 askingTags 0 oneBound = .done .fail u := by
  have h := @execute_keys_as_tags (.comparison .less) askingKeys askingTags (naming "x")
    (naming "y") "x" "y" rfl rfl rfl rfl (.inl rfl) rfl (reads_naming "x") (reads_naming "y")
    (isPlainKey_of_notMem (by decide) rfl rfl) (isPlainKey_of_notMem (by decide) rfl rfl)
    (by decide) (by decide) 0 0 0 oneBound
  obtain ⟨⟨t, ht⟩, ⟨u, hu⟩, ⟨v, hv, _⟩, w, hw⟩ := h
  exact ⟨⟨t, u, ht, hu⟩, v, w, hv, hw⟩

end Engine

end TagScript
