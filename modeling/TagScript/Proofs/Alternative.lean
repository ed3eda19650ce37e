import TagScript.Proofs.Isolation
import TagScript.Proofs.Sequence

/-!
# Conditions take one branch

The tags inside a condition may stand in any order and number. Which of them
counts is said by two opposite rules: of several assertions the first one is
asked, and none of them if the condition makes one of its own attributes, and of
several branches of a kind the last one is taken. `Tag.Condition` and
`Tag.Takes` state these rules by where the tags stand, and nothing else in the
condition is looked at.

So a condition executes two tags at most, the assertion and after it the branch,
and yields what the branch yields. Where there is no branch to take, what it
yields is not told by the assertion but by whether it has any branch at all.
-/

namespace TagScript

namespace Tag

variable {tag : Tag}

/-! ## Which tags a condition executes -/

/-- Whether an attribute names an assertion that the tag makes itself. -/
def NamesAssertion (tag : Tag) : Prop :=
  ∃ raw, tag.attr "_assert" = some raw ∧ Text.trim raw ≠ ""

/-- **The assertion that a condition asks**, if it asks one. -/
inductive Condition (tag : Tag) : Option Tag → Prop where
  /-- The one that it makes of its own attributes. -/
  | own {raw : String} (hattr : tag.attr "_assert" = some raw) (hname : Text.trim raw ≠ "") :
      Condition tag
        (some { name := Text.trim raw, attrs := tag.attrs, content := [], span := tag.span })
  /-- The first one inside it. -/
  | first (hown : ¬tag.NamesAssertion) {before after : List Tag} {assertion : Tag}
      (htags : tag.tags = before ++ assertion :: after)
      (hbefore : ∀ child ∈ before, child.name ∉ assertionNames)
      (hassertion : assertion.name ∈ assertionNames) : Condition tag (some assertion)
  /-- There is none. -/
  | none (hown : ¬tag.NamesAssertion) (htags : ∀ child ∈ tag.tags, child.name ∉ assertionNames) :
      Condition tag none

/-- The last tag of a name inside a tag. -/
def IsLast (tag : Tag) (name : String) (child : Tag) : Prop :=
  ∃ before after, tag.tags = before ++ child :: after ∧ child.name = name ∧
    ∀ other ∈ after, other.name ≠ name

/-- Whether there is no tag of a name inside a tag. -/
def Lacks (tag : Tag) (name : String) : Prop := ∀ child ∈ tag.tags, child.name ≠ name

/-- **The branch that a condition takes**, if there is one, when its assertion
holds and when it does not. -/
inductive Takes (tag : Tag) : Bool → Option Tag → Prop where
  /-- It holds: the last `then`. -/
  | held {branch : Tag} (h : tag.IsLast "then" branch) : Takes tag true (some branch)
  /-- It holds, and there is no `then`. -/
  | heldNone (h : tag.Lacks "then") : Takes tag true none
  /-- It does not hold: the last `elif`. -/
  | again {branch : Tag} (h : tag.IsLast "elif" branch) : Takes tag false (some branch)
  /-- It does not hold, and there is no `elif`: the last `else`. -/
  | other (hagain : tag.Lacks "elif") {branch : Tag} (h : tag.IsLast "else" branch) :
      Takes tag false (some branch)
  /-- It does not hold, and there is neither. -/
  | otherNone (hagain : tag.Lacks "elif") (h : tag.Lacks "else") : Takes tag false none

/-- Whether there is no branch inside a tag. -/
def IsBare (tag : Tag) : Prop := tag.Lacks "then" ∧ tag.Lacks "elif" ∧ tag.Lacks "else"

theorem isAssertion_iff {child : Tag} : child.isAssertion = true ↔ child.name ∈ assertionNames :=
  List.contains_iff_mem

theorem ownAssertion?_eq_none_iff : tag.ownAssertion? = none ↔ ¬tag.NamesAssertion := by
  unfold ownAssertion? NamesAssertion
  cases tag.attr "_assert" with
  | none => simp
  | some raw => simp

theorem condition_of_ownAssertion? {assertion : Tag} (h : tag.ownAssertion? = some assertion) :
    tag.Condition (some assertion) := by
  unfold ownAssertion? at h
  cases hattr : tag.attr "_assert" with
  | none =>
    rw [hattr] at h
    cases h
  | some raw =>
    rw [hattr] at h
    dsimp only at h
    split at h
    · cases h
    · next hname =>
      obtain rfl := Option.some.inj h
      exact .own hattr fun hempty => hname (by rw [hempty]; rfl)

theorem condition_assertion? (tag : Tag) : tag.Condition tag.assertion? := by
  unfold assertion?
  cases hown : tag.ownAssertion? with
  | some assertion => exact condition_of_ownAssertion? hown
  | none =>
    have hunnamed := ownAssertion?_eq_none_iff.1 hown
    rw [Option.none_or]
    cases hfind : tag.tags.find? isAssertion with
    | none =>
      refine .none hunnamed fun child hmem hassertion => ?_
      exact List.find?_eq_none.1 hfind child hmem (isAssertion_iff.2 hassertion)
    | some assertion =>
      obtain ⟨hassertion, before, after, htags, hbefore⟩ := List.find?_eq_some_iff_append.1 hfind
      refine .first hunnamed htags (fun child hmem hnamed => ?_) (isAssertion_iff.1 hassertion)
      simpa [isAssertion_iff.2 hnamed] using hbefore child hmem

theorem lastNamed?_eq_none_iff {name : String} : tag.lastNamed? name = none ↔ tag.Lacks name := by
  unfold lastNamed? Lacks
  rw [List.getLast?_eq_none_iff, List.filter_eq_nil_iff]
  simp

theorem isLast_of_lastNamed? {name : String} {child : Tag}
    (h : tag.lastNamed? name = some child) : tag.IsLast name child := by
  obtain ⟨earlier, hfilter⟩ := List.getLast?_eq_some_iff.1 h
  obtain ⟨before, rest, htags, _, hrest⟩ := List.filter_eq_append_iff.1 hfilter
  obtain ⟨skipped, after, hsplit, _, hname, hafter⟩ := List.filter_eq_cons_iff.1 hrest
  refine ⟨before ++ skipped, after, ?_, beq_iff_eq.1 hname, fun other hmem heq => ?_⟩
  · rw [htags, hsplit, List.append_assoc]
  · exact List.filter_eq_nil_iff.1 hafter other hmem (beq_iff_eq.2 heq)

theorem takes_branch? (tag : Tag) (matched : Bool) : tag.Takes matched (tag.branch? matched) := by
  unfold branch?
  cases matched with
  | true =>
    rw [if_pos rfl]
    cases hthen : tag.lastNamed? "then" with
    | some branch => exact .held (isLast_of_lastNamed? hthen)
    | none => exact .heldNone (lastNamed?_eq_none_iff.1 hthen)
  | false =>
    rw [if_neg Bool.false_ne_true]
    cases hagain : tag.lastNamed? "elif" with
    | some branch => exact .again (isLast_of_lastNamed? hagain)
    | none =>
      rw [Option.none_or]
      cases hother : tag.lastNamed? "else" with
      | some branch =>
        exact .other (lastNamed?_eq_none_iff.1 hagain) (isLast_of_lastNamed? hother)
      | none => exact .otherNone (lastNamed?_eq_none_iff.1 hagain) (lastNamed?_eq_none_iff.1 hother)

theorem isBare_iff :
    tag.IsBare ↔ ((tag.branch? true).isNone && (tag.branch? false).isNone) = true := by
  unfold IsBare branch?
  simp [lastNamed?_eq_none_iff]

end Tag

/-! ## What a condition executes -/

namespace Site

/-- **What a condition executes to find out whether its assertion holds**, and
how that ends: without an assertion it does not hold. -/
inductive Judges (site : Site) (shared : Bool) (s : Frame) : List Tag → Ending Bool → Prop where
  /-- There is no assertion. -/
  | unasked (h : site.tag.Condition none) : Judges site shared s [] (.done false s)
  /-- The assertion is executed, on a copy of the variables unless they are shared. -/
  | judged {assertion : Tag} (h : site.tag.Condition (some assertion)) {verdict : Outcome}
      {t : Frame} (hverdict : site.run assertion s = .done verdict t) :
      Judges site shared s [assertion] (.done verdict.truthy (t.returnTo shared s))
  /-- The assertion does not end. -/
  | undecided {assertion : Tag} (h : site.tag.Condition (some assertion)) {t : Frame}
      (hverdict : site.run assertion s = .exhausted t) :
      Judges site shared s [assertion] (.exhausted t)

/-- **What a condition executes and comes to.** -/
inductive Chooses (site : Site) (shared : Bool) (s : Frame) : List Tag → Ending Outcome → Prop where
  /-- Its assertion does not end. -/
  | undecided {executed : List Tag} {t : Frame}
      (hjudges : site.Judges shared s executed (.exhausted t)) :
      Chooses site shared s executed (.exhausted t)
  /-- There is a branch to take, and it yields what the branch yields. -/
  | taken {executed : List Tag} {matched : Bool} {t : Frame}
      (hjudges : site.Judges shared s executed (.done matched t)) {branch : Tag}
      (hbranch : site.tag.Takes matched (some branch)) :
      Chooses site shared s (executed ++ [branch]) ((site.run branch t).returnTo shared t)
  /-- There are branches and none to take. -/
  | passed {executed : List Tag} {matched : Bool} {t : Frame}
      (hjudges : site.Judges shared s executed (.done matched t))
      (hbranch : site.tag.Takes matched none) (hbare : ¬site.tag.IsBare) :
      Chooses site shared s executed (.done .ok t)
  /-- There is no branch. -/
  | bare {executed : List Tag} {matched : Bool} {t : Frame}
      (hjudges : site.Judges shared s executed (.done matched t)) (hbare : site.tag.IsBare) :
      Chooses site shared s executed (.done .fail t)

end Site

namespace Runner

variable {site : Site} {shared : Bool} {s t : Frame}

theorem exists_judges (hexec : ∀ child s fault t, site.run child s ≠ .failed fault t)
    (shared : Bool) (s : Frame) :
    ∃ executed ending, site.Judges shared s executed ending ∧
      assertionHolds site shared s = ending ∧ ∀ fault t, ending ≠ .failed fault t := by
  have hcondition := site.tag.condition_assertion?
  unfold assertionHolds
  cases hassertion : site.tag.assertion? with
  | none =>
    rw [hassertion] at hcondition
    exact ⟨_, _, .unasked hcondition, rfl, fun _ _ => nofun⟩
  | some assertion =>
    rw [hassertion] at hcondition
    dsimp only
    rw [Run.within_apply]
    cases hverdict : site.run assertion s with
    | failed fault t => exact absurd hverdict (hexec assertion s fault t)
    | exhausted t =>
      rw [Run.bind_of_exhausted hverdict]
      exact ⟨_, _, .undecided hcondition hverdict, rfl, fun _ _ => nofun⟩
    | done verdict t =>
      rw [Run.bind_of_done hverdict]
      exact ⟨_, _, .judged hcondition hverdict, rfl, fun _ _ => nofun⟩

/-- **A condition chooses between its branches.** -/
theorem exists_chooses (hexec : ∀ child s fault t, site.run child s ≠ .failed fault t)
    (hshared : Run.passThrough site.tag s = .done shared s) :
    ∃ executed ending, site.Chooses shared s executed ending ∧ condition site s = ending := by
  obtain ⟨executed, ending, hjudges, hholds, hfaultless⟩ := exists_judges hexec shared s
  unfold condition
  rw [Run.bind_of_done hshared]
  cases ending with
  | failed fault t => exact absurd rfl (hfaultless fault t)
  | exhausted t =>
    rw [Run.bind_of_exhausted hholds]
    exact ⟨_, _, .undecided hjudges, rfl⟩
  | done matched t =>
    rw [Run.bind_of_done hholds]
    have htakes := site.tag.takes_branch? matched
    -- whether there is any branch is asked before which one is to be taken
    unfold takeBranch
    by_cases hbare : site.tag.IsBare
    · rw [if_pos (Tag.isBare_iff.1 hbare)]
      exact ⟨_, _, .bare hjudges hbare, rfl⟩
    · rw [if_neg fun h => hbare (Tag.isBare_iff.2 h)]
      cases hbranch : site.tag.branch? matched with
      | none =>
        rw [hbranch] at htakes
        exact ⟨_, _, .passed hjudges htakes hbare, rfl⟩
      | some branch =>
        rw [hbranch] at htakes
        exact ⟨_, _, .taken hjudges htakes, Run.within_apply shared _ t⟩

/-- No condition faults. -/
theorem ne_failed_of_chooses (hexec : ∀ child s fault t, site.run child s ≠ .failed fault t)
    {executed : List Tag} {ending : Ending Outcome}
    (h : site.Chooses shared s executed ending) (fault : Fault) (u : Frame) :
    ending ≠ .failed fault u := by
  cases h with
  | undecided | passed | bare => exact nofun
  | @taken _ _ t _ branch _ =>
    cases hrun : site.run branch t with
    | done outcome v => exact nofun
    | failed fault v => exact absurd hrun (hexec branch t fault v)
    | exhausted v => exact nofun

end Runner

namespace Engine

variable {limit : Option Nat} {means : Nat} {tag : Tag} {outer : Depth} {s : Frame} {shared : Bool}

/-- The tags that a condition executes are entered one after another. -/
theorem enters_of_judges (hmeans : 0 < means) {executed : List Tag} {ending : Ending Bool}
    (h : ((standard limit).site means tag outer).Judges shared s executed ending) :
    s.world.Enters (outer + 1 + 1) executed ending.after.world := by
  cases h with
  | unasked => exact .refl _ _
  | @judged _ _ _ t hverdict =>
    rw [Ending.after, Frame.world_returnTo]
    exact enters_of_run_done hverdict
  | undecided _ hverdict => exact enters_of_run_exhausted hmeans hverdict

theorem enters_of_chooses (hmeans : 0 < means) {executed : List Tag} {ending : Ending Outcome}
    (h : ((standard limit).site means tag outer).Chooses shared s executed ending) :
    s.world.Enters (outer + 1 + 1) executed ending.after.world := by
  cases h with
  | undecided hjudges | passed hjudges | bare hjudges => exact enters_of_judges hmeans hjudges
  | @taken _ _ t hjudges branch _ =>
    rw [Ending.world_returnTo]
    exact (enters_of_judges hmeans hjudges).trans (enters_run hmeans branch t)

/-- **A condition takes one branch.** Take any condition whose depth is within the
limit and that can tell whether it shares its variables, in any state and with
any tags inside it.

It executes its assertion, if it has one, and after it the branch that is to be
taken, if there is one, each of them once, and nothing else: the assertion that
it makes of its own attributes or else the first one inside it, and the last
`then` if the assertion holds, and otherwise the last `elif`, or the last `else`
if there is no `elif` at all. It never faults. It yields what the branch yields;
without one it yields true, unless there is no branch of any kind. -/
theorem execute_condition_takes_one_branch (hname : tag.name = "if" ∨ tag.name = "elif")
    (hwithin : ∀ d, limit = some d → (outer + 1).number ≤ d)
    (hshared : Run.passThrough tag (s.begin tag outer) = .done shared (s.begin tag outer)) :
    ∃ executed ending,
      ((standard limit).site means tag outer).Chooses shared (s.begin tag outer) executed ending ∧
      (0 < means → (s.begin tag outer).world.Enters (outer + 1 + 1) executed
        ((standard limit).inside means tag outer s).after.world) ∧
      (standard limit).inside means tag outer s = ending ∧
      ∀ outcome u, (standard limit).execute (means + 1) tag outer s = .done outcome u ↔
        ∃ t, ending = .done outcome t ∧ u = t.leave tag (outer + 1) outcome := by
  have hexec := (standard limit).run_ne_failed means tag outer
  have hmem : (tag.name, Runner.condition) ∈ builtins := by
    obtain h | h := hname <;> simp [builtins, h]
  obtain ⟨executed, ending, hchooses, hending⟩ :=
    @Runner.exists_chooses ((standard limit).site means tag outer) shared _ hexec hshared
  have hinside : (standard limit).inside means tag outer s = ending :=
    (inside_of_mem hmem hwithin means s).trans hending
  refine ⟨executed, ending, hchooses, fun hmeans => ?_, hinside, fun outcome u => ?_⟩
  · rw [hinside]
    exact enters_of_chooses hmeans hchooses
  · rw [← hinside]
    refine boundary_eq_done.trans (or_iff_left ?_)
    rintro ⟨fault, t, hfailed, _⟩
    exact Runner.ne_failed_of_chooses hexec hchooses fault t (hinside.symm.trans hfailed)

/-- A condition whose assertion and branches stand in no order, with two branches
of one kind. -/
def muddled : Tag :=
  ⟨"if", [], [.tag ⟨"then", [], [], .nowhere⟩, .tag ⟨"assert", [("key", some "x")], [], .nowhere⟩,
    .tag ⟨"else", [], [], .nowhere⟩, .tag ⟨"then", [("last", none)], [], .nowhere⟩], .nowhere⟩

theorem muddled_takes_one_branch :
    ∃ executed ending,
      ((standard (some 3)).site 4 muddled 0).Chooses false (blankFrame.begin muddled 0) executed
        ending ∧
      (0 < 4 → (blankFrame.begin muddled 0).world.Enters (0 + 1 + 1) executed
        ((standard (some 3)).inside 4 muddled 0 blankFrame).after.world) ∧
      (standard (some 3)).inside 4 muddled 0 blankFrame = ending ∧
      ∀ outcome u, (standard (some 3)).execute 5 muddled 0 blankFrame = .done outcome u ↔
        ∃ t, ending = .done outcome t ∧ u = t.leave muddled (0 + 1) outcome :=
  execute_condition_takes_one_branch (.inl rfl) (fun d h => Option.some.inj h ▸ by decide) rfl

end Engine

end TagScript
