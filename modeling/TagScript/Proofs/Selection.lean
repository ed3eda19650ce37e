import TagScript.Proofs.Break
import TagScript.Proofs.Sequence

/-!
# Selections take the first branch that matches

A selection executes the tags inside it one after another, in one copy of the
local variables, until one of them matches. Two things are told by what a branch
yields: whether it went well, and whether it matched. So a selection goes on
after a branch only if the branch went well without matching, and it ends well
in two ways: after a branch that went well and matched, and behind the last one.
`Site.Visits` tells where it ends. That a tag inside is no branch is found out
only where the selection comes to it.

A branch asks its assertion first, and executes its body if that holds.
`Site.Decides` tells what it executes and what it comes to: where the assertion
does not hold, nothing has been executed but the assertion, and what it has
changed is what the branch has changed.
-/

namespace TagScript

/-- Whether a tag is a branch of a selection. -/
def Tag.IsBranch (tag : Tag) : Prop := tag.name = "when" ∨ tag.name = "when_others"

/-- **How a selection is through with the tags inside it.** -/
inductive Visit where
  /-- All of them have been visited. -/
  | exhausted
  /-- This branch matches. -/
  | matched (branch : Tag)
  /-- This branch fails. -/
  | failed (branch : Tag)
  /-- This tag is no branch. -/
  | illegal (child : Tag)
  /-- The execution of this branch does not end. -/
  | cut (branch : Tag)

theorem Ending.after_ofResult? {α : Type} (result : Option (Except Cause α)) (t : Frame) :
    (Ending.ofResult? result t).after = t := by
  obtain _ | _ | _ := result <;> rfl

namespace Visit

/-- **What the selection comes to.** -/
def comesTo : Visit → Option (Except Cause Outcome)
  | .exhausted | .matched _ => some (.ok .ok)
  | .failed branch => some (.error (.selectionFailed branch.name))
  | .illegal child => some (.error (.notBranch child.name))
  | .cut _ => none

/-- Whether it ends well. -/
def Succeeds : Visit → Prop
  | .exhausted | .matched _ => True
  | .failed _ | .illegal _ | .cut _ => False

/-- The code of its fault, if it faults. -/
def code? : Visit → Option String
  | .failed _ => some "ENGINE_BRANCH_FAILED"
  | .illegal _ => some "ENGINE_CASE_CHILD_ILLEGAL"
  | .exhausted | .matched _ | .cut _ => none

theorem code?_of_comesTo {visit : Visit} {cause : Cause}
    (h : visit.comesTo = some (.error cause)) : visit.code? = some cause.code := by
  cases visit with
  | exhausted | matched | cut => cases h
  | failed | illegal =>
    cases h
    rfl

theorem truthy_iff_of_comesTo {visit : Visit} {outcome : Outcome}
    (h : visit.comesTo = some (.ok outcome)) : outcome.truthy = true ↔ visit.Succeeds := by
  cases visit with
  | exhausted | matched =>
    cases h
    exact ⟨fun _ => trivial, fun _ => rfl⟩
  | failed | illegal | cut => cases h

theorem not_succeeds_of_comesTo {visit : Visit} {cause : Cause}
    (h : visit.comesTo = some (.error cause)) : ¬visit.Succeeds := by
  cases visit with
  | exhausted | matched | cut => cases h
  | failed | illegal => exact id

end Visit

/-! ## The branches that a selection visits -/

namespace Site

/-- **The tag that a selection does not go on from**, if there is one, among the
tags that are left, and what of these it executes. -/
inductive VisitEnds (site : Site) : List Tag → Frame → List Tag → Visit → Frame → Prop where
  /-- No tag is left. -/
  | exhausted (s : Frame) : VisitEnds site [] s [] .exhausted s
  /-- The next branch goes well and matches. -/
  | matched {branch : Tag} {rest : List Tag} {s t : Frame} {outcome : Outcome}
      (hbranch : branch.IsBranch) (h : site.run branch s = .done outcome t)
      (hwell : outcome.truthy = true) (hmatched : outcome.matched = true) :
      VisitEnds site (branch :: rest) s [branch] (.matched branch) t
  /-- The next branch fails. -/
  | failed {branch : Tag} {rest : List Tag} {s t : Frame} {outcome : Outcome}
      (hbranch : branch.IsBranch) (h : site.run branch s = .done outcome t)
      (hfails : outcome.truthy = false) :
      VisitEnds site (branch :: rest) s [branch] (.failed branch) t
  /-- The next tag is no branch, and is not executed. -/
  | illegal {child : Tag} {rest : List Tag} (hbranch : ¬child.IsBranch) (s : Frame) :
      VisitEnds site (child :: rest) s [] (.illegal child) s
  /-- The next branch does not end. -/
  | cut {branch : Tag} {rest : List Tag} {s t : Frame} (hbranch : branch.IsBranch)
      (h : site.run branch s = .exhausted t) :
      VisitEnds site (branch :: rest) s [branch] (.cut branch) t

/-- **The tags that a selection executes**: the first ones in document order,
each in the frame that the one before has left. All of them up to the last one
are branches that go well and do not match. -/
def Visits (site : Site) (tags : List Tag) (s : Frame) (visited : List Tag) (visit : Visit)
    (t : Frame) : Prop :=
  ∃ before rest last outcomes u, tags = before ++ rest ∧ visited = before ++ last ∧
    site.Series before s outcomes u ∧
    (∀ entry ∈ before.zip outcomes,
      entry.1.IsBranch ∧ entry.2.truthy = true ∧ entry.2.matched = false) ∧
    site.VisitEnds rest u last visit t

variable {site : Site} {tags visited : List Tag} {s t u : Frame} {visit : Visit}

theorem VisitEnds.visits (h : site.VisitEnds tags s visited visit t) :
    site.Visits tags s visited visit t :=
  ⟨[], tags, visited, [], s, rfl, rfl, .nil s, nofun, h⟩

/-- A selection goes on after a branch that goes well and does not match. -/
theorem Visits.cons {branch : Tag} {outcome : Outcome} (hbranch : branch.IsBranch)
    (hrun : site.run branch s = .done outcome t) (hwell : outcome.truthy = true)
    (hunmatched : outcome.matched = false) (h : site.Visits tags t visited visit u) :
    site.Visits (branch :: tags) s (branch :: visited) visit u := by
  obtain ⟨before, rest, last, outcomes, v, rfl, rfl, hseries, hall, hends⟩ := h
  refine ⟨branch :: before, rest, last, outcome :: outcomes, v, rfl, rfl, .cons hrun hseries,
    fun entry hmem => ?_, hends⟩
  obtain rfl | hmem := List.mem_cons.1 hmem
  · exact ⟨hbranch, hwell, hunmatched⟩
  · exact hall entry hmem

/-- **A selection visits its branches** and comes to what the visit says. -/
theorem exists_visits (hexec : ∀ child s fault t, site.run child s ≠ .failed fault t)
    (tags : List Tag) (s : Frame) :
    ∃ visited visit t, site.Visits tags s visited visit t ∧
      (do Runner.tryBranches site tags; pure .ok : Run Outcome) s =
        .ofResult? visit.comesTo t := by
  -- on the tags that are left: the branches before have gone well without matching
  induction tags generalizing s with
  | nil => exact ⟨[], .exhausted, s, (VisitEnds.exhausted s).visits, rfl⟩
  | cons child rest ih =>
    unfold Runner.tryBranches
    by_cases hbranch : child.name = "when" ∨ child.name = "when_others"
    · rw [if_pos hbranch, bind_assoc]
      cases hrun : site.run child s with
      | failed fault t => exact absurd hrun (hexec child s fault t)
      | exhausted t =>
        rw [Run.bind_of_exhausted hrun]
        exact ⟨_, _, t, (VisitEnds.cut hbranch hrun).visits, rfl⟩
      | done outcome t =>
        rw [Run.bind_of_done hrun]
        cases hwell : outcome.truthy with
        | false =>
          exact ⟨_, _, t, (VisitEnds.failed hbranch hrun hwell).visits, rfl⟩
        | true =>
          cases hmatched : outcome.matched with
          | true => exact ⟨_, _, t, (VisitEnds.matched hbranch hrun hwell hmatched).visits, rfl⟩
          | false =>
            obtain ⟨visited, visit, u, hvisits, hrest⟩ := ih t
            exact ⟨_, visit, u, hvisits.cons hbranch hrun hwell hmatched, hrest⟩
    · refine ⟨_, _, s, (VisitEnds.illegal hbranch s).visits, ?_⟩
      rw [if_neg hbranch]
      rfl

/-! ## What a branch executes -/

/-- **What a branch of a selection executes and comes to.** -/
inductive Decides (site : Site) (s : Frame) : List Tag → Ending Outcome → Prop where
  /-- It asks nothing, and makes one pass over the tags inside it. -/
  | otherwise (hname : site.tag.name = "when_others") {executed : List (Tag × Option Outcome)}
      {stop : Stop} {t : Frame} (hpass : site.Pass site.tag.tags s executed stop t) :
      Decides site s (executed.map Prod.fst) (.ofResult? (site.tag.comesTo stop) t)
  /-- It has no assertion, and executes nothing. -/
  | unasked (hname : site.tag.name = "when")
      (hassertion : ∀ assertion body, ¬site.tag.Asserts assertion body) :
      Decides site s [] (.failed (.of .conditionMissing) s)
  /-- Its assertion does not end. -/
  | undecided (hname : site.tag.name = "when") {assertion : Tag} {body : List Tag}
      (hassertion : site.tag.Asserts assertion body) {t : Frame}
      (hverdict : site.run assertion s = .exhausted t) :
      Decides site s [assertion] (.exhausted t)
  /-- Its assertion does not hold, and nothing else is executed. -/
  | unmatched (hname : site.tag.name = "when") {assertion : Tag} {body : List Tag}
      (hassertion : site.tag.Asserts assertion body) {verdict : Outcome} {t : Frame}
      (hverdict : site.run assertion s = .done verdict t) (hholds : verdict.truthy = false) :
      Decides site s [assertion] (.done (.branch true false) t)
  /-- Its assertion holds, and after it the branch makes one pass over its body. -/
  | matched (hname : site.tag.name = "when") {assertion : Tag} {body : List Tag}
      (hassertion : site.tag.Asserts assertion body) {verdict : Outcome} {t : Frame}
      (hverdict : site.run assertion s = .done verdict t) (hholds : verdict.truthy = true)
      {executed : List (Tag × Option Outcome)} {stop : Stop} {u : Frame}
      (hpass : site.Pass body t executed stop u) :
      Decides site s (assertion :: executed.map Prod.fst) (.ofResult? (site.tag.comesTo stop) u)

end Site

namespace Runner

variable {site : Site} {s : Frame}

/-- **The body of a branch makes one pass** and comes to what the pass says. -/
theorem branchBody_of_pass (hname : site.tag.IsBranch) {body : List Tag}
    {executed : List (Tag × Option Outcome)} {stop : Stop} {t : Frame}
    (hpass : site.Pass body s executed stop t) :
    branchBody site true body s = .ofResult? (site.tag.comesTo stop) t := by
  have hcalls : ¬site.calls := by
    obtain h | h := hname <;> simp [Site.calls, h]
  have hbody : branchBody site true body s = (do
      site.completesOr (fun child => .branchAborted site.tag.name child.name) body
      pure (.branch true true) : Run Outcome) s := rfl
  rw [hbody, Run.bind_apply, Site.completesOr_of_pass hcalls hpass]
  obtain h | h := hname <;> cases stop <;> simp [Tag.comesTo, Ending.ofResult?, Stop.elim, h]

/-- **A branch that asks an assertion** decides as the assertion says. -/
theorem exists_decides_whenHolds (hexec : ∀ child s fault t, site.run child s ≠ .failed fault t)
    (hname : site.tag.name = "when") (s : Frame) :
    ∃ executed ending, site.Decides s executed ending ∧ whenHolds site s = ending := by
  by_cases hasserts : ∃ assertion body, site.tag.Asserts assertion body
  · obtain ⟨assertion, body, hassertion⟩ := hasserts
    rw [whenHolds_of_asserts hassertion]
    cases hverdict : site.run assertion s with
    | failed fault t => exact absurd hverdict (hexec assertion s fault t)
    | exhausted t =>
      rw [Run.bind_of_exhausted hverdict]
      exact ⟨_, _, .undecided hname hassertion hverdict, rfl⟩
    | done verdict t =>
      rw [Run.bind_of_done hverdict]
      cases hholds : verdict.truthy with
      | false => exact ⟨_, _, .unmatched hname hassertion hverdict hholds, rfl⟩
      | true =>
        obtain ⟨executed, stop, u, hpass⟩ := Site.exists_pass hexec body t
        exact ⟨_, _, .matched hname hassertion hverdict hholds hpass,
          branchBody_of_pass (.inl hname) hpass⟩
  · refine ⟨_, _, .unasked hname fun assertion body h => hasserts ⟨assertion, body, h⟩, ?_⟩
    unfold whenHolds
    cases hown : site.tag.ownAssertion? with
    | some assertion => exact absurd ⟨assertion, _, .own hown⟩ hasserts
    | none =>
      cases htags : site.tag.tags with
      | nil => rfl
      | cons first body =>
        dsimp only
        rw [if_neg fun h => hasserts ⟨first, body, .first hown htags h⟩]
        rfl

/-- **Every branch decides.** -/
theorem exists_decides (hexec : ∀ child s fault t, site.run child s ≠ .failed fault t)
    (hbranch : site.tag.IsBranch) (s : Frame) :
    ∃ runner, (site.tag.name, runner) ∈ builtins ∧
      ∃ executed ending, site.Decides s executed ending ∧ runner site s = ending := by
  obtain hname | hname := hbranch
  · exact ⟨whenHolds, by simp [builtins, hname], exists_decides_whenHolds hexec hname s⟩
  · obtain ⟨executed, stop, t, hpass⟩ := Site.exists_pass hexec site.tag.tags s
    exact ⟨otherwise, by simp [builtins, hname], _, _, .otherwise hname hpass,
      branchBody_of_pass (.inr hname) hpass⟩

end Runner

namespace Engine

variable {limit : Option Nat} {means : Nat} {tag : Tag} {outer : Depth} {s t : Frame}

/-- The branches that a selection visits are entered one after another. -/
theorem enters_of_visits (hmeans : 0 < means) {tags visited : List Tag} {visit : Visit}
    (h : ((standard limit).site means tag outer).Visits tags s visited visit t) :
    s.world.Enters (outer + 1 + 1) visited t.world := by
  obtain ⟨before, rest, last, outcomes, u, rfl, rfl, hseries, _, hends⟩ := h
  refine (enters_of_series hseries).trans ?_
  cases hends with
  | exhausted | illegal => exact .refl _ _
  | matched _ hrun | failed _ hrun => exact enters_of_run_done hrun
  | cut _ hrun => exact enters_of_run_exhausted hmeans hrun

/-- So are the tags that a branch executes. -/
theorem enters_of_decides (hmeans : 0 < means) {executed : List Tag} {ending : Ending Outcome}
    (h : ((standard limit).site means tag outer).Decides s executed ending) :
    s.world.Enters (outer + 1 + 1) executed ending.after.world := by
  cases h with
  | otherwise hname hpass =>
    rw [Ending.after_ofResult?]
    exact enters_of_pass hmeans hpass
  | unasked => exact .refl _ _
  | undecided hname hassertion hverdict => exact enters_of_run_exhausted hmeans hverdict
  | unmatched hname hassertion hverdict hholds => exact enters_of_run_done hverdict
  | matched hname hassertion hverdict hholds hpass =>
    rw [Ending.after_ofResult?]
    exact (enters_of_run_done hverdict).trans (enters_of_pass hmeans hpass)

/-- **A selection takes the first branch that matches.** Take any selection whose
depth is within the limit and that can tell whether it shares its variables, in
any state and with any tags inside it.

It executes the first of these tags in document order and no others, all of them
in the same variables, which are its own or one copy of them. All of these tags up
to the last one are branches that go well and do not match; the last one matches,
fails or does not end, or else the tag behind it is no branch or there is none. So
the selection yields true exactly if a branch matches or there is no tag left, and
otherwise it faults with the code that tells why.

Each of these branches executes its assertion first and once, and the tags of its
body in one pass if the assertion holds. If it does not hold, then the branch
executes nothing else and leaves what the assertion has left; and one that is too
deep executes nothing at all. -/
theorem execute_selection_first_match (limit : Option Nat) (means : Nat) (tag : Tag)
    (outer : Depth) (s : Frame) :
    (∀ shared, tag.name = "case" → (∀ d, limit = some d → (outer + 1).number ≤ d) →
      Run.passThrough tag (s.begin tag outer) = .done shared (s.begin tag outer) →
      ∃ visited visit t,
        ((standard limit).site means tag outer).Visits tag.tags (s.begin tag outer) visited
          visit t ∧
        (0 < means → (s.begin tag outer).world.Enters (outer + 1 + 1) visited
          ((standard limit).inside means tag outer s).after.world) ∧
        (standard limit).inside means tag outer s =
          (Ending.ofResult? visit.comesTo t).returnTo shared (s.begin tag outer) ∧
        (∀ cause, visit.comesTo = some (.error cause) → visit.code? = some cause.code) ∧
        ∀ outcome u, (standard limit).execute (means + 1) tag outer s = .done outcome u →
          (outcome.truthy = true ↔ visit.Succeeds)) ∧
    (tag.IsBranch →
      (∃ d, limit = some d ∧ d < (outer + 1).number ∧
        (standard limit).inside means tag outer s =
          .failed (.of (.tooDeep (outer + 1).number d)) (s.enter tag (outer + 1))) ∨
      ∃ executed ending,
        ((standard limit).site means tag outer).Decides (s.begin tag outer) executed ending ∧
        (0 < means → (s.begin tag outer).world.Enters (outer + 1 + 1) executed
          ((standard limit).inside means tag outer s).after.world) ∧
        (standard limit).inside means tag outer s = ending) := by
  have hexec := (standard limit).run_ne_failed means tag outer
  constructor
  · intro shared hname hwithin hshared
    obtain ⟨visited, visit, t, hvisits, hending⟩ :=
      Site.exists_visits hexec tag.tags (s.begin tag outer)
    have hmem : (tag.name, Runner.selection) ∈ builtins := by simp [builtins, hname]
    have hinside : (standard limit).inside means tag outer s =
        (Ending.ofResult? visit.comesTo t).returnTo shared (s.begin tag outer) := by
      rw [inside_of_mem hmem hwithin, Runner.selection, Run.bind_of_done hshared, Run.within_apply,
        ← hending]
    refine ⟨visited, visit, t, hvisits, fun hmeans => ?_, hinside,
      fun cause => Visit.code?_of_comesTo, fun outcome u h => ?_⟩
    · rw [hinside, Ending.world_returnTo, Ending.after_ofResult?]
      exact enters_of_visits hmeans hvisits
    · obtain hresult | ⟨cause | result, hresult⟩ := Option.eq_none_or_eq_some visit.comesTo
      · rw [hresult] at hinside
        have hcut := h.symm.trans (boundary_of_exhausted hinside)
        cases hcut
      · rw [hresult] at hinside
        obtain ⟨rfl, _⟩ := Ending.done.inj (h.symm.trans (boundary_of_failed hinside))
        exact ⟨fun htrue => absurd htrue Bool.false_ne_true,
          fun hwell => absurd hwell (Visit.not_succeeds_of_comesTo hresult)⟩
      · rw [hresult] at hinside
        obtain ⟨rfl, _⟩ := Ending.done.inj (h.symm.trans (boundary_of_done hinside))
        exact Visit.truthy_iff_of_comesTo hresult
  · intro hbranch
    obtain ⟨runner, hmem, hdecides⟩ :=
      @Runner.exists_decides ((standard limit).site means tag outer) hexec hbranch
        (s.begin tag outer)
    obtain ⟨d, hd, hlt, hrefused⟩ | ⟨_, hinside⟩ := @dispatch_of_mem limit
      ((standard limit).site means tag outer) runner hmem (s.enter tag (outer + 1))
    · exact .inl ⟨d, hd, hlt, hrefused⟩
    · obtain ⟨executed, ending, hdecides, hending⟩ := hdecides
      have hinside : (standard limit).inside means tag outer s = ending := hinside.trans hending
      refine .inr ⟨executed, ending, hdecides, fun hmeans => ?_, hinside⟩
      rw [hinside]
      exact enters_of_decides hmeans hdecides

/-- A branch whose assertion holds of a variable that is something. -/
def doubting : Tag :=
  ⟨"when", [("_assert", some "assert"), ("key", some "x")],
    [.tag ⟨"set", [("key", some "y")], [], .nowhere⟩], .nowhere⟩

/-- A selection between it and a branch that always matches. -/
def choosing : Tag :=
  ⟨"case", [], [.tag doubting, .tag ⟨"when_others", [], [], .nowhere⟩], .nowhere⟩

theorem choosing_first_match :
    (∃ visited visit t,
      ((standard (some 2)).site 5 choosing 0).Visits choosing.tags (blankFrame.begin choosing 0)
        visited visit t ∧
      ∀ outcome u, (standard (some 2)).execute 6 choosing 0 blankFrame = .done outcome u →
        (outcome.truthy = true ↔ visit.Succeeds)) ∧
    ∃ executed ending,
      ((standard none).site 4 doubting 1).Decides (blankFrame.begin doubting 1) executed ending ∧
      (standard none).inside 4 doubting 1 blankFrame = ending := by
  obtain ⟨visited, visit, t, hvisits, _, _, _, hyields⟩ :=
    (execute_selection_first_match (some 2) 5 choosing 0 blankFrame).1 false rfl
      (fun d h => Option.some.inj h ▸ by decide) rfl
  obtain ⟨d, hd, _⟩ | ⟨executed, ending, hdecides, _, hinside⟩ :=
    (execute_selection_first_match none 4 doubting 1 blankFrame).2 (.inl rfl)
  · cases hd
  · exact ⟨⟨visited, visit, t, hvisits, hyields⟩, executed, ending, hdecides, hinside⟩

end Engine

end TagScript
