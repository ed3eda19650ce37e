import TagScript.Proofs.Nesting
import TagScript.Proofs.Sharing

/-!
# The depth in the report of a fault

Every tag binds its depth among the local variables where it is entered, and
nothing binds the depth of the tag around it again where it is left. A tag
that executes the tags inside it on copies of its local variables does not
notice: its own depth is there again when they are done. One that shares its
local variables with them has the depth of the last of them from then on, and
this is what the report of its fault shows, to the hook and to the exception
handler alike (`branching_shows_inner_depth`).

So the depth in a report is that of an execution on the same local variables,
the failing one or one inside it, and it is that of the failing tag itself
if that has executed nothing on them.
-/

namespace TagScript

/-- **The depth that the report of a fault shows**: to the hook, which is handed the local variables
where the runner of the tag has ended, and to the exception handler, which reads all variables once
the report is bound. -/
structure Execution.Shows (y : Execution) (fault : Fault) (u : Frame) (depth : Depth) : Prop where
  /-- To the hook. -/
  hook : u.locals.get? Reserved.depth = some (.int (Int64.ofInt depth))
  /-- To the handler. -/
  handler : (u.report y.tag (y.outer + 1) (fault.chargedTo y.tag.span)).read Reserved.depth =
    .int (Int64.ofInt depth)

/-- The report itself leaves the depth. -/
theorem Execution.shows_of_get? {y : Execution} {u : Frame} {depth : Depth}
    (h : u.locals.get? Reserved.depth = some (.int (Int64.ofInt depth))) (fault : Fault) :
    y.Shows fault u depth where
  hook := h
  handler := by
    have hreport : (u.report y.tag (y.outer + 1) (fault.chargedTo y.tag.span)).locals.get?
        Reserved.depth = some (.int (Int64.ofInt depth)) :=
      (Dict.get?_insert_of_ne _ _ (by decide)).trans h
    unfold Frame.read Frame.lookup Scope.lookup
    rw [hreport]
    rfl

/-- **An execution has its local variables to itself**: it works on copies, or executes nothing. -/
def Execution.Apart (limit : Option Nat) (y : Execution) : Prop :=
  y.WorksOnCopy ∨ ∀ z, ¬(Engine.standard limit).Executes y z

namespace Engine

variable {limit : Option Nat} {y z : Execution}

/-- Whatever shares the local variables is as deep or deeper. -/
theorem Shares.outer_le (h : (standard limit).Shares y z) : y.outer ≤ z.outer := by
  induction h with
  | itself => exact Int.le_refl _
  | inner _ _ hz ih =>
    rw [hz.outer_eq]
    exact Int.le_trans ih (Int.le_of_lt (Int.lt_succ _))

/-- An execution that has its local variables to itself shares them with no other. -/
theorem Shares.eq_of_apart (h : (standard limit).Shares y z) (hy : y.Apart limit) : z = y := by
  induction h with
  | itself => rfl
  | inner _ hshares hz ih =>
    subst ih
    obtain hcopy | hnone := hy
    · exact absurd hcopy hshares
    · exact absurd hz (hnone _)

/-- A run begins at the depth zero, and every name on the way is one deeper. -/
theorem Encloses.outer_eq {first : Execution} {names : List String}
    (h : (standard limit).Encloses first names y) (hfirst : first.outer = 0) :
    y.outer = names.length := by
  induction h with
  | outermost => exact hfirst
  | inner _ hz ih =>
    rw [hz.outer_eq, ih, List.length_append]
    rfl

theorem get?_depth_start (y : Execution) :
    y.start.locals.get? Reserved.depth = some (.int (Int64.ofInt (y.outer + 1))) :=
  (Dict.get?_insert_of_ne _ _ (by decide)).trans (Dict.get?_insert_self _ _ _)

/-- **The depth is always that of an execution on the same local variables**, as long as none of
these is told to bind it. -/
theorem reaches_depth (hbinds : ∀ z, (standard limit).Shares y z → ¬z.Binds limit Reserved.depth) :
    ((standard limit).insideOf y).Reaches fun locals => ∃ z, (standard limit).Shares y z ∧
      locals.get? Reserved.depth = some (.int (Int64.ofInt (z.outer + 1))) := by
  refine @Encloses.induction (standard limit) y (fun y =>
    (∀ z, (standard limit).Shares y z → ¬z.Binds limit Reserved.depth) →
      ((standard limit).insideOf y).Reaches fun locals => ∃ z, (standard limit).Shares y z ∧
        locals.get? Reserved.depth = some (.int (Int64.ofInt (z.outer + 1))))
    (fun _ y _ ih hbinds => ?_) _ y .outermost hbinds
  refine reaches_inside (by decide)
    (I := fun found => ∃ z, (standard limit).Shares y z ∧
      found = some (.int (Int64.ofInt (z.outer + 1))))
    nofun (hbinds y .itself) ?_ ⟨y, .itself, get?_depth_start y⟩ ?_
  · -- no row has a column of that name
    intro source rounds stop t _ n _ policy columns record before after hdelivers hbefore
    rwa [hdelivers.reserved Reserved.depth (by decide) (by decide) (by decide)]
  · intro hshares z hz _
    have hinner := ih z hz fun w hw => hbinds w (hw.of_executes hshares hz)
    refine (reaches_ending (fun locals others hsame hlocals => ?_) hinner).mono ?_
    · obtain ⟨w, hw, hget⟩ := hlocals
      exact ⟨w, hw, (hsame _ (by decide)).trans hget⟩
    · rintro locals ⟨w, hw, hget⟩
      exact ⟨w, hw.of_executes hshares hz, hget⟩

/-- **What depth the report of a fault shows.** Let a tag fault in a run that begins at the depth
zero, and let no execution on the same local variables as its own be told to bind the depth. Then
the hook and the exception handler see the depth of one of these executions: the failing one, or
one inside it, which is as deep or deeper. It is the depth of the failing tag itself, one more than
there are tags around it, if it has worked on copies or has executed nothing. -/
theorem execute_fault_shows_depth (limit : Option Nat) {first y : Execution} {names : List String}
    (hfirst : first.outer = 0) (hy : (standard limit).Encloses first names y)
    (hbinds : ∀ z, (standard limit).Shares y z → ¬z.Binds limit Reserved.depth) {fault : Fault}
    {u : Frame} (hfault : (standard limit).insideOf y = .failed fault u) :
    (∃ z, (standard limit).Shares y z ∧ (names.length : Int) ≤ z.outer ∧
      y.Shows fault u (z.outer + 1)) ∧
    (y.Apart limit → y.Shows fault u (names.length + 1)) := by
  have hreaches := reaches_depth hbinds
  rw [hfault] at hreaches
  obtain ⟨z, hz, hget⟩ := hreaches
  have houter := hy.outer_eq hfirst
  refine ⟨⟨z, hz, houter ▸ hz.outer_le, Execution.shows_of_get? hget fault⟩, fun hapart => ?_⟩
  obtain rfl := hz.eq_of_apart hapart
  rw [← houter]
  exact Execution.shows_of_get? hget fault

/-- An assertion that negates nothing executes nothing either, and its report shows how deep it
is. -/
theorem ofAssertion_shows_depth :
    ofBlock.outer = 0 ∧ (standard (some 3)).Encloses ofBlock ["sub", "if"] ofAssertion ∧
    (∀ z, (standard (some 3)).Shares ofAssertion z → ¬z.Binds (some 3) Reserved.depth) ∧
    ofAssertion.Apart (some 3) ∧
    ∃ fault u, (standard (some 3)).insideOf ofAssertion = .failed fault u ∧
      ofAssertion.Shows fault u 3 := by
  have hnone : ∀ z, ¬(standard (some 3)).Executes ofAssertion z := fun z =>
    not_executes_of_tags_eq_nil (by decide) rfl
  have hbinds : ∀ z, (standard (some 3)).Shares ofAssertion z →
      ¬z.Binds (some 3) Reserved.depth := by
    intro z hz
    obtain rfl := hz.eq_of_apart (.inr hnone)
    exact fun h => absurd h.1 (by decide)
  have hfault : ∃ fault u, (standard (some 3)).insideOf ofAssertion = .failed fault u := ⟨_, _, rfl⟩
  obtain ⟨fault, u, hfault⟩ := hfault
  exact ⟨rfl, encloses_ofAssertion, hbinds, .inr hnone, fault, u, hfault,
    (execute_fault_shows_depth (some 3) rfl encloses_ofAssertion hbinds hfault).2 (.inr hnone)⟩

/-- A branch with a tag in it that has no runner. -/
def branching : Execution :=
  ⟨⟨"then", [], [.tag ⟨"mystery", [], [], .nowhere⟩], .nowhere⟩, 0, blankFrame, 2⟩

/-- **A tag that shares its local variables with the tags inside it shows their depth**: the branch
faults at the depth one, since the tag in it has yielded false, and the report shows the depth two,
though no tag of the script is there to assign anything. -/
theorem branching_shows_inner_depth :
    branching.outer = 0 ∧ (∀ tag ∈ branching.tag.withAll, tag.name ∉ assigningNames) ∧
    ∃ fault u, (standard none).insideOf branching = .failed fault u ∧
      fault.cause = .branchAborted "then" "mystery" ∧
      branching.Shows fault u 2 ∧ ¬branching.Shows fault u (branching.outer + 1) := by
  have hfault : ∃ fault u, (standard none).insideOf branching = .failed fault u ∧
      fault.cause = .branchAborted "then" "mystery" ∧
      u.locals.get? Reserved.depth = some (.int (Int64.ofInt 2)) := ⟨_, _, rfl, rfl, rfl⟩
  obtain ⟨fault, u, hfault, hcause, hget⟩ := hfault
  refine ⟨rfl, by decide, fault, u, hfault, hcause, Execution.shows_of_get? hget fault, fun h => ?_⟩
  have hint : (Int64.ofInt 2 : Int64) = Int64.ofInt 1 :=
    Value.int.inj (Option.some.inj (hget.symm.trans h.hook))
  exact absurd hint (by decide)

end Engine

end TagScript
