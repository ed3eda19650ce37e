import TagScript.Proofs.Isolation
import TagScript.Proofs.Privilege
import TagScript.Proofs.Termination

/-!
# Scripts without repetitions end

Without a repetition, a call or a module in it, a script goes only over the
tags that are written in it, each as often as a list of entries or rows is
long. There are two exceptions. A condition may make an assertion of its own
attributes, and that assertion is a tag that stands nowhere in the script.
It has the name that the attribute gives and all attributes of the
condition, that one included. So it can be a repetition, and it can be a
condition, which then makes the same assertion again: `selfAsserting` is a
condition that executes itself and never ends. And a command may wait for a
program that never ends, as `waiting` does.

Apart from that every script ends, with whatever limit on the depth and
without one. The induction is on the number of tags in a tag; an assertion
that a condition makes has no tags inside, and it ends because it leads to
none. A scope that holds neither the privilege for commands nor that to
grant privileges starts no command, and so its scripts end on every system.
-/

namespace TagScript

/-- The tags that execute tags over and over, or tags from elsewhere. -/
def repetitionNames : List String := ["loop", "call", "cond_call", "module"]

namespace Tag

/-- **A tag without repetitions.** -/
def IsRepetitionFree (tag : Tag) : Prop := ∀ t ∈ tag.withAll, t.name ∉ repetitionNames

/-- **A tag whose conditions assert plainly**: no assertion that a condition
or a branch makes of its own attributes is a repetition, or is a tag that
makes an assertion of its own attributes in its turn. -/
def AssertsPlainly (tag : Tag) : Prop :=
  ∀ t ∈ tag.withAll, t.name ∈ assertingNames → ∀ assertion ∈ t.ownAssertion?,
    assertion.name ∉ repetitionNames ∧ assertion.name ∉ assertingNames

/-! ## The tags in a tag -/

theorem withAll_eq (tag : Tag) : tag.withAll = tag :: tag.tags.flatMap withAll := by
  obtain ⟨name, attrs, content, span⟩ := tag
  rw [withAll, List.cons.injEq]
  refine ⟨rfl, ?_⟩
  unfold tags
  induction content with
  | nil => rfl
  | cons node rest ih =>
    cases node with
    | tag child => simpa [allIn, allOf] using ih
    | text s => simpa [allIn, allOf] using ih

theorem mem_withAll_self (tag : Tag) : tag ∈ tag.withAll := by
  rw [withAll_eq]
  exact List.mem_cons_self

theorem withAll_subset_of_mem_tags {tag child : Tag} (h : child ∈ tag.tags) :
    child.withAll ⊆ tag.withAll := by
  intro t ht
  rw [withAll_eq tag]
  exact List.mem_cons_of_mem _ (List.mem_flatMap.2 ⟨child, h, ht⟩)

/-- There are fewer tags in a tag than in one around it. -/
theorem length_withAll_lt_of_mem_tags {tag child : Tag} (h : child ∈ tag.tags) :
    child.withAll.length < tag.withAll.length := by
  obtain ⟨before, after, htags⟩ := List.append_of_mem h
  rw [withAll_eq tag, htags]
  simp
  omega

theorem IsRepetitionFree.of_mem_tags {tag child : Tag} (h : tag.IsRepetitionFree)
    (hchild : child ∈ tag.tags) : child.IsRepetitionFree :=
  fun t ht => h t (withAll_subset_of_mem_tags hchild ht)

theorem AssertsPlainly.of_mem_tags {tag child : Tag} (h : tag.AssertsPlainly)
    (hchild : child ∈ tag.tags) : child.AssertsPlainly :=
  fun t ht => h t (withAll_subset_of_mem_tags hchild ht)

/-- An assertion that a tag makes of its own attributes has no tags
inside. -/
theorem tags_of_ownAssertion? {tag assertion : Tag} (h : tag.ownAssertion? = some assertion) :
    assertion.tags = [] := by
  unfold ownAssertion? at h
  split at h
  · cases h
  · dsimp only at h
    split at h
    · cases h
    · obtain rfl := Option.some.inj h
      rfl

end Tag

namespace Engine

variable {limit : Option Nat} {tag : Tag}

/-! ## Executions that settle -/

/-- **A tag that is no repetition settles if the tags that it leads to
do.** -/
theorem settles_of_leads (hname : tag.name ∉ repetitionNames) (outer : Depth)
    (hexec : ∀ t child, tag.Leads t child → ∀ s,
      Settles (fun means => (standard limit).execute means child (outer + 1)) s) (s : Frame) :
    Settles (fun means => (standard limit).execute means tag outer) s := by
  refine Settles.of_succ (Settles.boundary (Settles.dispatch fun _ runner hget t => ?_))
  have hloop : tag.name ≠ "loop" := by
    rintro h
    exact hname (by simp [repetitionNames, h])
  exact (Settles.logic tag).obeys_builtins (mem_builtins_of_get? hget) hloop (outer + 1) _ _ t
    (hexec t)

/-- The bodies and scripts from elsewhere are left to calls and modules. -/
theorem settles_of_inside (hname : tag.name ∉ repetitionNames) (outer : Depth)
    (hinside : ∀ child ∈ tag.tags, ∀ s,
      Settles (fun means => (standard limit).execute means child (outer + 1)) s)
    (hassertion : tag.name ∈ assertingNames → ∀ assertion ∈ tag.ownAssertion?, ∀ s,
      Settles (fun means => (standard limit).execute means assertion (outer + 1)) s) (s : Frame) :
    Settles (fun means => (standard limit).execute means tag outer) s := by
  refine settles_of_leads hname outer (fun _ child hleads => ?_) s
  cases hleads with
  | inside h => exact hinside child h
  | assertion hname h => exact hassertion hname child h
  | body h =>
    refine absurd ?_ hname
    obtain h | h := h
    · simp [repetitionNames, h]
    · simp [repetitionNames, h]
  | script h => exact absurd (by simp [repetitionNames, h]) hname

/-- **Every script without repetitions settles** if its conditions assert
plainly. -/
theorem settles_of_isRepetitionFree (hfree : tag.IsRepetitionFree) (hplain : tag.AssertsPlainly)
    (outer : Depth) (s : Frame) :
    Settles (fun means => (standard limit).execute means tag outer) s := by
  induction hn : tag.withAll.length using Nat.strongRecOn generalizing tag outer s with
  | _ n ih =>
    subst hn
    refine settles_of_inside (hfree tag tag.mem_withAll_self) outer (fun child hchild t => ?_)
      (fun hname assertion hassertion t => ?_) s
    · exact ih _ (Tag.length_withAll_lt_of_mem_tags hchild) (hfree.of_mem_tags hchild)
        (hplain.of_mem_tags hchild) (outer + 1) t rfl
    · obtain ⟨hrepetition, hasserting⟩ :=
        hplain tag tag.mem_withAll_self hname assertion hassertion
      refine settles_of_inside hrepetition (outer + 1) (fun child hchild => ?_)
        (fun hname => absurd hname hasserting) t
      rw [Tag.tags_of_ownAssertion? hassertion] at hchild
      exact absurd hchild List.not_mem_nil

/-- **Without privileges nothing is waited for.** From a scope that may
neither start commands nor grant privileges one gets to no scope that may,
and so to no command. -/
theorem not_isWaiting_of_not_mem_held {s : Frame}
    (hcommand : "call_os_cmd" ∉ Privilege.held s.locals)
    (hgrant : "procedure_privilege" ∉ Privilege.held s.locals) (means : Nat) (tag : Tag)
    (outer : Depth) : ¬((standard limit).execute means tag outer s).after.IsWaiting := by
  rintro ⟨hheld, -⟩
  have hrun := (Privilege.conduct_confined (standard limit) hgrant).execute
    (fun _ _ h => .inl (mem_builtins_of_get? h)) means tag outer s
  obtain ⟨hconfined, -⟩ := hrun fun _ hname => hname
  exact hcommand (hconfined (Privilege.holds_iff.1 hheld))

/-- **Scripts without repetitions end**, as far as that can be up to them.
Let no tag of a script be a repetition, a call or a module, and let no
condition and no branch of a selection make such a tag, a condition or
another such branch of its own attributes. Take any frame and any depth,
with or without a limit on the depth.

Then the execution of the script comes to a result, the same with all
sufficient means, or from some number of means on it waits, always for the
same program, which never ends. So it comes to a result if every program of
the system ends, and also if its scope may neither start commands nor grant
privileges. -/
theorem execute_repetitionFree_terminates (limit : Option Nat) (tag : Tag) (outer : Depth)
    (s : Frame) (hfree : tag.IsRepetitionFree) (hplain : tag.AssertsPlainly) :
    ((∃ enough outcome t, ∀ means, enough ≤ means →
        (standard limit).execute means tag outer s = .done outcome t) ∨
      ∃ enough t, t.IsWaiting ∧ ∀ means, enough ≤ means →
        (standard limit).execute means tag outer s = .exhausted t) ∧
    (s.world.system.Ends ∨
        "call_os_cmd" ∉ Privilege.held s.locals ∧
          "procedure_privilege" ∉ Privilege.held s.locals →
      ∃ enough outcome t, ∀ means, enough ≤ means →
        (standard limit).execute means tag outer s = .done outcome t) := by
  have hsettles : Settles (fun means => (standard limit).execute means tag outer) s :=
    settles_of_isRepetitionFree hfree hplain outer s
  refine ⟨hsettles.done_or_isWaiting, fun hidle => hsettles.exists_done fun means => ?_⟩
  obtain hends | ⟨hcommand, hgrant⟩ := hidle
  · exact not_isWaiting_execute (fun _ _ h => .inl (mem_builtins_of_get? h)) hends means tag
      outer
  · exact not_isWaiting_of_not_mem_held hcommand hgrant means tag outer

/-- A condition with an assertion of its own attributes, inside an
iteration. -/
def iterated : Tag :=
  ⟨"for_in", [("key", some "words")],
    [.tag ⟨"if", [("_assert", some " equal "), ("key1", some "__for_in_value__"),
        ("key2", some "word")],
      [.tag ⟨"then", [], [.tag ⟨"assert", [("key", some "missing")], [], .nowhere⟩], .nowhere⟩],
      .nowhere⟩], .nowhere⟩

theorem iterated_terminates :
    iterated.IsRepetitionFree ∧ iterated.AssertsPlainly ∧
    ∃ enough outcome t, ∀ means, enough ≤ means →
      (standard none).execute means iterated 0
        { blankFrame with locals := [("word", .str "b"), ("words", .str "abc")] } =
          .done outcome t := by
  have hfree : iterated.IsRepetitionFree := by
    unfold Tag.IsRepetitionFree
    decide
  have hplain : iterated.AssertsPlainly := by
    unfold Tag.AssertsPlainly
    decide
  exact ⟨hfree, hplain,
    (execute_repetitionFree_terminates none iterated 0 _ hfree hplain).2 (.inl System.ends_bare)⟩

/-! ## The condition that executes itself -/

/-- It makes itself of its own attributes. -/
theorem assertion?_selfAsserting : selfAsserting.assertion? = some selfAsserting := rfl

/-- It has no result, with however many means. -/
theorem execute_selfAsserting (means : Nat) (outer : Depth) (s : Frame) :
    ∃ t, (standard none).execute means selfAsserting outer s = .exhausted t := by
  induction means generalizing outer s with
  | zero => exact ⟨s, rfl⟩
  | succ means ih =>
    obtain ⟨t, ht⟩ := ih (outer + 1) (s.begin selfAsserting outer)
    have hmem : (selfAsserting.name, Runner.condition) ∈ builtins := by
      simp [builtins, selfAsserting]
    have hshared : Run.passThrough selfAsserting (s.begin selfAsserting outer) =
        .done false (s.begin selfAsserting outer) := rfl
    have hholds : Runner.assertionHolds ((standard none).site means selfAsserting outer) false
        (s.begin selfAsserting outer) = .exhausted t := by
      unfold Runner.assertionHolds
      rw [assertion?_selfAsserting]
      exact Run.isolated_of_exhausted (Run.bind_of_exhausted ht _)
    refine ⟨t, boundary_of_exhausted ?_⟩
    calc (standard none).inside means selfAsserting outer s
        = Runner.condition ((standard none).site means selfAsserting outer)
            (s.begin selfAsserting outer) :=
          inside_of_mem hmem (fun _ h => absurd h (Option.some_ne_none _).symm) means s
      _ = .exhausted t := by
          unfold Runner.condition
          rw [Run.bind_of_done hshared, Run.bind_of_exhausted hholds]

/-- **A condition that asserts itself does not end**, although it is no
repetition and no tag is inside it. Neither does a command that waits for
ever. -/
theorem selfAsserting_does_not_end :
    (selfAsserting.IsRepetitionFree ∧
      ¬∃ means outcome t,
        (standard none).execute means selfAsserting 0 blankFrame = .done outcome t) ∧
    waiting.IsRepetitionFree ∧
      ¬∃ means outcome t,
        (standard none).execute means waiting 0 trusted = .done outcome t := by
  refine ⟨⟨?_, ?_⟩, ?_, ?_⟩
  · unfold Tag.IsRepetitionFree
    decide
  · rintro ⟨means, outcome, t, h⟩
    obtain ⟨u, hu⟩ := execute_selfAsserting means 0 blankFrame
    rw [hu] at h
    cases h
  · unfold Tag.IsRepetitionFree
    decide
  · rintro ⟨means, outcome, t, h⟩
    obtain ⟨u, hu⟩ := @execute_waiting (standard none) rfl nofun means
    rw [hu] at h
    cases h

end Engine

end TagScript
