import TagScript.Builtin

/-!
# Passes over tags

A block goes over the tags inside it once or many times. One pass executes
them in document order, each from the frame that the one before has left,
up to the first after which it does not go on. `Site.Pass` tells such a
pass step by step, and `Site.Passes` tells one pass after another: between
two of them the world stays as it is, so nothing is executed there.

The passes of a block are told also if it never ends. The last tag of the
last pass is then the one whose execution was cut off.

The ways in which blocks make their passes – up to the first tag that
yields false, through the body of a procedure, for each item of a list,
over and over – are all determined by the passes they make.
-/

namespace TagScript

/-- **How a pass over tags ends.** -/
inductive Stop where
  /-- All tags have been executed. -/
  | completed
  /-- After this tag, because of what it yields. -/
  | broken (child : Tag) (outcome : Outcome)
  /-- In the execution of this tag, which does not end. -/
  | cut (child : Tag)

/-- What is so or so according to how a pass ends. -/
def Stop.elim {α : Type} (completed : α) (broken : Tag → Outcome → α) (cut : α) : Stop → α
  | .completed => completed
  | .broken child outcome => broken child outcome
  | .cut _ => cut

/-- **Whether a block goes on after a tag inside it**: if the tag yields
true, and a procedure only if it is no `return`. -/
def Tag.goesOn (tag child : Tag) (outcome : Outcome) : Bool :=
  outcome.truthy && !((tag.name == "call" || tag.name == "cond_call") && child.name == "return")

namespace Site

/-- **One pass over tags**: from which frame it starts, which tags it
executes and what they yield – nothing, if the execution does not end –,
how it ends and in which frame. -/
inductive Pass (site : Site) : List Tag → Frame → List (Tag × Option Outcome) → Stop → Frame → Prop
    where
  /-- There is no tag left. -/
  | completed (s : Frame) : Pass site [] s [] .completed s
  /-- The pass does not go on after a tag. -/
  | broken {child : Tag} {rest : List Tag} {s t : Frame} {outcome : Outcome}
      (h : site.run child s = .done outcome t) (hstop : site.tag.goesOn child outcome = false) :
      Pass site (child :: rest) s [(child, some outcome)] (.broken child outcome) t
  /-- The execution of a tag does not end. -/
  | cut {child : Tag} {rest : List Tag} {s t : Frame} (h : site.run child s = .exhausted t) :
      Pass site (child :: rest) s [(child, none)] (.cut child) t
  /-- The pass goes on after a tag. -/
  | next {child : Tag} {rest : List Tag} {s t u : Frame} {outcome : Outcome}
      {executed : List (Tag × Option Outcome)} {stop : Stop}
      (h : site.run child s = .done outcome t) (hgoes : site.tag.goesOn child outcome = true)
      (hrest : Pass site rest t executed stop u) :
      Pass site (child :: rest) s ((child, some outcome) :: executed) stop u

/-- **One pass after another**, all over the same tags, in worlds that
follow on each other. Only the last one may be other than completed. -/
inductive Passes (site : Site) (tags : List Tag) :
    World → List (List (Tag × Option Outcome)) → Stop → World → Prop where
  /-- There is no further pass. -/
  | none (w : World) : Passes site tags w [] .completed w
  /-- The last pass. -/
  | last {w : World} {s t : Frame} {executed : List (Tag × Option Outcome)} {stop : Stop}
      (hs : s.world = w) (h : site.Pass tags s executed stop t) (hstop : stop ≠ .completed) :
      Passes site tags w [executed] stop t.world
  /-- A completed pass and further ones. -/
  | next {w w' : World} {s t : Frame} {executed : List (Tag × Option Outcome)}
      {passes : List (List (Tag × Option Outcome))} {stop : Stop} (hs : s.world = w)
      (h : site.Pass tags s executed .completed t) (hrest : Passes site tags t.world passes stop w') :
      Passes site tags w (executed :: passes) stop w'

variable {site : Site} {tags : List Tag} {s t : Frame}
variable {executed : List (Tag × Option Outcome)} {stop : Stop}

/-! ## The laws of passes -/

/-- **A pass executes the first tags, in document order.** -/
theorem Pass.isPrefix (h : site.Pass tags s executed stop t) :
    executed.map Prod.fst <+: tags := by
  induction h with
  | completed s => exact List.prefix_rfl
  | broken _ _ => exact List.prefix_append [_] _
  | cut _ => exact List.prefix_append [_] _
  | next _ _ _ ih => exact List.cons_prefix_cons.2 ⟨rfl, ih⟩

/-- A completed pass executes all of them. -/
theorem Pass.map_fst_of_completed (h : site.Pass tags s executed .completed t) :
    executed.map Prod.fst = tags := by
  generalize hstop : Stop.completed = stop at h
  induction h with
  | completed s => rfl
  | broken _ _ => cases hstop
  | cut _ => cases hstop
  | next _ _ _ ih => exact congrArg (_ :: ·) (ih hstop)

/-- **A further tag is executed only if the pass goes on** after what the
tag before it has yielded. -/
theorem Pass.goesOn (h : site.Pass tags s executed stop t) :
    ∀ entry ∈ executed.dropLast,
      ∃ outcome, entry.2 = some outcome ∧ site.tag.goesOn entry.1 outcome = true := by
  induction h with
  | completed s => exact fun _ he => absurd he List.not_mem_nil
  | broken _ _ => exact fun _ he => absurd he List.not_mem_nil
  | cut _ => exact fun _ he => absurd he List.not_mem_nil
  | @next child rest s t u outcome executed stop _ hgoes _ ih =>
    intro entry he
    -- the first tag is exempt only if it is also the last
    cases executed with
    | nil => exact absurd he List.not_mem_nil
    | cons first more =>
      obtain rfl | he := List.mem_cons.1 he
      · exact ⟨outcome, rfl, hgoes⟩
      · exact ih entry he

/-- The passes of a block obey both laws. -/
theorem Passes.laws {w w' : World} {passes : List (List (Tag × Option Outcome))}
    (h : site.Passes tags w passes stop w') :
    ∀ executed ∈ passes, executed.map Prod.fst <+: tags ∧
      ∀ entry ∈ executed.dropLast,
        ∃ outcome, entry.2 = some outcome ∧ site.tag.goesOn entry.1 outcome = true := by
  induction h with
  | none w => exact fun _ he => absurd he List.not_mem_nil
  | last _ hpass _ =>
    intro executed he
    obtain rfl := List.mem_singleton.1 he
    exact ⟨hpass.isPrefix, hpass.goesOn⟩
  | next _ hpass _ ih =>
    intro executed he
    obtain rfl | he := List.mem_cons.1 he
    · exact ⟨hpass.isPrefix, hpass.goesOn⟩
    · exact ih executed he

/-! ## Where a pass leads -/

section Lead

variable {u : Frame} {others : List (Tag × Option Outcome)} {child : Tag} {outcome : Outcome}

/-- A completed pass leads to one frame only. -/
theorem Pass.unique_of_completed (h : site.Pass tags s executed .completed t)
    (hother : site.Pass tags s others .completed u) : u = t := by
  induction tags generalizing s executed others with
  | nil =>
    cases h
    cases hother
    rfl
  | cons child rest ih =>
    cases h with
    | next hrun _ hrest =>
      cases hother with
      | next hrun' _ hrest' =>
        obtain ⟨-, rfl⟩ := Ending.done.inj (hrun.symm.trans hrun')
        exact ih hrest hrest'

/-- **A completed pass has gone on after every tag**, each executed where the pass over those
before it leads. -/
theorem Pass.exists_of_completed (h : site.Pass tags s executed .completed t) {i : Nat}
    (hi : i < tags.length) :
    ∃ child outcome earlier u v, tags[i]? = some child ∧
      site.Pass (tags.take i) s earlier .completed u ∧ site.run child u = .done outcome v ∧
      site.tag.goesOn child outcome = true := by
  induction tags generalizing s executed i with
  | nil => exact absurd hi (Nat.not_lt_zero i)
  | cons child rest ih =>
    cases h with
    | @next _ _ _ u _ outcome _ _ hrun hgoes hrest =>
      cases i with
      | zero => exact ⟨child, outcome, [], s, u, rfl, .completed s, hrun, hgoes⟩
      | succ i =>
        obtain ⟨later, yielded, earlier, v, w, htag, hpass, hends, hlater⟩ :=
          ih hrest (Nat.lt_of_succ_lt_succ hi)
        exact ⟨later, yielded, _, v, w, htag, .next hrun hgoes hpass, hends, hlater⟩

/-- **A broken pass has a place where it broke off**: the tag there is executed where the pass over
those before it leads, and no pass leads beyond it. -/
theorem Pass.exists_of_broken (h : site.Pass tags s executed (.broken child outcome) t) :
    ∃ i earlier u, tags[i]? = some child ∧ site.Pass (tags.take i) s earlier .completed u ∧
      site.run child u = .done outcome t ∧ site.tag.goesOn child outcome = false ∧
      ∀ j others v, site.Pass (tags.take j) s others .completed v → j ≤ i := by
  induction tags generalizing s executed with
  | nil => cases h
  | cons first rest ih =>
    cases h with
    | broken hrun hbroken =>
      refine ⟨0, [], s, rfl, .completed s, hrun, hbroken, fun j others v hothers => ?_⟩
      cases j with
      | zero => exact Nat.le_refl 0
      | succ j =>
        cases hothers with
        | next hrun' hgoes _ =>
          obtain ⟨rfl, -⟩ := Ending.done.inj (hrun.symm.trans hrun')
          exact absurd (hgoes.symm.trans hbroken) (by decide)
    | next hrun hgoes hrest =>
      obtain ⟨i, earlier, u, htag, hpass, hends, hbroken, hfurthest⟩ := ih hrest
      refine ⟨i + 1, _, u, htag, .next hrun hgoes hpass, hends, hbroken,
        fun j others v hothers => ?_⟩
      cases j with
      | zero => exact Nat.zero_le _
      | succ j =>
        cases hothers with
        | next hrun' _ hrest' =>
          obtain ⟨-, rfl⟩ := Ending.done.inj (hrun.symm.trans hrun')
          exact Nat.succ_le_succ (hfurthest j _ v hrest')

/-- **Where a pass leads, the next tag may be cut off.** -/
theorem Pass.exists_cut {tag : Tag} {depth : Depth} {exec other : Tag → Depth → Run Outcome}
    {rounds : Nat} (h : Pass ⟨tag, depth, exec, rounds⟩ tags s executed .completed t)
    (hcut : other child depth t = .exhausted u)
    (hrest : ∀ c d v, ¬(c = child ∧ d = depth ∧ v = t) → other c d v = exec c d v)
    (after : List Tag) :
    ∃ executed c, Pass ⟨tag, depth, other, rounds⟩ (tags ++ child :: after) s executed
      (.cut c) u := by
  induction tags generalizing s executed with
  | nil =>
    cases h
    exact ⟨_, child, .cut hcut⟩
  | cons first rest ih =>
    cases h with
    | next hrun hgoes hpass =>
      obtain ⟨executed, c, hlater⟩ := ih hpass
      by_cases heq : first = child ∧ depth = depth ∧ s = t
      · obtain ⟨rfl, -, rfl⟩ := heq
        exact ⟨_, first, .cut hcut⟩
      · exact ⟨_, c, .next ((hrest first depth s heq).trans hrun) hgoes hlater⟩

/-- **With one execution cut off a pass is as it was or is cut off there.** -/
theorem Pass.same_or_cut {tag : Tag} {depth : Depth} {exec other : Tag → Depth → Run Outcome}
    {rounds : Nat} {outer : Depth} {v : Frame}
    (h : Pass ⟨tag, depth, exec, rounds⟩ tags s executed stop t)
    (hcut : other child outer v = .exhausted u)
    (hrest : ∀ c d w, ¬(c = child ∧ d = outer ∧ w = v) → other c d w = exec c d w) :
    Pass ⟨tag, depth, other, rounds⟩ tags s executed stop t ∨
      ∃ executed c, Pass ⟨tag, depth, other, rounds⟩ tags s executed (.cut c) u := by
  -- the first tag is the one that is cut off, or is executed as before
  have hfirst : ∀ (first : Tag) (w : Frame),
      other first depth w = exec first depth w ∨ other first depth w = .exhausted u := by
    intro first w
    by_cases heq : first = child ∧ depth = outer ∧ w = v
    · obtain ⟨rfl, rfl, rfl⟩ := heq
      exact .inr hcut
    · exact .inl (hrest first depth w heq)
  induction h with
  | completed s => exact .inl (.completed s)
  | @broken first rest s t outcome h hstop =>
    obtain hsame | hcutoff := hfirst first s
    · exact .inl (.broken (hsame.trans h) hstop)
    · exact .inr ⟨_, first, .cut hcutoff⟩
  | @cut first rest s t h =>
    obtain hsame | hcutoff := hfirst first s
    · exact .inl (.cut (hsame.trans h))
    · exact .inr ⟨_, first, .cut hcutoff⟩
  | @next first rest s t w outcome executed stop h hgoes hrest ih =>
    obtain hsame | hcutoff := hfirst first s
    · obtain hpass | ⟨executed, c, hpass⟩ := ih
      · exact .inl (.next (hsame.trans h) hgoes hpass)
      · exact .inr ⟨_, c, .next (hsame.trans h) hgoes hpass⟩
    · exact .inr ⟨_, first, .cut hcutoff⟩

/-- **What each tag of a pass carries on the pass carries on**, each being executed where the pass
over those before it leads. -/
theorem Pass.carries {P : Frame → Prop}
    (hrun : ∀ before child after earlier u, tags = before ++ child :: after →
      site.Pass before s earlier .completed u → P u →
      ∀ outcome v, site.run child u = .done outcome v → P v)
    (h : site.Pass tags s executed stop t) (hstop : ∀ child, stop ≠ .cut child) (hs : P s) :
    P t := by
  induction h with
  | completed s => exact hs
  | broken h hbroken => exact hrun [] _ _ [] _ rfl (.completed _) hs _ _ h
  | @cut child => exact absurd rfl (hstop child)
  | next h hgoes hrest ih =>
    refine ih (fun before child after earlier u htags hpass => ?_) hstop
      (hrun [] _ _ [] _ rfl (.completed _) hs _ _ h)
    exact hrun (_ :: before) child after _ u (congrArg (_ :: ·) htags) (.next h hgoes hpass)

end Lead

/-! ## What a pass determines -/

/-- Where no execution faults, there is a pass from every frame. -/
theorem exists_pass (hexec : ∀ child s fault t, site.run child s ≠ .failed fault t)
    (tags : List Tag) (s : Frame) : ∃ executed stop t, site.Pass tags s executed stop t := by
  induction tags generalizing s with
  | nil => exact ⟨[], .completed, s, .completed s⟩
  | cons child rest ih =>
    cases h : site.run child s with
    | done outcome t =>
      cases hgoes : site.tag.goesOn child outcome with
      | true =>
        obtain ⟨executed, stop, u, hrest⟩ := ih t
        exact ⟨_, stop, u, .next h hgoes hrest⟩
      | false => exact ⟨_, _, t, .broken h hgoes⟩
    | failed fault t => exact absurd h (hexec child s fault t)
    | exhausted t => exact ⟨_, _, t, .cut h⟩

/-- Whether a tag calls procedures. -/
def calls (site : Site) : Prop := site.tag.name = "call" ∨ site.tag.name = "cond_call"

theorem goesOn_of_not_calls (h : ¬site.calls) (child : Tag) (outcome : Outcome) :
    site.tag.goesOn child outcome = outcome.truthy := by
  obtain ⟨hcall, hcond⟩ := not_or.1 h
  simp [Tag.goesOn, hcall, hcond]

theorem goesOn_of_calls (h : site.calls) (child : Tag) (outcome : Outcome) :
    site.tag.goesOn child outcome = (outcome.truthy && !(child.name == "return")) := by
  obtain h | h := h
  · simp [Tag.goesOn, h]
  · simp [Tag.goesOn, h]

/-- **The search for a tag that yields false makes one pass.** -/
theorem firstFalsy_of_pass (hcalls : ¬site.calls) (h : site.Pass tags s executed stop t) :
    site.firstFalsy tags s =
      stop.elim (.done none t) (fun child _ => .done (some child) t) (.exhausted t) := by
  induction h with
  | completed s => rfl
  | broken h hstop =>
    rw [goesOn_of_not_calls hcalls] at hstop
    rw [firstFalsy, Run.bind_of_done h, hstop]
    rfl
  | cut h =>
    exact Run.bind_of_exhausted h _
  | next h hgoes _ ih =>
    rw [goesOn_of_not_calls hcalls] at hgoes
    rw [firstFalsy, Run.bind_of_done h, if_pos hgoes]
    exact ih

theorem completesOr_of_pass (hcalls : ¬site.calls) (h : site.Pass tags s executed stop t)
    (cause : Tag → Cause) :
    site.completesOr cause tags s =
      stop.elim (.done () t) (fun child _ => .failed (.of (cause child)) t) (.exhausted t) := by
  rw [completesOr, Run.bind_apply, firstFalsy_of_pass hcalls h]
  cases stop <;> rfl

/-- **The body of a procedure makes one pass.** -/
theorem body_of_pass (hcalls : site.calls) (h : site.Pass tags s executed stop t) :
    Runner.body site tags s =
      stop.elim (.done .ok t)
        (fun child outcome => .done (if child.name = "return" then outcome else .fail) t)
        (.exhausted t) := by
  induction h with
  | completed s => rfl
  | @broken child rest s t outcome h hstop =>
    rw [goesOn_of_calls hcalls] at hstop
    rw [Runner.body, Run.bind_of_done h]
    -- the body stops at a return whatever it yields, and at any other tag because it yields false
    by_cases hreturn : child.name = "return"
    · rw [if_pos hreturn, Stop.elim, if_pos hreturn]
      rfl
    · have hfalse : ¬outcome.truthy = true := by simpa [hreturn] using hstop
      rw [if_neg hreturn, if_neg hfalse, Stop.elim, if_neg hreturn]
      rfl
  | cut h =>
    exact Run.bind_of_exhausted h _
  | @next child rest s t u outcome executed stop h hgoes _ ih =>
    rw [goesOn_of_calls hcalls] at hgoes
    obtain ⟨htrue, hreturn⟩ := Bool.and_eq_true_iff.1 hgoes
    have hreturn : ¬child.name = "return" := by simpa using hreturn
    rw [Runner.body, Run.bind_of_done h, if_neg hreturn, if_pos htrue]
    exact ih

/-! ## Many passes -/

/-- **Passes of which there are no more than so many**, and not fewer unless
one of them is not completed. -/
structure PassesWithin (site : Site) (tags : List Tag) (rounds : Nat) (w : World)
    (passes : List (List (Tag × Option Outcome))) (stop : Stop) (w' : World) : Prop where
  chain : site.Passes tags w passes stop w'
  length_le : passes.length ≤ rounds
  length_eq : stop = .completed → passes.length = rounds

/-- A single pass. -/
theorem Pass.passesWithin {w w' : World} (h : site.Pass tags s executed stop t)
    (hs : s.world = w) (ht : t.world = w') :
    site.PassesWithin tags 1 w [executed] stop w' where
  chain := by
    rw [← ht]
    cases stop with
    | completed => exact .next hs h (.none t.world)
    | broken child outcome => exact .last hs h nofun
    | cut child => exact .last hs h nofun
  length_le := Nat.le_refl 1
  length_eq _ := rfl

/-- No pass at all. -/
theorem passesWithin_zero (w : World) : site.PassesWithin tags 0 w [] .completed w :=
  ⟨.none w, Nat.le_refl 0, fun _ => rfl⟩

/-- A pass that is not completed is the last one. -/
theorem Pass.passesWithin_succ {w w' : World} (h : site.Pass tags s executed stop t)
    (hs : s.world = w) (ht : t.world = w') (hstop : stop ≠ .completed) (rounds : Nat) :
    site.PassesWithin tags (rounds + 1) w [executed] stop w' where
  chain := by
    rw [← ht]
    exact .last hs h hstop
  length_le := Nat.succ_le_succ (Nat.zero_le rounds)
  length_eq hcompleted := absurd hcompleted hstop

/-- A completed pass is followed by the other ones. -/
theorem PassesWithin.cons {rounds : Nat} {w w' w'' : World}
    {passes : List (List (Tag × Option Outcome))}
    (hrest : site.PassesWithin tags rounds w' passes stop w'')
    (h : site.Pass tags s executed .completed t) (hs : s.world = w) (ht : t.world = w') :
    site.PassesWithin tags (rounds + 1) w (executed :: passes) stop w'' where
  chain := .next hs h (by
    rw [ht]
    exact hrest.chain)
  length_le := Nat.succ_le_succ hrest.length_le
  length_eq hcompleted := congrArg (· + 1) (hrest.length_eq hcompleted)

/-- **A round**: a computation that makes one pass, in the world it finds
and leaving the world as the pass has left it, and tells whether the pass
was completed. -/
def IsRound (site : Site) (tags : List Tag) (body : Run Bool) : Prop :=
  ∀ s, ∃ s' executed stop t u, s'.world = s.world ∧ site.Pass tags s' executed stop t ∧
    t.world = u.world ∧
    body s = stop.elim (.done true u) (fun _ _ => .done false u) (.exhausted u)

theorem isRound_completes (hexec : ∀ child s fault t, site.run child s ≠ .failed fault t)
    (hcalls : ¬site.calls) : site.IsRound site.tag.tags site.completes := by
  intro s
  obtain ⟨executed, stop, t, h⟩ := exists_pass hexec site.tag.tags s
  refine ⟨s, executed, stop, t, t, rfl, h, rfl, ?_⟩
  rw [completes, Run.bind_apply, firstFalsy_of_pass hcalls h]
  cases stop <;> rfl

/-- Local variables may be bound before a round. -/
theorem IsRound.of_change {body : Run Bool} (h : site.IsRound tags body) {f : Frame → Frame}
    (hf : ∀ s, (f s).world = s.world) : site.IsRound tags (Run.change f >>= fun _ => body) := by
  intro s
  obtain ⟨s', executed, stop, t, u, hs, hpass, ht, hbody⟩ := h (f s)
  exact ⟨s', executed, stop, t, u, hs.trans (hf s), hpass, ht, hbody⟩

/-- A round may work on a copy. -/
theorem IsRound.within {body : Run Bool} (h : site.IsRound tags body) (shared : Bool) :
    site.IsRound tags (Run.within shared body) := by
  cases shared with
  | true => exact h
  | false =>
    intro s
    obtain ⟨s', executed, stop, t, u, hs, hpass, ht, hbody⟩ := h s
    cases stop with
    | completed =>
      exact ⟨s', executed, _, t, { u with locals := s.locals }, hs, hpass, ht,
        Run.isolated_of_done hbody⟩
    | broken child outcome =>
      exact ⟨s', executed, _, t, { u with locals := s.locals }, hs, hpass, ht,
        Run.isolated_of_done hbody⟩
    | cut child =>
      exact ⟨s', executed, _, t, u, hs, hpass, ht, Run.isolated_of_exhausted hbody⟩

/-- **Rounds for the items of a list** make at most one pass for each. -/
theorem exists_passes_forEach {γ : Type} {body : γ → Run Bool}
    (h : ∀ item, site.IsRound tags (body item)) (items : List γ) (s : Frame) :
    ∃ passes stop u, site.PassesWithin tags items.length s.world passes stop u.world ∧
      Run.forEach body items s = stop.elim (.done () u) (fun _ _ => .done () u) (.exhausted u) := by
  induction items generalizing s with
  | nil => exact ⟨[], .completed, s, passesWithin_zero s.world, rfl⟩
  | cons item rest ih =>
    obtain ⟨s', executed, stop, t, u, hs, hpass, ht, hbody⟩ := h item s
    cases stop with
    | completed =>
      obtain ⟨passes, stop, v, hpasses, hrest⟩ := ih u
      refine ⟨executed :: passes, stop, v, hpasses.cons hpass hs ht, ?_⟩
      rw [Run.forEach, Run.bind_of_done hbody]
      exact hrest
    | broken child outcome =>
      refine ⟨[executed], _, u, hpass.passesWithin_succ hs ht nofun _, ?_⟩
      rw [Run.forEach, Run.bind_of_done hbody]
      rfl
    | cut child =>
      refine ⟨[executed], _, u, hpass.passesWithin_succ hs ht nofun _, ?_⟩
      rw [Run.forEach, Run.bind_of_exhausted hbody]
      rfl

/-- **Rounds over and over** end only after a pass that is not completed. -/
theorem exists_passes_repeatWhile {body : Run Bool} (h : site.IsRound tags body) (rounds : Nat)
    (s : Frame) :
    ∃ passes stop u, site.PassesWithin tags rounds s.world passes stop u.world ∧
      Run.repeatWhile body rounds s =
        stop.elim (.exhausted u) (fun _ _ => .done () u) (.exhausted u) := by
  induction rounds generalizing s with
  | zero => exact ⟨[], .completed, s, passesWithin_zero s.world, rfl⟩
  | succ rounds ih =>
    obtain ⟨s', executed, stop, t, u, hs, hpass, ht, hbody⟩ := h s
    cases stop with
    | completed =>
      obtain ⟨passes, stop, v, hpasses, hrest⟩ := ih u
      refine ⟨executed :: passes, stop, v, hpasses.cons hpass hs ht, ?_⟩
      rw [Run.repeatWhile, Run.bind_of_done hbody]
      exact hrest
    | broken child outcome =>
      refine ⟨[executed], _, u, hpass.passesWithin_succ hs ht nofun _, ?_⟩
      rw [Run.repeatWhile, Run.bind_of_done hbody]
      rfl
    | cut child =>
      refine ⟨[executed], _, u, hpass.passesWithin_succ hs ht nofun _, ?_⟩
      rw [Run.repeatWhile, Run.bind_of_exhausted hbody]
      rfl

end Site

end TagScript
