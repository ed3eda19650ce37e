import TagScript.Proofs.Nesting
import TagScript.Proofs.Leaf

/-!
# A run does what the executions inside it do

What an execution inside another one is has been said from the outside: were
it cut off, the other one would be cut off there. This module says that
nothing else is needed of the ways to execute tags. A runner that is given
another way, but the same answer to whatever it asks for, does the same; so
a run can be followed through the executions that it encloses, and what is
known of those alone – that none of them assigns some variable, say – is
known of the run.

A `Discipline` is a relation between frames to which a run keeps because all
executions inside it do: the boundary around each of them does, and so does
what its runner does by itself. Of a tag that does something itself this need
only be so if it ends well, for it has done nothing otherwise.
-/

namespace TagScript

namespace Run

variable {α β : Type} {exec : Tag → Depth → Run Outcome} {s : Frame}

/-! ## Computations that depend on what they ask for -/

/-- **A computation that heeds what it is answered** and nothing else of the
way to execute tags. -/
structure Heeds (x : (Tag → Depth → Run Outcome) → Run α) (exec : Tag → Depth → Run Outcome)
    (s : Frame) : Prop where
  /-- If one execution is cut off, the computation is cut off there or does
  not notice. -/
  cut : ∀ (child : Tag) (depth : Depth) (t u : Frame) (other : Tag → Depth → Run Outcome),
    other child depth t = .exhausted u →
    (∀ c d v, ¬(c = child ∧ d = depth ∧ v = t) → other c d v = exec c d v) →
    x other s = x exec s ∨ x other s = .exhausted u
  /-- If all it asks for is as it was, it does as it did. -/
  agree : ∀ other : Tag → Depth → Run Outcome,
    (∀ child depth t, Asks x exec s child depth t → other child depth t = exec child depth t) →
    x other s = x exec s

/-- What does not depend on the way to execute tags at all. -/
theorem Heeds.of_eq {x : (Tag → Depth → Run Outcome) → Run α} {ending : Ending α}
    (h : ∀ other, x other s = ending) : Heeds x exec s where
  cut _ _ _ _ other _ _ := .inl ((h other).trans (h exec).symm)
  agree other _ := (h other).trans (h exec).symm

/-- The execution of a tag asks for that. -/
theorem Heeds.of_execution (child : Tag) (depth : Depth) :
    Heeds (fun exec => exec child depth) exec s where
  cut c d t u other hcut hsame := by
    by_cases hasked : child = c ∧ depth = d ∧ s = t
    · obtain ⟨rfl, rfl, rfl⟩ := hasked
      exact .inr hcut
    · exact .inl (hsame child depth s hasked)
  agree other h := h child depth s fun _ _ hcut _ => hcut

/-- What the first part of a sequence asks for, the sequence asks for. -/
theorem asks_bind_left {x : (Tag → Depth → Run Outcome) → Run α}
    {f : (Tag → Depth → Run Outcome) → α → Run β} {child : Tag} {depth : Depth} {t : Frame}
    (h : Asks x exec s child depth t) :
    Asks (fun exec => x exec >>= f exec) exec s child depth t :=
  fun u other hcut hsame => bind_of_exhausted (h u other hcut hsame) _

/-- What the second part asks for where the first part leads, the sequence
asks for, too: with that execution cut off, the first part is cut off there
already or leads to the same frame as before. -/
theorem asks_bind_right {x : (Tag → Depth → Run Outcome) → Run α}
    {f : (Tag → Depth → Run Outcome) → α → Run β} (hx : Heeds x exec s) {a : α} {v : Frame}
    (hdone : x exec s = .done a v) {child : Tag} {depth : Depth} {t : Frame}
    (h : Asks (fun exec => f exec a) exec v child depth t) :
    Asks (fun exec => x exec >>= f exec) exec s child depth t := by
  intro u other hcut hsame
  obtain hunnoticed | hcutoff := hx.cut child depth t u other hcut hsame
  · exact (bind_of_done (hunnoticed.trans hdone) _).trans (h u other hcut hsame)
  · exact bind_of_exhausted hcutoff _

/-- **Sequences heed what they are answered if their parts do.** -/
theorem Heeds.bind {x : (Tag → Depth → Run Outcome) → Run α}
    {f : (Tag → Depth → Run Outcome) → α → Run β} (hx : Heeds x exec s)
    (hf : ∀ a t, x exec s = .done a t → Heeds (fun exec => f exec a) exec t) :
    Heeds (fun exec => x exec >>= f exec) exec s where
  cut child depth t u other hcut hsame := by
    obtain hunnoticed | hcutoff := hx.cut child depth t u other hcut hsame
    · cases hdone : x exec s with
      | done a v =>
        rw [bind_of_done (hunnoticed.trans hdone), bind_of_done hdone]
        exact (hf a v hdone).cut child depth t u other hcut hsame
      | failed fault v =>
        exact .inl ((bind_of_failed (hunnoticed.trans hdone) _).trans
          (bind_of_failed hdone _).symm)
      | exhausted v =>
        exact .inl ((bind_of_exhausted (hunnoticed.trans hdone) _).trans
          (bind_of_exhausted hdone _).symm)
    · exact .inr (bind_of_exhausted hcutoff _)
  agree other h := by
    have hfirst : x other s = x exec s :=
      hx.agree other fun child depth t hasked => h child depth t (asks_bind_left hasked)
    cases hdone : x exec s with
    | done a v =>
      rw [bind_of_done (hfirst.trans hdone), bind_of_done hdone]
      exact (hf a v hdone).agree other fun child depth t hasked =>
        h child depth t (asks_bind_right hx hdone hasked)
    | failed fault v => rw [bind_of_failed (hfirst.trans hdone), bind_of_failed hdone]
    | exhausted v => rw [bind_of_exhausted (hfirst.trans hdone), bind_of_exhausted hdone]

/-- So does what is done on copies. -/
theorem Heeds.isolated {x : (Tag → Depth → Run Outcome) → Run α} (hx : Heeds x exec s) :
    Heeds (fun exec => (x exec).isolated) exec s where
  cut child depth t u other hcut hsame := by
    obtain hunnoticed | hcutoff := hx.cut child depth t u other hcut hsame
    · exact .inl (by rw [Run.isolated, Run.isolated, hunnoticed])
    · exact .inr (isolated_of_exhausted hcutoff)
  agree other h := by
    have hsame : x other s = x exec s := hx.agree other fun child depth t hasked =>
      h child depth t fun u other hcut hsame => isolated_of_exhausted (hasked u other hcut hsame)
    rw [Run.isolated, Run.isolated, hsame]

/-- Two frames that are not a given one. -/
theorem exists_frames_ne (s : Frame) : ∃ t u : Frame, t ≠ s ∧ u ≠ s ∧ t ≠ u := by
  have hne : ∀ m n, m ≠ n →
      ({ s with world := { s.world with handlers := s.world.handlers + m } } : Frame) ≠
        { s with world := { s.world with handlers := s.world.handlers + n } } := by
    intro m n hmn h
    exact hmn (Nat.add_left_cancel (congrArg (fun t : Frame => t.world.handlers) h))
  exact ⟨_, _, hne 1 0 (by decide), hne 2 0 (by decide), hne 1 2 (by decide)⟩

/-- **What is asked for before the run is cut off somewhere** is asked for in
the run itself. -/
theorem asks_of_cut {x : (Tag → Depth → Run Outcome) → Run α} (hx : ∀ other, Heeds x other s)
    {cut : Tag → Depth → Run Outcome} {child : Tag} {depth : Depth} {t u : Frame}
    (hcut : cut child depth t = .exhausted u)
    (hsame : ∀ c d v, ¬(c = child ∧ d = depth ∧ v = t) → cut c d v = exec c d v)
    {inner : Tag} {outer : Depth} {v : Frame}
    (hne : ¬(inner = child ∧ outer = depth ∧ v = t)) (h : Asks x cut s inner outer v) :
    Asks x exec s inner outer v := by
  classical
  -- cut off elsewhere than there, it is so in both
  have helsewhere : ∀ w other, w ≠ u → other inner outer v = .exhausted w →
      (∀ c d r, ¬(c = inner ∧ d = outer ∧ r = v) → other c d r = exec c d r) →
      x other s = .exhausted w := by
    intro w other hw hother hrest
    let both : Tag → Depth → Run Outcome := fun c d r =>
      if c = child ∧ d = depth ∧ r = t then .exhausted u else other c d r
    have hboth : x both s = .exhausted w := by
      refine h w both ((if_neg hne).trans hother) fun c d r hcdr => ?_
      by_cases heq : c = child ∧ d = depth ∧ r = t
      · obtain ⟨rfl, rfl, rfl⟩ := heq
        exact (if_pos ⟨rfl, rfl, rfl⟩).trans hcut.symm
      · exact ((if_neg heq).trans (hrest c d r hcdr)).trans (hsame c d r heq).symm
    obtain hunnoticed | hcutoff := (hx other).cut child depth t u both (if_pos ⟨rfl, rfl, rfl⟩)
      fun _ _ _ hcdr => if_neg hcdr
    · exact hunnoticed.symm.trans hboth
    · exact absurd (Ending.exhausted.inj (hboth.symm.trans hcutoff)) hw
  intro w other hother hrest
  by_cases hw : w = u
  · subst hw
    -- unless it is so in that frame, it is so in each of two others
    have hlike : ∀ r, r ≠ w → x other s = .exhausted r ∨ x other s = .exhausted w := by
      intro r hr
      let like : Tag → Depth → Run Outcome := fun c d q =>
        if c = inner ∧ d = outer ∧ q = v then .exhausted r else exec c d q
      have hrun : x like s = .exhausted r :=
        helsewhere r like hr (if_pos ⟨rfl, rfl, rfl⟩) fun _ _ _ hcdr => if_neg hcdr
      exact ((hx like).cut inner outer v w other hother fun c d q hcdr =>
        (hrest c d q hcdr).trans (if_neg hcdr).symm).imp_left fun heq => heq.trans hrun
    obtain ⟨first, second, hfirst, hsecond, hdiffer⟩ := exists_frames_ne w
    refine (hlike first hfirst).resolve_left fun heq => ?_
    obtain heq' | heq' := hlike second hsecond
    · exact hdiffer (Ending.exhausted.inj (heq.symm.trans heq'))
    · exact hfirst (Ending.exhausted.inj (heq.symm.trans heq'))
  · exact helsewhere w other hw hother hrest

end Run

/-- The frame in which the runner of its tag begins. -/
abbrev Execution.start (x : Execution) : Frame := x.frame.begin x.tag x.outer

/-- It asks for the execution of a tag. -/
abbrev Execution.AsksFor (limit : Option Nat) (x : Execution) (child : Tag) (depth : Depth)
    (t : Frame) : Prop :=
  Run.Asks (fun exec => (Engine.standard limit).dispatch ⟨x.tag, x.outer + 1, exec, x.means⟩)
    ((Engine.standard limit).execute x.means) (x.frame.enter x.tag (x.outer + 1)) child depth t

/-- What the runner of its tag comes to. -/
abbrev Engine.insideOf (e : Engine) (x : Execution) : Ending Outcome :=
  e.inside x.means x.tag x.outer x.frame

/-- **The logic of heeding what one is answered.** -/
def heedingLogic (tag : Tag) (exec : Tag → Depth → Run Outcome) :
    Logic tag (Tag → Depth → Run Outcome) where
  holds x s := Run.Heeds x exec s
  result h := .of_eq h
  act h _ := .of_eq h
  fault h _ := .of_eq h
  waits h _ := .of_eq h
  bind hx hf := hx.bind (hf exec)
  copied hx := hx.isolated

/-- **The logic of doing the same** with two ways to execute tags. -/
def samenessLogic (tag : Tag) : Logic tag Bool where
  holds x s := x true s = x false s
  result h := (h true).trans (h false).symm
  act h _ := (h true).trans (h false).symm
  fault h _ := (h true).trans (h false).symm
  waits h _ := (h true).trans (h false).symm
  bind {α β x f s} hx hf := by
    show (x true >>= f true) s = (x false >>= f false) s
    cases h : x true s with
    | done a t =>
      rw [Run.bind_of_done h, Run.bind_of_done (hx.symm.trans h)]
      exact hf true a t h
    | failed fault t => rw [Run.bind_of_failed h, Run.bind_of_failed (hx.symm.trans h)]
    | exhausted t => rw [Run.bind_of_exhausted h, Run.bind_of_exhausted (hx.symm.trans h)]
  copied {α x s} hx := by
    show (x true).isolated s = (x false).isolated s
    rw [Run.isolated, Run.isolated, hx]

namespace Engine

variable {limit : Option Nat}

/-- **A runner does what the executions that it asks for do.** -/
theorem heeds_runner {tag : Tag} {runner : Runner} (hrunner : (tag.name, runner) ∈ builtins)
    (depth : Depth) (exec : Tag → Depth → Run Outcome) (rounds : Nat) (s : Frame) :
    Run.Heeds (fun exec => runner ⟨tag, depth, exec, rounds⟩) exec s :=
  @Logic.holds_runner_of_exhausted tag _ (heedingLogic tag exec) depth id runner hrunner s
    (fun child _ _ => .of_execution child depth) rounds fun _ => .of_eq fun _ => rfl

/-- **A tag is dispatched as the executions that it asks for come out.** -/
theorem heeds_dispatch (tag : Tag) (depth : Depth) (exec : Tag → Depth → Run Outcome)
    (rounds : Nat) (s : Frame) :
    Run.Heeds (fun exec => (standard limit).dispatch ⟨tag, depth, exec, rounds⟩) exec s := by
  obtain hwithin | ⟨d, hlimit, hexceeds⟩ := (standard limit).isWithin_or_exceeds depth
  · cases hget : (standard limit).runners.get? tag.name with
    | none => exact .of_eq fun other => congrFun (dispatch_of_unknown hwithin hget other rounds) s
    | some runner =>
      have hrunner := heeds_runner (mem_builtins_of_get? hget) depth exec rounds
        (s.invoke tag depth)
      simp only [dispatch_of_runner hwithin hget]
      exact ⟨hrunner.cut, hrunner.agree⟩
  · exact .of_eq fun other => congrFun (dispatch_of_exceeds hlimit hexceeds other rounds) s

/-- What stands for the executions that are not asked for may be chosen
freely. -/
theorem exists_exec_of_asks (x : Execution) (cut : Frame → Ending Outcome)
    {P : Tag → Depth → Frame → Ending Outcome → Prop}
    (hcut : ∀ child depth t, P child depth t (cut t))
    (hasked : ∀ child depth t, x.AsksFor limit child depth t →
      P child depth t ((standard limit).execute x.means child depth t)) :
    ∃ exec : Tag → Depth → Run Outcome, (∀ child depth t, P child depth t (exec child depth t)) ∧
      (standard limit).dispatch ⟨x.tag, x.outer + 1, exec, x.means⟩
          (x.frame.enter x.tag (x.outer + 1)) =
        (standard limit).insideOf x := by
  classical
  refine ⟨fun child depth t =>
    if x.AsksFor limit child depth t then (standard limit).execute x.means child depth t else cut t,
    fun child depth t => ?_, ?_⟩
  · dsimp only
    split
    · next h => exact hasked child depth t h
    · exact hcut child depth t
  · exact (heeds_dispatch x.tag (x.outer + 1) ((standard limit).execute x.means) x.means _).agree _
      fun child depth t h => if_pos h

/-- What is asked for is an execution inside the one that asks, unless no
means are left. -/
theorem of_asksFor {x : Execution} (P : Tag → Depth → Frame → Ending Outcome → Prop)
    (hnone : x.means = 0 → ∀ child depth t, P child depth t (.exhausted t))
    (hasked : ∀ y, (standard limit).Executes x y →
      P y.tag y.outer y.frame ((standard limit).ending y)) (child : Tag) (depth : Depth) (t : Frame)
    (h : x.AsksFor limit child depth t) :
    P child depth t ((standard limit).execute x.means child depth t) := by
  cases hmeans : x.means with
  | zero => exact hnone hmeans child depth t
  | succ means => exact hasked ⟨child, depth, t, means⟩ ⟨hmeans, h⟩

/-- So they may in the run that is cut off where one of the executions asked
for begins. -/
theorem exists_exec_of_executes {x y : Execution}
    {P : Tag → Depth → Frame → Ending Outcome → Prop} (h : (standard limit).Executes x y)
    (hcut : ∀ child depth t, P child depth t (.exhausted t))
    (hasked : ∀ child depth t, x.AsksFor limit child depth t →
      P child depth t ((standard limit).execute x.means child depth t)) :
    ∃ exec : Tag → Depth → Run Outcome, (∀ child depth t, P child depth t (exec child depth t)) ∧
      (standard limit).dispatch ⟨x.tag, x.outer + 1, exec, x.means⟩
          (x.frame.enter x.tag (x.outer + 1)) =
        .exhausted y.frame := by
  classical
  -- the run that is cut off where that execution begins, and the same run with all cut off that
  -- the real run does not ask for
  let cut : Tag → Depth → Run Outcome := fun child depth t =>
    if child = y.tag ∧ depth = y.outer ∧ t = y.frame then .exhausted t
    else (standard limit).execute x.means child depth t
  let exec : Tag → Depth → Run Outcome := fun child depth t =>
    if x.AsksFor limit child depth t ∧ ¬(child = y.tag ∧ depth = y.outer ∧ t = y.frame) then
      (standard limit).execute x.means child depth t
    else .exhausted t
  refine ⟨exec, fun child depth t => ?_, ?_⟩
  · dsimp only [exec]
    split
    · next hreal => exact hasked child depth t hreal.1
    · exact hcut child depth t
  · have hends : (standard limit).dispatch ⟨x.tag, x.outer + 1, cut, x.means⟩
        (x.frame.enter x.tag (x.outer + 1)) = .exhausted y.frame :=
      h.asks y.frame cut (if_pos ⟨rfl, rfl, rfl⟩) fun _ _ _ hne => if_neg hne
    refine ((heeds_dispatch x.tag (x.outer + 1) cut x.means _).agree exec
      fun child depth t hasks => ?_).trans hends
    by_cases heq : child = y.tag ∧ depth = y.outer ∧ t = y.frame
    · exact (if_neg fun hreal => hreal.2 heq).trans (if_pos heq).symm
    · have hreal : x.AsksFor limit child depth t :=
        Run.asks_of_cut (fun other => heeds_dispatch x.tag (x.outer + 1) other x.means _)
          (if_pos ⟨rfl, rfl, rfl⟩) (fun _ _ _ hne => if_neg hne) heq hasks
      exact (if_pos ⟨hreal, heq⟩).trans (if_neg heq).symm

/-- **What an execution asks for is a tag that its own tag leads to**, one
deeper. With any other execution cut off, the runner does the same. -/
theorem Executes.leads_and_outer_eq {x y : Execution} (h : (standard limit).Executes x y) :
    x.tag.Leads x.start y.tag ∧ y.outer = x.outer + 1 := by
  classical
  refine Classical.byContradiction fun hnot => ?_
  obtain ⟨u, hu⟩ := exists_frame_ne ((standard limit).insideOf x).after
  let exec : Tag → Depth → Run Outcome := (standard limit).execute x.means
  let other : Tag → Depth → Run Outcome := fun c d v =>
    if c = y.tag ∧ d = y.outer ∧ v = y.frame then .exhausted u else exec c d v
  have hcut : (standard limit).dispatch ⟨x.tag, x.outer + 1, other, x.means⟩
      (x.frame.enter x.tag (x.outer + 1)) = .exhausted u :=
    h.asks u other (if_pos ⟨rfl, rfl, rfl⟩) fun _ _ _ hne => if_neg hne
  have hsame : (standard limit).insideOf x =
      (standard limit).dispatch ⟨x.tag, x.outer + 1, other, x.means⟩
        (x.frame.enter x.tag (x.outer + 1)) := by
    show (standard limit).dispatch ⟨x.tag, x.outer + 1, exec, x.means⟩ _ = _
    obtain hwithin | ⟨d, hlimit, hexceeds⟩ := (standard limit).isWithin_or_exceeds (x.outer + 1)
    · cases hget : (standard limit).runners.get? x.tag.name with
      | none => rw [dispatch_of_unknown hwithin hget, dispatch_of_unknown hwithin hget]
      | some runner =>
        rw [dispatch_of_runner hwithin hget, dispatch_of_runner hwithin hget]
        exact @Logic.holds_runner_of_exhausted x.tag Bool (samenessLogic x.tag) (x.outer + 1)
          (fun | true => exec | false => other) runner (mem_builtins_of_get? hget) x.start
          (fun child hchild _ => (if_neg fun ⟨htag, houter, _⟩ =>
            hnot ⟨htag ▸ hchild, houter.symm⟩).symm) x.means fun _ => rfl
    · rw [dispatch_of_exceeds hlimit hexceeds, dispatch_of_exceeds hlimit hexceeds]
  exact hu (congrArg Ending.after (hsame.trans hcut)).symm

theorem Executes.leads {x y : Execution} (h : (standard limit).Executes x y) :
    x.tag.Leads x.start y.tag := h.leads_and_outer_eq.1

theorem Executes.outer_eq {x y : Execution} (h : (standard limit).Executes x y) :
    y.outer = x.outer + 1 := h.leads_and_outer_eq.2

/-- A tag executes the tags inside it, unless it goes on elsewhere. -/
theorem Executes.mem_tags {x y : Execution} (h : (standard limit).Executes x y)
    (hname : x.tag.name ∉ "call" :: "cond_call" :: "module" :: assertingNames) :
    y.tag ∈ x.tag.tags := by
  simp only [List.mem_cons, not_or] at hname
  obtain ⟨hcall, hcondition, hmodule, hasserts⟩ := hname
  cases h.leads with
  | inside h => exact h
  | assertion h _ => exact absurd h (by simpa using hasserts)
  | body h _ _ => exact absurd h (not_or.2 ⟨hcall, hcondition⟩)
  | script h => exact absurd h hmodule

/-- With no tags inside it, it executes nothing. -/
theorem not_executes_of_tags_eq_nil {x y : Execution}
    (hname : x.tag.name ∉ "call" :: "cond_call" :: "module" :: assertingNames)
    (htags : x.tag.tags = []) : ¬(standard limit).Executes x y := fun h =>
  List.not_mem_nil (htags ▸ h.mem_tags hname)

/-- What an execution inside another one encloses, the other one does. -/
theorem Executes.encloses {e : Engine} {x y z : Execution} {names : List String}
    (h : e.Executes x y) (hz : e.Encloses y names z) : e.Encloses x (x.tag.name :: names) z := by
  induction hz with
  | outermost => exact .inner .outermost h
  | inner _ hz ih => exact ih.inner hz

/-- **Induction on executions**: what is so of an execution if it is so of
those that it asks for is so of all that a run encloses. -/
theorem Encloses.induction {e : Engine} {first : Execution} {P : Execution → Prop}
    (step : ∀ names x, e.Encloses first names x → (∀ y, e.Executes x y → P y) → P x)
    {names : List String} {x : Execution} (hx : e.Encloses first names x) : P x := by
  -- what an execution asks for has one of its means less
  generalize hmeans : x.means = means
  induction means generalizing names x with
  | zero =>
    refine step names x hx fun y hy => ?_
    exact absurd (hmeans.symm.trans hy.means) (Nat.succ_ne_zero _).symm
  | succ means ih =>
    refine step names x hx fun y hy => ih (hx.inner hy) ?_
    exact Nat.succ.inj (hy.means.symm.trans hmeans)

/-! ## Disciplines -/

/-- **A relation that an execution keeps to by itself**: in all that its boundary and
its runner do apart from executing further tags. -/
structure Abides (limit : Option Nat) (y : Execution) (R : Frame → Frame → Prop) : Prop
    extends Course R where
  /-- On the way into the tag, -/
  entered : R y.frame (y.frame.enter y.tag (y.outer + 1))
  /-- to its runner, -/
  invoked (s : Frame) : R s (s.invoke y.tag (y.outer + 1))
  /-- in the report of its fault, -/
  faulted {fault : Fault} {u : Frame} (h : (standard limit).insideOf y = .failed fault u) :
    R u (u.fault y.tag (y.outer + 1) (fault.chargedTo y.tag.span))
  /-- and on the way out of it. -/
  left (s : Frame) (outcome : Outcome) : R s (s.leave y.tag (y.outer + 1) outcome)
  /-- Locks do not matter. -/
  locked (s : Frame) (locks : Locks) : R s { s with world := { s.world with locks } }
  /-- So do the acts of a tag that only executes others, -/
  act (hname : y.tag.name ∉ leafNames) {s t : Frame} (h : Act y.tag s t) : R s t
  /-- what another one does if it ends well, -/
  deed {outcome : Outcome} {u : Frame} (hdone : (standard limit).insideOf y = .done outcome u)
    {s t : Frame} (h : y.tag.Deed y.start s t) : R s t
  /-- and the start of a program that never ends. -/
  started (s : Frame) (program : String) (arguments : List String) :
    R s { s with world := s.world.start program arguments }

namespace Abides

variable {y : Execution} {R : Frame → Frame → Prop} (d : Abides limit y R)
include d

/-- What acts last keeps to it if its deed does in case there is one. -/
theorem actsLast {x : Run Outcome} {D : Frame → Frame → Prop} {s : Frame}
    (h : x.ActsLast D s) (hdeed : ∀ outcome t, x s = .done outcome t → D s t → R s t) :
    R s (x s).after := by
  obtain ⟨outcome, t, hdone, hD⟩ | ⟨fault, locks, hfailed⟩ := h
  · rw [hdone]
    exact hdeed outcome t hdone hD
  · rw [hfailed]
    exact d.locked s locks

/-- So does what waits in the end. -/
theorem waitsLast {x : Run Outcome} {s : Frame} (h : x.WaitsLast s) : R s (x s).after := by
  obtain ⟨program, arguments, _, hwaits, _, rfl⟩ := h
  rw [hwaits]
  exact d.started s program arguments

/-- **The runner of a tag that does something itself** keeps to it. -/
theorem leaf {runner : Runner}
    (hrunner : (y.tag.name, runner) ∈ builtins) (hname : y.tag.name ∈ leafNames)
    {exec : Tag → Depth → Run Outcome}
    (hexec : ∀ child t, R t (exec child (y.outer + 1) t).after)
    (hruns : ∀ outcome u, runner ⟨y.tag, y.outer + 1, exec, y.means⟩ y.start = .done outcome u →
      (standard limit).insideOf y = .done outcome u) :
    R y.start
      (runner ⟨y.tag, y.outer + 1, exec, y.means⟩ y.start).after := by
  cases hoperand : y.tag.operand? y.start with
  | none =>
    obtain hacts | hwaits := @Runner.actsLast_or_waitsLast_of_operand?
      ⟨y.tag, y.outer + 1, exec, y.means⟩ _ runner hrunner hname hoperand
    · exact d.actsLast hacts fun outcome t hdone hD => d.deed (hruns _ _ hdone) hD
    · exact d.waitsLast hwaits
  | some child =>
    have hacts : Run.ActsAfter (exec child (y.outer + 1))
        (y.tag.Deed y.start) (runner ⟨y.tag, y.outer + 1, exec, y.means⟩)
        y.start :=
      @Runner.actsAfter_of_operand? ⟨y.tag, y.outer + 1, exec, y.means⟩ _ child runner hrunner
        hoperand
    obtain ⟨fault, hfailed⟩ | ⟨f, hsplit, hlast⟩ := hacts
    · rw [hfailed]
      exact d.refl _
    have hchild := hexec child y.start
    rw [hsplit]
    cases hoperands : exec child (y.outer + 1) y.start with
    | done value t =>
      rw [hoperands] at hchild
      rw [Run.bind_of_done hoperands]
      refine d.trans hchild (d.actsLast (hlast value t) fun outcome u hdone hD => ?_)
      have hends : runner ⟨y.tag, y.outer + 1, exec, y.means⟩ y.start =
          .done outcome u :=
        hsplit.trans ((Run.bind_of_done hoperands f).trans hdone)
      exact d.deed (hruns _ _ hends) hD
    | failed fault t =>
      rw [hoperands] at hchild
      rw [Run.bind_of_failed hoperands]
      exact hchild
    | exhausted t =>
      rw [hoperands] at hchild
      rw [Run.bind_of_exhausted hoperands]
      exact hchild

/-- **The body of an execution** keeps to it, however tags are executed, if
their executions do, and if it does not end well unless it does so really. -/
theorem body {exec : Tag → Depth → Run Outcome}
    (hexec : ∀ child depth t, R t (exec child depth t).after)
    (hruns : ∀ outcome u, (standard limit).dispatch ⟨y.tag, y.outer + 1, exec, y.means⟩
        (y.frame.enter y.tag (y.outer + 1)) = .done outcome u →
      (standard limit).insideOf y = .done outcome u) :
    R y.frame ((standard limit).dispatch ⟨y.tag, y.outer + 1, exec, y.means⟩
      (y.frame.enter y.tag (y.outer + 1))).after := by
  refine d.trans d.entered ?_
  obtain hwithin | ⟨n, hlimit, hexceeds⟩ := (standard limit).isWithin_or_exceeds (y.outer + 1)
  · cases hget : (standard limit).runners.get? y.tag.name with
    | none =>
      rw [dispatch_of_unknown hwithin hget]
      exact d.refl _
    | some runner =>
      have hrunner : (y.tag.name, runner) ∈ builtins := mem_builtins_of_get? hget
      rw [dispatch_of_runner hwithin hget] at hruns ⊢
      refine d.trans (d.invoked _) ?_
      by_cases hname : y.tag.name ∈ leafNames
      · exact d.leaf hrunner hname (fun child t => hexec child _ t) hruns
      · exact (d.toCourse.runner (F := fun _ => True) (fun _ _ => d.act hname)
          (fun _ _ => trivial) y.means hrunner _
          fun child _ t => ⟨hexec child _ t, fun _ _ _ => trivial⟩).1
  · rw [dispatch_of_exceeds hlimit hexceeds]
    exact d.refl _

/-- **An execution keeps to it up to where its runner ends**, if those that it
asks for do. -/
theorem inside
    (hasked : ∀ z, (standard limit).Executes y z → R z.frame ((standard limit).ending z).after) :
    R y.frame ((standard limit).insideOf y).after := by
  obtain ⟨exec, hexec, hruns⟩ := @exists_exec_of_asks limit y Ending.exhausted
    (fun _ _ t ending => R t ending.after) (fun _ _ t => d.refl t)
    (of_asksFor (fun _ _ t ending => R t ending.after) (fun _ _ _ t => d.refl t) hasked)
  have hbody := d.body hexec fun outcome u hdone => hruns.symm.trans hdone
  rwa [hruns] at hbody

/-- **An execution keeps to it** if those that it asks for do. -/
theorem ending
    (hasked : ∀ z, (standard limit).Executes y z → R z.frame ((standard limit).ending z).after) :
    R y.frame ((standard limit).ending y).after := by
  have hin := d.inside hasked
  cases hinside : (standard limit).insideOf y with
  | done outcome u =>
    rw [hinside] at hin
    have hending : (standard limit).ending y = _ := boundary_of_done hinside
    rw [hending]
    exact d.trans hin (d.left u outcome)
  | failed fault u =>
    rw [hinside] at hin
    have hending : (standard limit).ending y = _ := boundary_of_failed hinside
    rw [hending]
    exact d.trans (d.trans hin (d.faulted hinside)) (d.left _ .fail)
  | exhausted u =>
    rw [hinside] at hin
    have hending : (standard limit).ending y = _ := boundary_of_exhausted hinside
    rw [hending]
    exact hin

end Abides

/-- **A relation that a run keeps to through all executions inside it.** -/
structure Discipline (limit : Option Nat) (first : Execution) (R : Frame → Frame → Prop) : Prop
    extends Course R where
  /-- On the way into a tag, -/
  entered (s : Frame) (tag : Tag) (depth : Depth) : R s (s.enter tag depth)
  /-- to its runner, -/
  invoked (s : Frame) (tag : Tag) (depth : Depth) : R s (s.invoke tag depth)
  /-- in the report of its fault, -/
  faulted {names : List String} {y : Execution} {fault : Fault} {u : Frame}
    (hy : (standard limit).Encloses first names y)
    (h : (standard limit).insideOf y = .failed fault u) :
    R u (u.fault y.tag (y.outer + 1) (fault.chargedTo y.tag.span))
  /-- and on the way out of it. -/
  left (s : Frame) (tag : Tag) (depth : Depth) (outcome : Outcome) : R s (s.leave tag depth outcome)
  /-- Locks do not matter. -/
  locked (s : Frame) (locks : Locks) : R s { s with world := { s.world with locks } }
  /-- So do the acts of tags that only execute others, -/
  act {names : List String} {y : Execution} (hy : (standard limit).Encloses first names y)
    (hname : y.tag.name ∉ leafNames) {s t : Frame} (h : Act y.tag s t) : R s t
  /-- what others do if they end well, -/
  deed {names : List String} {y : Execution} (hy : (standard limit).Encloses first names y)
    {outcome : Outcome} {u : Frame}
    (hdone : (standard limit).insideOf y = .done outcome u)
    {s t : Frame} (h : y.tag.Deed y.start s t) : R s t
  /-- and the start of a program that never ends. -/
  started (s : Frame) (program : String) (arguments : List String) :
    R s { s with world := s.world.start program arguments }

namespace Discipline

variable {first : Execution} {R : Frame → Frame → Prop} (d : Discipline limit first R)
include d

/-- Each execution inside the run keeps to it by itself. -/
theorem abides {names : List String} {y : Execution}
    (hy : (standard limit).Encloses first names y) : Abides limit y R where
  toCourse := d.toCourse
  entered := d.entered _ _ _
  invoked s := d.invoked s _ _
  faulted := d.faulted hy
  left s := d.left s _ _
  locked := d.locked
  act := d.act hy
  deed := d.deed hy
  started := d.started

/-- **A run keeps to a discipline**, and so do all executions inside it. -/
theorem ending {names : List String} {y : Execution}
    (hy : (standard limit).Encloses first names y) :
    R y.frame ((standard limit).ending y).after :=
  Encloses.induction (P := fun y => R y.frame ((standard limit).ending y).after)
    (fun _ _ hy hasked => (d.abides hy).ending hasked) hy

/-- It does so up to where its runner ends. -/
theorem inside {names : List String} {y : Execution}
    (hy : (standard limit).Encloses first names y) :
    R y.frame ((standard limit).insideOf y).after :=
  (d.abides hy).inside fun _ hz => d.ending (hy.inner hz)

/-- **It does so up to where an execution inside it begins.** -/
theorem reaches {names : List String} {y z : Execution}
    (hy : (standard limit).Encloses first names y) (hz : (standard limit).Executes y z) :
    R y.frame z.frame := by
  obtain ⟨exec, hexec, hruns⟩ := @exists_exec_of_executes limit y z
    (fun _ _ t ending => R t ending.after) hz (fun _ _ t => d.refl t)
    (of_asksFor (fun _ _ t ending => R t ending.after) (fun _ _ _ t => d.refl t)
      fun _ hasked => d.ending (hy.inner hasked))
  have hbody := (d.abides hy).body hexec fun outcome u hdone => by
    rw [hruns] at hdone
    cases hdone
  rwa [hruns] at hbody

/-- **All executions inside a run** begin in frames to which it has kept. -/
theorem frames {names : List String} {y : Execution}
    (hy : (standard limit).Encloses first names y) : R first.frame y.frame := by
  induction hy with
  | outermost => exact d.refl _
  | inner hx hz ih => exact d.trans ih (d.reaches hx hz)

end Discipline

end Engine

end TagScript
