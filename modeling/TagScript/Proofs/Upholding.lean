import TagScript.Proofs.Asking

/-!
# What is upheld in a scope

A `Discipline` follows a relation through all executions inside a run. That
is too much to ask for a property of local variables, since most blocks work
on a copy of them and whatever is done to a copy is undone. This module
follows such a property through one scope: from the frame in which a runner
begins to the frames in which it has other tags executed, and to the frame
in which it ends. What it needs to know of these other tags is what becomes
of the property where they are asked for, and of no other.

A run that is cut off may be cut off anywhere, also on a copy, so nothing is
said of the local variables there.
-/

namespace TagScript

/-- **An ending whose local variables have a property**, unless it is cut
off. -/
def Ending.Reaches {α : Type} (I : Vars → Prop) : Ending α → Prop
  | .done _ t | .failed _ t => I t.locals
  | .exhausted _ => True

theorem Ending.Reaches.mono {α : Type} {I J : Vars → Prop} {ending : Ending α}
    (h : ending.Reaches I) (hIJ : ∀ locals, I locals → J locals) : ending.Reaches J := by
  cases ending with
  | done a t => exact hIJ t.locals h
  | failed fault t => exact hIJ t.locals h
  | exhausted t => trivial

namespace Run

variable {α β : Type} {exec : Tag → Depth → Run Outcome} {s t : Frame} {child : Tag}
  {depth : Depth}

/-! ## What is asked for -/

/-- An execution that is asked for can be cut off alone, and in any frame. -/
theorem Asks.exists_cut {x : (Tag → Depth → Run Outcome) → Run α}
    (h : Asks x exec s child depth t) (u : Frame) :
    ∃ other : Tag → Depth → Run Outcome, x other s = .exhausted u ∧
      ∀ c d v, ¬(c = child ∧ d = depth ∧ v = t) → other c d v = exec c d v := by
  classical
  let other : Tag → Depth → Run Outcome := fun c d v =>
    if c = child ∧ d = depth ∧ v = t then .exhausted u else exec c d v
  have hrest : ∀ c d v, ¬(c = child ∧ d = depth ∧ v = t) → other c d v = exec c d v :=
    fun _ _ _ hne => if_neg hne
  exact ⟨other, h u other (if_pos ⟨rfl, rfl, rfl⟩) hrest, hrest⟩

/-- What a computation does not notice to be cut off it does not ask for. -/
theorem not_asks_of_unnoticed {x : (Tag → Depth → Run Outcome) → Run α} {ending : Ending α}
    (h : ∀ other : Tag → Depth → Run Outcome,
      (∀ c d v, ¬(c = child ∧ d = depth ∧ v = t) → other c d v = exec c d v) →
      x other s = ending) : ¬Asks x exec s child depth t := by
  intro hasks
  obtain ⟨u, hu⟩ := Engine.exists_frame_ne ending.after
  obtain ⟨other, hcut, hrest⟩ := hasks.exists_cut u
  exact hu (congrArg Ending.after ((h other hrest).symm.trans hcut)).symm

/-- What the execution of a tag asks for is that execution. -/
theorem eq_of_asks_execution {inner : Tag} {outer : Depth}
    (h : Asks (fun exec => exec inner outer) exec s child depth t) :
    inner = child ∧ outer = depth ∧ s = t :=
  Classical.byContradiction fun hne =>
    not_asks_of_unnoticed (fun _ hrest => hrest inner outer s hne) h

/-- **What a sequence asks for, one of its parts does.** -/
theorem asks_of_bind {x : (Tag → Depth → Run Outcome) → Run α}
    {f : (Tag → Depth → Run Outcome) → α → Run β} (hx : Heeds x exec s)
    (h : Asks (fun exec => x exec >>= f exec) exec s child depth t) :
    Asks x exec s child depth t ∨
      ∃ a v, x exec s = .done a v ∧ Asks (fun exec => f exec a) exec v child depth t := by
  refine Classical.or_iff_not_imp_left.2 fun hnot => ?_
  have hunnoticed : ∀ other : Tag → Depth → Run Outcome,
      (∀ c d v, ¬(c = child ∧ d = depth ∧ v = t) → other c d v = exec c d v) →
      x other s = x exec s := fun other hrest => hx.agree other fun c d v hasked => by
    by_cases heq : c = child ∧ d = depth ∧ v = t
    · obtain ⟨rfl, rfl, rfl⟩ := heq
      exact absurd hasked hnot
    · exact hrest c d v heq
  cases hdone : x exec s with
  | done a v =>
    refine ⟨a, v, rfl, fun u other hcut hrest => ?_⟩
    exact (bind_of_done ((hunnoticed other hrest).trans hdone) _).symm.trans (h u other hcut hrest)
  | failed fault v =>
    exact absurd h (not_asks_of_unnoticed fun other hrest =>
      bind_of_failed ((hunnoticed other hrest).trans hdone) _)
  | exhausted v =>
    exact absurd h (not_asks_of_unnoticed fun other hrest =>
      bind_of_exhausted ((hunnoticed other hrest).trans hdone) _)

/-- What is asked for on a copy is asked for. -/
theorem asks_of_isolated {x : (Tag → Depth → Run Outcome) → Run α}
    (h : Asks (fun exec => (x exec).isolated) exec s child depth t) :
    Asks x exec s child depth t := by
  intro u other hcut hrest
  have hends := h u other hcut hrest
  dsimp only [isolated] at hends
  split at hends
  · cases hends
  · cases hends
  · next v hv => exact hv.trans hends

/-! ## Computations that uphold a property -/

/-- **A computation upholds a property of the local variables**: it executes
other tags only where they have it, and ends where they have it, as far as
the executions it asks for do. -/
structure Upholds (I : Vars → Prop) (x : (Tag → Depth → Run Outcome) → Run α)
    (exec : Tag → Depth → Run Outcome) (s : Frame) : Prop where
  /-- It does what these executions do. -/
  heeds : Heeds x exec s
  /-- Where it asks for them and ends, the property is there. -/
  upheld : I s.locals →
    (∀ child depth t, Asks x exec s child depth t → I t.locals → (exec child depth t).Reaches I) →
    (∀ child depth t, Asks x exec s child depth t → I t.locals) ∧ (x exec s).Reaches I

variable {I : Vars → Prop}

/-- What executes nothing has only to end where the property is there. -/
theorem Upholds.of_eq {x : (Tag → Depth → Run Outcome) → Run α} {ending : Ending α}
    (h : ∀ other, x other s = ending) (hends : I s.locals → ending.Reaches I) :
    Upholds I x exec s where
  heeds := .of_eq h
  upheld hI _ := ⟨fun _ _ _ hasks => absurd hasks (not_asks_of_unnoticed fun other _ => h other),
    h exec ▸ hends hI⟩

/-- The execution of a tag upholds what it upholds. -/
theorem Upholds.of_execution (child : Tag) (depth : Depth) :
    Upholds I (fun exec => exec child depth) exec s where
  heeds := .of_execution child depth
  upheld hI hexec := by
    refine ⟨fun c d t hasks => ?_, hexec child depth s (fun _ _ hcut _ => hcut) hI⟩
    obtain ⟨-, -, rfl⟩ := eq_of_asks_execution hasks
    exact hI

/-- **Sequences uphold what their parts do.** -/
theorem Upholds.bind {x : (Tag → Depth → Run Outcome) → Run α}
    {f : (Tag → Depth → Run Outcome) → α → Run β} (hx : Upholds I x exec s)
    (hf : ∀ a t, x exec s = .done a t → Upholds I (fun exec => f exec a) exec t) :
    Upholds I (fun exec => x exec >>= f exec) exec s where
  heeds := hx.heeds.bind fun a t hdone => (hf a t hdone).heeds
  upheld hI hexec := by
    obtain ⟨hfirst, hends⟩ := hx.upheld hI fun child depth t hasks =>
      hexec child depth t (asks_bind_left hasks)
    -- what the second part is given is there as far as the first part comes to an end
    have hsecond : ∀ a v, x exec s = .done a v →
        (∀ child depth t, Asks (fun exec => f exec a) exec v child depth t → I t.locals) ∧
          (f exec a v).Reaches I := by
      intro a v hdone
      rw [hdone] at hends
      exact (hf a v hdone).upheld hends fun child depth t hasks =>
        hexec child depth t (asks_bind_right hx.heeds hdone hasks)
    constructor
    · intro child depth t hasks
      obtain hasks | ⟨a, v, hdone, hasks⟩ := asks_of_bind hx.heeds hasks
      · exact hfirst child depth t hasks
      · exact (hsecond a v hdone).1 child depth t hasks
    · cases hdone : x exec s with
      | done a v =>
        rw [bind_of_done hdone]
        exact (hsecond a v hdone).2
      | failed fault v =>
        rw [hdone] at hends
        rw [bind_of_failed hdone]
        exact hends
      | exhausted v =>
        rw [bind_of_exhausted hdone]
        trivial

/-- On a copy of the local variables everything is upheld in the end. -/
theorem Upholds.isolated {x : (Tag → Depth → Run Outcome) → Run α} (hx : Upholds I x exec s) :
    Upholds I (fun exec => (x exec).isolated) exec s where
  heeds := hx.heeds.isolated
  upheld hI hexec := by
    have hinner : ∀ child depth t, Asks x exec s child depth t →
        Asks (fun exec => (x exec).isolated) exec s child depth t :=
      fun child depth t hasks u other hcut hrest =>
        isolated_of_exhausted (hasks u other hcut hrest)
    constructor
    · intro child depth t hasks
      exact (hx.upheld hI fun c d v h => hexec c d v (hinner c d v h)).1 child depth t
        (asks_of_isolated hasks)
    · unfold Run.isolated
      split
      · exact hI
      · exact hI
      · trivial

/-! ## Acting last -/

variable {D : Frame → Frame → Prop}

/-- What acts last comes to an end. -/
theorem ActsLast.ne_exhausted {x : Run α} (h : ActsLast D x s) (u : Frame) :
    x s ≠ .exhausted u := by
  obtain ⟨a, t, hdone, -⟩ | ⟨fault, locks, hfailed⟩ := h
  · rw [hdone]
    nofun
  · rw [hfailed]
    nofun

/-- What acts after an operand asks for it or faults before. -/
theorem failed_or_asks_of_actsAfter {x : (Tag → Depth → Run Outcome) → Run α} (hx : Heeds x exec s)
    (h : ∀ other : Tag → Depth → Run Outcome, ActsAfter (other child depth) D (x other) s) :
    (∃ fault, x exec s = .failed fault s) ∨ Asks x exec s child depth s := by
  classical
  refine Classical.or_iff_not_imp_right.2 fun hnot => ?_
  obtain ⟨u, hu⟩ := Engine.exists_frame_ne (x exec s).after
  let other : Tag → Depth → Run Outcome := fun c d v =>
    if c = child ∧ d = depth ∧ v = s then .exhausted u else exec c d v
  have hsame : x other s = x exec s := hx.agree other fun c d v hasked => if_neg fun heq => by
    obtain ⟨rfl, rfl, rfl⟩ := heq
    exact hnot hasked
  obtain ⟨fault, hfailed⟩ | ⟨f, hsplit, -⟩ := h other
  · exact ⟨fault, hsame.symm.trans hfailed⟩
  · have hcut : x other s = .exhausted u :=
      hsplit.trans (bind_of_exhausted (if_pos ⟨rfl, rfl, rfl⟩) f)
    exact absurd (congrArg Ending.after (hsame.symm.trans hcut)).symm hu

theorem ActsLast.reaches {x : Run α} (h : ActsLast D x s)
    (hdeed : ∀ a t, x s = .done a t → D s t → I s.locals → I t.locals) (hI : I s.locals) :
    (x s).Reaches I := by
  obtain ⟨a, t, hdone, hD⟩ | ⟨fault, locks, hfailed⟩ := h
  · rw [hdone]
    exact hdeed a t hdone hD hI
  · rw [hfailed]
    exact hI

/-- **What acts last upholds what its deed does**, if it is done at all. -/
theorem Upholds.of_actsLast {x : (Tag → Depth → Run Outcome) → Run α}
    (hdeed : ∀ a t, x exec s = .done a t → ∀ u, D u t → I u.locals → I t.locals)
    (hx : Heeds x exec s) (h : ∀ other, ActsLast D (x other) s) : Upholds I x exec s where
  heeds := hx
  upheld hI _ := by
    refine ⟨fun child depth t hasks => ?_, (h exec).reaches (fun a t hdone => hdeed a t hdone s) hI⟩
    obtain ⟨other, hcut, -⟩ := hasks.exists_cut s
    exact absurd hcut ((h other).ne_exhausted s)

/-- **So does what acts after an operand**, and nothing but the operand is
asked for. -/
theorem Upholds.of_actsAfter {x : (Tag → Depth → Run Outcome) → Run α}
    (hdeed : ∀ a t, x exec s = .done a t → ∀ u, D u t → I u.locals → I t.locals)
    (hx : Heeds x exec s)
    (h : ∀ other : Tag → Depth → Run Outcome, ActsAfter (other child depth) D (x other) s) :
    Upholds I x exec s where
  heeds := hx
  upheld hI hexec := by
    constructor
    · intro inner outer t hasks
      obtain ⟨u, hu⟩ := Engine.exists_frame_ne (exec child depth s).after
      obtain ⟨other, hcut, hrest⟩ := hasks.exists_cut u
      obtain ⟨fault, hfailed⟩ | ⟨f, hsplit, hlast⟩ := h other
      · cases hfailed.symm.trans hcut
      by_cases heq : child = inner ∧ depth = outer ∧ s = t
      · exact heq.2.2 ▸ hI
      -- otherwise the operand comes out as before, and is not cut off in that frame
      have hsame := hrest child depth s heq
      cases hoperand : exec child depth s with
      | done value v =>
        rw [hsplit, bind_of_done (hsame.trans hoperand)] at hcut
        exact absurd hcut ((hlast value v).ne_exhausted u)
      | failed fault v =>
        rw [hsplit, bind_of_failed (hsame.trans hoperand)] at hcut
        cases hcut
      | exhausted v =>
        rw [hsplit, bind_of_exhausted (hsame.trans hoperand)] at hcut
        rw [hoperand] at hu
        exact absurd (Ending.exhausted.inj hcut).symm hu
    · obtain ⟨fault, hfailed⟩ | hasks := failed_or_asks_of_actsAfter hx h
      · rw [hfailed]
        exact hI
      have hoperand := hexec child depth s hasks hI
      obtain ⟨fault, hfailed⟩ | ⟨f, hsplit, hlast⟩ := h exec
      · rw [hfailed]
        exact hI
      rw [hsplit] at hdeed ⊢
      cases hvalue : exec child depth s with
      | done value v =>
        rw [hvalue] at hoperand
        rw [bind_of_done hvalue] at hdeed ⊢
        exact (hlast value v).reaches (fun a t hdone => hdeed a t hdone v) hoperand
      | failed fault v =>
        rw [hvalue] at hoperand
        rw [bind_of_failed hvalue]
        exact hoperand
      | exhausted v =>
        rw [bind_of_exhausted hvalue]
        trivial

/-- What restores the local variables ends where it began. -/
theorem Restores.reaches {x : Run α} (h : x.Restores s) (hI : I s.locals) : (x s).Reaches I := by
  cases hx : x s with
  | done a t =>
    show I t.locals
    rwa [h.of_done hx]
  | failed fault t =>
    show I t.locals
    rwa [h.of_failed hx]
  | exhausted t => trivial

end Run

/-- **The logic of upholding a property**, for a tag whose acts do. -/
def upholdingLogic {I : Vars → Prop} {tag : Tag}
    (hact : ∀ s t, Act tag s t → I s.locals → I t.locals) (exec : Tag → Depth → Run Outcome) :
    Logic tag (Tag → Depth → Run Outcome) where
  holds x s := Run.Upholds I x exec s
  result h := .of_eq h id
  act h ht := .of_eq h (hact _ _ ht)
  fault h _ := .of_eq h id
  waits h _ := .of_eq h fun _ => trivial
  bind hx hf := hx.bind (hf exec)
  copied hx := hx.isolated

namespace Engine

variable {limit : Option Nat} {I : Vars → Prop} {y : Execution}

/-- A tag is dispatched as its runner goes, if it has one and may run. -/
theorem upholds_dispatch {exec : Tag → Depth → Run Outcome}
    (hrunner : ∀ runner, (y.tag.name, runner) ∈ builtins →
      (standard limit).dispatch ⟨y.tag, y.outer + 1, exec, y.means⟩
          (y.frame.enter y.tag (y.outer + 1)) = runner ⟨y.tag, y.outer + 1, exec, y.means⟩ y.start →
      Run.Upholds I (fun exec => runner ⟨y.tag, y.outer + 1, exec, y.means⟩) exec y.start) :
    Run.Upholds I (fun exec => (standard limit).dispatch ⟨y.tag, y.outer + 1, exec, y.means⟩) exec
      (y.frame.enter y.tag (y.outer + 1)) := by
  obtain hwithin | ⟨d, hlimit, hexceeds⟩ := (standard limit).isWithin_or_exceeds (y.outer + 1)
  · cases hget : (standard limit).runners.get? y.tag.name with
    | none => exact .of_eq (fun other => congrFun (dispatch_of_unknown hwithin hget other _) _) id
    | some runner =>
      have hruns := congrFun (dispatch_of_runner hwithin hget exec y.means)
        (y.frame.enter y.tag (y.outer + 1))
      have hupholds := hrunner runner (mem_builtins_of_get? hget) hruns
      simp only [dispatch_of_runner hwithin hget]
      exact ⟨⟨hupholds.heeds.cut, hupholds.heeds.agree⟩, hupholds.upheld⟩
  · exact .of_eq (fun other => congrFun (dispatch_of_exceeds hlimit hexceeds other _) _) id

/-- **A tag upholds what its acts do.** -/
theorem upholds_of_act (hact : ∀ s t, Act y.tag s t → I s.locals → I t.locals)
    (exec : Tag → Depth → Run Outcome) :
    Run.Upholds I (fun exec => (standard limit).dispatch ⟨y.tag, y.outer + 1, exec, y.means⟩) exec
      (y.frame.enter y.tag (y.outer + 1)) :=
  upholds_dispatch fun runner hrunner _ =>
    @Logic.holds_runner_of_exhausted y.tag _ (upholdingLogic hact exec) (y.outer + 1) id runner
      hrunner y.start (fun child _ _ => .of_execution child _) y.means
      fun _ => .of_eq (fun _ => rfl) fun _ => trivial

/-- **A tag that does something itself upholds what its deed does**, if it is done at all. -/
theorem upholds_of_deed {exec : Tag → Depth → Run Outcome} (hname : y.tag.name ∈ leafNames)
    (hdeed : ∀ outcome t, (standard limit).dispatch ⟨y.tag, y.outer + 1, exec, y.means⟩
        (y.frame.enter y.tag (y.outer + 1)) = .done outcome t →
      ∀ s, y.tag.Deed y.start s t → I s.locals → I t.locals) :
    Run.Upholds I (fun exec => (standard limit).dispatch ⟨y.tag, y.outer + 1, exec, y.means⟩) exec
      (y.frame.enter y.tag (y.outer + 1)) := by
  refine upholds_dispatch fun runner hrunner hruns => ?_
  rw [hruns] at hdeed
  have hheeds := heeds_runner hrunner (y.outer + 1) exec y.means y.start
  cases hoperand : y.tag.operand? y.start with
  | none =>
    by_cases hcommand : y.tag.name = "call_os_cmd"
    · -- a command executes nothing, and may not come to an end
      obtain rfl : runner = Runner.command := by
        rw [hcommand] at hrunner
        simpa [builtins] using hrunner
      have hsame : ∀ other, Runner.command ⟨y.tag, y.outer + 1, other, y.means⟩ y.start =
          Runner.command ⟨y.tag, y.outer + 1, exec, y.means⟩ y.start := fun _ => rfl
      refine .of_eq hsame fun hI => ?_
      obtain hacts | ⟨_, _, t, hwaits, _⟩ := @Runner.actsLast_or_waitsLast_command
        ⟨y.tag, y.outer + 1, exec, y.means⟩ y.start hcommand
      · exact hacts.reaches (fun a t hdone => hdeed a t hdone _) hI
      · rw [hwaits]
        trivial
    · exact .of_actsLast hdeed hheeds fun other =>
        @Runner.actsLast_of_operand? ⟨y.tag, y.outer + 1, other, y.means⟩ _ runner hrunner hname
          hcommand hoperand
  | some child =>
    exact .of_actsAfter hdeed hheeds fun other =>
      @Runner.actsAfter_of_operand? ⟨y.tag, y.outer + 1, other, y.means⟩ _ child runner hrunner
        hoperand

/-- **What a runner upholds is upheld in its scope**: the executions that it
asks for begin where the property is there, and it ends where it is, as far
as these executions do. -/
theorem upheld_inside
    (h : Run.Upholds I
      (fun exec => (standard limit).dispatch ⟨y.tag, y.outer + 1, exec, y.means⟩)
      ((standard limit).execute y.means) (y.frame.enter y.tag (y.outer + 1)))
    (hstart : I y.start.locals)
    (hasked : ∀ z, (standard limit).Executes y z → I z.frame.locals →
      ((standard limit).ending z).Reaches I) :
    (∀ z, (standard limit).Executes y z → I z.frame.locals) ∧
      ((standard limit).insideOf y).Reaches I := by
  obtain ⟨hbegins, hends⟩ := h.upheld hstart
    (of_asksFor (fun _ _ t ending => I t.locals → ending.Reaches I) (fun _ _ _ _ _ => trivial)
      hasked)
  exact ⟨fun z hz => hbegins z.tag z.outer z.frame hz.asks, hends⟩

end Engine

end TagScript
