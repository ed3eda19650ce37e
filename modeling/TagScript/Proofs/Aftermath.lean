import TagScript.Proofs.Asking

/-!
# What comes after an execution inside a run

`Engine.Discipline.reaches` follows a run up to where an execution inside it
begins. This module follows it from where such an execution ends. Of the world
that it leaves nothing is known but that the run goes on from there, and to see
that, the run is compared with itself cut off where the execution begins: as
long as both do the same, the execution has not been asked for, and once they
part, the one has been cut off and the other is past the execution.
-/

namespace TagScript

namespace Engine

variable {limit : Option Nat}

/-- **What comes after an execution**: a computation in a frame, and the same
computation cut off where that execution begins. Either it has not come to
the execution and both are the same, or it has gone on from the world that
the execution has left. -/
def Aftermath {α : Type} (R : World → World → Prop) (left : World) (cut s : Frame)
    (real stopped : Ending α) : Prop :=
  R s.world real.after.world ∧
    (stopped = real ∨ stopped = .exhausted cut ∧ R left real.after.world)

variable {R : World → World → Prop} (c : Course fun s t => R s.world t.world) {left : World}
  {cut : Frame}
include c

/-- A sequence comes to the execution in its first or in its second part. -/
theorem Aftermath.bind {α β : Type} {x y : Run α} {f g : α → Run β} {s : Frame}
    (hx : Aftermath R left cut s (x s) (y s))
    (hf : ∀ a t, x s = .done a t → Aftermath R left cut t (f a t) (g a t)) :
    Aftermath R left cut s ((x >>= f) s) ((y >>= g) s) := by
  obtain ⟨hfirst, hcut⟩ := hx
  cases hdone : x s with
  | done a t =>
    rw [hdone] at hfirst hcut
    obtain ⟨hsecond, hlater⟩ := hf a t hdone
    rw [Run.bind_of_done hdone]
    refine ⟨c.trans hfirst hsecond, ?_⟩
    obtain hsame | ⟨hstopped, hleft⟩ := hcut
    · rw [Run.bind_of_done hsame]
      exact hlater
    · have hon : R left (f a t).after.world := c.trans (s := ⟨s.locals, left⟩) hleft hsecond
      exact .inr ⟨Run.bind_of_exhausted hstopped _, hon⟩
  | failed fault t =>
    rw [hdone] at hfirst hcut
    rw [Run.bind_of_failed hdone]
    exact ⟨hfirst, hcut.imp (fun hsame => Run.bind_of_failed hsame _)
      fun ⟨hstopped, hleft⟩ => ⟨Run.bind_of_exhausted hstopped _, hleft⟩⟩
  | exhausted t =>
    rw [hdone] at hfirst hcut
    rw [Run.bind_of_exhausted hdone]
    exact ⟨hfirst, hcut.imp (fun hsame => Run.bind_of_exhausted hsame _)
      fun ⟨hstopped, hleft⟩ => ⟨Run.bind_of_exhausted hstopped _, hleft⟩⟩

omit c in
/-- A copy of the local variables does not matter. -/
theorem Aftermath.isolated {α : Type} {x y : Run α} {s : Frame}
    (h : Aftermath R left cut s (x s) (y s)) :
    Aftermath R left cut s (x.isolated s) (y.isolated s) := by
  obtain ⟨hR, hcut⟩ := h
  have hworld : (x.isolated s).after.world = (x s).after.world := by
    unfold Run.isolated
    cases x s <;> rfl
  unfold Aftermath
  rw [hworld]
  refine ⟨hR, hcut.imp (fun hsame => ?_) fun ⟨hstopped, hleft⟩ =>
    ⟨Run.isolated_of_exhausted hstopped, hleft⟩⟩
  unfold Run.isolated
  rw [hsame]

/-- **The logic of what comes after an execution.** -/
def aftermathLogic {tag : Tag} (hact : ∀ s t, Act tag s t → R s.world t.world) (left : World)
    (cut : Frame) : Logic tag Bool where
  holds x s := Aftermath R left cut s (x true s) (x false s)
  result {α x s a} h := by
    rw [h true, h false]
    exact ⟨c.refl s, .inl rfl⟩
  act {α x s t a} h ht := by
    rw [h true, h false]
    exact ⟨hact s t ht, .inl rfl⟩
  fault {α x s cause} h _ := by
    rw [h true, h false]
    exact ⟨c.refl s, .inl rfl⟩
  waits {α x s} h _ := by
    rw [h true, h false]
    exact ⟨c.refl s, .inl rfl⟩
  bind hx hf := Aftermath.bind c hx fun a t hdone => hf true a t hdone
  copied hx := hx.isolated

/-- **A run goes on from what an execution inside it has left**: a relation
between worlds to which the acts of a tag, the rest of its execution and all
other executions keep holds from there to where its runner ends. -/
theorem Executes.inside_after {x y : Execution} (h : (standard limit).Executes x y)
    (hact : ∀ s t, Act x.tag s t → R s.world t.world)
    (hexec : ∀ child depth (t : Frame),
      R t.world ((standard limit).execute x.means child depth t).after.world) :
    R ((standard limit).ending y).after.world ((standard limit).insideOf x).after.world := by
  classical
  obtain ⟨u, hu⟩ := exists_frame_ne ((standard limit).insideOf x).after
  let exec : Tag → Depth → Run Outcome := (standard limit).execute x.means
  let other : Tag → Depth → Run Outcome := fun child depth t =>
    if child = y.tag ∧ depth = y.outer ∧ t = y.frame then .exhausted u else exec child depth t
  have hstopped : (standard limit).dispatch ⟨x.tag, x.outer + 1, other, x.means⟩
      (x.frame.enter x.tag (x.outer + 1)) = .exhausted u :=
    h.asks u other (if_pos ⟨rfl, rfl, rfl⟩) fun _ _ _ hne => if_neg hne
  -- the two would end alike if the execution were not asked for
  have hdiffer : (standard limit).insideOf x ≠ .exhausted u := fun heq =>
    hu (congrArg Ending.after heq).symm
  have hreal : (standard limit).insideOf x = (standard limit).dispatch
      ⟨x.tag, x.outer + 1, exec, x.means⟩ (x.frame.enter x.tag (x.outer + 1)) := rfl
  obtain hwithin | ⟨d, hlimit, hexceeds⟩ := (standard limit).isWithin_or_exceeds (x.outer + 1)
  · cases hget : (standard limit).runners.get? x.tag.name with
    | none =>
      rw [dispatch_of_unknown hwithin hget] at hstopped
      cases hstopped
    | some runner =>
      rw [dispatch_of_runner hwithin hget] at hstopped hreal
      have hlogic := @Logic.holds_runner_of_exhausted x.tag Bool (aftermathLogic c hact
        ((standard limit).ending y).after.world u) (x.outer + 1)
        (fun | true => exec | false => other) runner (mem_builtins_of_get? hget) x.start
        (fun child _ t => by
          refine ⟨hexec child _ t, ?_⟩
          by_cases heq : child = y.tag ∧ x.outer + 1 = y.outer ∧ t = y.frame
          · refine .inr ⟨if_pos heq, ?_⟩
            obtain ⟨rfl, houter, rfl⟩ := heq
            show R _ ((standard limit).execute x.means y.tag (x.outer + 1) y.frame).after.world
            rw [houter, h.means]
            exact c.refl ((standard limit).ending y).after
          · exact .inl (if_neg heq)) x.means fun t => ⟨c.refl t, .inl rfl⟩
      obtain ⟨_, hsame | ⟨_, hleft⟩⟩ := hlogic
      · exact absurd (hreal.trans (hsame.symm.trans hstopped)) hdiffer
      · rw [hreal]
        exact hleft
  · rw [dispatch_of_exceeds hlimit hexceeds] at hstopped
    cases hstopped

end Engine

end TagScript
