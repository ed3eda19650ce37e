import TagScript.Proofs.Journal
import TagScript.Proofs.Language

/-!
# What holds of whole runs

A relation between the frames before and after that composes, and that a
copy of the local variables does not disturb, is a `Course`: it can be
followed through computations. If the acts of a tag keep to it, then the
runner of the tag does as soon as the executions of further tags do. This
holds however a computation ends, also if it is cut off, since there is a
frame then too, and of a run without end there is such a frame behind every
step.

A `Conduct` is a course to which all acts keep and all that the boundary
around a tag does. It holds of every run: `Conduct.execute`. Where a relation
is kept by some tags only, the induction over the run has to say which, and
starts from the course.

Most such relations speak of the journal, of which see
`TagScript.Proofs.Journal`.
-/

namespace TagScript

/-! ## Courses -/

/-- **A relation between frames that can be followed through
computations.** -/
structure Course (R : Frame → Frame → Prop) : Prop where
  refl (s : Frame) : R s s
  trans {s t u : Frame} (hst : R s t) (htu : R t u) : R s u
  /-- What is done on a copy keeps to it. -/
  copied {s t : Frame} (h : R s t) : R s { t with locals := s.locals }

namespace Run

variable {α β : Type} {R : Frame → Frame → Prop} {F : Fault → Prop} {s t : Frame}

/-- **A computation keeps to a relation** between the frames before and
after, and its fault, if it has one, is of a kind. -/
def KeepsTo (R : Frame → Frame → Prop) (F : Fault → Prop) (x : Run α) (s : Frame) : Prop :=
  R s (x s).after ∧ ∀ fault t, x s = .failed fault t → F fault

theorem KeepsTo.of_done {x : Run α} {a : α} (h : x s = .done a t) (hR : R s t) :
    KeepsTo R F x s := by
  unfold KeepsTo
  rw [h]
  exact ⟨hR, fun _ _ hfailed => by cases hfailed⟩

theorem KeepsTo.of_failed {x : Run α} {fault : Fault} (h : x s = .failed fault t) (hR : R s t)
    (hF : F fault) : KeepsTo R F x s := by
  unfold KeepsTo
  rw [h]
  refine ⟨hR, fun other u hfailed => ?_⟩
  obtain rfl := (Ending.failed.inj hfailed).1
  exact hF

theorem KeepsTo.of_exhausted {x : Run α} (h : x s = .exhausted t) (hR : R s t) :
    KeepsTo R F x s := by
  unfold KeepsTo
  rw [h]
  exact ⟨hR, fun _ _ hfailed => by cases hfailed⟩

end Run

namespace Course

variable {α β : Type} {R : Frame → Frame → Prop} (c : Course R) {F : Fault → Prop} {s : Frame}
include c

/-- Sequences keep to it if their parts do. -/
theorem bind {x : Run α} {f : α → Run β} (hx : x.KeepsTo R F s)
    (hf : ∀ a t, x s = .done a t → (f a).KeepsTo R F t) : (x >>= f).KeepsTo R F s := by
  obtain ⟨hfirst, hfault⟩ := hx
  cases h : x s with
  | done a t =>
    rw [h] at hfirst
    obtain ⟨hsecond, hlater⟩ := hf a t h
    rw [Run.KeepsTo, Run.bind_of_done h]
    exact ⟨c.trans hfirst hsecond, hlater⟩
  | failed fault t =>
    rw [h] at hfirst
    exact .of_failed (Run.bind_of_failed h f) hfirst (hfault fault t h)
  | exhausted t =>
    rw [h] at hfirst
    exact .of_exhausted (Run.bind_of_exhausted h f) hfirst

/-- So does what is done on copies. -/
theorem isolated {x : Run α} (hx : x.KeepsTo R F s) : x.isolated.KeepsTo R F s := by
  obtain ⟨hR, hfault⟩ := hx
  cases h : x s with
  | done a t =>
    rw [h] at hR
    exact .of_done (Run.isolated_of_done h) (c.copied hR)
  | failed fault t =>
    rw [h] at hR
    exact .of_failed (Run.isolated_of_failed h) (c.copied hR) (hfault fault t h)
  | exhausted t =>
    rw [h] at hR
    exact .of_exhausted (Run.isolated_of_exhausted h) hR

/-- **The logic of a course**, for a tag whose acts keep to it. -/
def logic {tag : Tag} (hact : ∀ s t, Act tag s t → R s t)
    (hfault : ∀ cause : Cause, cause.isRunners = true → F (.of cause)) : Logic tag Unit where
  holds x := (x ()).KeepsTo R F
  result h := .of_done (h ()) (c.refl _)
  act h ht := .of_done (h ()) (hact _ _ ht)
  fault h hcause := .of_failed (h ()) (c.refl _) (hfault _ hcause)
  waits h _ := .of_exhausted (h ()) (c.refl _)
  bind hx hf := c.bind hx (hf ())
  copied hx := c.isolated hx

/-- Every runner keeps to a course if its acts and the executions of further
tags do. -/
theorem runner {tag : Tag} (hact : ∀ s t, Act tag s t → R s t)
    (hfault : ∀ cause : Cause, cause.isRunners = true → F (.of cause))
    {exec : Tag → Depth → Run Outcome} (rounds : Nat) {depth : Depth} {runner : Runner}
    (hrunner : (tag.name, runner) ∈ builtins) (s : Frame)
    (hexec : ∀ child, tag.Leads s child → ∀ t, (exec child depth).KeepsTo R F t) :
    Run.KeepsTo R F (runner ⟨tag, depth, exec, rounds⟩) s :=
  -- a single run goes round as often as itself, so the repetition needs no more than the others
  @Logic.holds_runner_of_exhausted tag Unit (c.logic hact hfault) depth (fun _ => exec) runner
    hrunner s hexec rounds fun t => .of_exhausted rfl (c.refl t)

/-- **A tag is dispatched along it** if the call of its runner and the runner
itself keep to it; where no runner is called, there only has to be a fault
of the kind. -/
theorem dispatch {e : Engine} {tag : Tag} {depth : Depth} {exec : Tag → Depth → Run Outcome}
    {rounds : Nat}
    (hdeep : ∀ limit, F (.of (.tooDeep depth.number limit)))
    (hunknown : e.runners.get? tag.name = none → F (.of (.unknownTag tag.name)))
    (hinvoke : (∀ limit, e.maxDepth = some limit → depth.number ≤ limit) →
      R s (s.invoke tag depth))
    (hrunner : ∀ runner, e.runners.get? tag.name = some runner →
      Run.KeepsTo R F (runner ⟨tag, depth, exec, rounds⟩) (s.invoke tag depth)) :
    Run.KeepsTo R F (e.dispatch ⟨tag, depth, exec, rounds⟩) s := by
  obtain hwithin | ⟨limit, hlimit, hexceeds⟩ := e.isWithin_or_exceeds depth
  · cases hget : e.runners.get? tag.name with
    | none =>
      rw [Engine.dispatch_of_unknown hwithin hget]
      exact .of_failed rfl (c.refl s) (hunknown hget)
    | some runner =>
      rw [Engine.dispatch_of_runner hwithin hget]
      obtain ⟨hruns, hfault⟩ := hrunner runner hget
      exact ⟨c.trans (hinvoke hwithin) hruns, hfault⟩
  · rw [Engine.dispatch_of_exceeds hlimit hexceeds]
    exact .of_failed rfl (c.refl s) (hdeep limit)

/-- **The boundary around a tag keeps to it** if what the boundary itself
does keeps to it. -/
theorem boundary {tag : Tag} {depth : Depth} {body : Run Outcome}
    (henter : R s (s.enter tag depth)) (hbody : body.KeepsTo R F (s.enter tag depth))
    (hfault : ∀ fault t, F fault → R t (t.fault tag depth (fault.chargedTo tag.span)))
    (hleave : ∀ outcome t, R t (t.leave tag depth outcome)) :
    R s (TagScript.boundary tag depth body s).after := by
  obtain ⟨hin, hfaults⟩ := hbody
  have hin := c.trans henter hin
  cases h : body (s.enter tag depth) with
  | done outcome t =>
    rw [h] at hin
    rw [boundary_of_done h]
    exact c.trans hin (hleave outcome t)
  | failed fault t =>
    rw [h] at hin
    rw [boundary_of_failed h]
    exact c.trans (c.trans hin (hfault fault t (hfaults fault t h))) (hleave .fail _)
  | exhausted t =>
    rw [h] at hin
    rw [boundary_of_exhausted h]
    exact hin

end Course

/-- What is added to the journal is a course. -/
theorem course_adds (P : Event → Prop) : Course (Frame.Adds P) where
  refl := .refl
  trans := .trans
  copied h := h

/-! ## Conducts -/

/-- **What the boundary around a tag does to a frame.** -/
inductive Passage (e : Engine) : Frame → Frame → Prop where
  /-- It enters the tag. -/
  | entered (s : Frame) (tag : Tag) (depth : Depth) : Passage e s (s.enter tag depth)
  /-- It calls the runner, at a depth within the limit. -/
  | invoked (s : Frame) (tag : Tag) (depth : Depth)
      (h : ∀ limit, e.maxDepth = some limit → depth.number ≤ limit) :
      Passage e s (s.invoke tag depth)
  /-- It reports a fault. -/
  | faulted (s : Frame) (tag : Tag) (depth : Depth) (fault : Fault) :
      Passage e s (s.fault tag depth fault)
  /-- It leaves the tag. -/
  | left (s : Frame) (tag : Tag) (depth : Depth) (outcome : Outcome) :
      Passage e s (s.leave tag depth outcome)

/-- **A relation that runs keep to.** -/
structure Conduct (e : Engine) (R : Frame → Frame → Prop) : Prop extends Course R where
  /-- Acts keep to it. -/
  act {tag : Tag} {s t : Frame} (h : Act tag s t) : R s t
  /-- So does the boundary around a tag. -/
  passage {s t : Frame} (h : Passage e s t) : R s t

namespace Conduct

variable {e : Engine} {R : Frame → Frame → Prop} (c : Conduct e R)
include c

theorem dispatch
    (he : ∀ name runner, e.runners.get? name = some runner →
      (name, runner) ∈ builtins ∨ ∀ site s, R s (runner site s).after)
    (means : Nat) (hexec : ∀ child depth s, R s (e.execute means child depth s).after)
    (tag : Tag) (depth : Depth) (s : Frame) :
    Run.KeepsTo R (fun _ => True) (e.dispatch ⟨tag, depth, e.execute means, means⟩) s := by
  -- of the faults nothing is asked here
  refine c.toCourse.dispatch (fun _ => trivial) (fun _ => trivial)
    (fun hwithin => c.passage (.invoked s tag depth hwithin)) fun runner hget => ?_
  obtain hbuiltin | hother := he tag.name runner hget
  · exact c.toCourse.runner (fun _ _ => c.act) (fun _ _ => trivial) means hbuiltin _
      fun child _ t => ⟨hexec child depth t, fun _ _ _ => trivial⟩
  · exact ⟨hother _ _, fun _ _ _ => trivial⟩

/-- **Every run keeps to a conduct**, if the engine has the runners of the
language, and others that keep to it. -/
theorem execute
    (he : ∀ name runner, e.runners.get? name = some runner →
      (name, runner) ∈ builtins ∨ ∀ site s, R s (runner site s).after)
    (means : Nat) (tag : Tag) (outer : Depth) (s : Frame) :
    R s (e.execute means tag outer s).after := by
  induction means generalizing tag outer s with
  | zero => exact c.refl s
  | succ means ih =>
    exact c.toCourse.boundary (c.passage (.entered s tag _))
      (c.dispatch he means ih tag (outer + 1) _) (fun _ t _ => c.passage (.faulted t tag _ _))
      fun outcome t => c.passage (.left t tag _ outcome)

end Conduct

/-! ## What is not the script's doing -/

/-- **The surroundings of two frames are the same**: the time, and the
system that programs run on. -/
structure Frame.SameSurroundings (s t : Frame) : Prop where
  clock : t.world.clock = s.world.clock
  system : t.world.system = s.world.system

/-- An event is noted in the same surroundings. -/
theorem Frame.sameSurroundings_note {s t : Frame} {event : Event}
    (hclock : t.world.clock = (s.world.note event).clock)
    (hsystem : t.world.system = (s.world.note event).system) : s.SameSurroundings t := by
  obtain ⟨journal, hnote⟩ := s.world.exists_note_eq event
  rw [hnote] at hclock hsystem
  exact ⟨hclock, hsystem⟩

/-- **No run changes its surroundings.** -/
theorem Engine.conduct_surroundings (e : Engine) : Conduct e Frame.SameSurroundings where
  refl _ := ⟨rfl, rfl⟩
  trans hst htu := ⟨htu.clock.trans hst.clock, htu.system.trans hst.system⟩
  copied h := ⟨h.clock, h.system⟩
  act h := by
    cases h with
    | called tag name => exact Frame.sameSurroundings_note rfl rfl
    | started program arguments => exact Frame.sameSurroundings_note rfl rfl
    | bound | boundGlobally | iterated | uncounted | granted | defined | stored =>
      exact ⟨rfl, rfl⟩
  passage h := by
    cases h with
    | entered | invoked | left => exact Frame.sameSurroundings_note rfl rfl
    | faulted tag depth fault =>
      obtain ⟨files, locks, hfault⟩ := Frame.fault_eq _ tag depth fault
      rw [hfault]
      exact Frame.sameSurroundings_note rfl rfl

end TagScript
