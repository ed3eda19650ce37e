import TagScript.Engine.Run

/-!
# Executing tags

Executing a tag calls the runner of its name inside a boundary that no
fault crosses. On the way in, the tag's depth and the time are bound
locally and the tag's name joins the trace. If the runner faults, the
fault is charged to the tag, reported locally, recorded by the exception
handler in force, and the tag yields false. On the way out the name
leaves the trace.

Scripts need not terminate, so execution is given means: `Engine.execute`
with `n` means executes the tags inside with `n - 1`, and repeats a
repetition at most that often. Without means it is exhausted.
-/

namespace TagScript

/-- **An engine**: the runners by the names of their tags, and how deep
tags may nest. -/
structure Engine where
  /-- The runners. -/
  runners : Dict Runner
  /-- The greatest depth of a tag, if there is one. -/
  maxDepth : Option Nat

namespace Frame

/-- The frame in which a tag runs. -/
def enter (s : Frame) (tag : Tag) (depth : Depth) : Frame :=
  let s := (s.setLocal Reserved.depth (.int (Int64.ofInt depth))).setLocal
    Reserved.logDatetime (.str s.world.clock)
  { s with world := { s.world.note (.entered tag depth) with trace := tag.name :: s.world.trace } }

/-- The frame in which the runner of a tag is called. -/
def invoke (s : Frame) (tag : Tag) (depth : Depth) : Frame :=
  let event := .invoked tag depth s.world.trace s.locals s.world.globals
  { s with world := s.world.note event }

/-- The frame after a tag. -/
def leave (s : Frame) (tag : Tag) (depth : Depth) (outcome : Outcome) : Frame :=
  { s with world := { s.world.note (.left tag depth outcome) with trace := s.world.trace.tail } }

/-- The report of a fault of a tag. -/
def faultReport (s : Frame) (tag : Tag) (fault : Fault) : String :=
  let trace := Text.joinWith " > " s.world.trace.reverse
  s!"[{s.world.clock}] TAG: {tag.name}({tag.showAttrs}) | Trace: {trace} | Error: {fault.describe}"

/-- The exception handler in force. -/
def handler? (s : Frame) : Option Handler :=
  match s.lookup Reserved.exceptionsHandler with
  | some (.handler h) => some h
  | _ => none

/-- The frame in which a fault of a tag has been noted and its report is
bound locally. -/
def report (s : Frame) (tag : Tag) (depth : Depth) (fault : Fault) : Frame :=
  let s := { s with
    world := s.world.note (.faulted tag depth fault s.locals s.world.globals) }
  s.setLocal Reserved.debug (.str (s.faultReport tag fault))

/-- **The frame after a fault of a tag**: the fault is reported, and the
handler in force has recorded it. -/
def fault (s : Frame) (tag : Tag) (depth : Depth) (fault : Fault) : Frame :=
  let s := s.report tag depth fault
  match s.handler? with
  | some h => { s with world := s.world.record h s.read }
  | none => s

end Frame

namespace Engine

/-- Refuses a depth beyond the limit. -/
def checkDepth (e : Engine) (depth : Depth) : Run Unit :=
  match e.maxDepth with
  | some limit => if limit < depth.number then Run.fail (.tooDeep depth.number limit) else pure ()
  | none => pure ()

/-- Calls the runner of a tag. -/
def dispatch (e : Engine) (site : Site) : Run Outcome := do
  e.checkDepth site.depth
  match e.runners.get? site.tag.name with
  | none => Run.fail (.unknownTag site.tag.name)
  | some runner => do
    Run.change (·.invoke site.tag site.depth)
    runner site

section Dispatch

variable {e : Engine} {tag : Tag} {depth : Depth}

/-- A depth is within the limit or exceeds it. -/
theorem isWithin_or_exceeds (e : Engine) (depth : Depth) :
    (∀ limit, e.maxDepth = some limit → depth.number ≤ limit) ∨
      ∃ limit, e.maxDepth = some limit ∧ limit < depth.number := by
  cases h : e.maxDepth with
  | none => exact .inl fun _ h => absurd h (Option.some_ne_none _).symm
  | some limit =>
    obtain hlt | hle := Nat.lt_or_ge limit depth.number
    · exact .inr ⟨limit, rfl, hlt⟩
    · exact .inl fun _ h => Option.some.inj h ▸ hle

theorem checkDepth_of_isWithin (h : ∀ limit, e.maxDepth = some limit → depth.number ≤ limit) :
    e.checkDepth depth = pure () := by
  unfold checkDepth
  split
  · next limit hlimit => exact if_neg (Nat.not_lt.2 (h limit hlimit))
  · rfl

/-- **Beyond the limit no runner is called**, whatever the tag is. -/
theorem dispatch_of_exceeds {limit : Nat} (hlimit : e.maxDepth = some limit)
    (h : limit < depth.number) (exec : Tag → Depth → Run Outcome) (rounds : Nat) :
    e.dispatch ⟨tag, depth, exec, rounds⟩ = Run.fail (.tooDeep depth.number limit) := by
  unfold dispatch checkDepth
  rw [hlimit]
  dsimp only
  rw [if_pos h]
  rfl

/-- Nor is one for a tag that has none. -/
theorem dispatch_of_unknown (h : ∀ limit, e.maxDepth = some limit → depth.number ≤ limit)
    (hget : e.runners.get? tag.name = none) (exec : Tag → Depth → Run Outcome) (rounds : Nat) :
    e.dispatch ⟨tag, depth, exec, rounds⟩ = Run.fail (.unknownTag tag.name) := by
  unfold dispatch
  rw [checkDepth_of_isWithin h, hget]
  rfl

/-- **Otherwise the runner of the tag is called.** -/
theorem dispatch_of_runner (h : ∀ limit, e.maxDepth = some limit → depth.number ≤ limit)
    {runner : Runner} (hget : e.runners.get? tag.name = some runner)
    (exec : Tag → Depth → Run Outcome) (rounds : Nat) :
    e.dispatch ⟨tag, depth, exec, rounds⟩ =
      fun s => runner ⟨tag, depth, exec, rounds⟩ (s.invoke tag depth) := by
  unfold dispatch
  rw [checkDepth_of_isWithin h, hget]
  rfl

end Dispatch

end Engine

/-- **The boundary around a tag.** No fault crosses it. -/
def boundary (tag : Tag) (depth : Depth) (body : Run Outcome) : Run Outcome := fun s =>
  match body (s.enter tag depth) with
  | .done outcome t => .done outcome (t.leave tag depth outcome)
  | .failed fault t =>
    .done .fail ((t.fault tag depth (fault.chargedTo tag.span)).leave tag depth .fail)
  | .exhausted t => .exhausted t

section Boundary

variable {tag : Tag} {depth : Depth} {body : Run Outcome} {s t : Frame}

/-- A runner's result is the tag's. -/
theorem boundary_of_done {outcome : Outcome} (h : body (s.enter tag depth) = .done outcome t) :
    boundary tag depth body s = .done outcome (t.leave tag depth outcome) := by
  rw [boundary, h]

/-- A runner's fault becomes the result false. -/
theorem boundary_of_failed {fault : Fault} (h : body (s.enter tag depth) = .failed fault t) :
    boundary tag depth body s =
      .done .fail ((t.fault tag depth (fault.chargedTo tag.span)).leave tag depth .fail) := by
  rw [boundary, h]

theorem boundary_of_exhausted (h : body (s.enter tag depth) = .exhausted t) :
    boundary tag depth body s = .exhausted t := by
  rw [boundary, h]

/-- **A tag has a result exactly if its runner has one or faults.** -/
theorem boundary_eq_done {outcome : Outcome} {u : Frame} :
    boundary tag depth body s = .done outcome u ↔
      (∃ t, body (s.enter tag depth) = .done outcome t ∧ u = t.leave tag depth outcome) ∨
      ∃ fault t, body (s.enter tag depth) = .failed fault t ∧ outcome = .fail ∧
        u = (t.fault tag depth (fault.chargedTo tag.span)).leave tag depth .fail := by
  constructor
  · intro h
    unfold boundary at h
    split at h
    · next outcome' t hbody =>
      cases h
      exact .inl ⟨t, hbody, rfl⟩
    · next fault t hbody =>
      cases h
      exact .inr ⟨fault, t, hbody, rfl, rfl⟩
    · cases h
  · rintro (⟨t, hbody, rfl⟩ | ⟨fault, t, hbody, rfl, rfl⟩)
    · exact boundary_of_done hbody
    · exact boundary_of_failed hbody

end Boundary

namespace Engine

/-- **Executes a tag**, given means and the depth of the tag around it. -/
def execute (e : Engine) : (means : Nat) → Tag → Depth → Run Outcome
  | 0, _, _ => Run.exhausted
  | means + 1, tag, outer =>
    boundary tag (outer + 1) (e.dispatch ⟨tag, outer + 1, e.execute means, means⟩)

@[simp] theorem execute_zero (e : Engine) (tag : Tag) (outer : Depth) (s : Frame) :
    e.execute 0 tag outer s = .exhausted s := rfl

/-- With means left, executing a tag is running it inside its boundary. -/
theorem execute_succ (e : Engine) (means : Nat) (tag : Tag) (outer : Depth) :
    e.execute (means + 1) tag outer =
      boundary tag (outer + 1) (e.dispatch ⟨tag, outer + 1, e.execute means, means⟩) := rfl

/-- **No fault leaves a tag.** -/
theorem execute_ne_failed (e : Engine) (means : Nat) (tag : Tag) (outer : Depth) (s t : Frame)
    (fault : Fault) : e.execute means tag outer s ≠ .failed fault t := by
  cases means with
  | zero => simp [execute, Run.exhausted]
  | succ means =>
    simp only [execute, boundary]
    split <;> simp

end Engine

end TagScript
