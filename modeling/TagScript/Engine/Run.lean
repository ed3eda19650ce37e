import TagScript.Engine.World

/-!
# Computations of a run

A computation starts from a frame and ends in one of three ways: with a
result, with a fault, or not at all within the means it was given. A
fault keeps the frame as it was when the fault arose, so that what was
assigned before stays assigned. To be cut off is neither a result nor a
fault, and nothing in a script can tell it or catch it. Its frame is the one
in which the means ran out, so that what a run does can be told also of runs
that never end: of such a run, the frames in which it is cut off after more
and more means. A computation that waits for a program that never ends is
cut off there, whatever its means.
-/

namespace TagScript

/-- **How a computation ends.** -/
inductive Ending (α : Type) where
  /-- With a result. -/
  | done (result : α) (after : Frame)
  /-- With a fault. -/
  | failed (fault : Fault) (after : Frame)
  /-- It was cut off: its means were used up, or it waits for ever. -/
  | exhausted (after : Frame)

/-- The frame that a computation ends in, in whichever way it ends. -/
def Ending.after {α : Type} : Ending α → Frame
  | .done _ t | .failed _ t | .exhausted t => t

/-- **A computation.** -/
def Run (α : Type) : Type := Frame → Ending α

namespace Run

variable {α β : Type}

/-- The computation that has its result already. -/
protected def pure (a : α) : Run α := fun s => .done a s

/-- One computation after another. -/
protected def bind (x : Run α) (f : α → Run β) : Run β := fun s =>
  match x s with
  | .done a t => f a t
  | .failed fault t => .failed fault t
  | .exhausted t => .exhausted t

instance : Monad Run where
  pure := Run.pure
  bind := Run.bind

@[simp] theorem pure_apply (a : α) (s : Frame) : (pure a : Run α) s = .done a s := rfl

@[simp] theorem bind_apply (x : Run α) (f : α → Run β) (s : Frame) :
    (x >>= f) s =
      match x s with
      | .done a t => f a t
      | .failed fault t => .failed fault t
      | .exhausted t => .exhausted t := rfl

/-- Once the first part has its result, the second part is left. -/
theorem bind_of_done {x : Run α} {s t : Frame} {a : α} (h : x s = .done a t) (f : α → Run β) :
    (x >>= f) s = f a t := by
  rw [bind_apply, h]

theorem bind_of_failed {x : Run α} {s t : Frame} {fault : Fault} (h : x s = .failed fault t)
    (f : α → Run β) : (x >>= f) s = .failed fault t := by
  rw [bind_apply, h]

theorem bind_of_exhausted {x : Run α} {s t : Frame} (h : x s = .exhausted t) (f : α → Run β) :
    (x >>= f) s = .exhausted t := by
  rw [bind_apply, h]

/-- **A sequence has a result exactly if both of its parts have one.** -/
theorem bind_eq_done {x : Run α} {f : α → Run β} {s u : Frame} {b : β} :
    (x >>= f) s = .done b u ↔ ∃ a t, x s = .done a t ∧ f a t = .done b u := by
  rw [bind_apply]
  cases hx : x s with
  | done a t =>
    refine ⟨fun h => ⟨a, t, rfl, h⟩, ?_⟩
    rintro ⟨a', t', h, hf⟩
    cases h
    exact hf
  | failed fault t => simp
  | exhausted t => simp

/-- A sequence faults in its first part or, after that, in its second. -/
theorem bind_eq_failed {x : Run α} {f : α → Run β} {s u : Frame} {fault : Fault} :
    (x >>= f) s = .failed fault u ↔
      x s = .failed fault u ∨ ∃ a t, x s = .done a t ∧ f a t = .failed fault u := by
  rw [bind_apply]
  cases hx : x s with
  | done a t =>
    refine ⟨fun h => .inr ⟨a, t, rfl, h⟩, ?_⟩
    rintro (h | ⟨a', t', h, hf⟩)
    · cases h
    · cases h
      exact hf
  | failed fault' t => simp
  | exhausted t => simp

instance : LawfulMonad Run := LawfulMonad.mk' Run
  (fun x => by
    funext s
    show Run.bind x (fun a => Run.pure (id a)) s = x s
    simp only [Run.bind]
    cases x s <;> rfl)
  (fun _ _ => rfl)
  (fun x f g => by
    funext s
    show Run.bind (Run.bind x f) g s = Run.bind x (fun a => Run.bind (f a) g) s
    simp only [Run.bind]
    cases x s <;> rfl)

/-- A fault. -/
def fail (cause : Cause) : Run α := fun s => .failed (.of cause) s

/-- No end. -/
def exhausted : Run α := fun s => .exhausted s

/-- The frame as it is. -/
def frame : Run Frame := fun s => .done s s

/-- A look at the frame. -/
def look (f : Frame → α) : Run α := fun s => .done (f s) s

/-- A change of the frame. -/
def change (f : Frame → Frame) : Run Unit := fun s => .done () (f s)

/-- A change of the world. -/
def changeWorld (f : World → World) : Run Unit := change fun s => { s with world := f s.world }

/-- The result of something that may have failed for a cause. -/
def ofExcept : Except Cause α → Run α
  | .ok a => pure a
  | .error cause => fail cause

/-- **A computation on a copy of the local variables**: however it ends,
the local variables are then what they were before. -/
def isolated (x : Run α) : Run α := fun s =>
  match x s with
  | .done a t => .done a { t with locals := s.locals }
  | .failed fault t => .failed fault { t with locals := s.locals }
  | .exhausted t => .exhausted t

theorem isolated_of_done {x : Run α} {s t : Frame} {a : α} (h : x s = .done a t) :
    isolated x s = .done a { t with locals := s.locals } := by
  rw [isolated, h]

theorem isolated_of_failed {x : Run α} {s t : Frame} {fault : Fault}
    (h : x s = .failed fault t) : isolated x s = .failed fault { t with locals := s.locals } := by
  rw [isolated, h]

theorem isolated_of_exhausted {x : Run α} {s t : Frame} (h : x s = .exhausted t) :
    isolated x s = .exhausted t := by
  rw [isolated, h]

/-- A computation on the local variables themselves, or on a copy. -/
def within (shared : Bool) (x : Run α) : Run α := if shared then x else isolated x

/-- Binds a local variable. -/
def setLocal (key : String) (value : Value) : Run Unit := change (·.setLocal key value)

/-- Binds a variable in one of the layers. -/
def set (key : String) (value : Value) (global : Bool) : Run Unit := change (·.set key value global)

/-- Removes a local variable. -/
def eraseLocal (key : String) : Run Unit := change fun s => { s with locals := s.locals.erase key }

/-- **An assignment on behalf of a script**, to which the variable that
holds the privileges is closed. -/
def store (key : String) (value : Value) (global : Bool) : Run Unit :=
  if key = Reserved.procPrivilege then fail (.reservedVariable key) else set key value global

/-- The value of a variable, null if it is absent. -/
def read (key : String) : Run Value := look (·.read key)

/-- A computation done with each item in turn, as long as it yields
true. -/
def forEach (body : α → Run Bool) : List α → Run Unit
  | [] => pure ()
  | item :: rest => do
    if ← body item then forEach body rest else pure ()

/-- A computation repeated while it yields true, at most so many times. -/
def repeatWhile (body : Run Bool) : (rounds : Nat) → Run Unit
  | 0 => exhausted
  | rounds + 1 => do
    if ← body then repeatWhile body rounds else pure ()

end Run

/-! ## Runners -/

/-- **Where a runner works**: the tag it runs and its depth, and the means
it has for going on – a way to execute further tags, given a tag and the
depth of the tag around it, and a number of rounds it may go round. -/
structure Site where
  /-- The tag. -/
  tag : Tag
  /-- Its depth; the outermost tag has depth one. -/
  depth : Depth
  /-- Executes a further tag. -/
  exec : Tag → Depth → Run Outcome
  /-- How often a repetition may go round. -/
  rounds : Nat

/-- Executes a tag inside the tag at hand. -/
def Site.run (site : Site) (child : Tag) : Run Outcome := site.exec child site.depth

/-- **A runner**: what a tag of some name does. -/
abbrev Runner := Site → Run Outcome

end TagScript
