import TagScript.Proofs.Act

/-!
# The journal of a run

A run tells what it does to its journal, which only ever grows. Of the
events that have been added to it between two frames, `Frame.Adds P` says
that all are as `P` wants them, and `Frame.Sees P` that some are.

The journal need not keep all events. What is said of all of them is true
of any part; that something is seen is sure only if it is kept, and which
events are kept never changes in a run.
-/

namespace TagScript

/-- Whether an event is a fault with some code. -/
def Event.isFaultOf (code : String) : Event → Bool
  | .faulted _ _ fault _ _ => fault.cause.code == code
  | _ => false

/-- Noting an event changes nothing but the journal. -/
theorem World.exists_note_eq (w : World) (event : Event) :
    ∃ journal, w.note event = { w with journal } := by
  unfold note
  split
  · exact ⟨_, rfl⟩
  · exact ⟨w.journal, rfl⟩

theorem World.keeps_note (w : World) (event : Event) : (w.note event).keeps = w.keeps := by
  unfold note
  split
  · rfl
  · rfl

theorem World.procedures_note (w : World) (event : Event) :
    (w.note event).procedures = w.procedures := by
  unfold note
  split
  · rfl
  · rfl

namespace Frame

/-! ## What is added -/

/-- **All events between two frames are of a kind.** -/
def Adds (P : Event → Prop) (s t : Frame) : Prop :=
  ∃ added, t.world.journal = added ++ s.world.journal ∧ ∀ event ∈ added, P event

variable {P : Event → Prop} {s t u : Frame}

theorem Adds.of_journal_eq (h : t.world.journal = s.world.journal) : Adds P s t :=
  ⟨[], h, fun _ he => absurd he List.not_mem_nil⟩

theorem Adds.refl (s : Frame) : Adds P s s := .of_journal_eq rfl

theorem Adds.trans (hst : Adds P s t) (htu : Adds P t u) : Adds P s u := by
  obtain ⟨first, hfirst, hP⟩ := hst
  obtain ⟨second, hsecond, hQ⟩ := htu
  refine ⟨second ++ first, ?_, fun event he => ?_⟩
  · rw [hsecond, hfirst, List.append_assoc]
  · exact (List.mem_append.1 he).elim (hQ event) (hP event)

theorem Adds.mono {Q : Event → Prop} (h : Adds P s t) (hPQ : ∀ event, P event → Q event) :
    Adds Q s t := by
  obtain ⟨added, hadded, hP⟩ := h
  exact ⟨added, hadded, fun event he => hPQ event (hP event he)⟩

/-- One event of the kind has been noted, if it was kept. -/
theorem Adds.of_note {event : Event} (h : t.world.journal = (s.world.note event).journal)
    (hP : P event) : Adds P s t := by
  obtain hn | hn := s.world.journal_note event
  · refine ⟨[event], h.trans hn, fun other ho => ?_⟩
    rw [List.mem_singleton.1 ho]
    exact hP
  · exact .of_journal_eq (h.trans hn)

/-- **Some event between two frames is of a kind.** -/
def Sees (P : Event → Prop) (s t : Frame) : Prop :=
  ∃ added, t.world.journal = added ++ s.world.journal ∧ ∃ event ∈ added, P event

/-- An event that is kept is seen. -/
theorem Sees.of_note {event : Event} (h : t.world.journal = (s.world.note event).journal)
    (hkept : s.world.keeps event = true) (hP : P event) : Sees P s t := by
  refine ⟨[event], ?_, event, List.mem_singleton_self event, hP⟩
  rw [h, World.note, if_pos hkept]
  rfl

/-- What all events are not, is not seen. -/
theorem Adds.not_sees (h : Adds (fun event => ¬P event) s t) : ¬Sees P s t := by
  rintro ⟨added, hadded, event, he, hP⟩
  obtain ⟨others, hothers, hnot⟩ := h
  obtain rfl := List.append_cancel_right (hadded.symm.trans hothers)
  exact hnot event he hP

/-- **From a frame to a later one of the same run**: the journal has only
grown, and keeps what it kept. -/
structure Grows (s t : Frame) : Prop where
  adds : s.Adds (fun _ => True) t
  keeps : t.world.keeps = s.world.keeps

theorem Grows.refl (s : Frame) : Grows s s := ⟨.refl s, rfl⟩

theorem Grows.trans (hst : Grows s t) (htu : Grows t u) : Grows s u :=
  ⟨hst.adds.trans htu.adds, htu.keeps.trans hst.keeps⟩

/-- What has been seen has still been seen later on, -/
theorem Sees.later (h : Sees P s t) (htu : Grows t u) : Sees P s u := by
  obtain ⟨first, hfirst, event, he, hP⟩ := h
  obtain ⟨second, hsecond, _⟩ := htu.adds
  refine ⟨second ++ first, ?_, event, List.mem_append_right _ he, hP⟩
  rw [hsecond, hfirst, List.append_assoc]

/-- and it is seen also from earlier on. -/
theorem Sees.earlier (h : Sees P t u) (hst : Grows s t) : Sees P s u := by
  obtain ⟨first, hfirst, _⟩ := hst.adds
  obtain ⟨second, hsecond, event, he, hP⟩ := h
  refine ⟨second ++ first, ?_, event, List.mem_append_left _ he, hP⟩
  rw [hsecond, hfirst, List.append_assoc]

/-- The journal keeps all events of a kind. -/
def Keeps (P : Event → Prop) (s : Frame) : Prop := ∀ event, P event → s.world.keeps event = true

/-- It goes on keeping them. -/
theorem Grows.keeps_of (h : Grows s t) (hs : s.Keeps P) : t.Keeps P := by
  intro event hevent
  rw [h.keeps]
  exact hs event hevent

/-! ## The report of a fault -/

/-- **A fault changes a frame as its report does**, apart from files and
locks. -/
theorem fault_eq (s : Frame) (tag : Tag) (depth : Depth) (fault : Fault) :
    ∃ files locks, s.fault tag depth fault =
      { s.report tag depth fault with
        world := { (s.report tag depth fault).world with files, locks } } := by
  unfold Frame.fault
  dsimp only
  split
  · obtain ⟨files, locks, h⟩ := World.record_eq _ _ _
    exact ⟨files, locks, by rw [h]⟩
  · exact ⟨_, _, rfl⟩

@[simp] theorem locals_fault (s : Frame) (tag : Tag) (depth : Depth) (fault : Fault) :
    (s.fault tag depth fault).locals = (s.report tag depth fault).locals := by
  obtain ⟨files, locks, h⟩ := s.fault_eq tag depth fault
  rw [h]

theorem journal_fault (s : Frame) (tag : Tag) (depth : Depth) (fault : Fault) :
    (s.fault tag depth fault).world.journal =
      (s.world.note (.faulted tag depth fault s.locals s.world.globals)).journal := by
  obtain ⟨files, locks, h⟩ := s.fault_eq tag depth fault
  rw [h]
  rfl

end Frame

/-! ## What acts and tags add -/

/-- Acts note calls of procedures and starts of commands and nothing
else. -/
theorem Act.adds {P : Event → Prop} {tag : Tag} {s t : Frame} (h : Act tag s t)
    (hcalled : ∀ name, P (.called tag name))
    (hstarted : ∀ program arguments, P (.started program arguments)) : s.Adds P t := by
  cases h with
  | called name _ => exact .of_note rfl (hcalled name)
  | started program arguments => exact .of_note rfl (hstarted program arguments)
  | bound | boundGlobally | iterated | uncounted | granted | defined | stored =>
    exact .of_journal_eq rfl

/-- No act changes what the journal keeps. -/
theorem Act.grows {tag : Tag} {s t : Frame} (h : Act tag s t) : s.Grows t := by
  refine ⟨h.adds (fun _ => trivial) fun _ _ => trivial, ?_⟩
  cases h with
  | called | started => exact World.keeps_note _ _
  | bound | boundGlobally | iterated | uncounted | granted | defined | stored => rfl

section Boundary

variable {s : Frame} {tag : Tag} {depth : Depth} {body : Run Outcome}

/-- On the way into a tag the journal grows, -/
theorem Frame.grows_enter : s.Grows (s.enter tag depth) :=
  ⟨.of_note rfl trivial, World.keeps_note _ _⟩

theorem Frame.grows_invoke : s.Grows (s.invoke tag depth) :=
  ⟨.of_note rfl trivial, World.keeps_note _ _⟩

theorem Frame.grows_fault (fault : Fault) : s.Grows (s.fault tag depth fault) := by
  refine ⟨.of_note (Frame.journal_fault _ _ _ _) trivial, ?_⟩
  obtain ⟨files, locks, h⟩ := s.fault_eq tag depth fault
  rw [h]
  exact World.keeps_note _ _

theorem Frame.grows_leave (outcome : Outcome) : s.Grows (s.leave tag depth outcome) :=
  ⟨.of_note rfl trivial, World.keeps_note _ _⟩

/-- and on the way out of it, whichever that is. -/
theorem grows_boundary :
    (body (s.enter tag depth)).after.Grows (boundary tag depth body s).after := by
  cases hbody : body (s.enter tag depth) with
  | done outcome t =>
    rw [boundary_of_done hbody]
    exact Frame.grows_leave outcome
  | failed fault t =>
    rw [boundary_of_failed hbody]
    exact (Frame.grows_fault _).trans (Frame.grows_leave .fail)
  | exhausted t =>
    rw [boundary_of_exhausted hbody]
    exact .refl t

end Boundary

end TagScript
