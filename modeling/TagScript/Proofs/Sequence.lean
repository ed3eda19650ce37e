import TagScript.Proofs.Pass
import TagScript.Proofs.Registry

/-!
# Tags one after another

`Site.Series` is the plainest way to execute tags: in document order, each in
the frame that the one before has left, whatever they yield. A block executes
a series of the tags inside it and stops behind it, so what a block does can be
told by where it stops: a pass is a series of tags after which it goes on, and
at most one tag more (`Site.Pass.exists_series`).

How often something has been executed cannot be seen from results. The journal
tells it: each execution enters its tag at its own depth, and all that is
executed inside it is entered deeper. `World.Enters` lists in this way the tags
that are executed directly inside a tag, in their order and with repetitions.
-/

namespace TagScript

/-! ## Series of tags -/

namespace Site

/-- **Tags executed one after another**, each in the frame that the one before
has left, with what they yield. -/
inductive Series (site : Site) : List Tag → Frame → List Outcome → Frame → Prop where
  /-- There is no tag left. -/
  | nil (s : Frame) : Series site [] s [] s
  /-- A tag and those after it. -/
  | cons {child : Tag} {rest : List Tag} {s t u : Frame} {outcome : Outcome}
      {outcomes : List Outcome} (h : site.run child s = .done outcome t)
      (hrest : Series site rest t outcomes u) :
      Series site (child :: rest) s (outcome :: outcomes) u

variable {site : Site} {tags : List Tag} {s t : Frame} {outcomes : List Outcome}

/-- A series determines what its tags yield. -/
theorem Series.unique (h : site.Series tags s outcomes t) {others : List Outcome} {u : Frame}
    (hothers : site.Series tags s others u) : others = outcomes ∧ u = t := by
  induction h generalizing others u with
  | nil s =>
    cases hothers
    exact ⟨rfl, rfl⟩
  | cons h hrest ih =>
    cases hothers with
    | cons h' hrest' =>
      obtain ⟨rfl, rfl⟩ := Ending.done.inj (h.symm.trans h')
      obtain ⟨rfl, rfl⟩ := ih hrest'
      exact ⟨rfl, rfl⟩

end Site

/-! ## What is executed directly inside a tag -/

/-- The tag that an event tells to be entered at a depth. -/
def Event.enteredAt? (depth : Depth) : Event → Option Tag
  | .entered tag d => if d = depth then some tag else none
  | _ => none

/-- **The tags that a journal tells to be entered at a depth**, in the order
in which they were; the latest event of a journal is the first. -/
def enteredAt (depth : Depth) (journal : List Event) : List Tag :=
  journal.reverse.filterMap (·.enteredAt? depth)

theorem enteredAt_append (depth : Depth) (later earlier : List Event) :
    enteredAt depth (later ++ earlier) = enteredAt depth earlier ++ enteredAt depth later := by
  unfold enteredAt
  rw [List.reverse_append, List.filterMap_append]

namespace World

/-- Whether the journal keeps the entries of all tags. -/
def KeepsEntries (w : World) : Prop := ∀ tag depth, w.keeps (.entered tag depth) = true

/-- **From a world to a later one, these tags have been entered at a depth**,
in this order and no others, as far as the journal is to tell. -/
structure Enters (depth : Depth) (tags : List Tag) (v w : World) : Prop where
  /-- The journal goes on keeping what it has kept. -/
  keeps : w.keeps = v.keeps
  /-- It has been told of these tags. -/
  entered : v.KeepsEntries →
    ∃ added, w.journal = added ++ v.journal ∧ enteredAt depth added = tags

variable {depth : Depth} {tags more : List Tag} {u v w : World}

theorem Enters.refl (depth : Depth) (w : World) : Enters depth [] w w :=
  ⟨rfl, fun _ => ⟨[], rfl, rfl⟩⟩

theorem Enters.trans (huv : Enters depth tags u v) (hvw : Enters depth more v w) :
    Enters depth (tags ++ more) u w where
  keeps := hvw.keeps.trans huv.keeps
  entered hu := by
    have hv : v.KeepsEntries := fun tag d => huv.keeps ▸ hu tag d
    obtain ⟨first, hfirst, htags⟩ := huv.entered hu
    obtain ⟨second, hsecond, hmore⟩ := hvw.entered hv
    refine ⟨second ++ first, ?_, ?_⟩
    · rw [hsecond, hfirst, List.append_assoc]
    · rw [enteredAt_append, htags, hmore]

/-- No tag is entered after these. -/
theorem Enters.trans_nil (huv : Enters depth tags u v) (hvw : Enters depth [] v w) :
    Enters depth tags u w := by
  have h := huv.trans hvw
  rwa [List.append_nil] at h

/-- One event is noted, which may be the entry of a tag. -/
theorem Enters.of_note (event : Event) (hjournal : w.journal = (v.note event).journal)
    (hkeeps : w.keeps = v.keeps) : Enters depth (event.enteredAt? depth).toList v w where
  keeps := hkeeps
  entered hv := by
    cases hkept : v.keeps event with
    | true =>
      refine ⟨[event], ?_, ?_⟩
      · rw [hjournal, note, if_pos hkept]
        rfl
      · show [event].filterMap _ = _
        cases h : event.enteredAt? depth <;> simp [h]
    | false =>
      -- only the entry of a tag would have had to be kept
      refine ⟨[], ?_, ?_⟩
      · rw [hjournal, note, if_neg (by simp [hkept])]
        rfl
      · cases event with
        | entered tag d => exact absurd hkept (by simp [hv tag d])
        | invoked | faulted | called | started | left => rfl

/-- Nothing is noted. -/
theorem Enters.of_eq (hjournal : w.journal = v.journal) (hkeeps : w.keeps = v.keeps) :
    Enters depth [] v w :=
  ⟨hkeeps, fun _ => ⟨[], hjournal, rfl⟩⟩

end World

theorem course_enters (depth : Depth) : Course fun s t => s.world.Enters depth [] t.world where
  refl s := .refl depth s.world
  trans := .trans
  copied h := h

/-- No act enters a tag. -/
theorem Act.enters {tag : Tag} {s t : Frame} (h : Act tag s t) (depth : Depth) :
    s.world.Enters depth [] t.world := by
  cases h with
  | called name h => exact .of_note (.called tag name) rfl (World.keeps_note _ _)
  | started program arguments h hleaf =>
    exact .of_note (.started program arguments) rfl (World.keeps_note _ _)
  | bound | boundGlobally | iterated | uncounted | granted | defined | stored =>
    exact .of_eq rfl rfl

section Boundary

variable {s : Frame} {tag : Tag} {depth : Depth} {body : Run Outcome}

theorem Frame.enters_enter (s : Frame) (tag : Tag) (depth d : Depth) :
    s.world.Enters depth (if d = depth then [tag] else []) (s.enter tag d).world := by
  have h := @World.Enters.of_note depth s.world (s.enter tag d).world (.entered tag d) rfl
    (World.keeps_note _ _)
  unfold Event.enteredAt? at h
  dsimp only at h
  split at h
  · next heq =>
    rw [if_pos heq]
    exact h
  · next hne =>
    rw [if_neg hne]
    exact h

theorem Frame.enters_invoke (s : Frame) (tag : Tag) (depth d : Depth) :
    s.world.Enters depth [] (s.invoke tag d).world :=
  .of_note (.invoked tag d s.world.trace s.locals s.world.globals) rfl (World.keeps_note _ _)

theorem Frame.enters_fault (s : Frame) (tag : Tag) (depth d : Depth) (fault : Fault) :
    s.world.Enters depth [] (s.fault tag d fault).world :=
  .of_note (.faulted tag d fault s.locals s.world.globals) (s.journal_fault tag d fault)
    (s.grows_fault fault).keeps

theorem Frame.enters_leave (s : Frame) (tag : Tag) (depth d : Depth) (outcome : Outcome) :
    s.world.Enters depth [] (s.leave tag d outcome).world :=
  .of_note (.left tag d outcome) rfl (World.keeps_note _ _)

/-- **A boundary enters its own tag** besides what is entered inside it. -/
theorem enters_boundary {tags : List Tag} {d : Depth}
    (h : (s.enter tag d).world.Enters depth tags (body (s.enter tag d)).after.world) :
    s.world.Enters depth ((if d = depth then [tag] else []) ++ tags)
      (boundary tag d body s).after.world := by
  have hinside := (s.enters_enter tag depth d).trans h
  cases hbody : body (s.enter tag d) with
  | done outcome t =>
    rw [hbody] at hinside
    rw [boundary_of_done hbody]
    exact hinside.trans_nil (t.enters_leave tag depth d outcome)
  | failed fault t =>
    rw [hbody] at hinside
    rw [boundary_of_failed hbody]
    exact (hinside.trans_nil (t.enters_fault tag depth d _)).trans_nil
      (Frame.enters_leave _ tag depth d .fail)
  | exhausted t =>
    rw [hbody] at hinside
    rw [boundary_of_exhausted hbody]
    exact hinside

end Boundary

namespace Engine

variable {limit : Option Nat}

/-- The tags inside a tag are executed one deeper, with what means are left. -/
theorem run_site (e : Engine) (means : Nat) (tag : Tag) (outer : Depth) (child : Tag) :
    (e.site means tag outer).run child = e.execute means child (outer + 1) := rfl

/-- A tag is dispatched without entering a tag at a depth at which none of the
further tags does. -/
theorem enters_dispatch {depth : Depth} (tag : Tag) (d : Depth) {exec : Tag → Depth → Run Outcome}
    (hexec : ∀ (child : Tag) (t : Frame), t.world.Enters depth [] (exec child d t).after.world)
    (rounds : Nat) (s : Frame) :
    s.world.Enters depth [] ((standard limit).dispatch ⟨tag, d, exec, rounds⟩ s).after.world := by
  refine ((course_enters depth).dispatch (F := fun _ => True) (fun _ => trivial) (fun _ => trivial)
    (fun _ => s.enters_invoke tag depth d) fun runner hget => ?_).1
  exact (course_enters depth).runner (fun _ _ h => h.enters depth) (fun _ _ => trivial) rounds
    (mem_builtins_of_get? hget) _ fun child _ t => ⟨hexec child t, fun _ _ _ => trivial⟩

/-- **An execution enters no tag at the depths around it.** -/
theorem enters_execute_of_le {depth outer : Depth} (h : depth ≤ outer) (means : Nat) (tag : Tag)
    (s : Frame) :
    s.world.Enters depth [] ((standard limit).execute means tag outer s).after.world := by
  induction means generalizing tag outer s with
  | zero => exact .refl depth s.world
  | succ means ih =>
    -- its own entry is deeper, and so are those inside
    have hdeeper : depth < outer + 1 := Int.lt_add_one_of_le h
    have hdispatch := @enters_dispatch limit depth tag (outer + 1) _ (ih (Int.le_of_lt hdeeper))
      means (s.enter tag (outer + 1))
    have hboundary := enters_boundary hdispatch
    rw [if_neg (Int.ne_of_gt hdeeper)] at hboundary
    exact hboundary

/-- **It enters its own tag once.** -/
theorem enters_execute (means : Nat) (tag : Tag) (outer : Depth) (s : Frame) :
    s.world.Enters (outer + 1) [tag]
      ((standard limit).execute (means + 1) tag outer s).after.world := by
  have hinside := @enters_execute_of_le limit _ (outer + 1) (Int.le_refl (outer + 1)) means
  have hdispatch := @enters_dispatch limit (outer + 1) tag (outer + 1) _ hinside means
    (s.enter tag (outer + 1))
  have hboundary := enters_boundary hdispatch
  rw [if_pos rfl] at hboundary
  exact hboundary

section Site

variable {means : Nat} {tag : Tag} {outer : Depth} {s t : Frame}

/-- A tag that is executed inside another is entered one deeper, if there are
means to execute anything. -/
theorem enters_run (hmeans : 0 < means) (child : Tag) (s : Frame) :
    s.world.Enters (outer + 1 + 1) [child]
      (((standard limit).site means tag outer).run child s).after.world := by
  obtain ⟨means, rfl⟩ := Nat.exists_eq_add_one_of_ne_zero (Nat.ne_of_gt hmeans)
  exact enters_execute means child (outer + 1) s

theorem enters_of_run_done {child : Tag} {outcome : Outcome}
    (h : ((standard limit).site means tag outer).run child s = .done outcome t) :
    s.world.Enters (outer + 1 + 1) [child] t.world := by
  have hmeans : 0 < means := Nat.pos_of_ne_zero fun hzero => by
    subst hzero
    cases h
  have hrun := @enters_run limit means tag outer hmeans child s
  rwa [h] at hrun

theorem enters_of_run_exhausted (hmeans : 0 < means) {child : Tag}
    (h : ((standard limit).site means tag outer).run child s = .exhausted t) :
    s.world.Enters (outer + 1 + 1) [child] t.world := by
  have hrun := @enters_run limit means tag outer hmeans child s
  rwa [h] at hrun

/-- **A series of tags is entered one after another.** -/
theorem enters_of_series {tags : List Tag} {outcomes : List Outcome}
    (h : ((standard limit).site means tag outer).Series tags s outcomes t) :
    s.world.Enters (outer + 1 + 1) tags t.world := by
  induction h with
  | nil s => exact .refl _ s.world
  | cons h hrest ih => exact (enters_of_run_done h).trans ih

/-- **So are the tags of a pass.** -/
theorem enters_of_pass (hmeans : 0 < means) {tags : List Tag} {stop : Stop}
    {executed : List (Tag × Option Outcome)}
    (h : ((standard limit).site means tag outer).Pass tags s executed stop t) :
    s.world.Enters (outer + 1 + 1) (executed.map Prod.fst) t.world := by
  induction h with
  | completed s => exact .refl _ s.world
  | broken h hstop => exact enters_of_run_done h
  | cut h => exact enters_of_run_exhausted hmeans h
  | next h hgoes hrest ih => exact (enters_of_run_done h).trans ih

end Site

end Engine

/-! ## On a copy of the local variables -/

/-- **An ending of what was done on the local variables of a frame or on a copy
of them**: on a copy they are in the end what they were. -/
def Ending.returnTo {α : Type} (shared : Bool) (s : Frame) : Ending α → Ending α
  | .done a t => .done a (t.returnTo shared s)
  | .failed fault t => .failed fault (t.returnTo shared s)
  | .exhausted t => .exhausted t

theorem Run.within_apply {α : Type} (shared : Bool) (x : Run α) (s : Frame) :
    Run.within shared x s = (x s).returnTo shared s := by
  cases shared with
  | true => cases h : x s <;> exact h
  | false =>
    show Run.isolated x s = _
    unfold Run.isolated
    cases x s <;> rfl

theorem Ending.world_returnTo {α : Type} (shared : Bool) (s : Frame) (ending : Ending α) :
    (ending.returnTo shared s).after.world = ending.after.world := by
  cases ending with
  | done a t => exact t.world_returnTo shared s
  | failed fault t => exact t.world_returnTo shared s
  | exhausted t => rfl

end TagScript
