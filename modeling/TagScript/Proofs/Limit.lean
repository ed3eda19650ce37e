import TagScript.Proofs.Journal
import TagScript.Proofs.Nesting

/-!
# Raising the limit on the depth

A fault for being too deep is an ordinary fault: it makes a tag yield false,
deep inside a script, and what happens then is up to the script. So a limit
that is met can change everything that comes after it. But a limit that is
never met changes nothing, and neither does a higher one, or none at all.

Two runs are compared here, the second with a higher limit and with no
fewer means. They are in the same frame all the way until the first of them
either meets its limit, which is then in its journal, or is cut off.
-/

namespace TagScript

/-- An event is a fault for being too deep. -/
def Event.IsTooDeep (event : Event) : Prop := event.isFaultOf "ENGINE_DEPTH_EXCEEDED" = true

/-- It is a fault. -/
theorem Event.IsTooDeep.isFault {event : Event} (h : event.IsTooDeep) : event.isFault = true := by
  cases event with
  | faulted => rfl
  | entered | invoked | called | started | left => cases h

/-! ## Runs that agree -/

namespace Run

variable {α β : Type} {s : Frame}

/-- **One computation agrees with another**: it sees a fault for being too
deep, or it is cut off, or the other ends just as it does. -/
def Agrees (x y : Run α) (s : Frame) : Prop :=
  s.Keeps Event.IsTooDeep → s.Grows (x s).after ∧
    (s.Sees Event.IsTooDeep (x s).after ∨ (x s).isFinished = false ∨
      y s = x s)

/-- What does not depend on the limit agrees with itself. -/
theorem Agrees.of_eq {x y : Run α} {ending : Ending α} (hx : x s = ending) (hy : y s = ending)
    (h : s.Grows ending.after) : Agrees x y s := by
  intro _
  rw [hx, hy]
  exact ⟨h, .inr (.inr rfl)⟩

/-- Nothing need be said of a computation that is cut off. -/
theorem Agrees.of_exhausted {x y : Run α} (hx : x s = .exhausted s) : Agrees x y s := by
  intro _
  rw [hx]
  exact ⟨.refl s, .inr (.inl rfl)⟩

/-- **Sequences agree if their parts do.** -/
theorem Agrees.bind {x y : Run α} {f g : α → Run β} (hx : Agrees x y s)
    (hf : ∀ a t, x s = .done a t → Agrees (f a) (g a) t) :
    Agrees (x >>= f) (y >>= g) s := by
  intro hs
  obtain ⟨hgrows, hsame⟩ := hx hs
  cases h : x s with
  | done a t =>
    rw [h] at hgrows hsame
    rw [bind_of_done h]
    obtain ⟨hlater, hrest⟩ := hf a t h (hgrows.keeps_of hs)
    refine ⟨hgrows.trans hlater, ?_⟩
    obtain hdeep | hcut | hsame := hsame
    · exact .inl (hdeep.later hlater)
    · cases hcut
    · rw [bind_of_done hsame]
      exact hrest.imp_left fun hdeep => hdeep.earlier hgrows
  | failed fault t =>
    rw [h] at hgrows hsame
    rw [bind_of_failed h]
    exact ⟨hgrows, hsame.imp_right fun hsame => hsame.imp_right fun hsame => bind_of_failed hsame _⟩
  | exhausted t =>
    rw [h] at hgrows
    rw [bind_of_exhausted h]
    exact ⟨hgrows, .inr (.inl rfl)⟩

/-- So does what is done on copies. -/
theorem Agrees.isolated {x y : Run α} (hx : Agrees x y s) : Agrees x.isolated y.isolated s := by
  intro hs
  obtain ⟨hgrows, hsame⟩ := hx hs
  cases h : x s with
  | done a t =>
    rw [h] at hgrows hsame
    rw [isolated_of_done h]
    refine ⟨⟨hgrows.adds, hgrows.keeps⟩, ?_⟩
    exact hsame.imp_right fun hsame => hsame.imp_right isolated_of_done
  | failed fault t =>
    rw [h] at hgrows hsame
    rw [isolated_of_failed h]
    refine ⟨⟨hgrows.adds, hgrows.keeps⟩, ?_⟩
    exact hsame.imp_right fun hsame => hsame.imp_right isolated_of_failed
  | exhausted t =>
    rw [h] at hgrows
    rw [isolated_of_exhausted h]
    exact ⟨hgrows, .inr (.inl rfl)⟩

/-- And tags, if their runners agree. -/
theorem Agrees.boundary {x y : Run Outcome} {tag : Tag} {depth : Depth}
    (h : Agrees x y (s.enter tag depth)) :
    Agrees (TagScript.boundary tag depth x) (TagScript.boundary tag depth y) s := by
  intro hs
  obtain ⟨hgrows, hsame⟩ := h (Frame.grows_enter.keeps_of hs)
  have hout : (x (s.enter tag depth)).after.Grows (TagScript.boundary tag depth x s).after :=
    grows_boundary
  refine ⟨(Frame.grows_enter.trans hgrows).trans hout, ?_⟩
  obtain hdeep | hcut | hsame := hsame
  · exact .inl ((hdeep.later hout).earlier Frame.grows_enter)
  · cases hx : x (s.enter tag depth) with
    | exhausted t =>
      rw [boundary_of_exhausted hx]
      exact .inr (.inl rfl)
    | done | failed =>
      rw [hx] at hcut
      cases hcut
  · refine .inr (.inr ?_)
    rw [TagScript.boundary, TagScript.boundary, hsame]

end Run

/-- **The logic of agreement** of the run with the lower limit, which is
`true`, with the other one. -/
def agreementLogic (tag : Tag) : Logic tag Bool where
  holds x := Run.Agrees (x true) (x false)
  result h := .of_eq (h true) (h false) (.refl _)
  act h ht := .of_eq (h true) (h false) ht.grows
  fault h _ := .of_eq (h true) (h false) (.refl _)
  waits h _ := .of_exhausted (h true)
  bind hx hf := hx.bind (hf true)
  copied hx := hx.isolated

/-- **Going round and round**, where the second of two runs may go round more
often. -/
theorem agrees_repeatWhile {body other : Run Bool} (h : ∀ t, Run.Agrees body other t)
    {rounds more : Nat} (hmore : rounds ≤ more) (s : Frame) :
    Run.Agrees (Run.repeatWhile body rounds) (Run.repeatWhile other more) s := by
  induction rounds generalizing more s with
  | zero => exact .of_exhausted rfl
  | succ rounds ih =>
    obtain ⟨more, rfl⟩ := Nat.exists_eq_add_of_le' hmore
    refine (h s).bind fun goesOn t _ => ?_
    cases goesOn with
    | true => exact ih (Nat.le_add_left _ _) t
    | false => exact .of_eq rfl rfl (.refl t)

namespace Engine

variable {limit : Nat} {higher : Option Nat}

/-- Within the lower limit, the runner of a tag agrees if the further tags
do. -/
theorem agrees_dispatch (hhigher : ∀ d, higher = some d → limit ≤ d) {depth : Depth}
    (hwithin : depth.number ≤ limit) {exec other : Tag → Depth → Run Outcome}
    (hexec : ∀ child t, Run.Agrees (exec child depth) (other child depth) t)
    {means more : Nat} (hmore : means ≤ more) (tag : Tag) (s : Frame) :
    Run.Agrees ((standard (some limit)).dispatch ⟨tag, depth, exec, means⟩)
      ((standard higher).dispatch ⟨tag, depth, other, more⟩) s := by
  have hfirst : ∀ d, (standard (some limit)).maxDepth = some d → depth.number ≤ d :=
    fun d hd => Option.some.inj hd ▸ hwithin
  have hsecond : ∀ d, (standard higher).maxDepth = some d → depth.number ≤ d :=
    fun d hd => Nat.le_trans hwithin (hhigher d hd)
  cases hget : (standard (some limit)).runners.get? tag.name with
  | none =>
    rw [dispatch_of_unknown hfirst hget, dispatch_of_unknown hsecond hget]
    exact .of_eq rfl rfl (.refl s)
  | some runner =>
    rw [dispatch_of_runner hfirst hget, dispatch_of_runner hsecond hget]
    let execs : Bool → Tag → Depth → Run Outcome := fun | true => exec | false => other
    let rounds : Bool → Nat := fun | true => means | false => more
    have hexecs : ∀ child, tag.Leads (s.invoke tag depth) child → ∀ t,
        (agreementLogic tag).holds (fun i => execs i child depth) t := fun child _ => hexec child
    have hrunner : Run.Agrees (runner ⟨tag, depth, exec, means⟩) (runner ⟨tag, depth, other, more⟩)
        (s.invoke tag depth) :=
      @Logic.holds_runner tag Bool (agreementLogic tag) depth execs rounds runner
        (mem_builtins_of_get? hget) _ hexecs
        ((agreementLogic tag).holds_loop_of_repeatWhile
          (agrees_repeatWhile
            ((agreementLogic tag).holds_completes ((agreementLogic tag).holds_inside hexecs))
            hmore) _)
    intro hs
    obtain ⟨hgrows, hsame⟩ := hrunner (Frame.grows_invoke.keeps_of hs)
    exact ⟨Frame.grows_invoke.trans hgrows,
      hsame.imp_left fun hdeep => hdeep.earlier Frame.grows_invoke⟩

/-- Beyond the lower limit, there is a fault for being too deep. -/
theorem agrees_boundary_of_exceeds {tag : Tag} {depth : Depth} (hexceeds : limit < depth.number)
    (exec : Tag → Depth → Run Outcome) (rounds : Nat) (y : Run Outcome) (s : Frame) :
    Run.Agrees
      (boundary tag depth ((standard (some limit)).dispatch ⟨tag, depth, exec, rounds⟩)) y s := by
  intro hs
  rw [dispatch_of_exceeds rfl hexceeds]
  have hin : s.Grows (s.enter tag depth) := Frame.grows_enter
  have hout : ((s.enter tag depth).fault tag depth
      ((Fault.of (.tooDeep depth.number limit)).chargedTo tag.span)).Grows
      (boundary tag depth (Run.fail (.tooDeep depth.number limit)) s).after := Frame.grows_leave .fail
  -- the fault is noted after the tag has been entered and before it is left
  have hseen : (s.enter tag depth).Sees Event.IsTooDeep
      ((s.enter tag depth).fault tag depth
        ((Fault.of (.tooDeep depth.number limit)).chargedTo tag.span)) :=
    .of_note (Frame.journal_fault _ _ _ _) (hin.keeps_of hs _ rfl) rfl
  exact ⟨(hin.trans (Frame.grows_fault _)).trans hout, .inl ((hseen.later hout).earlier hin)⟩

/-- **The execution with the lower limit agrees with the other one.** -/
theorem agrees_execute (hhigher : ∀ d, higher = some d → limit ≤ d) {means more : Nat}
    (hmore : means ≤ more) (tag : Tag) (outer : Depth) (s : Frame) :
    Run.Agrees ((standard (some limit)).execute means tag outer)
      ((standard higher).execute more tag outer) s := by
  induction means generalizing more tag outer s with
  | zero => exact .of_exhausted rfl
  | succ means ih =>
    obtain ⟨more, rfl⟩ := Nat.exists_eq_add_of_le' hmore
    obtain hwithin | ⟨d, hd, hexceeds⟩ := (standard (some limit)).isWithin_or_exceeds (outer + 1)
    · have hless : means ≤ more + means := Nat.le_add_left _ _
      exact (agrees_dispatch hhigher (hwithin limit rfl)
        (fun child t => ih hless child (outer + 1) t) hless tag _).boundary
    · obtain rfl := Option.some.inj hd
      exact agrees_boundary_of_exceeds hexceeds _ _ _ s

/-- **Raising the limit never changes a run that did not meet it.** Let the
execution of a tag come to a result with some limit on the depth, let the
journal keep at least the faults, and let none of those it has come to keep
be one for being too deep. Then with any limit that is not lower, or with
none, and with no fewer means, the execution comes to the same result in the
same frame: with the same local and global variables, procedures, files and
handles, and with the same faults in the same order. -/
theorem execute_of_higher_limit {limit : Nat} {higher : Option Nat}
    (hhigher : ∀ d, higher = some d → limit ≤ d) {means : Nat} {tag : Tag} {outer : Depth}
    {s t : Frame} {outcome : Outcome}
    (hkeeps : ∀ event : Event, event.isFault = true → s.world.keeps event = true)
    (hrun : (standard (some limit)).execute means tag outer s = .done outcome t)
    (hfaults : s.Adds (fun event => ¬event.IsTooDeep) t) :
    ∀ more, means ≤ more → (standard higher).execute more tag outer s = .done outcome t := by
  intro more hmore
  obtain ⟨_, hsame⟩ := agrees_execute hhigher hmore tag outer s fun event hevent =>
    hkeeps event hevent.isFault
  rw [hrun] at hsame
  obtain hdeep | hcut | hsame := hsame
  · exact absurd hdeep hfaults.not_sees
  · cases hcut
  · exact hsame

theorem surrounded_of_higher_limit :
    (∀ d, (none : Option Nat) = some d → 3 ≤ d) ∧
    (∀ event : Event, event.isFault = true → blankFrame.world.keeps event = true) ∧
    ∃ outcome t,
      (standard (some 3)).execute 4 surrounded 0 blankFrame = .done outcome t ∧
      blankFrame.Adds (fun event => ¬event.IsTooDeep) t ∧
      (∃ event ∈ t.world.journal, event.isFault = true) ∧
      ∀ more, 4 ≤ more →
        (standard none).execute more surrounded 0 blankFrame = .done outcome t := by
  have hrun : ∃ outcome t,
      (standard (some 3)).execute 4 surrounded 0 blankFrame = .done outcome t ∧
      t.world.journal.any (Event.isFaultOf "ENGINE_DEPTH_EXCEEDED") = false ∧
      t.world.journal.any Event.isFault = true := ⟨_, _, rfl, rfl, rfl⟩
  obtain ⟨outcome, t, hrun, hfaults, hsome⟩ := hrun
  have hadds : blankFrame.Adds (fun event => ¬event.IsTooDeep) t :=
    ⟨t.world.journal, (List.append_nil _).symm, fun event he =>
      List.any_eq_false.1 hfaults event he⟩
  have hunlimited : ∀ d, (none : Option Nat) = some d → 3 ≤ d :=
    fun _ h => absurd h (Option.some_ne_none _).symm
  refine ⟨hunlimited, fun _ _ => rfl, outcome, t, hrun, hadds, List.any_eq_true.1 hsome, ?_⟩
  exact execute_of_higher_limit hunlimited (fun _ _ => rfl) hrun hadds

end Engine

end TagScript
