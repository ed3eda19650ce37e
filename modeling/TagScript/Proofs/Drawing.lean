import TagScript.Proofs.Globals
import TagScript.Proofs.Registry
import TagScript.Proofs.Sequence

/-!
# A shared iterator loses and repeats nothing

A global variable may hold an iterator that many tags take steps of: inside loops and
procedures, in scopes that are given up with all their local variables, in one run after
another. What each step gives out depends on all steps before it, wherever they were
taken, and on nothing else.

The journal tells the steps in their order. A step is called in the variables that its
key is read in, and since it executes no tag, what is told next is that it ends;
`drawn` collects what the steps of a variable have yielded. `World.GivesOut` compares
this with what the iterator has left. It is followed through executions, where each
tag but a step leaves the variable alone as long as no assignment is made to it.
-/

namespace TagScript

/-! ## What the journal tells of an iterator -/

/-- The key of a tag, as it reads in some variables. -/
def Tag.keyIn (tag : Tag) (locals globals : Vars) : String :=
  (((tag.attr "key").map (Scope.substitute locals globals)).map Text.trim).getD ""

/-- Whether an event is the call of a step of the iterator in a variable. -/
def Event.asksFor (key : String) : Event → Bool
  | .invoked tag _ _ locals globals =>
    tag.name == "iter_next" && tag.keyIn locals globals == key && !key.isEmpty
  | _ => false

/-- What a step yields, if an event is the end of one. -/
def Event.stepped? : Event → Option Outcome
  | .left tag _ outcome => if tag.name = "iter_next" then some outcome else none
  | _ => none

/-- What an event adds to that which the steps have yielded, after the events before
it. -/
def Event.gives (key : String) (event : Event) (earlier : List Event) : List Outcome :=
  match event.stepped?, earlier.head? with
  | some outcome, some call => if call.asksFor key then [outcome] else []
  | _, _ => []

/-- **What the steps of the iterator in a variable have yielded**, in their order; the
latest event of a journal is the first. -/
def drawn (key : String) : List Event → List Outcome
  | [] => []
  | event :: earlier => drawn key earlier ++ event.gives key earlier

theorem Event.gives_of_none {key : String} {event : Event} (h : event.stepped? = none)
    (earlier : List Event) : event.gives key earlier = [] := by
  unfold Event.gives
  rw [h]

/-- Events are told apart from those before them, unless they start with the end of a
step. -/
theorem drawn_append {key : String} {later : List Event}
    (h : ∀ event ∈ later.getLast?, event.stepped? = none) (earlier : List Event) :
    drawn key (later ++ earlier) = drawn key earlier ++ drawn key later := by
  induction later with
  | nil => exact (List.append_nil _).symm
  | cons event rest ih =>
    cases rest with
    | nil =>
      have hnone : ∀ earlier, event.gives key earlier = [] := Event.gives_of_none (h event rfl)
      simp [drawn, hnone]
    | cons second rest =>
      have hrest := ih fun event hmem => h event (by rwa [List.getLast?_cons_cons])
      rw [List.cons_append, drawn, hrest, drawn, List.append_assoc]
      rfl

namespace World

/-- What the iterator in a global variable has left. -/
def left? (w : World) (key : String) : Option (List Value) :=
  (w.globals.get? key).bind Value.left?

/-- Whether the journal keeps all events. -/
def KeepsAll (w : World) : Prop := ∀ event, w.keeps event = true

/-- **From a world to a later one an iterator has given out items** of those that it had
left. -/
structure Gives (key : String) (left : List Value) (v w : World) (added : List Event) : Prop where
  /-- These events have been added, -/
  journal : w.journal = added ++ v.journal
  /-- and no step had begun before. -/
  opens : ∀ event ∈ added.getLast?, event.stepped? = none
  /-- All steps that were called have yielded something: -/
  all : (drawn key added).length = added.countP (·.asksFor key)
  /-- the items, one after another, and true after the last one. -/
  order : ∀ (i : Nat) (outcome : Outcome), (drawn key added)[i]? = some outcome →
    outcome = .value (left[i]?.getD (.bool true))
  /-- The others are left. -/
  rest : w.left? key = some (left.drop (drawn key added).length)

/-- **What happens to a global iterator**, as long as the journal keeps all events. -/
structure GivesOut (key : String) (v w : World) : Prop where
  keeps : w.keeps = v.keeps
  given : v.KeepsAll → ∀ left, v.left? key = some left → ∃ added, Gives key left v w added

variable {key : String} {left : List Value} {u v w : World}

theorem Gives.refl (h : w.left? key = some left) : Gives key left w w [] where
  journal := rfl
  opens _ hmem := absurd hmem (Option.not_mem_none _)
  all := rfl
  order i outcome h := absurd h (by simp [drawn])
  rest := h

theorem Gives.trans {first second : List Event} (huv : Gives key left u v first)
    (hvw : Gives key (left.drop (drawn key first).length) v w second) :
    Gives key left u w (second ++ first) where
  journal := by rw [hvw.journal, huv.journal, List.append_assoc]
  opens event hmem := by
    cases hfirst : first.getLast? with
    | none =>
      rw [List.getLast?_append, hfirst] at hmem
      exact hvw.opens event hmem
    | some last =>
      rw [List.getLast?_append, hfirst] at hmem
      exact huv.opens event (hfirst ▸ hmem)
  all := by
    rw [drawn_append hvw.opens, List.length_append, List.countP_append, huv.all, hvw.all]
    exact Nat.add_comm _ _
  order i outcome hi := by
    rw [drawn_append hvw.opens, List.getElem?_append] at hi
    split at hi
    · exact huv.order i outcome hi
    · next hge =>
      rw [hvw.order _ outcome hi, List.getElem?_drop, Nat.add_sub_cancel' (Nat.le_of_not_lt hge)]
  rest := by
    rw [hvw.rest, drawn_append hvw.opens, List.drop_drop, List.length_append]

theorem GivesOut.refl (key : String) (w : World) : GivesOut key w w :=
  ⟨rfl, fun _ _ h => ⟨[], .refl h⟩⟩

theorem GivesOut.trans (huv : GivesOut key u v) (hvw : GivesOut key v w) : GivesOut key u w where
  keeps := hvw.keeps.trans huv.keeps
  given hkeeps left hleft := by
    obtain ⟨first, hfirst⟩ := huv.given hkeeps left hleft
    obtain ⟨second, hsecond⟩ :=
      hvw.given (fun event => huv.keeps ▸ hkeeps event) _ hfirst.rest
    exact ⟨second ++ first, hfirst.trans hsecond⟩

/-- Whatever does not concern the iterator may change. -/
theorem GivesOut.of_eq (hjournal : w.journal = v.journal) (hkeeps : w.keeps = v.keeps)
    (hglobals : w.globals.get? key = v.globals.get? key) : GivesOut key v w where
  keeps := hkeeps
  given _ left hleft := by
    have hrest : w.left? key = some left := by
      rw [← hleft, left?, hglobals]
      rfl
    exact ⟨[], { Gives.refl hrest with journal := hjournal }⟩

/-- **Events that tell of no step** go by. -/
theorem Gives.of_quiet {added : List Event} (hjournal : w.journal = added ++ v.journal)
    (hopens : ∀ event ∈ added.getLast?, event.stepped? = none)
    (hcalls : ∀ event ∈ added, event.asksFor key = false)
    (hglobals : w.globals.get? key = v.globals.get? key) (hleft : v.left? key = some left) :
    Gives key left v w added := by
  -- what ends where no step has been called is another one's
  have hdrawn : ∀ events : List Event, (∀ event ∈ events, event.asksFor key = false) →
      drawn key events = [] := by
    intro events hevents
    induction events with
    | nil => rfl
    | cons event rest ih =>
      have hgives : event.gives key rest = [] := by
        unfold Event.gives
        split
        · next call _ hcall =>
          rw [hevents call (List.mem_cons_of_mem _ (List.mem_of_mem_head? hcall))]
          rfl
        · rfl
      rw [drawn, ih fun event hmem => hevents event (List.mem_cons_of_mem _ hmem), hgives]
      rfl
  have hnone := hdrawn added hcalls
  refine ⟨hjournal, hopens, ?_, fun _ _ h => absurd h (by simp [hnone]), ?_⟩
  · rw [hnone, List.countP_eq_zero.2 fun event hmem => by simp [hcalls event hmem]]
    rfl
  · rw [hnone, left?, hglobals]
    exact hleft

/-- So may an event be noted that tells of no step. -/
theorem GivesOut.of_note (event : Event) (hcalls : event.asksFor key = false)
    (hsteps : event.stepped? = none) (hjournal : w.journal = (v.note event).journal)
    (hkeeps : w.keeps = v.keeps) (hglobals : w.globals.get? key = v.globals.get? key) :
    GivesOut key v w := by
  obtain hnoted | hnoted := v.journal_note event
  · refine ⟨hkeeps, fun _ left hleft =>
      ⟨[event], .of_quiet (hjournal.trans hnoted) ?_ ?_ hglobals hleft⟩⟩
    · exact fun other hother => Option.mem_some.1 hother ▸ hsteps
    · exact fun other hother => List.mem_singleton.1 hother ▸ hcalls
  · exact .of_eq (hjournal.trans hnoted) hkeeps hglobals

/-- **A step** adds its call and its end. -/
theorem Gives.of_step {tag : Tag} {depth : Depth} {call : Event} (hname : tag.name = "iter_next")
    (hasks : call.asksFor key = true)
    (hjournal : w.journal = [.left tag depth (.value (.given left)), call] ++ v.journal)
    (hrest : w.left? key = some left.tail) :
    Gives key left v w [.left tag depth (.value (.given left)), call] := by
  have hdrawn : drawn key [.left tag depth (.value (.given left)), call] =
      [.value (.given left)] := by
    simp [drawn, Event.gives, Event.stepped?, hname, hasks]
  refine ⟨hjournal, fun event hevent => ?_, ?_, fun i outcome hi => ?_, ?_⟩
  · obtain rfl := Option.some.inj hevent
    cases call with
    | invoked => rfl
    | entered | faulted | called | started | left => cases hasks
  · rw [hdrawn, List.countP_cons_of_neg (by simp [Event.asksFor]), List.countP_cons_of_pos hasks]
    rfl
  · rw [hdrawn] at hi
    cases i with
    | zero =>
      obtain rfl := Option.some.inj hi
      rw [Value.given, List.head?_eq_getElem?]
    | succ i => cases hi
  · rw [hdrawn, hrest, List.length_singleton, List.drop_one]

theorem journal_note_of_keepsAll (h : w.KeepsAll) (event : Event) :
    (w.note event).journal = event :: w.journal := by
  rw [note, if_pos (h event)]

theorem KeepsAll.of_eq (h : v.KeepsAll) (hkeeps : w.keeps = v.keeps) : w.KeepsAll := by
  intro event
  rw [hkeeps]
  exact h event

end World

/-! ## Tags that are no steps -/

theorem course_givesOut (key : String) : Course fun s t => s.world.GivesOut key t.world where
  refl s := .refl key s.world
  trans := .trans
  copied h := h

/-- Acts of tags that only execute others leave the iterator alone. -/
theorem Act.givesOut {tag : Tag} (hname : tag.name ∉ leafNames) {s t : Frame} (h : Act tag s t)
    (key : String) : s.world.GivesOut key t.world := by
  cases h with
  | boundGlobally key value hleaf => exact absurd hleaf hname
  | started program arguments _ hleaf => exact absurd hleaf hname
  | called name =>
    exact .of_note (.called tag name) rfl rfl rfl (World.keeps_note _ _)
      (congrArg (·.get? key) (World.globals_note _ _))
  | bound | iterated | uncounted | granted | defined | stored => exact .of_eq rfl rfl rfl

/-- **So do the deeds of tags that neither step it nor assign it.** -/
theorem Tag.Deed.givesOut {tag : Tag} {start s t : Frame} {key : String} (h : tag.Deed start s t)
    (hname : tag.name ≠ "iter_next")
    (hset : tag.name = "set" → Run.attrSwitch tag "global" false start = .done true start →
      start.attrKey tag "key" ≠ key) : s.world.GivesOut key t.world := by
  cases h with
  | advanced _ _ _ hstep => exact absurd hstep hname
  | assignedGlobally value hassigns hglobal =>
    exact .of_eq rfl rfl (Dict.get?_insert_of_ne _ _ (hset hassigns hglobal).symm)
  | started arguments files =>
    exact .of_note (.started _ arguments) rfl rfl rfl (World.keeps_note _ _)
      (congrArg (·.get? key) (World.globals_note _ _))
  | nothing | assigned | defined | wrote | appended | installed => exact .of_eq rfl rfl rfl

/-- Only the start of a command is told. -/
theorem Tag.Deed.journal_eq {tag : Tag} {start s t : Frame} (h : tag.Deed start s t)
    (hname : tag.name ≠ "call_os_cmd") :
    t.world.journal = s.world.journal ∧ t.world.keeps = s.world.keeps := by
  cases h with
  | started _ _ hcommand => exact absurd hcommand hname
  | nothing | assigned | assignedGlobally | advanced | defined | wrote | appended
  | installed => exact ⟨rfl, rfl⟩

namespace Engine

variable {limit : Option Nat} {x y : Execution} {key : String}

/-- **A tag that is no step** leaves the iterator to the tags inside it. -/
theorem abides_givesOut (hname : y.tag.name ≠ "iter_next") (hset : ¬y.SetsGlobal limit key) :
    Abides limit y fun s t => s.world.GivesOut key t.world where
  toCourse := course_givesOut key
  entered := .of_note (.entered y.tag (y.outer + 1)) rfl rfl rfl (World.keeps_note _ _)
    (congrArg (·.get? key) (World.globals_note _ _))
  invoked s := .of_note (.invoked y.tag (y.outer + 1) s.world.trace s.locals s.world.globals)
    (by simp [Event.asksFor, hname]) rfl rfl (World.keeps_note _ _)
    (congrArg (·.get? key) (World.globals_note _ _))
  faulted {fault u} _ := by
    obtain ⟨files, locks, h⟩ := u.fault_eq y.tag (y.outer + 1) (fault.chargedTo y.tag.span)
    rw [h]
    exact .of_note (.faulted y.tag (y.outer + 1) (fault.chargedTo y.tag.span) u.locals
      u.world.globals) rfl rfl rfl (World.keeps_note _ _)
      (congrArg (·.get? key) (World.globals_note _ _))
  left s outcome := .of_note (.left y.tag (y.outer + 1) outcome) rfl (if_neg hname) rfl
    (World.keeps_note _ _) (congrArg (·.get? key) (World.globals_note _ _))
  locked s locks := .of_eq rfl rfl rfl
  act hleaf _ _ h := h.givesOut hleaf key
  deed {outcome u} hdone _ _ h := h.givesOut hname fun hsets hglobal hreads =>
    hset ⟨hsets, hreads, hglobal, outcome, u, hdone⟩
  started s program arguments := .of_note (.started program arguments) rfl rfl rfl
    (World.keeps_note _ _) (congrArg (·.get? key) (World.globals_note _ _))

/-! ## Steps -/

/-- **A step that faults** is no step of the iterator. -/
theorem gives_of_failed {v : World} {left : List Value} (hleft : v.left? key = some left)
    {fault : Fault} {u : Frame} (hfailed : (standard limit).insideOf y = .failed fault u)
    (hkeeps : u.world.KeepsAll) {added : List Event}
    (hjournal : u.world.journal = added ++ v.journal)
    (hadded : ∀ event ∈ added, event.asksFor key = false ∧ event.stepped? = none)
    (hglobals : u.world.globals = v.globals) :
    ∃ added, v.Gives key left ((standard limit).ending y).after.world added := by
  let reported : Event := .faulted y.tag (y.outer + 1) (fault.chargedTo y.tag.span) u.locals
    u.world.globals
  have hending : (standard limit).ending y = _ := boundary_of_failed hfailed
  refine ⟨.left y.tag (y.outer + 1) .fail :: reported :: added, .of_quiet ?_ ?_ ?_ ?_ hleft⟩
  · rw [hending]
    refine (World.journal_note_of_keepsAll (hkeeps.of_eq (Frame.grows_fault _).keeps) _).trans ?_
    rw [Frame.journal_fault, World.journal_note_of_keepsAll hkeeps, hjournal]
    rfl
  · intro event hevent
    rw [List.getLast?_cons_cons] at hevent
    obtain rfl | hmem := List.mem_cons.1 (List.mem_of_getLast? hevent)
    · rfl
    · exact (hadded event hmem).2
  · intro event hevent
    obtain rfl | hevent := List.mem_cons.1 hevent
    · rfl
    obtain rfl | hmem := List.mem_cons.1 hevent
    · rfl
    · exact (hadded event hmem).1
  · rw [hending]
    show (World.note _ _).globals.get? key = _
    rw [World.globals_note, Frame.globals_fault, hglobals]

/-- What the boundary adds to an execution that ends well. -/
theorem ending_of_done {outcome : Outcome} {u : Frame}
    (h : (standard limit).insideOf y = .done outcome u) (hkeeps : u.world.KeepsAll) :
    ((standard limit).ending y).after.world.journal =
        .left y.tag (y.outer + 1) outcome :: u.world.journal ∧
      ((standard limit).ending y).after.world.globals = u.world.globals := by
  have hending : (standard limit).ending y = _ := boundary_of_done h
  rw [hending]
  exact ⟨World.journal_note_of_keepsAll hkeeps _, World.globals_note _ _⟩

/-- The call of a step, in a frame in which its tag has been entered. -/
abbrev callIn (y : Execution) (entry : Frame) : Event :=
  .invoked y.tag (y.outer + 1) entry.world.trace entry.locals entry.world.globals

section Step

variable {entry : Frame} {left : List Value} (hname : y.tag.name = "iter_next")
  (hruns : (standard limit).insideOf y =
    Runner.stepIterator ((standard limit).site y.means y.tag y.outer)
      (entry.invoke y.tag (y.outer + 1)))
  (hkeeps : entry.world.KeepsAll) (hleft : entry.world.left? key = some left)
include hname hruns hkeeps hleft

/-- **A step of the iterator** gives out the first item that is left. -/
theorem exists_gives_of_asked (hasks : (callIn y entry).asksFor key = true)
    (hlocal : entry.locals.get? key = none) :
    ∃ added, entry.world.Gives key left ((standard limit).ending y).after.world added := by
  let start : Frame := entry.invoke y.tag (y.outer + 1)
  have habsent : start.locals.get? key = none := hlocal
  have hglobals : start.world.globals = entry.world.globals := World.globals_note _ _
  obtain ⟨⟨-, hkey⟩, hnamed⟩ : (y.tag.name = "iter_next" ∧
      y.tag.keyIn entry.locals entry.world.globals = key) ∧ key.isEmpty = false := by
    simpa [Event.asksFor] using hasks
  have hreads : start.attrKey y.tag "key" = key := by
    rw [← hkey, ← hglobals]
    rfl
  obtain ⟨value, hvalue, hiter⟩ := Option.bind_eq_some_iff.1 hleft
  obtain ⟨items, position, rfl, rfl⟩ := Value.exists_of_left? hiter
  obtain ⟨next, _, hgiven, hnext, htail⟩ := Value.exists_advance items position
  have hread : start.read key = .iter items position := by
    unfold Frame.read Frame.lookup Scope.lookup
    rw [habsent, hglobals, hvalue]
    rfl
  have hstep := hruns.trans
    (@Runner.stepIterator_of_iter ((standard limit).site y.means y.tag y.outer) _ _
      (Run.requireKey_of_attrKey hreads hnamed) _ _ hread)
  rw [hgiven, hnext, Frame.contains_locals_iff.2 habsent] at hstep
  have hkept : start.world.KeepsAll := hkeeps.of_eq (World.keeps_note _ _)
  obtain ⟨hjournal, hends⟩ := ending_of_done hstep hkept
  have htold : ((standard limit).ending y).after.world.journal =
      [.left y.tag (y.outer + 1) (.value (.given (Value.remaining items position))),
        callIn y entry] ++ entry.world.journal :=
    hjournal.trans (congrArg (_ :: ·) (World.journal_note_of_keepsAll hkeeps _))
  refine ⟨_, .of_step hname hasks htold ?_⟩
  show (Dict.get? _ key).bind Value.left? = _
  rw [hends]
  show ((start.world.globals.insert key _).get? key).bind Value.left? = _
  rw [Dict.get?_insert_self]
  exact congrArg some htail

/-- A step of another iterator, or of none, is no concern of this one. -/
theorem exists_gives_of_not_asked (hasks : (callIn y entry).asksFor key = false) :
    ∃ added, entry.world.Gives key left ((standard limit).ending y).after.world added := by
  let start : Frame := entry.invoke y.tag (y.outer + 1)
  have hglobals : start.world.globals = entry.world.globals := World.globals_note _ _
  have hkept : start.world.KeepsAll := hkeeps.of_eq (World.keeps_note _ _)
  have hcall : start.world.journal = [callIn y entry] ++ entry.world.journal :=
    World.journal_note_of_keepsAll hkeeps _
  have hacts : Run.ActsLast (y.tag.Deed start)
      (Runner.stepIterator ((standard limit).site y.means y.tag y.outer)) start :=
    Runner.actsLast_stepIterator hname
  obtain ⟨outcome, u, hdone, hdeed⟩ | ⟨fault, locks, hfailed⟩ := hacts
  · obtain ⟨hjournal, hsame⟩ := hdeed.journal_eq (by simp [hname])
    obtain ⟨hends, hafter⟩ := ending_of_done (hruns.trans hdone) (hkept.of_eq hsame)
    have htold : ((standard limit).ending y).after.world.journal =
        [.left y.tag (y.outer + 1) outcome, callIn y entry] ++ entry.world.journal :=
      hends.trans (congrArg (_ :: ·) (hjournal.trans hcall))
    refine ⟨_, .of_quiet htold (by simp [Event.stepped?]) ?_ ?_ hleft⟩
    · exact List.forall_mem_cons.2 ⟨rfl, fun event hevent => List.mem_singleton.1 hevent ▸ hasks⟩
    · rw [hafter, ← hglobals]
      obtain hnothing | ⟨value, hbound, ⟨hset, -⟩ | ⟨-, hnamed, -⟩⟩ := hdeed.globals_eq
      · rw [hnothing]
      · exact absurd (hset.symm.trans hname) (by decide)
      · rw [hbound]
        refine Dict.get?_insert_of_ne _ _ fun hkey => ?_
        have hreads : y.tag.keyIn entry.locals entry.world.globals = key := by
          rw [hkey, ← hglobals]
          rfl
        rw [← hkey] at hnamed
        simp [Event.asksFor, hname, hreads, hnamed] at hasks
  · refine gives_of_failed hleft (hruns.trans hfailed) hkept hcall (fun event hevent => ?_) hglobals
    obtain rfl := List.mem_singleton.1 hevent
    exact ⟨hasks, rfl⟩

end Step

/-- **A step** gives out the next item if it is one of this iterator. -/
theorem givesOut_step (hname : y.tag.name = "iter_next")
    (hlocal : y.start.attrKey y.tag "key" = key → y.start.locals.get? key = none) :
    y.frame.world.GivesOut key ((standard limit).ending y).after.world := by
  let entry : Frame := y.frame.enter y.tag (y.outer + 1)
  have hentry : y.frame.world.GivesOut key entry.world := .of_note (.entered y.tag (y.outer + 1))
    rfl rfl rfl (World.keeps_note _ _) (congrArg (·.get? key) (World.globals_note _ _))
  refine hentry.trans ⟨(proceeds_ending y).keeps.trans hentry.keeps.symm, ?_⟩
  intro hkeeps left hleft
  obtain ⟨d, _, _, hdeep⟩ | ⟨_, hruns⟩ := @dispatch_of_mem limit
    ((standard limit).site y.means y.tag y.outer) Runner.stepIterator (by simp [builtins, hname])
    entry
  · exact gives_of_failed hleft hdeep hkeeps (List.nil_append _).symm
      (fun _ h => absurd h List.not_mem_nil) rfl
  cases hasks : (callIn y entry).asksFor key with
  | true =>
    refine exists_gives_of_asked hname hruns hkeeps hleft hasks (hlocal ?_)
    have hkey : y.tag.keyIn entry.locals entry.world.globals = key := by
      simp only [Event.asksFor, Bool.and_eq_true, beq_iff_eq] at hasks
      exact hasks.1.2
    rw [← hkey, ← show y.start.world.globals = entry.world.globals from World.globals_note _ _]
    rfl
  | false => exact exists_gives_of_not_asked hname hruns hkeeps hleft hasks

/-! ## Whole executions -/

/-- **Every execution** leaves the iterator to the steps inside it. -/
theorem givesOut_ending
    (hlocal : ∀ names y, (standard limit).Encloses x names y → y.tag.name = "iter_next" →
      y.start.attrKey y.tag "key" = key → y.start.locals.get? key = none)
    (hset : ∀ names y, (standard limit).Encloses x names y → ¬y.SetsGlobal limit key) :
    x.frame.world.GivesOut key ((standard limit).ending x).after.world := by
  refine @Encloses.induction (standard limit) x
    (fun y => y.frame.world.GivesOut key ((standard limit).ending y).after.world)
    (fun names y hy hasked => ?_) [] x .outermost
  by_cases hname : y.tag.name = "iter_next"
  · exact givesOut_step hname (hlocal names y hy hname)
  · exact (abides_givesOut hname (hset names y hy)).ending hasked

/-- **What a group executes** it comes to in a pass over its tags that is cut off there. -/
theorem Executes.exists_pass_of_sub (hname : x.tag.name = "sub")
    (h : (standard limit).Executes x y) :
    ∃ exec : Tag → Depth → Run Outcome,
      (∀ child depth t, exec child depth t = .exhausted t ∨
        exec child depth t = (standard limit).execute x.means child depth t) ∧
      ∃ executed child, Site.Pass ⟨x.tag, x.outer + 1, exec, x.means⟩ x.tag.tags x.start executed
        (.cut child) y.frame := by
  obtain ⟨exec, hexec, hcut⟩ := @exists_exec_of_executes limit x y
    (fun child depth t ending => ending = .exhausted t ∨
      ending = (standard limit).execute x.means child depth t) h
    (fun _ _ _ => .inl rfl) fun _ _ _ _ => .inr rfl
  refine ⟨exec, hexec, ?_⟩
  let site : Site := ⟨x.tag, x.outer + 1, exec, x.means⟩
  have hcalls : ¬site.calls := by simp [Site.calls, site, hname]
  obtain ⟨executed, stop, t, hpass⟩ := @Site.exists_pass site (fun child s fault t hfailed => by
    obtain hstopped | hreal := hexec child (x.outer + 1) s
    · cases hstopped.symm.trans hfailed
    · exact execute_ne_failed _ _ _ _ _ _ _ (hreal.symm.trans hfailed)) x.tag.tags x.start
  obtain ⟨d, _, _, hdeep⟩ | ⟨_, hruns⟩ := @dispatch_of_mem limit site Runner.sub
    (by simp [site, builtins, hname]) (x.frame.enter x.tag (x.outer + 1))
  · cases hdeep.symm.trans hcut
  have hends : Runner.sub site x.start = .exhausted y.frame := hruns.symm.trans hcut
  obtain ⟨shared, hshared⟩ | ⟨cause, _, hfailed⟩ := Run.looks_passThrough x.tag x.start
  · unfold Runner.sub at hends
    rw [Run.bind_of_done hshared, Run.within_apply, Run.bind_apply,
      Site.completes_of_pass hcalls hpass] at hends
    cases stop with
    | completed | broken => cases hends
    | cut child =>
      obtain rfl := Ending.exhausted.inj hends
      exact ⟨executed, child, hpass⟩
  · cases (Run.bind_of_failed hfailed _).symm.trans hends

/-- **A shared iterator loses and repeats nothing.** Let a global variable hold an
iterator and the journal keep all events. Let there be any runs, one after the other, of
whatever tags, in whatever variables of their own and at whatever depths, ended or cut
off. Let no assignment be made to the global variable in any of them, and let no step that
asks for the variable be taken where a local one is in front of it.

Take all these steps in the order in which the journal tells of them, wherever they were
taken: inside blocks on copies and on the variables themselves, in procedures, in
repetitions, in one run or the next. Each has yielded something, the first one the first
item that the iterator had left, the second one the second item and so on, and all after
the last item have yielded true. The items that none of them has yielded are those
which the iterator has left. -/
theorem runs_draw_in_order (limit : Option Nat) {v w : World} {runs : List Execution}
    {key : String} {items : List Value} {position : Nat} (hkeeps : v.KeepsAll)
    (hheld : v.globals.get? key = some (.iter items position))
    (hruns : (standard limit).Runs v runs w)
    (hlocal : ∀ x ∈ runs, ∀ names y, (standard limit).Encloses x names y →
      y.tag.name = "iter_next" → y.start.attrKey y.tag "key" = key →
      y.start.locals.get? key = none)
    (hset : ∀ x ∈ runs, ∀ names y, (standard limit).Encloses x names y →
      ¬y.SetsGlobal limit key) :
    ∃ added, w.journal = added ++ v.journal ∧
      (drawn key added).length = added.countP (·.asksFor key) ∧
      (∀ (j : Nat) (outcome : Outcome), (drawn key added)[j]? = some outcome →
        outcome = .value ((Value.remaining items position)[j]?.getD (.bool true))) ∧
      w.left? key = some ((Value.remaining items position).drop (drawn key added).length) := by
  have hgives : v.GivesOut key w := by
    clear hkeeps hheld
    induction hruns with
    | none w => exact .refl key w
    | @next x rest v w hx hrest ih =>
      subst hx
      exact (givesOut_ending (hlocal x List.mem_cons_self) (hset x List.mem_cons_self)).trans
        (ih (fun z hz => hlocal z (List.mem_cons_of_mem _ hz))
          fun z hz => hset z (List.mem_cons_of_mem _ hz))
  have hleft : v.left? key = some (Value.remaining items position) := by
    rw [World.left?, hheld]
    rfl
  obtain ⟨added, hadded⟩ := hgives.given hkeeps _ hleft
  exact ⟨added, hadded.journal, hadded.all, hadded.order, hadded.rest⟩

/-- A step of the iterator in the variable `g`. -/
def drawingG : Tag := ⟨"iter_next", [("key", some "g")], [], .nowhere⟩

/-- A frame in which that is a global one with two items left. -/
def frameSharing : Frame :=
  { blankFrame with world := { blankFrame.world with
      globals := [("g", .iter [.str "x", .str "y", .str "z"] 1)] } }

/-- A group on a copy of the local variables takes two steps, -/
def ofDrawingTwice : Execution :=
  ⟨⟨"sub", [], [.tag drawingG, .tag drawingG], .nowhere⟩, 0, frameSharing, 2⟩

/-- and the next run a third one. -/
def ofDrawingAgain : Execution :=
  ⟨drawingG, 0, ⟨[], ((standard none).ending ofDrawingTwice).after.world⟩, 0⟩

/-- A step executes nothing. -/
theorem Executes.ne_drawingG (h : (standard limit).Executes x y) : x.tag ≠ drawingG := fun htag =>
  not_executes_of_tags_eq_nil (htag ▸ by decide) (htag ▸ rfl) h

/-- Both steps are taken where no local variable is in front of the global one. -/
theorem executes_ofDrawingTwice (h : (standard none).Executes ofDrawingTwice y) :
    y.tag = drawingG ∧ y.frame.locals.get? "g" = none := by
  have htag : y.tag = drawingG := by
    cases h.leads with
    | inside hmem => simpa [ofDrawingTwice, Tag.tags] using hmem
    | assertion hname => exact absurd hname (by decide)
    | body hname => exact absurd hname (by decide)
    | script hname => exact absurd hname (by decide)
  refine ⟨htag, ?_⟩
  obtain ⟨exec, hexec, executed, child, hpass⟩ := h.exists_pass_of_sub rfl
  have hreal {t : Frame} {ending : Ending Outcome} (hending : exec drawingG 1 t = ending) :
      ending = .exhausted t ∨ ending = (standard none).execute 2 drawingG 1 t :=
    hending ▸ hexec drawingG 1 t
  cases hpass with
  | cut hfirst =>
    obtain hcut | hdone := hreal hfirst
    · rw [Ending.exhausted.inj hcut]
      rfl
    · cases hdone
  | next hfirst _ hrest =>
    obtain hcut | hdone := hreal hfirst
    · cases hcut
    obtain rfl : _ = ((standard none).execute 2 drawingG 1 ofDrawingTwice.start).after :=
      congrArg Ending.after hdone
    cases hrest with
    | cut hsecond =>
      obtain hcut | hdone := hreal hsecond
      · rw [Ending.exhausted.inj hcut]
        rfl
      · cases hdone
    | next _ _ hend => cases hend

/-- What the two runs execute, apart from themselves, are such steps. -/
theorem encloses_drawing (hx : x = ofDrawingTwice ∨ x = ofDrawingAgain)
    {names : List String} (hy : (standard none).Encloses x names y) :
    y = ofDrawingTwice ∨ y.tag = drawingG ∧ y.frame.locals.get? "g" = none := by
  induction hy with
  | outermost => exact hx.imp_right fun h => by subst h; exact ⟨rfl, rfl⟩
  | inner _ hxy ih =>
    obtain rfl | ⟨htag, -⟩ := ih
    · exact .inr (executes_ofDrawingTwice hxy)
    · exact absurd htag hxy.ne_drawingG

theorem drawingG_draws_in_order :
    frameSharing.world.globals.get? "g" = some (.iter [.str "x", .str "y", .str "z"] 1) ∧
    (standard none).Runs frameSharing.world [ofDrawingTwice, ofDrawingAgain]
      ((standard none).ending ofDrawingAgain).after.world ∧
    (drawn "g" ((standard none).ending ofDrawingAgain).after.world.journal).length = 3 ∧
    (∀ (j : Nat) (outcome : Outcome),
      (drawn "g" ((standard none).ending ofDrawingAgain).after.world.journal)[j]? = some outcome →
      outcome = .value ([Value.str "y", .str "z"][j]?.getD (.bool true))) ∧
    ((standard none).ending ofDrawingAgain).after.world.left? "g" = some [] := by
  have hheld : frameSharing.world.globals.get? "g" =
      some (.iter [.str "x", .str "y", .str "z"] 1) := rfl
  have hagain : ofDrawingAgain.frame.world =
      ((standard none).ending ofDrawingTwice).after.world := by
    rw [ofDrawingAgain]
  have hruns : (standard none).Runs frameSharing.world [ofDrawingTwice, ofDrawingAgain]
      ((standard none).ending ofDrawingAgain).after.world := .next rfl (.next hagain (.none _))
  obtain ⟨added, hjournal, hlength, horder, hrest⟩ := runs_draw_in_order none (fun _ => rfl)
    hheld hruns
    (fun x hx names y hy hname _ => by
      obtain rfl | ⟨_, hunbound⟩ := encloses_drawing (by simpa using hx) hy
      · exact absurd hname (by decide)
      · exact (Frame.get?_begin_of_ne (by decide) (by decide)).trans hunbound)
    fun x hx names y hy hset => by
      obtain rfl | ⟨htag, _⟩ := encloses_drawing (by simpa using hx) hy
      · exact absurd hset.name (by decide)
      · exact absurd ((congrArg Tag.name htag).symm.trans hset.name) (by decide)
  obtain rfl : _ = added := hjournal.trans (List.append_nil added)
  have hthree := hlength.trans (show _ = 3 by decide +kernel)
  rw [hthree] at hrest
  exact ⟨hheld, hruns, hthree, horder, hrest⟩

end Engine

end TagScript
