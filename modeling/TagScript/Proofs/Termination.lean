import TagScript.File.System
import TagScript.Proofs.Conduct

/-!
# A limit on the depth ends every run without repetitions

Tags are executed from many places: from inside other tags, from the bodies
of procedures, which may call themselves, from modules, which may include
themselves, and from assertions that tags make of their own attributes. No
tag tree bounds all that. But every execution is one deeper than the one it
is asked for by, and beyond the limit a tag faults at once.

Only the repetition goes on at one and the same depth. It is the one runner
that is left out here: whatever stands in its place executes no tags.

That a run ends is said of its means: from some number of means on it is
not cut off any more, and always ends in the same way. What no limit ends is
a program that has been started: a command waits for its program, and
`waiting` for one that never ends. So a run comes to a result or it waits
for such a program, and on a system on which every program ends it comes to
a result.
-/

namespace TagScript

/-- Whether a computation was not cut off. -/
def Ending.isFinished {α : Type} : Ending α → Bool
  | .done .. | .failed .. => true
  | .exhausted _ => false

theorem Ending.exists_exhausted {α : Type} {ending : Ending α} (h : ending.isFinished = false) :
    ∃ t, ending = .exhausted t := by
  cases ending with
  | done a t => cases h
  | failed fault t => cases h
  | exhausted t => exact ⟨t, rfl⟩

/-- **A computation cannot be led on by more means**: it was not cut off, or
it waits for a program that never ends. -/
inductive Ending.IsFinal {α : Type} : Ending α → Prop where
  /-- It has a result. -/
  | done (a : α) (t : Frame) : IsFinal (.done a t)
  /-- It has faulted. -/
  | failed (fault : Fault) (t : Frame) : IsFinal (.failed fault t)
  /-- It waits. -/
  | waiting {t : Frame} (h : t.IsWaiting) : IsFinal (.exhausted t)

theorem Ending.isFinal_of_isFinished {α : Type} {ending : Ending α}
    (h : ending.isFinished = true) : ending.IsFinal := by
  cases ending with
  | done a t => exact .done a t
  | failed fault t => exact .failed fault t
  | exhausted t => cases h

/-- **No run waits on a system on which every program ends.** -/
theorem Frame.IsWaiting.not_ends {s : Frame} (h : s.IsWaiting) : ¬s.world.system.Ends := by
  obtain ⟨-, w, program, arguments, hworld, hlaunch⟩ := h
  obtain ⟨journal, hnote⟩ := w.exists_note_eq (.started program arguments)
  have hsystem : s.world.system = w.system := by
    rw [hworld, World.start, hnote]
  intro hends
  rw [hsystem] at hends
  unfold World.launch at hlaunch
  cases hstart : Command.start w.files w.system.programDirs w.primaryDir program arguments with
  | error why =>
    rw [hstart] at hlaunch
    cases hlaunch
  | ok inside =>
    rw [hstart] at hlaunch
    have hnever := Option.map_eq_none_iff.1 (Except.ok.inj hlaunch)
    have hsome := hends w.starts inside program arguments
    rw [hnever] at hsome
    cases hsome

/-! ## Settling -/

/-- **A computation settles as it is given more and more means**: from some
number of means on it always ends in the same way, and more means would not
lead it on. -/
def Settles {α : Type} (x : Nat → Run α) (s : Frame) : Prop :=
  ∃ enough ending, ending.IsFinal ∧ ∀ means, enough ≤ means → x means s = ending

namespace Settles

variable {α β : Type} {s : Frame}

/-- What does not depend on the means settles if more of them would not lead
it on. -/
theorem of_forall {x : Nat → Run α} {ending : Ending α} (hfinal : ending.IsFinal)
    (h : ∀ means, x means s = ending) : Settles x s :=
  ⟨0, ending, hfinal, fun means _ => h means⟩

theorem of_succ {x : Nat → Run α} (h : Settles (fun means => x (means + 1)) s) : Settles x s := by
  obtain ⟨enough, ending, hfinal, hx⟩ := h
  refine ⟨enough + 1, ending, hfinal, fun means hmeans => ?_⟩
  obtain ⟨more, rfl⟩ := Nat.exists_eq_add_of_lt hmeans
  exact hx (enough + more) (Nat.le_add_right _ _)

/-- **A sequence settles if its parts do.** -/
theorem bind {x : Nat → Run α} {f : Nat → α → Run β} (hx : Settles x s)
    (hf : ∀ means a t, x means s = .done a t → Settles (fun means => f means a) t) :
    Settles (fun means => x means >>= f means) s := by
  obtain ⟨enough, _, hfinal, hx⟩ := hx
  cases hfinal with
  | done a t =>
    -- from the greater of the two numbers of means on, both parts are settled
    obtain ⟨more, last, hlast, hf⟩ := hf enough a t (hx enough (Nat.le_refl _))
    refine ⟨max enough more, last, hlast, fun means hmeans => ?_⟩
    have hfirst := hx means (Nat.le_trans (Nat.le_max_left _ _) hmeans)
    exact (Run.bind_of_done hfirst _).trans (hf means (Nat.le_trans (Nat.le_max_right _ _) hmeans))
  | failed fault t =>
    exact ⟨enough, _, .failed fault t, fun means hmeans => Run.bind_of_failed (hx means hmeans) _⟩
  | waiting hwaits =>
    exact ⟨enough, _, .waiting hwaits,
      fun means hmeans => Run.bind_of_exhausted (hx means hmeans) _⟩

/-- What is done on a copy settles if it does on the variables
themselves. -/
theorem isolated {x : Nat → Run α} (hx : Settles x s) :
    Settles (fun means => (x means).isolated) s := by
  obtain ⟨enough, _, hfinal, hx⟩ := hx
  cases hfinal with
  | done a t =>
    exact ⟨enough, _, .done a _, fun means hmeans => Run.isolated_of_done (hx means hmeans)⟩
  | failed fault t =>
    exact ⟨enough, _, .failed fault _, fun means hmeans => Run.isolated_of_failed (hx means hmeans)⟩
  | waiting hwaits =>
    -- what waits keeps the copy
    exact ⟨enough, _, .waiting hwaits,
      fun means hmeans => Run.isolated_of_exhausted (hx means hmeans)⟩

/-- **The logic of settling.** -/
def logic (tag : Tag) : Logic tag Nat where
  holds := Settles
  result h := of_forall (.done _ _) h
  act h _ := of_forall (.done _ _) h
  fault h _ := of_forall (.failed _ _) h
  waits h hs := of_forall (.waiting hs) h
  bind := bind
  copied := isolated

/-- A tag settles if its runner does: no fault crosses its boundary, and what
waits inside waits. -/
theorem boundary {body : Nat → Run Outcome} {tag : Tag} {depth : Depth}
    (h : Settles body (s.enter tag depth)) :
    Settles (fun means => TagScript.boundary tag depth (body means)) s := by
  obtain ⟨enough, _, hfinal, hbody⟩ := h
  cases hfinal with
  | done outcome t =>
    exact ⟨enough, _, .done _ _, fun means hmeans => boundary_of_done (hbody means hmeans)⟩
  | failed fault t =>
    exact ⟨enough, _, .done _ _, fun means hmeans => boundary_of_failed (hbody means hmeans)⟩
  | waiting hwaits =>
    exact ⟨enough, _, .waiting hwaits, fun means hmeans => boundary_of_exhausted (hbody means hmeans)⟩

/-- A tag settles if its runner does where it is called. -/
theorem dispatch {e : Engine} {tag : Tag} {depth : Depth}
    (h : (∀ limit, e.maxDepth = some limit → depth.number ≤ limit) →
      ∀ runner, e.runners.get? tag.name = some runner → ∀ t,
        Settles (fun means => runner ⟨tag, depth, e.execute means, means⟩) t) :
    Settles (fun means => e.dispatch ⟨tag, depth, e.execute means, means⟩) s := by
  obtain hwithin | ⟨limit, hlimit, hexceeds⟩ := e.isWithin_or_exceeds depth
  · cases hget : e.runners.get? tag.name with
    | none =>
      simp only [Engine.dispatch_of_unknown hwithin hget]
      exact .of_forall (.failed _ _) fun _ => rfl
    | some runner =>
      simp only [Engine.dispatch_of_runner hwithin hget]
      exact h hwithin runner hget (s.invoke tag depth)
  · simp only [Engine.dispatch_of_exceeds hlimit hexceeds]
    exact .of_forall (.failed _ _) fun _ => rfl

/-- **An execution that settles comes to a result or waits**: for a fault
there is no way out. -/
theorem done_or_isWaiting {e : Engine} {tag : Tag} {outer : Depth}
    (h : Settles (fun means => e.execute means tag outer) s) :
    (∃ enough outcome t, ∀ means, enough ≤ means →
      e.execute means tag outer s = .done outcome t) ∨
    ∃ enough t, t.IsWaiting ∧ ∀ means, enough ≤ means →
      e.execute means tag outer s = .exhausted t := by
  obtain ⟨enough, _, hfinal, hexec⟩ := h
  cases hfinal with
  | done outcome t => exact .inl ⟨enough, outcome, t, hexec⟩
  | failed fault t =>
    exact absurd (hexec enough (Nat.le_refl _)) (Engine.execute_ne_failed _ _ _ _ _ _ _)
  | waiting hwaits => exact .inr ⟨enough, _, hwaits, hexec⟩

/-- **It comes to a result where it cannot wait.** -/
theorem exists_done {e : Engine} {tag : Tag} {outer : Depth}
    (h : Settles (fun means => e.execute means tag outer) s)
    (hidle : ∀ means, ¬(e.execute means tag outer s).after.IsWaiting) :
    ∃ enough outcome t, ∀ means, enough ≤ means →
      e.execute means tag outer s = .done outcome t := by
  obtain hdone | ⟨enough, t, hwaits, hexec⟩ := h.done_or_isWaiting
  · exact hdone
  · refine absurd hwaits ?_
    have hafter := hidle enough
    rwa [hexec enough (Nat.le_refl _)] at hafter

end Settles

/-! ## Engines without repetitions -/

namespace Engine

/-- **The engine of the language with something else in place of the
repetition**, which sees its tag, its depth and its frame and is given no
way to execute tags. -/
def loopFree (limit : Option Nat) (step : Tag → Depth → Run Outcome) : Engine :=
  (standard limit).extend [("loop", fun site => step site.tag site.depth)]

/-- Its runners are those of the language, apart from that one. -/
theorem runner_loopFree {limit : Option Nat} {step : Tag → Depth → Run Outcome} {name : String}
    {runner : Runner} (h : (loopFree limit step).runners.get? name = some runner) :
    (name ≠ "loop" ∧ (name, runner) ∈ builtins) ∨
      runner = fun site => step site.tag site.depth := by
  dsimp only [loopFree, extend, standard, Dict.insertAll, List.foldl] at h
  by_cases hname : name = "loop"
  · rw [hname, Dict.get?_insert_self] at h
    exact .inr (Option.some.inj h).symm
  · rw [Dict.get?_insert_of_ne _ _ hname] at h
    exact .inl ⟨hname, mem_builtins_of_get? h⟩

variable {limit : Nat} {step : Tag → Depth → Run Outcome}

/-- The runner of a tag settles if the tags one deeper do, and it is at all
called only within the limit. -/
theorem settles_dispatch (hstep : ∀ tag depth s, (step tag depth s).isFinished = true)
    {depth : Depth}
    (hexec : depth.number ≤ limit → ∀ child s,
      Settles (fun means => (loopFree (some limit) step).execute means child depth) s)
    (tag : Tag) (s : Frame) :
    Settles (fun means => (loopFree (some limit) step).dispatch
      ⟨tag, depth, (loopFree (some limit) step).execute means, means⟩) s := by
  refine Settles.dispatch fun hwithin runner hget t => ?_
  obtain ⟨hname, hbuiltin⟩ | rfl := runner_loopFree hget
  · exact (Settles.logic tag).obeys_builtins hbuiltin hname depth _ _ t
      fun child _ => hexec (hwithin limit rfl) child
  · exact .of_forall (Ending.isFinal_of_isFinished (hstep tag depth t)) fun _ => rfl

/-- **Below the limit every execution settles.** The induction is on how far
the limit is away. -/
theorem settles_execute (hstep : ∀ tag depth s, (step tag depth s).isFinished = true)
    (away : Nat) {outer : Depth} (houter : 0 ≤ outer) (haway : (limit : Int) ≤ outer + away)
    (tag : Tag) (s : Frame) :
    Settles (fun means => (loopFree (some limit) step).execute means tag outer) s := by
  induction away generalizing outer tag s with
  | zero =>
    refine Settles.of_succ (Settles.boundary (settles_dispatch hstep (fun hwithin => ?_) tag _))
    -- at the limit the depth is refused, so no tag inside is ever asked for
    have hdeeper : 0 ≤ outer + 1 := Int.add_nonneg houter Int.one_nonneg
    rw [Depth.number_of_nonneg hdeeper] at hwithin
    omega
  | succ away ih =>
    refine Settles.of_succ (Settles.boundary (settles_dispatch hstep (fun _ => ?_) tag _))
    exact ih (Int.add_nonneg houter Int.one_nonneg) (by omega)

/-! ## What is invoked -/

/-- An event that, if it is the call of a runner, is within a limit. -/
def IsWithin (limit : Nat) : Event → Prop
  | .invoked _ depth _ _ _ => depth.number ≤ limit
  | _ => True

/-- **No run calls a runner beyond the limit.** -/
theorem conduct_isWithin {e : Engine} (hlimit : e.maxDepth = some limit) :
    Conduct e (Frame.Adds (IsWithin limit)) where
  toCourse := course_adds _
  act h := h.adds (fun _ => trivial) fun _ _ => trivial
  passage h := by
    cases h with
    | entered tag depth => exact .of_note rfl trivial
    | invoked tag depth hwithin => exact .of_note rfl (hwithin limit hlimit)
    | faulted tag depth fault => exact .of_note (Frame.journal_fault _ tag depth fault) trivial
    | left tag depth outcome => exact .of_note rfl trivial

/-! ## What the surroundings are -/

/-- Where every program ends, no execution comes to wait. -/
theorem not_isWaiting_execute {e : Engine}
    (he : ∀ name runner, e.runners.get? name = some runner →
      (name, runner) ∈ builtins ∨ ∀ site s, Frame.SameSurroundings s (runner site s).after)
    {s : Frame} (hends : s.world.system.Ends) (means : Nat) (tag : Tag) (outer : Depth) :
    ¬(e.execute means tag outer s).after.IsWaiting := by
  intro hwaits
  have hsame := (conduct_surroundings e).execute he means tag outer s
  exact hwaits.not_ends (hsame.system ▸ hends)

/-- **A limit on the depth ends every run without repetitions**, as far as
that can be up to the run. Let the repetition be replaced by something that
always ends and leaves the journal and the surroundings alone, and let tags
nest no deeper than some limit. Take any tag in any frame.

Either its execution comes to a result, the same with all sufficient means,
or from some number of means on it waits, always for the same program, which
never ends. So if every program of the system ends, it comes to a result.
And, with however many means, no runner is called beyond the limit. -/
theorem execute_loopFree_terminates (limit : Nat) (step : Tag → Depth → Run Outcome)
    (hstep : ∀ tag depth s, (step tag depth s).isFinished = true)
    (hjournal : ∀ tag depth s, (step tag depth s).after.world.journal = s.world.journal)
    (hsurroundings : ∀ tag depth s, Frame.SameSurroundings s (step tag depth s).after)
    (tag : Tag) (s : Frame) :
    ((∃ enough outcome t, ∀ means, enough ≤ means →
        (loopFree (some limit) step).execute means tag 0 s = .done outcome t) ∨
      ∃ enough t, t.IsWaiting ∧ ∀ means, enough ≤ means →
        (loopFree (some limit) step).execute means tag 0 s = .exhausted t) ∧
    (s.world.system.Ends → ∃ enough outcome t, ∀ means, enough ≤ means →
      (loopFree (some limit) step).execute means tag 0 s = .done outcome t) ∧
    ∀ means, ∃ added,
      ((loopFree (some limit) step).execute means tag 0 s).after.world.journal =
        added ++ s.world.journal ∧
      ∀ child depth trace locals globals,
        .invoked child depth trace locals globals ∈ added → depth.number ≤ limit := by
  have hsettles := settles_execute hstep limit (Int.le_refl 0)
    (Int.le_of_eq (Int.zero_add _).symm) tag s
  refine ⟨hsettles.done_or_isWaiting, fun hends => ?_, fun means => ?_⟩
  · refine hsettles.exists_done fun means => not_isWaiting_execute (fun name runner h => ?_) hends
      means tag 0
    obtain ⟨_, hbuiltin⟩ | rfl := runner_loopFree h
    · exact .inl hbuiltin
    · exact .inr fun site s => hsurroundings site.tag site.depth s
  · have hc : Conduct (loopFree (some limit) step) (Frame.Adds (IsWithin limit)) :=
      conduct_isWithin rfl
    have hrun := hc.execute (fun name runner h => by
      obtain ⟨_, hbuiltin⟩ | rfl := runner_loopFree h
      · exact .inl hbuiltin
      · exact .inr fun site s => .of_journal_eq (hjournal site.tag site.depth s)) means tag 0 s
    obtain ⟨added, hadded, hwithin⟩ := hrun
    exact ⟨added, hadded, fun child depth trace locals globals h => hwithin _ h⟩

/-- A condition whose assertion is the condition itself. -/
def selfAsserting : Tag := ⟨"if", [("_assert", some "if")], [], .nowhere⟩

/-- A frame with nothing in it, whose journal keeps everything. -/
def blankFrame : Frame := ⟨[], { World.ofFiles (.empty []) "" .bare with keeps := fun _ => true }⟩

/-- A step that does nothing. -/
def passOver : Tag → Depth → Run Outcome := fun _ _ => pure .ok

theorem execute_selfAsserting_terminates :
    (∀ tag depth s, (passOver tag depth s).isFinished = true) ∧
    (∀ tag depth s, (passOver tag depth s).after.world.journal = s.world.journal) ∧
    (∀ tag depth s, Frame.SameSurroundings s (passOver tag depth s).after) ∧
    blankFrame.world.system.Ends ∧
    (∃ enough outcome t, ∀ means, enough ≤ means →
      (loopFree (some 7) passOver).execute means selfAsserting 0 blankFrame = .done outcome t) ∧
    ∀ means, ∃ added,
      ((loopFree (some 7) passOver).execute means selfAsserting 0 blankFrame).after.world.journal =
        added ++ blankFrame.world.journal ∧
      ∀ child depth trace locals globals,
        .invoked child depth trace locals globals ∈ added → depth.number ≤ 7 := by
  obtain ⟨_, hdone, hwithin⟩ := execute_loopFree_terminates 7 passOver (fun _ _ _ => rfl)
    (fun _ _ _ => rfl) (fun _ _ _ => ⟨rfl, rfl⟩) selfAsserting blankFrame
  exact ⟨fun _ _ _ => rfl, fun _ _ _ => rfl, fun _ _ _ => ⟨rfl, rfl⟩, System.ends_bare,
    hdone System.ends_bare, hwithin⟩

/-! ## The command that never ends -/

/-- A system on which one command file is run without end. -/
def patient : System where
  programDirs := ["/usr/bin", "/bin"]
  run _ files program arguments :=
    if program = "sh" ∧ arguments = ["wait.sh"] then none else some ⟨files, true⟩

/-- A scope that may start commands, on that system. -/
def trusted : Frame where
  locals := [(Reserved.procPrivilege, .str "call_os_cmd")]
  world := World.ofFiles
    ((Files.system ["sh"] ["home"]).makeFile ["home", "wait.sh"] (.text "while :; do :; done\n"))
    "" patient

/-- A command that is waited for without end. -/
def waiting : Tag :=
  ⟨"call_os_cmd", [("cmd", some "sh"), ("args", some "wait.sh")], [], .nowhere⟩

/-- It is cut off with however many means. -/
theorem execute_waiting {e : Engine} (hrunner : e.runners.get? "call_os_cmd" = some Runner.command)
    (hlimit : ∀ limit, e.maxDepth = some limit → 1 ≤ limit) (means : Nat) :
    ∃ t, e.execute means waiting 0 trusted = .exhausted t := by
  cases means with
  | zero => exact ⟨trusted, rfl⟩
  | succ means =>
    -- a command executes no tags, so it does not matter how they are executed
    have hcut : (Runner.command ⟨waiting, 1, fun _ _ => Run.exhausted, 0⟩
        ((trusted.enter waiting 1).invoke waiting 1)).isFinished = false := by decide
    obtain ⟨t, ht⟩ := Ending.exists_exhausted hcut
    have hdispatch : e.dispatch ⟨waiting, 1, e.execute means, means⟩ (trusted.enter waiting 1) =
        Runner.command ⟨waiting, 1, e.execute means, means⟩
          ((trusted.enter waiting 1).invoke waiting 1) :=
      congrFun (@dispatch_of_runner e waiting 1 hlimit _ hrunner _ _) _
    exact ⟨t, boundary_of_exhausted (hdispatch.trans ht)⟩

/-- **No limit ends a command that waits for ever.** -/
theorem waiting_does_not_end :
    (∀ tag depth s, (passOver tag depth s).isFinished = true) ∧
    ¬∃ means outcome t,
      (loopFree (some 7) passOver).execute means waiting 0 trusted = .done outcome t := by
  refine ⟨fun _ _ _ => rfl, ?_⟩
  rintro ⟨means, outcome, t, h⟩
  obtain ⟨u, hu⟩ := @execute_waiting (loopFree (some 7) passOver) rfl
    (fun _ hlimit => Option.some.inj hlimit ▸ (by decide)) means
  rw [hu] at h
  cases h

end Engine

end TagScript
