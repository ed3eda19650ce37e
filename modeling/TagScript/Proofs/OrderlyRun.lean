import TagScript.CommandLine
import TagScript.Proofs.Nesting
import TagScript.Proofs.Orderly

/-!
# Runs in order

Some statements about single tags ask that keys ascend in the frame that they are
about. An iteration goes over a map in the order of its keys, and `Value.IsOrdered`
says that it has one; the two layers of variables read as one only where no local
name stands twice, which follows from `Dict.Ascending`. Of a run neither has to be
asked. A run that begins in order stays in order: in whatever frame an execution
inside it begins, however deep, and in whatever frame it ends. Runs of scripts
begin in order.

That a run ends in order is an induction on its means, with the boundary around a
tag as its step. An execution inside it begins in a frame that need not be the end
of anything, yet it would be if the execution were cut off there; and to cut off
what begins out of order is orderly, because in order nothing changes.
-/

namespace TagScript

/-- The boundary around a tag keeps the order as far as its runner does. -/
theorem orderly_boundary {tag : Tag} {depth : Depth} {body : Run Outcome}
    (h : body.Orderly Outcome.InOrder) : (boundary tag depth body).Orderly Outcome.InOrder := by
  intro s hs
  obtain ⟨hafter, hresult⟩ := h _ (hs.enter tag depth)
  cases hbody : body (s.enter tag depth) with
  | done outcome t =>
    rw [hbody] at hafter
    rw [boundary_of_done hbody]
    exact ⟨hafter.leave tag depth outcome, fun _ _ heq =>
      (Ending.done.inj heq).1 ▸ hresult outcome t hbody⟩
  | failed fault t =>
    rw [hbody] at hafter
    rw [boundary_of_failed hbody]
    exact ⟨(hafter.fault tag depth _).leave tag depth _, fun _ _ heq =>
      (Ending.done.inj heq).1 ▸ Outcome.inOrder_ofBool false⟩
  | exhausted t =>
    rw [hbody] at hafter
    rw [boundary_of_exhausted hbody]
    exact ⟨hafter, nofun⟩

/-- **What an orderly computation asks for begins in order**, since cut off there
it would end there. -/
theorem Run.inOrder_of_asks {α : Type} {P : α → Prop}
    {x : (Tag → Depth → Run Outcome) → Run α} {exec : Tag → Depth → Run Outcome} {s t : Frame}
    {child : Tag} {depth : Depth}
    (hx : ∀ exec : Tag → Depth → Run Outcome,
      (∀ c d, (exec c d).Orderly Outcome.InOrder) → (x exec).Orderly P)
    (hexec : ∀ c d, (exec c d).Orderly Outcome.InOrder) (hs : s.InOrder)
    (h : Asks x exec s child depth t) : t.InOrder := by
  classical
  refine Classical.byContradiction fun ht => ?_
  -- to cut off what begins out of order is orderly, as nothing in order is cut off
  let other : Tag → Depth → Run Outcome := fun c d v =>
    if c = child ∧ d = depth ∧ v = t then .exhausted t else exec c d v
  have hother (c : Tag) (d : Depth) : (other c d).Orderly Outcome.InOrder := by
    intro v hv
    have hsame : other c d v = exec c d v := if_neg fun ⟨_, _, heq⟩ => ht (heq ▸ hv)
    rw [hsame]
    exact hexec c d v hv
  have hcut : x other s = .exhausted t :=
    h t other (if_pos ⟨rfl, rfl, rfl⟩) fun _ _ _ hne => if_neg hne
  have hafter := (hx other hother s hs).1
  rw [hcut] at hafter
  exact ht hafter

namespace Engine

/-- **An orderly engine**: all its runners are. -/
def IsOrderly (e : Engine) : Prop := ∀ entry ∈ e.runners, Runner.IsOrderly entry.2

/-- The engine of the language is orderly, -/
theorem isOrderly_standard (limit : Option Nat) : (standard limit).IsOrderly := by
  intro entry hentry
  obtain h | h := Dict.mem_or_mem_of_mem_insertAll hentry
  · exact isOrderly_builtins entry h
  · exact absurd h List.not_mem_nil

namespace IsOrderly

variable {e : Engine} (he : e.IsOrderly)
include he

/-- and stays so with orderly runners added. -/
theorem extend {runners : List (String × Runner)}
    (h : ∀ entry ∈ runners, Runner.IsOrderly entry.2) : (e.extend runners).IsOrderly :=
  fun entry hentry => (Dict.mem_or_mem_of_mem_insertAll hentry).elim (h entry) (he entry)

theorem orderly_dispatch {site : Site}
    (hexec : ∀ child, (site.run child).Orderly Outcome.InOrder) :
    (e.dispatch site).Orderly Outcome.InOrder := by
  have hdepth : (e.checkDepth site.depth).KeepsOrder := by
    unfold checkDepth
    split
    · exact Run.orderly_ite (Run.orderly_fail _) (Run.keepsOrder_pure ())
    · exact Run.keepsOrder_pure ()
  refine Run.orderly_seq hdepth fun _ => ?_
  cases hrunner : e.runners.get? site.tag.name with
  | none => exact Run.orderly_fail _
  | some runner =>
    exact Run.orderly_seq (Run.keepsOrder_change fun _ hs => hs.invoke _ _) fun _ =>
      he _ (Dict.mem_of_get?_eq_some hrunner) site hexec

/-- **Executing a tag keeps the order**, whatever its means, and what it yields is in
order. -/
theorem orderly_execute (means : Nat) (tag : Tag) (outer : Depth) :
    (e.execute means tag outer).Orderly Outcome.InOrder := by
  induction means generalizing tag outer with
  | zero => exact Run.orderly_exhausted
  | succ means ih => exact orderly_boundary (he.orderly_dispatch fun child => ih child _)

variable {first x y : Execution} {names : List String}

/-- An execution inside one that begins in order begins in order. -/
theorem inOrder_of_executes (h : e.Executes x y) (hx : x.frame.InOrder) : y.frame.InOrder :=
  Run.inOrder_of_asks
    (fun exec hexec => @orderly_dispatch e he ⟨x.tag, x.outer + 1, exec, x.means⟩
      fun child => hexec child (x.outer + 1))
    (he.orderly_execute x.means) (hx.enter x.tag _) h.asks

/-- **A run that begins in order is in order wherever an execution inside it
begins**, and so it is where the runner of its tag is called. -/
theorem inOrder_of_encloses (hfirst : first.frame.InOrder) (h : e.Encloses first names x) :
    x.frame.InOrder ∧ (x.frame.begin x.tag x.outer).InOrder := by
  have hframe : x.frame.InOrder := by
    induction h with
    | outermost => exact hfirst
    | inner _ hy ih => exact he.inOrder_of_executes hy ih
  exact ⟨hframe, hframe.begin _ _⟩

/-- So an iteration, and any other tag, finds the members of a map in order, -/
theorem isOrdered_read (hfirst : first.frame.InOrder) (h : e.Encloses first names x)
    (key : String) : ((x.frame.begin x.tag x.outer).read key).IsOrdered :=
  ((he.inOrder_of_encloses hfirst h).2.read key).isOrdered

/-- and a template its local variables. -/
theorem ascending_locals (hfirst : first.frame.InOrder) (h : e.Encloses first names x) :
    (x.frame.begin x.tag x.outer).locals.Ascending :=
  (he.inOrder_of_encloses hfirst h).2.locals.ascending

end IsOrderly

/-- **The engine stays orderly with the instruments.** -/
theorem isOrderly_extend_instruments (limit : Option Nat) :
    ((standard limit).extend instruments).IsOrderly :=
  (isOrderly_standard limit).extend isOrderly_instruments

end Engine

/-! ## Where runs begin

A script is run from the command line with the variables that its words assign, and
once it has been loaded with two more that tell of the script. A session goes on from
where its last request has ended. -/

/-- **A session stays in order** from request to request. -/
theorem Session.inOrder_of_execute {s t : Session} (he : s.engine.IsOrderly)
    (hs : s.frame.InOrder) {means : Nat} {tag : Tag} {outer : Depth} {outcome : Outcome}
    (h : s.execute means tag outer = some (outcome, t)) : t.frame.InOrder := by
  have hafter := (he.orderly_execute means tag outer s.frame hs).1
  unfold execute at h
  split at h
  · next heq =>
    obtain ⟨_, rfl⟩ := Prod.mk.inj (Option.some.inj h)
    rwa [heq] at hafter
  · next heq =>
    obtain ⟨_, rfl⟩ := Prod.mk.inj (Option.some.inj h)
    rwa [heq] at hafter
  · cases h

theorem World.inOrder_pointAt {w : World} (h : Vars.InOrder w.globals) (path : String) :
    Vars.InOrder (w.pointAt path).globals :=
  (h.insert _ (.str _)).insert _ (.str _)

/-- **Loading a script** keeps the engine and the order. -/
theorem Session.inOrder_of_load {s t : Session} {path : String} {script : Tag}
    (hs : s.frame.InOrder) (h : s.load path = .ok (script, t)) :
    t.engine = s.engine ∧ t.frame.InOrder := by
  unfold Session.load World.load at h
  cases hscript : Script.ofFile s.frame.world.files path with
  | error cause =>
    rw [hscript] at h
    cases h
  | ok tag =>
    rw [hscript] at h
    obtain ⟨_, rfl⟩ := Prod.mk.inj (Except.ok.inj h)
    exact ⟨rfl, hs.locals, World.inOrder_pointAt hs.globals path⟩

namespace CommandLine

/-- The words of a command line assign texts. -/
theorem inOrder_of_mem_assignments {words : List String} {globals : List (String × Value)}
    (h : assignments words = .ok globals) : ∀ binding ∈ globals, binding.2.InOrder := by
  induction words generalizing globals with
  | nil =>
    obtain rfl := Except.ok.inj h
    exact nofun
  | cons word rest ih =>
    unfold assignments at h
    split at h
    · cases h
    next entry hentry =>
    have hvalue : entry.2.InOrder := by
      unfold assignment at hentry
      dsimp only at hentry
      split at hentry
      · cases hentry
      split at hentry
      · cases hentry
      · obtain rfl := Except.ok.inj hentry
        exact .str _
    cases hrest : assignments rest with
    | error cause =>
      rw [hrest] at h
      cases h
    | ok more =>
      rw [hrest] at h
      obtain rfl := Except.ok.inj h
      exact List.forall_mem_cons.2 ⟨hvalue, ih hrest⟩

theorem inOrder_startingLocals (grants : List String) : Vars.InOrder (startingLocals grants) := by
  unfold startingLocals
  split
  · exact .empty
  · exact Vars.InOrder.empty.grant _

/-- **Every run of a script from the command line is in order**, wherever an
execution inside it begins and wherever the runner of its tag is called. -/
theorem inOrder_of_encloses {request : RunRequest} {system : System} {files : Files}
    {clock : String} {globals : List (String × Value)} {script : Tag} {session : Session}
    (hassigned : assignments request.assignments = .ok globals)
    (hloaded : (startingSession request system files clock globals).load request.script =
      .ok (script, session))
    {means : Nat} {names : List String} {x : Execution}
    (h : session.engine.Encloses ⟨script, 0, session.frame, means⟩ names x) :
    x.frame.InOrder ∧ (x.frame.begin x.tag x.outer).InOrder := by
  have hstart : (startingSession request system files clock globals).frame.InOrder :=
    ⟨inOrder_startingLocals request.grants, .ofList (inOrder_of_mem_assignments hassigned)⟩
  obtain ⟨hengine, hframe⟩ := Session.inOrder_of_load hstart hloaded
  rw [hengine] at h
  exact (Engine.isOrderly_standard request.maxDepth).inOrder_of_encloses hframe h

end CommandLine

end TagScript
