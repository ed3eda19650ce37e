import TagScript.Proofs.Isolation
import TagScript.Proofs.Opening
import TagScript.Proofs.Rounds

/-!
# What becomes of a block when a tag yields false

Eleven tags go over other tags in order. All of them stop at the first that
yields false, and they differ in what that means for themselves: a script
and a branch fault, a group, a repetition, an iteration and a sheet end
well, and a call yields false – unless it was a `return` that yielded it.
`Tag.comesTo` is the table of this.

From where a block opens, all that it does is to make its passes and to
come to what the table says: `Site.Opens.makesPasses`.
-/

namespace TagScript

/-! ## What blocks come to -/

/-- **What a block comes to**, given how its passes end: an outcome, a
fault, or nothing because it does not end. A repetition whose passes are all
completed does not end. -/
def Tag.comesTo (tag : Tag) : Stop → Option (Except Cause Outcome)
  | .completed =>
    if tag.name = "loop" then none
    else if tag.name = "when" ∨ tag.name = "when_others" then some (.ok (.branch true true))
    else some (.ok .ok)
  | .broken child outcome =>
    if tag.name = "root" then some (.error (.scriptAborted child.name))
    else if tag.name ∈ ["then", "else", "when", "when_others"] then
      some (.error (.branchAborted tag.name child.name))
    else if tag.name = "call" ∨ tag.name = "cond_call" then
      some (.ok (if child.name = "return" then outcome else .fail))
    else some (.ok .ok)
  | .cut _ => none

/-- The ending that amounts to a result, if there is one. -/
def Ending.ofResult? {α : Type} : Option (Except Cause α) → Frame → Ending α
  | some (.ok a), t => .done a t
  | some (.error cause), t => .failed (.of cause) t
  | none, t => .exhausted t

/-- **A computation makes passes and comes to what they amount to.** -/
def Site.MakesPasses (site : Site) (tags : List Tag) (rounds : Nat) (w : World)
    (ending : Ending Outcome) : Prop :=
  ∃ passes stop t, site.PassesWithin tags rounds w passes stop t.world ∧
    ending = .ofResult? (site.tag.comesTo stop) t

namespace Site.MakesPasses

variable {site : Site} {tags : List Tag} {rounds : Nat} {w : World} {s : Frame}

/-- Passes may be made on a copy. -/
theorem isolated {x : Run Outcome} (h : site.MakesPasses tags rounds w (x s)) :
    site.MakesPasses tags rounds w (x.isolated s) := by
  obtain ⟨passes, stop, t, hpasses, hx⟩ := h
  unfold MakesPasses
  obtain hresult | ⟨cause | outcome, hresult⟩ := Option.eq_none_or_eq_some (site.tag.comesTo stop)
  · rw [hresult] at hx
    refine ⟨passes, stop, t, hpasses, ?_⟩
    rw [hresult]
    exact Run.isolated_of_exhausted hx
  · rw [hresult] at hx
    refine ⟨passes, stop, { t with locals := s.locals }, hpasses, ?_⟩
    rw [hresult]
    exact Run.isolated_of_failed hx
  · rw [hresult] at hx
    refine ⟨passes, stop, { t with locals := s.locals }, hpasses, ?_⟩
    rw [hresult]
    exact Run.isolated_of_done hx

theorem within {x : Run Outcome} (h : site.MakesPasses tags rounds w (x s)) (shared : Bool) :
    site.MakesPasses tags rounds w (Run.within shared x s) := by
  cases shared with
  | true => exact h
  | false => exact h.isolated

end Site.MakesPasses

/-! ## Calls -/

namespace Runner

/-- The frame in which the body of a procedure begins. -/
def callee (s : Frame) (tag : Tag) (name : String) : Frame :=
  ⟨s.locals.insertAll (parameters s tag), s.world.note (.called tag name)⟩

/-- How a call ends whose pass over the body ends in some way and in some
frame, given the frame it goes back to. -/
def afterBody (stop : Stop) (t back : Frame) : Ending Outcome :=
  stop.elim (.done .ok back)
    (fun child outcome => .done (if child.name = "return" then outcome else .fail) back)
    (.exhausted t)

/-- **A call passes over the body that it finds**, whatever becomes of the
registry meanwhile. -/
theorem exists_pass_of_invoke {site : Site} {s : Frame} {name : String} {procedure : Tag}
    {shared : Bool} (hcalls : site.calls)
    (hexec : ∀ child s fault t, site.run child s ≠ .failed fault t)
    (hprocedure : s.world.procedures.get? name = some procedure)
    (hshared : Run.passThrough site.tag s = .done shared s) :
    ∃ executed stop t, site.Pass procedure.tags (callee s site.tag name) executed stop t ∧
      invoke site name s = afterBody stop t (t.returnTo shared s) := by
  obtain ⟨executed, stop, t, h⟩ := Site.exists_pass hexec procedure.tags (callee s site.tag name)
  refine ⟨executed, stop, t, h, ?_⟩
  unfold invoke
  rw [Run.bind_of_done (show Run.look (·.world.procedures.get? name) s =
    .done (s.world.procedures.get? name) s from rfl), hprocedure]
  dsimp only
  rw [Run.bind_of_done hshared,
    Run.bind_of_done (show Run.look (parameters · site.tag) s = .done _ s from rfl),
    Run.bind_of_done (show Run.changeWorld (·.note (.called site.tag name)) s =
      .done () { s with world := s.world.note (.called site.tag name) } from rfl)]
  have hbody : (Run.change (fun u => { u with
      locals := u.locals.insertAll (parameters s site.tag) }) >>= fun _ =>
        body site procedure.tags) { s with world := s.world.note (.called site.tag name) } = _ :=
    Site.body_of_pass hcalls h
  cases stop with
  | completed => exact Site.within_of_done hbody shared
  | broken child outcome => exact Site.within_of_done hbody shared
  | cut child => exact Site.within_of_exhausted hbody shared

end Runner

/-! ## Each kind of block -/

namespace Runner

variable {site : Site} {s : Frame} {shared : Bool}
variable (hexec : ∀ child s fault t, site.run child s ≠ .failed fault t)
include hexec

/-- Passing over tags of which none may yield false. -/
theorem makesPasses_completesOr (hcalls : ¬site.calls) (tags : List Tag) {cause : Tag → Cause}
    {result : Outcome} (hcompleted : site.tag.comesTo .completed = some (.ok result))
    (hbroken : ∀ child outcome,
      site.tag.comesTo (.broken child outcome) = some (.error (cause child))) :
    site.MakesPasses tags 1 s.world ((do
      site.completesOr cause tags
      pure result : Run Outcome) s) := by
  obtain ⟨executed, stop, t, h⟩ := Site.exists_pass hexec tags s
  refine ⟨[executed], stop, t, h.passesWithin rfl rfl, ?_⟩
  rw [Run.bind_apply, Site.completesOr_of_pass hcalls h]
  cases stop with
  | completed =>
    rw [hcompleted]
    rfl
  | broken child outcome =>
    rw [hbroken]
    rfl
  | cut child => rfl

theorem makesPasses_root (hname : site.tag.name = "root") :
    site.MakesPasses site.tag.tags 1 s.world (root site s) :=
  Site.MakesPasses.isolated (makesPasses_completesOr hexec (by simp [Site.calls, hname]) _
    (by simp [Tag.comesTo, hname]) (by simp [Tag.comesTo, hname]))

theorem makesPasses_branch (hname : site.tag.name = "then" ∨ site.tag.name = "else") :
    site.MakesPasses site.tag.tags 1 s.world (branch site s) := by
  refine makesPasses_completesOr hexec ?_ _ ?_ ?_
  · obtain h | h := hname <;> simp [Site.calls, h]
  · obtain h | h := hname <;> simp [Tag.comesTo, h]
  · obtain h | h := hname <;> simp [Tag.comesTo, h]

theorem makesPasses_branchBody {tags : List Tag}
    (hname : site.tag.name = "when" ∨ site.tag.name = "when_others") :
    site.MakesPasses tags 1 s.world (branchBody site true tags s) := by
  refine makesPasses_completesOr hexec ?_ tags ?_ ?_
  · obtain h | h := hname <;> simp [Site.calls, h]
  · obtain h | h := hname <;> simp [Tag.comesTo, h]
  · obtain h | h := hname <;> simp [Tag.comesTo, h]

theorem makesPasses_sub (hname : site.tag.name = "sub")
    (hshared : Run.passThrough site.tag s = .done shared s) :
    site.MakesPasses site.tag.tags 1 s.world (sub site s) := by
  have hcalls : ¬site.calls := by simp [Site.calls, hname]
  unfold sub
  rw [Run.bind_of_done hshared]
  refine Site.MakesPasses.within ?_ shared
  obtain ⟨s', executed, stop, t, u, hs, h, ht, hcompletes⟩ :=
    Site.isRound_completes hexec hcalls s
  refine ⟨[executed], stop, u, h.passesWithin hs ht, ?_⟩
  rw [Run.bind_apply, hcompletes]
  cases stop <;> simp [Stop.elim, Tag.comesTo, Ending.ofResult?, hname]

theorem makesPasses_loop (hname : site.tag.name = "loop")
    (hshared : Run.passThrough site.tag s = .done shared s) :
    site.MakesPasses site.tag.tags site.rounds s.world (loop site s) := by
  have hcalls : ¬site.calls := by simp [Site.calls, hname]
  unfold loop
  rw [Run.bind_of_done hshared]
  refine Site.MakesPasses.within ?_ shared
  obtain ⟨passes, stop, t, h, hrepeat⟩ :=
    Site.exists_passes_repeatWhile (Site.isRound_completes hexec hcalls) site.rounds s
  refine ⟨passes, stop, t, h, ?_⟩
  rw [Run.bind_apply, hrepeat]
  cases stop <;> simp [Stop.elim, Tag.comesTo, Ending.ofResult?, hname]

theorem makesPasses_forIn (hname : site.tag.name = "for_in")
    (hshared : Run.passThrough site.tag s = .done shared s)
    (hcomputed : site.tag.hasAttr "key_eval" = false) {key : String}
    (hkey : Run.requireKey site.tag "key" s = .done key s) {entries : List (Value × Value)}
    (hentries : (s.read key).entries? = some entries) :
    site.MakesPasses site.tag.tags entries.length s.world (forIn site s) := by
  have hcalls : ¬site.calls := by simp [Site.calls, hname]
  unfold forIn
  rw [Run.bind_of_done hshared]
  dsimp only
  rw [if_neg (by simp [hcomputed]), Run.bind_of_done hkey,
    Run.bind_of_done (show Run.read key s = .done (s.read key) s from rfl), hentries]
  refine Site.MakesPasses.within ?_ shared
  have hround : ∀ entry : Value × Value, site.IsRound site.tag.tags (do
      Run.setLocal Reserved.forInKey entry.1
      Run.setLocal Reserved.forInValue entry.2
      site.completes) := fun entry =>
    ((Site.isRound_completes hexec hcalls).of_change fun _ => rfl).of_change fun _ => rfl
  obtain ⟨passes, stop, t, h, hforEach⟩ := Site.exists_passes_forEach hround entries s
  refine ⟨passes, stop, t, h, ?_⟩
  rw [Run.bind_apply, hforEach]
  cases stop <;> simp [Stop.elim, Tag.comesTo, Ending.ofResult?, hname]

theorem makesPasses_loadSheet (hname : site.tag.name = "load_data")
    (htype : Run.checkTableType site.tag s = .done () s)
    (hencoding : Run.checkEncoding site.tag s = .done () s)
    (hshared : Run.passThrough site.tag s = .done shared s) {policy : Table.FieldPolicy}
    (hpolicy : Run.fieldPolicy site.tag s = .done policy s) {name source : String}
    (hfile : Run.requireKey site.tag "name" s = .done name s)
    (hsource : Run.readFile name s = .done source s) :
    site.MakesPasses site.tag.tags (Table.Sheet.ofText policy source).rows.length s.world
      (loadSheet site s) := by
  have hcalls : ¬site.calls := by simp [Site.calls, hname]
  rw [loadSheet_of_source htype hencoding hshared hpolicy hfile hsource]
  have hround : ∀ item : Vars × Nat, site.IsRound site.tag.tags (Run.within shared do
      Run.change fun s => { s with
        locals := rowScope (Table.Sheet.ofText policy source).columns item.1 (item.2 + 1) s.locals }
      site.completes) := by
    intro item
    refine Site.IsRound.within ?_ shared
    exact (Site.isRound_completes hexec hcalls).of_change fun _ => rfl
  obtain ⟨passes, stop, t, h, hforEach⟩ := Site.exists_passes_forEach hround
    (Table.Sheet.ofText policy source).rows.zipIdx
    (s.setLocal Reserved.loadedDataCount
      (.int (Int64.ofNat (Table.Sheet.ofText policy source).count)))
  rw [List.length_zipIdx] at h
  cases stop with
  | completed =>
    refine ⟨passes, .completed, { t with locals := t.locals.erase Reserved.loadedDataCount }, h, ?_⟩
    rw [show site.tag.comesTo .completed = some (.ok .ok) by simp [Tag.comesTo, hname]]
    exact Run.bind_of_done hforEach _
  | broken child outcome =>
    refine ⟨passes, .broken child outcome,
      { t with locals := t.locals.erase Reserved.loadedDataCount }, h, ?_⟩
    rw [show site.tag.comesTo (.broken child outcome) = some (.ok .ok) by
      simp [Tag.comesTo, hname]]
    exact Run.bind_of_done hforEach _
  | cut child => exact ⟨passes, .cut child, t, h, Run.bind_of_exhausted hforEach _⟩

theorem makesPasses_otherwise (hname : site.tag.name = "when_others") :
    site.MakesPasses site.tag.tags 1 s.world (otherwise site s) :=
  makesPasses_branchBody hexec (.inr hname)

theorem makesPasses_whenHolds (hname : site.tag.name = "when") {assertion : Tag}
    {body : List Tag} (hassertion : site.tag.Asserts assertion body) {verdict : Outcome}
    {t : Frame} (hverdict : site.run assertion s = .done verdict t)
    (hholds : verdict.truthy = true) :
    site.MakesPasses body 1 t.world (whenHolds site s) := by
  rw [whenHolds_of_asserts hassertion, Run.bind_of_done hverdict, hholds]
  exact makesPasses_branchBody hexec (.inl hname)

theorem makesPasses_invoke (hcalls : site.calls) {name : String} {procedure : Tag}
    (hprocedure : s.world.procedures.get? name = some procedure)
    (hshared : Run.passThrough site.tag s = .done shared s) :
    site.MakesPasses procedure.tags 1 (s.world.note (.called site.tag name))
      (invoke site name s) := by
  obtain ⟨executed, stop, t, hpass, hinvoke⟩ :=
    exists_pass_of_invoke hcalls hexec hprocedure hshared
  have hback := t.world_returnTo shared s
  rw [hinvoke]
  cases stop with
  | completed =>
    refine ⟨[executed], _, _, hpass.passesWithin rfl hback.symm, ?_⟩
    obtain hname | hname := hcalls
    · simp [afterBody, Stop.elim, Tag.comesTo, Ending.ofResult?, hname]
    · simp [afterBody, Stop.elim, Tag.comesTo, Ending.ofResult?, hname]
  | broken child outcome =>
    refine ⟨[executed], _, _, hpass.passesWithin rfl hback.symm, ?_⟩
    obtain hname | hname := hcalls
    · simp [afterBody, Stop.elim, Tag.comesTo, Ending.ofResult?, hname]
    · simp [afterBody, Stop.elim, Tag.comesTo, Ending.ofResult?, hname]
  | cut child => exact ⟨[executed], _, t, hpass.passesWithin rfl rfl, rfl⟩

end Runner

/-- **A block that opens makes its passes.** -/
theorem Site.Opens.makesPasses {site : Site} {s : Frame} {tags : List Tag} {rounds : Nat}
    {w : World} (h : site.Opens s tags rounds w)
    (hexec : ∀ child s fault t, site.run child s ≠ .failed fault t) :
    ∃ runner, (site.tag.name, runner) ∈ builtins ∧
      site.MakesPasses tags rounds w (runner site s) := by
  cases h with
  | root h => exact ⟨Runner.root, by simp [builtins, h], Runner.makesPasses_root hexec h⟩
  | sub h hshared =>
    exact ⟨Runner.sub, by simp [builtins, h], Runner.makesPasses_sub hexec h hshared⟩
  | loop h hshared =>
    exact ⟨Runner.loop, by simp [builtins, h], Runner.makesPasses_loop hexec h hshared⟩
  | forIn h hshared hcomputed hkey hentries =>
    exact ⟨Runner.forIn, by simp [builtins, h],
      Runner.makesPasses_forIn hexec h hshared hcomputed hkey hentries⟩
  | loadSheet h htype hencoding hshared hpolicy hfile hsource =>
    exact ⟨Runner.loadSheet, by simp [builtins, h],
      Runner.makesPasses_loadSheet hexec h htype hencoding hshared hpolicy hfile hsource⟩
  | branch h =>
    refine ⟨Runner.branch, ?_, Runner.makesPasses_branch hexec h⟩
    obtain h | h := h
    · simp [builtins, h]
    · simp [builtins, h]
  | whenHolds h hassertion hverdict hholds =>
    exact ⟨Runner.whenHolds, by simp [builtins, h],
      Runner.makesPasses_whenHolds hexec h hassertion hverdict hholds⟩
  | otherwise h =>
    exact ⟨Runner.otherwise, by simp [builtins, h], Runner.makesPasses_otherwise hexec h⟩
  | call h hkey hprocedure hshared =>
    refine ⟨Runner.call, by simp [builtins, h], ?_⟩
    unfold Runner.call
    rw [Run.bind_of_done hkey]
    exact Runner.makesPasses_invoke hexec (.inl h) hprocedure hshared
  | conditionalCall h hkey hallowed hprocedure hshared =>
    refine ⟨Runner.conditionalCall, by simp [builtins, h], ?_⟩
    unfold Runner.conditionalCall
    rw [Run.bind_of_done hkey,
      Run.bind_of_done (show Run.look (·.locals) s = .done s.locals s from rfl), if_pos hallowed]
    exact Runner.makesPasses_invoke hexec (.inr h) hprocedure hshared

/-! ## Whole tags -/

/-- A block faults over a tag that yields false with one of two codes. -/
theorem Tag.code_of_comesTo {tag : Tag} {stop : Stop} {cause : Cause}
    (h : tag.comesTo stop = some (.error cause)) :
    cause.code = if tag.name = "root" then "ENGINE_SCRIPT_FAILED" else "ENGINE_BRANCH_FAILED" := by
  cases stop with
  | completed =>
    rw [comesTo] at h
    split at h
    · cases h
    · split at h
      · cases h
      · cases h
  | broken child outcome =>
    rw [comesTo] at h
    split at h
    · next hroot =>
      cases h
      rw [if_pos hroot]
      rfl
    · next hroot =>
      rw [if_neg hroot]
      split at h
      · cases h
        rfl
      · split at h
        · cases h
        · cases h
  | cut child => cases h

namespace Engine

/-- **A block ends at the first tag that yields false.** Take any of the
tags that go over other tags in order, at a depth within the limit.

If it opens, then it makes one pass after another and executes nothing
else. Each pass executes the first tags that are to be passed over, in
document order, and one after the other only if the one before has yielded
true and was not the `return` of a procedure; and only the last pass is not
completed. What the block comes to is told by how the last pass ends: it
yields an outcome, and then without a fault; or it faults with the code of
its kind, reports the fault and yields false; or it does not end, because a
tag inside it does not end, or because it is a repetition whose passes are
all completed.

If it does not open, then it faults before it has done anything, or it is
a branch of a selection that does not match or a conditional call that is
passed over. -/
theorem execute_breaks_at_falsy (limit : Option Nat) (means : Nat) (tag : Tag) (outer : Depth)
    (s : Frame) (hname : tag.name ∈ blockNames)
    (hwithin : ∀ d, limit = some d → (outer + 1).number ≤ d) :
    (∀ tags rounds w,
      ((standard limit).site means tag outer).Opens (s.begin tag outer) tags rounds w →
      ∃ passes stop t,
        ((standard limit).site means tag outer).Passes tags w passes stop t.world ∧
        (∀ executed ∈ passes, executed.map Prod.fst <+: tags ∧
          ∀ entry ∈ executed.dropLast,
            ∃ outcome, entry.2 = some outcome ∧ tag.goesOn entry.1 outcome = true) ∧
        passes.length ≤ rounds ∧ (stop = .completed → passes.length = rounds) ∧
        match tag.comesTo stop with
        | some (.ok outcome) =>
          (standard limit).execute (means + 1) tag outer s =
            .done outcome (t.leave tag (outer + 1) outcome)
        | some (.error cause) =>
          cause.code =
            (if tag.name = "root" then "ENGINE_SCRIPT_FAILED" else "ENGINE_BRANCH_FAILED") ∧
          (standard limit).execute (means + 1) tag outer s =
            .done .fail ((t.fault tag (outer + 1) ((Fault.of cause).chargedTo tag.span)).leave tag
              (outer + 1) .fail)
        | none => (standard limit).execute (means + 1) tag outer s = .exhausted t) ∧
    ((∀ tags rounds w,
        ¬((standard limit).site means tag outer).Opens (s.begin tag outer) tags rounds w) →
      ((standard limit).site means tag outer).Declines (s.begin tag outer)
        ((standard limit).inside means tag outer s)) := by
  have hexec := (standard limit).run_ne_failed means tag outer
  constructor
  · intro tags rounds w hopens
    obtain ⟨runner, hmem, passes, stop, t, hpasses, hending⟩ := hopens.makesPasses hexec
    have hinside := (inside_of_mem hmem hwithin means s).trans hending
    refine ⟨passes, stop, t, hpasses.chain, hpasses.chain.laws, hpasses.length_le,
      hpasses.length_eq, ?_⟩
    cases hresult : tag.comesTo stop with
    | none =>
      rw [hresult] at hinside
      exact boundary_of_exhausted hinside
    | some result =>
      rw [hresult] at hinside
      cases result with
      | ok outcome => exact boundary_of_done hinside
      | error cause => exact ⟨Tag.code_of_comesTo hresult, boundary_of_failed hinside⟩
  · -- a block that does not open declines, whatever it is
    intro hclosed
    obtain ⟨runner, hmem, ⟨tags, rounds, w, hopens⟩ | hdeclines⟩ :=
      @Site.exists_opensOrDeclines ((standard limit).site means tag outer) hname hexec
        (s.begin tag outer)
    · exact absurd hopens (hclosed tags rounds w)
    · rw [inside_of_mem hmem hwithin]
      exact hdeclines

/-- A procedure whose second tag yields false. -/
def greet : Tag :=
  ⟨"procedure", [("name", some "greet")],
    [.tag ⟨"set", [("key", some "x"), ("value", some "1")], [], .nowhere⟩,
      .tag ⟨"assert", [("key", some "y")], [], .nowhere⟩,
      .tag ⟨"return", [("key", some "x")], [], .nowhere⟩], .nowhere⟩

/-- A call of that procedure. -/
def caller : Tag := ⟨"call", [("name", some "greet")], [], .nowhere⟩

/-- A frame in which the procedure is defined. -/
def greeting : Frame := ⟨[], { World.ofFiles (.empty []) "" .bare with procedures := [("greet", greet)] }⟩

/-- The world in which its body begins. -/
def greeted : World := (greeting.begin caller 0).world.note (.called caller "greet")

theorem opens_caller :
    ((standard (some 5)).site 3 caller 0).Opens (greeting.begin caller 0) greet.tags 1 greeted :=
  have hkey : Run.requireKey caller "name" (greeting.begin caller 0) =
      .done "greet" (greeting.begin caller 0) := rfl
  have hprocedure : (greeting.begin caller 0).world.procedures.get? "greet" = some greet := rfl
  have hshared : Run.passThrough caller (greeting.begin caller 0) =
      .done false (greeting.begin caller 0) := rfl
  @Site.Opens.call ((standard (some 5)).site 3 caller 0) (greeting.begin caller 0) rfl "greet" hkey
    greet hprocedure false hshared

theorem caller_breaks_at_falsy :
    caller.name ∈ blockNames ∧
    (∀ d, some 5 = some d → (0 + 1 : Depth).number ≤ d) ∧
    ((standard (some 5)).site 3 caller 0).Opens (greeting.begin caller 0) greet.tags 1 greeted ∧
    ∃ passes stop t,
      ((standard (some 5)).site 3 caller 0).Passes greet.tags greeted passes stop t.world ∧
      (∀ executed ∈ passes, executed.map Prod.fst <+: greet.tags ∧
        ∀ entry ∈ executed.dropLast,
          ∃ outcome, entry.2 = some outcome ∧ caller.goesOn entry.1 outcome = true) ∧
      passes.length ≤ 1 ∧ (stop = .completed → passes.length = 1) ∧
      match caller.comesTo stop with
      | some (.ok outcome) =>
        (standard (some 5)).execute 4 caller 0 greeting =
          .done outcome (t.leave caller (0 + 1) outcome)
      | some (.error cause) =>
        cause.code =
          (if caller.name = "root" then "ENGINE_SCRIPT_FAILED" else "ENGINE_BRANCH_FAILED") ∧
        (standard (some 5)).execute 4 caller 0 greeting =
          .done .fail ((t.fault caller (0 + 1) ((Fault.of cause).chargedTo caller.span)).leave
            caller (0 + 1) .fail)
      | none => (standard (some 5)).execute 4 caller 0 greeting = .exhausted t := by
  have hwithin : ∀ d, some 5 = some d → (0 + 1 : Depth).number ≤ d := by
    rintro d h
    cases h
    decide
  exact ⟨by decide, hwithin, opens_caller,
    (execute_breaks_at_falsy (some 5) 3 caller 0 greeting (by decide) hwithin).1 _ _ _
      opens_caller⟩

end Engine

end TagScript
