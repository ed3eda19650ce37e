import TagScript.Proofs.Act

/-!
# Logics of computations

A runner puts acts and executions of tags one after another, on the local
variables themselves or on a copy. A `Logic` is a property of computations
that is closed under this, so that a runner has it as soon as its acts and
the executions of further tags have it.

A logic speaks of families of computations and not of single ones, because
the statements to be made compare runs: the same tag with more and more
means, or with two limits on the depth. All members of a family start from
one frame and do the same acts, and differ in how they execute tags.

A logic is one of a tag, that whose runner is at work, and need only be
closed under what that runner can do.
-/

namespace TagScript

/-- **A logic of computations**: a property of families of computations in
a frame that is closed under what the runner of a tag is built from. -/
structure Logic (tag : Tag) (ι : Type) where
  /-- The property. -/
  holds : {α : Type} → (ι → Run α) → Frame → Prop
  /-- A result without any change has it. -/
  result {α : Type} {x : ι → Run α} {s : Frame} {a : α} (h : ∀ i, x i s = .done a s) : holds x s
  /-- An act has it. -/
  act {α : Type} {x : ι → Run α} {s t : Frame} {a : α}
    (h : ∀ i, x i s = .done a t) (ht : Act tag s t) : holds x s
  /-- A runner's fault has it. -/
  fault {α : Type} {x : ι → Run α} {s : Frame} {cause : Cause}
    (h : ∀ i, x i s = .failed (.of cause) s) (hcause : cause.isRunners = true) : holds x s
  /-- Waiting for a program that never ends has it. -/
  waits {α : Type} {x : ι → Run α} {s : Frame} (h : ∀ i, x i s = .exhausted s)
    (hs : s.IsWaiting) : holds x s
  /-- A sequence has it; the second part need only have it where the first
  part leads. -/
  bind {α β : Type} {x : ι → Run α} {f : ι → α → Run β} {s : Frame} (hx : holds x s)
    (hf : ∀ i a t, x i s = .done a t → holds (fun j => f j a) t) : holds (fun i => x i >>= f i) s
  /-- What is done on a copy has it. -/
  copied {α : Type} {x : ι → Run α} {s : Frame} (hx : holds x s) :
    holds (fun i => (x i).isolated) s

namespace Logic

variable {tag : Tag} {ι : Type} (L : Logic tag ι) {α β : Type} {s : Frame}

/-! ## What computations are built with -/

theorem holds_looks {x : Run α} (hx : x.Looks) (s : Frame) : L.holds (fun _ => x) s := by
  obtain ⟨a, ha⟩ | ⟨cause, hcause, ha⟩ := hx s
  · exact L.result fun _ => ha
  · exact L.fault (fun _ => ha) hcause

theorem holds_pure (a : α) (s : Frame) : L.holds (fun _ => (pure a : Run α)) s :=
  L.holds_looks (Run.looks_pure a) s

theorem holds_fail {cause : Cause} (h : cause.isRunners = true) (s : Frame) :
    L.holds (fun _ => (Run.fail cause : Run α)) s :=
  L.holds_looks (Run.looks_fail h) s

/-- After a look the frame is the one it started from. -/
theorem holds_looks_bind {x : Run α} {f : ι → α → Run β} (hx : x.Looks)
    (hf : ∀ a, x s = .done a s → L.holds (fun i => f i a) s) :
    L.holds (fun i => x >>= f i) s := by
  refine L.bind (L.holds_looks hx s) fun _ a t h => ?_
  obtain rfl := hx.eq_of_done h
  exact hf a h

theorem holds_change {g : Frame → Frame} (h : Act tag s (g s)) :
    L.holds (fun _ => Run.change g) s :=
  L.act (fun _ => rfl) h

/-- A change of which nothing more is known than that it is an act. -/
theorem holds_change_bind {g : Frame → Frame} {f : ι → Unit → Run β}
    (h : Act tag s (g s)) (hf : ∀ t, L.holds (fun i => f i ()) t) :
    L.holds (fun i => Run.change g >>= f i) s :=
  L.bind (L.holds_change h) fun _ _ t _ => hf t

theorem holds_setLocal {key : String} (value : Value)
    (h : key ≠ Reserved.procPrivilege)
    (hleaf : tag.name ∉ leafNames → key ≠ Reserved.exceptionsHandler)
    (hloading : tag.name ∉ assigningNames → tag.name ≠ "load_data" → key ∉ loadingNames)
    (hdepth : tag.name ∉ assigningNames → key ≠ Reserved.depth) (s : Frame) :
    L.holds (fun _ => Run.setLocal key value) s := by
  refine L.holds_change (.bound s [(key, value)] (fun _ hb => ?_) (fun hname _ hb => ?_)
    (fun hname hload _ hb => ?_) fun hname _ hb => ?_)
  · obtain rfl := List.mem_singleton.1 hb
    exact h
  · obtain rfl := List.mem_singleton.1 hb
    exact hleaf hname
  · obtain rfl := List.mem_singleton.1 hb
    exact hloading hname hload
  · obtain rfl := List.mem_singleton.1 hb
    exact hdepth hname

theorem holds_ite {c : Prop} {inst : ι → Decidable c} {x y : ι → Run α} (hx : c → L.holds x s)
    (hy : ¬c → L.holds y s) : L.holds (fun i => @ite _ c (inst i) (x i) (y i)) s := by
  -- each member of the family decides the same proposition, if in its own way
  by_cases h : c
  · simp only [if_pos h]
    exact hx h
  · simp only [if_neg h]
    exact hy h

theorem holds_within {x : ι → Run α} (shared : Bool) (hx : L.holds x s) :
    L.holds (fun i => Run.within shared (x i)) s := by
  cases shared with
  | true => exact hx
  | false => exact L.copied hx

/-- Doing something with each item of a list. -/
theorem holds_forEach {γ : Type} {body : ι → γ → Run Bool} (items : List γ)
    (h : ∀ item ∈ items, ∀ t, L.holds (fun i => body i item) t) (s : Frame) :
    L.holds (fun i => Run.forEach (body i) items) s := by
  induction items generalizing s with
  | nil => exact L.holds_pure () s
  | cons item rest ih =>
    refine L.bind (h item List.mem_cons_self s) fun _ goesOn t _ => ?_
    cases goesOn with
    | true => exact ih (fun item hi => h item (List.mem_cons_of_mem _ hi)) t
    | false => exact L.holds_pure () t

/-- Going round and round, equally often in all members of the family. -/
theorem holds_repeatWhile {body : ι → Run Bool} (rounds : Nat)
    (hx : ∀ t, L.holds (fun _ => (Run.exhausted : Run Unit)) t)
    (h : ∀ t, L.holds body t) (s : Frame) :
    L.holds (fun i => Run.repeatWhile (body i) rounds) s := by
  induction rounds generalizing s with
  | zero => exact hx s
  | succ rounds ih =>
    refine L.bind (h s) fun _ goesOn t _ => ?_
    cases goesOn with
    | true => exact ih t
    | false => exact L.holds_pure () t

theorem holds_store (hname : tag.name ∈ assigningNames) (key : String) (value : Value) (global : Bool)
    (s : Frame) :
    L.holds (fun _ => Run.store key value global) s := by
  have hleaf := mem_leafNames_of_mem_assigningNames hname
  unfold Run.store
  by_cases hkey : key = Reserved.procPrivilege
  · rw [if_pos hkey]
    exact L.holds_fail rfl s
  · rw [if_neg hkey]
    cases global with
    | true => exact L.holds_change (.boundGlobally s key value hleaf)
    | false => exact L.holds_setLocal value hkey (absurd hleaf) (absurd hname) (absurd hname) s

theorem holds_writeFile (hleaf : tag.name ∈ leafNames) (mode : Files.WriteMode) (path : String)
    (text : Content → String) {refused : String → Refusal → Cause}
    (h : ∀ path why, (refused path why).isRunners = true) (s : Frame) :
    L.holds (fun _ => Run.writeFile mode path text refused) s := by
  refine L.holds_change_bind (.stored s _ _ (s.world.locks.ask path) _ hleaf) fun t => ?_
  refine L.holds_looks_bind (Run.looks_look _) fun files _ => ?_
  split
  · exact L.holds_change (.stored t _ _ _ _ hleaf)
  · exact L.holds_fail (h _ _) t

/-! ## Executing tags in order -/

section Passes

variable {depth : Depth} {exec : ι → Tag → Depth → Run Outcome} {rounds : ι → Nat}

/-- Which tag it is whose inner tags are executed does not matter. -/
theorem holds_firstFalsy {outer : Tag} {tags : List Tag}
    (h : ∀ child ∈ tags, ∀ t, L.holds (fun i => exec i child depth) t) (s : Frame) :
    L.holds (fun i => Site.firstFalsy ⟨outer, depth, exec i, rounds i⟩ tags) s := by
  induction tags generalizing s with
  | nil => exact L.holds_pure none s
  | cons child rest ih =>
    refine L.bind (h child List.mem_cons_self s) fun _ outcome t _ => ?_
    cases outcome.truthy with
    | true => exact ih (fun child hc => h child (List.mem_cons_of_mem _ hc)) t
    | false => exact L.holds_pure (some child) t

theorem holds_completes {outer : Tag}
    (h : ∀ child ∈ outer.tags, ∀ t, L.holds (fun i => exec i child depth) t) (s : Frame) :
    L.holds (fun i => Site.completes ⟨outer, depth, exec i, rounds i⟩) s :=
  L.bind (L.holds_firstFalsy h s) fun _ _ t _ => L.holds_pure _ t

theorem holds_completesOr {tags : List Tag} (cause : Tag → Cause)
    (hcause : ∀ child, (cause child).isRunners = true)
    (h : ∀ child ∈ tags, ∀ t, L.holds (fun i => exec i child depth) t) (s : Frame) :
    L.holds (fun i => Site.completesOr ⟨tag, depth, exec i, rounds i⟩ cause tags) s := by
  refine L.bind (L.holds_firstFalsy h s) fun _ stopped t _ => ?_
  cases stopped with
  | none => exact L.holds_pure () t
  | some child => exact L.holds_fail (hcause child) t

theorem holds_tryBranches {tags : List Tag}
    (h : ∀ child ∈ tags, ∀ t, L.holds (fun i => exec i child depth) t) (s : Frame) :
    L.holds (fun i => Runner.tryBranches ⟨tag, depth, exec i, rounds i⟩ tags) s := by
  induction tags generalizing s with
  | nil => exact L.holds_pure () s
  | cons child rest ih =>
    refine L.holds_ite (fun _ => ?_) fun _ => L.holds_fail rfl s
    refine L.bind (h child List.mem_cons_self s) fun _ outcome t _ => ?_
    refine L.holds_ite (fun _ => L.holds_fail rfl t) fun _ => ?_
    refine L.holds_ite (fun _ => L.holds_pure () t) fun _ => ?_
    exact ih (fun child hc => h child (List.mem_cons_of_mem _ hc)) t

theorem holds_branchBody {tags : List Tag} (matched : Bool)
    (h : ∀ child ∈ tags, ∀ t, L.holds (fun i => exec i child depth) t) (s : Frame) :
    L.holds (fun i => Runner.branchBody ⟨tag, depth, exec i, rounds i⟩ matched tags) s := by
  cases matched with
  | true =>
    exact L.bind (L.holds_completesOr (fun child => .branchAborted tag.name child.name)
      (fun _ => rfl) h s) fun _ _ t _ => L.holds_pure _ t
  | false => exact L.holds_pure _ s

theorem holds_allPass {tags : List Tag} (test : Value → Bool)
    (h : ∀ child ∈ tags, ∀ t, L.holds (fun i => exec i child depth) t) (s : Frame) :
    L.holds (fun i => Runner.allPass ⟨tag, depth, exec i, rounds i⟩ test tags) s := by
  induction tags generalizing s with
  | nil => exact L.holds_pure true s
  | cons child rest ih =>
    refine L.bind (h child List.mem_cons_self s) fun _ outcome t _ => ?_
    refine L.holds_ite (fun _ => ?_) fun _ => L.holds_pure false t
    exact ih (fun child hc => h child (List.mem_cons_of_mem _ hc)) t

theorem holds_settle {tags : List Tag} (connective : Connective)
    (h : ∀ child ∈ tags, ∀ t, L.holds (fun i => exec i child depth) t) (s : Frame) :
    L.holds (fun i => Runner.settle ⟨tag, depth, exec i, rounds i⟩ connective tags) s := by
  induction tags generalizing s with
  | nil => exact L.holds_pure Value.null s
  | cons child rest ih =>
    have hchild := h child List.mem_cons_self s
    cases rest with
    | nil => exact L.bind hchild fun _ _ t _ => L.holds_pure _ t
    | cons next rest =>
      refine L.bind hchild fun _ outcome t _ => ?_
      refine L.holds_ite (fun _ => L.holds_pure _ t) fun _ => ?_
      exact ih (fun child hc => h child (List.mem_cons_of_mem _ hc)) t

theorem holds_chain {tags : List Tag} (c : Comparison) (previous : Value)
    (h : ∀ child ∈ tags, ∀ t, L.holds (fun i => exec i child depth) t) (s : Frame) :
    L.holds (fun i => Runner.chain ⟨tag, depth, exec i, rounds i⟩ c previous tags) s := by
  induction tags generalizing s previous with
  | nil => exact L.holds_pure true s
  | cons child rest ih =>
    refine L.bind (h child List.mem_cons_self s) fun _ outcome t _ => ?_
    refine L.holds_looks_bind (Runner.looks_compareValues c _ _) fun goesOn _ => ?_
    cases goesOn with
    | true => exact ih _ (fun child hc => h child (List.mem_cons_of_mem _ hc)) t
    | false => exact L.holds_pure false t

theorem holds_body {tags : List Tag}
    (h : ∀ child ∈ tags, ∀ t, L.holds (fun i => exec i child depth) t) (s : Frame) :
    L.holds (fun i => Runner.body ⟨tag, depth, exec i, rounds i⟩ tags) s := by
  induction tags generalizing s with
  | nil => exact L.holds_pure Outcome.ok s
  | cons child rest ih =>
    refine L.bind (h child List.mem_cons_self s) fun _ outcome t _ => ?_
    refine L.holds_ite (fun _ => L.holds_pure outcome t) fun _ => ?_
    refine L.holds_ite (fun _ => ?_) fun _ => L.holds_pure Outcome.fail t
    exact ih (fun child hc => h child (List.mem_cons_of_mem _ hc)) t

end Passes

end Logic

end TagScript
