import TagScript.Proofs.Act
import TagScript.Proofs.KeyOrder

/-!
# Orderly runners

What a computation does to its frame cannot break the order of keys, but a value
that it puts there can. So `Run.Orderly` speaks of both at once, of the frame
that a computation ends in and of the result that it has there, and has a rule
for every way of putting computations together. Most parts of a runner only look
at the frame and keep it as it is; these are the computations that
`Run.Looks` is about.

What a runner yields may come from the tags that it executes. Therefore a runner
is called orderly if it is so as far as these executions are. All runners of the
language are, and so are the instruments.
-/

namespace TagScript

/-- **An outcome in order**: as a value it is. -/
def Outcome.InOrder (outcome : Outcome) : Prop := outcome.toValue.InOrder

theorem Outcome.inOrder_ofBool (b : Bool) : (Outcome.ofBool b).InOrder := .bool b

theorem Outcome.inOrder_branch (success matched : Bool) : (Outcome.branch success matched).InOrder :=
  .bool success

/-! ## Orderly computations -/

namespace Run

variable {α β : Type} {P : α → Prop} {Q : β → Prop}

/-- **An orderly computation**: begun in order, it ends in order, however it ends, and the result
that it has then is of some kind. -/
def Orderly (P : α → Prop) (x : Run α) : Prop :=
  ∀ s : Frame, s.InOrder → (x s).after.InOrder ∧ ∀ a t, x s = .done a t → P a

/-- It keeps the order, and its result does not matter. -/
abbrev KeepsOrder (x : Run α) : Prop := x.Orderly fun _ => True

theorem Orderly.keepsOrder {x : Run α} (hx : x.Orderly P) : x.KeepsOrder := fun s hs =>
  ⟨(hx s hs).1, fun _ _ _ => trivial⟩

theorem orderly_pure {a : α} (h : P a) : (pure a : Run α).Orderly P := fun _ hs =>
  ⟨hs, fun _ _ heq => (Ending.done.inj heq).1 ▸ h⟩

theorem keepsOrder_pure (a : α) : (pure a : Run α).KeepsOrder := orderly_pure trivial

/-- **One computation after another**, which may count on the first one's result. -/
theorem orderly_bind {x : Run α} {f : α → Run β} (hx : x.Orderly P)
    (hf : ∀ a, P a → (f a).Orderly Q) : (x >>= f).Orderly Q := by
  intro s hs
  obtain ⟨hafter, hresult⟩ := hx s hs
  rw [bind_apply]
  cases hxs : x s with
  | done a t =>
    rw [hxs] at hafter
    exact hf a (hresult a t hxs) t hafter
  | failed fault t =>
    rw [hxs] at hafter
    exact ⟨hafter, nofun⟩
  | exhausted t =>
    rw [hxs] at hafter
    exact ⟨hafter, nofun⟩

/-- It may also do without. -/
theorem orderly_seq {x : Run α} {f : α → Run β} (hx : x.KeepsOrder) (hf : ∀ a, (f a).Orderly Q) :
    (x >>= f).Orderly Q :=
  orderly_bind hx fun a _ => hf a

theorem orderly_ite {c : Prop} [Decidable c] {x y : Run α} (hx : x.Orderly P) (hy : y.Orderly P) :
    (if c then x else y).Orderly P := by
  split
  · exact hx
  · exact hy

theorem orderly_look {f : Frame → α} (h : ∀ s : Frame, s.InOrder → P (f s)) :
    (look f).Orderly P := fun s hs =>
  ⟨hs, fun _ _ heq => (Ending.done.inj heq).1 ▸ h s hs⟩

theorem orderly_read (key : String) : (read key).Orderly Value.InOrder :=
  orderly_look fun _ hs => hs.read key

theorem orderly_fail (cause : Cause) : (fail cause : Run α).Orderly P := fun _ hs => ⟨hs, nofun⟩

theorem orderly_ofExcept {r : Except Cause α} (h : ∀ a, r = .ok a → P a) :
    (ofExcept r).Orderly P := by
  cases r with
  | ok a => exact orderly_pure (h a rfl)
  | error cause => exact orderly_fail cause

theorem orderly_exhausted : (exhausted : Run α).Orderly P := fun _ hs => ⟨hs, nofun⟩

/-- Looking at a frame does not change it. -/
theorem Looks.keepsOrder {x : Run α} (hx : x.Looks) : x.KeepsOrder := by
  intro s hs
  refine ⟨?_, fun _ _ _ => trivial⟩
  obtain ⟨a, h⟩ | ⟨cause, _, h⟩ := hx s
  · rw [h]
    exact hs
  · rw [h]
    exact hs

/-- What is left after a look begins in order like the look itself. -/
theorem orderly_looks_bind {x : Run α} {f : α → Run β} (hx : x.Looks)
    (hf : ∀ a, (f a).Orderly Q) : (x >>= f).Orderly Q :=
  orderly_seq hx.keepsOrder hf

theorem keepsOrder_change {g : Frame → Frame} (h : ∀ s : Frame, s.InOrder → (g s).InOrder) :
    (change g).KeepsOrder := fun s hs => ⟨h s hs, fun _ _ _ => trivial⟩

/-- Of the world only the global variables matter. -/
theorem keepsOrder_changeWorld {g : World → World} (h : ∀ w, (g w).globals = w.globals) :
    (changeWorld g).KeepsOrder :=
  keepsOrder_change fun s hs => ⟨hs.locals, (h s.world).symm ▸ hs.globals⟩

theorem keepsOrder_setLocal (key : String) {value : Value} (h : value.InOrder) :
    (setLocal key value).KeepsOrder :=
  keepsOrder_change fun _ hs => hs.setLocal key h

theorem keepsOrder_store (key : String) {value : Value} (h : value.InOrder) (global : Bool) :
    (store key value global).KeepsOrder :=
  orderly_ite (orderly_fail _) (keepsOrder_change fun _ hs => hs.set key h global)

theorem keepsOrder_insertAll {bindings : List (String × Value)}
    (h : ∀ binding ∈ bindings, binding.2.InOrder) :
    (change fun s => { s with locals := s.locals.insertAll bindings }).KeepsOrder :=
  keepsOrder_change fun _ hs => ⟨hs.locals.insertAll h, hs.globals⟩

theorem keepsOrder_writeFile (mode : Files.WriteMode) (path : String) (text : Content → String)
    (refused : String → Refusal → Cause) : (writeFile mode path text refused).KeepsOrder := by
  refine orderly_seq (keepsOrder_changeWorld fun _ => rfl) fun _ => ?_
  refine orderly_looks_bind (looks_look _) fun files => ?_
  split
  · exact keepsOrder_changeWorld fun _ => rfl
  · exact orderly_fail _

/-- **On a copy as well**, since the copied variables were in order, too. -/
theorem orderly_isolated {x : Run α} (hx : x.Orderly P) : x.isolated.Orderly P := by
  intro s hs
  obtain ⟨hafter, hresult⟩ := hx s hs
  cases hxs : x s with
  | done a t =>
    rw [hxs] at hafter
    rw [isolated_of_done hxs]
    exact ⟨⟨hs.locals, hafter.globals⟩, fun b u heq => hresult b t ((Ending.done.inj heq).1 ▸ hxs)⟩
  | failed fault t =>
    rw [hxs] at hafter
    rw [isolated_of_failed hxs]
    exact ⟨⟨hs.locals, hafter.globals⟩, nofun⟩
  | exhausted t =>
    rw [hxs] at hafter
    rw [isolated_of_exhausted hxs]
    exact ⟨hafter, nofun⟩

theorem orderly_within {x : Run α} (shared : Bool) (hx : x.Orderly P) :
    (within shared x).Orderly P := by
  cases shared with
  | true => exact hx
  | false => exact orderly_isolated hx

theorem keepsOrder_forEach {body : α → Run Bool} {items : List α}
    (h : ∀ item ∈ items, (body item).KeepsOrder) : (forEach body items).KeepsOrder := by
  induction items with
  | nil => exact keepsOrder_pure ()
  | cons item rest ih =>
    obtain ⟨hitem, hrest⟩ := List.forall_mem_cons.1 h
    exact orderly_seq hitem fun _ => orderly_ite (ih hrest) (keepsOrder_pure ())

theorem keepsOrder_repeatWhile {body : Run Bool} (h : body.KeepsOrder) (rounds : Nat) :
    (repeatWhile body rounds).KeepsOrder := by
  induction rounds with
  | zero => exact orderly_exhausted
  | succ rounds ih => exact orderly_seq h fun _ => orderly_ite ih (keepsOrder_pure ())

end Run

/-! ## Orderly runners -/

/-- **An orderly runner**: it is orderly if the executions of further tags are. -/
def Runner.IsOrderly (runner : Runner) : Prop :=
  ∀ site : Site, (∀ child, (site.run child).Orderly Outcome.InOrder) →
    (runner site).Orderly Outcome.InOrder

section Runners

variable {site : Site} (hexec : ∀ child, (site.run child).Orderly Outcome.InOrder)
include hexec

namespace Site

theorem keepsOrder_firstFalsy (tags : List Tag) : (site.firstFalsy tags).KeepsOrder := by
  induction tags with
  | nil => exact Run.keepsOrder_pure none
  | cons child rest ih =>
    exact Run.orderly_seq (hexec child).keepsOrder fun _ =>
      Run.orderly_ite ih (Run.keepsOrder_pure _)

theorem keepsOrder_completes : site.completes.KeepsOrder :=
  Run.orderly_seq (keepsOrder_firstFalsy hexec _) fun _ => Run.keepsOrder_pure _

theorem keepsOrder_completesOr (cause : Tag → Cause) (tags : List Tag) :
    (site.completesOr cause tags).KeepsOrder := by
  refine Run.orderly_seq (keepsOrder_firstFalsy hexec tags) fun stopped => ?_
  cases stopped with
  | none => exact Run.keepsOrder_pure ()
  | some child => exact Run.orderly_fail _

end Site

namespace Runner

theorem keepsOrder_tryBranches (tags : List Tag) : (tryBranches site tags).KeepsOrder := by
  induction tags with
  | nil => exact Run.keepsOrder_pure ()
  | cons child rest ih =>
    refine Run.orderly_ite ?_ (Run.orderly_fail _)
    refine Run.orderly_seq (hexec child).keepsOrder fun outcome => ?_
    exact Run.orderly_ite (Run.orderly_fail _) (Run.orderly_ite (Run.keepsOrder_pure ()) ih)

theorem orderly_branchBody (matched : Bool) (body : List Tag) :
    (branchBody site matched body).Orderly Outcome.InOrder := by
  have hbranch := Run.orderly_pure (Outcome.inOrder_branch true matched)
  cases matched with
  | true => exact Run.orderly_seq (Site.keepsOrder_completesOr hexec _ _) fun _ => hbranch
  | false => exact hbranch

theorem keepsOrder_allPass (test : Value → Bool) (tags : List Tag) :
    (allPass site test tags).KeepsOrder := by
  induction tags with
  | nil => exact Run.keepsOrder_pure true
  | cons child rest ih =>
    exact Run.orderly_seq (hexec child).keepsOrder fun _ =>
      Run.orderly_ite ih (Run.keepsOrder_pure false)

theorem orderly_settle (c : Connective) (tags : List Tag) :
    (settle site c tags).Orderly Value.InOrder := by
  induction tags with
  | nil => exact Run.orderly_pure .null
  | cons child rest ih =>
    cases rest with
    | nil => exact Run.orderly_bind (hexec child) fun _ h => Run.orderly_pure h
    | cons next rest =>
      exact Run.orderly_bind (hexec child) fun _ h => Run.orderly_ite (Run.orderly_pure h) ih

theorem keepsOrder_chain (c : Comparison) (previous : Value) (tags : List Tag) :
    (chain site c previous tags).KeepsOrder := by
  induction tags generalizing previous with
  | nil => exact Run.keepsOrder_pure true
  | cons child rest ih =>
    refine Run.orderly_seq (hexec child).keepsOrder fun outcome => ?_
    refine Run.orderly_looks_bind (looks_compareValues c _ _) fun _ => ?_
    exact Run.orderly_ite (ih _) (Run.keepsOrder_pure false)

theorem orderly_body (tags : List Tag) : (body site tags).Orderly Outcome.InOrder := by
  induction tags with
  | nil => exact Run.orderly_pure (Outcome.inOrder_ofBool true)
  | cons child rest ih =>
    refine Run.orderly_bind (hexec child) fun outcome houtcome => ?_
    refine Run.orderly_ite (Run.orderly_pure houtcome) (Run.orderly_ite ih ?_)
    exact Run.orderly_pure (Outcome.inOrder_ofBool false)

end Runner

end Runners

namespace Runner

variable {site : Site}

theorem orderly_ok : (pure Outcome.ok : Run Outcome).Orderly Outcome.InOrder :=
  Run.orderly_pure (Outcome.inOrder_ofBool true)

theorem orderly_ofBool (b : Bool) :
    (pure (Outcome.ofBool b) : Run Outcome).Orderly Outcome.InOrder :=
  Run.orderly_pure (Outcome.inOrder_ofBool b)

theorem orderly_value {v : Value} (h : v.InOrder) :
    (pure (Outcome.value v) : Run Outcome).Orderly Outcome.InOrder :=
  Run.orderly_pure h

/-! ### Blocks -/

theorem isOrderly_root : IsOrderly root := fun _ hexec =>
  Run.orderly_isolated (Run.orderly_seq (Site.keepsOrder_completesOr hexec _ _) fun _ => orderly_ok)

theorem isOrderly_sub : IsOrderly sub := fun site hexec =>
  Run.orderly_looks_bind (Run.looks_passThrough site.tag) fun shared =>
    Run.orderly_within shared (Run.orderly_seq (Site.keepsOrder_completes hexec) fun _ => orderly_ok)

theorem isOrderly_loop : IsOrderly loop := fun site hexec =>
  Run.orderly_looks_bind (Run.looks_passThrough site.tag) fun shared =>
    Run.orderly_within shared
      (Run.orderly_seq (Run.keepsOrder_repeatWhile (Site.keepsOrder_completes hexec) _) fun _ =>
        orderly_ok)

theorem isOrderly_forIn : IsOrderly forIn := by
  intro site hexec
  refine Run.orderly_looks_bind (Run.looks_passThrough site.tag) fun shared => ?_
  dsimp only
  refine Run.orderly_ite (Run.orderly_bind (P := fun _ => False) (Run.orderly_fail _) nofun) ?_
  refine Run.orderly_looks_bind (Run.looks_requireKey site.tag _) fun key => ?_
  refine Run.orderly_bind (Run.orderly_read key) fun source hsource => ?_
  cases hentries : source.entries? with
  | none => exact Run.orderly_fail _
  | some entries =>
    refine Run.orderly_within shared (Run.orderly_seq (Run.keepsOrder_forEach fun entry hentry => ?_)
      fun _ => orderly_ok)
    obtain ⟨hkey, hvalue⟩ := hsource.entries? hentries entry hentry
    refine Run.orderly_seq (Run.keepsOrder_setLocal _ hkey) fun _ => ?_
    exact Run.orderly_seq (Run.keepsOrder_setLocal _ hvalue) fun _ =>
      Site.keepsOrder_completes hexec

theorem isOrderly_branch : IsOrderly branch := fun _ hexec =>
  Run.orderly_seq (Site.keepsOrder_completesOr hexec _ _) fun _ => orderly_ok

/-! ### Choices -/

theorem isOrderly_condition : IsOrderly condition := by
  intro site hexec
  refine Run.orderly_looks_bind (Run.looks_passThrough site.tag) fun shared => ?_
  have hassertion : (assertionHolds site shared).KeepsOrder := by
    unfold assertionHolds
    split
    · exact Run.orderly_within shared (Run.orderly_seq (hexec _).keepsOrder fun _ =>
        Run.keepsOrder_pure _)
    · exact Run.keepsOrder_pure false
  refine Run.orderly_seq hassertion fun matched => ?_
  unfold takeBranch
  refine Run.orderly_ite (orderly_ofBool false) ?_
  split
  · exact Run.orderly_within shared (hexec _)
  · exact orderly_ok

theorem isOrderly_selection : IsOrderly selection := fun site hexec =>
  Run.orderly_looks_bind (Run.looks_passThrough site.tag) fun shared =>
    Run.orderly_within shared (Run.orderly_seq (keepsOrder_tryBranches hexec _) fun _ => orderly_ok)

theorem isOrderly_whenHolds : IsOrderly whenHolds := by
  intro site hexec
  unfold whenHolds
  split
  · exact Run.orderly_seq (hexec _).keepsOrder fun _ => orderly_branchBody hexec _ _
  · split
    · refine Run.orderly_ite ?_ (Run.orderly_fail _)
      exact Run.orderly_seq (hexec _).keepsOrder fun _ => orderly_branchBody hexec _ _
    · exact Run.orderly_fail _

theorem isOrderly_otherwise : IsOrderly otherwise := fun _ hexec => orderly_branchBody hexec true _

/-! ### Assertions and operators -/

theorem isOrderly_assertion (negated : Bool) : IsOrderly (assertion negated) := by
  intro site hexec
  refine Run.orderly_looks_bind (Run.looks_attrKey site.tag _) fun key => ?_
  refine Run.orderly_looks_bind (Run.looks_attrText site.tag _) fun expected => ?_
  refine Run.orderly_ite ?_ ?_
  · exact Run.orderly_looks_bind (Run.looks_read key) fun _ => orderly_ofBool _
  · refine Run.orderly_ite (Run.orderly_fail _) ?_
    exact Run.orderly_seq (keepsOrder_allPass hexec _ _) fun _ => orderly_ofBool _

theorem isOrderly_membership (negated : Bool) : IsOrderly (membership negated) := by
  intro site hexec
  refine Run.orderly_looks_bind (Run.looks_requireKey site.tag _) fun key => ?_
  refine Run.orderly_ite (Run.orderly_fail _) ?_
  refine Run.orderly_looks_bind (Run.looks_read key) fun actual => ?_
  exact Run.orderly_seq (keepsOrder_allPass hexec _ _) fun _ => orderly_ofBool _

theorem isOrderly_negation : IsOrderly negation := by
  intro site hexec
  unfold negation
  split
  · exact Run.orderly_seq (hexec _).keepsOrder fun _ => orderly_ofBool _
  · exact Run.orderly_fail _

theorem isOrderly_connective (c : Connective) : IsOrderly (connective c) := by
  intro site hexec
  refine Run.orderly_looks_bind (Run.looks_keyPair site.tag) fun pair => ?_
  cases pair with
  | some keys =>
    refine Run.orderly_bind (Run.orderly_read keys.1) fun value hvalue => ?_
    refine Run.orderly_ite (orderly_value hvalue) ?_
    exact Run.orderly_bind (Run.orderly_read keys.2) fun _ h => orderly_value h
  | none =>
    refine Run.orderly_ite (Run.orderly_fail _) ?_
    exact Run.orderly_bind (orderly_settle hexec c _) fun _ h => orderly_value h

theorem isOrderly_comparison (c : Comparison) : IsOrderly (comparison c) := by
  intro site hexec
  refine Run.orderly_looks_bind (Run.looks_keyPair site.tag) fun pair => ?_
  cases pair with
  | some keys =>
    refine Run.orderly_looks_bind (Run.looks_read keys.1) fun left => ?_
    refine Run.orderly_looks_bind (Run.looks_read keys.2) fun right => ?_
    exact Run.orderly_looks_bind (looks_compareValues c _ _) fun _ => orderly_ofBool _
  | none =>
    dsimp only
    split
    · refine Run.orderly_seq (hexec _).keepsOrder fun outcome => ?_
      exact Run.orderly_seq (keepsOrder_chain hexec c _ _) fun _ => orderly_ofBool _
    · exact Run.orderly_fail _

/-! ### Procedures, privileges and modules -/

theorem isOrderly_procedure : IsOrderly procedure := by
  intro site _
  refine Run.orderly_ite (Run.orderly_fail _) ?_
  exact Run.orderly_seq (Run.keepsOrder_changeWorld fun _ => rfl) fun _ => orderly_ok

/-- The parameters of a call are texts or null. -/
theorem inOrder_of_mem_parameters (s : Frame) (tag : Tag) :
    ∀ binding ∈ parameters s tag, binding.2.InOrder := by
  intro binding hbinding
  obtain ⟨attr, _, rfl⟩ := List.mem_map.1 hbinding
  dsimp only
  cases attr.2 with
  | none => exact .null
  | some text => exact .str _

theorem orderly_invoke (hexec : ∀ child, (site.run child).Orderly Outcome.InOrder) (name : String) :
    (invoke site name).Orderly Outcome.InOrder := by
  refine Run.orderly_looks_bind (Run.looks_look _) fun found => ?_
  cases found with
  | none => exact Run.orderly_fail _
  | some procedure =>
    refine Run.orderly_looks_bind (Run.looks_passThrough site.tag) fun shared => ?_
    have hlook : (Run.look (parameters · site.tag)).Orderly
        fun given => ∀ binding ∈ given, binding.2.InOrder :=
      Run.orderly_look fun s _ => inOrder_of_mem_parameters s site.tag
    refine Run.orderly_bind hlook fun given hgiven => ?_
    refine Run.orderly_seq (Run.keepsOrder_changeWorld fun _ => World.globals_note _ _) fun _ => ?_
    refine Run.orderly_within shared ?_
    exact Run.orderly_seq (Run.keepsOrder_insertAll hgiven) fun _ => orderly_body hexec _

theorem isOrderly_call : IsOrderly call := fun site hexec =>
  Run.orderly_looks_bind (Run.looks_requireKey site.tag _) fun name => orderly_invoke hexec name

theorem isOrderly_conditionalCall : IsOrderly conditionalCall := by
  intro site hexec
  refine Run.orderly_looks_bind (Run.looks_requireKey site.tag _) fun name => ?_
  refine Run.orderly_looks_bind (Run.looks_look _) fun locals => ?_
  exact Run.orderly_ite (orderly_invoke hexec name) orderly_ok

theorem isOrderly_grant : IsOrderly grant := by
  intro site _
  refine Run.orderly_looks_bind (Run.looks_look _) fun locals => ?_
  refine Run.orderly_ite (Run.orderly_fail _) ?_
  refine Run.orderly_looks_bind (Run.looks_attrKey site.tag _) fun names => ?_
  refine Run.orderly_ite (Run.orderly_fail _) ?_
  exact Run.orderly_seq (Run.keepsOrder_change fun _ hs => ⟨hs.locals.grant _, hs.globals⟩)
    fun _ => orderly_ok

theorem isOrderly_inclusion : IsOrderly inclusion := by
  intro site hexec
  refine Run.orderly_looks_bind (Run.looks_requireKey site.tag _) fun name => ?_
  refine Run.orderly_looks_bind (Run.looks_look _) fun w => ?_
  split
  · exact Run.orderly_fail _
  · refine Run.orderly_looks_bind
      (Run.looks_ofExcept fun _ => Script.isRunners_of_ofFile_eq_error) fun script => ?_
    exact Run.orderly_seq (hexec script).keepsOrder fun _ =>
      Run.orderly_ite orderly_ok (Run.orderly_fail _)

/-! ### Assignments and readings -/

theorem isOrderly_assign : IsOrderly assign := by
  intro site hexec
  refine Run.orderly_looks_bind (Run.looks_attrText site.tag _) fun type => ?_
  refine Run.orderly_looks_bind (Run.looks_requireKey site.tag _) fun key => ?_
  refine Run.orderly_looks_bind (Run.looks_attrSwitch site.tag _ _) fun global => ?_
  -- what is left once there is a value
  have hrest (value : Value) (h : value.InOrder) :
      (Run.store key value global >>= fun _ => pure Outcome.ok : Run Outcome).Orderly
        Outcome.InOrder :=
    Run.orderly_seq (Run.keepsOrder_store key h global) fun _ => orderly_ok
  dsimp only
  refine Run.orderly_ite ?_ (Run.orderly_ite ?_ (Run.orderly_ite ?_ ?_))
  · refine Run.orderly_looks_bind (Run.looks_attrText site.tag _) fun text => ?_
    cases text with
    | none => exact Run.orderly_bind (Run.orderly_pure .null) hrest
    | some text =>
      refine Run.orderly_bind (Run.orderly_pure ?_) hrest
      split
      · exact .null
      · exact .str text
  · split
    · exact Run.orderly_bind (hexec _) fun _ h => Run.orderly_bind (Run.orderly_pure h) hrest
    · exact Run.orderly_bind (Run.orderly_fail _) hrest
  · exact Run.orderly_bind (Run.orderly_fail _) hrest
  · exact Run.orderly_bind (Run.orderly_fail _) hrest

/-- A conversion makes a text, a number or null. -/
theorem Conversion.inOrder_of_apply {conversion : Conversion} {tag key : String}
    {text : Option String} {value : Value} (h : conversion.apply tag key text = .ok value) :
    value.InOrder := by
  unfold apply at h
  split at h
  · obtain rfl := Except.ok.inj h
    exact .null
  · cases h
  split at h
  · next s _ _ converted hvalue =>
    obtain rfl := Except.ok.inj h
    unfold value? at hvalue
    split at hvalue
    · obtain rfl := Option.some.inj hvalue
      exact .str _
    · obtain ⟨n, _, rfl⟩ := Option.map_eq_some_iff.1 hvalue
      exact .int n
    · obtain ⟨x, _, rfl⟩ := Option.map_eq_some_iff.1 hvalue
      exact .float x
  · cases h

theorem inOrder_of_mem_converted {s : Frame} {conversion : Conversion} {tag : String}
    {attrs : List (String × Option String)} {bindings : List (String × Value)}
    (h : converted s conversion tag attrs = .ok bindings) :
    ∀ binding ∈ bindings, binding.2.InOrder := by
  induction attrs generalizing bindings with
  | nil =>
    obtain rfl := Except.ok.inj h
    exact nofun
  | cons attr rest ih =>
    obtain ⟨_, value, more, hvalue, hrest, rfl⟩ := converted_cons_eq_ok h
    exact List.forall_mem_cons.2 ⟨Conversion.inOrder_of_apply hvalue, ih hrest⟩

theorem isOrderly_assignTyped (conversion : Conversion) : IsOrderly (assignTyped conversion) := by
  intro site _
  refine Run.orderly_looks_bind (Run.looks_look id) fun s => ?_
  refine Run.orderly_bind (Run.orderly_ofExcept fun _ => inOrder_of_mem_converted)
    fun bindings hbindings => ?_
  exact Run.orderly_seq (Run.keepsOrder_insertAll hbindings) fun _ => orderly_ok

theorem inOrder_of_mem_indexed? {value : Value} (h : value.InOrder) {items : List Value}
    (hitems : indexed? value = some items) : ∀ item ∈ items, item.InOrder := by
  unfold indexed? at hitems
  split at hitems
  · obtain rfl := Option.some.inj hitems
    cases h with
    | array h => exact h
  · obtain rfl := Option.some.inj hitems
    exact Value.inOrder_characters _
  · cases hitems

theorem mem_of_itemAt? {items : List Value} {position : Int} {item : Value}
    (h : itemAt? items position = some item) : item ∈ items := by
  unfold itemAt? at h
  generalize (if position < 0 then items.length + position else position) = place at h
  dsimp only at h
  split at h
  · cases h
  · exact List.mem_of_getElem? h

theorem inOrder_of_pick {key index : String} {value item : Value} (h : value.InOrder)
    (hitem : pick key value index = .ok item) : item.InOrder := by
  unfold pick at hitem
  split at hitem
  · cases hitem
  split at hitem
  · cases hitem
  next items hitems =>
  split at hitem
  · cases hitem
  next item' hpicked =>
  obtain rfl := Except.ok.inj hitem
  exact inOrder_of_mem_indexed? h hitems _ (mem_of_itemAt? hpicked)

theorem isOrderly_reading : IsOrderly reading := by
  intro site _
  refine Run.orderly_looks_bind (Run.looks_attrKey site.tag _) fun key => ?_
  refine Run.orderly_looks_bind (Run.looks_attrText site.tag _) fun text => ?_
  have hdefault : ((text.map Value.str).getD .null).InOrder := by
    cases text with
    | none => exact .null
    | some text => exact .str text
  refine Run.orderly_ite ?_ ?_
  · cases text with
    | none => exact Run.orderly_fail _
    | some text => exact orderly_value (.str text)
  have hlook : (Run.look (·.lookup key)).Orderly fun found => ∀ v ∈ found, v.InOrder :=
    Run.orderly_look fun s hs _ hv => hs.lookup hv
  refine Run.orderly_bind hlook fun found hfound => ?_
  have hvalue : (found.getD ((text.map Value.str).getD .null)).InOrder := by
    cases found with
    | none => exact hdefault
    | some v => exact hfound v rfl
  generalize found.getD ((text.map Value.str).getD .null) = value at hvalue
  refine Run.orderly_looks_bind (Run.looks_attrText site.tag _) fun member => ?_
  split
  · split
    · refine orderly_value ?_
      next _ member _ _ entries =>
      cases hmember : Dict.get? entries member with
      | none => exact hdefault
      | some v => exact (Value.inOrder_map_iff.1 hvalue).of_get? hmember
    · exact Run.orderly_fail _
  · refine Run.orderly_looks_bind (Run.looks_attrText site.tag _) fun index => ?_
    split
    · refine Run.orderly_bind (Run.orderly_ofExcept fun _ => inOrder_of_pick hvalue) fun item hitem => ?_
      refine orderly_value ?_
      split
      · exact hitem
      · exact hdefault
    · exact orderly_value hvalue

/-! ### Tables -/

theorem isOrderly_loadVariables : IsOrderly loadVariables := by
  intro site _
  refine Run.orderly_looks_bind (Run.looks_checkTableType site.tag) fun _ => ?_
  refine Run.orderly_looks_bind (Run.looks_checkEncoding site.tag) fun _ => ?_
  refine Run.orderly_looks_bind (Run.looks_fieldPolicy site.tag) fun policy => ?_
  refine Run.orderly_looks_bind (Run.looks_requireKey site.tag _) fun name => ?_
  refine Run.orderly_looks_bind (Run.looks_readFile name) fun source => ?_
  exact Run.orderly_seq (Run.keepsOrder_insertAll Table.inOrder_of_mem_assignments) fun _ =>
    orderly_ok

theorem inOrder_rowNumber (current : Option Value) (n : Int64) :
    (rowNumber current n).InOrder := by
  unfold rowNumber
  split
  · split
    · exact .int _
    · exact .int _
  · exact .int _

theorem isOrderly_loadSheet : IsOrderly loadSheet := by
  intro site hexec
  refine Run.orderly_looks_bind (Run.looks_checkTableType site.tag) fun _ => ?_
  refine Run.orderly_looks_bind (Run.looks_checkEncoding site.tag) fun _ => ?_
  refine Run.orderly_looks_bind (Run.looks_passThrough site.tag) fun shared => ?_
  refine Run.orderly_looks_bind (Run.looks_fieldPolicy site.tag) fun policy => ?_
  refine Run.orderly_looks_bind (Run.looks_requireKey site.tag _) fun name => ?_
  refine Run.orderly_looks_bind (Run.looks_readFile name) fun source => ?_
  refine Run.orderly_seq (Run.keepsOrder_setLocal _ (.int _)) fun _ => ?_
  refine Run.orderly_seq (Run.keepsOrder_forEach fun item hitem => ?_) fun _ => ?_
  · have hrow : Vars.InOrder item.1 :=
      Table.Sheet.inOrder_of_mem_rows _ (List.fst_mem_of_mem_zipIdx hitem)
    refine Run.orderly_within shared ?_
    refine Run.orderly_seq (Run.keepsOrder_change fun s hs => ⟨?_, hs.globals⟩) fun _ =>
      Site.keepsOrder_completes hexec
    exact ((hs.locals.insertAll hrow.values).insert _ (inOrder_rowNumber _ _)).insert _ (.str _)
  · exact Run.orderly_seq (Run.keepsOrder_change fun _ hs => ⟨hs.locals.erase _, hs.globals⟩)
      fun _ => orderly_ok

theorem isOrderly_output : IsOrderly output := by
  intro site hexec
  refine Run.orderly_looks_bind (Run.looks_checkEncoding site.tag) fun _ => ?_
  refine Run.orderly_looks_bind (Run.looks_requireKey site.tag _) fun name => ?_
  refine Run.orderly_looks_bind (Run.looks_outputPath name) fun path => ?_
  refine Run.orderly_looks_bind (Run.looks_look _) fun lineEnd => ?_
  dsimp only
  split
  · refine Run.orderly_seq (hexec _).keepsOrder fun outcome => ?_
    refine Run.orderly_looks_bind (looks_outputMode site.tag _) fun mode => ?_
    exact Run.orderly_seq (Run.keepsOrder_writeFile _ _ _ _) fun _ => orderly_ok
  · refine Run.orderly_looks_bind (Run.looks_checkTableType site.tag) fun _ => ?_
    refine Run.orderly_looks_bind (Run.looks_attrKey site.tag _) fun columns => ?_
    refine Run.orderly_ite (Run.orderly_fail _) ?_
    refine Run.orderly_looks_bind (looks_outputMode site.tag _) fun mode => ?_
    refine Run.orderly_looks_bind (Run.looks_look _) fun row => ?_
    exact Run.orderly_seq (Run.keepsOrder_writeFile _ _ _ _) fun _ => orderly_ok

theorem isOrderly_handleExceptions : IsOrderly handleExceptions := by
  intro site _
  refine Run.orderly_looks_bind (Run.looks_checkTableType site.tag) fun _ => ?_
  refine Run.orderly_looks_bind (Run.looks_requireKey site.tag _) fun name => ?_
  refine Run.orderly_looks_bind (Run.looks_attrKey site.tag _) fun named => ?_
  refine Run.orderly_looks_bind (Run.looks_attrSwitch site.tag _ _) fun debug => ?_
  refine Run.orderly_ite (Run.orderly_fail _) ?_
  refine Run.orderly_looks_bind (Run.looks_outputPath name) fun path => ?_
  refine Run.orderly_looks_bind (Run.looks_look _) fun id => ?_
  refine Run.orderly_seq (Run.keepsOrder_changeWorld fun _ => rfl) fun _ => ?_
  exact Run.orderly_seq (Run.keepsOrder_setLocal _ (.handler _)) fun _ => orderly_ok

/-! ### Iterators, documents and commands -/

theorem isOrderly_makeIterator : IsOrderly makeIterator := by
  intro site _
  refine Run.orderly_looks_bind (Run.looks_requireKey site.tag _) fun key => ?_
  refine Run.orderly_looks_bind (Run.looks_requireKey site.tag _) fun source => ?_
  refine Run.orderly_bind (Run.orderly_read source) fun value hvalue => ?_
  cases hitems : value.items? with
  | none => exact Run.orderly_fail _
  | some items =>
    exact Run.orderly_seq (Run.keepsOrder_setLocal _ (.iter 0 (hvalue.items? hitems))) fun _ =>
      orderly_ok

theorem isOrderly_stepIterator : IsOrderly stepIterator := by
  intro site _
  refine Run.orderly_looks_bind (Run.looks_requireKey site.tag _) fun key => ?_
  refine Run.orderly_looks_bind (Run.looks_look _) fun global => ?_
  refine Run.orderly_bind (Run.orderly_read key) fun value hvalue => ?_
  dsimp only
  split
  · next items position =>
    cases hvalue with
    | iter _ h =>
      obtain ⟨hitem, hrest⟩ := Value.inOrder_advance h position
      exact Run.orderly_seq (Run.keepsOrder_change fun _ hs => hs.set key hrest global) fun _ =>
        orderly_value hitem
  · exact Run.orderly_fail _

theorem orderly_deliver (tag : Tag) (text : String) :
    (deliver tag text).Orderly Outcome.InOrder := by
  refine Run.orderly_looks_bind (Run.looks_attrKey tag _) fun key => ?_
  refine Run.orderly_ite ?_ ?_
  · exact Run.orderly_seq (Run.keepsOrder_store key (.str text) false) fun _ => orderly_ok
  refine Run.orderly_looks_bind (Run.looks_attrKey tag _) fun goal => ?_
  refine Run.orderly_ite (orderly_value (.str text)) ?_
  split
  · refine Run.orderly_looks_bind (looks_handleText _) fun before => ?_
    exact Run.orderly_seq (Run.keepsOrder_changeWorld fun _ => rfl) fun _ => orderly_ok
  · refine Run.orderly_looks_bind (Run.looks_outputPath _) fun path => ?_
    exact Run.orderly_seq (Run.keepsOrder_writeFile _ _ _ _) fun _ => orderly_ok

theorem isOrderly_loadJson : IsOrderly loadJson := by
  intro site _
  refine Run.orderly_looks_bind (Run.looks_checkEncoding site.tag) fun _ => ?_
  refine Run.orderly_looks_bind (looks_readSource site.tag) fun source => ?_
  cases hvalue : Json.parse? source with
  | none => exact Run.orderly_fail _
  | some value =>
    have h : value.InOrder := Json.inOrder_of_parse? hvalue
    refine Run.orderly_looks_bind (Run.looks_attrKey site.tag _) fun key => ?_
    refine Run.orderly_ite (orderly_value h) ?_
    exact Run.orderly_seq (Run.keepsOrder_store key h false) fun _ => orderly_ok

theorem isOrderly_dumpJson : IsOrderly dumpJson := by
  intro site _
  refine Run.orderly_looks_bind (Run.looks_checkEncoding site.tag) fun _ => ?_
  refine Run.orderly_looks_bind (Run.looks_attrKey site.tag _) fun key => ?_
  refine Run.orderly_ite ?_ ?_
  · exact Run.orderly_looks_bind (Run.looks_pure _) fun _ => orderly_deliver _ _
  · exact Run.orderly_looks_bind (Run.looks_read key) fun _ => orderly_deliver _ _

theorem isOrderly_template : IsOrderly template := by
  intro site _
  refine Run.orderly_looks_bind (Run.looks_checkEncoding site.tag) fun _ => ?_
  refine Run.orderly_looks_bind (looks_readSource site.tag) fun source => ?_
  refine Run.orderly_looks_bind (Run.looks_look _) fun filled => ?_
  exact orderly_deliver _ _

theorem isOrderly_command : IsOrderly command := by
  intro site _
  refine Run.orderly_looks_bind (Run.looks_look _) fun locals => ?_
  refine Run.orderly_ite (Run.orderly_fail _) ?_
  refine Run.orderly_looks_bind (Run.looks_attrKey site.tag _) fun program => ?_
  refine Run.orderly_ite (orderly_ofBool false) ?_
  refine Run.orderly_looks_bind (Run.looks_attrText site.tag _) fun arguments => ?_
  refine Run.orderly_looks_bind (Run.looks_look _) fun w => ?_
  split
  · exact Run.orderly_fail _
  · refine Run.orderly_seq (Run.keepsOrder_changeWorld fun _ => World.globals_note _ _) fun _ => ?_
    split
    · exact Run.orderly_exhausted
    · exact Run.orderly_seq (Run.keepsOrder_changeWorld fun _ => rfl) fun _ => orderly_ofBool _

/-! ### Instruments -/

theorem isOrderly_probe : IsOrderly probe := fun _ _ =>
  Run.orderly_seq (Run.keepsOrder_change fun _ hs => ⟨hs.locals, hs.globals⟩) fun _ => orderly_ok

theorem isOrderly_boom : IsOrderly boom := fun _ _ => Run.orderly_fail _

theorem isOrderly_tick : IsOrderly tick := fun _ _ =>
  Run.orderly_looks_bind (Run.looks_look _) fun _ =>
    Run.orderly_seq (Run.keepsOrder_changeWorld fun _ => rfl) fun _ => orderly_ofBool _

theorem isOrderly_givenBranch : IsOrderly givenBranch := fun _ _ =>
  Run.orderly_pure (Outcome.inOrder_branch _ _)

end Runner

/-- **Every runner of the language is orderly.** -/
theorem isOrderly_builtins : ∀ entry ∈ builtins, Runner.IsOrderly entry.2 := by
  simp only [builtins, List.forall_mem_cons]
  exact ⟨Runner.isOrderly_root, Runner.isOrderly_sub, Runner.isOrderly_loop,
    Runner.isOrderly_forIn, Runner.isOrderly_condition, Runner.isOrderly_condition,
    Runner.isOrderly_branch, Runner.isOrderly_branch, Runner.isOrderly_selection,
    Runner.isOrderly_whenHolds, Runner.isOrderly_otherwise, Runner.isOrderly_assertion false,
    Runner.isOrderly_assertion true, Runner.isOrderly_membership false,
    Runner.isOrderly_membership true, Runner.isOrderly_negation, Runner.isOrderly_connective .and,
    Runner.isOrderly_connective .or, Runner.isOrderly_comparison .equal,
    Runner.isOrderly_comparison .notEqual, Runner.isOrderly_comparison .less,
    Runner.isOrderly_comparison .lessEqual, Runner.isOrderly_comparison .greater,
    Runner.isOrderly_comparison .greaterEqual, Runner.isOrderly_inclusion,
    Runner.isOrderly_procedure, Runner.isOrderly_grant, Runner.isOrderly_call,
    Runner.isOrderly_conditionalCall, Runner.isOrderly_assign,
    Runner.isOrderly_assignTyped .integer, Runner.isOrderly_assignTyped .double,
    Runner.isOrderly_assignTyped .text, Runner.isOrderly_reading, Runner.isOrderly_reading,
    Runner.isOrderly_loadVariables, Runner.isOrderly_loadSheet, Runner.isOrderly_output,
    Runner.isOrderly_handleExceptions, Runner.isOrderly_makeIterator,
    Runner.isOrderly_stepIterator, Runner.isOrderly_loadJson, Runner.isOrderly_dumpJson,
    Runner.isOrderly_template, Runner.isOrderly_command,
    fun _ h => absurd h List.not_mem_nil⟩

theorem isOrderly_instruments : ∀ entry ∈ instruments, Runner.IsOrderly entry.2 := by
  simp only [instruments, List.forall_mem_cons]
  exact ⟨Runner.isOrderly_probe, Runner.isOrderly_boom, Runner.isOrderly_tick,
    Runner.isOrderly_givenBranch, fun _ h => absurd h List.not_mem_nil⟩

end TagScript
