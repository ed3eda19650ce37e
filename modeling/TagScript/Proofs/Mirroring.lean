import TagScript.Proofs.Accord

/-!
# Runners end in accord

A runner that is given a tag which accords with another one, in a frame that
accords with another one and lets the tag see the same, and executes further
tags so that these end in accord, ends in accord with what it does with the
other. There is one statement for each runner, and `Accord.runner` puts them
together. Runners that read and write files, or start commands, need to know
that the files answer them alike; this is all that `Accord.Answers` asks, and
the other runners ask nothing.
-/

namespace TagScript

/-! ## Attributes of tags that are alike -/

namespace Tag.Alike

variable {a b : Tag} (h : a.Alike b)
include h

theorem run_attrText (name : String) : Run.attrText b name = Run.attrText a name := by
  unfold Run.attrText Frame.attrText
  rw [h.attr]

theorem run_attrKey (name : String) : Run.attrKey b name = Run.attrKey a name := by
  unfold Run.attrKey Frame.attrKey Frame.attrText
  rw [h.attr]

theorem requireKey (name : String) : Run.requireKey b name = Run.requireKey a name := by
  unfold Run.requireKey
  rw [h.run_attrKey, h.name]

theorem attrSwitch (name : String) (default : Bool) :
    Run.attrSwitch b name default = Run.attrSwitch a name default := by
  unfold Run.attrSwitch
  rw [h.run_attrText, h.name]

theorem passThrough : Run.passThrough b = Run.passThrough a := h.attrSwitch _ _

theorem checkEncoding : Run.checkEncoding b = Run.checkEncoding a := by
  unfold Run.checkEncoding
  rw [h.run_attrKey]

theorem checkTableType : Run.checkTableType b = Run.checkTableType a := by
  unfold Run.checkTableType
  rw [h.run_attrKey]

theorem fieldPolicy : Run.fieldPolicy b = Run.fieldPolicy a := by
  unfold Run.fieldPolicy
  rw [h.attrSwitch, h.attrSwitch]

theorem keyPair : Run.keyPair b = Run.keyPair a := by
  unfold Run.keyPair
  rw [h.run_attrKey, h.run_attrKey]

theorem parameters (s : Frame) : Runner.parameters s b = Runner.parameters s a := by
  unfold Runner.parameters
  rw [h.attrs]

theorem readSource : Runner.readSource b = Runner.readSource a := by
  unfold Runner.readSource
  rw [h.run_attrKey, h.run_attrText, h.run_attrKey, h.text, h.name]

theorem deliver (text : String) : Runner.deliver b text = Runner.deliver a text := by
  unfold Runner.deliver
  rw [h.run_attrKey, h.run_attrKey]

theorem outputMode (default : Files.WriteMode) :
    Runner.outputMode b default = Runner.outputMode a default := by
  unfold Runner.outputMode
  rw [h.run_attrKey]

theorem lineEnd? (s : Frame) : Runner.lineEnd? s b = Runner.lineEnd? s a := by
  unfold Runner.lineEnd? Frame.attrText
  rw [h.attr]

end Tag.Alike

namespace Accord

variable {K : Accord}

section Passes

variable {a b : Tag} (hab : K.Tags a b) {depth depth' : Depth}
  {exec exec' : Tag → Depth → Run Outcome} {rounds : Nat} {s t : Frame} (h : K.Frames s t)
  (hexec : K.Executes exec exec' depth depth')

include h hexec

theorem firstFalsy {xs ys : List Tag} (htags : List.Forall₂ K.Tags xs ys) :
    K.Endings (Option.Rel K.Tags) (Site.firstFalsy ⟨a, depth, exec, rounds⟩ xs s)
      (Site.firstFalsy ⟨b, depth', exec', rounds⟩ ys t) := by
  induction htags generalizing s t with
  | nil => exact .pure h .none
  | cons hchild _ ih =>
    refine (hexec hchild h).bind_eq fun outcome s' t' h' => ?_
    cases outcome.truthy with
    | true => exact ih h'
    | false => exact .pure h' (.some hchild)

theorem completesOr {cause cause' : Tag → Cause}
    (hcause : ∀ {x y : Tag}, K.Tags x y → cause' y = cause x) {xs ys : List Tag}
    (htags : List.Forall₂ K.Tags xs ys) :
    K.Endings Eq (Site.completesOr ⟨a, depth, exec, rounds⟩ cause xs s)
      (Site.completesOr ⟨b, depth', exec', rounds⟩ cause' ys t) := by
  refine (firstFalsy h hexec htags).bind fun stopped stopped' s' t' hstopped h' => ?_
  cases hstopped with
  | none => exact .pure h' rfl
  | some hchild =>
    dsimp only
    rw [hcause hchild]
    exact .fail h' _

theorem branchBody (matched : Bool) (hab : K.Tags a b) {xs ys : List Tag}
    (htags : List.Forall₂ K.Tags xs ys) :
    K.Endings Eq (Runner.branchBody ⟨a, depth, exec, rounds⟩ matched xs s)
      (Runner.branchBody ⟨b, depth', exec', rounds⟩ matched ys t) := by
  cases matched with
  | true =>
    refine (completesOr h hexec (fun hchild => ?_) htags).bind_eq fun _ s' t' h' => .pure h' rfl
    rw [hab.alike.name, hchild.alike.name]
  | false => exact .pure h rfl

theorem tryBranches {xs ys : List Tag} (htags : List.Forall₂ K.Tags xs ys) :
    K.Endings Eq (Runner.tryBranches ⟨a, depth, exec, rounds⟩ xs s)
      (Runner.tryBranches ⟨b, depth', exec', rounds⟩ ys t) := by
  induction htags generalizing s t with
  | nil => exact .pure h rfl
  | @cons child child' _ _ hchild _ ih =>
    unfold Runner.tryBranches
    rw [hchild.alike.name]
    refine .ite Iff.rfl (fun _ => ?_) fun _ => .fail h _
    refine (hexec hchild h).bind_eq fun outcome s' t' h' => ?_
    exact .ite Iff.rfl (fun _ => .fail h' _) fun _ =>
      .ite Iff.rfl (fun _ => .pure h' rfl) fun _ => ih h'

theorem allPass (test : Value → Bool) {xs ys : List Tag}
    (htags : List.Forall₂ K.Tags xs ys) :
    K.Endings Eq (Runner.allPass ⟨a, depth, exec, rounds⟩ test xs s)
      (Runner.allPass ⟨b, depth', exec', rounds⟩ test ys t) := by
  induction htags generalizing s t with
  | nil => exact .pure h rfl
  | cons hchild _ ih =>
    refine (hexec hchild h).bind_eq fun outcome s' t' h' => ?_
    exact .ite Iff.rfl (fun _ => ih h') fun _ => .pure h' rfl

theorem settle (connective : Connective) {xs ys : List Tag}
    (htags : List.Forall₂ K.Tags xs ys) :
    K.Endings Eq (Runner.settle ⟨a, depth, exec, rounds⟩ connective xs s)
      (Runner.settle ⟨b, depth', exec', rounds⟩ connective ys t) := by
  induction htags generalizing s t with
  | nil => exact .pure h rfl
  | cons hchild hrest ih =>
    cases hrest with
    | nil => exact (hexec hchild h).bind_eq fun outcome s' t' h' => .pure h' rfl
    | cons hnext hrest =>
      refine (hexec hchild h).bind_eq fun outcome s' t' h' => ?_
      exact .ite Iff.rfl (fun _ => .pure h' rfl) fun _ => ih h'

theorem chain (c : Comparison) (previous : Value) {xs ys : List Tag}
    (htags : List.Forall₂ K.Tags xs ys) :
    K.Endings Eq (Runner.chain ⟨a, depth, exec, rounds⟩ c previous xs s)
      (Runner.chain ⟨b, depth', exec', rounds⟩ c previous ys t) := by
  induction htags generalizing s t previous with
  | nil => exact .pure h rfl
  | cons hchild _ ih =>
    refine (hexec hchild h).bind_eq fun outcome s' t' h' => ?_
    refine .look_bind h' (Run.concurs_ofExcept _) fun goesOn _ => ?_
    exact .ite Iff.rfl (fun _ => ih h' _) fun _ => .pure h' rfl

theorem body {xs ys : List Tag} (htags : List.Forall₂ K.Tags xs ys) :
    K.Endings Eq (Runner.body ⟨a, depth, exec, rounds⟩ xs s)
      (Runner.body ⟨b, depth', exec', rounds⟩ ys t) := by
  induction htags generalizing s t with
  | nil => exact .pure h rfl
  | cons hchild _ ih =>
    refine (hexec hchild h).bind_eq fun outcome s' t' h' => ?_
    rw [hchild.alike.name]
    exact .ite Iff.rfl (fun _ => .pure h' rfl) fun _ =>
      .ite Iff.rfl (fun _ => ih h') fun _ => .pure h' rfl

include hab

theorem completes :
    K.Endings Eq (Site.completes ⟨a, depth, exec, rounds⟩ s)
      (Site.completes ⟨b, depth', exec', rounds⟩ t) :=
  (firstFalsy h hexec hab.tags).bind fun _ _ _ _ hstopped h' =>
    .pure h' (Tag.rel_isNone hstopped).symm

end Passes

/-! ## Blocks and choices -/

section Runners

variable {a b : Tag} (hab : K.Tags a b) {depth depth' : Depth}
  {exec exec' : Tag → Depth → Run Outcome} {rounds : Nat} {s t : Frame} (h : K.Frames s t)
  (hexec : K.Executes exec exec' depth depth')

section Blocks

include hab h hexec

theorem root : K.Endings Eq (Runner.root ⟨a, depth, exec, rounds⟩ s)
    (Runner.root ⟨b, depth', exec', rounds⟩ t) := by
  refine .isolated h ((completesOr h hexec (fun hchild => ?_) hab.tags).bind_eq
    fun _ s' t' h' => .pure h' rfl)
  rw [hchild.alike.name]

theorem sub (hsees : K.Sees a s t) (hname : a.name = "sub") :
    K.Endings Eq (Runner.sub ⟨a, depth, exec, rounds⟩ s)
      (Runner.sub ⟨b, depth', exec', rounds⟩ t) := by
  unfold Runner.sub
  rw [hab.alike.passThrough]
  exact .look_bind h (hsees.concurs_attrSwitch h (.of_name hname (by decide)) _) fun shared _ =>
    .within h shared ((completes hab h hexec).bind_eq fun _ s' t' h' => .pure h' rfl)

theorem loop (hsees : K.Sees a s t) (hname : a.name = "loop") :
    K.Endings Eq (Runner.loop ⟨a, depth, exec, rounds⟩ s)
      (Runner.loop ⟨b, depth', exec', rounds⟩ t) := by
  unfold Runner.loop
  rw [hab.alike.passThrough]
  refine .look_bind h (hsees.concurs_attrSwitch h (.of_name hname (by decide)) _) fun shared _ => ?_
  refine .within h shared ?_
  exact (Endings.repeatWhile rounds (fun _ _ h => completes hab h hexec) h).bind_eq
    fun _ s' t' h' => .pure h' rfl

theorem forIn (hsees : K.Sees a s t) (hname : a.name = "for_in") :
    K.Endings Eq (Runner.forIn ⟨a, depth, exec, rounds⟩ s)
      (Runner.forIn ⟨b, depth', exec', rounds⟩ t) := by
  unfold Runner.forIn
  rw [hab.alike.passThrough, hab.alike.hasAttr, hab.alike.requireKey]
  refine .look_bind h (hsees.concurs_attrSwitch h (.of_name hname (by decide)) _) fun shared _ => ?_
  refine .ite Iff.rfl (fun _ => .look_bind h (Run.concurs_fail _) fun _ hfail => by cases hfail)
    fun _ => ?_
  refine .look_bind h (hsees.concurs_requireKey h (.of_name hname (by decide))) fun key hkey => ?_
  obtain rfl := Run.eq_attrKey_of_requireKey hkey
  refine .look_bind h (hsees.concurs_read h (.keyed (hname ▸ by decide))) fun source _ => ?_
  cases source.entries? with
  | none => exact .fail h _
  | some entries =>
    refine .within h shared ((Endings.forEach entries (fun entry _ s t h => ?_) h).bind_eq
      fun _ s' t' h' => .pure h' rfl)
    refine (Endings.change (K.setLocal h _ _)).bind_eq fun _ s t h => ?_
    exact (Endings.change (K.setLocal h _ _)).bind_eq fun _ s t h => completes hab h hexec

theorem branch : K.Endings Eq (Runner.branch ⟨a, depth, exec, rounds⟩ s)
    (Runner.branch ⟨b, depth', exec', rounds⟩ t) := by
  refine (completesOr h hexec (fun hchild => ?_) hab.tags).bind_eq fun _ s' t' h' => .pure h' rfl
  rw [hab.alike.name, hchild.alike.name]

theorem assertionHolds (shared : Bool) :
    K.Endings Eq (Runner.assertionHolds ⟨a, depth, exec, rounds⟩ shared s)
      (Runner.assertionHolds ⟨b, depth', exec', rounds⟩ shared t) := by
  unfold Runner.assertionHolds
  have hassertion := K.likens.assertion? hab
  revert hassertion
  generalize a.assertion? = first
  generalize b.assertion? = second
  intro hassertion
  cases hassertion with
  | none => exact .pure h rfl
  | some hchild =>
    exact .within h shared ((hexec hchild h).bind_eq fun _ s' t' h' => .pure h' rfl)

theorem takeBranch (shared matched : Bool) :
    K.Endings Eq (Runner.takeBranch ⟨a, depth, exec, rounds⟩ shared matched s)
      (Runner.takeBranch ⟨b, depth', exec', rounds⟩ shared matched t) := by
  unfold Runner.takeBranch
  dsimp only
  rw [Tag.rel_isNone (K.likens.branch? hab true), Tag.rel_isNone (K.likens.branch? hab false)]
  refine .ite Iff.rfl (fun _ => .pure h rfl) fun _ => ?_
  have hbranch := K.likens.branch? hab matched
  revert hbranch
  generalize a.branch? matched = first
  generalize b.branch? matched = second
  intro hbranch
  cases hbranch with
  | none => exact .pure h rfl
  | some hchild => exact .within h shared (hexec hchild h)

theorem condition (hsees : K.Sees a s t) (hname : a.name ∈ ["if", "elif"]) :
    K.Endings Eq (Runner.condition ⟨a, depth, exec, rounds⟩ s)
    (Runner.condition ⟨b, depth', exec', rounds⟩ t) := by
  unfold Runner.condition
  rw [hab.alike.passThrough]
  exact .look_bind h (hsees.concurs_attrSwitch h (.of_mem hname (by decide)) _) fun shared _ =>
    (assertionHolds hab h hexec shared).bind_eq fun matched s' t' h' =>
      takeBranch hab h' hexec shared matched

theorem selection (hsees : K.Sees a s t) (hname : a.name = "case") :
    K.Endings Eq (Runner.selection ⟨a, depth, exec, rounds⟩ s)
      (Runner.selection ⟨b, depth', exec', rounds⟩ t) := by
  unfold Runner.selection
  rw [hab.alike.passThrough]
  exact .look_bind h (hsees.concurs_attrSwitch h (.of_name hname (by decide)) _) fun shared _ =>
    .within h shared ((tryBranches h hexec hab.tags).bind_eq fun _ s' t' h' => .pure h' rfl)

theorem whenHolds : K.Endings Eq (Runner.whenHolds ⟨a, depth, exec, rounds⟩ s)
    (Runner.whenHolds ⟨b, depth', exec', rounds⟩ t) := by
  unfold Runner.whenHolds
  have hassertion := K.likens.ownAssertion? hab
  revert hassertion
  dsimp only
  generalize a.ownAssertion? = first
  generalize b.ownAssertion? = second
  intro hassertion
  cases hassertion with
  | some hchild =>
    exact (hexec hchild h).bind_eq fun outcome s' t' h' =>
      branchBody h' hexec outcome.truthy hab hab.tags
  | none =>
    have htags := hab.tags
    revert htags
    dsimp only
    generalize a.tags = xs
    generalize b.tags = ys
    intro htags
    cases htags with
    | nil => exact .fail h _
    | cons hchild hbody =>
      dsimp only
      rw [hchild.alike.isAssertion]
      refine .ite Iff.rfl (fun _ => ?_) fun _ => .fail h _
      exact (hexec hchild h).bind_eq fun outcome s' t' h' =>
        branchBody h' hexec outcome.truthy hab hbody

theorem otherwise : K.Endings Eq (Runner.otherwise ⟨a, depth, exec, rounds⟩ s)
    (Runner.otherwise ⟨b, depth', exec', rounds⟩ t) :=
  branchBody h hexec true hab hab.tags

/-! ## Assertions and operators -/

theorem assertion (hsees : K.Sees a s t) (hname : a.name ∈ ["assert", "assert_not"])
    (negated : Bool) :
    K.Endings Eq (Runner.assertion negated ⟨a, depth, exec, rounds⟩ s)
      (Runner.assertion negated ⟨b, depth', exec', rounds⟩ t) := by
  unfold Runner.assertion
  rw [hab.alike.run_attrKey, hab.alike.run_attrText, hab.alike.name, Tag.rel_isEmpty hab.tags]
  refine .look_bind h (hsees.concurs_attrKey h (.of_mem hname (by decide))) fun key hkey => ?_
  obtain rfl := (Ending.done.inj hkey).1
  refine .look_bind h (hsees.concurs_attrText h (.of_mem hname (by decide))) fun expected _ => ?_
  refine .ite Iff.rfl (fun _ => ?_) fun _ => ?_
  · refine .look_bind h (hsees.concurs_read h (.keyed ?_)) fun _ _ => .pure h rfl
    exact (by decide : ["assert", "assert_not"] ⊆ keyedNames) hname
  · refine .ite Iff.rfl (fun _ => .fail h _) fun _ => ?_
    exact (allPass h hexec _ hab.tags).bind_eq fun _ s' t' h' => .pure h' rfl

theorem membership (hsees : K.Sees a s t) (hname : a.name ∈ ["assert_in", "assert_not_in"])
    (negated : Bool) :
    K.Endings Eq (Runner.membership negated ⟨a, depth, exec, rounds⟩ s)
      (Runner.membership negated ⟨b, depth', exec', rounds⟩ t) := by
  unfold Runner.membership
  rw [hab.alike.requireKey, hab.alike.name, Tag.rel_isEmpty hab.tags]
  refine .look_bind h (hsees.concurs_requireKey h (.of_mem hname (by decide))) fun key hkey => ?_
  obtain rfl := Run.eq_attrKey_of_requireKey hkey
  refine .ite Iff.rfl (fun _ => .fail h _) fun _ => ?_
  have hkeyed : a.name ∈ keyedNames :=
    (by decide : ["assert_in", "assert_not_in"] ⊆ keyedNames) hname
  refine .look_bind h (hsees.concurs_read h (.keyed hkeyed)) fun actual _ => ?_
  exact (allPass h hexec _ hab.tags).bind_eq fun _ s' t' h' => .pure h' rfl

theorem negation : K.Endings Eq (Runner.negation ⟨a, depth, exec, rounds⟩ s)
    (Runner.negation ⟨b, depth', exec', rounds⟩ t) := by
  unfold Runner.negation
  have hfirst := K.likens.firstTag? hab
  revert hfirst
  dsimp only
  generalize a.firstTag? = first
  generalize b.firstTag? = second
  intro hfirst
  cases hfirst with
  | none => exact .fail h _
  | some hchild => exact (hexec hchild h).bind_eq fun _ s' t' h' => .pure h' rfl

theorem connective (hsees : K.Sees a s t) (hname : a.name ∈ operatorNames) (c : Connective) :
    K.Endings Eq (Runner.connective c ⟨a, depth, exec, rounds⟩ s)
      (Runner.connective c ⟨b, depth', exec', rounds⟩ t) := by
  unfold Runner.connective
  rw [hab.alike.keyPair, hab.alike.name, Tag.rel_length hab.tags]
  refine .look_bind h (hsees.concurs_keyPair h hname) fun pair hpair => ?_
  cases pair with
  | some keys =>
    have hfirst := hsees.concurs_read h (.operand hname hpair (.inl rfl))
    have hsecond := hsees.concurs_read h (.operand hname hpair (.inr rfl))
    refine .look_bind h hfirst fun value _ => .ite Iff.rfl (fun _ => .pure h rfl) fun _ => ?_
    exact .look_bind h hsecond fun _ _ => .pure h rfl
  | none =>
    refine .ite Iff.rfl (fun _ => .fail h _) fun _ => ?_
    exact (settle h hexec c hab.tags).bind_eq fun _ s' t' h' => .pure h' rfl

theorem comparison (hsees : K.Sees a s t) (hname : a.name ∈ operatorNames) (c : Comparison) :
    K.Endings Eq (Runner.comparison c ⟨a, depth, exec, rounds⟩ s)
      (Runner.comparison c ⟨b, depth', exec', rounds⟩ t) := by
  unfold Runner.comparison
  rw [hab.alike.keyPair, hab.alike.name]
  refine .look_bind h (hsees.concurs_keyPair h hname) fun pair hpair => ?_
  cases pair with
  | some keys =>
    have hfirst := hsees.concurs_read h (.operand hname hpair (.inl rfl))
    have hsecond := hsees.concurs_read h (.operand hname hpair (.inr rfl))
    refine .look_bind h hfirst fun left _ => .look_bind h hsecond fun right _ => ?_
    exact .look_bind h (Run.concurs_ofExcept _) fun _ _ => .pure h rfl
  | none =>
    have htags := hab.tags
    revert htags
    dsimp only
    generalize a.tags = xs
    generalize b.tags = ys
    intro htags
    cases htags with
    | nil => exact .fail h _
    | cons hfirst hrest =>
      cases hrest with
      | nil => exact .fail h _
      | cons hsecond hrest =>
        refine (hexec hfirst h).bind_eq fun outcome s' t' h' => ?_
        exact (chain h' hexec c _ (.cons hsecond hrest)).bind_eq fun _ s' t' h' => .pure h' rfl

/-! ## Calls -/

omit hab hexec in
/-- The parameters of a call are the same. -/
theorem parameters (hsees : K.Sees a s t) (hname : a.name ∈ ["call", "cond_call"]) :
    Runner.parameters t a = Runner.parameters s a := by
  unfold Runner.parameters
  refine List.map_congr_left fun entry hentry => ?_
  obtain ⟨hmem, hparameter⟩ := List.mem_filter.1 hentry
  obtain ⟨name, _ | text⟩ := entry
  · rfl
  · show (name, Value.str (t.substitute text)) = (name, Value.str (s.substitute text))
    rw [hsees.texts (.parameter hname hparameter) hmem h]

theorem invoke (hsees : K.Sees a s t) (hname : a.name ∈ ["call", "cond_call"]) (name : String) :
    K.Endings Eq (Runner.invoke ⟨a, depth, exec, rounds⟩ name s)
      (Runner.invoke ⟨b, depth', exec', rounds⟩ name t) := by
  unfold Runner.invoke
  dsimp only
  have hfound := K.procedure? h name
  have hgiven : Runner.parameters t b = Runner.parameters s a := by
    rw [hab.alike.parameters]
    exact parameters h hsees hname
  refine .looked ?_
  revert hfound
  generalize s.world.procedures.get? name = first
  generalize t.world.procedures.get? name = second
  intro hfound
  cases hfound with
  | none => exact .fail h _
  | some hprocedure =>
    dsimp only
    rw [hab.alike.passThrough]
    refine .look_bind h (hsees.concurs_attrSwitch h (.of_mem hname (by decide)) _)
      fun shared _ => ?_
    refine Endings.bind_eq (.done hgiven.symm h) fun given s t h => ?_
    refine (Endings.change (K.called h hab name)).bind_eq fun _ s t h => ?_
    refine .within h shared ?_
    refine (Endings.change (h.insertAll given)).bind_eq fun _ s t h => ?_
    exact body h hexec hprocedure.tags

theorem call (hsees : K.Sees a s t) (hname : a.name = "call") :
    K.Endings Eq (Runner.call ⟨a, depth, exec, rounds⟩ s)
      (Runner.call ⟨b, depth', exec', rounds⟩ t) := by
  unfold Runner.call
  rw [hab.alike.requireKey]
  exact .look_bind h (hsees.concurs_requireKey h (.of_name hname (by decide))) fun name _ =>
    invoke hab h hexec hsees (by simp [hname]) name

theorem conditionalCall (hsees : K.Sees a s t) (hname : a.name = "cond_call") :
    K.Endings Eq (Runner.conditionalCall ⟨a, depth, exec, rounds⟩ s)
    (Runner.conditionalCall ⟨b, depth', exec', rounds⟩ t) := by
  unfold Runner.conditionalCall
  rw [hab.alike.requireKey]
  refine .look_bind h (hsees.concurs_requireKey h (.of_name hname (by decide))) fun name hkey => ?_
  obtain rfl := Run.eq_attrKey_of_requireKey hkey
  have hswitched : Runner.isSwitchedOn t.locals (s.attrKey a "name") =
      Runner.isSwitchedOn s.locals (s.attrKey a "name") := by
    unfold Runner.isSwitchedOn
    rw [hsees.values (.switch hname)]
  have hmem : a.name ∈ ["call", "cond_call"] := by simp [hname]
  refine .looked (.ite ?_ (fun _ => invoke hab h hexec hsees hmem _) fun _ => .pure h rfl)
  rw [hswitched, h.holds]

end Blocks

end Runners

end Accord

end TagScript
