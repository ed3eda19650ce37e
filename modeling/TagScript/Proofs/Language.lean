import TagScript.Proofs.Logic

/-!
# The runners of the language obey every logic

One statement for each runner: it obeys a logic as far as the execution of
the tags it leads to does. `Logic.obeys_builtins` puts them together. The
repetition is left out of it, since it alone goes round as often as its
means allow; `Logic.holds_loop` is about it, and `Logic.holds_runner` about
all runners where it is known what becomes of the repetition.
-/

namespace TagScript

namespace Tag

variable {tag child : Tag} {s : Frame}

theorem leads_of_firstTag? (h : tag.firstTag? = some child) : tag.Leads s child :=
  .inside (List.mem_of_mem_head? h)

theorem leads_of_lastNamed? {name : String} (h : tag.lastNamed? name = some child) :
    tag.Leads s child :=
  .inside (List.mem_filter.1 (List.mem_of_getLast? h)).1

/-- The assertion of a condition is its own or stands inside it. -/
theorem leads_of_assertion? (hname : tag.name ∈ assertingNames)
    (h : tag.assertion? = some child) : tag.Leads s child := by
  obtain h | ⟨_, h⟩ := Option.or_eq_some_iff.1 h
  · exact .assertion hname h
  · exact .inside (List.mem_of_find?_eq_some h)

/-- The branch of a condition stands inside it. -/
theorem leads_of_branch? {matched : Bool} (h : tag.branch? matched = some child) :
    tag.Leads s child := by
  cases matched with
  | true => exact leads_of_lastNamed? h
  | false =>
    obtain h | ⟨_, h⟩ := Option.or_eq_some_iff.1 h
    · exact leads_of_lastNamed? h
    · exact leads_of_lastNamed? h

end Tag

namespace Logic

variable {tag : Tag} {ι : Type} (L : Logic tag ι) {depth : Depth}
variable {exec : ι → Tag → Depth → Run Outcome} {rounds : ι → Nat}

section Runners

-- the runner is called in the frame `start`, and executes further tags in whatever frames it
-- gets to from there
variable {start : Frame}
variable (hexec : ∀ child, tag.Leads start child → ∀ s, L.holds (fun i => exec i child depth) s)
include hexec

theorem holds_inside (child : Tag) (h : child ∈ tag.tags) (s : Frame) :
    L.holds (fun i => exec i child depth) s :=
  hexec child (.inside h) s

/-! ## Blocks -/

theorem holds_root (s : Frame) :
    L.holds (fun i => Runner.root ⟨tag, depth, exec i, rounds i⟩) s :=
  L.copied (L.bind (L.holds_completesOr _ (fun _ => rfl) (L.holds_inside hexec) s) fun _ _ t _ =>
    L.holds_pure _ t)

theorem holds_sub (s : Frame) :
    L.holds (fun i => Runner.sub ⟨tag, depth, exec i, rounds i⟩) s :=
  L.holds_looks_bind (Run.looks_passThrough tag) fun shared _ =>
    L.holds_within shared (L.bind (L.holds_completes (L.holds_inside hexec) s) fun _ _ t _ =>
      L.holds_pure _ t)

omit hexec in
/-- The repetition has a logic if going round has. -/
theorem holds_loop_of_repeatWhile
    (h : ∀ t, L.holds (fun i =>
      Run.repeatWhile (Site.completes ⟨tag, depth, exec i, rounds i⟩) (rounds i)) t)
    (s : Frame) : L.holds (fun i => Runner.loop ⟨tag, depth, exec i, rounds i⟩) s :=
  L.holds_looks_bind (Run.looks_passThrough tag) fun shared _ =>
    L.holds_within shared (L.bind (h s) fun _ _ t _ => L.holds_pure _ t)

/-- **The repetition**, which also has to be cut off at some time. -/
theorem holds_loop (n : Nat) (hx : ∀ t, L.holds (fun _ => (Run.exhausted : Run Unit)) t)
    (s : Frame) : L.holds (fun i => Runner.loop ⟨tag, depth, exec i, n⟩) s :=
  L.holds_loop_of_repeatWhile
    (L.holds_repeatWhile n hx (L.holds_completes (L.holds_inside hexec))) s

theorem holds_forIn (s : Frame) :
    L.holds (fun i => Runner.forIn ⟨tag, depth, exec i, rounds i⟩) s := by
  refine L.holds_looks_bind (Run.looks_passThrough tag) fun shared _ => ?_
  dsimp only
  refine L.holds_ite (fun _ => L.holds_looks_bind (Run.looks_fail rfl) fun _ h => by cases h)
    fun _ => ?_
  refine L.holds_looks_bind (Run.looks_requireKey tag _) fun key _ => ?_
  refine L.holds_looks_bind (Run.looks_read key) fun source _ => ?_
  cases source.entries? with
  | none => exact L.holds_fail rfl s
  | some entries =>
    refine L.holds_within shared (L.bind (L.holds_forEach entries (fun entry _ t => ?_) s)
      fun _ _ t _ => L.holds_pure _ t)
    refine L.bind (L.holds_setLocal _ (by decide) (fun _ => by decide) (fun _ _ => by decide)
      (fun _ => by decide) t) fun _ _ t _ => ?_
    refine L.bind (L.holds_setLocal _ (by decide) (fun _ => by decide) (fun _ _ => by decide)
      (fun _ => by decide) t) fun _ _ t _ => ?_
    exact L.holds_completes (L.holds_inside hexec) t

theorem holds_branch (s : Frame) :
    L.holds (fun i => Runner.branch ⟨tag, depth, exec i, rounds i⟩) s :=
  L.bind (L.holds_completesOr (fun child => .branchAborted tag.name child.name) (fun _ => rfl)
    (L.holds_inside hexec) s) fun _ _ t _ => L.holds_pure _ t

/-! ## Choices -/

theorem holds_assertionHolds (hname : tag.name ∈ assertingNames) (shared : Bool) (s : Frame) :
    L.holds (fun i => Runner.assertionHolds ⟨tag, depth, exec i, rounds i⟩ shared) s := by
  unfold Runner.assertionHolds
  dsimp only
  cases h : tag.assertion? with
  | some assertion =>
    exact L.holds_within shared (L.bind (hexec assertion (Tag.leads_of_assertion? hname h) s)
      fun _ _ t _ => L.holds_pure _ t)
  | none => exact L.holds_pure false s

theorem holds_takeBranch (shared matched : Bool) (s : Frame) :
    L.holds (fun i => Runner.takeBranch ⟨tag, depth, exec i, rounds i⟩ shared matched) s := by
  unfold Runner.takeBranch
  dsimp only
  refine L.holds_ite (fun _ => L.holds_pure _ s) fun _ => ?_
  cases h : tag.branch? matched with
  | some branch => exact L.holds_within shared (hexec branch (Tag.leads_of_branch? h) s)
  | none => exact L.holds_pure _ s

theorem holds_condition (hname : tag.name ∈ assertingNames) (s : Frame) :
    L.holds (fun i => Runner.condition ⟨tag, depth, exec i, rounds i⟩) s :=
  L.holds_looks_bind (Run.looks_passThrough tag) fun shared _ =>
    L.bind (L.holds_assertionHolds hexec hname shared s) fun _ matched t _ =>
      L.holds_takeBranch hexec shared matched t

theorem holds_selection (s : Frame) :
    L.holds (fun i => Runner.selection ⟨tag, depth, exec i, rounds i⟩) s :=
  L.holds_looks_bind (Run.looks_passThrough tag) fun shared _ =>
    L.holds_within shared (L.bind (L.holds_tryBranches (L.holds_inside hexec) s) fun _ _ t _ =>
      L.holds_pure _ t)

theorem holds_whenHolds (hname : tag.name ∈ assertingNames) (s : Frame) :
    L.holds (fun i => Runner.whenHolds ⟨tag, depth, exec i, rounds i⟩) s := by
  unfold Runner.whenHolds
  dsimp only
  cases h : tag.ownAssertion? with
  | some assertion =>
    exact L.bind (hexec assertion (.assertion hname h) s) fun _ outcome t _ =>
      L.holds_branchBody outcome.truthy (L.holds_inside hexec) t
  | none =>
    cases h : tag.tags with
    | nil => exact L.holds_fail rfl s
    | cons first body =>
      have hin : ∀ child ∈ first :: body, ∀ t, L.holds (fun i => exec i child depth) t :=
        fun child hc t => hexec child (.inside (h ▸ hc)) t
      refine L.holds_ite (fun _ => ?_) fun _ => L.holds_fail rfl s
      exact L.bind (hin first List.mem_cons_self s) fun _ outcome t _ =>
        L.holds_branchBody outcome.truthy
          (fun child hc => hin child (List.mem_cons_of_mem _ hc)) t

theorem holds_otherwise (s : Frame) :
    L.holds (fun i => Runner.otherwise ⟨tag, depth, exec i, rounds i⟩) s :=
  L.holds_branchBody true (L.holds_inside hexec) s

/-! ## Assertions and operators -/

theorem holds_assertion (negated : Bool) (s : Frame) :
    L.holds (fun i => Runner.assertion negated ⟨tag, depth, exec i, rounds i⟩) s := by
  refine L.holds_looks_bind (Run.looks_attrKey tag _) fun key _ => ?_
  refine L.holds_looks_bind (Run.looks_attrText tag _) fun expected _ => ?_
  refine L.holds_ite (fun _ => ?_) fun _ => ?_
  · exact L.holds_looks_bind (Run.looks_read key) fun _ _ => L.holds_pure _ s
  dsimp only
  refine L.holds_ite (fun _ => L.holds_fail rfl s) fun _ => ?_
  exact L.bind (L.holds_allPass _ (L.holds_inside hexec) s) fun _ _ t _ => L.holds_pure _ t

theorem holds_membership (negated : Bool) (s : Frame) :
    L.holds (fun i => Runner.membership negated ⟨tag, depth, exec i, rounds i⟩) s := by
  refine L.holds_looks_bind (Run.looks_requireKey tag _) fun key _ => ?_
  dsimp only
  refine L.holds_ite (fun _ => L.holds_fail rfl s) fun _ => ?_
  refine L.holds_looks_bind (Run.looks_read key) fun actual _ => ?_
  exact L.bind (L.holds_allPass _ (L.holds_inside hexec) s) fun _ _ t _ => L.holds_pure _ t

theorem holds_negation (s : Frame) :
    L.holds (fun i => Runner.negation ⟨tag, depth, exec i, rounds i⟩) s := by
  unfold Runner.negation
  dsimp only
  cases h : tag.firstTag? with
  | none => exact L.holds_fail rfl s
  | some child =>
    exact L.bind (hexec child (Tag.leads_of_firstTag? h) s) fun _ _ t _ => L.holds_pure _ t

theorem holds_connective (c : Connective) (s : Frame) :
    L.holds (fun i => Runner.connective c ⟨tag, depth, exec i, rounds i⟩) s := by
  refine L.holds_looks_bind (Run.looks_keyPair tag) fun pair _ => ?_
  cases pair with
  | some keys =>
    refine L.holds_looks_bind (Run.looks_read keys.1) fun value _ => ?_
    refine L.holds_ite (fun _ => L.holds_pure _ s) fun _ => ?_
    exact L.holds_looks_bind (Run.looks_read keys.2) fun _ _ => L.holds_pure _ s
  | none =>
    dsimp only
    refine L.holds_ite (fun _ => L.holds_fail rfl s) fun _ => ?_
    exact L.bind (L.holds_settle c (L.holds_inside hexec) s) fun _ _ t _ => L.holds_pure _ t

theorem holds_comparison (c : Comparison) (s : Frame) :
    L.holds (fun i => Runner.comparison c ⟨tag, depth, exec i, rounds i⟩) s := by
  refine L.holds_looks_bind (Run.looks_keyPair tag) fun pair _ => ?_
  cases pair with
  | some keys =>
    refine L.holds_looks_bind (Run.looks_read keys.1) fun left _ => ?_
    refine L.holds_looks_bind (Run.looks_read keys.2) fun right _ => ?_
    exact L.holds_looks_bind (Runner.looks_compareValues c _ _) fun _ _ => L.holds_pure _ s
  | none =>
    dsimp only
    rcases h : tag.tags with _ | ⟨first, _ | ⟨second, rest⟩⟩
    · exact L.holds_fail rfl s
    · exact L.holds_fail rfl s
    · have hin : ∀ child ∈ first :: second :: rest,
          ∀ t, L.holds (fun i => exec i child depth) t :=
        fun child hc t => hexec child (.inside (h ▸ hc)) t
      refine L.bind (hin first List.mem_cons_self s) fun _ outcome t _ => ?_
      exact L.bind (L.holds_chain c _ (fun child hc => hin child (List.mem_cons_of_mem _ hc)) t)
        fun _ _ t _ => L.holds_pure _ t

/-! ## Procedures, privileges and modules -/

omit hexec in
theorem holds_procedure (hname : tag.name = "procedure") (s : Frame) :
    L.holds (fun i => Runner.procedure ⟨tag, depth, exec i, rounds i⟩) s := by
  unfold Runner.procedure
  dsimp only
  refine L.holds_ite (fun _ => L.holds_fail rfl s) fun _ => ?_
  exact L.holds_change_bind (.defined s hname) fun t => L.holds_pure _ t

omit hexec in
theorem holds_grant (s : Frame) :
    L.holds (fun i => Runner.grant ⟨tag, depth, exec i, rounds i⟩) s := by
  refine L.holds_looks_bind (Run.looks_look _) fun locals hlocals => ?_
  obtain rfl : s.locals = locals := (Ending.done.inj hlocals).1
  refine L.holds_ite (fun _ => L.holds_fail rfl s) fun hheld => ?_
  refine L.holds_looks_bind (Run.looks_attrKey tag _) fun names _ => ?_
  refine L.holds_ite (fun _ => L.holds_fail rfl s) fun _ => ?_
  refine L.holds_change_bind (.granted s _ ?_) fun t => L.holds_pure _ t
  simpa using hheld

/-- A call goes on to the body of a procedure once it has been allowed
to. -/
theorem holds_invoke (name : String) (hname : tag.name = "call" ∨ tag.name = "cond_call")
    (hheld : tag.name = "cond_call" → Privilege.holds start.locals name = true) :
    L.holds (fun i => Runner.invoke ⟨tag, depth, exec i, rounds i⟩ name) start := by
  refine L.holds_looks_bind (Run.looks_look _) fun found hfound => ?_
  cases found with
  | none => exact L.holds_fail rfl start
  | some procedure =>
    have hdefined : start.world.procedures.get? name = some procedure :=
      (Ending.done.inj hfound).1
    refine L.holds_looks_bind (Run.looks_passThrough tag) fun shared _ => ?_
    refine L.holds_looks_bind (Run.looks_look (Runner.parameters · tag)) fun given hgiven => ?_
    obtain rfl := (Ending.done.inj hgiven).1
    dsimp only
    refine L.holds_change_bind (.called start name hheld) fun t => ?_
    refine L.holds_within shared ?_
    refine L.holds_change_bind (.bound t _ (fun binding hb => ?_) (fun _ binding hb => ?_)
      (fun _ _ binding hb => ?_) fun _ binding hb => ?_) fun t => ?_
    · exact Reserved.ne_procPrivilege (Runner.not_reserved_of_mem_parameters hb)
    · exact Reserved.ne_exceptionsHandler (Runner.not_reserved_of_mem_parameters hb)
    · exact Reserved.notMem_loadingNames (Runner.not_reserved_of_mem_parameters hb)
    · exact Reserved.ne_depth (Runner.not_reserved_of_mem_parameters hb)
    · exact L.holds_body (fun child hchild => hexec child (.body hname hdefined hchild)) t

theorem holds_call (hname : tag.name = "call") :
    L.holds (fun i => Runner.call ⟨tag, depth, exec i, rounds i⟩) start := by
  refine L.holds_looks_bind (Run.looks_requireKey tag _) fun name _ => ?_
  refine L.holds_invoke hexec name (.inl hname) fun h => ?_
  rw [hname] at h
  exact absurd h (by decide)

theorem holds_conditionalCall (hname : tag.name = "cond_call") :
    L.holds (fun i => Runner.conditionalCall ⟨tag, depth, exec i, rounds i⟩) start := by
  refine L.holds_looks_bind (Run.looks_requireKey tag _) fun name _ => ?_
  refine L.holds_looks_bind (Run.looks_look _) fun locals hlocals => ?_
  obtain rfl : start.locals = locals := (Ending.done.inj hlocals).1
  refine L.holds_ite (fun hallowed => ?_) fun _ => L.holds_pure _ start
  exact L.holds_invoke hexec name (.inr hname) fun _ => (Bool.and_eq_true_iff.1 hallowed).2

theorem holds_inclusion (hname : tag.name = "module") (s : Frame) :
    L.holds (fun i => Runner.inclusion ⟨tag, depth, exec i, rounds i⟩) s := by
  refine L.holds_looks_bind (Run.looks_requireKey tag _) fun name _ => ?_
  refine L.holds_looks_bind (Run.looks_look _) fun w _ => ?_
  cases Runner.moduleFile? w name with
  | none => exact L.holds_fail rfl s
  | some path =>
    refine L.holds_looks_bind
      (Run.looks_ofExcept fun _ => Script.isRunners_of_ofFile_eq_error) fun script _ => ?_
    refine L.bind (hexec script (.script hname) s) fun _ outcome t _ => ?_
    exact L.holds_ite (fun _ => L.holds_pure _ t) fun _ => L.holds_fail rfl t

/-! ## Assignments and readings -/

theorem holds_assign (hname : tag.name ∈ assigningNames) (s : Frame) :
    L.holds (fun i => Runner.assign ⟨tag, depth, exec i, rounds i⟩) s := by
  refine L.holds_looks_bind (Run.looks_attrText tag _) fun type _ => ?_
  refine L.holds_looks_bind (Run.looks_requireKey tag _) fun key _ => ?_
  refine L.holds_looks_bind (Run.looks_attrSwitch tag _ _) fun global _ => ?_
  -- what is left once there is a value
  have hrest : ∀ (value : Value) (t : Frame),
      L.holds (fun _ => Run.store key value global >>= fun _ => pure Outcome.ok) t :=
    fun value t => L.bind (L.holds_store hname key value global t) fun _ _ t _ => L.holds_pure _ t
  dsimp only
  refine L.holds_ite (fun _ => ?_) fun _ => ?_
  · refine L.holds_looks_bind (Run.looks_attrText tag _) fun text _ => ?_
    cases text with
    | some text => exact L.holds_looks_bind (Run.looks_pure _) fun value _ => hrest value s
    | none => exact L.holds_looks_bind (Run.looks_pure _) fun value _ => hrest value s
  refine L.holds_ite (fun _ => ?_) fun _ => ?_
  · cases h : tag.firstTag? with
    | some child =>
      refine L.bind (hexec child (Tag.leads_of_firstTag? h) s) fun _ outcome t _ => ?_
      exact L.holds_looks_bind (Run.looks_pure _) fun value _ => hrest value t
    | none => exact L.holds_looks_bind (Run.looks_fail rfl) fun value _ => hrest value s
  refine L.holds_ite (fun _ => ?_) fun _ => ?_
  · exact L.holds_looks_bind (Run.looks_fail rfl) fun value _ => hrest value s
  · exact L.holds_looks_bind (Run.looks_fail rfl) fun value _ => hrest value s

omit hexec in
theorem holds_assignTyped (hname : tag.name ∈ assigningNames) (conversion : Runner.Conversion)
    (s : Frame) :
    L.holds (fun i => Runner.assignTyped conversion ⟨tag, depth, exec i, rounds i⟩) s := by
  refine L.holds_looks_bind (Run.looks_look id) fun frame _ => ?_
  dsimp only
  refine L.holds_looks_bind (Run.looks_ofExcept fun _ => Runner.isRunners_of_converted_eq_error)
    fun bindings hbindings => ?_
  have hleaf := mem_leafNames_of_mem_assigningNames hname
  refine L.holds_change_bind (.bound s bindings (fun binding hb => ?_) (absurd hleaf)
    (absurd hname) (absurd hname)) fun t => L.holds_pure _ t
  cases hc : Runner.converted frame conversion tag.name tag.attrs with
  | error cause =>
    rw [hc] at hbindings
    cases hbindings
  | ok converted =>
    rw [hc] at hbindings
    obtain rfl := (Ending.done.inj hbindings).1
    exact Runner.ne_procPrivilege_of_mem_converted hc hb

omit hexec in
theorem holds_reading (s : Frame) :
    L.holds (fun i => Runner.reading ⟨tag, depth, exec i, rounds i⟩) s := by
  show L.holds (fun _ : ι => Runner.reading ⟨tag, depth, fun _ _ => Run.exhausted, 0⟩) s
  exact L.holds_looks (Runner.looks_reading _) s

/-! ## Tables -/

omit hexec in
theorem holds_loadVariables (hleaf : tag.name ∈ leafNames) (s : Frame) :
    L.holds (fun i => Runner.loadVariables ⟨tag, depth, exec i, rounds i⟩) s := by
  unfold Runner.loadVariables
  dsimp only
  refine L.holds_looks_bind (Run.looks_checkTableType tag) fun _ _ => ?_
  refine L.holds_looks_bind (Run.looks_checkEncoding tag) fun _ _ => ?_
  refine L.holds_looks_bind (Run.looks_fieldPolicy tag) fun policy _ => ?_
  refine L.holds_looks_bind (Run.looks_requireKey tag _) fun name _ => ?_
  refine L.holds_looks_bind (Run.looks_readFile name) fun source _ => ?_
  refine L.holds_change_bind (.bound s _ (fun binding hb => ?_) (absurd hleaf)
    (fun _ _ binding hb => ?_) fun _ binding hb => ?_) fun t => L.holds_pure _ t
  · exact Reserved.ne_procPrivilege (Table.not_reserved_of_mem_assignments hb)
  · exact Reserved.notMem_loadingNames (Table.not_reserved_of_mem_assignments hb)
  · exact Reserved.ne_depth (Table.not_reserved_of_mem_assignments hb)

omit hexec in
/-- The variables of a row are bound as any others. -/
theorem act_rowScope (hname : tag.name = "load_data") {policy : Table.FieldPolicy}
    {source : String} {row : Vars} (hrow : row ∈ (Table.Sheet.ofText policy source).rows)
    (columns : List String) (n : Nat) (s : Frame) :
    Act tag s { s with locals := Runner.rowScope columns row n s.locals } := by
  rw [Runner.rowScope_eq]
  -- two variables of the block and the columns, none of which is reserved
  have hown : ∀ name ∈ [Reserved.loadedDataItemIndex, Reserved.loadedDataCols],
      name ≠ Reserved.procPrivilege ∧ name ≠ Reserved.exceptionsHandler ∧
        name ≠ Reserved.depth := by decide
  have hkeys : ∀ binding ∈ row ++
      [(Reserved.loadedDataItemIndex,
          Runner.rowNumber ((s.locals.insertAll row).get? Reserved.loadedDataItemIndex)
            (Int64.ofNat n)),
        (Reserved.loadedDataCols, .str (Text.joinWith "," columns))],
      binding.1 ≠ Reserved.procPrivilege ∧ binding.1 ≠ Reserved.exceptionsHandler ∧
        binding.1 ≠ Reserved.depth := by
    intro binding hb
    obtain hb | hb := List.mem_append.1 hb
    · have hfree := Table.Sheet.not_reserved_of_mem_row hrow hb
      exact ⟨Reserved.ne_procPrivilege hfree, Reserved.ne_exceptionsHandler hfree,
        Reserved.ne_depth hfree⟩
    · refine hown binding.1 ?_
      obtain rfl | rfl := by simpa using hb
      · exact List.mem_cons_self
      · exact List.mem_cons_of_mem _ List.mem_cons_self
  exact .bound s _ (fun binding hb => (hkeys binding hb).1)
    (fun _ binding hb => (hkeys binding hb).2.1) (fun _ hother => absurd hname hother)
    fun _ binding hb => (hkeys binding hb).2.2

theorem holds_loadSheet (hname : tag.name = "load_data") (s : Frame) :
    L.holds (fun i => Runner.loadSheet ⟨tag, depth, exec i, rounds i⟩) s := by
  unfold Runner.loadSheet
  dsimp only
  refine L.holds_looks_bind (Run.looks_checkTableType tag) fun _ _ => ?_
  refine L.holds_looks_bind (Run.looks_checkEncoding tag) fun _ _ => ?_
  refine L.holds_looks_bind (Run.looks_passThrough tag) fun shared _ => ?_
  refine L.holds_looks_bind (Run.looks_fieldPolicy tag) fun policy _ => ?_
  refine L.holds_looks_bind (Run.looks_requireKey tag _) fun name _ => ?_
  refine L.holds_looks_bind (Run.looks_readFile name) fun source _ => ?_
  refine L.bind (L.holds_setLocal _ (by decide) (fun _ => by decide)
    (fun _ hother => absurd hname hother) (fun _ => by decide) s) fun _ _ t _ => ?_
  refine L.bind (L.holds_forEach _ (fun item hitem t => L.holds_within shared ?_) t)
    fun _ _ t _ => ?_
  · have hrow := List.fst_mem_of_mem_zipIdx hitem
    exact L.holds_change_bind (act_rowScope hname hrow _ _ t) fun t =>
      L.holds_completes (L.holds_inside hexec) t
  · exact L.holds_change_bind (.uncounted t hname) fun t => L.holds_pure _ t

theorem holds_output (hleaf : tag.name ∈ leafNames) (s : Frame) :
    L.holds (fun i => Runner.output ⟨tag, depth, exec i, rounds i⟩) s := by
  unfold Runner.output
  dsimp only
  refine L.holds_looks_bind (Run.looks_checkEncoding tag) fun _ _ => ?_
  refine L.holds_looks_bind (Run.looks_requireKey tag _) fun name _ => ?_
  refine L.holds_looks_bind (Run.looks_outputPath name) fun path _ => ?_
  refine L.holds_looks_bind (Run.looks_look (Runner.lineEnd? · tag)) fun lineEnd _ => ?_
  cases h : tag.firstTag? with
  | some child =>
    refine L.bind (hexec child (Tag.leads_of_firstTag? h) s) fun _ outcome t _ => ?_
    refine L.holds_looks_bind (Runner.looks_outputMode tag _) fun mode _ => ?_
    exact L.bind (L.holds_writeFile hleaf _ _ _ (fun _ _ => rfl) t) fun _ _ t _ => L.holds_pure _ t
  | none =>
    refine L.holds_looks_bind (Run.looks_checkTableType tag) fun _ _ => ?_
    refine L.holds_looks_bind (Run.looks_attrKey tag _) fun columns _ => ?_
    refine L.holds_ite (fun _ => L.holds_fail rfl s) fun _ => ?_
    refine L.holds_looks_bind (Runner.looks_outputMode tag _) fun mode _ => ?_
    refine L.holds_looks_bind (Run.looks_look _) fun row _ => ?_
    exact L.bind (L.holds_writeFile hleaf _ _ _ (fun _ _ => rfl) s) fun _ _ t _ => L.holds_pure _ t

omit hexec in
theorem holds_handleExceptions (hleaf : tag.name ∈ leafNames) (s : Frame) :
    L.holds (fun i => Runner.handleExceptions ⟨tag, depth, exec i, rounds i⟩) s := by
  refine L.holds_looks_bind (Run.looks_checkTableType tag) fun _ _ => ?_
  refine L.holds_looks_bind (Run.looks_requireKey tag _) fun name _ => ?_
  refine L.holds_looks_bind (Run.looks_attrKey tag _) fun named _ => ?_
  refine L.holds_looks_bind (Run.looks_attrSwitch tag _ _) fun debug _ => ?_
  refine L.holds_ite (fun _ => L.holds_fail rfl s) fun _ => ?_
  refine L.holds_looks_bind (Run.looks_outputPath name) fun path _ => ?_
  refine L.holds_looks_bind (Run.looks_look _) fun id _ => ?_
  refine L.holds_change_bind (.stored s _ _ _ (s.world.handlers + 1) hleaf) fun t => ?_
  exact L.bind (L.holds_setLocal _ (by decide) (absurd hleaf) (fun _ _ => by decide)
    (fun _ => by decide) t) fun _ _ t _ => L.holds_pure _ t

/-! ## Iterators, documents and commands -/

omit hexec in
theorem holds_makeIterator (hname : tag.name = "iter_make") (s : Frame) :
    L.holds (fun i => Runner.makeIterator ⟨tag, depth, exec i, rounds i⟩) s := by
  refine L.holds_looks_bind (Run.looks_requireKey tag _) fun key _ => ?_
  refine L.holds_looks_bind (Run.looks_requireKey tag _) fun source _ => ?_
  refine L.holds_looks_bind (Run.looks_read source) fun value _ => ?_
  cases value.items? with
  | none => exact L.holds_fail rfl s
  | some items =>
    exact L.holds_change_bind (.iterated s key items 0 (.inl hname)) fun t => L.holds_pure _ t

omit hexec in
/-- An iterator that has been asked stays an iterator, in the layer that
holds it. -/
theorem act_advance (hleaf : tag.name ∈ leafNames) {key : String} {items : List Value}
    {position : Nat} {s : Frame} (hread : s.read key = .iter items position) :
    Act tag s (s.set key (Value.advance items position).2 !s.locals.contains key) := by
  unfold Dict.contains
  cases hlocal : s.locals.get? key with
  | none => exact .boundGlobally s key _ hleaf
  | some value =>
    have hvalue : value = .iter items position := by
      simpa [Frame.read, Frame.lookup, Scope.lookup, hlocal] using hread
    have hiterator : ∃ others place, s.locals.get? key = some (.iter others place) :=
      ⟨items, position, hvalue ▸ hlocal⟩
    unfold Value.advance
    split
    · exact .iterated s key items (position + 1) (.inr hiterator)
    · exact .iterated s key items position (.inr hiterator)

omit hexec in
theorem holds_stepIterator (hleaf : tag.name ∈ leafNames) (s : Frame) :
    L.holds (fun i => Runner.stepIterator ⟨tag, depth, exec i, rounds i⟩) s := by
  refine L.holds_looks_bind (Run.looks_requireKey tag _) fun key _ => ?_
  refine L.holds_looks_bind (Run.looks_look _) fun global hglobal => ?_
  obtain rfl := (Ending.done.inj hglobal).1
  refine L.holds_looks_bind (Run.looks_read key) fun value hvalue => ?_
  obtain rfl := (Ending.done.inj hvalue).1
  dsimp only
  split
  · next hread =>
    exact L.holds_change_bind (act_advance hleaf hread) fun t => L.holds_pure _ t
  · exact L.holds_fail rfl s

omit hexec in
theorem holds_deliver (hname : tag.name ∈ assigningNames) (text : String) (s : Frame) :
    L.holds (fun _ : ι => Runner.deliver tag text) s := by
  have hleaf := mem_leafNames_of_mem_assigningNames hname
  refine L.holds_looks_bind (Run.looks_attrKey tag _) fun key _ => ?_
  refine L.holds_ite (fun _ => ?_) fun _ => ?_
  · exact L.bind (L.holds_store hname key _ false s) fun _ _ t _ => L.holds_pure _ t
  refine L.holds_looks_bind (Run.looks_attrKey tag _) fun goal _ => ?_
  refine L.holds_ite (fun _ => L.holds_pure _ s) fun _ => ?_
  cases Runner.Target.ofText goal with
  | handle name =>
    refine L.holds_looks_bind (Runner.looks_handleText name) fun before _ => ?_
    exact L.holds_change_bind (.stored s _ (s.world.handles.insert name (before ++ text)) _ _ hleaf)
      fun t => L.holds_pure _ t
  | file name =>
    refine L.holds_looks_bind (Run.looks_outputPath name) fun path _ => ?_
    exact L.bind (L.holds_writeFile hleaf _ _ _ (fun _ _ => rfl) s) fun _ _ t _ => L.holds_pure _ t

omit hexec in
theorem holds_loadJson (hname : tag.name ∈ assigningNames) (s : Frame) :
    L.holds (fun i => Runner.loadJson ⟨tag, depth, exec i, rounds i⟩) s := by
  unfold Runner.loadJson
  dsimp only
  refine L.holds_looks_bind (Run.looks_checkEncoding tag) fun _ _ => ?_
  refine L.holds_looks_bind (Runner.looks_readSource tag) fun source _ => ?_
  cases Json.parse? source with
  | none =>
    have hcause : (Cause.malformedJson tag.name).isRunners = true := rfl
    exact L.holds_fail hcause s
  | some value =>
    refine L.holds_looks_bind (Run.looks_attrKey tag _) fun key _ => ?_
    refine L.holds_ite (fun _ => L.holds_pure _ s) fun _ => ?_
    exact L.bind (L.holds_store hname key _ false s) fun _ _ t _ => L.holds_pure _ t

omit hexec in
theorem holds_dumpJson (hname : tag.name ∈ assigningNames) (s : Frame) :
    L.holds (fun i => Runner.dumpJson ⟨tag, depth, exec i, rounds i⟩) s := by
  unfold Runner.dumpJson
  dsimp only
  refine L.holds_looks_bind (Run.looks_checkEncoding tag) fun _ _ => ?_
  refine L.holds_looks_bind (Run.looks_attrKey tag _) fun key _ => ?_
  refine L.holds_ite (fun _ => ?_) fun _ => ?_
  · exact L.holds_looks_bind (Run.looks_pure _) fun _ _ => L.holds_deliver hname _ s
  · exact L.holds_looks_bind (Run.looks_read key) fun _ _ => L.holds_deliver hname _ s

omit hexec in
theorem holds_template (hname : tag.name ∈ assigningNames) (s : Frame) :
    L.holds (fun i => Runner.template ⟨tag, depth, exec i, rounds i⟩) s := by
  unfold Runner.template
  dsimp only
  refine L.holds_looks_bind (Run.looks_checkEncoding tag) fun _ _ => ?_
  refine L.holds_looks_bind (Runner.looks_readSource tag) fun source _ => ?_
  refine L.holds_looks_bind (Run.looks_look _) fun filled _ => ?_
  exact L.holds_deliver hname filled s

omit hexec in
theorem holds_command (hleaf : tag.name ∈ leafNames) (s : Frame) :
    L.holds (fun i => Runner.command ⟨tag, depth, exec i, rounds i⟩) s := by
  refine L.holds_looks_bind (Run.looks_look _) fun locals hlocals => ?_
  obtain rfl : s.locals = locals := (Ending.done.inj hlocals).1
  refine L.holds_ite (fun _ => L.holds_fail rfl s) fun hheld => ?_
  refine L.holds_looks_bind (Run.looks_attrKey tag _) fun program _ => ?_
  refine L.holds_ite (fun _ => L.holds_pure _ s) fun _ => ?_
  refine L.holds_looks_bind (Run.looks_attrText tag _) fun arguments _ => ?_
  refine L.holds_looks_bind (Run.looks_look _) fun w hw => ?_
  obtain rfl : s.world = w := (Ending.done.inj hw).1
  have hheld : Privilege.holds s.locals "call_os_cmd" = true := by simpa using hheld
  cases hlaunch : s.world.launch program (Text.words (arguments.getD "")) with
  | error why => exact L.holds_fail rfl s
  | ok exit? =>
    refine L.bind (L.holds_change (.started s program _ hheld hleaf)) fun _ _ t ht => ?_
    obtain rfl := (Ending.done.inj ht).2
    cases exit? with
    | none => exact L.waits (fun _ => rfl) ⟨hheld, s.world, program, _, rfl, hlaunch⟩
    | some exit => exact L.holds_change_bind (.stored _ _ _ _ _ hleaf) fun t => L.holds_pure _ t

end Runners

/-! ## All runners -/

/-- **A runner obeys a logic** if, wherever it is called, it has it as soon
as the execution of the tags that it leads to from there has it. -/
def Obeys (L : Logic tag ι) (runner : Runner) : Prop :=
  ∀ (depth : Depth) (exec : ι → Tag → Depth → Run Outcome) (rounds : ι → Nat) (s : Frame),
    (∀ child, tag.Leads s child → ∀ t, L.holds (fun i => exec i child depth) t) →
    L.holds (fun i => runner ⟨tag, depth, exec i, rounds i⟩) s

/-- **Every runner of the language but the repetition obeys every
logic.** -/
theorem obeys_builtins {runner : Runner} (hrunner : (tag.name, runner) ∈ builtins)
    (hloop : tag.name ≠ "loop") : L.Obeys runner := by
  intro depth exec rounds s hexec
  -- the entries of the list one by one, each with the name that the tag then has
  suffices h : ∀ entry ∈ builtins, tag.name = entry.1 → entry.1 ≠ "loop" →
      L.holds (fun i => entry.2 ⟨tag, depth, exec i, rounds i⟩) s from h _ hrunner rfl hloop
  simp only [builtins, List.forall_mem_cons]
  exact ⟨fun _ _ => L.holds_root hexec s,
    fun _ _ => L.holds_sub hexec s,
    fun _ h => absurd rfl h,
    fun _ _ => L.holds_forIn hexec s,
    fun h _ => L.holds_condition hexec (by simp [assertingNames, h]) s,
    fun h _ => L.holds_condition hexec (by simp [assertingNames, h]) s,
    fun _ _ => L.holds_branch hexec s,
    fun _ _ => L.holds_branch hexec s,
    fun _ _ => L.holds_selection hexec s,
    fun h _ => L.holds_whenHolds hexec (by simp [assertingNames, h]) s,
    fun _ _ => L.holds_otherwise hexec s,
    fun _ _ => L.holds_assertion hexec false s,
    fun _ _ => L.holds_assertion hexec true s,
    fun _ _ => L.holds_membership hexec false s,
    fun _ _ => L.holds_membership hexec true s,
    fun _ _ => L.holds_negation hexec s,
    fun _ _ => L.holds_connective hexec .and s,
    fun _ _ => L.holds_connective hexec .or s,
    fun _ _ => L.holds_comparison hexec .equal s,
    fun _ _ => L.holds_comparison hexec .notEqual s,
    fun _ _ => L.holds_comparison hexec .less s,
    fun _ _ => L.holds_comparison hexec .lessEqual s,
    fun _ _ => L.holds_comparison hexec .greater s,
    fun _ _ => L.holds_comparison hexec .greaterEqual s,
    fun h _ => L.holds_inclusion hexec h s,
    fun h _ => L.holds_procedure h s,
    fun _ _ => L.holds_grant s,
    fun h _ => L.holds_call hexec h,
    fun h _ => L.holds_conditionalCall hexec h,
    fun h _ => L.holds_assign hexec (by simp [assigningNames, h]) s,
    fun h _ => L.holds_assignTyped (by simp [assigningNames, h]) .integer s,
    fun h _ => L.holds_assignTyped (by simp [assigningNames, h]) .double s,
    fun h _ => L.holds_assignTyped (by simp [assigningNames, h]) .text s,
    fun _ _ => L.holds_reading s,
    fun _ _ => L.holds_reading s,
    fun h _ => L.holds_loadVariables (by simp [leafNames, h]) s,
    fun h _ => L.holds_loadSheet hexec h s,
    fun h _ => L.holds_output hexec (by simp [leafNames, h]) s,
    fun h _ => L.holds_handleExceptions (by simp [leafNames, h]) s,
    fun h _ => L.holds_makeIterator h s,
    fun h _ => L.holds_stepIterator (by simp [leafNames, h]) s,
    fun h _ => L.holds_loadJson (by simp [assigningNames, h]) s,
    fun h _ => L.holds_dumpJson (by simp [assigningNames, h]) s,
    fun h _ => L.holds_template (by simp [assigningNames, h]) s,
    fun h _ => L.holds_command (by simp [leafNames, h]) s,
    fun _ h => absurd h List.not_mem_nil⟩

/-- **Every runner of the language has a logic**, given that the repetition
has. -/
theorem holds_runner {runner : Runner} (hrunner : (tag.name, runner) ∈ builtins) {start : Frame}
    (hexec : ∀ child, tag.Leads start child → ∀ s, L.holds (fun i => exec i child depth) s)
    (hloop : L.holds (fun i => Runner.loop ⟨tag, depth, exec i, rounds i⟩) start) :
    L.holds (fun i => runner ⟨tag, depth, exec i, rounds i⟩) start := by
  by_cases hname : tag.name = "loop"
  · obtain rfl : runner = Runner.loop := by
      rw [hname] at hrunner
      simpa [builtins] using hrunner
    exact hloop
  · exact L.obeys_builtins hrunner hname depth exec rounds start hexec

/-- It has if all members of the family go round equally often, and if it
is in the logic to be cut off. -/
theorem holds_runner_of_exhausted {runner : Runner} (hrunner : (tag.name, runner) ∈ builtins)
    {start : Frame}
    (hexec : ∀ child, tag.Leads start child → ∀ s, L.holds (fun i => exec i child depth) s)
    (n : Nat) (hx : ∀ t, L.holds (fun _ => (Run.exhausted : Run Unit)) t) :
    L.holds (fun i => runner ⟨tag, depth, exec i, n⟩) start :=
  L.holds_runner hrunner hexec (L.holds_loop hexec n hx start)

end Logic

end TagScript
