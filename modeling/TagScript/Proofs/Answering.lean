import TagScript.Proofs.Mirroring
import TagScript.Proofs.Storage

/-!
# Files that answer alike

Some runners ask the files: for what a name leads to, or to be written to;
and a command may ask them for anything. Two such runners end in accord if the
files answer them alike, and no more is needed of the files than an answer to
what this tag asks. `Accord.Answers` says what that is, and `Accord.runner`
puts the statements for all runners together.

So runs on the same files mirror each other, and so do runs on files that
differ where no tag looks.
-/

namespace TagScript

/-- **The names of files that a tag reads.** -/
inductive Tag.ReadsFrom (tag : Tag) (start : Frame) : String → Prop where
  /-- That of a table. -/
  | table (h : tag.name ∈ ["load_vars", "load_data"]) :
      ReadsFrom tag start (start.attrKey tag "name")
  /-- That of a document, if no other source comes before it. -/
  | document {name : String} (h : tag.name ∈ ["json_load", "template"])
      (hkey : (start.attrKey tag "key").isEmpty = true)
      (hcontent : start.attrText tag "content" = none)
      (horigin : Runner.Target.ofText (start.attrKey tag "_from_file") = .file name) :
      ReadsFrom tag start name

/-- A template is filled by what the variables are that its placeholders begin
with. -/
theorem Template.render_congr {value? other? : String → Option Value} {source : String}
    (h : ∀ name key path, .placeholder name ∈ pieces source.toList →
      Text.segments '.' (String.ofList name) = key :: path → other? key = value? key) :
    render other? source = render value? source := by
  unfold render
  congr 1
  refine List.map_congr_left fun piece hpiece => ?_
  cases piece with
  | char c => rfl
  | placeholder name =>
    have hreach : reach? other? (String.ofList name) = reach? value? (String.ofList name) := by
      unfold reach?
      split
      · rfl
      · next key path hsegments => rw [h name key path hpiece hsegments]
    exact congrArg (fun value : Option Value => (value.getD .null).text) hreach

namespace Accord

/-- **Answers that correspond**: refusals for the same reason, or answers
that do. -/
inductive Results {α β : Type} (R : α → β → Prop) : Except Refusal α → Except Refusal β → Prop where
  | ok {a : α} {b : β} (h : R a b) : Results R (.ok a) (.ok b)
  | error (why : Refusal) : Results R (.error why) (.error why)

/-- Answers that are the same correspond. -/
theorem Results.refl {α : Type} {R : α → α → Prop} (hR : ∀ a, R a a) (result : Except Refusal α) :
    Results R result result := by
  cases result with
  | ok a => exact .ok (hR a)
  | error why => exact .error why

/-- **Files that answer a tag alike.** -/
structure Answers (K : Accord) (tag : Tag) (s t : Frame) : Prop where
  /-- What it reads is the same. -/
  reads : ∀ name, tag.ReadsFrom s name → (Run.readFile name).Concurs s t
  /-- So are the file of a module -/
  includes : tag.name = "module" →
    Runner.moduleFile? t.world (s.attrKey tag "src") =
      Runner.moduleFile? s.world (s.attrKey tag "src")
  /-- and the script in it. -/
  script : tag.name = "module" → ∀ path,
    Runner.moduleFile? s.world (s.attrKey tag "src") = some path →
    Script.ofFile t.world.files path = Script.ofFile s.world.files path
  /-- What it writes to can be written to alike. -/
  writes : ∀ path, tag.WritesTo s path → ∀ v w, K.files v w → ∀ mode text,
    Results K.files (v.write mode path text) (w.write mode path text)
  /-- A command that may be started does the same to the files, if it ends. -/
  starts : tag.name = "call_os_cmd" → Privilege.holds s.locals "call_os_cmd" = true →
    (s.attrKey tag "cmd").isEmpty = false →
    Results (Option.Rel fun x y => K.files x.files y.files ∧ y.succeeded = x.succeeded)
      (s.world.launch (s.attrKey tag "cmd") (Text.words ((s.attrText tag "args").getD "")))
      (t.world.launch (s.attrKey tag "cmd") (Text.words ((s.attrText tag "args").getD "")))

variable {K : Accord}

/-- A file is read alike if a name leads to the same one and it holds the
same. -/
theorem concurs_readFile {s t : Frame} {name : String}
    (hresolve : t.world.resolve name = s.world.resolve name)
    (hread : t.world.files.readText (s.world.resolve name) =
      s.world.files.readText (s.world.resolve name)) :
    (Run.readFile name).Concurs s t := by
  rw [← hresolve] at hread
  cases hsource : s.world.files.readText (t.world.resolve name) with
  | ok source =>
    exact .inl ⟨_, Run.readFile_of_readText (hresolve ▸ hsource),
      Run.readFile_of_readText (hread.trans hsource)⟩
  | error why =>
    have hfails := Run.readFile_of_error (hread.trans hsource)
    rw [hresolve] at hfails hsource
    exact .inr ⟨_, Run.readFile_of_error hsource, hfails⟩

namespace Endings

variable {s t : Frame}

/-- **Writing a file** to which both can write alike. -/
theorem writeFile (h : K.Frames s t) {mode : Files.WriteMode} {path : String}
    {text : Content → String} {refused : String → Refusal → Cause}
    (hwrites : ∀ v w, K.files v w → Results K.files (v.write mode path text)
      (w.write mode path text)) :
    K.Endings Eq (Run.writeFile mode path text refused s)
      (Run.writeFile mode path text refused t) := by
  refine bind_eq (change (K.locked h path)) fun _ s t h => looked ?_
  have hresult := hwrites _ _ (K.stores h)
  revert hresult
  generalize s.world.files.write mode path text = first
  generalize t.world.files.write mode path text = second
  intro hresult
  cases hresult with
  | ok hfiles => exact change (K.stored h hfiles)
  | error why => exact fail h _

end Endings

section Runners

variable {a b : Tag} (hab : K.Tags a b) {depth depth' : Depth}
  {exec exec' : Tag → Depth → Run Outcome} {rounds : Nat} {s t : Frame} (h : K.Frames s t)

/-! ## Definitions and privileges -/

section Plain

include hab h

theorem procedure : K.Endings Eq (Runner.procedure ⟨a, depth, exec, rounds⟩ s)
    (Runner.procedure ⟨b, depth', exec', rounds⟩ t) := by
  unfold Runner.procedure
  dsimp only
  rw [hab.alike.attr]
  refine .ite Iff.rfl (fun _ => .fail h _) fun _ => ?_
  exact (Endings.change (K.defined h hab _)).bind_eq fun _ s t h => .pure h rfl

theorem grant (hsees : K.Sees a s t) (hname : a.name = "procedure_privilege") :
    K.Endings Eq (Runner.grant ⟨a, depth, exec, rounds⟩ s)
    (Runner.grant ⟨b, depth', exec', rounds⟩ t) := by
  unfold Runner.grant
  rw [hab.alike.run_attrKey]
  refine .looked ?_
  rw [h.holds]
  refine .ite Iff.rfl (fun _ => .fail h _) fun _ => ?_
  refine .look_bind h (hsees.concurs_attrKey h (.of_name hname (by decide))) fun names _ => ?_
  refine .ite Iff.rfl (fun _ => .fail h _) fun _ => ?_
  exact (Endings.change (h.grant _)).bind_eq fun _ s t h => .pure h rfl

/-! ## Variables -/

theorem assign (hsees : K.Sees a s t) (hname : a.name = "set")
    (hexec : K.Executes exec exec' depth depth') :
    K.Endings Eq (Runner.assign ⟨a, depth, exec, rounds⟩ s)
      (Runner.assign ⟨b, depth', exec', rounds⟩ t) := by
  unfold Runner.assign
  rw [hab.alike.run_attrText, hab.alike.requireKey, hab.alike.attrSwitch, hab.alike.run_attrText]
  refine .look_bind h (hsees.concurs_attrText h (.of_name hname (by decide))) fun type _ => ?_
  refine .look_bind h (hsees.concurs_requireKey h (.of_name hname (by decide))) fun key _ => ?_
  refine .look_bind h (hsees.concurs_attrSwitch h (.of_name hname (by decide)) _) fun global _ => ?_
  -- the refusals, which leave nothing to assign
  have hrefused : ∀ cause, K.Endings Eq
      ((Run.fail cause >>= fun value => Run.store key value global >>= fun _ =>
        pure Outcome.ok) s)
      ((Run.fail cause >>= fun value => Run.store key value global >>= fun _ =>
        pure Outcome.ok) t) :=
    fun cause => (Endings.fail h cause).bind_eq fun value _ _ h => .assigned h key value global
  refine .ite Iff.rfl (fun _ => ?_) fun _ => .ite Iff.rfl (fun _ => ?_) fun _ =>
    .ite Iff.rfl (fun _ => hrefused _) fun _ => hrefused _
  · refine .look_bind h (hsees.concurs_attrText h (.of_name hname (by decide))) fun text _ => ?_
    cases text with
    | some text =>
      exact (Endings.pure h rfl).bind_eq fun value _ _ h => .assigned h key value global
    | none => exact (Endings.pure h rfl).bind_eq fun value _ _ h => .assigned h key value global
  · have hfirst := K.likens.firstTag? hab
    revert hfirst
    dsimp only
    generalize a.firstTag? = first
    generalize b.firstTag? = second
    intro hfirst
    cases hfirst with
    | some hchild =>
      refine (hexec hchild h).bind_eq fun outcome _ _ h => ?_
      exact (Endings.pure h rfl).bind_eq fun value _ _ h => .assigned h key value global
    | none => exact hrefused _

omit hab in
/-- Texts are converted in variables that read the same. -/
theorem converted (hsees : K.Sees a s t) (hname : a.name ∈ ["set_int", "set_num", "set_str"])
    (conversion : Runner.Conversion) (tag : String) {attrs : List (String × Option String)}
    (hattrs : attrs ⊆ a.attrs) :
    Runner.converted t conversion tag attrs = Runner.converted s conversion tag attrs := by
  induction attrs with
  | nil => rfl
  | cons attr rest ih =>
    obtain ⟨hattr, hrest⟩ := List.cons_subset.1 hattrs
    have htext : attr.2.map t.substitute = attr.2.map s.substitute := by
      obtain ⟨name, _ | text⟩ := attr
      · rfl
      · exact congrArg some (hsees.texts (.assigned hname) hattr h)
    unfold Runner.converted
    rw [ih hrest, htext]

theorem assignTyped (hsees : K.Sees a s t) (hname : a.name ∈ ["set_int", "set_num", "set_str"])
    (conversion : Runner.Conversion) :
    K.Endings Eq (Runner.assignTyped conversion ⟨a, depth, exec, rounds⟩ s)
      (Runner.assignTyped conversion ⟨b, depth', exec', rounds⟩ t) := by
  unfold Runner.assignTyped
  rw [hab.alike.name, hab.alike.attrs]
  refine Endings.looked (f := id) (g := id) ?_
  dsimp only [id]
  rw [converted h hsees hname conversion a.name (List.Subset.refl _)]
  refine .look_bind h (Run.concurs_ofExcept _) fun bindings _ => ?_
  exact (Endings.change (h.insertAll bindings)).bind_eq fun _ _ _ h => .pure h rfl

omit hab in
theorem concurs_reading (hsees : K.Sees a s t) (hname : a.name ∈ ["get", "return"]) :
    (Runner.reading ⟨a, depth, exec, rounds⟩).Concurs s t := by
  refine Run.concurs_bind (hsees.concurs_attrKey h (.of_mem hname (by decide))) fun key hkey => ?_
  obtain rfl := (Ending.done.inj hkey).1
  refine Run.concurs_bind (hsees.concurs_attrText h (.of_mem hname (by decide))) fun given _ =>
    Run.concurs_ite (fun _ => ?_) fun _ => ?_
  · split
    · exact Run.concurs_pure _
    · exact Run.concurs_fail _
  · have hkeyed : a.name ∈ keyedNames := (by decide : ["get", "return"] ⊆ keyedNames) hname
    refine Run.concurs_bind (Run.concurs_look (hsees.lookup h (.keyed hkeyed))) fun value _ => ?_
    refine Run.concurs_bind (hsees.concurs_attrText h (.of_mem hname (by decide)))
      fun member _ => ?_
    split
    · split
      · exact Run.concurs_pure _
      · exact Run.concurs_fail _
    · refine Run.concurs_bind (hsees.concurs_attrText h (.of_mem hname (by decide)))
        fun index _ => ?_
      split
      · exact Run.concurs_bind (Run.concurs_ofExcept _) fun _ _ => Run.concurs_pure _
      · exact Run.concurs_pure _

theorem reading (hsees : K.Sees a s t) (hname : a.name ∈ ["get", "return"]) :
    K.Endings Eq (Runner.reading ⟨a, depth, exec, rounds⟩ s)
      (Runner.reading ⟨b, depth', exec', rounds⟩ t) := by
  have hsame : Runner.reading ⟨b, depth', exec', rounds⟩ =
      Runner.reading ⟨a, depth, exec, rounds⟩ := by
    unfold Runner.reading
    rw [hab.alike.run_attrKey, hab.alike.run_attrText, hab.alike.run_attrText,
      hab.alike.run_attrText, hab.alike.name]
  rw [hsame]
  obtain ⟨outcome, hs, ht⟩ | ⟨cause, hs, ht⟩ :=
    @concurs_reading K a depth exec rounds s t h hsees hname
  · rw [hs, ht]
    exact .done rfl h
  · rw [hs, ht]
    exact .failed rfl h

theorem makeIterator (hsees : K.Sees a s t) (hname : a.name = "iter_make") :
    K.Endings Eq (Runner.makeIterator ⟨a, depth, exec, rounds⟩ s)
    (Runner.makeIterator ⟨b, depth', exec', rounds⟩ t) := by
  unfold Runner.makeIterator
  rw [hab.alike.requireKey, hab.alike.requireKey]
  refine .look_bind h (hsees.concurs_requireKey h (.of_name hname (by decide))) fun key _ => ?_
  refine .look_bind h (hsees.concurs_requireKey h (.of_name hname (by decide)))
    fun source hsource => ?_
  obtain rfl := Run.eq_attrKey_of_requireKey hsource
  refine .look_bind h (hsees.concurs_read h (.source hname)) fun value _ => ?_
  cases value.items? with
  | none => exact .fail h _
  | some items => exact (Endings.change (K.setLocal h key _)).bind_eq fun _ _ _ h => .pure h rfl

theorem stepIterator (hsees : K.Sees a s t) (hname : a.name = "iter_next") :
    K.Endings Eq (Runner.stepIterator ⟨a, depth, exec, rounds⟩ s)
    (Runner.stepIterator ⟨b, depth', exec', rounds⟩ t) := by
  unfold Runner.stepIterator
  rw [hab.alike.requireKey]
  refine .look_bind h (hsees.concurs_requireKey h (.of_name hname (by decide))) fun key hkey => ?_
  obtain rfl := Run.eq_attrKey_of_requireKey hkey
  have hlooks : a.LooksUp s (s.attrKey a "key") := .keyed (hname ▸ by decide)
  refine .look_bind h (Run.concurs_look ?_) fun global _ => ?_
  · unfold Dict.contains
    rw [hsees.values hlooks]
  refine .look_bind h (hsees.concurs_read h hlooks) fun value _ => ?_
  split
  · exact (Endings.change (h.set _ _ global)).bind_eq fun _ _ _ h => .pure h rfl
  · exact .fail h _

theorem handleExceptions (hsees : K.Sees a s t) (hname : a.name = "handle_exceptions") :
    K.Endings Eq (Runner.handleExceptions ⟨a, depth, exec, rounds⟩ s)
    (Runner.handleExceptions ⟨b, depth', exec', rounds⟩ t) := by
  unfold Runner.handleExceptions
  rw [hab.alike.checkTableType, hab.alike.requireKey, hab.alike.run_attrKey, hab.alike.attrSwitch]
  refine .look_bind h (hsees.concurs_checkTableType h (.of_name hname (by decide))) fun _ _ => ?_
  refine .look_bind h (hsees.concurs_requireKey h (.of_name hname (by decide))) fun name _ => ?_
  refine .look_bind h (hsees.concurs_attrKey h (.of_name hname (by decide))) fun named _ => ?_
  refine .look_bind h (hsees.concurs_attrSwitch h (.of_name hname (by decide)) _) fun debug _ => ?_
  refine .ite Iff.rfl (fun _ => .fail h _) fun _ => ?_
  refine .look_bind h (h.concurs_outputPath name) fun path _ => ?_
  refine .look_bind h (Run.concurs_look (K.handlers h)) fun id _ => ?_
  refine (Endings.change (K.installed h)).bind_eq fun _ _ _ h => ?_
  exact (Endings.change (K.setLocal h _ _)).bind_eq fun _ _ _ h => .pure h rfl

end Plain

/-! ## What asks the files -/

section Asking

variable (hsees : K.Sees a s t) (hanswers : K.Answers a s t)
include hab h hsees hanswers

theorem inclusion (hname : a.name = "module") (hexec : K.Executes exec exec' depth depth') :
    K.Endings Eq (Runner.inclusion ⟨a, depth, exec, rounds⟩ s)
      (Runner.inclusion ⟨b, depth', exec', rounds⟩ t) := by
  unfold Runner.inclusion
  rw [hab.alike.requireKey]
  refine .look_bind h (hsees.concurs_requireKey h (.of_name hname (by decide)))
    fun name hsource => ?_
  obtain rfl := Run.eq_attrKey_of_requireKey hsource
  refine .looked ?_
  rw [hanswers.includes hname]
  cases hfile : Runner.moduleFile? s.world (s.attrKey a "src") with
  | none => exact .fail h _
  | some path =>
    dsimp only
    rw [hanswers.script hname path hfile]
    refine .look_bind h (Run.concurs_ofExcept _) fun script _ => ?_
    refine (hexec (K.likens.refl script) h).bind_eq fun outcome _ _ h => ?_
    exact .ite Iff.rfl (fun _ => .pure h rfl) fun _ => .fail h _

theorem loadVariables (hname : a.name = "load_vars") :
    K.Endings Eq (Runner.loadVariables ⟨a, depth, exec, rounds⟩ s)
      (Runner.loadVariables ⟨b, depth', exec', rounds⟩ t) := by
  unfold Runner.loadVariables
  rw [hab.alike.checkTableType, hab.alike.checkEncoding, hab.alike.fieldPolicy,
    hab.alike.requireKey]
  refine .look_bind h (hsees.concurs_checkTableType h (.of_name hname (by decide))) fun _ _ => ?_
  refine .look_bind h (hsees.concurs_checkEncoding h (.of_name hname (by decide))) fun _ _ => ?_
  refine .look_bind h (hsees.concurs_fieldPolicy h (.of_name hname (by decide))
    (.of_name hname (by decide))) fun policy _ => ?_
  refine .look_bind h (hsees.concurs_requireKey h (.of_name hname (by decide))) fun name hkey => ?_
  obtain rfl := Run.eq_attrKey_of_requireKey hkey
  refine .look_bind h (hanswers.reads _ (.table (by simp [hname]))) fun source _ => ?_
  exact (Endings.change (h.insertAll _)).bind_eq fun _ _ _ h => .pure h rfl

theorem loadSheet (hname : a.name = "load_data") (hexec : K.Executes exec exec' depth depth') :
    K.Endings Eq (Runner.loadSheet ⟨a, depth, exec, rounds⟩ s)
      (Runner.loadSheet ⟨b, depth', exec', rounds⟩ t) := by
  unfold Runner.loadSheet
  rw [hab.alike.checkTableType, hab.alike.checkEncoding, hab.alike.passThrough,
    hab.alike.fieldPolicy, hab.alike.requireKey]
  refine .look_bind h (hsees.concurs_checkTableType h (.of_name hname (by decide))) fun _ _ => ?_
  refine .look_bind h (hsees.concurs_checkEncoding h (.of_name hname (by decide))) fun _ _ => ?_
  refine .look_bind h (hsees.concurs_attrSwitch h (.of_name hname (by decide)) _) fun shared _ => ?_
  refine .look_bind h (hsees.concurs_fieldPolicy h (.of_name hname (by decide))
    (.of_name hname (by decide))) fun policy _ => ?_
  refine .look_bind h (hsees.concurs_requireKey h (.of_name hname (by decide))) fun name hkey => ?_
  obtain rfl := Run.eq_attrKey_of_requireKey hkey
  refine .look_bind h (hanswers.reads _ (.table (by simp [hname]))) fun source _ => ?_
  refine (Endings.change (K.setLocal h _ _)).bind_eq fun _ _ _ h => ?_
  refine (Endings.forEach _ (fun item _ s t h => ?_) h).bind_eq fun _ _ _ h => ?_
  · refine .within h shared ?_
    exact (Endings.change (h.rowScope _ _ _)).bind_eq fun _ _ _ h => completes hab h hexec
  · exact (Endings.change (K.unbound h _)).bind_eq fun _ _ _ h => .pure h rfl

theorem output (hname : a.name = "output") (hexec : K.Executes exec exec' depth depth') :
    K.Endings Eq (Runner.output ⟨a, depth, exec, rounds⟩ s)
      (Runner.output ⟨b, depth', exec', rounds⟩ t) := by
  unfold Runner.output
  rw [hab.alike.checkEncoding, hab.alike.requireKey, hab.alike.checkTableType,
    hab.alike.run_attrKey, hab.alike.outputMode, hab.alike.outputMode]
  refine .look_bind h (hsees.concurs_checkEncoding h (.of_name hname (by decide))) fun _ _ => ?_
  refine .look_bind h (hsees.concurs_requireKey h (.of_name hname (by decide))) fun name hkey => ?_
  obtain rfl := Run.eq_attrKey_of_requireKey hkey
  refine .look_bind h (h.concurs_outputPath _) fun path hpath => ?_
  obtain rfl := (Ending.done.inj hpath).1
  have hwrites := hanswers.writes _ (.output hname)
  have hends : Runner.lineEnd? t b = Runner.lineEnd? s a := by
    rw [hab.alike.lineEnd?]
    unfold Runner.lineEnd?
    rw [hsees.attrText h (.of_name hname (by decide))]
  refine .looked ?_
  rw [hends]
  have hfirst := K.likens.firstTag? hab
  revert hfirst
  dsimp only
  generalize hnone : a.firstTag? = first
  generalize b.firstTag? = second
  intro hfirst
  cases hfirst with
  | some hchild =>
    refine (hexec hchild h).bind_eq fun outcome s' t' h => ?_
    refine .look_bind h (hsees.concurs_outputMode h (.of_name hname (by decide)) _) fun mode _ => ?_
    exact (Endings.writeFile h fun v w hfiles => hwrites v w hfiles mode _).bind_eq
      fun _ _ _ h => .pure h rfl
  | none =>
    refine .look_bind h (hsees.concurs_checkTableType h (.of_name hname (by decide))) fun _ _ => ?_
    refine .look_bind h (hsees.concurs_attrKey h (.of_name hname (by decide)))
      fun columns hcols => ?_
    obtain rfl := (Ending.done.inj hcols).1
    refine .ite Iff.rfl (fun _ => .fail h _) fun _ => ?_
    refine .look_bind h (hsees.concurs_outputMode h (.of_name hname (by decide)) _) fun mode _ => ?_
    refine .look_bind h (Run.concurs_look (List.map_congr_left fun column hcolumn => ?_))
      fun row _ => ?_
    · rw [h.read (hsees.values (.column hname hnone hcolumn))]
    exact (Endings.writeFile h fun v w hfiles => hwrites v w hfiles mode _).bind_eq
      fun _ _ _ h => .pure h rfl

omit hab in
/-- **The document that a tag is given** is the same. -/
theorem concurs_readSource (hname : a.name ∈ ["json_load", "template"]) :
    (Runner.readSource a).Concurs s t := by
  unfold Runner.readSource
  refine Run.concurs_bind (hsees.concurs_attrKey h (.of_mem hname (by decide))) fun key hkey => ?_
  obtain rfl := (Ending.done.inj hkey).1
  refine Run.concurs_ite (fun _ => ?_) fun hempty => ?_
  · have hkeyed : a.name ∈ keyedNames := (by decide : ["json_load", "template"] ⊆ keyedNames) hname
    refine Run.concurs_bind (hsees.concurs_read h (.keyed hkeyed)) fun value _ => ?_
    split
    · exact Run.concurs_pure _
    · exact Run.concurs_fail _
  refine Run.concurs_bind (hsees.concurs_attrText h (.of_mem hname (by decide)))
    fun content hcontent => ?_
  obtain rfl := (Ending.done.inj hcontent).1
  split
  · exact Run.concurs_pure _
  · next hcontent =>
    refine Run.concurs_bind (hsees.concurs_attrKey h (.of_mem hname (by decide)))
      fun origin horigin => ?_
    obtain rfl := (Ending.done.inj horigin).1
    refine Run.concurs_ite (fun _ => ?_) fun _ =>
      Run.concurs_ite (fun _ => Run.concurs_fail _) fun _ => Run.concurs_pure _
    split
    · exact h.concurs_handleText _
    · next name horigin =>
      exact hanswers.reads name (.document hname (by simpa using hempty) hcontent horigin)

theorem deliver (hname : a.name ∈ ["json_dump", "template"]) (text : String) :
    K.Endings Eq (Runner.deliver a text s) (Runner.deliver b text t) := by
  rw [hab.alike.deliver]
  unfold Runner.deliver
  refine .look_bind h (hsees.concurs_attrKey h (.of_mem hname (by decide))) fun key hkey => ?_
  obtain rfl := (Ending.done.inj hkey).1
  refine .ite Iff.rfl (fun _ => .assigned h _ _ _) fun hempty => ?_
  refine .look_bind h (hsees.concurs_attrKey h (.of_mem hname (by decide))) fun goal hgoal => ?_
  obtain rfl := (Ending.done.inj hgoal).1
  refine .ite Iff.rfl (fun _ => .pure h rfl) fun _ => ?_
  cases htarget : Runner.Target.ofText (s.attrKey a "_to_file") with
  | handle name =>
    refine .look_bind h (h.concurs_handleText name) fun before _ => ?_
    exact (Endings.change (K.held h _ _)).bind_eq fun _ _ _ h => .pure h rfl
  | file name =>
    refine .look_bind h (h.concurs_outputPath name) fun path hpath => ?_
    obtain rfl := (Ending.done.inj hpath).1
    have hwrites := hanswers.writes _ (.document hname (by simpa using hempty) htarget)
    exact (Endings.writeFile h fun v w hfiles => hwrites v w hfiles _ _).bind_eq
      fun _ _ _ h => .pure h rfl

theorem loadJson (hname : a.name = "json_load") :
    K.Endings Eq (Runner.loadJson ⟨a, depth, exec, rounds⟩ s)
      (Runner.loadJson ⟨b, depth', exec', rounds⟩ t) := by
  unfold Runner.loadJson
  rw [hab.alike.checkEncoding, hab.alike.readSource, hab.alike.run_attrKey, hab.alike.name]
  refine .look_bind h (hsees.concurs_checkEncoding h (.of_name hname (by decide))) fun _ _ => ?_
  refine .look_bind h (concurs_readSource h hsees hanswers (by simp [hname])) fun source _ => ?_
  cases Json.parse? source with
  | none => exact .fail h _
  | some value =>
    refine .look_bind h (hsees.concurs_attrKey h (.of_name hname (by decide))) fun key _ => ?_
    exact .ite Iff.rfl (fun _ => .pure h rfl) fun _ => .assigned h key value false

theorem dumpJson (hname : a.name = "json_dump") :
    K.Endings Eq (Runner.dumpJson ⟨a, depth, exec, rounds⟩ s)
      (Runner.dumpJson ⟨b, depth', exec', rounds⟩ t) := by
  unfold Runner.dumpJson
  rw [hab.alike.checkEncoding, hab.alike.run_attrKey]
  refine .look_bind h (hsees.concurs_checkEncoding h (.of_name hname (by decide))) fun _ _ => ?_
  refine .look_bind h (hsees.concurs_attrKey h (.of_name hname (by decide))) fun key hkey => ?_
  obtain rfl := (Ending.done.inj hkey).1
  refine .ite Iff.rfl (fun _ => ?_) fun _ => ?_
  · exact .look_bind h (Run.concurs_pure _) fun _ _ =>
      deliver hab h hsees hanswers (by simp [hname]) _
  · exact .look_bind h (hsees.concurs_read h (.keyed (hname ▸ by decide))) fun _ _ =>
      deliver hab h hsees hanswers (by simp [hname]) _

theorem template (hname : a.name = "template") :
    K.Endings Eq (Runner.template ⟨a, depth, exec, rounds⟩ s)
      (Runner.template ⟨b, depth', exec', rounds⟩ t) := by
  unfold Runner.template
  rw [hab.alike.checkEncoding, hab.alike.readSource]
  refine .look_bind h (hsees.concurs_checkEncoding h (.of_name hname (by decide))) fun _ _ => ?_
  refine .look_bind h (concurs_readSource h hsees hanswers (by simp [hname]))
    fun source hsource => ?_
  refine .look_bind h (Run.concurs_look ?_) fun filled _ =>
    deliver hab h hsees hanswers (by simp [hname]) filled
  exact Template.render_congr fun name key path hpiece hkey =>
    hsees.lookup h (.placeholder hname hsource hpiece hkey)

theorem command (hname : a.name = "call_os_cmd") :
    K.Endings Eq (Runner.command ⟨a, depth, exec, rounds⟩ s)
      (Runner.command ⟨b, depth', exec', rounds⟩ t) := by
  unfold Runner.command
  rw [hab.alike.run_attrKey, hab.alike.run_attrText]
  refine .looked ?_
  rw [h.holds]
  refine .ite Iff.rfl (fun _ => .fail h _) fun hholds => ?_
  refine .look_bind h (hsees.concurs_attrKey h (.of_name hname (by decide)))
    fun program hprogram => ?_
  obtain rfl := (Ending.done.inj hprogram).1
  refine .ite Iff.rfl (fun _ => .pure h rfl) fun hempty => ?_
  refine .look_bind h (hsees.concurs_attrText h (.of_name hname (by decide))) fun text htext => ?_
  obtain rfl := (Ending.done.inj htext).1
  refine .looked ?_
  have hstarts := hanswers.starts hname (by simpa using hholds) (by simpa using hempty)
  revert hstarts
  dsimp only
  generalize s.world.launch _ _ = first
  generalize t.world.launch _ _ = second
  intro hstarts
  cases hstarts with
  | error why => exact .fail h _
  | ok hexits =>
    have hstarted := K.started h (s.attrKey a "cmd") (Text.words ((s.attrText a "args").getD ""))
    refine (Endings.change hstarted).bind_eq fun _ _ _ h => ?_
    cases hexits with
    | none => exact .exhausted h
    | @some x y hxy =>
      obtain ⟨hfiles, hsucceeded⟩ := hxy
      dsimp only
      rw [hsucceeded]
      exact (Endings.change (K.stored h hfiles)).bind_eq fun _ _ _ h => .pure h rfl

/-- **Every runner mirrors itself**, given a tag like the one it is given,
a frame that mirrors its own, files that answer alike, and a way to execute
tags that mirrors the one it has. -/
theorem runner (hexec : K.Executes exec exec' depth depth') {runner : Runner}
    (hrunner : (a.name, runner) ∈ builtins) :
    K.Endings Eq (runner ⟨a, depth, exec, rounds⟩ s) (runner ⟨b, depth', exec', rounds⟩ t) := by
  -- the entries of the list one by one, each with the name that the tag then has
  suffices hall : ∀ entry ∈ builtins, a.name = entry.1 →
      K.Endings Eq (entry.2 ⟨a, depth, exec, rounds⟩ s) (entry.2 ⟨b, depth', exec', rounds⟩ t) from
    hall _ hrunner rfl
  simp only [builtins, List.forall_mem_cons]
  exact ⟨fun _ => root hab h hexec,
    fun hname => sub hab h hexec hsees hname,
    fun hname => loop hab h hexec hsees hname,
    fun hname => forIn hab h hexec hsees hname,
    fun hname => condition hab h hexec hsees (by simp [hname]),
    fun hname => condition hab h hexec hsees (by simp [hname]),
    fun _ => branch hab h hexec,
    fun _ => branch hab h hexec,
    fun hname => selection hab h hexec hsees hname,
    fun _ => whenHolds hab h hexec,
    fun _ => otherwise hab h hexec,
    fun hname => assertion hab h hexec hsees (by simp [hname]) false,
    fun hname => assertion hab h hexec hsees (by simp [hname]) true,
    fun hname => membership hab h hexec hsees (by simp [hname]) false,
    fun hname => membership hab h hexec hsees (by simp [hname]) true,
    fun _ => negation hab h hexec,
    fun hname => connective hab h hexec hsees (hname ▸ by decide) .and,
    fun hname => connective hab h hexec hsees (hname ▸ by decide) .or,
    fun hname => comparison hab h hexec hsees (hname ▸ by decide) .equal,
    fun hname => comparison hab h hexec hsees (hname ▸ by decide) .notEqual,
    fun hname => comparison hab h hexec hsees (hname ▸ by decide) .less,
    fun hname => comparison hab h hexec hsees (hname ▸ by decide) .lessEqual,
    fun hname => comparison hab h hexec hsees (hname ▸ by decide) .greater,
    fun hname => comparison hab h hexec hsees (hname ▸ by decide) .greaterEqual,
    fun hname => inclusion hab h hsees hanswers hname hexec,
    fun _ => procedure hab h,
    fun hname => grant hab h hsees hname,
    fun hname => call hab h hexec hsees hname,
    fun hname => conditionalCall hab h hexec hsees hname,
    fun hname => assign hab h hsees hname hexec,
    fun hname => assignTyped hab h hsees (by simp [hname]) .integer,
    fun hname => assignTyped hab h hsees (by simp [hname]) .double,
    fun hname => assignTyped hab h hsees (by simp [hname]) .text,
    fun hname => reading hab h hsees (by simp [hname]),
    fun hname => reading hab h hsees (by simp [hname]),
    fun hname => loadVariables hab h hsees hanswers hname,
    fun hname => loadSheet hab h hsees hanswers hname hexec,
    fun hname => output hab h hsees hanswers hname hexec,
    fun hname => handleExceptions hab h hsees hname,
    fun hname => makeIterator hab h hsees hname,
    fun hname => stepIterator hab h hsees hname,
    fun hname => loadJson hab h hsees hanswers hname,
    fun hname => dumpJson hab h hsees hanswers hname,
    fun hname => template hab h hsees hanswers hname,
    fun hname => command hab h hsees hanswers hname,
    fun _ hnil => absurd hnil List.not_mem_nil⟩

end Asking

/-! ## Dispatching a tag -/

section Dispatching

include hab h

/-- **Dispatching a tag that is not too deep.** -/
theorem dispatch {limit : Option Nat} (hwithin : ∀ d, limit = some d → depth.number ≤ d)
    (hwithin' : ∀ d, limit = some d → depth'.number ≤ d)
    (hinvoked : K.Frames (s.invoke a depth) (t.invoke b depth'))
    (hsees : K.Sees a (s.invoke a depth) (t.invoke b depth'))
    (hanswers : K.Answers a (s.invoke a depth) (t.invoke b depth'))
    (hexec : K.Executes exec exec' depth depth') :
    K.Endings Eq ((Engine.standard limit).dispatch ⟨a, depth, exec, rounds⟩ s)
      ((Engine.standard limit).dispatch ⟨b, depth', exec', rounds⟩ t) := by
  have hname : b.name = a.name := hab.alike.name
  cases hget : (Engine.standard limit).runners.get? a.name with
  | none =>
    rw [Engine.dispatch_of_unknown hwithin hget, Engine.dispatch_of_unknown hwithin' (hname ▸ hget),
      hname]
    exact .fail h _
  | some runner =>
    rw [Engine.dispatch_of_runner hwithin hget, Engine.dispatch_of_runner hwithin' (hname ▸ hget)]
    exact Accord.runner hab hinvoked hsees hanswers hexec (mem_builtins_of_get? hget)

end Dispatching

end Runners

/-- **The same files answer alike.** -/
theorem answers_of_eq (hfiles : ∀ v w, K.files v w ↔ v = w) (tag : Tag) {s t : Frame}
    (h : K.Frames s t) : K.Answers tag s t := by
  have hsame : t.world.files = s.world.files := ((hfiles _ _).1 (K.stores h)).symm
  have hresolve : t.world.resolve = s.world.resolve := by
    funext name
    unfold World.resolve
    rw [hsame, K.searchPath h]
  refine ⟨fun name _ => ?_, fun _ => ?_, fun _ path _ => ?_, fun path _ v w hvw mode text => ?_,
    fun _ _ _ => ?_⟩
  · refine concurs_readFile (congrFun hresolve name) ?_
    rw [hsame]
  · unfold Runner.moduleFile?
    rw [hsame, hresolve]
  · rw [hsame]
  · obtain rfl := (hfiles v w).1 hvw
    exact .refl (fun v => (hfiles v v).2 rfl) _
  · have hlaunch : t.world.launch = s.world.launch := by
      funext program arguments
      unfold World.launch
      rw [hsame, h.primaryDir, K.system h, K.starts h]
    rw [hlaunch]
    refine .refl (fun exit? => ?_) _
    cases exit? with
    | none => exact .none
    | some exit => exact .some ⟨(hfiles _ _).2 rfl, rfl⟩

end Accord

/-! ## Mirrors -/

namespace Mirror

/-- **Frames that mirror each other accord**, with tags that are alike. -/
def accord (M : Mirror) : Accord where
  Tags := Tag.Alike
  Frames := M.Frames
  files := M.files
  free := M.free
  likens := Tag.likens_alike
  globals h := h.world.globals
  searchPath h := h.world.searchPath
  handles h := h.world.handles
  system h := h.world.system
  starts h := h.world.starts
  handlers h := h.world.handlers
  stores h := h.world.files
  procedure? h name := h.world.procedures.get? name
  privileges h := congrArg (Dict.get? · _) h.locals
  rowIndex h := congrArg (Dict.get? · _) h.locals
  copied h hafter := ⟨h.locals, hafter.world⟩
  setLocal h := h.setLocal
  unbound h key := h.change_locals fun locals => locals.erase key
  setGlobal h := h.setGlobal
  defined h hab names :=
    ⟨h.locals, { h.world with procedures := h.world.procedures.insertAll names hab }⟩
  called h hab name := h.note (.called name hab)
  started h program arguments := h.start program arguments
  installed h := ⟨h.locals, { h.world with handlers := congrArg (· + 1) h.world.handlers }⟩
  held h name text := ⟨h.locals, { h.world with
    handles := congrArg (fun handles : Dict String => handles.insert name text) h.world.handles }⟩
  locked h path := h.with_files h.world.files (congrArg (Locks.ask · path) h.world.locks)
  stored h _ _ hfiles := h.with_files hfiles h.world.locks

variable {M : Mirror}

/-- Endings that mirror each other. -/
abbrev Endings (M : Mirror) {α β : Type} (V : α → β → Prop) (x : Ending α) (y : Ending β) : Prop :=
  M.accord.Endings V x y

section Executing

variable {a b : Tag} (hab : a.Alike b) {depth : Depth} {exec exec' : Tag → Depth → Run Outcome}
  {rounds : Nat} {s t : Frame}

/-- With the same variables a tag sees the same. -/
theorem sees (tag : Tag) (h : M.Frames s t) : M.accord.Sees tag s t where
  texts _ _ _ _ h := Frames.substitute h _
  values _ := congrArg (Dict.get? · _) h.locals

include hab

/-- **Dispatching tags that are alike.** The files are asked only if the tag
is not too deep. -/
theorem dispatch {limit : Option Nat} (h : M.Frames s t)
    (hanswers : (∀ d, limit = some d → depth.number ≤ d) →
      M.accord.Answers a (s.invoke a depth) (t.invoke b depth))
    (hexec : M.accord.Executes exec exec' depth depth) :
    M.Endings Eq ((Engine.standard limit).dispatch ⟨a, depth, exec, rounds⟩ s)
      ((Engine.standard limit).dispatch ⟨b, depth, exec', rounds⟩ t) := by
  obtain hwithin | ⟨d, hlimit, hexceeds⟩ := (Engine.standard limit).isWithin_or_exceeds depth
  · have hinvoked := h.invoke hab depth
    exact Accord.dispatch (K := M.accord) hab h hwithin hwithin hinvoked (sees a hinvoked)
      (hanswers hwithin) hexec
  · rw [Engine.dispatch_of_exceeds hlimit hexceeds, Engine.dispatch_of_exceeds hlimit hexceeds]
    exact Accord.Endings.fail (K := M.accord) h _

/-- **The boundary around them.** -/
theorem boundary {x y : Run Outcome}
    (hxy : M.Endings Eq (x (s.enter a depth)) (y (t.enter b depth)))
    (hrecord : ∀ fault u handler, x (s.enter a depth) = .failed fault u →
      (u.report a depth (fault.chargedTo a.span)).handler? = some handler →
      ∀ v w, M.Worlds v w → ∀ value, M.Worlds (v.record handler value) (w.record handler value)) :
    M.Endings Eq (TagScript.boundary a depth x s) (TagScript.boundary b depth y t) := by
  unfold TagScript.boundary
  revert hxy hrecord
  generalize x (s.enter a depth) = first
  generalize y (t.enter b depth) = second
  intro hxy hrecord
  cases hxy with
  | @done outcome _ _ _ houtcome h =>
    subst houtcome
    exact .done rfl (Frames.leave h hab depth outcome)
  | @failed f g u v hcause h =>
    have hfault := Frames.fault h hab depth (f := f.chargedTo a.span) (g := g.chargedTo b.span)
      hcause fun handler hhandler => hrecord f u handler rfl hhandler
    exact .done rfl (hfault.leave hab depth .fail)
  | exhausted h => exact .exhausted h
  | free h _ => exact .free h _

end Executing

end Mirror

end TagScript
