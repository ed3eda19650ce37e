import TagScript.Proofs.Sharing

/-!
# The count of the lines being loaded

A tag that goes over the rows of a file binds the number of its lines among
the variables around it before the first row, and removes it after the last.
The tags inside it shall see the count for as long as it goes on, and the
variables around it shall have the count afterwards that they had before.

Both hold but for one thing: the removal does not bring back what there was
before. So a tag that goes over a file inside another one takes the count of
that one away if it stands in the same scope (`nested_loads_lose_count`), and
`Execution.LeavesCount` rules this out. What stands inside a block with a
scope of its own may go over as many files as it likes.
-/

namespace TagScript

/-- Whether some variables count the lines being loaded. -/
def Vars.Counts (n : Int64) (locals : Vars) : Prop :=
  locals.get? Reserved.loadedDataCount = some (.int n)

/-- **An execution with a scope of its own**: that of a script, or of a block
that does not share the local variables around it. -/
def Execution.HasScope (x : Execution) : Prop :=
  x.tag.name ∈ scopeNames ∧
    (x.tag.name = "root" ∨ Run.passThrough x.tag x.start = .done false x.start)

/-- **An execution leaves the count of the lines alone**: it does not assign
it, and it does not come to the end of a file itself. -/
structure Execution.LeavesCount (limit : Option Nat) (x : Execution) : Prop where
  /-- It is not told to assign it. -/
  assigns : x.tag.name ∈ assigningNames → ¬x.tag.Assigns x.start Reserved.loadedDataCount
  /-- It does not go over the rows of a file, or faults or does not end. -/
  loads : x.tag.name = "load_data" →
    ∀ outcome t, (Engine.standard limit).insideOf x ≠ .done outcome t

/-- **An execution in the scope of another one**: the other one itself, or one
inside it, if those between them have no scopes of their own. What stands
inside a tag that goes over a file is that tag's concern. -/
inductive Engine.InScope (e : Engine) (x : Execution) : Execution → Prop where
  /-- It is the same. -/
  | itself : InScope e x x
  /-- It is directly inside one of them. -/
  | inner {y z : Execution} (hy : InScope e x y) (hshares : ¬y.HasScope)
      (hload : y.tag.name ≠ "load_data") (hz : e.Executes y z) : InScope e x z

/-! ## What a tag that goes over a file asks for -/

namespace Run

variable {α β : Type} {exec : Tag → Depth → Run Outcome} {s t : Frame} {child : Tag}
  {depth : Depth}

/-- What is asked for after a look has been asked for. -/
theorem asks_of_looks_bind {x : Run β} (hx : x.Looks)
    {f : (Tag → Depth → Run Outcome) → β → Run α}
    (h : Asks (fun exec => x >>= f exec) exec s child depth t) :
    ∃ b, x s = .done b s ∧ Asks (fun exec => f exec b) exec s child depth t := by
  obtain hasks | ⟨b, v, hdone, hasks⟩ := asks_of_bind (.of_eq fun _ => rfl) h
  · exact absurd hasks (not_asks_of_unnoticed fun _ _ => rfl)
  · obtain rfl := hx.eq_of_done hdone
    exact ⟨b, hdone, hasks⟩

end Run

/-! ## Acts that leave the count -/

/-- The count stays with such an act, since it is no iterator. -/
theorem Act.counts {tag : Tag} (hassigns : tag.name ∉ assigningNames)
    (hload : tag.name ≠ "load_data") {n : Int64} {s t : Frame} (h : Act tag s t)
    (hs : s.locals.Counts n) : t.locals.Counts n := by
  obtain hsame | ⟨items, position, hiterator⟩ :=
    h.get?_kept hassigns hload (List.mem_cons_of_mem _ List.mem_cons_self)
  · exact hsame.trans hs
  · cases hs.symm.trans hiterator

/-! ## Going over the rows of a file -/

/-- A block that does nothing but execute the tags inside it. -/
def plainBlock : Tag := ⟨"sub", [], [], .nowhere⟩

/-- **Going over the rows upholds what binding a row does**, if no block could spoil it. -/
theorem Runner.upholds_overRows {I : Vars → Prop}
    (hact : ∀ s t, Act plainBlock s t → I s.locals → I t.locals) {sheet : Table.Sheet}
    (hrow : ∀ item ∈ sheet.rows.zipIdx, ∀ locals, I locals →
      I (rowScope sheet.columns item.1 (item.2 + 1) locals))
    (tag : Tag) (depth : Depth) (rounds : Nat) (shared : Bool) (exec : Tag → Depth → Run Outcome)
    (s : Frame) :
    Run.Upholds I (fun exec => overRows ⟨tag, depth, exec, rounds⟩ shared sheet) exec s := by
  -- apart from binding the rows the tag does nothing here that another block could not do
  let L := upholdingLogic hact exec
  refine L.holds_forEach _ (fun item hitem t => L.holds_within shared ?_) s
  refine Run.Upholds.bind (.of_eq (fun _ => rfl) (hrow item hitem t.locals)) fun _ t _ => ?_
  exact L.holds_completes (fun child _ _ => .of_execution child depth) t

/-- A row leaves the count alone. -/
theorem Runner.get?_rowScope_count {policy : Table.FieldPolicy} {source : String} {row : Vars}
    (hrow : row ∈ (Table.Sheet.ofText policy source).rows) (columns : List String) (n : Nat)
    (locals : Vars) :
    (rowScope columns row n locals).get? Reserved.loadedDataCount =
      locals.get? Reserved.loadedDataCount := by
  refine get?_rowScope_of_not_mem (fun hmem => ?_) (by decide) (by decide) columns n locals
  obtain ⟨entry, hentry, hkey⟩ := List.mem_map.1 hmem
  have hfree := Table.Sheet.not_reserved_of_mem_row hrow hentry
  rw [hkey] at hfree
  exact absurd hfree (by decide)

namespace Runner

variable {tag child : Tag} {depth outer : Depth} {exec : Tag → Depth → Run Outcome} {rounds : Nat}
  {s t : Frame}

/-- A tag that goes over a file asks for something only once it has read it. -/
theorem exists_source_of_asks
    (h : Run.Asks (fun exec => loadSheet ⟨tag, depth, exec, rounds⟩) exec s child outer t) :
    ∃ shared policy name source, Run.requireKey tag "name" s = .done name s ∧
      Run.readFile name s = .done source s ∧
      ∀ exec, loadSheet ⟨tag, depth, exec, rounds⟩ s = (do
        overRows ⟨tag, depth, exec, rounds⟩ shared (Table.Sheet.ofText policy source)
        Run.eraseLocal Reserved.loadedDataCount
        pure .ok : Run Outcome) (counted s source) := by
  obtain ⟨_, htype, h⟩ := Run.asks_of_looks_bind (Run.looks_checkTableType _) h
  obtain ⟨_, hencoding, h⟩ := Run.asks_of_looks_bind (Run.looks_checkEncoding _) h
  obtain ⟨shared, hshared, h⟩ := Run.asks_of_looks_bind (Run.looks_passThrough _) h
  obtain ⟨policy, hpolicy, h⟩ := Run.asks_of_looks_bind (Run.looks_fieldPolicy _) h
  obtain ⟨name, hfile, h⟩ := Run.asks_of_looks_bind (Run.looks_requireKey _ _) h
  obtain ⟨source, hsource, -⟩ := Run.asks_of_looks_bind (Run.looks_readFile _) h
  exact ⟨shared, policy, name, source, hfile, hsource, fun exec =>
    @loadSheet_of_source ⟨tag, depth, exec, rounds⟩ _ htype hencoding _ hshared _ hpolicy _ _ hfile
      hsource⟩

/-- What it asks for, it asks for in its rows. -/
theorem asks_loadSheet {source : String} {shared : Bool} {sheet : Table.Sheet}
    (hruns : ∀ exec, loadSheet ⟨tag, depth, exec, rounds⟩ s = (do
      overRows ⟨tag, depth, exec, rounds⟩ shared sheet
      Run.eraseLocal Reserved.loadedDataCount
      pure .ok : Run Outcome) (counted s source))
    (hrows : Run.Heeds (fun exec => overRows ⟨tag, depth, exec, rounds⟩ shared sheet) exec
      (counted s source)) :
    Run.Asks (fun exec => loadSheet ⟨tag, depth, exec, rounds⟩) exec s child outer t ↔
      Run.Asks (fun exec => overRows ⟨tag, depth, exec, rounds⟩ shared sheet) exec
        (counted s source) child outer t := by
  constructor
  · intro h
    have hrest : Run.Asks (fun exec => do
        overRows ⟨tag, depth, exec, rounds⟩ shared sheet
        Run.eraseLocal Reserved.loadedDataCount
        pure Outcome.ok) exec (counted s source) child outer t :=
      fun u other hcut hrest => (hruns other).symm.trans (h u other hcut hrest)
    obtain h | ⟨_, _, _, h⟩ := Run.asks_of_bind hrows hrest
    · exact h
    · exact absurd h (Run.not_asks_of_unnoticed fun _ _ => rfl)
  · intro h u other hcut hrest
    exact (hruns other).trans (Run.bind_of_exhausted (h u other hcut hrest) _)

end Runner

/-! ## What is left of the count -/

namespace Engine

variable {limit : Option Nat} {n : Int64}

theorem counts_ending {y : Execution}
    (h : ((standard limit).insideOf y).Reaches (Vars.Counts n)) :
    ((standard limit).ending y).Reaches (Vars.Counts n) :=
  reaches_ending (fun _ _ hsame hcounts => (hsame _ (by decide)).trans hcounts) h

theorem counts_start {y : Execution} (h : y.frame.locals.Counts n) : y.start.locals.Counts n :=
  (@Frame.get?_enter y.frame y.tag (y.outer + 1) _ (by decide) (by decide)).trans h

/-- A tag that goes over a file faults where it began, or does not end, or has
removed the count. -/
theorem inside_loadSheet {y : Execution} (hname : y.tag.name = "load_data") :
    (∃ fault u, (standard limit).insideOf y = .failed fault u ∧ u.locals = y.start.locals) ∨
      (∃ u, (standard limit).insideOf y = .exhausted u) ∨
        ∃ u, (standard limit).insideOf y = .done .ok (Runner.discounted u) := by
  obtain hfailed | ⟨shared, source, rounds, stop, t, h⟩ := @exists_goesThrough limit y hname
  · exact .inl hfailed
  · cases stop with
    | completed => exact .inr (.inr ⟨t, h.insideOf_eq⟩)
    | broken child outcome => exact .inr (.inr ⟨t, h.insideOf_eq⟩)
    | cut child => exact .inr (.inl ⟨t, h.insideOf_eq⟩)

/-- What a scope inside a scope has in it. -/
theorem InScope.of_executes {e : Engine} {x y z : Execution} (hshares : ¬x.HasScope)
    (hload : x.tag.name ≠ "load_data") (hy : e.Executes x y) (hz : e.InScope y z) :
    e.InScope x z := by
  induction hz with
  | itself => exact .inner .itself hshares hload hy
  | inner hu hshares' hload' hz ih => exact .inner ih hshares' hload' hz

/-- **The count stays as long as nothing in the scope takes it away.** -/
theorem counts_of_leavesCount {x : Execution}
    (hleaves : ∀ z, (standard limit).InScope x z → z.LeavesCount limit)
    (hcounts : x.frame.locals.Counts n) :
    ((standard limit).ending x).Reaches (Vars.Counts n) := by
  refine @Encloses.induction (standard limit) x (fun y =>
    (∀ z, (standard limit).InScope y z → z.LeavesCount limit) → y.frame.locals.Counts n →
      ((standard limit).ending y).Reaches (Vars.Counts n))
    (fun _ y _ ih hleaves hcounts => counts_ending ?_) _ x .outermost hleaves hcounts
  have hstart := @counts_start n y hcounts
  have hself := hleaves y .itself
  by_cases hscope : y.HasScope
  · exact (restores_inside hscope.1 hscope.2).mono fun _ hsame => hsame ▸ hstart
  by_cases hload : y.tag.name = "load_data"
  · obtain ⟨fault, u, hfailed, hlocals⟩ | ⟨u, hcut⟩ | ⟨u, hdone⟩ := @inside_loadSheet limit y hload
    · rw [hfailed]
      show u.locals.Counts n
      rwa [hlocals]
    · rw [hcut]
      trivial
    · exact absurd hdone (hself.loads hload _ _)
  have hasked : ∀ z, (standard limit).Executes y z → z.frame.locals.Counts n →
      ((standard limit).ending z).Reaches (Vars.Counts n) := fun z hz =>
    ih z hz fun u hu => hleaves u (hu.of_executes hscope hload hz)
  by_cases hname : y.tag.name ∈ assigningNames
  · exact (upheld_inside (upholds_of_deed (mem_leafNames_of_mem_assigningNames hname)
      fun _ _ _ s hdeed hs => (hdeed.get?_kept (by decide) (hself.assigns hname)).trans hs)
      hstart hasked).2
  · exact (upheld_inside (upholds_of_act (fun s t hact => hact.counts hname hload) _) hstart hasked).2

/-- **What the rows of a file uphold is there where a tag that goes over it executes a tag**, as
far as the executions before leave it. -/
theorem upheld_of_executes {x y : Execution} (hname : x.tag.name = "load_data")
    (hy : (standard limit).Executes x y) :
    ∃ policy name source, Run.requireKey x.tag "name" x.start = .done name x.start ∧
      Run.readFile name x.start = .done source x.start ∧
      ∀ I : Vars → Prop, (∀ s t, Act plainBlock s t → I s.locals → I t.locals) →
        (∀ item ∈ (Table.Sheet.ofText policy source).rows.zipIdx, ∀ locals, I locals →
          I (Runner.rowScope (Table.Sheet.ofText policy source).columns item.1 (item.2 + 1)
            locals)) →
        I (Runner.counted x.start source).locals →
        (∀ z, (standard limit).Executes x z → I z.frame.locals →
          ((standard limit).ending z).Reaches I) →
        I y.frame.locals := by
  have hget : (standard limit).runners.get? x.tag.name = some Runner.loadSheet :=
    get?_builtinRunners (by simp [builtins, hname])
  have hasks := hy.asks
  obtain hwithin | ⟨d, hlimit, hexceeds⟩ := (standard limit).isWithin_or_exceeds (x.outer + 1)
  · simp only [dispatch_of_runner hwithin hget] at hasks
    have hload : Run.Asks (fun exec => Runner.loadSheet ⟨x.tag, x.outer + 1, exec, x.means⟩)
      ((standard limit).execute x.means) x.start y.tag y.outer y.frame := hasks
    obtain ⟨shared, policy, name, source, hfile, hsource, hruns⟩ :=
      Runner.exists_source_of_asks hload
    refine ⟨policy, name, source, hfile, hsource, fun I hact hrow hcounted hexec => ?_⟩
    have hrows := Runner.upholds_overRows hact hrow x.tag (x.outer + 1) x.means shared
      ((standard limit).execute x.means) (Runner.counted x.start source)
    refine (hrows.upheld hcounted ?_).1 y.tag y.outer y.frame
      ((Runner.asks_loadSheet hruns hrows.heeds).1 hload)
    intro child depth t hasked
    refine of_asksFor (fun _ _ t ending => I t.locals → ending.Reaches I) (fun _ _ _ _ _ => trivial)
      hexec child depth t ?_
    simp only [Execution.AsksFor, dispatch_of_runner hwithin hget]
    exact (Runner.asks_loadSheet hruns hrows.heeds).2 hasked
  · simp only [dispatch_of_exceeds hlimit hexceeds] at hasks
    exact absurd hasks (Run.not_asks_of_unnoticed fun _ _ => rfl)

/-- **The count is there where a tag that goes over a file executes a tag**, as
far as the executions before leave it. -/
theorem counts_of_executes {x y : Execution} (hname : x.tag.name = "load_data")
    (hy : (standard limit).Executes x y)
    (hleaves : ∀ z, (standard limit).Executes x z → ∀ n, z.frame.locals.Counts n →
      ((standard limit).ending z).Reaches (Vars.Counts n)) :
    ∃ name source, Run.requireKey x.tag "name" x.start = .done name x.start ∧
      Run.readFile name x.start = .done source x.start ∧
      y.frame.locals.Counts (Int64.ofNat (Table.lineCount source - 1)) := by
  obtain ⟨policy, name, source, hfile, hsource, hupheld⟩ := upheld_of_executes hname hy
  refine ⟨name, source, hfile, hsource, hupheld (Vars.Counts _)
    (fun _ _ hact => hact.counts (by decide) (by decide)) (fun item hitem locals hcounts => ?_)
    (Dict.get?_insert_self _ _ _) fun z hz => hleaves z hz _⟩
  exact (Runner.get?_rowScope_count (List.fst_mem_of_mem_zipIdx hitem) _ _ _).trans hcounts

/-- **The count of a file's lines is there for the whole of a body.** Let a tag
go over the rows of a file, and let nothing in the scope of the tags inside it
assign the count or go over the rows of a file itself to the end. Then every
tag inside it that is executed, for whatever row, is one of its own tags, and
the count is the number of lines in its own file that follow the first.

When the tag ends, the count around it is what it was before, if there was
none or if the tag has faulted: it is removed in the end and not restored. -/
theorem execute_load_counts_lines (limit : Option Nat) {x : Execution}
    (hname : x.tag.name = "load_data")
    (hleaves : ∀ y z, (standard limit).Executes x y → (standard limit).InScope y z →
      z.LeavesCount limit) :
    (∀ y, (standard limit).Executes x y → y.tag ∈ x.tag.tags ∧
      ∃ name source, Run.requireKey x.tag "name" x.start = .done name x.start ∧
        Run.readFile name x.start = .done source x.start ∧
        y.frame.locals.get? Reserved.loadedDataCount =
          some (.int (Int64.ofNat (Table.lineCount source - 1)))) ∧
    ∀ outcome t, (standard limit).ending x = .done outcome t →
      (x.frame.locals.get? Reserved.loadedDataCount = none ∨
        ∃ fault u, (standard limit).insideOf x = .failed fault u) →
      t.locals.get? Reserved.loadedDataCount = x.frame.locals.get? Reserved.loadedDataCount := by
  constructor
  · intro y hy
    have hinside : y.tag ∈ x.tag.tags := hy.mem_tags (by rw [hname]; decide)
    exact ⟨hinside, counts_of_executes hname hy fun z hz n hcounts =>
      counts_of_leavesCount (fun u hu => hleaves z u hz hu) hcounts⟩
  · intro outcome t hends hbefore
    have hstart : x.start.locals.get? Reserved.loadedDataCount =
        x.frame.locals.get? Reserved.loadedDataCount :=
      @Frame.get?_enter x.frame x.tag (x.outer + 1) _ (by decide) (by decide)
    obtain ⟨fault, u, hfailed, hlocals⟩ | ⟨u, hcut⟩ | ⟨u, hdone⟩ := inside_loadSheet hname
    · have hending : (standard limit).ending x = _ := boundary_of_failed hfailed
      obtain rfl := (Ending.done.inj (hending.symm.trans hends)).2
      refine (Frame.get?_fault (by decide) _).trans ?_
      rw [hlocals]
      exact hstart
    · have hending : (standard limit).ending x = _ := boundary_of_exhausted hcut
      cases hending.symm.trans hends
    · have hending : (standard limit).ending x = _ := boundary_of_done hdone
      obtain rfl := (Ending.done.inj (hending.symm.trans hends)).2
      obtain hnone | ⟨fault, v, hfailed⟩ := hbefore
      · rw [hnone]
        exact (Dict.get?_erase _ _ _).trans (if_pos rfl)
      · cases hdone.symm.trans hfailed

/-! ### Files inside files -/

/-- **A tag of a body is executed** where a pass over the tags before it leads
in the first row. -/
theorem executes_of_pass {x : Execution} {name source : String} {shared : Bool}
    {policy : Table.FieldPolicy} (hload : x.tag.GoesOver x.start name shared policy)
    (hsource : Run.readFile name x.start = .done source x.start)
    (hwithin : ∀ d, limit = some d → (x.outer + 1).number ≤ d) {means : Nat}
    (hmeans : x.means = means + 1) {record : Table.Record} {more : List Table.Record}
    (hrows : Table.Sheet.accepted source = record :: more) {before after : List Tag} {child : Tag}
    (htags : x.tag.tags = before ++ child :: after) {executed : List (Tag × Option Outcome)}
    {t : Frame}
    (hpass : ((standard limit).site x.means x.tag x.outer).Pass before
      ((Runner.counted x.start source).rebind (Runner.delivery policy source (record, 0))) executed
      .completed t) :
    (standard limit).Executes x ⟨child, x.outer + 1, t, means⟩ where
  means := hmeans
  asks u other hcut hrest := by
    obtain ⟨executed, c, hcutPass⟩ := hpass.exists_cut hcut hrest after
    rw [← htags] at hcutPass
    obtain ⟨rounds, hrounds⟩ : ∃ rounds, Site.Rounds ⟨x.tag, x.outer + 1, other, x.means⟩ shared
        (Runner.delivery policy source) (Table.Sheet.accepted source).zipIdx
        (Runner.counted x.start source) rounds (.cut c) u := by
      rw [hrows]
      exact ⟨_, .cut hcutPass⟩
    have hget : (standard limit).runners.get? x.tag.name = some Runner.loadSheet :=
      get?_builtinRunners (by simp [builtins, hload.name_eq])
    dsimp only
    rw [dispatch_of_runner hwithin hget]
    exact @Runner.loadSheet_of_deliveries ⟨x.tag, x.outer + 1, other, x.means⟩ _ _ _ _ _ _ hload
      hsource _ _ hrounds

/-- A tag that executes nothing. -/
def resting : Tag := ⟨"sub", [], [], .nowhere⟩

/-- A tag that goes over the rows of a file. -/
def loading (inner : List Tag) : Tag :=
  ⟨"load_data", [("name", some "rows.csv")], inner.map .tag, .nowhere⟩

/-- Its execution where the file has one row. -/
def loadingRow (inner : List Tag) : Execution :=
  ⟨loading inner, 0,
    ⟨[], { World.ofFiles ((Files.empty []).makeFile ["rows.csv"] (.text "a\n1\n")) "" .bare
      with searchPath := ["."] }⟩, 2⟩

/-- The frame in which the row begins. -/
def rowFrame (inner : List Tag) : Frame :=
  (Runner.counted (loadingRow inner).start "a\n1\n").rebind
    (Runner.delivery ⟨true, false⟩ "a\n1\n" (["1"], 0))

theorem accepted_row : Table.Sheet.accepted "a\n1\n" = [["1"]] := by decide +kernel

/-- A block that executes nothing is the only one in its scope. -/
theorem eq_of_inScope_resting {e : Engine} {y z : Execution} (hy : y.tag = resting)
    (h : e.InScope y z) : z = y := by
  induction h with
  | itself => rfl
  | inner hy' hshares _ _ ih =>
    subst ih
    refine absurd ⟨?_, .inr ?_⟩ hshares
    · rw [hy]
      decide
    · rw [hy]
      rfl

/-- The count is there in a body without files, and gone after it. -/
theorem resting_load_counts_lines :
    (∀ y z, (standard none).Executes (loadingRow [resting]) y → (standard none).InScope y z →
      z.LeavesCount none) ∧
    (∃ y, (standard none).Executes (loadingRow [resting]) y ∧
      y.frame.locals.get? Reserved.loadedDataCount = some (.int 1)) ∧
    ∃ outcome t, (standard none).ending (loadingRow [resting]) = .done outcome t ∧
      t.locals.get? Reserved.loadedDataCount = none := by
  have hleaves : ∀ y z, (standard none).Executes (loadingRow [resting]) y →
      (standard none).InScope y z → z.LeavesCount none := by
    intro y z hy hz
    have htag : y.tag = resting := List.mem_singleton.1 (hy.mem_tags (by decide))
    obtain rfl := eq_of_inScope_resting htag hz
    constructor
    · rw [htag]
      exact fun h => absurd h (by decide)
    · rw [htag]
      exact fun h => absurd h (by decide)
  obtain ⟨hbegins, hends⟩ := execute_load_counts_lines none rfl hleaves
  have hexecutes := @executes_of_pass none (loadingRow [resting]) _ _ _ _
    ⟨rfl, rfl, rfl, rfl, rfl, rfl, rfl⟩ rfl (fun _ h => absurd h (Option.some_ne_none _).symm) 1 rfl
    _ _ accepted_row [] [] resting rfl _ _ (.completed (rowFrame [resting]))
  have hdone : ∃ outcome t, (standard none).ending (loadingRow [resting]) = .done outcome t :=
    ⟨_, _, rfl⟩
  obtain ⟨outcome, t, hdone⟩ := hdone
  refine ⟨hleaves, ⟨_, hexecutes, ?_⟩, outcome, t, hdone, ?_⟩
  · obtain ⟨-, name, source, hfile, hsource, hcount⟩ := hbegins _ hexecutes
    obtain rfl : name = "rows.csv" := (Ending.done.inj (hfile.symm.trans rfl)).1
    obtain rfl : source = "a\n1\n" := (Ending.done.inj (hsource.symm.trans rfl)).1
    exact hcount.trans rfl
  · exact hends outcome t hdone (.inl rfl)

/-- **A file inside a file takes its count away**: the tag after the inner one
is executed without the count, though nothing assigns it, and the inner tag
has not left it as it was. -/
theorem nested_loads_lose_count :
    (∀ child ∈ (loading [loading [], resting]).tags,
      child.name ∉ assigningNames ∧ child.tags = []) ∧
    ∃ y z t, (standard none).Executes (loadingRow [loading [], resting]) y ∧
      y.tag = loading [] ∧
      y.frame.locals.get? Reserved.loadedDataCount = some (.int 1) ∧
      (standard none).ending y = .done .ok t ∧
      t.locals.get? Reserved.loadedDataCount = none ∧
      (standard none).Executes (loadingRow [loading [], resting]) z ∧ z.tag = resting ∧
      z.frame.locals.get? Reserved.loadedDataCount = none := by
  have hload : (loading [loading [], resting]).GoesOver (loadingRow [loading [], resting]).start
      "rows.csv" false ⟨true, false⟩ := ⟨rfl, rfl, rfl, rfl, rfl, rfl, rfl⟩
  have hwithin : ∀ d, none = some d → ((loadingRow [loading [], resting]).outer + 1).number ≤ d :=
    fun _ h => absurd h (Option.some_ne_none _).symm
  have hinner : ∃ t, (standard none).execute 2 (loading []) 1 (rowFrame [loading [], resting]) =
      .done .ok t ∧ t.locals.get? Reserved.loadedDataCount = none := ⟨_, rfl, rfl⟩
  obtain ⟨t, hdone, hgone⟩ := hinner
  have hfirst := @executes_of_pass none (loadingRow [loading [], resting]) _ _ _ _ hload rfl hwithin
    1 rfl _ _ accepted_row [] [resting] (loading []) rfl _ _ (.completed _)
  have hsecond := @executes_of_pass none (loadingRow [loading [], resting]) _ _ _ _ hload rfl
    hwithin 1 rfl _ _ accepted_row [loading []] [] resting rfl _ t
    (.next hdone (by decide) (.completed t))
  exact ⟨by decide, _, _, t, hfirst, rfl, rfl, hdone, hgone, hsecond, rfl, hgone⟩

end Engine

end TagScript
