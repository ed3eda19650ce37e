import TagScript.Proofs.Sheet

/-!
# What was put out is loaded again

A tag that loads a sheet goes over the tags inside it once for every row,
with a variable for every column. If the file it reads spells some columns
and under them some records, then in the beginning of every round each
column is what stands in the record (`Engine.exists_rounds_of_records`).
Together with what outputs leave in a file (`Engine.exists_succession`) this
makes loads inverse to outputs.

## Where nothing was put out

A name that stands for no file in the first directory of the search path
is looked for in the others, and nothing is written there. So the two are
not inverse for no output at all: the load may then find a file that has
always been in another directory, and goes over its rows. One output is
enough to rule that out.
-/

namespace TagScript

/-! ## Loading a sheet -/

/-- **A tag that goes over the rows of a file**, going by what its attributes
read as; it leaves the blanks around the fields. -/
structure Tag.LoadsSheet (tag : Tag) (s : Frame) (name : String) (shared nullable : Bool) :
    Prop where
  /-- It is a tag of that kind. -/
  name_eq : tag.name = "load_data"
  /-- Its encoding is a known one. -/
  encoded : Run.encodings.contains (Text.lower (s.attrKey tag "encoding")) = true
  /-- Its table is of the known type. -/
  typed : ((s.attrKey tag "type").isEmpty || Text.sameIgnoringCase (s.attrKey tag "type") "csv") = true
  /-- Whether it works on the local variables themselves. -/
  sharing : Run.passThrough tag s = .done shared s
  /-- It does not cut off blanks. -/
  unstripped : Run.attrSwitch tag "auto_strip" true s = .done false s
  /-- What it takes a field for that is not there. -/
  nullability : Run.attrSwitch tag "allow_none" false s = .done nullable s
  /-- It names the file. -/
  file : s.attrKey tag "name" = name
  /-- The file has a name. -/
  named : name.isEmpty = false

/-- It goes over the rows as a tag that leaves the blanks does. -/
theorem Tag.LoadsSheet.goesOver {tag : Tag} {s : Frame} {name : String} {shared nullable : Bool}
    (h : tag.LoadsSheet s name shared nullable) : tag.GoesOver s name shared ⟨false, nullable⟩ where
  name_eq := h.name_eq
  encoded := h.encoded
  typed := h.typed
  sharing := h.sharing
  reading := by
    unfold Run.fieldPolicy
    rw [Run.bind_of_done h.unstripped, Run.bind_of_done h.nullability]
    rfl
  file := h.file
  named := h.named

/-- Attributes that read alike make a tag load the same sheet. -/
theorem Tag.LoadsSheet.of_clock {load : Occasion} {w w' : World} {name : String}
    {shared nullable : Bool} (h : load.tag.LoadsSheet (load.start w) name shared nullable)
    (hclock : w'.clock = w.clock) :
    load.tag.LoadsSheet (load.start w') name shared nullable where
  name_eq := h.name_eq
  encoded := by
    rw [Occasion.attrKey_start hclock]
    exact h.encoded
  typed := by
    rw [Occasion.attrKey_start hclock]
    exact h.typed
  sharing := Run.attrSwitch_of_attrText (Occasion.attrText_start hclock _) h.sharing
  unstripped := Run.attrSwitch_of_attrText (Occasion.attrText_start hclock _) h.unstripped
  nullability := Run.attrSwitch_of_attrText (Occasion.attrText_start hclock _) h.nullability
  file := (Occasion.attrKey_start hclock _).trans h.file
  named := h.named

/-! ## What a body reads -/

/-- What some variables are when a round begins. -/
def Round.reads (columns : List String) (round : Round) : List (Option Value) :=
  columns.map round.start.locals.get?

/-- What the columns of a sheet read as, row by row. -/
def Table.Sheet.readings (rs : List Record) : List (List (Option Value)) :=
  (rs.filter isRow).map (·.map fun text => some (.str text))

/-- **What the columns are in the scopes of the rows** is what stands in the
records. -/
theorem Table.Sheet.map_zipIdx_readings {columns : List String} (h : Headings columns)
    (nullable : Bool) {body : List Record} (hbody : ∀ record ∈ body, record.length = columns.length) :
    (((body.filter isRow).map (row ⟨false, nullable⟩ columns)).zipIdx.map
      fun item => columns.map item.1.get?) = readings body := by
  have hfst : ∀ rows : List Vars, rows.zipIdx.map (fun item => columns.map item.1.get?) =
      rows.map fun row => columns.map row.get? := fun rows => by
    rw [show (fun item : Vars × Nat => columns.map item.1.get?) =
      (fun row : Vars => columns.map row.get?) ∘ Prod.fst from rfl, ← List.map_map,
      List.zipIdx_map_fst]
  rw [hfst, List.map_map]
  refine List.map_congr_left fun record hrecord => ?_
  exact map_get?_row h nullable (hbody record (List.mem_filter.1 hrecord).1)

/-! ## The rounds of a tag -/

/-- **The rounds in which a tag goes over the tags inside it**: none if it
faults before the first of them, and otherwise rounds that begin in the
world in which the tag does and leave the one in which it ends. -/
inductive Engine.Rounds (e : Engine) (means : Nat) (tag : Tag) (outer : Depth) (s : Frame) :
    List Round → Stop → Prop where
  /-- It faults and has done nothing. -/
  | refused {fault : Fault} (h : e.inside means tag outer s = .failed fault (s.begin tag outer)) :
      Rounds e means tag outer s [] .completed
  /-- It makes rounds, one for each of some items. -/
  | made {γ : Type} {shared : Bool} {binding : γ → Vars → Vars} {items : List γ}
      {before t after : Frame} {rounds : List Round} {stop : Stop}
      (hbefore : before.world = (s.begin tag outer).world)
      (hrounds : (e.site means tag outer).Rounds shared binding items before rounds stop t)
      (hafter : after.world = t.world)
      (h : e.inside means tag outer s =
        stop.elim (.done .ok after) (fun _ _ => .done .ok after) (.exhausted t)) :
      Rounds e means tag outer s rounds stop

namespace Engine

/-- Tags that always yield true do so in every round that a tag makes over
them. -/
theorem Rounds.holds {e : Engine} {means : Nat} {tag : Tag} {outer : Depth} {s : Frame}
    {rounds : List Round} {stop : Stop}
    (htags : ∀ child ∈ tag.tags, ∀ s, ∃ outcome t,
      (e.site means tag outer).run child s = .done outcome t ∧ outcome.truthy = true)
    (h : e.Rounds means tag outer s rounds stop) : ∀ round ∈ rounds, round.Holds := by
  cases h with
  | refused h => exact fun _ he => absurd he List.not_mem_nil
  | made hbefore hrounds hafter h => exact hrounds.holds htags

/-- Where there is no round the world stays as it is. -/
theorem Rounds.world_of_nil {e : Engine} {means : Nat} {tag : Tag} {outer : Depth} {s : Frame}
    {stop : Stop} (h : e.Rounds means tag outer s [] stop) :
    (e.inside means tag outer s).after.world = (s.begin tag outer).world := by
  cases h with
  | refused h =>
    rw [h]
    rfl
  | made hbefore hrounds hafter h =>
    cases hrounds with
    | none =>
      rw [h]
      exact hafter.trans hbefore

/-! ## Loading what a file spells -/

variable {load : Occasion} {w : World} {name source : String} {shared nullable : Bool}

/-- A load whose file is read makes a round for every row of the sheet. -/
theorem exists_rounds_of_readFile (limit : Option Nat) (means : Nat)
    (h : load.tag.LoadsSheet (load.start w) name shared nullable)
    (hdepth : ∀ d, limit = some d → (load.outer + 1).number ≤ d)
    (hsource : Run.readFile name (load.start w) = .done source (load.start w))
    {sheet : Table.Sheet} (hsheet : sheet = Table.Sheet.ofText ⟨false, nullable⟩ source) :
    ∃ rounds stop before t, ((standard limit).site means load.tag load.outer).Rounds shared
        (fun item => Runner.rowScope sheet.columns item.1 (item.2 + 1)) sheet.rows.zipIdx before
        rounds stop t ∧
      (standard limit).Rounds means load.tag load.outer (load.frame w) rounds stop ∧
      (stop = .completed →
        ∃ u, (standard limit).execute (means + 1) load.tag load.outer (load.frame w) =
          .done .ok u) := by
  have hexec := (standard limit).run_ne_failed means load.tag load.outer
  have hmem : (load.tag.name, Runner.loadSheet) ∈ builtins := by
    simp [builtins, h.name_eq]
  obtain ⟨rounds, stop, t, hrounds⟩ := Site.exists_rounds hexec shared
    (fun item : Vars × Nat => Runner.rowScope sheet.columns item.1 (item.2 + 1)) sheet.rows.zipIdx
    ((load.start w).setLocal Reserved.loadedDataCount (.int (Int64.ofNat sheet.count)))
  have hinside := (inside_of_mem hmem hdepth means (load.frame w)).trans
    (@Runner.loadSheet_of_rounds ((standard limit).site means load.tag load.outer) _ _ _ _ _ _
      h.goesOver hsource _ hsheet _ _ hrounds)
  refine ⟨rounds, stop, _, t, hrounds, ?_, ?_⟩
  · have hbefore : ((load.start w).setLocal Reserved.loadedDataCount
        (.int (Int64.ofNat sheet.count))).world =
        ((load.frame w).begin load.tag load.outer).world := rfl
    have hafter : (t.rebind (·.erase Reserved.loadedDataCount)).world = t.world := rfl
    exact .made hbefore hrounds hafter hinside
  · rintro rfl
    exact ⟨_, boundary_of_done hinside⟩

/-- **A load runs its body once for each row**, with the columns bound to what
stands in the row, as long as no tag yields false. -/
theorem exists_rounds_of_records (limit : Option Nat) (means : Nat)
    (h : load.tag.LoadsSheet (load.start w) name shared nullable)
    (hdepth : ∀ d, limit = some d → (load.outer + 1).number ≤ d)
    (hsource : Run.readFile name (load.start w) = .done source (load.start w))
    {columns : List String} (hcolumns : Table.Headings columns) {body : List Table.Record}
    (hrecords : Table.records source = columns :: body)
    (hbody : ∀ record ∈ body, record.length = columns.length) :
    ∃ rounds stop, (standard limit).Rounds means load.tag load.outer (load.frame w) rounds stop ∧
      rounds.map (·.reads columns) <+: Table.Sheet.readings body ∧
      ((∀ round ∈ rounds, round.Holds) →
        rounds.map (·.reads columns) = Table.Sheet.readings body ∧
        ∃ u, (standard limit).execute (means + 1) load.tag load.outer (load.frame w) =
          .done .ok u) := by
  obtain ⟨hheadings, hrows⟩ := Table.Sheet.ofText_of_records hcolumns ⟨false, nullable⟩ hrecords
  obtain ⟨rounds, stop, before, t, hrounds, hmade, hends⟩ :=
    exists_rounds_of_readFile limit means h hdepth hsource rfl
  rw [hheadings, hrows] at hrounds
  have hfixed : ∀ item ∈ ((body.filter Table.Sheet.isRow).map
      (Table.Sheet.row ⟨false, nullable⟩ columns)).zipIdx, ∀ s : Frame,
      columns.map (s.rebind (Runner.rowScope columns item.1 (item.2 + 1))).locals.get? =
        columns.map item.1.get? := by
    intro item hitem s
    obtain ⟨record, -, hrow⟩ := List.mem_map.1 (List.fst_mem_of_mem_zipIdx hitem)
    refine List.map_congr_left fun column hcolumn => ?_
    obtain ⟨n, hn⟩ := List.getElem?_of_mem hcolumn
    have hread := Table.Sheet.get?_row hcolumns ⟨false, nullable⟩ record hn
    rw [hrow] at hread
    have hascending : item.1.Ascending := by
      rw [← hrow]
      exact Dict.ascending_ofList _
    rw [hread]
    exact Runner.get?_rowScope (hcolumns.free column hcolumn) hascending hread _ _ _
  have hfront := hrounds.isPrefix (f := fun s => columns.map s.locals.get?) hfixed
  rw [Table.Sheet.map_zipIdx_readings hcolumns nullable hbody] at hfront
  refine ⟨rounds, stop, hmade, hfront, fun hholds => ?_⟩
  have hcalls : ¬((standard limit).site means load.tag load.outer).calls := by
    simp [Site.calls, h.name_eq]
  obtain ⟨hstop, hlength⟩ := hrounds.completed_of_holds hcalls hholds
  refine ⟨hfront.eq_of_length ?_, hends hstop⟩
  rw [List.length_map, hlength]
  simp [Table.Sheet.readings]

/-- A name stands for the same file while a tag begins. -/
theorem readText_start (o : Occasion) (w : World) (name : String) :
    (o.start w).world.files.readText ((o.start w).world.resolve name) =
      w.files.readText (w.resolve name) := by
  have hfiles : (o.start w).world.files = w.files := Frame.files_begin
  have hsearch : (o.start w).world.searchPath = w.searchPath := Frame.searchPath_begin
  unfold World.resolve
  rw [hfiles, hsearch]

/-- **A load goes over no row if nothing was put out** and it finds no file
with anything in it. -/
theorem rounds_of_no_text (limit : Option Nat) (means : Nat)
    (h : load.tag.LoadsSheet (load.start w) name shared nullable)
    (hdepth : ∀ d, limit = some d → (load.outer + 1).number ≤ d)
    (hnothing : ∀ text, w.files.readText (w.resolve name) = .ok text → text = "") :
    (standard limit).Rounds means load.tag load.outer (load.frame w) [] .completed := by
  cases hread : w.files.readText (w.resolve name) with
  | error why =>
    have hmem : (load.tag.name, Runner.loadSheet) ∈ builtins := by
      simp [builtins, h.name_eq]
    rw [← readText_start load] at hread
    exact .refused ((inside_of_mem hmem hdepth means (load.frame w)).trans
      (@Runner.loadSheet_of_error ((standard limit).site means load.tag load.outer) _ _ _ _ h.goesOver
        _ hread))
  | ok text =>
    obtain rfl := hnothing text hread
    rw [← readText_start load] at hread
    obtain ⟨rounds, stop, before, t, hrounds, hmade, -⟩ :=
      exists_rounds_of_readFile limit means h hdepth (Run.readFile_of_readText hread) rfl
    -- a sheet without a text has no rows
    cases hrounds with
    | none => exact hmade

/-! ## Loading what was put out -/

/-- **Loading restores what was put out.** Let tags put out the same columns,
each on its own occasion, to one file in the first directory of the search
path that can be written to and is not there or empty. Then all of them
succeed, and afterwards the file has the headings once and under them a row
for each.

A tag that next goes over the rows of the file runs the tags inside it once
for every row whose first field is not blank, one after the other, and in
the beginning of each round every column is the text that was put out.
That holds as long as no tag inside yields false. If nothing at all was
put out the name may stand for another file, which must then be empty. -/
theorem load_restores_outputs (limit : Option Nat) (means means' : Nat) {w : World}
    {name dir : String} {rest columns : List String} {place : Location} {scopes : List Occasion}
    {load : Occasion} {shared nullable : Bool} (hcolumns : Table.Headings columns)
    (hdir : w.searchPath = dir :: rest) (hplace : w.files.Writable (Path.join dir name) place)
    (hempty : w.files.entry? place = none ∨ w.files.entry? place = some (.file (.text "")))
    (houtputs : ∀ o ∈ scopes, o.tag.Outputs (o.start w) name columns)
    (hload : load.tag.LoadsSheet (load.start w) name shared nullable)
    (hdepth : ∀ o ∈ load :: scopes, ∀ d, limit = some d → (o.outer + 1).number ≤ d)
    (hnothing : scopes = [] →
      ∀ text, w.files.readText (w.resolve name) = .ok text → text = "") :
    ∃ w', (standard limit).Succession (means + 1) w scopes w' ∧
      (scopes ≠ [] → ∃ text, w'.files.readText (Path.join dir name) = .ok text ∧
        Table.records text = columns :: scopes.map (·.row columns)) ∧
      ∃ rounds stop,
        (standard limit).Rounds means' load.tag load.outer (load.frame w') rounds stop ∧
        rounds.map (·.reads columns) <+: Table.Sheet.readings (scopes.map (·.row columns)) ∧
        ((∀ round ∈ rounds, round.Holds) →
          rounds.map (·.reads columns) = Table.Sheet.readings (scopes.map (·.row columns)) ∧
          (scopes ≠ [] → ∃ u, (standard limit).execute (means' + 1) load.tag load.outer
            (load.frame w') = .done .ok u)) := by
  have hdepth' := hdepth load List.mem_cons_self
  by_cases hnone : scopes = []
  · subst hnone
    exact ⟨w, .none w, fun hne => absurd rfl hne, [], .completed,
      rounds_of_no_text limit means' hload hdepth' (hnothing rfl), List.prefix_rfl,
      fun _ => ⟨rfl, fun hne => absurd rfl hne⟩⟩
  · obtain ⟨w', hsuccession, hsearch, hclock, hstores⟩ := exists_succession limit means hcolumns hdir
      (World.Stores.of_empty hplace hempty) houtputs
      fun o hmem => hdepth o (List.mem_cons_of_mem _ hmem)
    have hrows : scopes.map (·.row columns) ≠ [] := fun h => hnone (List.map_eq_nil_iff.1 h)
    rw [Table.foldl_withRow columns hrows] at hstores
    obtain ⟨text, hentry, hspells⟩ := hstores.exists_entry (List.cons_ne_nil _ _)
    have hread : w'.files.readText (w'.resolve name) = .ok text :=
      World.readText_resolve (hsearch.trans hdir) hstores.writable hentry
    rw [← readText_start load] at hread
    have hsource := Run.readFile_of_readText hread
    rw [Text.dropMarks_eq_self hspells.unmarked] at hsource
    have hlength : ∀ record ∈ scopes.map (·.row columns), record.length = columns.length := by
      intro record hrecord
      obtain ⟨o, -, rfl⟩ := List.mem_map.1 hrecord
      exact List.length_map _
    obtain ⟨rounds, stop, hrounds, hfront, hholds⟩ := exists_rounds_of_records limit means'
      (hload.of_clock hclock) hdepth' hsource hcolumns hspells.records hlength
    refine ⟨w', hsuccession, fun _ => ⟨text, hstores.writable.readText hentry, hspells.records⟩,
      rounds, stop, hrounds, hfront, fun hall => ?_⟩
    obtain ⟨heq, hdone⟩ := hholds hall
    exact ⟨heq, fun _ => hdone⟩

/-- A tag that puts out two variables. -/
def listing (lineEnd : String) : Tag :=
  ⟨"output", [("cols", some "id, note"), ("name", some "list.csv"), ("newline", some lineEnd)], [],
    .nowhere⟩

/-- Occasions on which texts are put out that have to be quoted, one with a
blank in the first column, and a number. -/
def listed : List Occasion :=
  [⟨listing "\\n", 0, [("id", .str "a"), ("note", .str "say \"no\",\r\nor go ")], []⟩,
    ⟨listing "\\r", 3, [("id", .str " ")], [("note", .str "left out")]⟩,
    ⟨listing "", 1, [("id", .int 7)], []⟩]

/-- A tag that goes over what was put out. -/
def relisting : Occasion :=
  ⟨⟨"load_data", [("auto_strip", some "false"), ("name", some "list.csv")],
    [.tag ⟨"sub", [], [], .nowhere⟩], .nowhere⟩, 0, [], []⟩

/-- A world with one directory and no file. -/
def unlisted : World := { World.ofFiles (.empty []) "" .bare with searchPath := ["."] }

theorem headings_listed : Table.Headings ["id", "note"] where
  nonempty := by decide
  nodup := by decide
  undivided := by decide
  free := by decide
  unmarked := by
    rintro column ⟨⟩ c ⟨⟩
    decide

theorem truthy_of_mem_relisting (child : Tag) (h : child ∈ relisting.tag.tags) (s : Frame) :
    ∃ outcome t, ((standard none).site 1 relisting.tag relisting.outer).run child s =
      .done outcome t ∧ outcome.truthy = true := by
  obtain rfl := List.mem_singleton.1 h
  exact ⟨_, _, rfl, rfl⟩

theorem relisting_restores_listed :
    Table.Headings ["id", "note"] ∧ unlisted.searchPath = ["."] ∧
    unlisted.files.Writable (Path.join "." "list.csv") ["list.csv"] ∧
    unlisted.files.entry? ["list.csv"] = none ∧
    (∀ o ∈ listed, o.tag.Outputs (o.start unlisted) "list.csv" ["id", "note"]) ∧
    relisting.tag.LoadsSheet (relisting.start unlisted) "list.csv" false false ∧
    ∃ w' text rounds stop, (standard none).Succession 1 unlisted listed w' ∧
      w'.files.readText "./list.csv" = .ok text ∧
      Table.records text = [["id", "note"], ["a", "say \"no\",\r\nor go "], [" ", "left out"],
        ["7", ""]] ∧
      (standard none).Rounds 1 relisting.tag relisting.outer (relisting.frame w') rounds stop ∧
      rounds.map (·.reads ["id", "note"]) =
        [[some (.str "a"), some (.str "say \"no\",\r\nor go ")], [some (.str "7"), some (.str "")]] := by
  have hplace : unlisted.files.Writable (Path.join "." "list.csv") ["list.csv"] := ⟨rfl, by decide⟩
  have houtputs : ∀ o ∈ listed, o.tag.Outputs (o.start unlisted) "list.csv" ["id", "note"] := by
    intro o ho
    simp only [listed, List.mem_cons, List.not_mem_nil, or_false] at ho
    obtain rfl | rfl | rfl := ho
    · exact ⟨rfl, rfl, rfl, rfl, rfl, rfl, rfl, rfl⟩
    · exact ⟨rfl, rfl, rfl, rfl, rfl, rfl, rfl, rfl⟩
    · exact ⟨rfl, rfl, rfl, rfl, rfl, rfl, rfl, rfl⟩
  have hload : relisting.tag.LoadsSheet (relisting.start unlisted) "list.csv" false false :=
    ⟨rfl, rfl, rfl, rfl, rfl, rfl, rfl, rfl⟩
  have hsome : listed ≠ [] := List.cons_ne_nil _ _
  obtain ⟨w', hsuccession, hwritten, rounds, stop, hrounds, -, hholds⟩ :=
    load_restores_outputs none 0 1 headings_listed rfl hplace (.inl rfl) houtputs hload nofun
      fun hnone => absurd hnone hsome
  obtain ⟨text, hread, hrecords⟩ := hwritten hsome
  exact ⟨headings_listed, rfl, hplace, rfl, houtputs, hload, w', text, rounds, stop, hsuccession,
    hread, hrecords, hrounds, (hholds (hrounds.holds truthy_of_mem_relisting)).1⟩

/-- A world in which there is such a file, but not in the first directory of
the search path. -/
def littered : World :=
  { World.ofFiles (((Files.empty []).makeDirectory ["a"]).makeFile ["b", "list.csv"]
      (.text "id,note\nx,y\n")) "" .bare with
    searchPath := ["a", "b"]
    keeps := fun _ => true }

/-- **Where nothing was put out a load may go over the rows of another file**,
one that stands elsewhere on the search path. -/
theorem not_forall_load_restores_outputs :
    ¬ ∀ (w : World) (name dir : String) (rest columns : List String) (place : Location)
      (scopes : List Occasion) (load : Occasion), Table.Headings columns →
      w.searchPath = dir :: rest → w.files.Writable (Path.join dir name) place →
      w.files.entry? place = none ∨ w.files.entry? place = some (.file (.text "")) →
      (∀ o ∈ scopes, o.tag.Outputs (o.start w) name columns) →
      load.tag.LoadsSheet (load.start w) name false false →
      ∃ w' rounds stop, (standard none).Succession 1 w scopes w' ∧
        (standard none).Rounds 1 load.tag load.outer (load.frame w') rounds stop ∧
        ((∀ round ∈ rounds, round.Holds) →
          rounds.map (·.reads columns) = Table.Sheet.readings (scopes.map (·.row columns))) := by
  intro h
  have hplace : littered.files.Writable (Path.join "a" "list.csv") ["a", "list.csv"] :=
    ⟨rfl, by decide⟩
  obtain ⟨w', rounds, stop, hsuccession, hrounds, hholds⟩ :=
    h littered "list.csv" "a" ["b"] ["id", "note"] _ [] relisting headings_listed rfl hplace
      (.inl rfl) nofun ⟨rfl, rfl, rfl, rfl, rfl, rfl, rfl, rfl⟩
  cases hsuccession
  obtain rfl : rounds = [] := List.map_eq_nil_iff.1 (hholds (hrounds.holds truthy_of_mem_relisting))
  -- the tag inside is executed all the same, and the journal tells it
  have hjournal := congrArg (·.journal.length) hrounds.world_of_nil
  exact absurd hjournal (by decide +kernel)

end Engine

end TagScript
